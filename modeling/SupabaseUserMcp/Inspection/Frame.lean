import SupabaseUserMcp.Inspection
import SupabaseUserMcp.Js.Measure

/- The length of a response. A frame is what stands before the request id, the id
   and what stands after it, and the length is the sum. Of an output whose JSON is
   plain, the frame with the null id has a constant length and the weight of the
   output. -/
namespace Inspection

open Js

/-! Frames. -/

def responseHead : Text :=
  [0x7B] ++ (quote (text "jsonrpc") ++ [0x3A] ++ quote (text "2.0")) ++ [0x2C] ++
    quote (text "id") ++ [0x3A]

def responseTail (result : Text) : Text :=
  [0x2C] ++ quote (text "result") ++ [0x3A] ++ result ++ [0x7D]

theorem stringify_jsonRpcResponse {fractionText : ℚ → Text} {requestId result : Value}
    {idJson resultJson : Text} (hid : stringify? fractionText requestId = some idJson)
    (hresult : stringify? fractionText result = some resultJson) :
    stringify fractionText (jsonRpcResponse requestId result) =
      responseHead ++ idJson ++ responseTail resultJson := by
  have hversion : stringify? fractionText (.string (text "2.0")) = some (quote (text "2.0")) := rfl
  simp only [stringify, jsonRpcResponse, property, stringify?_object, Option.getD_some]
  rw [stringifyProperties_cons hversion, stringifyProperties_cons hid,
    stringifyProperties_cons hresult, stringifyProperties]
  simp [commaJoin, List.intercalate_cons_cons, responseHead, responseTail]

/-- The length of a frame, its newline included. -/
theorem utf8Length_frame (idJson resultJson : Text) :
    utf8Length (responseHead ++ idJson ++ responseTail resultJson ++ [0x0A]) =
      utf8Length responseHead + utf8Length idJson + utf8Length (responseTail resultJson ++ [0x0A]) := by
  have hcolon : (responseHead.getLast?.any isHighSurrogate) = false := by decide
  have hcomma : ((responseTail resultJson ++ [0x0A]).head?.any isLowSurrogate) = false := rfl
  rw [List.append_assoc, utf8Length_append (by rw [hcomma, Bool.and_false]),
    utf8Length_append (by rw [hcolon, Bool.false_and])]

/-! The result of an output. -/

/-- The JSON of a flag. -/
def boolJson (b : Bool) : Text := if b then text "true" else text "false"

/-- The JSON of the content of a tool result, from the model-visible text. -/
def contentJson (visible : Text) : Text :=
  [0x5B] ++ ([0x7B] ++ (quote (text "type") ++ [0x3A] ++ quote (text "text") ++ [0x2C] ++
    (quote (text "text") ++ [0x3A] ++ quote visible)) ++ [0x7D]) ++ [0x5D]

/-- The JSON of a tool result, from the model-visible text and the output's own JSON. -/
def toolResultJson (visible json : Text) (isError : Bool) : Text :=
  [0x7B] ++ (quote (text "content") ++ [0x3A] ++ contentJson visible ++ [0x2C] ++
    (quote (text "structuredContent") ++ [0x3A] ++ json ++ [0x2C] ++
      (quote (text "isError") ++ [0x3A] ++ boolJson isError))) ++ [0x7D]

/-- The JSON of the tool result of an output, from the output's own JSON. -/
def resultJson (json : Text) (isError : Bool) : Text :=
  toolResultJson (artifactInspectionUntrustedContentPrefix ++ escapeModelConfusing
    (replaceAll (text "SECURITY BOUNDARY:") (text "SECURITY \\u0042OUNDARY:") json)) json isError

theorem stringify?_content (fractionText : ℚ → Text) (visible : Text) :
    stringify? fractionText (.array [.object [property "type" (.string (text "text")),
      property "text" (.string visible)]]) = some (contentJson visible) := by
  have htype : stringify? fractionText (.string (text "text")) = some (quote (text "text")) := rfl
  have htext : stringify? fractionText (.string visible) = some (quote visible) := rfl
  have hitem := stringify?_object fractionText [property "type" (.string (text "text")),
    property "text" (.string visible)]
  simp only [property] at hitem ⊢
  rw [stringifyProperties_cons htype, stringifyProperties_cons htext, stringifyProperties] at hitem
  rw [stringify?_array, stringifyItems_cons hitem, stringifyItems]
  simp [contentJson, commaJoin, List.intercalate_cons_cons]

theorem stringify?_toolResult {fractionText : ℚ → Text} {output : Value} {json : Text}
    (hjson : stringify? fractionText output = some json) (visible : Text) (isError : Bool) :
    stringify? fractionText (.object [property "content" (.array [.object
        [property "type" (.string (text "text")), property "text" (.string visible)]]),
      property "structuredContent" output, property "isError" (.bool isError)]) =
      some (toolResultJson visible json isError) := by
  have hcontent := stringify?_content fractionText visible
  have hflag : stringify? fractionText (.bool isError) = some (boolJson isError) := by
    cases isError <;> rfl
  rw [stringify?_object]
  simp only [property] at hcontent ⊢
  rw [stringifyProperties_cons hcontent, stringifyProperties_cons hjson,
    stringifyProperties_cons hflag, stringifyProperties]
  simp [toolResultJson, commaJoin, List.intercalate_cons_cons]

section Result

variable {platform : Platform} {output : Value} {json : Text}
  (hjson : stringify? platform.fractionText output = some json)

include hjson

theorem stringify?_mcpResult :
    stringify? platform.fractionText (createArtifactInspectionMcpResult platform output) =
      some (resultJson json (isErrorOutput output)) := by
  rw [createArtifactInspectionMcpResult, stringify?_toolResult hjson,
    modelVisibleArtifactInspectionText, stringify, hjson, Option.getD_some]
  rfl

/-- The response is the frame of the output's JSON. -/
theorem responseByteLength_eq {requestId : Value} {idJson : Text}
    (hid : stringify? platform.fractionText requestId = some idJson) :
    artifactInspectionResponseByteLength platform requestId output =
      utf8Length responseHead + utf8Length idJson +
        utf8Length (responseTail (resultJson json (isErrorOutput output)) ++ [0x0A]) := by
  rw [artifactInspectionResponseByteLength, artifactInspectionWireResponse,
    stringify_jsonRpcResponse hid (stringify?_mcpResult hjson), utf8Length_frame]

/-- The id of a response replaces the four bytes of the null id. -/
theorem responseByteLength_requestId {requestId : Value} {idJson : Text}
    (hid : stringify? platform.fractionText requestId = some idJson) :
    artifactInspectionResponseByteLength platform requestId output + 4 =
      artifactInspectionResponseByteLength platform .null output +
        artifactInspectionRequestIdByteLength platform requestId := by
  have hnull : stringify? platform.fractionText .null = some (text "null") := rfl
  have hfour : utf8Length (text "null") = 4 := by decide
  rw [responseByteLength_eq hjson hid, responseByteLength_eq hjson hnull, hfour,
    artifactInspectionRequestIdByteLength, stringify, hid, Option.getD_some]
  omega

end Result

/-! The model-visible text. -/

/-- A pattern with a unit that a text lacks is not replaced in it. -/
theorem replaceAll_of_not_mem {pattern s : Text} (replacement : Text) {u : UInt16} (hu : u ∈ pattern)
    (hs : u ∉ s) : replaceAll pattern replacement s = s := by
  rw [replaceAll]
  induction s with
  | nil => rfl
  | cons v rest ih =>
    have hleading : pattern.isPrefixOf (v :: rest) = false := by
      by_contra hleading
      rw [Bool.not_eq_false, List.isPrefixOf_iff_prefix] at hleading
      exact hs (hleading.subset hu)
    rw [replaceAllFrom, hleading, ih fun hmem => hs (List.mem_cons_of_mem _ hmem)]
    rfl

/-- A replacement grows a text by a factor and keeps it ASCII. -/
theorem replaceAllFrom_bounds (pattern : Text) {replacement : Text}
    (hr : replacement.all isAscii = true) :
    ∀ (s : Text) (skip : ℕ), s.all isAscii = true →
      (replaceAllFrom pattern replacement skip s).all isAscii = true ∧
        (replaceAllFrom pattern replacement skip s).length ≤ (replacement.length + 1) * s.length := by
  intro s
  induction s with
  | nil =>
    intro skip _
    cases skip <;> exact ⟨rfl, Nat.zero_le _⟩
  | cons u rest ih =>
    intro skip h
    rw [List.all_cons, Bool.and_eq_true] at h
    cases skip with
    | succ skip =>
      obtain ⟨hascii, hlength⟩ := ih skip h.2
      refine ⟨hascii, hlength.trans (Nat.mul_le_mul_left _ (Nat.le_succ _))⟩
    | zero =>
      rw [replaceAllFrom, List.length_cons, Nat.mul_succ]
      split
      · obtain ⟨hascii, hlength⟩ := ih (pattern.length - 1) h.2
        rw [List.all_append, hr, hascii, List.length_append]
        exact ⟨rfl, by omega⟩
      · obtain ⟨hascii, hlength⟩ := ih 0 h.2
        rw [List.all_cons, h.1, hascii, List.length_cons]
        exact ⟨rfl, by omega⟩

theorem escapeModelConfusing_ascii {s : Text} (h : s.all isAscii = true) :
    escapeModelConfusing s = s := by
  have hunit : ∀ u, isAscii u = true → isModelConfusing u = false := by
    intro u hu
    simp only [isAscii, isModelConfusing, decide_eq_true_eq, UInt16.lt_iff_toNat_lt,
      UInt16.le_iff_toNat_le, Bool.or_eq_false_iff, Bool.and_eq_false_iff,
      decide_eq_false_iff_not, beq_eq_false_iff_ne, ne_eq, ← UInt16.toNat_inj] at hu ⊢
    simp only [UInt16.reduceToNat] at hu ⊢
    omega
  induction s with
  | nil => rfl
  | cons u rest ih =>
    rw [List.all_cons, Bool.and_eq_true] at h
    rw [escapeModelConfusing, List.flatMap_cons, hunit u h.1, ← escapeModelConfusing, ih h.2]
    rfl

theorem isAscii_untrustedPrefix : artifactInspectionUntrustedContentPrefix.all isAscii = true := by
  decide +kernel

theorem length_quote_untrustedPrefix : (quote artifactInspectionUntrustedContentPrefix).length = 132 := by
  decide +kernel

/-! Responses of ASCII outputs. -/

section Ascii

variable {platform : Platform} {output : Value} {json : Text}
  (hjson : stringify? platform.fractionText output = some json)

include hjson

/-- The response of an ASCII output, by the literal of its model-visible text. -/
theorem responseByteLength_ascii (hascii : json.all isAscii = true) {visible : Text}
    (hvisible : replaceAll (text "SECURITY BOUNDARY:") (text "SECURITY \\u0042OUNDARY:") json =
      visible) (hvisibleAscii : visible.all isAscii = true) :
    artifactInspectionResponseByteLength platform .null output =
      (if isErrorOutput output then 241 else 242) + (quote visible).length + json.length := by
  have hnull : stringify? platform.fractionText .null = some (text "null") := rfl
  have hlengths := length_quote_append isAscii_untrustedPrefix hvisibleAscii
  have hliteral := isAscii_quote (s := artifactInspectionUntrustedContentPrefix ++ visible)
    (by rw [List.all_append, isAscii_untrustedPrefix, hvisibleAscii, Bool.true_and])
  have hflag : (boolJson (isErrorOutput output)).all isAscii = true := by
    cases isErrorOutput output <;> decide
  have hflagLength : (boolJson (isErrorOutput output)).length =
      if isErrorOutput output then 4 else 5 := by
    cases isErrorOutput output <;> decide
  have htail : (responseTail (resultJson json (isErrorOutput output)) ++ [0x0A]).all isAscii =
      true := by
    simp only [responseTail, resultJson, toolResultJson, contentJson, hvisible, escapeModelConfusing_ascii
      hvisibleAscii, List.all_append, hliteral, hascii, hflag]
    decide
  have hkeys : (quote (text "result")).length = 8 ∧ (quote (text "content")).length = 9 ∧
      (quote (text "type")).length = 6 ∧ (quote (text "text")).length = 6 ∧
      (quote (text "structuredContent")).length = 19 ∧ (quote (text "isError")).length = 9 := by
    decide
  have hhead : utf8Length responseHead + utf8Length (text "null") = 26 := by decide
  rw [responseByteLength_eq hjson hnull, hhead, utf8Length_ascii htail]
  rw [length_quote_untrustedPrefix] at hlengths
  simp only [responseTail, resultJson, toolResultJson, contentJson, hvisible, escapeModelConfusing_ascii
    hvisibleAscii, List.length_append, hkeys, hflagLength, List.length_cons, List.length_nil]
  split <;> omega

/-- The response of a short ASCII output is below the ceiling. -/
theorem responseByteLength_short (hascii : json.all isAscii = true) (hshort : json.length ≤ 400) :
    artifactInspectionResponseByteLength platform .null output ≤ maxArtifactResponseBytes := by
  have hreplacement : (text "SECURITY \\u0042OUNDARY:").all isAscii = true ∧
      (text "SECURITY \\u0042OUNDARY:").length = 23 := by decide
  obtain ⟨hvisibleAscii, hvisibleLength⟩ := replaceAllFrom_bounds (text "SECURITY BOUNDARY:")
    hreplacement.1 json 0 hascii
  have hquote := length_quote_le hvisibleAscii
  rw [responseByteLength_ascii hjson hascii rfl hvisibleAscii, maxArtifactResponseBytes, replaceAll]
  rw [hreplacement.2] at hvisibleLength
  split <;> omega

/-- The response of a plain output is a constant and the output's weight. -/
theorem responseByteLength_plain (hplain : json.all isPlain = true)
    (hok : isErrorOutput output = false) :
    artifactInspectionResponseByteLength platform .null output = 244 + weight json := by
  have hascii := all_isAscii_of_isPlain hplain
  have hspace : (0x20 : UInt16) ∉ json := by
    intro hmem
    exact absurd (List.all_eq_true.mp hplain _ hmem) (by decide)
  have hvisible := replaceAll_of_not_mem (text "SECURITY \\u0042OUNDARY:")
    (show (0x20 : UInt16) ∈ text "SECURITY BOUNDARY:" by decide) hspace
  have hweight := length_quote_plain hplain
  rw [responseByteLength_ascii hjson hascii hvisible hascii, hok]
  simp only [Bool.false_eq_true, if_false]
  omega

end Ascii

/-- The JSON of an error. -/
theorem responseByteLength_error (platform : Platform) (code : ArtifactInspectionErrorCode) :
    artifactInspectionResponseByteLength platform .null (InspectionOutput.error code).toValue ≤
      maxArtifactResponseBytes := by
  have hcode : stringify? platform.fractionText (.string code.name) = some (quote code.name) := rfl
  have hmessage : stringify? platform.fractionText (.string code.message) =
      some (quote code.message) := rfl
  have hfalse : stringify? platform.fractionText (.bool false) = some (text "false") := rfl
  have herror : stringify? platform.fractionText (.object [property "code" (.string code.name),
      property "message" (.string code.message), property "retryable" (.bool false)]) =
      some ([0x7B] ++ commaJoin [quote (text "code") ++ [0x3A] ++ quote code.name,
        quote (text "message") ++ [0x3A] ++ quote code.message,
        quote (text "retryable") ++ [0x3A] ++ text "false"] ++ [0x7D]) := by
    rw [stringify?_object]
    simp only [property]
    rw [stringifyProperties_cons hcode, stringifyProperties_cons hmessage,
      stringifyProperties_cons hfalse, stringifyProperties]
  have hjson : stringify? platform.fractionText (InspectionOutput.error code).toValue = some
      ([0x7B] ++ commaJoin [quote (text "ok") ++ [0x3A] ++ text "false",
        quote (text "error") ++ [0x3A] ++ ([0x7B] ++ commaJoin [
          quote (text "code") ++ [0x3A] ++ quote code.name,
          quote (text "message") ++ [0x3A] ++ quote code.message,
          quote (text "retryable") ++ [0x3A] ++ text "false"] ++ [0x7D])] ++ [0x7D]) := by
    rw [InspectionOutput.toValue, stringify?_object]
    simp only [property] at herror ⊢
    rw [stringifyProperties_cons hfalse, stringifyProperties_cons herror, stringifyProperties]
  refine responseByteLength_short hjson ?_ ?_
  · cases code <;> decide
  · cases code <;> decide

end Inspection
