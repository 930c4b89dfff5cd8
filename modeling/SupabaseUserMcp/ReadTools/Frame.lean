import SupabaseUserMcp.Inspection.Frame
import SupabaseUserMcp.Js.Digits
import SupabaseUserMcp.ReadTools

/- The frames of the memory tools. An error takes a fixed number of bytes and those
   of the request id; the literal of an id takes at most six bytes for one. -/
namespace ReadTools

open Js
open Inspection (property natValue isErrorOutput escapeModelConfusing responseHead responseTail
  toolResultJson stringify_jsonRpcResponse stringify?_toolResult utf8Length_frame)

/-- The JSON of a tool result, from the output's own JSON. -/
def mcpResultJson (json : Text) (isError : Bool) : Text :=
  toolResultJson (readToolUntrustedContentPrefix ++ escapeModelConfusing
    (replaceAll (text "SECURITY BOUNDARY:") (text "SECURITY \\u0042OUNDARY:") json)) json isError

section Frames

variable {platform : Platform} {output requestId : Value} {json idJson : Text}

/-- A frame is its head, the id and the result. -/
theorem readToolWireResponseByteLength_eq
    (hjson : stringify? platform.fractionText output = some json)
    (hid : stringify? platform.fractionText requestId = some idJson) :
    readToolWireResponseByteLength platform requestId output =
      utf8Length responseHead + utf8Length idJson +
        utf8Length (responseTail (mcpResultJson json (isErrorOutput output)) ++ [0x0A]) := by
  have hresult : stringify? platform.fractionText (createReadToolMcpResult platform output) =
      some (mcpResultJson json (isErrorOutput output)) := by
    rw [createReadToolMcpResult, stringify?_toolResult hjson, modelVisibleReadToolText, stringify,
      hjson, Option.getD_some]
    rfl
  rw [readToolWireResponseByteLength, readToolWireResponse, stringify_jsonRpcResponse hid hresult,
    utf8Length_frame]

end Frames

/-! Errors. -/

def errorJson (code : ReadToolErrorCode) : Text :=
  (stringify? (fun _ => []) (createReadToolError code)).getD []

theorem stringify?_createReadToolError (fractionText : ℚ → Text) (code : ReadToolErrorCode) :
    stringify? fractionText (createReadToolError code) = some (errorJson code) := by
  cases code <;> rfl

theorem isErrorOutput_createReadToolError (code : ReadToolErrorCode) :
    isErrorOutput (createReadToolError code) = true := by
  cases code <;> rfl

theorem utf8Length_errorResult_le (code : ReadToolErrorCode) :
    utf8Length responseHead +
      utf8Length (responseTail (mcpResultJson (errorJson code) true) ++ [0x0A]) ≤ 700 := by
  have hall : ∀ code ∈ [ReadToolErrorCode.invalidRequest, .resourceUnavailable,
      .responseLimitExceeded, .deadlineExceeded, .internalError], utf8Length responseHead +
      utf8Length (responseTail (mcpResultJson (errorJson code) true) ++ [0x0A]) ≤ 700 := by
    decide +kernel
  exact hall code (by cases code <;> decide)

/-- An error takes few bytes besides those of the id. -/
theorem readToolWireResponseByteLength_error_le {platform : Platform} {requestId : Value}
    {idJson : Text} (hid : stringify? platform.fractionText requestId = some idJson)
    (code : ReadToolErrorCode) :
    readToolWireResponseByteLength platform requestId (createReadToolError code) ≤
      utf8Length idJson + 700 := by
  have hle := utf8Length_errorResult_le code
  rw [readToolWireResponseByteLength_eq (stringify?_createReadToolError _ code) hid,
    isErrorOutput_createReadToolError]
  omega

/-! Request ids. -/

/-- A JSON-RPC id of a request. -/
def isRequestId : Value → Bool
  | .string _ | .number _ | .null => true
  | _ => false

theorem exists_idJson (fractionText : ℚ → Text) {requestId : Value} (h : isRequestId requestId = true) :
    ∃ idJson, stringify? fractionText requestId = some idJson := by
  cases requestId with
  | string s => exact ⟨_, rfl⟩
  | number n => exact ⟨_, rfl⟩
  | null => exact ⟨_, rfl⟩
  | _ => cases h

/-- The digits of a number, where those of a fraction are bounded. -/
theorem utf8Length_jsonNumber_le {fractionText : ℚ → Text} {n : ℕ}
    (hfraction : ∀ q, utf8Length (fractionText q) ≤ n) (x : Number) :
    utf8Length (jsonNumber fractionText x) ≤ n + 22 := by
  have hdecimal : ∀ m : ℕ, utf8Length (decimal m) = (decimal m).length := fun m =>
    utf8Length_ascii (all_isAscii_of_isPlain (isPlain_decimal m))
  unfold jsonNumber
  split
  · next q =>
    split
    · next hq =>
      have hlength := length_decimal_le (k := 16) (by decide) (hq.2.trans_lt (by decide))
      rw [decimalInt]
      split
      · rw [utf8Length_cons_ascii rfl, hdecimal]
        omega
      · rw [hdecimal]
        omega
    · exact (hfraction q).trans (Nat.le_add_right _ _)
  · have hnull : utf8Length (text "null") = 4 := rfl
    omega

end ReadTools
