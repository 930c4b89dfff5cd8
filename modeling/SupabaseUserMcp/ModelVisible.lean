import SupabaseUserMcp.Js.JsonParse
import SupabaseUserMcp.Js.Rewriting
import SupabaseUserMcp.ReadTools

/- The text a model is shown of a tool's output, as both contracts build it: after a
   fixed prefix, the JSON of the output in which the marker of the security boundary
   and the invisible, bidirectional and line-separating characters are spelled by
   escapes. Neither rewriting changes what the JSON stands for. -/
namespace ModelVisible

open Js Inspection ReadTools

/-- `'SECURITY BOUNDARY:'`. -/
def marker : Text := text "SECURITY BOUNDARY:"

/-- `'SECURITY \\u0042OUNDARY:'`. -/
def spelledMarker : Text := text "SECURITY \\u0042OUNDARY:"

/-- `result.content[0].text`. -/
def contentText : Value → Option Text
  | .object properties =>
    match Value.property properties (text "content") with
    | some (.array (.object block :: _)) =>
      match Value.property block (text "text") with
      | some (.string s) => some s
      | _ => none
    | _ => none
  | _ => none

/-- `result.structuredContent`. -/
def structuredContent : Value → Option Value
  | .object properties => Value.property properties (text "structuredContent")
  | _ => none

/-- What the model reads after the prefix. -/
structure Faithful (structured : Value) (s : Text) : Prop where
  parsed : jsonParse s = some structured
  unforged : ¬ marker <:+: s
  visible : ∀ u ∈ s, isModelConfusing u = false

/-- The text of a result: the prefix, then what faithfully shows the structured content. -/
def Shows (untrustedPrefix modelText : Text) (result : Value) : Prop :=
  contentText result = some modelText ∧ ∃ structured s, structuredContent result = some structured ∧
    modelText = untrustedPrefix ++ s ∧ Faithful structured s

theorem isUnescaped_of_mem_marker : ∀ u ∈ 0x53 :: marker.tail, isUnescaped u = true :=
  List.all_eq_true.mp rfl

theorem spells_marker : Spells spelledMarker marker := by
  have hbefore : Spells (text "SECURITY ") (text "SECURITY ") := .of_isUnescaped (List.all_eq_true.mp rfl)
  have hafter : Spells (text "OUNDARY:") (text "OUNDARY:") := .of_isUnescaped (List.all_eq_true.mp rfl)
  exact hbefore.append (.unicode 0x42 hafter)

theorem isModelConfusing_ascii (u : UInt16) (h : u < 0x80) : isModelConfusing u = false := by
  simp only [isModelConfusing, UInt16.lt_iff_toNat_lt, UInt16.le_iff_toNat_le,
    Bool.or_eq_false_iff, Bool.and_eq_false_iff, decide_eq_false_iff_not, beq_eq_false_iff_ne,
    ne_eq, ← UInt16.toNat_inj] at h ⊢
  simp only [UInt16.reduceToNat] at h ⊢
  omega

theorem respelling_marker : Respelling (replaceAll marker spelledMarker) :=
  respelling_replaceAll isUnescaped_of_mem_marker (by decide) (by decide) spells_marker

theorem respelling_escapeModelConfusing : Respelling escapeModelConfusing :=
  respelling_escapeUnits isModelConfusing_ascii

/-- Both rewritings together show the value they are given. -/
theorem faithful_of_encodes {v : Value} {json : Text} (h : Encodes v json) :
    Faithful v (escapeModelConfusing (replaceAll marker spelledMarker json)) where
  parsed := jsonParse_of_encodes
    (respelling_escapeModelConfusing.encodes_apply (respelling_marker.encodes_apply h))
  unforged := by
    intro hinfix
    have hbefore := isInfix_of_isInfix_escapeUnits isUnescaped_of_mem_marker (by decide) hinfix
    exact not_isInfix_replaceAll (by decide) (by decide) (by decide) (by decide) json.length le_rfl
      hbefore
  visible := fun _ hu => escaped_of_mem_escapeUnits isModelConfusing_ascii hu

/-- The model-visible text of either kind of tool is its prefix and a text that parses
to the structured content, repeats no boundary and hides nothing. -/
theorem modelVisible_shows (platform : Platform) {output : Value} (hjson : output.IsJson)
    (hlegible : ∀ q, output.HasNumber (.finite q) → Legible platform.fractionText q) :
    Shows artifactInspectionUntrustedContentPrefix
        (modelVisibleArtifactInspectionText platform output)
        (createArtifactInspectionMcpResult platform output) ∧
      Shows readToolUntrustedContentPrefix (modelVisibleReadToolText platform output)
        (createReadToolMcpResult platform output) := by
  obtain ⟨json, hstringify, hencodes⟩ := encodes_stringify? platform.fractionText hjson hlegible
  have hfaithful := faithful_of_encodes hencodes
  have hsame : json = stringify platform.fractionText output := by
    rw [stringify, hstringify]
    rfl
  rw [hsame] at hfaithful
  constructor
  · exact ⟨rfl, output, _, rfl, rfl, hfaithful⟩
  · exact ⟨rfl, output, _, rfl, rfl, hfaithful⟩

/-- A platform that prints one half. -/
def halfPlatform : Platform := { asciiPlatform with fractionText := fun _ => text "0.5" }

/-- `0.5`. -/
def half : NumberLiteral where
  negative := false
  integer := ⟨text "0", by decide, List.all_eq_true.mp rfl⟩
  fraction := some ⟨text "5", by decide, List.all_eq_true.mp rfl⟩
  exponent := none
  leading := fun _ => rfl

/-- The marker as a key, and as a value after a quote and a backslash and before a bidirectional
override. -/
def hostile : Value :=
  .object [(marker, .array [.string ([0x22, 0x5C] ++ marker ++ [0x202E]), .number (.finite (1 / 2))])]

theorem isJson_hostile : hostile.IsJson := by
  refine .object (by decide) (by decide) ?_
  intro p hp
  obtain rfl := List.mem_singleton.mp hp
  refine .array ?_
  intro v hv
  rcases List.mem_pair.mp hv with rfl | rfl
  · exact .string _
  · exact .number _

theorem legible_hostile {q : ℚ} (h : hostile.HasNumber (.finite q)) :
    Legible halfPlatform.fractionText q := by
  generalize hv : hostile = v at h
  cases h with
  | here => cases hv
  | item _ _ => cases hv
  | property hp hnumber =>
    cases hv
    obtain rfl := List.mem_singleton.mp hp
    generalize hv : Value.array _ = v at hnumber
    cases hnumber with
    | here => cases hv
    | property _ _ => cases hv
    | item hmem hitem =>
      cases hv
      rcases List.mem_pair.mp hmem with rfl | rfl
      · cases hitem
      · cases hitem
        exact ⟨half, by decide +kernel, by decide +kernel⟩

theorem modelVisible_shows_hostile :
    Shows artifactInspectionUntrustedContentPrefix
        (modelVisibleArtifactInspectionText halfPlatform hostile)
        (createArtifactInspectionMcpResult halfPlatform hostile) ∧
      Shows readToolUntrustedContentPrefix (modelVisibleReadToolText halfPlatform hostile)
        (createReadToolMcpResult halfPlatform hostile) :=
  modelVisible_shows halfPlatform isJson_hostile fun _ h => legible_hostile h

end ModelVisible
