import SupabaseUserMcp.StorageBounds.Keys

/- How keys are put together. A key below a directory is accepted where the directory is an
   accepted prefix and what is below it an accepted key of its own, up to the two bounds on
   the whole, and its type is that of what is below. -/
namespace StorageBounds

open Js

/-! ## The type of a leaf -/

/-- The extension of a last segment and its type, where it has one that is allowed. -/
def leafType (leaf : Text) : Option (Text × Text) :=
  let found := lastIndexOf dot leaf
  if found.getD 0 == 0 || found == some (leaf.length - 1) then none
  else storageMimeByExtension.find? fun p => p.1 == leaf.drop (found.getD 0 + 1)

def lastSegment (input : Text) : Text := (input.splitOn slash).getLast?.getD []

/-- What a key is accepted for, and as what. -/
theorem parseStorageRelativeKey_eq_ok_iff {input : Text} {key : StorageRelativeKey} :
    parseStorageRelativeKey (.string input) = .ok key ↔ input ≠ [] ∧ IsRelative input ∧
      ∃ kind, leafType (lastSegment input) = some kind ∧
        key = ⟨input, input.splitOn slash, kind.1, kind.2⟩ := by
  rw [parseStorageRelativeKey, bind_eq_ok]
  simp only [throwIf_eq_ok, List.isEmpty_eq_false_iff, exists_const]
  refine and_congr_right fun _ => ?_
  rw [bind_eq_ok]
  constructor
  · intro h
    obtain ⟨segments, hsegments, h⟩ := h
    obtain ⟨hrelative, rfl⟩ := checkSegments_eq_ok.mp hsegments
    obtain ⟨_, hleaf, h⟩ := bind_eq_ok.mp h
    refine ⟨hrelative, ?_⟩
    split at h
    · cases h
    · next extension mimeType hfind =>
      obtain rfl := Except.ok.inj h
      have hextension := List.find?_some hfind
      rw [beq_iff_eq] at hextension
      refine ⟨(extension, mimeType), ?_, by rw [hextension]⟩
      rw [leafType, lastSegment, throwIf_eq_ok.mp hleaf]
      exact hfind
  · intro h
    obtain ⟨hrelative, kind, hkind, rfl⟩ := h
    rw [leafType, lastSegment, Option.ite_none_left_eq_some] at hkind
    obtain ⟨hleaf, hfind⟩ := hkind
    refine ⟨_, checkSegments_eq_ok.mpr ⟨hrelative, rfl⟩, ?_⟩
    refine bind_eq_ok.mpr ⟨(), throwIf_eq_ok.mpr (Bool.eq_false_iff.mpr hleaf), ?_⟩
    rw [hfind]
    have hextension := List.find?_some hfind
    rw [beq_iff_eq] at hextension
    rw [← hextension]
    rfl

theorem parseStorageListPrefix_eq_ok_iff {input : Text} (hne : input ≠ []) :
    parseStorageListPrefix (.string input) = .ok input ↔ IsRelative input := by
  refine ⟨fun h => ?_, parseStorageListPrefix_of_isRelative⟩
  rw [parseStorageListPrefix, if_neg (by rwa [List.isEmpty_iff])] at h
  obtain ⟨segments, hsegments, -⟩ := bind_eq_ok.mp h
  exact (checkSegments_eq_ok.mp hsegments).1

/-! ## Below a directory -/

section Below

variable {directory rest : Text}

theorem splitOn_below : (directory ++ slash :: rest).splitOn slash =
    directory.splitOn slash ++ rest.splitOn slash := List.splitOn_append_cons_self _ _

theorem lastSegment_below : lastSegment (directory ++ slash :: rest) = lastSegment rest := by
  rw [lastSegment, splitOn_below, List.getLast?_append_of_ne_nil _ (List.splitOn_ne_nil _ _)]
  rfl

/-- What is below a directory is relative of its own. -/
theorem IsRelative.below (h : IsRelative (directory ++ slash :: rest)) : IsRelative rest := by
  have hascii := h.allAscii
  have hlong := h.short
  have hfew := h.few
  rw [splitOn_below, List.length_append] at hfew
  have hrest : rest.all isAscii = true := by
    rw [List.all_append, List.all_cons, Bool.and_eq_true, Bool.and_eq_true] at hascii
    exact hascii.2.2
  rw [utf8Length_ascii hascii, List.length_append, List.length_cons] at hlong
  have hsegments : ∀ segment ∈ rest.splitOn slash, IsSegment segment := fun segment hmem =>
    h.segments segment (splitOn_below ▸ List.mem_append_right _ hmem)
  refine ⟨?_, ?_, ?_, by omega, hsegments⟩
  · rw [utf8Length_ascii hrest]
    omega
  · -- a slash at the head makes an empty segment
    intro hhead
    cases rest with
    | nil => cases hhead
    | cons u rest =>
      obtain rfl := Option.some.inj hhead
      have hsplit : (slash :: rest).splitOn slash = [] :: rest.splitOn slash :=
        List.splitOn_append_cons_self [] _
      exact (hsegments [] (hsplit ▸ List.mem_cons_self)).plain.ne_nil rfl
  · exact fun hmem => h.unescaped (List.mem_append_right _ (List.mem_cons_of_mem _ hmem))

theorem IsRelative.ne_nil {input : Text} (h : IsRelative input) : input ≠ [] := by
  rintro rfl
  exact (h.segments [] (List.mem_singleton_self _)).plain.ne_nil rfl

theorem isRelative_below_iff : IsRelative (directory ++ slash :: rest) ↔
    IsRelative directory ∧ IsRelative rest ∧
      utf8Length (directory ++ slash :: rest) ≤ storageMaxRelativeKeyBytes ∧
      (directory.splitOn slash).length + (rest.splitOn slash).length ≤ storageMaxKeySegments := by
  constructor
  · intro h
    have hfew := h.few
    rw [splitOn_below, List.length_append] at hfew
    exact ⟨h.directory, h.below, h.short, hfew⟩
  · intro h
    obtain ⟨hdirectory, hrest, hshort, hfew⟩ := h
    refine ⟨hshort, ?_, ?_, ?_, ?_⟩
    · intro hhead
      cases directory with
      | nil => exact hdirectory.ne_nil rfl
      | cons u directory => exact hdirectory.relative hhead
    · intro hmem
      obtain hmem | hmem := List.mem_append.mp hmem
      · exact hdirectory.unescaped hmem
      · obtain hslash | hmem := List.mem_cons.mp hmem
        · cases hslash
        · exact hrest.unescaped hmem
    · rw [splitOn_below, List.length_append]
      exact hfew
    · intro segment hmem
      rw [splitOn_below] at hmem
      obtain hmem | hmem := List.mem_append.mp hmem
      · exact hdirectory.segments segment hmem
      · exact hrest.segments segment hmem

end Below

/-- A key is accepted at a slash of it where both sides are, up to the bounds on the whole: what
is before the slash as a prefix of a listing, what is after it as a key, and its segments are
those of the two and its type that of the second. -/
theorem parseStorageRelativeKey_below (directory rest : Text) (key : StorageRelativeKey) :
    parseStorageRelativeKey (.string (directory ++ slash :: rest)) = .ok key ↔
      directory ≠ [] ∧ parseStorageListPrefix (.string directory) = .ok directory ∧
      utf8Length (directory ++ slash :: rest) ≤ storageMaxRelativeKeyBytes ∧
      ∃ below, parseStorageRelativeKey (.string rest) = .ok below ∧
        (directory.splitOn slash).length + below.segments.length ≤ storageMaxKeySegments ∧
        key = ⟨directory ++ slash :: rest, directory.splitOn slash ++ below.segments,
          below.extension, below.mimeType⟩ := by
  rw [parseStorageRelativeKey_eq_ok_iff, isRelative_below_iff, lastSegment_below, splitOn_below]
  constructor
  · intro h
    obtain ⟨-, ⟨hdirectory, hrest, hshort, hfew⟩, kind, hkind, rfl⟩ := h
    refine ⟨hdirectory.ne_nil, parseStorageListPrefix_of_isRelative hdirectory, hshort, _,
      parseStorageRelativeKey_eq_ok_iff.mpr ⟨hrest.ne_nil, hrest, kind, hkind, rfl⟩, hfew, rfl⟩
  · intro h
    obtain ⟨hne, hdirectory, hshort, below, hbelow, hfew, rfl⟩ := h
    obtain ⟨-, hrest, kind, hkind, rfl⟩ := parseStorageRelativeKey_eq_ok_iff.mp hbelow
    exact ⟨by simp, ⟨(parseStorageListPrefix_eq_ok_iff hne).mp hdirectory, hrest, hshort, hfew⟩,
      kind, hkind, rfl⟩

end StorageBounds
