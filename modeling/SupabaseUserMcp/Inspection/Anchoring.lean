import SupabaseUserMcp.Inspection.Schemas

/- What an accepted partial read says about positions. The schema compares every
   chunk with its neighbour, and no chunk with its index: the chunks stand where
   their indexes put them as soon as the first one does, and nothing puts the
   first one there. Ends of ranges are sums of doubles, so a range may also reach
   past the last chunk by a byte or two when both end beyond `2^53`. -/
namespace Inspection

open Js

def ByteRange.bytes (range : ByteRange) : Set ℕ := Set.Ico range.offset (range.offset + range.length)

def VerifiedChunk.bytes (chunk : VerifiedChunk) : Set ℕ :=
  Set.Ico chunk.byteStart (chunk.byteStart + chunk.byteLength)

/-- The bytes of the chunks a read verified. -/
def PartialReadIntegrity.bytes (value : PartialReadIntegrity) : Set ℕ :=
  {p | ∃ chunk ∈ value.verifiedChunks, p ∈ chunk.bytes}

/-- Every byte a read speaks of is attributed to the position its chunk's index denotes. -/
structure Attributed (value : PartialReadIntegrity) : Prop where
  indexes : value.verifiedChunks.map VerifiedChunk.chunkIndex =
    List.range' value.verifiedCoveringChunkRange.startChunkIndex
      (value.verifiedCoveringChunkRange.endChunkIndex + 1 -
        value.verifiedCoveringChunkRange.startChunkIndex)
  place : ∀ chunk ∈ value.verifiedChunks, chunk.byteStart = chunk.chunkIndex * value.chunkSize
  inside : ∀ chunk ∈ value.verifiedChunks, chunk.chunkIndex < value.chunkCount ∧
    chunk.byteStart + chunk.byteLength ≤ (chunk.chunkIndex + 1) * value.chunkSize
  returned : value.returnedRange.bytes ⊆ value.bytes
  requested : ∀ offset length, value.requestedRange = .byteRange offset length →
    ByteRange.bytes ⟨offset, length⟩ ⊆ value.bytes

/-- The first verified chunk stands where its index puts it. -/
def Anchored (value : PartialReadIntegrity) : Prop :=
  ∀ first, value.verifiedChunks.head? = some first →
    first.byteStart = first.chunkIndex * value.chunkSize

/-- The returned range ends past the last chunk, at the same double. -/
def EndLost (value : PartialReadIntegrity) : Prop :=
  ∃ last, value.verifiedChunks.getLast? = some last ∧
    Number.LostPast (last.byteStart + last.byteLength)
      (value.returnedRange.offset + value.returnedRange.length)

/-! What the schema compares. -/

/-- The neighbour relation of the schema, without rounding. -/
def Follows (previous current : VerifiedChunk) : Prop :=
  current.chunkIndex = previous.chunkIndex + 1 ∧
    current.byteStart = previous.byteStart + previous.byteLength

/-- The schema's conditions on an accepted read. -/
structure Compared (value : PartialReadIntegrity) (first last : VerifiedChunk) : Prop where
  head : value.verifiedChunks.head? = some first
  getLast : value.verifiedChunks.getLast? = some last
  neighbours : value.verifiedChunks.IsChain Follows
  sizes : ∀ chunk ∈ value.verifiedChunks, chunk.chunkIndex < value.chunkCount ∧
    chunk.byteLength ≤ value.chunkSize ∧
    (chunk.chunkIndex + 1 ≠ value.chunkCount → chunk.byteLength = value.chunkSize)
  start : first.chunkIndex = value.verifiedCoveringChunkRange.startChunkIndex
  stop : last.chunkIndex = value.verifiedCoveringChunkRange.endChunkIndex
  returned : first.byteStart ≤ value.returnedRange.offset ∧
    (value.returnedRange.offset + value.returnedRange.length ≤ last.byteStart + last.byteLength ∨
      EndLost value)
  requested : ∀ offset length, value.requestedRange = .byteRange offset length →
    first.byteStart ≤ offset ∧ offset + length ≤ last.byteStart + last.byteLength
  safe : value.returnedRange.offset < 2 ^ 53

theorem intFrom_lt {lo n : ℕ} (h : intFrom lo n = true) : n < 2 ^ 53 := by
  have hsafe := (Bool.and_eq_true_iff.mp h).2
  simp only [Number.isSafeInteger, Number.ofNat, Bool.and_eq_true, decide_eq_true_eq] at hsafe
  have hle := hsafe.2
  rw [Rat.num_natCast, Number.maxSafeInteger] at hle
  omega

theorem verifiedChunkSchema_lt {chunk : VerifiedChunk} (h : verifiedChunkSchema chunk = true) :
    chunk.byteStart < 2 ^ 53 ∧ chunk.byteLength < 2 ^ 53 := by
  simp only [verifiedChunkSchema, Bool.and_eq_true] at h
  exact ⟨intFrom_lt h.1.1.1.1.2, intFrom_lt h.1.1.1.2⟩

/-- The size test of the schema. -/
theorem chunkSizeMatches_eq_true {value : PartialReadIntegrity} {chunk : VerifiedChunk}
    (h : chunkSizeMatches value chunk = true) :
    chunk.byteLength ≤ value.chunkSize ∧
      (chunk.chunkIndex + 1 ≠ value.chunkCount → chunk.byteLength = value.chunkSize) := by
  rw [chunkSizeMatches] at h
  split at h
  · next hfinal => exact ⟨of_decide_eq_true h, fun hne => absurd hfinal hne⟩
  · have hsize := beq_iff_eq.mp h
    exact ⟨hsize.le, fun _ => hsize⟩

/-- A condition that answers early was not met by what is accepted. -/
theorem guard_eq_ok_true {bad : Bool} {rest : Except String Bool} :
    (if bad = true then .ok false else rest) = .ok true ↔ bad = false ∧ rest = .ok true := by
  cases bad <;> simp

/-- What an accepted read has passed. -/
theorem exists_compared {value : PartialReadIntegrity}
    (h : partialReadIntegritySchema value = .ok true) :
    ∃ first last, Compared value first last := by
  obtain ⟨refined, hrefine, hvalid⟩ := bind_eq_ok.mp h
  simp only [pure_eq_ok, Except.ok.injEq, Bool.and_eq_true] at hvalid
  obtain ⟨hfields, rfl⟩ := hvalid
  have hne : value.verifiedChunks ≠ [] := by
    intro hnil
    simp [partialReadIntegrityFields, hnil] at hfields
  obtain ⟨⟨first, hfirst⟩, last, hlast⟩ := exists_head?_getLast? hne
  simp only [partialReadIntegrityRefine, guard_eq_ok_true, hfirst, hlast, definedAt_some, ok_bind,
    pure_eq_ok, Except.ok.injEq, Bool.and_eq_true, Bool.not_eq_false', decide_eq_true_eq,
    List.all_eq_true, beq_iff_eq] at hrefine
  obtain ⟨-, -, hinRange, hneighbours, ⟨⟨⟨⟨⟨hstart, hstop⟩, hsizes⟩, hfrom⟩, hto⟩, hrequested⟩, -⟩ :=
    hrefine
  -- The fields bound every term of a sum.
  simp only [partialReadIntegrityFields, Bool.and_eq_true, List.all_eq_true] at hfields
  have hsafe : ∀ chunk ∈ value.verifiedChunks, chunk.byteStart < 2 ^ 53 ∧
      chunk.byteLength < 2 ^ 53 := by
    intro chunk hchunk
    exact verifiedChunkSchema_lt (hfields.1.1.1.1.1.2 chunk hchunk)
  have hend := hsafe last (List.mem_of_getLast? hlast)
  have hreturned := hfields.1.1.1.1.1.1.1.1.2
  have hrange := hfields.1.1.1.1.1.1.1.1.1.1
  simp only [returnedRangeSchema, intBetween, Bool.and_eq_true, decide_eq_true_eq] at hreturned
  refine ⟨first, last, hfirst, hlast, ?_, ?_, hstart, hstop, ⟨hfrom, ?_⟩, ?_,
    intFrom_lt hreturned.1⟩
  · refine hneighbours.imp_of_mem_imp fun previous current hprevious hcurrent hnext => ⟨hnext.1, ?_⟩
    have hsum := hsafe previous hprevious
    exact (Number.eq_toDouble_iff (hsafe current hcurrent).1 (by omega)).mp hnext.2
  · intro chunk hchunk
    obtain ⟨hle, hinner⟩ := chunkSizeMatches_eq_true (hsizes chunk hchunk)
    exact ⟨hinRange chunk hchunk, hle, hinner⟩
  · have hoffset := intFrom_lt hreturned.1
    have hlength := intFrom_lt hreturned.2.1
    refine ((Number.toDouble_le_toDouble (by omega) (by omega)).mp hto).imp_right fun hlost => ?_
    exact ⟨last, hlast, hlost⟩
  · intro offset length hbyteRange
    rw [hbyteRange] at hrequested hrange
    simp only [requestedRangeSchema, intBetween, Bool.and_eq_true, decide_eq_true_eq]
      at hrequested hrange
    have hbounds : maxArtifactByteOffset + maxRangeBytes < 2 ^ 53 := by decide
    refine ⟨hrequested.1, ?_⟩
    -- A requested range ends far below `2^53`.
    rcases (Number.toDouble_le_toDouble (by omega) (by omega)).mp hrequested.2 with hle | hlost
    · exact hle
    · have := hlost.1
      have := hlost.2.1
      omega

/-! Chunks that follow each other. -/

section Chunks

variable {cs count : ℕ}

/-- Chunks that follow a first one stand at its index and at its start, plus their
distance from it. -/
theorem place_of_follows : ∀ {chunks : List VerifiedChunk} {first : VerifiedChunk},
    (first :: chunks).IsChain Follows →
    (∀ chunk ∈ first :: chunks, chunk.chunkIndex < count ∧
      (chunk.chunkIndex + 1 ≠ count → chunk.byteLength = cs)) →
    ∀ chunk ∈ first :: chunks, ∃ k, chunk.chunkIndex = first.chunkIndex + k ∧
      chunk.byteStart = first.byteStart + k * cs
  | [], first, _, _, chunk, hchunk => by
    obtain rfl := List.mem_singleton.mp hchunk
    exact ⟨0, by simp⟩
  | next :: rest, first, hchain, hsizes, chunk, hchunk => by
    obtain ⟨⟨hindex, hbyte⟩, hchain⟩ := List.isChain_cons_cons.mp hchain
    rcases List.mem_cons.mp hchunk with rfl | hchunk
    · exact ⟨0, by simp⟩
    · obtain ⟨k, hk, hstart⟩ := place_of_follows hchain
        (fun c hc => hsizes c (List.mem_cons_of_mem first hc)) chunk hchunk
      -- The first chunk has a successor, so it is not the final one.
      have hnext := (hsizes next (by simp)).1
      have hfull := (hsizes first (by simp)).2 (by omega)
      refine ⟨k + 1, by omega, ?_⟩
      rw [hstart, hbyte, hfull, Nat.succ_mul]
      omega

theorem indexes_of_follows : ∀ {chunks : List VerifiedChunk} {first : VerifiedChunk},
    (first :: chunks).IsChain Follows →
    (first :: chunks).map VerifiedChunk.chunkIndex =
      List.range' first.chunkIndex (chunks.length + 1)
  | [], first, _ => rfl
  | next :: rest, first, hchain => by
    obtain ⟨⟨hindex, -⟩, hchain⟩ := List.isChain_cons_cons.mp hchain
    rw [List.map_cons, indexes_of_follows hchain, hindex]
    rfl

/-- No byte between the start of the first chunk and the end of the last is missed. -/
theorem exists_mem_bytes_of_follows : ∀ {chunks : List VerifiedChunk} {first last : VerifiedChunk},
    (first :: chunks).IsChain Follows → (first :: chunks).getLast? = some last →
    ∀ p, first.byteStart ≤ p → p < last.byteStart + last.byteLength →
    ∃ chunk ∈ first :: chunks, p ∈ chunk.bytes
  | [], first, last, _, hlast, p, hfrom, hto => by
    obtain rfl : first = last := by simpa using hlast
    exact ⟨first, by simp, hfrom, hto⟩
  | next :: rest, first, last, hchain, hlast, p, hfrom, hto => by
    obtain ⟨⟨-, hbyte⟩, hchain⟩ := List.isChain_cons_cons.mp hchain
    rcases Nat.lt_or_ge p next.byteStart with hp | hp
    · exact ⟨first, by simp, hfrom, hbyte ▸ hp⟩
    · rw [List.getLast?_cons_cons] at hlast
      obtain ⟨chunk, hchunk, hmem⟩ := exists_mem_bytes_of_follows hchain hlast p hp hto
      exact ⟨chunk, List.mem_cons_of_mem first hchunk, hmem⟩

/-- No chunk ends past the last one. -/
theorem end_le_of_follows : ∀ {chunks : List VerifiedChunk} {first last : VerifiedChunk},
    (first :: chunks).IsChain Follows → (first :: chunks).getLast? = some last →
    ∀ chunk ∈ first :: chunks,
      chunk.byteStart + chunk.byteLength ≤ last.byteStart + last.byteLength
  | [], first, last, _, hlast, chunk, hchunk => by
    obtain rfl : first = last := by simpa using hlast
    obtain rfl := List.mem_singleton.mp hchunk
    exact Nat.le_refl _
  | next :: rest, first, last, hchain, hlast, chunk, hchunk => by
    obtain ⟨⟨-, hbyte⟩, hchain⟩ := List.isChain_cons_cons.mp hchain
    rw [List.getLast?_cons_cons] at hlast
    have hrest := end_le_of_follows hchain hlast
    rcases List.mem_cons.mp hchunk with rfl | hchunk
    · have hnext := hrest next List.mem_cons_self
      omega
    · exact hrest chunk hchunk

end Chunks

/-! Attribution. -/

namespace Compared

variable {value : PartialReadIntegrity} {first last : VerifiedChunk}
  (h : Compared value first last)

include h

theorem exists_eq_cons : ∃ rest, value.verifiedChunks = first :: rest := by
  have hfirst := h.head
  cases hchunks : value.verifiedChunks with
  | nil =>
    rw [hchunks] at hfirst
    cases hfirst
  | cons chunk rest =>
    rw [hchunks] at hfirst
    cases hfirst
    exact ⟨rest, rfl⟩

theorem place : ∀ chunk ∈ value.verifiedChunks, ∃ k, chunk.chunkIndex = first.chunkIndex + k ∧
    chunk.byteStart = first.byteStart + k * value.chunkSize := by
  obtain ⟨rest, hchunks⟩ := h.exists_eq_cons
  have hsizes := h.sizes
  have hneighbours := h.neighbours
  rw [hchunks] at hsizes hneighbours ⊢
  exact place_of_follows hneighbours fun chunk hchunk =>
    ⟨(hsizes chunk hchunk).1, (hsizes chunk hchunk).2.2⟩

theorem indexes : value.verifiedChunks.map VerifiedChunk.chunkIndex =
    List.range' first.chunkIndex (last.chunkIndex + 1 - first.chunkIndex) := by
  obtain ⟨rest, hchunks⟩ := h.exists_eq_cons
  have hneighbours := h.neighbours
  have hlast := h.getLast
  rw [hchunks] at hneighbours hlast ⊢
  have hindexes := indexes_of_follows hneighbours
  -- The last index of the range is that of the last chunk.
  have hend : last.chunkIndex = first.chunkIndex + rest.length := by
    have hmap : ((first :: rest).map VerifiedChunk.chunkIndex).getLast? = some last.chunkIndex := by
      rw [List.getLast?_map, hlast]
      rfl
    rw [hindexes, List.range'_concat, List.getLast?_concat, Nat.one_mul] at hmap
    exact (Option.some.inj hmap).symm
  rw [hindexes, hend]
  congr 1
  omega

theorem mem_bytes (p : ℕ) (hfrom : first.byteStart ≤ p)
    (hto : p < last.byteStart + last.byteLength) : p ∈ value.bytes := by
  obtain ⟨rest, hchunks⟩ := h.exists_eq_cons
  have hneighbours := h.neighbours
  have hlast := h.getLast
  rw [hchunks] at hneighbours hlast
  obtain ⟨chunk, hchunk, hmem⟩ := exists_mem_bytes_of_follows hneighbours hlast p hfrom hto
  exact ⟨chunk, hchunks ▸ hchunk, hmem⟩

theorem lt_of_mem_bytes {p : ℕ} (hp : p ∈ value.bytes) : p < last.byteStart + last.byteLength := by
  obtain ⟨rest, hchunks⟩ := h.exists_eq_cons
  have hneighbours := h.neighbours
  have hlast := h.getLast
  obtain ⟨chunk, hchunk, -, hto⟩ := hp
  rw [hchunks] at hneighbours hlast hchunk
  exact hto.trans_le (end_le_of_follows hneighbours hlast chunk hchunk)

end Compared

/-- Which accepted reads attribute every byte to the position its chunk's index
denotes: those whose first chunk stands where its index puts it and whose
returned range does not end past the last chunk at the same double. -/
theorem attributed_iff {value : PartialReadIntegrity}
    (h : partialReadIntegritySchema value = .ok true) :
    Attributed value ↔ Anchored value ∧ ¬ EndLost value := by
  obtain ⟨first, last, hcompared⟩ := exists_compared h
  constructor
  · intro hattributed
    refine ⟨fun chunk hchunk => hattributed.place chunk (List.mem_of_head? hchunk), ?_⟩
    rintro ⟨chunk, hchunk, hlow, hpast, -⟩
    obtain rfl := Option.some.inj (hcompared.getLast.symm.trans hchunk)
    -- The last byte of the returned range is past the last chunk.
    have hsafe := hcompared.safe
    have hmem := hattributed.returned (show value.returnedRange.offset +
      value.returnedRange.length - 1 ∈ value.returnedRange.bytes from ⟨by omega, by omega⟩)
    have hinside := hcompared.lt_of_mem_bytes hmem
    omega
  · rintro ⟨hanchored, hkept⟩
    have hfirst := hanchored first hcompared.head
    have hplace : ∀ chunk ∈ value.verifiedChunks,
        chunk.byteStart = chunk.chunkIndex * value.chunkSize := by
      intro chunk hchunk
      obtain ⟨k, hk, hstart⟩ := hcompared.place chunk hchunk
      rw [hstart, hfirst, hk, Nat.add_mul]
    refine ⟨?_, hplace, ?_, ?_, ?_⟩
    · rw [hcompared.indexes, hcompared.start, hcompared.stop]
    · intro chunk hchunk
      obtain ⟨hcount, hle, -⟩ := hcompared.sizes chunk hchunk
      refine ⟨hcount, ?_⟩
      rw [hplace chunk hchunk, Nat.succ_mul]
      exact Nat.add_le_add_left hle _
    · rintro p ⟨hfrom, hto⟩
      have hstop := hcompared.returned.2.resolve_right hkept
      exact hcompared.mem_bytes p (hcompared.returned.1.trans hfrom) (hto.trans_le hstop)
    · rintro offset length hrange p ⟨hfrom, hto⟩
      obtain ⟨hstart, hstop⟩ := hcompared.requested offset length hrange
      exact hcompared.mem_bytes p (hstart.trans hfrom) (hto.trans_le hstop)

/-- The second of two chunks of `2^52` bytes, and a range that ends one byte past it. -/
example :
    let digest := List.replicate 64 0x30
    partialReadIntegritySchema ⟨.searchExact 1, ⟨1, 1⟩, ⟨2 ^ 53 - 1, 2⟩, 2 ^ 52, 2,
      [⟨1, 2 ^ 52, 2 ^ 52, digest, [⟨text "left", digest⟩]⟩], digest, digest, digest⟩ = .ok true := by
  decide +kernel

/-! Reads of one verified chunk. -/

/-- Ten chunks of a kilobyte, of which the fourth is verified at `byteStart`. -/
def fourthChunkAt (byteStart : ℕ) : PartialReadIntegrity :=
  let digest := List.replicate 64 0x30
  ⟨.byteRange byteStart 5, ⟨3, 3⟩, ⟨byteStart, 5⟩, 1024, 10,
    [⟨3, byteStart, 1024, digest, [⟨text "left", digest⟩]⟩], digest, digest, digest⟩

/-- A chunk may stand seven bytes from the start of the artifact and be the fourth. -/
theorem fourthChunkAt_seven :
    partialReadIntegritySchema (fourthChunkAt 7) = .ok true ∧ ¬ Attributed (fourthChunkAt 7) := by
  refine ⟨by decide +kernel, fun h => ?_⟩
  have hplace := h.place _ List.mem_cons_self
  exact absurd hplace (by decide)

/-- At its own place it is attributed. -/
theorem attributed_fourthChunkAt : Attributed (fourthChunkAt 3072) := by
  refine (attributed_iff (by decide +kernel)).mpr ⟨?_, ?_⟩
  · intro first hfirst
    cases hfirst
    rfl
  · rintro ⟨last, hlast, hlow, -⟩
    cases hlast
    exact absurd hlow (by decide)

end Inspection
