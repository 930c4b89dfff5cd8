import SupabaseUserMcp.ReceiptJournal.Canonical
import SupabaseUserMcp.ReceiptJournal.Graph
import SupabaseUserMcp.ReceiptJournal.Reading

/- Receipt bytes are canonical. Of the objects of an unknown value
   `canonicalArtifactInspectionReceiptBytes` accepts the trees that the receipt schema
   reads, and prints the receipt that it read: the same bytes for the same JSON and
   for no other, and bytes from which the JSON comes back. -/
namespace ReceiptJournal.Graph

open Js Inspection
open Js.Heap (Unshared tree)
open Js.Value (SameJson)
open Reading (reads_receipt)

variable {n : ℕ}

/-- The value as a schema reads it. -/
def valueOf (heap : Heap n) (root : Slot n) : Value := tree heap (n + 1) root

/-- `none` where it throws. -/
def canonicalArtifactInspectionReceiptBytes (platform : Platform) (heap : Heap n) (root : Slot n) :
    Option Bytes := do
  let _ ← assertCanonicalJsonGraph heap (n + 1) root []
  let parsed ← Reading.artifactInspectionReceiptSchema (valueOf heap root)
  some (encodeUtf8 (canonicalJson platform.fractionText (ArtifactInspectionReceipt.toValue parsed)))

/-! The JSON of a receipt. -/

section Receipt

variable (fractionText : ℚ → Text)

theorem keyed_natValue {lo k : ℕ} (h : intFrom lo k = true) : Keyed fractionText (natValue k) := by
  have hsafe : Number.isSafeInteger (k : ℕ) = true := (Bool.and_eq_true_iff.mp h).2
  simp only [Number.isSafeInteger, Number.ofNat, Bool.and_eq_true, decide_eq_true_eq] at hsafe
  rw [Rat.num_natCast, Number.maxSafeInteger] at hsafe
  have hlegible := legible_intCast fractionText (n := (k : ℤ)) (by simp; omega)
  rw [Int.cast_natCast] at hlegible
  exact .number hlegible

/-- An object with these keys. -/
theorem keyed_record {fields : List (Text × Value)} (keys : List Text)
    (hkeys : fields.map Prod.fst = keys) (hnodup : keys.Nodup)
    (hindices : ∀ key ∈ keys, arrayIndex? key = none)
    (hvalues : ∀ f ∈ fields, Keyed fractionText f.2) : Keyed fractionText (.object fields) := by
  subst hkeys
  exact .object hnodup (by simpa only [List.forall_mem_map] using hindices) hvalues

theorem keyed_range {range : ByteRange} {lo lo' : ℕ} (hoffset : intFrom lo range.offset = true)
    (hlength : intFrom lo' range.length = true) : Keyed fractionText range.toValue := by
  refine keyed_record fractionText [text "offset", text "length"] rfl (by decide +kernel)
    (by decide +kernel) ?_
  simp only [property, List.forall_mem_cons, List.not_mem_nil, false_imp_iff, implies_true, and_true]
  exact ⟨keyed_natValue fractionText hoffset, keyed_natValue fractionText hlength⟩

theorem intFrom_of_intBetween {lo hi k : ℕ} (h : intBetween lo hi k = true) :
    intFrom lo k = true := (Bool.and_eq_true_iff.mp h).1

theorem keyed_returnedRange {range : ByteRange} (h : returnedRangeSchema range = true) :
    Keyed fractionText range.toValue := by
  obtain ⟨hoffset, hlength⟩ := Bool.and_eq_true_iff.mp h
  exact keyed_range fractionText hoffset (intFrom_of_intBetween hlength)

theorem keyed_hit {hit : ReceiptSearchHitDetail} (h : receiptSearchHitDetailSchema hit = true) :
    Keyed fractionText (ReceiptSearchHitDetail.toValue hit) := by
  obtain ⟨hrange, _⟩ := Bool.and_eq_true_iff.mp h
  refine keyed_record fractionText [text "returnedRange", text "returnedByteSha256"] rfl
    (by decide +kernel) (by decide +kernel) ?_
  simp only [property, List.forall_mem_cons, List.not_mem_nil, false_imp_iff, implies_true, and_true]
  exact ⟨keyed_returnedRange fractionText hrange, .string _⟩

theorem keyed_detail {detail : ReceiptOperationDetail}
    (h : receiptOperationDetailSchema detail = true) :
    Keyed fractionText (ReceiptOperationDetail.toValue detail) := by
  cases detail with
  | artifactStat =>
    refine keyed_record fractionText [text "operation"] rfl (by decide +kernel)
      (by decide +kernel) ?_
    simp only [operationProperty, property, List.forall_mem_cons, List.not_mem_nil, false_imp_iff,
      implies_true, and_true]
    exact .string _
  | artifactReadRange requestedRange returnedRange returnedByteSha256 =>
    simp only [receiptOperationDetailSchema, Bool.and_eq_true] at h
    refine keyed_record fractionText [text "operation", text "requestedRange",
      text "returnedRange", text "returnedByteSha256"] rfl (by decide +kernel) (by decide +kernel) ?_
    simp only [operationProperty, property, List.forall_mem_cons, List.not_mem_nil, false_imp_iff,
      implies_true, and_true]
    exact ⟨.string _, keyed_range fractionText (intFrom_of_intBetween h.1.1.1)
      (intFrom_of_intBetween h.1.1.2), keyed_returnedRange fractionText h.1.2, .string _⟩
  | artifactReadLines requestedLineRange returnedRange returnedByteSha256 =>
    simp only [receiptOperationDetailSchema, Bool.and_eq_true] at h
    have hlines : Keyed fractionText (.object
        [property "startLine" (natValue requestedLineRange.startLine),
          property "count" (natValue requestedLineRange.count)]) := by
      refine keyed_record fractionText [text "startLine", text "count"] rfl (by decide +kernel)
        (by decide +kernel) ?_
      simp only [property, List.forall_mem_cons, List.not_mem_nil, false_imp_iff, implies_true,
        and_true]
      exact ⟨keyed_natValue fractionText (intFrom_of_intBetween h.1.1.1),
        keyed_natValue fractionText (intFrom_of_intBetween h.1.1.2)⟩
    refine keyed_record fractionText [text "operation", text "requestedLineRange",
      text "returnedRange", text "returnedByteSha256"] rfl (by decide +kernel) (by decide +kernel) ?_
    simp only [operationProperty, property, List.forall_mem_cons, List.not_mem_nil, false_imp_iff,
      implies_true, and_true] at hlines ⊢
    exact ⟨.string _, hlines, keyed_returnedRange fractionText h.1.2, .string _⟩
  | artifactReadHeading requestedHeadingId returnedRange returnedByteSha256 =>
    simp only [receiptOperationDetailSchema, Bool.and_eq_true] at h
    refine keyed_record fractionText [text "operation", text "requestedHeadingId",
      text "returnedRange", text "returnedByteSha256"] rfl (by decide +kernel) (by decide +kernel) ?_
    simp only [operationProperty, property, List.forall_mem_cons, List.not_mem_nil, false_imp_iff,
      implies_true, and_true]
    exact ⟨.string _, .string _, keyed_returnedRange fractionText h.1.2, .string _⟩
  | artifactSearchExact queryLength maxHits returnedHits =>
    simp only [receiptOperationDetailSchema, Bool.and_eq_true, List.all_eq_true] at h
    refine keyed_record fractionText [text "operation", text "queryLength", text "maxHits",
      text "returnedHits"] rfl (by decide +kernel) (by decide +kernel) ?_
    simp only [operationProperty, property, List.forall_mem_cons, List.not_mem_nil, false_imp_iff,
      implies_true, and_true]
    refine ⟨.string _, keyed_natValue fractionText (intFrom_of_intBetween h.1.1.1.1.1),
      keyed_natValue fractionText (intFrom_of_intBetween h.1.1.1.1.2), .array ?_⟩
    simp only [List.forall_mem_map]
    exact fun hit hhit => keyed_hit fractionText (h.1.1.1.2 hit hhit)

theorem keyed_outcome (outcome : ReceiptResultOrError) :
    Keyed fractionText (ReceiptResultOrError.toValue outcome) := by
  cases outcome with
  | result =>
    refine keyed_record fractionText [text "kind"] rfl (by decide +kernel) (by decide +kernel) ?_
    simp only [property, List.forall_mem_cons, List.not_mem_nil, false_imp_iff, implies_true,
      and_true]
    exact .string _
  | error errorClass =>
    refine keyed_record fractionText [text "kind", text "errorClass"] rfl (by decide +kernel)
      (by decide +kernel) ?_
    simp only [property, List.forall_mem_cons, List.not_mem_nil, false_imp_iff, implies_true,
      and_true]
    exact ⟨.string _, .string _⟩

theorem keyed_receipt {receipt : ArtifactInspectionReceipt}
    (h : artifactInspectionReceiptSchema receipt = true) :
    Keyed fractionText (ArtifactInspectionReceipt.toValue receipt) := by
  have hdetail := keyed_detail fractionText (Bool.and_eq_true_iff.mp h).2
  have hcapability : Keyed fractionText (.object
      [property "capability" (.string (text "artifact:inspect")),
        property "ref" (.string receipt.inspectorCapabilityRef)]) := by
    refine keyed_record fractionText [text "capability", text "ref"] rfl (by decide +kernel)
      (by decide +kernel) ?_
    simp only [property, List.forall_mem_cons, List.not_mem_nil, false_imp_iff, implies_true,
      and_true]
    exact ⟨.string _, .string _⟩
  refine keyed_record fractionText [text "receiptSchemaVersion", text "verifierAudience",
    text "principalRef", text "principalBinding", text "inspectorClientRef",
    text "inspectorClientBinding", text "inspectorCapabilityRef", text "artifactId",
    text "objectVersionRef", text "sourceSha256", text "merkleRoot", text "analyzerProfileId",
    text "analyzerProfileVersion", text "policyVersion", text "inspectorDeploymentGitCoordinate",
    text "recordedAt", text "operationDetail", text "resultOrErrorClass"] rfl (by decide +kernel)
    (by decide +kernel) ?_
  simp only [property, List.forall_mem_cons, List.not_mem_nil, false_imp_iff, implies_true,
    and_true] at hcapability ⊢
  exact ⟨.string _, .string _, .string _, .string _, .string _, .string _, hcapability, .string _,
    .string _, .string _, .string _, .string _, .string _, .string _, .string _, .string _, hdetail,
    keyed_outcome fractionText _⟩

end Receipt

/-! What is accepted. -/

/-- A tree that is the same JSON as canonical JSON is canonical JSON. -/
theorem isCanonicalJsonGraph_of_sameJson (heap : Heap n) {depth : ℕ} {slot : Slot n} {w : Value}
    (hsame : SameJson (tree heap depth slot) w) (hcanonical : isCanonicalJsonGraph w = true) :
    isCanonicalJsonGraph (tree heap depth slot) = true := by
  induction depth generalizing slot w with
  | zero =>
    cases slot with
    | number x => cases x <;> first | rfl | cases hsame
    | null => rfl
    | bool _ => rfl
    | string _ => rfl
    | _ => cases hsame
  | succ depth ih =>
    cases slot with
    | number x => cases x <;> first | rfl | cases hsame
    | null => rfl
    | bool _ => rfl
    | string _ => rfl
    | ref a =>
      rw [tree] at hsame ⊢
      cases hnode : heap a with
      | array items =>
        rw [hnode] at hsame
        obtain ⟨ws, rfl, hitems⟩ := Value.sameJson_array_iff.mp hsame.symm
        refine areCanonicalItems_iff.mpr (List.forall_mem_map.mpr fun item hitem => ?_)
        obtain ⟨u, hu, hsameItem⟩ := exists_of_forall₂_right hitems (List.mem_map.mpr ⟨item, hitem, rfl⟩)
        exact ih hsameItem.symm (areCanonicalItems_iff.mp hcanonical u hu)
      | object properties hnodup =>
        rw [hnode] at hsame
        have hkeys : ((properties.map fun p => (p.1, tree heap depth p.2)).map Prod.fst).Nodup := by
          rw [List.map_map]
          exact hnodup
        obtain ⟨qs, rfl, _, hfields⟩ := (Value.sameJson_record_iff hkeys).mp hsame.symm
        have hqs := areCanonicalProperties_iff.mp hcanonical
        refine areCanonicalProperties_iff.mpr (List.forall_mem_map.mpr fun p hp => ?_)
        obtain ⟨v, hv, hsameField⟩ := Value.property_eq_of_field
          (hfields _ (List.mem_map.mpr ⟨p, hp, rfl⟩))
        have hmem := hqs _ (Value.mem_of_property hv)
        exact ⟨hmem.1, ih hsameField.symm hmem.2⟩
    | _ => cases hsame

section Bytes

variable {platform : Platform} {heap : Heap n} {root : Slot n}

/-- The bytes are those of the receipt that the schema reads in a tree. -/
theorem canonicalBytes_eq_some {bytes : Bytes} :
    canonicalArtifactInspectionReceiptBytes platform heap root = some bytes ↔
      Unshared heap root ∧ ∃ receipt,
        Reading.artifactInspectionReceiptSchema (valueOf heap root) = some receipt ∧
        bytes = encodeUtf8 (canonicalJson platform.fractionText
          (ArtifactInspectionReceipt.toValue receipt)) := by
  constructor
  · intro h
    obtain ⟨seen, hgraph, h⟩ := Option.bind_eq_some_iff.mp h
    obtain ⟨receipt, hreceipt, h⟩ := Option.bind_eq_some_iff.mp h
    cases h
    have hsome : (assertCanonicalJsonGraph heap (n + 1) root []).isSome = true := by rw [hgraph]; rfl
    exact ⟨((isSome_assertCanonicalJsonGraph heap (n + 1) root).mp hsome).2, receipt, hreceipt, rfl⟩
  · rintro ⟨hunshared, receipt, hreceipt, rfl⟩
    obtain ⟨hsame, _⟩ := (reads_receipt _ _).mp hreceipt
    have hcanonical := isCanonicalJsonGraph_of_sameJson heap hsame (isCanonicalJsonGraph_toValue receipt)
    obtain ⟨seen, hseen⟩ := Option.isSome_iff_exists.mp
      ((isSome_assertCanonicalJsonGraph heap (n + 1) root).mpr ⟨hcanonical, @hunshared⟩)
    exact Option.bind_eq_some_iff.mpr ⟨seen, hseen, Option.bind_eq_some_iff.mpr ⟨receipt, hreceipt, rfl⟩⟩

/-- The bytes of a receipt decode and parse to its JSON. -/
theorem decodes_receipt (fractionText : ℚ → Text) {receipt : ArtifactInspectionReceipt}
    (h : artifactInspectionReceiptSchema receipt = true) : ∃ json v,
      decodeUtf8 (encodeUtf8 (canonicalJson fractionText
        (ArtifactInspectionReceipt.toValue receipt))) = some json ∧
      jsonParse json = some v ∧ SameJson v (ArtifactInspectionReceipt.toValue receipt) := by
  have hkeyed := keyed_receipt fractionText h
  exact ⟨_, _, (isUtf16_canonicalJson hkeyed).decodeUtf8_encodeUtf8, jsonParse_canonicalJson hkeyed,
    sameJson_sortKeys hkeyed⟩

/-- Receipts with the same JSON are the same receipt. -/
theorem receipt_of_sameJson {v w : Value} {receipt receipt' : ArtifactInspectionReceipt}
    (hv : Reading.artifactInspectionReceiptSchema v = some receipt)
    (hw : Reading.artifactInspectionReceiptSchema w = some receipt') (h : SameJson v w) :
    receipt = receipt' := by
  obtain ⟨hsame, hvalid⟩ := (reads_receipt _ _).mp hw
  have hread := (reads_receipt _ _).mpr ⟨h.trans hsame, hvalid⟩
  rw [hv] at hread
  exact Option.some.inj hread

end Bytes

/-- Bytes are returned for exactly the trees that the schema reads. They decode and
parse to the JSON they were made of, and they are the same for the same JSON only: one
digest of two receipts is a collision of the hash. -/
theorem canonicalBytes_canonical (platform : Platform) {n m : ℕ} (heap : Heap n) (root : Slot n)
    (other : Heap m) (otherRoot : Slot m) :
    (∀ depth, n < depth →
      ((canonicalArtifactInspectionReceiptBytes platform heap root).isSome = true ↔
        (Reading.artifactInspectionReceiptSchema (tree heap depth root)).isSome = true ∧
          Unshared heap root)) ∧
    (∀ bytes, canonicalArtifactInspectionReceiptBytes platform heap root = some bytes →
      ∃ json v, decodeUtf8 bytes = some json ∧ jsonParse json = some v ∧
        SameJson v (valueOf heap root)) ∧
    (∀ bytes bytes', canonicalArtifactInspectionReceiptBytes platform heap root = some bytes →
      canonicalArtifactInspectionReceiptBytes platform other otherRoot = some bytes' →
        (bytes = bytes' ↔ SameJson (valueOf heap root) (valueOf other otherRoot)) ∧
        (platform.sha256Hex bytes = platform.sha256Hex bytes' →
          SameJson (valueOf heap root) (valueOf other otherRoot) ∨
            bytes ≠ bytes' ∧ platform.sha256.digest bytes = platform.sha256.digest bytes')) := by
  refine ⟨?_, ?_, ?_⟩
  · intro depth hdepth
    rw [Option.isSome_iff_exists, Option.isSome_iff_exists]
    constructor
    · rintro ⟨bytes, hbytes⟩
      obtain ⟨hunshared, receipt, hreceipt, _⟩ := canonicalBytes_eq_some.mp hbytes
      rw [Heap.tree_of_le heap
        (fun h => (hunshared.length_lt heap h).trans (Nat.lt_succ_self n)) hdepth]
      exact ⟨⟨receipt, hreceipt⟩, @hunshared⟩
    · rintro ⟨⟨receipt, hreceipt⟩, hunshared⟩
      rw [Heap.tree_of_le heap
        (fun h => (hunshared.length_lt heap h).trans (Nat.lt_succ_self n)) hdepth] at hreceipt
      exact ⟨_, canonicalBytes_eq_some.mpr ⟨@hunshared, receipt, hreceipt, rfl⟩⟩
  · intro bytes hbytes
    obtain ⟨_, receipt, hreceipt, rfl⟩ := canonicalBytes_eq_some.mp hbytes
    obtain ⟨hsame, hvalid⟩ := (reads_receipt _ _).mp hreceipt
    obtain ⟨json, v, hjson, hv, hsameV⟩ := decodes_receipt platform.fractionText hvalid
    exact ⟨json, v, hjson, hv, hsameV.trans hsame.symm⟩
  · intro bytes bytes' hbytes hbytes'
    obtain ⟨_, receipt, hreceipt, rfl⟩ := canonicalBytes_eq_some.mp hbytes
    obtain ⟨_, receipt', hreceipt', rfl⟩ := canonicalBytes_eq_some.mp hbytes'
    obtain ⟨hsame, hvalid⟩ := (reads_receipt _ _).mp hreceipt
    obtain ⟨hsame', hvalid'⟩ := (reads_receipt _ _).mp hreceipt'
    have hbytesIff : encodeUtf8 (canonicalJson platform.fractionText
        (ArtifactInspectionReceipt.toValue receipt)) = encodeUtf8 (canonicalJson
          platform.fractionText (ArtifactInspectionReceipt.toValue receipt')) ↔
        SameJson (valueOf heap root) (valueOf other otherRoot) := by
      constructor
      · intro heq
        -- the bytes are read back as one value, the JSON of either receipt
        obtain ⟨json, v, hjson, hv, hsameV⟩ := decodes_receipt platform.fractionText hvalid
        obtain ⟨json', v', hjson', hv', hsameV'⟩ := decodes_receipt platform.fractionText hvalid'
        rw [heq, hjson'] at hjson
        cases hjson
        rw [hv'] at hv
        cases hv
        exact hsame.trans (hsameV.symm.trans (hsameV'.trans hsame'.symm))
      · intro h
        rw [receipt_of_sameJson hreceipt hreceipt' h]
    refine ⟨hbytesIff, fun hdigest => ?_⟩
    by_cases heq : encodeUtf8 (canonicalJson platform.fractionText
        (ArtifactInspectionReceipt.toValue receipt)) = encodeUtf8 (canonicalJson
          platform.fractionText (ArtifactInspectionReceipt.toValue receipt'))
    · exact Or.inl (hbytesIff.mp heq)
    · exact Or.inr ⟨heq, toHex_injective hdigest⟩

end ReceiptJournal.Graph
