import SupabaseUserMcp.Inspector.Hosting

/- A source behind an honest registry and an honest byte adapter. The registry
   answers with the record of the source's manifest, the adapter with the
   source's bytes, and a range read of the source succeeds when its bytes decode
   and its response fits. -/
namespace Inspector

open Js Inspection ChunkManifest
open Process (Program eq_of_mem_run runs_run)

/-- A source an honest registry has a record of. -/
structure HostedSource where
  source : Bytes
  chunkSize : ℕ
  allowed : chunkSize ∈ allowedChunkSizes
  bounded : source.length ≤ maxCalibrationSourceBytes

theorem mem_allowedChunkSizes_1024 : 1024 ∈ allowedChunkSizes := by decide

namespace HostedSource

variable (platform : Platform) (hosted : HostedSource)

def hashes : List (Text × Text) := sourceHashes platform.sha256 hosted.source hosted.chunkSize

def manifest : ArtifactChunkManifest :=
  sourceManifest platform.sha256 hosted.source hosted.chunkSize

def artifactId : Text := text "art_0123456789abcdef"

def objectVersionRef : Text := text "ov_0123456789abcdefg"

def record : AuthorizedArtifactRecord where
  artifactId := artifactId
  internalLocator := .null
  objectVersionRef := objectVersionRef
  sourceSha256 := toHex (rawDigest platform.sha256 hosted.source)
  byteLength := hosted.source.length
  chunkSize := hosted.chunkSize
  chunkCount := chunkCountOf hosted.source.length hosted.chunkSize
  chunkSha256s := (hosted.hashes platform).map Prod.fst
  merkleLeafSha256s := (hosted.hashes platform).map Prod.snd
  merkleRoot := (hosted.manifest platform).merkleRoot
  mediaType := plainMediaType
  createdAt := text "2026-01-01T00:00:00Z"
  expiresAt := none
  chunkHashesRef := none

def recordProperties : List (Text × Value) :=
  let record := hosted.record platform
  [property "artifactId" (.string record.artifactId),
    property "internalLocator" record.internalLocator,
    property "objectVersionRef" (.string record.objectVersionRef),
    property "sourceSha256" (.string record.sourceSha256),
    property "byteLength" (natValue record.byteLength),
    property "chunkSize" (natValue record.chunkSize),
    property "chunkCount" (natValue record.chunkCount),
    property "chunkSha256s" (.array (record.chunkSha256s.map .string)),
    property "merkleLeafSha256s" (.array (record.merkleLeafSha256s.map .string)),
    property "merkleRoot" (.string record.merkleRoot),
    property "mediaType" (.string record.mediaType),
    property "createdAt" (.string record.createdAt)]

/-- The registry's answer. -/
def recordValue : Value := .object (hosted.recordProperties platform)

theorem sha256HexSchema_of {s : Text} (h : hex64Pattern s = true) :
    sha256HexSchema (.string s) = some s := Schema.refine_of rfl h

theorem nodup_recordProperties : ((hosted.recordProperties platform).map Prod.fst).Nodup := by
  have hkeys : (hosted.recordProperties platform).map Prod.fst =
      authorizedArtifactRecordKeys.take 12 := rfl
  rw [hkeys]
  decide +kernel

/-- Reading a property of the record at its position. -/
theorem property_record (i : ℕ) {key : Text} {v : Value}
    (h : (hosted.recordProperties platform)[i]? = some (key, v)) :
    (Value.property (hosted.recordProperties platform) key).getD .undefined = v := by
  rw [Value.property_of_getElem? (hosted.nodup_recordProperties platform) h, Option.getD_some]

theorem metadata_record : authorizedArtifactMetadata (fun key =>
    (Value.property (hosted.recordProperties platform) key).getD .undefined) =
      some (hosted.record platform) := by
  have hcount : chunkCountOf hosted.source.length hosted.chunkSize ≤ maxChunkCount :=
    chunkCountOf_le hosted.allowed hosted.bounded
  have hlen : hosted.source.length ≤ maxCalibrationSourceBytes := hosted.bounded
  have hhashes : Hex64Pairs (hosted.hashes platform) := hex64Pairs_sourceHashes _ _ _
  have hlengths : (hosted.hashes platform).length =
      chunkCountOf hosted.source.length hosted.chunkSize := length_sourceHashes _ _ _
  have hkeys : (hosted.recordProperties platform).map Prod.fst =
      authorizedArtifactRecordKeys.take 12 := rfl
  have hexpires : Value.property (hosted.recordProperties platform) (text "expiresAt") = none :=
    Value.property_eq_none (by rw [hkeys]; decide)
  have hreference : Value.property (hosted.recordProperties platform) (text "chunkHashesRef") =
      none := Value.property_eq_none (by rw [hkeys]; decide)
  simp only [authorizedArtifactMetadata, hexpires, hreference]
  rw [hosted.property_record platform 0 rfl, hosted.property_record platform 1 rfl,
    hosted.property_record platform 2 rfl, hosted.property_record platform 3 rfl,
    hosted.property_record platform 4 rfl, hosted.property_record platform 5 rfl,
    hosted.property_record platform 6 rfl, hosted.property_record platform 7 rfl,
    hosted.property_record platform 8 rfl, hosted.property_record platform 9 rfl,
    hosted.property_record platform 10 rfl, hosted.property_record platform 11 rfl]
  have hid : artifactIdSchema (.string artifactId) = some artifactId := by decide +kernel
  have hversion : opaqueObjectVersionRefSchema (.string objectVersionRef) = some objectVersionRef := by
    decide +kernel
  have hmedia : mediaTypeSchema (.string plainMediaType) = some plainMediaType := by decide +kernel
  have hcreated : isoDatetimeSchema (.string (text "2026-01-01T00:00:00Z")) =
      some (text "2026-01-01T00:00:00Z") := by decide +kernel
  have hsource : sha256HexSchema (.string (toHex (rawDigest platform.sha256 hosted.source))) =
      some (toHex (rawDigest platform.sha256 hosted.source)) :=
    sha256HexSchema_of (hex64Pattern_toHex (platform.sha256.length_digest _))
  have hlength : Schema.natBetween 0 maxCalibrationSourceBytes (natValue hosted.source.length) =
      some hosted.source.length :=
    Schema.natBetween_ofNat (Nat.zero_le _) hlen (hlen.trans (by decide))
  have hsize : Schema.map Number.toNat (Schema.int.refine isAllowedChunkSize)
      (natValue hosted.chunkSize) = some hosted.chunkSize := by
    have hsafe : hosted.chunkSize ≤ 9007199254740991 := by
      have hallowed := hosted.allowed
      simp only [allowedChunkSizes, List.mem_cons, List.not_mem_nil, or_false] at hallowed
      omega
    exact Schema.map_eq_some.mpr ⟨hosted.chunkSize, Schema.refine_of
      (Schema.refine_of rfl (Number.isSafeInteger_ofNat hsafe))
      (isAllowedChunkSize_eq_true.mpr ⟨_, hosted.allowed, rfl⟩), Number.toNat_ofNat _⟩
  have hchunkCount : Schema.natBetween 0 maxChunkCount
      (natValue (chunkCountOf hosted.source.length hosted.chunkSize)) = some _ :=
    Schema.natBetween_ofNat (Nat.zero_le _) hcount (hcount.trans (by decide))
  have hraw : Schema.arrayMax maxChunkCount sha256HexSchema
      (.array (((hosted.hashes platform).map Prod.fst).map .string)) =
        some ((hosted.hashes platform).map Prod.fst) := by
    refine Schema.arrayMax_strings (by rwa [List.length_map, hlengths]) fun s hs => ?_
    obtain ⟨pair, hpair, rfl⟩ := List.mem_map.mp hs
    exact sha256HexSchema_of (hhashes pair hpair).1
  have hleaf : Schema.arrayMax maxChunkCount sha256HexSchema
      (.array (((hosted.hashes platform).map Prod.snd).map .string)) =
        some ((hosted.hashes platform).map Prod.snd) := by
    refine Schema.arrayMax_strings (by rwa [List.length_map, hlengths]) fun s hs => ?_
    obtain ⟨pair, hpair, rfl⟩ := List.mem_map.mp hs
    exact sha256HexSchema_of (hhashes pair hpair).2
  have hroot : sha256HexSchema (.string (hosted.manifest platform).merkleRoot) =
      some (hosted.manifest platform).merkleRoot :=
    sha256HexSchema_of (hex64Pattern_toHex (length_rootDigest platform.sha256
      (length_mem_sourceLeaves platform.sha256 hosted.source hosted.chunkSize)))
  have hrefine : authorizedArtifactMetadataRefine (hosted.record platform) = true := by
    have hcounted : chunkCountOf hosted.source.length hosted.chunkSize =
        if hosted.source.length = 0 then 0
        else (hosted.source.length + hosted.chunkSize - 1) / hosted.chunkSize := by
      split
      · next hempty => rw [hempty, chunkCountOf_zero (pos_of_allowed hosted.allowed)]
      · rfl
    simp only [authorizedArtifactMetadataRefine, record, List.length_map, hlengths,
      Bool.and_eq_true, beq_iff_eq]
    exact ⟨⟨hcounted, trivial⟩, trivial⟩
  have hoptional : isoDatetimeSchema.optional (none.getD Value.undefined) = some none ∧
      opaqueChunkHashesRefSchema.optional (none.getD Value.undefined) = some none := ⟨rfl, rfl⟩
  simp only [record] at hrefine ⊢
  simp only [hid, hversion, hsource, hlength, hsize, hchunkCount, hraw, hleaf, hroot, hmedia,
    hcreated, hoptional, hrefine, Option.bind_eq_bind, Option.bind_some, guard_true]
  rfl

/-- The registry's answer is a valid record of the source. -/
theorem validate_record : validateAuthorizedArtifactRecord (hosted.recordValue platform) artifactId =
    some (hosted.record platform) := by
  have hkeys : ((hosted.recordProperties platform).all fun p =>
      authorizedArtifactRecordKeys.contains p.1) = true := by
    have hall : ((hosted.recordProperties platform).map Prod.fst).all
        (authorizedArtifactRecordKeys.contains ·) = true := by
      show (authorizedArtifactRecordKeys.take 12).all _ = true
      decide +kernel
    simpa [List.all_map] using hall
  have hlocator : Value.property (hosted.recordProperties platform) (text "internalLocator") =
      some .null :=
    Value.property_of_getElem? (hosted.nodup_recordProperties platform) (i := 1) rfl
  simp only [validateAuthorizedArtifactRecord, recordValue, hlocator, hkeys,
    hosted.metadata_record platform, Option.isSome_some, guard_true, Option.bind_eq_bind]
  rfl

theorem validRecord : ValidRecord (hosted.record platform) :=
  (validateAuthorizedArtifactRecord_eq_some (hosted.validate_record platform)).2

theorem describes : Describes platform hosted.source (hosted.record platform) := by
  refine ⟨hosted.manifest platform, (buildArtifactChunkManifest_eq_ok platform.sha256).mpr
    ⟨hosted.bounded, hosted.chunkSize, hosted.allowed, rfl, rfl⟩, rfl, rfl, rfl, ?_, ?_, rfl⟩
  · have h := congrArg (List.map Prod.fst) (map_digests_entriesFrom hosted.source.length
      hosted.chunkSize 0 (hosted.hashes platform))
    rwa [List.map_map] at h
  · have h := congrArg (List.map Prod.snd) (map_digests_entriesFrom hosted.source.length
      hosted.chunkSize 0 (hosted.hashes platform))
    rwa [List.map_map] at h

theorem declared_record : (hosted.validRecord platform).declared =
    .ofSource platform.sha256 hosted.source hosted.chunkSize hosted.allowed hosted.bounded :=
  ((hosted.describes platform).declared (hosted.validRecord platform)).choose_spec

/-! The environment. -/

/-- The adapter's answer. -/
def rangeResult (bytes : Bytes) : Value :=
  .object [property "bytes" (.bytes bytes), property "objectVersionRef" (.string objectVersionRef)]

def answer : ∀ q, Reply q
  | .performanceNow => (0 : ℚ)
  | .now => .date (some 0)
  | .resolveAuthorizedArtifact _ _ => .ok (hosted.recordValue platform)
  | .readVersionedRange _ _ _ offset length =>
    .ok (rangeResult (subarray hosted.source offset (offset + length)))
  | .emitOperationalEvent _ => .ok ()
  | .emitInspectionReceipt _ => .ok ()

theorem parseReadResult_rangeResult (bytes : Bytes) :
    parseReadResult (rangeResult bytes) = some ⟨bytes, objectVersionRef⟩ := by
  have hversion : opaqueObjectVersionRefSchema (.string objectVersionRef) = some objectVersionRef := by
    decide +kernel
  have hkeys : text "bytes" ≠ text "objectVersionRef" := by decide +kernel
  simp [parseReadResult, readVersionedRangeResultSchema, rangeResult, Schema.strictObject, property,
    Value.property, hkeys, hversion, Schema.uint8Array]

/-- The source as one behind honest dependencies. -/
def hosting {context : Value} {runtimeContext : ArtifactInspectorTrustedContext}
    (hcontext : validateRuntimeContext context = some runtimeContext)
    (hne : hosted.source ≠ []) : Hosting platform where
  source := hosted.source
  nonempty := hne
  artifactId := artifactId
  rawRecord := hosted.recordValue platform
  record := hosted.record platform
  validated := hosted.validate_record platform
  describes := hosted.describes platform
  context := context
  runtimeContext := runtimeContext
  trusted := hcontext
  time := 0
  fourDigitYear := fourDigitYear_zero
  unexpired := rfl

/-- The environment is honest. -/
theorem honest_answer {context : Value} {runtimeContext : ArtifactInspectorTrustedContext}
    (hcontext : validateRuntimeContext context = some runtimeContext)
    (hne : hosted.source ≠ []) (q : Request) :
    (hosted.hosting platform hcontext hne).Honest ⟨q, hosted.answer platform q⟩ := by
  cases q with
  | performanceNow => trivial
  | now => rfl
  | resolveAuthorizedArtifact context id => exact fun _ => rfl
  | readVersionedRange context locator version offset length =>
    intro _ hversion _
    obtain rfl : version = objectVersionRef := hversion
    exact ⟨_, rfl, parseReadResult_rangeResult _⟩
  | emitOperationalEvent event => trivial
  | emitInspectionReceipt receipt => trivial

/-! A range read. -/

def rangeInput (offset length : ℕ) : Value :=
  .object [property "artifactId" (.string artifactId), property "offset" (natValue offset),
    property "length" (natValue length)]

theorem artifactReadRangeInputSchema_rangeInput {offset length : ℕ}
    (hoffset : offset ≤ maxArtifactByteOffset) (hpositive : 1 ≤ length)
    (hmax : length ≤ maxRangeBytes) :
    artifactReadRangeInputSchema (rangeInput offset length) = some ⟨artifactId, offset, length⟩ := by
  have hid : artifactIdSchema (.string artifactId) = some artifactId := by decide +kernel
  have hoffset := Schema.natBetween_ofNat (Nat.zero_le offset) hoffset
    (hoffset.trans (by decide))
  have hlength := Schema.natBetween_ofNat hpositive hmax (hmax.trans (by decide))
  have hkeys : text "artifactId" ≠ text "offset" ∧ text "artifactId" ≠ text "length" ∧
      text "offset" ≠ text "length" := by decide +kernel
  simp [artifactReadRangeInputSchema, Schema.strictObject, rangeInput, property, Value.property,
    hkeys, hid, natValue, hoffset, hlength]

section ReadRange

variable {offset length : ℕ} {data : Text}

/-- The output of a range read of the source. -/
def rangeOutput (offset length : ℕ) (data : Text) : InspectionOutput :=
  .readRange data (rangeIntegrity platform
    (.ofSource platform.sha256 hosted.source hosted.chunkSize hosted.allowed hosted.bounded) offset
    length (offset / hosted.chunkSize) ((offset + length - 1) / hosted.chunkSize)
    (platform.sha256Hex (subarray hosted.source offset (offset + length))))

/-- Against honest dependencies a range read inside the source succeeds with the
text of its bytes, where they have one and the response fits. -/
theorem run_artifactReadRange (hpositive : 1 ≤ length) (hmax : length ≤ maxRangeBytes)
    (hinside : offset + length ≤ hosted.source.length) {context : Value}
    {runtimeContext : ArtifactInspectorTrustedContext}
    (hcontext : validateRuntimeContext context = some runtimeContext)
    (hdecode : decodeUtf8 (subarray hosted.source offset (offset + length)) = some data)
    (hlimit : artifactInspectionResponseByteLength platform .null
      (hosted.rangeOutput platform offset length data).toValue ≤ maxArtifactResponseBytes) :
    ((artifactReadRange platform context (rangeInput offset length)).run
      (hosted.answer platform)).2 = .ok (hosted.rangeOutput platform offset length data) := by
  have hne : hosted.source ≠ [] := List.length_pos_iff.mp (by omega)
  have hbounded := hosted.bounded
  have hoffset : offset ≤ maxArtifactByteOffset := by
    have : maxCalibrationSourceBytes ≤ maxArtifactByteOffset := by decide
    omega
  have hinput := artifactReadRangeInputSchema_rangeInput hoffset hpositive hmax
  have hsettles := (hosted.hosting platform hcontext hne).settles_artifactReadRange hinput rfl
    hinside hdecode
  have hhonest : ∀ x ∈ ((artifactReadRange platform context (rangeInput offset length)).run
      (hosted.answer platform)).1, (hosted.hosting platform hcontext hne).Honest x := by
    intro x hx
    rw [eq_of_mem_run (hosted.answer platform) hx]
    exact hosted.honest_answer platform hcontext hne x.request
  have hresult := (hsettles _ _ (runs_run (hosted.answer platform) _) hhonest).2
  rw [limited, if_neg] at hresult
  · exact hresult
  · exact Nat.not_lt.mpr hlimit

end ReadRange

/-! What the environment hands out. -/

section HandedOut

variable {platform hosted} {α : Type} {p : Inspection α}

/-- The registry's answers are the record. -/
theorem eq_of_mem_resolutions {artifactId rawRecord}
    (h : (artifactId, .ok rawRecord) ∈ resolutions (p.run (hosted.answer platform)).1) :
    rawRecord = hosted.recordValue platform := by
  obtain ⟨x, hx, hresolution⟩ := List.mem_filterMap.mp h
  rw [eq_of_mem_run (hosted.answer platform) hx] at hresolution
  cases hrequest : x.request with
  | resolveAuthorizedArtifact context id =>
    rw [hrequest] at hresolution
    have hpair : (id, Except.ok (hosted.recordValue platform)) =
        ((artifactId, .ok rawRecord) : Text × Except Unit Value) := Option.some.inj hresolution
    cases hpair
    rfl
  | _ =>
    rw [hrequest] at hresolution
    cases hresolution

/-- The bytes read are parts of the source. -/
theorem eq_subarray_of_mem_bytesRead {bytes : Bytes}
    (h : bytes ∈ bytesRead (p.run (hosted.answer platform)).1) :
    ∃ start stop, bytes = subarray hosted.source start stop := by
  obtain ⟨x, hx, hread⟩ := List.mem_filterMap.mp h
  rw [eq_of_mem_run (hosted.answer platform) hx] at hread
  cases hrequest : x.request with
  | readVersionedRange context locator version offset length =>
    rw [hrequest] at hread
    have hbytes : some (subarray hosted.source offset (offset + length)) = some bytes := by
      rw [← hread]
      simp only [answer, readOf, parseReadResult_rangeResult, Option.map_some]
    exact ⟨offset, offset + length, (Option.some.inj hbytes).symm⟩
  | _ =>
    rw [hrequest] at hread
    cases hread

/-- A valid answer is the record, whatever artifact it is validated for. -/
theorem eq_record_of_validate {artifactId : Text} {record : AuthorizedArtifactRecord}
    (h : validateAuthorizedArtifactRecord (hosted.recordValue platform) artifactId = some record) :
    record = hosted.record platform := by
  have hvalidated := hosted.validate_record platform
  simp only [validateAuthorizedArtifactRecord, recordValue, Option.bind_eq_bind,
    Option.bind_eq_some_iff] at h hvalidated
  obtain ⟨⟨⟩, -, ⟨⟩, -, found, hfound, ⟨⟩, -, hrecord⟩ := h
  obtain ⟨⟨⟩, -, ⟨⟩, -, found', hfound', ⟨⟩, -, hrecord'⟩ := hvalidated
  rw [hfound] at hfound'
  cases hfound'
  exact (Option.some.inj hrecord).symm.trans (Option.some.inj hrecord')

end HandedOut

end HostedSource

end Inspector
