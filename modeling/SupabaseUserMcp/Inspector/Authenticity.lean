import SupabaseUserMcp.Inspector.Discipline
import SupabaseUserMcp.Inspector.Sizes

/- Authenticity. Where the registry's record is that of a source and no two of
   the hashed messages collide, every text a successful operation returns is the
   decoding of the source at the byte range stated for it, whatever the adapter
   hands out. A covering buffer is the source's interval, chunk by chunk; a whole
   source read is the source. -/
namespace Inspector

open Js Inspection ChunkManifest
open Process (Ensures Program Runs runs_run)

/-! Hashed messages. -/

/-- The source, the bytes read and their contiguous parts. -/
def hashedMessages (source : Bytes) (reads : List Bytes) : Set Bytes :=
  {message | ∃ bytes ∈ source :: reads, ∃ start stop, message = subarray bytes start stop}

theorem subarray_mem_hashedMessages {source bytes : Bytes} {reads : List Bytes}
    (h : bytes ∈ source :: reads) (start stop : ℕ) :
    subarray bytes start stop ∈ hashedMessages source reads :=
  ⟨bytes, h, start, stop, rfl⟩

theorem mem_hashedMessages {source bytes : Bytes} {reads : List Bytes}
    (h : bytes ∈ source :: reads) : bytes ∈ hashedMessages source reads :=
  ⟨bytes, h, 0, bytes.length, by simp [subarray]⟩

/-! Covering buffers. -/

/-- A buffer whose chunks are those of the source is the source's interval. -/
theorem eq_subarray_of_chunks {source buffer : Bytes} {cs startChunkIndex endChunkIndex : ℕ}
    (hcs : 0 < cs) (hlength : buffer.length =
      min ((endChunkIndex + 1) * cs) source.length - startChunkIndex * cs)
    (hchunks : ∀ i, startChunkIndex ≤ i → i ≤ endChunkIndex →
      subarray buffer (i * cs - startChunkIndex * cs)
        (i * cs - startChunkIndex * cs + chunkLengthOf source.length cs i) =
          chunkOf source cs i) :
    buffer = subarray source (startChunkIndex * cs)
      (min ((endChunkIndex + 1) * cs) source.length) := by
  apply List.ext_getElem?
  intro k
  rw [getElem?_subarray]
  by_cases hk : k < buffer.length
  · -- Position `k` is at `r` in the chunk `q` after the first.
    obtain ⟨q, r, hr, rfl⟩ : ∃ q r, r < cs ∧ k = q * cs + r :=
      ⟨k / cs, k % cs, Nat.mod_lt k hcs, (Nat.div_add_mod' k cs).symm⟩
    have hstart : (startChunkIndex + q) * cs = startChunkIndex * cs + q * cs := Nat.add_mul _ _ _
    have hend : startChunkIndex + q < endChunkIndex + 1 := by
      refine Nat.lt_of_mul_lt_mul_right (a := cs) ?_
      omega
    have hsource : (chunkOf source cs (startChunkIndex + q))[r]? =
        source[startChunkIndex * cs + (q * cs + r)]? := by
      rw [chunkOf, getElem?_subarray, hstart, if_pos (by omega), Nat.add_assoc]
    have hslice := congrArg (fun bytes : Bytes => bytes[r]?)
      (hchunks (startChunkIndex + q) (by omega) (by omega))
    simp only [hsource, getElem?_subarray, hstart, Nat.add_sub_cancel_left] at hslice
    rw [if_pos (by omega), ← hslice, if_pos]
    rw [chunkLengthOf, hstart]
    omega
  · rw [List.getElem?_eq_none (by omega), if_neg (by omega)]

section Buffers

variable {platform : Platform} {source : Bytes} {cs : ℕ} {reads : List Bytes}
  {hcs : cs ∈ allowedChunkSizes} {hlen : source.length ≤ maxCalibrationSourceBytes}

/-- The verified chunks of a covering buffer are those of the source. -/
theorem CoveredBy.eq_subarray {buffer : Bytes} {startChunkIndex endChunkIndex : ℕ}
    (hcovered : CoveredBy platform (.ofSource platform.sha256 source cs hcs hlen) buffer
      startChunkIndex endChunkIndex) (hbuffer : buffer ∈ reads)
    (hfree : platform.sha256.CollisionFree (hashedMessages source reads)) :
    buffer = subarray source (startChunkIndex * cs)
      (min ((endChunkIndex + 1) * cs) source.length) := by
  refine eq_subarray_of_chunks (pos_of_allowed hcs) hcovered.length fun i hstart hend => ?_
  obtain ⟨hi, -, hdigest⟩ := hcovered.digests i hstart hend
  rw [DeclaredManifest.hash_ofSource platform.sha256 hcs hlen hi] at hdigest
  exact hfree (subarray_mem_hashedMessages (List.mem_cons_of_mem _ hbuffer) _ _)
    (subarray_mem_hashedMessages List.mem_cons_self _ _) (toHex_injective hdigest)

/-- A range read of a verified buffer decodes the source's interval. -/
theorem RangeRead.decodes {input : ArtifactReadRangeInput} {buffer : Bytes}
    {output : InspectionOutput}
    (hread : RangeRead platform (.ofSource platform.sha256 source cs hcs hlen) input buffer output)
    (hbuffer : buffer ∈ reads)
    (hfree : platform.sha256.CollisionFree (hashedMessages source reads)) :
    ∃ data integrity, output = .readRange data integrity ∧
      integrity.returnedRange = ⟨input.offset, input.length⟩ ∧
      Decodes source ⟨input.offset, input.length⟩ data := by
  obtain ⟨data, integrity, houtput, hrange, hdata⟩ := hread.returned
  have hinside : input.offset + input.length ≤ source.length := hread.inside
  refine ⟨data, integrity, houtput, hrange, hinside, ?_⟩
  obtain ⟨-, hoffset, hstop⟩ := covering_bounds (pos_of_allowed hcs) hread.positive hinside
  have hdata : decodeUtf8 (subarray (subarray source (input.offset / cs * cs)
      (min (((input.offset + input.length - 1) / cs + 1) * cs) source.length))
      (input.offset - input.offset / cs * cs)
      (input.offset - input.offset / cs * cs + input.length)) = some data := by
    have heq := hread.covered.eq_subarray hbuffer hfree
    exact (congrArg (fun bytes => decodeUtf8 (subarray bytes _ _)) heq).symm.trans hdata
  have hstop' : input.offset / cs * cs + (input.offset - input.offset / cs * cs + input.length) ≤
      min (((input.offset + input.length - 1) / cs + 1) * cs) source.length := by
    omega
  rwa [subarray_subarray _ hstop', ← Nat.add_assoc, Nat.add_sub_cancel' hoffset] at hdata

/-! Whole sources. -/

/-- A buffer that the manifest of the source verifies is the source. -/
theorem eq_of_verifyArtifactSourceManifest {buffer : Bytes} (hbuffer : buffer ∈ reads)
    (hfree : platform.sha256.CollisionFree (hashedMessages source reads))
    (hverified : verifyArtifactSourceManifest platform.sha256 (.bytes buffer)
      ((DeclaredManifest.ofSource platform.sha256 source cs hcs hlen).manifest platform.sha256) =
        .ok true) : buffer = source := by
  obtain ⟨-, cs', -, hmanifest⟩ := (verifyArtifactSourceManifest_eq_true platform.sha256).mp hverified
  rw [DeclaredManifest.manifest_ofSource] at hmanifest
  have hdigest := congrArg ArtifactChunkManifest.sourceSha256 hmanifest
  exact (hfree (mem_hashedMessages List.mem_cons_self)
    (mem_hashedMessages (List.mem_cons_of_mem _ hbuffer)) (toHex_injective hdigest)).symm

end Buffers

/-! Every operation. -/

/-- A successful output of a read: every returned text is that of its range in the
source, and for a range read that range is the one asked for. -/
structure Authentic (source : Bytes) (operation : ArtifactInspectionOperation) (rawInput : Value)
    (output : InspectionOutput) : Prop where
  ofOperation : outputOperation output = some operation
  returned : ∀ p ∈ returnedTexts output, Decodes source p.1 p.2
  range : operation = .artifactReadRange → ∃ input data integrity,
    artifactReadRangeInputSchema rawInput = some input ∧ output = .readRange data integrity ∧
      integrity.returnedRange = ⟨input.offset, input.length⟩

/-- The registry's answers in a run, where they are valid, are records of the source. -/
def Authorized (platform : Platform) (source : Bytes) (trace : Trace) : Prop :=
  ∀ artifactId rawRecord record, (artifactId, .ok rawRecord) ∈ resolutions trace →
    validateAuthorizedArtifactRecord rawRecord artifactId = some record →
    Describes platform source record

theorem Founded.authentic {platform : Platform} {operation : ArtifactInspectionOperation}
    {rawInput : Value} {source : Bytes} {cs : ℕ} {hcs : cs ∈ allowedChunkSizes}
    {hlen : source.length ≤ maxCalibrationSourceBytes} {reads : List Bytes}
    {output : InspectionOutput}
    (h : Founded platform operation rawInput (.ofSource platform.sha256 source cs hcs hlen) reads
      output) (hfree : platform.sha256.CollisionFree (hashedMessages source reads)) :
    Authentic source operation rawInput output := by
  by_cases hrange : operation = .artifactReadRange
  · obtain ⟨input, hinput, buffer, hbuffer, hread⟩ := h.range hrange
    obtain ⟨data, integrity, rfl, hreturned, hdecodes⟩ := hread.decodes hbuffer hfree
    refine ⟨h.ofOperation, ?_, fun _ => ⟨input, data, integrity, hinput, rfl, hreturned⟩⟩
    intro p hp
    obtain rfl := List.mem_singleton.mp hp
    rw [hreturned]
    exact hdecodes
  · refine ⟨h.ofOperation, ?_, fun h => absurd h hrange⟩
    intro p hp
    by_cases hstat : operation = .artifactStat
    · -- A stat returns no text of the source.
      have hofOperation := h.ofOperation
      cases output <;> simp_all [outputOperation, returnedTexts]
    · obtain ⟨buffer, hbuffer, hread⟩ := h.source hstat hrange
      obtain rfl := eq_of_verifyArtifactSourceManifest hbuffer hfree hread.verified
      exact hread.returned p hp

/-- Whatever the adapter hands out, a successful operation on a record of a source
returns the source. -/
theorem inspect_authentic {platform : Platform} {operation : ArtifactInspectionOperation}
    {context rawInput : Value} {source : Bytes} {trace : Trace} {output : InspectionOutput}
    (hrun : Runs (inspect platform operation context rawInput) trace (.ok output))
    (hauthorized : Authorized platform source trace)
    (hfree : platform.sha256.CollisionFree (hashedMessages source (bytesRead trace)))
    (hok : output.ok = true) : Authentic source operation rawInput output := by
  cases ensures_inspect platform operation context rawInput trace _ hrun with
  | refused h =>
    obtain ⟨-, code, event, hsettled, -⟩ := h
    cases hsettled
    cases hok
  | concluded hrequested hcalled hopened h =>
    cases h with
    | refused => cases hok
    | failed => cases hok
    | succeeded _ _ _ _ _ _ _ _ hfound =>
      obtain ⟨manifest, hres, hfounded⟩ := hfound
      obtain ⟨reply, hresolutions, rawRecord, rfl, hvalidated, -⟩ := hopened.resolution
      have hdescribes := hauthorized _ rawRecord _ (by rw [hresolutions]; exact List.mem_cons_self)
        hvalidated
      obtain ⟨hlen, hdeclared⟩ := hdescribes.declared hres.valid
      rw [hdeclared] at hfounded
      exact hfounded.authentic hfree

/-! The honest environment. -/

namespace HostedSource

theorem authorized_run (platform : Platform) (hosted : HostedSource) {α : Type}
    (p : Inspection α) : Authorized platform hosted.source (p.run (hosted.answer platform)).1 := by
  intro artifactId rawRecord record hmem hvalidated
  obtain rfl := eq_of_mem_resolutions hmem
  rw [eq_record_of_validate hvalidated]
  exact hosted.describes platform

/-- All that is hashed is parts of the source. -/
theorem isInfix_of_mem_hashedMessages {platform : Platform} {hosted : HostedSource} {α : Type}
    {p : Inspection α} {message : Bytes}
    (h : message ∈ hashedMessages hosted.source (bytesRead (p.run (hosted.answer platform)).1)) :
    message <:+: hosted.source := by
  obtain ⟨bytes, hbytes, start, stop, rfl⟩ := h
  refine (subarray_isInfix bytes start stop).trans ?_
  rcases List.mem_cons.mp hbytes with rfl | hread
  · exact List.infix_rfl
  · obtain ⟨first, last, rfl⟩ := eq_subarray_of_mem_bytesRead hread
    exact subarray_isInfix hosted.source first last

end HostedSource

def trustedContext : ArtifactInspectorTrustedContext where
  principalRef := text "principal-1"
  inspectorClientRef := text "client-1"
  inspectorCapabilityRef := text "capability-1"
  verifierAudience := text "audience-1"
  policyVersion := text "1.0.0"
  inspectorDeploymentGitCoordinate := text "0123456789abcdef0123456789abcdef01234567"
  requestCorrelationId := none

def trustedContextValue : Value :=
  .object [property "principalRef" (.string trustedContext.principalRef),
    property "inspectorClientRef" (.string trustedContext.inspectorClientRef),
    property "inspectorCapabilityRef" (.object
      [property "capability" (.string (text "artifact:inspect")),
        property "ref" (.string trustedContext.inspectorCapabilityRef)]),
    property "verifierAudience" (.string trustedContext.verifierAudience),
    property "policyVersion" (.string trustedContext.policyVersion),
    property "inspectorDeploymentGitCoordinate"
      (.string trustedContext.inspectorDeploymentGitCoordinate)]

theorem validateRuntimeContext_trusted :
    validateRuntimeContext trustedContextValue = some trustedContext := by decide +kernel

def oneByte : HostedSource := ⟨[0x61], 1024, mem_allowedChunkSizes_1024, by decide⟩

theorem run_oneByte : ((artifactReadRange asciiPlatform trustedContextValue
    (HostedSource.rangeInput 0 1)).run (oneByte.answer asciiPlatform)).2 =
      .ok (oneByte.rangeOutput asciiPlatform 0 1 (text "a")) := by
  have hdata : (text "a").all isQuotable = true := by decide
  have hsize := oneByte.responseByteLength_oneChunk asciiPlatform (by decide) (by decide) hdata
  have hdecode : decodeUtf8 (subarray oneByte.source 0 1) = some (text "a") := by decide
  refine oneByte.run_artifactReadRange asciiPlatform (by decide) (by decide) (by decide)
    validateRuntimeContext_trusted hdecode ?_
  rw [show oneByte.source.length = 1 from rfl] at hsize
  rw [hsize]
  decide

theorem collisionFree_oneByte : sha256.CollisionFree {message | message <:+: oneByte.source} := by
  have hparts : ∀ message, message <:+: oneByte.source → message = [] ∨ message = [0x61] :=
    fun message h => List.sublist_singleton.mp h.sublist
  have hne : sha256.digest [] ≠ sha256.digest [0x61] := by decide +kernel
  intro a ha b hb hab
  rcases hparts a ha with rfl | rfl <;> rcases hparts b hb with rfl | rfl
  · rfl
  · exact absurd hab hne
  · exact absurd hab.symm hne
  · rfl

/-- A hash that tells texts apart by their length and their last byte. -/
def tallied : Sha256 where
  digest message := [UInt8.ofNat message.length, UInt8.ofNat (message.length / 256),
    message.getLastD 0] ++ List.replicate 29 0
  length_digest _ := rfl

def talliedPlatform : Platform := { asciiPlatform with sha256 := tallied }

theorem eq_of_tallied {a b : Bytes} (ha : a.length < 65536) (hb : b.length < 65536)
    (h : tallied.digest a = tallied.digest b) :
    a.length = b.length ∧ a.getLastD 0 = b.getLastD 0 := by
  simp only [tallied, List.append_cancel_right_eq, List.cons.injEq, and_true] at h
  obtain ⟨hlow, hhigh, hlast⟩ := h
  have hlow := congrArg UInt8.toNat hlow
  have hhigh := congrArg UInt8.toNat hhigh
  simp only [UInt8.toNat_ofNat'] at hlow hhigh
  exact ⟨by omega, hlast⟩

/-- A chunk of one letter, and a last chunk of another. -/
def aThenB : Bytes := List.replicate 1024 0x61 ++ [0x62]

theorem length_aThenB : aThenB.length = 1025 := by
  rw [aThenB, List.length_append, List.length_replicate, List.length_singleton]

def twoChunks : HostedSource :=
  ⟨aThenB, 1024, mem_allowedChunkSizes_1024, by
    rw [length_aThenB]
    decide⟩

/-- All but the last byte of a part are the first letter. -/
theorem dropLast_of_isInfix {message : Bytes} (h : message <:+: aThenB) :
    message.dropLast = List.replicate (message.length - 1) 0x61 := by
  refine List.eq_replicate_iff.mpr ⟨List.length_dropLast, fun byte hbyte => ?_⟩
  obtain ⟨before, after, heq⟩ := h
  have hpos : 0 < message.length := by
    have := List.length_pos_of_mem hbyte
    rw [List.length_dropLast] at this
    omega
  have hlength := congrArg List.length heq
  rw [length_aThenB, List.length_append, List.length_append] at hlength
  have hpart : before ++ message.dropLast <+: aThenB := by
    rw [← heq, List.append_assoc]
    exact (List.prefix_append_right_inj before).mpr
      ((List.dropLast_prefix message).trans (List.prefix_append message after))
  have hletters : before ++ message.dropLast <+: List.replicate 1024 0x61 := by
    refine List.prefix_of_prefix_length_le hpart (List.prefix_append _ _) ?_
    rw [List.length_append, List.length_dropLast, List.length_replicate]
    omega
  exact List.eq_of_mem_replicate (hletters.subset (List.mem_append_right before hbyte))

theorem collisionFree_twoChunks : tallied.CollisionFree {message | message <:+: aThenB} := by
  have hbound : ∀ message, message <:+: aThenB → message.length < 65536 := fun message h =>
    h.length_le.trans_lt (by rw [length_aThenB]; decide)
  intro a ha b hb hab
  obtain ⟨hlength, hlast⟩ := eq_of_tallied (hbound a ha) (hbound b hb) hab
  have hinit : a.dropLast = b.dropLast := by
    rw [dropLast_of_isInfix ha, dropLast_of_isInfix hb, hlength]
  by_cases hnil : a = []
  · subst hnil
    exact (List.length_eq_zero_iff.mp hlength.symm).symm
  · have hnil' : b ≠ [] := fun h => hnil (List.length_eq_zero_iff.mp (hlength.trans (by rw [h]; rfl)))
    rw [← List.dropLast_concat_getLast hnil, ← List.dropLast_concat_getLast hnil', hinit]
    rw [List.getLastD_eq_getLast?, List.getLastD_eq_getLast?, List.getLast?_eq_some_getLast hnil,
      List.getLast?_eq_some_getLast hnil', Option.getD_some, Option.getD_some] at hlast
    rw [hlast]

set_option maxRecDepth 8000 in
theorem run_twoChunks : ((artifactReadRange talliedPlatform trustedContextValue
    (HostedSource.rangeInput 1023 2)).run (twoChunks.answer talliedPlatform)).2 =
      .ok (twoChunks.rangeOutput talliedPlatform 1023 2 (text "ab")) := by
  have hdecode : decodeUtf8 (subarray twoChunks.source 1023 (1023 + 2)) = some (text "ab") := by
    decide +kernel
  have hfits : artifactInspectionResponseByteLength talliedPlatform .null
      (twoChunks.rangeOutput talliedPlatform 1023 2 (text "ab")).toValue ≤
        maxArtifactResponseBytes := by
    decide +kernel
  exact twoChunks.run_artifactReadRange talliedPlatform (by decide) (by decide) length_aThenB.ge
    validateRuntimeContext_trusted hdecode hfits

/-- The range read of one byte, and that of two bytes in neighbouring chunks. -/
theorem inspect_authentic_labs :
    Authentic oneByte.source .artifactReadRange (HostedSource.rangeInput 0 1)
      (oneByte.rangeOutput asciiPlatform 0 1 (text "a")) ∧
    Authentic twoChunks.source .artifactReadRange (HostedSource.rangeInput 1023 2)
      (twoChunks.rangeOutput talliedPlatform 1023 2 (text "ab")) := by
  have hone := runs_run (oneByte.answer asciiPlatform)
    (inspect asciiPlatform .artifactReadRange trustedContextValue (HostedSource.rangeInput 0 1))
  have htwo := runs_run (twoChunks.answer talliedPlatform)
    (inspect talliedPlatform .artifactReadRange trustedContextValue (HostedSource.rangeInput 1023 2))
  constructor
  · exact inspect_authentic (run_oneByte ▸ hone) (oneByte.authorized_run asciiPlatform _)
      (collisionFree_oneByte.mono fun _ h =>
        @HostedSource.isInfix_of_mem_hashedMessages asciiPlatform oneByte _ _ _ h) rfl
  · exact inspect_authentic (run_twoChunks ▸ htwo) (twoChunks.authorized_run talliedPlatform _)
      (collisionFree_twoChunks.mono fun _ h =>
        @HostedSource.isInfix_of_mem_hashedMessages talliedPlatform twoChunks _ _ _ h) rfl

end Inspector
