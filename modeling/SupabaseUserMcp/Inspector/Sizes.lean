import SupabaseUserMcp.Inspection.Frame
import SupabaseUserMcp.Inspector.Honest

/- The size of the response of a range read that returns a source of one chunk
   whole, as a function of the text. -/
namespace Inspector

open Js Inspection ChunkManifest

/-- The output of such a read, its digests left open. -/
def oneChunkOutput (cs length : ℕ) (chunk root returned source : Bytes) (data : Text) :
    InspectionOutput :=
  .readRange data ⟨.byteRange 0 length, ⟨0, 0⟩, ⟨0, length⟩, cs, 1,
    [⟨0, 0, length, toHex chunk, []⟩], toHex root, toHex returned, toHex source⟩

section Weight

variable (platform : Platform) {cs length : ℕ} {chunk root returned source : Bytes} {data : Text}

theorem isPlainJson_oneChunkOutput (hcs : cs ≤ 2 ^ 53) (hlength : length ≤ 2 ^ 53)
    (hdata : data.all isQuotable = true) : isPlainJson platform.fractionText
      (oneChunkOutput cs length chunk root returned source data).toValue = true := by
  have hkeys : ([text "ok", text "data", text "contentTrust", text "untrusted", text "integrity",
      text "requestedRange", text "kind", text "byte_range", text "offset", text "length",
      text "verifiedCoveringChunkRange", text "startChunkIndex", text "endChunkIndex",
      text "returnedRange", text "chunkSize", text "chunkCount", text "verifiedChunks",
      text "chunkIndex", text "byteStart", text "byteLength", text "chunkSha256",
      text "merkleProof", text "merkleRoot", text "returnedByteSha256",
      text "sourceSha256"].all fun key => key.all isQuotable) = true := by decide +kernel
  simp only [List.all_cons, List.all_nil, Bool.and_eq_true] at hkeys
  simp only [oneChunkOutput, InspectionOutput.toValue, PartialReadIntegrity.toValue,
    RequestedRange.toValue, CoveringChunkRange.toValue, ByteRange.toValue, VerifiedChunk.toValue,
    List.map_cons, List.map_nil, contentTrust, property, natValue, isPlainJson, arePlainProperties,
    arePlainItems, hkeys, hdata, isQuotable_toHex, jsonNumber_ofNat _ hcs, jsonNumber_ofNat _ hlength,
    jsonNumber_ofNat _ (show 0 ≤ 2 ^ 53 by decide), jsonNumber_ofNat _ (show 1 ≤ 2 ^ 53 by decide),
    isPlain_decimal, Bool.and_self]

/-- The numbers and the text weigh what they do, and the rest 1462. -/
theorem jsonWeight_oneChunkOutput (hcs : cs ≤ 2 ^ 53) (hlength : length ≤ 2 ^ 53)
    (hchunk : chunk.length = 32) (hroot : root.length = 32) (hreturned : returned.length = 32)
    (hsource : source.length = 32) : jsonWeight platform.fractionText
      (oneChunkOutput cs length chunk root returned source data).toValue =
        1462 + 3 * weight (decimal length) + weight (decimal cs) + leafWeight data := by
  have hkeys : [text "ok", text "data", text "contentTrust", text "untrusted", text "integrity",
      text "requestedRange", text "kind", text "byte_range", text "offset", text "length",
      text "verifiedCoveringChunkRange", text "startChunkIndex", text "endChunkIndex",
      text "returnedRange", text "chunkSize", text "chunkCount", text "verifiedChunks",
      text "chunkIndex", text "byteStart", text "byteLength", text "chunkSha256",
      text "merkleProof", text "merkleRoot", text "returnedByteSha256",
      text "sourceSha256"].map leafWeight = [4, 8, 24, 18, 18, 28, 8, 20, 12, 12, 52, 30, 26, 26, 18,
        20, 28, 20, 18, 20, 22, 22, 20, 36, 24] := by decide +kernel
  simp only [List.map_cons, List.map_nil, List.cons.injEq] at hkeys
  have hdecimal : weight (decimal 0) = 2 ∧ weight (decimal 1) = 2 := by decide
  simp only [oneChunkOutput, InspectionOutput.toValue, PartialReadIntegrity.toValue,
    RequestedRange.toValue, CoveringChunkRange.toValue, ByteRange.toValue, VerifiedChunk.toValue,
    List.map_cons, List.map_nil, contentTrust, property, natValue, jsonWeight, propertiesWeight,
    itemsWeight, hkeys, leafWeight_toHex, hchunk, hroot, hreturned, hsource, jsonNumber_ofNat _ hcs,
    jsonNumber_ofNat _ hlength, jsonNumber_ofNat _ (show 0 ≤ 2 ^ 53 by decide),
    jsonNumber_ofNat _ (show 1 ≤ 2 ^ 53 by decide), hdecimal]
  omega

end Weight

namespace HostedSource

variable (platform : Platform) (hosted : HostedSource)

/-- A read of the whole of a source of one chunk. -/
theorem rangeOutput_oneChunk (hpos : 0 < hosted.source.length)
    (hone : hosted.source.length ≤ hosted.chunkSize) (data : Text) :
    ∃ chunk root returned source : Bytes, chunk.length = 32 ∧ root.length = 32 ∧
      returned.length = 32 ∧ source.length = 32 ∧
      hosted.rangeOutput platform 0 hosted.source.length data =
        oneChunkOutput hosted.chunkSize hosted.source.length chunk root returned source data := by
  have hcount : chunkCountOf hosted.source.length hosted.chunkSize = 1 := by
    rw [chunkCountOf]
    exact Nat.div_eq_of_lt_le (by omega) (by omega)
  have hsteps : (DeclaredManifest.ofSource platform.sha256 hosted.source hosted.chunkSize
      hosted.allowed hosted.bounded).steps platform.sha256 0 = [] := by
    rw [← List.length_eq_zero_iff, DeclaredManifest.length_steps]
    show Nat.clog 2 (chunkCountOf hosted.source.length hosted.chunkSize) = 0
    rw [hcount]
    rfl
  have hhash := DeclaredManifest.hash_ofSource platform.sha256 hosted.allowed hosted.bounded
    (i := 0) (by omega)
  have hlength : chunkLengthOf hosted.source.length hosted.chunkSize 0 = hosted.source.length := by
    rw [chunkLengthOf]
    omega
  have hlast : (0 + hosted.source.length - 1) / hosted.chunkSize = 0 :=
    Nat.div_eq_of_lt (by omega)
  have hchunk : verifiedChunk platform (.ofSource platform.sha256 hosted.source hosted.chunkSize
      hosted.allowed hosted.bounded) 0 = ⟨0, 0, hosted.source.length,
        toHex (rawDigest platform.sha256 (chunkOf hosted.source hosted.chunkSize 0)), []⟩ := by
    rw [verifiedChunk, hsteps, hhash]
    simpa [DeclaredManifest.ofSource, chunkHashes] using hlength
  have hdigest := platform.sha256.length_digest
  refine ⟨rawDigest platform.sha256 (chunkOf hosted.source hosted.chunkSize 0),
    rootDigest platform.sha256 (sourceLeaves platform.sha256 hosted.source hosted.chunkSize),
    rawDigest platform.sha256 (subarray hosted.source 0 (0 + hosted.source.length)),
    rawDigest platform.sha256 hosted.source, hdigest _, ?_, hdigest _, hdigest _, ?_⟩
  · exact length_rootDigest platform.sha256
      (length_mem_sourceLeaves platform.sha256 hosted.source hosted.chunkSize)
  · have hdeclared : (DeclaredManifest.ofSource platform.sha256 hosted.source hosted.chunkSize
        hosted.allowed hosted.bounded).chunkCount = 1 := hcount
    rw [rangeOutput, rangeIntegrity, DeclaredManifest.manifest_ofSource, hlast, Nat.zero_div,
      hdeclared]
    simp only [Nat.zero_add, Nat.sub_zero, List.range'_one, List.map_cons, List.map_nil, hchunk]
    rfl

/-- The response has the size of its text, its numbers and a constant. -/
theorem responseByteLength_oneChunk (hpos : 0 < hosted.source.length)
    (hone : hosted.source.length ≤ hosted.chunkSize) {data : Text}
    (hdata : data.all isQuotable = true) :
    artifactInspectionResponseByteLength platform .null
      (hosted.rangeOutput platform 0 hosted.source.length data).toValue =
        1706 + 3 * weight (decimal hosted.source.length) + weight (decimal hosted.chunkSize) +
          leafWeight data := by
  obtain ⟨chunk, root, returned, source, hchunk, hroot, hreturned, hsource, houtput⟩ :=
    hosted.rangeOutput_oneChunk platform hpos hone data
  have hbounded := hosted.bounded
  have hcs : hosted.chunkSize ≤ 8192 := by
    have hallowed := hosted.allowed
    simp only [allowedChunkSizes, List.mem_cons, List.not_mem_nil, or_false] at hallowed
    omega
  have hsmall : hosted.chunkSize ≤ 2 ^ 53 ∧ hosted.source.length ≤ 2 ^ 53 := by
    constructor <;> omega
  rw [houtput]
  obtain ⟨json, hjson, hplain, hweight⟩ := stringify_measure platform.fractionText _
    (isPlainJson_oneChunkOutput platform hsmall.1 hsmall.2 hdata)
  rw [responseByteLength_plain hjson hplain rfl, hweight, jsonWeight_oneChunkOutput platform hsmall.1
    hsmall.2 hchunk hroot hreturned hsource]
  omega

end HostedSource

end Inspector
