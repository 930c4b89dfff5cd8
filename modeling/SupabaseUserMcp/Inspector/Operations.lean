import SupabaseUserMcp.Inspector.Covering
import SupabaseUserMcp.Inspector.Trace
import SupabaseUserMcp.TextIndex.Reads

/- Each operation on a resolved record ends in one of the three ways. None
   rejects: every in-bounds read is in bounds and every schema check answers. A
   success says which bytes the adapter handed out, how they were verified, and
   that every returned text decodes a part of them. -/
namespace Inspector

open Js Inspection ChunkManifest TextIndex
open Process (Ensures)

/-! What a success rests on. -/

/-- The texts an output returns, each with the byte range it states for it. -/
def returnedTexts : InspectionOutput → List (ByteRange × Text)
  | .stat _ | .error _ => []
  | .readRange data integrity | .readLines data _ integrity | .readHeading _ data integrity =>
    [(integrity.returnedRange, data)]
  | .searchExact hits _ => hits.map fun hit => (hit.snippetRange, hit.snippet)

/-- The operation whose success an output is. -/
def outputOperation : InspectionOutput → Option ArtifactInspectionOperation
  | .stat _ => some .artifactStat
  | .readRange .. => some .artifactReadRange
  | .readLines .. => some .artifactReadLines
  | .readHeading .. => some .artifactReadHeading
  | .searchExact .. => some .artifactSearchExact
  | .error _ => none

/-- The wire check every successful output has passed. -/
def WithinLimit (platform : Platform) (output : InspectionOutput) : Prop :=
  withinArtifactInspectionResponseByteLimit platform output.toValue = true

/-- A buffer of the covering chunks, each with its declared digest. -/
structure CoveredBy (platform : Platform) (d : DeclaredManifest) (buffer : Bytes)
    (startChunkIndex endChunkIndex : ℕ) : Prop where
  length : buffer.length = min ((endChunkIndex + 1) * d.chunkSize) d.byteLength -
    startChunkIndex * d.chunkSize
  digests : ∀ i, startChunkIndex ≤ i → i ≤ endChunkIndex → i < d.chunkCount ∧
    (chunkSlice d buffer (startChunkIndex * d.chunkSize) i).length =
      chunkLengthOf d.byteLength d.chunkSize i ∧
    platform.sha256Hex (chunkSlice d buffer (startChunkIndex * d.chunkSize) i) = (d.hash i).1

/-- A byte range inside a source, and the text of its bytes. -/
def Decodes (source : Bytes) (range : ByteRange) (data : Text) : Prop :=
  range.offset + range.length ≤ source.length ∧
    decodeUtf8 (subarray source range.offset (range.offset + range.length)) = some data

/-- A range read from a verified covering buffer. -/
structure RangeRead (platform : Platform) (d : DeclaredManifest) (input : ArtifactReadRangeInput)
    (buffer : Bytes) (output : InspectionOutput) : Prop where
  within : WithinLimit platform output
  inside : input.offset + input.length ≤ d.byteLength
  positive : 0 < input.length
  covered : CoveredBy platform d buffer (input.offset / d.chunkSize)
    ((input.offset + input.length - 1) / d.chunkSize)
  returned : ∃ data integrity, output = .readRange data integrity ∧
    integrity.returnedRange = ⟨input.offset, input.length⟩ ∧
    decodeUtf8 (subarray buffer (input.offset - input.offset / d.chunkSize * d.chunkSize)
      (input.offset - input.offset / d.chunkSize * d.chunkSize + input.length)) = some data

/-- A read of an operation from the whole verified source. -/
structure SourceRead (platform : Platform) (d : DeclaredManifest)
    (operation : ArtifactInspectionOperation) (source : Bytes) (output : InspectionOutput) :
    Prop where
  within : WithinLimit platform output
  ofOperation : outputOperation output = some operation
  verified : verifyArtifactSourceManifest platform.sha256 (.bytes source)
    (d.manifest platform.sha256) = .ok true
  returned : ∀ p ∈ returnedTexts output, Decodes source p.1 p.2

/-! Rules. -/

section Rules

variable {platform : Platform} {call : Call} {options : ReceiptOptions}
  {found : List Bytes → InspectionOutput → Prop}

theorem concludes_ite {c : Prop} [Decidable c] {p q : Inspection Settled}
    (hp : c → Concludes platform call options found p)
    (hq : ¬c → Concludes platform call options found q) :
    Concludes platform call options found (if c then p else q) := by
  by_cases h : c
  · rw [if_pos h]
    exact hp h
  · rw [if_neg h]
    exact hq h

/-- The end of a success: the output schema answers, and what it accepts has a
receipt. -/
theorem concludes_checked {checked : Except String Bool} {onError : String → Inspection Settled}
    {onInvalid onValid : Inspection Settled} :
    (∃ valid, checked = .ok valid) → Concludes platform call options found onInvalid →
      (checked = .ok true → Concludes platform call options found onValid) →
      Concludes platform call options found (match checked with
        | .error message => onError message
        | .ok false => onInvalid
        | .ok true => onValid) := by
  intro hanswers hinvalid hvalid
  obtain ⟨valid, rfl⟩ := hanswers
  cases valid with
  | false => exact hinvalid
  | true => exact hvalid rfl

variable {d : DeclaredManifest}

/-- The end of the verification of covering chunks: it answers, and its chunks
are those of the manifest. -/
theorem concludes_verifyCovering {buffer : Bytes} {bufferOffset startChunkIndex endChunkIndex : ℕ}
    {onError : Thrown → Inspection Settled} {onCorrupt : Inspection Settled}
    {next : List VerifiedChunk → Inspection Settled}
    (hcorrupt : Concludes platform call options found onCorrupt)
    (hnext : (∀ i, startChunkIndex ≤ i → i ≤ endChunkIndex → i < d.chunkCount ∧
        (chunkSlice d buffer bufferOffset i).length = chunkLengthOf d.byteLength d.chunkSize i ∧
        platform.sha256Hex (chunkSlice d buffer bufferOffset i) = (d.hash i).1) →
      ∀ verifiedChunks, (startChunkIndex ≤ endChunkIndex → verifiedChunks ≠ []) →
        Concludes platform call options found (next verifiedChunks)) :
    Concludes platform call options found
      (match buildAndVerifyCoveringChunks platform (d.manifest platform.sha256) startChunkIndex
          endChunkIndex (chunkBytesAt (d.manifest platform.sha256) buffer bufferOffset) with
      | .error e => onError e
      | .ok none => onCorrupt
      | .ok (some verifiedChunks) => next verifiedChunks) := by
  obtain ⟨found, hfound, hverified⟩ := verifyCoveringChunks_manifest platform d buffer bufferOffset
    (List.range' startChunkIndex (endChunkIndex + 1 - startChunkIndex))
  simp only [buildAndVerifyCoveringChunks, hfound]
  cases found with
  | none => exact hcorrupt
  | some verifiedChunks =>
    obtain ⟨rfl, hdigests⟩ := hverified verifiedChunks rfl
    refine hnext ?_ _ ?_
    · intro i hstart hend
      exact hdigests i (List.mem_range'_1.mpr ⟨hstart, by omega⟩)
    · intro hle hnil
      simp only [List.map_eq_nil_iff, List.range'_eq_nil_iff] at hnil
      omega

end Rules

/-! The operations. -/

section Operations

variable {platform : Platform} {call : Call} {options : ReceiptOptions}
  (hvalid : ValidRecord options.record)

theorem concludes_artifactStatBody (hop : call.operation = .artifactStat)
    (input : ArtifactStatInput) (manifest : ArtifactChunkManifest) :
    Concludes platform call options (fun _ output =>
        WithinLimit platform output ∧ outputOperation output = some .artifactStat)
      (artifactStatBody platform call options input manifest) := by
  have hdetail : receiptOperation .artifactStat = call.operation := hop.symm
  have hplaceholder : receiptEvidence .artifactStat = placeholderEvidence platform call.operation := by
    rw [hop]
    rfl
  unfold artifactStatBody
  split
  · exact concludes_failClosed hdetail hplaceholder _ (by decide)
  · refine concludes_ite (fun _ => concludes_failClosed hdetail hplaceholder _ (by decide))
      fun _ => ?_
    refine concludes_checked exists_artifactStatOutputSchema
      (concludes_failClosed hdetail hplaceholder _ (by decide)) fun hschema => ?_
    exact concludes_succeed hdetail rfl rfl (fun _ => ⟨within_of_outputSchema hschema, rfl⟩) _ _

/-! Range. -/

theorem artifactReadRangeInputSchema_eq_some {v : Value} {input : ArtifactReadRangeInput}
    (h : artifactReadRangeInputSchema v = some input) :
    0 < input.length ∧ input.length ≤ maxRangeBytes := by
  cases v with
  | object properties =>
    simp only [artifactReadRangeInputSchema, Schema.strictObject, Option.ite_none_right_eq_some]
      at h
    obtain ⟨artifactId, -, h⟩ := Option.bind_eq_some_iff.mp h.2
    obtain ⟨offset, -, h⟩ := Option.bind_eq_some_iff.mp h
    obtain ⟨length, hlength, h⟩ := Option.bind_eq_some_iff.mp h
    obtain rfl := Option.some.inj h
    exact Schema.natBetween_eq_some hlength
  | _ => cases h

/-- The error receipts of a range read. -/
theorem concludes_failRange {found : List Bytes → InspectionOutput → Prop}
    (hop : call.operation = .artifactReadRange) (input : ArtifactReadRangeInput)
    (byteCounts : Option ByteCounts) {code : ArtifactInspectionErrorCode}
    (hcode : code ≠ .deadlineExceeded) :
    Concludes platform call options found (failClosed call options
      (.artifactReadRange ⟨input.offset, input.length⟩ placeholderReturnedRange
        (emptyBytesSha256Hex platform)) byteCounts code) :=
  concludes_failClosed (by rw [hop]; rfl) (by rw [hop]; rfl) byteCounts hcode

theorem concludes_finishReadRange (hop : call.operation = .artifactReadRange)
    {input : ArtifactReadRangeInput} (hlength : 0 < input.length)
    (hinside : input.offset + input.length ≤ options.record.byteLength) {buffer : Bytes}
    (hcovered : CoveredBy platform hvalid.declared buffer
      (input.offset / options.record.chunkSize)
      ((input.offset + input.length - 1) / options.record.chunkSize))
    {verifiedChunks : List VerifiedChunk} (hne : verifiedChunks ≠ []) :
    Concludes platform call options (fun _ => RangeRead platform hvalid.declared input buffer)
      (finishReadRange platform call options input (input.offset / options.record.chunkSize)
        ((input.offset + input.length - 1) / options.record.chunkSize)
        (input.offset / options.record.chunkSize * options.record.chunkSize) buffer
        verifiedChunks) := by
  unfold finishReadRange
  refine concludes_ite (fun _ => concludes_failRange hop input _ (by decide)) fun _ => ?_
  dsimp only
  split
  · exact concludes_failRange hop input _ (by decide)
  · next data hdata =>
    refine concludes_ite (fun _ => concludes_failRange hop input _ (by decide)) fun _ => ?_
    refine concludes_checked (exists_artifactReadRangeOutputSchema ?_)
      (concludes_failRange hop input _ (by decide)) fun hschema => ?_
    · rintro integrity ⟨⟩
      exact hne
    · refine concludes_succeed (by rw [hop]; rfl) rfl rfl (fun _ => ?_) _ _
      exact ⟨within_of_outputSchema hschema, hinside, hlength, hcovered, _, _, rfl, rfl, hdata⟩

theorem concludes_artifactReadRangeBody (hop : call.operation = .artifactReadRange)
    {input : ArtifactReadRangeInput} (hlength : 0 < input.length) :
    Concludes platform call options
      (fun reads output => ∃ buffer ∈ reads, RangeRead platform hvalid.declared input buffer output)
      (artifactReadRangeBody platform call options input
        (hvalid.declared.manifest platform.sha256)) := by
  unfold artifactReadRangeBody
  refine concludes_ite (fun _ => concludes_failRange hop input _ (by decide)) fun hinside => ?_
  refine concludes_ite (fun _ => concludes_failRange hop input _ (by decide)) fun _ => ?_
  have hinside : input.offset + input.length ≤ options.record.byteLength := by
    simp only [Bool.or_eq_true, decide_eq_true_eq] at hinside
    omega
  have hle := (covering_bounds (pos_of_allowed hvalid.allowed) hlength hinside).1
  refine concludes_readBytes (fun _ hcode => concludes_failRange hop input _ hcode)
    fun buffer hbuffer => ?_
  refine concludes_verifyCovering (d := hvalid.declared)
    (concludes_failRange hop input _ (by decide))
    fun hdigests verifiedChunks hne => ?_
  exact concludes_finishReadRange hvalid hop hlength hinside ⟨hbuffer, hdigests⟩ (hne hle)

/-! Lines. -/

theorem mapArtifactTextIndexError_ne (e : ArtifactTextIndexError) :
    mapArtifactTextIndexError e ≠ .deadlineExceeded := by
  rw [mapArtifactTextIndexError]
  cases e.code <;> decide

/-- A read of the whole source concludes when its failures do and what follows a
verified and indexed source does. -/
theorem concludes_readIndexedSource {mediaType : Text}
    {failClosed : ArtifactInspectionErrorCode → Inspection Settled}
    {next : Bytes → ArtifactTextIndex → Inspection Settled}
    (hfail : ∀ found code, code ≠ .deadlineExceeded →
      Concludes platform call options found (failClosed code))
    (hnext : ∀ source textIndex, source.length = options.record.byteLength →
      verifyArtifactSourceManifest platform.sha256 (.bytes source)
        (hvalid.declared.manifest platform.sha256) = .ok true →
      Indexes platform source textIndex →
      Concludes platform call options
        (fun _ => SourceRead platform hvalid.declared call.operation source)
        (next source textIndex)) :
    Concludes platform call options
      (fun reads output => ∃ source ∈ reads,
        SourceRead platform hvalid.declared call.operation source output)
      (readIndexedSource platform call options (hvalid.declared.manifest platform.sha256)
        mediaType failClosed next) := by
  unfold readIndexedSource
  refine concludes_readBytes (hfail _) fun source hlength => ?_
  obtain ⟨answer, hanswer⟩ :=
    hvalid.declared.verifyArtifactSourceManifest_manifest platform.sha256 source
  simp only [hanswer]
  cases answer with
  | false => exact hfail _ _ (by decide)
  | true =>
    cases hbuild : buildArtifactTextIndex platform (.bytes source) (.string mediaType) with
    | error e => exact hfail _ _ (mapArtifactTextIndexError_ne e)
    | ok textIndex => exact hnext source textIndex hlength hanswer (indexes_of_build hbuild)

theorem artifactReadLinesInputSchema_eq_some {v : Value} {input : ArtifactReadLinesInput}
    (h : artifactReadLinesInputSchema v = some input) :
    (0 < input.startLine ∧ input.startLine ≤ maxStartLine) ∧
      0 < input.count ∧ input.count ≤ maxLineCount := by
  cases v with
  | object properties =>
    simp only [artifactReadLinesInputSchema, Schema.strictObject, Option.ite_none_right_eq_some]
      at h
    obtain ⟨artifactId, -, h⟩ := Option.bind_eq_some_iff.mp h.2
    obtain ⟨startLine, hstart, h⟩ := Option.bind_eq_some_iff.mp h
    obtain ⟨count, hcount, h⟩ := Option.bind_eq_some_iff.mp h
    obtain rfl := Option.some.inj h
    exact ⟨Schema.natBetween_eq_some hstart, Schema.natBetween_eq_some hcount⟩
  | _ => cases h

/-- The error receipts of a read of lines. -/
theorem concludes_failLines {found : List Bytes → InspectionOutput → Prop}
    (hop : call.operation = .artifactReadLines) (input : ArtifactReadLinesInput)
    (byteCounts : Option ByteCounts) {code : ArtifactInspectionErrorCode}
    (hcode : code ≠ .deadlineExceeded) :
    Concludes platform call options found
      (failLines platform call options input byteCounts code) :=
  concludes_failClosed (by rw [hop]; rfl) (by rw [hop]; rfl) byteCounts hcode

section Lines

variable {source : Bytes} (hverified : verifyArtifactSourceManifest platform.sha256 (.bytes source)
  (hvalid.declared.manifest platform.sha256) = .ok true)

include hverified

/-- No line is read past the last, and the empty text decodes no bytes. -/
theorem concludes_readPastLastLine (hlength : source.length = options.record.byteLength)
    (hop : call.operation = .artifactReadLines)
    (input : ArtifactReadLinesInput) :
    Concludes platform call options
      (fun _ => SourceRead platform hvalid.declared call.operation source)
      (readPastLastLine platform call options input (hvalid.declared.manifest platform.sha256)
        source) := by
  unfold readPastLastLine
  refine concludes_ite (fun _ => concludes_failLines hop input _ (by decide)) fun _ => ?_
  refine concludes_verifyCovering (d := hvalid.declared)
    (concludes_failLines hop input _ (by decide))
    fun _ verifiedChunks hne => ?_
  refine concludes_checked (exists_artifactReadLinesOutputSchema ?_)
    (concludes_failLines hop input _ (by decide)) fun hschema => ?_
  · rintro integrity ⟨⟩
    exact hne (Nat.le_refl _)
  · refine concludes_succeed (by rw [hop]; rfl) rfl rfl (fun _ => ?_) _ _
    refine ⟨within_of_outputSchema hschema, by rw [hop]; rfl, hverified, ?_⟩
    intro p hp
    obtain rfl := List.mem_singleton.mp hp
    have hempty : subarray source options.record.byteLength (options.record.byteLength + 0) = [] :=
      subarray_self source _
    exact ⟨hlength.ge, (congrArg decodeUtf8 hempty).trans (decodeUtf8_encoded [])⟩

theorem concludes_finishReadLines (hop : call.operation = .artifactReadLines)
    (input : ArtifactReadLinesInput) {data : Text} {returnedRange : ByteRange}
    (hdata : Decodes source returnedRange data)
    (returnedLineCount startChunkIndex endChunkIndex : ℕ) {verifiedChunks : List VerifiedChunk}
    (hne : verifiedChunks ≠ []) :
    Concludes platform call options
      (fun _ => SourceRead platform hvalid.declared call.operation source)
      (finishReadLines platform call options input data returnedLineCount returnedRange
        startChunkIndex endChunkIndex verifiedChunks) := by
  unfold finishReadLines
  refine concludes_ite (fun _ => concludes_failLines hop input _ (by decide)) fun _ => ?_
  refine concludes_ite (fun _ => concludes_failLines hop input _ (by decide)) fun _ => ?_
  refine concludes_checked (exists_artifactReadLinesOutputSchema ?_)
    (concludes_failLines hop input _ (by decide)) fun hschema => ?_
  · rintro integrity ⟨⟩
    exact hne
  · refine concludes_succeed (by rw [hop]; rfl) rfl rfl (fun _ => ?_) _ _
    refine ⟨within_of_outputSchema hschema, by rw [hop]; rfl, hverified, ?_⟩
    intro p hp
    obtain rfl := List.mem_singleton.mp hp
    exact hdata

theorem concludes_readSelectedLines (hop : call.operation = .artifactReadLines)
    {input : ArtifactReadLinesInput} (hstart : 0 < input.startLine) (hcount : 0 < input.count)
    {textIndex : ArtifactTextIndex} (hindex : Indexes platform source textIndex)
    (hinside : input.startLine - 1 < textIndex.lineCount) :
    Concludes platform call options
      (fun _ => SourceRead platform hvalid.declared call.operation source)
      (readSelectedLines platform call options input (hvalid.declared.manifest platform.sha256)
        source textIndex) := by
  unfold readSelectedLines
  dsimp only
  split
  · exact concludes_failLines hop input _ (mapArtifactTextIndexError_ne _)
  · next read hread =>
    -- The lines the index reads between are those the inspector locates.
    obtain ⟨first, last, hfirst, hlast, hdata⟩ := readIndexedLines_eq_ok hindex hread
    have hlastIndex : input.startLine + min input.count (textIndex.lineCount - (input.startLine - 1))
        - 1 - 1 = input.startLine - 1 +
          min input.count (textIndex.lineCount - (input.startLine - 1)) - 1 := by
      omega
    rw [hlastIndex] at hlast
    have hlt : first.byteStart < last.stop :=
      hindex.tiles.start_lt_stop (by omega) hfirst hlast
    simp only [selectedLines, hfirst, hlast, definedAt_some, ok_bind]
    refine concludes_ite (fun _ => concludes_failLines hop input _ (by decide)) fun _ => ?_
    refine concludes_verifyCovering (d := hvalid.declared)
      (concludes_failLines hop input _ (by decide))
      fun _ verifiedChunks hne => ?_
    have hne := hne (Nat.div_le_div_right (by simp only [ArtifactTextLine.stop] at hlt; omega))
    refine concludes_finishReadLines hvalid hverified hop input ?_ _ _ _ hne
    have hstop := (hindex.tiles.bounds hlast).2.2
    rw [ArtifactTextLine.stop] at hlt hdata hstop
    rw [Decodes, Nat.add_sub_cancel' hlt.le]
    exact ⟨hstop, hdata⟩

end Lines

theorem concludes_artifactReadLinesBody (hop : call.operation = .artifactReadLines)
    {input : ArtifactReadLinesInput} (hstart : 0 < input.startLine) (hcount : 0 < input.count) :
    Concludes platform call options
      (fun reads output => ∃ source ∈ reads,
        SourceRead platform hvalid.declared call.operation source output)
      (artifactReadLinesBody platform call options input
        (hvalid.declared.manifest platform.sha256)) := by
  unfold artifactReadLinesBody
  refine concludes_ite (fun _ => concludes_failLines hop input _ (by decide)) fun _ => ?_
  refine concludes_ite (fun _ => concludes_failLines hop input _ (by decide)) fun _ => ?_
  refine concludes_readIndexedSource hvalid (fun _ _ hcode => concludes_failLines hop input _ hcode)
    fun source textIndex hlength hverified hindex => ?_
  refine concludes_ite (fun _ => concludes_readPastLastLine hvalid hverified hlength hop input)
    fun hinside => ?_
  exact concludes_readSelectedLines hvalid hverified hop hstart hcount hindex
    (Nat.lt_of_not_le hinside)

/-! Headings. -/

/-- The error receipts of a read of a heading. -/
theorem concludes_failHeading {found : List Bytes → InspectionOutput → Prop}
    (hop : call.operation = .artifactReadHeading) (input : ArtifactReadHeadingInput)
    {code : ArtifactInspectionErrorCode} (hcode : code ≠ .deadlineExceeded) :
    Concludes platform call options found (failHeading platform call options input code) :=
  concludes_failClosed (by rw [hop]; rfl) (by rw [hop]; rfl) none hcode

section Headings

variable {source : Bytes} (hverified : verifyArtifactSourceManifest platform.sha256 (.bytes source)
  (hvalid.declared.manifest platform.sha256) = .ok true)

include hverified

theorem concludes_finishReadHeading (hop : call.operation = .artifactReadHeading)
    (input : ArtifactReadHeadingInput) {data : Text} {returnedRange : ByteRange}
    (hdata : Decodes source returnedRange data)
    (startChunkIndex endChunkIndex : ℕ) {verifiedChunks : List VerifiedChunk}
    (hne : verifiedChunks ≠ []) :
    Concludes platform call options
      (fun _ => SourceRead platform hvalid.declared call.operation source)
      (finishReadHeading platform call options input source data returnedRange
        startChunkIndex endChunkIndex verifiedChunks) := by
  unfold finishReadHeading
  refine concludes_ite (fun _ => concludes_failHeading hop input (by decide)) fun _ => ?_
  refine concludes_ite (fun _ => concludes_failHeading hop input (by decide)) fun _ => ?_
  refine concludes_checked (exists_artifactReadHeadingOutputSchema ?_)
    (concludes_failHeading hop input (by decide)) fun hschema => ?_
  · rintro integrity ⟨⟩
    exact hne
  · refine concludes_succeed (by rw [hop]; rfl) rfl rfl (fun _ => ?_) _ _
    refine ⟨within_of_outputSchema hschema, by rw [hop]; rfl, hverified, ?_⟩
    intro p hp
    obtain rfl := List.mem_singleton.mp hp
    exact hdata

theorem concludes_readSelectedHeading (hop : call.operation = .artifactReadHeading)
    (input : ArtifactReadHeadingInput) {textIndex : ArtifactTextIndex}
    (hindex : Indexes platform source textIndex) :
    Concludes platform call options
      (fun _ => SourceRead platform hvalid.declared call.operation source)
      (readSelectedHeading platform call options input (hvalid.declared.manifest platform.sha256)
        source textIndex) := by
  unfold readSelectedHeading
  dsimp only
  split
  · refine concludes_ite (fun _ => concludes_unavailable none) fun _ => ?_
    exact concludes_failHeading hop input (mapArtifactTextIndexError_ne _)
  · next read hread =>
    obtain ⟨heading, hheading, hdata⟩ := readIndexedHeading_eq_ok hindex hread
    have hpos := (hindex.headings heading (List.mem_of_find?_eq_some hheading)).1
    have hinside := hindex.heading_inside (List.mem_of_find?_eq_some hheading)
    simp only [hheading]
    refine concludes_ite (fun _ => concludes_failHeading hop input (by decide)) fun _ => ?_
    refine concludes_verifyCovering (d := hvalid.declared)
      (concludes_failHeading hop input (by decide))
      fun _ verifiedChunks hne => ?_
    have hne := hne (Nat.div_le_div_right (by omega))
    exact concludes_finishReadHeading hvalid hverified hop input ⟨hinside, hdata⟩ _ _ hne

end Headings

theorem concludes_artifactReadHeadingBody (hop : call.operation = .artifactReadHeading)
    (input : ArtifactReadHeadingInput) :
    Concludes platform call options
      (fun reads output => ∃ source ∈ reads,
        SourceRead platform hvalid.declared call.operation source output)
      (artifactReadHeadingBody platform call options input
        (hvalid.declared.manifest platform.sha256)) := by
  unfold artifactReadHeadingBody
  refine concludes_ite (fun _ => concludes_failHeading hop input (by decide)) fun _ => ?_
  refine concludes_ite (fun _ => concludes_failHeading hop input (by decide)) fun _ => ?_
  exact concludes_readIndexedSource hvalid (fun _ _ hcode => concludes_failHeading hop input hcode)
    fun source textIndex _ hverified hindex =>
      concludes_readSelectedHeading hvalid hverified hop input hindex

/-! Search. -/

/-- The inner loop stays among the lines it is given. -/
theorem advanceLine_le (matchOffset : ℕ) : ∀ (lines : List ArtifactTextLine) (lineIndex : ℕ),
    advanceLine matchOffset lineIndex lines ≤ lineIndex + lines.length := by
  intro lines
  induction lines with
  | nil =>
    intro lineIndex
    exact Nat.le_add_right _ _
  | cons next rest ih =>
    intro lineIndex
    rw [advanceLine]
    split
    · have := ih (lineIndex + 1)
      simp only [List.length_cons]
      omega
    · omega

/-- A match is at the bytes of the query. -/
theorem indexOf_eq_some {source query : Bytes} {start k : ℕ} (hstart : start ≤ source.length)
    (h : indexOf source query start = some k) :
    k + query.length ≤ source.length ∧ subarray source k (k + query.length) = query := by
  have hleading := List.find?_some h
  have hrange := List.mem_range'_1.mp (List.mem_of_find?_eq_some h)
  rw [List.isPrefixOf_iff_prefix] at hleading
  constructor
  · have := hleading.length_le
    rw [List.length_drop] at this
    omega
  · rw [subarray, List.drop_take, Nat.add_sub_cancel_left]
    exact (List.prefix_iff_eq_take.mp hleading).symm

/-- The search finds a line for every hit, and each hit is the query's bytes. -/
theorem searchHits_eq (platform : Platform) (source : Bytes) {queryBytes : Bytes} {query : Text}
    {lines : List ArtifactTextLine} (hquery : decodeUtf8 queryBytes = some query) :
    ∀ remaining searchOffset lineIndex, lineIndex < lines.length →
      ∃ hits, searchHits platform source queryBytes query lines remaining searchOffset lineIndex =
          .ok hits ∧ ∀ hit ∈ hits, Decodes source hit.snippetRange hit.snippet := by
  intro remaining
  induction remaining with
  | zero =>
    intro searchOffset lineIndex _
    exact ⟨[], rfl, by simp⟩
  | succ remaining ih =>
    intro searchOffset lineIndex hline
    rw [searchHits]
    split
    · next hroom =>
      cases hmatch : indexOf source queryBytes searchOffset with
      | none => exact ⟨[], rfl, by simp⟩
      | some k =>
        have hadvanced : advanceLine k lineIndex (lines.drop (lineIndex + 1)) < lines.length := by
          have := advanceLine_le k (lines.drop (lineIndex + 1)) lineIndex
          rw [List.length_drop] at this
          omega
        obtain ⟨hits, hhits, htexts⟩ := ih (k + queryBytes.length) _ hadvanced
        simp only [List.getElem?_eq_getElem hadvanced, definedAt_some, ok_bind, hhits]
        refine ⟨_, rfl, ?_⟩
        intro hit hmem
        rcases List.mem_cons.mp hmem with rfl | hmem
        · obtain ⟨hinside, hbytes⟩ := indexOf_eq_some (by omega) hmatch
          exact ⟨hinside, (congrArg decodeUtf8 hbytes).trans hquery⟩
        · exact htexts hit hmem
    · exact ⟨[], rfl, by simp⟩

theorem decodeUtf8_of_encodeUnicodeScalarValueString {query : Text} {queryBytes : Bytes}
    (h : encodeUnicodeScalarValueString query = some queryBytes) :
    decodeUtf8 queryBytes = some query := by
  simp only [encodeUnicodeScalarValueString] at h
  split at h
  · cases h
  · split at h
    · next hdecoded =>
      obtain rfl := Option.some.inj h
      exact hdecoded
    · cases h

/-- An accepted query is the decoding of its bytes. -/
theorem decodeUtf8_of_encodedSearchInput {v : Value} {input : EncodedSearchInput}
    (h : encodedSearchInput v = some input) :
    decodeUtf8 input.queryBytes = some input.input.query := by
  obtain ⟨search, -, h⟩ := Option.bind_eq_some_iff.mp h
  obtain ⟨queryBytes, hbytes, h⟩ := Option.bind_eq_some_iff.mp h
  obtain ⟨⟨⟩, -, h⟩ := Option.bind_eq_some_iff.mp h
  obtain rfl := Option.some.inj h
  exact decodeUtf8_of_encodeUnicodeScalarValueString hbytes

/-- The error receipts of a search. -/
theorem concludes_failSearch {found : List Bytes → InspectionOutput → Prop}
    (hop : call.operation = .artifactSearchExact) (input : EncodedSearchInput)
    {code : ArtifactInspectionErrorCode} (hcode : code ≠ .deadlineExceeded) :
    Concludes platform call options found (failSearch call options input code) :=
  concludes_failClosed (by rw [hop]; rfl) (by rw [hop]; rfl) none hcode

theorem concludes_finishSearch {source : Bytes}
    (hverified : verifyArtifactSourceManifest platform.sha256 (.bytes source)
      (hvalid.declared.manifest platform.sha256) = .ok true)
    (hop : call.operation = .artifactSearchExact) {input : EncodedSearchInput}
    (hquery : decodeUtf8 input.queryBytes = some input.input.query)
    {textIndex : ArtifactTextIndex} (hlines : textIndex.lines ≠ [])
    {verifiedChunks : List VerifiedChunk} (hne : verifiedChunks ≠ []) :
    Concludes platform call options
      (fun _ => SourceRead platform hvalid.declared call.operation source)
      (finishSearch platform call options input (hvalid.declared.manifest platform.sha256) source
        textIndex verifiedChunks) := by
  unfold finishSearch
  refine concludes_ite (fun _ => concludes_failSearch hop input (by decide)) fun _ => ?_
  obtain ⟨hits, hhits, htexts⟩ := searchHits_eq platform source hquery
    input.input.maxHits 0 0 (List.length_pos_iff.mpr hlines)
  simp only [hhits]
  refine concludes_ite (fun _ => concludes_failSearch hop input (by decide)) fun _ => ?_
  refine concludes_checked (exists_artifactSearchExactOutputSchema ?_)
    (concludes_failSearch hop input (by decide)) fun hschema => ?_
  · rintro integrity ⟨⟩
    exact hne
  · refine concludes_succeed (by rw [hop]; rfl) ?_ rfl (fun _ => ?_) _ _
    · simp [receiptEvidence, searchDetail, outputEvidence]
    · refine ⟨within_of_outputSchema hschema, by rw [hop]; rfl, hverified, ?_⟩
      intro p hp
      obtain ⟨hit, hmem, rfl⟩ := List.mem_map.mp hp
      exact htexts hit hmem

theorem concludes_artifactSearchExactBody (hop : call.operation = .artifactSearchExact)
    {input : EncodedSearchInput} (hquery : decodeUtf8 input.queryBytes = some input.input.query) :
    Concludes platform call options
      (fun reads output => ∃ source ∈ reads,
        SourceRead platform hvalid.declared call.operation source output)
      (artifactSearchExactBody platform call options input
        (hvalid.declared.manifest platform.sha256)) := by
  unfold artifactSearchExactBody
  refine concludes_ite (fun _ => concludes_failSearch hop input (by decide)) fun _ => ?_
  refine concludes_ite (fun _ => concludes_failSearch hop input (by decide)) fun hnonempty => ?_
  refine concludes_ite (fun _ => concludes_failSearch hop input (by decide)) fun _ => ?_
  refine concludes_ite (fun _ => concludes_failSearch hop input (by decide)) fun _ => ?_
  refine concludes_readIndexedSource hvalid (fun _ _ hcode => concludes_failSearch hop input hcode)
    fun source textIndex hlength hverified hindex => ?_
  have hlines := hindex.tiles.ne_nil (by omega)
  refine concludes_verifyCovering (d := hvalid.declared)
    (concludes_failSearch hop input (by decide))
    fun _ verifiedChunks hne => ?_
  exact concludes_finishSearch hvalid hverified hop hquery hlines (hne (Nat.zero_le _))

end Operations

end Inspector
