import SupabaseUserMcp.Inspector.Authenticity
import SupabaseUserMcp.Inspector.Search
import SupabaseUserMcp.TextIndex.Bounds
import SupabaseUserMcp.TextIndex.Selection

/- The reads of an honest source are complete. A range, a window of lines, a heading
   and a search return what was asked for, or the response limit is exceeded: no
   check of proofs, of shapes, of geometry or of sizes refuses a legitimate read. -/
namespace Inspector

open Js Inspection ChunkManifest TextIndex
open Search (Greedy)

/-! What the reads return. -/

/-- How many lines a read returns. -/
def returnedLineCount (input : ArtifactReadLinesInput) (index : ArtifactTextIndex) : ℕ :=
  min input.count (index.lineCount - (input.startLine - 1))

/-- The interval of the lines from one to another. -/
def linesRange (first last : ArtifactTextLine) : ByteRange :=
  ⟨first.byteStart, last.stop - first.byteStart⟩

/-- An output of a range of bytes, or the refusal of its size. -/
def limitedTo (platform : Platform) (range : ByteRange) (output : InspectionOutput) :
    InspectionOutput :=
  if range.length > maxRangeBytes then .error .responseLimitExceeded else limited platform output

namespace Hosting

variable {platform : Platform} (hosting : Hosting platform)

/-- A source that its text index covers is read whole, verified and indexed. -/
theorem settles_readIndexedSource {mediaType : Text} {index : ArtifactTextIndex}
    (hbuild : buildArtifactTextIndex platform (.bytes hosting.source) (.string mediaType) =
      .ok index) {call : Call} {failClosed : ArtifactInspectionErrorCode → Inspection Settled}
    {next : Bytes → ArtifactTextIndex → Inspection Settled} {fetched : List ByteRange}
    {output : InspectionOutput} (hnext : hosting.Settles (next hosting.source index) fetched output) :
    hosting.Settles (readIndexedSource platform call hosting.options hosting.manifest mediaType
      failClosed next) (⟨0, hosting.source.length⟩ :: fetched) output := by
  have hlength : hosting.options.record.byteLength = hosting.source.length :=
    hosting.byteLength_record
  have hwhole : subarray hosting.source 0 (0 + hosting.source.length) = hosting.source := by
    rw [subarray, Nat.zero_add, List.take_length, List.drop_zero]
  have hverified : verifyArtifactSourceManifest platform.sha256 (.bytes hosting.source)
      hosting.manifest = .ok true := by
    refine (verifyArtifactSourceManifest_eq_true platform.sha256).mpr
      ⟨hosting.bounded, hosting.record.chunkSize, hosting.valid.allowed, ?_⟩
    exact DeclaredManifest.manifest_ofSource platform.sha256 hosting.valid.allowed hosting.bounded
  rw [readIndexedSource, hlength]
  refine hosting.settles_readBytes (Nat.zero_add _).le ?_
  rw [hwhole, hverified]
  simp only [hbuild]
  exact hnext

/-! Lines. -/

section Lines

variable {hosting} {input : ArtifactReadLinesInput} {index : ArtifactTextIndex}
  {first last : ArtifactTextLine} {data : Text}

/-- What follows the selection of lines returns their text, when a read may return as much. -/
theorem settles_finishReadLines (hinput : requestedRangeSchema
      (.lineRange input.startLine input.count) = true)
    (hreadable : hosting.Readable (linesRange first last))
    (hdata : decodeUtf8 (hosting.bytes (linesRange first last)) = some data) {count : ℕ}
    (hcount : count ≤ maxLineCount) (call : Call) :
    hosting.Settles (finishReadLines platform call hosting.options input data count
      (linesRange first last) (hosting.startChunkIndex (linesRange first last))
      (hosting.endChunkIndex (linesRange first last))
      (hosting.verifiedChunks (linesRange first last))) []
      (limited platform (.readLines data count (hosting.integrity
        (.lineRange input.startLine input.count) (linesRange first last)))) := by
  have hcandidate : readIntegrity hosting.options.record (.lineRange input.startLine input.count)
      (hosting.startChunkIndex (linesRange first last))
      (hosting.endChunkIndex (linesRange first last)) (linesRange first last)
      (hosting.verifiedChunks (linesRange first last))
      (platform.sha256Hex (hosting.bytes (linesRange first last))) =
        hosting.integrity (.lineRange input.startLine input.count) (linesRange first last) :=
    hosting.readIntegrity_record _ _
  have hsafe : maxLineCount ≤ 9007199254740991 := by decide
  simp only [finishReadLines, encodeUtf8_of_decodeUtf8 hdata, hcandidate]
  rw [if_neg (Nat.not_lt.mpr (length_verifiedChunks hreadable))]
  refine hosting.settles_candidate (hosting.settles_failClosed _ _ _ _ _) (fun hlimit => ?_) ?_
  · refine outputSchema_of ?_ hlimit
    have hrequested : ∀ offset length, RequestedRange.lineRange input.startLine input.count =
        .byteRange offset length → linesRange first last = ⟨offset, length⟩ := nofun
    rw [artifactReadLinesSuccessSchema, partialReadIntegritySchema_integrity hreadable hrequested
      hinput, ok_bind, bindReturnedDataToIntegrity_integrity hreadable _ hdata, intBetween,
      intFrom_of (Nat.zero_le count) (by omega), decide_eq_true hcount]
    rfl
  · obtain ⟨hreturned, hsha⟩ := returnedRange_valid hreadable
      (hosting.bytes (linesRange first last))
    rw [requestedRangeSchema] at hinput
    simp only [receiptOperationDetailSchema, requestedLines, hinput, hreturned, hsha, Bool.and_true]

/-- The first and the last of the returned lines, with the text between them. -/
structure Window (hosting : Hosting platform) (input : ArtifactReadLinesInput)
    (index : ArtifactTextIndex) (first last : ArtifactTextLine) (data : Text) : Prop where
  first_eq : index.lines[input.startLine - 1]? = some first
  last_eq : index.lines[input.startLine - 1 + returnedLineCount input index - 1]? = some last
  decodes : decodeUtf8 (subarray hosting.source first.byteStart last.stop) = some data

theorem exists_window {mediaType : Value}
    (hbuild : buildArtifactTextIndex platform (.bytes hosting.source) mediaType = .ok index)
    (hstart : 0 < input.startLine) (hcount : 0 < input.count)
    (hinside : input.startLine ≤ index.lineCount) :
    ∃ first last data, hosting.Window input index first last data := by
  have hindex := indexOf_of_build hbuild
  have hlength := hindex.lineCount
  obtain ⟨first, hfirst⟩ := exists_line (show input.startLine - 1 < index.lines.length by omega)
  obtain ⟨last, hlast⟩ := exists_line
    (show input.startLine - 1 + returnedLineCount input index - 1 < index.lines.length by
      rw [returnedLineCount]
      omega)
  have hle : input.startLine - 1 ≤ input.startLine - 1 + returnedLineCount input index - 1 := by
    rw [returnedLineCount]
    omega
  obtain ⟨data, hdata⟩ := hindex.lines.decodes_run hle hfirst hlast
  exact ⟨first, last, data, hfirst, hlast, hdata⟩

theorem settles_readSelectedLines {mediaType : Value}
    (hbuild : buildArtifactTextIndex platform (.bytes hosting.source) mediaType = .ok index)
    (hinput : requestedRangeSchema (.lineRange input.startLine input.count) = true)
    (hstart : 0 < input.startLine) (hpositive : 0 < input.count) (hmax : input.count ≤ maxLineCount)
    (hinside : input.startLine ≤ index.lineCount)
    (hwindow : hosting.Window input index first last data) (call : Call) :
    hosting.Settles (readSelectedLines platform call hosting.options input hosting.manifest
      hosting.source index) []
      (limitedTo platform (linesRange first last) (.readLines data (returnedLineCount input index)
        (hosting.integrity (.lineRange input.startLine input.count) (linesRange first last)))) := by
  have hindex := indexOf_of_build hbuild
  have hcount : min input.count (index.lineCount - (input.startLine - 1)) =
      returnedLineCount input index := rfl
  have hreturned : 1 ≤ returnedLineCount input index ∧
      returnedLineCount input index ≤ maxLineCount := by
    rw [returnedLineCount]
    omega
  have hlast : index.lines[input.startLine + returnedLineCount input index - 1 - 1]? =
      some last := by
    rw [← hwindow.last_eq]
    congr 1
    omega
  have hle : input.startLine - 1 ≤ input.startLine - 1 + returnedLineCount input index - 1 := by
    omega
  have hlt := hindex.lines.tiles.start_lt_stop hle hwindow.first_eq hwindow.last_eq
  obtain ⟨-, -, hstop⟩ := hindex.lines.tiles.bounds hwindow.last_eq
  have hlength : (subarray hosting.source first.byteStart last.stop).length =
      last.stop - first.byteStart := by
    rw [length_subarray, Nat.min_eq_left hstop]
  simp only [readSelectedLines, hcount]
  rw [readIndexedLines_window hbuild hstart hreturned.1 hreturned.2 hwindow.first_eq hlast,
    untrustedRead_of hwindow.decodes, hlength, limitedTo]
  by_cases hwithin : (linesRange first last).length ≤ maxRangeBytes
  · have hread : last.stop - first.byteStart ≤ maxTextReadBytes := hwithin
    have hbytes : hosting.bytes (linesRange first last) =
        subarray hosting.source first.byteStart last.stop := by
      rw [bytes, linesRange, Nat.add_sub_cancel' hlt.le]
    have hreadable : hosting.Readable (linesRange first last) := by
      refine ⟨Nat.sub_pos_of_lt hlt, hwithin, ?_⟩
      show first.byteStart + (last.stop - first.byteStart) ≤ _
      omega
    have hdata : decodeUtf8 (hosting.bytes (linesRange first last)) = some data := by
      rw [hbytes]
      exact hwindow.decodes
    have hdataByteLength : last.byteStart + last.contentByteLength + last.newlineByteLength -
        first.byteStart = (linesRange first last).length := rfl
    have hrange : ⟨first.byteStart, (linesRange first last).length⟩ = linesRange first last := rfl
    have hsize : hosting.options.record.chunkSize = hosting.record.chunkSize := rfl
    have hstartChunk : first.byteStart / hosting.record.chunkSize =
        hosting.startChunkIndex (linesRange first last) := rfl
    have hendChunk : (first.byteStart + (linesRange first last).length - 1) /
        hosting.record.chunkSize = hosting.endChunkIndex (linesRange first last) := rfl
    rw [if_pos hread, if_neg (Nat.not_lt.mpr hwithin)]
    simp only [selectedLines, hwindow.first_eq, hwindow.last_eq, definedAt_some, ok_bind,
      hdataByteLength, hrange, hsize, hstartChunk, hendChunk]
    rw [if_neg (Nat.not_lt.mpr hwithin), verifySourceChunks_source hreadable]
    exact settles_finishReadLines hinput hreadable hdata hreturned.2 call
  · have hread : ¬last.stop - first.byteStart ≤ maxTextReadBytes := hwithin
    rw [if_neg hread, if_pos (Nat.lt_of_not_le hwithin)]
    exact hosting.settles_failClosed _ _ _ _ _

/-- A read of lines returns the requested ones, when its first is one of the index. -/
theorem settles_artifactReadLines {rawInput : Value}
    (hinput : artifactReadLinesInputSchema rawInput = some input)
    (hid : input.artifactId = hosting.artifactId)
    (hsupported : isSupportedLineMediaType hosting.record.mediaType = true)
    (hsize : hosting.source.length ≤ maxLineSourceScanBytes)
    (hbuild : buildArtifactTextIndex platform (.bytes hosting.source)
      (.string hosting.record.mediaType) = .ok index)
    (hinside : input.startLine ≤ index.lineCount)
    (hwindow : hosting.Window input index first last data) :
    hosting.Settles (artifactReadLines platform hosting.context rawInput)
      [⟨0, hosting.source.length⟩]
      (limitedTo platform (linesRange first last) (.readLines data (returnedLineCount input index)
        (hosting.integrity (.lineRange input.startLine input.count) (linesRange first last)))) := by
  obtain ⟨⟨hstart, hstartMax⟩, hpositive, hmax⟩ := artifactReadLinesInputSchema_eq_some hinput
  have hschema : requestedRangeSchema (.lineRange input.startLine input.count) = true := by
    have hsafe : maxStartLine ≤ 9007199254740991 ∧ maxLineCount ≤ 9007199254740991 := by decide
    simp only [requestedRangeSchema, intBetween,
      intFrom_of (show 1 ≤ input.startLine from hstart) (by omega),
      intFrom_of (show 1 ≤ input.count from hpositive) (by omega), decide_eq_true hstartMax,
      decide_eq_true hmax, Bool.and_self]
  have hlength : hosting.options.record.byteLength = hosting.source.length :=
    hosting.byteLength_record
  have hmediaType : hosting.options.record.mediaType = hosting.record.mediaType := rfl
  rw [artifactReadLines, hinput]
  refine hosting.settles_openInspection hid fun call => ?_
  simp only [artifactReadLinesBody, hlength, hmediaType, hsupported, Bool.not_true,
    Bool.false_eq_true, if_false]
  rw [if_neg (Nat.not_lt.mpr hsize)]
  refine hosting.settles_readIndexedSource hbuild ?_
  rw [if_neg (by omega)]
  exact settles_readSelectedLines hbuild hschema hstart hpositive hmax hinside hwindow call

end Lines

/-! Headings. -/

/-- The interval of a heading line. -/
def headingRange (heading : ArtifactTextHeading) : ByteRange :=
  ⟨heading.byteStart, heading.byteLength⟩

section Headings

variable {hosting} {input : ArtifactReadHeadingInput} {index : ArtifactTextIndex}
  {heading : ArtifactTextHeading} {data : Text}

theorem settles_finishReadHeading (hid : accepts headingIdSchema input.headingId = true)
    (hreadable : hosting.Readable (headingRange heading))
    (hdata : decodeUtf8 (hosting.bytes (headingRange heading)) = some data) (call : Call) :
    hosting.Settles (finishReadHeading platform call hosting.options input hosting.source data
      (headingRange heading) (hosting.startChunkIndex (headingRange heading))
      (hosting.endChunkIndex (headingRange heading))
      (hosting.verifiedChunks (headingRange heading))) []
      (limited platform (.readHeading input.headingId data (hosting.integrity
        (.heading input.headingId) (headingRange heading)))) := by
  have hbytes : subarray hosting.source (headingRange heading).offset
      ((headingRange heading).offset + (headingRange heading).length) =
        hosting.bytes (headingRange heading) := rfl
  have hcandidate : readIntegrity hosting.options.record (.heading input.headingId)
      (hosting.startChunkIndex (headingRange heading))
      (hosting.endChunkIndex (headingRange heading)) (headingRange heading)
      (hosting.verifiedChunks (headingRange heading))
      (platform.sha256Hex (hosting.bytes (headingRange heading))) =
        hosting.integrity (.heading input.headingId) (headingRange heading) :=
    hosting.readIntegrity_record _ _
  simp only [finishReadHeading, hbytes, hcandidate]
  rw [if_neg (Nat.not_lt.mpr (length_verifiedChunks hreadable))]
  refine hosting.settles_candidate (hosting.settles_failClosed _ _ _ _ _) (fun hlimit => ?_) ?_
  · refine outputSchema_of ?_ hlimit
    have hrequested : ∀ offset length, RequestedRange.heading input.headingId =
        .byteRange offset length → headingRange heading = ⟨offset, length⟩ := nofun
    rw [artifactReadHeadingSuccessSchema, partialReadIntegritySchema_integrity hreadable hrequested
      hid, ok_bind, bindReturnedDataToIntegrity_integrity hreadable _ hdata, hid]
    rfl
  · obtain ⟨hreturned, hsha⟩ := returnedRange_valid hreadable (hosting.bytes (headingRange heading))
    simp only [receiptOperationDetailSchema, hid, hreturned, hsha, Bool.and_true]

theorem settles_readSelectedHeading {mediaType : Value}
    (hbuild : buildArtifactTextIndex platform (.bytes hosting.source) mediaType = .ok index)
    (hid : accepts headingIdSchema input.headingId = true) (hmem : heading ∈ index.headings)
    (hheading : heading.headingId = input.headingId)
    (hdata : decodeUtf8 (hosting.bytes (headingRange heading)) = some data) (call : Call) :
    hosting.Settles (readSelectedHeading platform call hosting.options input hosting.manifest
      hosting.source index) []
      (limitedTo platform (headingRange heading) (.readHeading input.headingId data
        (hosting.integrity (.heading input.headingId) (headingRange heading)))) := by
  have hindexes := indexes_of_build hbuild
  have hpositive := (hindexes.headings heading hmem).1
  have hinside := hindexes.heading_inside hmem
  have hbytes : subarray hosting.source heading.byteStart
      (heading.byteStart + heading.byteLength) = hosting.bytes (headingRange heading) := rfl
  have hlength : (hosting.bytes (headingRange heading)).length = heading.byteLength := by
    rw [← hbytes, length_subarray]
    omega
  have hfound := find?_headingId (indexOf_of_build hbuild) hmem
  have hread := readIndexedHeading_own hbuild hmem
  rw [hheading] at hfound hread
  rw [hbytes, untrustedRead_of hdata, hlength] at hread
  simp only [readSelectedHeading, hread]
  rw [limitedTo]
  by_cases hwithin : (headingRange heading).length ≤ maxRangeBytes
  · have hreadable : hosting.Readable (headingRange heading) := ⟨hpositive, hwithin, hinside⟩
    have hrange : ⟨heading.byteStart, heading.byteLength⟩ = headingRange heading := rfl
    have hsize : hosting.options.record.chunkSize = hosting.record.chunkSize := rfl
    have hstartChunk : heading.byteStart / hosting.record.chunkSize =
        hosting.startChunkIndex (headingRange heading) := rfl
    have hendChunk : (heading.byteStart + heading.byteLength - 1) / hosting.record.chunkSize =
        hosting.endChunkIndex (headingRange heading) := rfl
    have hfits : heading.byteLength ≤ maxTextReadBytes ∧ heading.byteLength ≤ maxRangeBytes :=
      ⟨hwithin, hwithin⟩
    rw [if_pos hfits.1, if_neg (Nat.not_lt.mpr hwithin)]
    simp only [hfound, hrange, hsize, hstartChunk, hendChunk]
    rw [if_neg (Nat.not_lt.mpr hfits.2), verifySourceChunks_source hreadable]
    exact settles_finishReadHeading hid hreadable hdata call
  · have hfits : ¬heading.byteLength ≤ maxTextReadBytes := hwithin
    rw [if_neg hfits, if_pos (Nat.lt_of_not_le hwithin)]
    exact hosting.settles_failClosed _ _ _ _ _

theorem artifactReadHeadingInputSchema_eq_some {v : Value}
    (h : artifactReadHeadingInputSchema v = some input) :
    accepts headingIdSchema input.headingId = true := by
  cases v with
  | object properties =>
    simp only [artifactReadHeadingInputSchema, Schema.strictObject, Option.ite_none_right_eq_some]
      at h
    obtain ⟨artifactId, -, h⟩ := Option.bind_eq_some_iff.mp h.2
    obtain ⟨headingId, hid, h⟩ := Option.bind_eq_some_iff.mp h
    obtain rfl := Option.some.inj h
    exact accepts_of_refine lengthBetween_eq_string hid
  | _ => cases h

/-- A read of a heading of the index returns its line. -/
theorem settles_artifactReadHeading {rawInput : Value}
    (hinput : artifactReadHeadingInputSchema rawInput = some input)
    (hid : input.artifactId = hosting.artifactId)
    (hmarkdown : hosting.record.mediaType = markdownMediaType)
    (hsize : hosting.source.length ≤ maxLineSourceScanBytes)
    (hbuild : buildArtifactTextIndex platform (.bytes hosting.source)
      (.string hosting.record.mediaType) = .ok index)
    (hmem : heading ∈ index.headings) (hheading : heading.headingId = input.headingId)
    (hdata : decodeUtf8 (hosting.bytes (headingRange heading)) = some data) :
    hosting.Settles (artifactReadHeading platform hosting.context rawInput)
      [⟨0, hosting.source.length⟩]
      (limitedTo platform (headingRange heading) (.readHeading input.headingId data
        (hosting.integrity (.heading input.headingId) (headingRange heading)))) := by
  have hlength : hosting.options.record.byteLength = hosting.source.length :=
    hosting.byteLength_record
  have hmediaType : hosting.options.record.mediaType = markdownMediaType := hmarkdown
  rw [hmarkdown] at hbuild
  rw [artifactReadHeading, hinput]
  refine hosting.settles_openInspection hid fun call => ?_
  simp only [artifactReadHeadingBody, hlength, hmediaType, bne_self_eq_false, Bool.false_eq_true,
    if_false]
  rw [if_neg (Nat.not_lt.mpr hsize)]
  refine hosting.settles_readIndexedSource hbuild ?_
  exact settles_readSelectedHeading hbuild (artifactReadHeadingInputSchema_eq_some hinput) hmem
    hheading hdata call

end Headings

/-! Searches. -/

section Searches

variable {hosting} {index : ArtifactTextIndex}

/-- Every hit is one of the query. -/
theorem searchHits_snippets {source queryBytes : Bytes} {query : Text}
    {lines : List ArtifactTextLine} : ∀ {remaining searchOffset lineIndex : ℕ}
    {hits : List ArtifactSearchHit},
    searchHits platform source queryBytes query lines remaining searchOffset lineIndex = .ok hits →
    ∀ hit ∈ hits, hit.snippetRange = hit.matchRange ∧ hit.snippet = query ∧
      hit.snippetSha256 = platform.sha256Hex queryBytes := by
  intro remaining
  induction remaining with
  | zero =>
    intro searchOffset lineIndex hits hhits
    obtain rfl := Except.ok.inj hhits
    simp
  | succ remaining ih =>
    intro searchOffset lineIndex hits hhits
    rw [searchHits] at hhits
    split at hhits
    · split at hhits
      · obtain rfl := Except.ok.inj hhits
        simp
      · obtain ⟨line, -, hhits⟩ := bind_eq_ok.mp hhits
        obtain ⟨rest, hrest, hhits⟩ := bind_eq_ok.mp hhits
        obtain rfl := Except.ok.inj hhits
        exact List.forall_mem_cons.mpr ⟨⟨rfl, rfl, rfl⟩, ih hrest⟩
    · obtain rfl := Except.ok.inj hhits
      simp

/-- A query that a search accepts. -/
structure Accepted (input : EncodedSearchInput) : Prop where
  encoded : encodeUnicodeScalarValueString input.input.query = some input.queryBytes
  nonempty : 0 < input.queryBytes.length
  bounded : input.queryBytes.length ≤ maxSearchQueryLength
  snippet_le : input.input.query.length ≤ maxSearchSnippetLength
  hits_pos : 0 < input.input.maxHits
  hits_le : input.input.maxHits ≤ maxSearchHits

theorem artifactSearchExactInputSchema_eq_some {v : Value} {input : ArtifactSearchExactInput}
    (h : artifactSearchExactInputSchema v = some input) :
    (1 ≤ input.query.length ∧ input.query.length ≤ maxSearchQueryLength) ∧
      1 ≤ input.maxHits ∧ input.maxHits ≤ maxSearchHits := by
  cases v with
  | object properties =>
    simp only [artifactSearchExactInputSchema, Schema.strictObject, Option.ite_none_right_eq_some]
      at h
    obtain ⟨artifactId, -, h⟩ := Option.bind_eq_some_iff.mp h.2
    obtain ⟨query, hquery, h⟩ := Option.bind_eq_some_iff.mp h
    obtain ⟨maxHits, hmaxHits, h⟩ := Option.bind_eq_some_iff.mp h
    obtain rfl := Option.some.inj h
    have hlength := (Schema.refine_eq_some.mp hquery).2
    simp only [Bool.and_eq_true, decide_eq_true_eq] at hlength
    refine ⟨hlength, ?_⟩
    cases hvalue : (Value.property properties (text "maxHits")).getD .undefined with
    | undefined =>
      rw [hvalue] at hmaxHits
      obtain rfl := Option.some.inj hmaxHits
      exact ⟨show 1 ≤ maxSearchHits by decide, Nat.le_refl _⟩
    | _ =>
      rw [hvalue] at hmaxHits
      exact Schema.natBetween_eq_some hmaxHits
  | _ => cases h

theorem accepted_of_encodedSearchInput {v : Value} {input : EncodedSearchInput}
    (h : encodedSearchInput v = some input) : Accepted input := by
  have hdecodes := decodeUtf8_of_encodedSearchInput h
  obtain ⟨search, hsearch, h⟩ := Option.bind_eq_some_iff.mp h
  obtain ⟨queryBytes, hbytes, h⟩ := Option.bind_eq_some_iff.mp h
  obtain ⟨⟨⟩, hbounded, h⟩ := Option.bind_eq_some_iff.mp h
  obtain rfl := Option.some.inj h
  obtain ⟨⟨hquery, hqueryMax⟩, hhits, hhitsMax⟩ := artifactSearchExactInputSchema_eq_some hsearch
  refine ⟨hbytes, List.length_pos_iff.mpr ?_, by simpa using hbounded, hqueryMax, hhits, hhitsMax⟩
  rintro rfl
  have hempty : decodeUtf8 [] = some [] := decodeUtf8_encoded []
  have hquery' : [] = search.query := Option.some.inj (hempty.symm.trans hdecodes)
  rw [← hquery'] at hquery
  exact absurd hquery (by decide)

/-- What a search of the source finds: the first of its greedy occurrences, each with its line. -/
structure Hits (source : Bytes) (input : EncodedSearchInput) (lines : List ArtifactTextLine)
    (hits : List ArtifactSearchHit) : Prop where
  greedy : ∃ occurrences, Greedy input.queryBytes source 0 occurrences ∧
    hits.map ArtifactSearchHit.matchRange = (occurrences.take input.input.maxHits).map
      fun k => ⟨k, input.queryBytes.length⟩
  snippets : ∀ hit ∈ hits, hit.snippetRange = hit.matchRange ∧ hit.snippet = input.input.query
  lineNumbers : ∀ hit ∈ hits, IsLineOf lines hit.matchRange.offset hit.lineNumber

variable {input : EncodedSearchInput} {hits : List ArtifactSearchHit}

theorem exists_searchHits (platform : Platform) {source : Bytes} {s : Text}
    (hdecoded : decodeUtf8 source = some s) {lines : List ArtifactTextLine}
    (hlines : scanLines source = .ok lines) (haccepted : Accepted input) :
    ∃ hits, searchHits platform source input.queryBytes input.input.query lines
      input.input.maxHits 0 0 = .ok hits ∧ Hits source input lines hits := by
  have hne : input.queryBytes ≠ [] := List.length_pos_iff.mp haccepted.nonempty
  obtain ⟨hits, occurrences, hhits, hgreedy, hranges, hmatches⟩ := searchHits_greedy platform hdecoded
    hlines haccepted.encoded hne input.input.maxHits
  refine ⟨hits, hhits, ⟨occurrences, (hgreedy occurrences).mpr rfl, hranges⟩, ?_, ?_⟩
  · intro hit hmem
    obtain ⟨hrange, hsnippet, -⟩ := searchHits_snippets hhits hit hmem
    exact ⟨hrange, hsnippet⟩
  · exact fun hit hmem => (hmatches hit hmem).1

namespace Hits

variable {source : Bytes} {lines : List ArtifactTextLine} (h : Hits source input lines hits)

include h

theorem length_le (haccepted : Accepted input) : hits.length ≤ maxSearchHits := by
  obtain ⟨occurrences, -, hranges⟩ := h.greedy
  have hlength := congrArg List.length hranges
  rw [List.length_map, List.length_map, List.length_take] at hlength
  have := haccepted.hits_le
  omega

/-- A hit is at an occurrence of the query. -/
theorem range_of_mem (haccepted : Accepted input) {hit : ArtifactSearchHit} (hmem : hit ∈ hits) :
    hit.matchRange.length = input.queryBytes.length ∧
      hit.matchRange.offset + hit.matchRange.length ≤ source.length := by
  obtain ⟨occurrences, hgreedy, hranges⟩ := h.greedy
  have hrange : hit.matchRange ∈ hits.map ArtifactSearchHit.matchRange :=
    List.mem_map_of_mem hmem
  rw [hranges] at hrange
  obtain ⟨k, hk, hkEq⟩ := List.mem_map.mp hrange
  have hne : input.queryBytes ≠ [] := List.length_pos_iff.mp haccepted.nonempty
  have hinside := (hgreedy.occurs k (List.mem_of_mem_take hk)).inside hne
  rw [← hkEq]
  exact ⟨rfl, hinside⟩

/-- The snippets follow each other. -/
theorem pairwise_snippets : (hits.map ArtifactSearchHit.snippetRange).Pairwise
    fun previous current => previous.offset + input.queryBytes.length ≤ current.offset := by
  obtain ⟨occurrences, hgreedy, hranges⟩ := h.greedy
  have hsnippets : hits.map ArtifactSearchHit.snippetRange =
      hits.map ArtifactSearchHit.matchRange :=
    List.map_congr_left fun hit hmem => (h.snippets hit hmem).1
  rw [hsnippets, hranges, List.pairwise_map]
  exact hgreedy.pairwise.sublist (List.take_sublist _ _)

end Hits

/-- The interval of the whole source. -/
def whole (hosting : Hosting platform) : ByteRange := ⟨0, hosting.source.length⟩

theorem bytes_whole : hosting.bytes hosting.whole = hosting.source := by
  rw [bytes, whole, Nat.zero_add, subarray, List.take_length, List.drop_zero]

theorem endChunkIndex_whole :
    hosting.manifest.chunkCount.toNat - 1 = hosting.endChunkIndex hosting.whole := by
  have hpos := pos_of_allowed hosting.valid.allowed
  have hlength := hosting.length_pos
  have hcount : hosting.manifest.chunkCount.toNat =
      chunkCountOf hosting.source.length hosting.record.chunkSize := Number.toNat_ofNat _
  have hsum : hosting.source.length + hosting.record.chunkSize - 1 =
      hosting.source.length - 1 + hosting.record.chunkSize := by
    omega
  rw [hcount, endChunkIndex, whole, Nat.zero_add, chunkCountOf, hsum, Nat.add_div_right _ hpos,
    Nat.succ_sub_one]

section Checks

variable (hfound : Hits hosting.source input index.lines hits) (haccepted : Accepted input)

include hfound haccepted

theorem artifactSearchHitSchema_of_mem (hindex : IndexOf platform hosting.source index)
    {hit : ArtifactSearchHit} (hmem : hit ∈ hits)
    (hsha : hit.snippetSha256 = platform.sha256Hex input.queryBytes) :
    artifactSearchHitSchema platform hit = true := by
  obtain ⟨hlength, hinside⟩ := hfound.range_of_mem haccepted hmem
  obtain ⟨hsnippetRange, hsnippet⟩ := hfound.snippets hit hmem
  obtain ⟨⟨line, hline, -, hnumber⟩, -⟩ := hfound.lineNumbers hit hmem
  obtain ⟨i, hi⟩ := List.mem_iff_getElem?.mp hline
  obtain ⟨hcounted, hlines, -⟩ := hindex.lines.scanned.nth hi
  have hconstants : maxCalibrationSourceBytes ≤ 9007199254740991 ∧ maxTextIndexLines ≤ maxStartLine ∧
      maxStartLine ≤ 9007199254740991 ∧ maxSearchQueryLength ≤ maxRangeBytes := by decide
  have hbounded := hosting.bounded
  have hpositive := haccepted.nonempty
  have hquery := haccepted.bounded
  have hbytes : encodeUtf8 input.input.query = input.queryBytes :=
    encodeUtf8_of_decodeUtf8 (decodeUtf8_of_encodeUnicodeScalarValueString haccepted.encoded)
  have hdigest := accepts_sha256Hex
    (hex64Pattern_toHex (platform.sha256.length_digest input.queryBytes))
  have hoffsetFrom : intFrom 0 hit.matchRange.offset = true := intFrom_of (Nat.zero_le _) (by omega)
  have hlengthFrom : intFrom 1 input.queryBytes.length = true := intFrom_of hpositive (by omega)
  have hlengthFrom' : intFrom 0 input.queryBytes.length = true :=
    intFrom_of (Nat.zero_le _) (by omega)
  have hnumberFrom : intFrom 1 hit.lineNumber = true := intFrom_of (by omega) (by omega)
  simp only [artifactSearchHitSchema, searchMatchRangeSchema, returnedRangeSchema, intBetween,
    hsnippetRange, hsnippet, hsha, hlength, hoffsetFrom, hlengthFrom, hlengthFrom', hnumberFrom,
    utf8Length, hbytes, Platform.sha256Hex, hdigest, beq_self_eq_true, Nat.le_refl, decide_true,
    decide_eq_true hquery, decide_eq_true (hquery.trans hconstants.2.2.2),
    decide_eq_true (show hit.lineNumber ≤ maxStartLine by omega),
    decide_eq_true haccepted.snippet_le, decide_eq_true (show 1 ≤ input.queryBytes.length from hpositive),
    Bool.and_self]

theorem nodup_snippets : (hits.map ArtifactSearchHit.snippetRange).Nodup := by
  refine hfound.pairwise_snippets.imp fun {previous current} hle heq => ?_
  have hpositive := haccepted.nonempty
  rw [heq] at hle
  omega

theorem searchHitsRefine_hits {requestedRange : RequestedRange}
    (hreadable : hosting.Readable hosting.whole) :
    searchHitsRefine hits (hosting.integrity requestedRange hosting.whole) = .ok true := by
  have hlengths : ∀ hit ∈ hits, hit.snippetRange.length = input.queryBytes.length := by
    intro hit hmem
    rw [(hfound.snippets hit hmem).1]
    exact (hfound.range_of_mem haccepted hmem).1
  have hchain : hits.IsChain fun previous current =>
      previous.snippetRange.offset + previous.snippetRange.length ≤ current.snippetRange.offset := by
    refine (List.pairwise_map.mp hfound.pairwise_snippets).isChain.imp_of_mem_imp ?_
    intro previous current hprevious _ hle
    rw [hlengths previous hprevious]
    exact hle
  have hstart : hosting.startChunkIndex hosting.whole = 0 := Nat.zero_div _
  have hchunks : (hosting.integrity requestedRange hosting.whole).verifiedChunks =
      (List.range' 0 (hosting.endChunkIndex hosting.whole + 1)).map
        (verifiedChunk platform hosting.declared) := by
    rw [integrity, coveredIntegrity, hstart, Nat.sub_zero]
  have hfirst : (hosting.integrity requestedRange hosting.whole).verifiedChunks.head? =
      some (verifiedChunk platform hosting.declared 0) := by
    rw [hchunks, List.range'_succ]
    rfl
  have hlast : (hosting.integrity requestedRange hosting.whole).verifiedChunks.getLast? =
      some (verifiedChunk platform hosting.declared (hosting.endChunkIndex hosting.whole)) := by
    rw [hchunks, List.range'_concat, List.map_append, Nat.one_mul, Nat.zero_add]
    exact List.getLast?_concat
  -- the last chunk ends with the source
  have hcovered : hosting.source.length ≤
      (verifiedChunk platform hosting.declared (hosting.endChunkIndex hosting.whole)).byteStart +
        (verifiedChunk platform hosting.declared (hosting.endChunkIndex hosting.whole)).byteLength := by
    have hreaches := le_lastChunk hreadable
    rw [whole, Nat.zero_add] at hreaches
    exact hreaches
  have hall : (hits.all fun hit =>
      (verifiedChunk platform hosting.declared 0).byteStart ≤ hit.snippetRange.offset &&
        hit.snippetRange.offset + hit.snippetRange.length ≤
          (verifiedChunk platform hosting.declared (hosting.endChunkIndex hosting.whole)).byteStart +
            (verifiedChunk platform hosting.declared
              (hosting.endChunkIndex hosting.whole)).byteLength) = true := by
    rw [List.all_eq_true]
    intro hit hmem
    have hinside := (hfound.range_of_mem haccepted hmem).2
    have hzero : (verifiedChunk platform hosting.declared 0).byteStart = 0 := Nat.zero_mul _
    rw [(hfound.snippets hit hmem).1, Bool.and_eq_true, decide_eq_true_eq, decide_eq_true_eq, hzero]
    exact ⟨Nat.zero_le _, hinside.trans hcovered⟩
  simp only [searchHitsRefine, hchain, nodup_snippets hfound haccepted, hfirst, hlast, definedAt_some,
    ok_bind, pure_eq_ok, decide_true, Bool.not_true, Bool.false_eq_true, if_false, hall]

theorem searchDetail_valid (hsha : ∀ hit ∈ hits, hit.snippetSha256 =
      platform.sha256Hex input.queryBytes) :
    receiptOperationDetailSchema (searchDetail input hits) = true := by
  have hconstants : maxSearchQueryLength ≤ 9007199254740991 ∧ maxSearchHits ≤ 9007199254740991 := by
    decide
  have hquery := haccepted.bounded
  have hpositive := haccepted.nonempty
  have hhits := haccepted.hits_le
  have hrange : ∀ hit ∈ hits, hosting.Readable hit.snippetRange := by
    intro hit hmem
    obtain ⟨hlength, hinside⟩ := hfound.range_of_mem haccepted hmem
    rw [(hfound.snippets hit hmem).1]
    refine ⟨hlength ▸ hpositive, ?_, hinside⟩
    have : maxSearchQueryLength ≤ maxRangeBytes := by decide
    omega
  have hdetails : ((hits.map fun hit => (⟨hit.snippetRange, hit.snippetSha256⟩ :
      ReceiptSearchHitDetail)).all receiptSearchHitDetailSchema) = true := by
    rw [List.all_map, List.all_eq_true]
    intro hit hmem
    obtain ⟨hreturned, hdigest⟩ := returnedRange_valid (hrange hit hmem) input.queryBytes
    simp only [Function.comp_apply, receiptSearchHitDetailSchema, hreturned, hsha hit hmem, hdigest,
      Bool.and_self]
  have hpositives : ((hits.map fun hit => (⟨hit.snippetRange, hit.snippetSha256⟩ :
      ReceiptSearchHitDetail)).all fun hit => 1 ≤ hit.returnedRange.length) = true := by
    rw [List.all_map, List.all_eq_true]
    exact fun hit hmem => decide_eq_true (hrange hit hmem).positive
  have hnodup : ((hits.map fun hit => (⟨hit.snippetRange, hit.snippetSha256⟩ :
      ReceiptSearchHitDetail)).map ReceiptSearchHitDetail.returnedRange).Nodup := by
    rw [List.map_map]
    exact nodup_snippets hfound haccepted
  simp only [receiptOperationDetailSchema, searchDetail, intBetween,
    intFrom_of (show 1 ≤ input.queryBytes.length from hpositive) (by omega),
    intFrom_of (show 1 ≤ input.input.maxHits from haccepted.hits_pos) (by omega),
    decide_eq_true hquery, decide_eq_true hhits, hdetails, hpositives, hnodup, decide_true,
    List.length_map, decide_eq_true (hfound.length_le haccepted), Bool.and_self]

end Checks

/-- A search of the source returns its hits. -/
theorem settles_artifactSearchExact {rawInput : Value}
    (hinput : encodedSearchInput rawInput = some input)
    (hid : input.input.artifactId = hosting.artifactId)
    (hsupported : isSupportedLineMediaType hosting.record.mediaType = true)
    (hsize : hosting.source.length ≤ maxExactSearchSourceBytes)
    (hbuild : buildArtifactTextIndex platform (.bytes hosting.source)
      (.string hosting.record.mediaType) = .ok index)
    (hhits : searchHits platform hosting.source input.queryBytes input.input.query index.lines
      input.input.maxHits 0 0 = .ok hits) (hfound : Hits hosting.source input index.lines hits) :
    hosting.Settles (artifactSearchExact platform hosting.context rawInput) [hosting.whole]
      (limited platform (.searchExact hits (hosting.integrity
        (.searchExact input.queryBytes.length) hosting.whole))) := by
  have haccepted := accepted_of_encodedSearchInput hinput
  have hsha : ∀ hit ∈ hits, hit.snippetSha256 = platform.sha256Hex input.queryBytes :=
    fun hit hmem => (searchHits_snippets hhits hit hmem).2.2
  have hreadable : hosting.Readable hosting.whole :=
    ⟨hosting.length_pos, hsize, (Nat.zero_add _).le⟩
  have hlength : hosting.options.record.byteLength = hosting.source.length :=
    hosting.byteLength_record
  have hmediaType : hosting.options.record.mediaType = hosting.record.mediaType := rfl
  have hstart : hosting.startChunkIndex hosting.whole = 0 := Nat.zero_div _
  have hchunkCount : hosting.manifest.chunkCount.toNat =
      chunkCountOf hosting.source.length hosting.record.chunkSize := Number.toNat_ofNat _
  have hcounted : hosting.options.record.chunkCount =
      chunkCountOf hosting.source.length hosting.record.chunkSize := by
    rw [← hosting.byteLength_record]
    exact hosting.valid.counted
  have hverifiedCount : (hosting.verifiedChunks hosting.whole).length =
      hosting.manifest.chunkCount.toNat := by
    have hlast := hosting.endChunkIndex_whole
    have hend := endChunkIndex_lt hreadable
    rw [verifiedChunks, List.length_map, List.length_range', hstart]
    omega
  have hfew := length_verifiedChunks hreadable
  have hschema : requestedRangeSchema (.searchExact input.queryBytes.length) = true := by
    have hsafe : maxSearchQueryLength ≤ 9007199254740991 := by decide
    have hquery := haccepted.bounded
    simp only [requestedRangeSchema, intBetween, decide_eq_true hquery,
      intFrom_of (show 1 ≤ input.queryBytes.length from haccepted.nonempty) (by omega),
      Bool.and_self]
  have hwhole : ⟨0, hosting.source.length⟩ = hosting.whole := rfl
  have hcandidate : readIntegrity hosting.options.record (.searchExact input.queryBytes.length) 0
      (hosting.endChunkIndex hosting.whole) hosting.whole (hosting.verifiedChunks hosting.whole)
      (platform.sha256Hex hosting.source) =
        hosting.integrity (.searchExact input.queryBytes.length) hosting.whole := by
    have hread := hosting.readIntegrity_record (.searchExact input.queryBytes.length) hosting.whole
    rwa [hstart, bytes_whole] at hread
  rw [artifactSearchExact, hinput]
  refine hosting.settles_openInspection hid fun call => ?_
  simp only [artifactSearchExactBody, hlength, hmediaType, hsupported, Bool.not_true,
    Bool.false_eq_true, if_false]
  rw [if_neg hosting.length_pos.ne', if_neg (Nat.not_lt.mpr hsize), if_neg (by omega)]
  refine hosting.settles_readIndexedSource hbuild ?_
  have hverified := verifySourceChunks_source hreadable
  rw [hstart, ← endChunkIndex_whole] at hverified
  rw [hverified]
  simp only [finishSearch, hlength, hhits, hwhole, endChunkIndex_whole, hcandidate]
  rw [if_neg (by simp [hverifiedCount])]
  refine hosting.settles_candidate (hosting.settles_failClosed _ _ _ _ _) (fun hlimit => ?_) ?_
  · refine outputSchema_of ?_ hlimit
    have hrequested : ∀ offset length, RequestedRange.searchExact input.queryBytes.length =
        .byteRange offset length → hosting.whole = ⟨offset, length⟩ := by
      intro offset length h
      cases h
    have hchecked : (hits.all (artifactSearchHitSchema platform)) = true :=
      List.all_eq_true.mpr fun hit hmem => artifactSearchHitSchema_of_mem hfound haccepted
        (indexOf_of_build hbuild) hmem (hsha hit hmem)
    rw [artifactSearchExactSuccessSchema, partialReadIntegritySchema_integrity hreadable hrequested
      hschema, ok_bind, searchHitsRefine_hits hfound haccepted hreadable, ok_bind, hchecked,
      decide_eq_true (hfound.length_le haccepted)]
    rfl
  · exact searchDetail_valid hfound haccepted hsha

end Searches

/-! The results. -/

/-- A fetch of whole chunks of the source, the last of which may be short. -/
structure ChunkAligned (range : ByteRange) : Prop where
  starts : hosting.record.chunkSize ∣ range.offset
  stops : hosting.record.chunkSize ∣ range.offset + range.length ∨
    range.offset + range.length = hosting.source.length
  inside : range.offset + range.length ≤ hosting.source.length
  small : range.length ≤ maxCoveringFetchBytes

theorem chunkAligned_covering {range : ByteRange} (hreadable : hosting.Readable range) :
    hosting.ChunkAligned (hosting.covering range) := by
  obtain ⟨-, -, hsum, hle, hfetch⟩ := covering_readable hreadable
  refine ⟨Nat.dvd_mul_left _ _, ?_, hsum.trans_le hle, hfetch⟩
  rw [hsum, coveringEnd]
  rcases Nat.le_total ((hosting.endChunkIndex range + 1) * hosting.record.chunkSize)
    hosting.source.length with h | h
  · rw [Nat.min_eq_left h]
    exact .inl (Nat.dvd_mul_left _ _)
  · exact .inr (Nat.min_eq_right h)

/-- Range reads whose bytes decode return their text. -/
def RangesComplete : Prop := ∀ rawInput input data,
  artifactReadRangeInputSchema rawInput = some input → input.artifactId = hosting.artifactId →
  input.offset + input.length ≤ hosting.source.length →
  decodeUtf8 (subarray hosting.source input.offset (input.offset + input.length)) = some data →
  hosting.ChunkAligned (hosting.covering (requestedRange input)) ∧
    hosting.Settles (artifactReadRange platform hosting.context rawInput)
      [hosting.covering (requestedRange input)]
      (limited platform (.readRange data (hosting.integrity (.byteRange input.offset input.length)
        (requestedRange input))))

/-- Reads of lines from a line of the index on return them. -/
def LinesComplete (index : ArtifactTextIndex) : Prop := ∀ rawInput input,
  artifactReadLinesInputSchema rawInput = some input → input.artifactId = hosting.artifactId →
  input.startLine ≤ index.lineCount →
  ∃ first last data, hosting.Window input index first last data ∧
    hosting.Settles (artifactReadLines platform hosting.context rawInput)
      [⟨0, hosting.source.length⟩]
      (limitedTo platform (linesRange first last) (.readLines data (returnedLineCount input index)
        (hosting.integrity (.lineRange input.startLine input.count) (linesRange first last))))

/-- Reads of a heading of the index return its line. -/
def HeadingsComplete (index : ArtifactTextIndex) : Prop := ∀ rawInput input heading,
  artifactReadHeadingInputSchema rawInput = some input → input.artifactId = hosting.artifactId →
  heading ∈ index.headings → heading.headingId = input.headingId →
  ∃ line ∈ index.lines, ∃ data, headingRange heading = ⟨line.byteStart, line.contentByteLength⟩ ∧
    decodeUtf8 (line.content hosting.source) = some data ∧
    hosting.Settles (artifactReadHeading platform hosting.context rawInput)
      [⟨0, hosting.source.length⟩]
      (limitedTo platform (headingRange heading) (.readHeading input.headingId data
        (hosting.integrity (.heading input.headingId) (headingRange heading))))

/-- Searches return the first hits. -/
def SearchesComplete (index : ArtifactTextIndex) : Prop := ∀ rawInput input,
  encodedSearchInput rawInput = some input → input.input.artifactId = hosting.artifactId →
  ∃ hits, Hits hosting.source input index.lines hits ∧
    hosting.Settles (artifactSearchExact platform hosting.context rawInput)
      [⟨0, hosting.source.length⟩]
      (limited platform (.searchExact hits (hosting.integrity
        (.searchExact input.queryBytes.length) ⟨0, hosting.source.length⟩)))

/-- The source is within the bounds that the profile has for its media type. -/
def WithinIndexLimits : Prop := ∀ kind : ArtifactTextMediaType,
  hosting.record.mediaType = kind.name → WithinBounds hosting.source kind

theorem exists_index {decoded : Text} (hdecoded : decodeUtf8 hosting.source = some decoded)
    (hsupported : isSupportedLineMediaType hosting.record.mediaType = true)
    (hlimits : hosting.WithinIndexLimits) :
    ∃ index, buildArtifactTextIndex platform (.bytes hosting.source)
      (.string hosting.record.mediaType) = .ok index := by
  obtain ⟨kind, hkind⟩ : ∃ kind : ArtifactTextMediaType, hosting.record.mediaType = kind.name := by
    simp only [isSupportedLineMediaType, Bool.or_eq_true, beq_iff_eq] at hsupported
    rcases hsupported with h | h
    · exact ⟨.plain, h⟩
    · exact ⟨.markdown, h⟩
  rw [hkind]
  exact (exists_build_iff hdecoded kind).mpr (hlimits kind hkind)

/-- **Legitimate reads succeed.** With honest dependencies every range read that decodes, and
every read of lines or of a heading and every search of a source that has a text index, returns
exactly what was asked for, unless that is too large for a response. -/
theorem reads_complete (hosting : Hosting platform) :
    (∀ range, hosting.Readable range →
      (hosting.verifiedChunks range).length ≤ maxVerifiedChunksPerRead) ∧
    hosting.RangesComplete ∧ ∀ decoded, decodeUtf8 hosting.source = some decoded →
      isSupportedLineMediaType hosting.record.mediaType = true → hosting.WithinIndexLimits →
      hosting.source.length ≤ maxLineSourceScanBytes →
      ∃ index, buildArtifactTextIndex platform (.bytes hosting.source)
          (.string hosting.record.mediaType) = .ok index ∧
        PartitionedBy hosting.source index.lines ∧ hosting.LinesComplete index ∧
        (hosting.record.mediaType = markdownMediaType → hosting.HeadingsComplete index) ∧
        (hosting.source.length ≤ maxExactSearchSourceBytes → hosting.SearchesComplete index) := by
  refine ⟨fun _ => length_verifiedChunks, ?_, fun decoded hdecoded hsupported hlimits hsize => ?_⟩
  · intro rawInput input data hinput hid hinside hdata
    obtain ⟨hpositive, hwithin⟩ := artifactReadRangeInputSchema_eq_some hinput
    exact ⟨hosting.chunkAligned_covering ⟨hpositive, hwithin, hinside⟩,
      hosting.settles_artifactReadRange hinput hid hinside hdata⟩
  · obtain ⟨index, hbuild⟩ := hosting.exists_index hdecoded hsupported hlimits
    have hindex := indexOf_of_build hbuild
    refine ⟨index, hbuild, partitionedBy_of_linesOf hindex.lines, ?_, ?_, ?_⟩
    · intro rawInput input hinput hid hinside
      obtain ⟨⟨hstart, -⟩, hpositive, -⟩ := artifactReadLinesInputSchema_eq_some hinput
      obtain ⟨first, last, data, hwindow⟩ := exists_window hbuild hstart hpositive hinside
      exact ⟨first, last, data, hwindow,
        settles_artifactReadLines hinput hid hsupported hsize hbuild hinside hwindow⟩
    · intro hmarkdown rawInput input heading hinput hid hmem hheading
      obtain ⟨line, hline, -, hstart, hlength⟩ := (hindex.scans hmem).ownLine heading hmem
      obtain ⟨data, hdata⟩ := hindex.lines.decodes_content hline
      have hrange : headingRange heading = ⟨line.byteStart, line.contentByteLength⟩ := by
        rw [headingRange, hstart, hlength]
      have hbytes : decodeUtf8 (hosting.bytes (headingRange heading)) = some data := by
        rw [hrange]
        exact hdata
      exact ⟨line, hline, data, hrange, hdata,
        settles_artifactReadHeading hinput hid hmarkdown hsize hbuild hmem hheading hbytes⟩
    · intro hsearchSize rawInput input hinput hid
      obtain ⟨hits, hhits, hfound⟩ := exists_searchHits platform hdecoded
        (scanLines_of_build hbuild) (accepted_of_encodedSearchInput hinput)
      exact ⟨hits, hfound, settles_artifactSearchExact hinput hid hsupported hsearchSize hbuild hhits
        hfound⟩

end Hosting

/-- The note with two headings, as Markdown. -/
def note : HostedSource := ⟨fencedNote, 1024, mem_allowedChunkSizes_1024, by decide +kernel⟩

def noteValue : Value := .object ((note.recordProperties asciiPlatform).set 10
  (property "mediaType" (.string markdownMediaType)))

def noteRecord : AuthorizedArtifactRecord :=
  (validateAuthorizedArtifactRecord noteValue HostedSource.artifactId).get (by decide +kernel)

theorem describes_noteRecord : Describes asciiPlatform fencedNote noteRecord :=
  ⟨note.manifest asciiPlatform, by decide +kernel, by decide +kernel, by decide +kernel,
    by decide +kernel, by decide +kernel, by decide +kernel, by decide +kernel⟩

def noteHosting : Hosting asciiPlatform where
  source := fencedNote
  nonempty := List.length_pos_iff.mp (by decide +kernel)
  artifactId := HostedSource.artifactId
  rawRecord := noteValue
  record := noteRecord
  validated := (Option.some_get _).symm
  describes := describes_noteRecord
  context := trustedContextValue
  runtimeContext := trustedContext
  trusted := validateRuntimeContext_trusted
  time := 0
  fourDigitYear := fourDigitYear_zero
  unexpired := by decide +kernel

def linesInput (startLine count : ℕ) : Value :=
  .object [property "artifactId" (.string HostedSource.artifactId),
    property "startLine" (Inspection.natValue startLine),
    property "count" (Inspection.natValue count)]

def headingInput (headingId : Text) : Value :=
  .object [property "artifactId" (.string HostedSource.artifactId),
    property "headingId" (.string headingId)]

def searchInput (query : Text) : Value :=
  .object [property "artifactId" (.string HostedSource.artifactId), property "query" (.string query)]

theorem reads_complete_note :
    (∃ integrity, noteHosting.Settles
      (artifactReadRange asciiPlatform trustedContextValue (HostedSource.rangeInput 0 3)) [⟨0, 22⟩]
      (limited asciiPlatform (.readRange (text "# a") integrity))) ∧
    (∃ integrity, noteHosting.Settles
      (artifactReadLines asciiPlatform trustedContextValue (linesInput 5 9)) [⟨0, 22⟩]
      (limited asciiPlatform (.readLines (text "# A #") 1 integrity))) ∧
    (∃ integrity, noteHosting.Settles
      (artifactReadHeading asciiPlatform trustedContextValue (headingInput (text "a-2"))) [⟨0, 22⟩]
      (limited asciiPlatform (.readHeading (text "a-2") (text "# A #") integrity))) ∧
    ∃ hits integrity, noteHosting.Settles
      (artifactSearchExact asciiPlatform trustedContextValue (searchInput (text "~~"))) [⟨0, 22⟩]
      (limited asciiPlatform (.searchExact hits integrity)) := by
  have hmarkdown : noteHosting.record.mediaType = markdownMediaType := by decide +kernel
  have hbuilds : buildArtifactTextIndex asciiPlatform (.bytes noteHosting.source)
      (.string noteHosting.record.mediaType) = .ok fencedNoteIndex := by
    rw [hmarkdown]
    exact build_fencedNote
  have hdecoded : decodeUtf8 noteHosting.source = some (text "# a\r\n~~~\n# b\n~~~\n# A #") := by
    decide +kernel
  have hlimits : noteHosting.WithinIndexLimits := fun kind hkind =>
    (exists_build_iff hdecoded kind).mp ⟨_, hkind ▸ hbuilds⟩
  have hsupported : isSupportedLineMediaType noteHosting.record.mediaType = true := by
    rw [hmarkdown]
    decide
  have hlength : noteHosting.source.length = 22 := by decide +kernel
  have hheading : decodeUtf8 (subarray fencedNote 17 22) = some (text "# A #") := by decide +kernel
  obtain ⟨-, hranges, hreads⟩ := Hosting.reads_complete noteHosting
  obtain ⟨index, hbuild, -, hlines, hheadings, hsearches⟩ := hreads _ hdecoded hsupported hlimits
    (by rw [hlength]; decide)
  rw [hbuilds] at hbuild
  obtain rfl := Except.ok.inj hbuild
  refine ⟨?_, ?_, ?_, ?_⟩
  · obtain ⟨-, hsettles⟩ := hranges (HostedSource.rangeInput 0 3) ⟨_, 0, 3⟩ (text "# a")
      (by decide +kernel) rfl (by rw [hlength]; decide) (by decide +kernel)
    have hcovering : noteHosting.covering ⟨0, 3⟩ = ⟨0, 22⟩ := by decide +kernel
    rw [requestedRange, hcovering] at hsettles
    exact ⟨_, hsettles⟩
  · obtain ⟨first, last, data, hwindow, hsettles⟩ := hlines (linesInput 5 9)
      ⟨HostedSource.artifactId, 5, 9⟩
      (by decide +kernel) rfl (by decide)
    obtain rfl : first = ⟨5, 17, 5, 0, .none⟩ := (Option.some.inj hwindow.first_eq).symm
    obtain rfl : last = ⟨5, 17, 5, 0, .none⟩ := (Option.some.inj hwindow.last_eq).symm
    obtain rfl : data = text "# A #" := Option.some.inj (hwindow.decodes.symm.trans hheading)
    have hcount : returnedLineCount ⟨HostedSource.artifactId, 5, 9⟩ fencedNoteIndex = 1 := by decide
    rw [hlength, hcount, limitedTo, if_neg (by decide)] at hsettles
    exact ⟨_, hsettles⟩
  · obtain ⟨line, hline, data, hrange, hdata, hsettles⟩ := hheadings hmarkdown
      (headingInput (text "a-2")) ⟨_, text "a-2"⟩ ⟨text "a-2", 1, text "A", text "a", 5, 17, 5⟩
      (by decide +kernel) rfl (List.mem_of_getElem? (i := 1) rfl) rfl
    obtain ⟨hstart, hcontent⟩ : 17 = line.byteStart ∧ 5 = line.contentByteLength :=
      ByteRange.mk.inj hrange
    rw [ArtifactTextLine.content, ← hstart, ← hcontent] at hdata
    obtain rfl : data = text "# A #" := Option.some.inj (hdata.symm.trans hheading)
    rw [hlength, limitedTo, if_neg (by decide)] at hsettles
    exact ⟨_, hsettles⟩
  · obtain ⟨hits, -, hsettles⟩ := hsearches (by rw [hlength]; decide) (searchInput (text "~~"))
      ⟨⟨_, text "~~", 50⟩, encodeUtf8 (text "~~")⟩ (by decide +kernel) rfl
    rw [hlength] at hsettles
    exact ⟨hits, _, hsettles⟩

end Inspector
