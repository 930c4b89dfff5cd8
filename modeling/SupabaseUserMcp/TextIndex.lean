import SupabaseUserMcp.Js.Json
import SupabaseUserMcp.Js.Platform

/- `artifact-text-index.ts`: an index over UTF-8 bytes, one record for every
   line and one for every ATX heading outside a fence, and the reads through
   it. A read takes its index as a value of unknown type and accepts it only
   when it is the index the bytes have. The loops over bytes and lines are
   recursions on what is left of them. -/
namespace TextIndex

open Js

def artifactTextIndexProfileVersion : Text := text "artifact-text-index/0.1"
def maxTextIndexBytes : ℕ := 262144
def maxTextIndexLines : ℕ := 10000
def maxTextIndexHeadings : ℕ := 1000
def maxHeadingLevel : ℕ := 6
def maxHeadingTextChars : ℕ := 512
def maxLineReadCount : ℕ := 200
def maxTextReadBytes : ℕ := 8192

/-! Errors. -/

inductive ArtifactTextIndexErrorCode where
  | invalidInputType
  | sourceTooLarge
  | tooManyLines
  | tooManyHeadings
  | unsupportedMediaType
  | invalidUtf8
  | invalidLineRange
  | invalidHeadingId
  | responseLimitExceeded
  | sourceMismatch
  | inconsistentIndex
  deriving DecidableEq, Repr

structure ArtifactTextIndexError where
  code : ArtifactTextIndexErrorCode
  message : String
  deriving DecidableEq, Repr

abbrev Checked (α : Type) := Except ArtifactTextIndexError α

def fail {α : Type} (code : ArtifactTextIndexErrorCode) (message : String) : Checked α :=
  .error ⟨code, message⟩

/-- `if (bad) fail(code, message)`. -/
def failIf (bad : Bool) (code : ArtifactTextIndexErrorCode) (message : String) : Checked Unit :=
  throwIf bad ⟨code, message⟩

@[simp] theorem failIf_eq_ok {bad : Bool} {code : ArtifactTextIndexErrorCode} {message : String}
    {u : Unit} : failIf bad code message = .ok u ↔ bad = false := throwIf_eq_ok

@[simp] theorem failIf_false (code : ArtifactTextIndexErrorCode) (message : String) :
    failIf false code message = .ok () := rfl

/-! Records. -/

inductive ArtifactTextMediaType where
  | plain
  | markdown
  deriving DecidableEq, Repr

def ArtifactTextMediaType.name : ArtifactTextMediaType → Text
  | plain => text "text/plain"
  | markdown => text "text/markdown"

inductive IndexedNewlineKind where
  | none
  | lf
  | crlf
  deriving DecidableEq, Repr

def IndexedNewlineKind.name : IndexedNewlineKind → Text
  | none => text "none"
  | lf => text "lf"
  | crlf => text "crlf"

structure ArtifactTextLine where
  lineNumber : ℕ
  byteStart : ℕ
  contentByteLength : ℕ
  newlineByteLength : ℕ
  newlineKind : IndexedNewlineKind
  deriving DecidableEq, Repr

structure ArtifactTextHeading where
  headingId : Text
  level : ℕ
  rawText : Text
  normalizedText : Text
  lineNumber : ℕ
  byteStart : ℕ
  byteLength : ℕ
  deriving DecidableEq, Repr

structure ArtifactTextIndex where
  profileVersion : Text
  sourceSha256 : Text
  byteLength : ℕ
  mediaType : ArtifactTextMediaType
  lineCount : ℕ
  lines : List ArtifactTextLine
  headings : List ArtifactTextHeading
  deriving DecidableEq, Repr

structure IndexedTextRead where
  sourceSha256 : Text
  text : Text
  deriving DecidableEq, Repr

def lf : UInt8 := 0x0A
def cr : UInt8 := 0x0D

/-! Scanning. -/

def assertBytes : Value → Checked Bytes
  | .bytes bytes => .ok bytes
  | _ => fail .invalidInputType "Input bytes must be a Uint8Array."

def assertMediaType : Value → Checked ArtifactTextMediaType
  | .string s =>
    if s = text "text/plain" then .ok .plain
    else if s = text "text/markdown" then .ok .markdown
    else fail .unsupportedMediaType "The media type is not supported by this text-index profile."
  | _ => fail .unsupportedMediaType "The media type is not supported by this text-index profile."

def decode (bytes : Bytes) : Checked Text :=
  match decodeUtf8 bytes with
  | some s => .ok s
  | none => fail .invalidUtf8 "Source bytes are not valid UTF-8."

/-- `lines.push(line)`, checked: the line's number is the number of lines then. -/
def pushLine (line : ArtifactTextLine) (rest : Checked (List ArtifactTextLine)) :
    Checked (List ArtifactTextLine) := do
  failIf (line.lineNumber > maxTextIndexLines) .tooManyLines
    "Source exceeds the maximum indexed line count."
  let lines ← rest
  .ok (line :: lines)

/-- The end of `scanLines`: what follows the last newline is a line. -/
def scanLastLine (start lineNumber offset : ℕ) : Checked (List ArtifactTextLine) :=
  if start < offset then pushLine ⟨lineNumber, start, offset - start, 0, .none⟩ (.ok [])
  else .ok []

/-- The loop of `scanLines` from `offset`, over the bytes from there. -/
def scanLinesFrom (start lineNumber offset : ℕ) : Bytes → Checked (List ArtifactTextLine)
  | [] => scanLastLine start lineNumber offset
  | [b] =>
    if b = lf then
      pushLine ⟨lineNumber, start, offset - start, 1, .lf⟩
        (scanLastLine (offset + 1) (lineNumber + 1) (offset + 1))
    else scanLastLine start lineNumber (offset + 1)
  | b :: c :: rest =>
    if b = lf then
      pushLine ⟨lineNumber, start, offset - start, 1, .lf⟩
        (scanLinesFrom (offset + 1) (lineNumber + 1) (offset + 1) (c :: rest))
    else if b = cr ∧ c = lf then
      pushLine ⟨lineNumber, start, offset - start, 2, .crlf⟩
        (scanLinesFrom (offset + 2) (lineNumber + 1) (offset + 2) rest)
    else scanLinesFrom start lineNumber (offset + 1) (c :: rest)

def scanLines (source : Bytes) : Checked (List ArtifactTextLine) := scanLinesFrom 0 1 0 source

def countLeadingSpaces (s : Text) : ℕ := (s.takeWhile (· == 0x20)).length

structure Fence where
  marker : UInt16
  length : ℕ
  deriving DecidableEq, Repr

def backtick : UInt16 := 0x60
def tilde : UInt16 := 0x7E

def parseFence (s : Text) : Option Fence :=
  let indent := countLeadingSpaces s
  if indent > 3 then none
  else
    match (s.drop indent).head? with
    | none => none
    | some marker =>
      if marker != backtick && marker != tilde then none
      else
        let length := ((s.drop indent).takeWhile (· == marker)).length
        if length ≥ 3 then some ⟨marker, length⟩ else none

def isClosingFence (s : Text) (opening : Fence) : Bool :=
  let indent := countLeadingSpaces s
  let run := (s.drop indent).takeWhile (· == opening.marker)
  if indent > 3 || (s.drop indent).head? != some opening.marker then false
  else if run.length < opening.length then false
  else (s.drop (indent + run.length)).all fun u => u == 0x20 || u == 0x09

def codePointCount (s : Text) : ℕ := (codePoints s).length

def hash : UInt16 := 0x23

/-- `/\s+#+\s*$/u`: closing hashes count only when their run is preceded by
whitespace, which goes with them. -/
def stripClosingHashes (rawText : Text) : Text :=
  let body := trimEnd rawText
  let unmarked := (body.reverse.dropWhile (· == hash)).reverse
  if unmarked.length < body.length && unmarked.getLast?.any isWhitespace then trimEnd unmarked
  else rawText

def parseAtxHeading (s : Text) : Checked (Option (ℕ × Text)) := do
  let indent := countLeadingSpaces s
  if indent > 3 then return none
  let level := min ((s.drop indent).takeWhile (· == hash)).length (maxHeadingLevel + 1)
  if level < 1 || level > maxHeadingLevel || (s.drop (indent + level)).head? != some 0x20 then
    return none
  let rawText := stripClosingHashes (s.drop (indent + level + 1))
  failIf (codePointCount rawText > maxHeadingTextChars) .responseLimitExceeded
    "Heading text exceeds the profile heading-text bound."
  return some (level, rawText)

def normalizedHeadingText (platform : Platform) (rawText : Text) : Text :=
  platform.toLowerCase (collapseWhitespace false (trim (platform.normalizeNFC rawText)))

/-- The lowercase hexadecimal digits of a natural number. -/
def hexadecimal (n : ℕ) : Text := (Nat.toDigits 16 n).map fun c => UInt16.ofNat c.toNat

/-- One iteration of `headingSlug`, on the slug and whether a separator is due. -/
def headingSlugStep : Text × Bool → ℕ → Text × Bool
  | (slug, separator), code =>
    let hyphen : Text := if separator && slug.length > 0 then [0x2D] else []
    if (0x61 ≤ code && code ≤ 0x7A) || (0x30 ≤ code && code ≤ 0x39) then
      (slug ++ hyphen ++ [UInt16.ofNat code], false)
    else if code > 0x7F then
      (slug ++ hyphen ++ text "u--" ++ hexadecimal code ++ text "--", false)
    else (slug, true)

def headingSlug (normalizedText : Text) : Text :=
  let slug := ((codePoints normalizedText).foldl headingSlugStep ([], false)).1
  if slug = [] then text "heading" else slug

/-- The candidate of the loop of `nextHeadingId` at a suffix number. -/
def headingIdCandidate (slug : Text) (suffixNumber : ℕ) : Text :=
  if suffixNumber ≤ 1 then slug.take 128
  else
    let suffix : Text := 0x2D :: decimal suffixNumber
    slug.take (128 - suffix.length) ++ suffix

/-- The loop of `nextHeadingId`, for a number of iterations. -/
def nextHeadingIdFrom (slug : Text) (used : List Text) : ℕ → ℕ → Text
  | 0, suffixNumber => headingIdCandidate slug suffixNumber
  | fuel + 1, suffixNumber =>
    if used.contains (headingIdCandidate slug suffixNumber) then
      nextHeadingIdFrom slug used fuel (suffixNumber + 1)
    else headingIdCandidate slug suffixNumber

/-- The candidates from the second on are pairwise different, so one of the first
`used.length + 2` is unused. -/
def nextHeadingId (slug : Text) (used : List Text) : Text :=
  nextHeadingIdFrom slug used (used.length + 1) 1

/-- The loop of `scanHeadings`, from the ids and the fence it stands at. -/
def scanHeadingsFrom (platform : Platform) (source : Bytes) (ids : List Text)
    (fence : Option Fence) : List ArtifactTextLine → Checked (List ArtifactTextHeading)
  | [] => .ok []
  | line :: rest => do
    let s ← decode (subarray source line.byteStart (line.byteStart + line.contentByteLength))
    match fence with
    | some opening =>
      scanHeadingsFrom platform source ids (if isClosingFence s opening then none else fence) rest
    | none =>
      match parseFence s with
      | some found => scanHeadingsFrom platform source ids (some found) rest
      | none =>
        match ← parseAtxHeading s with
        | none => scanHeadingsFrom platform source ids none rest
        | some (level, rawText) =>
          let normalizedText := normalizedHeadingText platform rawText
          let headingId := nextHeadingId (headingSlug normalizedText) ids
          failIf (ids.length + 1 > maxTextIndexHeadings) .tooManyHeadings
            "Source exceeds the maximum indexed heading count."
          let headings ← scanHeadingsFrom platform source (headingId :: ids) none rest
          .ok (⟨headingId, level, rawText, normalizedText, line.lineNumber, line.byteStart,
            line.contentByteLength⟩ :: headings)

def scanHeadings (platform : Platform) (source : Bytes) (lines : List ArtifactTextLine) :
    ArtifactTextMediaType → Checked (List ArtifactTextHeading)
  | .plain => .ok []
  | .markdown => scanHeadingsFrom platform source [] none lines

def buildArtifactTextIndex (platform : Platform) (bytes mediaType : Value) :
    Checked ArtifactTextIndex := do
  let source ← assertBytes bytes
  let mediaType ← assertMediaType mediaType
  failIf (source.length > maxTextIndexBytes) .sourceTooLarge
    "Source exceeds the maximum text-index byte length."
  let _ ← decode source
  let lines ← scanLines source
  let headings ← scanHeadings platform source lines mediaType
  .ok ⟨artifactTextIndexProfileVersion, platform.sha256Hex source, source.length, mediaType,
    lines.length, lines, headings⟩

/-! Indexes as values. -/

def natValue (n : ℕ) : Value := .number (n : ℕ)

def ArtifactTextLine.toValue (line : ArtifactTextLine) : Value :=
  .object [(text "lineNumber", natValue line.lineNumber),
    (text "byteStart", natValue line.byteStart),
    (text "contentByteLength", natValue line.contentByteLength),
    (text "newlineByteLength", natValue line.newlineByteLength),
    (text "newlineKind", .string line.newlineKind.name)]

def ArtifactTextHeading.toValue (heading : ArtifactTextHeading) : Value :=
  .object [(text "headingId", .string heading.headingId), (text "level", natValue heading.level),
    (text "rawText", .string heading.rawText),
    (text "normalizedText", .string heading.normalizedText),
    (text "lineNumber", natValue heading.lineNumber),
    (text "byteStart", natValue heading.byteStart),
    (text "byteLength", natValue heading.byteLength)]

def ArtifactTextIndex.toValue (index : ArtifactTextIndex) : Value :=
  .object [(text "profileVersion", .string index.profileVersion),
    (text "sourceSha256", .string index.sourceSha256),
    (text "byteLength", natValue index.byteLength),
    (text "mediaType", .string index.mediaType.name),
    (text "lineCount", natValue index.lineCount),
    (text "lines", .array (index.lines.map ArtifactTextLine.toValue)),
    (text "headings", .array (index.headings.map ArtifactTextHeading.toValue))]

/-! The shape of an index. -/

def indexKeys : List Text := [text "profileVersion", text "sourceSha256", text "byteLength",
  text "mediaType", text "lineCount", text "lines", text "headings"]

def lineKeys : List Text := [text "lineNumber", text "byteStart", text "contentByteLength",
  text "newlineByteLength", text "newlineKind"]

def headingKeys : List Text := [text "headingId", text "level", text "rawText",
  text "normalizedText", text "lineNumber", text "byteStart", text "byteLength"]

/-- The properties of a plain object that has exactly the expected ones, read by
name. -/
def assertOrdinaryDataRecord (expectedKeys : List Text) : Value → Checked (String → Value)
  | .object properties => do
    failIf (properties.length != expectedKeys.length) .inconsistentIndex
      "Index record has unexpected properties."
    failIf (!expectedKeys.all fun key => (Value.property properties key).isSome) .inconsistentIndex
      "Index record has non-data properties."
    .ok fun key => (Value.property properties (text key)).getD .undefined
  | _ => fail .inconsistentIndex "Index record is not an ordinary data object."

def assertOrdinaryArray : Value → Checked (List Value)
  | .array items => .ok items
  | _ => fail .inconsistentIndex "Index collection is not an ordinary array."

def assertSafeInteger (value : Value) (minimum maximum : ℕ) : Checked ℕ :=
  match value with
  | .number n => do
    failIf (!n.isSafeInteger || n.lt minimum || n.gt maximum) .inconsistentIndex
      "Index numeric field is invalid."
    .ok n.toNat
  | _ => fail .inconsistentIndex "Index numeric field is invalid."

/-- A field that must be a string satisfying a test. -/
def assertText (value : Value) (test : Text → Bool) (message : String) : Checked Text :=
  match value with
  | .string s => do
    failIf (!test s) .inconsistentIndex message
    .ok s
  | _ => fail .inconsistentIndex message

def newlineByteLengthOf : Value → Option ℕ
  | .number n => [0, 1, 2].find? fun length : ℕ => n.strictEq length
  | _ => none

def newlineKindOf : Value → Option IndexedNewlineKind
  | .string s => [.none, .lf, .crlf].find? fun kind : IndexedNewlineKind => s == kind.name
  | _ => none

def mediaTypeOf : Value → Option ArtifactTextMediaType
  | .string s => [.plain, .markdown].find? fun mediaType : ArtifactTextMediaType =>
      s == mediaType.name
  | _ => none

def assertLineShape (byteLength : ℕ) (lineValue : Value) : Checked ArtifactTextLine := do
  let line ← assertOrdinaryDataRecord lineKeys lineValue
  let lineNumber ← assertSafeInteger (line "lineNumber") 1 maxTextIndexLines
  let byteStart ← assertSafeInteger (line "byteStart") 0 byteLength
  let contentByteLength ← assertSafeInteger (line "contentByteLength") 0 byteLength
  match newlineByteLengthOf (line "newlineByteLength"), newlineKindOf (line "newlineKind") with
  | some newlineByteLength, some newlineKind =>
    .ok ⟨lineNumber, byteStart, contentByteLength, newlineByteLength, newlineKind⟩
  | _, _ => fail .inconsistentIndex "Index line fields are invalid."

def assertHeadingShape (byteLength lineCount : ℕ) (headingValue : Value) :
    Checked ArtifactTextHeading := do
  let heading ← assertOrdinaryDataRecord headingKeys headingValue
  let message := "Index heading text fields are invalid."
  let headingId ← assertText (heading "headingId") (fun s => 1 ≤ s.length && s.length ≤ 128) message
  let rawText ← assertText (heading "rawText")
    (fun s => codePointCount s ≤ maxHeadingTextChars) message
  let normalizedText ← assertText (heading "normalizedText") (fun _ => true) message
  let level ← assertSafeInteger (heading "level") 1 maxHeadingLevel
  let lineNumber ← assertSafeInteger (heading "lineNumber") 1 lineCount
  let byteStart ← assertSafeInteger (heading "byteStart") 0 byteLength
  let headingByteLength ← assertSafeInteger (heading "byteLength") 0 byteLength
  .ok ⟨headingId, level, rawText, normalizedText, lineNumber, byteStart, headingByteLength⟩

def assertIndexShape (unsafeIndex : Value) : Checked ArtifactTextIndex := do
  let index ← assertOrdinaryDataRecord indexKeys unsafeIndex
  let message := "Index top-level fields are invalid."
  let profileVersion ← assertText (index "profileVersion")
    (· == artifactTextIndexProfileVersion) message
  let sourceSha256 ← assertText (index "sourceSha256") (isLowerHex 64) message
  match mediaTypeOf (index "mediaType") with
  | none => fail .inconsistentIndex message
  | some mediaType => do
    let byteLength ← assertSafeInteger (index "byteLength") 0 maxTextIndexBytes
    let lineCount ← assertSafeInteger (index "lineCount") 0 maxTextIndexLines
    let lines ← assertOrdinaryArray (index "lines")
    let headings ← assertOrdinaryArray (index "headings")
    failIf (lines.length != lineCount || headings.length > maxTextIndexHeadings)
      .inconsistentIndex "Index collection sizes are invalid."
    let lines ← lines.mapM (assertLineShape byteLength)
    let headings ← headings.mapM (assertHeadingShape byteLength lineCount)
    .ok ⟨profileVersion, sourceSha256, byteLength, mediaType, lineCount, lines, headings⟩

/-- Every field of both, of their lines and of their headings. -/
def sameIndex (left right : ArtifactTextIndex) : Bool :=
  left.profileVersion == right.profileVersion && left.sourceSha256 == right.sourceSha256 &&
  left.byteLength == right.byteLength && left.mediaType == right.mediaType &&
  left.lineCount == right.lineCount && left.lines == right.lines && left.headings == right.headings

def assertConsistentIndex (platform : Platform) (bytes : Bytes) (unsafeIndex : Value) :
    Checked ArtifactTextIndex := do
  let index ← assertIndexShape unsafeIndex
  failIf (index.sourceSha256 != platform.sha256Hex bytes) .sourceMismatch
    "Source bytes do not match the indexed source digest."
  let expected ← buildArtifactTextIndex platform (.bytes bytes) (.string index.mediaType.name)
  failIf (!sameIndex index expected) .inconsistentIndex "Index records are internally inconsistent."
  .ok index

/-! Reads. -/

def assertReadBytes (bytes : Value) : Checked Bytes := do
  let source ← assertBytes bytes
  failIf (source.length > maxTextIndexBytes) .sourceTooLarge
    "Source exceeds the maximum text-index byte length."
  let _ ← decode source
  .ok source

def untrustedRead (sourceSha256 : Text) (bytes : Bytes) : Checked IndexedTextRead := do
  failIf (bytes.length > maxTextReadBytes) .responseLimitExceeded
    "Requested text exceeds the response byte bound."
  let decoded ← decode bytes
  .ok ⟨sourceSha256, decoded⟩

def readIndexedLines (platform : Platform) (bytes index : Value) (startLine count : Number) :
    Checked IndexedTextRead := do
  let source ← assertReadBytes bytes
  let checked ← assertConsistentIndex platform source index
  failIf (!startLine.isSafeInteger || !count.isSafeInteger || startLine.lt (1 : ℕ) ||
    count.lt (1 : ℕ)) .invalidLineRange "Line range is invalid."
  failIf (count.gt maxLineReadCount) .responseLimitExceeded
    "Requested line count exceeds the response bound."
  let endLine := startLine.toNat + count.toNat - 1
  failIf (endLine > checked.lineCount) .invalidLineRange "Line range is outside the index."
  match checked.lines[startLine.toNat - 1]?, checked.lines[endLine - 1]? with
  | some first, some last =>
    untrustedRead checked.sourceSha256 (subarray source first.byteStart
      (last.byteStart + last.contentByteLength + last.newlineByteLength))
  | _, _ => fail .inconsistentIndex "Indexed line is missing."

def readIndexedHeading (platform : Platform) (bytes index headingId : Value) :
    Checked IndexedTextRead := do
  let source ← assertReadBytes bytes
  let checked ← assertConsistentIndex platform source index
  match headingId with
  | .string headingId =>
    failIf (headingId.length == 0 || headingId.length > 128) .invalidHeadingId
      "Heading identifier is invalid."
    match checked.headings.find? fun entry => entry.headingId == headingId with
    | none => fail .invalidHeadingId "Heading identifier is not present in the index."
    | some heading =>
      untrustedRead checked.sourceSha256
        (subarray source heading.byteStart (heading.byteStart + heading.byteLength))
  | _ => fail .invalidHeadingId "Heading identifier is invalid."

end TextIndex
