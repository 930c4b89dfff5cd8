import SupabaseUserMcp.TextIndex.Acceptance

/- What is read through the index of a source. The index is accepted, a window of lines or
   a heading is the decoding of its bytes or too long for a response, and windows that
   follow each other read the whole source. -/
namespace TextIndex

open Js

/-! Errors. -/

section Errors

variable {α β : Type} {P Q : ArtifactTextIndexErrorCode → Prop}

/-- Whatever the computation throws has a code with the property. -/
def Throws (P : ArtifactTextIndexErrorCode → Prop) (x : Checked α) : Prop :=
  ∀ error, x = .error error → P error.code

theorem throws_ok (a : α) : Throws P (.ok a : Checked α) := nofun

theorem throws_fail {code : ArtifactTextIndexErrorCode} (message : String) (h : P code) :
    Throws P (fail code message : Checked α) := by
  intro error herror
  cases herror
  exact h

theorem throws_failIf {bad : Bool} {code : ArtifactTextIndexErrorCode} (message : String)
    (h : P code) : Throws P (failIf bad code message) := by
  cases bad with
  | false => exact throws_ok ()
  | true => exact throws_fail message h

theorem throws_bind {x : Checked α} {f : α → Checked β} (hx : Throws P x)
    (hf : ∀ a, x = .ok a → Throws P (f a)) : Throws P (x >>= f) := by
  intro error herror
  cases x with
  | error e =>
    cases herror
    exact hx _ rfl
  | ok a => exact hf a rfl error herror

theorem Throws.imp {x : Checked α} (h : Throws P x) (himp : ∀ code, P code → Q code) :
    Throws Q x := fun error herror => himp _ (h error herror)

theorem throws_mapM {f : α → Checked β} {xs : List α} (h : ∀ x ∈ xs, Throws P (f x)) :
    Throws P (xs.mapM f) := by
  induction xs with
  | nil =>
    rw [List.mapM_nil]
    exact throws_ok []
  | cons x xs ih =>
    rw [List.mapM_cons]
    refine throws_bind (h x List.mem_cons_self) fun y _ => ?_
    refine throws_bind (ih fun x hx => h x (List.mem_cons_of_mem _ hx)) fun ys _ => ?_
    exact throws_ok _

end Errors

/-- The codes of the profile's own bounds. -/
def IsLimit (code : ArtifactTextIndexErrorCode) : Prop :=
  code = .sourceTooLarge ∨ code = .tooManyLines ∨ code = .tooManyHeadings ∨
    code = .responseLimitExceeded

theorem throws_decode {P : ArtifactTextIndexErrorCode → Prop} {bytes : Bytes} {s : Text}
    (h : decodeUtf8 bytes = some s) : Throws P (decode bytes) := by
  rw [decode_eq_ok.mpr h]
  exact throws_ok s

theorem throws_pushLine {line : ArtifactTextLine} {rest : Checked (List ArtifactTextLine)}
    (h : Throws IsLimit rest) : Throws IsLimit (pushLine line rest) := by
  refine throws_bind (throws_failIf _ (.inr (.inl rfl))) fun _ _ => ?_
  exact throws_bind h fun lines _ => throws_ok _

theorem throws_scanLastLine (start lineNumber offset : ℕ) :
    Throws IsLimit (scanLastLine start lineNumber offset) := by
  rw [scanLastLine]
  split
  · exact throws_pushLine (throws_ok [])
  · exact throws_ok []

theorem throws_scanLinesFrom (bytes : Bytes) (start lineNumber offset : ℕ) :
    Throws IsLimit (scanLinesFrom start lineNumber offset bytes) := by
  induction start, lineNumber, offset, bytes using scanLinesFrom.induct with
  | case1 start lineNumber offset => exact throws_scanLastLine start lineNumber offset
  | case2 start lineNumber offset =>
    rw [scanLinesFrom, if_pos rfl]
    exact throws_pushLine (throws_scanLastLine _ _ _)
  | case3 start lineNumber offset b hb =>
    rw [scanLinesFrom, if_neg hb]
    exact throws_scanLastLine _ _ _
  | case4 start lineNumber offset c rest ih =>
    rw [scanLinesFrom, if_pos rfl]
    exact throws_pushLine ih
  | case5 start lineNumber offset b c rest hb hcrlf ih =>
    rw [scanLinesFrom, if_neg hb, if_pos hcrlf]
    exact throws_pushLine ih
  | case6 start lineNumber offset b c rest hb hcrlf ih =>
    rw [scanLinesFrom, if_neg hb, if_neg hcrlf]
    exact ih

theorem throws_parseAtxHeading (s : Text) : Throws IsLimit (parseAtxHeading s) := by
  rcases parseAtxHeading_cases s with ⟨level, rest, -, heq⟩ | ⟨-, hnone⟩
  · rw [heq]
    refine throws_bind (throws_failIf _ (.inr (.inr (.inr rfl)))) fun _ _ => ?_
    exact throws_ok _
  · rw [hnone]
    exact throws_ok none

/-- Where every line decodes, only the bounds stop the scan of the headings. -/
theorem throws_scanHeadingsFrom (platform : Platform) (source : Bytes) :
    ∀ (lines : List ArtifactTextLine) (ids : List Text) (fence : Option Fence),
      (∀ line ∈ lines, ∃ s, decodeUtf8 (line.content source) = some s) →
      Throws IsLimit (scanHeadingsFrom platform source ids fence lines) := by
  intro lines
  induction lines with
  | nil =>
    intro ids fence _
    exact throws_ok []
  | cons line rest ih =>
    intro ids fence hdecodes
    obtain ⟨⟨s, hs⟩, hrest⟩ := List.forall_mem_cons.mp hdecodes
    rw [scanHeadingsFrom]
    refine throws_bind (throws_decode hs) fun s _ => ?_
    cases fence with
    | some opening => exact ih _ _ hrest
    | none =>
      dsimp only
      cases parseFence s with
      | some found => exact ih _ _ hrest
      | none =>
        refine throws_bind (throws_parseAtxHeading s) fun parsed _ => ?_
        cases parsed with
        | none => exact ih _ _ hrest
        | some levelText =>
          refine throws_bind (throws_failIf _ (.inr (.inr (.inl rfl)))) fun _ _ => ?_
          exact throws_bind (ih _ _ hrest) fun headings _ => throws_ok _

/-- Of a media type that the profile has, only the bounds do. -/
theorem throws_build_supported (platform : Platform) {source : Bytes} {decoded : Text}
    (hdecoded : decodeUtf8 source = some decoded) {mediaType : Value} {kind : ArtifactTextMediaType}
    (hkind : assertMediaType mediaType = .ok kind) :
    Throws IsLimit (buildArtifactTextIndex platform (.bytes source) mediaType) := by
  refine throws_bind (throws_ok source) fun bytes hbytes => ?_
  cases hbytes
  rw [hkind, ok_bind]
  refine throws_bind (throws_failIf _ (.inl rfl)) fun _ _ => ?_
  refine throws_bind (throws_decode hdecoded) fun _ _ => ?_
  refine throws_bind (throws_scanLinesFrom source 0 1 0) fun lines hlines => ?_
  refine throws_bind ?_ fun headings _ => throws_ok _
  have hof := linesOf_of_scanLines hdecoded hlines
  cases kind with
  | plain => exact throws_ok []
  | markdown =>
    refine throws_scanHeadingsFrom platform source lines [] none ?_
    exact fun line hline => hof.decodes_content hline

theorem throws_assertMediaType (v : Value) :
    Throws (· = .unsupportedMediaType) (assertMediaType v) := by
  rw [assertMediaType.eq_def]
  split
  · split
    · exact throws_ok _
    · split
      · exact throws_ok _
      · exact throws_fail _ rfl
  · exact throws_fail _ rfl

theorem throws_buildArtifactTextIndex (platform : Platform) {source : Bytes} {decoded : Text}
    (hdecoded : decodeUtf8 source = some decoded) (mediaType : Value) :
    Throws (fun code => code = .unsupportedMediaType ∨ IsLimit code)
      (buildArtifactTextIndex platform (.bytes source) mediaType) := by
  cases hkind : assertMediaType mediaType with
  | ok kind => exact (throws_build_supported platform hdecoded hkind).imp fun _ => .inr
  | error error =>
    refine throws_bind (throws_ok source) fun bytes _ => ?_
    rw [hkind]
    intro thrown hthrown
    cases hthrown
    exact .inl (throws_assertMediaType mediaType error hkind)

/-- The lines of an index are those of the scan. -/
theorem throws_assertOrdinaryDataRecord (keys : List Text) (v : Value) :
    Throws (· = .inconsistentIndex) (assertOrdinaryDataRecord keys v) := by
  cases v with
  | object properties =>
    refine throws_bind (throws_failIf _ rfl) fun _ _ => ?_
    refine throws_bind (throws_failIf _ rfl) fun _ _ => ?_
    exact throws_ok _
  | _ => exact throws_fail _ rfl

theorem throws_assertSafeInteger (v : Value) (minimum maximum : ℕ) :
    Throws (· = .inconsistentIndex) (assertSafeInteger v minimum maximum) := by
  cases v with
  | number n => exact throws_bind (throws_failIf _ rfl) fun _ _ => throws_ok _
  | _ => exact throws_fail _ rfl

theorem throws_assertText (v : Value) (test : Text → Bool) (message : String) :
    Throws (· = .inconsistentIndex) (assertText v test message) := by
  cases v with
  | string s => exact throws_bind (throws_failIf _ rfl) fun _ _ => throws_ok _
  | _ => exact throws_fail _ rfl

theorem throws_assertOrdinaryArray (v : Value) :
    Throws (· = .inconsistentIndex) (assertOrdinaryArray v) := by
  cases v with
  | array items => exact throws_ok items
  | _ => exact throws_fail _ rfl

theorem throws_assertLineShape (byteLength : ℕ) (v : Value) :
    Throws (· = .inconsistentIndex) (assertLineShape byteLength v) := by
  refine throws_bind (throws_assertOrdinaryDataRecord _ _) fun line _ => ?_
  refine throws_bind (throws_assertSafeInteger _ _ _) fun lineNumber _ => ?_
  refine throws_bind (throws_assertSafeInteger _ _ _) fun byteStart _ => ?_
  refine throws_bind (throws_assertSafeInteger _ _ _) fun contentByteLength _ => ?_
  split
  · exact throws_ok _
  · exact throws_fail _ rfl

theorem throws_assertHeadingShape (byteLength lineCount : ℕ) (v : Value) :
    Throws (· = .inconsistentIndex) (assertHeadingShape byteLength lineCount v) := by
  refine throws_bind (throws_assertOrdinaryDataRecord _ _) fun heading _ => ?_
  refine throws_bind (throws_assertText _ _ _) fun headingId _ => ?_
  refine throws_bind (throws_assertText _ _ _) fun rawText _ => ?_
  refine throws_bind (throws_assertText _ _ _) fun normalizedText _ => ?_
  refine throws_bind (throws_assertSafeInteger _ _ _) fun level _ => ?_
  refine throws_bind (throws_assertSafeInteger _ _ _) fun lineNumber _ => ?_
  refine throws_bind (throws_assertSafeInteger _ _ _) fun byteStart _ => ?_
  exact throws_bind (throws_assertSafeInteger _ _ _) fun byteLength _ => throws_ok _

theorem throws_assertIndexShape (v : Value) :
    Throws (· = .inconsistentIndex) (assertIndexShape v) := by
  refine throws_bind (throws_assertOrdinaryDataRecord _ _) fun index _ => ?_
  refine throws_bind (throws_assertText _ _ _) fun profileVersion _ => ?_
  refine throws_bind (throws_assertText _ _ _) fun sourceSha256 _ => ?_
  split
  · exact throws_fail _ rfl
  · refine throws_bind (throws_assertSafeInteger _ _ _) fun byteLength _ => ?_
    refine throws_bind (throws_assertSafeInteger _ _ _) fun lineCount _ => ?_
    refine throws_bind (throws_assertOrdinaryArray _) fun lines _ => ?_
    refine throws_bind (throws_assertOrdinaryArray _) fun headings _ => ?_
    refine throws_bind (throws_failIf _ rfl) fun _ _ => ?_
    refine throws_bind (throws_mapM fun _ _ => throws_assertLineShape _ _) fun lines _ => ?_
    refine throws_bind (throws_mapM fun _ _ => throws_assertHeadingShape _ _ _) fun headings _ => ?_
    exact throws_ok _

/-- The checks of an index throw no decoding error, for a source that decodes. -/
theorem throws_assertConsistentIndex (platform : Platform) {source : Bytes} {decoded : Text}
    (hdecoded : decodeUtf8 source = some decoded) (v : Value) :
    Throws (· ≠ .invalidUtf8) (assertConsistentIndex platform source v) := by
  refine throws_bind ?_ fun index _ => ?_
  · refine (throws_assertIndexShape v).imp ?_
    rintro code rfl
    decide
  refine throws_bind (throws_failIf _ (by decide)) fun _ _ => ?_
  refine throws_bind ?_ fun expected _ => ?_
  · refine (throws_buildArtifactTextIndex platform hdecoded _).imp ?_
    rintro code (rfl | rfl | rfl | rfl | rfl) <;> decide
  · exact throws_bind (throws_failIf _ (by decide)) fun _ _ => throws_ok _

/-! Reads. -/

section Reads

variable {platform : Platform} {source : Bytes} {decoded : Text}

theorem assertReadBytes_of (hle : source.length ≤ maxTextIndexBytes)
    (hdecoded : decodeUtf8 source = some decoded) : assertReadBytes (.bytes source) = .ok source := by
  refine bind_eq_ok.mpr ⟨source, rfl, ?_⟩
  refine bind_eq_ok.mpr ⟨(), failIf_eq_ok.mpr (by simpa using hle), ?_⟩
  exact bind_eq_ok.mpr ⟨decoded, decode_eq_ok.mpr hdecoded, rfl⟩

theorem untrustedRead_of {sourceSha256 s : Text} {bytes : Bytes} (hs : decodeUtf8 bytes = some s) :
    untrustedRead sourceSha256 bytes =
      if bytes.length ≤ maxTextReadBytes then .ok ⟨sourceSha256, s⟩
      else fail .responseLimitExceeded "Requested text exceeds the response byte bound." := by
  by_cases hle : bytes.length ≤ maxTextReadBytes
  · rw [if_pos hle, untrustedRead, decide_eq_false (Nat.not_lt.mpr hle), failIf_false, ok_bind,
      decode_eq_ok.mpr hs]
    rfl
  · rw [if_neg hle, untrustedRead, decide_eq_true (Nat.lt_of_not_le hle)]
    rfl

theorem throws_untrustedRead {sourceSha256 s : Text} {bytes : Bytes}
    (hs : decodeUtf8 bytes = some s) :
    Throws (· = .responseLimitExceeded) (untrustedRead sourceSha256 bytes) := by
  rw [untrustedRead_of hs]
  split
  · exact throws_ok _
  · exact throws_fail _ rfl

theorem exists_line {lines : List ArtifactTextLine} {i : ℕ} (h : i < lines.length) :
    ∃ line, lines[i]? = some line := ⟨_, List.getElem?_eq_getElem h⟩

/-- Reading lines of an accepted index. -/
theorem throws_readIndexedLines {v : Value} {index : ArtifactTextIndex}
    (hindex : IndexOf platform source index)
    (hchecked : assertConsistentIndex platform source v = .ok index) (startLine count : Number) :
    Throws (fun code => code = .invalidLineRange ∨ code = .responseLimitExceeded)
      (readIndexedLines platform (.bytes source) v startLine count) := by
  obtain ⟨decoded, hdecoded⟩ := hindex.lines.decodes
  refine throws_bind ?_ fun bytes hbytes => ?_
  · rw [assertReadBytes_of hindex.source_le hdecoded]
    exact throws_ok source
  obtain rfl := assertReadBytes_eq_ok hbytes
  refine throws_bind ?_ fun checked hsame => ?_
  · rw [hchecked]
    exact throws_ok index
  rw [hchecked] at hsame
  cases hsame
  refine throws_bind (throws_failIf _ (.inl rfl)) fun _ hrange => ?_
  refine throws_bind (throws_failIf _ (.inr rfl)) fun _ hcount => ?_
  refine throws_bind (throws_failIf _ (.inl rfl)) fun _ hinside => ?_
  simp only [failIf_eq_ok, Bool.or_eq_false_iff, Bool.not_eq_false', decide_eq_false_iff_not,
    Nat.not_lt] at hrange hinside
  obtain ⟨⟨⟨hstartInteger, hcountInteger⟩, hstart⟩, hpos⟩ := hrange
  have hstartInteger := Number.isInteger_of_isSafeInteger hstartInteger
  have hcountInteger := Number.isInteger_of_isSafeInteger hcountInteger
  obtain ⟨start, rfl, hstart⟩ := Number.eq_ofNat_of_isInteger hstartInteger hstart
  obtain ⟨count, rfl, hpos⟩ := Number.eq_ofNat_of_isInteger hcountInteger hpos
  rw [Number.toNat_ofNat, Number.toNat_ofNat] at hinside ⊢
  rw [hindex.lineCount] at hinside
  obtain ⟨first, hfirst⟩ := exists_line (show start - 1 < index.lines.length by omega)
  obtain ⟨last, hlast⟩ := exists_line (show start + count - 1 - 1 < index.lines.length by omega)
  rw [hfirst, hlast]
  obtain ⟨s, hs⟩ := hindex.lines.decodes_run (by omega) hfirst hlast
  exact (throws_untrustedRead hs).imp fun _ => .inr

theorem throws_readIndexedHeading {v : Value} {index : ArtifactTextIndex}
    (hindex : IndexOf platform source index)
    (hchecked : assertConsistentIndex platform source v = .ok index) (headingId : Value) :
    Throws (fun code => code = .invalidHeadingId ∨ code = .responseLimitExceeded)
      (readIndexedHeading platform (.bytes source) v headingId) := by
  obtain ⟨decoded, hdecoded⟩ := hindex.lines.decodes
  refine throws_bind ?_ fun bytes hbytes => ?_
  · rw [assertReadBytes_of hindex.source_le hdecoded]
    exact throws_ok source
  obtain rfl := assertReadBytes_eq_ok hbytes
  refine throws_bind ?_ fun checked hsame => ?_
  · rw [hchecked]
    exact throws_ok index
  rw [hchecked] at hsame
  cases hsame
  cases headingId with
  | string headingId =>
    refine throws_bind (throws_failIf _ (.inl rfl)) fun _ _ => ?_
    split
    · exact throws_fail _ (.inl rfl)
    · next heading hfound =>
      have hmem := List.mem_of_find?_eq_some hfound
      obtain ⟨line, hline, -, hstart, hlength⟩ := (hindex.scans hmem).ownLine heading hmem
      obtain ⟨s, hs⟩ := hindex.lines.decodes_content hline
      rw [ArtifactTextLine.content, ← hstart, ← hlength] at hs
      exact (throws_untrustedRead hs).imp fun _ => .inr
  | _ => exact throws_fail _ (.inl rfl)

/-- No read of a source that decodes throws a decoding error, whatever index it is given. -/
theorem reads_decode (hle : source.length ≤ maxTextIndexBytes)
    (hdecoded : decodeUtf8 source = some decoded) (v : Value) :
    (∀ startLine count,
      Throws (· ≠ .invalidUtf8) (readIndexedLines platform (.bytes source) v startLine count)) ∧
    ∀ headingId,
      Throws (· ≠ .invalidUtf8) (readIndexedHeading platform (.bytes source) v headingId) := by
  cases hchecked : assertConsistentIndex platform source v with
  | ok index =>
    have hindex := indexOf_of_build (assertConsistentIndex_eq_ok.mp hchecked).1
    refine ⟨fun startLine count => ?_, fun headingId => ?_⟩
    · refine (throws_readIndexedLines hindex hchecked startLine count).imp ?_
      rintro code (rfl | rfl) <;> decide
    · refine (throws_readIndexedHeading hindex hchecked headingId).imp ?_
      rintro code (rfl | rfl) <;> decide
  | error error =>
    have hcode := throws_assertConsistentIndex platform hdecoded v error hchecked
    have hrejected : ∀ {α : Type}, Throws (· ≠ .invalidUtf8) (.error error : Checked α) := by
      intro α thrown hthrown
      cases hthrown
      exact hcode
    refine ⟨fun startLine count => ?_, fun headingId => ?_⟩
    · rw [readIndexedLines, assertReadBytes_of hle hdecoded, ok_bind, hchecked]
      exact hrejected
    · rw [readIndexedHeading, assertReadBytes_of hle hdecoded, ok_bind, hchecked]
      exact hrejected

/-- A window of the lines of a source's own index. -/
theorem readIndexedLines_window {mediaType : Value} {index : ArtifactTextIndex}
    (hbuild : buildArtifactTextIndex platform (.bytes source) mediaType = .ok index)
    {start count : ℕ} {first last : ArtifactTextLine} (hstart : 1 ≤ start) (hpos : 1 ≤ count)
    (hcount : count ≤ maxLineReadCount) (hfirst : index.lines[start - 1]? = some first)
    (hlast : index.lines[start + count - 1 - 1]? = some last) :
    readIndexedLines platform (.bytes source) index.toValue start count =
      untrustedRead index.sourceSha256 (subarray source first.byteStart last.stop) := by
  have hindex := indexOf_of_build hbuild
  obtain ⟨decoded, hdecoded⟩ := hindex.lines.decodes
  obtain ⟨hlt, -⟩ := List.getElem?_eq_some_iff.mp hlast
  have hlines := hindex.lineCount_le
  have hlength := hindex.lineCount
  simp only [maxTextIndexLines, maxLineReadCount] at hlines hcount
  have hstartSafe := Number.isSafeInteger_ofNat (n := start) (by omega)
  have hcountSafe := Number.isSafeInteger_ofNat (n := count) (by omega)
  rw [readIndexedLines, assertReadBytes_of hindex.source_le hdecoded, ok_bind,
    assertConsistentIndex_build hbuild, ok_bind, hstartSafe, hcountSafe]
  simp only [Number.lt_ofNat, Number.gt_ofNat, Number.toNat_ofNat, hfirst, hlast]
  rw [decide_eq_false (Nat.not_lt.mpr hstart), decide_eq_false (Nat.not_lt.mpr hpos),
    decide_eq_false (show ¬ maxLineReadCount < count from Nat.not_lt.mpr hcount),
    decide_eq_false (show ¬ start + count - 1 > index.lineCount by omega)]
  rfl

/-- The heading with an id is the only one. -/
theorem find?_headingId {index : ArtifactTextIndex} (hindex : IndexOf platform source index)
    {heading : ArtifactTextHeading} (hmem : heading ∈ index.headings) :
    (index.headings.find? fun entry => entry.headingId == heading.headingId) = some heading := by
  have hsome : (index.headings.find? fun entry =>
      entry.headingId == heading.headingId).isSome = true := by
    rw [List.find?_isSome]
    exact ⟨heading, hmem, beq_self_eq_true _⟩
  obtain ⟨other, hother⟩ := Option.isSome_iff_exists.mp hsome
  have hid := List.find?_some hother
  rw [hother, List.inj_on_of_nodup_map (hindex.scans hmem).nodup.1 (List.mem_of_find?_eq_some hother)
    hmem (beq_iff_eq.mp hid)]

/-- A heading of a source's own index. -/
theorem readIndexedHeading_own {mediaType : Value} {index : ArtifactTextIndex}
    (hbuild : buildArtifactTextIndex platform (.bytes source) mediaType = .ok index)
    {heading : ArtifactTextHeading} (hmem : heading ∈ index.headings) :
    readIndexedHeading platform (.bytes source) index.toValue (.string heading.headingId) =
      untrustedRead index.sourceSha256
        (subarray source heading.byteStart (heading.byteStart + heading.byteLength)) := by
  have hindex := indexOf_of_build hbuild
  obtain ⟨decoded, hdecoded⟩ := hindex.lines.decodes
  obtain ⟨hpos, hle, -⟩ := (hindex.scans hmem).isHeadingId heading hmem
  have hfound := find?_headingId hindex hmem
  have hlength : (heading.headingId.length == 0 || heading.headingId.length > 128) = false := by
    rw [Bool.or_eq_false_iff, beq_eq_false_iff_ne, decide_eq_false_iff_not]
    omega
  rw [readIndexedHeading, assertReadBytes_of hindex.source_le hdecoded, ok_bind,
    assertConsistentIndex_build hbuild, ok_bind]
  simp only [hlength, hfound, failIf_false, ok_bind]

end Reads

/-! Reading in windows. -/

/-- The windows that begin at a line, of as many lines as counted, read one by one. -/
def readPages (platform : Platform) (source : Bytes) (index : ArtifactTextIndex) :
    ℕ → List ℕ → Checked Text
  | _, [] => .ok []
  | startLine, count :: rest => do
    let page ← readIndexedLines platform (.bytes source) index.toValue startLine count
    let following ← readPages platform source index (startLine + count) rest
    .ok (page.text ++ following)

/-- Every window has as many lines and bytes as a read may return. -/
def WithinLimits (lines : List ArtifactTextLine) : ℕ → List ℕ → Prop
  | _, [] => True
  | startLine, count :: rest =>
    1 ≤ count ∧ count ≤ maxLineReadCount ∧
      (∀ first last, lines[startLine - 1]? = some first →
        lines[startLine + count - 1 - 1]? = some last →
        last.stop - first.byteStart ≤ maxTextReadBytes) ∧
      WithinLimits lines (startLine + count) rest

/-- Where the line of an index begins, or the source ends. -/
def lineStart (source : Bytes) (lines : List ArtifactTextLine) (i : ℕ) : ℕ :=
  (lines[i]?.map ArtifactTextLine.byteStart).getD source.length

theorem lineStart_succ {source : Bytes} {lines : List ArtifactTextLine} {i : ℕ}
    {line : ArtifactTextLine} (htiles : Tiles 0 lines source.length)
    (hline : lines[i]? = some line) : lineStart source lines (i + 1) = line.stop := by
  rw [lineStart]
  cases hnext : lines[i + 1]? with
  | none =>
    have hlast : i + 1 = lines.length := by
      have hle := List.getElem?_eq_none_iff.mp hnext
      obtain ⟨hlt, -⟩ := List.getElem?_eq_some_iff.mp hline
      omega
    exact (htiles.stop_last hline hlast).symm
  | some next =>
    rcases htiles.byteStart_cases hnext with ⟨hzero, -⟩ | ⟨j, previous, hsucc, hprevious, hstart⟩
    · exact absurd hzero (Nat.succ_ne_zero i)
    · obtain rfl : i = j := Nat.succ.inj hsucc
      rw [hline] at hprevious
      obtain rfl := Option.some.inj hprevious
      exact hstart

theorem lineStart_zero {source : Bytes} {lines : List ArtifactTextLine}
    (htiles : Tiles 0 lines source.length) : lineStart source lines 0 = 0 := by
  cases lines with
  | nil => exact (show (0 : ℕ) = source.length from htiles).symm
  | cons line rest => exact htiles.1

/-- Windows that go on to the last line read what is left of the source. -/
theorem readPages_ok {platform : Platform} {source : Bytes} {mediaType : Value}
    {index : ArtifactTextIndex}
    (hbuild : buildArtifactTextIndex platform (.bytes source) mediaType = .ok index) :
    ∀ (counts : List ℕ) (startLine : ℕ), 1 ≤ startLine →
      startLine - 1 + counts.sum = index.lineCount → WithinLimits index.lines startLine counts →
      ∃ s, readPages platform source index startLine counts = .ok s ∧
        decodeUtf8 (subarray source (lineStart source index.lines (startLine - 1)) source.length) =
          some s := by
  have hindex := indexOf_of_build hbuild
  intro counts
  induction counts with
  | nil =>
    intro startLine hstart hsum _
    rw [List.sum_nil, Nat.add_zero, hindex.lineCount] at hsum
    refine ⟨[], rfl, ?_⟩
    have hend : lineStart source index.lines (startLine - 1) = source.length := by
      rw [lineStart, List.getElem?_eq_none hsum.ge]
      rfl
    rw [hend, subarray_self]
    exact decode_eq_ok.mp decode_nil
  | cons count rest ih =>
    intro startLine hstart hsum hlimits
    obtain ⟨hpos, hcount, hbytes, hlimits⟩ := hlimits
    rw [List.sum_cons, hindex.lineCount] at hsum
    obtain ⟨following, hfollowing, hdecode⟩ :=
      ih (startLine + count) (by omega) (by rw [hindex.lineCount]; omega) hlimits
    obtain ⟨first, hfirst⟩ := exists_line (show startLine - 1 < index.lines.length by omega)
    obtain ⟨last, hlast⟩ := exists_line
      (show startLine + count - 1 - 1 < index.lines.length by omega)
    have hbegin : lineStart source index.lines (startLine - 1) = first.byteStart := by
      rw [lineStart, hfirst]
      rfl
    have hnext : lineStart source index.lines (startLine + count - 1) = last.stop := by
      rw [← lineStart_succ hindex.lines.tiles hlast]
      congr 1
      omega
    obtain ⟨s, hs⟩ := hindex.lines.decodes_run (by omega) hfirst hlast
    have hlt := hindex.lines.tiles.start_lt_stop (by omega) hfirst hlast
    obtain ⟨-, -, hstop⟩ := hindex.lines.tiles.bounds hlast
    have hpage : readIndexedLines platform (.bytes source) index.toValue startLine count =
        .ok ⟨index.sourceSha256, s⟩ := by
      rw [readIndexedLines_window hbuild hstart hpos hcount hfirst hlast, untrustedRead_of hs,
        if_pos]
      rw [length_subarray, Nat.min_eq_left hstop]
      exact hbytes first last hfirst hlast
    refine ⟨s ++ following, ?_, ?_⟩
    · rw [readPages, hpage, ok_bind, hfollowing]
      rfl
    · rw [hnext] at hdecode
      rw [hbegin, ← subarray_append source hlt.le hstop]
      exact decodeUtf8_append hs hdecode

/-! The results. -/

/-- The lines are the source, cut behind each newline. -/
structure PartitionedBy (source : Bytes) (lines : List ArtifactTextLine) : Prop where
  numbered : ∀ i line, lines[i]? = some line → line.lineNumber = i + 1
  starts : ∀ line, lines[0]? = some line → line.byteStart = 0
  follows : ∀ i line next, lines[i]? = some line → lines[i + 1]? = some next →
    next.byteStart = line.byteStart + line.contentByteLength + line.newlineByteLength
  covers : ∀ offset < source.length, ∃! i : ℕ, ∃ line : ArtifactTextLine, lines[i]? = some line ∧
    line.byteStart ≤ offset ∧
    offset < line.byteStart + line.contentByteLength + line.newlineByteLength
  inside : ∀ line ∈ lines,
    line.byteStart + line.contentByteLength + line.newlineByteLength ≤ source.length
  content : ∀ line ∈ lines, lf ∉ line.content source
  newline : ∀ line ∈ lines, line.newline source = line.newlineKind.bytes ∧
    line.newlineByteLength = line.newlineKind.bytes.length
  notCr : ∀ line ∈ lines, line.newlineKind = .lf → (line.content source).getLast? ≠ some cr
  last : ∀ i line, lines[i]? = some line → line.newlineKind = .none →
    i + 1 = lines.length ∧ 0 < line.contentByteLength

theorem partitionedBy_of_linesOf {source : Bytes} {lines : List ArtifactTextLine}
    (h : LinesOf source lines) : PartitionedBy source lines where
  numbered i line hline := by
    rw [(h.scanned.nth hline).1, Nat.add_comm]
  starts line hline := by
    rcases h.tiles.byteStart_cases hline with ⟨-, hzero⟩ | ⟨j, -, hsucc, -⟩
    · exact hzero
    · exact absurd hsucc.symm (Nat.succ_ne_zero j)
  follows i line next hline hnext := by
    have hstart := lineStart_succ h.tiles hline
    rw [lineStart, hnext] at hstart
    exact hstart
  covers offset hoffset := by
    obtain ⟨i, line, hline, hstart, hstop⟩ := h.tiles.exists_containing (Nat.zero_le _) hoffset
    refine ⟨i, ⟨line, hline, hstart, hstop⟩, ?_⟩
    intro j hj
    obtain ⟨other, hother, hstart', hstop'⟩ := hj
    rcases Nat.lt_trichotomy j i with hlt | heq | hlt
    · have hle := h.tiles.stop_le_byteStart hlt hother hline
      simp only [ArtifactTextLine.stop] at hle
      omega
    · exact heq
    · have hle := h.tiles.stop_le_byteStart hlt hline hother
      simp only [ArtifactTextLine.stop] at hle hstop
      omega
  inside line hmem := by
    obtain ⟨i, hi⟩ := List.mem_iff_getElem?.mp hmem
    exact (h.tiles.bounds hi).2.2
  content line hmem := (h.scanned.describes hmem).content
  newline line hmem :=
    ⟨(h.scanned.describes hmem).newline, (h.scanned.describes hmem).newlineByteLength⟩
  notCr line hmem := (h.scanned.describes hmem).notCr
  last i line hline hnone :=
    ⟨(h.scanned.nth hline).2.2.2 hnone, h.content_pos hline hnone⟩

/-- The lines of an index are its source, cut behind each newline. They decode one by one
and together, and read in windows they are the source. -/
theorem lines_lossless {platform : Platform} {source : Bytes} {mediaType : Value}
    {index : ArtifactTextIndex}
    (hbuild : buildArtifactTextIndex platform (.bytes source) mediaType = .ok index) :
    PartitionedBy source index.lines ∧
    (∀ line ∈ index.lines, ∃ s, decodeUtf8 (line.content source) = some s) ∧
    (∀ (i j : ℕ) (first last : ArtifactTextLine), i ≤ j → index.lines[i]? = some first →
      index.lines[j]? = some last → ∃ s, decodeUtf8 (subarray source first.byteStart
        (last.byteStart + last.contentByteLength + last.newlineByteLength)) = some s) ∧
    ∃ decoded, decodeUtf8 source = some decoded ∧
      (∀ kind, Throws (· ≠ .invalidUtf8) (buildArtifactTextIndex platform (.bytes source) kind)) ∧
      (∀ v startLine count,
        Throws (· ≠ .invalidUtf8) (readIndexedLines platform (.bytes source) v startLine count)) ∧
      (∀ v headingId,
        Throws (· ≠ .invalidUtf8) (readIndexedHeading platform (.bytes source) v headingId)) ∧
      ∀ counts : List ℕ, counts.sum = index.lineCount → WithinLimits index.lines 1 counts →
        readPages platform source index 1 counts = .ok decoded := by
  have hindex := indexOf_of_build hbuild
  obtain ⟨decoded, hdecoded⟩ := hindex.lines.decodes
  refine ⟨partitionedBy_of_linesOf hindex.lines, fun line => hindex.lines.decodes_content,
    fun i j first last => hindex.lines.decodes_run, decoded, hdecoded, ?_, ?_, ?_, ?_⟩
  · intro kind
    refine (throws_buildArtifactTextIndex platform hdecoded kind).imp ?_
    rintro code (rfl | rfl | rfl | rfl | rfl) <;> decide
  · exact fun v => (reads_decode hindex.source_le hdecoded v).1
  · exact fun v => (reads_decode hindex.source_le hdecoded v).2
  · intro counts hsum hlimits
    obtain ⟨s, hs, hdecode⟩ := readPages_ok hbuild counts 1 (Nat.le_refl _)
      (by rw [Nat.sub_self, Nat.zero_add, hsum]) hlimits
    have hwhole : subarray source 0 source.length = source := by
      rw [subarray, List.take_length, List.drop_zero]
    rw [lineStart_zero hindex.lines.tiles, hwhole, hdecoded] at hdecode
    rw [hs, Option.some.inj hdecode]

/-- A note with a fence, a CRLF, two headings of one slug, and no last newline. -/
def fencedNote : Bytes := encodeUtf8 (text "# a\r\n~~~\n# b\n~~~\n# A #")

def fencedNoteIndex : ArtifactTextIndex where
  profileVersion := artifactTextIndexProfileVersion
  sourceSha256 := asciiPlatform.sha256Hex fencedNote
  byteLength := 22
  mediaType := .markdown
  lineCount := 5
  lines := [⟨1, 0, 3, 2, .crlf⟩, ⟨2, 5, 3, 1, .lf⟩, ⟨3, 9, 3, 1, .lf⟩, ⟨4, 13, 3, 1, .lf⟩,
    ⟨5, 17, 5, 0, .none⟩]
  headings := [⟨text "a", 1, text "a", text "a", 1, 0, 3⟩,
    ⟨text "a-2", 1, text "A", text "a", 5, 17, 5⟩]

theorem build_fencedNote : buildArtifactTextIndex asciiPlatform (.bytes fencedNote)
    (.string (text "text/markdown")) = .ok fencedNoteIndex := rfl

theorem lines_lossless_note : ∃ decoded, decodeUtf8 fencedNote = some decoded ∧
    readPages asciiPlatform fencedNote fencedNoteIndex 1 [2, 3] = .ok decoded := by
  obtain ⟨-, -, -, decoded, hdecoded, -, -, -, hpages⟩ := lines_lossless build_fencedNote
  refine ⟨decoded, hdecoded, hpages [2, 3] rfl ?_⟩
  refine ⟨by decide, by decide, ?_, by decide, by decide, ?_, trivial⟩
  · rintro first last ⟨⟩ ⟨⟩
    decide
  · rintro first last ⟨⟩ ⟨⟩
    decide

/-- A value is accepted as the index of some bytes when it has, field for field, the index
that the bytes have; and no read rejects that index. -/
theorem assertConsistentIndex_exact (platform : Platform) (bytes : Bytes) :
    (∀ v checked, assertConsistentIndex platform bytes v = .ok checked ↔
      buildArtifactTextIndex platform (.bytes bytes)
          ((fieldOf "mediaType" v).getD .undefined) = .ok checked ∧
        checked.RecordedBy v) ∧
    ∀ mediaType index, buildArtifactTextIndex platform (.bytes bytes) mediaType = .ok index →
      index.RecordedBy index.toValue ∧ assertIndexShape index.toValue = .ok index ∧
      assertConsistentIndex platform bytes index.toValue = .ok index ∧
      (∀ startLine count,
        Throws (fun code => code = .invalidLineRange ∨ code = .responseLimitExceeded)
          (readIndexedLines platform (.bytes bytes) index.toValue startLine count)) ∧
      ∀ headingId,
        Throws (fun code => code = .invalidHeadingId ∨ code = .responseLimitExceeded)
          (readIndexedHeading platform (.bytes bytes) index.toValue headingId) := by
  refine ⟨fun v checked => assertConsistentIndex_eq_ok, fun mediaType index hbuild => ?_⟩
  have hindex := indexOf_of_build hbuild
  have hrecorded := recordedBy_toValue index
  have hchecked := assertConsistentIndex_build hbuild
  exact ⟨hrecorded, assertIndexShape_eq_ok.mpr ⟨hrecorded, hindex.inShape⟩, hchecked,
    throws_readIndexedLines hindex hchecked, throws_readIndexedHeading hindex hchecked⟩

/-- The loop for an id ends at the first that is unused. The ids of a source are different,
the public schema accepts them, and each reads its own line. -/
theorem headings_usable {platform : Platform} {source : Bytes} {index : ArtifactTextIndex}
    (hbuild : buildArtifactTextIndex platform (.bytes source) (.string (text "text/markdown")) =
      .ok index) :
    (∀ slug used, ∃ n, 1 ≤ n ∧ nextHeadingId slug used = headingIdCandidate slug n ∧
      headingIdCandidate slug n ∉ used ∧
      ∀ m, 1 ≤ m → m < n → headingIdCandidate slug m ∈ used) ∧
    (index.headings.map ArtifactTextHeading.headingId).Nodup ∧
    ∀ heading ∈ index.headings,
      1 ≤ heading.headingId.length ∧ heading.headingId.length ≤ 128 ∧
      Inspection.headingIdSchema (.string heading.headingId) = some heading.headingId ∧
      ∃ line ∈ index.lines, heading.lineNumber = line.lineNumber ∧
        heading.byteStart = line.byteStart ∧ heading.byteLength = line.contentByteLength ∧
        ∃ s, decodeUtf8 (line.content source) = some s ∧
          readIndexedHeading platform (.bytes source) index.toValue (.string heading.headingId) =
            if line.contentByteLength ≤ maxTextReadBytes then .ok ⟨index.sourceSha256, s⟩
            else fail .responseLimitExceeded
              "Requested text exceeds the response byte bound." := by
  have hindex := indexOf_of_build hbuild
  refine ⟨fun slug used => ?_, ?_, ?_⟩
  · obtain ⟨n, hpos, -, heq, hbefore, hunused⟩ := nextHeadingId_first slug used
    exact ⟨n, hpos, heq, hunused, hbefore⟩
  · cases hmedia : index.mediaType with
    | plain =>
      rw [hindex.plain hmedia]
      exact List.nodup_nil
    | markdown => exact (hindex.markdown hmedia).nodup.1
  · intro heading hmem
    have hscan := hindex.scans hmem
    have hid := hscan.isHeadingId heading hmem
    obtain ⟨line, hline, hnumber, hstart, hlength⟩ := hscan.ownLine heading hmem
    obtain ⟨s, hs⟩ := hindex.lines.decodes_content hline
    refine ⟨hid.1, hid.2.1, hid.accepted, line, hline, hnumber, hstart, hlength, s, hs, ?_⟩
    obtain ⟨i, hi⟩ := List.mem_iff_getElem?.mp hline
    obtain ⟨-, -, hstop⟩ := hindex.lines.tiles.bounds hi
    have hcontent : (line.content source).length = line.contentByteLength := by
      rw [ArtifactTextLine.content, length_subarray]
      rw [ArtifactTextLine.stop] at hstop
      omega
    rw [readIndexedHeading_own hbuild hmem, hstart, hlength]
    rw [← ArtifactTextLine.content, untrustedRead_of hs, hcontent]

theorem headings_usable_note :
    (fencedNoteIndex.headings.map ArtifactTextHeading.headingId).Nodup ∧
      Inspection.headingIdSchema (.string (text "a-2")) = some (text "a-2") := by
  obtain ⟨-, hnodup, husable⟩ := headings_usable build_fencedNote
  have hsecond : ⟨text "a-2", 1, text "A", text "a", 5, 17, 5⟩ ∈ fencedNoteIndex.headings :=
    List.mem_of_getElem? (i := 1) rfl
  obtain ⟨-, -, hschema, -⟩ := husable _ hsecond
  exact ⟨hnodup, hschema⟩

end TextIndex
