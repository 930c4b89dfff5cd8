import SupabaseUserMcp.Js.Utf16
import SupabaseUserMcp.ReadTools.Inputs
import SupabaseUserMcp.Startup.Loading

/- Credential files that are honest: a token in three parts whose payload says when it
   expires, and a file that `JSON.stringify` wrote. Such a file is loaded as what was
   written, and what is loaded makes a client. -/
namespace Startup

open Js
open Process (Ensures Runs ensures_of_keeps)

/-! ## Tokens -/

/-- `[A-Za-z0-9_-]`. -/
def isBase64UrlUnit (u : UInt16) : Bool := isAlphanumeric u || u == 0x2D || u == 0x5F

/-- A digit of the other alphabet. -/
def urlDigit (u : UInt16) : UInt16 := if u = 0x2B then 0x2D else if u = 0x2F then 0x5F else u

/-- `buffer.toString('base64url')`. -/
def toBase64Url (bytes : Bytes) : Text :=
  ((toBase64 bytes).takeWhile (· != 0x3D)).map urlDigit

/-- A token with a payload. -/
def jwt (header : Text) (payload : Bytes) (signature : Text) : Text :=
  header ++ 0x2E :: (toBase64Url payload ++ 0x2E :: signature)

theorem isBase64UrlUnit_spec {u : UInt16} (h : isBase64UrlUnit u = true) :
    u ≠ 0x2E ∧ isWhitespace u = false := by
  simp only [isBase64UrlUnit, isAlphanumeric, isUpper, isLower, isDigit, Bool.or_eq_true,
    Bool.and_eq_true, beq_iff_eq, decide_eq_true_eq] at h
  simp only [isWhitespace, Bool.or_eq_false_iff, Bool.and_eq_false_iff, beq_eq_false_iff_ne, ne_eq,
    decide_eq_false_iff_not, ← UInt16.toNat_inj, UInt16.le_iff_toNat_le, UInt16.reduceToNat] at h ⊢
  omega

/-- The two alphabets are read alike. -/
theorem base64Value_urlDigit (u : UInt16) : base64Value (urlDigit u) = base64Value u := by
  rw [urlDigit]
  split
  · next h =>
    rw [h]
    decide
  · split
    · next h =>
      rw [h]
      decide
    · rfl

theorem urlDigit_ne_pad {u : UInt16} (h : u ≠ 0x3D) : urlDigit u ≠ 0x3D := by
  rw [urlDigit]
  split
  · decide
  · split
    · decide
    · exact h

theorem fromBase64_toBase64Url (bytes : Bytes) : fromBase64 (toBase64Url bytes) = bytes := by
  have hkept : ∀ u ∈ toBase64Url bytes, (u != 0x3D) = true := by
    intro u hu
    obtain ⟨v, hv, rfl⟩ := List.mem_map.mp hu
    have hv : (v != 0x3D) = true := @List.mem_takeWhile_imp _ (fun u => u != 0x3D) _ _ hv
    exact bne_iff_ne.mpr (urlDigit_ne_pad (bne_iff_ne.mp hv))
  have htake : (toBase64Url bytes).takeWhile (· != 0x3D) = toBase64Url bytes :=
    List.takeWhile_eq_self_iff.mpr hkept
  calc fromBase64 (toBase64Url bytes)
      = sextets ((toBase64Url bytes).filterMap base64Value) := by rw [fromBase64, htake]
    _ = sextets (((toBase64 bytes).takeWhile (· != 0x3D)).filterMap base64Value) := by
        rw [toBase64Url, List.filterMap_map]
        exact congrArg (fun f => sextets (List.filterMap f _)) (funext base64Value_urlDigit)
    _ = bytes := fromBase64_toBase64 bytes

/-- What is not padding is a digit. -/
theorem isBase64Unit_of_mem_toBase64 (bytes : Bytes) {u : UInt16} :
    u ∈ toBase64 bytes → u ≠ 0x3D → isBase64Unit u = true := by
  have hdigit : ∀ n, n < 64 → isBase64Unit (base64Digit n) = true :=
    fun n hn => (base64Digit_spec hn).1
  fun_induction toBase64 bytes with
  | case1 => exact fun h => absurd h List.not_mem_nil
  | case2 a =>
    have ha := a.toNat_lt
    intro h hpad
    simp only [List.mem_cons, List.not_mem_nil, or_false] at h
    obtain rfl | rfl | rfl | rfl := h
    · exact hdigit _ (by omega)
    · exact hdigit _ (by omega)
    · exact absurd rfl hpad
    · exact absurd rfl hpad
  | case3 a b =>
    have ha := a.toNat_lt
    have hb := b.toNat_lt
    intro h hpad
    simp only [List.mem_cons, List.not_mem_nil, or_false] at h
    obtain rfl | rfl | rfl | rfl := h
    · exact hdigit _ (by omega)
    · exact hdigit _ (by omega)
    · exact hdigit _ (by omega)
    · exact absurd rfl hpad
  | case4 a b c rest ih =>
    have ha := a.toNat_lt
    have hb := b.toNat_lt
    have hc := c.toNat_lt
    intro h hpad
    simp only [List.mem_cons] at h
    obtain rfl | rfl | rfl | rfl | h := h
    · exact hdigit _ (by omega)
    · exact hdigit _ (by omega)
    · exact hdigit _ (by omega)
    · exact hdigit _ (by omega)
    · exact ih h hpad

theorem isBase64UrlUnit_urlDigit {u : UInt16} (h : isBase64Unit u = true) :
    isBase64UrlUnit (urlDigit u) = true := by
  simp only [isBase64Unit, Bool.or_eq_true, beq_iff_eq] at h
  rw [urlDigit]
  split
  · rfl
  · next hplus =>
    split
    · rfl
    · next hslash =>
      rw [isBase64UrlUnit, (h.resolve_right hslash).resolve_right hplus]
      rfl

theorem isBase64UrlUnit_toBase64Url {bytes : Bytes} {u : UInt16} (h : u ∈ toBase64Url bytes) :
    isBase64UrlUnit u = true := by
  obtain ⟨v, hv, rfl⟩ := List.mem_map.mp h
  have hpad : (v != 0x3D) = true := @List.mem_takeWhile_imp _ (fun u => u != 0x3D) _ _ hv
  exact isBase64UrlUnit_urlDigit (isBase64Unit_of_mem_toBase64 bytes
    ((List.takeWhile_prefix _).subset hv) (bne_iff_ne.mp hpad))

theorem splitDots_jwt {header signature : Text} (payload : Bytes)
    (hheader : header.all isBase64UrlUnit = true) (hsignature : signature.all isBase64UrlUnit = true) :
    splitDots (jwt header payload signature) = [header, toBase64Url payload, signature] := by
  have hdot : ∀ s : Text, (∀ u ∈ s, isBase64UrlUnit u = true) → (0x2E : UInt16) ∉ s :=
    fun s hs hmem => (isBase64UrlUnit_spec (hs _ hmem)).1 rfl
  rw [splitDots, jwt, List.splitOn_append_cons_self, List.splitOn_append_cons_self,
    List.splitOn_eq_singleton (hdot _ (List.all_eq_true.mp hheader)),
    List.splitOn_eq_singleton (hdot _ fun _ => isBase64UrlUnit_toBase64Url),
    List.splitOn_eq_singleton (hdot _ (List.all_eq_true.mp hsignature))]
  rfl

/-- An expiry that a payload says. -/
def Expires (payload : Bytes) (expiresAt : ℤ) : Prop :=
  ∃ json claims, decodeUtf8 payload = some json ∧ jsonParse json = some (.object claims) ∧
    ∃ exp, Value.property claims (text "exp") = some (.number (.finite exp)) ∧
      Number.isSafeInteger (.finite exp) = true ∧ exp.num = expiresAt

theorem parseTokenExpiry_jwt {header signature : Text} {payload : Bytes} {expiresAt : ℤ}
    (hheader : header.all isBase64UrlUnit = true) (hsignature : signature.all isBase64UrlUnit = true)
    (hheaderNe : header ≠ []) (hsignatureNe : signature ≠ []) (hpayload : Expires payload expiresAt) :
    parseTokenExpiry (jwt header payload signature) = .ok expiresAt := by
  obtain ⟨json, claims, hdecode, hparse, exp, hexp, hsafe, rfl⟩ := hpayload
  have hne : toBase64Url payload ≠ [] := by
    intro hnil
    have hempty : payload = [] := by
      rw [← fromBase64_toBase64Url payload, hnil]
      rfl
    subst hempty
    obtain rfl : [] = json := Option.some.inj ((decodeUtf8_encoded []).symm.trans hdecode)
    exact absurd hparse (by simp [jsonParse, readValue, skipBlanks])
  have htoken : tokenPayload (toBase64Url payload) = some (.object claims) := by
    rw [tokenPayload, fromBase64_toBase64Url, decodeLossy_of_decodeUtf8 hdecode, hparse]
  have hparts : [header, toBase64Url payload, signature].any (·.isEmpty) = false := by
    simp [hheaderNe, hne, hsignatureNe]
  have hpart : [header, toBase64Url payload, signature].getD 1 [] = toBase64Url payload := rfl
  have hlength : [header, toBase64Url payload, signature].length = 3 := rfl
  simp only [parseTokenExpiry, splitDots_jwt payload hheader hsignature, hparts, hlength, hpart,
    htoken, hexp, hsafe, ne_eq, not_true_eq_false, decide_false, Bool.or_self, Bool.false_eq_true,
    if_false, if_true]

/-! ## Files -/

theorem trim_of_all {s : Text} (h : ∀ u ∈ s, isWhitespace u = false) : trim s = s := by
  have hdrop : ∀ t : Text, (∀ u ∈ t, isWhitespace u = false) → t.dropWhile isWhitespace = t := by
    intro t ht
    cases t with
    | nil => rfl
    | cons u t => rw [List.dropWhile_cons_of_neg (by rw [ht u List.mem_cons_self]; decide)]
  rw [trim, hdrop s h, trimEnd, hdrop _ (fun u hu => h u (List.mem_reverse.mp hu)),
    List.reverse_reverse]

/-- A key that may be given: trimmed, not empty, and no token itself. -/
structure IsKey (key : Text) : Prop where
  trimmed : trim key = key
  nonempty : key ≠ []
  notToken : (splitDots key).length ≠ 3

/-- A token that says when it expires. -/
structure IsToken (token : Text) (expiresAt : ℤ) : Prop where
  trimmed : trim token = token
  nonempty : token ≠ []
  parts : (splitDots token).length = 3
  expiry : parseTokenExpiry token = .ok expiresAt

/-- A token in three parts, whose payload says when it expires. -/
def Issued (token : Text) (expiresAt : ℤ) : Prop :=
  ∃ header payload signature, header.all isBase64UrlUnit = true ∧ header ≠ [] ∧
    signature.all isBase64UrlUnit = true ∧ signature ≠ [] ∧ Expires payload expiresAt ∧
    token = jwt header payload signature

theorem Issued.isToken {token : Text} {expiresAt : ℤ} (h : Issued token expiresAt) :
    IsToken token expiresAt := by
  obtain ⟨header, payload, signature, hheader, hheaderNe, hsignature, hsignatureNe, hpayload, rfl⟩ := h
  refine ⟨trim_of_all fun u hu => ?_, ?_, ?_,
    parseTokenExpiry_jwt hheader hsignature hheaderNe hsignatureNe hpayload⟩
  · simp only [jwt, List.mem_append, List.mem_cons] at hu
    obtain hu | rfl | hu | rfl | hu := hu
    · exact (isBase64UrlUnit_spec (List.all_eq_true.mp hheader u hu)).2
    · decide
    · exact (isBase64UrlUnit_spec (isBase64UrlUnit_toBase64Url hu)).2
    · decide
    · exact (isBase64UrlUnit_spec (List.all_eq_true.mp hsignature u hu)).2
  · simp [jwt, hheaderNe]
  · rw [splitDots_jwt payload hheader hsignature]
    rfl

/-- The record of a credential file, its members in either order. -/
def IsCredentialRecord (key token : Text) (record : List (Text × Value)) : Prop :=
  record = [(text "projectPublishableKey", .string key), (text "userAccessToken", .string token)] ∨
    record = [(text "userAccessToken", .string token), (text "projectPublishableKey", .string key)]

section Records

variable {key token : Text} {record : List (Text × Value)}

theorem sortedKeys_record (h : IsCredentialRecord key token record) :
    sortedKeys record = credentialKeys := by
  obtain rfl | rfl := h
  · exact (by decide : List.insertionSort (fun left right => left ≤ right)
      [text "projectPublishableKey", text "userAccessToken"] = credentialKeys)
  · exact (by decide : List.insertionSort (fun left right => left ≤ right)
      [text "userAccessToken", text "projectPublishableKey"] = credentialKeys)

theorem isJson_record (h : IsCredentialRecord key token record) : (Value.object record).IsJson := by
  have hstrings : ∀ p ∈ record, p.2.IsJson := by
    intro p hp
    obtain rfl | rfl := h
    all_goals
      simp only [List.mem_cons, List.not_mem_nil, or_false] at hp
      obtain rfl | rfl := hp
      · exact .string _
      · exact .string _
  refine .object ?_ ?_ hstrings
  · obtain rfl | rfl := h
    · exact (by decide : [text "projectPublishableKey", text "userAccessToken"].Nodup)
    · exact (by decide : [text "userAccessToken", text "projectPublishableKey"].Nodup)
  · obtain rfl | rfl := h
    · exact (by decide : [text "projectPublishableKey", text "userAccessToken"].Pairwise
        fun first second => precedes first second = true)
    · exact (by decide : [text "userAccessToken", text "projectPublishableKey"].Pairwise
        fun first second => precedes first second = true)

/-- What is parsed of a text that stands for the record. -/
theorem parseCredentials_record {json : Text} {expiresAt : ℤ}
    (hjson : jsonParse json = some (.object record)) (h : IsCredentialRecord key token record)
    (hkey : IsKey key) (htoken : IsToken token expiresAt) :
    parseCredentials json = .ok (⟨key, token⟩, expiresAt) := by
  have hkeyValue : Value.property record (text "projectPublishableKey") = some (.string key) := by
    obtain rfl | rfl := h
    · rfl
    · rfl
  have htokenValue : Value.property record (text "userAccessToken") = some (.string token) := by
    obtain rfl | rfl := h
    · rfl
    · rfl
  have hne : key ≠ token := by
    rintro rfl
    exact hkey.notToken htoken.parts
  have hblank : (key.isEmpty || token.isEmpty) = false := by
    simp [hkey.nonempty, htoken.nonempty]
  have hconflated : (decide (key = token) || decide ((splitDots key).length = 3)) = false := by
    rw [decide_eq_false hne, decide_eq_false hkey.notToken]
    rfl
  simp only [parseCredentials, hjson, sortedKeys_record h, hkeyValue, htokenValue, hkey.trimmed,
    htoken.trimmed, hblank, hconflated, htoken.expiry, throwIf, Bool.false_eq_true, if_false,
    ne_eq, not_true_eq_false]
  rfl

end Records

/-- A credential file that `JSON.stringify` wrote, in good time and for its owner only. -/
structure WrittenFile (fractionText : ℚ → Text) (options : LoaderOptions) (now : ℤ)
    (file : HostFile) (key token : Text) (expiresAt : ℤ) : Prop where
  isFile : file.metadata.isFile = true
  size : file.metadata.size ≤ maxCredentialBytes
  secure : file.inspected options = .ok .secure
  content : ∃ record, IsCredentialRecord key token record ∧
    file.content = encodeUtf8 (stringify fractionText (.object record))
  length : file.content.length ≤ maxCredentialBytes
  isKey : IsKey key
  issued : Issued token expiresAt
  unexpired : now / 1000 < expiresAt

/-- Such a file holds what was written. -/
theorem WrittenFile.credentials {fractionText : ℚ → Text} {options : LoaderOptions}
    {now expiresAt : ℤ} {file : HostFile} {key token : Text}
    (h : WrittenFile fractionText options now file key token expiresAt) :
    file.credentials options now = .ok ⟨key, token⟩ := by
  obtain ⟨record, hrecord, hcontent⟩ := h.content
  have hnone : ∀ q, (Value.object record).HasNumber (.finite q) → Legible fractionText q := by
    intro q hq
    cases hq with
    | @property properties p hp hnumber =>
      obtain rfl | rfl := hrecord
      all_goals
        simp only [List.mem_cons, List.not_mem_nil, or_false] at hp
        obtain rfl | rfl := hp
        · cases hnumber
        · cases hnumber
  have hdecoded : decodeLossy file.content = stringify fractionText (.object record) := by
    rw [hcontent]
    exact decodeLossy_of_decodeUtf8
      (isUtf16_stringify (isJson_record hrecord) hnone).decodeUtf8_encodeUtf8
  have hparsed := parseCredentials_record
    (jsonParse_stringify fractionText (isJson_record hrecord) hnone) hrecord h.isKey h.issued.isToken
  have hbody : file.body options = .ok (stringify fractionText (.object record)) := by
    rw [HostFile.body, h.isFile, if_neg (by decide), if_neg (Nat.not_lt.mpr h.size), h.secure,
      HostFile.permitted, HostFile.contents, if_neg (Nat.not_lt.mpr h.length), hdecoded]
  rw [HostFile.credentials, hbody]
  show (parseCredentials _ >>= _) = _
  rw [hparsed]
  exact if_neg (Int.not_le.mpr h.unexpired)

/-! ## Clients -/

theorem length_of_parseTokenExpiry {token : Text} {expiresAt : ℤ}
    (h : parseTokenExpiry token = .ok expiresAt) : (splitDots token).length = 3 := by
  by_contra hlength
  have hmalformed : parseTokenExpiry token = .error .tokenInvalid := by
    rw [parseTokenExpiry, if_pos (by rw [decide_eq_true hlength]; rfl)]
  rw [hmalformed] at h
  cases h

theorem ok_of_parseCredentials {body : Text} {credentials : LocalCredentials} {expiresAt : ℤ}
    (h : parseCredentials body = .ok (credentials, expiresAt)) :
    IsKey credentials.projectPublishableKey ∧ IsToken credentials.userAccessToken expiresAt := by
  rw [parseCredentials] at h
  split at h
  · cases h
  · split at h
    · cases h
    · split at h
      · next key token hkey htoken =>
        obtain ⟨_, hblank, h⟩ := bind_eq_ok.mp h
        obtain ⟨_, hconflated, h⟩ := bind_eq_ok.mp h
        obtain ⟨expiry, hexpiry, h⟩ := bind_eq_ok.mp h
        obtain ⟨rfl, rfl⟩ := Prod.mk.inj (Except.ok.inj h)
        obtain ⟨hkeyNe, htokenNe⟩ := Bool.or_eq_false_iff.mp (throwIf_eq_ok.mp hblank)
        obtain ⟨-, hkeyParts⟩ := Bool.or_eq_false_iff.mp (throwIf_eq_ok.mp hconflated)
        exact ⟨⟨ReadTools.trim_trim key, List.isEmpty_eq_false_iff.mp hkeyNe, of_decide_eq_false hkeyParts⟩,
          ReadTools.trim_trim token, List.isEmpty_eq_false_iff.mp htokenNe, length_of_parseTokenExpiry hexpiry,
          hexpiry⟩
      · cases h
  · cases h

/-- The client of credentials that the loader accepts. -/
theorem createFixedSupabaseClient_of_loaded {parseUrl : Text → Option ParsedUrl} {origin : Text}
    {credentials : LocalCredentials} {expiresAt : ℤ} (hkey : IsKey credentials.projectPublishableKey)
    (htoken : IsToken credentials.userAccessToken expiresAt)
    (hurl : parseUrl origin = some ⟨text "https:", origin, [], []⟩) :
    createFixedSupabaseClient parseUrl ⟨origin, credentials, none, none⟩ =
      .ok ⟨origin, credentials.projectPublishableKey, credentials.userAccessToken,
        defaultMaxResponseBytes⟩ := by
  have hne : credentials.projectPublishableKey ≠ credentials.userAccessToken := by
    intro heq
    exact hkey.notToken (heq ▸ htoken.parts)
  have hkeyEmpty : credentials.projectPublishableKey.isEmpty = false :=
    List.isEmpty_eq_false_iff.mpr hkey.nonempty
  have htokenEmpty : credentials.userAccessToken.isEmpty = false :=
    List.isEmpty_eq_false_iff.mpr htoken.nonempty
  have hbounds : (!boundedInteger (defaultTimeoutMs : ℕ) maxTimeoutMs ||
      !boundedInteger (defaultMaxResponseBytes : ℕ) maxResponseBytes) = false := by decide
  have hbytes : (Number.ofNat defaultMaxResponseBytes).toNat = defaultMaxResponseBytes := by
    decide
  simp only [createFixedSupabaseClient, hurl, hkey.trimmed, htoken.trimmed, hkeyEmpty,
    htokenEmpty, decide_eq_false hne, decide_eq_false hkey.notToken, htoken.parts, throwIf,
    ne_eq, not_true_eq_false, decide_false, Bool.or_self, Bool.false_eq_true, if_false,
    Option.getD_none, hbounds, Js.ok_bind]
  exact congrArg (fun bytes => Except.ok (FixedSupabaseClient.mk _ _ _ bytes)) hbytes

/-- What the loader accepts the client accepts: in every run, credentials that are returned make
a client of any https origin, with the key and the token as they were returned. -/
theorem loadLocalCredentials_makes_client (options : LoaderOptions) (path : Text) :
    Ensures (loadLocalCredentials options path) fun _ result => ∀ credentials,
      result = .ok credentials → ∀ (parseUrl : Text → Option ParsedUrl) (origin : Text),
        parseUrl origin = some ⟨text "https:", origin, [], []⟩ →
        createFixedSupabaseClient parseUrl ⟨origin, credentials, none, none⟩ =
          .ok ⟨origin, credentials.projectPublishableKey, credentials.userAccessToken,
            defaultMaxResponseBytes⟩ := by
  refine (ensures_of_keeps (keeps_loadLocalCredentials options path)).mono ?_
  intro trace result hends credentials hresult parseUrl origin hurl
  obtain ⟨-, expiresAt, -, -, -, hparsed⟩ := hends.1.2 credentials hresult
  obtain ⟨hkey, htoken⟩ := ok_of_parseCredentials hparsed
  exact createFixedSupabaseClient_of_loaded hkey htoken hurl

/-- A file that was written is loaded as what was written, in whatever pieces it is read,
and a client of an https origin can be made of it. -/
theorem written_file_round_trip (fractionText : ℚ → Text) (options : LoaderOptions) (path : Text)
    (now expiresAt : ℤ) (file : HostFile) (key token : Text) (parseUrl : Text → Option ParsedUrl)
    (origin : Text) (h : WrittenFile fractionText options now file key token expiresAt)
    (hurl : parseUrl origin = some ⟨text "https:", origin, [], []⟩) :
    (∀ trace result, Runs (loadLocalCredentials options path) trace result →
      file.Delivers now 0 trace → result = .ok ⟨key, token⟩) ∧
    createFixedSupabaseClient parseUrl ⟨origin, ⟨key, token⟩, none, none⟩ =
      .ok ⟨origin, key, token, defaultMaxResponseBytes⟩ := by
  refine ⟨fun trace result hrun hdelivers => ?_,
    createFixedSupabaseClient_of_loaded h.isKey h.issued.isToken hurl⟩
  rw [← h.credentials]
  exact ensures_loadLocalCredentials options path trace result hrun hdelivers

/-! ## A lab -/

def labClaims : List (Text × Value) := [(text "exp", .number (4102444800 : ℕ))]

def labPayload : Bytes := encodeUtf8 (stringify (fun _ => []) (.object labClaims))

def labToken : Text := jwt (text "eyJhbGciOiJFUzI1NiJ9") labPayload (text "c2lnbmF0dXJl")

def labKey : Text := text "sb_publishable_lab"

/-- A file with the members in the order of their names' lengths. -/
def labFile : HostFile where
  metadata := ⟨true, 200, 0o600, 1000⟩
  permission := .error ()
  content := encodeUtf8 (stringify (fun _ => []) (.object
    [(text "userAccessToken", .string labToken), (text "projectPublishableKey", .string labKey)]))

def labLoader : LoaderOptions := ⟨⟨false, some 1000⟩, false⟩

theorem issued_labToken : Issued labToken 4102444800 := by
  have hjson : (Value.object labClaims).IsJson := by
    refine .object (by decide) (List.pairwise_singleton _ _) fun p hp => ?_
    rw [List.mem_singleton.mp hp]
    exact .number _
  have hlegible : ∀ q, (Value.object labClaims).HasNumber (.finite q) →
      Legible (fun _ => []) q := by
    intro q hq
    cases hq with
    | property hp hnumber =>
      obtain rfl := List.mem_singleton.mp hp
      cases hnumber
      exact legible_intCast _ (n := 4102444800) (by decide)
  have hascii : (stringify (fun _ => []) (.object labClaims)).all isAscii = true := by
    decide
  refine ⟨_, labPayload, _, by decide, by decide, by decide, by decide, ⟨_, labClaims,
    (IsUtf16.ascii hascii).decodeUtf8_encodeUtf8, jsonParse_stringify _ hjson hlegible, _, rfl,
    by decide, rfl⟩, rfl⟩

theorem writtenFile_labFile :
    WrittenFile (fun _ => []) labLoader 1893456000000 labFile labKey labToken 4102444800 where
  isFile := rfl
  size := by decide
  secure := by decide
  content := ⟨_, .inr rfl, rfl⟩
  length := by decide +kernel
  isKey := ⟨by decide, by decide, by decide⟩
  issued := issued_labToken
  unexpired := by decide

theorem written_file_round_trip_labFile :
    (∀ trace result, Runs (loadLocalCredentials labLoader (text "/run/credentials")) trace result →
      labFile.Delivers 1893456000000 0 trace → result = .ok ⟨labKey, labToken⟩) ∧
    createFixedSupabaseClient (fun origin => some ⟨text "https:", origin, [], []⟩)
        ⟨text "https://lab.supabase.co", ⟨labKey, labToken⟩, none, none⟩ =
      .ok ⟨text "https://lab.supabase.co", labKey, labToken, defaultMaxResponseBytes⟩ :=
  written_file_round_trip (fun _ => []) labLoader _ 1893456000000 4102444800 labFile labKey labToken _
    _ writtenFile_labFile rfl

theorem exists_loaded_labFile :
    ∃ trace, Runs (loadLocalCredentials labLoader (text "/run/credentials")) trace
      (.ok ⟨labKey, labToken⟩) := by
  obtain ⟨trace, result, hrun, hdelivers, -⟩ := @exists_delivers labFile 1893456000000
    ⟨false, [], true, 200, none, none⟩ _ (loadLocalCredentials labLoader (text "/run/credentials")) 0
  have hresult := ensures_loadLocalCredentials labLoader _ trace result hrun hdelivers
  rw [writtenFile_labFile.credentials] at hresult
  exact ⟨trace, hresult ▸ hrun⟩

theorem loadLocalCredentials_disciplined_labFile :
    ∃ trace, Runs (loadLocalCredentials labLoader (text "/run/credentials")) trace
        (.ok ⟨labKey, labToken⟩) ∧
      Loaded labLoader (text "/run/credentials") trace ⟨labKey, labToken⟩ := by
  obtain ⟨trace, hrun⟩ := exists_loaded_labFile
  exact ⟨trace, hrun, (loadLocalCredentials_disciplined _ _ trace _ hrun).1.2 _ rfl⟩

theorem loadLocalCredentials_makes_client_labFile :
    ∃ trace, Runs (loadLocalCredentials labLoader (text "/run/credentials")) trace
        (.ok ⟨labKey, labToken⟩) ∧
      createFixedSupabaseClient (fun origin => some ⟨text "https:", origin, [], []⟩)
          ⟨text "https://lab.supabase.co", ⟨labKey, labToken⟩, none, none⟩ =
        .ok ⟨text "https://lab.supabase.co", labKey, labToken, defaultMaxResponseBytes⟩ := by
  obtain ⟨trace, hrun⟩ := exists_loaded_labFile
  exact ⟨trace, hrun, loadLocalCredentials_makes_client _ _ trace _ hrun _ rfl _ _ rfl⟩

end Startup
