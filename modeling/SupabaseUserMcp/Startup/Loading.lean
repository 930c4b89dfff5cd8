import SupabaseUserMcp.Process.History
import SupabaseUserMcp.Startup

/- Loading a credential file. A handle that is opened is closed, nothing is read before the
   permissions are known to be secure, and what is loaded is a function of the file and the
   clock, in whatever pieces the file is read. -/
namespace Startup

open Js
open Process (Ensures Exchange Keeps Runs ensures_ask ensures_bind ensures_done ensures_of_keeps
  keeps_bind)

/-! ## Histories -/

abbrev History : Type := List (Exchange Request Reply)

def Opened (history : History) : Prop :=
  ∃ path noFollow, (⟨.openFile path noFollow, .ok ()⟩ : Exchange Request Reply) ∈ history

def Closed (history : History) : Prop := (⟨.closeFile, ()⟩ : Exchange Request Reply) ∈ history

def chunkOf : Exchange Request Reply → Bytes
  | ⟨.read _, .ok chunk⟩ => chunk.1
  | _ => []

def bytesRead (history : History) : Bytes := history.flatMap chunkOf

/-- The handle is of a small regular file that only its owner may open. -/
def Protected (options : LoaderOptions) (path : Text) (history : History) : Prop :=
  ∃ metadata, (⟨.stat, .ok metadata⟩ : Exchange Request Reply) ∈ history ∧
    metadata.isFile = true ∧ metadata.size ≤ maxCredentialBytes ∧
    if options.permissionInspector then
      (⟨.inspectPermission path metadata.mode metadata.uid, .ok .secure⟩ :
        Exchange Request Reply) ∈ history
    else defaultPermissionInspector options.host metadata.mode metadata.uid = .secure

/-- The last of the reads asked for bytes and got none. -/
def EndSeen (history : History) : Prop :=
  ∃ before limit chunk after, history = before ++ ⟨.read limit, .ok chunk⟩ :: after ∧ 0 < limit ∧
    chunk.1 = [] ∧ ∀ x ∈ after, ∀ n, x.request ≠ .read n

/-- A protected file was read to its end. -/
structure ReadWhole (options : LoaderOptions) (path : Text) (history : History) : Prop where
  isProtected : Protected options path history
  endSeen : EndSeen history
  bounded : (bytesRead history).length ≤ maxCredentialBytes

/-- Credentials that were read whole from a protected file, and whose token has not
expired. -/
def Loaded (options : LoaderOptions) (path : Text) (history : History)
    (credentials : LocalCredentials) : Prop :=
  ReadWhole options path history ∧
    ∃ expiresAt now, (⟨.now, now⟩ : Exchange Request Reply) ∈ history ∧ now / 1000 < expiresAt ∧
      parseCredentials (decodeLossy (bytesRead history)) = .ok (credentials, expiresAt)

/-- What the loader may ask for. -/
def LoaderAllowed (options : LoaderOptions) (path : Text) (history : History) : Request → Prop
  | .openFile name noFollow => history = [] ∧ name = path ∧ noFollow = !options.host.windows
  | .stat | .closeFile => Opened history ∧ ¬ Closed history
  | .inspectPermission name _ _ => Opened history ∧ ¬ Closed history ∧ name = path
  | .read limit => Opened history ∧ ¬ Closed history ∧ Protected options path history ∧
      (bytesRead history).length + limit = maxCredentialBytes + 1
  | .now => Closed history
  | _ => False

section Histories

variable {options : LoaderOptions} {path : Text} {history : History} {x : Exchange Request Reply}

theorem Opened.append (h : Opened history) : Opened (history ++ [x]) := by
  obtain ⟨name, noFollow, hmem⟩ := h
  exact ⟨name, noFollow, List.mem_append_left _ hmem⟩

theorem Protected.append (h : Protected options path history) :
    Protected options path (history ++ [x]) := by
  obtain ⟨metadata, hstat, hfile, hsize, hsecure⟩ := h
  refine ⟨metadata, List.mem_append_left _ hstat, hfile, hsize, ?_⟩
  split at hsecure
  · next hinspector =>
    rw [if_pos hinspector]
    exact List.mem_append_left _ hsecure
  · next hinspector =>
    rw [if_neg hinspector]
    exact hsecure

theorem not_closed_append (h : ¬ Closed history) (hx : x.request ≠ .closeFile) :
    ¬ Closed (history ++ [x]) := by
  intro hclosed
  obtain hmem | hmem := List.mem_append.mp hclosed
  · exact h hmem
  · rw [List.mem_singleton] at hmem
    exact hx (congrArg Exchange.request hmem).symm

@[simp] theorem bytesRead_append (first rest : History) :
    bytesRead (first ++ rest) = bytesRead first ++ bytesRead rest := List.flatMap_append

theorem bytesRead_append_of_ne (hx : ∀ n, x.request ≠ .read n) :
    bytesRead (history ++ [x]) = bytesRead history := by
  have hchunk : chunkOf x = [] := by
    obtain ⟨request, reply⟩ := x
    cases request with
    | read limit => exact absurd rfl (hx limit)
    | _ => rfl
  rw [bytesRead_append, bytesRead, bytesRead, List.flatMap_singleton, hchunk, List.append_nil]

theorem EndSeen.append (h : EndSeen history) (hx : ∀ n, x.request ≠ .read n) :
    EndSeen (history ++ [x]) := by
  obtain ⟨before, limit, chunk, after, rfl, hlimit, hchunk, hafter⟩ := h
  refine ⟨before, limit, chunk, after ++ [x], by simp, hlimit, hchunk, ?_⟩
  rw [List.forall_mem_append, List.forall_mem_singleton]
  exact ⟨hafter, hx⟩

theorem ReadWhole.append (h : ReadWhole options path history) (hx : ∀ n, x.request ≠ .read n) :
    ReadWhole options path (history ++ [x]) := by
  refine ⟨h.isProtected.append, h.endSeen.append hx, ?_⟩
  rw [bytesRead_append_of_ne hx]
  exact h.bounded

end Histories

/-! ## Discipline -/

/-- The handle is open, of a protected file. -/
structure Reading (options : LoaderOptions) (path : Text) (history : History) : Prop where
  opened : Opened history
  notClosed : ¬ Closed history
  isProtected : Protected options path history

section Discipline

variable {options : LoaderOptions} {path : Text}

theorem Reading.append {history : History} {x : Exchange Request Reply}
    (h : Reading options path history) (hx : x.request ≠ .closeFile) :
    Reading options path (history ++ [x]) :=
  ⟨h.opened.append, not_closed_append h.notClosed hx, h.isProtected.append⟩

theorem keeps_readFile (bytes : Bytes) (hlength : bytes.length ≤ maxCredentialBytes + 1) :
    ∀ {history : History}, Reading options path history → bytesRead history = bytes →
    Keeps (LoaderAllowed options path) (fun history result => Opened history ∧ ¬ Closed history ∧
      ∀ bytes, result = .ok bytes → Protected options path history ∧ bytesRead history = bytes ∧
        (bytes.length ≤ maxCredentialBytes → EndSeen history))
      history (readFile bytes) := by
  induction bytes using readFile.induct with
  | case1 bytes hshort ih =>
    intro history hreading hbytes
    rw [readFile, if_pos hshort]
    refine ⟨⟨hreading.opened, hreading.notClosed, hreading.isProtected, ?_⟩, fun reply => ?_⟩
    · rw [hbytes]
      omega
    · have hnext := hreading.append (x := ⟨.read _, reply⟩) (by simp)
      cases reply with
      | error e => exact ⟨hnext.opened, hnext.notClosed, fun _ h => by cases h⟩
      | ok chunk =>
        dsimp only
        have hread : bytesRead (history ++ [⟨.read _, .ok chunk⟩]) = bytes ++ chunk.1 := by
          rw [bytesRead_append, hbytes]
          exact congrArg _ (List.append_nil _)
        split
        · next hnil =>
          refine ⟨hnext.opened, hnext.notClosed, fun all hall => ⟨hnext.isProtected, ?_, fun _ => ?_⟩⟩
          · rw [hread, hnil, List.append_nil]
            exact Except.ok.inj hall
          · exact ⟨history, _, chunk, [], rfl, by omega, hnil, List.forall_mem_nil _⟩
        · next hnil =>
          refine ih chunk hnil ?_ hnext hread
          have hchunk := chunk.2
          rw [List.length_append]
          omega
  | case2 bytes hfull =>
    intro history hreading hbytes
    rw [readFile, if_neg hfull]
    refine ⟨hreading.opened, hreading.notClosed, fun all hall => ?_⟩
    obtain rfl := Except.ok.inj hall
    exact ⟨hreading.isProtected, hbytes, fun hle => by omega⟩

/-- The body is that of a protected file, read whole. -/
def BodyRead (options : LoaderOptions) (path : Text) (history : History)
    (result : Except LocalCredentialErrorCode Text) : Prop :=
  Opened history ∧ ¬ Closed history ∧ ∀ body, result = .ok body →
    ReadWhole options path history ∧ decodeLossy (bytesRead history) = body

theorem bodyRead_error {history : History} {code : LocalCredentialErrorCode}
    (hopened : Opened history) (hclosed : ¬ Closed history) :
    BodyRead options path history (.error code) :=
  ⟨hopened, hclosed, fun _ h => by cases h⟩

theorem keeps_readContents {history : History} (hreading : Reading options path history)
    (hbytes : bytesRead history = []) :
    Keeps (LoaderAllowed options path) (BodyRead options path) history readContents := by
  refine keeps_bind ((keeps_readFile [] (Nat.zero_le _) hreading hbytes).mono fun later result h => ?_)
  obtain ⟨hopened, hclosed, hread⟩ := h
  cases result with
  | error code => exact bodyRead_error hopened hclosed
  | ok bytes =>
    obtain ⟨hprotected, rfl, hend⟩ := hread bytes rfl
    dsimp only
    split
    · exact bodyRead_error hopened hclosed
    · next hshort =>
      have hbounded := Nat.le_of_not_lt hshort
      exact ⟨hopened, hclosed, fun body hbody =>
        ⟨⟨hprotected, hend hbounded, hbounded⟩, Except.ok.inj hbody⟩⟩

/-- Where the permissions are secure the handle is of a protected file. -/
theorem keeps_readPermitted {history : History} {permission : Except Unit PermissionInspection}
    (hopened : Opened history) (hclosed : ¬ Closed history) (hbytes : bytesRead history = [])
    (hsecure : permission = .ok .secure → Protected options path history) :
    Keeps (LoaderAllowed options path) (BodyRead options path) history
      (readPermitted permission) := by
  cases permission with
  | error e => exact bodyRead_error hopened hclosed
  | ok inspection =>
    cases inspection with
    | secure => exact keeps_readContents ⟨hopened, hclosed, hsecure rfl⟩ hbytes
    | insecure => exact bodyRead_error hopened hclosed
    | unsupported => exact bodyRead_error hopened hclosed

theorem keeps_readBody {history : History} (hopened : Opened history) (hclosed : ¬ Closed history)
    (hbytes : bytesRead history = []) :
    Keeps (LoaderAllowed options path) (BodyRead options path) history
      (readBody options path) := by
  refine ⟨⟨hopened, hclosed⟩, fun reply => ?_⟩
  have hopened := hopened.append (x := ⟨.stat, reply⟩)
  have hclosed := not_closed_append hclosed (x := ⟨.stat, reply⟩) (by simp)
  have hbytes : bytesRead (history ++ [⟨.stat, reply⟩]) = [] := by
    rw [bytesRead_append, hbytes]
    rfl
  cases reply with
  | error e => exact bodyRead_error hopened hclosed
  | ok metadata =>
    have hstat : (⟨.stat, .ok metadata⟩ : Exchange Request Reply) ∈
        history ++ [⟨.stat, .ok metadata⟩] := List.mem_append_right _ (List.mem_singleton_self _)
    show Keeps _ _ _ (if (!metadata.isFile) = true then _ else if _ then _ else
      inspectPermission options path metadata >>= readPermitted)
    split
    · exact bodyRead_error hopened hclosed
    · next hfile =>
      split
      · exact bodyRead_error hopened hclosed
      · next hsize =>
        have hfile : metadata.isFile = true := by simpa using hfile
        refine keeps_bind ?_
        rw [inspectPermission]
        split
        · next hinspector =>
          refine ⟨⟨hopened, hclosed, rfl⟩, fun reply => keeps_readPermitted hopened.append
            (not_closed_append hclosed (by simp)) ?_ fun hsecure => ?_⟩
          · rw [bytesRead_append, hbytes]
            rfl
          · refine ⟨metadata, List.mem_append_left _ hstat, hfile, Nat.le_of_not_lt hsize, ?_⟩
            obtain rfl : reply = .ok .secure := hsecure
            rw [if_pos hinspector]
            exact List.mem_append_right _ (List.mem_singleton_self _)
        · next hinspector =>
          refine keeps_readPermitted hopened hclosed hbytes fun hsecure => ?_
          refine ⟨metadata, hstat, hfile, Nat.le_of_not_lt hsize, ?_⟩
          rw [if_neg hinspector]
          exact Except.ok.inj hsecure

/-- What is so after a loader: the handle is closed, and what is loaded was read so. -/
def LoaderEnds (options : LoaderOptions) (path : Text) (history : History)
    (result : Except LocalCredentialErrorCode LocalCredentials) : Prop :=
  (Opened history → Closed history) ∧
    ∀ credentials, result = .ok credentials → Loaded options path history credentials

theorem keeps_acceptCredentials {history : History} {body : Except LocalCredentialErrorCode Text}
    (hclosed : Closed history) (hbody : ∀ text, body = .ok text →
      ReadWhole options path history ∧ decodeLossy (bytesRead history) = text) :
    Keeps (LoaderAllowed options path) (LoaderEnds options path) history
      (acceptCredentials (body >>= parseCredentials)) := by
  have herror : ∀ {later : History} {code : LocalCredentialErrorCode}, Closed later →
      LoaderEnds options path later (.error code) :=
    fun hclosed => ⟨fun _ => hclosed, fun _ h => by cases h⟩
  cases hparsed : body >>= parseCredentials with
  | error code => exact herror hclosed
  | ok parsed =>
    obtain ⟨credentials, expiresAt⟩ := parsed
    obtain ⟨text, htext, hcredentials⟩ := bind_eq_ok.mp hparsed
    obtain ⟨hwhole, rfl⟩ := hbody text htext
    refine ⟨hclosed, fun now => ?_⟩
    have hclosed : Closed (history ++ [⟨.now, now⟩]) := List.mem_append_left _ hclosed
    have hnotRead : ∀ n, (⟨.now, now⟩ : Exchange Request Reply).request ≠ .read n := by simp
    show Keeps _ _ _ (if expiresAt ≤ now / 1000 then _ else _)
    split
    · exact herror hclosed
    · next hunexpired =>
      refine ⟨fun _ => hclosed, fun loaded hloaded => ⟨hwhole.append hnotRead, expiresAt, now, ?_⟩⟩
      obtain rfl := Except.ok.inj hloaded
      rw [bytesRead_append_of_ne hnotRead]
      exact ⟨List.mem_append_right _ (List.mem_singleton_self _), Int.not_le.mp hunexpired,
        hcredentials⟩

theorem keeps_loadLocalCredentials (options : LoaderOptions) (path : Text) :
    Keeps (LoaderAllowed options path) (LoaderEnds options path) []
      (loadLocalCredentials options path) := by
  refine ⟨⟨rfl, rfl, rfl⟩, fun reply => ?_⟩
  cases reply with
  | error e =>
    have hunopened : ∀ code, LoaderEnds options path
        [⟨.openFile path (!options.host.windows), .error e⟩] (.error code) := by
      refine fun code => ⟨fun hopened => ?_, fun _ h => by cases h⟩
      obtain ⟨name, noFollow, hmem⟩ := hopened
      cases List.mem_singleton.mp hmem
    cases e with
    | missing => exact hunopened _
    | loop => exact hunopened _
    | other => exact hunopened _
  | ok u =>
    have hopened : Opened [⟨.openFile path (!options.host.windows), .ok u⟩] :=
      ⟨_, _, List.mem_singleton_self _⟩
    have hclosed : ¬ Closed [⟨.openFile path (!options.host.windows), .ok u⟩] := by
      intro h
      cases List.mem_singleton.mp h
    have hbody := @keeps_readBody options path _ hopened hclosed rfl
    refine keeps_bind (p := readBody options path) (hbody.mono fun history body hbody => ?_)
    obtain ⟨hopened, hclosed, hread⟩ := hbody
    refine ⟨⟨hopened, hclosed⟩, fun _ => keeps_acceptCredentials
      (List.mem_append_right _ (List.mem_singleton_self _)) fun text htext => ?_⟩
    obtain ⟨hwhole, hdecoded⟩ := hread text htext
    have hnotRead : ∀ n, (⟨.closeFile, ()⟩ : Exchange Request Reply).request ≠ .read n := by simp
    rw [bytesRead_append_of_ne hnotRead]
    exact ⟨hwhole.append hnotRead, hdecoded⟩

end Discipline

/-! ## Files -/

/-- A file, and what an inspection of its permissions says. -/
structure HostFile where
  metadata : Metadata
  permission : Except Unit PermissionInspection
  content : Bytes

namespace HostFile

variable (file : HostFile)

/-- The replies of a host that has the file and the clock, from a position on. A read
returns some of what is left, and nothing only where nothing is left. -/
def Delivers (now : ℤ) : ℕ → History → Prop
  | _, [] => True
  | position, ⟨.openFile _ _, reply⟩ :: rest => reply = .ok () ∧ Delivers now position rest
  | position, ⟨.stat, reply⟩ :: rest => reply = .ok file.metadata ∧ Delivers now position rest
  | position, ⟨.inspectPermission _ _ _, reply⟩ :: rest =>
    reply = file.permission ∧ Delivers now position rest
  | position, ⟨.read limit, reply⟩ :: rest => ∃ chunk, reply = .ok chunk ∧
      chunk.1 <+: file.content.drop position ∧
      (0 < limit → chunk.1 = [] → file.content.drop position = []) ∧
      Delivers now (position + chunk.1.length) rest
  | position, ⟨.now, reply⟩ :: rest => reply = now ∧ Delivers now position rest
  | position, _ :: rest => Delivers now position rest

/-- What an inspector says of it. -/
def inspected (options : LoaderOptions) : Except Unit PermissionInspection :=
  if options.permissionInspector then file.permission
  else .ok (defaultPermissionInspector options.host file.metadata.mode file.metadata.uid)

def contents : Except LocalCredentialErrorCode Text :=
  if maxCredentialBytes < file.content.length then .error .fileTooLarge
  else .ok (decodeLossy file.content)

def permitted : Except Unit PermissionInspection → Except LocalCredentialErrorCode Text
  | .error _ | .ok .unsupported => .error .permissionCheckUnsupported
  | .ok .insecure => .error .insecurePermissions
  | .ok .secure => file.contents

/-- What there is of it to be parsed. -/
def body (options : LoaderOptions) : Except LocalCredentialErrorCode Text :=
  if !file.metadata.isFile then .error .notFile
  else if maxCredentialBytes < file.metadata.size then .error .fileTooLarge
  else file.permitted (file.inspected options)

/-- The credentials of a file at a time. -/
def credentials (options : LoaderOptions) (now : ℤ) :
    Except LocalCredentialErrorCode LocalCredentials := do
  let parsed ← file.body options >>= parseCredentials
  if parsed.2 ≤ now / 1000 then .error .tokenExpired else .ok parsed.1

end HostFile

section Exactness

variable {file : HostFile} {now : ℤ} {options : LoaderOptions} {path : Text}

theorem delivers_append {position : ℕ} {first rest : History} :
    file.Delivers now position (first ++ rest) ↔ file.Delivers now position first ∧
      file.Delivers now (position + (bytesRead first).length) rest := by
  induction first generalizing position with
  | nil => exact (and_iff_right trivial).symm
  | cons x first ih =>
    obtain ⟨request, reply⟩ := x
    cases request with
    | read limit =>
      simp only [List.cons_append, HostFile.Delivers, ih]
      constructor
      · intro h
        obtain ⟨chunk, rfl, hread, hend, hfirst, hrest⟩ := h
        refine ⟨⟨chunk, rfl, hread, hend, hfirst⟩, ?_⟩
        rw [Nat.add_assoc] at hrest
        rwa [show bytesRead (_ :: first) = chunk.1 ++ bytesRead first from rfl, List.length_append]
      · intro h
        obtain ⟨⟨chunk, rfl, hread, hend, hfirst⟩, hrest⟩ := h
        refine ⟨chunk, rfl, hread, hend, hfirst, ?_⟩
        rw [Nat.add_assoc]
        rwa [show bytesRead (_ :: first) = chunk.1 ++ bytesRead first from rfl,
          List.length_append] at hrest
    | openFile _ _ | stat | inspectPermission _ _ _ | now =>
      simp only [List.cons_append, HostFile.Delivers, ih, and_assoc]
      rfl
    | _ =>
      simp only [List.cons_append, HostFile.Delivers, ih]
      rfl

/-- In whatever pieces a file is read, the buffer holds its beginning. -/
theorem ensures_readFile (bytes : Bytes) (hread : bytes <+: file.content)
    (hlength : bytes.length ≤ maxCredentialBytes + 1) : Ensures (readFile bytes) fun trace result =>
      file.Delivers now bytes.length trace →
        result = .ok (file.content.take (maxCredentialBytes + 1)) := by
  induction bytes using readFile.induct with
  | case1 bytes hshort ih =>
    obtain ⟨rest, hrest⟩ := hread
    have hdrop : file.content.drop bytes.length = rest := by rw [← hrest, List.drop_left]
    rw [readFile, if_pos hshort]
    refine ensures_ask.mpr fun reply => ?_
    cases reply with
    | error e =>
      refine ensures_done.mpr fun h => ?_
      obtain ⟨chunk, hchunk, -⟩ := h
      cases hchunk
    | ok chunk =>
      dsimp only
      split
      · next hnil =>
        refine ensures_done.mpr fun h => ?_
        obtain ⟨other, hother, -, hend, -⟩ := h
        obtain rfl : chunk = other := Except.ok.inj hother
        rw [hend (by omega) hnil] at hdrop
        rw [← hrest, ← hdrop, List.append_nil, List.take_of_length_le (by omega)]
      · next hnil =>
        intro trace result hrun h
        obtain ⟨other, hother, hchunk, -, hdelivers⟩ := h
        obtain rfl : chunk = other := Except.ok.inj hother
        have hlimit := chunk.2
        refine ih chunk hnil ?_ ?_ trace result hrun ?_
        · rw [hdrop] at hchunk
          rw [← hrest]
          exact (List.prefix_append_right_inj bytes).mpr hchunk
        · rw [List.length_append]
          omega
        · rw [List.length_append]
          exact hdelivers
  | case2 bytes hfull =>
    rw [readFile, if_neg hfull]
    refine ensures_done.mpr fun _ => ?_
    rw [List.prefix_iff_eq_take.mp hread, show bytes.length = maxCredentialBytes + 1 by omega]

theorem ensures_readContents : Ensures readContents fun trace result =>
    file.Delivers now 0 trace → result = file.contents := by
  have hread := @ensures_readFile file now [] List.nil_prefix (Nat.zero_le _)
  refine ensures_bind.mpr (hread.mono fun first bytes hbytes rest result hrun h => ?_)
  obtain rfl := hbytes (delivers_append.mp h).1
  have hlength : maxCredentialBytes < (file.content.take (maxCredentialBytes + 1)).length ↔
      maxCredentialBytes < file.content.length := by
    rw [List.length_take]
    omega
  rw [HostFile.contents]
  dsimp only at hrun
  split at hrun
  · next hlong =>
    rw [if_pos (hlength.mp hlong)]
    exact (Process.runs_done.mp hrun).2
  · next hshort =>
    rw [if_neg (hlength.not.mp hshort)]
    rw [List.take_of_length_le (by omega)] at hrun
    exact (Process.runs_done.mp hrun).2

theorem ensures_readPermitted (permission : Except Unit PermissionInspection) :
    Ensures (readPermitted permission) fun trace result =>
      file.Delivers now 0 trace → result = file.permitted permission := by
  cases permission with
  | error e => exact ensures_done.mpr fun _ => rfl
  | ok inspection =>
    cases inspection with
    | secure => exact ensures_readContents
    | insecure => exact ensures_done.mpr fun _ => rfl
    | unsupported => exact ensures_done.mpr fun _ => rfl

theorem ensures_readBody (options : LoaderOptions) (path : Text) :
    Ensures (readBody options path) fun trace result =>
      file.Delivers now 0 trace → result = file.body options := by
  refine ensures_ask.mpr fun reply trace result hrun h => ?_
  obtain ⟨rfl, h⟩ := h
  change Runs (if (!file.metadata.isFile) = true then _ else if _ then _ else
    inspectPermission options path file.metadata >>= readPermitted) trace result at hrun
  rw [HostFile.body]
  split at hrun
  · next hfile =>
    rw [if_pos hfile]
    exact (Process.runs_done.mp hrun).2
  · next hfile =>
    rw [if_neg hfile]
    split at hrun
    · next hsize =>
      rw [if_pos hsize]
      exact (Process.runs_done.mp hrun).2
    · next hsize =>
      rw [if_neg hsize]
      rw [inspectPermission] at hrun
      rw [HostFile.inspected]
      split at hrun
      · next hinspector =>
        rw [if_pos hinspector]
        obtain ⟨reply, rest, rfl, hrest⟩ := Process.runs_ask.mp hrun
        obtain ⟨rfl, h⟩ := h
        exact ensures_readPermitted _ rest result hrest h
      · next hinspector =>
        rw [if_neg hinspector]
        exact ensures_readPermitted _ trace result hrun h

theorem ensures_loadLocalCredentials (options : LoaderOptions) (path : Text) :
    Ensures (loadLocalCredentials options path) fun trace result =>
      file.Delivers now 0 trace → result = file.credentials options now := by
  refine ensures_ask.mpr fun reply trace result hrun h => ?_
  obtain ⟨rfl, h⟩ := h
  obtain ⟨first, body, rest, rfl, hbody, hrest⟩ :=
    Process.runs_bind (p := readBody options path) |>.mp hrun
  obtain ⟨hfirst, hdelivers⟩ := delivers_append.mp h
  obtain rfl := ensures_readBody options path first body hbody hfirst
  obtain ⟨u, tail, rfl, htail⟩ := Process.runs_ask.mp hrest
  change Runs (acceptCredentials (file.body options >>= parseCredentials)) tail result at htail
  rw [HostFile.credentials]
  cases hparsed : file.body options >>= parseCredentials with
  | error code =>
    rw [hparsed] at htail
    exact (Process.runs_done.mp htail).2
  | ok parsed =>
    rw [hparsed] at htail
    obtain ⟨reply, last, rfl, hlast⟩ := Process.runs_ask.mp htail
    obtain ⟨rfl, -⟩ := hdelivers
    change Runs (if parsed.2 ≤ reply / 1000 then _ else _) last result at hlast
    show result = if parsed.2 ≤ reply / 1000 then _ else _
    split at hlast
    · next hexpired =>
      rw [if_pos hexpired]
      exact (Process.runs_done.mp hlast).2
    · next hunexpired =>
      rw [if_neg hunexpired]
      exact (Process.runs_done.mp hlast).2

/-- An origin that answers with a response, and a transport that comes up. -/
def Answers (upstream : Upstream) : Exchange Request Reply → Prop
  | ⟨.fetch _ _, reply⟩ => reply = .ok upstream
  | ⟨.serveStdio, reply⟩ => reply = .ok ()
  | _ => True

/-- A host that has the file answers every request, and so does such an origin. -/
theorem exists_delivers (upstream : Upstream) {α : Type} (p : Hosted α) (position : ℕ) :
    ∃ trace a, Runs p trace a ∧ file.Delivers now position trace ∧
      ∀ x ∈ trace, Answers upstream x := by
  induction p generalizing position with
  | done a => exact ⟨[], a, .done a, trivial, List.forall_mem_nil _⟩
  | ask request next ih =>
    cases request with
    | openFile _ _ =>
      obtain ⟨trace, a, hrun, h, hall⟩ := ih (.ok ()) position
      exact ⟨_, a, .ask hrun, ⟨rfl, h⟩, List.forall_mem_cons.mpr ⟨trivial, hall⟩⟩
    | stat =>
      obtain ⟨trace, a, hrun, h, hall⟩ := ih (.ok file.metadata) position
      exact ⟨_, a, .ask hrun, ⟨rfl, h⟩, List.forall_mem_cons.mpr ⟨trivial, hall⟩⟩
    | inspectPermission _ _ _ =>
      obtain ⟨trace, a, hrun, h, hall⟩ := ih file.permission position
      exact ⟨_, a, .ask hrun, ⟨rfl, h⟩, List.forall_mem_cons.mpr ⟨trivial, hall⟩⟩
    | now =>
      obtain ⟨trace, a, hrun, h, hall⟩ := ih now position
      exact ⟨_, a, .ask hrun, ⟨rfl, h⟩, List.forall_mem_cons.mpr ⟨trivial, hall⟩⟩
    | read limit =>
      let chunk : { chunk : Bytes // chunk.length ≤ limit } :=
        ⟨(file.content.drop position).take limit, List.length_take_le _ _⟩
      obtain ⟨trace, a, hrun, h, hall⟩ := ih (.ok chunk) (position + chunk.1.length)
      refine ⟨_, a, .ask hrun, ⟨chunk, rfl, List.take_prefix _ _, fun hpos hnil => ?_, h⟩,
        List.forall_mem_cons.mpr ⟨trivial, hall⟩⟩
      exact (List.take_eq_nil_iff.mp hnil).resolve_left (Nat.pos_iff_ne_zero.mp hpos)
    | fetch _ _ =>
      obtain ⟨trace, a, hrun, h, hall⟩ := ih (.ok upstream) position
      exact ⟨_, a, .ask hrun, h, List.forall_mem_cons.mpr ⟨rfl, hall⟩⟩
    | serveStdio =>
      obtain ⟨trace, a, hrun, h, hall⟩ := ih (.ok ()) position
      exact ⟨_, a, .ask hrun, h, List.forall_mem_cons.mpr ⟨rfl, hall⟩⟩
    | cancelBody =>
      obtain ⟨trace, a, hrun, h, hall⟩ := ih (.error ()) position
      exact ⟨_, a, .ask hrun, h, List.forall_mem_cons.mpr ⟨trivial, hall⟩⟩
    | signalAborted =>
      obtain ⟨trace, a, hrun, h, hall⟩ := ih false position
      exact ⟨_, a, .ask hrun, h, List.forall_mem_cons.mpr ⟨trivial, hall⟩⟩
    | _ =>
      obtain ⟨trace, a, hrun, h, hall⟩ := ih () position
      exact ⟨_, a, .ask hrun, h, List.forall_mem_cons.mpr ⟨trivial, hall⟩⟩

end Exactness

/-! ## Results -/

/-- Whatever the host replies, the handle that is opened is closed and before the clock is
asked, nothing is read before the permissions are secure nor past the bound, and what is
loaded was read whole from a protected file and has not expired. -/
theorem loadLocalCredentials_disciplined (options : LoaderOptions) (path : Text) :
    Ensures (loadLocalCredentials options path) fun trace result =>
      LoaderEnds options path trace result ∧ ∀ before x after, trace = before ++ x :: after →
        LoaderAllowed options path before x.request :=
  ensures_of_keeps (keeps_loadLocalCredentials options path)

/-- A host that has a file and a clock answers a whole run, and in whatever pieces it
returns the file, the result is the same function of the two. -/
theorem loadLocalCredentials_exact (file : HostFile) (now : ℤ) (options : LoaderOptions)
    (path : Text) :
    (∃ trace result, Runs (loadLocalCredentials options path) trace result ∧
      file.Delivers now 0 trace) ∧
    ∀ trace result, Runs (loadLocalCredentials options path) trace result →
      file.Delivers now 0 trace → result = file.credentials options now := by
  obtain ⟨trace, result, hrun, hdelivers, -⟩ := @exists_delivers file now
    ⟨false, [], true, 200, none, none⟩ _ (loadLocalCredentials options path) 0
  exact ⟨⟨trace, result, hrun, hdelivers⟩, ensures_loadLocalCredentials options path⟩

end Startup
