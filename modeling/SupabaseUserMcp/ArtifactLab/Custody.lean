import Mathlib.Data.List.Nodup
import SupabaseUserMcp.ArtifactLab

/- Who holds an artifact: the one it is registered to, until it expires. Its bytes, and
   every row that depends on it, follow the registry row. -/
namespace ArtifactLab

open Sql

/-- Still held. -/
def Unexpired (s : Session) (ar : ArtifactRegistry) : Prop :=
  ∀ e ∈ ar.expiresAt, s.now < e

/-- The caller's, and still held. -/
def Held (s : Session) (ar : ArtifactRegistry) : Prop :=
  s.uid = some ar.principalId ∧ Unexpired s ar

variable {t : Tables} {s : Session}

@[simp] theorem holds_isOwnUnexpired {ar : ArtifactRegistry} :
    (isOwnUnexpired s ar).Holds ↔ Held s ar := by
  rw [isOwnUnexpired, Truth.holds_and, Truth.holds_or, holds_eq, Held, Unexpired]
  cases ar.expiresAt with
  | none => simp
  | some e => simp

theorem mem_visibleRegistry {ar : ArtifactRegistry} :
    ar ∈ t.visibleRegistry s ↔ ar ∈ t.artifactRegistry ∧ Held s ar := by
  rw [Tables.visibleRegistry, mem_visible, artifactRegistrySelectAuthenticated,
    holds_isOwnUnexpired]

theorem mem_visibleClients {c : ApprovedInspectorClient} : c ∈ t.visibleClients s ↔
    c ∈ t.approvedInspectorClients ∧ c.active = true ∧ s.clientClaim = some c.clientId := by
  simp [Tables.visibleClients, approvedInspectorClientsSelectCurrent]

/-! ## The functions under the policies -/

theorem holds_approvedClientQuery {clients : List ApprovedInspectorClient} :
    (approvedClientQuery clients s).Holds ↔
      ∃ c ∈ clients, s.clientClaim = some c.clientId ∧ c.active = true := by
  simp [approvedClientQuery]

theorem holds_artifactObjectQuery {registry : List ArtifactRegistry} {bucket key : Option Text} :
    (artifactObjectQuery registry s bucket key).Holds ↔ bucket = some "artifact-lab" ∧
      ∃ ar ∈ registry, bucket = some ar.bucket ∧ key = some ar.objectKey ∧ Held s ar := by
  simp only [artifactObjectQuery, holds_existsIn, Truth.holds_and, holds_eq, holds_eq_right,
    holds_isOwnUnexpired, and_assoc]
  constructor
  · intro h
    obtain ⟨ar, har, hlab, hbucket, hkey, hheld⟩ := h
    exact ⟨hlab, ar, har, hbucket, hkey, hheld⟩
  · intro h
    obtain ⟨hlab, ar, har, hbucket, hkey, hheld⟩ := h
    exact ⟨ar, har, hlab, hbucket, hkey, hheld⟩

/-- The policy of the clients hides no client the function looks for. -/
theorem hasApprovedInspectorClient_eq :
    hasApprovedInspectorClient t s = approvedClientQuery t.approvedInspectorClients s := by
  apply Truth.eq_of_holds existsIn_ne_none existsIn_ne_none
  apply holds_approvedClientQuery.trans
  apply Iff.trans ?_ holds_approvedClientQuery.symm
  simp only [mem_visibleClients]
  grind

/-- The policy of the registry hides no row the function looks for. -/
theorem visibleArtifactObject_eq (bucket key : Option Text) :
    visibleArtifactObject t s bucket key = artifactObjectQuery t.artifactRegistry s bucket key := by
  apply Truth.eq_of_holds existsIn_ne_none existsIn_ne_none
  apply holds_artifactObjectQuery.trans
  apply Iff.trans ?_ holds_artifactObjectQuery.symm
  simp only [mem_visibleRegistry]
  grind

theorem mem_selectableObjects {o : Object} : o ∈ t.selectableObjects s ↔ o ∈ t.objects ∧
    s.operation = some "object.get_authenticated" ∧ o.bucketId = some "artifact-lab" ∧
    (∃ ar ∈ t.artifactRegistry, o.bucketId = some ar.bucket ∧ o.name = some ar.objectKey ∧
      Held s ar) ∧
    ∃ c ∈ t.approvedInspectorClients, s.clientClaim = some c.clientId ∧ c.active = true := by
  rw [Tables.selectableObjects, mem_visible, artifactStorageGetOnly, Truth.holds_and,
    Truth.holds_and, s.allowOnlyOperation_holds, hasApprovedInspectorClient_eq,
    visibleArtifactObject_eq, holds_approvedClientQuery, holds_artifactObjectQuery]
  constructor
  · intro ⟨ho, ⟨hoperation, hclient⟩, hlab, har⟩
    exact ⟨ho, hoperation, hlab, har, hclient⟩
  · intro ⟨ho, hoperation, hlab, har, hclient⟩
    exact ⟨ho, ⟨hoperation, hclient⟩, hlab, har⟩

/-! ## Rows that depend on the registry -/

/-- A row that names an artifact is seen with the artifact's row. -/
theorem holds_existsIn_registry {ar : ArtifactRegistry} (har : ar ∈ t.artifactRegistry) :
    (existsIn (fun row : ArtifactRegistry =>
      (eq (some row.artifactId) (some ar.artifactId)).and (isOwnUnexpired s row))
      (t.visibleRegistry s)).Holds ↔ ar ∈ t.visibleRegistry s := by
  simp only [holds_existsIn, Truth.holds_and, holds_eq, holds_isOwnUnexpired, Option.some.injEq,
    mem_visibleRegistry]
  constructor
  · intro h
    obtain ⟨row, ⟨hrow, hheld⟩, hid, _⟩ := h
    -- artifact ids are unique
    rw [List.inj_on_of_nodup_map t.artifactId_nodup har hrow hid]
    exact ⟨hrow, hheld⟩
  · intro h
    exact ⟨ar, ⟨har, h.2⟩, rfl, h.2⟩

theorem mem_visibleChunks {c : ArtifactChunk} {ar : ArtifactRegistry} (hc : c ∈ t.artifactChunks)
    (har : ar ∈ t.artifactRegistry) (hid : ar.artifactId = c.artifactId) :
    c ∈ t.visibleChunks s ↔ ar ∈ t.visibleRegistry s := by
  rw [Tables.visibleChunks, mem_visible, and_iff_right hc, artifactChunksSelectAuthenticated, ← hid]
  exact holds_existsIn_registry har

theorem mem_visibleDerivations {d : ArtifactDerivation} {ar : ArtifactRegistry}
    (hd : d ∈ t.artifactDerivations) (har : ar ∈ t.artifactRegistry)
    (hid : ar.artifactId = d.derivedArtifactId) :
    d ∈ t.visibleDerivations s ↔ ar ∈ t.visibleRegistry s := by
  rw [Tables.visibleDerivations, mem_visible, and_iff_right hd,
    artifactDerivationsSelectAuthenticated, ← hid]
  exact holds_existsIn_registry har

theorem mem_visibleInputs {i : DerivationInput} {d : ArtifactDerivation} {ar : ArtifactRegistry}
    (hi : i ∈ t.derivationInputs) (hd : d ∈ t.artifactDerivations)
    (hderivation : d.derivationId = i.derivationId) (har : ar ∈ t.artifactRegistry)
    (hid : ar.artifactId = d.derivedArtifactId) :
    i ∈ t.visibleInputs s ↔ ar ∈ t.visibleRegistry s := by
  rw [Tables.visibleInputs, mem_visible, and_iff_right hi, derivationInputsSelectAuthenticated]
  simp only [holds_existsIn, Prod.exists, mem_join, Truth.holds_and, holds_eq, holds_isOwnUnexpired,
    Option.some.injEq]
  constructor
  · intro h
    obtain ⟨d', ar', ⟨hd', har', hid'⟩, hderivation', _⟩ := h
    have hmem := (mem_visible.mp hd').1
    obtain rfl := List.inj_on_of_nodup_map t.derivationId_nodup hd hmem
      (hderivation.trans hderivation')
    obtain rfl := List.inj_on_of_nodup_map t.artifactId_nodup har (mem_visible.mp har').1
      (hid.trans hid')
    exact har'
  · intro hvisible
    exact ⟨d, ar, ⟨(mem_visibleDerivations hd har hid).mpr hvisible, hvisible, hid.symm⟩,
      hderivation.symm, (mem_visibleRegistry.mp hvisible).2⟩

/-- The hold has run out. -/
def Expired (s : Session) (ar : ArtifactRegistry) : Prop := ∃ e ∈ ar.expiresAt, e ≤ s.now

theorem Expired.not_visible {ar : ArtifactRegistry} (h : Expired s ar) :
    ar ∉ t.visibleRegistry s := by
  obtain ⟨e, he, hle⟩ := h
  intro hvisible
  exact absurd ((mem_visibleRegistry.mp hvisible).2.2 e he) (Int.not_lt.mpr hle)

/-- An object is its registrant's to select, through an approved client and until it expires;
what depends on an artifact is seen with it. -/
theorem custody_exact (t : Tables) (s : Session) :
    (∀ o ∈ t.objects, o ∈ t.selectableObjects s ↔
      s.operation = some "object.get_authenticated" ∧ o.bucketId = some "artifact-lab" ∧
      (∃ ar ∈ t.artifactRegistry, o.bucketId = some ar.bucket ∧ o.name = some ar.objectKey ∧
        Held s ar) ∧
      ∃ c ∈ t.approvedInspectorClients, s.clientClaim = some c.clientId ∧ c.active = true) ∧
    (hasApprovedInspectorClient t s = approvedClientQuery t.approvedInspectorClients s ∧
      ∀ bucket key, visibleArtifactObject t s bucket key =
        artifactObjectQuery t.artifactRegistry s bucket key) ∧
    (∀ c ∈ t.artifactChunks, ∃ ar ∈ t.artifactRegistry, ar.artifactId = c.artifactId ∧
      (c ∈ t.visibleChunks s ↔ ar ∈ t.visibleRegistry s)) ∧
    (∀ d ∈ t.artifactDerivations, ∃ ar ∈ t.artifactRegistry, ar.artifactId = d.derivedArtifactId ∧
      (d ∈ t.visibleDerivations s ↔ ar ∈ t.visibleRegistry s)) ∧
    (∀ i ∈ t.derivationInputs, ∃ d ∈ t.artifactDerivations, d.derivationId = i.derivationId ∧
      ∃ ar ∈ t.artifactRegistry, ar.artifactId = d.derivedArtifactId ∧
        (i ∈ t.visibleInputs s ↔ ar ∈ t.visibleRegistry s)) ∧
    ∀ ar ∈ t.artifactRegistry, Expired s ar →
      (∀ o ∈ t.selectableObjects s, ¬(o.bucketId = some ar.bucket ∧ o.name = some ar.objectKey)) ∧
      (∀ c ∈ t.visibleChunks s, c.artifactId ≠ ar.artifactId) ∧
      (∀ d ∈ t.visibleDerivations s, d.derivedArtifactId ≠ ar.artifactId) ∧
      ∀ i ∈ t.visibleInputs s, ∀ d ∈ t.artifactDerivations, d.derivationId = i.derivationId →
        d.derivedArtifactId ≠ ar.artifactId := by
  refine ⟨?_, ⟨hasApprovedInspectorClient_eq, visibleArtifactObject_eq⟩, ?_, ?_, ?_, ?_⟩
  · intro o ho
    rw [mem_selectableObjects, and_iff_right ho]
  · intro c hc
    obtain ⟨ar, har, hid⟩ := t.chunk_registered c hc
    exact ⟨ar, har, hid, mem_visibleChunks hc har hid⟩
  · intro d hd
    obtain ⟨ar, har, hid⟩ := t.derivation_registered d hd
    exact ⟨ar, har, hid, mem_visibleDerivations hd har hid⟩
  · intro i hi
    obtain ⟨d, hd, hderivation⟩ := t.input_derived i hi
    obtain ⟨ar, har, hid⟩ := t.derivation_registered d hd
    exact ⟨d, hd, hderivation, ar, har, hid, mem_visibleInputs hi hd hderivation har hid⟩
  · intro ar har hexpired
    have hhidden := hexpired.not_visible (t := t)
    refine ⟨?_, ?_, ?_, ?_⟩
    · intro o ho ⟨hbucket, hkey⟩
      obtain ⟨-, -, -, ⟨ar', har', hbucket', hkey', hheld⟩, -⟩ := mem_selectableObjects.mp ho
      -- one artifact has the object
      have heq : (ar.bucket, ar.objectKey) = (ar'.bucket, ar'.objectKey) :=
        Prod.ext (Option.some.inj (hbucket.symm.trans hbucket'))
          (Option.some.inj (hkey.symm.trans hkey'))
      obtain rfl := List.inj_on_of_nodup_map t.object_nodup har har' heq
      exact hhidden (mem_visibleRegistry.mpr ⟨har, hheld⟩)
    · intro c hc hid
      exact hhidden ((mem_visibleChunks (mem_visible.mp hc).1 har hid.symm).mp hc)
    · intro d hd hid
      exact hhidden ((mem_visibleDerivations (mem_visible.mp hd).1 har hid.symm).mp hd)
    · intro i hi d hd hderivation hid
      exact hhidden ((mem_visibleInputs (mem_visible.mp hi).1 hd hderivation har hid.symm).mp hi)

/-! ## A lab -/

/-- A caller who gets an object, at time 10. -/
def labSession : Session where
  uid := some 1
  jwt := some (.object [("app_metadata", .object [("client_id", .string "smp-lab-inspector")])])
  now := 10
  operation := some "object.get_authenticated"
  allowOnlyOperation op := eq (some op) (some "object.get_authenticated")
  allowOnlyOperation_holds _ := holds_eq

/-- One artifact of the caller, held, one that has expired, and one of somebody else. -/
def labRegistry : List ArtifactRegistry :=
  [⟨1, 1, "artifact-lab", "one/current", some 20⟩, ⟨2, 1, "artifact-lab", "one/expired", some 10⟩,
    ⟨3, 2, "artifact-lab", "two/current", none⟩]

def labObject (key : Text) : Object := ⟨some "artifact-lab", some key⟩

/-- The held artifact is derived from the expired one. -/
def labTables : Tables where
  approvedInspectorClients := [⟨"smp-lab-inspector", true⟩]
  artifactRegistry := labRegistry
  artifactChunks := [⟨1, 0⟩, ⟨2, 0⟩]
  artifactDerivations := [⟨1, 1⟩]
  derivationInputs := [⟨1, 2⟩]
  objects := [labObject "one/current", labObject "one/expired", labObject "two/current"]
  artifactId_nodup := by decide
  object_nodup := by decide
  derivationId_nodup := by decide
  chunk_registered := by simp [labRegistry]
  derivation_registered := by simp [labRegistry]
  input_derived := by simp

theorem held_labRegistry {ar : ArtifactRegistry} (har : ar ∈ labRegistry) :
    Held labSession ar ↔ ar.artifactId = 1 := by
  have hall : ∀ ar ∈ labRegistry, (isOwnUnexpired labSession ar).Holds ↔ ar.artifactId = 1 := by
    decide
  exact holds_isOwnUnexpired.symm.trans (hall ar har)

theorem custody_exact_lab :
    labObject "one/current" ∈ labTables.selectableObjects labSession ∧
    labObject "one/expired" ∉ labTables.selectableObjects labSession ∧
    labObject "two/current" ∉ labTables.selectableObjects labSession ∧
    ⟨1, 0⟩ ∈ labTables.visibleChunks labSession ∧ ⟨2, 0⟩ ∉ labTables.visibleChunks labSession := by
  obtain ⟨hobjects, -, hchunks, -, -, hexpired⟩ := custody_exact labTables labSession
  have hfirst : ⟨1, 1, "artifact-lab", "one/current", some 20⟩ ∈ labRegistry := List.mem_cons_self
  have hsecond : ⟨2, 1, "artifact-lab", "one/expired", some 10⟩ ∈ labRegistry :=
    List.mem_cons_of_mem _ List.mem_cons_self
  obtain ⟨hhidden, hchunk, -⟩ := hexpired _ hsecond ⟨10, rfl, Int.le_refl _⟩
  refine ⟨?_, fun h => hhidden _ h ⟨rfl, rfl⟩, fun h => ?_, ?_, fun h => hchunk _ h rfl⟩
  · exact (hobjects _ List.mem_cons_self).mpr ⟨rfl, rfl,
      ⟨_, hfirst, rfl, rfl, (held_labRegistry hfirst).mpr rfl⟩, _, List.mem_cons_self, rfl, rfl⟩
  · obtain ⟨-, -, ⟨ar, har, -, hkey, hheld⟩, -⟩ := (hobjects _ (mem_visible.mp h).1).mp h
    have hnone : ∀ ar ∈ labRegistry, ar.artifactId = 1 → some "two/current" ≠ some ar.objectKey := by
      decide
    exact hnone ar har ((held_labRegistry har).mp hheld) hkey
  · obtain ⟨ar, har, hid, hvisible⟩ := hchunks ⟨1, 0⟩ List.mem_cons_self
    exact hvisible.mpr (mem_visibleRegistry.mpr ⟨har, (held_labRegistry har).mpr hid⟩)

end ArtifactLab
