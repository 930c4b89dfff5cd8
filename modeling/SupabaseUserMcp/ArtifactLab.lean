import Mathlib.Data.Int.Notation
import SupabaseUserMcp.Sql.Jsonb
import SupabaseUserMcp.Sql.Query

/- Artifacts: what is registered, its chunks and derivations, and the objects that hold the
   bytes. The policy of the objects asks two functions that run with their caller's
   rights, and so read the registry and the clients through the policies of those. -/
namespace ArtifactLab

open Sql

abbrev Uuid := BitVec 128

/-- A `timestamptz`, in microseconds. -/
abbrev Timestamp := ℤ

structure ApprovedInspectorClient where
  clientId : Text
  active : Bool

structure ArtifactRegistry where
  artifactId : Uuid
  principalId : Uuid
  bucket : Text
  objectKey : Text
  expiresAt : Option Timestamp

structure ArtifactChunk where
  artifactId : Uuid
  chunkIndex : ℕ

structure ArtifactDerivation where
  derivationId : Uuid
  derivedArtifactId : Uuid

structure DerivationInput where
  derivationId : Uuid
  sourceArtifactId : Uuid

/-- A row of `storage.objects`. -/
structure Object where
  bucketId : Option Text
  name : Option Text

/-- The tables, with the keys that tie them together. -/
structure Tables where
  approvedInspectorClients : List ApprovedInspectorClient
  artifactRegistry : List ArtifactRegistry
  artifactChunks : List ArtifactChunk
  artifactDerivations : List ArtifactDerivation
  derivationInputs : List DerivationInput
  objects : List Object
  artifactId_nodup : (artifactRegistry.map ArtifactRegistry.artifactId).Nodup
  object_nodup : (artifactRegistry.map fun ar => (ar.bucket, ar.objectKey)).Nodup
  derivationId_nodup : (artifactDerivations.map ArtifactDerivation.derivationId).Nodup
  chunk_registered : ∀ c ∈ artifactChunks, ∃ ar ∈ artifactRegistry, ar.artifactId = c.artifactId
  derivation_registered : ∀ d ∈ artifactDerivations,
    ∃ ar ∈ artifactRegistry, ar.artifactId = d.derivedArtifactId
  input_derived : ∀ i ∈ derivationInputs,
    ∃ d ∈ artifactDerivations, d.derivationId = i.derivationId

/-- What a statement sees of its caller, and of the Storage operation it serves. -/
structure Session where
  uid : Option Uuid
  jwt : Option Jsonb
  now : Timestamp
  operation : Option Text
  -- `storage.allow_only_operation`
  allowOnlyOperation : Text → Truth
  allowOnlyOperation_holds : ∀ op, (allowOnlyOperation op).Holds ↔ operation = some op

/-- `coalesce(auth.jwt() ->> 'client_id', auth.jwt() #>> '{app_metadata,client_id}')`. -/
def Session.clientClaim (s : Session) : Option Text :=
  (s.jwt.bind fun jwt => jwt.getText "client_id").or
    (s.jwt.bind fun jwt => jwt.getPathText "app_metadata" "client_id")

/-- `principal_id = auth.uid() and (expires_at is null or expires_at > now())`. -/
def isOwnUnexpired (s : Session) (ar : ArtifactRegistry) : Truth :=
  (eq (some ar.principalId) s.uid).and
    (Truth.or (some ar.expiresAt.isNone) (gt ar.expiresAt (some s.now)))

/-! ## Policies -/

def approvedInspectorClientsSelectCurrent (s : Session) (c : ApprovedInspectorClient) : Truth :=
  Truth.and (some c.active) (eq (some c.clientId) s.clientClaim)

def artifactRegistrySelectAuthenticated (s : Session) (ar : ArtifactRegistry) : Truth :=
  isOwnUnexpired s ar

/-- The clients a caller sees. -/
def Tables.visibleClients (t : Tables) (s : Session) : List ApprovedInspectorClient :=
  visible (approvedInspectorClientsSelectCurrent s) t.approvedInspectorClients

/-- The registered artifacts a caller sees. -/
def Tables.visibleRegistry (t : Tables) (s : Session) : List ArtifactRegistry :=
  visible (artifactRegistrySelectAuthenticated s) t.artifactRegistry

def artifactChunksSelectAuthenticated (t : Tables) (s : Session) (c : ArtifactChunk) : Truth :=
  existsIn (fun ar : ArtifactRegistry =>
    (eq (some ar.artifactId) (some c.artifactId)).and (isOwnUnexpired s ar)) (t.visibleRegistry s)

def artifactDerivationsSelectAuthenticated (t : Tables) (s : Session) (d : ArtifactDerivation) :
    Truth :=
  existsIn (fun ar : ArtifactRegistry =>
    (eq (some ar.artifactId) (some d.derivedArtifactId)).and (isOwnUnexpired s ar))
    (t.visibleRegistry s)

def Tables.visibleChunks (t : Tables) (s : Session) : List ArtifactChunk :=
  visible (artifactChunksSelectAuthenticated t s) t.artifactChunks

def Tables.visibleDerivations (t : Tables) (s : Session) : List ArtifactDerivation :=
  visible (artifactDerivationsSelectAuthenticated t s) t.artifactDerivations

def derivationInputsSelectAuthenticated (t : Tables) (s : Session) (i : DerivationInput) : Truth :=
  existsIn (fun ((d, ar) : ArtifactDerivation × ArtifactRegistry) =>
    (eq (some d.derivationId) (some i.derivationId)).and (isOwnUnexpired s ar))
    (join (fun (d : ArtifactDerivation) (ar : ArtifactRegistry) =>
      eq (some ar.artifactId) (some d.derivedArtifactId)) (t.visibleDerivations s)
      (t.visibleRegistry s))

def Tables.visibleInputs (t : Tables) (s : Session) : List DerivationInput :=
  visible (derivationInputsSelectAuthenticated t s) t.derivationInputs

/-! ## Objects -/

/-- `exists (select 1 from approved_inspector_clients c where ..)`, over the rows it is given. -/
def approvedClientQuery (clients : List ApprovedInspectorClient) (s : Session) : Truth :=
  existsIn (fun c : ApprovedInspectorClient =>
    (eq (some c.clientId) s.clientClaim).and (some c.active)) clients

/-- `public.has_approved_inspector_client`. -/
def hasApprovedInspectorClient (t : Tables) (s : Session) : Truth :=
  approvedClientQuery (t.visibleClients s) s

/-- `exists (select 1 from artifact_registry ar where ..)`, over the rows it is given. -/
def artifactObjectQuery (registry : List ArtifactRegistry) (s : Session)
    (targetBucket targetObjectKey : Option Text) : Truth :=
  existsIn (fun ar : ArtifactRegistry =>
    (((eq targetBucket (some "artifact-lab")).and (eq (some ar.bucket) targetBucket)).and
      (eq (some ar.objectKey) targetObjectKey)).and (isOwnUnexpired s ar)) registry

/-- `public.visible_artifact_object`. -/
def visibleArtifactObject (t : Tables) (s : Session) (targetBucket targetObjectKey : Option Text) :
    Truth :=
  artifactObjectQuery (t.visibleRegistry s) s targetBucket targetObjectKey

def artifactStorageGetOnly (t : Tables) (s : Session) (o : Object) : Truth :=
  ((s.allowOnlyOperation "object.get_authenticated").and (hasApprovedInspectorClient t s)).and
    (visibleArtifactObject t s o.bucketId o.name)

/-- The objects a caller may select. -/
def Tables.selectableObjects (t : Tables) (s : Session) : List Object :=
  visible (artifactStorageGetOnly t s) t.objects

end ArtifactLab
