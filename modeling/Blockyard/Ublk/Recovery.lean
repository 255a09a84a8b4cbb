/-
# What a client finds after a crash

`blockyard-ublk`, `ambiguous_write.rs` and `crash_recovery.rs`: a client that does not know what
became of a write asks the metadata service for its operation id.  `AmbiguousWriteResolver::resolve`
asks for one, `CrashRecoveryResolver::recover` for all that were in flight.  A mapping means
committed, none means not committed.

The specification has it that no write is acknowledged before its mapping is committed to the
metadata service; then an acknowledged write would be found.  But both pipelines leave the commit
out: placement is computed, and `Committed` means that enough nodes have acknowledged.  The only
metadata requests of a history are those of others (§3).

`acks_recognised_iff` says what is left: an acknowledged write is recognised if and only if SOMEONE
ELSE has committed a mapping under its operation id.  Nobody has such an id, and
`acknowledged_write_not_recognised` is the ordinary case.
-/
import Blockyard.Lib.Run
import Blockyard.Raft.Discovery
import Blockyard.Ublk.EcReadAfterWrite
import Blockyard.Ublk.ExtentCache

open Std Machine

namespace Blockyard.Ublk

open Raft (BlockRange ExtentMapping MetadataRequest MetadataStateMachineData Undisturbed storedIn)

/-! ## 1. Asking the metadata service -/

structure CommittedMapping where
  extentId : ExtentId
  extentVersion : Nat
  epoch : EpochId
  blockRange : BlockRange
  replicaLocations : List NodeId
  checksums : List (List UInt8)
  deriving DecidableEq

/-- `MetadataClient`, as far as recovery uses it: what the service answers at one moment. -/
structure MetadataClient where
  currentEpoch : Except Error EpochId
  lookupOperation : OperationId → Except Error (Option CommittedMapping)

/-- What both resolvers hold: the metadata cache, here with the extent mappings of its volumes, and
the watermark. -/
structure Resolver where
  cache : MetadataCache
  extentMappings : BTreeMap VolumeId ExtentMappings
  watermark : EpochId

namespace Resolver

/-- `set_extent_mapping`: a volume that is not in the cache gets no mapping. -/
def setExtentMapping (r : Resolver) (volumeId : VolumeId) (blockStart : Nat)
    (mapping : CachedExtentMapping) : Resolver :=
  match r.cache.volumes[volumeId]? with
  | none => r
  | some _ =>
    let mappings := (r.extentMappings[volumeId]?.getD ∅).insert blockStart mapping
    { r with extentMappings := r.extentMappings.insert volumeId mappings }

def advance (r : Resolver) (epoch : EpochId) : Resolver :=
  { r with watermark := max r.watermark epoch }

/-- The mapping that both resolvers put into the cache. -/
def remember (r : Resolver) (volumeId : VolumeId) (mapping : CommittedMapping) : Resolver :=
  r.setExtentMapping volumeId mapping.blockRange.start
    { extentId := mapping.extentId
      extentVersion := mapping.extentVersion
      replicaLocations := mapping.replicaLocations
      checksums := mapping.checksums
      sizeBytes := 0
      extentOffset := 0 }

end Resolver

inductive AmbiguousWriteOutcome
  | committed (epoch : EpochId) (extentVersion : Nat)
  | notCommitted
  deriving DecidableEq

def resolve (client : MetadataClient) (r : Resolver) (volumeId : VolumeId)
    (operationId : OperationId) : Resolver × Except Error AmbiguousWriteOutcome :=
  match client.lookupOperation operationId with
  | .error e => (r, .error e)
  | .ok (some mapping) =>
    ((r.remember volumeId mapping).advance mapping.epoch,
      .ok (.committed mapping.epoch mapping.extentVersion))
  | .ok none => (r, .ok .notCommitted)

/-- The counters of `recover`, and its `committed_ops`. -/
structure RecoveryCounts where
  committed : Nat
  uncommitted : Nat
  committedOps : List OperationId

/-- The loop of `recover`. -/
def recoverOps (client : MetadataClient) (volumeId : VolumeId) :
    List OperationId → Resolver → RecoveryCounts → Resolver × Except Error RecoveryCounts
  | [], r, counts => (r, .ok counts)
  | opId :: rest, r, counts =>
    match client.lookupOperation opId with
    | .error e => (r, .error e)
    | .ok (some mapping) =>
      recoverOps client volumeId rest (r.remember volumeId mapping)
        { counts with
          committed := counts.committed + 1
          committedOps := counts.committedOps ++ [opId] }
    | .ok none =>
      recoverOps client volumeId rest r { counts with uncommitted := counts.uncommitted + 1 }

structure RecoveryResult where
  recoveredEpoch : EpochId
  committedOperations : Nat
  uncommittedOperations : Nat
  deriving DecidableEq

/-- `CrashRecoveryResolver::recover`; beside the result, the `committed_ops` it was counted from. -/
def recover (client : MetadataClient) (r : Resolver) (volumeId : VolumeId)
    (inflightOpIds : List OperationId) :
    Resolver × Except Error (RecoveryResult × List OperationId) :=
  match client.currentEpoch with
  | .error e => (r, .error e)
  | .ok currentEpoch =>
    let r := { r with cache := { r.cache with epoch := currentEpoch } }
    match recoverOps client volumeId inflightOpIds r ⟨0, 0, []⟩ with
    | (r, .error e) => (r, .error e)
    | (r, .ok counts) =>
      (r.advance currentEpoch,
        .ok (⟨currentEpoch, counts.committed, counts.uncommitted⟩, counts.committedOps))

/-- **Recovery recognises an operation**: it is resolved as committed, and a recovery that includes
it counts it among the committed ones. -/
structure Recognised (client : MetadataClient) (o : OperationId) : Prop where
  resolved : ∀ r volumeId, ∃ epoch version,
    (resolve client r volumeId o).2 = .ok (.committed epoch version)
  recovered : ∀ r volumeId ops, o ∈ ops → ∃ result committedOps,
    (recover client r volumeId ops).2 = .ok (result, committedOps) ∧ o ∈ committedOps

/-! ## 2. A service that answers -/

/-- `lookup_operation` of the API, and of the client that calls it. -/
def committedMapping (m : ExtentMapping) : CommittedMapping where
  extentId := m.extentId
  extentVersion := m.extentVersion
  epoch := m.epoch
  blockRange := m.blockRange
  replicaLocations := m.replicaLocations
  checksums := m.checksums

def serviceClient (s : MetadataStateMachineData) : MetadataClient where
  currentEpoch := .ok s.epoch
  lookupOperation o := .ok ((s.lookupByOperationId o).map committedMapping)

def knows (s : MetadataStateMachineData) (o : OperationId) : Bool :=
  (s.lookupByOperationId o).isSome

/-- **`recover` counts what the service knows and what it does not know.** -/
theorem recoverOps_service (s : MetadataStateMachineData) (volumeId : VolumeId)
    (ops : List OperationId) (r : Resolver) (counts : RecoveryCounts) :
    (recoverOps (serviceClient s) volumeId ops r counts).2
      = .ok ⟨counts.committed + ops.countP (knows s),
          counts.uncommitted + ops.countP (fun o => !knows s o),
          counts.committedOps ++ ops.filter (knows s)⟩ := by
  induction ops generalizing r counts with
  | nil => simp [recoverOps]
  | cons o ops ih =>
    rw [recoverOps]
    cases hlookup : s.lookupByOperationId o with
    | none =>
      have hknows : knows s o = false := by rw [knows, hlookup]; rfl
      simp only [serviceClient, hlookup, Option.map_none]
      exact (ih r _).trans (by simp [hknows, Nat.add_assoc, Nat.add_comm 1])
    | some m =>
      have hknows : knows s o = true := by rw [knows, hlookup]; rfl
      simp only [serviceClient, hlookup, Option.map_some]
      exact (ih _ _).trans (by simp [hknows, Nat.add_assoc, Nat.add_comm 1])

theorem recover_service (s : MetadataStateMachineData) (r : Resolver) (volumeId : VolumeId)
    (ops : List OperationId) :
    (recover (serviceClient s) r volumeId ops).2
      = .ok (⟨s.epoch, ops.countP (knows s), ops.countP (fun o => !knows s o)⟩,
          ops.filter (knows s)) := by
  have hops := recoverOps_service s volumeId ops
    { r with cache := { r.cache with epoch := s.epoch } } ⟨0, 0, []⟩
  simp only [Nat.zero_add, List.nil_append] at hops
  simp only [recover, show (serviceClient s).currentEpoch = .ok s.epoch from rfl]
  split
  · next hloop =>
    rw [hloop] at hops
    cases hops
  · next hloop =>
    rw [hloop] at hops
    cases hops
    rfl

/-- **An operation is recognised if and only if the service knows it.** -/
theorem recognised_iff_knows (s : MetadataStateMachineData) (o : OperationId) :
    Recognised (serviceClient s) o ↔ knows s o = true := by
  constructor
  · intro h
    -- any recovery that includes it says so
    obtain ⟨result, committedOps, hrecover, hmem⟩ :=
      h.recovered ⟨⟨0, ∅, ∅⟩, ∅, 0⟩ ⟨0⟩ [o] (List.mem_singleton_self o)
    rw [recover_service] at hrecover
    cases hrecover
    exact (List.mem_filter.mp hmem).2
  · intro hknows
    constructor
    · intro r volumeId
      obtain ⟨m, hm⟩ := Option.isSome_iff_exists.mp hknows
      refine ⟨m.epoch, m.extentVersion, ?_⟩
      simp only [resolve, serviceClient, hm, Option.map_some]
      rfl
    · intro r volumeId ops hmem
      exact ⟨_, _, recover_service s r volumeId ops, List.mem_filter.mpr ⟨hmem, hknows⟩⟩

/-! ## 3. Writes against a metadata service -/

/-- A chunk and the pipeline that writes it. -/
inductive ChunkWrite
  | replicated (request : WriteRequest)
  | erasureCoded (volumeId : VolumeId) (startBlock : Nat) (data : Bytes)

/-- A write, and what goes on around it: the client in any state, the environment of the chunk, the
metadata requests of others while it runs, and how many of them are applied when the lookup before
an attempt is answered, if it is. -/
structure WriteRun where
  client : Client
  env : ChunkEnv
  write : ChunkWrite
  during : List MetadataRequest
  asked : Nat → Option Nat

/-- A deployment: the requests the metadata service has applied, the data nodes, and the operations
of the writes that were acknowledged. -/
structure Deployment (σ : Type) where
  requests : List MetadataRequest
  nodes : σ
  acked : List OperationId

inductive DeploymentEvent (σ : Type)
  /-- A metadata request of anyone. -/
  | request (r : MetadataRequest)
  /-- Anything that happens to the data nodes. -/
  | disturb (nodes : σ)
  | write (w : WriteRun)

section Deployment

variable {σ : Type} (plane : DataPlane σ) (blake3 : Bytes → BitVec 256) (rs : ReedSolomon)
  (ovf : Overflow)

/-- The environment of a write whose lookups the service answers. -/
def WriteRun.answered (w : WriteRun) (requests : List MetadataRequest) : ChunkEnv :=
  { w.env with
    lookup := fun attempt =>
      (w.asked attempt).bind fun applied =>
        ((MetadataStateMachineData.after ovf
          (requests ++ w.during.take applied)).lookupByOperationId w.env.operationId).map
            (·.epoch) }

def WriteRun.execute (w : WriteRun) (requests : List MetadataRequest) (nodes : σ) :
    Client × σ × Except Error WriteOutcome :=
  match w.write with
  | .replicated request =>
    Ublk.execute plane blake3 (w.answered ovf requests) w.client nodes request
  | .erasureCoded volumeId startBlock data =>
    ecExecute plane blake3 rs (w.answered ovf requests) w.client nodes volumeId startBlock data

/-- The pipeline returned `Committed`. -/
def isCommitted : Except Error WriteOutcome → Bool
  | .ok (.committed _) => true
  | _ => false

namespace Deployment

/-- One event.  A write adds no request to those of others: neither pipeline calls
`commit_extent_mapping`. -/
def step (d : Deployment σ) : DeploymentEvent σ → Deployment σ × Unit
  | .request r => ({ d with requests := d.requests ++ [r] }, ())
  | .disturb nodes => ({ d with nodes }, ())
  | .write w =>
    let (_, nodes, result) := w.execute plane blake3 rs ovf d.requests d.nodes
    ({ requests := d.requests ++ w.during
       nodes
       acked := if isCommitted result then d.acked ++ [w.env.operationId] else d.acked }, ())

/-- The deployment after the events, from an empty metadata service. -/
def after (nodes : σ) (events : List (DeploymentEvent σ)) : Deployment σ :=
  runState (step plane blake3 rs ovf) ⟨[], nodes, []⟩ events

def service (d : Deployment σ) : MetadataStateMachineData :=
  MetadataStateMachineData.after ovf d.requests

end Deployment

def DeploymentEvent.others : DeploymentEvent σ → List MetadataRequest
  | .request r => [r]
  | .disturb _ => []
  | .write w => w.during

/-- **The metadata service sees the requests of others, and no more.** -/
theorem requests_after (nodes : σ) (events : List (DeploymentEvent σ)) :
    (Deployment.after plane blake3 rs ovf nodes events).requests
      = events.flatMap DeploymentEvent.others := by
  refine runState_history
    (P := fun seen (d : Deployment σ) => d.requests = seen.flatMap DeploymentEvent.others) rfl ?_
  intro pre event post _ ih
  rw [List.flatMap_append, List.flatMap_singleton, ← ih]
  cases event with
  | request r => rfl
  | disturb nodes => exact (List.append_nil _).symm
  | write w => rfl

/-! ## 4. What is promised, and what is left of it -/

/-- **Acknowledged writes are recognised**, those whose mapping nothing has taken away. -/
def AcksRecognised (d : Deployment σ) : Prop :=
  ∀ o ∈ d.acked, Undisturbed ovf d.requests o → Recognised (serviceClient (d.service ovf)) o

/-- **Acknowledged writes are recognised if and only if others have committed their mappings**,
each under the operation id of the write. -/
theorem acks_recognised_iff (nodes : σ) (events : List (DeploymentEvent σ)) :
    AcksRecognised ovf (Deployment.after plane blake3 rs ovf nodes events) ↔
      ∀ o ∈ (Deployment.after plane blake3 rs ovf nodes events).acked,
        Undisturbed ovf (events.flatMap DeploymentEvent.others) o →
          ∃ e ∈ storedIn ovf .new (events.flatMap DeploymentEvent.others),
            e.operationId = some o := by
  have hrequests := requests_after plane blake3 rs ovf nodes events
  unfold AcksRecognised Deployment.service
  rw [hrequests]
  refine forall₃_congr fun o _ hund => ?_
  rw [recognised_iff_knows]
  exact Raft.lookup_isSome_iff hund

end Deployment

/-! ## 5. The ordinary case -/

def loneWrite (client : Client) (write : ChunkWrite) : WriteRun where
  client := client
  env := (idsFrom 31).chunk 0
  write := write
  during := []
  asked := fun _ => none

def replicatedHistory : List (DeploymentEvent (NodeId → ExtentId → Option Bytes)) :=
  [.request (.createVolume ⟨7#128⟩ 4096 (.replicated 1) 2),
    .write (loneWrite smallClient (.replicated ⟨⟨7#128⟩, 0, [1, 2], 1⟩))]

def stripedHistory : List (DeploymentEvent (NodeId → ExtentId → Option Bytes)) :=
  [.request (.createVolume ⟨7#128⟩ 4096 (.erasureCoded 1 1) 2),
    .write (loneWrite pairedClient (.erasureCoded ⟨7#128⟩ 0 [1, 2]))]

/-- Requests that delete nothing and store nothing disturb no operation. -/
theorem undisturbed_of_createVolume (ovf : Overflow) (v : VolumeId) (size : Nat)
    (protection : ProtectionPolicy) (extentSize : Nat) (o : OperationId) :
    Undisturbed ovf [.createVolume v size protection extentSize] o where
  stays := List.Pairwise.nil
  kept pre r post heq e _ _ := by
    have hr : r ∈ [MetadataRequest.createVolume v size protection extentSize] := by
      rw [heq]
      simp
    rw [List.mem_singleton.mp hr]
    simp [MetadataRequest.deletes]

/-- **An acknowledged write that is not recognised.**  Every node acknowledges the write, and it is
`Committed`, by either pipeline.  The service knows no operation 31: a resolver calls the write not
committed, and a recovery counts it so. -/
theorem acknowledged_write_not_recognised :
    (Deployment.after shelf volumeBlake3 copyCode .checked (fun _ _ => none)
        replicatedHistory).acked = [⟨31#128⟩] ∧
      ¬ AcksRecognised .checked (Deployment.after shelf volumeBlake3 copyCode .checked
        (fun _ _ => none) replicatedHistory) ∧
      (Deployment.after shelf stripeBlake3 copyCode .checked (fun _ _ => none)
        stripedHistory).acked = [⟨31#128⟩] ∧
      ¬ AcksRecognised .checked (Deployment.after shelf stripeBlake3 copyCode .checked
        (fun _ _ => none) stripedHistory) := by
  have hreplicated : (Deployment.after shelf volumeBlake3 copyCode .checked (fun _ _ => none)
      replicatedHistory).acked = [⟨31#128⟩] := by
    rfl
  have hstriped : (Deployment.after shelf stripeBlake3 copyCode .checked (fun _ _ => none)
      stripedHistory).acked = [⟨31#128⟩] := by
    rfl
  refine ⟨hreplicated, ?_, hstriped, ?_⟩
  · intro h
    have hrec := h ⟨31#128⟩ (by rw [hreplicated]; exact List.mem_singleton_self _)
      (undisturbed_of_createVolume _ _ _ _ _ _)
    cases (recognised_iff_knows _ _).mp hrec
  · intro h
    have hrec := h ⟨31#128⟩ (by rw [hstriped]; exact List.mem_singleton_self _)
      (undisturbed_of_createVolume _ _ _ _ _ _)
    cases (recognised_iff_knows _ _).mp hrec

end Blockyard.Ublk
