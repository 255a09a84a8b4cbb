/-
# The metadata state machine

`blockyard-raft`, `state_machine.rs`: the state every Raft replica holds, the requests of
`request.rs`, the answers of `response.rs`, and `apply_request`, the one transition function.

Two things are made explicit that Rust leaves implicit.

* **Panics.**  `applyRequest` returns the state the call leaves behind together with
  `some answer`, or with `none` when it panicked: on an `expect`, or on a `u64` addition that
  overflows in a build with overflow checks.  A panic in the middle of a call leaves the
  writes made so far in place, and the model leaves them in place too.
* **Keys.**  The maps the source keys by `id.to_string()` are keyed by the identifier.  The
  printed form of a UUID is injective and sorts as the number does, so lookups and iteration
  order are the same.

`CommitExtentMapping` and an entry of `CommitExtentMappingBatch` carry the same nine fields;
both are an `ExtentMappingEntry` here.
-/
import Blockyard.Common.Types
import Blockyard.Lib.Run

open Std

namespace Blockyard.Raft

/-! ## 1. State, requests, answers -/

/-- `std::ops::Range<u64>`. -/
structure BlockRange where
  start : Nat
  stop : Nat
  deriving DecidableEq, Repr

structure VolumeMetadata where
  volumeId : VolumeId
  sizeBytes : Nat
  protection : ProtectionPolicy
  extentSize : Nat
  createdAtEpoch : EpochId
  deriving DecidableEq, Repr

/-- `ExtentMapping`: a committed mapping. -/
structure ExtentMapping where
  extentId : ExtentId
  extentVersion : Nat
  epoch : EpochId
  blockRange : BlockRange
  replicaLocations : List NodeId
  checksums : List (List UInt8)
  operationId : Option OperationId
  deriving DecidableEq, Repr

structure ClusterNode where
  nodeId : NodeId
  addr : String
  deriving DecidableEq, Repr

structure ClusterDisk where
  diskId : DiskId
  nodeId : NodeId
  capacityBytes : Nat
  usedBytes : Nat
  state : DiskState
  deriving DecidableEq, Repr

/-- `openraft::LogId<u64>`. -/
structure LogId where
  term : Nat
  nodeId : Nat
  index : Nat
  deriving DecidableEq, Repr

/-- `openraft::StoredMembership<u64, BasicNode>`. -/
structure StoredMembership where
  logId : Option LogId
  configs : List (List Nat)
  nodes : List (Nat × String)
  deriving DecidableEq, Repr

/-- Where a mapping is stored: its volume and the start of its block range. -/
abbrev MappingKey := VolumeId × Nat

structure MetadataStateMachineData where
  lastApplied : Option LogId
  lastMembership : StoredMembership
  epoch : EpochId
  nodes : BTreeMap NodeId ClusterNode
  volumes : BTreeMap VolumeId VolumeMetadata
  extentMappings : BTreeMap VolumeId (BTreeMap Nat ExtentMapping)
  operationIndex : BTreeMap OperationId MappingKey
  extentVersionIndex : BTreeMap Nat MappingKey
  placementMap : BTreeMap String (List NodeId)
  leases : BTreeMap VolumeId VolumeLease
  leaseVersionCounter : LeaseVersion
  raftIdCounter : Nat
  nodeRaftMap : HashMap NodeId Nat
  clusterDisks : HashMap DiskId ClusterDisk

/-- `MetadataStateMachineData::default`: the empty state. -/
def MetadataStateMachineData.new : MetadataStateMachineData where
  lastApplied := none
  lastMembership := ⟨none, [], []⟩
  epoch := 0
  nodes := ∅
  volumes := ∅
  extentMappings := ∅
  operationIndex := ∅
  extentVersionIndex := ∅
  placementMap := ∅
  leases := ∅
  leaseVersionCounter := 0
  raftIdCounter := 0
  nodeRaftMap := ∅
  clusterDisks := ∅

/-- `ExtentMappingEntry`, and the fields of `CommitExtentMapping`. -/
structure ExtentMappingEntry where
  volumeId : VolumeId
  blockRange : BlockRange
  extentId : ExtentId
  extentVersion : Nat
  epoch : EpochId
  replicaLocations : List NodeId
  checksums : List (List UInt8)
  operationId : Option OperationId
  previousVersion : Option Nat
  deriving DecidableEq, Repr

def ExtentMappingEntry.key (e : ExtentMappingEntry) : MappingKey := (e.volumeId, e.blockRange.start)

def ExtentMappingEntry.mapping (e : ExtentMappingEntry) : ExtentMapping where
  extentId := e.extentId
  extentVersion := e.extentVersion
  epoch := e.epoch
  blockRange := e.blockRange
  replicaLocations := e.replicaLocations
  checksums := e.checksums
  operationId := e.operationId

inductive MetadataRequest
  | addNode (nodeId : NodeId) (addr : String)
  | removeNode (nodeId : NodeId)
  | createVolume (volumeId : VolumeId) (sizeBytes : Nat) (protection : ProtectionPolicy)
      (extentSize : Nat)
  | deleteVolume (volumeId : VolumeId)
  | advanceEpoch
  | commitExtentMapping (entry : ExtentMappingEntry)
  | commitExtentMappingBatch (mappings : List ExtentMappingEntry)
  | updatePlacementMap (assignments : BTreeMap String (List NodeId))
  | lease (req : LeaseRequest)
  | registerNode (nodeId : NodeId) (addr : String)
  | registerDisk (diskId : DiskId) (nodeId : NodeId) (capacityBytes : Nat)
  | updateDiskUsage (diskId : DiskId) (usedBytes : Nat)
  | deregisterDisk (diskId : DiskId)
  | cleanupExpiredLeases (nowMs : Nat)

inductive MetadataResponse
  | ok
  | epoch (epoch : EpochId)
  | error (msg : String)
  | lease (resp : LeaseResponse)
  | nodeRegistered (raftId : Nat)
  | diskRegistered
  | leasesCleanedUp (removed : Nat)
  deriving DecidableEq, Repr

def MetadataResponse.isError : MetadataResponse → Bool
  | .error _ => true
  | _ => false

/-- The state a call leaves behind, and its answer; `none` is a panic. -/
abbrev Applied := MetadataStateMachineData × Option MetadataResponse

/-! ## 2. Committing and deleting mappings -/

namespace MetadataStateMachineData

/-- Drop what the two secondary indexes say about a mapping that goes away: what
`CommitExtentMapping` does to the mapping it overwrites and `DeleteVolume` to each one. -/
def unindex (s : MetadataStateMachineData) (m : ExtentMapping) : MetadataStateMachineData :=
  { s with
    operationIndex := match m.operationId with
      | some opId => s.operationIndex.erase opId
      | none => s.operationIndex
    extentVersionIndex := s.extentVersionIndex.erase m.extentVersion }

/-- Point the two secondary indexes at a mapping that is being stored. -/
def reindex (s : MetadataStateMachineData) (e : ExtentMappingEntry) : MetadataStateMachineData :=
  { s with
    operationIndex := match e.operationId with
      | some opId => s.operationIndex.insert opId e.key
      | none => s.operationIndex
    extentVersionIndex := s.extentVersionIndex.insert e.extentVersion e.key }

/-- The compare-and-swap check of `CommitExtentMapping`: the error it answers with, if the
stored version is not the expected one. -/
def casFailure (volMappings : BTreeMap Nat ExtentMapping) (e : ExtentMappingEntry) :
    Option String :=
  match e.previousVersion with
  | none => none
  | some prevVer =>
    match volMappings[e.blockRange.start]? with
    | some existing =>
      if existing.extentVersion ≠ prevVer then
        some s!"CAS failure: expected version {prevVer}, found {existing.extentVersion}"
      else none
    | none =>
      if prevVer ≠ 0 then
        some (s!"CAS failure: no existing mapping at block {e.blockRange.start}, "
          ++ s!"expected version {prevVer}")
      else none

/-- The writes of a `CommitExtentMapping` whose checks have passed. -/
def storeMapping (s : MetadataStateMachineData) (volMappings : BTreeMap Nat ExtentMapping)
    (e : ExtentMappingEntry) : MetadataStateMachineData :=
  let s := match volMappings[e.blockRange.start]? with
    | some existing => s.unindex existing
    | none => s
  let s := s.reindex e
  { s with extentMappings :=
      s.extentMappings.insert e.volumeId (volMappings.insert e.blockRange.start e.mapping) }

/-- `apply_request` on `CommitExtentMapping`. -/
def commitExtentMapping (s : MetadataStateMachineData) (e : ExtentMappingEntry) : Applied :=
  if ¬ s.volumes.contains e.volumeId then
    (s, some (.error s!"volume {e.volumeId} not found"))
  else if e.epoch ≠ s.epoch then
    (s, some (.error s!"stale epoch: request has {e.epoch}, current is {s.epoch}"))
  else
    match s.extentMappings[e.volumeId]? with
    | none => (s, none)  -- the `expect` on the volume's mapping table
    | some volMappings =>
      match casFailure volMappings e with
      | some msg => (s, some (.error msg))
      | none => (s.storeMapping volMappings e, some (.epoch s.epoch))

/-- `apply_request` on `CommitExtentMappingBatch`: entry by entry, returning at the first
answer that is an error. -/
def commitExtentMappingBatch (s : MetadataStateMachineData) : List ExtentMappingEntry → Applied
  | [] => (s, some (.epoch s.epoch))
  | e :: mappings =>
    match s.commitExtentMapping e with
    | (s', none) => (s', none)
    | (s', some resp) =>
      if resp.isError then (s', some resp) else s'.commitExtentMappingBatch mappings

/-- `apply_request` on `DeleteVolume`. -/
def deleteVolume (s : MetadataStateMachineData) (volumeId : VolumeId) : Applied :=
  if ¬ s.volumes.contains volumeId then
    (s, some (.error s!"volume {volumeId} not found"))
  else
    let s := { s with volumes := s.volumes.erase volumeId }
    let s := match s.extentMappings[volumeId]? with
      | some mappings =>
        (mapValues mappings).foldl unindex
          { s with extentMappings := s.extentMappings.erase volumeId }
      | none => s
    ({ s with leases := s.leases.erase volumeId }, some .ok)

/-- `apply_request` on `CreateVolume`. -/
def createVolume (s : MetadataStateMachineData) (volumeId : VolumeId) (sizeBytes : Nat)
    (protection : ProtectionPolicy) (extentSize : Nat) : Applied :=
  if s.volumes.contains volumeId then
    (s, some (.error s!"volume {volumeId} already exists"))
  else
    match protection.validate with
    | .error e => (s, some (.error s!"invalid protection policy: {e}"))
    | .ok () =>
      ({ s with
          volumes := s.volumes.insert volumeId
            { volumeId, sizeBytes, protection, extentSize, createdAtEpoch := s.epoch }
          extentMappings := s.extentMappings.insert volumeId ∅ }, some .ok)

/-! ## 3. Leases -/

/-- `apply_lease_request` on `Acquire`.  The counter is bumped before the expiry is computed,
so a panic on the expiry leaves it bumped. -/
def acquireLease (ovf : Overflow) (s : MetadataStateMachineData) (volumeId : VolumeId)
    (sessionId : SessionId) (nowMs ttlMs : Nat) :
    MetadataStateMachineData × Option LeaseResponse :=
  if ¬ s.volumes.contains volumeId then
    (s, some (.denied s!"volume {volumeId} not found"))
  else
    match s.leases[volumeId]?.filter fun l => !l.isExpired nowMs && !l.isHeldBy sessionId with
    | some existing =>
      (s, some (.denied s!"volume {volumeId} lease held by session {existing.holder}"))
    | none =>
      match addU64 ovf s.leaseVersionCounter 1 with
      | none => (s, none)
      | some version =>
        let s := { s with leaseVersionCounter := version }
        match addU64 ovf nowMs ttlMs with
        | none => (s, none)
        | some expires =>
          let lease : VolumeLease := {
            volumeId
            holder := sessionId
            grantedAtMs := nowMs
            expiresAtMs := expires
            leaseVersion := version }
          ({ s with leases := s.leases.insert volumeId lease }, some (.granted version expires))

/-- `apply_lease_request` on `Renew`. -/
def renewLease (ovf : Overflow) (s : MetadataStateMachineData) (volumeId : VolumeId)
    (sessionId : SessionId) (nowMs ttlMs : Nat) :
    MetadataStateMachineData × Option LeaseResponse :=
  match s.leases[volumeId]? with
  | none => (s, some (.denied s!"no lease exists for volume {volumeId}"))
  | some existing =>
    if ¬ existing.isHeldBy sessionId then
      (s, some (.denied
        s!"lease for volume {volumeId} held by different session {existing.holder}"))
    else if existing.isExpired nowMs then
      (s, some (.denied s!"lease for volume {volumeId} has expired, must re-acquire"))
    else
      match addU64 ovf s.leaseVersionCounter 1 with
      | none => (s, none)
      | some version =>
        let s := { s with leaseVersionCounter := version }
        match addU64 ovf nowMs ttlMs with
        | none => (s, none)
        | some expires =>
          let lease := { existing with expiresAtMs := expires, leaseVersion := version }
          ({ s with leases := s.leases.insert volumeId lease }, some (.renewed version expires))

/-- `apply_lease_request` on `Release`. -/
def releaseLease (s : MetadataStateMachineData) (volumeId : VolumeId) (sessionId : SessionId) :
    MetadataStateMachineData × Option LeaseResponse :=
  match s.leases[volumeId]? with
  | some existing =>
    if existing.isHeldBy sessionId then
      ({ s with leases := s.leases.erase volumeId }, some .released)
    else
      (s, some (.denied
        s!"cannot release lease for volume {volumeId}: held by different session"))
  | none => (s, some .released)

def applyLeaseRequest (ovf : Overflow) (s : MetadataStateMachineData) :
    LeaseRequest → MetadataStateMachineData × Option LeaseResponse
  | .acquire volumeId sessionId nowMs ttlMs => s.acquireLease ovf volumeId sessionId nowMs ttlMs
  | .renew volumeId sessionId nowMs ttlMs => s.renewLease ovf volumeId sessionId nowMs ttlMs
  | .release volumeId sessionId => s.releaseLease volumeId sessionId

/-- `cleanup_expired_leases`: the state without the expired leases, and how many they were. -/
def cleanupExpiredLeases (s : MetadataStateMachineData) (nowMs : Nat) :
    MetadataStateMachineData × Nat :=
  let leases := s.leases.filter fun _ l => !l.isExpired nowMs
  ({ s with leases }, s.leases.size - leases.size)

/-! ## 4. Nodes and disks -/

/-- `apply_request` on `RegisterNode`. -/
def registerNode (ovf : Overflow) (s : MetadataStateMachineData) (nodeId : NodeId)
    (addr : String) : Applied :=
  match s.nodeRaftMap[nodeId]? with
  | some existingRaftId =>
    ({ s with nodes := s.nodes.insert nodeId { nodeId, addr } },
      some (.nodeRegistered existingRaftId))
  | none =>
    match addU64 ovf s.raftIdCounter 1 with
    | none => (s, none)
    | some raftId =>
      ({ s with
          raftIdCounter := raftId
          nodeRaftMap := s.nodeRaftMap.insert nodeId raftId
          nodes := s.nodes.insert nodeId { nodeId, addr } },
        some (.nodeRegistered raftId))

def applyRequest (ovf : Overflow) (s : MetadataStateMachineData) : MetadataRequest → Applied
  | .addNode nodeId addr =>
    ({ s with nodes := s.nodes.insert nodeId { nodeId, addr } }, some .ok)
  | .removeNode nodeId =>
    if s.nodes.contains nodeId then ({ s with nodes := s.nodes.erase nodeId }, some .ok)
    else (s, some (.error s!"node {nodeId} not found"))
  | .createVolume volumeId sizeBytes protection extentSize =>
    s.createVolume volumeId sizeBytes protection extentSize
  | .deleteVolume volumeId => s.deleteVolume volumeId
  | .advanceEpoch =>
    let epoch := saturatingAdd s.epoch 1
    ({ s with epoch }, some (.epoch epoch))
  | .commitExtentMapping entry => s.commitExtentMapping entry
  | .commitExtentMappingBatch mappings => s.commitExtentMappingBatch mappings
  | .updatePlacementMap assignments =>
    ({ s with
        placementMap :=
          assignments.foldl (fun placement key nodes => placement.insert key nodes)
            s.placementMap }, some .ok)
  | .lease req =>
    let (s, resp) := s.applyLeaseRequest ovf req
    (s, resp.map .lease)
  | .registerNode nodeId addr => s.registerNode ovf nodeId addr
  | .registerDisk diskId nodeId capacityBytes =>
    let disk : ClusterDisk := { diskId, nodeId, capacityBytes, usedBytes := 0, state := .healthy }
    ({ s with clusterDisks := s.clusterDisks.insert diskId disk }, some .diskRegistered)
  | .updateDiskUsage diskId usedBytes =>
    match s.clusterDisks[diskId]? with
    | some disk =>
      ({ s with clusterDisks := s.clusterDisks.insert diskId { disk with usedBytes := usedBytes } },
        some .diskRegistered)
    | none => (s, some (.error s!"disk {diskId} not found"))
  | .deregisterDisk diskId =>
    if s.clusterDisks.contains diskId then
      ({ s with clusterDisks := s.clusterDisks.erase diskId }, some .diskRegistered)
    else (s, some (.error s!"disk {diskId} not found"))
  | .cleanupExpiredLeases nowMs =>
    let (s, removed) := s.cleanupExpiredLeases nowMs
    (s, some (.leasesCleanedUp removed))

/-! ## 5. Queries -/

def lookupByOperationId (s : MetadataStateMachineData) (opId : OperationId) :
    Option ExtentMapping := do
  let (volKey, blockStart) ← s.operationIndex[opId]?
  (← s.extentMappings[volKey]?)[blockStart]?

def lookupByExtentVersion (s : MetadataStateMachineData) (version : Nat) :
    Option ExtentMapping := do
  let (volKey, blockStart) ← s.extentVersionIndex[version]?
  (← s.extentMappings[volKey]?)[blockStart]?

def validateLease (s : MetadataStateMachineData) (volumeId : VolumeId) (sessionId : SessionId)
    (leaseVersion : LeaseVersion) (nowMs : Nat) : Except String Unit :=
  match s.leases[volumeId]? with
  | none => .error s!"no lease for volume {volumeId}"
  | some lease =>
    if ¬ lease.isHeldBy sessionId then
      .error s!"lease for volume {volumeId} held by session {lease.holder}, not {sessionId}"
    else if lease.isExpired nowMs then
      .error s!"lease for volume {volumeId} has expired"
    else if lease.leaseVersion ≠ leaseVersion then
      .error (s!"stale lease version: request has {leaseVersion}, "
        ++ s!"current is {lease.leaseVersion}")
    else .ok ()

def after (ovf : Overflow) (reqs : List MetadataRequest) : MetadataStateMachineData :=
  Machine.runState (applyRequest ovf) .new reqs

theorem after_append (ovf : Overflow) (pre post : List MetadataRequest) :
    after ovf (pre ++ post) = Machine.runState (applyRequest ovf) (after ovf pre) post :=
  Machine.runState_append ..

theorem after_snoc (ovf : Overflow) (pre : List MetadataRequest) (r : MetadataRequest) :
    after ovf (pre ++ [r]) = ((after ovf pre).applyRequest ovf r).1 :=
  Machine.runState_snoc ..

theorem after_append_cons (ovf : Overflow) (pre : List MetadataRequest) (r : MetadataRequest)
    (post : List MetadataRequest) :
    after ovf (pre ++ r :: post)
      = Machine.runState (applyRequest ovf) ((after ovf pre).applyRequest ovf r).1 post :=
  Machine.runState_append ..

end MetadataStateMachineData

end Blockyard.Raft
