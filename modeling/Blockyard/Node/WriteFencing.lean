/-
# Write fencing in a running node

`blockyard`, `node.rs`: what `BlockyardNode::start` connects to what.  A node runs a replica of the
metadata state machine, which grants the leases, and a `DataNodeService`, which keeps a cache of
leases and refuses writes against it (`validate_write_lease`).  NOTHING connects the two: the
service is made with an empty cache, `update_lease` has no caller, and `TcpDataNodeClient` sends its
writes without a lease version.  The same goes for the epoch of the service, which stays 0, and
for its access control list, which is never asked about a client, since the handler passes the
node's own identity.

So the leases a node grants have no part in the writes it accepts (`accepts_iff`), and a client
whose lease went to someone else is refused only where any client would be
(`write_fenced_iff`).
-/
import Blockyard.Node.Restart
import Blockyard.Raft.Fencing
import Blockyard.Ublk.Cluster

open Std CrashFs Machine

namespace Blockyard.Node

open Storage DataNodeService
open Raft (MetadataRequest MetadataStateMachineData Grant)
open Ublk (WriteCall)

/-! ## 1. A running node -/

/-- `BlockyardNode`, with what its `DataNodeHandler` and its state machine store hold. -/
structure RunningNode where
  nodeId : NodeId
  metadata : MetadataStateMachineData
  service : DataNodeService

/-- What can happen in a running node. -/
inductive NodeEvent
  /-- The replica of the metadata state machine applies a request. -/
  | applied (req : MetadataRequest)
  /-- A client's `TcpDataNodeClient` writes. -/
  | write (env : WriteEnv) (call : WriteCall)
  | read (fault : ExtentStore.ReadFault) (request : ReadExtentRequest)
  /-- The node looks after its disks. -/
  | disk (op : NodeOp)
  /-- The node is stopped and started again; Raft restores the metadata. -/
  | restart (inventory : DiskInventory) (order : IterOrder DiskId)
      (scan : DiskId → IterOrder (ExtentId × ExtentVersion))

/-- What the background tasks do to a service: it concerns the disks. -/
def ofDisks : NodeOp → Bool
  | .transitionState .. | .recordTelemetry .. | .completeQualification .. | .startBurnIn ..
  | .reportBadRegion .. | .takeDrainQueue => true
  | _ => false

namespace RunningNode

/-- `BlockyardNode::start`, on a node that joins with empty metadata. -/
def start (x : Externals) (nodeId : NodeId) (inventory : DiskInventory)
    (scan : DiskId → IterOrder (ExtentId × ExtentVersion)) (disks : List ExtentStore) :
    RunningNode where
  nodeId := nodeId
  metadata := .new
  service := startStorage x scan inventory disks

/-- One event.  `DataNodeHandler` takes every caller for the node itself. -/
def step (x : Externals) (ovf : Overflow) (node : RunningNode) :
    NodeEvent → RunningNode × NodeAnswer
  | .applied req => ({ node with metadata := (node.metadata.applyRequest ovf req).1 }, .done)
  | .write env call =>
    let (service, answer) := nodeStep x ovf node.service
      (.write env call.request call.data (.node node.nodeId))
    ({ node with service }, answer)
  | .read fault request =>
    let (service, answer) := nodeStep x ovf node.service (.read fault request (.node node.nodeId))
    ({ node with service }, answer)
  | .disk op =>
    if ofDisks op then ({ node with service := (nodeStep x ovf node.service op).1 }, .done)
    else (node, .done)
  | .restart inventory order scan =>
    ({ node with service := restart x node.service inventory order scan }, .done)

/-- The leases the node's state machine grants along a run, in order. -/
def grantsAlong (x : Externals) (ovf : Overflow) (node : RunningNode) :
    List NodeEvent → List Grant
  | [] => []
  | .applied req :: events =>
    (Raft.grantOf req (node.metadata.applyRequest ovf req).2).toList
      ++ grantsAlong x ovf (node.step x ovf (.applied req)).1 events
  | event :: events => grantsAlong x ovf (node.step x ovf event).1 events

/-- The node performs the write, and does not only repeat an answer. -/
def Accepts (x : Externals) (env : WriteEnv) (node : RunningNode) (call : WriteCall) : Prop :=
  node.service.checkDuplicate call.operationId = none ∧
    (node.service.handleWrite x env call.request call.data (.node node.nodeId)).2.success = true

end RunningNode

/-! ## 2. Fencing -/

/-- The session has held the lease of the volume, and a newer one was granted to another. -/
def Superseded (grants : List Grant) (volumeId : VolumeId) (sessionId : SessionId) : Prop :=
  ∃ newer ∈ grants, newer.volumeId = volumeId ∧ newer.sessionId ≠ sessionId ∧
    (∃ g ∈ grants, g.volumeId = volumeId ∧ g.sessionId = sessionId) ∧
    ∀ g ∈ grants, g.volumeId = volumeId → g.sessionId = sessionId →
      g.leaseVersion < newer.leaseVersion

/-- **What fencing promises** about a run: a write of a superseded session is not accepted. -/
def WriteFenced (x : Externals) (ovf : Overflow) (node : RunningNode) (events : List NodeEvent) :
    Prop :=
  ∀ before env call after, events = before ++ .write env call :: after →
    Superseded (node.grantsAlong x ovf before) call.volumeId call.sessionId →
    ¬ (runState (RunningNode.step x ovf) node before).Accepts x env call

/-- A write that a node without leases can perform. -/
structure Performable (x : Externals) (env : WriteEnv) (s : DataNodeService) (call : WriteCall) :
    Prop where
  new : s.checkDuplicate call.operationId = none
  checksum : call.checksum = x.checksum call.data
  disk : ∃ d ∈ s.stores, selectWriteDisk env.diskOrder s.inventory none = .ok d
  stage : ∀ i < 4, env.stageFault i = none
  commit : ∀ i < 7, env.commitFault i = none

/-! ## 3. The two halves of a node do not know of each other -/

/-- A service that was never told of an epoch or a lease. -/
structure Unconnected (s : DataNodeService) : Prop where
  epoch : s.currentEpoch = 0
  leases : s.leaseCache = ∅

section Run

variable {x : Externals} {ovf : Overflow}

theorem unconnected_startStorage (scan : DiskId → IterOrder (ExtentId × ExtentVersion))
    (inventory : DiskInventory) (disks : List ExtentStore) :
    Unconnected (startStorage x scan inventory disks) :=
  startStorage_of ⟨rfl, rfl⟩ fun _ _ _ h => ⟨h.epoch, h.leases⟩

/-- **No event connects them.** -/
theorem unconnected_step {node : RunningNode} (h : Unconnected node.service) (event : NodeEvent) :
    Unconnected (node.step x ovf event).1.service := by
  cases event with
  | applied req => exact h
  | write env call =>
    obtain ⟨hepoch, hleases⟩ := handleWrite_frame (x := x) env node.service call.request call.data
      (.node node.nodeId)
    exact ⟨hepoch.trans h.epoch, hleases.trans h.leases⟩
  | read fault request =>
    obtain ⟨inv, -, heq⟩ := handleRead_fst x ovf fault node.service request (.node node.nodeId)
    have hservice : (node.step x ovf (.read fault request)).1.service
        = { node.service with inventory := inv } := heq
    rw [hservice]
    exact ⟨h.epoch, h.leases⟩
  | disk op =>
    rw [RunningNode.step]
    split
    · cases op with
      | transitionState | recordTelemetry | completeQualification | startBurnIn | reportBadRegion
      | takeDrainQueue => exact ⟨h.epoch, h.leases⟩
      | _ => simp_all [ofDisks]
    · exact h
  | restart inventory order scan => exact unconnected_startStorage scan inventory _

theorem unconnected_run {node : RunningNode} (h : Unconnected node.service)
    (events : List NodeEvent) :
    Unconnected (runState (RunningNode.step x ovf) node events).service :=
  runState_invariant (P := fun node : RunningNode => Unconnected node.service) h
    (fun _ event h => unconnected_step h event) events

/-- **Leases have no part in what a node accepts.** -/
theorem accepts_iff {node : RunningNode} (h : Unconnected node.service) {env : WriteEnv}
    {call : WriteCall} : node.Accepts x env call ↔ Performable x env node.service call := by
  have hadm : node.service.checkDuplicate call.operationId = none →
      ((node.service.handleWrite x env call.request call.data (.node node.nodeId)).2.success = true
        ↔ Admissible x env node.service call.request call.data) := fun hnew =>
    handleWrite_success_iff_admissible hnew rfl (by rw [h.epoch]; exact Nat.zero_le _)
      (by rw [h.leases]; exact ExtTreeMap.getElem?_empty)
  constructor
  · rintro ⟨hnew, hok⟩
    obtain ⟨hsum, hdisk, hstage, hcommit⟩ := (hadm hnew).mp hok
    exact ⟨hnew, hsum, hdisk, hstage, hcommit⟩
  · rintro ⟨hnew, hsum, hdisk, hstage, hcommit⟩
    exact ⟨hnew, (hadm hnew).mpr ⟨hsum, hdisk, hstage, hcommit⟩⟩

end Run

/-- **WRITE FENCING.**  A run of a node keeps the promise exactly when every write of a superseded
session meets an obstacle that has nothing to do with leases: its operation id is in the log, its
checksum is wrong, no disk can take it, or the disk fails. -/
theorem write_fenced_iff (x : Externals) (ovf : Overflow) (nodeId : NodeId)
    (inventory : DiskInventory) (scan : DiskId → IterOrder (ExtentId × ExtentVersion))
    (disks : List ExtentStore) (events : List NodeEvent) :
    WriteFenced x ovf (.start x nodeId inventory scan disks) events ↔
      ∀ before env call after, events = before ++ .write env call :: after →
        Superseded (RunningNode.grantsAlong x ovf (.start x nodeId inventory scan disks) before)
          call.volumeId call.sessionId →
        ¬ Performable x env (runState (RunningNode.step x ovf)
          (.start x nodeId inventory scan disks) before).service call := by
  have hiff : ∀ before env call, (runState (RunningNode.step x ovf)
      (.start x nodeId inventory scan disks) before).Accepts x env call ↔
        Performable x env (runState (RunningNode.step x ovf)
          (.start x nodeId inventory scan disks) before).service call :=
    fun before env call =>
      accepts_iff (unconnected_run (unconnected_startStorage scan inventory disks) before)
  simp only [WriteFenced, hiff]

/-! ### A lease that changes hands -/

/-- Session 1 holds the lease of volume 7 until it runs out; then session 2 is granted it. -/
def handover : List NodeEvent :=
  [.applied (.createVolume ⟨7#128⟩ 4096 (.replicated 1) 1),
    .applied (.lease (.acquire ⟨7#128⟩ ⟨1#128⟩ 1000 30000)),
    .applied (.lease (.acquire ⟨7#128⟩ ⟨2#128⟩ 31000 30000))]

def lateCall : WriteCall where
  nodeId := ⟨2#128⟩
  operationId := ⟨21#128⟩
  sessionId := ⟨1#128⟩
  volumeId := ⟨7#128⟩
  extentId := ⟨5#128⟩
  extentVersion := 1
  epoch := 0
  data := [1]
  checksum := "48fc721fbbc172e0925fa27af1671de225ba927134802998b10a1568a188652b"

noncomputable def handoverNode (inventory : DiskInventory) (disks : List ExtentStore) :
    RunningNode :=
  .start (jsonExternals sampleBlake3) ⟨2#128⟩ inventory (fun _ => .sorted _) disks

theorem superseded_handover (inventory : DiskInventory) (disks : List ExtentStore) :
    Superseded ((handoverNode inventory disks).grantsAlong (jsonExternals sampleBlake3) .wrapping
      handover) ⟨7#128⟩ ⟨1#128⟩ := by
  have hgrants : (handoverNode inventory disks).grantsAlong (jsonExternals sampleBlake3) .wrapping
      handover = [⟨⟨7#128⟩, ⟨1#128⟩, 1, 31000⟩, ⟨⟨7#128⟩, ⟨2#128⟩, 2, 61000⟩] := by rfl
  rw [hgrants]
  refine ⟨⟨⟨7#128⟩, ⟨2#128⟩, 2, 61000⟩, by simp, rfl, by decide, ?_, ?_⟩
  · exact ⟨⟨⟨7#128⟩, ⟨1#128⟩, 1, 31000⟩, by simp, rfl, rfl⟩
  · simp

/-- Without disks the late write is refused, as any write is. -/
theorem write_fenced_iff_without_disks :
    Superseded ((handoverNode ⟨∅, []⟩ []).grantsAlong (jsonExternals sampleBlake3) .wrapping
        handover) lateCall.volumeId lateCall.sessionId ∧
      WriteFenced (jsonExternals sampleBlake3) .wrapping (handoverNode ⟨∅, []⟩ [])
        (handover ++ [.write calmEnv lateCall]) := by
  refine ⟨superseded_handover _ _, ?_⟩
  refine (write_fenced_iff _ .wrapping _ _ _ _ _).mpr ?_
  rintro before env call after heq -
  obtain ⟨rfl, -⟩ : before = handover ∧ after = [] := by
    rcases before with _ | ⟨_, _ | ⟨_, _ | ⟨_, _ | ⟨_, _⟩⟩⟩⟩ <;> simp_all [handover]
  rintro ⟨-, -, ⟨d, hd, -⟩, -, -⟩
  exact absurd hd ExtTreeMap.not_mem_empty

def oneDisk : DiskInventory :=
  ⟨(∅ : HashMap DiskId ManagedDisk).insert sampleDisk (.new sampleDisk "/mnt/d0"), []⟩

theorem selectWriteDisk_oneDisk (order : IterOrder DiskId) :
    selectWriteDisk order oneDisk none = .ok sampleDisk := by
  have helig : Eligible oneDisk sampleDisk (.new sampleDisk "/mnt/d0") :=
    ⟨by rfl, rfl, Or.inl rfl, rfl⟩
  have hsome : ∃ d, selectWriteDisk order oneDisk none = .ok d :=
    selectWriteDisk_of_eligible order helig (by simp)
  obtain ⟨d, hd⟩ := hsome
  obtain ⟨disk, hdisk⟩ := (chosen_of_selectWriteDisk hd).eligible
  have honly : sampleDisk = d := by
    by_contra hne
    have hknown := hdisk.known
    rw [oneDisk, getElem?_insert_of_ne _ hne] at hknown
    simp at hknown
  rw [hd, honly]

noncomputable def oneDiskNode : RunningNode := handoverNode oneDisk [⟨"/mnt/d0", sampleDisk, ∅⟩]

/-- **The late write is accepted**, although the node itself has granted the lease to session 2. -/
theorem late_write_accepted :
    (runState (RunningNode.step (jsonExternals sampleBlake3) .wrapping) oneDiskNode
        handover).metadata.leases[lateCall.volumeId]?
        = some ⟨⟨7#128⟩, ⟨2#128⟩, 31000, 61000, 2⟩ ∧
      ¬ WriteFenced (jsonExternals sampleBlake3) .wrapping oneDiskNode
        (handover ++ [.write calmEnv lateCall]) := by
  refine ⟨by rfl, ?_⟩
  intro hfenced
  refine hfenced handover calmEnv lateCall [] rfl (superseded_handover _ _) ?_
  have hstart : Unconnected oneDiskNode.service :=
    unconnected_startStorage (x := jsonExternals sampleBlake3) (fun _ => .sorted _) oneDisk
      [⟨"/mnt/d0", sampleDisk, ∅⟩]
  refine (accepts_iff (unconnected_run hstart handover)).mpr ?_
  refine ⟨by rfl, ?_, ⟨sampleDisk, ?_, selectWriteDisk_oneDisk _⟩, fun _ _ => rfl, fun _ _ => rfl⟩
  · have hsum : "48fc721fbbc172e0925fa27af1671de225ba927134802998b10a1568a188652b"
        = computeChecksum sampleBlake3 [1] := by decide
    exact hsum
  · rw [ExtTreeMap.mem_iff_isSome_getElem?]
    rfl

end Blockyard.Node
