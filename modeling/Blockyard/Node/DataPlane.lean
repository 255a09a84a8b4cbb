/-
# The data plane of a running node

`blockyard`, `node.rs`: the `DataPlaneServer` of a node answers with a `DataNodeHandler`, which
passes every request to the `DataNodeService` under ONE identity, `PeerIdentity::Node` of the node
itself, whoever sent it.  `VolumeAcl` lets nodes do everything, so it lets every client do
everything; and the service was made with epoch 0 and is never told another one, so no placement
epoch is ever too old for it.

`ServedNode` is the node with its connections, over any run: frames on any connection, log entries
applied by the metadata replica, changes of the access control list, work on the disks, restarts.

* `stale_writes_rejected_iff`: a write with an old placement epoch is rejected exactly when
  something else is in its way (`Admissible`).
* `access_controlled_iff`: a request of a client without permission is refused exactly when
  something else is in its way (`WriteStopped`, `ReadStopped`).
-/
import Blockyard.Node.WriteFencing
import Blockyard.Protocol.Server
import Blockyard.Storage.Refusal

open Std CrashFs Machine

namespace Blockyard.Node

open Storage DataNodeService Protocol
open Raft (MetadataRequest MetadataStateMachineData)

/-! ## 1. A node and its connections -/

variable {conn nowMs : Nat} {payload : Bytes} {peer : Option PeerIdentity}

/-- What a request meets on the disks. -/
structure HandlerEnv where
  write : WriteEnv
  read : ExtentStore.ReadFault

variable {env : HandlerEnv}

/-- `DataNodeHandler`: the service, asked in the name of a fixed identity. -/
def dataNodeHandler (x : Externals) (ovf : Overflow) (identity : PeerIdentity) :
    DataPlaneHandler DataNodeService HandlerEnv where
  handleWrite env service request payload :=
    service.handleWrite x env.write request payload identity
  handleRead env service request := service.handleRead x ovf env.read request identity

/-- A node and the connections to its data plane, numbered as they are accepted. -/
structure ServedNode where
  node : RunningNode
  connections : Nat → Connection

/-- What can happen to a node that serves connections. -/
inductive ServedEvent
  | frame (conn : Nat) (nowMs : Nat) (env : HandlerEnv) (frame : Frame)
  /-- The replica of the metadata state machine applies a request. -/
  | applied (req : MetadataRequest)
  | grant (volumeId : VolumeId) (identity : String) (permission : VolumePermission)
  | revoke (volumeId : VolumeId) (identity : String)
  | removeVolume (volumeId : VolumeId)
  /-- The node looks after its disks. -/
  | disk (op : NodeOp)
  /-- The node is stopped and started again: every connection it served is gone. -/
  | restart (inventory : DiskInventory) (order : IterOrder DiskId)
      (scan : DiskId → IterOrder (ExtentId × ExtentVersion))

def dropped : Connection → Connection
  | .serving _ => .closed
  | conn => conn

namespace ServedNode

/-- The node changes its access control list. -/
def setAcl (n : ServedNode) (acl : VolumeAcl) : ServedNode :=
  { n with node := { n.node with service := { n.node.service with volumeAcl := acl } } }

/-- `BlockyardNode::start`, before the first connection. -/
def start (x : Externals) (nodeId : NodeId) (inventory : DiskInventory)
    (scan : DiskId → IterOrder (ExtentId × ExtentVersion)) (disks : List ExtentStore) :
    ServedNode where
  node := .start x nodeId inventory scan disks
  connections _ := .greeting

variable (x : Externals) (ovf : Overflow) (auth : Option AuthProvider)

def receive (n : ServedNode) (conn nowMs : Nat) (env : HandlerEnv) (frame : Frame) :
    ServedNode × Reply :=
  let ((service, connection), reply) :=
    handleFrame ⟨n.node.nodeId, auth⟩ (dataNodeHandler x ovf (.node n.node.nodeId)) nowMs env
      n.node.service (n.connections conn) frame
  ({ node := { n.node with service }
     connections := Function.update n.connections conn connection }, reply)

def step (n : ServedNode) : ServedEvent → ServedNode × Reply
  | .frame conn nowMs env frame => n.receive x ovf auth conn nowMs env frame
  | .applied req => ({ n with node := (n.node.step x ovf (.applied req)).1 }, .nothing)
  | .grant volumeId identity permission =>
    (n.setAcl (n.node.service.volumeAcl.grant volumeId identity permission), .nothing)
  | .revoke volumeId identity =>
    (n.setAcl (n.node.service.volumeAcl.revoke volumeId identity), .nothing)
  | .removeVolume volumeId =>
    (n.setAcl (n.node.service.volumeAcl.removeVolume volumeId), .nothing)
  | .disk op => ({ n with node := (n.node.step x ovf (.disk op)).1 }, .nothing)
  | .restart inventory order scan =>
    ({ node := (n.node.step x ovf (.restart inventory order scan)).1
       connections := fun conn => dropped (n.connections conn) }, .nothing)

def after (n : ServedNode) (events : List ServedEvent) : ServedNode :=
  runState (step x ovf auth) n events

end ServedNode

/-! ## 2. What one event does -/

section Step

variable {x : Externals} {ovf : Overflow} {auth : Option AuthProvider} {n : ServedNode}

/-- A property of the service that survives writes and reads survives every frame. -/
theorem receive_service {P : DataNodeService → Prop} (conn nowMs : Nat) (env : HandlerEnv)
    (frame : Frame) (h : P n.node.service)
    (hwrite : ∀ request payload, frame = .message (.writeReq request) payload →
      P (n.node.service.handleWrite x env.write request payload (.node n.node.nodeId)).1)
    (hread : ∀ request,
      P (n.node.service.handleRead x ovf env.read request (.node n.node.nodeId)).1) :
    P (n.receive x ovf auth conn nowMs env frame).1.node.service := by
  have hservice : (n.receive x ovf auth conn nowMs env frame).1.node.service
      = (handleFrame ⟨n.node.nodeId, auth⟩ (dataNodeHandler x ovf (.node n.node.nodeId)) nowMs env
          n.node.service (n.connections conn) frame).1.1 := rfl
  rw [hservice]
  rcases handleFrame_cases ⟨n.node.nodeId, auth⟩ (dataNodeHandler x ovf (.node n.node.nodeId))
      nowMs env n.node.service (n.connections conn) frame with
    ⟨request, payload, hframe, heq⟩ | ⟨request, payload, -, heq⟩ | heq
  · rw [heq]
    exact hwrite request payload hframe
  · rw [heq]
    exact hread request
  · rw [heq]
    exact h

/-- **No event tells the service of an epoch or a lease.** -/
theorem unconnected_served_step (h : Unconnected n.node.service) (event : ServedEvent) :
    Unconnected (n.step x ovf auth event).1.node.service := by
  cases event with
  | frame conn nowMs env frame =>
    refine receive_service conn nowMs env frame h ?_ ?_
    · intro request payload _
      obtain ⟨hepoch, hleases⟩ := handleWrite_frame (x := x) env.write n.node.service request
        payload (.node n.node.nodeId)
      exact ⟨hepoch.trans h.epoch, hleases.trans h.leases⟩
    · intro request
      exact unconnected_step h (.read env.read request)
  | applied req => exact h
  | grant | revoke | removeVolume => exact ⟨h.epoch, h.leases⟩
  | disk op => exact unconnected_step h (.disk op)
  | restart inventory order scan => exact unconnected_startStorage scan inventory _

theorem unconnected_served_run (h : Unconnected n.node.service) (events : List ServedEvent) :
    Unconnected (n.after x ovf auth events).node.service :=
  runState_invariant (P := fun n : ServedNode => Unconnected n.node.service) h
    (fun _ event h => unconnected_served_step h event) events

def writeIds (events : List ServedEvent) : List OperationId :=
  events.filterMap fun
    | .frame _ _ _ (.message (.writeReq request) _) => some request.operationId
    | _ => none

/-- An event leaves no record under an operation id it does not bring. -/
theorem unseen_step {o : OperationId} (h : n.node.service.checkDuplicate o = none)
    {event : ServedEvent} (hne : o ∉ writeIds [event]) :
    (n.step x ovf auth event).1.node.service.checkDuplicate o = none := by
  cases event with
  | frame conn nowMs env frame =>
    refine receive_service (P := fun s => s.checkDuplicate o = none) conn nowMs env frame h ?_ ?_
    · rintro request payload rfl
      refine checkDuplicate_handleWrite_of_ne env.write payload _ ?_ h
      rintro rfl
      exact hne List.mem_cons_self
    · intro request
      obtain ⟨inv, -, heq⟩ :=
        handleRead_fst x ovf env.read n.node.service request (.node n.node.nodeId)
      rw [heq]
      exact h
  | applied | grant | revoke | removeVolume => exact h
  | disk op =>
    change (n.node.step x ovf (.disk op)).1.service.checkDuplicate o = none
    rw [RunningNode.step]
    split
    case isTrue hdisk =>
      have hlog : (nodeStep x ovf n.node.service op).1.operationLog
          = n.node.service.operationLog := by
        refine (nodeStep_frame x ovf n.node.service op ?_).1
        rintro env request payload caller rfl
        cases hdisk
      change (nodeStep x ovf n.node.service op).1.operationLog[o]? = none
      rw [hlog]
      exact h
    case isFalse => exact h
  | restart inventory order scan =>
    have hempty : (startStorage x scan inventory
        (disksInOrder n.node.service order)).operationLog = ∅ :=
      startStorage_of (P := fun s => s.operationLog = ∅) rfl fun _ _ _ h => h
    change (startStorage x scan inventory
      (disksInOrder n.node.service order)).operationLog[o]? = none
    rw [hempty]
    exact ExtTreeMap.getElem?_empty

/-- **An operation id no write request brought is not in the log.** -/
theorem unseen_run {o : OperationId} (h : n.node.service.checkDuplicate o = none)
    {events : List ServedEvent} (hne : o ∉ writeIds events) :
    (n.after x ovf auth events).node.service.checkDuplicate o = none := by
  refine runState_history (P := fun seen (n : ServedNode) => o ∉ writeIds seen →
    n.node.service.checkDuplicate o = none) (fun _ => h) ?_ hne
  intro before event after _ ih hseen
  rw [writeIds, List.filterMap_append, List.mem_append, not_or] at hseen
  exact unseen_step (ih hseen.1) hseen.2

section Write

variable {request : WriteExtentRequest} (hserving : n.connections conn = .serving peer)
  (hsize : payload.length = request.payloadSize) (h : Unconnected n.node.service)

include hserving hsize

/-- A write request on a connection that is served. -/
theorem receive_write :
    (n.receive x ovf auth conn nowMs env (.message (.writeReq request) payload)).2
        = .write (n.node.service.handleWrite x env.write request payload
            (.node n.node.nodeId)).2 ∧
      (n.receive x ovf auth conn nowMs env (.message (.writeReq request) payload)).1.node.service
        = (n.node.service.handleWrite x env.write request payload (.node n.node.nodeId)).1 := by
  unfold ServedNode.receive
  rw [hserving, handleFrame_write hsize]
  exact ⟨rfl, rfl⟩

include h

/-- **Epochs have no part in which writes fail.** -/
theorem failed_write_iff
    (hnew : n.node.service.checkDuplicate request.operationId = none) :
    (n.receive x ovf auth conn nowMs env (.message (.writeReq request) payload)).2.Failed ↔
      ¬ Admissible x env.write n.node.service request payload := by
  have hadm : (n.node.service.handleWrite x env.write request payload
      (.node n.node.nodeId)).2.success = true ↔
        Admissible x env.write n.node.service request payload :=
    handleWrite_success_iff_admissible hnew rfl (by rw [h.epoch]; exact Nat.zero_le _)
      (by rw [h.leases]; exact ExtTreeMap.getElem?_empty)
  rw [(receive_write hserving hsize).1, ← hadm, Bool.not_eq_true]
  rfl

/-- **Permissions have no part in which writes are refused.** -/
theorem refused_write_iff :
    ((n.receive x ovf auth conn nowMs env (.message (.writeReq request) payload)).2.Failed ∧
        SameExtents n.node.service (n.receive x ovf auth conn nowMs env
          (.message (.writeReq request) payload)).1.node.service) ↔
      WriteStopped x env.write n.node.service request payload := by
  have hstop : FailsQuietly n.node.service (n.node.service.handleWrite x env.write request payload
      (.node n.node.nodeId)) ↔ WriteStopped x env.write n.node.service request payload :=
    handleWrite_failsQuietly_iff rfl (by rw [h.epoch]; exact Nat.zero_le _)
      (by rw [h.leases]; exact ExtTreeMap.getElem?_empty)
  obtain ⟨hreply, hservice⟩ := receive_write (x := x) hserving hsize
  rw [hreply, hservice, ← hstop]
  rfl

end Write

/-- **Permissions have no part in which reads are refused.** -/
theorem refused_read_iff (h : Unconnected n.node.service) {request : ReadExtentRequest}
    (hserving : n.connections conn = .serving peer) :
    ((n.receive x ovf auth conn nowMs env (.message (.readReq request) payload)).2.Failed ∧
        SameExtents n.node.service (n.receive x ovf auth conn nowMs env
          (.message (.readReq request) payload)).1.node.service) ↔
      ReadStopped x env.read n.node.service request := by
  have hepoch : n.node.service.validateEpochForRead request.epoch = .ok () := by
    rw [validateEpochForRead, h.epoch]
    exact if_neg (by simp)
  have hstop : FailsReading n.node.service (n.node.service.handleRead x ovf env.read request
      (.node n.node.nodeId)) ↔ ReadStopped x env.read n.node.service request :=
    handleRead_failsReading_iff rfl hepoch
  rw [← hstop]
  unfold ServedNode.receive
  rw [hserving]
  rcases hread : n.node.service.handleRead x ovf env.read request (.node n.node.nodeId) with
    ⟨s', _ | ⟨response, data⟩⟩
  · have hpanic : (dataNodeHandler x ovf (.node n.node.nodeId)).handleRead env n.node.service
        request = (s', none) := hread
    rw [handleFrame_read_none hpanic]
    simp [Reply.Failed, FailsReading]
  · have hanswer : (dataNodeHandler x ovf (.node n.node.nodeId)).handleRead env n.node.service
        request = (s', some (response, data)) := hread
    rw [handleFrame_read hanswer]
    simp [Reply.Failed, FailsReading]

end Step

/-! ## 3. Requests along a run -/

section Runs

variable (x : Externals) (ovf : Overflow) (auth : Option AuthProvider)

/-- A write request that reaches the handler after the events `before` of a run. -/
structure WriteArrives (n : ServedNode) (events before : List ServedEvent) (conn nowMs : Nat)
    (env : HandlerEnv) (request : WriteExtentRequest) (payload : Bytes)
    (peer : Option PeerIdentity) : Prop where
  occurs : ∃ later,
    events = before ++ .frame conn nowMs env (.message (.writeReq request) payload) :: later
  serving : (n.after x ovf auth before).connections conn = .serving peer
  size : payload.length = request.payloadSize

/-- A read request that reaches the handler after the events `before` of a run. -/
structure ReadArrives (n : ServedNode) (events before : List ServedEvent) (conn nowMs : Nat)
    (env : HandlerEnv) (request : ReadExtentRequest) (rest : Bytes)
    (peer : Option PeerIdentity) : Prop where
  occurs : ∃ later,
    events = before ++ .frame conn nowMs env (.message (.readReq request) rest) :: later
  serving : (n.after x ovf auth before).connections conn = .serving peer

/-- **What the epoch of a write promises**: a write placed before the epoch that the node's own
metadata is at, under a new operation id, is rejected. -/
def StaleRejected (n : ServedNode) (events : List ServedEvent) : Prop :=
  ∀ before conn nowMs env request payload peer,
    WriteArrives x ovf auth n events before conn nowMs env request payload peer →
    request.epoch < (n.after x ovf auth before).node.metadata.epoch →
    request.operationId ∉ writeIds before →
    ((n.after x ovf auth before).receive x ovf auth conn nowMs env
      (.message (.writeReq request) payload)).2.Failed

/-- **What the access control list promises**: a request of a client without the permission for it
is answered with failure, and changes no stored extent. -/
structure AccessControlled (n : ServedNode) (events : List ServedEvent) : Prop where
  write : ∀ before conn nowMs env request payload sid,
    WriteArrives x ovf auth n events before conn nowMs env request payload (some (.client sid)) →
    (n.after x ovf auth before).node.service.volumeAcl.checkWrite request.volumeId (.client sid)
      = false →
    ((n.after x ovf auth before).receive x ovf auth conn nowMs env
        (.message (.writeReq request) payload)).2.Failed ∧
      SameExtents (n.after x ovf auth before).node.service
        ((n.after x ovf auth before).receive x ovf auth conn nowMs env
          (.message (.writeReq request) payload)).1.node.service
  read : ∀ before conn nowMs env request rest sid,
    ReadArrives x ovf auth n events before conn nowMs env request rest (some (.client sid)) →
    (n.after x ovf auth before).node.service.volumeAcl.checkRead request.volumeId (.client sid)
      = false →
    ((n.after x ovf auth before).receive x ovf auth conn nowMs env
        (.message (.readReq request) rest)).2.Failed ∧
      SameExtents (n.after x ovf auth before).node.service
        ((n.after x ovf auth before).receive x ovf auth conn nowMs env
          (.message (.readReq request) rest)).1.node.service

variable (nodeId : NodeId) (inventory : DiskInventory)
  (scan : DiskId → IterOrder (ExtentId × ExtentVersion)) (disks : List ExtentStore)
  (events : List ServedEvent)

theorem unconnected_start_run (before : List ServedEvent) :
    Unconnected (ServedNode.after x ovf auth (.start x nodeId inventory scan disks)
      before).node.service :=
  unconnected_served_run (unconnected_startStorage scan inventory disks) before

/-- **STALE EPOCHS.**  A run keeps the promise exactly when every write with an old placement epoch
meets an obstacle that has nothing to do with epochs: a wrong checksum, no disk, a disk that
fails. -/
theorem stale_writes_rejected_iff :
    StaleRejected x ovf auth (.start x nodeId inventory scan disks) events ↔
      ∀ before conn nowMs env request payload peer,
        WriteArrives x ovf auth (.start x nodeId inventory scan disks) events before conn nowMs env
          request payload peer →
        request.epoch <
          (ServedNode.after x ovf auth (.start x nodeId inventory scan disks)
            before).node.metadata.epoch →
        request.operationId ∉ writeIds before →
        ¬ Admissible x env.write
          (ServedNode.after x ovf auth (.start x nodeId inventory scan disks) before).node.service
          request payload := by
  have hun := unconnected_start_run x ovf auth nodeId inventory scan disks
  have hnew : ∀ o, (ServedNode.start x nodeId inventory scan disks).node.service.checkDuplicate o
      = none := fun o =>
    startStorage_of (P := fun s => s.checkDuplicate o = none) ExtTreeMap.getElem?_empty
      fun _ _ _ h => h
  generalize ServedNode.start x nodeId inventory scan disks = n at *
  refine forall₅_congr fun before conn nowMs env request => forall₂_congr fun payload peer => ?_
  refine imp_congr_right fun harr => imp_congr_right fun _ => imp_congr_right fun hseen => ?_
  exact failed_write_iff harr.serving harr.size (hun before) (unseen_run (hnew _) hseen)

end Runs

/-! ### An epoch that goes by -/

def hello (token : Option AuthToken) : HandshakeRequest where
  protocolVersion := currentProtocolVersion
  nodeId := none
  sessionId := none
  features := []
  authToken := token

def calmHandling : HandlerEnv := ⟨calmEnv, ⟨none, none⟩⟩

noncomputable def oneDiskServed : ServedNode :=
  .start (jsonExternals sampleBlake3) ⟨2#128⟩ oneDisk (fun _ => .sorted _)
    [⟨"/mnt/d0", sampleDisk, ∅⟩]

/-- Nothing is in the way of `lateCall` while the disk is as it was at the start. -/
theorem admissible_lateCall {n : ServedNode} (h : n.node.service = oneDiskServed.node.service) :
    Admissible (jsonExternals sampleBlake3) calmEnv n.node.service lateCall.request
      lateCall.data := by
  rw [h]
  refine ⟨?_, ⟨sampleDisk, ?_, selectWriteDisk_oneDisk _⟩, fun _ _ => rfl, fun _ _ => rfl⟩
  · have hsum : "48fc721fbbc172e0925fa27af1671de225ba927134802998b10a1568a188652b"
        = computeChecksum sampleBlake3 [1] := by decide
    exact hsum
  · rw [ExtTreeMap.mem_iff_isSome_getElem?]
    rfl

/-- The node performs `lateCall` for whoever sends it. -/
theorem lateCall_not_failed {auth : Option AuthProvider} {n : ServedNode}
    (h : n.node.service = oneDiskServed.node.service)
    (hserving : n.connections conn = .serving peer) :
    ¬ (n.receive (jsonExternals sampleBlake3) .wrapping auth conn 0 calmHandling
      (.message (.writeReq lateCall.request) lateCall.data)).2.Failed := by
  have hun : Unconnected n.node.service := by
    rw [h]
    exact unconnected_startStorage (x := jsonExternals sampleBlake3) (fun _ => .sorted _) oneDisk
      [⟨"/mnt/d0", sampleDisk, ∅⟩]
  have hnew : n.node.service.checkDuplicate lateCall.request.operationId = none := by
    rw [h]
    rfl
  rw [failed_write_iff hserving rfl hun hnew, not_not]
  exact admissible_lateCall h

def epochPasses : List ServedEvent :=
  [.applied .advanceEpoch, .frame 0 0 calmHandling (.handshake (hello none))]

/-- **A write placed at epoch 0 is accepted**, although the node's own metadata is at epoch 1. -/
theorem stale_write_accepted :
    (oneDiskServed.after (jsonExternals sampleBlake3) .wrapping none
        epochPasses).node.metadata.epoch = 1 ∧
      ¬ StaleRejected (jsonExternals sampleBlake3) .wrapping none oneDiskServed
        (epochPasses ++ [.frame 0 0 calmHandling
          (.message (.writeReq lateCall.request) lateCall.data)]) := by
  have hepoch : (oneDiskServed.after (jsonExternals sampleBlake3) .wrapping none
      epochPasses).node.metadata.epoch = 1 := by rfl
  refine ⟨hepoch, ?_⟩
  intro hrejected
  have hserving : (oneDiskServed.after (jsonExternals sampleBlake3) .wrapping none
      epochPasses).connections 0 = .serving none := by rfl
  refine lateCall_not_failed (by rfl) hserving
    (hrejected epochPasses 0 0 calmHandling lateCall.request lateCall.data none
      ⟨⟨[], rfl⟩, hserving, rfl⟩ ?_ ?_)
  · rw [hepoch]
    decide
  · simp [writeIds, epochPasses]

/-! ## 4. Access control -/

section Acl

variable (x : Externals) (ovf : Overflow) (auth : Option AuthProvider) (nodeId : NodeId)
  (inventory : DiskInventory) (scan : DiskId → IterOrder (ExtentId × ExtentVersion))
  (disks : List ExtentStore) (events : List ServedEvent)

/-- **ACCESS CONTROL.**  A run keeps the promise exactly when every request of a client without
permission meets an obstacle that has nothing to do with permissions. -/
theorem access_controlled_iff :
    AccessControlled x ovf auth (.start x nodeId inventory scan disks) events ↔
      (∀ before conn nowMs env request payload sid,
        WriteArrives x ovf auth (.start x nodeId inventory scan disks) events before conn nowMs env
          request payload (some (.client sid)) →
        (ServedNode.after x ovf auth (.start x nodeId inventory scan disks)
          before).node.service.volumeAcl.checkWrite request.volumeId (.client sid) = false →
        WriteStopped x env.write (ServedNode.after x ovf auth
          (.start x nodeId inventory scan disks) before).node.service request payload) ∧
      ∀ before conn nowMs env request rest sid,
        ReadArrives x ovf auth (.start x nodeId inventory scan disks) events before conn nowMs env
          request rest (some (.client sid)) →
        (ServedNode.after x ovf auth (.start x nodeId inventory scan disks)
          before).node.service.volumeAcl.checkRead request.volumeId (.client sid) = false →
        ReadStopped x env.read (ServedNode.after x ovf auth
          (.start x nodeId inventory scan disks) before).node.service request := by
  have hun := unconnected_start_run x ovf auth nodeId inventory scan disks
  generalize ServedNode.start x nodeId inventory scan disks = n at *
  have hsplit : AccessControlled x ovf auth n events ↔ _ ∧ _ :=
    ⟨fun h => ⟨h.write, h.read⟩, fun h => ⟨h.1, h.2⟩⟩
  rw [hsplit]
  refine and_congr ?_ ?_
  · refine forall₅_congr fun before conn nowMs env request => forall₂_congr fun payload sid => ?_
    refine imp_congr_right fun harr => imp_congr_right fun _ => ?_
    exact refused_write_iff harr.serving harr.size (hun before)
  · refine forall₅_congr fun before conn nowMs env request => forall₂_congr fun rest sid => ?_
    refine imp_congr_right fun harr => imp_congr_right fun _ => ?_
    exact refused_read_iff (hun before) harr.serving

end Acl

/-! ### A client without permissions -/

def oneClient : AuthProvider where
  validateToken _ token :=
    if token.signature = "5f1c" then .ok (.client ⟨1#128⟩)
    else .error "auth error: invalid token signature"

def clientConnects : List ServedEvent :=
  [.frame 0 0 calmHandling (.handshake (hello (some ⟨"client:1", 0, 300000, "5f1c"⟩)))]

/-- **A client without any permission writes**: the connection is authenticated as client 1, the
access control list is empty, and the write goes through. -/
theorem unpermitted_write_accepted :
    (oneDiskServed.after (jsonExternals sampleBlake3) .wrapping (some oneClient)
        clientConnects).connections 0 = .serving (some (.client ⟨1#128⟩)) ∧
      ¬ AccessControlled (jsonExternals sampleBlake3) .wrapping (some oneClient) oneDiskServed
        (clientConnects ++ [.frame 0 0 calmHandling
          (.message (.writeReq lateCall.request) lateCall.data)]) := by
  have hserving : (oneDiskServed.after (jsonExternals sampleBlake3) .wrapping (some oneClient)
      clientConnects).connections 0 = .serving (some (.client ⟨1#128⟩)) := by rfl
  refine ⟨hserving, ?_⟩
  intro hcontrolled
  have hacl : (oneDiskServed.after (jsonExternals sampleBlake3) .wrapping (some oneClient)
      clientConnects).node.service.volumeAcl.checkWrite lateCall.request.volumeId
        (.client ⟨1#128⟩) = false := by rfl
  exact lateCall_not_failed (by rfl) hserving
    (hcontrolled.write clientConnects 0 0 calmHandling lateCall.request lateCall.data ⟨1#128⟩
      ⟨⟨[], rfl⟩, hserving, rfl⟩ hacl).1

end Blockyard.Node
