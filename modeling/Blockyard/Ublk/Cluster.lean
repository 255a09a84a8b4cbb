/-
# The cluster behind the block handler

The data plane of a running system: `TcpDataNodeClient` (`tcp_client.rs`) in front of one
`DataNodeService` per node, each of which takes its callers for the node itself
(`DataNodeHandler` in `node.rs`).  A call is one round trip, and a second one when the first
fails; a round trip can lose the request or the answer.
-/
import Blockyard.Ublk.BlockHandler
import Blockyard.Storage.Register

open Std CrashFs

namespace Blockyard.Ublk

open Storage

/-! ## 1. Round trips -/

/-- What becomes of a round trip. -/
inductive Delivery
  | delivered
  | requestLost (text : String)
  | responseLost (text : String)
  deriving DecidableEq, Repr

/-- What the environment decides during one round trip. -/
structure Tick where
  delivery : Delivery
  writeEnv : WriteEnv
  readFault : ExtentStore.ReadFault
  /-- The ids a read request is sent with. -/
  operationId : OperationId
  sessionId : SessionId

/-- The data nodes with a registered address, and the number of round trips so far. -/
structure Cluster where
  nodes : HashMap NodeId DataNodeService
  tick : Nat

/-- The cluster after a round trip that left a node in a new state. -/
def Cluster.setNode (cl : Cluster) (nodeId : NodeId) (svc : DataNodeService) : Cluster :=
  ⟨cl.nodes.insert nodeId svc, cl.tick + 1⟩

/-- The cluster after a round trip that reached no node. -/
def Cluster.skip (cl : Cluster) : Cluster := ⟨cl.nodes, cl.tick + 1⟩

/-- `get_connection` for a node nobody registered. -/
def noAddress (nodeId : NodeId) : Error := .network s!"no address registered for node {nodeId}"

/-! ## 2. The TCP client -/

/-- The request `try_write_extent` sends. -/
def WriteCall.request (call : WriteCall) : WriteExtentRequest where
  operationId := call.operationId
  sessionId := call.sessionId
  volumeId := call.volumeId
  extentId := call.extentId
  extentVersion := call.extentVersion
  epoch := call.epoch
  targetDiskId := none
  checksum := call.checksum
  payloadSize := call.data.length
  leaseVersion := none

/-- `convert_write_response`: the kind of a failure is read off its text. -/
def convertWriteResponse (nodeId : NodeId) (resp : WriteExtentResponse) : WriteAck where
  nodeId := nodeId
  success := resp.success
  checksum := resp.checksum
  error :=
    if resp.success then none
    else
      let errMsg := resp.error.getD ""
      if DataNodeService.containsText errMsg "stale" || DataNodeService.containsText errMsg "epoch"
      then some .staleEpoch
      else if DataNodeService.containsText errMsg "disk"
          || DataNodeService.containsText errMsg "unavailable" then some .diskUnavailable
      else if DataNodeService.containsText errMsg "duplicate" then some .duplicateOperation
      else some (.internalError errMsg)

variable (x : Externals) (ovf : Overflow) (world : Nat → Tick)

def tryWriteExtent (cl : Cluster) (call : WriteCall) : Cluster × Except Error WriteAck :=
  match cl.nodes[call.nodeId]? with
  | none => (cl.skip, .error (noAddress call.nodeId))
  | some svc =>
    let (svc, resp) := svc.handleWrite x (world cl.tick).writeEnv call.request call.data
      (.node call.nodeId)
    match (world cl.tick).delivery with
    | .requestLost text => (cl.skip, .error (.network text))
    | .responseLost text => (cl.setNode call.nodeId svc, .error (.network text))
    | .delivered => (cl.setNode call.nodeId svc, .ok (convertWriteResponse call.nodeId resp))

/-- `write_extent`: a failure is retried once. -/
def tcpWriteExtent (cl : Cluster) (call : WriteCall) : Cluster × Except Error WriteAck :=
  match tryWriteExtent x world cl call with
  | (cl, .ok ack) => (cl, .ok ack)
  | (cl, .error _) => tryWriteExtent x world cl call

/-- The request `try_read_extent` sends; its epoch is always 0. -/
def ReadCall.request (call : ReadCall) (tick : Tick) : ReadExtentRequest where
  operationId := tick.operationId
  sessionId := tick.sessionId
  volumeId := call.volumeId
  extentId := call.extentId
  extentVersion := call.extentVersion
  epoch := 0
  offset := call.offset
  length := call.length

/-- What the client makes of a node's answer; a node that panics closes the connection. -/
def readAnswer (nodeId : NodeId) : Option (ReadExtentResponse × Option Bytes) → Except Error Bytes
  | none => .error (.network "failed to read frame length: early eof")
  | some (resp, payload) =>
    if resp.success then .ok (if resp.payloadSize > 0 then payload.getD [] else [])
    else
      let text := resp.error.getD ""
      .error (.storage s!"read failed on node {nodeId}: {text}")

def tryReadExtent (cl : Cluster) (call : ReadCall) : Cluster × Except Error Bytes :=
  match cl.nodes[call.nodeId]? with
  | none => (cl.skip, .error (noAddress call.nodeId))
  | some svc =>
    let (svc, answer) := svc.handleRead x ovf (world cl.tick).readFault
      (call.request (world cl.tick)) (.node call.nodeId)
    match (world cl.tick).delivery with
    | .requestLost text => (cl.skip, .error (.network text))
    | .responseLost text => (cl.setNode call.nodeId svc, .error (.network text))
    | .delivered => (cl.setNode call.nodeId svc, readAnswer call.nodeId answer)

/-- `read_extent`, and the wrapping of its errors by `DataNodeReader`. -/
def tcpReadExtent (cl : Cluster) (call : ReadCall) : Cluster × Except String Bytes :=
  let (cl, result) : Cluster × Except Error Bytes := match tryReadExtent x ovf world cl call with
    | (cl, .ok data) => (cl, .ok data)
    | (cl, .error _) => tryReadExtent x ovf world cl call
  (cl, match result with
    | .ok data => .ok data
    | .error e => .error s!"data node read failed on node {call.nodeId}: {e}")

def tcpPlane : DataPlane Cluster where
  writeExtent := tcpWriteExtent x world
  readExtent := tcpReadExtent x ovf world

end Blockyard.Ublk
