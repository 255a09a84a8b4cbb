/-
# The client's write pipelines

`blockyard-ublk`: the traits of the data plane (`traits.rs`), the metadata cache, watermark,
session and lease the block handler holds, and the replicated and erasure-coded write
pipelines (`write_pipeline.rs`, `ec_write_pipeline.rs`).

The handler is generic over its data-node client, and so is the model: a `DataPlane` is any
pair of calls on any state.  Writes to several nodes are spawned together; the order in which
they take effect is the environment's (`sendOrder`), as are the operation id a write draws and
what the metadata service answers.  The extent mappings of the metadata cache are left out:
the pipelines store them and the handler never reads them.
-/
import Blockyard.Common.Placement

open Std

namespace Blockyard.Ublk

/-! ## 1. The data plane -/

/-- The arguments of `DataNodeClient::write_extent`. -/
structure WriteCall where
  nodeId : NodeId
  operationId : OperationId
  sessionId : SessionId
  volumeId : VolumeId
  extentId : ExtentId
  extentVersion : Nat
  epoch : EpochId
  data : Bytes
  checksum : String
  deriving DecidableEq, Repr

/-- The arguments of `DataNodeReader::read_extent`. -/
structure ReadCall where
  nodeId : NodeId
  volumeId : VolumeId
  extentId : ExtentId
  extentVersion : Nat
  offset : Nat
  length : Nat
  deriving DecidableEq, Repr

inductive WriteAckError
  | staleEpoch | diskUnavailable | duplicateOperation
  | internalError (text : String)
  deriving DecidableEq, Repr

structure WriteAck where
  nodeId : NodeId
  success : Bool
  checksum : String
  error : Option WriteAckError
  deriving DecidableEq, Repr

/-- `DataNodeClient` and `DataNodeReader`, over the state they act on.  A failing read is known
by its text. -/
structure DataPlane (σ : Type) where
  writeExtent : σ → WriteCall → σ × Except Error WriteAck
  readExtent : σ → ReadCall → σ × Except String Bytes

/-! ## 2. What the handler holds -/

structure CachedVolumeInfo where
  protection : ProtectionPolicy
  deriving DecidableEq, Repr

/-- `CachedVolumeInfo::extent_blocks`: always one block per extent. -/
def CachedVolumeInfo.extentBlocks (_ : CachedVolumeInfo) : Nat := 1

/-- `MetadataCache`; the cluster map gives each node's address. -/
structure MetadataCache where
  epoch : EpochId
  clusterMap : BTreeMap NodeId String
  volumes : BTreeMap VolumeId CachedVolumeInfo

/-- `list_nodes`, of which only the ids are used. -/
def MetadataCache.listNodes (cache : MetadataCache) : List NodeId := cache.clusterMap.keys

inductive LeaseState
  | none | active | lost
  deriving DecidableEq, Repr

/-- What a `ClusterBlockHandler` holds beside its configuration. -/
structure Client where
  cache : MetadataCache
  watermark : EpochId
  /-- `StaleEpochHandler::paused`. -/
  paused : Bool
  leaseState : LeaseState
  leaseVersion : Option LeaseVersion
  sessionId : SessionId

def Client.advance (c : Client) (epoch : EpochId) : Client :=
  { c with watermark := max c.watermark epoch }

def Client.checkWriteAllowed (c : Client) : Except Error LeaseVersion :=
  match c.leaseState with
  | .active =>
    match c.leaseVersion with
    | some version => .ok version
    | none => .error (.auth "lease active but no version")
  | .none => .error (.auth "no write lease held")
  | .lost => .error (.auth "write lease lost — renewal failed")

/-- `handle_stale_epoch`: refresh the cache unless it is newer than the epoch in question.
Writes are paused while it runs and not afterwards. -/
def Client.handleStaleEpoch (c : Client) (refresh : Except Error MetadataCache)
    (staleEpoch : EpochId) : Client :=
  if c.cache.epoch > staleEpoch then { c with paused := false }
  else
    match refresh with
    | .ok cache => { c with cache, paused := false }
    | .error _ => { c with paused := false }

/-- `WriteOutcome`; no pipeline ends in `MetadataCommitFailed` any more. -/
inductive WriteOutcome
  | committed (epoch : EpochId)
  | insufficientAcks (acked required : Nat)
  | staleEpoch
  | metadataCommitFailed (reason : String)
  deriving DecidableEq, Repr

/-- What the environment decides while one chunk is written, attempt by attempt. -/
structure ChunkEnv where
  /-- `OperationId::generate`. -/
  operationId : OperationId
  /-- The order in which the spawned writes take effect. -/
  sendOrder : Nat → IterOrder WriteCall
  /-- What `lookup_operation` finds before a retry. -/
  lookup : Nat → Option EpochId
  /-- What `refresh_metadata` brings after a stale epoch. -/
  refresh : Nat → Except Error MetadataCache

def maxRetries : Nat := 3

section Pipelines

variable {σ : Type} (plane : DataPlane σ) (blake3 : Bytes → BitVec 256)

/-- One spawned write: a failing call becomes a failing acknowledgement. -/
def sendOne (s : σ) (call : WriteCall) : σ × WriteAck :=
  match plane.writeExtent s call with
  | (s, .ok ack) => (s, ack)
  | (s, .error e) =>
    (s, { nodeId := call.nodeId
          success := false
          checksum := ""
          error := some (.internalError (toString e)) })

/-- `transmit_to_replicas` and `transmit_fragments`: all calls, in the order they take
effect. -/
def transmit (order : IterOrder WriteCall) (s : σ) (calls : List WriteCall) : σ × List WriteAck :=
  (order.arrange calls).foldl (fun acc call =>
    let (s, ack) := sendOne plane acc.1 call
    (s, acc.2 ++ [ack])) (s, [])

/-- The end of `execute_once`, the same in both pipelines: a stale epoch refreshes the cache,
too few acknowledgements fail, enough of them advance the watermark. -/
def settle (c : Client) (refresh : Except Error MetadataCache) (epoch : EpochId)
    (requiredAcks : Nat) (acks : List WriteAck) : Client × WriteOutcome :=
  if acks.any (fun a => a.error = some .staleEpoch) then
    (c.handleStaleEpoch refresh epoch, .staleEpoch)
  else
    let acked := (acks.filter (·.success)).length
    if acked < requiredAcks then (c, .insufficientAcks acked requiredAcks)
    else (c.advance epoch, .committed epoch)

/-! ## 3. Replicated writes -/

structure WriteRequest where
  volumeId : VolumeId
  startBlock : Nat
  data : Bytes
  extentBlocks : Nat

/-- How many acknowledgements a replicated write waits for. -/
def requiredAcks (replicas : Nat) : Nat := if replicas > 1 then replicas / 2 + 1 else replicas

def replicaCall (c : Client) (env : ChunkEnv) (request : WriteRequest) (nodeId : NodeId) :
    WriteCall where
  nodeId := nodeId
  operationId := env.operationId
  sessionId := c.sessionId
  volumeId := request.volumeId
  extentId := PlacementEngine.extentIdForExtent blake3 request.volumeId
    (request.startBlock / max request.extentBlocks 1)
  extentVersion := PlacementEngine.extentVersion
  epoch := c.cache.epoch
  data := request.data
  checksum := computeChecksum blake3 request.data

def executeOnce (env : ChunkEnv) (attempt : Nat) (c : Client) (s : σ) (request : WriteRequest) :
    Client × σ × Except Error WriteOutcome :=
  if c.paused then (c, s, .error (.storage "writes paused due to stale epoch"))
  else
    match c.cache.volumes[request.volumeId]? with
    | none => (c, s, .error (.storage s!"volume {request.volumeId} not found in cache"))
    | some volumeInfo =>
      let availableNodes := c.cache.listNodes
      let extentNum := request.startBlock / max request.extentBlocks 1
      let (required, replicaNodes) := match volumeInfo.protection with
        | .replicated replicas =>
          (requiredAcks replicas, PlacementEngine.selectNodes blake3 request.volumeId extentNum
            availableNodes replicas)
        | .erasureCoded dataChunks parityChunks =>
          ((dataChunks + parityChunks) % 256, PlacementEngine.selectEcNodes blake3
            request.volumeId extentNum availableNodes dataChunks parityChunks)
      if replicaNodes.isEmpty then (c, s, .error (.storage "no replica nodes available"))
      else
        let (s, acks) := transmit plane (env.sendOrder attempt) s
          (replicaNodes.map (replicaCall blake3 c env request))
        let (c', outcome) := settle c (env.refresh attempt) c.cache.epoch required acks
        (c', s, .ok outcome)

/-- The retry loop of `WritePipeline::execute_with_op_id`, over the attempts still to make. -/
def executeAttempts (env : ChunkEnv) (request : WriteRequest) :
    List Nat → Option Error → Client → σ → Client × σ × Except Error WriteOutcome
  | [], lastError, c, s =>
    (c, s, .error (lastError.getD (.storage "write failed after retries")))
  | attempt :: rest, _, c, s =>
    match (if attempt > 0 then env.lookup attempt else none) with
    | some epoch => (c.advance epoch, s, .ok (.committed epoch))
    | none =>
      match executeOnce plane blake3 env attempt c s request with
      | (c, s, .ok outcome) => (c, s, .ok outcome)
      | (c, s, .error e) => executeAttempts env request rest (some e) c s

def execute (env : ChunkEnv) (c : Client) (s : σ) (request : WriteRequest) :
    Client × σ × Except Error WriteOutcome :=
  executeAttempts plane blake3 env request (List.range (maxRetries + 1)) none c s

/-! ## 4. Erasure-coded writes -/

/-- `reed_solomon_erasure`: building a code, computing the parity shards, and filling in the
missing ones. -/
structure ReedSolomon where
  new : (dataShards parityShards : Nat) → Except String Unit
  encode : (dataShards parityShards : Nat) → List Bytes → Except String (List Bytes)
  reconstruct : (dataShards parityShards : Nat) → List (Option Bytes) →
    Except String (List (Option Bytes))

variable (rs : ReedSolomon)

structure EcFragment where
  index : Nat
  isData : Bool
  data : Bytes

structure EncodedStripe where
  fragments : List EcFragment
  originalDataLen : Nat

namespace EncodedStripe

def ofShards (dataChunks length : Nat) (shards : List Bytes) : EncodedStripe :=
  ⟨shards.zipIdx.map fun (shard, i) => ⟨i, i < dataChunks, shard⟩, length⟩

/-- What the pipeline reads of a stripe. -/
def shards (stripe : EncodedStripe) : List Bytes := stripe.fragments.map EcFragment.data

theorem shards_ofShards (dataChunks length : Nat) (word : List Bytes) :
    (ofShards dataChunks length word).shards = word := by
  rw [shards, ofShards, List.map_map]
  exact List.zipIdx_map_fst 0 word

end EncodedStripe

def encodeData (data : Bytes) (dataChunks parityChunks : Nat) : Except Error EncodedStripe :=
  if data.isEmpty then .error (.storage "empty data for EC encoding")
  else
    match rs.new dataChunks parityChunks with
    | .error e => .error (.storage s!"invalid EC parameters: {e}")
    | .ok () =>
      let fragSize := (data.length + dataChunks - 1) / dataChunks
      let dataShards := (List.range dataChunks).map fun i =>
        let shard := (data.drop (i * fragSize)).take fragSize
        shard ++ List.replicate (fragSize - shard.length) 0
      let shards := dataShards ++ List.replicate parityChunks (List.replicate fragSize 0)
      match rs.encode dataChunks parityChunks shards with
      | .error e => .error (.storage s!"EC encoding failed: {e}")
      | .ok shards => .ok (.ofShards dataChunks data.length shards)

/-- `EcWritePipeline::execute_once`. -/
def ecExecuteOnce (env : ChunkEnv) (attempt : Nat) (c : Client) (s : σ) (volumeId : VolumeId)
    (startBlock : Nat) (data : Bytes) : Client × σ × Except Error WriteOutcome :=
  if c.paused then (c, s, .error (.storage "writes paused due to stale epoch"))
  else
    match c.cache.volumes[volumeId]? with
    | none => (c, s, .error (.storage s!"volume {volumeId} not found in cache"))
    | some volumeInfo =>
      match volumeInfo.protection with
      | .replicated _ =>
        (c, s, .error (.storage "EC write pipeline requires ErasureCoded protection policy"))
      | .erasureCoded dataChunks parityChunks =>
        let nodes := c.cache.listNodes
        let totalRequired := dataChunks + parityChunks
        if nodes.length < totalRequired then
          (c, s, .error (.storage
            s!"insufficient nodes: have {nodes.length}, need {totalRequired}"))
        else
          let extentNum := startBlock / max volumeInfo.extentBlocks 1
          let fragmentNodes := PlacementEngine.selectEcNodes blake3 volumeId extentNum nodes
            dataChunks parityChunks
          match encodeData rs data dataChunks parityChunks with
          | .error e => (c, s, .error e)
          | .ok encoded =>
            let calls := (fragmentNodes.zip encoded.shards).map fun (nodeId, fragment) =>
              { nodeId
                operationId := env.operationId
                sessionId := c.sessionId
                volumeId
                extentId := PlacementEngine.extentIdForExtent blake3 volumeId extentNum
                extentVersion := PlacementEngine.extentVersion
                epoch := c.cache.epoch
                data := fragment
                checksum := computeChecksum blake3 fragment : WriteCall }
            let (s, acks) := transmit plane (env.sendOrder attempt) s calls
            let (c', outcome) := settle c (env.refresh attempt) c.cache.epoch
              (dataChunks + min 1 parityChunks) acks
            (c', s, .ok outcome)

/-- The retry loop of `EcWritePipeline::execute_with_op_id`; it does not ask whether an earlier
attempt was committed. -/
def ecExecuteAttempts (env : ChunkEnv) (volumeId : VolumeId) (startBlock : Nat) (data : Bytes) :
    List Nat → Option Error → Client → σ → Client × σ × Except Error WriteOutcome
  | [], lastError, c, s =>
    (c, s, .error (lastError.getD (.storage "EC write failed after retries")))
  | attempt :: rest, _, c, s =>
    match ecExecuteOnce plane blake3 rs env attempt c s volumeId startBlock data with
    | (c, s, .ok outcome) => (c, s, .ok outcome)
    | (c, s, .error e) => ecExecuteAttempts env volumeId startBlock data rest (some e) c s

/-- `EcWritePipeline::execute`. -/
def ecExecute (env : ChunkEnv) (c : Client) (s : σ) (volumeId : VolumeId) (startBlock : Nat)
    (data : Bytes) : Client × σ × Except Error WriteOutcome :=
  ecExecuteAttempts plane blake3 rs env volumeId startBlock data (List.range (maxRetries + 1))
    none c s

end Pipelines

end Blockyard.Ublk
