/-
# The block handler

`blockyard-ublk`, `block_handler.rs`: block requests of the kernel become extent writes and
extent reads.

* A write is cut at extent boundaries; each piece goes through a write pipeline as the WHOLE
  payload of its extent, also when it covers only some of the extent's blocks.
* A read goes block by block: the extent of the block, the replicas of the extent, and the
  window of the block in the extent's payload.  When no replica answers, the block reads as
  zeros.

Block arithmetic is on natural numbers; a request is meant to end, with one more extent
behind it, below `2^64` bytes.
-/
import Blockyard.Ublk.WritePipeline

open Std

namespace Blockyard.Ublk

/-! ## 1. Requests -/

/-- `VolumeConfig`; the volume's size is not used here. -/
structure VolumeConfig where
  volumeId : VolumeId
  blockSize : Nat
  protection : ProtectionPolicy
  extentSize : Nat

def VolumeConfig.extentBlocks (cfg : VolumeConfig) : Nat :=
  max (cfg.extentSize / max cfg.blockSize 1) 1

inductive IoOperation
  | read | write | flush | discard
  deriving DecidableEq, Repr

structure IoRequest where
  operation : IoOperation
  offsetBytes : Nat
  lengthBytes : Nat
  data : Option Bytes

/-- `block_range`: the first block, and the block after the last. -/
def IoRequest.blockRange (request : IoRequest) (blockSize : Nat) : Nat × Nat :=
  (request.offsetBytes / blockSize,
    (request.offsetBytes + request.lengthBytes + blockSize - 1) / blockSize)

def zeros (n : Nat) : Bytes := List.replicate n 0

/-- What the environment decides while a request is handled. -/
structure IoEnv where
  /-- The chunks of a write, in order. -/
  chunk : Nat → ChunkEnv
  /-- What `refresh_metadata` brings when a read finds the cache behind the watermark. -/
  refresh : Except Error MetadataCache
  /-- The order in which the fragment reads of a block take effect. -/
  fragmentOrder : Nat → IterOrder (Nat × NodeId)

section Handler

variable {σ : Type} (plane : DataPlane σ) (blake3 : Bytes → BitVec 256) (rs : ReedSolomon)
  (cfg : VolumeConfig)

/-! ## 2. Writes -/

/-- One chunk: through the pipeline of the volume's policy, then the outcome as a result. -/
def writeChunk (env : ChunkEnv) (c : Client) (s : σ) (startBlock : Nat) (chunk : Bytes) :
    Client × σ × Except Error Unit :=
  let (c, s, result) := match cfg.protection with
    | .replicated _ =>
      execute plane blake3 env c s
        { volumeId := cfg.volumeId
          startBlock
          data := chunk
          extentBlocks := cfg.extentBlocks }
    | .erasureCoded _ _ => ecExecute plane blake3 rs env c s cfg.volumeId startBlock chunk
  (c, s, match result with
    | .error e => .error e
    | .ok (.committed _) => .ok ()
    | .ok .staleEpoch => .error (.storage "write rejected: stale epoch")
    | .ok (.insufficientAcks acked required) =>
      .error (.storage s!"write failed: insufficient acks ({acked}/{required})")
    | .ok (.metadataCommitFailed reason) =>
      .error (.storage s!"write failed: metadata commit failed: {reason}"))

/-- The end of the chunk that starts at a block: the next extent boundary, or the end of the
request. -/
def chunkEnd (extentBlocks currentBlock endBlock : Nat) : Nat :=
  min ((currentBlock / extentBlocks + 1) * extentBlocks) endBlock

/-- The loop of `handle_write`; every round handles at least one block, so as many rounds as
there are blocks are enough. -/
def writeLoop (env : Nat → ChunkEnv) (data : Bytes) (endBlock : Nat) :
    (fuel i offset currentBlock : Nat) → Client → σ → Client × σ × Except Error Unit
  | 0, _, _, _, c, s => (c, s, .ok ())
  | fuel + 1, i, offset, currentBlock, c, s =>
    if currentBlock < endBlock then
      let chunkEnd := chunkEnd cfg.extentBlocks currentBlock endBlock
      let byteLen := min ((chunkEnd - currentBlock) * cfg.blockSize) (data.length - offset)
      let chunk := (data.drop offset).take byteLen
      match writeChunk plane blake3 rs cfg (env i) c s currentBlock chunk with
      | (c, s, .error e) => (c, s, .error e)
      | (c, s, .ok ()) =>
        writeLoop env data endBlock fuel (i + 1) (offset + byteLen) chunkEnd c s
    else (c, s, .ok ())

def handleWrite (env : IoEnv) (c : Client) (s : σ) (request : IoRequest) :
    Client × σ × Except Error (Option Bytes) :=
  if c.leaseState ≠ .active then (c, s, .error (.auth "write lease not active"))
  else
    match c.checkWriteAllowed with
    | .error e => (c, s, .error e)
    | .ok _ =>
      let (startBlock, endBlock) := request.blockRange cfg.blockSize
      match request.data with
      | none => (c, s, .error (.storage "write request missing data"))
      | some data =>
        match writeLoop plane blake3 rs cfg env.chunk data endBlock (endBlock - startBlock) 0 0
            startBlock c s with
        | (c, s, .error e) => (c, s, .error e)
        | (c, s, .ok ()) => (c, s, .ok none)

/-! ## 3. Reads of one replicated block -/

/-- `read_from_replicas`: ask the replicas in order, skipping the ones the cluster map does
not know, until one answers. -/
def readFromReplicas (cache : MetadataCache) (call : NodeId → ReadCall) :
    List NodeId → Option String → σ → σ × Except Error Bytes
  | [], some e, s => (s, .error (.storage s!"all replicas failed: {e}"))
  | [], none, s => (s, .error (.storage "no reachable replicas"))
  | nodeId :: rest, lastError, s =>
    if nodeId ∉ cache.clusterMap then readFromReplicas cache call rest lastError s
    else
      match plane.readExtent s (call nodeId) with
      | (s, .ok data) => (s, .ok data)
      | (s, .error e) => readFromReplicas cache call rest (some e) s

def VolumeConfig.replicas (cfg : VolumeConfig) : Nat :=
  match cfg.protection with
  | .replicated replicas => replicas
  | .erasureCoded _ _ => 1

def replicaLocations (cache : MetadataCache) (blockNum : Nat) : List NodeId :=
  PlacementEngine.selectNodes blake3 cfg.volumeId
    (PlacementEngine.blockToExtent blockNum cfg.extentBlocks).1 cache.listNodes cfg.replicas

/-- The read of a block's window at one replica. -/
def blockCall (blockNum length : Nat) (nodeId : NodeId) : ReadCall where
  nodeId := nodeId
  volumeId := cfg.volumeId
  extentId := PlacementEngine.extentIdForExtent blake3 cfg.volumeId
    (PlacementEngine.blockToExtent blockNum cfg.extentBlocks).1
  extentVersion := PlacementEngine.extentVersion
  offset := (PlacementEngine.blockToExtent blockNum cfg.extentBlocks).2 * cfg.blockSize
  length := length

/-- `read_single_block` and `read_single_block_data`: the first with the length of the request,
the second with the block size.  Zeros stand in for an empty replica set and for replicas that
all fail. -/
def readReplicatedBlock (c : Client) (s : σ) (blockNum length : Nat) : σ × Except Error Bytes :=
  let locations := replicaLocations blake3 cfg c.cache blockNum
  if locations.isEmpty then (s, .ok (zeros length))
  else
    match readFromReplicas plane c.cache (blockCall blake3 cfg blockNum length) locations none
        s with
    | (s, .ok data) => (s, .ok data)
    | (s, .error _) => (s, .ok (zeros length))

def readSingleBlock (c : Client) (s : σ) (request : IoRequest) (blockNum : Nat) :
    σ × Except Error Bytes :=
  readReplicatedBlock plane blake3 cfg c s blockNum request.lengthBytes

def readSingleBlockData (c : Client) (s : σ) (blockNum : Nat) : σ × Except Error Bytes :=
  readReplicatedBlock plane blake3 cfg c s blockNum cfg.blockSize

/-! ## 4. Reads of one erasure-coded block -/

/-- The fragment reads, in the order they take effect; an answer fills its slot. -/
def readFragments (call : NodeId → ReadCall) :
    List (Nat × NodeId) → σ → List (Option Bytes) → σ × List (Option Bytes)
  | [], s, shards => (s, shards)
  | (fragIdx, nodeId) :: rest, s, shards =>
    match plane.readExtent s (call nodeId) with
    | (s, .ok data) => readFragments call rest s (shards.set fragIdx (some data))
    | (s, .error _) => readFragments call rest s shards

def resize (bytes : Bytes) (n : Nat) : Bytes :=
  bytes.take n ++ List.replicate (n - bytes.length) 0

@[simp] theorem length_resize (bytes : Bytes) (n : Nat) : (resize bytes n).length = n := by
  simp only [resize, List.length_append, List.length_take, List.length_replicate]
  omega

/-- The end of `read_ec_block_data`: the data shards in a row, and the block's window in them. -/
def blockOfShards (dataChunks blockOffset : Nat) (shards : List (Option Bytes)) : Bytes :=
  let reconstructed := ((shards.take dataChunks).map fun shard => shard.getD []).flatten
  let offset := blockOffset * cfg.blockSize
  if offset ≥ reconstructed.length then zeros cfg.blockSize
  else resize ((reconstructed.drop offset).take cfg.blockSize) cfg.blockSize

def alignedStart (blockNum : Nat) : Nat := blockNum / cfg.extentBlocks * cfg.extentBlocks

def fragmentCall (blockNum : Nat) (nodeId : NodeId) : ReadCall where
  nodeId := nodeId
  volumeId := cfg.volumeId
  extentId := PlacementEngine.extentIdForExtent blake3 cfg.volumeId (alignedStart cfg blockNum)
  extentVersion := PlacementEngine.extentVersion
  offset := 0
  length := 0

def readEcBlockData (order : IterOrder (Nat × NodeId)) (c : Client) (s : σ) (blockNum : Nat) :
    σ × Except Error Bytes :=
  match cfg.protection with
  | .replicated _ => (s, .error (.storage "EC read called on non-EC volume"))
  | .erasureCoded dataChunks parityChunks =>
    let extentNum := alignedStart cfg blockNum
    let blockOffset := blockNum - extentNum
    let totalFragments := dataChunks + parityChunks
    let fragmentNodes := PlacementEngine.selectNodes blake3 cfg.volumeId extentNum
      c.cache.listNodes totalFragments
    if fragmentNodes.isEmpty then (s, .ok (zeros cfg.blockSize))
    else
      let tasks := fragmentNodes.zipIdx.map fun (nodeId, i) => (i, nodeId)
      let (s, shards) := readFragments plane (fragmentCall blake3 cfg blockNum)
        (order.arrange tasks) s (List.replicate totalFragments none)
      if shards.all Option.isNone then (s, .ok (zeros cfg.blockSize))
      else
        match rs.new dataChunks parityChunks with
        | .error e => (s, .error (.storage s!"Reed-Solomon init failed: {e}"))
        | .ok () =>
          match rs.reconstruct dataChunks parityChunks shards with
          | .error e => (s, .error (.storage s!"EC reconstruction failed: {e}"))
          | .ok shards => (s, .ok (blockOfShards cfg dataChunks blockOffset shards))

/-! ## 5. Reads -/

/-- One block of a read of several. -/
def readBlockData (order : IterOrder (Nat × NodeId)) (c : Client) (s : σ) (blockNum : Nat) :
    σ × Except Error Bytes :=
  match cfg.protection with
  | .erasureCoded _ _ => readEcBlockData plane blake3 rs cfg order c s blockNum
  | .replicated _ => readSingleBlockData plane blake3 cfg c s blockNum

def readLoop (order : Nat → IterOrder (Nat × NodeId)) (c : Client) :
    List Nat → σ → Bytes → σ × Except Error Bytes
  | [], s, resultBuf => (s, .ok resultBuf)
  | blockNum :: rest, s, resultBuf =>
    match readBlockData plane blake3 rs cfg (order blockNum) c s blockNum with
    | (s, .error e) => (s, .error e)
    | (s, .ok blockData) => readLoop order c rest s (resultBuf ++ blockData)

/-- The freshness check of `handle_read`. -/
def freshClient (env : IoEnv) (c : Client) : Except Error Client :=
  if c.cache.epoch ≥ c.watermark then .ok c
  else
    match env.refresh with
    | .ok cache => .ok { c with cache }
    | .error e => .error e

def handleRead (env : IoEnv) (c : Client) (s : σ) (request : IoRequest) :
    Client × σ × Except Error (Option Bytes) :=
  match freshClient env c with
  | .error e => (c, s, .error e)
  | .ok c =>
    let (startBlock, endBlock) := request.blockRange cfg.blockSize
    let numBlocks := endBlock - startBlock
    let (s, result) :=
      if numBlocks ≤ 1 then
        match cfg.protection with
        | .erasureCoded _ _ =>
          readEcBlockData plane blake3 rs cfg (env.fragmentOrder startBlock) c s startBlock
        | .replicated _ => readSingleBlock plane blake3 cfg c s request startBlock
      else
        match readLoop plane blake3 rs cfg env.fragmentOrder c (List.range' startBlock numBlocks) s
            [] with
        | (s, .error e) => (s, .error e)
        | (s, .ok resultBuf) => (s, .ok (resultBuf.take request.lengthBytes))
    (c, s, result.map some)

def handleIo (env : IoEnv) (c : Client) (s : σ) (request : IoRequest) :
    Client × σ × Except Error (Option Bytes) :=
  match request.operation with
  | .write => handleWrite plane blake3 rs cfg env c s request
  | .read => handleRead plane blake3 rs cfg env c s request
  | .flush => (c, s, .ok none)
  | .discard => (c, s, .ok none)

end Handler

end Blockyard.Ublk
