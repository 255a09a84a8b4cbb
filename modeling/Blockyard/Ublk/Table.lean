/-
# A healthy cluster is a table of extents

When every node is in good order and every call gets through, what the cluster holds for a
replicated volume is a table from extent numbers to payloads: a write through the handler
stores each of its chunks as the payload of the chunk's extent, and a read of a block returns
the block's window in the payload of its extent, filled up with zeros.

§1 states this (`Good`) and says which views of the nodes it describes.  §2 is about replicated
extents behind any data plane: one attempt to write an extent, and the read of a block.  §3 and
§4 take the table through the pipeline and the loop of `handle_write`, §5 through `handle_read`.
The table says nothing about BLOCKS yet: that is the business of `ReadAfterWrite.lean`.
-/
import Blockyard.Ublk.View

open Std CrashFs

namespace Blockyard.Ublk

open Storage DataNodeService

/-! ## 1. The cluster as a table -/

variable {c' c : Client} {env : ChunkEnv} {startBlock start count : Nat} {cl' : Cluster}
  {ovf : Overflow} {data : Bytes}

def extentIdOf (x : Externals) (cfg : VolumeConfig) (extentNum : Nat) : ExtentId :=
  PlacementEngine.extentIdForExtent x.blake3 cfg.volumeId extentNum

def replicasOf (x : Externals) (cfg : VolumeConfig) (cache : MetadataCache) (extentNum : Nat) :
    List NodeId :=
  PlacementEngine.selectNodes x.blake3 cfg.volumeId extentNum cache.listNodes cfg.replicas

/-- What does not change during a run: a replicated volume whose policy the cache knows, sizes
in the range of their types, an environment without failures, and no two extents in use with
the same id (ids are truncated BLAKE3 digests). -/
structure Setting (x : Externals) (world : Nat → Tick) (cfg : VolumeConfig) (cache : MetadataCache)
    (used : Nat → Prop) : Prop where
  replicated : ∃ replicas, cfg.protection = .replicated replicas
  known : cache.volumes[cfg.volumeId]? = some ⟨cfg.protection⟩
  blockSize_pos : 0 < cfg.blockSize
  blockSize_lt : cfg.blockSize < 2 ^ 32
  extentSize_lt : cfg.extentSize < 2 ^ 64
  quiet : ∀ i, Quiet (world i)
  distinct : ∀ e e', used e → used e' → extentIdOf x cfg e = extentIdOf x cfg e' → e = e'

section Content

variable (x : Externals) (cfg : VolumeConfig) (cache : MetadataCache) (used : Nat → Prop)
  (ids : List OperationId) (content : Nat → Option Bytes)

/-- A healthy node that knows none of the operation ids still to come, and holds what the table
says for the extents it is a replica of. -/
structure GoodNode (nodeId : NodeId) (svc : DataNodeService) : Prop where
  healthy : Healthy cfg.volumeId cache.epoch svc
  fresh : ∀ o ∈ ids, svc.checkDuplicate o = none
  holds : ∀ e, used e → nodeId ∈ replicasOf x cfg cache e →
    Holds x svc (extentIdOf x cfg e) (content e)

/-- Every node of the cluster map is good, and what is in the table has a replica. -/
structure Good (cl : Cluster) : Prop where
  node : ∀ n ∈ cache.listNodes, ∃ svc, cl.nodes[n]? = some svc ∧
    GoodNode x cfg cache used ids content n svc
  placed : ∀ e, content e ≠ none → replicasOf x cfg cache e ≠ []

/-- The nodes hold what a view says of the extents in use, where they are replicas of them. -/
def TableShows : View → Cluster → Prop :=
  ShowsAt x (volumeScope cfg cache fun _ => True) fun n id =>
    ∃ e, used e ∧ n ∈ replicasOf x cfg cache e ∧ id = extentIdOf x cfg e

/-- The view holds what the table says. -/
structure ViewOf (v : View) : Prop where
  held : ∀ e, used e → ∀ n ∈ replicasOf x cfg cache e, v.held n (extentIdOf x cfg e) = content e
  fresh : ∀ n, ∀ o ∈ ids, v.fresh n o

end Content

/-- What the client keeps through a run. -/
structure Settled (cache : MetadataCache) (c : Client) : Prop where
  same : c.cache = cache
  watermark : c.watermark ≤ cache.epoch

section Table

variable {x : Externals} {world : Nat → Tick} {cfg : VolumeConfig} {cache : MetadataCache}
  {used : Nat → Prop} {ids : List OperationId} {content : Nat → Option Bytes} {cl : Cluster}
  {n : NodeId} {svc : DataNodeService}

theorem nodup_listNodes (cache : MetadataCache) : cache.listNodes.Nodup :=
  ExtTreeMap.distinct_keys.imp fun h he => h (LawfulEqOrd.compare_eq_iff_eq.mpr he)

theorem mem_listNodes_of_mem_replicasOf {e : Nat} (h : n ∈ replicasOf x cfg cache e) :
    n ∈ cache.listNodes :=
  PlacementEngine.mem_of_mem_selectNodes h

theorem Good.mono (h : Good x cfg cache used ids content cl) {ids' : List OperationId}
    (hsub : ∀ o ∈ ids', o ∈ ids) : Good x cfg cache used ids' content cl where
  node := fun n hn => by
    obtain ⟨svc, hsvc, hgood⟩ := h.node n hn
    exact ⟨svc, hsvc, hgood.healthy, fun o ho => hgood.fresh o (hsub o ho), hgood.holds⟩
  placed := h.placed

/-- **The nodes of a table show a view of it.** -/
theorem Good.exists_view (hset : Setting x world cfg cache used)
    (h : Good x cfg cache used ids content cl) :
    ∃ v, TableShows x cfg cache used v cl ∧ ViewOf x cfg cache used ids content v := by
  classical
  have hheld : ∀ e, used e → (if hid : ∃ e', used e' ∧ extentIdOf x cfg e' = extentIdOf x cfg e then
      content hid.choose else none) = content e := by
    intro e hu
    have hid : ∃ e', used e' ∧ extentIdOf x cfg e' = extentIdOf x cfg e := ⟨e, hu, rfl⟩
    rw [dif_pos hid, hset.distinct _ e hid.choose_spec.1 hu hid.choose_spec.2]
  refine ⟨⟨fun _ id => if hid : ∃ e, used e ∧ extentIdOf x cfg e = id then content hid.choose
    else none, fun _ o => o ∈ ids⟩, ?_, fun e hu _ _ => hheld e hu, fun _ _ ho => ho⟩
  intro n hn
  obtain ⟨svc, hsvc, hgood⟩ := h.node n hn
  refine ⟨svc, hsvc, hgood.healthy, hgood.fresh, ?_⟩
  rintro _ ⟨e, hu, hmem, rfl⟩
  dsimp only
  rw [hheld e hu]
  exact hgood.holds e hu hmem

theorem good_of_view {v : View} (hs : TableShows x cfg cache used v cl)
    (hv : ViewOf x cfg cache used ids content v)
    (hplaced : ∀ e, content e ≠ none → replicasOf x cfg cache e ≠ []) :
    Good x cfg cache used ids content cl where
  node := by
    intro n hn
    obtain ⟨svc, hsvc, hnode⟩ := hs n hn
    refine ⟨svc, hsvc, hnode.healthy, fun o ho => hnode.fresh o (hv.fresh n o ho), ?_⟩
    intro e hu hmem
    rw [← hv.held e hu n hmem]
    exact hnode.holds _ ⟨e, hu, hmem, rfl⟩
  placed := hplaced

end Table

/-! ## 2. Replicated extents behind a data plane -/

theorem extentBlocks_pos (cfg : VolumeConfig) : 0 < cfg.extentBlocks := by
  unfold VolumeConfig.extentBlocks
  omega

/-- The guard against empty extents, in the pipeline and in `block_to_extent`, does nothing. -/
@[simp] theorem max_extentBlocks (cfg : VolumeConfig) :
    max cfg.extentBlocks 1 = cfg.extentBlocks := Nat.max_eq_left (extentBlocks_pos cfg)

/-- The request `handle_write` makes of a chunk. -/
def chunkRequest (cfg : VolumeConfig) (startBlock : Nat) (chunk : Bytes) : WriteRequest where
  volumeId := cfg.volumeId
  startBlock := startBlock
  data := chunk
  extentBlocks := cfg.extentBlocks

/-- Acknowledgements of all replicas commit the write when there are enough replicas. -/
theorem settle_of_acked (c : Client) (refresh : Except Error MetadataCache) (epoch : EpochId)
    (required : Nat) {acks : List WriteAck} (h : ∀ a ∈ acks, Acked a) :
    settle c refresh epoch required acks
      = if acks.length < required then (c, .insufficientAcks acks.length required)
        else (c.advance epoch, .committed epoch) := by
  have hstale : acks.any (fun a => a.error = some .staleEpoch) = false := by
    rw [List.any_eq_false]
    intro a ha
    rw [(h a ha).2]
    decide
  have hall : acks.filter (·.success) = acks := List.filter_eq_self.mpr fun a ha => (h a ha).1
  unfold settle
  rw [if_neg (by rw [hstale]; decide)]
  dsimp only
  rw [hall]

/-- A replicated volume the client knows, with sizes in the range of their types. -/
structure ReplicatedVolume (cfg : VolumeConfig) (cache : MetadataCache) (replicas : Nat) :
    Prop where
  policy : cfg.protection = .replicated replicas
  known : cache.volumes[cfg.volumeId]? = some ⟨.replicated replicas⟩
  blockSize_pos : 0 < cfg.blockSize
  blockSize_lt : cfg.blockSize < 2 ^ 32
  extentSize_lt : cfg.extentSize < 2 ^ 64

def extentIdAt (blake3 : Bytes → BitVec 256) (cfg : VolumeConfig) (b : Nat) : ExtentId :=
  PlacementEngine.extentIdForExtent blake3 cfg.volumeId
    (PlacementEngine.blockToExtent b cfg.extentBlocks).1

def extentScope (blake3 : Bytes → BitVec 256) (cfg : VolumeConfig) (cache : MetadataCache)
    (b : Nat) : Scope :=
  { volumeScope cfg cache (· = extentIdAt blake3 cfg b) with
    nodes := replicaLocations blake3 cfg cache b }

/-- The window of a block ends below `2^64`, when the sizes are in the range of their types. -/
theorem window_lt_of_sizes {cfg : VolumeConfig} (hbs : 0 < cfg.blockSize)
    (hlt : cfg.blockSize < 2 ^ 32) (hext : cfg.extentSize < 2 ^ 64) (b : Nat) :
    b % cfg.extentBlocks * cfg.blockSize + cfg.blockSize < 2 ^ 64 := by
  have hmod : b % cfg.extentBlocks + 1 ≤ cfg.extentBlocks := Nat.mod_lt _ (extentBlocks_pos cfg)
  have hle : (b % cfg.extentBlocks + 1) * cfg.blockSize ≤ cfg.extentBlocks * cfg.blockSize :=
    Nat.mul_le_mul_right _ hmod
  rw [Nat.add_mul, Nat.one_mul] at hle
  refine Nat.lt_of_le_of_lt hle ?_
  rw [VolumeConfig.extentBlocks, Nat.max_eq_left hbs]
  rcases Nat.le_total 1 (cfg.extentSize / cfg.blockSize) with hone | hone
  · rw [Nat.max_eq_left hone]
    exact Nat.lt_of_le_of_lt (Nat.div_mul_le_self _ _) hext
  · rw [Nat.max_eq_right hone]
    omega

section Replicated

variable {σ : Type} {plane : DataPlane σ} {blake3 : Bytes → BitVec 256} {scope : Scope}
  {acks up : NodeId → Bool} {Shows : View → σ → Prop} {v : View} {cfg : VolumeConfig}
  {cache : MetadataCache} {replicas : Nat} {c : Client} {env : ChunkEnv} {s : σ} {b : Nat}

/-- The first node that answers with something decides. -/
theorem Serves.readFromReplicas (h : Serves plane blake3 scope acks up Shows) {e : ExtentId}
    {call : NodeId → ReadCall} {window : Bytes → Bytes} (nodes : List NodeId)
    (hmap : ∀ n ∈ nodes, n ∈ cache.clusterMap)
    (hcall : ∀ n ∈ nodes, scope.Reads (call n) ∧ (call n).nodeId = n ∧ (call n).extentId = e ∧
      (call n).windowOf = window) (lastError : Option String) (s : σ) (hs : Shows v s) :
    ∃ s' r, readFromReplicas plane cache call nodes lastError s = (s', r) ∧ Shows v s' ∧
      ReadsAs (nodes.findSome? (slotOf v up e)) window r := by
  induction nodes generalizing lastError s with
  | nil => cases lastError <;> exact ⟨s, _, rfl, hs, _, rfl⟩
  | cons n nodes ih =>
    obtain ⟨hreads, hnode, hext, hwindow⟩ := hcall n (by simp)
    obtain ⟨s₁, r, hr, hs₁, hfound⟩ := h.read hs hreads
    rw [hnode, hext, hwindow] at hfound
    change ReadsAs (slotOf v up e n) window r at hfound
    rw [Ublk.readFromReplicas, if_neg (not_not_intro (hmap n (by simp))), hr]
    cases hslot : slotOf v up e n with
    | some payload =>
      rw [hslot] at hfound
      obtain rfl : r = .ok (window payload) := hfound
      exact ⟨s₁, _, rfl, hs₁, by rw [List.findSome?_cons, hslot]; rfl⟩
    | none =>
      rw [hslot] at hfound
      obtain ⟨err, rfl⟩ := hfound
      obtain ⟨s', r', heq, hs', hreads'⟩ := ih (fun m hm => hmap m (by simp [hm]))
        (fun m hm => hcall m (by simp [hm])) (some err) s₁ hs₁
      exact ⟨s', r', heq, hs', by rw [List.findSome?_cons, hslot]; exact hreads'⟩

/-- **One attempt to write an extent**: its outcome is settled by the acknowledgements, and the
replicas that acknowledge hold the payload. -/
theorem executeOnce_serves
    (h : Serves plane blake3 (extentScope blake3 cfg cache b) acks up Shows)
    (hvol : ReplicatedVolume cfg cache replicas) (hc : c.cache = cache) (hp : c.paused = false)
    (hne : replicaLocations blake3 cfg cache b ≠ [])
    (hfresh : ∀ n ∈ replicaLocations blake3 cfg cache b, v.fresh n env.operationId)
    (hs : Shows v s) (data : Bytes) (attempt : Nat) :
    ∃ s' v' replies,
      executeOnce plane blake3 env attempt c s (chunkRequest cfg b data)
        = ((settle c (env.refresh attempt) cache.epoch (requiredAcks replicas) replies).1, s',
            .ok (settle c (env.refresh attempt) cache.epoch (requiredAcks replicas) replies).2) ∧
      Shows v' s' ∧
      Sent v v' acks (extentIdAt blake3 cfg b) env.operationId
        ((replicaLocations blake3 cfg cache b).map (replicaCall blake3 c env
          (chunkRequest cfg b data))) ∧
      List.Forall₂ (fun call ack => Reports (acks call.nodeId) ack)
        ((env.sendOrder attempt).arrange ((replicaLocations blake3 cfg cache b).map
          (replicaCall blake3 c env (chunkRequest cfg b data)))) replies := by
  obtain ⟨calls, hcalls⟩ : ∃ calls, calls = (replicaLocations blake3 cfg cache b).map
    (replicaCall blake3 c env (chunkRequest cfg b data)) := ⟨_, rfl⟩
  have hids : calls.map WriteCall.nodeId = replicaLocations blake3 cfg cache b := by
    rw [hcalls, List.map_map]
    exact List.map_id _
  rw [← hcalls]
  have hnode : ∀ call ∈ calls, call.nodeId ∈ replicaLocations blake3 cfg cache b :=
    fun call hmem => hids ▸ List.mem_map_of_mem hmem
  have hwrites : ∀ call ∈ calls, (extentScope blake3 cfg cache b).Writes blake3 call ∧
      call.extentId = extentIdAt blake3 cfg b ∧ call.operationId = env.operationId := by
    intro call hmem
    have hn := hnode call hmem
    rw [hcalls] at hmem
    obtain ⟨n, -, rfl⟩ := List.mem_map.mp hmem
    exact ⟨⟨hn, rfl, congrArg MetadataCache.epoch hc, rfl, rfl, rfl⟩, rfl, rfl⟩
  have hnodup : (calls.map WriteCall.nodeId).Nodup := by
    rw [hids]
    exact PlacementEngine.nodup_selectNodes (nodup_listNodes cache) _ _ _
  obtain ⟨s', v', replies, heq, hs', hsent, hreports⟩ := h.transmit (env.sendOrder attempt)
    (fun call hmem => (hwrites call hmem).1) hnodup (fun call hmem => (hwrites call hmem).2)
    (fun call hmem => hfresh _ (hnode call hmem)) hs
  refine ⟨s', v', replies, ?_, hs', hsent, hreports⟩
  have hsel : PlacementEngine.selectNodes blake3 cfg.volumeId (b / max cfg.extentBlocks 1)
      cache.listNodes replicas = replicaLocations blake3 cfg cache b := by
    have hcount : cfg.replicas = replicas := by rw [VolumeConfig.replicas, hvol.policy]
    rw [replicaLocations, hcount, PlacementEngine.blockToExtent]
  have hempty : (replicaLocations blake3 cfg cache b).isEmpty = false :=
    List.isEmpty_eq_false_iff.mpr hne
  have hvolume : (chunkRequest cfg b data).volumeId = cfg.volumeId := rfl
  have hstart : (chunkRequest cfg b data).startBlock = b := rfl
  have hblocks : (chunkRequest cfg b data).extentBlocks = cfg.extentBlocks := rfl
  unfold executeOnce
  simp only [hp, hc, hvol.known, hvolume, hstart, hblocks, hsel, hempty, Bool.false_eq_true,
    if_false, ← hcalls, heq]

/-- An attempt that gets to the replicas is the only one. -/
theorem execute_of_once {s' : σ} {outcome : WriteOutcome} {request : WriteRequest}
    (h : executeOnce plane blake3 env 0 c s request = (c', s', .ok outcome)) :
    execute plane blake3 env c s request = (c', s', .ok outcome) := by
  rw [execute, show List.range (maxRetries + 1) = 0 :: [1, 2, 3] from rfl, executeAttempts,
    if_neg (Nat.lt_irrefl 0), h]

/-- **A block is read** as its window in what the first replica to answer holds, and as zeros if
there is no such replica. -/
theorem Serves.readReplicatedBlock
    (h : Serves plane blake3 (extentScope blake3 cfg cache b) acks up Shows)
    (hvol : ReplicatedVolume cfg cache replicas) (hc : c.cache = cache) (hs : Shows v s) :
    ∃ s', readReplicatedBlock plane blake3 cfg c s b cfg.blockSize
        = (s', .ok (resize ((((replicaLocations blake3 cfg cache b).findSome?
            (slotOf v up (extentIdAt blake3 cfg b))).getD []).drop
              (b % cfg.extentBlocks * cfg.blockSize)) cfg.blockSize)) ∧ Shows v s' := by
  have hbs := hvol.blockSize_lt
  have hpos := hvol.blockSize_pos
  have hoffset : (PlacementEngine.blockToExtent b cfg.extentBlocks).2 * cfg.blockSize
      = b % cfg.extentBlocks * cfg.blockSize := by
    rw [PlacementEngine.blockToExtent, max_extentBlocks]
  -- the read of the block's window, at any replica
  have hcall : ∀ n ∈ replicaLocations blake3 cfg cache b,
      (extentScope blake3 cfg cache b).Reads (blockCall blake3 cfg b cfg.blockSize n) ∧
        (blockCall blake3 cfg b cfg.blockSize n).nodeId = n ∧
        (blockCall blake3 cfg b cfg.blockSize n).extentId = extentIdAt blake3 cfg b ∧
        (blockCall blake3 cfg b cfg.blockSize n).windowOf = fun payload =>
          resize (payload.drop (b % cfg.extentBlocks * cfg.blockSize)) cfg.blockSize := by
    intro n hmem
    refine ⟨⟨hmem, rfl, rfl, Or.inr ⟨hpos, ?_, ?_⟩⟩, rfl, rfl, ?_⟩
    · show (PlacementEngine.blockToExtent b cfg.extentBlocks).2 * cfg.blockSize + _ < _
      rw [hoffset]
      exact window_lt_of_sizes hpos hbs hvol.extentSize_lt b
    · show cfg.blockSize < 2 ^ 63
      omega
    · funext payload
      have hnonzero : (blockCall blake3 cfg b cfg.blockSize n).length ≠ 0 :=
        Nat.pos_iff_ne_zero.mp hpos
      rw [ReadCall.windowOf, if_neg hnonzero, ← hoffset]
      rfl
  obtain ⟨s', r, heq, hs', hreads⟩ := h.readFromReplicas (replicaLocations blake3 cfg cache b)
    (fun m hm => ExtTreeMap.mem_keys.mp (PlacementEngine.mem_of_mem_selectNodes hm)) hcall none s hs
  have hzeros : resize (([] : Bytes).drop (b % cfg.extentBlocks * cfg.blockSize)) cfg.blockSize
      = zeros cfg.blockSize := by
    simp [resize, zeros]
  unfold Ublk.readReplicatedBlock
  rw [hc]
  cases hfound : (replicaLocations blake3 cfg cache b).findSome?
      (slotOf v up (extentIdAt blake3 cfg b)) with
  | some payload =>
    rw [hfound] at hreads
    obtain rfl : r = _ := hreads
    have hempty : (replicaLocations blake3 cfg cache b).isEmpty = false := by
      rw [List.isEmpty_eq_false_iff]
      rintro hnil
      rw [hnil] at hfound
      cases hfound
    simp only [hempty, heq, Bool.false_eq_true, if_false]
    exact ⟨s', rfl, hs'⟩
  | none =>
    rw [hfound] at hreads
    obtain ⟨err, rfl⟩ := hreads
    simp only [heq, Option.getD_none, hzeros]
    split
    · exact ⟨s, rfl, hs⟩
    · exact ⟨s', rfl, hs'⟩

end Replicated

/-! ## 3. A chunk -/

section Table

variable {x : Externals} {world : Nat → Tick} {cfg : VolumeConfig} {cache : MetadataCache}
  {used : Nat → Prop} {ids : List OperationId} {content : Nat → Option Bytes} {cl : Cluster}

theorem replicaLocations_eq (x : Externals) (cfg : VolumeConfig) (cache : MetadataCache) (b : Nat) :
    replicaLocations x.blake3 cfg cache b = replicasOf x cfg cache (b / cfg.extentBlocks) := by
  rw [replicaLocations, PlacementEngine.blockToExtent, max_extentBlocks]
  rfl

theorem extentIdAt_eq (x : Externals) (cfg : VolumeConfig) (b : Nat) :
    extentIdAt x.blake3 cfg b = extentIdOf x cfg (b / cfg.extentBlocks) := by
  rw [extentIdAt, PlacementEngine.blockToExtent, max_extentBlocks]
  rfl

/-- The client holds the lease, is not paused, and has enough replicas for a quorum. -/
structure Ready (x : Externals) (cfg : VolumeConfig) (cache : MetadataCache) (used : Nat → Prop)
    (c : Client) : Prop where
  lease : c.leaseState = .active
  version : ∃ v, c.leaseVersion = some v
  running : c.paused = false
  placed : ∀ e, used e → replicasOf x cfg cache e ≠ []
  enough : ∀ e, used e → requiredAcks cfg.replicas ≤ (replicasOf x cfg cache e).length

theorem Ready.advance (h : Ready x cfg cache used c) (epoch : EpochId) :
    Ready x cfg cache used (c.advance epoch) :=
  ⟨h.lease, h.version, h.running, h.placed, h.enough⟩

section Chunk

variable (rs : ReedSolomon) (hset : Setting x world cfg cache used)

include hset

theorem Setting.volume : ReplicatedVolume cfg cache cfg.replicas where
  policy := by
    obtain ⟨replicas, hrep⟩ := hset.replicated
    rw [VolumeConfig.replicas, hrep]
  known := by
    obtain ⟨replicas, hrep⟩ := hset.replicated
    rw [hset.known, VolumeConfig.replicas, hrep]
  blockSize_pos := hset.blockSize_pos
  blockSize_lt := hset.blockSize_lt
  extentSize_lt := hset.extentSize_lt

/-- **The TCP client serves the table**, extent by extent. -/
theorem serves_table {b : Nat} (hu : used (b / cfg.extentBlocks)) (ovf : Overflow) :
    Serves (tcpPlane x ovf world) x.blake3 (extentScope x.blake3 cfg cache b) (fun _ => true)
      (fun _ => true) (TableShows x cfg cache used) := by
  refine serves_showsAt hset.quiet ovf fun n hn => ?_
  rw [replicaLocations_eq] at hn
  exact ⟨mem_listNodes_of_mem_replicasOf hn, fun _ hid => ⟨_, hu, hn, hid.trans (extentIdAt_eq ..)⟩⟩

/-- An attempt of a paused client, or without a replica, changes nothing. -/
theorem executeOnce_error (hc : c.cache = cache)
    (hstuck : c.paused = true ∨ replicasOf x cfg cache (startBlock / cfg.extentBlocks) = [])
    (env : ChunkEnv) (attempt : Nat) (cl : Cluster) (chunk : Bytes) (ovf : Overflow) :
    ∃ err, executeOnce (tcpPlane x ovf world) x.blake3 env attempt c cl
      (chunkRequest cfg startBlock chunk) = (c, cl, .error err) := by
  obtain ⟨replicas, hrep⟩ := hset.replicated
  unfold executeOnce
  by_cases hp : c.paused = true
  · exact ⟨_, if_pos hp⟩
  · have hnone := hstuck.resolve_left hp
    rw [replicasOf, VolumeConfig.replicas, hrep] at hnone
    simp only [hp, hc, hset.known, hrep, max_extentBlocks, chunkRequest, hnone,
      Bool.false_eq_true, if_false, List.isEmpty_nil, if_true]
    exact ⟨_, rfl⟩

variable (hu : used (startBlock / cfg.extentBlocks)) (hnew : env.operationId ∉ ids)
  (h : Good x cfg cache used (env.operationId :: ids) content cl)

include hu hnew h

/-- **One attempt** of a client that is not paused stores the chunk on every replica. -/
theorem executeOnce_good (hc : c.cache = cache) (hp : c.paused = false) (chunk : Bytes)
    (hne : replicasOf x cfg cache (startBlock / cfg.extentBlocks) ≠ []) (attempt : Nat)
    (ovf : Overflow) :
    ∃ cl', Good x cfg cache used ids
        (Function.update content (startBlock / cfg.extentBlocks) (some chunk)) cl' ∧
      executeOnce (tcpPlane x ovf world) x.blake3 env attempt c cl
          (chunkRequest cfg startBlock chunk)
        = if (replicasOf x cfg cache (startBlock / cfg.extentBlocks)).length
              < requiredAcks cfg.replicas then
            (c, cl', .ok (.insufficientAcks
              (replicasOf x cfg cache (startBlock / cfg.extentBlocks)).length
              (requiredAcks cfg.replicas)))
          else (c.advance cache.epoch, cl', .ok (.committed cache.epoch)) := by
  obtain ⟨v, hs, hv⟩ := h.exists_view hset
  obtain ⟨cl', v', replies, heq, hs', hsent, hreports⟩ := executeOnce_serves
    (serves_table hset hu ovf) hset.volume hc hp (replicaLocations_eq x .. ▸ hne)
    (fun n _ => hv.fresh n _ List.mem_cons_self) hs chunk attempt
  rw [extentIdAt_eq, replicaLocations_eq] at hsent
  rw [replicaLocations_eq] at hreports
  have hlen := hreports.length_eq
  rw [((env.sendOrder attempt).perm _).length_eq, List.length_map] at hlen
  refine ⟨cl', good_of_view hs' ⟨?_, ?_⟩ ?_, ?_⟩
  · intro e hue n hn
    by_cases hee : e = startBlock / cfg.extentBlocks
    · subst hee
      rw [Function.update_self]
      exact (hsent.sent _ (List.mem_map_of_mem hn)).trans (if_pos rfl)
    · rw [Function.update_of_ne hee, ← hv.held e hue n hn]
      exact hsent.elsewhere n _ fun hid => hee (hset.distinct e _ hue hu hid)
  · intro n o ho
    refine hsent.fresh n o (hv.fresh n o (List.mem_cons_of_mem _ ho)) ?_
    rintro rfl
    exact hnew ho
  · intro e he
    by_cases hee : e = startBlock / cfg.extentBlocks
    · rwa [hee]
    · rw [Function.update_of_ne hee] at he
      exact h.placed e he
  · rw [heq, settle_of_acked c _ _ _ (acked_of_reports hreports), ← hlen]
    split <;> rfl

/-- **A chunk that is committed** is stored on every replica.  Attempts that fail change nothing;
the first one that gets as far as the replicas is the last. -/
theorem executeAttempts_committed (hc : Settled cache c) (hlookup : ∀ k, env.lookup k = none)
    {chunk : Bytes} {epoch : EpochId} (attempts : List Nat) (lastError : Option Error)
    (hok : executeAttempts (tcpPlane x ovf world) x.blake3 env (chunkRequest cfg startBlock chunk)
      attempts lastError c cl = (c', cl', .ok (.committed epoch))) :
    Settled cache c' ∧ Good x cfg cache used ids
      (Function.update content (startBlock / cfg.extentBlocks) (some chunk)) cl' := by
  induction attempts generalizing lastError with
  | nil => cases hok
  | cons attempt rest ih =>
    have hnone : (if attempt > 0 then env.lookup attempt else none) = none := by
      rw [hlookup, ite_self]
    rw [executeAttempts, hnone] at hok
    by_cases hstuck : c.paused = true ∨ replicasOf x cfg cache (startBlock / cfg.extentBlocks) = []
    · obtain ⟨err, herr⟩ := executeOnce_error hset hc.same hstuck env attempt cl chunk ovf
      rw [herr] at hok
      exact ih _ hok
    · obtain ⟨hp, hne⟩ := not_or.mp hstuck
      obtain ⟨cl₁, hgood, heq⟩ := executeOnce_good hset hu hnew h hc.same
        (Bool.eq_false_iff.mpr hp) chunk hne attempt ovf
      by_cases hfew : (replicasOf x cfg cache (startBlock / cfg.extentBlocks)).length
          < requiredAcks cfg.replicas
      · rw [heq, if_pos hfew] at hok
        cases hok
      · rw [heq, if_neg hfew] at hok
        cases hok
        exact ⟨⟨hc.same, max_le hc.watermark le_rfl⟩, hgood⟩

theorem writeChunk_good (hc : Settled cache c) (hlookup : ∀ k, env.lookup k = none) {chunk : Bytes}
    (hok : writeChunk (tcpPlane x ovf world) x.blake3 rs cfg env c cl startBlock chunk
      = (c', cl', .ok ())) :
    Settled cache c' ∧ Good x cfg cache used ids
      (Function.update content (startBlock / cfg.extentBlocks) (some chunk)) cl' := by
  obtain ⟨replicas, hrep⟩ := hset.replicated
  rw [writeChunk, hrep] at hok
  dsimp only at hok
  obtain ⟨⟨c₁, cl₁, result⟩, hr⟩ : ∃ r, r = execute (tcpPlane x ovf world) x.blake3 env c cl
    (chunkRequest cfg startBlock chunk) := ⟨_, rfl⟩
  rw [chunkRequest] at hr
  rw [← hr] at hok
  rcases result with err | outcome
  · cases hok
  · cases outcome with
    | committed epoch =>
      cases hok
      exact executeAttempts_committed hset hu hnew h hc hlookup _ _ hr.symm
    | _ => cases hok

theorem writeChunk_ready (hc : c.cache = cache) (hr : Ready x cfg cache used c) (chunk : Bytes)
    (ovf : Overflow) :
    ∃ cl', writeChunk (tcpPlane x ovf world) x.blake3 rs cfg env c cl startBlock chunk
      = (c.advance cache.epoch, cl', .ok ()) := by
  obtain ⟨replicas, hrep⟩ := hset.replicated
  obtain ⟨cl', -, heq⟩ := executeOnce_good hset hu hnew h hc hr.running chunk (hr.placed _ hu) 0 ovf
  rw [if_neg (Nat.not_lt.mpr (hr.enough _ hu))] at heq
  have hexec := execute_of_once heq
  rw [chunkRequest] at hexec
  refine ⟨cl', ?_⟩
  rw [writeChunk, hrep]
  dsimp only
  rw [hexec]

end Chunk

/-! ## 4. A request -/

/-- What a write makes of the table: each chunk becomes the payload of its extent.  The recursion
is that of the loop of `handle_write`. -/
def storeChunks (cfg : VolumeConfig) (data : Bytes) (endBlock : Nat) :
    (fuel offset currentBlock : Nat) → (Nat → Option Bytes) → Nat → Option Bytes
  | 0, _, _, content => content
  | fuel + 1, offset, currentBlock, content =>
    if currentBlock < endBlock then
      let chunkEnd := chunkEnd cfg.extentBlocks currentBlock endBlock
      let byteLen := min ((chunkEnd - currentBlock) * cfg.blockSize) (data.length - offset)
      let chunk := (data.drop offset).take byteLen
      storeChunks cfg data endBlock fuel (offset + byteLen) chunkEnd
        (Function.update content (currentBlock / cfg.extentBlocks) (some chunk))
    else content

/-- The operation ids the rounds of a loop may draw. -/
def chunkIds (env : Nat → ChunkEnv) (i fuel : Nat) : List OperationId :=
  (List.range' i fuel).map fun j => (env j).operationId

theorem lt_chunkEnd {extentBlocks currentBlock endBlock : Nat} (hpos : 0 < extentBlocks)
    (h : currentBlock < endBlock) : currentBlock < chunkEnd extentBlocks currentBlock endBlock := by
  have hdiv := Nat.div_add_mod currentBlock extentBlocks
  have hmod := Nat.mod_lt currentBlock hpos
  rw [Nat.mul_comm] at hdiv
  rw [chunkEnd, Nat.add_mul]
  omega

/-- The blocks of a chunk and those behind it are all that is left of the data. -/
theorem chunk_add_rest {current stop endBlock blockSize len : Nat} (hstart : current ≤ stop)
    (hstop : stop ≤ endBlock) (hlen : len = (endBlock - current) * blockSize) :
    (stop - current) * blockSize + (endBlock - stop) * blockSize = len := by
  rw [hlen, ← Nat.add_mul]
  congr 1
  omega

variable (rs : ReedSolomon)

/-- **The loop of a write**: when it succeeds it has stored its chunks, and a ready client's loop
succeeds. -/
theorem writeLoop_table (hset : Setting x world cfg cache used) {env : Nat → ChunkEnv}
    (hlookup : ∀ i k, (env i).lookup k = none) {endBlock : Nat} (fuel : Nat) :
    ∀ (i offset currentBlock : Nat) (content : Nat → Option Bytes) (c : Client) (cl : Cluster),
      Settled cache c → (chunkIds env i fuel ++ ids).Nodup →
      Good x cfg cache used (chunkIds env i fuel ++ ids) content cl →
      (∀ b, currentBlock ≤ b → b < endBlock → used (b / cfg.extentBlocks)) →
      ∀ {r}, writeLoop (tcpPlane x ovf world) x.blake3 rs cfg env data endBlock fuel i offset
        currentBlock c cl = (c', cl', r) →
      (r = .ok () → Settled cache c' ∧ Good x cfg cache used ids
          (storeChunks cfg data endBlock fuel offset currentBlock content) cl') ∧
        (Ready x cfg cache used c → r = .ok () ∧ Ready x cfg cache used c') := by
  induction fuel with
  | zero =>
    intro i offset currentBlock content c cl hc _ hgood _ r hout
    cases hout
    exact ⟨fun _ => ⟨hc, hgood⟩, fun hr => ⟨rfl, hr⟩⟩
  | succ fuel ih =>
    intro i offset currentBlock content c cl hc hnodup hgood hu r hout
    have hids : chunkIds env i (fuel + 1) ++ ids
        = (env i).operationId :: (chunkIds env (i + 1) fuel ++ ids) := rfl
    rw [hids] at hnodup hgood
    rw [List.nodup_cons] at hnodup
    rw [writeLoop] at hout
    rw [storeChunks]
    by_cases hlt : currentBlock < endBlock
    · rw [if_pos hlt] at hout ⊢
      dsimp only at hout ⊢
      generalize hlen : min ((chunkEnd cfg.extentBlocks currentBlock endBlock - currentBlock)
        * cfg.blockSize) (data.length - offset) = byteLen at hout ⊢
      have hub := hu currentBlock le_rfl hlt
      have hready := fun hr : Ready x cfg cache used c =>
        writeChunk_ready rs hset hub hnodup.1 hgood hc.same hr ((data.drop offset).take byteLen) ovf
      rcases hr : writeChunk (tcpPlane x ovf world) x.blake3 rs cfg (env i) c cl currentBlock
        ((data.drop offset).take byteLen) with ⟨c₁, cl₁, err | u⟩
      · rw [hr] at hout
        cases hout
        refine ⟨fun hok => (by cases hok), fun hr' => ?_⟩
        obtain ⟨cl₂, heq⟩ := hready hr'
        cases hr.symm.trans heq
      · rw [hr] at hout
        obtain ⟨hc₁, hgood₁⟩ := writeChunk_good rs hset hub hnodup.1 hgood hc (hlookup i) hr
        have hle := lt_chunkEnd (extentBlocks_pos cfg) hlt
        obtain ⟨hstored, hsucceeds⟩ := ih _ _ _ _ _ _ hc₁ hnodup.2 hgood₁
          (fun b hb hb' => hu b (by omega) hb') hout
        refine ⟨hstored, fun hr' => hsucceeds ?_⟩
        obtain ⟨cl₂, heq⟩ := hready hr'
        cases hr.symm.trans heq
        exact hr'.advance _
    · rw [if_neg hlt] at hout ⊢
      cases hout
      exact ⟨fun _ => ⟨hc, hgood.mono fun o ho =>
        List.mem_cons_of_mem _ (List.mem_append_right _ ho)⟩, fun hr => ⟨rfl, hr⟩⟩

def blockWrite (cfg : VolumeConfig) (startBlock : Nat) (data : Bytes) : IoRequest where
  operation := .write
  offsetBytes := startBlock * cfg.blockSize
  lengthBytes := data.length
  data := some data

def blockRead (cfg : VolumeConfig) (startBlock count : Nat) : IoRequest where
  operation := .read
  offsetBytes := startBlock * cfg.blockSize
  lengthBytes := count * cfg.blockSize
  data := none

theorem blockRange_aligned {request : IoRequest} {blockSize : Nat} (hpos : 0 < blockSize)
    (hoff : request.offsetBytes = start * blockSize)
    (hlen : request.lengthBytes = count * blockSize) :
    request.blockRange blockSize = (start, start + count) := by
  have hstop : start * blockSize + count * blockSize + blockSize - 1
      = blockSize - 1 + (start + count) * blockSize := by
    rw [Nat.add_mul]
    omega
  rw [IoRequest.blockRange, hoff, hlen, Nat.mul_div_cancel _ hpos, hstop,
    Nat.add_mul_div_right _ _ hpos, Nat.div_eq_of_lt (Nat.sub_one_lt_of_lt hpos), Nat.zero_add]

/-- A write of whole blocks under a lease, when its loop succeeds. -/
theorem handleWrite_of_loop {σ : Type} {plane : DataPlane σ} {blake3 : Bytes → BitVec 256}
    (hpos : 0 < cfg.blockSize) (hlease : c.leaseState = .active)
    (hversion : ∃ v, c.leaseVersion = some v) {env : IoEnv}
    (hdata : data.length = count * cfg.blockSize) {s s' : σ}
    (hloop : writeLoop plane blake3 rs cfg env.chunk data (start + count) count 0 0 start c s
      = (c', s', .ok ())) :
    handleWrite plane blake3 rs cfg env c s (blockWrite cfg start data) = (c', s', .ok none) := by
  obtain ⟨v, hv⟩ := hversion
  have hrange : (blockWrite cfg start data).blockRange cfg.blockSize = (start, start + count) :=
    blockRange_aligned hpos rfl hdata
  unfold handleWrite
  rw [if_neg (not_not_intro hlease), hrange]
  simp only [Client.checkWriteAllowed, hlease, hv, blockWrite, Nat.add_sub_cancel_left, hloop]

section Request

variable (hset : Setting x world cfg cache used) (hc : Settled cache c) {env : IoEnv}
  (hlookup : ∀ i k, (env.chunk i).lookup k = none) (hdata : data.length = count * cfg.blockSize)
  (hu : ∀ b, start ≤ b → b < start + count → used (b / cfg.extentBlocks))
  (hnodup : (chunkIds env.chunk 0 count ++ ids).Nodup)
  (h : Good x cfg cache used (chunkIds env.chunk 0 count ++ ids) content cl)

include hset hc hlookup hdata hu hnodup h

/-- **A write of whole blocks that succeeds.** -/
theorem handleWrite_good {result : Option Bytes}
    (hok : handleWrite (tcpPlane x ovf world) x.blake3 rs cfg env c cl (blockWrite cfg start data)
      = (c', cl', .ok result)) :
    Settled cache c' ∧ Good x cfg cache used ids
      (storeChunks cfg data (start + count) count 0 start content) cl' := by
  have hrange : (blockWrite cfg start data).blockRange cfg.blockSize = (start, start + count) :=
    blockRange_aligned hset.blockSize_pos rfl hdata
  unfold handleWrite at hok
  rw [hrange] at hok
  split at hok
  · cases hok
  · split at hok
    · cases hok
    · dsimp only [blockWrite] at hok
      rw [Nat.add_sub_cancel_left] at hok
      obtain ⟨⟨c₁, cl₁, r⟩, hr⟩ : ∃ r, r = writeLoop (tcpPlane x ovf world) x.blake3 rs cfg
        env.chunk data (start + count) count 0 0 start c cl := ⟨_, rfl⟩
      rw [← hr] at hok
      cases r with
      | error err => cases hok
      | ok u =>
        cases hok
        exact (writeLoop_table rs hset hlookup count _ _ _ _ _ _ hc hnodup h hu hr.symm).1 rfl

/-- **A ready client's writes of whole blocks succeed.** -/
theorem handleWrite_ready (ovf : Overflow) (hr : Ready x cfg cache used c) :
    ∃ c' cl', handleWrite (tcpPlane x ovf world) x.blake3 rs cfg env c cl
        (blockWrite cfg start data) = (c', cl', .ok none) ∧ Ready x cfg cache used c' := by
  rcases hloop : writeLoop (tcpPlane x ovf world) x.blake3 rs cfg env.chunk data (start + count)
    count 0 0 start c cl with ⟨c', cl', r⟩
  obtain ⟨rfl, hr'⟩ :=
    (writeLoop_table rs hset hlookup count _ _ _ _ _ _ hc hnodup h hu hloop).2 hr
  exact ⟨c', cl', handleWrite_of_loop rs hset.blockSize_pos hr.lease hr.version hdata hloop, hr'⟩

end Request

/-! ## 5. Reads of the table -/

/-- What a block reads as: its window in the payload of its extent. -/
def blockWindow (cfg : VolumeConfig) (content : Nat → Option Bytes) (blockNum : Nat) : Bytes :=
  resize (((content (blockNum / cfg.extentBlocks)).getD []).drop
    (blockNum % cfg.extentBlocks * cfg.blockSize)) cfg.blockSize

/-- A replica that is there holds what the table says. -/
theorem findSome?_of_forall {nodes : List NodeId} {f : NodeId → Option Bytes}
    {payload : Option Bytes} (h : ∀ n ∈ nodes, f n = payload) (hne : payload ≠ none → nodes ≠ []) :
    nodes.findSome? f = payload := by
  cases payload with
  | none => exact List.findSome?_eq_none_iff.mpr h
  | some payload =>
    obtain ⟨n, rest, rfl⟩ := List.exists_cons_of_ne_nil (hne (Option.some_ne_none _))
    rw [List.findSome?_cons, h n List.mem_cons_self]

/-- **A block reads as its window.** -/
theorem readReplicatedBlock_good (hset : Setting x world cfg cache used) (hc : c.cache = cache)
    (h : Good x cfg cache used ids content cl) {b : Nat} (hu : used (b / cfg.extentBlocks))
    (ovf : Overflow) :
    ∃ cl', readReplicatedBlock (tcpPlane x ovf world) x.blake3 cfg c cl b cfg.blockSize
        = (cl', .ok (blockWindow cfg content b)) ∧ Good x cfg cache used ids content cl' := by
  obtain ⟨v, hs, hv⟩ := h.exists_view hset
  obtain ⟨cl', heq, hs'⟩ := (serves_table hset hu ovf).readReplicatedBlock hset.volume hc hs
  have hslot : ∀ n ∈ replicasOf x cfg cache (b / cfg.extentBlocks),
      slotOf v (fun _ => true) (extentIdOf x cfg (b / cfg.extentBlocks)) n
        = content (b / cfg.extentBlocks) := fun n hn => (if_pos rfl).trans (hv.held _ hu n hn)
  refine ⟨cl', ?_, good_of_view hs' hv h.placed⟩
  rw [heq, replicaLocations_eq, extentIdAt_eq, blockWindow, findSome?_of_forall hslot (h.placed _)]

section Blocks

variable {σ : Type} {plane : DataPlane σ} {blake3 : Bytes → BitVec 256} {rs : ReedSolomon}
  {P : σ → Prop} {window : Nat → Bytes} {c : Client}

/-- The loop over the blocks of a read, when each of them is read as its window. -/
theorem readLoop_of_blocks {order : Nat → IterOrder (Nat × NodeId)} (blocks : List Nat)
    (hblock : ∀ b ∈ blocks, ∀ s, P s → ∃ s', readBlockData plane blake3 rs cfg (order b) c s b
      = (s', .ok (window b)) ∧ P s') (resultBuf : Bytes) (s : σ) (hs : P s) :
    ∃ s', readLoop plane blake3 rs cfg order c blocks s resultBuf
        = (s', .ok (resultBuf ++ blocks.flatMap window)) ∧ P s' := by
  induction blocks generalizing resultBuf s with
  | nil => exact ⟨s, by rw [readLoop, List.flatMap_nil, List.append_nil], hs⟩
  | cons b rest ih =>
    obtain ⟨s₁, heq, hs₁⟩ := hblock b List.mem_cons_self s hs
    obtain ⟨s', hrest, hs'⟩ := ih (fun b' hb' => hblock b' (List.mem_cons_of_mem _ hb'))
      (resultBuf ++ window b) s₁ hs₁
    refine ⟨s', ?_, hs'⟩
    rw [readLoop, heq]
    dsimp only
    rw [hrest, List.flatMap_cons, List.append_assoc]

theorem length_flatMap_window {n : Nat} (hlen : ∀ b, (window b).length = n) (blocks : List Nat) :
    (blocks.flatMap window).length = blocks.length * n := by
  induction blocks with
  | nil => rw [List.flatMap_nil, List.length_nil, List.length_nil, Nat.zero_mul]
  | cons b rest ih =>
    rw [List.flatMap_cons, List.length_append, ih, hlen, List.length_cons, Nat.add_mul,
      Nat.one_mul, Nat.add_comm]

theorem freshClient_settled (h : Settled cache c) (env : IoEnv) :
    freshClient env c = .ok c := by
  rw [freshClient, if_pos]
  rw [h.same]
  exact h.watermark

/-- **A read of whole blocks** returns their windows. -/
theorem handleRead_of_blocks (hpos : 0 < cfg.blockSize) (hc : Settled cache c) {env : IoEnv}
    (hcount : 0 < count) (hlen : ∀ b, (window b).length = cfg.blockSize)
    (hblock : ∀ b, start ≤ b → b < start + count → ∀ s, P s →
      ∃ s', readBlockData plane blake3 rs cfg (env.fragmentOrder b) c s b
        = (s', .ok (window b)) ∧ P s') {s : σ} (hs : P s) :
    ∃ s', handleRead plane blake3 rs cfg env c s (blockRead cfg start count)
        = (c, s', .ok (some ((List.range' start count).flatMap window))) ∧ P s' := by
  have hrange : (blockRead cfg start count).blockRange cfg.blockSize = (start, start + count) :=
    blockRange_aligned hpos rfl rfl
  unfold handleRead
  rw [freshClient_settled hc, hrange]
  dsimp only
  rw [Nat.add_sub_cancel_left]
  by_cases hone : count ≤ 1
  · obtain rfl : count = 1 := by omega
    obtain ⟨s', heq, hs'⟩ := hblock start le_rfl (by omega) s hs
    have hlength : (blockRead cfg start 1).lengthBytes = cfg.blockSize := Nat.one_mul _
    refine ⟨s', ?_, hs'⟩
    rw [readBlockData, readSingleBlockData] at heq
    rw [if_pos hone, readSingleBlock, hlength, heq]
    simp only [List.range'_one, List.flatMap_cons, List.flatMap_nil, List.append_nil]
    rfl
  · obtain ⟨s', heq, hs'⟩ := readLoop_of_blocks (List.range' start count)
      (fun b hb => hblock b (List.mem_range'_1.mp hb).1 (List.mem_range'_1.mp hb).2) [] s hs
    refine ⟨s', ?_, hs'⟩
    have hall : ((List.range' start count).flatMap window).length
        = (blockRead cfg start count).lengthBytes := by
      rw [length_flatMap_window hlen, List.length_range']
      rfl
    rw [if_neg hone, heq]
    dsimp only
    rw [List.nil_append, List.take_of_length_le hall.le]
    rfl

end Blocks

/-- **A read of whole blocks of the table** returns their windows, and leaves the table. -/
theorem handleRead_good (hset : Setting x world cfg cache used) (hc : Settled cache c)
    (h : Good x cfg cache used ids content cl) (hcount : 0 < count)
    (hu : ∀ b, start ≤ b → b < start + count → used (b / cfg.extentBlocks)) (env : IoEnv)
    (ovf : Overflow) :
    ∃ cl', handleRead (tcpPlane x ovf world) x.blake3 rs cfg env c cl (blockRead cfg start count)
        = (c, cl', .ok (some ((List.range' start count).flatMap (blockWindow cfg content)))) ∧
      Good x cfg cache used ids content cl' := by
  refine handleRead_of_blocks hset.blockSize_pos hc hcount (fun _ => length_resize _ _) ?_ h
  intro b hb hb' cl hgood
  rw [readBlockData, hset.volume.policy]
  exact readReplicatedBlock_good hset hc.same hgood (hu b hb hb') ovf

end Table

end Blockyard.Ublk
