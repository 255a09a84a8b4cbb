/-
# Overwrites that reach only some nodes

Every overwrite of an extent has the same id and the same version, so nothing a node stores tells
an old payload from a new one.  When an overwrite reaches some of the nodes of an extent and not
the others, a read returns whatever is in the places it looks at:

* for a replicated extent, what the FIRST replica to answer holds (`read_overwritten_replicas`);
* for an erasure-coded extent, fragment by fragment what the node in the fragment's place holds,
  new fragments beside old ones (`read_overwritten_stripe`).

So how a read relates to the old payload and to the new one is decided byte by byte: by whether
the node in the byte's place acknowledged, or the two payloads happen to agree there.  It does
not matter for this whether the overwrite was reported committed (§4) or failed (§5).
-/
import Blockyard.Ublk.Erasures

open Std CrashFs

namespace Blockyard.Ublk

open Storage

/-! ## 1. Replicated extents -/

section Replicated

variable {σ : Type} {plane : DataPlane σ} {blake3 : Bytes → BitVec 256} {acks up : NodeId → Bool}
  {Shows : View → σ → Prop} {v : View} {cfg : VolumeConfig} {cache : MetadataCache}
  {replicas : Nat} {c : Client} {s : σ} {b : Nat}

/-- What a read finds at the replicas of an overwritten extent: at the first that answers, the new
payload if it acknowledged and the old one if not. -/
theorem findSome?_slotOf_overwritten {nodes : List NodeId} {e : ExtentId} {old new : Bytes}
    (h : ∀ n ∈ nodes, v.held n e = if acks n = true then some new else some old) :
    nodes.findSome? (slotOf v up e)
      = (nodes.find? up).map fun n => if acks n = true then new else old := by
  induction nodes with
  | nil => rfl
  | cons n nodes ih =>
    have hrest := ih fun m hm => h m (by simp [hm])
    have hslot : slotOf v up e n = if up n = true then
        (if acks n = true then some new else some old) else none := by
      rw [slotOf, h n (by simp)]
    rw [List.findSome?_cons, List.find?_cons, hslot, hrest]
    cases hup : up n <;> cases hack : acks n <;> simp [hack]

/-- **A block of an overwritten extent**: what the first replica to answer holds. -/
theorem read_overwritten_replicas
    (h : Serves plane blake3 (extentScope blake3 cfg cache b) acks up Shows)
    (hvol : ReplicatedVolume cfg cache replicas) (hc : Settled cache c) {old new : Bytes}
    (hheld : ∀ n ∈ replicaLocations blake3 cfg cache b,
      v.held n (extentIdAt blake3 cfg b) = if acks n = true then some new else some old)
    {n : NodeId} (hn : (replicaLocations blake3 cfg cache b).find? up = some n)
    (rs : ReedSolomon) (env : IoEnv) (hs : Shows v s) :
    ∃ s', handleRead plane blake3 rs cfg env c s (blockRead cfg b 1)
      = (c, s', .ok (some (resize ((if acks n = true then new else old).drop
          (b % cfg.extentBlocks * cfg.blockSize)) cfg.blockSize))) := by
  have hblock : ∀ b', b ≤ b' → b' < b + 1 → ∀ s, Shows v s →
      ∃ s', readBlockData plane blake3 rs cfg (env.fragmentOrder b') c s b'
        = (s', .ok (resize ((if acks n = true then new else old).drop
            (b % cfg.extentBlocks * cfg.blockSize)) cfg.blockSize)) ∧ Shows v s' := by
    intro b' hle hlt s hs
    obtain rfl : b = b' := by omega
    obtain ⟨s', heq, hs'⟩ := h.readReplicatedBlock hvol hc.same hs
    rw [findSome?_slotOf_overwritten hheld, hn] at heq
    rw [readBlockData, hvol.policy]
    exact ⟨s', heq, hs'⟩
  obtain ⟨s', heq, -⟩ := handleRead_of_blocks hvol.blockSize_pos hc Nat.one_pos
    (fun _ => length_resize _ _) hblock hs
  exact ⟨s', by simpa using heq⟩

theorem blockToExtent_alignedStart (cfg : VolumeConfig) (b : Nat) :
    (PlacementEngine.blockToExtent (alignedStart cfg b) cfg.extentBlocks).1
      = (PlacementEngine.blockToExtent b cfg.extentBlocks).1 := by
  simp only [PlacementEngine.blockToExtent, max_extentBlocks, alignedStart,
    Nat.mul_div_cancel _ (extentBlocks_pos cfg)]

theorem settled_of_settle {c' : Client} {refresh : Except Error MetadataCache} {required : Nat}
    {replies : List WriteAck} {outcome : WriteOutcome} (hc : Settled cache c)
    (h : settle c refresh cache.epoch required replies = (c', outcome))
    (hne : outcome ≠ .staleEpoch) : Settled cache c' := by
  unfold settle at h
  split at h
  · cases h
    exact absurd rfl hne
  · dsimp only at h
    split at h
    · cases h
      exact hc
    · cases h
      exact hc.advance

end Replicated

/-! ## 2. Committed overwrites of replicated extents -/

/-- **Which committed overwrites of a replicated extent are read back.**  The old payload is on
every replica, the overwrite is reported committed, and some replica that acknowledged can be
reached.  A read of a block returns the new bytes exactly when the FIRST replica that can be
reached acknowledged, or the two payloads have the same bytes there. -/
theorem committed_overwrite_read_iff (blake3 : Bytes → BitVec 256) (rs : ReedSolomon)
    (cfg : VolumeConfig) (cache : MetadataCache) (replicas : Nat)
    (hvol : ReplicatedVolume cfg cache replicas) (b : Nat)
    (_hend : (b + 1 + cfg.extentBlocks) * cfg.blockSize < 2 ^ 64) (σ : Type) (plane : DataPlane σ)
    (acks up : NodeId → Bool) (Shows : View → σ → Prop)
    (hserves : Serves plane blake3 (volumeScope cfg cache (· = extentIdAt blake3 cfg b)) acks up
      Shows) (old new : Bytes) (hold : old.length = cfg.extentBlocks * cfg.blockSize)
    (hnew : new.length = cfg.extentBlocks * cfg.blockSize) (v : View) (s : σ) (hs : Shows v s)
    (hheld : ∀ n ∈ replicaLocations blake3 cfg cache b,
      v.held n (extentIdAt blake3 cfg b) = some old)
    (c : Client) (hc : Settled cache c) (hp : c.paused = false) (env : ChunkEnv)
    (hfresh : ∀ n ∈ cache.listNodes, v.fresh n env.operationId) (c' : Client) (s' : σ)
    (epoch : EpochId)
    (hcommit : execute plane blake3 env c s (chunkRequest cfg (alignedStart cfg b) new)
      = (c', s', .ok (.committed epoch)))
    (hreach : ∃ n ∈ replicaLocations blake3 cfg cache b, acks n = true ∧ up n = true)
    (env' : IoEnv) :
    (handleIo plane blake3 rs cfg env' c' s' (blockRead cfg b 1)).2.2
        = .ok (some (BlockDevice.slice cfg.blockSize new (b % cfg.extentBlocks))) ↔
      (∃ n, (replicaLocations blake3 cfg cache b).find? up = some n ∧ acks n = true) ∨
        BlockDevice.slice cfg.blockSize old (b % cfg.extentBlocks)
          = BlockDevice.slice cfg.blockSize new (b % cfg.extentBlocks) := by
  have hlocs : replicaLocations blake3 cfg cache (alignedStart cfg b)
      = replicaLocations blake3 cfg cache b := by
    rw [replicaLocations, replicaLocations, blockToExtent_alignedStart]
  have hid : extentIdAt blake3 cfg (alignedStart cfg b) = extentIdAt blake3 cfg b := by
    rw [extentIdAt, extentIdAt, blockToExtent_alignedStart]
  obtain ⟨m, hm, -, hupm⟩ := hreach
  have hne : replicaLocations blake3 cfg cache (alignedStart cfg b) ≠ [] := by
    rw [hlocs]
    exact List.ne_nil_of_mem hm
  have hnarrow : Serves plane blake3 (extentScope blake3 cfg cache b) acks up Shows :=
    hserves.narrow rfl rfl (fun _ => PlacementEngine.mem_of_mem_selectNodes) fun _ he => he
  have haligned : Serves plane blake3 (extentScope blake3 cfg cache (alignedStart cfg b)) acks up
      Shows := by
    rw [extentScope, hlocs, hid]
    exact hnarrow
  obtain ⟨s₁, v', replies, honce, hs', hsent, -⟩ := executeOnce_serves haligned hvol hc.same hp hne
    (fun n hn => hfresh n (PlacementEngine.mem_of_mem_selectNodes hn)) hs new 0
  rw [execute_of_once honce] at hcommit
  obtain ⟨hc', rfl, hout⟩ : _ = c' ∧ s₁ = s' ∧ _ = WriteOutcome.committed epoch := by
    simpa using hcommit
  have hsettled : Settled cache c' := settled_of_settle hc (Prod.ext hc' hout) (by simp)
  -- after the overwrite
  rw [hid, hlocs] at hsent
  have hheld' : ∀ n ∈ replicaLocations blake3 cfg cache b,
      v'.held n (extentIdAt blake3 cfg b) = if acks n = true then some new else some old := by
    intro n hn
    have hcall := hsent.sent _ (List.mem_map_of_mem hn)
    rw [← hheld n hn]
    exact hcall
  obtain ⟨n, hn⟩ : ∃ n, (replicaLocations blake3 cfg cache b).find? up = some n := by
    rw [← Option.isSome_iff_exists, List.find?_isSome]
    exact ⟨m, hm, hupm⟩
  obtain ⟨s₂, hread⟩ := read_overwritten_replicas hnarrow hvol hsettled hheld' hn rs env' hs'
  have hfits : ∀ payload : Bytes, payload.length = cfg.extentBlocks * cfg.blockSize →
      resize (payload.drop (b % cfg.extentBlocks * cfg.blockSize)) cfg.blockSize
        = BlockDevice.slice cfg.blockSize payload (b % cfg.extentBlocks) := by
    intro payload hlen
    refine resize_drop ?_
    rw [hlen]
    exact Nat.mul_le_mul_right _ (Nat.mod_lt _ (extentBlocks_pos cfg))
  have hio : (handleIo plane blake3 rs cfg env' c' s₁ (blockRead cfg b 1)).2.2
      = .ok (some (BlockDevice.slice cfg.blockSize (if acks n = true then new else old)
          (b % cfg.extentBlocks))) := by
    show (handleRead plane blake3 rs cfg env' c' s₁ (blockRead cfg b 1)).2.2 = _
    rw [hread, hfits]
    split <;> assumption
  rw [hio, hn]
  cases hack : acks n with
  | true => simp [hack]
  | false => simp [hack]

def tripleVolume : VolumeConfig := { smallVolume with protection := .replicated 3 }

def tripleCache : MetadataCache where
  epoch := 1
  clusterMap := pairedCache.clusterMap.insert ⟨4#128⟩ "10.0.0.4:7400"
  volumes := (∅ : BTreeMap VolumeId CachedVolumeInfo).insert ⟨7#128⟩ ⟨.replicated 3⟩

def tripleClient : Client := { smallClient with cache := tripleCache }

/-- Nodes that can all be read; the writes to one of them fail. -/
def missing (n : NodeId) : DataPlane (NodeId → ExtentId → Option Bytes) :=
  shelf.cutOff (· ≠ n) fun _ => true

theorem replicatedVolume_triple : ReplicatedVolume tripleVolume tripleCache 3 where
  policy := rfl
  known := ExtTreeMap.getElem?_insert_self
  blockSize_pos := by decide
  blockSize_lt := by decide
  extentSize_lt := by decide

theorem settled_triple : Settled tripleCache tripleClient := ⟨rfl, Nat.zero_le _⟩

/-- Nodes 2 and 3 acknowledge `[1, 2]` over `[2, 1]`, node 4 does not: block 0 reads as 1. -/
theorem committed_overwrite_read_iff_last_missing :
    let written := execute (missing ⟨4#128⟩) stripeBlake3 ((idsFrom 31).chunk 0) tripleClient
      (fun _ _ => some [2, 1]) (chunkRequest tripleVolume 0 [1, 2])
    written.2.2 = .ok (.committed 1) ∧
      (handleIo (missing ⟨4#128⟩) stripeBlake3 noCode tripleVolume (idsFrom 41)
        written.1 written.2.1
        (blockRead tripleVolume 0 1)).2.2 = .ok (some [1]) := by
  refine ⟨rfl, ?_⟩
  exact (committed_overwrite_read_iff stripeBlake3 noCode tripleVolume tripleCache 3
    replicatedVolume_triple 0 (by decide) _ _ _ _ _ ((serves_shelf _ _).cutOff _ _) [2, 1] [1, 2]
    rfl rfl ⟨fun _ _ => some [2, 1], fun _ _ => True⟩ _ rfl (fun _ _ => rfl) tripleClient
    settled_triple rfl ((idsFrom 31).chunk 0) (fun _ _ => trivial) _ _ 1 rfl
    ⟨⟨2#128⟩, by decide, by decide, rfl⟩ (idsFrom 41)).mpr (Or.inl ⟨⟨2#128⟩, by decide, by decide⟩)

/-- **A committed overwrite that a read does not see.**  Nodes 3 and 4 acknowledge `[1, 2]`, a
majority of the three replicas, and the write is reported committed; node 2, whose write failed,
is asked first and answers with the old payload `[2, 1]`. -/
theorem committed_overwrite_not_read :
    let written := execute (missing ⟨2#128⟩) stripeBlake3 ((idsFrom 31).chunk 0) tripleClient
      (fun _ _ => some [2, 1]) (chunkRequest tripleVolume 0 [1, 2])
    written.2.2 = .ok (.committed 1) ∧ written.2.1 ⟨3#128⟩ (extentIdAt stripeBlake3 tripleVolume 0)
        = some [1, 2] ∧
      (handleIo (missing ⟨2#128⟩) stripeBlake3 noCode tripleVolume (idsFrom 41)
        written.1 written.2.1
        (blockRead tripleVolume 0 1)).2.2 = .ok (some [2]) :=
  ⟨rfl, rfl, rfl⟩

/-! ## 3. Erasure-coded extents -/

section Coded

variable {σ : Type} {plane : DataPlane σ} {blake3 : Bytes → BitVec 256} {rs : ReedSolomon}
  {acks : NodeId → Bool} {Shows : View → σ → Prop} {v : View} {cfg : VolumeConfig}
  {cache : MetadataCache} {k m b : Nat} {c : Client} {env : ChunkEnv} {s : σ} {old new : Bytes}

/-- **The row an overwrite leaves.**  Every place is filled, and a byte of the data fragments is
the new one exactly where the node in its place acknowledged. -/
theorem overwritten_row {start : Nat} {word : List Bytes} (hvol : EcVolume cfg cache k m)
    (hlen : old.length = new.length)
    (hheld : StripeHeld rs k m v (stripeNodes blake3 cfg cache (k + m) start)
      (stripeId blake3 cfg start) (some old))
    (hword : Encodes rs k m new word) {v' : View} {o : OperationId}
    (hsent : Sent v v' acks (stripeId blake3 cfg start) o
      (fragmentCalls blake3 cfg c env start (stripeNodes blake3 cfg cache (k + m) start) word)) :
    ∃ row, Shards (k + m) (fragmentSize k new) row ∧
      (stripeNodes blake3 cfg cache (k + m) start).map
        (fun n => v'.held n (stripeId blake3 cfg start))
        = row.map some ∧
      ∀ j < new.length, ∀ n,
        (stripeNodes blake3 cfg cache (k + m) start)[j / fragmentSize k new]? = some n →
          (row.take k).flatten[j]? = if acks n = true then new[j]? else old[j]? := by
  have hk := hvol.dataChunks_pos
  obtain ⟨hold, word₀, hword₀, hplaces⟩ := hheld
  have hnew : new ≠ [] := by
    rw [← List.length_pos_iff] at hold ⊢
    omega
  have hsize : fragmentSize k old = fragmentSize k new := congrArg (Stripe.pieceSize · k) hlen
  have hcount : (stripeNodes blake3 cfg cache (k + m) start).length = k + m :=
    hvol.length_stripeNodes start
  generalize stripeNodes blake3 cfg cache (k + m) start = nodes at *
  -- the node in a place has one of the two fragments of the place
  have hfound : ∀ (i : Nat) (n : NodeId), nodes[i]? = some n → ∃ fragment fragment₀,
      word[i]? = some fragment ∧ word₀[i]? = some fragment₀ ∧
        v'.held n (stripeId blake3 cfg start)
          = some (if acks n = true then fragment else fragment₀) := by
    intro i n hn
    have hi : i < k + m := hcount ▸ (List.getElem?_eq_some_iff.mp hn).1
    obtain ⟨fragment, hf⟩ : ∃ fragment, word[i]? = some fragment :=
      ⟨_, List.getElem?_eq_getElem (hword.shards.length ▸ hi)⟩
    obtain ⟨fragment₀, hf₀⟩ : ∃ fragment₀, word₀[i]? = some fragment₀ :=
      ⟨_, List.getElem?_eq_getElem (hword₀.shards.length ▸ hi)⟩
    refine ⟨fragment, fragment₀, hf, hf₀, ?_⟩
    have hbefore := congrArg (fun l : List (Option Bytes) => l[i]?) hplaces
    rw [List.getElem?_map, List.getElem?_map, hn, hf₀, Option.map_some, Option.map_some,
      Option.some.injEq] at hbefore
    rw [hsent.fragment hn hf, hbefore]
    split <;> rfl
  have hsizes : ∀ n ∈ nodes, ∃ fragment : Bytes,
      v'.held n (stripeId blake3 cfg start) = some fragment
      ∧ fragment.length = fragmentSize k new := by
    intro n hn
    obtain ⟨i, hi⟩ := List.getElem?_of_mem hn
    obtain ⟨fragment, fragment₀, hf, hf₀, hnode⟩ := hfound i n hi
    refine ⟨_, hnode, ?_⟩
    split
    · exact hword.shards.size _ (List.mem_of_getElem? hf)
    · rw [← hsize]
      exact hword₀.shards.size _ (List.mem_of_getElem? hf₀)
  have hshards : Shards (k + m) (fragmentSize k new)
      (nodes.map fun n => (v'.held n (stripeId blake3 cfg start)).getD []) := by
    refine ⟨by rw [List.length_map, hcount], ?_⟩
    intro fragment hmem
    obtain ⟨n, hn, rfl⟩ := List.mem_map.mp hmem
    obtain ⟨fragment, hnode, hfragment⟩ := hsizes n hn
    rw [hnode, Option.getD_some, hfragment]
  refine ⟨_, hshards, ?_, ?_⟩
  · rw [List.map_map]
    refine List.map_congr_left fun n hn => ?_
    obtain ⟨fragment, hnode, -⟩ := hsizes n hn
    simp [hnode]
  · intro j hj n hn
    obtain ⟨fragment, fragment₀, hf, hf₀, hnode⟩ := hfound _ n hn
    have hbyte := hword.byte hk hj
    have hbyte₀ := hword₀.byte hk (hlen ▸ hj)
    rw [hf, Option.bind_some] at hbyte
    rw [hsize, hf₀, Option.bind_some] at hbyte₀
    rw [Stripe.getElem?_flatten (fragmentSize_pos hk hnew)
      fun _ hmem => hshards.size _ (List.mem_of_mem_take hmem),
      List.getElem?_take_of_lt (Stripe.div_pieceSize_lt hk hj), List.getElem?_map, hn,
      Option.map_some, Option.bind_some, hnode, Option.getD_some]
    split
    · exact hbyte
    · exact hbyte₀

/-- **A read of a block of a full extent** returns a block of the row of data shards that
`reconstruct` makes of what is found. -/
theorem handleRead_row {scope : Scope} {up : NodeId → Bool} {f : Nat} {slots : List (Option Bytes)}
    {shards : List Bytes} (h : Serves plane blake3 scope acks up Shows)
    (hec : cfg.protection = .erasureCoded k m) (hbs : 0 < cfg.blockSize)
    (hnew : rs.new k m = .ok ())
    (hc : Settled cache c) (hscope : ∀ n ∈ cache.listNodes, n ∈ scope.nodes)
    (hext : scope.extents (stripeId blake3 cfg (alignedStart cfg b)))
    (hslots : slotsOf v up (stripeId blake3 cfg (alignedStart cfg b)) (k + m)
      (stripeNodes blake3 cfg cache (k + m) (alignedStart cfg b)) = slots)
    (hsome : ¬ slots.all Option.isNone = true)
    (hrec : rs.reconstruct k m slots = .ok (shards.map some)) (hshards : Shards (k + m) f shards)
    (hfit : cfg.extentBlocks * cfg.blockSize ≤ k * f) (env' : IoEnv) (hs : Shows v s) :
    (handleIo plane blake3 rs cfg env' c s (blockRead cfg b 1)).2.2
      = .ok (some (BlockDevice.slice cfg.blockSize (shards.take k).flatten
          (b % cfg.extentBlocks))) := by
  rw [← hc.same] at hslots hscope
  obtain ⟨s', hread, -⟩ := readEcBlockData_found h hec hnew hscope hext hslots hsome hrec
    (env'.fragmentOrder b) hs
  have hrow : (((shards.map some).take k).map fun shard => shard.getD []).flatten
      = (shards.take k).flatten ++ List.replicate 0 0 := by
    rw [← List.map_take, List.map_map, List.replicate_zero, List.append_nil]
    exact congrArg List.flatten (List.map_id _)
  have hoffset : b - alignedStart cfg b = b % cfg.extentBlocks := by
    have hdiv := Nat.div_add_mod b cfg.extentBlocks
    rw [Nat.mul_comm] at hdiv
    rw [alignedStart]
    omega
  -- the block lies inside the row
  have hin : (b % cfg.extentBlocks + 1) * cfg.blockSize ≤ (shards.take k).flatten.length := by
    rw [Stripe.length_flatten fun _ hmem => hshards.size _ (List.mem_of_mem_take hmem),
      List.length_take, hshards.length, Nat.min_eq_left (Nat.le_add_right k m)]
    exact Nat.le_trans (Nat.mul_le_mul_right _ (Nat.mod_lt _ (extentBlocks_pos cfg))) hfit
  show (handleRead plane blake3 rs cfg env' c s (blockRead cfg b 1)).2.2 = _
  rw [handleRead_ecBlock plane blake3 rs hec hbs (freshClient_settled hc env'), hread,
    blockOfShards_of_flatten cfg hrow, hoffset, resize_drop hin]
  rfl

/-- **A block of an overwritten stripe** is a block of the row the overwrite left, whether the
overwrite was reported committed or failed. -/
theorem read_overwritten_stripe (hvol : EcVolume cfg cache k m) (hlaw : rs.Lawful k m)
    (hkeeps : rs.KeepsComplete k m)
    (h : Serves plane blake3
      (volumeScope cfg cache (· = stripeId blake3 cfg (alignedStart cfg b))) acks (fun _ => true)
      Shows) (hold : old.length = cfg.extentBlocks * cfg.blockSize)
    (hnew : new.length = cfg.extentBlocks * cfg.blockSize) (hs : Shows v s)
    (hheld : StripeHeld rs k m v (stripeNodes blake3 cfg cache (k + m) (alignedStart cfg b))
      (stripeId blake3 cfg (alignedStart cfg b)) (some old))
    (hc : Settled cache c) (hp : c.paused = false)
    (hfresh : ∀ n ∈ cache.listNodes, v.fresh n env.operationId) {c' : Client} {s' : σ}
    {outcome : WriteOutcome} (hne : outcome ≠ .staleEpoch)
    (hwrite : ecExecute plane blake3 rs env c s cfg.volumeId (alignedStart cfg b) new
      = (c', s', .ok outcome)) (env' : IoEnv) :
    ∃ row : Bytes, (handleIo plane blake3 rs cfg env' c' s' (blockRead cfg b 1)).2.2
        = .ok (some (BlockDevice.slice cfg.blockSize row (b % cfg.extentBlocks))) ∧
      ∀ j < new.length, ∀ n,
        (stripeNodes blake3 cfg cache (k + m) (alignedStart cfg b))[j / fragmentSize k new]?
          = some n →
          row[j]? = if acks n = true then new[j]? else old[j]? := by
  have hk := hvol.dataChunks_pos
  have hpos : 0 < cfg.extentBlocks * cfg.blockSize :=
    Nat.mul_pos (extentBlocks_pos cfg) hvol.blockSize_pos
  have hdata : new ≠ [] := List.ne_nil_of_length_pos (hnew ▸ hpos)
  obtain ⟨word, hword⟩ := hlaw.exists_encodes hk hdata
  -- the overwrite
  obtain ⟨s₁, v', replies, honce, hs', hsent, -⟩ := ecExecuteOnce_serves hvol hc.same hp hlaw.new
    hdata hword (by rfl) hfresh hs h 0
  rw [ecExecute_of_once honce] at hwrite
  obtain ⟨hc', rfl, hout⟩ : _ = c' ∧ s₁ = s' ∧ _ = outcome := by simpa using hwrite
  have hsettled : Settled cache c' := settled_of_settle hc (Prod.ext hc' hout) hne
  -- the read
  obtain ⟨row, hshards, hplaces, hbytes⟩ := overwritten_row hvol (hold.trans hnew.symm) hheld hword
    hsent
  have hslots : slotsOf v' (fun _ => true) (stripeId blake3 cfg (alignedStart cfg b)) (k + m)
      (stripeNodes blake3 cfg cache (k + m) (alignedStart cfg b)) = row.map some := by
    rw [slotsOf, hvol.length_stripeNodes, Nat.sub_self, List.replicate_zero, List.append_nil,
      ← hplaces]
    rfl
  have hsome : ¬ (row.map some).all Option.isNone = true := by
    have hlen := hshards.length
    cases row with
    | nil =>
      rw [List.length_nil] at hlen
      omega
    | cons fragment row => simp
  have hfit : cfg.extentBlocks * cfg.blockSize ≤ k * fragmentSize k new :=
    hnew ▸ Stripe.le_mul_pieceSize hk
  exact ⟨(row.take k).flatten, handleRead_row h hvol.policy hvol.blockSize_pos hlaw.new hsettled
    (fun _ hn => hn) rfl hslots hsome (hkeeps (fragmentSize_pos hk hdata) hshards) hshards hfit
    env' hs', hbytes⟩

end Coded

theorem exists_place {blake3 : Bytes → BitVec 256} {cfg : VolumeConfig} {cache : MetadataCache}
    {k m start b j : Nat} {data : Bytes} (hvol : EcVolume cfg cache k m)
    (hdata : data.length = cfg.extentBlocks * cfg.blockSize)
    (hj : j < (b % cfg.extentBlocks + 1) * cfg.blockSize) :
    j < data.length ∧ ∃ n,
      (stripeNodes blake3 cfg cache (k + m) start)[j / fragmentSize k data]? = some n := by
  have hin : j < data.length := by
    rw [hdata]
    refine Nat.lt_of_lt_of_le hj (Nat.mul_le_mul_right _ (Nat.mod_lt _ (extentBlocks_pos cfg)))
  have hplace := Stripe.div_pieceSize_lt hvol.dataChunks_pos hin
  refine ⟨hin, _, List.getElem?_eq_getElem ?_⟩
  rw [hvol.length_stripeNodes]
  exact Nat.lt_of_lt_of_le hplace (Nat.le_add_right k m)

/-- A block of a row that is new at some places and old at the others, against a payload. -/
theorem slice_row_eq_iff {blake3 : Bytes → BitVec 256} {cfg : VolumeConfig}
    {cache : MetadataCache} {k m start b : Nat} {acks : NodeId → Bool} {old new row target : Bytes}
    (hvol : EcVolume cfg cache k m) (hnew : new.length = cfg.extentBlocks * cfg.blockSize)
    (hbytes : ∀ j < new.length, ∀ n,
      (stripeNodes blake3 cfg cache (k + m) start)[j / fragmentSize k new]? = some n →
        row[j]? = if acks n = true then new[j]? else old[j]?) :
    BlockDevice.slice cfg.blockSize row (b % cfg.extentBlocks)
        = BlockDevice.slice cfg.blockSize target (b % cfg.extentBlocks) ↔
      ∀ j, b % cfg.extentBlocks * cfg.blockSize ≤ j →
        j < (b % cfg.extentBlocks + 1) * cfg.blockSize →
        ∀ n, (stripeNodes blake3 cfg cache (k + m) start)[j / fragmentSize k new]? = some n →
          (if acks n = true then new[j]? else old[j]?) = target[j]? := by
  rw [BlockDevice.slice_eq_iff]
  refine forall_congr' fun j => forall_congr' fun _ => forall_congr' fun hlt => ?_
  obtain ⟨hj, n, hn⟩ := exists_place hvol hnew hlt
  rw [hbytes j hj n hn]
  simp only [hn, Option.some.injEq, forall_eq']

/-! ## 4. Committed overwrites of stripes -/

/-- **Which committed overwrites of a stripe are read back.**  The fragments of the old payload are
all in place and the overwrite is reported committed.  With every node answering, a read of a
block returns the new bytes exactly when, byte by byte, the node whose data fragment the byte
falls into acknowledged, or the payloads agree. -/
theorem committed_stripe_overwrite_read_iff (blake3 : Bytes → BitVec 256) (rs : ReedSolomon)
    (cfg : VolumeConfig) (cache : MetadataCache) (k m : Nat) (hvol : EcVolume cfg cache k m)
    (hlaw : rs.Lawful k m) (hkeeps : rs.KeepsComplete k m) (b : Nat)
    (_hend : (b + 1 + cfg.extentBlocks) * cfg.blockSize < 2 ^ 64) (σ : Type)
    (plane : DataPlane σ) (acks : NodeId → Bool) (Shows : View → σ → Prop)
    (hserves : Serves plane blake3
      (volumeScope cfg cache (· = stripeId blake3 cfg (alignedStart cfg b))) acks (fun _ => true)
      Shows) (old new : Bytes) (hold : old.length = cfg.extentBlocks * cfg.blockSize)
    (hnew : new.length = cfg.extentBlocks * cfg.blockSize) (v : View) (s : σ) (hs : Shows v s)
    (hheld : StripeHeld rs k m v (stripeNodes blake3 cfg cache (k + m) (alignedStart cfg b))
      (stripeId blake3 cfg (alignedStart cfg b)) (some old))
    (c : Client) (hc : Settled cache c) (hp : c.paused = false) (env : ChunkEnv)
    (hfresh : ∀ n ∈ cache.listNodes, v.fresh n env.operationId) (c' : Client) (s' : σ)
    (epoch : EpochId)
    (hcommit : ecExecute plane blake3 rs env c s cfg.volumeId (alignedStart cfg b) new
      = (c', s', .ok (.committed epoch))) (env' : IoEnv) :
    (handleIo plane blake3 rs cfg env' c' s' (blockRead cfg b 1)).2.2
        = .ok (some (BlockDevice.slice cfg.blockSize new (b % cfg.extentBlocks))) ↔
      ∀ j, b % cfg.extentBlocks * cfg.blockSize ≤ j →
        j < (b % cfg.extentBlocks + 1) * cfg.blockSize →
        ∀ n, (stripeNodes blake3 cfg cache (k + m) (alignedStart cfg b))[j / fragmentSize k new]?
            = some n → acks n = true ∨ old[j]? = new[j]? := by
  obtain ⟨row, hread, hbytes⟩ := read_overwritten_stripe hvol hlaw hkeeps hserves hold hnew hs hheld
    hc hp hfresh (by simp) hcommit env'
  rw [hread, Except.ok.injEq, Option.some.injEq, slice_row_eq_iff hvol hnew hbytes]
  refine forall₅_congr fun j _ _ n _ => ?_
  cases hack : acks n <;> simp

theorem copyCode_keepsComplete {m : Nat} : copyCode.KeepsComplete 1 m := by
  intro size shards _ hshards
  have hlen := hshards.length
  cases shards with
  | nil =>
    rw [List.length_nil] at hlen
    omega
  | cons shard shards => simp [copyCode]

def mirroredVolume : VolumeConfig := { smallVolume with protection := .erasureCoded 1 2 }

def mirroredCache : MetadataCache :=
  { tripleCache with
    volumes := (∅ : BTreeMap VolumeId CachedVolumeInfo).insert ⟨7#128⟩ ⟨.erasureCoded 1 2⟩ }

def mirroredClient : Client := { smallClient with cache := mirroredCache }

theorem ecVolume_mirrored : EcVolume mirroredVolume mirroredCache 1 2 where
  policy := rfl
  known := ExtTreeMap.getElem?_insert_self
  dataChunks_pos := le_rfl
  parityChunks_pos := by decide
  total_le := by decide
  nodes_le := by decide
  blockSize_pos := by decide

theorem encodes_old (m : Nat) : Encodes copyCode 1 m [2, 1] (List.replicate (1 + m) [2, 1]) where
  encode := rfl
  shards := ⟨List.length_replicate, fun _ hmem => by rw [List.eq_of_mem_replicate hmem]; rfl⟩
  pieces := by
    rw [Nat.add_comm, List.replicate_succ, List.take_succ_cons, List.take_zero]
    rfl

/-- Nodes 2 and 3 acknowledge `[1, 2]` over `[2, 1]`, node 4, with the second parity fragment, does
not: block 0 reads as 1. -/
theorem committed_stripe_overwrite_read_iff_parity_missing :
    let written := ecExecute (missing ⟨4#128⟩) stripeBlake3 copyCode ((idsFrom 31).chunk 0)
      mirroredClient (fun _ _ => some [2, 1]) ⟨7#128⟩ 0 [1, 2]
    written.2.2 = .ok (.committed 1) ∧
      (handleIo (missing ⟨4#128⟩) stripeBlake3 copyCode mirroredVolume (idsFrom 41) written.1
        written.2.1 (blockRead mirroredVolume 0 1)).2.2 = .ok (some [1]) := by
  refine ⟨rfl, ?_⟩
  have hheld : StripeHeld copyCode 1 2 ⟨fun _ _ => some [2, 1], fun _ _ => True⟩
      (stripeNodes stripeBlake3 mirroredVolume mirroredCache (1 + 2) 0)
      (stripeId stripeBlake3 mirroredVolume 0) (some [2, 1]) :=
    ⟨by decide, _, encodes_old 2, by decide⟩
  refine (committed_stripe_overwrite_read_iff stripeBlake3 copyCode mirroredVolume mirroredCache 1 2
    ecVolume_mirrored (copyCode_lawful ⟨by decide, by decide⟩) copyCode_keepsComplete 0
    (by decide) _ _ _ _ ((serves_shelf _ _).cutOff _ _) [2, 1] [1, 2] rfl rfl _ _ rfl hheld
    mirroredClient ⟨rfl, Nat.zero_le _⟩ rfl ((idsFrom 31).chunk 0) (fun _ _ => trivial) _ _ 1 rfl
    (idsFrom 41)).mpr ?_
  rintro j - hj n hn
  obtain rfl : j = 0 := Nat.lt_one_iff.mp hj
  have hfirst : (stripeNodes stripeBlake3 mirroredVolume mirroredCache (1 + 2) 0)[0]?
      = some ⟨2#128⟩ := by decide
  obtain rfl : n = ⟨2#128⟩ := Option.some.inj (hn.symm.trans hfirst)
  exact Or.inl (by decide)

/-- **A committed overwrite of a stripe that a read does not see.**  Nodes 3 and 4 acknowledge their
fragments of `[1, 2]`, K + 1 of them, and the write is reported committed.  Node 2, whose write
failed, has the data fragment: every node answers, and block 0 reads as it was before. -/
theorem committed_stripe_overwrite_not_read :
    let written := ecExecute (missing ⟨2#128⟩) stripeBlake3 copyCode ((idsFrom 31).chunk 0)
      mirroredClient (fun _ _ => some [2, 1]) ⟨7#128⟩ 0 [1, 2]
    written.2.2 = .ok (.committed 1) ∧
      (handleIo (missing ⟨2#128⟩) stripeBlake3 copyCode mirroredVolume (idsFrom 41) written.1
        written.2.1 (blockRead mirroredVolume 0 1)).2.2 = .ok (some [2]) :=
  ⟨rfl, rfl⟩

/-! ## 5. Failed overwrites of stripes -/

/-- **Which failed overwrites of a stripe leave the old payload.**  The fragments of the old payload
are all in place and the overwrite is reported to have too few acknowledgements.  With every node
answering, a read of a block returns the old bytes exactly when, byte by byte, the node whose data
fragment the byte falls into did not store its new fragment, or the payloads agree. -/
theorem failed_stripe_overwrite_read_iff (blake3 : Bytes → BitVec 256) (rs : ReedSolomon)
    (cfg : VolumeConfig) (cache : MetadataCache) (k m : Nat) (hvol : EcVolume cfg cache k m)
    (hlaw : rs.Lawful k m) (hkeeps : rs.KeepsComplete k m) (b : Nat)
    (_hend : (b + 1 + cfg.extentBlocks) * cfg.blockSize < 2 ^ 64) (σ : Type)
    (plane : DataPlane σ) (acks : NodeId → Bool) (Shows : View → σ → Prop)
    (hserves : Serves plane blake3
      (volumeScope cfg cache (· = stripeId blake3 cfg (alignedStart cfg b))) acks (fun _ => true)
      Shows) (old new : Bytes) (hold : old.length = cfg.extentBlocks * cfg.blockSize)
    (hnew : new.length = cfg.extentBlocks * cfg.blockSize) (v : View) (s : σ) (hs : Shows v s)
    (hheld : StripeHeld rs k m v (stripeNodes blake3 cfg cache (k + m) (alignedStart cfg b))
      (stripeId blake3 cfg (alignedStart cfg b)) (some old))
    (c : Client) (hc : Settled cache c) (hp : c.paused = false) (env : ChunkEnv)
    (hfresh : ∀ n ∈ cache.listNodes, v.fresh n env.operationId) (c' : Client) (s' : σ)
    (acked required : Nat)
    (hfail : ecExecute plane blake3 rs env c s cfg.volumeId (alignedStart cfg b) new
      = (c', s', .ok (.insufficientAcks acked required))) (env' : IoEnv) :
    (handleIo plane blake3 rs cfg env' c' s' (blockRead cfg b 1)).2.2
        = .ok (some (BlockDevice.slice cfg.blockSize old (b % cfg.extentBlocks))) ↔
      ∀ j, b % cfg.extentBlocks * cfg.blockSize ≤ j →
        j < (b % cfg.extentBlocks + 1) * cfg.blockSize →
        ∀ n, (stripeNodes blake3 cfg cache (k + m) (alignedStart cfg b))[j / fragmentSize k new]?
            = some n → acks n = false ∨ old[j]? = new[j]? := by
  obtain ⟨row, hread, hbytes⟩ := read_overwritten_stripe hvol hlaw hkeeps hserves hold hnew hs hheld
    hc hp hfresh (by simp) hfail env'
  rw [hread, Except.ok.injEq, Option.some.injEq, slice_row_eq_iff hvol hnew hbytes]
  refine forall₅_congr fun j _ _ n _ => ?_
  cases hack : acks n <;> simp [eq_comm]

/-- Node 3, with the parity fragment, stores its fragment of `[1, 2]`, node 2 does not: the write is
reported failed and block 0 still reads as 2. -/
theorem failed_stripe_overwrite_read_iff_data_missing :
    let written := ecExecute (missing ⟨2#128⟩) stripeBlake3 copyCode ((idsFrom 31).chunk 0)
      pairedClient (fun _ _ => some [2, 1]) ⟨7#128⟩ 0 [1, 2]
    written.2.2 = .ok (.insufficientAcks 1 2) ∧
      (handleIo (missing ⟨2#128⟩) stripeBlake3 copyCode pairedVolume (idsFrom 41)
        written.1 written.2.1
        (blockRead pairedVolume 0 1)).2.2 = .ok (some [2]) := by
  refine ⟨rfl, ?_⟩
  have hheld : StripeHeld copyCode 1 1 ⟨fun _ _ => some [2, 1], fun _ _ => True⟩
      (stripeNodes stripeBlake3 pairedVolume pairedCache (1 + 1) 0)
      (stripeId stripeBlake3 pairedVolume 0) (some [2, 1]) :=
    ⟨by decide, _, encodes_old 1, by decide⟩
  refine (failed_stripe_overwrite_read_iff stripeBlake3 copyCode pairedVolume pairedCache 1 1
    ecVolume_paired (copyCode_lawful ⟨by decide, by decide⟩) copyCode_keepsComplete 0
    (by decide) _ _ _ _ ((serves_shelf _ _).cutOff _ _) [2, 1] [1, 2] rfl rfl _ _ rfl hheld
    pairedClient settled_paired rfl ((idsFrom 31).chunk 0) (fun _ _ => trivial) _ _ 1 2 rfl
    (idsFrom 41)).mpr ?_
  rintro j - hj n hn
  obtain rfl : j = 0 := Nat.lt_one_iff.mp hj
  have hfirst : (stripeNodes stripeBlake3 pairedVolume pairedCache (1 + 1) 0)[0]?
      = some ⟨2#128⟩ := by decide
  obtain rfl : n = ⟨2#128⟩ := Option.some.inj (hn.symm.trans hfirst)
  exact Or.inl (by decide)

/-- **A failed overwrite of a stripe that a read sees.**  Only node 2 stores its fragment of
`[1, 2]`, one of the two that are required, and the write is reported failed.  Node 2 has the data
fragment, the old one is gone, and block 0 reads as the payload that was never acknowledged. -/
theorem failed_stripe_overwrite_read :
    let written := ecExecute (missing ⟨3#128⟩) stripeBlake3 copyCode ((idsFrom 31).chunk 0)
      pairedClient (fun _ _ => some [2, 1]) ⟨7#128⟩ 0 [1, 2]
    written.2.2 = .ok (.insufficientAcks 1 2) ∧
      (handleIo (missing ⟨3#128⟩) stripeBlake3 copyCode pairedVolume (idsFrom 41)
        written.1 written.2.1
        (blockRead pairedVolume 0 1)).2.2 = .ok (some [1]) :=
  ⟨rfl, rfl⟩

end Blockyard.Ublk
