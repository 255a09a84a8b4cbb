/-
# Reads of several blocks

`blockyard-ublk`, `block_handler.rs` (`handle_read`): a read of one block and a read of several go
different ways through the handler, with fallbacks of their own, and an erasure-coded block asks
all nodes of its stripe at once.

When each node has ONE answer to each read (`Answers`) -- a window of a payload, or a failure, and
another one for another window of the same extent -- all of these ways compute one function of a
block: the content of its extent (`contentOf`), and the block's window in it (`windowAt`).  So a
read of several blocks is the reads of its blocks in a row (`handleRead_composes`), whatever order
the fragments come in and whatever the nodes do in between.
-/
import Blockyard.Ublk.EcTable

open Std

namespace Blockyard.Ublk

open Storage

/-! ## 1. Fixed answers -/

/-- Every read -- of a node, an extent, an offset and a length -- has one answer: the window of a
payload, or a failure. -/
def Answers {σ : Type} (plane : DataPlane σ) (reply : ReadCall → Option Bytes) : Prop :=
  ∀ s call, ReadsAs (reply call) call.windowOf (plane.readExtent s call).2

section Blocks

variable {σ : Type} {plane : DataPlane σ} {reply : ReadCall → Option Bytes}
  (blake3 : Bytes → BitVec 256) (rs : ReedSolomon) (cfg : VolumeConfig)

def replicaReply (reply : ReadCall → Option Bytes) (b : Nat) (n : NodeId) : Option Bytes :=
  reply (blockCall blake3 cfg b cfg.blockSize n)

def fragmentReply (reply : ReadCall → Option Bytes) (b : Nat) (n : NodeId) : Option Bytes :=
  reply (fragmentCall blake3 cfg b n)

/-- The fragments of the stripe of a block, each in its slot. -/
def fragmentsOf (reply : ReadCall → Option Bytes) (cache : MetadataCache) (total b : Nat) :
    List (Option Bytes) :=
  let nodes := stripeNodes blake3 cfg cache total (alignedStart cfg b)
  nodes.map (fragmentReply blake3 cfg reply b) ++ List.replicate (total - nodes.length) none

/-- **The content of the extent of a block**: the payload of the first replica that answers, or
the data shards in a row after reconstruction, or nothing when nobody answers. -/
def contentOf (reply : ReadCall → Option Bytes) (c : Client) (b : Nat) : Except Error Bytes :=
  match cfg.protection with
  | .replicated _ =>
    .ok (((replicaLocations blake3 cfg c.cache b).findSome? (replicaReply blake3 cfg reply b)).getD
      [])
  | .erasureCoded dataChunks parityChunks =>
    let fragments := fragmentsOf blake3 cfg reply c.cache (dataChunks + parityChunks) b
    if fragments.all Option.isNone then .ok []
    else match rs.new dataChunks parityChunks with
      | .error e => .error (.storage s!"Reed-Solomon init failed: {e}")
      | .ok () =>
        match rs.reconstruct dataChunks parityChunks fragments with
        | .error e => .error (.storage s!"EC reconstruction failed: {e}")
        | .ok shards => .ok ((shards.take dataChunks).map fun shard => shard.getD []).flatten

/-- The block's window in the content of its extent, followed by zeros. -/
def windowAt (b : Nat) (content : Bytes) : Bytes :=
  resize (content.drop (b % cfg.extentBlocks * cfg.blockSize)) cfg.blockSize

@[simp] theorem length_windowAt (b : Nat) (content : Bytes) :
    (windowAt cfg b content).length = cfg.blockSize := length_resize _ _

@[simp] theorem windowAt_nil (b : Nat) : windowAt cfg b [] = zeros cfg.blockSize := by
  rw [windowAt, List.drop_nil, resize_nil]

/-- What a replica returns for a block is the block's window. -/
theorem windowOf_blockCall (hbs : 0 < cfg.blockSize) (b : Nat) (n : NodeId) :
    (blockCall blake3 cfg b cfg.blockSize n).windowOf = windowAt cfg b := by
  funext payload
  simp [ReadCall.windowOf, blockCall, windowAt, PlacementEngine.blockToExtent,
    Nat.pos_iff_ne_zero.mp hbs]

/-! ## 2. One block -/

/-- The first replica that answers answers with a window of its payload. -/
theorem Answers.readFromReplicas (hans : Answers plane reply) {cache : MetadataCache}
    {call : NodeId → ReadCall} {window : Bytes → Bytes} (hcall : ∀ n, (call n).windowOf = window)
    {nodes : List NodeId} (hknown : ∀ n ∈ nodes, n ∈ cache.clusterMap)
    (lastError : Option String) (s : σ) :
    ReadsAs (nodes.findSome? fun n => reply (call n)) window
      (readFromReplicas plane cache call nodes lastError s).2 := by
  induction nodes generalizing lastError s with
  | nil => cases lastError <;> exact ⟨_, rfl⟩
  | cons n nodes ih =>
    have hreply := hans s (call n)
    rw [hcall] at hreply
    rw [Ublk.readFromReplicas, if_neg (not_not_intro (hknown n (by simp))), List.findSome?_cons]
    generalize plane.readExtent s (call n) = answer at hreply ⊢
    obtain ⟨s₁, r⟩ := answer
    cases hfirst : reply (call n) with
    | some payload =>
      rw [hfirst] at hreply
      obtain rfl : r = .ok (window payload) := hreply
      rfl
    | none =>
      rw [hfirst] at hreply
      obtain ⟨err, rfl⟩ := hreply
      exact ih (fun m hm => hknown m (by simp [hm])) (some err) s₁

/-- **A replicated block** is the window of the first payload. -/
theorem Answers.readSingleBlockData (hans : Answers plane reply) (hbs : 0 < cfg.blockSize)
    (c : Client) (s : σ) (b : Nat) :
    (readSingleBlockData plane blake3 cfg c s b).2
      = .ok (windowAt cfg b (((replicaLocations blake3 cfg c.cache b).findSome?
          (replicaReply blake3 cfg reply b)).getD [])) := by
  have hknown : ∀ n ∈ replicaLocations blake3 cfg c.cache b, n ∈ c.cache.clusterMap := fun n hn =>
    ExtTreeMap.mem_keys.mp (PlacementEngine.mem_of_mem_selectNodes hn)
  have hreads := hans.readFromReplicas (windowOf_blockCall blake3 cfg hbs b) hknown none s
  change ReadsAs ((replicaLocations blake3 cfg c.cache b).findSome?
    (replicaReply blake3 cfg reply b)) _ _ at hreads
  unfold Ublk.readSingleBlockData readReplicatedBlock
  dsimp only
  split
  · next hempty =>
    rw [List.isEmpty_iff] at hempty
    simp [hempty]
  · generalize Ublk.readFromReplicas plane c.cache (blockCall blake3 cfg b cfg.blockSize)
      (replicaLocations blake3 cfg c.cache b) none s = answer at hreads ⊢
    obtain ⟨s₁, r⟩ := answer
    cases hfirst : (replicaLocations blake3 cfg c.cache b).findSome?
        (replicaReply blake3 cfg reply b) with
    | some payload =>
      rw [hfirst] at hreads
      obtain rfl : r = .ok (windowAt cfg b payload) := hreads
      rfl
    | none =>
      rw [hfirst] at hreads
      obtain ⟨err, rfl⟩ := hreads
      simp

theorem sub_alignedStart (b : Nat) : b - alignedStart cfg b = b % cfg.extentBlocks := by
  rw [alignedStart, Nat.mul_comm, ← Nat.mod_eq_sub_mul_div]

theorem blockOfShards_eq_windowAt (dataChunks b : Nat) (shards : List (Option Bytes)) :
    blockOfShards cfg dataChunks (b - alignedStart cfg b) shards
      = windowAt cfg b ((shards.take dataChunks).map fun shard => shard.getD []).flatten := by
  have hflat : ((shards.take dataChunks).map fun shard => shard.getD []).flatten
      = ((shards.take dataChunks).map fun shard => shard.getD []).flatten
        ++ List.replicate 0 0 := (List.append_nil _).symm
  rw [blockOfShards_of_flatten cfg hflat, sub_alignedStart]
  rfl

/-- **An erasure-coded block** is the window of the data shards. -/
theorem Answers.readEcBlockData (hans : Answers plane reply) {dataChunks parityChunks : Nat}
    (hec : cfg.protection = .erasureCoded dataChunks parityChunks)
    (order : IterOrder (Nat × NodeId)) (c : Client) (s : σ) (b : Nat) :
    (readEcBlockData plane blake3 rs cfg order c s b).2
      = (contentOf blake3 rs cfg reply c b).map (windowAt cfg b) := by
  have hreplies : fragmentReplies plane blake3 cfg order c s b dataChunks parityChunks
      = fragmentsOf blake3 cfg reply c.cache (dataChunks + parityChunks) b :=
    have hfinds : ∀ n ∈ stripeNodes blake3 cfg c.cache (dataChunks + parityChunks)
        (alignedStart cfg b), Finds plane (fun _ => True) (fragmentReply blake3 cfg reply b)
          (fragmentCall blake3 cfg b) n := fun n _ s _ => ⟨_, _, rfl, trivial, hans s _⟩
    (fragmentReplies_of_finds hec hfinds rs order trivial).2
  rw [readEcBlockData_eq plane blake3 rs cfg hec, hreplies, contentOf, hec]
  dsimp only
  split
  · simp [Except.map]
  · rcases rs.new dataChunks parityChunks with e | ⟨⟩
    · rfl
    rcases rs.reconstruct dataChunks parityChunks
      (fragmentsOf blake3 cfg reply c.cache (dataChunks + parityChunks) b) with e | shards
    · rfl
    · simp only [Except.map, blockOfShards_eq_windowAt]

/-- **One block of a read**, by either way. -/
theorem Answers.readBlockData (hans : Answers plane reply) (hbs : 0 < cfg.blockSize)
    (order : IterOrder (Nat × NodeId)) (c : Client) (s : σ) (b : Nat) :
    (readBlockData plane blake3 rs cfg order c s b).2
      = (contentOf blake3 rs cfg reply c b).map (windowAt cfg b) := by
  unfold Ublk.readBlockData
  cases hpol : cfg.protection with
  | replicated replicas =>
    dsimp only
    rw [hans.readSingleBlockData blake3 cfg hbs, contentOf, hpol]
    rfl
  | erasureCoded dataChunks parityChunks =>
    exact hans.readEcBlockData blake3 rs cfg hpol order c s b

end Blocks

/-! ## 3. Several blocks -/

/-- The results of several reads in a row: the first error, or all the bytes. -/
def joinReads : List (Except Error (Option Bytes)) → Except Error (Option Bytes)
  | [] => .ok (some [])
  | .error e :: _ => .error e
  | .ok part :: rest => (joinReads rest).map fun tail => some (part.getD [] ++ tail.getD [])

section Ranges

variable {σ : Type} {plane : DataPlane σ} {reply : ReadCall → Option Bytes}
  {blake3 : Bytes → BitVec 256} {rs : ReedSolomon} {cfg : VolumeConfig} {c : Client}

/-- What a read of one block returns. -/
def blockResult (blake3 : Bytes → BitVec 256) (rs : ReedSolomon) (cfg : VolumeConfig)
    (reply : ReadCall → Option Bytes) (c : Client) (b : Nat) : Except Error (Option Bytes) :=
  (contentOf blake3 rs cfg reply c b).map fun content => some (windowAt cfg b content)

/-- **The loop over the blocks** puts their results in a row. -/
theorem Answers.readLoop (hans : Answers plane reply) (hbs : 0 < cfg.blockSize)
    (order : Nat → IterOrder (Nat × NodeId)) (blocks : List Nat) (s : σ) (buf : Bytes) :
    (readLoop plane blake3 rs cfg order c blocks s buf).2.map some
      = (joinReads (blocks.map (blockResult blake3 rs cfg reply c))).map
          fun tail => some (buf ++ tail.getD []) := by
  induction blocks generalizing s buf with
  | nil => simp [Ublk.readLoop, joinReads, Except.map]
  | cons b rest ih =>
    have hblock := hans.readBlockData blake3 rs cfg hbs (order b) c s b
    rw [Ublk.readLoop, List.map_cons, blockResult]
    generalize Ublk.readBlockData plane blake3 rs cfg (order b) c s b = answer at hblock ⊢
    obtain ⟨s₁, r⟩ := answer
    cases hcontent : contentOf blake3 rs cfg reply c b with
    | error e =>
      rw [hcontent] at hblock
      obtain rfl : r = .error e := hblock
      rfl
    | ok content =>
      rw [hcontent] at hblock
      obtain rfl : r = .ok (windowAt cfg b content) := hblock
      dsimp only
      rw [ih]
      simp only [Except.map, joinReads]
      cases joinReads (rest.map (blockResult blake3 rs cfg reply c)) <;> simp

/-- **The blocks of a row of results**: all there, each in its place. -/
theorem blocks_of_joinReads {blocks : List Nat} {r : Option Bytes}
    (h : joinReads (blocks.map (blockResult blake3 rs cfg reply c)) = .ok r) :
    ∃ bytes, r = some bytes ∧ bytes.length = blocks.length * cfg.blockSize ∧
      ∀ i b, blocks[i]? = some b → ∃ content, contentOf blake3 rs cfg reply c b = .ok content ∧
        BlockDevice.slice cfg.blockSize bytes i = windowAt cfg b content := by
  induction blocks generalizing r with
  | nil =>
    cases h
    exact ⟨[], rfl, by simp, by simp⟩
  | cons b rest ih =>
    rw [List.map_cons, blockResult] at h
    cases hcontent : contentOf blake3 rs cfg reply c b with
    | error e => simp [hcontent, Except.map, joinReads] at h
    | ok content =>
      cases hrest : joinReads (rest.map (blockResult blake3 rs cfg reply c)) with
      | error e => simp [hcontent, Except.map, joinReads, hrest] at h
      | ok tail =>
        obtain ⟨bytes, rfl, hlen, hslices⟩ := ih hrest
        simp only [hcontent, Except.map, joinReads, hrest, Except.ok.injEq,
          Option.getD_some] at h
        subst h
        refine ⟨_, rfl, by simp [hlen, Nat.add_mul, Nat.add_comm], ?_⟩
        intro i b' hb'
        cases i with
        | zero =>
          obtain rfl : b = b' := by simpa using hb'
          exact ⟨content, hcontent, by simp [BlockDevice.slice]⟩
        | succ i =>
          obtain ⟨content', hcontent', hslice⟩ := hslices i b' (by simpa using hb')
          refine ⟨content', hcontent', ?_⟩
          have hfirst : (windowAt cfg b content).drop ((i + 1) * cfg.blockSize) = [] :=
            List.drop_eq_nil_of_le (by simp [Nat.add_mul])
          rw [← hslice, BlockDevice.slice, BlockDevice.slice, List.drop_append, hfirst]
          simp [Nat.add_mul]

theorem joinReads_blockResult (b : Nat) :
    joinReads [blockResult blake3 rs cfg reply c b] = blockResult blake3 rs cfg reply c b := by
  rw [blockResult]
  cases contentOf blake3 rs cfg reply c b <;> simp [Except.map, joinReads]

/-- **A read of whole blocks**, by the client the freshness check leaves. -/
theorem Answers.handleRead (hans : Answers plane reply) (hbs : 0 < cfg.blockSize) {env : IoEnv}
    {c₀ : Client} (hfresh : freshClient env c₀ = .ok c) (s : σ) {start n : Nat} (hn : 0 < n) :
    (handleRead plane blake3 rs cfg env c₀ s (blockRead cfg start n)).2.2
      = joinReads ((List.range' start n).map (blockResult blake3 rs cfg reply c)) := by
  have hrange : (blockRead cfg start n).blockRange cfg.blockSize = (start, start + n) :=
    blockRange_aligned hbs rfl rfl
  unfold Ublk.handleRead
  rw [hfresh, hrange]
  dsimp only
  rw [Nat.add_sub_cancel_left]
  by_cases hone : n ≤ 1
  · -- one block is read by a way of its own
    obtain rfl : n = 1 := by omega
    have hblock := hans.readBlockData blake3 rs cfg hbs (env.fragmentOrder start) c s start
    have hlen : (blockRead cfg start 1).lengthBytes = cfg.blockSize := Nat.one_mul _
    rw [if_pos hone, List.range'_one, List.map_singleton, joinReads_blockResult, blockResult]
    unfold Ublk.readBlockData at hblock
    cases hpol : cfg.protection <;> rw [hpol] at hblock <;> dsimp only at hblock ⊢
    · rw [readSingleBlock, hlen]
      change (Ublk.readSingleBlockData plane blake3 cfg c s start).2.map some = _
      rw [hblock]
      cases contentOf blake3 rs cfg reply c start <;> rfl
    · rw [hblock]
      cases contentOf blake3 rs cfg reply c start <;> rfl
  · have hloop : (Ublk.readLoop plane blake3 rs cfg env.fragmentOrder c (List.range' start n) s
        []).2.map some = _ := hans.readLoop hbs env.fragmentOrder (List.range' start n) s []
    rw [if_neg hone]
    generalize Ublk.readLoop plane blake3 rs cfg env.fragmentOrder c (List.range' start n) s []
      = answer at hloop ⊢
    obtain ⟨s₁, r⟩ := answer
    cases hjoin : joinReads ((List.range' start n).map (blockResult blake3 rs cfg reply c)) with
    | error e =>
      rw [hjoin] at hloop
      cases r <;> simp_all [Except.map]
    | ok joined =>
      obtain ⟨bytes, rfl, hbytes, -⟩ := blocks_of_joinReads hjoin
      rw [hjoin] at hloop
      rw [List.length_range'] at hbytes
      have htake : bytes.take (n * cfg.blockSize) = bytes :=
        List.take_of_length_le (Nat.le_of_eq hbytes)
      cases r <;> simp_all [Except.map, blockRead]

/-- **Block reads compose**: a read of `n` blocks is the reads of its blocks in a row, each at any
time and with the fragments in any order; and when it succeeds, it has the requested length and
every block is the window of the content of its extent. -/
theorem handleRead_composes (hans : Answers plane reply) (hbs : 0 < cfg.blockSize)
    (hfresh : c.watermark ≤ c.cache.epoch) (env : IoEnv) (s : σ) (envs : Nat → IoEnv)
    (states : Nat → σ) (start n : Nat) (hn : 0 < n)
    (_hend : (start + n) * cfg.blockSize < 2 ^ 64) :
    (handleRead plane blake3 rs cfg env c s (blockRead cfg start n)).2.2
        = joinReads ((List.range' start n).map fun b =>
            (handleRead plane blake3 rs cfg (envs b) c (states b) (blockRead cfg b 1)).2.2) ∧
      ∀ r, (handleRead plane blake3 rs cfg env c s (blockRead cfg start n)).2.2 = .ok r →
        ∃ bytes, r = some bytes ∧ bytes.length = n * cfg.blockSize ∧
          ∀ i < n, ∃ content, contentOf blake3 rs cfg reply c (start + i) = .ok content ∧
            BlockDevice.slice cfg.blockSize bytes i = windowAt cfg (start + i) content := by
  have hclient : ∀ env : IoEnv, freshClient env c = .ok c := fun _ => if_pos hfresh
  have hwhole : (Ublk.handleRead plane blake3 rs cfg env c s (blockRead cfg start n)).2.2
      = joinReads ((List.range' start n).map (blockResult blake3 rs cfg reply c)) :=
    hans.handleRead hbs (hclient env) s hn
  have hone : ∀ b, (Ublk.handleRead plane blake3 rs cfg (envs b) c (states b)
      (blockRead cfg b 1)).2.2 = blockResult blake3 rs cfg reply c b := fun b =>
    (hans.handleRead hbs (hclient _) (states b) Nat.one_pos).trans (joinReads_blockResult b)
  refine ⟨by rw [hwhole, funext hone], ?_⟩
  intro r hr
  obtain ⟨bytes, rfl, hlen, hslices⟩ := blocks_of_joinReads (hwhole.symm.trans hr)
  rw [List.length_range'] at hlen
  refine ⟨bytes, rfl, hlen, fun i hi => hslices i (start + i) ?_⟩
  simp [hi]

end Ranges

def pairVolume : VolumeConfig := { smallVolume with protection := .replicated 2 }

def pairClient : Client :=
  { smallClient with
    cache := { smallCache with
      clusterMap := smallCache.clusterMap.insert ⟨3#128⟩ "10.0.0.3:7400" } }

/-- Two nodes: the one has three bytes of every extent, the other answers only the reads of the
second block of an extent. -/
def halfAnswered (call : ReadCall) : Option Bytes :=
  if call.nodeId = ⟨3#128⟩ then some [5, 6, 7]
  else if call.offset = 1 then some [8, 9] else none

def replyPlane (reply : ReadCall → Option Bytes) : DataPlane Unit where
  writeExtent := fun _ _ => ((), .error (.network "read only"))
  readExtent := fun _ call =>
    ((), match reply call with
      | some payload => .ok (call.windowOf payload)
      | none => .error "extent not found")

theorem answers_replyPlane (reply : ReadCall → Option Bytes) :
    Answers (replyPlane reply) reply := by
  intro s call
  cases hreply : reply call <;> simp [replyPlane, ReadsAs, hreply]

/-- The theorem at three blocks of two extents, some of them read past a replica that does not
answer. -/
theorem handleRead_composes_failover :
    (handleRead (replyPlane halfAnswered) volumeBlake3 noCode pairVolume (idsFrom 51) pairClient ()
        (blockRead pairVolume 0 3)).2.2
      = joinReads ((List.range' 0 3).map fun b =>
          (handleRead (replyPlane halfAnswered) volumeBlake3 noCode pairVolume (idsFrom 52)
            pairClient () (blockRead pairVolume b 1)).2.2) :=
  (handleRead_composes (answers_replyPlane halfAnswered) (by decide) (by decide) (idsFrom 51) ()
    (fun _ => idsFrom 52) (fun _ => ()) 0 3 (by decide) (by decide)).1

end Blockyard.Ublk
