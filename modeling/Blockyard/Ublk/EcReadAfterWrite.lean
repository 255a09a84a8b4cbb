/-
# Read after write on erasure-coded volumes

The same question as in `ReadAfterWrite.lean`, for erasure-coded volumes: is the volume a block
device?

Behind the data plane it is a table of stripes, keyed by the block a write started at
(`EcTable.lean`); a read looks under the first block of the extent only.  So a write that starts
inside an extent is stored where no read looks for it, and a write of some blocks of an extent
replaces the whole stripe.  Writes of whole extents (`WholeExtents`) are what the two agree on,
as they are for replicated volumes: on those the table of stripes IS the table of extents
(`byExtent_ecStoreChunks`).
-/
import Blockyard.Ublk.EcTable

open Std CrashFs

namespace Blockyard.Ublk

open Storage Machine

/-! ## 1. The table of stripes -/

variable {c : Client} {start count : Nat} {data : Bytes} {env : IoEnv} {ops : List BlockOp}

/-- What does not change during a run: the volume, a code that repairs erasures, and no two
stripes in use with the same id. -/
structure EcSetting (blake3 : Bytes → BitVec 256) (rs : ReedSolomon) (cfg : VolumeConfig)
    (cache : MetadataCache) (k m : Nat) (used : Nat → Prop) : Prop where
  volume : EcVolume cfg cache k m
  code : rs.Lawful k m
  distinct : ∀ e e', used e → used e' → stripeId blake3 cfg e = stripeId blake3 cfg e' → e = e'

/-- The calls for the stripes in use. -/
def ecScope (blake3 : Bytes → BitVec 256) (cfg : VolumeConfig) (cache : MetadataCache)
    (used : Nat → Prop) : Scope :=
  volumeScope cfg cache fun e => ∃ start, used start ∧ e = stripeId blake3 cfg start

/-- The stripes are in place, and the ids still to come are new to every node. -/
structure EcTable (blake3 : Bytes → BitVec 256) (rs : ReedSolomon) (cfg : VolumeConfig)
    (cache : MetadataCache) (k m : Nat) (used : Nat → Prop) (ids : List OperationId)
    (content : Nat → Option Bytes) (v : View) : Prop where
  stripes : ∀ start, used start → StripeHeld rs k m v
    (stripeNodes blake3 cfg cache (k + m) start) (stripeId blake3 cfg start) (content start)
  fresh : ∀ n ∈ cache.listNodes, ∀ o ∈ ids, v.fresh n o

/-- A client that holds the lease and is not paused. -/
structure Armed (c : Client) : Prop where
  lease : c.leaseState = .active
  version : ∃ version, c.leaseVersion = some version
  running : c.paused = false

theorem Armed.advance (h : Armed c) (epoch : EpochId) : Armed (c.advance epoch) :=
  ⟨h.lease, h.version, h.running⟩

theorem Settled.advance {cache : MetadataCache} (h : Settled cache c) :
    Settled cache (c.advance cache.epoch) := ⟨h.same, max_le h.watermark le_rfl⟩

section Table

variable {blake3 : Bytes → BitVec 256} {rs : ReedSolomon} {cfg : VolumeConfig}
  {cache : MetadataCache} {k m : Nat} {used : Nat → Prop} {ids : List OperationId}
  {content : Nat → Option Bytes} {v : View}

theorem EcTable.mono (h : EcTable blake3 rs cfg cache k m used ids content v)
    {ids' : List OperationId} (hsub : ∀ o ∈ ids', o ∈ ids) :
    EcTable blake3 rs cfg cache k m used ids' content v :=
  ⟨h.stripes, fun n hn o ho => h.fresh n hn o (hsub o ho)⟩

/-- **A stripe that every node acknowledges** enters the table; the other stripes stay. -/
theorem EcTable.store (hset : EcSetting blake3 rs cfg cache k m used) {env : ChunkEnv}
    (h : EcTable blake3 rs cfg cache k m used (env.operationId :: ids) content v)
    (hnew : env.operationId ∉ ids) (hu : used start) (hdata : data ≠ []) {word : List Bytes}
    (hword : Encodes rs k m data word) {v' : View}
    (hsent : Sent v v' (fun _ => true) (stripeId blake3 cfg start) env.operationId
      (fragmentCalls blake3 cfg c env start (stripeNodes blake3 cfg cache (k + m) start) word)) :
    EcTable blake3 rs cfg cache k m used ids (Function.update content start (some data)) v' where
  stripes := by
    intro start' hu'
    by_cases hsame : start' = start
    · subst hsame
      rw [Function.update_self]
      exact hsent.stripeHeld hset.volume hdata hword
    · rw [Function.update_of_ne hsame]
      have hid : stripeId blake3 cfg start' ≠ stripeId blake3 cfg start :=
        fun heq => hsame (hset.distinct _ _ hu' hu heq)
      have hheld : ∀ n, v'.held n (stripeId blake3 cfg start')
          = v.held n (stripeId blake3 cfg start') :=
        fun n => hsent.elsewhere n _ hid
      have hold := h.stripes start' hu'
      cases hcont : content start' with
      | none =>
        rw [hcont] at hold
        exact fun n hn => (hheld n).trans (hold n hn)
      | some data' =>
        rw [hcont] at hold
        obtain ⟨hdata', word', hword', hplaces⟩ := hold
        exact ⟨hdata', word', hword', by rw [← hplaces]; simp only [hheld]⟩
  fresh := by
    intro n hn o ho
    refine hsent.fresh n o (h.fresh n hn o (by simp [ho])) ?_
    rintro rfl
    exact hnew ho

/-! ## 2. Writes -/

variable {σ : Type} {plane : DataPlane σ} {up : NodeId → Bool} {Shows : View → σ → Prop}

theorem writeChunk_paused (hvol : EcVolume cfg cache k m) (hp : c.paused = true)
    (plane : DataPlane σ) (env : ChunkEnv) (s : σ) (start : Nat) (chunk : Bytes) :
    ∃ e, writeChunk plane blake3 rs cfg env c s start chunk = (c, s, .error e) := by
  have hpaused : ∃ e, ecExecute plane blake3 rs env c s cfg.volumeId start chunk
      = (c, s, .error e) :=
    ecExecute_paused hp plane rs env s cfg.volumeId start chunk
  obtain ⟨e, he⟩ := hpaused
  refine ⟨e, ?_⟩
  rw [writeChunk, hvol.policy]
  dsimp only
  rw [he]

/-- What a write makes of the table: each chunk becomes the stripe of the block it starts at. -/
def ecStoreChunks (cfg : VolumeConfig) (data : Bytes) (endBlock : Nat) :
    (fuel offset currentBlock : Nat) → (Nat → Option Bytes) → Nat → Option Bytes
  | 0, _, _, content => content
  | fuel + 1, offset, currentBlock, content =>
    if currentBlock < endBlock then
      let chunkEnd := chunkEnd cfg.extentBlocks currentBlock endBlock
      let byteLen := min ((chunkEnd - currentBlock) * cfg.blockSize) (data.length - offset)
      let chunk := (data.drop offset).take byteLen
      ecStoreChunks cfg data endBlock fuel (offset + byteLen) chunkEnd
        (Function.update content currentBlock (some chunk))
    else content

/-- Chunks but the first start at a boundary. -/
theorem chunkEnd_mod {extentBlocks currentBlock endBlock : Nat}
    (h : chunkEnd extentBlocks currentBlock endBlock < endBlock) :
    chunkEnd extentBlocks currentBlock endBlock % extentBlocks = 0 := by
  have hend : chunkEnd extentBlocks currentBlock endBlock
      = (currentBlock / extentBlocks + 1) * extentBlocks := by
    unfold chunkEnd at h ⊢
    omega
  rw [hend, Nat.mul_mod_left]

section Armed

variable (h : Serves plane blake3 (ecScope blake3 cfg cache used) (fun _ => true) up Shows)
  (hset : EcSetting blake3 rs cfg cache k m used)

include h hset

/-- **A chunk of an armed client** is stored as a stripe under its first block. -/
theorem writeChunk_armed (hc : Settled cache c) (ha : Armed c) {env : ChunkEnv}
    (hnew : env.operationId ∉ ids)
    (htable : EcTable blake3 rs cfg cache k m used (env.operationId :: ids) content v)
    (hu : used start) {chunk : Bytes} (hchunk : chunk ≠ []) {s : σ} (hs : Shows v s) :
    ∃ s' v', writeChunk plane blake3 rs cfg env c s start chunk
        = (c.advance cache.epoch, s', .ok ()) ∧ Shows v' s' ∧
      EcTable blake3 rs cfg cache k m used ids (Function.update content start (some chunk)) v' := by
  obtain ⟨word, hword⟩ := hset.code.exists_encodes hset.volume.dataChunks_pos hchunk
  obtain ⟨s', v', heq, hs', hsent⟩ := writeChunk_stored hset.volume hc.same ha.running
    hset.code.new hchunk hword ⟨start, hu, rfl⟩
    (fun n hn => htable.fresh n hn env.operationId (by simp)) hs h
  exact ⟨s', v', heq, hs', htable.store hset hnew hu hchunk hword hsent⟩

/-- **The loop of an armed client's write** stores its chunks. -/
theorem writeLoop_armed {env : Nat → ChunkEnv} {endBlock : Nat} (fuel : Nat) :
    ∀ (i offset current : Nat) (content : Nat → Option Bytes) (v : View) (c : Client) (s : σ),
      Settled cache c → Armed c → (chunkIds env i fuel ++ ids).Nodup →
      EcTable blake3 rs cfg cache k m used (chunkIds env i fuel ++ ids) content v → Shows v s →
      data.length - offset = (endBlock - current) * cfg.blockSize →
      (∀ b, current ≤ b → b < endBlock → b = current ∨ b % cfg.extentBlocks = 0 → used b) →
      ∃ c' s' v', writeLoop plane blake3 rs cfg env data endBlock fuel i offset current c s
          = (c', s', .ok ()) ∧ Settled cache c' ∧ Armed c' ∧ Shows v' s' ∧
        EcTable blake3 rs cfg cache k m used ids
          (ecStoreChunks cfg data endBlock fuel offset current content) v' := by
  induction fuel with
  | zero =>
    intro i offset current content v c s hc ha _ htable hs _ _
    exact ⟨c, s, v, rfl, hc, ha, hs, htable⟩
  | succ fuel ih =>
    intro i offset current content v c s hc ha hnodup htable hs hlen hu
    have hids : chunkIds env i (fuel + 1) ++ ids
        = (env i).operationId :: (chunkIds env (i + 1) fuel ++ ids) := rfl
    rw [hids] at hnodup htable
    rw [List.nodup_cons] at hnodup
    rw [writeLoop, ecStoreChunks]
    by_cases hlt : current < endBlock
    · rw [if_pos hlt, if_pos hlt]
      dsimp only
      have hstop := lt_chunkEnd (extentBlocks_pos cfg) hlt
      have hle : chunkEnd cfg.extentBlocks current endBlock ≤ endBlock := Nat.min_le_right _ _
      have hmod := @chunkEnd_mod cfg.extentBlocks current endBlock
      generalize chunkEnd cfg.extentBlocks current endBlock = stop at *
      -- the chunk is as long as its blocks
      have hbytes := chunk_add_rest (by omega : current ≤ stop) (by omega : stop ≤ endBlock) hlen
      have hpos : 0 < (stop - current) * cfg.blockSize :=
        Nat.mul_pos (by omega) hset.volume.blockSize_pos
      rw [Nat.min_eq_left (by omega : (stop - current) * cfg.blockSize ≤ data.length - offset)]
      have hchunk : (data.drop offset).take ((stop - current) * cfg.blockSize) ≠ [] := by
        rw [← List.length_pos_iff_ne_nil, List.length_take, List.length_drop]
        omega
      obtain ⟨s₁, v₁, heq, hs₁, htable₁⟩ := writeChunk_armed h hset hc ha hnodup.1 htable
        (hu current le_rfl hlt (Or.inl rfl)) hchunk hs
      rw [heq]
      refine ih (i + 1) _ stop _ v₁ _ s₁ hc.advance (ha.advance _) hnodup.2 htable₁
        hs₁ (by omega) ?_
      intro b hb hb' hcase
      refine hu b (by omega) hb' (Or.inr ?_)
      rcases hcase with rfl | hcase
      · exact hmod hb'
      · exact hcase
    · rw [if_neg hlt, if_neg hlt]
      refine ⟨c, s, v, rfl, hc, ha, hs, htable.mono fun o ho => ?_⟩
      simp [ho]

/-- **A write of whole blocks by an armed client** is answered Ok and stores its chunks. -/
theorem handleWrite_armed (hc : Settled cache c) (ha : Armed c)
    (hdata : data.length = count * cfg.blockSize)
    (hu : ∀ b, start ≤ b → b < start + count → b = start ∨ b % cfg.extentBlocks = 0 → used b)
    (hnodup : (chunkIds env.chunk 0 count ++ ids).Nodup)
    (htable : EcTable blake3 rs cfg cache k m used (chunkIds env.chunk 0 count ++ ids) content v)
    {s : σ} (hs : Shows v s) :
    ∃ c' s' v', handleWrite plane blake3 rs cfg env c s (blockWrite cfg start data)
        = (c', s', .ok none) ∧ Settled cache c' ∧ Armed c' ∧ Shows v' s' ∧
      EcTable blake3 rs cfg cache k m used ids
        (ecStoreChunks cfg data (start + count) count 0 start content) v' := by
  have hlen : data.length - 0 = (start + count - start) * cfg.blockSize := by
    rw [Nat.add_sub_cancel_left, Nat.sub_zero, hdata]
  obtain ⟨c', s', v', hloop, hrest⟩ := writeLoop_armed h hset count 0 0 start content v c s hc ha
    hnodup htable hs hlen hu
  have hwrite := handleWrite_of_loop rs hset.volume.blockSize_pos ha.lease ha.version hdata hloop
  exact ⟨c', s', v', hwrite, hrest⟩

end Armed

/-- A client whose write of at least one block is answered Ok is armed. -/
theorem armed_of_handleWrite (hvol : EcVolume cfg cache k m) {c' : Client}
    (hdata : data.length = count * cfg.blockSize) (hcount : 0 < count) {s s' : σ}
    {result : Option Bytes}
    (hok : handleWrite plane blake3 rs cfg env c s (blockWrite cfg start data)
      = (c', s', .ok result)) : Armed c := by
  have hrange : (blockWrite cfg start data).blockRange cfg.blockSize = (start, start + count) :=
    blockRange_aligned hvol.blockSize_pos rfl hdata
  unfold handleWrite at hok
  rw [hrange] at hok
  by_cases hlease : c.leaseState = .active
  · rw [if_neg (not_not_intro hlease)] at hok
    cases hversion : c.leaseVersion with
    | none =>
      simp only [Client.checkWriteAllowed, hlease, hversion] at hok
      cases hok
    | some version =>
      refine ⟨hlease, ⟨version, hversion⟩, Bool.eq_false_iff.mpr fun hp => ?_⟩
      simp only [Client.checkWriteAllowed, hlease, hversion, blockWrite,
        Nat.add_sub_cancel_left] at hok
      obtain ⟨rounds, rfl⟩ : ∃ rounds, count = rounds + 1 := ⟨count - 1, by omega⟩
      rw [writeLoop, if_pos (by omega)] at hok
      dsimp only at hok
      obtain ⟨e, he⟩ : ∃ e, writeChunk plane blake3 rs cfg (env.chunk 0) c s start _
          = (c, s, .error e) :=
        writeChunk_paused hvol hp plane (env.chunk 0) s start _
      rw [he] at hok
      cases hok
  · rw [if_pos hlease] at hok
    cases hok

/-! ## 3. Reads -/

/-- The stripes a read looks for, by extent number. -/
def byExtent (cfg : VolumeConfig) (content : Nat → Option Bytes) (extentNum : Nat) : Option Bytes :=
  content (extentNum * cfg.extentBlocks)

/-- What can be read through the nodes that answer: of every stripe at most M do not. -/
def Reachable (blake3 : Bytes → BitVec 256) (cfg : VolumeConfig) (cache : MetadataCache) (k m : Nat)
    (used : Nat → Prop) (up : NodeId → Bool) : Prop :=
  ∀ start, used start → (stripeNodes blake3 cfg cache (k + m) start).countP (fun n => !up n) ≤ m

variable {acks : NodeId → Bool}

/-- **A block reads as its window** in the stripe under the first block of its extent. -/
theorem readEcBlockData_table
    (h : Serves plane blake3 (ecScope blake3 cfg cache used) acks up Shows)
    (hset : EcSetting blake3 rs cfg cache k m used) (hc : c.cache = cache)
    (htable : EcTable blake3 rs cfg cache k m used ids content v) {b : Nat}
    (hu : used (alignedStart cfg b)) (hup : Reachable blake3 cfg cache k m used up)
    (order : IterOrder (Nat × NodeId)) {s : σ} (hs : Shows v s) :
    ∃ s', readEcBlockData plane blake3 rs cfg order c s b
        = (s', .ok (blockWindow cfg (byExtent cfg content) b)) ∧ Shows v s' := by
  have hoffset : b - alignedStart cfg b = b % cfg.extentBlocks := by
    have hdiv := Nat.div_add_mod b cfg.extentBlocks
    rw [Nat.mul_comm] at hdiv
    unfold alignedStart
    omega
  obtain ⟨s', heq, hs'⟩ := readEcBlockData_held h hset.volume hset.code hc (fun _ hn => hn)
    (htable.stripes _ hu) ⟨_, hu, rfl⟩ (hup _ hu) order hs
  rw [hoffset] at heq
  exact ⟨s', heq, hs'⟩

/-- **A read of whole blocks** returns their windows. -/
theorem handleRead_table (h : Serves plane blake3 (ecScope blake3 cfg cache used) acks up Shows)
    (hset : EcSetting blake3 rs cfg cache k m used) (hc : Settled cache c)
    (htable : EcTable blake3 rs cfg cache k m used ids content v)
    (hup : Reachable blake3 cfg cache k m used up) (hcount : 0 < count)
    (hu : ∀ b, start ≤ b → b < start + count → used (alignedStart cfg b)) (env : IoEnv) {s : σ}
    (hs : Shows v s) :
    ∃ s', handleRead plane blake3 rs cfg env c s (blockRead cfg start count)
        = (c, s', .ok (some (BlockDevice.read (blockWindow cfg (byExtent cfg content)) start
            count))) ∧ Shows v s' := by
  refine handleRead_of_blocks hset.volume.blockSize_pos hc hcount (fun _ => length_resize _ _) ?_ hs
  intro b hb hb' s hs
  rw [readBlockData, hset.volume.policy]
  exact readEcBlockData_table h hset hc.same htable (hu b hb hb') hup _ hs

end Table

/-! ## 4. Writes of whole extents -/

/-- A stripe under the first block of an extent is a payload of the extent. -/
theorem byExtent_update (cfg : VolumeConfig) (content : Nat → Option Bytes) {current : Nat}
    (h : current % cfg.extentBlocks = 0) (payload : Option Bytes) :
    byExtent cfg (Function.update content current payload)
      = Function.update (byExtent cfg content) (current / cfg.extentBlocks) payload := by
  have hcur : current / cfg.extentBlocks * cfg.extentBlocks = current := Nat.div_mul_cancel
    (Nat.dvd_of_mod_eq_zero h)
  funext e
  unfold byExtent
  by_cases he : e = current / cfg.extentBlocks
  · rw [he, hcur, Function.update_self, Function.update_self]
  · rw [Function.update_of_ne he, Function.update_of_ne]
    intro heq
    exact he (by rw [← heq, Nat.mul_div_cancel _ (extentBlocks_pos cfg)])

/-- **Chunks that start their extents** make of the stripes what they make of the extents. -/
theorem byExtent_ecStoreChunks (cfg : VolumeConfig) (data : Bytes) (endBlock fuel : Nat) :
    ∀ (offset current : Nat) (content : Nat → Option Bytes),
      (current < endBlock → current % cfg.extentBlocks = 0) →
      byExtent cfg (ecStoreChunks cfg data endBlock fuel offset current content)
        = storeChunks cfg data endBlock fuel offset current (byExtent cfg content) := by
  induction fuel with
  | zero => exact fun _ _ _ _ => rfl
  | succ fuel ih =>
    intro offset current content halign
    rw [ecStoreChunks, storeChunks]
    by_cases hlt : current < endBlock
    · rw [if_pos hlt, if_pos hlt]
      dsimp only
      rw [ih _ _ _ chunkEnd_mod, byExtent_update cfg content (halign hlt)]
    · rw [if_neg hlt, if_neg hlt]

/-- What the requests make of the table of stripes. -/
def ecTableStep (cfg : VolumeConfig) (content : Nat → Option Bytes) : BlockOp → Nat → Option Bytes
  | .write _ start data => ecStoreChunks cfg data (start + data.length / cfg.blockSize)
      (data.length / cfg.blockSize) 0 start content
  | .read _ _ _ => content

/-- The table after a sequence of requests; it starts empty. -/
def ecTable (cfg : VolumeConfig) (ops : List BlockOp) : Nat → Option Bytes :=
  ops.foldl (ecTableStep cfg) fun _ => none

/-- **Requests of whole extents** make of the stripes what they make of the extents. -/
theorem byExtent_ecTable {cfg : VolumeConfig}
    (hwhole : ∀ pre op post, ops = pre ++ op :: post → WholeExtents cfg pre op) :
    byExtent cfg (ecTable cfg ops) = table cfg ops := by
  induction ops using List.reverseRecOn with
  | nil => rfl
  | append_singleton ops op ih =>
    have hpre : byExtent cfg (ecTable cfg ops) = table cfg ops := by
      refine ih fun pre op' post heq => hwhole pre op' (post ++ [op]) ?_
      rw [heq, List.append_assoc]
      rfl
    have hw : WholeExtents cfg ops op := hwhole ops op [] rfl
    rw [ecTable, table, List.foldl_append, List.foldl_append]
    cases op with
    | read env start count => exact hpre
    | write env start data =>
      exact (byExtent_ecStoreChunks cfg data _ _ 0 start _ fun _ => hw.1).trans
        (congrArg (storeChunks cfg data _ _ 0 start) hpre)

/-! ## 5. Runs through the handler -/

/-- The stripes a request may touch are among those in use: those its chunks start, and those
under the first blocks of the extents it reads.  The request ends, with one more extent behind
it, below `2^64` bytes. -/
structure BlockOp.EcWithin (cfg : VolumeConfig) (used : Nat → Prop) (op : BlockOp) : Prop where
  stripes : ∀ b, op.start ≤ b → b < op.start + op.count cfg →
    match op with
    | .write _ start _ => b = start ∨ b % cfg.extentBlocks = 0 → used b
    | .read _ _ _ => used (alignedStart cfg b)
  bounded : (op.start + op.count cfg + cfg.extentBlocks) * cfg.blockSize < 2 ^ 64

/-- The client's cache is the cluster's, and behind the data plane there is the table. -/
structure EcGood (x : Externals) (rs : ReedSolomon) (cfg : VolumeConfig) (cache : MetadataCache)
    (k m : Nat) (used : Nat → Prop) (ids : List OperationId) (content : Nat → Option Bytes)
    (st : Client × Cluster) : Prop where
  settled : Settled cache st.1
  table : ∃ v, ClusterShows x (ecScope x.blake3 cfg cache used) v st.2 ∧
    EcTable x.blake3 rs cfg cache k m used ids content v

section Runs

variable {x : Externals} {ovf : Overflow} {world : Nat → Tick} {rs : ReedSolomon}
  {cfg : VolumeConfig} {cache : MetadataCache} {k m : Nat} {used : Nat → Prop}
  {ids : List OperationId} {content : Nat → Option Bytes} {st : Client × Cluster}

theorem reachable_all : Reachable x.blake3 cfg cache k m used fun _ => true := by
  intro start _
  simp

variable (hquiet : ∀ i, Quiet (world i)) (hset : EcSetting x.blake3 rs cfg cache k m used)

include hquiet hset

/-- **A read** leaves the table, and returns its windows. -/
theorem blockStep_ec_read (hop : (BlockOp.read env start count).WholeBlocks cfg)
    (hu : (BlockOp.read env start count).EcWithin cfg used)
    (h : EcGood x rs cfg cache k m used ids content st) :
    ∃ st', blockStep x ovf world rs cfg st (.read env start count)
        = (st', .ok (some (BlockDevice.read (blockWindow cfg (byExtent cfg content)) start
            count))) ∧
      EcGood x rs cfg cache k m used ids content st' ∧ st'.1 = st.1 := by
  obtain ⟨v, hshows, htable⟩ := h.table
  obtain ⟨cl', heq, hshows'⟩ := handleRead_table (serves_tcpPlane hquiet ovf) hset h.settled htable
    reachable_all hop hu.stripes env hshows
  have hstep : blockStep x ovf world rs cfg st (.read env start count) = _ :=
    blockStep_of_handleIo heq
  exact ⟨_, hstep, ⟨h.settled, v, hshows', htable⟩, rfl⟩

/-- **A request moves the table** when it is answered Ok, and those of an armed client are. -/
theorem blockStep_ec {op : BlockOp} (hop : op.WholeBlocks cfg) (hu : op.EcWithin cfg used)
    (hnodup : (op.ids cfg ++ ids).Nodup)
    (h : EcGood x rs cfg cache k m used (op.ids cfg ++ ids) content st)
    (hok : Answered x ovf world rs cfg st op ∨ Armed st.1) :
    Answered x ovf world rs cfg st op ∧
      EcGood x rs cfg cache k m used ids (ecTableStep cfg content op)
        (blockStep x ovf world rs cfg st op).1 ∧
      (Armed st.1 → Armed (blockStep x ovf world rs cfg st op).1.1) := by
  cases op with
  | write env start data =>
    have ha : Armed st.1 := by
      rcases hok with ⟨v, hv⟩ | ha
      · have hwrite : handleWrite (tcpPlane x ovf world) x.blake3 rs cfg env st.1 st.2
            (blockWrite cfg start data) = (_, _, .ok v) := Prod.ext rfl (Prod.ext rfl hv)
        exact armed_of_handleWrite hset.volume hop.2 hop.1 hwrite
      · exact ha
    obtain ⟨v, hshows, htable⟩ := h.table
    obtain ⟨c', cl', v', heq, hc', ha', hshows', htable'⟩ := handleWrite_armed
      (serves_tcpPlane hquiet ovf) hset h.settled ha hop.2 hu.stripes hnodup htable hshows
    have hstep : blockStep x ovf world rs cfg st (.write env start data) = _ :=
      blockStep_of_handleIo heq
    rw [Answered, hstep]
    exact ⟨⟨none, rfl⟩, ⟨hc', v', hshows', htable'⟩, fun _ => ha'⟩
  | read env start count =>
    obtain ⟨st', heq, hgood, hsame⟩ := blockStep_ec_read hquiet hset hop hu h
    rw [heq]
    exact ⟨trivial, hgood, fun ha => hsame ▸ ha⟩

variable (hops : ∀ op ∈ ops, op.WholeBlocks cfg ∧ op.EcWithin cfg used)
  (hids : (opIds cfg ops).Nodup)

include hops hids

/-- **Runs whose writes are answered Ok**, or that an armed client starts, are runs of the table,
and all their writes are answered Ok. -/
theorem ec_run (h : EcGood x rs cfg cache k m used (opIds cfg ops) content st)
    (hans : Along (blockStep x ovf world rs cfg) (Answered x ovf world rs cfg) st ops ∨
      Armed st.1) :
    Along (blockStep x ovf world rs cfg) (Answered x ovf world rs cfg) st ops ∧
      EcGood x rs cfg cache k m used [] (ops.foldl (ecTableStep cfg) content)
        (runState (blockStep x ovf world rs cfg) st ops) := by
  induction ops generalizing st content with
  | nil => exact ⟨trivial, h⟩
  | cons op ops ih =>
    obtain ⟨hop, hu⟩ := hops op (by simp)
    have hcons : opIds cfg (op :: ops) = op.ids cfg ++ opIds cfg ops := List.flatMap_cons
    rw [hcons] at hids h
    obtain ⟨hthis, hgood, harmed⟩ := blockStep_ec hquiet hset hop hu hids h (hans.imp_left And.left)
    obtain ⟨hrest, hend⟩ := ih (fun op' hop' => hops op' (by simp [hop'])) hids.of_append_right
      hgood (hans.imp And.right harmed)
    exact ⟨⟨hthis, hrest⟩, hend⟩

/-- What a read returns after a run: the windows of its blocks in the table of stripes. -/
theorem ec_read_of_run
    (h : EcGood x rs cfg cache k m used (opIds cfg ops) (fun _ => none) st)
    (hans : Along (blockStep x ovf world rs cfg) (Answered x ovf world rs cfg) st ops)
    (hread : (BlockOp.read env start count).WholeBlocks cfg)
    (hused : (BlockOp.read env start count).EcWithin cfg used) :
    (blockStep x ovf world rs cfg (runState (blockStep x ovf world rs cfg) st ops)
        (.read env start count)).2
      = .ok (some (BlockDevice.read (blockWindow cfg (byExtent cfg (ecTable cfg ops))) start
          count)) := by
  obtain ⟨-, hgood⟩ := ec_run hquiet hset hops hids h (.inl hans)
  obtain ⟨st', heq, -, -⟩ : ∃ st', blockStep x ovf world rs cfg _ (.read env start count)
    = (st', _) ∧ _ ∧ _ := blockStep_ec_read hquiet hset hread hused hgood
  rw [heq]
  rfl

end Runs

/-! ## 6. Two nodes, one data and one parity fragment -/

/-- BLAKE3 on the inputs of the runs below, the extents 0 and 1 of volume 7 among them. -/
def stripeBlake3 (input : Bytes) : BitVec 256 :=
  if input = PlacementEngine.extentDomain ++ (⟨7#128⟩ : VolumeId).asBytes ++ leBytes 8 1 then
    0x24dfaebc86334751b7b1a240ecf41c80b4707788393d586adae38656dd61eb97#256
  else volumeBlake3 input

/-- The Reed-Solomon code with one data shard: every parity shard is a copy of it. -/
def copyCode : ReedSolomon where
  new := fun k m => if k = 1 ∧ 1 ≤ m ∧ m ≤ 255 then .ok () else .error "not this code"
  encode := fun _ m shards => .ok (List.replicate (1 + m) (shards.headD []))
  reconstruct := fun _ _ slots =>
    match slots.filterMap id with
    | [] => .error "TooFewShardsPresent"
    | shard :: _ => .ok (slots.map fun slot => some (slot.getD shard))

/-- While a shard is left, the missing ones are made from the first that is. -/
theorem copyCode_reconstruct {slots : List (Option Bytes)} (k m : Nat)
    (h : slots.countP Option.isNone < slots.length) :
    ∃ first, (slots.filterMap id).head? = some first ∧ some first ∈ slots ∧
      copyCode.reconstruct k m slots = .ok ((slots.map fun slot => slot.getD first).map some) := by
  cases hleft : slots.filterMap id with
  | nil =>
    have hall : slots.countP Option.isNone = slots.length := by
      rw [List.countP_eq_length]
      intro slot hslot
      simpa using List.filterMap_eq_nil_iff.mp hleft slot hslot
    omega
  | cons first rest =>
    have hfirst : first ∈ slots.filterMap id := by
      rw [hleft]
      exact List.mem_cons_self
    refine ⟨first, rfl, by simpa using hfirst, ?_⟩
    simp only [copyCode, hleft, List.map_map, Function.comp_def]

theorem copyCode_lawful {m : Nat} (hm : 1 ≤ m ∧ m ≤ 255) : copyCode.Lawful 1 m where
  new := if_pos ⟨rfl, hm⟩
  encode := by
    intro size shards _ hshards
    have hlen := hshards.length
    cases shards with
    | nil => simp at hlen; omega
    | cons shard shards =>
      refine ⟨_, rfl, ⟨by simp, ?_⟩, ?_⟩
      · intro copy hcopy
        rw [List.eq_of_mem_replicate hcopy]
        exact hshards.size shard (by simp)
      · simp [Nat.add_comm 1 m, List.replicate_succ]
  reconstruct := by
    intro size shards word slots _ _ hword hrem hholes
    obtain rfl : List.replicate (1 + m) (shards.headD []) = word := Except.ok.inj hword
    generalize shards.headD [] = shard at hrem ⊢
    have hlen : slots.length = 1 + m := by rw [← hrem.length_eq, List.length_replicate]
    have hslots : ∀ slot ∈ slots, slot = none ∨ slot = some shard := by
      intro slot hslot
      obtain ⟨i, hi, rfl⟩ := List.getElem_of_mem hslot
      have hget := List.forall₂_iff_get.mp hrem |>.2 i (by simpa [hlen] using hi) hi
      simpa using hget
    -- one copy at least is left, and it is the shard
    have hholes' : slots.countP Option.isNone < slots.length := by omega
    obtain ⟨first, -, hmem, hrec⟩ := copyCode_reconstruct 1 m hholes'
    obtain rfl : first = shard := by simpa using hslots _ hmem
    have hfill : (slots.map fun slot => slot.getD first) = List.replicate (1 + m) first := by
      rw [List.eq_replicate_iff]
      refine ⟨by simp [hlen], fun copy hcopy => ?_⟩
      obtain ⟨slot, hslot, rfl⟩ := List.mem_map.mp hcopy
      rcases hslots slot hslot with rfl | rfl <;> rfl
    rw [hrec, hfill]

def pairedVolume : VolumeConfig := { smallVolume with protection := .erasureCoded 1 1 }

def pairedCache : MetadataCache where
  epoch := 1
  clusterMap := ((∅ : BTreeMap NodeId String).insert ⟨2#128⟩ "10.0.0.2:7400").insert ⟨3#128⟩
    "10.0.0.3:7400"
  volumes := (∅ : BTreeMap VolumeId CachedVolumeInfo).insert ⟨7#128⟩ ⟨.erasureCoded 1 1⟩

def pairedClient : Client := { smallClient with cache := pairedCache }

def pairedCluster : Cluster :=
  ⟨((∅ : HashMap NodeId DataNodeService).insert ⟨2#128⟩ sampleNode).insert ⟨3#128⟩ sampleNode, 0⟩

theorem listNodes_paired : pairedCache.listNodes = [⟨2#128⟩, ⟨3#128⟩] := by decide

theorem ecVolume_paired : EcVolume pairedVolume pairedCache 1 1 where
  policy := rfl
  known := ExtTreeMap.getElem?_insert_self
  dataChunks_pos := le_rfl
  parityChunks_pos := le_rfl
  total_le := by decide
  nodes_le := by rw [listNodes_paired]; exact le_rfl
  blockSize_pos := by decide

theorem ecSetting_paired :
    EcSetting stripeBlake3 copyCode pairedVolume pairedCache 1 1 (· < 2) where
  volume := ecVolume_paired
  code := copyCode_lawful ⟨le_rfl, by decide⟩
  distinct := by
    have hne : stripeId stripeBlake3 pairedVolume 0 ≠ stripeId stripeBlake3 pairedVolume 1 := by
      decide
    intro e e' he he' heq
    interval_cases e <;> interval_cases e'
    · rfl
    · exact absurd heq hne
    · exact absurd heq.symm hne
    · rfl

theorem clusterShows_paired (extents : ExtentId → Prop) :
    ClusterShows (jsonExternals stripeBlake3) (volumeScope pairedVolume pairedCache extents)
      ⟨fun _ _ => none, fun _ _ => True⟩ pairedCluster := by
  intro n hn
  have hshows : NodeShows (jsonExternals stripeBlake3)
      (volumeScope pairedVolume pairedCache extents)
      ⟨fun _ _ => none, fun _ _ => True⟩ n sampleNode :=
    ⟨healthy_sampleNode, fun _ _ => ExtTreeMap.getElem?_empty, fun _ _ => ExtTreeMap.getElem?_empty⟩
  refine ⟨sampleNode, ?_, hshows⟩
  rw [volumeScope, listNodes_paired] at hn
  rcases List.mem_pair.mp hn with rfl | rfl
  · rw [pairedCluster, getElem?_insert_of_ne _ (by decide)]
    exact ExtTreeMap.getElem?_insert_self
  · exact ExtTreeMap.getElem?_insert_self

theorem armed_paired : Armed pairedClient := ⟨rfl, ⟨1, rfl⟩, rfl⟩

theorem settled_paired : Settled pairedCache pairedClient := ⟨rfl, Nat.zero_le _⟩

theorem ecGood_paired (ids : List OperationId) :
    EcGood (jsonExternals stripeBlake3) copyCode pairedVolume pairedCache 1 1 (· < 2) ids
      (fun _ => none) (pairedClient, pairedCluster) where
  settled := settled_paired
  table := ⟨_, clusterShows_paired _, fun _ _ _ _ => rfl, fun _ _ _ _ => trivial⟩

noncomputable abbrev pairedStep :
    Client × Cluster → BlockOp → (Client × Cluster) × Except Error (Option Bytes) :=
  blockStep (jsonExternals stripeBlake3) .checked (fun _ => calmTick) copyCode pairedVolume

abbrev PairedAnswered : Client × Cluster → BlockOp → Prop :=
  Answered (jsonExternals stripeBlake3) .checked (fun _ => calmTick) copyCode pairedVolume

theorem quiet_calmTick : Quiet calmTick := ⟨rfl, fun _ => rfl, fun _ => rfl, rfl⟩

theorem ecWithin_paired {op : BlockOp} (h : op.start + op.count pairedVolume ≤ 2) :
    op.EcWithin pairedVolume (· < 2) := by
  have htwo : pairedVolume.extentBlocks = 2 := by decide
  have hone : pairedVolume.blockSize = 1 := rfl
  refine ⟨fun b _ hb => ?_, by rw [htwo, hone]; omega⟩
  cases op with
  | write env start data => exact fun _ => by omega
  | read env start count =>
    have hle : alignedStart pairedVolume b ≤ b := Nat.div_mul_le_self _ _
    show alignedStart pairedVolume b < 2
    omega

def inside : List BlockOp := [.write (idsFrom 31) 0 [1, 2], .write (idsFrom 41) 1 [1]]

theorem inside_ok :
    ∀ op ∈ inside, op.WholeBlocks pairedVolume ∧ op.EcWithin pairedVolume (· < 2) := by
  intro op hop
  rcases List.mem_pair.mp hop with rfl | rfl
  · exact ⟨⟨by decide, by decide⟩, ecWithin_paired (by decide)⟩
  · exact ⟨⟨by decide, by decide⟩, ecWithin_paired (by decide)⟩

theorem growing_paired :
    ∀ op ∈ growing, op.WholeBlocks pairedVolume ∧ op.EcWithin pairedVolume (· < 2) := by
  intro op hop
  rcases List.mem_pair.mp hop with rfl | rfl
  · exact ⟨⟨by decide, by decide⟩, ecWithin_paired (by decide)⟩
  · exact ⟨⟨by decide, by decide⟩, ecWithin_paired (by decide)⟩

/-! ## 7. Read after write -/

/-- **Read after write on an erasure-coded volume.**  On a healthy cluster, after any run of reads
and writes of whole blocks in which every write is answered Ok and is made of whole extents, a
read of whole blocks returns for each block the bytes of the last write that covered it, and
zeros for a block no write covered. -/
theorem ec_read_after_write (x : Externals) (ovf : Overflow) (world : Nat → Tick)
    (hquiet : ∀ i, Quiet (world i)) (rs : ReedSolomon) (cfg : VolumeConfig) (cache : MetadataCache)
    (k m : Nat) (used : Nat → Prop) (hset : EcSetting x.blake3 rs cfg cache k m used) (c : Client)
    (cl : Cluster) (ops : List BlockOp)
    (hops : ∀ op ∈ ops, op.WholeBlocks cfg ∧ op.EcWithin cfg used) (hids : (opIds cfg ops).Nodup)
    (hst : EcGood x rs cfg cache k m used (opIds cfg ops) (fun _ => none) (c, cl))
    (hans : Along (blockStep x ovf world rs cfg) (Answered x ovf world rs cfg) (c, cl) ops)
    (hwhole : ∀ pre op post, ops = pre ++ op :: post → WholeExtents cfg pre op)
    (env : IoEnv) (start count : Nat) (hread : (BlockOp.read env start count).WholeBlocks cfg)
    (hused : (BlockOp.read env start count).EcWithin cfg used) :
    (blockStep x ovf world rs cfg (runState (blockStep x ovf world rs cfg) (c, cl) ops)
        (.read env start count)).2
      = .ok (some (BlockDevice.read (device cfg ops) start count)) := by
  have hagree : blockWindow cfg (table cfg ops) = device cfg ops :=
    funext (agrees_table hset.volume.blockSize_pos (fun op hop => (hops op hop).1) hwhole)
  rw [ec_read_of_run hquiet hset hops hids hst hans hread hused, byExtent_ecTable hwhole, hagree]

theorem ec_read_after_write_growing :
    (pairedStep (runState pairedStep (pairedClient, pairedCluster) growing)
      (.read (idsFrom 51) 0 2)).2 = .ok (some [1, 2]) := by
  have hids : (opIds pairedVolume growing).Nodup := by decide
  exact ec_read_after_write _ _ _ (fun _ => quiet_calmTick) _ _ pairedCache 1 1 (· < 2)
    ecSetting_paired _ _ growing growing_paired hids (ecGood_paired _)
    (ec_run (fun _ => quiet_calmTick) ecSetting_paired growing_paired hids (ecGood_paired _)
      (.inr armed_paired)).1
    growing_whole (idsFrom 51) 0 2 Nat.zero_lt_two (ecWithin_paired (by decide))

/-- **A write that starts inside an extent is not found again.**  Both writes are answered Ok;
the second, of block 1 alone, is stored under block 1, and the read of the two blocks still
finds the first. -/
theorem write_inside_extent_lost :
    Along pairedStep PairedAnswered (pairedClient, pairedCluster) inside ∧
      (pairedStep (runState pairedStep (pairedClient, pairedCluster) inside)
        (.read (idsFrom 51) 0 2)).2 = .ok (some [1, 2]) ∧
      BlockDevice.read (device pairedVolume inside) 0 2 = [1, 1] := by
  have hids : (opIds pairedVolume inside).Nodup := by decide
  have hans : Along pairedStep PairedAnswered (pairedClient, pairedCluster) inside :=
    (ec_run (fun _ => quiet_calmTick) ecSetting_paired inside_ok hids (ecGood_paired _)
      (.inr armed_paired)).1
  refine ⟨hans, ?_, by decide⟩
  rw [ec_read_of_run (fun _ => quiet_calmTick) ecSetting_paired inside_ok hids (ecGood_paired _)
    hans Nat.zero_lt_two (ecWithin_paired (by decide))]
  decide

end Blockyard.Ublk
