/-
# Stripes behind a data plane

For an erasure-coded volume the nodes hold a table of STRIPES: the node in place `i` of the
placement of a stripe holds fragment `i` of its payload (`StripeHeld`).  A stripe is known by the
block its write started at -- the write pipeline has one block per extent -- while a read looks
for it under the first block of the extent.

§2 is what a read finds in the places of a stripe, §3 what a write leaves there, §4 and §5 take
the two through the loops of `handle_write` and `handle_read`.  Reads may miss up to M nodes.
-/
import Blockyard.Client.ErasureCodec
import Blockyard.Ublk.ReadAfterWrite

open Std CrashFs

namespace Blockyard.Ublk

open Storage

/-! ## 1. Volumes -/

/-- An erasure-coded volume the client knows, with enough nodes for its stripes. -/
structure EcVolume (cfg : VolumeConfig) (cache : MetadataCache) (k m : Nat) : Prop where
  policy : cfg.protection = .erasureCoded k m
  known : cache.volumes[cfg.volumeId]? = some ⟨.erasureCoded k m⟩
  dataChunks_pos : 1 ≤ k
  parityChunks_pos : 1 ≤ m
  total_le : k + m ≤ 255
  nodes_le : k + m ≤ cache.listNodes.length
  blockSize_pos : 0 < cfg.blockSize

def stripeId (blake3 : Bytes → BitVec 256) (cfg : VolumeConfig) (start : Nat) : ExtentId :=
  PlacementEngine.extentIdForExtent blake3 cfg.volumeId start

def stripeNodes (blake3 : Bytes → BitVec 256) (cfg : VolumeConfig) (cache : MetadataCache)
    (total start : Nat) : List NodeId :=
  PlacementEngine.selectNodes blake3 cfg.volumeId start cache.listNodes total

section Placed

variable {blake3 : Bytes → BitVec 256} {cfg : VolumeConfig} {cache : MetadataCache}
  {total start : Nat}

theorem mem_listNodes_of_mem_stripeNodes {n : NodeId}
    (h : n ∈ stripeNodes blake3 cfg cache total start) : n ∈ cache.listNodes :=
  PlacementEngine.mem_of_mem_selectNodes h

theorem nodup_stripeNodes : (stripeNodes blake3 cfg cache total start).Nodup :=
  PlacementEngine.nodup_selectNodes (nodup_listNodes cache) _ _ _

theorem length_stripeNodes_le : (stripeNodes blake3 cfg cache total start).length ≤ total := by
  rw [stripeNodes, PlacementEngine.length_selectNodes]
  exact Nat.min_le_left _ _

theorem EcVolume.length_stripeNodes {k m : Nat} (h : EcVolume cfg cache k m) (start : Nat) :
    (stripeNodes blake3 cfg cache (k + m) start).length = k + m := by
  rw [stripeNodes, PlacementEngine.length_selectNodes, Nat.min_eq_left h.nodes_le]

end Placed

/-! ## 2. What a read finds -/

section Replies

variable {σ : Type} (plane : DataPlane σ) (blake3 : Bytes → BitVec 256) (rs : ReedSolomon)
  (cfg : VolumeConfig)

/-- The fragments that answer a read of an erasure-coded block, each in its slot. -/
def fragmentReplies (order : IterOrder (Nat × NodeId)) (c : Client) (s : σ) (b dataChunks
    parityChunks : Nat) : List (Option Bytes) :=
  (readFragments plane (fragmentCall blake3 cfg b)
    (order.arrange ((PlacementEngine.selectNodes blake3 cfg.volumeId (alignedStart cfg b)
      c.cache.listNodes (dataChunks + parityChunks)).zipIdx.map fun (nodeId, i) => (i, nodeId)))
    s (List.replicate (dataChunks + parityChunks) none)).2

/-- What the read of a block makes of the fragments that answer. -/
theorem readEcBlockData_eq {dataChunks parityChunks : Nat}
    (hec : cfg.protection = .erasureCoded dataChunks parityChunks)
    (order : IterOrder (Nat × NodeId)) (c : Client) (s : σ) (b : Nat) :
    (readEcBlockData plane blake3 rs cfg order c s b).2
      = (let replies := fragmentReplies plane blake3 cfg order c s b dataChunks parityChunks
        if replies.all Option.isNone then .ok (zeros cfg.blockSize)
        else match rs.new dataChunks parityChunks with
          | .error e => .error (.storage s!"Reed-Solomon init failed: {e}")
          | .ok () =>
            match rs.reconstruct dataChunks parityChunks replies with
            | .error e => .error (.storage s!"EC reconstruction failed: {e}")
            | .ok shards =>
              .ok (blockOfShards cfg dataChunks (b - alignedStart cfg b) shards)) := by
  unfold readEcBlockData fragmentReplies
  rw [hec]
  dsimp only
  generalize PlacementEngine.selectNodes blake3 cfg.volumeId (alignedStart cfg b)
    c.cache.listNodes (dataChunks + parityChunks) = nodes
  cases nodes with
  | nil =>
    -- without a node there is no fragment to read
    have htasks : order.arrange ((([] : List NodeId).zipIdx).map fun (nodeId, i) => (i, nodeId))
        = [] := List.perm_nil.mp (order.perm _)
    rw [htasks, readFragments, if_pos List.isEmpty_nil, if_pos]
    simp
  | cons n nodes =>
    rw [if_neg (by simp)]
    generalize readFragments plane (fragmentCall blake3 cfg b) _ s _ = r
    obtain ⟨s', shards⟩ := r
    dsimp only
    split
    · rfl
    · rcases rs.new dataChunks parityChunks with e | u
      · rfl
      · rcases rs.reconstruct dataChunks parityChunks shards with e | shards' <;> rfl

end Replies

section Finds

variable {σ : Type} {plane : DataPlane σ} {Inv : σ → Prop} {slot : NodeId → Option Bytes}

/-- A read of a whole extent at a node finds what is in a slot, and leaves `Inv`. -/
def Finds (plane : DataPlane σ) (Inv : σ → Prop) (slot : NodeId → Option Bytes)
    (call : NodeId → ReadCall) (n : NodeId) : Prop :=
  ∀ s, Inv s → ∃ s' r, plane.readExtent s (call n) = (s', r) ∧ Inv s' ∧ ReadsAs (slot n) id r

/-- The fragment reads fill the slots of their nodes, in any order. -/
theorem readFragments_of_finds {call : NodeId → ReadCall} (tasks : List (Nat × NodeId))
    (hfinds : ∀ task ∈ tasks, Finds plane Inv slot call task.2)
    (hplaces : (tasks.map Prod.fst).Nodup) (shards : List (Option Bytes))
    (hempty : ∀ task ∈ tasks, shards[task.1]? = some none) (s : σ) (hs : Inv s) :
    ∃ s' shards', readFragments plane call tasks s shards = (s', shards') ∧ Inv s' ∧
      (∀ task ∈ tasks, shards'[task.1]? = some (slot task.2)) ∧
      ∀ j, j ∉ tasks.map Prod.fst → shards'[j]? = shards[j]? := by
  induction tasks generalizing shards s with
  | nil => exact ⟨s, shards, rfl, hs, by simp, by simp⟩
  | cons task tasks ih =>
    obtain ⟨i, n⟩ := task
    rw [List.map_cons, List.nodup_cons] at hplaces
    obtain ⟨s₁, r, hr, hs₁, hreads⟩ := hfinds (i, n) (by simp) s hs
    have hslot : shards[i]? = some none := hempty (i, n) (by simp)
    -- what the node answers is what the slot gets
    obtain ⟨shards₁, hstep, hthis, hother⟩ : ∃ shards₁,
        readFragments plane call ((i, n) :: tasks) s shards
          = readFragments plane call tasks s₁ shards₁ ∧
        shards₁[i]? = some (slot n) ∧ ∀ j, j ≠ i → shards₁[j]? = shards[j]? := by
      rw [readFragments, hr]
      cases hfound : slot n with
      | some payload =>
        rw [hfound] at hreads
        obtain rfl : r = .ok payload := hreads
        have hlt : i < shards.length := (List.getElem?_eq_some_iff.mp hslot).1
        exact ⟨_, rfl, by rw [List.getElem?_set_self hlt],
          fun j hj => List.getElem?_set_ne (Ne.symm hj)⟩
      | none =>
        rw [hfound] at hreads
        obtain ⟨err, rfl⟩ := hreads
        exact ⟨shards, rfl, hslot, fun _ _ => rfl⟩
    have hempty' : ∀ task ∈ tasks, shards₁[task.1]? = some none := by
      intro task htask
      have hne : task.1 ≠ i := fun heq => hplaces.1 (List.mem_map.mpr ⟨task, htask, heq⟩)
      rw [hother task.1 hne]
      exact hempty task (by simp [htask])
    obtain ⟨s', shards', heq, hs', hall, hrest⟩ := ih (fun t ht => hfinds t (by simp [ht]))
      hplaces.2 shards₁ hempty' s₁ hs₁
    refine ⟨s', shards', hstep.trans heq, hs', ?_, ?_⟩
    · intro task htask
      rcases List.mem_cons.mp htask with rfl | htask
      · rw [hrest i hplaces.1, hthis]
      · exact hall task htask
    · intro j hj
      rw [List.map_cons, List.mem_cons, not_or] at hj
      rw [hrest j hj.2, hother j hj.1]

theorem map_fst_tasks (nodes : List NodeId) :
    (nodes.zipIdx.map fun (nodeId, i) => (i, nodeId)).map Prod.fst = List.range nodes.length := by
  rw [List.map_map, List.range_eq_range']
  exact List.zipIdx_map_snd 0 nodes

/-- **The fragments a read finds** are those of the nodes in the places of the stripe. -/
theorem fragmentReplies_of_finds {blake3 : Bytes → BitVec 256} {cfg : VolumeConfig} {k m b : Nat}
    (hec : cfg.protection = .erasureCoded k m) {c : Client}
    (hfinds : ∀ n ∈ stripeNodes blake3 cfg c.cache (k + m) (alignedStart cfg b),
      Finds plane Inv slot (fragmentCall blake3 cfg b) n)
    (rs : ReedSolomon) (order : IterOrder (Nat × NodeId)) {s : σ} (hs : Inv s) :
    Inv (readEcBlockData plane blake3 rs cfg order c s b).1 ∧
      fragmentReplies plane blake3 cfg order c s b k m
        = (stripeNodes blake3 cfg c.cache (k + m) (alignedStart cfg b)).map slot
          ++ List.replicate (k + m - (stripeNodes blake3 cfg c.cache (k + m)
            (alignedStart cfg b)).length) none := by
  have hle : (stripeNodes blake3 cfg c.cache (k + m) (alignedStart cfg b)).length ≤ k + m :=
    length_stripeNodes_le
  unfold fragmentReplies readEcBlockData
  rw [hec]
  dsimp only
  change ∀ n ∈ PlacementEngine.selectNodes _ _ _ _ _, _ at hfinds
  change (PlacementEngine.selectNodes _ _ _ _ _).length ≤ _ at hle
  rw [stripeNodes]
  generalize PlacementEngine.selectNodes blake3 cfg.volumeId (alignedStart cfg b)
    c.cache.listNodes (k + m) = nodes at hfinds hle ⊢
  obtain ⟨tasks, htasks⟩ : ∃ tasks, tasks = nodes.zipIdx.map fun (nodeId, i) => (i, nodeId) :=
    ⟨_, rfl⟩
  have hfst : tasks.map Prod.fst = List.range nodes.length := by rw [htasks, map_fst_tasks]
  have hplace : ∀ task ∈ tasks, nodes[task.1]? = some task.2 := by
    intro task htask
    rw [htasks] at htask
    obtain ⟨⟨n, i⟩, hmem, rfl⟩ := List.mem_map.mp htask
    exact (List.mem_zipIdx_iff_getElem?.mp hmem)
  have hperm := order.perm tasks
  have hreads : ∀ task ∈ order.arrange tasks,
      Finds plane Inv slot (fragmentCall blake3 cfg b) task.2 := fun task htask =>
    hfinds _ (List.mem_of_getElem? (hplace task (hperm.mem_iff.mp htask)))
  have hplaces : ((order.arrange tasks).map Prod.fst).Nodup := by
    rw [(hperm.map _).nodup_iff, hfst]
    exact List.nodup_range
  have hempty : ∀ task ∈ order.arrange tasks,
      (List.replicate (k + m) (none : Option Bytes))[task.1]? = some none := by
    intro task htask
    have hlt := (List.getElem?_eq_some_iff.mp (hplace task (hperm.mem_iff.mp htask))).1
    rw [List.getElem?_replicate, if_pos (by omega)]
  obtain ⟨s', shards, heq, hs', hfound, hrest⟩ :=
    readFragments_of_finds (order.arrange tasks) hreads
    hplaces _ hempty s hs
  rw [← htasks, heq]
  constructor
  · -- the state is the one behind the fragment reads, whatever is made of them
    split
    · exact hs
    · dsimp only
      split
      · exact hs'
      · rcases rs.new k m with e | u
        · exact hs'
        · rcases rs.reconstruct k m shards with e | shards' <;> exact hs'
  · apply List.ext_getElem?
    intro j
    by_cases hj : j < nodes.length
    · have hmem : (j, nodes[j]) ∈ order.arrange tasks := by
        rw [hperm.mem_iff, htasks]
        exact List.mem_map.mpr ⟨(nodes[j], j), List.mem_zipIdx_iff_getElem?.mpr (by simp), rfl⟩
      rw [hfound _ hmem, List.getElem?_append_left (by simpa using hj)]
      simp [hj]
    · have hnot : j ∉ (order.arrange tasks).map Prod.fst := by
        rw [(hperm.map _).mem_iff, hfst, List.mem_range]
        exact hj
      rw [hrest j hnot, List.getElem?_append_right (by simpa using hj),
        List.getElem?_replicate, List.getElem?_replicate]
      simp only [List.length_map]
      exact if_congr (by omega) rfl rfl

end Finds

/-- What it finds in the places of a stripe. -/
def slotsOf (v : View) (up : NodeId → Bool) (e : ExtentId) (total : Nat) (nodes : List NodeId) :
    List (Option Bytes) :=
  nodes.map (slotOf v up e) ++ List.replicate (total - nodes.length) none

/-- **A plane that serves views** finds what is in the places of the stripe. -/
theorem Serves.readEcBlockData {σ : Type} {plane : DataPlane σ} {blake3 : Bytes → BitVec 256}
    {scope : Scope} {acks up : NodeId → Bool} {Shows : View → σ → Prop} {v : View}
    {cfg : VolumeConfig} (h : Serves plane blake3 scope acks up Shows) {k m b : Nat}
    (hec : cfg.protection = .erasureCoded k m) {c : Client}
    (hnodes : ∀ n ∈ stripeNodes blake3 cfg c.cache (k + m) (alignedStart cfg b), n ∈ scope.nodes)
    (hext : scope.extents (stripeId blake3 cfg (alignedStart cfg b)))
    (rs : ReedSolomon) (order : IterOrder (Nat × NodeId)) {s : σ} (hs : Shows v s) :
    Shows v (readEcBlockData plane blake3 rs cfg order c s b).1 ∧
      fragmentReplies plane blake3 cfg order c s b k m
        = slotsOf v up (stripeId blake3 cfg (alignedStart cfg b)) (k + m)
            (stripeNodes blake3 cfg c.cache (k + m) (alignedStart cfg b)) :=
  fragmentReplies_of_finds hec (fun n hn _ hs => h.read hs ⟨hnodes n hn, hext, rfl,
    Or.inl ⟨rfl, rfl⟩⟩) rs order hs

theorem handleRead_ecBlock {σ : Type} (plane : DataPlane σ) (blake3 : Bytes → BitVec 256)
    (rs : ReedSolomon) {cfg : VolumeConfig} {k m : Nat} (hec : cfg.protection = .erasureCoded k m)
    (hbs : 0 < cfg.blockSize) {env : IoEnv} {c : Client} (hfresh : freshClient env c = .ok c)
    (s : σ) (b : Nat) :
    handleRead plane blake3 rs cfg env c s (blockRead cfg b 1)
      = (c, (readEcBlockData plane blake3 rs cfg (env.fragmentOrder b) c s b).1,
          (readEcBlockData plane blake3 rs cfg (env.fragmentOrder b) c s b).2.map some) := by
  have hrange : (blockRead cfg b 1).blockRange cfg.blockSize = (b, b + 1) :=
    blockRange_aligned hbs rfl rfl
  unfold handleRead
  rw [hfresh, hrange]
  dsimp only
  rw [Nat.add_sub_cancel_left, if_pos le_rfl, hec]

theorem getElem?_resize (bytes : Bytes) {n j : Nat} (h : j < n) :
    (resize bytes n)[j]? = some ((bytes[j]?).getD 0) := by
  unfold resize
  by_cases hin : j < bytes.length
  · rw [List.getElem?_append_left (by rw [List.length_take]; omega), List.getElem?_take_of_lt h,
      List.getElem?_eq_getElem hin, Option.getD_some]
  · rw [List.getElem?_append_right (by rw [List.length_take]; omega), List.getElem?_replicate,
      if_pos (by rw [List.length_take]; omega), List.getElem?_eq_none (by omega), Option.getD_none]

theorem resize_append_zeros (data : Bytes) (fill offset n : Nat) :
    resize (((data ++ List.replicate fill 0).drop offset).take n) n
      = resize (data.drop offset) n := by
  apply List.ext_getElem?
  intro j
  by_cases hj : j < n
  · rw [getElem?_resize _ hj, getElem?_resize _ hj, List.getElem?_take_of_lt hj,
      List.getElem?_drop, List.getElem?_drop]
    by_cases hin : offset + j < data.length
    · rw [List.getElem?_append_left hin]
    · rw [List.getElem?_append_right (by omega), List.getElem?_replicate,
        List.getElem?_eq_none (Nat.not_lt.mp hin)]
      split <;> rfl
  · rw [List.getElem?_eq_none (by simpa using hj), List.getElem?_eq_none (by simpa using hj)]

/-- The block's window in what the data shards of a stripe have in a row. -/
theorem blockOfShards_of_flatten (cfg : VolumeConfig) {k : Nat} {shards : List (Option Bytes)}
    {data : Bytes} {fill : Nat}
    (h : ((shards.take k).map fun shard => shard.getD []).flatten
      = data ++ List.replicate fill 0) (blockOffset : Nat) :
    blockOfShards cfg k blockOffset shards
      = resize (data.drop (blockOffset * cfg.blockSize)) cfg.blockSize := by
  unfold blockOfShards
  rw [h]
  dsimp only
  split
  · rename_i hge
    simp only [List.length_append] at hge
    rw [List.drop_eq_nil_of_le (by omega), resize_nil]
  · exact resize_append_zeros data fill _ _

/-! ## 3. Stripes in place -/

/-- The nodes in the places of a stripe hold the fragments of a payload, or nothing. -/
def StripeHeld (rs : ReedSolomon) (k m : Nat) (v : View) (nodes : List NodeId) (e : ExtentId) :
    Option Bytes → Prop
  | none => ∀ n ∈ nodes, v.held n e = none
  | some data => data ≠ [] ∧ ∃ word, Encodes rs k m data word ∧
      nodes.map (fun n => v.held n e) = word.map some

section Stripes

variable {rs : ReedSolomon} {k m : Nat} {v : View} {nodes : List NodeId} {e : ExtentId}
  {up : NodeId → Bool} {data : Bytes}

/-- What a read finds of a stripe in place is what is left of its fragments. -/
theorem remains_slotsOf {word : List Bytes} (h : nodes.map (fun n => v.held n e) = word.map some)
    (hlen : nodes.length = k + m) :
    Remains word (slotsOf v up e (k + m) nodes) ∧
      (slotsOf v up e (k + m) nodes).countP Option.isNone = nodes.countP (fun n => !up n) := by
  rw [slotsOf, hlen, Nat.sub_self, List.replicate_zero, List.append_nil]
  clear hlen
  induction nodes generalizing word with
  | nil =>
    obtain rfl : word = [] := by simpa using h.symm
    exact ⟨.nil, rfl⟩
  | cons n nodes ih =>
    cases word with
    | nil => simp at h
    | cons fragment word =>
      simp only [List.map_cons, List.cons.injEq] at h
      obtain ⟨hrem, hcount⟩ := ih h.2
      cases hup : up n with
      | true =>
        have hslot : slotOf v up e n = some fragment := by simp [slotOf, hup, h.1]
        refine ⟨.cons (Or.inr hslot) hrem, ?_⟩
        simp [hslot, hcount, hup]
      | false =>
        have hslot : slotOf v up e n = none := by simp [slotOf, hup]
        refine ⟨.cons (Or.inl hslot) hrem, ?_⟩
        simp [hslot, hcount, hup]

theorem all_isNone_slotsOf (h : ∀ n ∈ nodes, v.held n e = none) (total : Nat) :
    (slotsOf v up e total nodes).all Option.isNone = true := by
  simp only [slotsOf, List.all_append, List.all_map, Bool.and_eq_true, List.all_eq_true]
  constructor
  · intro n hn
    simp [slotOf, h n hn]
  · intro slot hslot
    rw [List.eq_of_mem_replicate hslot]
    rfl

variable {σ : Type} {plane : DataPlane σ} {blake3 : Bytes → BitVec 256} {scope : Scope}
  {acks : NodeId → Bool} {Shows : View → σ → Prop} {cfg : VolumeConfig} {cache : MetadataCache}

/-- **A block reads as its window in the data shards**, whatever `reconstruct` makes of the
fragments that are found. -/
theorem readEcBlockData_found (h : Serves plane blake3 scope acks up Shows)
    (hec : cfg.protection = .erasureCoded k m) (hnew : rs.new k m = .ok ()) {c : Client}
    (hscope : ∀ n ∈ c.cache.listNodes, n ∈ scope.nodes) {b : Nat}
    (hext : scope.extents (stripeId blake3 cfg (alignedStart cfg b))) {slots : List (Option Bytes)}
    (hslots : slotsOf v up (stripeId blake3 cfg (alignedStart cfg b)) (k + m)
      (stripeNodes blake3 cfg c.cache (k + m) (alignedStart cfg b)) = slots)
    (hsome : ¬ slots.all Option.isNone = true) {shards : List (Option Bytes)}
    (hrec : rs.reconstruct k m slots = .ok shards) (order : IterOrder (Nat × NodeId)) {s : σ}
    (hs : Shows v s) :
    ∃ s', readEcBlockData plane blake3 rs cfg order c s b
        = (s', .ok (blockOfShards cfg k (b - alignedStart cfg b) shards)) ∧ Shows v s' := by
  obtain ⟨hs', hreplies⟩ := h.readEcBlockData hec
    (fun n hn => hscope n (mem_listNodes_of_mem_stripeNodes hn)) hext rs order hs
  have hres := readEcBlockData_eq plane blake3 rs cfg hec order c s b
  dsimp only at hres
  rw [hreplies, hslots, if_neg hsome, hnew, hrec] at hres
  exact ⟨_, Prod.ext rfl hres, hs'⟩

/-- **A block reads as its window in the payload of its stripe**, when at most M nodes of the
stripe do not answer; without a stripe it reads as zeros. -/
theorem readEcBlockData_held (h : Serves plane blake3 scope acks up Shows)
    (hvol : EcVolume cfg cache k m) (hlaw : rs.Lawful k m) {c : Client} (hc : c.cache = cache)
    (hscope : ∀ n ∈ cache.listNodes, n ∈ scope.nodes) {b : Nat} {content : Option Bytes}
    (hheld : StripeHeld rs k m v (stripeNodes blake3 cfg cache (k + m) (alignedStart cfg b))
      (stripeId blake3 cfg (alignedStart cfg b)) content)
    (hext : scope.extents (stripeId blake3 cfg (alignedStart cfg b)))
    (hup : (stripeNodes blake3 cfg cache (k + m) (alignedStart cfg b)).countP (fun n => !up n) ≤ m)
    (order : IterOrder (Nat × NodeId)) {s : σ} (hs : Shows v s) :
    ∃ s', readEcBlockData plane blake3 rs cfg order c s b
        = (s', .ok (resize ((content.getD []).drop ((b - alignedStart cfg b) * cfg.blockSize))
            cfg.blockSize)) ∧ Shows v s' := by
  have hk := hvol.dataChunks_pos
  subst hc
  cases content with
  | none =>
    obtain ⟨hs', hreplies⟩ := h.readEcBlockData hvol.policy
      (fun n hn => hscope n (mem_listNodes_of_mem_stripeNodes hn)) hext rs order hs
    have hres := readEcBlockData_eq plane blake3 rs cfg hvol.policy order c s b
    dsimp only at hres
    rw [hreplies, if_pos (all_isNone_slotsOf hheld _)] at hres
    refine ⟨_, Prod.ext rfl (hres.trans ?_), hs'⟩
    rw [Option.getD_none, List.drop_nil, resize_nil]
  | some data =>
    obtain ⟨hdata, word, hword, hplaces⟩ := hheld
    obtain ⟨hrem, hholes⟩ : Remains word (slotsOf v up _ (k + m) _) ∧ _ :=
      remains_slotsOf hplaces (hvol.length_stripeNodes _)
    -- some fragment answers
    have hsome : ¬ (slotsOf v up (stripeId blake3 cfg (alignedStart cfg b)) (k + m)
        (stripeNodes blake3 cfg c.cache (k + m) (alignedStart cfg b))).all Option.isNone
          = true := by
      rw [List.all_eq_true, ← List.countP_eq_length, hholes, ← hrem.length_eq, hword.shards.length]
      omega
    have hrow : (((word.map some).take k).map fun shard => shard.getD []).flatten
        = data ++ List.replicate (k * fragmentSize k data - data.length) 0 := by
      rw [← hword.flatten hk hdata, ← List.map_take, List.map_map]
      exact congrArg List.flatten (List.map_id _)
    obtain ⟨s', heq, hs'⟩ := readEcBlockData_found h hvol.policy hlaw.new hscope hext rfl hsome
      (hword.reconstruct hlaw hk hdata hrem (hholes.trans_le hup)) order hs
    exact ⟨s', by rw [heq, blockOfShards_of_flatten cfg hrow, Option.getD_some], hs'⟩

end Stripes

/-! ## 4. Writes of stripes -/

def fragmentCalls (blake3 : Bytes → BitVec 256) (cfg : VolumeConfig) (c : Client) (env : ChunkEnv)
    (start : Nat) (nodes : List NodeId) (word : List Bytes) : List WriteCall :=
  (nodes.zip word).map fun (nodeId, fragment) =>
    { nodeId
      operationId := env.operationId
      sessionId := c.sessionId
      volumeId := cfg.volumeId
      extentId := stripeId blake3 cfg start
      extentVersion := PlacementEngine.extentVersion
      epoch := c.cache.epoch
      data := fragment
      checksum := computeChecksum blake3 fragment }

section Writes

variable {σ : Type} {plane : DataPlane σ} {blake3 : Bytes → BitVec 256} {acks up : NodeId → Bool}
  {Shows : View → σ → Prop} {v : View} {rs : ReedSolomon} {cfg : VolumeConfig}
  {cache : MetadataCache} {extents : ExtentId → Prop} {k m : Nat} {c : Client} {env : ChunkEnv}
  {start : Nat} {data : Bytes} {word : List Bytes} {s : σ}

theorem map_nodeId_fragmentCalls {nodes : List NodeId} (h : nodes.length ≤ word.length) :
    (fragmentCalls blake3 cfg c env start nodes word).map WriteCall.nodeId = nodes := by
  rw [fragmentCalls, List.map_map]
  exact List.map_fst_zip h

/-- What a node in a place of the stripe holds after the calls. -/
theorem Sent.fragment {v' : View} {nodes : List NodeId} {e : ExtentId} {o : OperationId}
    (h : Sent v v' acks e o (fragmentCalls blake3 cfg c env start nodes word)) {i : Nat}
    {n : NodeId} {fragment : Bytes} (hn : nodes[i]? = some n) (hf : word[i]? = some fragment) :
    v'.held n e = if acks n = true then some fragment else v.held n e := by
  have hzip : (n, fragment) ∈ nodes.zip word :=
    List.mem_of_getElem? (List.getElem?_zip_eq_some.mpr ⟨hn, hf⟩)
  exact h.sent _ (List.mem_map_of_mem hzip)

/-- A stripe that every node acknowledged is in place. -/
theorem Sent.stripeHeld (hvol : EcVolume cfg cache k m) (hdata : data ≠ [])
    (hword : Encodes rs k m data word) {v' : View} {o : OperationId}
    (h : Sent v v' (fun _ => true) (stripeId blake3 cfg start) o
      (fragmentCalls blake3 cfg c env start (stripeNodes blake3 cfg cache (k + m) start) word)) :
    StripeHeld rs k m v' (stripeNodes blake3 cfg cache (k + m) start) (stripeId blake3 cfg start)
      (some data) := by
  refine ⟨hdata, word, hword, ?_⟩
  have hlen : (stripeNodes blake3 cfg cache (k + m) start).length = word.length := by
    rw [hvol.length_stripeNodes, hword.shards.length]
  apply List.ext_getElem (by simpa using hlen)
  intro i hi hi'
  rw [List.getElem_map, List.getElem_map]
  rw [List.length_map] at hi hi'
  exact h.fragment (List.getElem?_eq_getElem hi) (List.getElem?_eq_getElem hi')

/-- An attempt that gets to the nodes is the only one. -/
theorem ecExecute_of_once {c' : Client} {s' : σ} {outcome : WriteOutcome} {volumeId : VolumeId}
    (h : ecExecuteOnce plane blake3 rs env 0 c s volumeId start data = (c', s', .ok outcome)) :
    ecExecute plane blake3 rs env c s volumeId start data = (c', s', .ok outcome) := by
  rw [ecExecute, show List.range (maxRetries + 1) = 0 :: [1, 2, 3] from rfl, ecExecuteAttempts, h]

theorem ecExecute_paused (hp : c.paused = true) (plane : DataPlane σ) (rs : ReedSolomon)
    (env : ChunkEnv) (s : σ) (volumeId : VolumeId) (start : Nat) (data : Bytes) :
    ∃ e, ecExecute plane blake3 rs env c s volumeId start data = (c, s, .error e) := by
  have honce : ∀ attempt, ecExecuteOnce plane blake3 rs env attempt c s volumeId start data
      = (c, s, .error (.storage "writes paused due to stale epoch")) := fun _ => if_pos hp
  have hattempts : ∀ (attempts : List Nat) (lastError : Option Error),
      ∃ e, ecExecuteAttempts plane blake3 rs env volumeId start data attempts lastError c s
        = (c, s, .error e) := by
    intro attempts
    induction attempts with
    | nil => exact fun _ => ⟨_, rfl⟩
    | cons attempt rest ih =>
      intro lastError
      rw [ecExecuteAttempts, honce attempt]
      exact ih _
  exact hattempts _ _

variable (hvol : EcVolume cfg cache k m) (hc : c.cache = cache) (hp : c.paused = false)
  (hnew : rs.new k m = .ok ()) (hdata : data ≠ []) (hword : Encodes rs k m data word)
  (hext : extents (stripeId blake3 cfg start))
  (hfresh : ∀ n ∈ cache.listNodes, v.fresh n env.operationId) (hs : Shows v s)

include hvol hc hp hnew hdata hword hext hfresh hs

/-- **One attempt to write a stripe**: its outcome is settled by the acknowledgements, and the
nodes that acknowledge hold their fragments. -/
theorem ecExecuteOnce_serves
    (h : Serves plane blake3 (volumeScope cfg cache extents) acks up Shows) (attempt : Nat) :
    ∃ s' v' replies,
      ecExecuteOnce plane blake3 rs env attempt c s cfg.volumeId start data
        = ((settle c (env.refresh attempt) cache.epoch (k + min 1 m) replies).1, s',
            .ok (settle c (env.refresh attempt) cache.epoch (k + min 1 m) replies).2) ∧
      Shows v' s' ∧
      Sent v v' acks (stripeId blake3 cfg start) env.operationId
        (fragmentCalls blake3 cfg c env start (stripeNodes blake3 cfg cache (k + m) start) word) ∧
      List.Forall₂ (fun call ack => Reports (acks call.nodeId) ack)
        ((env.sendOrder attempt).arrange (fragmentCalls blake3 cfg c env start
          (stripeNodes blake3 cfg cache (k + m) start) word)) replies := by
  have hids : (fragmentCalls blake3 cfg c env start (stripeNodes blake3 cfg cache (k + m) start)
      word).map WriteCall.nodeId = stripeNodes blake3 cfg cache (k + m) start :=
    map_nodeId_fragmentCalls (by rw [hvol.length_stripeNodes, hword.shards.length])
  obtain ⟨calls, hcalls⟩ : ∃ calls, calls = fragmentCalls blake3 cfg c env start
    (stripeNodes blake3 cfg cache (k + m) start) word := ⟨_, rfl⟩
  rw [← hcalls] at hids ⊢
  have hnode : ∀ call ∈ calls, call.nodeId ∈ cache.listNodes := fun call hmem =>
    mem_listNodes_of_mem_stripeNodes (hids ▸ List.mem_map_of_mem hmem)
  have hwrites : ∀ call ∈ calls, (volumeScope cfg cache extents).Writes blake3 call ∧
      call.extentId = stripeId blake3 cfg start ∧ call.operationId = env.operationId := by
    intro call hmem
    have hn := hnode call hmem
    rw [hcalls] at hmem
    obtain ⟨⟨n, fragment⟩, -, rfl⟩ := List.mem_map.mp hmem
    exact ⟨⟨hn, rfl, congrArg MetadataCache.epoch hc, hext, rfl, rfl⟩, rfl, rfl⟩
  obtain ⟨s', v', replies, heq, hs', hsent, hall⟩ := h.transmit (env.sendOrder attempt)
    (fun call hmem => (hwrites call hmem).1) (by rw [hids]; exact nodup_stripeNodes)
    (fun call hmem => (hwrites call hmem).2) (fun call hmem => hfresh _ (hnode call hmem)) hs
  refine ⟨s', v', replies, ?_, hs', hsent, hall⟩
  have hsel : PlacementEngine.selectEcNodes blake3 cfg.volumeId start cache.listNodes k m
      = stripeNodes blake3 cfg cache (k + m) start := by
    have hle := hvol.total_le
    rw [PlacementEngine.selectEcNodes, Nat.mod_eq_of_lt (by omega), stripeNodes]
  have hmax : start / max (CachedVolumeInfo.extentBlocks ⟨.erasureCoded k m⟩) 1 = start := by
    simp [CachedVolumeInfo.extentBlocks]
  unfold ecExecuteOnce
  simp only [hp, hc, hvol.known, Nat.not_lt.mpr hvol.nodes_le, hmax, hsel,
    hword.encodeData hnew hdata, EncodedStripe.shards_ofShards, Bool.false_eq_true, if_false]
  rw [fragmentCalls, hc] at hcalls
  simp only [stripeId] at hcalls
  rw [← hcalls, heq]

/-- **When every node acknowledges**, the stripe is written and in place. -/
theorem ecExecute_stored
    (h : Serves plane blake3 (volumeScope cfg cache extents) (fun _ => true) up Shows) :
    ∃ s' v', ecExecute plane blake3 rs env c s cfg.volumeId start data
        = (c.advance cache.epoch, s', .ok (.committed cache.epoch)) ∧ Shows v' s' ∧
      Sent v v' (fun _ => true) (stripeId blake3 cfg start) env.operationId
        (fragmentCalls blake3 cfg c env start (stripeNodes blake3 cfg cache (k + m) start)
          word) := by
  obtain ⟨s', v', replies, heq, hs', hsent, hall⟩ := ecExecuteOnce_serves hvol hc hp hnew hdata
    hword hext hfresh hs h 0
  have hsettle := settle_of_acked c (env.refresh 0) cache.epoch (k + min 1 m)
    (acked_of_reports hall)
  have hlen : replies.length = k + m := by
    rw [← hall.length_eq, ((env.sendOrder 0).perm _).length_eq, fragmentCalls, List.length_map,
      List.length_zip, hvol.length_stripeNodes, hword.shards.length, Nat.min_self]
  have hpos := hvol.parityChunks_pos
  rw [hlen, if_neg (by omega)] at hsettle
  rw [hsettle] at heq
  exact ⟨s', v', ecExecute_of_once heq, hs', hsent⟩

/-- The same through `handle_write`'s treatment of the outcome. -/
theorem writeChunk_stored
    (h : Serves plane blake3 (volumeScope cfg cache extents) (fun _ => true) up Shows) :
    ∃ s' v', writeChunk plane blake3 rs cfg env c s start data
        = (c.advance cache.epoch, s', .ok ()) ∧ Shows v' s' ∧
      Sent v v' (fun _ => true) (stripeId blake3 cfg start) env.operationId
        (fragmentCalls blake3 cfg c env start (stripeNodes blake3 cfg cache (k + m) start)
          word) := by
  obtain ⟨s', v', heq, hs', hsent⟩ := ecExecute_stored hvol hc hp hnew hdata hword hext hfresh hs h
  refine ⟨s', v', ?_, hs', hsent⟩
  rw [writeChunk, hvol.policy]
  dsimp only
  rw [heq]

end Writes

end Blockyard.Ublk
