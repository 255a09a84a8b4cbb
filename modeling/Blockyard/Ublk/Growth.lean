/-
# Stripes in a growing cluster

Placement is computed from the list of nodes, by the writer and by every reader.  Adding a node
displaces at most one holder of a fragment (`PlacementEngine.mem_selectNodes_of_grown`), but a
fragment is known by its PLACE, and places move: behind the new node every place shifts by one,
and when there were exactly K + M nodes before, list order gives way to score order.  A read takes
what the node in place `i` of the new placement holds for fragment `i` (`foundByte`), and a missing
data fragment is computed from such bytes.

`grown_cluster_read_iff` says for which bytes this restores what was written.
-/
import Blockyard.Storage.EcRepair
import Blockyard.Ublk.Overwrites

open Std CrashFs

namespace Blockyard.Ublk

open Storage

/-! ## 1. What is found in the places of the new placement -/

/-- The byte found at an offset of the fragment in a place: the node in that place of the new
placement holds the fragment it was sent under the old one, and a new node holds none. -/
def foundByte (word : List Bytes) (nodes grown : List NodeId) (i t : Nat) : Option UInt8 :=
  (grown[i]?).bind fun n => (word[nodes.idxOf n]?).bind fun fragment => fragment[t]?

/-- Byte `j` of the payload comes back: it is the byte found in its place or, where the new node is
in its place, the byte with which the column passes the first parity check. -/
def ByteRestored (parity : Bytes → UInt8) (word : List Bytes) (nodes grown : List NodeId)
    (k f : Nat) (data : Bytes) (j : Nat) : Prop :=
  match foundByte word nodes grown (j / f) (j % f) with
  | some byte => some byte = data[j]?
  | none => some (parity ((List.range k).map fun i =>
      (foundByte word nodes grown i (j % f)).getD ((data[j]?).getD 0)))
        = foundByte word nodes grown k (j % f)

/-- What is found in the places of the new placement. -/
def foundSlots (word : List Bytes) (nodes grown : List NodeId) : List (Option Bytes) :=
  grown.map fun n => word[nodes.idxOf n]?

/-- The new placement: as many nodes, all of them old but for one. -/
structure Regrouped (nodes grown : List NodeId) (x : NodeId) : Prop where
  length : grown.length = nodes.length
  nodup : grown.Nodup
  new : x ∉ nodes
  old : ∀ n ∈ grown, n ≠ x → n ∈ nodes

section Slots

variable {rs : ReedSolomon} {parity : Bytes → UInt8} {k m : Nat} {data : Bytes} {word : List Bytes}
  {nodes grown : List NodeId} {x : NodeId}

theorem foundByte_eq (i t : Nat) :
    foundByte word nodes grown i t
      = ((foundSlots word nodes grown)[i]?).bind fun slot => slot.bind (·[t]?) := by
  rw [foundByte, foundSlots, List.getElem?_map]
  cases grown[i]? <;> rfl

theorem length_of_mem_foundSlots {size count : Nat} (hword : Shards count size word)
    {fragment : Bytes} (h : some fragment ∈ foundSlots word nodes grown) :
    fragment.length = size := by
  obtain ⟨n, -, hn⟩ := List.mem_map.mp h
  exact hword.size fragment (List.mem_of_getElem? hn)

theorem Regrouped.eq_of_slot_none (h : Regrouped nodes grown x) (hlen : word.length = nodes.length)
    {n : NodeId} (hn : n ∈ grown) (hnone : word[nodes.idxOf n]? = none) : n = x := by
  by_contra hne
  have hlt : nodes.idxOf n < word.length := hlen ▸ List.idxOf_lt_length_of_mem (h.old n hn hne)
  rw [List.getElem?_eq_getElem hlt] at hnone
  cases hnone

theorem Regrouped.countP_foundSlots (h : Regrouped nodes grown x)
    (hlen : word.length = nodes.length) :
    (foundSlots word nodes grown).countP Option.isNone ≤ 1 := by
  have hle : (foundSlots word nodes grown).countP Option.isNone ≤ grown.count x := by
    rw [foundSlots, List.countP_map, List.count]
    refine List.countP_mono_left fun n hn hnone => ?_
    simpa using h.eq_of_slot_none hlen hn (by simpa using hnone)
  exact hle.trans (List.nodup_iff_count_le_one.mp h.nodup x)

theorem Regrouped.slot_of_ne (h : Regrouped nodes grown x) (hlen : word.length = nodes.length)
    {r i : Nat} (hr : (foundSlots word nodes grown)[r]? = some none) (hne : i ≠ r)
    (hi : i < grown.length) :
    ∃ fragment, (foundSlots word nodes grown)[i]? = some (some fragment) := by
  rw [foundSlots, List.getElem?_map] at hr ⊢
  obtain ⟨n, hn, hnone⟩ := Option.map_eq_some_iff.mp hr
  rw [List.getElem?_eq_getElem hi, Option.map_some]
  cases hslot : word[nodes.idxOf grown[i]]? with
  | some fragment => exact ⟨fragment, rfl⟩
  | none =>
    -- both places would be the new node's
    have hx := h.eq_of_slot_none hlen (List.mem_of_getElem? hn) hnone
    have hx' := h.eq_of_slot_none hlen (List.getElem_mem hi) hslot
    rw [hx, ← hx'] at hn
    obtain ⟨hr', hsame⟩ := List.getElem?_eq_some_iff.mp hn
    exact absurd (h.nodup.getElem_inj_iff.mp hsame).symm hne

theorem Remains.getElem? {α : Type} {symbols : List α} {slots : List (Option α)}
    (h : Remains symbols slots) {i : Nat} {a : α} (hi : slots[i]? = some (some a)) :
    symbols[i]? = some a := by
  induction h generalizing i with
  | nil => simp at hi
  | cons hslot _ ih =>
    cases i with
    | zero =>
      rcases hslot with rfl | rfl
      · simp at hi
      · simpa using hi
    | succ i =>
      simp only [List.getElem?_cons_succ] at hi ⊢
      exact ih hi

/-- In a repaired row the bytes that were found are kept. -/
theorem Remains.foundByte {shards : List Bytes} (h : Remains shards (foundSlots word nodes grown))
    {i t : Nat} {byte : UInt8} (hbyte : foundByte word nodes grown i t = some byte) :
    (shards[i]?).bind (·[t]?) = some byte := by
  rw [foundByte_eq] at hbyte
  obtain ⟨slot, hslot, hin⟩ := Option.bind_eq_some_iff.mp hbyte
  obtain ⟨fragment, rfl, hin⟩ := Option.bind_eq_some_iff.mp hin
  rw [h.getElem? hslot]
  exact hin

/-- A place in which no byte is found is the place of the new node. -/
theorem slot_none_of_foundByte {size count : Nat} (hword : Shards count size word) {i t : Nat}
    (ht : t < size) (hi : i < grown.length) (h : Ublk.foundByte word nodes grown i t = none) :
    (foundSlots word nodes grown)[i]? = some none := by
  have hlen : i < (foundSlots word nodes grown).length := by rwa [foundSlots, List.length_map]
  rw [foundByte_eq, List.getElem?_eq_getElem hlen, Option.bind_some] at h
  rw [List.getElem?_eq_getElem hlen]
  cases hslot : (foundSlots word nodes grown)[i] with
  | none => rfl
  | some fragment =>
    have hsize := length_of_mem_foundSlots hword (hslot ▸ List.getElem_mem hlen)
    rw [hslot, Option.bind_some, List.getElem?_eq_getElem (by omega)] at h
    cases h

/-- With the new node in a place, the column that is found and a byte in that place. -/
theorem column_of_found {size count : Nat} (hword : Shards count size word)
    (hgroup : Regrouped nodes grown x) (hlen : word.length = nodes.length)
    {shards : List Bytes} (hrem : Remains shards (foundSlots word nodes grown)) {r t : Nat}
    (hk : k ≤ grown.length) (ht : t < size)
    (hnone : (foundSlots word nodes grown)[r]? = some none) (byte : UInt8) :
    ((List.range k).map fun i => (Ublk.foundByte word nodes grown i t).getD byte)
      = (column (shards.take k) t).set r byte := by
  have hcount : shards.length = grown.length := by
    rw [hrem.length_eq, foundSlots, List.length_map]
  apply List.ext_getElem (by simp [column]; omega)
  intro i hi hi'
  have hik : i < k := by simpa using hi
  have hshard : shards[i]? = some shards[i] := List.getElem?_eq_getElem (by omega)
  rw [List.getElem_map, List.getElem_range, List.getElem_set]
  split
  · rename_i heq
    subst heq
    rw [foundByte_eq, hnone]
    rfl
  · rename_i hne
    obtain ⟨fragment, hslot⟩ := hgroup.slot_of_ne hlen hnone (Ne.symm hne) (by omega)
    have hsize := length_of_mem_foundSlots hword (List.mem_of_getElem? hslot)
    have hsame : shards[i] = fragment := by
      rw [hrem.getElem? hslot] at hshard
      exact (Option.some.inj hshard).symm
    rw [foundByte_eq, hslot, Option.bind_some, Option.bind_some,
      List.getElem?_eq_getElem (by omega : t < fragment.length)]
    simp only [column, List.getElem_map, List.getElem_take, hsame, Option.getD_some]
    rw [List.getElem?_eq_getElem (by omega : t < fragment.length), Option.getD_some]

/-- **What a read makes of the places of the new placement**: the payload, exactly where its bytes
are restored. -/
theorem reconstruct_foundSlots (hrepair : rs.RepairsOne k m parity) (hk : 0 < k) (hm : 0 < m)
    (hword : Encodes rs k m data word) (hgroup : Regrouped nodes grown x)
    (hnodes : nodes.length = k + m) (hdata : data ≠ []) :
    ∃ shards, rs.reconstruct k m (foundSlots word nodes grown) = .ok (shards.map some) ∧
      Shards (k + m) (fragmentSize k data) shards ∧
      ∀ j < data.length, (shards.take k).flatten[j]? = data[j]? ↔
        ByteRestored parity word nodes grown k (fragmentSize k data) data j := by
  have hf := fragmentSize_pos hk hdata
  have hlen : word.length = nodes.length := hword.shards.length.trans hnodes.symm
  have hgrown := hgroup.length
  obtain ⟨shards, hrec, hshards, hrem, hcheck⟩ := hrepair.repair hf
    (by rw [foundSlots, List.length_map]; omega) (fun _ => length_of_mem_foundSlots hword.shards)
    (hgroup.countP_foundSlots hlen)
  refine ⟨shards, hrec, hshards, fun j hj => ?_⟩
  have hplace := Stripe.div_pieceSize_lt hk hj
  have hoffset := Nat.mod_lt j hf
  rw [Stripe.getElem?_flatten hf fun _ hmem => hshards.size _ (List.mem_of_mem_take hmem),
    List.getElem?_take_of_lt hplace, ByteRestored]
  change j / fragmentSize k data < k at hplace
  generalize j / fragmentSize k data = i at hplace ⊢
  generalize j % fragmentSize k data = t at hoffset ⊢
  cases hfound : Ublk.foundByte word nodes grown i t with
  | some byte => rw [hrem.foundByte hfound]
  | none =>
    have hslot := slot_none_of_foundByte hword.shards hoffset (by omega) hfound
    have hparity : Ublk.foundByte word nodes grown k t = (shards[k]?).bind (·[t]?) := by
      obtain ⟨fragment, hfragment⟩ := hgroup.slot_of_ne hlen hslot (by omega : k ≠ i) (by omega)
      rw [foundByte_eq, hfragment, hrem.getElem? hfragment]
      rfl
    -- the repaired byte
    have hi : i < shards.length := by
      rw [hshards.length]
      omega
    have ht : t < shards[i].length := by
      rwa [hshards.size _ (List.getElem_mem hi)]
    have hlt : i < (column (shards.take k) t).length := by
      rw [column, List.length_map, List.length_take]
      omega
    have hbyte : (column (shards.take k) t)[i] = shards[i][t] := by simp [column, ht]
    have hcheck' := hcheck i hplace hslot t hoffset
    rw [List.getElem?_eq_getElem hi, Option.bind_some, List.getElem?_eq_getElem ht,
      List.getElem?_eq_getElem hj, Option.getD_some, hparity, ← hcheck', Option.some.injEq,
      Option.some.injEq, column_of_found hword.shards hgroup hlen hrem (by omega) hoffset hslot]
    dsimp only
    have hself : (column (shards.take k) t).set i shards[i][t] = column (shards.take k) t := by
      rw [← hbyte, List.set_getElem_self]
    constructor
    · intro heq
      rw [← heq, hself]
    · intro heq
      have hcount : (column (shards.take k) t).length = k := by
        rw [column, List.length_map, List.length_take, hshards.length]
        omega
      rw [← hself, List.set_set] at heq
      exact (hrepair.injective hcount hplace heq).symm

end Slots

section Grown

variable {σ : Type} {plane : DataPlane σ} {blake3 : Bytes → BitVec 256} {rs : ReedSolomon}
  {scope : Scope} {acks up : NodeId → Bool} {Shows : View → σ → Prop} {v : View}
  {cfg : VolumeConfig} {cache : MetadataCache} {k m b start : Nat} {c : Client} {env : ChunkEnv}
  {s : σ} {data : Bytes} {word : List Bytes} {x : NodeId}

theorem perm_listNodes_of_grown {cache' : MetadataCache} (hx : x ∉ cache.listNodes)
    (hgrown : ∀ n, n ∈ cache'.listNodes ↔ n = x ∨ n ∈ cache.listNodes) :
    cache'.listNodes.Perm (x :: cache.listNodes) := by
  rw [List.perm_ext_iff_of_nodup (nodup_listNodes cache')
    (List.nodup_cons.mpr ⟨hx, nodup_listNodes cache⟩)]
  simpa using hgrown

/-- The placement over the old nodes, and over the old nodes and a new one. -/
theorem regrouped_stripeNodes {cache' : MetadataCache} (hvol : EcVolume cfg cache k m)
    (hx : x ∉ cache.listNodes)
    (hgrown : ∀ n, n ∈ cache'.listNodes ↔ n = x ∨ n ∈ cache.listNodes)
    (hties : Rendezvous.NoTies (PlacementEngine.score blake3 cfg.volumeId start) cache.listNodes) :
    Regrouped (stripeNodes blake3 cfg cache (k + m) start)
      (stripeNodes blake3 cfg cache' (k + m) start) x where
  length := by
    have hlen : cache'.listNodes.length = cache.listNodes.length + 1 :=
      (perm_listNodes_of_grown hx hgrown).length_eq
    have hle := hvol.nodes_le
    rw [hvol.length_stripeNodes, stripeNodes, PlacementEngine.length_selectNodes]
    omega
  nodup := nodup_stripeNodes
  new := fun hmem => hx (mem_listNodes_of_mem_stripeNodes hmem)
  old := by
    intro n hn hne
    exact PlacementEngine.mem_selectNodes_of_grown hties hx (perm_listNodes_of_grown hx hgrown)
      hvol.nodes_le hn hne

/-- After the write, a read of the new placement finds the fragments of the old one. -/
theorem slotsOf_grown {v' : View} {o : OperationId} {nodes grown : List NodeId} {e : ExtentId}
    (hlen : nodes.length = word.length)
    (hgroup : Regrouped nodes grown x) (hnone : v.held x e = none)
    (hsent : Sent v v' (fun _ => true) e o (fragmentCalls blake3 cfg c env start nodes word)) :
    slotsOf v' (fun _ => true) e grown.length grown = foundSlots word nodes grown := by
  rw [slotsOf, Nat.sub_self, List.replicate_zero, List.append_nil, foundSlots]
  refine List.map_congr_left fun n hn => ?_
  show v'.held n e = _
  by_cases hne : n = x
  · subst hne
    -- the new node was sent nothing
    have hcalls : ∀ call ∈ fragmentCalls blake3 cfg c env start nodes word, call.nodeId ≠ n := by
      intro call hcall heq
      have hmem := List.mem_map_of_mem (f := WriteCall.nodeId) hcall
      rw [map_nodeId_fragmentCalls hlen.le, heq] at hmem
      exact hgroup.new hmem
    rw [hsent.others n hcalls, hnone, List.idxOf_eq_length hgroup.new, hlen]
    simp
  · have hlt := List.idxOf_lt_length_of_mem (hgroup.old n hn hne)
    have hplace : nodes[nodes.idxOf n]? = some n := by
      rw [List.getElem?_eq_getElem hlt, List.getElem_idxOf]
    have hfragment := List.getElem?_eq_getElem (hlen ▸ hlt : nodes.idxOf n < word.length)
    rw [hsent.fragment hplace hfragment, if_pos rfl, hfragment]

end Grown

/-! ## 2. Reads after growth -/

/-- **Which reads survive the growth of the cluster.**  A payload of a full extent is written under
the old node list and every node of the stripe stores its fragment; then a node is added that has
nothing.  With every node answering, a read of a block under the new list returns the bytes written
exactly when every byte of the block is restored from the places of the new placement. -/
theorem grown_cluster_read_iff (blake3 : Bytes → BitVec 256) (rs : ReedSolomon)
    (parity : Bytes → UInt8) (cfg : VolumeConfig) (cache cache' : MetadataCache) (k m : Nat)
    (hvol : EcVolume cfg cache k m) (hlaw : rs.Lawful k m) (hrepair : rs.RepairsOne k m parity)
    (b : Nat) (_hend : (b + 1 + cfg.extentBlocks) * cfg.blockSize < 2 ^ 64) (x : NodeId)
    (hx : x ∉ cache.listNodes)
    (hgrown : ∀ n, n ∈ cache'.listNodes ↔ n = x ∨ n ∈ cache.listNodes)
    (hties : Rendezvous.NoTies
      (PlacementEngine.score blake3 cfg.volumeId (alignedStart cfg b)) cache.listNodes)
    (σ : Type) (plane : DataPlane σ) (Shows : View → σ → Prop)
    (hserves : Serves plane blake3 ⟨cfg.volumeId, cache.epoch, cache'.listNodes,
      (· = stripeId blake3 cfg (alignedStart cfg b))⟩ (fun _ => true) (fun _ => true) Shows)
    (data : Bytes) (hdata : data.length = cfg.extentBlocks * cfg.blockSize) (word : List Bytes)
    (hword : (encodeData rs data k m).map EncodedStripe.shards = .ok word) (v : View) (s : σ)
    (hs : Shows v s) (hnone : v.held x (stripeId blake3 cfg (alignedStart cfg b)) = none)
    (c : Client) (hc : Settled cache c) (hp : c.paused = false) (env : ChunkEnv)
    (hfresh : ∀ n ∈ cache.listNodes, v.fresh n env.operationId) (c₁ : Client) (s₁ : σ)
    (epoch : EpochId)
    (hwrite : ecExecute plane blake3 rs env c s cfg.volumeId (alignedStart cfg b) data
      = (c₁, s₁, .ok (.committed epoch)))
    (c₂ : Client) (hc₂ : Settled cache' c₂) (env₂ : IoEnv) :
    (handleIo plane blake3 rs cfg env₂ c₂ s₁ (blockRead cfg b 1)).2.2
        = .ok (some (BlockDevice.slice cfg.blockSize data (b % cfg.extentBlocks))) ↔
      ∀ j, b % cfg.extentBlocks * cfg.blockSize ≤ j →
        j < (b % cfg.extentBlocks + 1) * cfg.blockSize →
        ByteRestored parity word (stripeNodes blake3 cfg cache (k + m) (alignedStart cfg b))
          (stripeNodes blake3 cfg cache' (k + m) (alignedStart cfg b)) k (fragmentSize k data) data
          j := by
  have hk := hvol.dataChunks_pos
  have hm := hvol.parityChunks_pos
  have hpos : 0 < cfg.extentBlocks * cfg.blockSize :=
    Nat.mul_pos (extentBlocks_pos cfg) hvol.blockSize_pos
  have hne : data ≠ [] := List.ne_nil_of_length_pos (hdata ▸ hpos)
  have hencodes : Encodes rs k m data word := by
    obtain ⟨word', hword'⟩ := hlaw.exists_encodes hk hne
    rw [hword'.encodeData hlaw.new hne, Except.map, EncodedStripe.shards_ofShards] at hword
    obtain rfl : word' = word := Except.ok.inj hword
    exact hword'
  -- the write, under the old node list
  have hserves₁ : Serves plane blake3 (volumeScope cfg cache
      (· = stripeId blake3 cfg (alignedStart cfg b))) (fun _ => true) (fun _ => true) Shows :=
    hserves.narrow rfl rfl (fun n hn => (hgrown n).mpr (Or.inr hn)) fun _ he => he
  obtain ⟨s', v', hstored, hs', hsent⟩ := ecExecute_stored hvol hc.same hp hlaw.new hne
    hencodes (by rfl) hfresh hs hserves₁
  rw [hstored] at hwrite
  obtain rfl : s' = s₁ := congrArg (fun r => r.2.1) hwrite
  -- the read, under the new one
  have hgroup : Regrouped (stripeNodes blake3 cfg cache (k + m) (alignedStart cfg b))
      (stripeNodes blake3 cfg cache' (k + m) (alignedStart cfg b)) x :=
    regrouped_stripeNodes hvol hx hgrown hties
  have hcount : (stripeNodes blake3 cfg cache (k + m) (alignedStart cfg b)).length = k + m :=
    hvol.length_stripeNodes _
  have hlen := hcount.trans hencodes.shards.length.symm
  have hslots := slotsOf_grown hlen hgroup hnone hsent
  rw [hgroup.length, hcount] at hslots
  obtain ⟨shards, hrec, hshards, hbytes⟩ := reconstruct_foundSlots hrepair hk hm hencodes hgroup
    hcount hne
  -- only one place can be empty
  have hsome : ¬ (foundSlots word (stripeNodes blake3 cfg cache (k + m) (alignedStart cfg b))
      (stripeNodes blake3 cfg cache' (k + m) (alignedStart cfg b))).all Option.isNone = true := by
    intro hall
    have hle := hgroup.countP_foundSlots hlen.symm
    rw [List.countP_eq_length.mpr (List.all_eq_true.mp hall), foundSlots, List.length_map,
      hgroup.length, hcount] at hle
    omega
  rw [handleRead_row hserves hvol.policy hvol.blockSize_pos hlaw.new hc₂ (fun _ hn => hn) rfl hslots
    hsome hrec hshards (hdata ▸ Stripe.le_mul_pieceSize hk) env₂ hs', Except.ok.injEq,
    Option.some.injEq, BlockDevice.slice_eq_iff]
  refine forall_congr' fun j => forall_congr' fun _ => forall_congr' fun hlt => hbytes j ?_
  rw [hdata]
  exact Nat.lt_of_lt_of_le hlt (Nat.mul_le_mul_right _ (Nat.mod_lt _ (extentBlocks_pos cfg)))

/-! ## 3. Samples -/

/-- What is hashed to place extent 0 of the sample volume on a node. -/
def placementInput (n : NodeId) : Bytes :=
  PlacementEngine.placementDomain ++ (⟨7#128⟩ : VolumeId).asBytes ++ leBytes 8 0 ++ n.asBytes

/-- BLAKE3 of what the growing cluster hashes. -/
def growthBlake3 (input : Bytes) : BitVec 256 :=
  if input = placementInput ⟨2#128⟩ then
    0x5ce783b2681771f9df686ad938d7c9632d7438fb370545376cc11881066ac53c#256
  else if input = placementInput ⟨3#128⟩ then
    0x6e416a4f559aefa4b368ed7016c9c3c1285a715073c27d6725890755f86e5164#256
  else if input = placementInput ⟨4#128⟩ then
    0x683a73f54b52ba7d9b8836cea81862b2d81d72ebb282b922f35d904b81100acb#256
  else if input = placementInput ⟨5#128⟩ then
    0x04b0a83b336ab96f4f3b4df7b36362b357c755de1c1d4afec8ab23076246c148#256
  else if input = [7] then
    0x448bd8dd9624154a690f8e84dc52d6f633ba7cd545c4d3c9b4e0f6a2f6fa71f4#256
  else stripeBlake3 input

abbrev sampleScore : NodeId → Nat := PlacementEngine.score growthBlake3 ⟨7#128⟩ 0

theorem copyCode_repairsOne {m : Nat} (hm : 1 ≤ m) :
    copyCode.RepairsOne 1 m fun bytes => bytes.headD 0 where
  repair := by
    intro size slots _ hlen hsize hholes
    have hleft : slots.countP Option.isNone < slots.length := by omega
    obtain ⟨first, hfirst, hmem, hrec⟩ := copyCode_reconstruct 1 m hleft
    refine ⟨_, hrec, ⟨by rw [List.length_map, hlen], ?_⟩, ?_, ?_⟩
    · intro shard hshard
      obtain ⟨slot, hslot, rfl⟩ := List.mem_map.mp hshard
      cases slot with
      | none => exact hsize first hmem
      | some shard => exact hsize shard hslot
    · rw [Remains, List.forall₂_map_left_iff, List.forall₂_same]
      intro slot _
      cases slot with
      | none => exact Or.inl rfl
      | some shard => exact Or.inr rfl
    · intro r hr hnone t ht
      obtain rfl : r = 0 := Nat.lt_one_iff.mp hr
      -- the data shard is missing, so that the first one there is the first parity shard
      rcases slots with _ | ⟨slot, _ | ⟨next, slots⟩⟩
      · cases hnone
      · simp at hlen
        omega
      · obtain rfl : slot = none := by simpa using hnone
        cases next with
        | none => simp at hholes
        | some shard =>
          obtain rfl : shard = first := by simpa using hfirst
          have hshard := hsize shard hmem
          simp [column, hshard, ht]
  injective := by
    intro bytes r a a' hlen hr heq
    obtain rfl : r = 0 := Nat.lt_one_iff.mp hr
    obtain ⟨byte, rfl⟩ := List.length_eq_one_iff.mp hlen
    simpa using heq

def grownCache : MetadataCache :=
  { pairedCache with clusterMap := pairedCache.clusterMap.insert ⟨4#128⟩ "10.0.0.4:7400" }

theorem listNodes_grown : grownCache.listNodes = [⟨2#128⟩, ⟨3#128⟩, ⟨4#128⟩] := by decide

theorem stripeNodes_grown :
    stripeNodes growthBlake3 pairedVolume grownCache (1 + 1) 0 = [⟨4#128⟩, ⟨3#128⟩] := by
  have hranked : Rendezvous.ranked sampleScore [⟨2#128⟩, ⟨3#128⟩, ⟨4#128⟩]
      = [⟨4#128⟩, ⟨3#128⟩, ⟨2#128⟩] :=
    Rendezvous.ranked_eq (by unfold Rendezvous.NoTies; decide) (by decide) (by decide)
  rw [stripeNodes, listNodes_grown, PlacementEngine.selectNodes_of_lt (by decide),
    Rendezvous.lowest]
  exact congrArg (List.take 2) hranked

/-- Node 4 joins nodes 2 and 3 and takes the place of the data fragment: block 1 is repaired from
the parity fragment. -/
theorem grown_cluster_read_iff_repaired :
    let written := ecExecute shelf growthBlake3 copyCode ((idsFrom 31).chunk 0) pairedClient
      (fun _ _ => none) ⟨7#128⟩ 0 [1, 2]
    written.2.2 = .ok (.committed 1) ∧
      (handleIo shelf growthBlake3 copyCode pairedVolume (idsFrom 41)
        { pairedClient with cache := grownCache } written.2.1 (blockRead pairedVolume 1 1)).2.2
          = .ok (some [2]) := by
  refine ⟨rfl, ?_⟩
  have hties : Rendezvous.NoTies sampleScore pairedCache.listNodes := by
    unfold Rendezvous.NoTies
    decide
  have hgrown : ∀ n, n ∈ grownCache.listNodes ↔ n = ⟨4#128⟩ ∨ n ∈ pairedCache.listNodes := by
    intro n
    rw [listNodes_grown, listNodes_paired]
    simp only [List.mem_cons, List.not_mem_nil, or_false]
    tauto
  refine (grown_cluster_read_iff growthBlake3 copyCode (fun bytes => bytes.headD 0) pairedVolume
    pairedCache grownCache 1 1 ecVolume_paired (copyCode_lawful ⟨le_rfl, by decide⟩)
    (copyCode_repairsOne le_rfl) 1 (by decide) ⟨4#128⟩ (by decide) hgrown hties _ shelf _
    (serves_shelf _ _) [1, 2] rfl [[1, 2], [1, 2]] rfl ⟨fun _ _ => none, fun _ _ => True⟩ _ rfl rfl
    pairedClient settled_paired rfl ((idsFrom 31).chunk 0) (fun _ _ => trivial) _ _ 1 rfl
    { pairedClient with cache := grownCache } ⟨rfl, Nat.zero_le _⟩ (idsFrom 41)).mpr ?_
  intro j hge hlt
  obtain rfl : j = 1 := Nat.le_antisymm (Nat.lt_succ_iff.mp hlt) hge
  have hnodes : stripeNodes growthBlake3 pairedVolume pairedCache (1 + 1) 0
      = [⟨2#128⟩, ⟨3#128⟩] := by
    decide
  show ByteRestored _ _ (stripeNodes growthBlake3 pairedVolume pairedCache (1 + 1) 0)
    (stripeNodes growthBlake3 pairedVolume grownCache (1 + 1) 0) _ _ _ _
  rw [hnodes, stripeNodes_grown]
  exact (rfl : some (2 : UInt8) = some 2)

def stripedVolume : VolumeConfig := { smallVolume with protection := .erasureCoded 2 1 }

def stripedCache : MetadataCache where
  epoch := 1
  clusterMap := (((∅ : BTreeMap NodeId String).insert ⟨3#128⟩ "10.0.0.3:7400").insert ⟨4#128⟩
    "10.0.0.4:7400").insert ⟨5#128⟩ "10.0.0.5:7400"
  volumes := (∅ : BTreeMap VolumeId CachedVolumeInfo).insert ⟨7#128⟩ ⟨.erasureCoded 2 1⟩

def widerCache : MetadataCache :=
  { stripedCache with clusterMap := stripedCache.clusterMap.insert ⟨2#128⟩ "10.0.0.2:7400" }

def stripedClient : Client := { smallClient with cache := stripedCache }

def widerClient : Client := { smallClient with cache := widerCache }

/-- Node 2 is not in the new placement, and the places of the others are turned round. -/
theorem stripeNodes_wider :
    stripeNodes growthBlake3 stripedVolume widerCache (2 + 1) 0 = [⟨5#128⟩, ⟨4#128⟩, ⟨3#128⟩] := by
  have hnodes : widerCache.listNodes = [⟨2#128⟩, ⟨3#128⟩, ⟨4#128⟩, ⟨5#128⟩] := by decide
  have hranked : Rendezvous.ranked sampleScore [⟨2#128⟩, ⟨3#128⟩, ⟨4#128⟩, ⟨5#128⟩]
      = [⟨5#128⟩, ⟨4#128⟩, ⟨3#128⟩, ⟨2#128⟩] :=
    Rendezvous.ranked_eq (by unfold Rendezvous.NoTies; decide) (by decide) (by decide)
  rw [stripeNodes, hnodes, PlacementEngine.selectNodes_of_lt (by decide), Rendezvous.lowest]
  exact congrArg (List.take 3) hranked

/-- **Growth that turns a stripe round.**  `[1, 2]` is stored on nodes 3, 4 and 5: 1, 2 and the
parity 7.  Node 2 is added and takes no fragment's place; but with four nodes the places are ordered
by score, node 5 comes first, and block 0 reads as the parity byte. -/
theorem grown_cluster_misread :
    let written := ecExecute shelf growthBlake3 pairCode ((idsFrom 31).chunk 0) stripedClient
      (fun _ _ => none) ⟨7#128⟩ 0 [1, 2]
    written.2.2 = .ok (.committed 1) ∧
      (handleIo shelf growthBlake3 pairCode stripedVolume (idsFrom 41) widerClient written.2.1
        (blockRead stripedVolume 0 1)).2.2 = .ok (some [7]) := by
  refine ⟨rfl, ?_⟩
  -- what the nodes hold after the write
  obtain ⟨held, hheld⟩ : ∃ held, held = (ecExecute shelf growthBlake3 pairCode
    ((idsFrom 31).chunk 0) stripedClient (fun _ _ => none) ⟨7#128⟩ 0 [1, 2]).2.1 := ⟨_, rfl⟩
  have hslots : slotsOf ⟨held, fun _ _ => True⟩ (fun _ => true)
      (stripeId growthBlake3 stripedVolume 0) (2 + 1)
      (stripeNodes growthBlake3 stripedVolume widerCache (2 + 1) 0)
      = [some [7], some [2], some [1]] := by
    rw [stripeNodes_wider, hheld]
    rfl
  have hsettled : Settled widerCache widerClient := ⟨rfl, Nat.zero_le _⟩
  have hshards : Shards (2 + 1) 1 [[7], [2], [1]] := ⟨rfl, by decide⟩
  have hserves := serves_shelf growthBlake3 (volumeScope stripedVolume widerCache fun _ => True)
  have haligned : alignedStart stripedVolume 0 = 0 := rfl
  rw [← haligned] at hslots
  have hread := handleRead_row hserves (rfl : stripedVolume.protection = .erasureCoded 2 1)
    (by decide) (rfl : pairCode.new 2 1 = .ok ()) hsettled (fun _ hn => hn) trivial hslots
    (by decide) rfl hshards (by decide) (idsFrom 41) rfl
  rw [hheld] at hread
  exact hread

end Blockyard.Ublk
