/-
# Deterministic placement

`blockyard-common`, `placement.rs`: extent ids and replica sets are COMPUTED from the volume
and the extent number, by the writer and by every reader, so that locating data needs no
consensus.  The extent id is a truncated BLAKE3 digest; replicas are chosen by rendezvous
hashing, one digest per candidate node.  The digest function is a parameter.
-/
import Blockyard.Common.Types
import Blockyard.Lib.Rendezvous

namespace Blockyard

/-! ## 1. Bytes of numbers -/

/-- `to_le_bytes`: the `n` lowest bytes of a number, lowest first. -/
def leBytes (n x : Nat) : Bytes := (List.range n).map fun i => UInt8.ofNat (x / 256 ^ i % 256)

/-- `from_le_bytes`. -/
def ofLeBytes (bytes : Bytes) : Nat := bytes.foldr (fun b acc => b.toNat + 256 * acc) 0

def Uid.asBytes {k : IdKind} (u : Uid k) : Bytes := (leBytes 16 u.uuid.toNat).reverse

namespace PlacementEngine

/-- The bytes of `blockyard.extent.v1`. -/
def extentDomain : Bytes :=
  [98, 108, 111, 99, 107, 121, 97, 114, 100, 46, 101, 120, 116, 101, 110, 116, 46, 118, 49]

/-- The bytes of `blockyard.placement.v1`. -/
def placementDomain : Bytes :=
  [98, 108, 111, 99, 107, 121, 97, 114, 100, 46, 112, 108, 97, 99, 101, 109, 101, 110, 116, 46, 118,
    49]

variable (blake3 : Bytes → BitVec 256)

/-! ## 2. Extents -/

/-- `extent_id_for_extent`: the first 16 bytes of the digest. -/
def extentIdForExtent (volumeId : VolumeId) (extentNum : Nat) : ExtentId :=
  ⟨(blake3 (extentDomain ++ volumeId.asBytes ++ leBytes 8 extentNum)).extractLsb' 128 128⟩

/-- `block_to_extent`: the extent of a block, and the block's place in it. -/
def blockToExtent (blockNum extentBlocks : Nat) : Nat × Nat :=
  (blockNum / max extentBlocks 1, blockNum % max extentBlocks 1)

/-- `extent_version`: overwrites reuse the version. -/
def extentVersion : Nat := 1

/-! ## 3. Nodes -/

/-- The score of a node: the first 8 bytes of the digest, lowest first. -/
def score (volumeId : VolumeId) (blockNum : Nat) (nodeId : NodeId) : Nat :=
  ofLeBytes (leBytes 8 ((blake3 (placementDomain ++ volumeId.asBytes ++ leBytes 8 blockNum
    ++ nodeId.asBytes)).toNat / 2 ^ 192)).reverse

/-- `select_nodes`: all nodes when there are not more than wanted, else those with the lowest
scores. -/
def selectNodes (volumeId : VolumeId) (blockNum : Nat) (availableNodes : List NodeId)
    (count : Nat) : List NodeId :=
  if availableNodes.length ≤ count then availableNodes
  else
    let scored := availableNodes.map fun nodeId => (score blake3 volumeId blockNum nodeId, nodeId)
    ((scored.mergeSort fun a b => a.1 ≤ b.1).take count).map Prod.snd

/-- `select_ec_nodes`; the chunk counts are added as `u8`, here in a build that wraps. -/
def selectEcNodes (volumeId : VolumeId) (blockNum : Nat) (availableNodes : List NodeId)
    (dataChunks parityChunks : Nat) : List NodeId :=
  selectNodes blake3 volumeId blockNum availableNodes ((dataChunks + parityChunks) % 256)

variable {blake3} {volumeId : VolumeId} {blockNum count : Nat} {availableNodes : List NodeId}

theorem selectNodes_sublist (volumeId : VolumeId) (blockNum : Nat) (availableNodes : List NodeId)
    (count : Nat) :
    ∃ l, (selectNodes blake3 volumeId blockNum availableNodes count).Sublist l ∧
      l.Perm availableNodes := by
  unfold selectNodes
  split
  · exact ⟨availableNodes, List.Sublist.refl _, List.Perm.refl _⟩
  · refine ⟨_, (List.take_sublist count _).map Prod.snd, ?_⟩
    have hsnd : (availableNodes.map fun nodeId =>
        (score blake3 volumeId blockNum nodeId, nodeId)).map Prod.snd = availableNodes := by
      rw [List.map_map]
      exact List.map_id availableNodes
    exact ((List.mergeSort_perm _ _).map Prod.snd).trans (List.Perm.of_eq hsnd)

theorem mem_of_mem_selectNodes {nodeId : NodeId}
    (h : nodeId ∈ selectNodes blake3 volumeId blockNum availableNodes count) :
    nodeId ∈ availableNodes := by
  obtain ⟨l, hsub, hperm⟩ := selectNodes_sublist volumeId blockNum availableNodes count
  exact hperm.mem_iff.mp (hsub.mem h)

theorem nodup_selectNodes (h : availableNodes.Nodup)
    (volumeId : VolumeId) (blockNum count : Nat) :
    (selectNodes blake3 volumeId blockNum availableNodes count).Nodup := by
  obtain ⟨l, hsub, hperm⟩ := selectNodes_sublist volumeId blockNum availableNodes count
  exact hsub.nodup (hperm.nodup_iff.mpr h)

theorem length_selectNodes (volumeId : VolumeId) (blockNum : Nat) (availableNodes : List NodeId)
    (count : Nat) :
    (selectNodes blake3 volumeId blockNum availableNodes count).length
      = min count availableNodes.length := by
  unfold selectNodes
  split
  · rw [Nat.min_eq_right (by omega)]
  · simp

/-- When there are more nodes than wanted, those with the lowest scores are selected. -/
theorem selectNodes_of_lt (h : count < availableNodes.length) :
    selectNodes blake3 volumeId blockNum availableNodes count
      = Rendezvous.lowest (score blake3 volumeId blockNum) count availableNodes := by
  unfold selectNodes Rendezvous.lowest
  rw [if_neg (Nat.not_le.mpr h), List.map_take, Rendezvous.map_snd_mergeSort]

/-- **Growth displaces nobody but for the new node**: whoever is selected after a node was added,
and is not that node, was selected before. -/
theorem mem_selectNodes_of_grown {nodes nodes' : List NodeId} {x y : NodeId}
    (hties : Rendezvous.NoTies (score blake3 volumeId blockNum) nodes) (hx : x ∉ nodes)
    (hperm : nodes'.Perm (x :: nodes)) (hcount : count ≤ nodes.length)
    (hy : y ∈ selectNodes blake3 volumeId blockNum nodes' count) (hne : y ≠ x) :
    y ∈ selectNodes blake3 volumeId blockNum nodes count := by
  have hlen : nodes'.length = nodes.length + 1 := hperm.length_eq
  rcases Nat.lt_or_eq_of_le hcount with hlt | rfl
  · rw [selectNodes_of_lt (by omega)] at hy
    rw [selectNodes_of_lt hlt]
    exact Rendezvous.mem_lowest_of_grown hties hx hperm hy hne
  · -- all of the old nodes were selected
    have hmem := hperm.mem_iff.mp (mem_of_mem_selectNodes hy)
    rw [selectNodes, if_pos le_rfl]
    exact (List.mem_cons.mp hmem).resolve_left hne

/-! ## 4. How little a selection changes -/

section Changes

variable {extentNum : Nat} {nodes nodes' : List NodeId} {x : NodeId}

theorem subperm_selectNodes (volumeId : VolumeId) (extentNum : Nat) (nodes : List NodeId)
    (count : Nat) : (selectNodes blake3 volumeId extentNum nodes count).Subperm nodes := by
  obtain ⟨l, hsub, hperm⟩ := selectNodes_sublist volumeId extentNum nodes count
  exact hsub.subperm.trans hperm.subperm

theorem perm_selectNodes (hties : Rendezvous.NoTies (score blake3 volumeId extentNum) nodes)
    (hperm : nodes'.Perm nodes) :
    (selectNodes blake3 volumeId extentNum nodes' count).Perm
      (selectNodes blake3 volumeId extentNum nodes count) := by
  have hlen := hperm.length_eq
  by_cases hall : nodes.length ≤ count
  · rw [selectNodes, selectNodes, if_pos hall, if_pos (by omega)]
    exact hperm
  · rw [selectNodes_of_lt (by omega), selectNodes_of_lt (by omega),
      Rendezvous.lowest_eq_of_perm hties hperm]

/-- What a new node displaces: nobody who was not selected gets in, at most one goes, and none
when the new node is not selected itself. -/
structure Displaces (x : NodeId) (before after : Finset NodeId) : Prop where
  onlyNew : after ⊆ insert x before
  atMostOne : (before \ after).card ≤ 1
  onlyForNew : x ∉ after → before ⊆ after

theorem selectNodes_grown_subset
    (hties : Rendezvous.NoTies (score blake3 volumeId extentNum) nodes) (hx : x ∉ nodes)
    (hperm : nodes'.Perm (x :: nodes)) :
    (selectNodes blake3 volumeId extentNum nodes' count).toFinset
      ⊆ insert x (selectNodes blake3 volumeId extentNum nodes count).toFinset := by
  intro y hy
  rw [List.mem_toFinset] at hy
  rw [Finset.mem_insert, List.mem_toFinset]
  refine or_iff_not_imp_left.mpr fun hne => ?_
  by_cases hcount : count ≤ nodes.length
  · exact mem_selectNodes_of_grown hties hx hperm hcount hy hne
  · rw [selectNodes, if_pos (by omega)]
    exact (List.mem_cons.mp (hperm.mem_iff.mp (mem_of_mem_selectNodes hy))).resolve_left hne

/-- **A new node displaces at most one other**, whose place it takes. -/
theorem selectNodes_displaces (hnodup : nodes.Nodup)
    (hties : Rendezvous.NoTies (score blake3 volumeId extentNum) nodes) (hx : x ∉ nodes)
    (hperm : nodes'.Perm (x :: nodes)) :
    Displaces x (selectNodes blake3 volumeId extentNum nodes count).toFinset
      (selectNodes blake3 volumeId extentNum nodes' count).toFinset := by
  have hlen : nodes'.length = nodes.length + 1 := hperm.length_eq
  have hnodup' : nodes'.Nodup := hperm.nodup_iff.mpr (List.nodup_cons.mpr ⟨hx, hnodup⟩)
  have honly : (selectNodes blake3 volumeId extentNum nodes' count).toFinset
      ⊆ insert x (selectNodes blake3 volumeId extentNum nodes count).toFinset :=
    selectNodes_grown_subset hties hx hperm
  refine ⟨honly, ?_, fun hout => ?_⟩
  · -- the selection does not shrink, so as many go as get in
    have hcards : (selectNodes blake3 volumeId extentNum nodes count).toFinset.card
        ≤ (selectNodes blake3 volumeId extentNum nodes' count).toFinset.card := by
      rw [List.toFinset_card_of_nodup (nodup_selectNodes hnodup _ _ _),
        List.toFinset_card_of_nodup (nodup_selectNodes hnodup' _ _ _), length_selectNodes,
        length_selectNodes]
      omega
    refine (Finset.card_sdiff_le_card_sdiff_iff.mpr hcards).trans ?_
    refine Finset.card_le_one.mpr fun a ha b hb => ?_
    have hnew : ∀ a ∈ (selectNodes blake3 volumeId extentNum nodes' count).toFinset
        \ (selectNodes blake3 volumeId extentNum nodes count).toFinset, a = x := by
      intro a ha
      rw [Finset.mem_sdiff] at ha
      exact (Finset.mem_insert.mp (honly ha.1)).resolve_right ha.2
    rw [hnew a ha, hnew b hb]
  · rw [List.mem_toFinset] at hout
    have hxmem : x ∈ nodes' := hperm.mem_iff.mpr List.mem_cons_self
    have hlt : count < nodes'.length := by
      by_contra hle
      rw [selectNodes, if_pos (Nat.le_of_not_lt hle)] at hout
      exact hout hxmem
    rw [selectNodes_of_lt hlt] at hout ⊢
    rw [← Rendezvous.lowest_eq_of_grown hties hx hperm hout]
    intro y hy
    rw [List.mem_toFinset] at hy ⊢
    rcases Nat.lt_or_ge count nodes.length with hcount | hcount
    · rwa [selectNodes_of_lt hcount] at hy
    · -- everybody was selected, and still is
      have hall : (Rendezvous.lowest (score blake3 volumeId extentNum) count nodes).length
          = nodes.length := by
        rw [Rendezvous.length_lowest, Nat.min_eq_right hcount]
      have hperm' := (Rendezvous.subperm_lowest count nodes).perm_of_length_le hall.ge
      exact hperm'.mem_iff.mpr (mem_of_mem_selectNodes hy)

/-- **A node that is not selected may leave** unnoticed when enough others stay. -/
theorem selectNodes_erase (hnodup : nodes.Nodup)
    (hties : Rendezvous.NoTies (score blake3 volumeId extentNum) nodes) (hx : x ∈ nodes)
    (hlong : count + 1 < nodes.length)
    (hout : x ∉ selectNodes blake3 volumeId extentNum nodes count) :
    selectNodes blake3 volumeId extentNum (nodes.erase x) count
      = selectNodes blake3 volumeId extentNum nodes count := by
  have hlen : (nodes.erase x).length = nodes.length - 1 := List.length_erase_of_mem hx
  rw [selectNodes_of_lt (by omega)] at hout ⊢
  rw [selectNodes_of_lt (by omega)]
  refine Rendezvous.lowest_eq_of_grown (fun a ha b hb => ?_) (hnodup.not_mem_erase)
    (List.perm_cons_erase hx) hout
  exact hties a (List.mem_of_mem_erase ha) b (List.mem_of_mem_erase hb)

end Changes

/-- **Placement changes minimally.** -/
theorem selectNodes_changes_minimally (volumeId : VolumeId) (extentNum count : Nat)
    (nodes : List NodeId) (x : NodeId) (hnodup : nodes.Nodup) (hx : x ∉ nodes)
    (hties : Rendezvous.NoTies (score blake3 volumeId extentNum) (x :: nodes)) :
    let select := fun nodes => selectNodes blake3 volumeId extentNum nodes count
    ((select nodes).Nodup ∧ (select nodes).Subperm nodes ∧
        (select nodes).length = min count nodes.length) ∧
      (∀ nodes', nodes'.Perm nodes → (select nodes').toFinset = (select nodes).toFinset) ∧
      (count < nodes.length →
        Rendezvous.InOrder (score blake3 volumeId extentNum) (select nodes) nodes) ∧
      (∀ nodes', nodes'.Perm (x :: nodes) →
        Displaces x (select nodes).toFinset (select nodes').toFinset) ∧
      ∀ y ∈ nodes, y ∉ select nodes → count + 1 < nodes.length →
        select (nodes.erase y) = select nodes := by
  have hold : Rendezvous.NoTies (score blake3 volumeId extentNum) nodes := fun a ha b hb =>
    hties a (List.mem_cons_of_mem _ ha) b (List.mem_cons_of_mem _ hb)
  refine ⟨⟨nodup_selectNodes hnodup _ _ _, subperm_selectNodes _ _ _ _, length_selectNodes _ _ _ _⟩,
    fun nodes' hperm => ?_, fun hcount => ?_, fun nodes' hperm => ?_, fun y hy hout hlong => ?_⟩
  · exact List.toFinset_eq_of_perm _ _ (perm_selectNodes hold hperm)
  · dsimp only
    rw [selectNodes_of_lt hcount]
    exact Rendezvous.inOrder_lowest hnodup hold count
  · exact selectNodes_displaces hnodup hold hx hperm
  · exact selectNodes_erase hnodup hold hy hlong hout

/-- Two nodes and a third, told apart by their last byte. -/
theorem selectNodes_changes_minimally_two :
    ((⟨3⟩ : NodeId) ∉ [⟨1⟩, ⟨2⟩]) ∧
      Displaces (⟨3⟩ : NodeId)
        (selectNodes (fun b => BitVec.ofNat 256 ((b.getLastD 0).toNat * 2 ^ 192)) ⟨7⟩ 0
          [⟨1⟩, ⟨2⟩] 1).toFinset
        (selectNodes (fun b => BitVec.ofNat 256 ((b.getLastD 0).toNat * 2 ^ 192)) ⟨7⟩ 0
          [⟨3⟩, ⟨1⟩, ⟨2⟩] 1).toFinset :=
  ⟨by decide,
    (selectNodes_changes_minimally ⟨7⟩ 0 1 [⟨1⟩, ⟨2⟩] ⟨3⟩ (by decide) (by decide)
      (by unfold Rendezvous.NoTies; decide +kernel)).2.2.2.1 _ (List.Perm.refl _)⟩

end PlacementEngine

end Blockyard
