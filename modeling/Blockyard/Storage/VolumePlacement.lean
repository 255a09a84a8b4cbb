/-
# Where the extents of a volume go

`blockyard-storage`, `placement.rs` (`place_volume`): the disks that may be allocated on are
grouped by the listed node that owns them, the disks of a node are sorted by free space, the
nodes by their total free space, and extent `i` takes one disk from each of the next `replicas`
(or `K + M`) nodes, counting from node `i` around the sorted list.  A round of the list moves on
to the next disk of each node.

The grouping and the sorting come down to three facts about the list of nodes (`Round`).  From
these, and because an arc of the circle no longer than the circle meets no node twice
(`rotate_injective`), every extent gets its disks on different nodes (`placeVolume_spreads`).
-/
import Blockyard.Common.Types

open Std

namespace Blockyard.Storage

/-! ## 1. The placement engine -/

structure PlacementDisk where
  diskId : DiskId
  nodeId : NodeId
  capacityBytes : Nat
  usedBytes : Nat
  state : DiskState
  deriving DecidableEq, Repr

def PlacementDisk.freeBytes (d : PlacementDisk) : Nat := d.capacityBytes - d.usedBytes

structure PlacementNode where
  nodeId : NodeId
  deriving DecidableEq, Repr

structure ExtentPlacement where
  extentId : ExtentId
  primaryDisk : DiskId
  replicaDisks : List DiskId
  fragmentDisks : List DiskId
  deriving DecidableEq, Repr

inductive PlacementError
  | insufficientNodes (required available : Nat)
  | insufficientDisks (required available : Nat)
  | noHealthyDisks
  | invalidPolicy (msg : String)
  deriving DecidableEq, Repr

structure PlacementVolumeInfo where
  sizeBytes : Nat
  protection : ProtectionPolicy
  extentSizeBytes : Nat
  deriving DecidableEq, Repr

/-- A sum of `u64`; `none` is the overflow panic. -/
def sumU64 (ovf : Overflow) (xs : List Nat) : Option Nat := xs.foldlM (addU64 ovf) 0

/-- `a + b` on `u8`; `none` is the overflow panic. -/
def addU8 (ovf : Overflow) (a b : Nat) : Option Nat :=
  if a + b < 2 ^ 8 then some (a + b)
  else match ovf with
    | .wrapping => some ((a + b) % 2 ^ 8)
    | .checked => none

/-- The disks by the listed node that owns them, in the order of the argument. -/
def groupDisks (nodeSet : HashMap NodeId Bool) (allocatable : List PlacementDisk) :
    HashMap NodeId (List PlacementDisk) :=
  allocatable.foldl
    (fun nodeDisks d =>
      if d.nodeId ∈ nodeSet then
        nodeDisks.insert d.nodeId ((nodeDisks[d.nodeId]?).getD [] ++ [d])
      else nodeDisks) ∅

/-- `sort_by_key(|d| Reverse(d.free_bytes()))`, a stable sort. -/
def sortDisks (disks : List PlacementDisk) : List PlacementDisk :=
  disks.mergeSort fun a b => b.freeBytes ≤ a.freeBytes

/-- `node_set`. -/
def nodeSetOf (nodes : List PlacementNode) : HashMap NodeId Bool :=
  nodes.foldl (fun set n => set.insert n.nodeId true) ∅

/-- `node_disks`, sorted. -/
def nodeDisksOf (disks : List PlacementDisk) (nodes : List PlacementNode) :
    HashMap NodeId (List PlacementDisk) :=
  (groupDisks (nodeSetOf nodes) (disks.filter (·.state.allowsAllocation))).map
    fun _ => sortDisks

/-- `sorted_nodes`: a scan of the hash map, then a stable sort. -/
def sortedNodesOf (ovf : Overflow) (order : IterOrder NodeId)
    (nodeDisks : HashMap NodeId (List PlacementDisk)) : Option (List (NodeId × Nat)) :=
  ((order.keys nodeDisks).mapM fun nodeId =>
    (sumU64 ovf (((nodeDisks[nodeId]?).getD []).map PlacementDisk.freeBytes)).map
      fun totalFree => (nodeId, totalFree)).map
    fun totals => totals.mergeSort fun a b => b.2 ≤ a.2

/-- Disk `j` of extent `i`; `none` is an index out of bounds. -/
def pickDisk (nodeDisks : HashMap NodeId (List PlacementDisk)) (sortedNodes : List (NodeId × Nat))
    (i j : Nat) : Option DiskId := do
  let availableNodes := sortedNodes.length
  let (nodeId, _) ← sortedNodes[(i % availableNodes + j) % availableNodes]?
  let nodeDiskList ← nodeDisks[nodeId]?
  let disk ← nodeDiskList[i / availableNodes % nodeDiskList.length]?
  return disk.diskId

/-- The disks of extent `i`. -/
def selectDisks (nodeDisks : HashMap NodeId (List PlacementDisk))
    (sortedNodes : List (NodeId × Nat)) (required i : Nat) : Option (List DiskId) :=
  (List.range required).mapM (pickDisk nodeDisks sortedNodes i)

def placementOf (protection : ProtectionPolicy) (extentId : ExtentId) :
    List DiskId → Option ExtentPlacement
  | [] => none
  | primary :: rest =>
    match protection with
    | .replicated _ => some ⟨extentId, primary, rest, []⟩
    | .erasureCoded _ _ => some ⟨extentId, primary, [], primary :: rest⟩

/-- The body of the placing loop. -/
def placeExtent (nodeDisks : HashMap NodeId (List PlacementDisk))
    (sortedNodes : List (NodeId × Nat)) (required : Nat) (protection : ProtectionPolicy)
    (generate : Nat → ExtentId) (i : Nat) : Option ExtentPlacement :=
  (selectDisks nodeDisks sortedNodes required i).bind (placementOf protection (generate i))

/-- `num_extents`; `none` is the division by zero of `div_ceil`. -/
def numExtents (volume : PlacementVolumeInfo) : Option Nat :=
  if volume.sizeBytes = 0 then some 0
  else if volume.extentSizeBytes = 0 then none
  else some ((volume.sizeBytes + volume.extentSizeBytes - 1) / volume.extentSizeBytes)

/-- `required_nodes` and `total_fragments`. -/
def requiredNodes (ovf : Overflow) : ProtectionPolicy → Option Nat
  | .replicated replicas => some replicas
  | .erasureCoded dataChunks parityChunks => addU8 ovf dataChunks parityChunks

/-- The size of an `ExtentPlacement`: two ids of 16 bytes and two vectors of 24. -/
def placementBytes : Nat := 80

/-- `PlacementEngine::place_volume`; `generate i` is the identifier extent `i` gets, and `none` is
a panic. -/
def placeVolume (ovf : Overflow) (order : IterOrder NodeId) (generate : Nat → ExtentId)
    (volume : PlacementVolumeInfo) (disks : List PlacementDisk) (nodes : List PlacementNode) :
    Option (Except PlacementError (List ExtentPlacement)) :=
  match volume.protection.validate with
  | .error e => some (.error (.invalidPolicy (toString e)))
  | .ok () =>
    if (disks.filter (·.state.allowsAllocation)).isEmpty then some (.error .noHealthyDisks)
    else do
      let nodeDisks := nodeDisksOf disks nodes
      let sortedNodes ← sortedNodesOf ovf order nodeDisks
      let count ← numExtents volume
      let required ← requiredNodes ovf volume.protection
      if sortedNodes.length < required then
        return .error (.insufficientNodes required sortedNodes.length)
      -- `Vec::with_capacity` panics at a capacity of more than `isize::MAX` bytes
      else if 2 ^ 63 ≤ placementBytes * count then none
      else
        let placements ← (List.range count).mapM
          (placeExtent nodeDisks sortedNodes required volume.protection generate)
        return .ok placements

/-! ## 2. Sums, scans and arcs -/

theorem sumU64_of_lt (ovf : Overflow) {xs : List Nat} (h : xs.sum < 2 ^ 64) :
    sumU64 ovf xs = some xs.sum := by
  -- the accumulator is the sum of what is behind it
  have hfold : ∀ (ys : List Nat) (a : Nat), a + ys.sum < 2 ^ 64 →
      ys.foldlM (addU64 ovf) a = some (a + ys.sum) := by
    intro ys
    induction ys with
    | nil => intro a _; simp
    | cons y ys ih =>
      intro a ha
      rw [List.sum_cons, ← Nat.add_assoc] at ha ⊢
      rw [List.foldlM_cons, addU64_of_lt ovf (by omega)]
      exact ih (a + y) ha
  simpa [sumU64] using hfold xs 0 (by simpa using h)

theorem mapM_eq_some_map {α β : Type} {f : α → Option β} {g : α → β} {xs : List α}
    (h : ∀ x ∈ xs, f x = some (g x)) : xs.mapM f = some (xs.map g) := by
  induction xs with
  | nil => rfl
  | cons x xs ih =>
    rw [List.mapM_cons, h x (by simp), ih fun y hy => h y (by simp [hy])]
    rfl

/-- An arc no longer than the circle meets no place twice. -/
theorem rotate_injective {n start j k : Nat} (hj : j < n) (hk : k < n)
    (h : (start + j) % n = (start + k) % n) : j = k := by
  have hmod : j ≡ k [MOD n] := Nat.ModEq.add_left_cancel' start h
  rwa [Nat.ModEq, Nat.mod_eq_of_lt hj, Nat.mod_eq_of_lt hk] at hmod

/-! ## 3. The round of nodes -/

theorem mem_nodeSetOf {nodes : List PlacementNode} {n : NodeId} :
    n ∈ nodeSetOf nodes ↔ n ∈ nodes.map PlacementNode.nodeId := by
  unfold nodeSetOf
  induction nodes using List.reverseRecOn with
  | nil => simp
  | append_singleton nodes node ih =>
    rw [List.foldl_append, List.foldl_cons, List.foldl_nil, ExtTreeMap.mem_insert, ih,
      LawfulEqOrd.compare_eq_iff_eq]
    simp [or_comm, eq_comm]

/-- The group of a node: its disks, if it is listed and has one. -/
theorem getElem?_groupDisks (nodeSet : HashMap NodeId Bool) (disks : List PlacementDisk)
    (n : NodeId) :
    (groupDisks nodeSet disks)[n]?
      = if n ∈ nodeSet ∧ disks.filter (·.nodeId = n) ≠ [] then
          some (disks.filter (·.nodeId = n)) else none := by
  unfold groupDisks
  induction disks using List.reverseRecOn with
  | nil => simp
  | append_singleton disks d ih =>
    rw [List.foldl_append, List.foldl_cons, List.foldl_nil, List.filter_append]
    by_cases hd : d.nodeId = n
    · subst hd
      by_cases hset : d.nodeId ∈ nodeSet
      · rw [if_pos hset, ExtTreeMap.getElem?_insert_self, ih]
        by_cases hempty : disks.filter (·.nodeId = d.nodeId) = [] <;> simp [hset, hempty]
      · rw [if_neg hset, ih]
        simp [hset]
    · have hsame : [d].filter (·.nodeId = n) = [] := by simp [hd]
      rw [hsame, List.append_nil]
      split
      · rw [getElem?_insert_of_ne _ hd, ih]
      · exact ih

/-- A disk that may be allocated on, at a listed node. -/
structure Usable (disks : List PlacementDisk) (nodes : List PlacementNode) (d : PlacementDisk) :
    Prop where
  mem : d ∈ disks
  allocatable : d.state.allowsAllocation = true
  listed : d.nodeId ∈ nodes.map PlacementNode.nodeId

/-- The listed nodes that own a disk that may be allocated on. -/
def usableNodes (disks : List PlacementDisk) (nodes : List PlacementNode) : Finset NodeId :=
  (nodes.map PlacementNode.nodeId).toFinset.filter fun n =>
    ∃ d ∈ disks, d.state.allowsAllocation = true ∧ d.nodeId = n

/-- **What the placing loop reads**: every usable node once, with its usable disks. -/
structure Round (disks : List PlacementDisk) (nodes : List PlacementNode)
    (nodeDisks : HashMap NodeId (List PlacementDisk)) (sortedNodes : List (NodeId × Nat)) :
    Prop where
  nodup : (sortedNodes.map Prod.fst).Nodup
  mem : ∀ n, n ∈ sortedNodes.map Prod.fst ↔ n ∈ usableNodes disks nodes
  group : ∀ n ∈ sortedNodes.map Prod.fst, ∃ group, nodeDisks[n]? = some group ∧ group ≠ [] ∧
    ∀ d ∈ group, Usable disks nodes d ∧ d.nodeId = n

theorem sortDisks_perm (disks : List PlacementDisk) : (sortDisks disks).Perm disks :=
  List.mergeSort_perm _ _

section Rounds

variable {disks : List PlacementDisk} {nodes : List PlacementNode}

theorem mem_usableNodes {n : NodeId} :
    n ∈ usableNodes disks nodes ↔ ∃ d, Usable disks nodes d ∧ d.nodeId = n := by
  rw [usableNodes, Finset.mem_filter, List.mem_toFinset]
  constructor
  · rintro ⟨hlisted, d, hd, halloc, rfl⟩
    exact ⟨d, ⟨hd, halloc, hlisted⟩, rfl⟩
  · rintro ⟨d, hd, rfl⟩
    exact ⟨hd.listed, d, hd.mem, hd.allocatable, rfl⟩

def allocatableOn (disks : List PlacementDisk) (n : NodeId) : List PlacementDisk :=
  (disks.filter (·.state.allowsAllocation)).filter (·.nodeId = n)

theorem mem_allocatableOn {n : NodeId} {d : PlacementDisk} :
    d ∈ allocatableOn disks n ↔ (d ∈ disks ∧ d.state.allowsAllocation = true) ∧ d.nodeId = n := by
  rw [allocatableOn, List.mem_filter, List.mem_filter, decide_eq_true_eq]

/-- The disks of a node, as the placing loop finds them. -/
theorem getElem?_nodeDisksOf (n : NodeId) :
    (nodeDisksOf disks nodes)[n]?
      = if n ∈ usableNodes disks nodes then some (sortDisks (allocatableOn disks n))
        else none := by
  have hiff : (n ∈ nodeSetOf nodes ∧ allocatableOn disks n ≠ [])
      ↔ n ∈ usableNodes disks nodes := by
    rw [mem_nodeSetOf, mem_usableNodes]
    constructor
    · rintro ⟨hlisted, hne⟩
      obtain ⟨d, hd⟩ := List.exists_mem_of_ne_nil _ hne
      obtain ⟨⟨hmem, halloc⟩, rfl⟩ := mem_allocatableOn.mp hd
      exact ⟨d, ⟨hmem, halloc, hlisted⟩, rfl⟩
    · rintro ⟨d, hd, rfl⟩
      exact ⟨hd.listed,
        List.ne_nil_of_mem (mem_allocatableOn.mpr ⟨⟨hd.mem, hd.allocatable⟩, rfl⟩)⟩
  rw [nodeDisksOf, ExtTreeMap.getElem?_map, getElem?_groupDisks]
  change Option.map _ (if n ∈ nodeSetOf nodes ∧ allocatableOn disks n ≠ [] then
    some (allocatableOn disks n) else none) = _
  simp only [hiff]
  split <;> rfl

theorem mem_nodeDisksOf {n : NodeId} :
    n ∈ nodeDisksOf disks nodes ↔ n ∈ usableNodes disks nodes := by
  rw [ExtTreeMap.mem_iff_isSome_getElem?, getElem?_nodeDisksOf]
  split <;> simp [*]

def totalFree (disks : List PlacementDisk) (nodes : List PlacementNode) (n : NodeId) : Nat :=
  ((((nodeDisksOf disks nodes)[n]?).getD []).map PlacementDisk.freeBytes).sum

theorem totalFree_le (n : NodeId) :
    totalFree disks nodes n ≤ (disks.map PlacementDisk.freeBytes).sum := by
  rw [totalFree, getElem?_nodeDisksOf]
  split
  · rw [Option.getD_some, ((sortDisks_perm _).map _).sum_eq]
    exact ((List.filter_sublist.trans List.filter_sublist).map _).sum_le_sum (by simp)
  · simp

/-- The sorted nodes, when no sum overflows. -/
theorem sortedNodesOf_eq (ovf : Overflow) (order : IterOrder NodeId)
    (hfree : (disks.map PlacementDisk.freeBytes).sum < 2 ^ 64) :
    sortedNodesOf ovf order (nodeDisksOf disks nodes)
      = some (((order.keys (nodeDisksOf disks nodes)).map fun n =>
          (n, totalFree disks nodes n)).mergeSort fun a b => b.2 ≤ a.2) := by
  rw [sortedNodesOf, mapM_eq_some_map (g := fun n => (n, totalFree disks nodes n))]
  · rfl
  · intro n _
    rw [sumU64_of_lt ovf (Nat.lt_of_le_of_lt (totalFree_le n) hfree)]
    rfl

/-- **The nodes can be sorted**, and make a round. -/
theorem exists_round (ovf : Overflow) (order : IterOrder NodeId)
    (hfree : (disks.map PlacementDisk.freeBytes).sum < 2 ^ 64) :
    ∃ sortedNodes, sortedNodesOf ovf order (nodeDisksOf disks nodes) = some sortedNodes ∧
      Round disks nodes (nodeDisksOf disks nodes) sortedNodes := by
  refine ⟨_, sortedNodesOf_eq ovf order hfree, ?_⟩
  -- sorting moves the nodes and nothing else
  have hkeys : ((((order.keys (nodeDisksOf disks nodes)).map fun n =>
      (n, totalFree disks nodes n)).mergeSort fun a b => b.2 ≤ a.2).map Prod.fst).Perm
        (order.keys (nodeDisksOf disks nodes)) := by
    refine ((List.mergeSort_perm _ _).map _).trans ?_
    simp [Function.comp_def]
  have hmem : ∀ n, n ∈ order.keys (nodeDisksOf disks nodes) ↔ n ∈ usableNodes disks nodes :=
    fun n => by rw [IterOrder.mem_keys, mem_nodeDisksOf]
  refine ⟨hkeys.nodup_iff.mpr (((order.perm _).nodup_iff).mpr ExtTreeMap.nodup_keys),
    fun n => hkeys.mem_iff.trans (hmem n), fun n hn => ?_⟩
  have husable := (hmem n).mp (hkeys.mem_iff.mp hn)
  obtain ⟨d₀, hd₀, rfl⟩ := mem_usableNodes.mp husable
  refine ⟨_, by rw [getElem?_nodeDisksOf, if_pos husable], ?_, ?_⟩
  · have hin : d₀ ∈ sortDisks (allocatableOn disks d₀.nodeId) :=
      (sortDisks_perm _).mem_iff.mpr
        (mem_allocatableOn.mpr ⟨⟨hd₀.mem, hd₀.allocatable⟩, rfl⟩)
    exact List.ne_nil_of_mem hin
  · intro d hd
    obtain ⟨⟨hmem, halloc⟩, hnode⟩ := mem_allocatableOn.mp ((sortDisks_perm _).mem_iff.mp hd)
    exact ⟨⟨hmem, halloc, hnode ▸ hd₀.listed⟩, hnode⟩

theorem Round.length_eq {nodeDisks : HashMap NodeId (List PlacementDisk)}
    {sortedNodes : List (NodeId × Nat)} (h : Round disks nodes nodeDisks sortedNodes) :
    sortedNodes.length = (usableNodes disks nodes).card := by
  have hset : (sortedNodes.map Prod.fst).toFinset = usableNodes disks nodes := by
    ext n
    rw [List.mem_toFinset, h.mem]
  rw [← hset, List.toFinset_card_of_nodup h.nodup, List.length_map]

end Rounds

/-! ## 4. One extent -/

/-- **The disks of an extent**: so many usable disks, on different nodes. -/
structure Spread (disks : List PlacementDisk) (nodes : List PlacementNode) (required : Nat)
    (chosen : List PlacementDisk) : Prop where
  length : chosen.length = required
  usable : ∀ d ∈ chosen, Usable disks nodes d
  apart : (chosen.map PlacementDisk.nodeId).Nodup

section Extents

variable {disks : List PlacementDisk} {nodes : List PlacementNode}
  {nodeDisks : HashMap NodeId (List PlacementDisk)} {sortedNodes : List (NodeId × Nat)}

theorem Round.pickDisk (h : Round disks nodes nodeDisks sortedNodes) (i : Nat) {j : Nat}
    (hj : j < sortedNodes.length) :
    ∃ d, pickDisk nodeDisks sortedNodes i j = some d.diskId ∧ Usable disks nodes d ∧
      (sortedNodes.map Prod.fst)[(i % sortedNodes.length + j) % sortedNodes.length]?
        = some d.nodeId := by
  have hlt : (i % sortedNodes.length + j) % sortedNodes.length < sortedNodes.length :=
    Nat.mod_lt _ (by omega)
  obtain ⟨⟨n, free⟩, hnode⟩ : ∃ node,
      sortedNodes[(i % sortedNodes.length + j) % sortedNodes.length]? = some node :=
    ⟨_, List.getElem?_eq_getElem hlt⟩
  have hmem : n ∈ sortedNodes.map Prod.fst :=
    List.mem_map.mpr ⟨_, List.mem_of_getElem? hnode, rfl⟩
  obtain ⟨group, hgroup, hne, hall⟩ := h.group n hmem
  have hidx : i / sortedNodes.length % group.length < group.length :=
    Nat.mod_lt _ (List.length_pos_iff.mpr hne)
  obtain ⟨husable, rfl⟩ := hall _ (List.getElem_mem hidx)
  refine ⟨_, ?_, husable, by rw [List.getElem?_map, hnode]; rfl⟩
  simp only [Storage.pickDisk, hnode, Option.bind_eq_bind, Option.bind_some, hgroup,
    List.getElem?_eq_getElem hidx]
  rfl

/-- **The disks of an extent** are spread. -/
theorem Round.selectDisks (h : Round disks nodes nodeDisks sortedNodes) {required : Nat}
    (hle : required ≤ sortedNodes.length) (i : Nat) :
    ∃ chosen, selectDisks nodeDisks sortedNodes required i
        = some (chosen.map PlacementDisk.diskId) ∧ Spread disks nodes required chosen := by
  have hpick : ∀ j, ∃ d, j < required → Storage.pickDisk nodeDisks sortedNodes i j
      = some d.diskId ∧ Usable disks nodes d ∧
        (sortedNodes.map Prod.fst)[(i % sortedNodes.length + j) % sortedNodes.length]?
          = some d.nodeId := by
    intro j
    by_cases hj : j < required
    · obtain ⟨d, hd⟩ := h.pickDisk i (Nat.lt_of_lt_of_le hj hle)
      exact ⟨d, fun _ => hd⟩
    · exact ⟨⟨⟨0#128⟩, ⟨0#128⟩, 0, 0, .removed⟩, fun h => absurd h hj⟩
  choose disk hdisk using hpick
  refine ⟨(List.range required).map disk, ?_, by simp, ?_, ?_⟩
  · rw [Storage.selectDisks, List.map_map]
    exact mapM_eq_some_map fun j hj => (hdisk j (List.mem_range.mp hj)).1
  · intro d hd
    obtain ⟨j, hj, rfl⟩ := List.mem_map.mp hd
    exact (hdisk j (List.mem_range.mp hj)).2.1
  · rw [List.map_map]
    refine List.Nodup.map_on ?_ List.nodup_range
    intro j hj k hk hsame
    rw [List.mem_range] at hj hk
    have hj' := (hdisk j hj).2.2
    rw [show (disk j).nodeId = (disk k).nodeId from hsame, ← (hdisk k hk).2.2] at hj'
    -- the round has no node twice, so the two places are one
    have hplace := (List.getElem?_inj (by
      rw [List.length_map]; exact Nat.mod_lt _ (by omega)) h.nodup).mp hj'
    exact rotate_injective (by omega) (by omega) hplace

end Extents

/-! ## 5. The whole volume -/

def ExtentPlacement.disks (p : ExtentPlacement) : ProtectionPolicy → List DiskId
  | .replicated _ => p.primaryDisk :: p.replicaDisks
  | .erasureCoded _ _ => p.fragmentDisks

/-- The number of disks a policy asks for. -/
def copies : ProtectionPolicy → Nat
  | .replicated replicas => replicas
  | .erasureCoded dataChunks parityChunks => dataChunks + parityChunks

theorem copies_pos {policy : ProtectionPolicy} (h : policy.validate = .ok ()) :
    0 < copies policy := by
  cases policy with
  | replicated replicas =>
    simp only [ProtectionPolicy.validate] at h
    split at h
    · cases h
    · simp only [copies]; omega
  | erasureCoded dataChunks parityChunks =>
    simp only [ProtectionPolicy.validate] at h
    split at h
    · cases h
    · simp only [copies]; omega

/-- A policy in the range of its type needs as many nodes as it has copies. -/
theorem requiredNodes_eq (ovf : Overflow) {policy : ProtectionPolicy}
    (h : ∀ k m, policy = .erasureCoded k m → k + m ≤ 255) :
    requiredNodes ovf policy = some (copies policy) := by
  cases policy with
  | replicated replicas => rfl
  | erasureCoded k m => exact if_pos (Nat.lt_succ_of_le (h k m rfl))

def extentCount (volume : PlacementVolumeInfo) : Nat :=
  (volume.sizeBytes + volume.extentSizeBytes - 1) / volume.extentSizeBytes

theorem numExtents_eq {volume : PlacementVolumeInfo} (h : 0 < volume.extentSizeBytes) :
    numExtents volume = some (extentCount volume) := by
  unfold numExtents extentCount
  split
  · next hsize =>
    rw [hsize, Nat.zero_add, Nat.div_eq_of_lt (by omega)]
  · rw [if_neg (by omega)]

/-- The placement made of the disks of an extent has these disks. -/
theorem exists_placementOf (policy : ProtectionPolicy) (extentId : ExtentId)
    {selected : List DiskId} (h : selected ≠ []) :
    ∃ p, placementOf policy extentId selected = some p ∧ p.disks policy = selected ∧
      selected.head? = some p.primaryDisk := by
  cases selected with
  | nil => exact absurd rfl h
  | cons primary rest => cases policy <;> exact ⟨_, rfl, rfl, rfl⟩

/-- **One extent is placed**, on spread disks. -/
theorem Round.placeExtent {disks : List PlacementDisk} {nodes : List PlacementNode}
    {nodeDisks : HashMap NodeId (List PlacementDisk)} {sortedNodes : List (NodeId × Nat)}
    (h : Round disks nodes nodeDisks sortedNodes) {required : Nat} (hpos : 0 < required)
    (hle : required ≤ sortedNodes.length) (policy : ProtectionPolicy) (generate : Nat → ExtentId)
    (i : Nat) :
    ∃ p, placeExtent nodeDisks sortedNodes required policy generate i = some p ∧
      ∃ chosen, p.disks policy = chosen.map PlacementDisk.diskId ∧
        (chosen.map PlacementDisk.diskId).head? = some p.primaryDisk ∧
        Spread disks nodes required chosen := by
  obtain ⟨chosen, hselect, hspread⟩ := h.selectDisks hle i
  have hne : chosen.map PlacementDisk.diskId ≠ [] := by
    rw [← List.length_pos_iff, List.length_map, hspread.length]
    exact hpos
  obtain ⟨p, hp, hdisks, hhead⟩ := exists_placementOf policy (generate i) hne
  exact ⟨p, by rw [Storage.placeExtent, hselect]; exact hp, chosen, hdisks, hhead, hspread⟩

/-- Some disk may be allocated on, and the usable nodes suffice. -/
def Placeable (policy : ProtectionPolicy) (disks : List PlacementDisk)
    (nodes : List PlacementNode) : Prop :=
  (∃ d ∈ disks, d.state.allowsAllocation = true) ∧ copies policy ≤ (usableNodes disks nodes).card

/-- **Volume placement spreads copies**: it succeeds exactly when some disk may be allocated on,
the usable nodes suffice and the placements fit into memory (it panics when only the last fails);
and then there is a placement for every extent, each with the disks the policy asks for, the
primary first, all of them usable and no two on one node. -/
theorem placeVolume_spreads (ovf : Overflow) (order : IterOrder NodeId) (generate : Nat → ExtentId)
    (volume : PlacementVolumeInfo) (disks : List PlacementDisk) (nodes : List PlacementNode)
    (hext : 0 < volume.extentSizeBytes) (hvalid : volume.protection.validate = .ok ())
    (hchunks : ∀ k m, volume.protection = .erasureCoded k m → k + m ≤ 255)
    (hfree : (disks.map PlacementDisk.freeBytes).sum < 2 ^ 64) :
    ((∃ ps, placeVolume ovf order generate volume disks nodes = some (.ok ps)) ↔
        Placeable volume.protection disks nodes ∧ placementBytes * extentCount volume < 2 ^ 63) ∧
      (placeVolume ovf order generate volume disks nodes = none ↔
        Placeable volume.protection disks nodes ∧ 2 ^ 63 ≤ placementBytes * extentCount volume) ∧
      ∀ ps, placeVolume ovf order generate volume disks nodes = some (.ok ps) →
        ps.length = extentCount volume ∧
        ∀ p ∈ ps, ∃ chosen, p.disks volume.protection = chosen.map PlacementDisk.diskId ∧
          (chosen.map PlacementDisk.diskId).head? = some p.primaryDisk ∧
          Spread disks nodes (copies volume.protection) chosen := by
  obtain ⟨sortedNodes, hsorted, hround⟩ : ∃ sortedNodes,
      sortedNodesOf ovf order (nodeDisksOf disks nodes) = some sortedNodes ∧
        Round disks nodes (nodeDisksOf disks nodes) sortedNodes := exists_round ovf order hfree
  have hpos := copies_pos hvalid
  unfold placeVolume
  rw [hvalid]
  dsimp only
  split
  · next hempty =>
    have hno : ¬ Placeable volume.protection disks nodes := by
      rintro ⟨⟨d, hd, halloc⟩, -⟩
      simp_all
    simp [hno]
  next hsome =>
  rw [hsorted, numExtents_eq hext, requiredNodes_eq ovf hchunks]
  simp only [Option.bind_eq_bind, Option.bind_some]
  rw [hround.length_eq]
  have hdisk : ∃ d ∈ disks, d.state.allowsAllocation = true := by simpa using hsome
  split
  · next hfew =>
    have hno : ¬ Placeable volume.protection disks nodes := fun h => Nat.not_le_of_lt hfew h.2
    simp [hno]
  next hfew =>
  have henough : copies volume.protection ≤ (usableNodes disks nodes).card := Nat.le_of_not_lt hfew
  have hready : Placeable volume.protection disks nodes := ⟨hdisk, henough⟩
  split
  · next hhuge =>
    refine ⟨⟨?_, fun h => absurd h.2 (Nat.not_lt.mpr hhuge)⟩, ⟨fun _ => ⟨hready, hhuge⟩,
      fun _ => rfl⟩, fun ps hps => by cases hps⟩
    rintro ⟨ps, hps⟩
    cases hps
  next hfits =>
  choose placement hplace hspread using
    hround.placeExtent hpos (hround.length_eq ▸ henough) volume.protection generate
  rw [mapM_eq_some_map fun i _ => hplace i]
  refine ⟨⟨fun _ => ⟨hready, Nat.not_le.mp hfits⟩, fun _ => ⟨_, rfl⟩⟩,
    ⟨nofun, fun h => absurd h.2 hfits⟩, ?_⟩
  rintro _ ⟨⟩
  refine ⟨by simp, fun p hp => ?_⟩
  obtain ⟨i, -, rfl⟩ := List.mem_map.mp hp
  exact hspread i

def threeDisks : List PlacementDisk :=
  [⟨⟨1#128⟩, ⟨11#128⟩, 100, 40, .healthy⟩, ⟨⟨2#128⟩, ⟨12#128⟩, 100, 10, .suspect⟩,
    ⟨⟨3#128⟩, ⟨12#128⟩, 100, 0, .failed⟩]

theorem placeVolume_spreads_mirror :
    ∃ ps, placeVolume .checked (.sorted _) (fun i => ⟨BitVec.ofNat 128 i⟩)
        ⟨3, .replicated 2, 2⟩ threeDisks [⟨⟨12#128⟩⟩, ⟨⟨11#128⟩⟩, ⟨⟨13#128⟩⟩] = some (.ok ps) ∧
      ps.length = 2 := by
  obtain ⟨hok, -, hall⟩ := placeVolume_spreads .checked (.sorted _)
    (fun i => ⟨BitVec.ofNat 128 i⟩) ⟨3, .replicated 2, 2⟩ threeDisks
    [⟨⟨12#128⟩⟩, ⟨⟨11#128⟩⟩, ⟨⟨13#128⟩⟩] (by decide) rfl (by intro k m h; cases h) (by decide)
  obtain ⟨ps, hps⟩ := hok.mpr ⟨⟨⟨_, List.mem_cons_self, rfl⟩, by decide⟩, by decide⟩
  exact ⟨ps, hps, (hall ps hps).1⟩

/-- **Extents of one byte**: the list of their placements for the largest volume is larger than any
allocation, and placing panics. -/
theorem placeVolume_huge_panics :
    Placeable (.replicated 2) threeDisks [⟨⟨11#128⟩⟩, ⟨⟨12#128⟩⟩] ∧
      placeVolume .wrapping (.sorted _) (fun i => ⟨BitVec.ofNat 128 i⟩)
        ⟨2 ^ 64 - 1, .replicated 2, 1⟩ threeDisks [⟨⟨11#128⟩⟩, ⟨⟨12#128⟩⟩] = none := by
  refine ⟨⟨⟨_, List.mem_cons_self, rfl⟩, by decide⟩, ?_⟩
  obtain ⟨sortedNodes, hsorted, hround⟩ : ∃ sortedNodes, sortedNodesOf .wrapping (.sorted _)
      (nodeDisksOf threeDisks [⟨⟨11#128⟩⟩, ⟨⟨12#128⟩⟩]) = some sortedNodes ∧ Round _ _ _ _ :=
    exists_round .wrapping (.sorted _) (by decide)
  have hvalid : (ProtectionPolicy.replicated 2).validate = .ok () := rfl
  unfold placeVolume
  rw [hvalid]
  dsimp only
  rw [if_neg (by decide), hsorted, numExtents_eq (by decide)]
  simp only [Option.bind_eq_bind, Option.bind_some, requiredNodes, hround.length_eq]
  rw [if_neg (by decide), if_pos (by decide)]

end Blockyard.Storage
