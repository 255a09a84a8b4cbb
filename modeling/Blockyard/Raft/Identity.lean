/-
# Raft ids

`blockyard-raft`, `state_machine.rs`: `RegisterNode` gives each node a number, the next one, the
first time it is seen, and the same number ever after; Raft knows the node under it.

§1 says which requests write what: `last_applied` is written by the loop that applies the log, the
ids by `RegisterNode`, and by nothing else.  §2 is the invariant: the ids are 1, 2, .., up to the
counter, each of one node (`RaftIds`).  §3 carries it along runs: an id is given once and kept
for good, and the search for the node of an id, a scan of a hash map, has one answer
(`raft_ids_stable`).
-/
import Blockyard.Raft.Commit

open Std

namespace Blockyard.Raft

namespace MetadataStateMachineData

/-! ## 1. What the other requests leave alone -/

variable (ovf : Overflow) (s : MetadataStateMachineData)

/-- `last_applied` and the ids. -/
def identity (s : MetadataStateMachineData) : Option LogId × Nat × HashMap NodeId Nat :=
  (s.lastApplied, s.raftIdCounter, s.nodeRaftMap)

theorem identity_storeMapping (volMappings : BTreeMap Nat ExtentMapping)
    (e : ExtentMappingEntry) : (s.storeMapping volMappings e).identity = s.identity := by
  simp only [storeMapping, reindex]
  split <;> rfl

theorem identity_commitExtentMapping (e : ExtentMappingEntry) :
    (s.commitExtentMapping e).1.identity = s.identity := by
  unfold commitExtentMapping
  split
  · rfl
  split
  · rfl
  split
  · rfl
  split
  · rfl
  · exact identity_storeMapping s _ e

theorem identity_commitExtentMappingBatch (es : List ExtentMappingEntry) :
    (s.commitExtentMappingBatch es).1.identity = s.identity := by
  induction es generalizing s with
  | nil => rfl
  | cons e es ih =>
    have hone := identity_commitExtentMapping s e
    rw [commitExtentMappingBatch]
    split
    · next s' h =>
      rw [h] at hone
      exact hone
    · next s' resp h =>
      rw [h] at hone
      split_ifs
      · exact hone
      · rw [ih, hone]

theorem identity_deleteVolume (v : VolumeId) :
    (s.deleteVolume v).1.identity = s.identity := by
  unfold deleteVolume
  split
  · rfl
  · dsimp only
    split
    · rw [foldl_unindex]
      rfl
    · rfl

/-- **Only `RegisterNode` touches the ids.** -/
theorem identity_applyRequest (req : MetadataRequest)
    (h : ∀ nodeId addr, req ≠ .registerNode nodeId addr) :
    (s.applyRequest ovf req).1.identity = s.identity := by
  cases req with
  | deleteVolume v => exact identity_deleteVolume s v
  | commitExtentMapping e => exact identity_commitExtentMapping s e
  | commitExtentMappingBatch es => exact identity_commitExtentMappingBatch s es
  | lease req =>
    obtain ⟨leases, counter, heq⟩ := applyLeaseRequest_frame ovf s req
    rw [applyRequest, heq]
    rfl
  | createVolume v size protection extentSize =>
    simp only [applyRequest, createVolume]
    repeat' split
    all_goals rfl
  | registerNode nodeId addr => exact absurd rfl (h nodeId addr)
  | removeNode | updateDiskUsage | deregisterDisk =>
    simp only [applyRequest]
    split <;> rfl
  | addNode | advanceEpoch | updatePlacementMap | registerDisk | cleanupExpiredLeases => rfl

/-- **No request touches `last_applied`**: the loop of `apply` alone writes it. -/
theorem lastApplied_applyRequest (req : MetadataRequest) :
    (s.applyRequest ovf req).1.lastApplied = s.lastApplied := by
  by_cases h : ∃ nodeId addr, req = .registerNode nodeId addr
  · obtain ⟨nodeId, addr, rfl⟩ := h
    simp only [applyRequest, registerNode]
    repeat' split
    all_goals rfl
  · push Not at h
    exact congrArg Prod.fst (identity_applyRequest ovf s req h)

/-! ## 2. Ids -/

def getRaftId (s : MetadataStateMachineData) (nodeId : NodeId) : Option Nat :=
  s.nodeRaftMap[nodeId]?

variable {s} {s' : MetadataStateMachineData}

theorem getRaftId_congr (h : s'.identity.2 = s.identity.2)
    (nodeId : NodeId) : s'.getRaftId nodeId = s.getRaftId nodeId := by
  have hmap : s'.nodeRaftMap = s.nodeRaftMap := congrArg Prod.snd h
  rw [getRaftId, hmap, getRaftId]

variable (s) in
/-- **What `RegisterNode` does to the ids**: nothing for a node that has one, and the next one for
a node that has none. -/
theorem registerNode_cases (nodeId : NodeId) (addr : String) :
    (∃ raftId, s.getRaftId nodeId = some raftId ∧
        (s.registerNode ovf nodeId addr).1.identity = s.identity ∧
        (s.registerNode ovf nodeId addr).2 = some (.nodeRegistered raftId)) ∨
      s.getRaftId nodeId = none ∧
        ((s.registerNode ovf nodeId addr).1 = s ∧ (s.registerNode ovf nodeId addr).2 = none ∨
          ∃ raftId, addU64 ovf s.raftIdCounter 1 = some raftId ∧
            (s.registerNode ovf nodeId addr).1.identity
              = (s.lastApplied, raftId, s.nodeRaftMap.insert nodeId raftId) ∧
            (s.registerNode ovf nodeId addr).2 = some (.nodeRegistered raftId)) := by
  unfold registerNode getRaftId
  cases hid : s.nodeRaftMap[nodeId]? with
  | some raftId => exact Or.inl ⟨raftId, rfl, rfl, rfl⟩
  | none =>
    refine Or.inr ⟨rfl, ?_⟩
    cases hnext : addU64 ovf s.raftIdCounter 1 with
    | none => exact Or.inl ⟨rfl, rfl⟩
    | some raftId => exact Or.inr ⟨raftId, rfl, rfl, rfl⟩

/-- **`RegisterNode` answers the id the node has then**, as long as the counter does not
overflow. -/
theorem registerNode_answer (nodeId : NodeId) (addr : String)
    (hroom : s.raftIdCounter + 1 < 2 ^ 64) :
    ∃ raftId, (s.registerNode ovf nodeId addr).1.getRaftId nodeId = some raftId ∧
      (s.registerNode ovf nodeId addr).2 = some (.nodeRegistered raftId) ∧
      (s.registerNode ovf nodeId addr).1.raftIdCounter ≤ s.raftIdCounter + 1 ∧
      (s.getRaftId nodeId = some raftId ∨
        s.getRaftId nodeId = none ∧ raftId = s.raftIdCounter + 1) := by
  rcases registerNode_cases ovf s nodeId addr with
    ⟨raftId, hid, hsame, hresp⟩ | ⟨hnew, ⟨-, hpanic⟩ | ⟨raftId, hnext, hids, hresp⟩⟩
  · have hcounter : (s.registerNode ovf nodeId addr).1.raftIdCounter = s.raftIdCounter :=
      congrArg (fun p => p.2.1) hsame
    have hkept := getRaftId_congr (congrArg Prod.snd hsame) nodeId
    exact ⟨raftId, hkept.trans hid, hresp, by omega, Or.inl hid⟩
  · have hnone : s.nodeRaftMap[nodeId]? = none := hnew
    rw [registerNode, hnone, addU64_of_lt ovf hroom] at hpanic
    cases hpanic
  · rw [addU64_of_lt ovf hroom] at hnext
    cases hnext
    have hcounter : (s.registerNode ovf nodeId addr).1.raftIdCounter = s.raftIdCounter + 1 :=
      congrArg (fun p => p.2.1) hids
    have hmap : (s.registerNode ovf nodeId addr).1.nodeRaftMap
        = s.nodeRaftMap.insert nodeId (s.raftIdCounter + 1) := congrArg (fun p => p.2.2) hids
    refine ⟨s.raftIdCounter + 1, ?_, hresp, hcounter.le, Or.inr ⟨hnew, rfl⟩⟩
    rw [getRaftId, hmap, ExtTreeMap.getElem?_insert_self]

/-- **What one request does to the ids**: nothing, or the next one for a node that has none. -/
theorem ids_applyRequest (ovf : Overflow) (s : MetadataStateMachineData) (req : MetadataRequest) :
    (s.applyRequest ovf req).1.identity.2 = s.identity.2 ∨
      ∃ n raftId, s.getRaftId n = none ∧ addU64 ovf s.raftIdCounter 1 = some raftId ∧
        (s.applyRequest ovf req).1.identity.2 = (raftId, s.nodeRaftMap.insert n raftId) := by
  by_cases hreg : ∃ n addr, req = .registerNode n addr
  · obtain ⟨n, addr, rfl⟩ := hreg
    rcases registerNode_cases ovf s n addr with
      ⟨id, -, hsame, -⟩ | ⟨hnew, ⟨hsame, -⟩ | ⟨id, hnext, hids, -⟩⟩
    · exact Or.inl (congrArg Prod.snd hsame)
    · exact Or.inl (congrArg (·.identity.2) hsame)
    · exact Or.inr ⟨n, id, hnew, hnext, congrArg Prod.snd hids⟩
  · push Not at hreg
    exact Or.inl (congrArg Prod.snd (identity_applyRequest ovf s req hreg))

/-- **An id is kept for good.** -/
theorem getRaftId_applyRequest {ovf : Overflow} {nodeId : NodeId} {raftId : Nat}
    (h : s.getRaftId nodeId = some raftId) (req : MetadataRequest) :
    (s.applyRequest ovf req).1.getRaftId nodeId = some raftId := by
  rcases ids_applyRequest ovf s req with hsame | ⟨n, id, hnew, -, hids⟩
  · exact (getRaftId_congr hsame nodeId).trans h
  · have hinsert : (s.applyRequest ovf req).1.nodeRaftMap = s.nodeRaftMap.insert n id :=
      congrArg Prod.snd hids
    have hne : n ≠ nodeId := by
      rintro rfl
      rw [h] at hnew
      cases hnew
    rw [getRaftId, hinsert, getElem?_insert_of_ne _ hne]
    exact h

/-- **One request moves the counter by at most one.** -/
theorem raftIdCounter_applyRequest (ovf : Overflow) (s : MetadataStateMachineData)
    (req : MetadataRequest) : (s.applyRequest ovf req).1.raftIdCounter ≤ s.raftIdCounter + 1 := by
  rcases ids_applyRequest ovf s req with hsame | ⟨n, id, -, hnext, hids⟩
  · exact (congrArg Prod.fst hsame).le.trans (Nat.le_succ _)
  · exact (congrArg Prod.fst hids).le.trans (addU64_le hnext)

/-- **The ids are 1 up to the counter, each of one node.** -/
structure RaftIds (s : MetadataStateMachineData) : Prop where
  range : ∀ n i, s.getRaftId n = some i → 1 ≤ i ∧ i ≤ s.raftIdCounter
  injective : ∀ n n' i, s.getRaftId n = some i → s.getRaftId n' = some i → n = n'
  onto : ∀ i, 1 ≤ i → i ≤ s.raftIdCounter → ∃ n, s.getRaftId n = some i

theorem RaftIds.new : RaftIds .new := by
  have hnone : ∀ n, MetadataStateMachineData.new.getRaftId n = none :=
    fun _ => ExtTreeMap.getElem?_empty
  exact ⟨by simp [hnone], by simp [hnone], fun _ hpos hle => absurd hle (Nat.not_le.mpr hpos)⟩

theorem RaftIds.congr (h : RaftIds s) (hsame : s'.identity.2 = s.identity.2) : RaftIds s' := by
  have hcounter : s'.raftIdCounter = s.raftIdCounter := congrArg Prod.fst hsame
  have hmap := getRaftId_congr hsame
  refine ⟨?_, ?_, ?_⟩
  · intro n i hi
    rw [hcounter]
    exact h.range n i (hmap n ▸ hi)
  · intro n n' i hi hi'
    exact h.injective n n' i (hmap n ▸ hi) (hmap n' ▸ hi')
  · intro i hpos hle
    obtain ⟨n, hn⟩ := h.onto i hpos (hcounter ▸ hle)
    exact ⟨n, (hmap n).trans hn⟩

/-- **The next id for a node that has none.** -/
theorem RaftIds.insert (h : RaftIds s) {n : NodeId} (hnew : s.getRaftId n = none)
    (hids : s'.identity.2 = (s.raftIdCounter + 1, s.nodeRaftMap.insert n (s.raftIdCounter + 1))) :
    RaftIds s' := by
  have hcounter : s'.raftIdCounter = s.raftIdCounter + 1 := congrArg Prod.fst hids
  have hmap : s'.nodeRaftMap = s.nodeRaftMap.insert n (s.raftIdCounter + 1) :=
    congrArg Prod.snd hids
  have hself : s'.getRaftId n = some (s.raftIdCounter + 1) := by
    rw [getRaftId, hmap, ExtTreeMap.getElem?_insert_self]
  have hother : ∀ n', n ≠ n' → s'.getRaftId n' = s.getRaftId n' := by
    intro n' hne
    rw [getRaftId, hmap, getElem?_insert_of_ne _ hne, getRaftId]
  -- the new id is above all others
  have hfresh : ∀ n', n ≠ n' → s'.getRaftId n' ≠ some (s.raftIdCounter + 1) := by
    intro n' hn hi
    rw [hother n' hn] at hi
    have := h.range n' _ hi
    omega
  refine ⟨?_, ?_, ?_⟩
  · intro n' i hi
    rw [hcounter]
    by_cases hn : n = n'
    · subst hn
      rw [hself] at hi
      cases hi
      omega
    · rw [hother n' hn] at hi
      have := h.range n' i hi
      omega
  · intro n₁ n₂ i hi₁ hi₂
    by_cases h₁ : n = n₁
    · subst h₁
      rw [hself] at hi₁
      cases hi₁
      by_contra h₂
      exact hfresh n₂ h₂ hi₂
    · by_cases h₂ : n = n₂
      · subst h₂
        rw [hself] at hi₂
        cases hi₂
        exact absurd hi₁ (hfresh n₁ h₁)
      · rw [hother n₁ h₁] at hi₁
        rw [hother n₂ h₂] at hi₂
        exact h.injective n₁ n₂ i hi₁ hi₂
  · intro i hpos hle
    rw [hcounter] at hle
    by_cases hi : i = s.raftIdCounter + 1
    · subst hi
      exact ⟨n, hself⟩
    · obtain ⟨n', hn'⟩ := h.onto i hpos (by omega)
      have hne : n ≠ n' := by
        rintro rfl
        rw [hnew] at hn'
        cases hn'
      exact ⟨n', (hother n' hne).trans hn'⟩

/-- **A request keeps the ids in order**, as long as the counter does not overflow. -/
theorem RaftIds.applyRequest (h : RaftIds s) (ovf : Overflow) (req : MetadataRequest)
    (hroom : s.raftIdCounter + 1 < 2 ^ 64) :
    RaftIds (s.applyRequest ovf req).1 := by
  rcases ids_applyRequest ovf s req with hsame | ⟨n, id, hnew, hnext, hids⟩
  · exact h.congr hsame
  · rw [addU64_of_lt ovf hroom] at hnext
    cases hnext
    exact h.insert hnew hids

/-! ## 3. Ids along a run -/

/-- `get_node_id_by_raft_id`: the first entry with that id that a scan of the hash map meets. -/
def getNodeIdByRaftId (order : IterOrder NodeId) (s : MetadataStateMachineData) (raftId : Nat) :
    Option NodeId :=
  (order.keys s.nodeRaftMap).find? fun nodeId => s.nodeRaftMap[nodeId]? = some raftId

/-- **The reverse search finds the one node with the id**, whatever the order of the scan. -/
theorem RaftIds.getNodeIdByRaftId_eq_some_iff (h : RaftIds s) (order : IterOrder NodeId)
    (raftId : Nat) (n : NodeId) :
    s.getNodeIdByRaftId order raftId = some n ↔ s.getRaftId n = some raftId := by
  unfold getNodeIdByRaftId getRaftId
  constructor
  · intro hfind
    simpa using List.find?_some hfind
  · intro hid
    have hmem : n ∈ order.keys s.nodeRaftMap := by
      rw [IterOrder.mem_keys]
      exact mem_of_getElem? hid
    have hsome : ((order.keys s.nodeRaftMap).find?
        fun n' => s.nodeRaftMap[n']? = some raftId).isSome := by
      rw [List.find?_isSome]
      exact ⟨n, hmem, by simpa using hid⟩
    obtain ⟨n', hn'⟩ := Option.isSome_iff_exists.mp hsome
    have hid' : s.nodeRaftMap[n']? = some raftId := by simpa using List.find?_some hn'
    rw [hn', h.injective n' n raftId hid' hid]

theorem raftIds_after (ovf : Overflow) {reqs : List MetadataRequest}
    (hcount : reqs.length < 2 ^ 64) :
    RaftIds (after ovf reqs) ∧ (after ovf reqs).raftIdCounter ≤ reqs.length := by
  refine Machine.runState_history
    (P := fun seen (s : MetadataStateMachineData) => RaftIds s ∧ s.raftIdCounter ≤ seen.length)
    ⟨RaftIds.new, Nat.le_refl 0⟩ ?_
  rintro pre r post rfl ⟨hids, hcounter⟩
  rw [List.length_append, List.length_cons] at hcount
  refine ⟨hids.applyRequest ovf r (by omega), ?_⟩
  have hstep := raftIdCounter_applyRequest ovf (Machine.runState (applyRequest ovf) .new pre) r
  rw [List.length_append, List.length_singleton]
  omega

theorem getRaftId_runState {ovf : Overflow} {n : NodeId} {i : Nat} (h : s.getRaftId n = some i)
    (reqs : List MetadataRequest) :
    (Machine.runState (applyRequest ovf) s reqs).getRaftId n = some i :=
  Machine.runState_invariant (P := fun t : MetadataStateMachineData => t.getRaftId n = some i) h
    (fun _ r ht => getRaftId_applyRequest ht r) reqs

/-- **The promise about ids**, for a whole run. -/
structure IdsStable (ovf : Overflow) (reqs : List MetadataRequest) : Prop where
  /-- The ids are exactly 1 up to the counter, each of one node. -/
  ids : RaftIds (after ovf reqs)
  /-- An id once given is the node's for good, and no other node's. -/
  kept : ∀ pre post n i, reqs = pre ++ post → (after ovf pre).getRaftId n = some i →
    (after ovf reqs).getRaftId n = some i ∧
      ∀ n', (after ovf reqs).getRaftId n' = some i → n' = n
  /-- `RegisterNode` answers the node's id. -/
  answered : ∀ pre n addr post, reqs = pre ++ .registerNode n addr :: post →
    ∃ i, ((after ovf pre).applyRequest ovf (.registerNode n addr)).2
        = some (.nodeRegistered i) ∧
      ((after ovf pre).applyRequest ovf (.registerNode n addr)).1.getRaftId n = some i ∧
      (after ovf reqs).getRaftId n = some i
  /-- The two queries are inverse to each other, in whatever order the hash map is scanned. -/
  inverse : ∀ order n i, (after ovf reqs).getNodeIdByRaftId order i = some n ↔
    (after ovf reqs).getRaftId n = some i

/-- **Raft ids are a stable injection**, along every run of fewer than `2^64` requests. -/
theorem raft_ids_stable (ovf : Overflow) (reqs : List MetadataRequest)
    (hcount : reqs.length < 2 ^ 64) : IdsStable ovf reqs := by
  obtain ⟨hids, -⟩ := raftIds_after ovf hcount
  constructor
  · exact hids
  · rintro pre post n i rfl hi
    have hkept : (after ovf (pre ++ post)).getRaftId n = some i := by
      rw [after_append]
      exact getRaftId_runState hi post
    exact ⟨hkept, fun n' hn' => hids.injective n' n i hn' hkept⟩
  · rintro pre n addr post rfl
    rw [List.length_append, List.length_cons] at hcount
    have hpre : pre.length < 2 ^ 64 := by omega
    obtain ⟨-, hcounter⟩ := raftIds_after ovf hpre
    obtain ⟨i, hid, hans, -⟩ := registerNode_answer ovf n addr
      (s := after ovf pre) (by omega)
    refine ⟨i, hans, hid, ?_⟩
    rw [after_append_cons]
    exact getRaftId_runState hid post
  · intro order n i
    exact hids.getNodeIdByRaftId_eq_some_iff order i n

/-- A node that registers, is removed and registers again after another one. -/
theorem raft_ids_stable_reregistration :
    let reqs : List MetadataRequest := [.registerNode ⟨1#128⟩ "a:1", .removeNode ⟨1#128⟩,
      .registerNode ⟨2#128⟩ "b:1", .registerNode ⟨1#128⟩ "a:2"]
    (after .checked reqs).getRaftId ⟨1#128⟩ = some 1 ∧
      (after .checked reqs).getNodeIdByRaftId (.sorted _) 2 = some ⟨2#128⟩ ∧
      IdsStable .checked reqs := by
  intro reqs
  have hstable : IdsStable .checked reqs := raft_ids_stable .checked reqs (by decide)
  exact ⟨by decide, by decide, hstable⟩

end MetadataStateMachineData

end Blockyard.Raft
