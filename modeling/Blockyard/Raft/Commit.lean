/-
# What one request does to the mapping tables

Later modules argue about runs; this one says ONCE what a single request can do to the four
tables a commit touches -- the volumes, the mappings and the two secondary indexes.

* §1 is the invariant that keeps the `expect` of `CommitExtentMapping` unreachable: volumes
  and mapping tables have the same keys (`TablesMatch`).
* §2 reads the checks of a commit as a predicate on its inputs (`Admits`), and a commit that
  passes them as three logs of key events (`commitState`).
* §3 reads a batch as the entries ahead of the first one that is not admitted
  (`takeAdmitted`), stored one after the other.
* §4 says what the remaining requests leave alone.
-/
import Blockyard.Raft.StateMachine
import Blockyard.Lib.MapLog

open Std

namespace Blockyard.Raft

open MetadataStateMachineData

/-! ## 1. The tables -/

variable {s : MetadataStateMachineData} {e : ExtentMappingEntry} {r : MetadataRequest}
  {v : VolumeId} {k : MappingKey} {m : ExtentMapping} {vm : BTreeMap Nat ExtentMapping}

def MetadataStateMachineData.mappingAt (s : MetadataStateMachineData) (k : MappingKey) :
    Option ExtentMapping := MapLog.get2 s.extentMappings k.1 k.2

theorem mappingAt_eq (hvm : s.extentMappings[v]? = some vm) (b : Nat) :
    s.mappingAt (v, b) = vm[b]? := by
  simp only [mappingAt, MapLog.get2, hvm, Option.bind_some]

theorem mappingAt_new_ne_some :
    MetadataStateMachineData.new.mappingAt k ≠ some m :=
  (Option.some_ne_none m).symm

/-- Every volume has a mapping table, and every mapping table belongs to a volume. -/
def TablesMatch (s : MetadataStateMachineData) : Prop :=
  ∀ v, v ∈ s.volumes ↔ v ∈ s.extentMappings

theorem tablesMatch_new : TablesMatch .new := by
  intro v
  simp only [MetadataStateMachineData.new, ExtTreeMap.not_mem_empty]

/-! ## 2. One commit -/

/-- **The checks of a commit**, on its inputs: `stored` is what the tables hold at each key
when the commit's turn comes. -/
def Admits (s : MetadataStateMachineData) (stored : MappingKey → Option ExtentMapping)
    (e : ExtentMappingEntry) : Prop :=
  e.volumeId ∈ s.volumes ∧ e.epoch = s.epoch ∧
    ∀ v ∈ e.previousVersion, (stored e.key).elim 0 (·.extentVersion) = v

instance (s : MetadataStateMachineData) (stored : MappingKey → Option ExtentMapping)
    (e : ExtentMappingEntry) : Decidable (Admits s stored e) :=
  inferInstanceAs (Decidable (_ ∧ _ ∧ _))

/-- What a commit does to the operation index: the overwritten mapping's operation goes, its
own comes. -/
def opEvents (old : Option ExtentMapping) (e : ExtentMappingEntry) :
    List (OperationId × Option MappingKey) :=
  (old.bind (·.operationId)).toList.map (·, none) ++ e.operationId.toList.map (·, some e.key)

def versionEvents (old : Option ExtentMapping) (e : ExtentMappingEntry) :
    List (Nat × Option MappingKey) :=
  old.toList.map (fun m => (m.extentVersion, none)) ++ [(e.extentVersion, some e.key)]

/-- The state a commit leaves when its checks pass. -/
def commitState (s : MetadataStateMachineData) (e : ExtentMappingEntry) :
    MetadataStateMachineData :=
  { s with
    extentMappings := MapLog.put2 s.extentMappings (e.key, e.mapping)
    operationIndex := MapLog.replay s.operationIndex (opEvents (s.mappingAt e.key) e)
    extentVersionIndex :=
      MapLog.replay s.extentVersionIndex (versionEvents (s.mappingAt e.key) e) }

theorem storeMapping_eq (hvm : s.extentMappings[e.volumeId]? = some vm) :
    s.storeMapping vm e = commitState s e := by
  have hat : s.mappingAt e.key = vm[e.blockRange.start]? := mappingAt_eq hvm _
  have hput : MapLog.put2 s.extentMappings (e.key, e.mapping)
      = s.extentMappings.insert e.volumeId (vm.insert e.blockRange.start e.mapping) := by
    simp only [MapLog.put2, ExtentMappingEntry.key, hvm]
  unfold storeMapping commitState
  rw [hput, hat]
  -- the index updates agree in each combination of an old mapping and of operation ids
  cases hold : vm[e.blockRange.start]? with
  | none =>
    cases hop : e.operationId <;>
      simp [reindex, opEvents, versionEvents, hop, MapLog.replay, MapLog.put]
  | some m =>
    cases hm : m.operationId <;> cases hop : e.operationId <;>
      simp [unindex, reindex, opEvents, versionEvents, hop, hm, MapLog.replay, MapLog.put]

theorem casFailure_eq_none_iff (hvm : s.extentMappings[e.volumeId]? = some vm) :
    casFailure vm e = none ↔
      ∀ v ∈ e.previousVersion, (s.mappingAt e.key).elim 0 (·.extentVersion) = v := by
  have hat : s.mappingAt e.key = vm[e.blockRange.start]? := mappingAt_eq hvm _
  rw [hat]
  unfold casFailure
  cases e.previousVersion with
  | none => simp
  | some v =>
    cases vm[e.blockRange.start]? with
    | none => simp [eq_comm]
    | some m => simp

/-- **A commit that passes its checks** stores its mapping and answers the epoch. -/
theorem commit_of_admits (ht : TablesMatch s) (h : Admits s s.mappingAt e) :
    s.commitExtentMapping e = (commitState s e, some (.epoch s.epoch)) := by
  obtain ⟨hv, hep, hcas⟩ := h
  obtain ⟨vm, hvm⟩ := exists_getElem?_of_mem ((ht e.volumeId).mp hv)
  have hnone := (casFailure_eq_none_iff hvm).mpr hcas
  unfold commitExtentMapping
  rw [if_neg (by simpa using hv), if_neg (by simpa using hep), hvm]
  simp only [hnone, storeMapping_eq hvm]

/-- **A commit that fails a check** answers an error and changes nothing. -/
theorem commit_of_not_admits (ht : TablesMatch s) (h : ¬ Admits s s.mappingAt e) :
    ∃ msg, s.commitExtentMapping e = (s, some (.error msg)) := by
  unfold commitExtentMapping
  by_cases hv : e.volumeId ∈ s.volumes
  · rw [if_neg (by simpa using hv)]
    by_cases hep : e.epoch = s.epoch
    · rw [if_neg (by simpa using hep)]
      obtain ⟨vm, hvm⟩ := exists_getElem?_of_mem ((ht e.volumeId).mp hv)
      have hsome : casFailure vm e ≠ none := fun hn =>
        h ⟨hv, hep, (casFailure_eq_none_iff hvm).mp hn⟩
      obtain ⟨msg, hmsg⟩ := Option.ne_none_iff_exists'.mp hsome
      exact ⟨msg, by rw [hvm]; simp only [hmsg]⟩
    · rw [if_pos hep]
      exact ⟨_, rfl⟩
  · rw [if_pos (by simpa using hv)]
    exact ⟨_, rfl⟩

@[simp] theorem commitState_volumes (s : MetadataStateMachineData) (e : ExtentMappingEntry) :
    (commitState s e).volumes = s.volumes := rfl

@[simp] theorem commitState_epoch (s : MetadataStateMachineData) (e : ExtentMappingEntry) :
    (commitState s e).epoch = s.epoch := rfl

theorem TablesMatch.commitState (ht : TablesMatch s) (e : ExtentMappingEntry) :
    TablesMatch (commitState s e) := by
  intro v
  rw [commitState_volumes, ht v]
  exact (MapLog.mem_put2 _ _ v).symm

/-- The commit's own key holds its mapping; every other key keeps what it held. -/
theorem mappingAt_commitState (ht : TablesMatch s) (hv : e.volumeId ∈ s.volumes) (k : MappingKey) :
    (commitState s e).mappingAt k = if e.key = k then some e.mapping else s.mappingAt k :=
  MapLog.get2_put2 ((ht _).mp hv) k.1 k.2

/-- `Admits` reads the volumes and the epoch of the state, and neither moves. -/
theorem admits_commitState (s : MetadataStateMachineData) (e e' : ExtentMappingEntry)
    (stored : MappingKey → Option ExtentMapping) :
    Admits (commitState s e) stored e' ↔ Admits s stored e' := Iff.rfl

/-! ## 3. Batches -/

/-- The entries of a batch ahead of the first one whose checks fail.  `stored` runs along:
an entry's expected version is compared with what the earlier entries left. -/
def takeAdmitted (s : MetadataStateMachineData) (stored : MappingKey → Option ExtentMapping) :
    List ExtentMappingEntry → List ExtentMappingEntry
  | [] => []
  | e :: es =>
    if Admits s stored e then
      e :: takeAdmitted s (Function.update stored e.key (some e.mapping)) es
    else []

/-- Entries stored one after the other. -/
def commitAll (s : MetadataStateMachineData) (es : List ExtentMappingEntry) :
    MetadataStateMachineData := es.foldl commitState s

@[simp] theorem commitAll_nil (s : MetadataStateMachineData) : commitAll s [] = s := rfl

@[simp] theorem commitAll_cons (s : MetadataStateMachineData) (e : ExtentMappingEntry)
    (es : List ExtentMappingEntry) : commitAll s (e :: es) = commitAll (commitState s e) es := rfl

theorem TablesMatch.commitAll (ht : TablesMatch s) (es : List ExtentMappingEntry) :
    TablesMatch (commitAll s es) := by
  induction es generalizing s with
  | nil => exact ht
  | cons e es ih => exact ih (ht.commitState e)

theorem mappingAt_commitState_eq_update (ht : TablesMatch s) (hv : e.volumeId ∈ s.volumes) :
    (commitState s e).mappingAt = Function.update s.mappingAt e.key (some e.mapping) := by
  funext k
  rw [mappingAt_commitState ht hv, Function.update_apply]
  simp only [eq_comm]

theorem takeAdmitted_commitState (s : MetadataStateMachineData) (e : ExtentMappingEntry)
    (stored : MappingKey → Option ExtentMapping) (es : List ExtentMappingEntry) :
    takeAdmitted (commitState s e) stored es = takeAdmitted s stored es := by
  induction es generalizing stored with
  | nil => rfl
  | cons e' es ih => simp only [takeAdmitted, admits_commitState, ih]

theorem mem_of_mem_takeAdmitted {stored : MappingKey → Option ExtentMapping}
    {es : List ExtentMappingEntry} (h : e ∈ takeAdmitted s stored es) :
    e ∈ es ∧ e.volumeId ∈ s.volumes := by
  induction es generalizing stored with
  | nil => exact absurd h List.not_mem_nil
  | cons e' es ih =>
    rw [takeAdmitted] at h
    split at h
    · rename_i had
      rcases List.mem_cons.mp h with rfl | h
      · exact ⟨List.mem_cons_self, had.1⟩
      · exact (ih h).imp_left (List.mem_cons_of_mem _)
    · exact absurd h List.not_mem_nil

/-- **A batch stores the entries ahead of the first rejected one**, and answers an error
exactly when there is a rejected one. -/
theorem batch_eq (ht : TablesMatch s) (es : List ExtentMappingEntry) :
    (s.commitExtentMappingBatch es).1 = commitAll s (takeAdmitted s s.mappingAt es) ∧
      ((takeAdmitted s s.mappingAt es = es ∧
          (s.commitExtentMappingBatch es).2 = some (.epoch s.epoch)) ∨
        (takeAdmitted s s.mappingAt es ≠ es ∧
          ∃ msg, (s.commitExtentMappingBatch es).2 = some (.error msg))) := by
  induction es generalizing s with
  | nil => exact ⟨rfl, Or.inl ⟨rfl, rfl⟩⟩
  | cons e es ih =>
    by_cases had : Admits s s.mappingAt e
    · have hbatch : s.commitExtentMappingBatch (e :: es)
          = (commitState s e).commitExtentMappingBatch es := by
        rw [commitExtentMappingBatch, commit_of_admits ht had]
        rfl
      have htake : takeAdmitted s s.mappingAt (e :: es)
          = e :: takeAdmitted (commitState s e) (commitState s e).mappingAt es := by
        rw [takeAdmitted, if_pos had, takeAdmitted_commitState,
          mappingAt_commitState_eq_update ht had.1]
      rw [hbatch, htake]
      obtain ⟨hst, hans⟩ := ih (ht.commitState e)
      refine ⟨by rw [hst, commitAll_cons], ?_⟩
      simpa only [List.cons.injEq, true_and, ne_eq, commitState_epoch] using hans
    · obtain ⟨msg, hmsg⟩ := commit_of_not_admits ht had
      have hbatch : s.commitExtentMappingBatch (e :: es) = (s, some (.error msg)) := by
        rw [commitExtentMappingBatch, hmsg]
        rfl
      have htake : takeAdmitted s s.mappingAt (e :: es) = [] := by
        rw [takeAdmitted, if_neg had]
      rw [hbatch, htake]
      exact ⟨rfl, Or.inr ⟨by simp, msg, rfl⟩⟩

/-! ## 4. The other requests -/

/-- The operation-index events of mappings that go away. -/
def dropEvents (ms : List ExtentMapping) : List (OperationId × Option MappingKey) :=
  (ms.filterMap (·.operationId)).map (·, none)

/-- Unindexing mappings one after the other touches the two indexes and nothing else. -/
theorem foldl_unindex (ms : List ExtentMapping) (s : MetadataStateMachineData) :
    ms.foldl unindex s =
      { s with
        operationIndex := MapLog.replay s.operationIndex (dropEvents ms)
        extentVersionIndex :=
          MapLog.replay s.extentVersionIndex (ms.map fun m => (m.extentVersion, none)) } := by
  induction ms generalizing s with
  | nil => rfl
  | cons m ms ih =>
    rw [List.foldl_cons, ih]
    cases hop : m.operationId with
    | none => simp [unindex, dropEvents, hop, MapLog.replay, MapLog.put]
    | some o => simp [unindex, dropEvents, hop, MapLog.replay, MapLog.put]

/-- **`DeleteVolume`** fails without effect, or drops the volume with its table and unindexes
every mapping of the table. -/
theorem deleteVolume_cases (ht : TablesMatch s) (v : VolumeId) :
    (v ∉ s.volumes ∧ ∃ msg, s.deleteVolume v = (s, some (.error msg))) ∨
      ∃ vm, s.extentMappings[v]? = some vm ∧ v ∈ s.volumes ∧
        s.deleteVolume v =
          ({ s with
              volumes := s.volumes.erase v
              extentMappings := s.extentMappings.erase v
              operationIndex := MapLog.replay s.operationIndex (dropEvents (mapValues vm))
              extentVersionIndex := MapLog.replay s.extentVersionIndex
                ((mapValues vm).map fun m => (m.extentVersion, none))
              leases := s.leases.erase v }, some .ok) := by
  unfold deleteVolume
  by_cases hv : v ∈ s.volumes
  · right
    obtain ⟨vm, hvm⟩ := exists_getElem?_of_mem ((ht v).mp hv)
    refine ⟨vm, hvm, hv, ?_⟩
    rw [if_neg (by simpa using hv)]
    simp only [hvm, foldl_unindex]
  · left
    rw [if_pos (by simpa using hv)]
    exact ⟨hv, _, rfl⟩

/-- **`CreateVolume`** fails without effect, or adds a volume with an empty table. -/
theorem createVolume_cases (s : MetadataStateMachineData) (v : VolumeId) (size : Nat)
    (protection : ProtectionPolicy) (extentSize : Nat) :
    (∃ msg, s.createVolume v size protection extentSize = (s, some (.error msg))) ∨
      ∃ md, v ∉ s.volumes ∧ s.createVolume v size protection extentSize =
        ({ s with
            volumes := s.volumes.insert v md
            extentMappings := s.extentMappings.insert v ∅ }, some .ok) := by
  unfold createVolume
  by_cases hv : v ∈ s.volumes
  · rw [if_pos (by simpa using hv)]
    exact Or.inl ⟨_, rfl⟩
  · rw [if_neg (by simpa using hv)]
    cases protection.validate with
    | error e => exact Or.inl ⟨_, rfl⟩
    | ok u => exact Or.inr ⟨_, hv, rfl⟩

theorem mappingAt_insert_empty (ht : TablesMatch s) (hv : v ∉ s.volumes) (k : MappingKey) :
    MapLog.get2 (s.extentMappings.insert v ∅) k.1 k.2 = s.mappingAt k := by
  unfold mappingAt MapLog.get2
  rw [ExtTreeMap.getElem?_insert]
  by_cases hk : compare v k.1 = .eq
  · have hnone : s.extentMappings[k.1]? = none := by
      rw [LawfulEqOrd.compare_eq_iff_eq] at hk
      rw [← hk]
      exact ExtTreeMap.getElem?_eq_none fun hmem => hv ((ht v).mpr hmem)
    rw [if_pos hk, hnone]
    exact ExtTreeMap.getElem?_empty
  · rw [if_neg hk]

theorem mappingAt_erase (s : MetadataStateMachineData) (v : VolumeId) (k : MappingKey) :
    MapLog.get2 (s.extentMappings.erase v) k.1 k.2 = if v = k.1 then none else s.mappingAt k := by
  unfold mappingAt MapLog.get2
  rw [ExtTreeMap.getElem?_erase]
  by_cases hk : v = k.1
  · rw [if_pos hk, if_pos (LawfulEqOrd.compare_eq_iff_eq.mpr hk)]
    rfl
  · rw [if_neg hk, if_neg fun h => hk (LawfulEqOrd.compare_eq_iff_eq.mp h)]

/-- A lease request moves the leases and the version counter, nothing else. -/
theorem applyLeaseRequest_frame (ovf : Overflow) (s : MetadataStateMachineData)
    (req : LeaseRequest) :
    ∃ leases counter, (s.applyLeaseRequest ovf req).1
      = { s with leases := leases, leaseVersionCounter := counter } := by
  cases req with
  | acquire | renew | release =>
    simp only [applyLeaseRequest, acquireLease, renewLease, releaseLease]
    repeat' split
    all_goals exact ⟨_, _, rfl⟩

/-- The requests that can change the volumes, the mappings or an index. -/
def MetadataRequest.touchesMappings : MetadataRequest → Bool
  | .createVolume .. | .deleteVolume _ | .commitExtentMapping _ | .commitExtentMappingBatch _ =>
    true
  | _ => false

/-- **Every other request leaves the four tables alone.** -/
theorem applyRequest_frame (ovf : Overflow) (s : MetadataStateMachineData)
    (h : r.touchesMappings = false) :
    (s.applyRequest ovf r).1.volumes = s.volumes ∧
      (s.applyRequest ovf r).1.extentMappings = s.extentMappings ∧
      (s.applyRequest ovf r).1.operationIndex = s.operationIndex ∧
      (s.applyRequest ovf r).1.extentVersionIndex = s.extentVersionIndex := by
  cases r with
  | createVolume | deleteVolume | commitExtentMapping | commitExtentMappingBatch => cases h
  | lease req =>
    obtain ⟨leases, counter, heq⟩ := applyLeaseRequest_frame ovf s req
    simp only [applyRequest, heq, and_self]
  | registerNode n addr =>
    simp only [applyRequest, registerNode]
    repeat' split
    all_goals exact ⟨rfl, rfl, rfl, rfl⟩
  | removeNode | updateDiskUsage | deregisterDisk =>
    simp only [applyRequest]
    split <;> exact ⟨rfl, rfl, rfl, rfl⟩
  | addNode | advanceEpoch | updatePlacementMap | registerDisk | cleanupExpiredLeases =>
    exact ⟨rfl, rfl, rfl, rfl⟩

def MetadataRequest.entries : MetadataRequest → List ExtentMappingEntry
  | .commitExtentMapping e => [e]
  | .commitExtentMappingBatch es => es
  | _ => []

def MetadataRequest.deletes : MetadataRequest → Option VolumeId
  | .deleteVolume v => some v
  | _ => none

/-- A mapping of the table a `DeleteVolume` drops. -/
theorem mappingAt_of_mem_mapValues (hvm : s.extentMappings[v]? = some vm) (hm : m ∈ mapValues vm) :
    ∃ b, s.mappingAt (v, b) = some m := by
  obtain ⟨b, hb⟩ := mem_mapValues.mp hm
  exact ⟨b, (mappingAt_eq hvm b).trans hb⟩

theorem mappingAt_eq_none_of_not_mem (ht : TablesMatch s) (hk : k.1 ∉ s.volumes) :
    s.mappingAt k = none := by
  have hnone : s.extentMappings[k.1]? = none :=
    ExtTreeMap.getElem?_eq_none fun hmem => hk ((ht k.1).mpr hmem)
  rw [mappingAt, MapLog.get2, hnone]
  rfl

/-- **A request without entries** drops the mappings of the volume it deletes, and no other;
and it forgets an operation only if one of those mappings carried it. -/
theorem applyRequest_of_no_entries (ovf : Overflow) (ht : TablesMatch s) (hr : r.entries = []) :
    (∀ k, (s.applyRequest ovf r).1.mappingAt k
        = if r.deletes = some k.1 then none else s.mappingAt k) ∧
      ∀ o, (∀ k m, r.deletes = some k.1 → s.mappingAt k = some m → m.operationId ≠ some o) →
        (s.applyRequest ovf r).1.operationIndex[o]? = s.operationIndex[o]? := by
  by_cases htouch : r.touchesMappings
  · cases r with
    | createVolume v size protection extentSize =>
      rw [applyRequest]
      rcases createVolume_cases s v size protection extentSize with ⟨msg, heq⟩ | ⟨md, hv, heq⟩
      · rw [heq]
        exact ⟨fun _ => rfl, fun _ _ => rfl⟩
      · rw [heq]
        exact ⟨fun k => mappingAt_insert_empty ht hv k, fun _ _ => rfl⟩
    | deleteVolume v =>
      rw [applyRequest]
      rcases deleteVolume_cases ht v with ⟨hv, msg, heq⟩ | ⟨vm, hvm, -, heq⟩
      · rw [heq]
        refine ⟨fun k => ?_, fun _ _ => rfl⟩
        split
        · rename_i hk
          cases hk
          exact mappingAt_eq_none_of_not_mem ht hv
        · rfl
      · rw [heq]
        refine ⟨fun k => ?_, fun o ho => ?_⟩
        · simp only [MetadataRequest.deletes, Option.some_inj]
          exact mappingAt_erase s v k
        · have hlog : MapLog.last o (dropEvents (mapValues vm)) = none := by
            refine MapLog.last_eq_none ?_
            intro ev hev heq
            obtain ⟨o', ho', rfl⟩ := List.mem_map.mp hev
            obtain ⟨m, hm, hmo⟩ := List.mem_filterMap.mp ho'
            obtain ⟨b, hb⟩ := mappingAt_of_mem_mapValues hvm hm
            exact ho (v, b) m rfl hb (hmo.trans (congrArg some heq))
          rw [MapLog.getElem?_replay, hlog]
          rfl
    | commitExtentMapping e => exact absurd hr (List.cons_ne_nil _ _)
    | commitExtentMappingBatch es =>
      cases (hr : es = [])
      exact ⟨fun _ => rfl, fun _ _ => rfl⟩
    | _ => cases htouch
  · obtain ⟨-, hmap, hidx, -⟩ := applyRequest_frame ovf s (Bool.eq_false_iff.mpr htouch)
    refine ⟨fun k => ?_, fun o _ => by rw [hidx]⟩
    have hdel : r.deletes = none := by
      cases r with
      | deleteVolume v => exact absurd rfl htouch
      | _ => rfl
    rw [hdel, if_neg (by simp), mappingAt, mappingAt, hmap]

/-- A mapping that is there after a request without entries was there before. -/
theorem mappingAt_of_no_entries {ovf : Overflow} (ht : TablesMatch s) (hr : r.entries = [])
    (hm : (s.applyRequest ovf r).1.mappingAt k = some m) : s.mappingAt k = some m := by
  rw [(applyRequest_of_no_entries ovf ht hr).1] at hm
  split at hm
  · cases hm
  · exact hm

/-! ## 5. The tables match in every reachable state -/

theorem commit_fst (ht : TablesMatch s) (e : ExtentMappingEntry) :
    (s.commitExtentMapping e).1 = commitAll s (takeAdmitted s s.mappingAt [e]) := by
  by_cases had : Admits s s.mappingAt e
  · rw [commit_of_admits ht had, takeAdmitted, if_pos had]
    rfl
  · obtain ⟨msg, hmsg⟩ := commit_of_not_admits ht had
    rw [hmsg, takeAdmitted, if_neg had]
    rfl

theorem TablesMatch.applyRequest (ovf : Overflow) (ht : TablesMatch s) (r : MetadataRequest) :
    TablesMatch (s.applyRequest ovf r).1 := by
  by_cases hr : r.touchesMappings
  · cases r with
    | commitExtentMapping e =>
      rw [MetadataStateMachineData.applyRequest, commit_fst ht]
      exact ht.commitAll _
    | commitExtentMappingBatch es =>
      rw [MetadataStateMachineData.applyRequest, (batch_eq ht es).1]
      exact ht.commitAll _
    | createVolume v size protection extentSize =>
      rw [MetadataStateMachineData.applyRequest]
      rcases createVolume_cases s v size protection extentSize with ⟨msg, heq⟩ | ⟨m, -, heq⟩
      · rw [heq]; exact ht
      · rw [heq]
        intro w
        simp only [ExtTreeMap.mem_insert, ht w]
    | deleteVolume v =>
      rw [MetadataStateMachineData.applyRequest]
      rcases deleteVolume_cases ht v with ⟨-, msg, heq⟩ | ⟨vm, -, -, heq⟩
      · rw [heq]; exact ht
      · rw [heq]
        intro w
        simp only [ExtTreeMap.mem_erase, ht w]
    | _ => cases hr
  · obtain ⟨hvol, hmap, -, -⟩ := applyRequest_frame ovf s (Bool.eq_false_iff.mpr hr)
    intro v
    rw [hvol, hmap]
    exact ht v

/-- The `expect` of `CommitExtentMapping` never fires: **in every reachable state the volumes
and the mapping tables have the same keys**. -/
theorem tablesMatch_after (ovf : Overflow) (reqs : List MetadataRequest) :
    TablesMatch (after ovf reqs) :=
  Machine.runState_invariant tablesMatch_new (fun _ r ht => ht.applyRequest ovf r) reqs

end Blockyard.Raft
