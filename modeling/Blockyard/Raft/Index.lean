/-
# The secondary indexes of the metadata state machine

`blockyard-raft`, `state_machine.rs`: next to the mappings the state machine keeps two indexes,
from operation ids and from extent versions to the place of a mapping.  Neither is a key: two
blocks may be committed with one operation id, and every block of a volume that was placed
deterministically has version 1.

The maintenance code treats them as keys all the same.  It is the textbook maintenance of
`Lib/SecondaryIndex` (§1), so:

* what a lookup returns is always a live mapping with the id or version asked for
  (`indexes_sound`);
* but overwriting a block, or deleting a volume, takes the OLD mapping's entry out of the index,
  also when another live mapping carries the same id or version.  That mapping can no longer be
  found.  `indexes_complete_iff` says exactly which runs are free of this: those in which no
  overwritten or deleted mapping shares its id or version with a mapping that stays.
-/
import Blockyard.Raft.Unbatched
import Blockyard.Lib.SecondaryIndex

open Std

namespace Blockyard.Raft

open MetadataStateMachineData SecondaryIndex

/-! ## 1. The indexes as indexes of a table -/

variable {s : MetadataStateMachineData} {K : Type} {t : Indexed MappingKey K ExtentMapping}
  {v : VolumeId}

def byOperation (s : MetadataStateMachineData) : Indexed MappingKey OperationId ExtentMapping where
  table := s.mappingAt
  index o := s.operationIndex[o]?

def byVersion (s : MetadataStateMachineData) : Indexed MappingKey Nat ExtentMapping where
  table := s.mappingAt
  index v := s.extentVersionIndex[v]?

def versionOf (m : ExtentMapping) : Option Nat := some m.extentVersion

theorem lookupByOperationId_eq (s : MetadataStateMachineData) (o : OperationId) :
    s.lookupByOperationId o = (byOperation s).lookup o := rfl

theorem lookupByExtentVersion_eq (s : MetadataStateMachineData) (v : Nat) :
    s.lookupByExtentVersion v = (byVersion s).lookup v := rfl

theorem byOperation_commitState (ht : TablesMatch s) {e : ExtentMappingEntry}
    (hv : e.volumeId ∈ s.volumes) :
    byOperation (commitState s e)
      = put (·.operationId) (byOperation s) e.key e.mapping := by
  ext1
  · exact mappingAt_commitState_eq_update ht hv
  · funext o
    by_cases ho : e.operationId = some o
    · have hidx := operationIndex_commitState_self s ho
      simp [byOperation, put, ExtentMappingEntry.mapping, ho, hidx]
    · have hidx := operationIndex_commitState (s := s) ho
      simp only [byOperation, put, ExtentMappingEntry.mapping, ho, hidx, if_false]
      rfl

/-- What one commit says about a version: its own leads to its key, the overwritten mapping's
goes. -/
theorem extentVersionIndex_commitState (s : MetadataStateMachineData) (e : ExtentMappingEntry)
    (v : Nat) :
    (commitState s e).extentVersionIndex[v]? =
      if versionOf e.mapping = some v then some e.key
      else if (s.mappingAt e.key).bind versionOf = some v then none
      else s.extentVersionIndex[v]? := by
  simp only [commitState, MapLog.getElem?_replay, versionEvents, MapLog.last_append,
    MapLog.last_cons, MapLog.last_nil, Option.none_or, versionOf, ExtentMappingEntry.mapping,
    Option.some_inj]
  cases s.mappingAt e.key with
  | none => by_cases hown : e.extentVersion = v <;> simp [hown]
  | some m =>
    by_cases hown : e.extentVersion = v
    · simp [hown]
    · by_cases hm : m.extentVersion = v <;> simp [hown, hm, MapLog.last_cons, versionOf]

theorem byVersion_commitState (ht : TablesMatch s) {e : ExtentMappingEntry}
    (hv : e.volumeId ∈ s.volumes) :
    byVersion (commitState s e) = put versionOf (byVersion s) e.key e.mapping := by
  ext1
  · exact mappingAt_commitState_eq_update ht hv
  · funext v
    exact extentVersionIndex_commitState s e v

theorem mem_mapValues_iff_mappingAt {vm : BTreeMap Nat ExtentMapping}
    (hvm : s.extentMappings[v]? = some vm) (m : ExtentMapping) :
    m ∈ mapValues vm ↔ ∃ k : MappingKey, k.1 = v ∧ s.mappingAt k = some m := by
  constructor
  · intro hm
    obtain ⟨b, hb⟩ := mappingAt_of_mem_mapValues hvm hm
    exact ⟨(v, b), rfl, hb⟩
  · rintro ⟨⟨w, b⟩, rfl, hb⟩
    rw [mappingAt_eq hvm] at hb
    exact mem_mapValues.mpr ⟨b, hb⟩

open Classical in
/-- Clearing the attribute of every mapping of a table clears what the table's mappings carry,
and nothing else. -/
theorem last_clear [DecidableEq K] {vm : BTreeMap Nat ExtentMapping}
    (hvm : s.extentMappings[v]? = some vm) (attr : ExtentMapping → Option K) (x : K)
    (old : Option MappingKey) :
    (MapLog.last x (((mapValues vm).filterMap attr).map (·, none))).getD old
      = if ∃ k : MappingKey, k.1 = v ∧ (s.mappingAt k).bind attr = some x then none else old := by
  by_cases hex : ∃ k : MappingKey, k.1 = v ∧ (s.mappingAt k).bind attr = some x
  · obtain ⟨k, hk, hx⟩ := hex
    obtain ⟨m, hm, hmx⟩ := Option.bind_eq_some_iff.mp hx
    have hmem : m ∈ mapValues vm := (mem_mapValues_iff_mappingAt hvm m).mpr ⟨k, hk, hm⟩
    rw [if_pos ⟨k, hk, hx⟩, MapLog.last_eq_some (v := none)]
    · rfl
    · refine ⟨(x, none), List.mem_map.mpr ⟨x, ?_, rfl⟩, rfl⟩
      exact List.mem_filterMap.mpr ⟨m, hmem, hmx⟩
    · intro ev hev _
      obtain ⟨x', -, rfl⟩ := List.mem_map.mp hev
      rfl
  · rw [if_neg hex, MapLog.last_eq_none]
    · rfl
    · intro ev hev hx
      obtain ⟨x', hx', rfl⟩ := List.mem_map.mp hev
      obtain ⟨m, hm, hmx⟩ := List.mem_filterMap.mp hx'
      obtain ⟨k, hk, hkm⟩ := (mem_mapValues_iff_mappingAt hvm m).mp hm
      refine hex ⟨k, hk, ?_⟩
      rw [hkm, Option.bind_some, hmx]
      exact congrArg some hx

theorem drop_of_not_mem (ht : TablesMatch s) (hv : v ∉ s.volumes) (attr : ExtentMapping → Option K)
    (htable : t.table = s.mappingAt) :
    drop attr t (·.1 = v) = t := by
  have hnone : ∀ k : MappingKey, k.1 = v → t.table k = none := by
    rintro k rfl
    rw [htable]
    exact mappingAt_eq_none_of_not_mem ht hv
  ext1
  · funext k
    by_cases hk : k.1 = v
    · simp [drop, hk, hnone k hk]
    · simp [drop, hk]
  · funext x
    have hno : ¬ ∃ k : MappingKey, k.1 = v ∧ t.attrAt attr k = some x := by
      rintro ⟨k, hk, hx⟩
      simp [Indexed.attrAt, hnone k hk] at hx
    simp only [drop, if_neg hno]

theorem byOperation_deleteVolume (ht : TablesMatch s) (v : VolumeId) :
    byOperation (s.deleteVolume v).1 = drop (·.operationId) (byOperation s) (·.1 = v) := by
  rcases deleteVolume_cases ht v with ⟨hv, msg, heq⟩ | ⟨vm, hvm, hv, heq⟩
  · rw [heq, drop_of_not_mem ht hv _ rfl]
  · rw [heq]
    ext1
    · funext k
      simp only [byOperation, drop, eq_comm (a := k.1)]
      exact mappingAt_erase s v k
    · funext o
      simp only [byOperation, MapLog.getElem?_replay, dropEvents]
      exact last_clear hvm _ o _

theorem byVersion_deleteVolume (ht : TablesMatch s) (v : VolumeId) :
    byVersion (s.deleteVolume v).1 = drop versionOf (byVersion s) (·.1 = v) := by
  rcases deleteVolume_cases ht v with ⟨hv, msg, heq⟩ | ⟨vm, hvm, hv, heq⟩
  · rw [heq, drop_of_not_mem ht hv _ rfl]
  · have hlog : (mapValues vm).map (fun m => (m.extentVersion, (none : Option MappingKey)))
        = ((mapValues vm).filterMap versionOf).map (·, none) := by
      have hversion : versionOf = some ∘ (·.extentVersion) := rfl
      simp [hversion]
    rw [heq]
    ext1
    · funext k
      simp only [byVersion, drop, eq_comm (a := k.1)]
      exact mappingAt_erase s v k
    · funext x
      simp only [byVersion, MapLog.getElem?_replay, hlog]
      exact last_clear hvm _ x _

/-! ## 2. One request -/

open Classical in
/-- What a request does to an index on the attribute `attr`. -/
noncomputable def indexStep {K : Type} [DecidableEq K] (attr : ExtentMapping → Option K)
    (s : MetadataStateMachineData) (t : Indexed MappingKey K ExtentMapping) :
    MetadataRequest → Indexed MappingKey K ExtentMapping
  | .commitExtentMapping e => if Admits s s.mappingAt e then put attr t e.key e.mapping else t
  | .deleteVolume v => drop attr t (·.1 = v)
  | _ => t

/-- **The two indexes are kept the same way**, one on the operation id and one on the version. -/
theorem indexes_applyRequest (ovf : Overflow) (ht : TablesMatch s) {r : MetadataRequest}
    (hr : r.isBatch = false) :
    byOperation (s.applyRequest ovf r).1 = indexStep (·.operationId) s (byOperation s) r ∧
      byVersion (s.applyRequest ovf r).1 = indexStep versionOf s (byVersion s) r := by
  rcases tables_step ovf ht hr with ⟨e, rfl, had, hst⟩ | ⟨v, rfl⟩ | ⟨hcommit, hdel, hmap, hop, hver⟩
  · rw [hst, indexStep, if_pos had, indexStep, if_pos had]
    exact ⟨byOperation_commitState ht had.1, byVersion_commitState ht had.1⟩
  · exact ⟨byOperation_deleteVolume ht v, byVersion_deleteVolume ht v⟩
  · have hidle : ∀ {K : Type} [DecidableEq K] (attr : ExtentMapping → Option K)
        (t : Indexed MappingKey K ExtentMapping), indexStep attr s t r = t := by
      intro K _ attr t
      cases r with
      | commitExtentMapping e => exact if_neg (hcommit e rfl)
      | deleteVolume v => exact absurd rfl (hdel v)
      | _ => rfl
    simp only [hidle, byOperation, byVersion, hmap, hop, hver, and_self]

theorem sound_indexStep [DecidableEq K] {attr : ExtentMapping → Option K} (hs : Sound attr t)
    (r : MetadataRequest) :
    Sound attr (indexStep attr s t r) := by
  cases r with
  | commitExtentMapping e =>
    rw [indexStep]
    split
    · exact hs.put e.key e.mapping
    · exact hs
  | deleteVolume v => exact hs.drop _
  | _ => exact hs

/-! ## 3. Lookups return what was asked for -/

def IndexesSound (s : MetadataStateMachineData) : Prop :=
  Sound (·.operationId) (byOperation s) ∧ Sound versionOf (byVersion s)

theorem indexesSound_new : IndexesSound .new := by
  constructor
  · intro o k hk
    simp [byOperation, MetadataStateMachineData.new] at hk
  · intro v k hk
    simp [byVersion, MetadataStateMachineData.new] at hk

theorem IndexesSound.applyRequest (ovf : Overflow) (ht : TablesMatch s) (h : IndexesSound s)
    {r : MetadataRequest} (hr : r.isBatch = false) :
    IndexesSound (s.applyRequest ovf r).1 := by
  obtain ⟨hop, hver⟩ := indexes_applyRequest ovf ht hr
  constructor
  · rw [hop]
    exact sound_indexStep h.1 r
  · rw [hver]
    exact sound_indexStep h.2 r

theorem indexesSound_after (ovf : Overflow) (reqs : List MetadataRequest) :
    IndexesSound (after ovf reqs) :=
  after_of_singles ovf indexesSound_new (fun _ _ ht hr h => h.applyRequest ovf ht hr) reqs

/-- **The secondary indexes are sound.**  In every reachable state an entry of the operation
index leads to a stored mapping with that operation id, and an entry of the version index to a
stored mapping with that version; so a lookup returns a live mapping that was committed with
what it was asked for. -/
theorem indexes_sound (ovf : Overflow) (reqs : List MetadataRequest) :
    (∀ o k, (after ovf reqs).operationIndex[o]? = some k →
        ∃ m, (after ovf reqs).mappingAt k = some m ∧ m.operationId = some o) ∧
      (∀ (v : Nat) k, (after ovf reqs).extentVersionIndex[v]? = some k →
        ∃ m, (after ovf reqs).mappingAt k = some m ∧ m.extentVersion = v) ∧
      (∀ o m, (after ovf reqs).lookupByOperationId o = some m →
        (∃ k, (after ovf reqs).mappingAt k = some m) ∧ m.operationId = some o) ∧
      ∀ v m, (after ovf reqs).lookupByExtentVersion v = some m →
        (∃ k, (after ovf reqs).mappingAt k = some m) ∧ m.extentVersion = v := by
  obtain ⟨hop, hver⟩ := indexesSound_after ovf reqs
  refine ⟨?_, ?_, ?_, ?_⟩
  · intro o k hk
    exact attrAt_eq_some.mp (hop o k hk)
  · intro v k hk
    obtain ⟨m, hm, hv⟩ := attrAt_eq_some.mp (hver v k hk)
    exact ⟨m, hm, Option.some.inj hv⟩
  · intro o m hm
    rw [lookupByOperationId_eq] at hm
    exact hop.lookup hm
  · intro v m hm
    rw [lookupByExtentVersion_eq] at hm
    obtain ⟨hlive, hv⟩ := hver.lookup hm
    exact ⟨hlive, Option.some.inj hv⟩

/-! ## 4. Lookups can forget -/

/-- **The promise**: whenever a live mapping has a version or an operation id, looking it up
returns a live mapping that has it. -/
structure IndexesComplete (s : MetadataStateMachineData) : Prop where
  versions : ∀ k m, s.mappingAt k = some m → ∃ k' m', s.mappingAt k' = some m' ∧
    m'.extentVersion = m.extentVersion ∧ s.lookupByExtentVersion m.extentVersion = some m'
  operations : ∀ k m o, s.mappingAt k = some m → m.operationId = some o →
    ∃ k' m', s.mappingAt k' = some m' ∧ m'.operationId = some o ∧
      s.lookupByOperationId o = some m'

/-- A request takes no attribute away from a mapping that stays.  An admitted commit may
overwrite a mapping whose attribute no other mapping has, or whose attribute is its own too; a
`DeleteVolume` may drop mappings whose attributes no mapping of another volume has. -/
def Spares {K : Type} (attr : ExtentMapping → Option K) (s : MetadataStateMachineData) :
    MetadataRequest → Prop
  | .commitExtentMapping e => Admits s s.mappingAt e →
      ∀ m x, s.mappingAt e.key = some m → attr m = some x → attr e.mapping = some x ∨
        ∀ k m', s.mappingAt k = some m' → attr m' = some x → k = e.key
  | .deleteVolume v => ∀ b m x, s.mappingAt (v, b) = some m → attr m = some x →
      ∀ k m', s.mappingAt k = some m' → attr m' = some x → k.1 = v
  | _ => True

/-- **A request keeps an index complete exactly when it spares the mappings that stay.** -/
theorem complete_indexStep_iff [DecidableEq K] {attr : ExtentMapping → Option K}
    (htable : t.table = s.mappingAt) (hc : Complete attr t) (r : MetadataRequest) :
    Complete attr (indexStep attr s t r) ↔ Spares attr s r := by
  have hat : ∀ k x, t.attrAt attr k = some x ↔ ∃ m, s.mappingAt k = some m ∧ attr m = some x := by
    intro k x
    rw [attrAt_eq_some, htable]
  cases r with
  | commitExtentMapping e =>
    by_cases had : Admits s s.mappingAt e
    · rw [indexStep, if_pos had, complete_put_iff hc]
      simp only [hat, Spares]
      constructor
      · intro h _ m x hm hx
        exact (h x ⟨m, hm, hx⟩).imp_right fun honly k m' hm' hx' => honly k ⟨m', hm', hx'⟩
      · rintro h x ⟨m, hm, hx⟩
        refine (h had m x hm hx).imp_right ?_
        rintro honly k ⟨m', hm', hx'⟩
        exact honly k m' hm' hx'
    · rw [indexStep, if_neg had]
      exact ⟨fun _ h => absurd h had, fun _ => hc⟩
  | deleteVolume v =>
    simp only [indexStep, complete_drop_iff hc, hat, Spares]
    constructor
    · intro h b m x hm hx k m' hm' hx'
      exact h (v, b) x rfl ⟨m, hm, hx⟩ k ⟨m', hm', hx'⟩
    · rintro h ⟨w, b⟩ x rfl ⟨m, hm, hx⟩ k ⟨m', hm', hx'⟩
      exact h b m x hm hx k m' hm' hx'
  | _ =>
    simp only [indexStep, Spares, iff_true]
    exact hc

theorem IndexesSound.complete_iff (h : IndexesSound s) :
    IndexesComplete s ↔
      Complete (·.operationId) (byOperation s) ∧ Complete versionOf (byVersion s) := by
  constructor
  · intro hc
    refine ⟨h.1.complete_iff.mpr ?_, h.2.complete_iff.mpr ?_⟩
    · intro k m o hm ho
      exact hc.operations k m o hm ho
    · intro k m v hm hv
      cases hv
      obtain ⟨k', m', hm', hv', hlook⟩ := hc.versions k m hm
      exact ⟨k', m', hm', congrArg some hv', hlook⟩
  · rintro ⟨hop, hver⟩
    constructor
    · intro k m hm
      obtain ⟨k', m', hm', hv', hlook⟩ := h.2.complete_iff.mp hver k m _ hm rfl
      exact ⟨k', m', hm', Option.some.inj hv', hlook⟩
    · intro k m o hm ho
      exact h.1.complete_iff.mp hop k m o hm ho

theorem indexesComplete_new : IndexesComplete .new where
  versions _ _ hm := absurd hm mappingAt_new_ne_some
  operations _ _ _ hm := absurd hm mappingAt_new_ne_some

/-- **When the secondary indexes are complete.**  Take any run, each batch as the commits it
stores.  Every live mapping can be found at every state the run passes exactly when no request
of the run overwrites or deletes a mapping that shares its operation id or its version with one
that stays. -/
theorem indexes_complete_iff (ovf : Overflow) (reqs : List MetadataRequest) :
    (∀ pre, pre <+: unbatched ovf reqs → IndexesComplete (after ovf pre)) ↔
      Machine.Along (applyRequest ovf)
        (fun s r => Spares (·.operationId) s r ∧ Spares versionOf s r) .new
        (unbatched ovf reqs) := by
  refine Machine.forall_prefix_iff_along (I := fun s => TablesMatch s ∧ IndexesSound s)
    (Q := fun r => r.isBatch = false) ⟨tablesMatch_new, indexesSound_new⟩ indexesComplete_new
    (fun r hr => isBatch_of_mem_unbatched hr) ?_ ?_
  · rintro s r ⟨ht, hs⟩ hr
    exact ⟨ht.applyRequest ovf r, hs.applyRequest ovf ht hr⟩
  · rintro s r ⟨ht, hs⟩ hr hc
    obtain ⟨hop, hver⟩ := indexes_applyRequest ovf ht hr
    obtain ⟨hcop, hcver⟩ := hs.complete_iff.mp hc
    rw [(hs.applyRequest ovf ht hr).complete_iff, hop, hver, complete_indexStep_iff rfl hcop,
      complete_indexStep_iff rfl hcver]

/-- One volume, blocks 0 and 1 committed with version 1, block 0 overwritten with version 2:
block 1 is still stored with version 1, and looking version 1 up returns nothing. -/
theorem shared_version_is_forgotten :
    let v : VolumeId := ⟨7#128⟩
    let reqs : List MetadataRequest := [.createVolume v 8192 (.replicated 1) 1,
      .commitExtentMapping (plainEntry v 0 1 0), .commitExtentMapping (plainEntry v 1 1 0),
      .commitExtentMapping (plainEntry v 0 2 0)]
    (after .wrapping reqs).mappingAt (v, 1) = some (plainEntry v 1 1 0).mapping ∧
      (after .wrapping reqs).lookupByExtentVersion 1 = none ∧
      ¬ IndexesComplete (after .wrapping reqs) := by
  intro v reqs
  have hlive : (after .wrapping reqs).mappingAt (v, 1) = some (plainEntry v 1 1 0).mapping := by
    decide
  have hlook : (after .wrapping reqs).lookupByExtentVersion 1 = none := by decide
  refine ⟨hlive, hlook, fun hc => ?_⟩
  obtain ⟨k', m', -, -, hfound⟩ := hc.versions _ _ hlive
  exact absurd (hlook.symm.trans hfound) (by simp)

end Blockyard.Raft
