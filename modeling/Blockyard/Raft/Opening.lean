/-
# Opening the state machine store

`blockyard-raft`, `persistent_store.rs`: `PersistentStateMachineStore::new` reads three values
from its table, each for itself, and leaves out what does not decode.  So the state it comes up
with can be put together from values that do not belong together.  The case that hurts is a state
that does not decode beside a `last_applied` that does: the store is EMPTY, claims to have applied
the log, and Raft never hands it those entries again (`unreadable_data_is_skipped`).

`opening_sound_iff` is the exact condition on the three values.  §3 says what a database holds that
only the store itself has written, in any schedule of replicas: nothing, and from the first
`persist_state` on all three values, of the state at the last one (`reopened_at_last_persist`).
-/
import Blockyard.Raft.Persistent

open Std

namespace Blockyard.Raft

namespace PersistentStateMachineStore

variable {serde : Serde} {db : StateDb}

/-! ## 1. The promise -/

/-- What the stored values say the state is: the stored data, or nothing was ever stored. -/
inductive Opens (serde : Serde) (db : StateDb) : MetadataStateMachineData → Prop
  | stored {bytes : List UInt8} {d : MetadataStateMachineData} (hbytes : db.data = some bytes)
      (hd : serde.data.fromSlice bytes = some d) : Opens serde db d
  | fresh (hdata : db.data = none) (hlast : db.lastApplied = none)
      (hmembership : db.membership = none) : Opens serde db .new

/-- **The promise**: the store opens with the state that was stored, and without readable data it
does not claim that entries were applied. -/
structure SoundOpening (serde : Serde) (db : StateDb) : Prop where
  opened : Opens serde db (new serde db).data
  unclaimed : db.data.bind serde.data.fromSlice = none → (new serde db).data.lastApplied = none

/-! ## 2. When it is kept -/

/-- The values belong together: there are none, or the data decodes and the other two, as far as
they decode, say what the data says. -/
def Coherent (serde : Serde) (db : StateDb) : Prop :=
  (db.data = none ∧ db.lastApplied = none ∧ db.membership = none) ∨
    ∃ d, db.data.bind serde.data.fromSlice = some d ∧
      (∀ lid, db.lastApplied.bind serde.lastApplied.fromSlice = some lid → lid = d.lastApplied) ∧
      ∀ mem, db.membership.bind serde.membership.fromSlice = some mem → mem = d.lastMembership

theorem lastApplied_restored (serde : Serde) (db : StateDb) :
    (restored serde db).lastApplied
      = (db.lastApplied.bind serde.lastApplied.fromSlice).getD
          ((db.data.bind serde.data.fromSlice).getD .new).lastApplied := by
  unfold restored
  cases db.lastApplied.bind serde.lastApplied.fromSlice <;>
    cases db.membership.bind serde.membership.fromSlice <;> rfl

theorem lastMembership_restored (serde : Serde) (db : StateDb) :
    (restored serde db).lastMembership
      = (db.membership.bind serde.membership.fromSlice).getD
          ((db.data.bind serde.data.fromSlice).getD .new).lastMembership := by
  unfold restored
  cases db.lastApplied.bind serde.lastApplied.fromSlice <;>
    cases db.membership.bind serde.membership.fromSlice <;> rfl

/-- Values that agree with the data change nothing. -/
theorem restored_of_agree {d : MetadataStateMachineData}
    (hd : (db.data.bind serde.data.fromSlice).getD .new = d)
    (hlast : ∀ lid, db.lastApplied.bind serde.lastApplied.fromSlice = some lid →
      lid = d.lastApplied)
    (hmembership : ∀ mem, db.membership.bind serde.membership.fromSlice = some mem →
      mem = d.lastMembership) : restored serde db = d := by
  unfold restored
  rw [hd]
  cases hl : db.lastApplied.bind serde.lastApplied.fromSlice with
  | none =>
    cases hm : db.membership.bind serde.membership.fromSlice with
    | none => rfl
    | some mem => rw [hmembership mem hm]
  | some lid =>
    rw [hlast lid hl]
    cases hm : db.membership.bind serde.membership.fromSlice with
    | none => rfl
    | some mem => rw [hmembership mem hm]

theorem Coherent.opens (h : Coherent serde db) : Opens serde db (restored serde db) := by
  rcases h with ⟨hdata, hlast, hmembership⟩ | ⟨d, hd, hlast, hmembership⟩
  · have hnew : restored serde db = .new :=
      restored_of_agree (by simp [hdata]) (by simp [hlast]) (by simp [hmembership])
    rw [hnew]
    exact .fresh hdata hlast hmembership
  · rw [restored_of_agree (by simp [hd]) hlast hmembership]
    obtain ⟨bytes, hbytes, hd⟩ := Option.bind_eq_some_iff.mp hd
    exact .stored hbytes hd

theorem coherent_of_opens (h : Opens serde db (restored serde db)) : Coherent serde db := by
  -- the opened state is kept under a name of its own, to take the constructors apart
  generalize hs : restored serde db = s at h
  cases h with
  | fresh hdata hlast hmembership => exact Or.inl ⟨hdata, hlast, hmembership⟩
  | stored hbytes hd =>
    have hdecoded : db.data.bind serde.data.fromSlice = some s := by rw [hbytes, ← hd]; rfl
    refine Or.inr ⟨s, hdecoded, ?_, ?_⟩
    · intro lid hlid
      rw [← hs, lastApplied_restored, hlid, Option.getD_some]
    · intro mem hmem
      rw [← hs, lastMembership_restored, hmem, Option.getD_some]

/-- **When the store opens soundly**: exactly when the three stored values belong together. -/
theorem opening_sound_iff (serde : Serde) (db : StateDb) :
    SoundOpening serde db ↔ Coherent serde db := by
  constructor
  · intro h
    exact coherent_of_opens h.opened
  · intro h
    refine ⟨h.opens, fun hnone => ?_⟩
    rcases h with ⟨hdata, hlast, hmembership⟩ | ⟨d, hd, -, -⟩
    · rw [new, lastApplied_restored, hlast, hdata]
      rfl
    · rw [hnone] at hd
      cases hd

end PersistentStateMachineStore

/-! ## 3. What the store writes itself -/

def StateDb.values (db : StateDb) :
    Option (List UInt8) × Option (List UInt8) × Option (List UInt8) :=
  (db.data, db.lastApplied, db.membership)

def StateDb.HoldsState (serde : Serde) (db : StateDb) (d : MetadataStateMachineData) : Prop :=
  db.data = some (serde.data.toVec d) ∧
    db.lastApplied = some (serde.lastApplied.toVec d.lastApplied) ∧
    db.membership = some (serde.membership.toVec d.lastMembership)

theorem StateDb.HoldsState.restored {serde : Serde} {db : StateDb} {d : MetadataStateMachineData}
    (h : db.HoldsState serde d) : PersistentStateMachineStore.restored serde db = d := by
  obtain ⟨hdata, hlast, hmembership⟩ := h
  simp [PersistentStateMachineStore.restored, hdata, hlast, hmembership, Codec.fromSlice_toVec]

namespace ReplicaSet

variable {ovf : Overflow} {serde : Serde} {log : CommittedLog} {g : ReplicaSet} {r : Nat}

theorem values_set {r' : Nat} {store : PersistentStateMachineStore}
    (h : store.db.values = (g.store r').db.values) :
    ((g.set r' store).store r).db.values = (g.store r).db.values := by
  by_cases hr : r = r'
  · rw [hr, store_set_self, h]
  · simp [set, hr]

/-- **Nothing but its own `persist_state` touches the values of a replica.** -/
theorem values_step {op : ReplicaOp} (hop : op ≠ .persist r) :
    ((step ovf serde log g op).1.store r).db.values = (g.store r).db.values := by
  cases op with
  | load r' n =>
    rw [step]
    split
    · next hrun =>
      obtain ⟨⟨d, rs⟩, -, heq⟩ := Option.map_eq_some_iff.mp hrun
      cases heq
      exact values_set rfl
    · exact values_set rfl
  | persist r' =>
    have hr : r ≠ r' := fun h => hop (by rw [h])
    simp [step, set, hr]
  | crash r' => exact values_set rfl
  | capture r' => exact values_set rfl
  | resend r' =>
    rw [step]
    split <;> rfl
  | storeSnapshot r' i =>
    rw [step]
    split
    · exact values_set rfl
    · rfl
  | loadSnapshot r' i =>
    rw [step]
    split
    · next hload =>
      obtain ⟨snap, -, hsnap⟩ := Option.bind_eq_some_iff.mp hload
      obtain ⟨d, -, rfl⟩ := Option.map_eq_some_iff.mp hsnap
      exact values_set rfl
    · rfl

/-- The values of a replica after a schedule: none without a `persist_state` of its own, and those
of the state at the last one otherwise. -/
theorem values_after (ops : List ReplicaOp) :
    (.persist r ∉ ops ∧ ((after ovf serde log ops).store r).db.values = (none, none, none)) ∨
      ∃ before later, ops = before ++ .persist r :: later ∧ .persist r ∉ later ∧
        ((after ovf serde log ops).store r).db.HoldsState serde
          ((after ovf serde log before).store r).data := by
  induction ops using List.reverseRecOn with
  | nil => exact Or.inl ⟨by simp, rfl⟩
  | append_singleton ops op ih =>
    have hsnoc : after ovf serde log (ops ++ [op]) = (step ovf serde log (after ovf serde log ops)
        op).1 := Machine.runState_snoc _ _ _ _
    by_cases hop : op = .persist r
    · subst hop
      refine Or.inr ⟨ops, [], rfl, by simp, ?_⟩
      rw [hsnoc]
      simp [step, StateDb.HoldsState, PersistentStateMachineStore.persistState]
    · have hkept : ((after ovf serde log (ops ++ [op])).store r).db.values
          = ((after ovf serde log ops).store r).db.values := by rw [hsnoc, values_step hop]
      rcases ih with ⟨hnone, hvalues⟩ | ⟨before, later, rfl, hlater, hholds⟩
      · exact Or.inl ⟨by simp [hnone, Ne.symm hop], hkept.trans hvalues⟩
      · refine Or.inr ⟨before, later ++ [op], by simp, by simp [hlater, Ne.symm hop], ?_⟩
        simp only [StateDb.values, Prod.mk.injEq] at hkept
        unfold StateDb.HoldsState at hholds ⊢
        rwa [hkept.1, hkept.2.1, hkept.2.2]

/-- **A CRASH GOES BACK TO THE LAST `persist_state`.**  In every schedule a replica's database holds
none of the three values before its first `persist_state`, and from then on all of them: those of
the state it held at the last one.  The uninterrupted run of the log passes that state, and a
replica opened on the database comes up in it, with the entries behind it left to apply. -/
theorem reopened_at_last_persist (ovf : Overflow) (serde : Serde) (log : CommittedLog)
    (ops : List ReplicaOp) (r : Nat) :
    let db := ((after ovf serde log ops).store r).db
    (.persist r ∉ ops ∧ db.values = (none, none, none) ∧
        (PersistentStateMachineStore.new serde db).data = .new) ∨
      ∃ before later, ops = before ++ .persist r :: later ∧ .persist r ∉ later ∧
        let d := ((after ovf serde log before).store r).data
        db.HoldsState serde d ∧ Passed ovf log d ∧
          (PersistentStateMachineStore.new serde db).data = d := by
  rcases @values_after ovf serde log r ops with
    ⟨hnone, hvalues⟩ | ⟨before, later, heq, hlater, hholds⟩
  · refine Or.inl ⟨hnone, hvalues, ?_⟩
    simp only [StateDb.values, Prod.mk.injEq] at hvalues
    simp [PersistentStateMachineStore.new, PersistentStateMachineStore.restored, hvalues]
  · exact Or.inr ⟨before, later, heq, hlater, hholds, ((faithful_after before).store r).memory,
      hholds.restored⟩

end ReplicaSet

/-! ## 4. A state that does not decode -/

/-- The codec with one more byte in front of each text: the empty text does not decode. -/
def Codec.tagged {α : Type} (codec : Codec α) : Codec α where
  toVec a := 0 :: codec.toVec a
  fromSlice
    | [] => none
    | _ :: bytes => codec.fromSlice bytes
  fromSlice_toVec := codec.fromSlice_toVec

def volumeLog : CommittedLog where
  entries := [⟨⟨1, 1, 1⟩, .normal (.createVolume ⟨7#128⟩ 4096 (.replicated 1) 1)⟩]
  increasing := List.pairwise_singleton _ _

/-- **A state that does not decode beside a `last_applied` that does.**  The store opens empty, but
with `last_applied` 1: no entry is left to hand out, and the volume that entry 1 created is
missing. -/
theorem unreadable_data_is_skipped :
    ∃ (serde : Serde) (db : StateDb), db.data = some [] ∧
      db.lastApplied = some (serde.lastApplied.toVec (some ⟨1, 1, 1⟩)) ∧
      ¬ PersistentStateMachineStore.SoundOpening serde db ∧
      volumeLog.after (PersistentStateMachineStore.new serde db).data.lastApplied = [] ∧
      (⟨7#128⟩ : VolumeId) ∉ (PersistentStateMachineStore.new serde db).data.volumes := by
  obtain ⟨plain⟩ := nonempty_serde
  let serde : Serde := { plain with data := plain.data.tagged }
  let db : StateDb := ⟨some [], some (serde.lastApplied.toVec (some ⟨1, 1, 1⟩)), none, none⟩
  have hopen : (PersistentStateMachineStore.new serde db).data
      = { MetadataStateMachineData.new with lastApplied := some ⟨1, 1, 1⟩ } := by
    simp [PersistentStateMachineStore.new, PersistentStateMachineStore.restored, db, serde,
      Codec.tagged, Codec.fromSlice_toVec]
  refine ⟨serde, db, rfl, rfl, ?_, ?_, ?_⟩
  · intro h
    have hnone := h.unclaimed rfl
    rw [hopen] at hnone
    cases hnone
  · rw [hopen]
    rfl
  · rw [hopen]
    exact ExtTreeMap.not_mem_empty

end Blockyard.Raft
