/-
# Compare-and-swap commits

A commit may name the version it expects to overwrite (`previous_version`), and it always names
the epoch it was prepared in.  This module says what the two guards are worth over whole runs:

* the epoch never goes back, so a commit prepared before an `AdvanceEpoch` never succeeds after
  it;
* a guarded commit succeeds only over the version it names, and version 0 stands for "nothing
  there";
* of two guarded commits to one block start that name the same version and bring a new one, the
  second succeeds only if, in between, somebody else brought the old version back or the volume
  was deleted.

Everything is said of runs of single requests, in which a batch stands as the commits it stores
(`unbatched`): a batch entry is a commit like any other.
-/
import Blockyard.Raft.Unbatched

open Std

namespace Blockyard.Raft

open MetadataStateMachineData

/-! ## 1. Commits that succeed -/

variable {s : MetadataStateMachineData} {v : Nat} {mid : List MetadataRequest} {k : MappingKey}
  {r : MetadataRequest} (ovf : Overflow)

/-- The commit is answered with an epoch. -/
def Succeeds (ovf : Overflow) (s : MetadataStateMachineData) (e : ExtentMappingEntry) : Prop :=
  ∃ epoch, (s.applyRequest ovf (.commitExtentMapping e)).2 = some (.epoch epoch)

theorem succeeds_iff_admits (ht : TablesMatch s) (e : ExtentMappingEntry) :
    Succeeds ovf s e ↔ Admits s s.mappingAt e := by
  constructor
  · rintro ⟨epoch, hans⟩
    by_contra had
    obtain ⟨msg, heq⟩ := commit_of_not_admits ht had
    rw [applyRequest, heq] at hans
    cases hans
  · intro had
    exact ⟨s.epoch, by rw [applyRequest, commit_of_admits ht had]⟩

/-- **What a guarded commit that succeeds found.** -/
theorem Succeeds.found {ovf} (ht : TablesMatch s) {e : ExtentMappingEntry}
    (h : Succeeds ovf s e) (hprev : e.previousVersion = some v) :
    (∃ m, s.mappingAt e.key = some m ∧ m.extentVersion = v) ∨
      s.mappingAt e.key = none ∧ v = 0 := by
  obtain ⟨-, -, hcas⟩ := (succeeds_iff_admits ovf ht e).mp h
  have hv := hcas v hprev
  cases hm : s.mappingAt e.key with
  | none =>
    rw [hm] at hv
    exact Or.inr ⟨rfl, hv.symm⟩
  | some m =>
    rw [hm] at hv
    exact Or.inl ⟨m, rfl, hv⟩

/-! ## 2. The epoch -/

theorem commitAll_epoch (s : MetadataStateMachineData) (es : List ExtentMappingEntry) :
    (commitAll s es).epoch = s.epoch := by
  induction es generalizing s with
  | nil => rfl
  | cons e es ih => exact ih (commitState s e)

/-- **Only `AdvanceEpoch` moves the epoch.** -/
theorem epoch_applyRequest (ht : TablesMatch s) (hr : r ≠ .advanceEpoch) :
    (s.applyRequest ovf r).1.epoch = s.epoch := by
  cases r with
  | advanceEpoch => exact absurd rfl hr
  | commitExtentMapping e =>
    have hst : (s.applyRequest ovf (.commitExtentMapping e)).1 = _ := commit_fst ht e
    rw [hst, commitAll_epoch]
  | commitExtentMappingBatch es =>
    have hst : (s.applyRequest ovf (.commitExtentMappingBatch es)).1 = _ := (batch_eq ht es).1
    rw [hst, commitAll_epoch]
  | deleteVolume v =>
    rcases deleteVolume_cases ht v with ⟨-, msg, heq⟩ | ⟨vm, -, -, heq⟩
    · simp [applyRequest, heq]
    · simp [applyRequest, heq]
  | createVolume v size protection extentSize =>
    rcases createVolume_cases s v size protection extentSize with ⟨msg, heq⟩ | ⟨md, -, heq⟩
    · simp [applyRequest, heq]
    · simp [applyRequest, heq]
  | lease req =>
    obtain ⟨leases, counter, heq⟩ := applyLeaseRequest_frame ovf s req
    simp [applyRequest, heq]
  | registerNode n addr =>
    simp only [applyRequest, registerNode]
    repeat' split
    all_goals rfl
  | removeNode | updateDiskUsage | deregisterDisk =>
    simp only [applyRequest]
    split <;> rfl
  | addNode | updatePlacementMap | registerDisk | cleanupExpiredLeases => rfl

/-- The epoch is a `u64` that is at least `low`. -/
def EpochFrom (low : EpochId) (s : MetadataStateMachineData) : Prop :=
  low ≤ s.epoch ∧ s.epoch ≤ u64Max

/-- **No request takes the epoch back.** -/
theorem EpochFrom.applyRequest {low : EpochId} (ht : TablesMatch s)
    (h : EpochFrom low s) (r : MetadataRequest) :
    EpochFrom low (s.applyRequest ovf r).1 := by
  by_cases hr : r = .advanceEpoch
  · subst hr
    obtain ⟨hlow, hmax⟩ := h
    refine ⟨?_, Nat.min_le_right _ _⟩
    exact le_min (hlow.trans (Nat.le_succ _)) (hlow.trans hmax)
  · rw [EpochFrom, epoch_applyRequest ovf ht hr]
    exact h

theorem EpochFrom.runState {low : EpochId} (ht : TablesMatch s)
    (h : EpochFrom low s) (reqs : List MetadataRequest) :
    EpochFrom low (Machine.runState (MetadataStateMachineData.applyRequest ovf) s reqs) :=
  (Machine.runState_invariant (P := fun t => TablesMatch t ∧ EpochFrom low t) ⟨ht, h⟩
    (fun _ r ht => ⟨ht.1.applyRequest ovf r, ht.2.applyRequest ovf ht.1 r⟩) reqs).2

theorem epochFrom_after (reqs : List MetadataRequest) :
    EpochFrom (after ovf reqs).epoch (after ovf reqs) := by
  have hnew : EpochFrom 0 .new := ⟨Nat.le_refl 0, Nat.zero_le _⟩
  exact ⟨Nat.le_refl _, (hnew.runState ovf tablesMatch_new reqs).2⟩

theorem epoch_after_append (pre post : List MetadataRequest) :
    (after ovf pre).epoch ≤ (after ovf (pre ++ post)).epoch := by
  rw [after_append]
  exact ((epochFrom_after ovf pre).runState ovf (tablesMatch_after ovf pre) post).1

/-- **A stored mapping is no newer than the epoch.** -/
theorem stored_epoch_le (reqs : List MetadataRequest) (k : MappingKey)
    (m : ExtentMapping) (hm : (after ovf reqs).mappingAt k = some m) :
    m.epoch ≤ (after ovf reqs).epoch := by
  refine (after_of_singles ovf (P := fun s => EpochFrom 0 s ∧
    ∀ k m, s.mappingAt k = some m → m.epoch ≤ s.epoch) ?_ ?_ reqs).2 k m hm
  · exact ⟨⟨Nat.le_refl 0, Nat.zero_le _⟩, fun k m hm => absurd hm mappingAt_new_ne_some⟩
  · rintro s r ht hr ⟨hepoch, h⟩
    refine ⟨hepoch.applyRequest ovf ht r, fun k m hm => ?_⟩
    have hself : EpochFrom s.epoch s := ⟨Nat.le_refl _, hepoch.2⟩
    have hup : s.epoch ≤ (s.applyRequest ovf r).1.epoch := (hself.applyRequest ovf ht r).1
    rcases mappingAt_applyRequest ovf ht hr hm with hold | ⟨e, had, -, -, rfl⟩
    · exact (h k m hold).trans hup
    · exact had.2.1.le.trans hup

/-! ## 3. A version that is gone stays gone -/

/-- Somewhere in `mid`, which starts in `s`, a commit that succeeds writes version `v` at `k`. -/
def Rewrites (ovf : Overflow) (s : MetadataStateMachineData) (k : MappingKey) (v : Nat)
    (mid : List MetadataRequest) : Prop :=
  ∃ before w rest, mid = before ++ .commitExtentMapping w :: rest ∧ w.key = k ∧
    w.extentVersion = v ∧ Succeeds ovf (Machine.runState (applyRequest ovf) s before) w

theorem Rewrites.cons {ovf} (h : Rewrites ovf (s.applyRequest ovf r).1 k v mid) :
    Rewrites ovf s k v (r :: mid) := by
  obtain ⟨before, w, rest, rfl, hk, hv, hw⟩ := h
  exact ⟨r :: before, w, rest, rfl, hk, hv, hw⟩

/-- The mapping at `k` has another version than `v`. -/
def Differs (s : MetadataStateMachineData) (k : MappingKey) (v : Nat) : Prop :=
  ∃ m, s.mappingAt k = some m ∧ m.extentVersion ≠ v

/-- One request brings the version back only by writing it, and takes the mapping away only by
deleting the volume. -/
theorem Differs.applyRequest (ht : TablesMatch s) (h : Differs s k v) (hr : r.isBatch = false) :
    Differs (s.applyRequest ovf r).1 k v ∨
      (∃ w, r = .commitExtentMapping w ∧ w.key = k ∧ w.extentVersion = v ∧ Succeeds ovf s w) ∨
      r = .deleteVolume k.1 := by
  obtain ⟨m, hm, hv⟩ := h
  rcases tables_step ovf ht hr with ⟨w, rfl, had, hst⟩ | ⟨vol, rfl⟩ | ⟨-, -, hmap, -, -⟩
  · by_cases hk : w.key = k
    · by_cases hwv : w.extentVersion = v
      · exact Or.inr (Or.inl ⟨w, rfl, hk, hwv, (succeeds_iff_admits ovf ht w).mpr had⟩)
      · refine Or.inl ⟨w.mapping, ?_, hwv⟩
        rw [hst, mappingAt_commitState ht had.1, if_pos hk]
    · refine Or.inl ⟨m, ?_, hv⟩
      rw [hst, mappingAt_commitState ht had.1, if_neg hk, hm]
  · by_cases hk : vol = k.1
    · exact Or.inr (Or.inr (by rw [hk]))
    · refine Or.inl ⟨m, ?_, hv⟩
      rw [(applyRequest_of_no_entries ovf ht rfl).1, if_neg, hm]
      simpa [MetadataRequest.deletes] using hk
  · exact Or.inl ⟨m, by rw [hmap, hm], hv⟩

/-- **Over a run**: the version stays away unless a commit of the run writes it or the volume is
deleted. -/
theorem Differs.runState (ht : TablesMatch s) (h : Differs s k v)
    (hmid : ∀ r ∈ mid, r.isBatch = false) :
    Differs (Machine.runState (MetadataStateMachineData.applyRequest ovf) s mid) k v ∨
      Rewrites ovf s k v mid ∨ .deleteVolume k.1 ∈ mid := by
  induction mid generalizing s with
  | nil => exact Or.inl h
  | cons r mid ih =>
    have hsingle : r.isBatch = false := hmid r List.mem_cons_self
    rcases h.applyRequest ovf ht hsingle with hnext | ⟨w, rfl, hk, hv, hw⟩ | rfl
    · have hrest := ih (ht.applyRequest ovf r) hnext
        fun r' hr' => hmid r' (List.mem_cons_of_mem _ hr')
      exact hrest.imp id (Or.imp Rewrites.cons (List.mem_cons_of_mem _))
    · exact Or.inr (Or.inl ⟨[], w, mid, rfl, hk, hv, hw⟩)
    · exact Or.inr (Or.inr List.mem_cons_self)

/-! ## 4. Compare-and-swap over runs -/

/-- **The promise**, for a run of single requests. -/
structure CasSafe (ovf : Overflow) (reqs : List MetadataRequest) : Prop where
  /-- The epoch never goes back. -/
  epoch_mono : ∀ pre post, reqs = pre ++ post → (after ovf pre).epoch ≤ (after ovf reqs).epoch
  /-- No stored mapping is newer than the epoch. -/
  stored_epoch : ∀ k m, (after ovf reqs).mappingAt k = some m → m.epoch ≤ (after ovf reqs).epoch
  /-- After an `AdvanceEpoch` only commits with a later epoch succeed. -/
  fenced : ∀ pre mid e post,
    reqs = pre ++ .advanceEpoch :: (mid ++ .commitExtentMapping e :: post) →
    (after ovf pre).epoch < u64Max →
    Succeeds ovf (after ovf (pre ++ .advanceEpoch :: mid)) e → (after ovf pre).epoch < e.epoch
  /-- A guarded commit succeeds only over the version it names. -/
  guarded : ∀ pre e post v, reqs = pre ++ .commitExtentMapping e :: post →
    Succeeds ovf (after ovf pre) e → e.previousVersion = some v →
    (∃ m, (after ovf pre).mappingAt e.key = some m ∧ m.extentVersion = v) ∨
      (after ovf pre).mappingAt e.key = none ∧ v = 0
  /-- Of two guarded commits that name the same version and bring a new one, the second
  succeeds only if the old version was written again, or the volume deleted, in between. -/
  exclusive : ∀ pre e mid e' post v,
    reqs = pre ++ .commitExtentMapping e :: (mid ++ .commitExtentMapping e' :: post) →
    e'.key = e.key → e.previousVersion = some v → e'.previousVersion = some v →
    e.extentVersion ≠ v → e'.extentVersion ≠ v →
    Succeeds ovf (after ovf pre) e →
    Succeeds ovf (after ovf (pre ++ .commitExtentMapping e :: mid)) e' →
    Rewrites ovf (after ovf (pre ++ [.commitExtentMapping e])) e.key v mid ∨
      .deleteVolume e.volumeId ∈ mid

/-- **Compare-and-swap commits are never lost**: the promise holds of every run, each batch as
the commits it stores. -/
theorem cas_commits_never_lost (ovf : Overflow) (reqs : List MetadataRequest) :
    CasSafe ovf (unbatched ovf reqs) ∧ after ovf (unbatched ovf reqs) = after ovf reqs := by
  refine ⟨?_, after_unbatched ovf reqs⟩
  have hsingle : ∀ r ∈ unbatched ovf reqs, r.isBatch = false :=
    fun r hr => isBatch_of_mem_unbatched hr
  generalize unbatched ovf reqs = run at hsingle
  constructor
  · rintro pre post rfl
    exact epoch_after_append ovf pre post
  · exact stored_epoch_le ovf run
  · rintro pre mid e post - hmax he
    have hat : e.epoch = (after ovf (pre ++ .advanceEpoch :: mid)).epoch :=
      ((succeeds_iff_admits ovf (tablesMatch_after ovf _) e).mp he).2.1
    have hadvance : (after ovf (pre ++ [.advanceEpoch])).epoch = (after ovf pre).epoch + 1 := by
      rw [after_snoc]
      exact Nat.min_eq_left hmax
    have hmono := epoch_after_append ovf (pre ++ [.advanceEpoch]) mid
    rw [hadvance, List.append_assoc, List.singleton_append] at hmono
    rw [hat]
    exact hmono
  · rintro pre e post v - he hprev
    exact he.found (tablesMatch_after ovf pre) hprev
  · rintro pre e mid e' post v rfl hkey - hprev hnew - he he'
    have hmid : ∀ r ∈ mid, r.isBatch = false := fun r hr => hsingle r (by simp [hr])
    have ht := tablesMatch_after ovf pre
    have hadmits := (succeeds_iff_admits ovf ht e).mp he
    have hfirst : Differs (after ovf (pre ++ [.commitExtentMapping e])) e.key v := by
      refine ⟨e.mapping, ?_, hnew⟩
      rw [after_snoc, applyRequest, commit_of_admits ht hadmits,
        mappingAt_commitState ht hadmits.1, if_pos rfl]
    refine (hfirst.runState ovf (tablesMatch_after ovf _) hmid).resolve_left ?_
    rintro ⟨m, hm, hv⟩
    -- the second commit found the version that is not there, or nothing
    rw [after_snoc, ← after_append_cons, ← hkey] at hm
    rcases he'.found (tablesMatch_after ovf _) hprev with ⟨m', hm', hv'⟩ | ⟨hnone, -⟩
    · rw [hm] at hm'
      cases hm'
      exact hv hv'
    · rw [hm] at hnone
      cases hnone

end Blockyard.Raft
