/-
# The life of a disk

`blockyard-storage`, `disk.rs` and `health.rs`: what a sequence of inventory operations makes of a
disk.  Four operations write the state of a disk, and two of them do not ask
`validate_transition`: `complete_qualification` promotes a Suspect disk, and a disk that becomes
Degraded on request is moved on to Draining.

Everything here is read off ONE statement, what an operation does to the record of the disk it
names (`DiskEffect`, `inventoryStep_cases`):

* no operation lowers the `wear` of a state (`DiskEffect.wear_le`), so a disk that has left Healthy
  and Suspect never takes extents again, and one that is not readable stays so (§4);
* there are two ways into Degraded, and only the request leads on to Draining and into the drain
  queue.  `record_telemetry` stores the derived state as it is, so a disk whose ERROR COUNT made
  it Degraded is never handed out for evacuation (§5).
-/
import Blockyard.Storage.Disk
import Blockyard.Lib.Run

open Std Machine

namespace Blockyard.Storage

/-! ## 1. Inventory operations -/

/-- The end of `discover_single_disk`: the disk is registered, unless one with its id is. -/
def DiskInventory.register (inv : DiskInventory) (diskId : DiskId) (mountPath : String)
    (requireQualification : Bool) : DiskInventory × Except StorageError DiskId :=
  let managed :=
    if requireQualification then ManagedDisk.newQualifying diskId mountPath
    else ManagedDisk.new diskId mountPath
  match inv.disks[diskId]? with
  | some _ => (inv, .error (.duplicateDisk s!"disk {diskId} already registered"))
  | none => (inv.setDisk diskId managed, .ok diskId)

inductive InventoryOp
  | register (diskId : DiskId) (mountPath : String) (requireQualification : Bool)
  | transitionState (diskId : DiskId) (state : DiskState)
  | recordTelemetry (diskId : DiskId) (telemetry : DiskTelemetry)
  | completeQualification (diskId : DiskId)
  | startBurnIn (diskId : DiskId) (now : Nat)
  | reportBadRegion (diskId : DiskId) (offset length : Nat)
  | takeDrainQueue

/-- One operation, and the disks it hands out for evacuation. -/
def inventoryStep (ovf : Overflow) (inv : DiskInventory) :
    InventoryOp → DiskInventory × List DiskId
  | .register diskId mountPath requireQualification =>
    ((inv.register diskId mountPath requireQualification).1, [])
  | .transitionState diskId state => ((inv.transitionState diskId state).1, [])
  | .recordTelemetry diskId telemetry => ((inv.recordTelemetry ovf diskId telemetry).1, [])
  | .completeQualification diskId => ((inv.completeQualification diskId).1, [])
  | .startBurnIn diskId now => ((inv.startBurnIn diskId now).1, [])
  | .reportBadRegion diskId offset length => ((inv.reportBadRegion diskId offset length).1, [])
  | .takeDrainQueue => inv.takeDrainQueue

/-! ## 2. What an operation does to a disk -/

/-- The state `derive_state` returns once a snapshot is recorded; none if it has no opinion, or if
an addition panicked. -/
def ManagedDisk.derivedBy (ovf : Overflow) (disk : ManagedDisk) (t : DiskTelemetry) :
    Option DiskState :=
  let (cumulative, completed) := disk.health.cumulative.accumulate ovf t
  if completed then ({ disk.health with cumulative }.deriveState ovf).join else none

/-- The record of a disk behind `record_telemetry`. -/
def ManagedDisk.afterTelemetry (ovf : Overflow) (disk : ManagedDisk) (t : DiskTelemetry) :
    ManagedDisk :=
  { disk with
    health := { disk.health with cumulative := (disk.health.cumulative.accumulate ovf t).1 }
    state :=
      match disk.derivedBy ovf t with
      | some derived => if disk.state.legal derived then derived else disk.state
      | none => disk.state }

/-- What an operation does to the record of the disk it names. -/
inductive DiskEffect (ovf : Overflow) :
    InventoryOp → DiskId → ManagedDisk → ManagedDisk → Prop
  | moved {d : DiskId} {s : DiskState} {disk : ManagedDisk} (legal : disk.state.legal s = true)
      (other : s ≠ .degraded) :
      DiskEffect ovf (.transitionState d s) d disk { disk with state := s }
  | drained {d : DiskId} {disk : ManagedDisk} (legal : disk.state.legal .degraded = true) :
      DiskEffect ovf (.transitionState d .degraded) d disk { disk with state := .draining }
  | recorded {d : DiskId} {t : DiskTelemetry} {disk : ManagedDisk} :
      DiskEffect ovf (.recordTelemetry d t) d disk (disk.afterTelemetry ovf t)
  | promoted {d : DiskId} {disk : ManagedDisk} (suspect : disk.state = .suspect) :
      DiskEffect ovf (.completeQualification d) d disk
        { disk with qualification := .qualified, state := .healthy }
  | qualified {d : DiskId} {disk : ManagedDisk} :
      DiskEffect ovf (.completeQualification d) d disk { disk with qualification := .qualified }
  | burningIn {d : DiskId} {now : Nat} {disk : ManagedDisk} :
      DiskEffect ovf (.startBurnIn d now) d disk { disk with qualification := .burnInRunning now }
  | reported {d : DiskId} {offset length : Nat} {disk : ManagedDisk} :
      DiskEffect ovf (.reportBadRegion d offset length) d disk
        { disk with badRegions := disk.badRegions ++ [⟨offset, length⟩] }

/-- The disks an operation puts in the drain queue, when it is granted. -/
def InventoryOp.queues : InventoryOp → List DiskId
  | .transitionState d .degraded => [d]
  | _ => []

inductive InventoryEffect (ovf : Overflow) (inv : DiskInventory) :
    InventoryOp → DiskInventory → Prop
  | refused {op : InventoryOp} (kept : op ≠ .takeDrainQueue)
      (ungranted : ∀ d disk, inv.disks[d]? = some disk → op = .transitionState d .degraded →
        disk.state.legal .degraded = false)
      (unrecorded : ∀ d t, op = .recordTelemetry d t → inv.disks[d]? = none) :
      InventoryEffect ovf inv op inv
  | registered {d : DiskId} {path : String} {q : Bool} {disk : ManagedDisk}
      (unknown : inv.disks[d]? = none) (fresh : disk.state.allowsAllocation = true) :
      InventoryEffect ovf inv (.register d path q) (inv.setDisk d disk)
  | changed {op : InventoryOp} {d : DiskId} {disk disk' : ManagedDisk}
      (known : inv.disks[d]? = some disk) (effect : DiskEffect ovf op d disk disk') :
      InventoryEffect ovf inv op
        { disks := inv.disks.insert d disk', drainQueue := inv.drainQueue ++ op.queues }
  | taken : InventoryEffect ovf inv .takeDrainQueue { inv with drainQueue := [] }

/-- An operation that queues nothing and only replaces a record. -/
theorem InventoryEffect.setDisk {ovf : Overflow} {inv : DiskInventory} {op : InventoryOp}
    {d : DiskId} {disk disk' : ManagedDisk} (known : inv.disks[d]? = some disk)
    (effect : DiskEffect ovf op d disk disk') (hqueues : op.queues = []) :
    InventoryEffect ovf inv op (inv.setDisk d disk') := by
  have heffect := InventoryEffect.changed known effect
  rwa [hqueues, List.append_nil] at heffect

theorem validateTransition_ok {s s' : DiskState} (h : s.legal s' = true) :
    s.validateTransition s' = .ok () := if_pos h

theorem recordTelemetry_eq {ovf : Overflow} {inv : DiskInventory} {d : DiskId}
    {disk : ManagedDisk} (h : inv.disks[d]? = some disk) (t : DiskTelemetry) :
    (inv.recordTelemetry ovf d t).1 = inv.setDisk d (disk.afterTelemetry ovf t) := by
  unfold DiskInventory.recordTelemetry ManagedDisk.afterTelemetry ManagedDisk.derivedBy
  rw [h]
  dsimp only
  generalize disk.health.cumulative.accumulate ovf t = sums
  obtain ⟨cumulative, completed⟩ := sums
  cases completed with
  | false => rfl
  | true =>
    dsimp only
    generalize DiskHealthTracker.deriveState ovf ⟨disk.health.diskId, cumulative,
      disk.health.policy⟩ = opinion
    rcases opinion with _ | _ | derived
    · rfl
    · rfl
    · simp only [not_true_eq_false, if_false, if_true, Option.join_some]
      split
      · next hmove =>
        rw [if_pos hmove.2]
        simp only [DiskInventory.setDisk, DiskInventory.mk.injEq, and_true]
        refine ExtTreeMap.ext_getElem? fun k => ?_
        simp only [ExtTreeMap.getElem?_insert]
        split <;> rfl
      · next hstay =>
        have hsame : (if disk.state.legal derived = true then derived else disk.state)
            = disk.state := by
          split
          · next hlegal => exact not_not.mp fun hne => hstay ⟨hne, hlegal⟩
          · rfl
        rw [hsame]

/-- **What an operation does**, said once. -/
theorem inventoryStep_cases (ovf : Overflow) (inv : DiskInventory) (op : InventoryOp) :
    InventoryEffect ovf inv op (inventoryStep ovf inv op).1 := by
  cases op with
  | register d path q =>
    simp only [inventoryStep, DiskInventory.register]
    cases hd : inv.disks[d]? with
    | some disk => exact .refused (by simp) (by simp) (by simp)
    | none =>
      refine .registered hd ?_
      cases q <;> rfl
  | transitionState d s =>
    simp only [inventoryStep, DiskInventory.transitionState]
    cases hd : inv.disks[d]? with
    | none =>
      refine .refused (by simp) ?_ (by simp)
      rintro k disk hk ⟨⟩
      rw [hd] at hk
      cases hk
    | some disk =>
      dsimp only
      by_cases hlegal : disk.state.legal s = true
      · rw [validateTransition_ok hlegal]
        dsimp only
        split
        · next hs =>
          subst hs
          exact .changed hd (.drained hlegal)
        · next hs =>
          have hqueues : (InventoryOp.transitionState d s).queues = [] := by
            cases s <;> first | rfl | exact absurd rfl hs
          exact .setDisk hd (.moved hlegal hs) hqueues
      · rw [DiskState.validateTransition, if_neg hlegal]
        refine .refused (by simp) ?_ (by simp)
        rintro k disk' hk ⟨⟩
        rw [hd, Option.some.injEq] at hk
        rw [← hk]
        exact Bool.eq_false_iff.mpr hlegal
  | recordTelemetry d t =>
    cases hd : inv.disks[d]? with
    | none =>
      have hsame : (inventoryStep ovf inv (.recordTelemetry d t)).1 = inv := by
        simp only [inventoryStep, DiskInventory.recordTelemetry, hd]
      rw [hsame]
      exact .refused (by simp) (by simp) (by rintro k t' ⟨⟩; exact hd)
    | some disk =>
      rw [inventoryStep, recordTelemetry_eq hd]
      exact .setDisk hd .recorded rfl
  | completeQualification d =>
    simp only [inventoryStep, DiskInventory.completeQualification]
    cases hd : inv.disks[d]? with
    | none => exact .refused (by simp) (by simp) (by simp)
    | some disk =>
      dsimp only
      split
      · exact .refused (by simp) (by simp) (by simp)
      · split
        · next hsuspect => exact .setDisk hd (.promoted hsuspect) rfl
        · exact .setDisk hd .qualified rfl
  | startBurnIn d now =>
    simp only [inventoryStep, DiskInventory.startBurnIn]
    cases hd : inv.disks[d]? with
    | none => exact .refused (by simp) (by simp) (by simp)
    | some disk =>
      dsimp only
      split
      · exact .refused (by simp) (by simp) (by simp)
      · exact .setDisk hd .burningIn rfl
  | reportBadRegion d offset length =>
    simp only [inventoryStep, DiskInventory.reportBadRegion]
    cases hd : inv.disks[d]? with
    | none => exact .refused (by simp) (by simp) (by simp)
    | some disk =>
      dsimp only
      split
      · exact .refused (by simp) (by simp) (by simp)
      · exact .setDisk hd .reported rfl
  | takeDrainQueue => exact .taken

/-! ## 3. States only get worse -/

/-- How far a disk is gone: it takes extents at 0, and is read below 3. -/
def wear : DiskState → Nat
  | .healthy | .suspect => 0
  | .degraded => 1
  | .draining => 2
  | .failed => 3
  | .removed => 4

theorem allowsAllocation_iff_wear (s : DiskState) : s.allowsAllocation = true ↔ wear s = 0 := by
  cases s <;> decide

theorem allowsReads_iff_wear (s : DiskState) : s.allowsReads = true ↔ wear s < 3 := by
  cases s <;> decide

theorem eq_removed_iff_wear (s : DiskState) : s = .removed ↔ 4 ≤ wear s := by
  cases s <;> decide

theorem wear_le_of_legal {s s' : DiskState} (h : s.legal s' = true) : wear s ≤ wear s' := by
  cases s <;> cases s' <;> first | decide | exact absurd h (by decide)

variable {ovf : Overflow} {inv : DiskInventory} {d : DiskId} {disk disk' : ManagedDisk}
  {op : InventoryOp}

/-- **No operation leads back**, whether it asks `validate_transition` or not. -/
theorem DiskEffect.wear_le (h : DiskEffect ovf op d disk disk') :
    wear disk.state ≤ wear disk'.state := by
  cases h with
  | moved legal other => exact wear_le_of_legal legal
  | drained legal => exact (wear_le_of_legal legal).trans (Nat.le_succ 1)
  | recorded =>
    unfold ManagedDisk.afterTelemetry
    dsimp only
    split
    · split
      · next legal => exact wear_le_of_legal legal
      · exact Nat.le_refl _
    · exact Nat.le_refl _
  | promoted suspect => rw [suspect]; exact Nat.zero_le _
  | qualified => exact Nat.le_refl _
  | burningIn => exact Nat.le_refl _
  | reported => exact Nat.le_refl _

theorem DiskEffect.policy (h : DiskEffect ovf op d disk disk') :
    disk'.health.policy = disk.health.policy := by
  cases h <;> rfl

/-- A disk that is known stays known.  Its record is the old one, unless the operation names it. -/
theorem exists_disk_step (ovf : Overflow) (h : inv.disks[d]? = some disk) (op : InventoryOp) :
    ∃ disk', (inventoryStep ovf inv op).1.disks[d]? = some disk' ∧
      (disk' = disk ∧ (∀ t, op ≠ .recordTelemetry d t) ∨ DiskEffect ovf op d disk disk') := by
  have hcases := inventoryStep_cases ovf inv op
  generalize (inventoryStep ovf inv op).1 = inv' at hcases ⊢
  cases hcases with
  | refused kept ungranted unrecorded =>
    refine ⟨disk, h, Or.inl ⟨rfl, fun t hop => ?_⟩⟩
    have hnone := unrecorded d t hop
    rw [h] at hnone
    cases hnone
  | @registered k path q fresh unknown =>
    have hne : k ≠ d := by
      rintro rfl
      rw [h] at unknown
      cases unknown
    exact ⟨disk, by rw [DiskInventory.setDisk, getElem?_insert_of_ne _ hne, h],
      Or.inl ⟨rfl, by simp⟩⟩
  | @changed op k old new known effect =>
    by_cases hk : k = d
    · subst hk
      rw [h, Option.some.injEq] at known
      subst known
      exact ⟨new, ExtTreeMap.getElem?_insert_self, Or.inr effect⟩
    · refine ⟨disk, by rw [getElem?_insert_of_ne _ hk, h], Or.inl ⟨rfl, ?_⟩⟩
      rintro t rfl
      cases effect
      exact hk rfl
  | taken => exact ⟨disk, h, Or.inl ⟨rfl, by simp⟩⟩

theorem sameDisks_step (ovf : Overflow) (inv : DiskInventory) (op : InventoryOp)
    (hop : ∀ d path q, op ≠ .register d path q) :
    DiskInventory.SameDisks inv (inventoryStep ovf inv op).1 := by
  have hcases := inventoryStep_cases ovf inv op
  generalize (inventoryStep ovf inv op).1 = inv' at hcases ⊢
  cases hcases with
  | refused => exact .refl inv
  | registered => exact absurd rfl (hop _ _ _)
  | changed known effect => exact DiskInventory.sameDisks_setDisk known
  | taken => exact .refl inv

theorem exists_disk_run (ovf : Overflow) (h : inv.disks[d]? = some disk) (ops : List InventoryOp) :
    ∃ disk', (runState (inventoryStep ovf) inv ops).disks[d]? = some disk' ∧
      wear disk.state ≤ wear disk'.state ∧ disk'.health.policy = disk.health.policy := by
  refine runState_invariant (P := fun inv : DiskInventory => ∃ disk', inv.disks[d]? = some disk' ∧
    wear disk.state ≤ wear disk'.state ∧ disk'.health.policy = disk.health.policy)
    ⟨disk, h, Nat.le_refl _, rfl⟩ ?_ ops
  rintro inv op ⟨old, hold, hwear, hpolicy⟩
  obtain ⟨new, hnew, ⟨rfl, -⟩ | heffect⟩ := exists_disk_step ovf hold op
  · exact ⟨new, hnew, hwear, hpolicy⟩
  · exact ⟨new, hnew, hwear.trans heffect.wear_le, heffect.policy.trans hpolicy⟩

/-! ## 4. Disks that are not written to again -/

/-- The errors a snapshot counts; timeouts are not among them. -/
def DiskTelemetry.errors (t : DiskTelemetry) : Nat :=
  t.readErrors + t.writeErrors + t.checksumMismatches + t.mediaErrors

/-- The snapshots a sequence of operations records for a disk. -/
def snapshots (d : DiskId) (ops : List InventoryOp) : List DiskTelemetry :=
  ops.filterMap fun
    | .recordTelemetry k t => if k = d then some t else none
    | _ => none

/-- The errors accumulated by snapshots on top of what was counted. -/
def accumulated (c : DiskTelemetry) (ts : List DiskTelemetry) : Nat :=
  c.errors + (ts.map DiskTelemetry.errors).sum

/-- The sums of the counters stay below `2^64`. -/
structure SumsFit (c : DiskTelemetry) (ts : List DiskTelemetry) : Prop where
  errors : accumulated c ts < 2 ^ 64
  timeouts : c.timeouts + (ts.map DiskTelemetry.timeouts).sum < 2 ^ 64

theorem SumsFit.of_append {c : DiskTelemetry} {ts us : List DiskTelemetry}
    (h : SumsFit c (ts ++ us)) : SumsFit c ts := by
  have herrors := h.errors
  have htimeouts := h.timeouts
  simp only [accumulated, List.map_append, List.sum_append] at herrors htimeouts
  exact ⟨by unfold accumulated; omega, by omega⟩

/-- A snapshot whose sums fit is recorded as it is. -/
theorem accumulate_of_fits (ovf : Overflow) {c t : DiskTelemetry} (h : SumsFit c [t]) :
    ∃ c', c.accumulate ovf t = (c', true) ∧ c'.errors = c.errors + t.errors ∧
      c'.timeouts = c.timeouts + t.timeouts := by
  obtain ⟨herrors, htimeouts⟩ := h
  simp only [accumulated, DiskTelemetry.errors, List.map_cons, List.map_nil, List.sum_cons,
    List.sum_nil, Nat.add_zero] at herrors htimeouts
  unfold DiskTelemetry.accumulate
  rw [addU64_of_lt ovf (by omega)]
  dsimp only
  rw [addU64_of_lt ovf (by omega)]
  dsimp only
  rw [addU64_of_lt ovf (by omega)]
  dsimp only
  rw [addU64_of_lt ovf (by omega)]
  dsimp only
  rw [addU64_of_lt ovf htimeouts]
  exact ⟨_, rfl, by simp only [DiskTelemetry.errors]; omega, rfl⟩

/-- **Enough errors** make a tracker derive Degraded or Failed, whatever its other thresholds. -/
theorem deriveState_of_threshold_le (ovf : Overflow) {h : DiskHealthTracker}
    (hfits : h.cumulative.errors < 2 ^ 64)
    (hmany : h.policy.degradedErrorThreshold ≤ h.cumulative.errors) :
    h.deriveState ovf = some (some .failed) ∨ h.deriveState ovf = some (some .degraded) := by
  unfold DiskTelemetry.errors at hfits hmany
  unfold DiskHealthTracker.deriveState
  simp only [Option.bind_eq_bind]
  rw [addU64_of_lt ovf (by omega), Option.bind_some, addU64_of_lt ovf (by omega),
    Option.bind_some, addU64_of_lt ovf hfits, Option.bind_some]
  split
  · exact Or.inl rfl
  split
  · exact Or.inl rfl
  exact Or.inr rfl

/-- What the counters of a disk are after a run whose snapshots fit. -/
theorem exists_counters_run (ovf : Overflow) (h : inv.disks[d]? = some disk)
    (ops : List InventoryOp) (hfits : SumsFit disk.health.cumulative (snapshots d ops)) :
    ∃ disk', (runState (inventoryStep ovf) inv ops).disks[d]? = some disk' ∧
      disk'.health.cumulative.errors = accumulated disk.health.cumulative (snapshots d ops) ∧
      disk'.health.cumulative.timeouts = disk.health.cumulative.timeouts
        + ((snapshots d ops).map DiskTelemetry.timeouts).sum := by
  refine runState_history (P := fun seen (inv : DiskInventory) => ∃ disk',
    inv.disks[d]? = some disk' ∧
    disk'.health.cumulative.errors = accumulated disk.health.cumulative (snapshots d seen) ∧
    disk'.health.cumulative.timeouts = disk.health.cumulative.timeouts
      + ((snapshots d seen).map DiskTelemetry.timeouts).sum) ⟨disk, h, rfl, rfl⟩ ?_
  rintro pre op post rfl ⟨old, hold, herrors, htimeouts⟩
  have hsnoc : ∀ ts, snapshots d [op] = ts → snapshots d (pre ++ [op]) = snapshots d pre ++ ts := by
    rintro ts rfl
    exact List.filterMap_append
  -- an operation that is no snapshot of this disk leaves the tracker alone
  have hother : ∀ new : ManagedDisk, new.health = old.health → snapshots d [op] = [] →
      new.health.cumulative.errors
          = accumulated disk.health.cumulative (snapshots d (pre ++ [op])) ∧
        new.health.cumulative.timeouts = disk.health.cumulative.timeouts
          + ((snapshots d (pre ++ [op])).map DiskTelemetry.timeouts).sum := by
    intro new hhealth hnone
    rw [hsnoc [] hnone, List.append_nil, hhealth]
    exact ⟨herrors, htimeouts⟩
  obtain ⟨new, hnew, ⟨rfl, hop⟩ | heffect⟩ := exists_disk_step ovf hold op
  · refine ⟨new, hnew, hother new rfl ?_⟩
    cases op with
    | recordTelemetry k t =>
      have hk : k ≠ d := fun hk => hop t (by rw [hk])
      simp [snapshots, hk]
    | _ => rfl
  · refine ⟨new, hnew, ?_⟩
    cases heffect with
    | @recorded _ t _ =>
      have hone : snapshots d [.recordTelemetry d t] = [t] := by simp [snapshots]
      rw [List.append_cons, snapshots, List.filterMap_append] at hfits
      have hthis : SumsFit disk.health.cumulative (snapshots d (pre ++ [.recordTelemetry d t])) :=
        hfits.of_append
      rw [hsnoc [t] hone] at hthis ⊢
      obtain ⟨hfit, hfit'⟩ := hthis
      simp only [accumulated, List.map_append, List.sum_append] at hfit hfit' herrors ⊢
      obtain ⟨c, hc, hcerrors, hctimeouts⟩ := accumulate_of_fits ovf (c := old.health.cumulative)
        (t := t) ⟨by rw [accumulated, herrors, Nat.add_assoc]; exact hfit,
          by rw [htimeouts, Nat.add_assoc]; exact hfit'⟩
      simp only [ManagedDisk.afterTelemetry, hc, hcerrors, hctimeouts, herrors, htimeouts,
        List.map_cons, List.map_nil, List.sum_singleton, Nat.add_assoc, and_self]
    | moved legal other => exact hother _ rfl rfl
    | drained legal => exact hother _ rfl rfl
    | promoted suspect => exact hother _ rfl rfl
    | qualified => exact hother _ rfl rfl
    | burningIn => exact hother _ rfl rfl
    | reported => exact hother _ rfl rfl

/-- A snapshot that brings the errors to the threshold leaves the disk in no state that takes
extents. -/
theorem wear_afterTelemetry_pos (ovf : Overflow) {t : DiskTelemetry}
    (hfits : SumsFit disk.health.cumulative [t])
    (hmany : disk.health.policy.degradedErrorThreshold ≤ disk.health.cumulative.errors + t.errors) :
    0 < wear (disk.afterTelemetry ovf t).state := by
  obtain ⟨c, hc, herrors, -⟩ := accumulate_of_fits ovf hfits
  have hbound : c.errors < 2 ^ 64 := by
    have h := hfits.errors
    simp only [accumulated, List.map_cons, List.map_nil, List.sum_singleton] at h
    rwa [herrors]
  have hderived := deriveState_of_threshold_le ovf (h := { disk.health with cumulative := c })
    hbound (by rw [herrors]; exact hmany)
  unfold ManagedDisk.afterTelemetry ManagedDisk.derivedBy
  simp only [hc, if_true]
  -- from Healthy and Suspect both verdicts are legal, and elsewhere nothing leads back
  rcases hderived with h | h <;> rw [h] <;> cases disk.state <;> decide

/-- **What is promised of a disk over a sequence of operations.** -/
structure StaysUnwritable (ovf : Overflow) (inv : DiskInventory) (d : DiskId)
    (ops : List InventoryOp) : Prop where
  /-- Once it has left Healthy and Suspect it never again allows allocation. -/
  allocation : ∀ pre post s, ops = pre ++ post →
    (runState (inventoryStep ovf) inv pre).getState d = .ok s → s ≠ .healthy → s ≠ .suspect →
    (runState (inventoryStep ovf) inv ops).allowsAllocation d = .ok false
  /-- Once it does not allow reads it never again allows them. -/
  reads : ∀ pre post, ops = pre ++ post →
    (runState (inventoryStep ovf) inv pre).allowsReads d = .ok false →
    (runState (inventoryStep ovf) inv ops).allowsReads d = .ok false
  /-- Once Removed it stays Removed. -/
  removed : ∀ pre post, ops = pre ++ post →
    (runState (inventoryStep ovf) inv pre).getState d = .ok .removed →
    (runState (inventoryStep ovf) inv ops).getState d = .ok .removed
  /-- A snapshot that brings the errors, accumulated since any earlier moment, to the degraded
  threshold ends allocation. -/
  errors : ∀ pre mid t post disk, ops = pre ++ (mid ++ .recordTelemetry d t :: post) →
    (runState (inventoryStep ovf) inv pre).disks[d]? = some disk →
    SumsFit disk.health.cumulative (snapshots d mid ++ [t]) →
    disk.health.policy.degradedErrorThreshold
      ≤ accumulated disk.health.cumulative (snapshots d mid ++ [t]) →
    (runState (inventoryStep ovf) inv ops).allowsAllocation d = .ok false

theorem getState_eq_ok_iff {s : DiskState} :
    inv.getState d = .ok s ↔ ∃ disk, inv.disks[d]? = some disk ∧ disk.state = s := by
  unfold DiskInventory.getState
  cases inv.disks[d]? <;> simp

theorem allowsReads_eq_ok_iff {b : Bool} :
    inv.allowsReads d = .ok b ↔ ∃ disk, inv.disks[d]? = some disk ∧ disk.state.allowsReads = b := by
  unfold DiskInventory.allowsReads
  cases inv.disks[d]? <;> simp

theorem allowsAllocation_of_wear (h : inv.disks[d]? = some disk) (hwear : 0 < wear disk.state) :
    inv.allowsAllocation d = .ok false := by
  have hstate : disk.state.allowsAllocation = false :=
    Bool.eq_false_iff.mpr fun hallows =>
      hwear.ne' ((allowsAllocation_iff_wear _).mp hallows)
  rw [DiskInventory.allowsAllocation, h]
  simp [hstate]

/-- **UNHEALTHY DISKS NEVER BECOME WRITABLE AGAIN**, from any inventory, under any policy. -/
theorem unhealthy_disks_stay_unwritable (ovf : Overflow) (inv : DiskInventory) (d : DiskId)
    (ops : List InventoryOp) : StaysUnwritable ovf inv d ops where
  allocation pre post s hops hstate hhealthy hsuspect := by
    obtain ⟨disk, hdisk, rfl⟩ := getState_eq_ok_iff.mp hstate
    obtain ⟨disk', hdisk', hwear, -⟩ := exists_disk_run ovf hdisk post
    rw [hops, runState_append]
    refine allowsAllocation_of_wear hdisk' (Nat.lt_of_lt_of_le ?_ hwear)
    refine Nat.pos_of_ne_zero fun hzero => ?_
    rcases (DiskState.allowsAllocation_iff _).mp ((allowsAllocation_iff_wear _).mpr hzero) with
        h | h
    · exact hhealthy h
    · exact hsuspect h
  reads pre post hops hreads := by
    obtain ⟨disk, hdisk, hstate⟩ := allowsReads_eq_ok_iff.mp hreads
    obtain ⟨disk', hdisk', hwear, -⟩ := exists_disk_run ovf hdisk post
    rw [hops, runState_append]
    refine allowsReads_eq_ok_iff.mpr ⟨disk', hdisk', ?_⟩
    rw [← Bool.not_eq_true, allowsReads_iff_wear] at hstate ⊢
    omega
  removed pre post hops hstate := by
    obtain ⟨disk, hdisk, hremoved⟩ := getState_eq_ok_iff.mp hstate
    obtain ⟨disk', hdisk', hwear, -⟩ := exists_disk_run ovf hdisk post
    rw [hops, runState_append]
    refine getState_eq_ok_iff.mpr ⟨disk', hdisk', ?_⟩
    rw [eq_removed_iff_wear] at hremoved ⊢
    omega
  errors pre mid t post disk hops hdisk hfits hmany := by
    obtain ⟨before, hbefore, -, hpolicy⟩ := exists_disk_run ovf hdisk mid
    obtain ⟨before', hbefore', herrors, htimeouts⟩ :=
      exists_counters_run ovf hdisk mid hfits.of_append
    rw [hbefore, Option.some.injEq] at hbefore'
    subst hbefore'
    obtain ⟨hfit, hfit'⟩ := hfits
    simp only [accumulated, List.map_append, List.sum_append, List.map_cons, List.map_nil,
      List.sum_singleton] at hfit hfit' hmany herrors
    have hpos : 0 < wear (before.afterTelemetry ovf t).state := by
      refine wear_afterTelemetry_pos ovf ⟨?_, ?_⟩ (by rw [hpolicy, herrors]; omega)
      · simp only [accumulated, List.map_cons, List.map_nil, List.sum_singleton, herrors]
        omega
      · simp only [htimeouts, List.map_cons, List.map_nil, List.sum_singleton]
        omega
    have hrecorded : (inventoryStep ovf (runState (inventoryStep ovf)
        (runState (inventoryStep ovf) inv pre) mid) (.recordTelemetry d t)).1.disks[d]?
          = some (before.afterTelemetry ovf t) := by
      rw [inventoryStep, recordTelemetry_eq hbefore]
      exact ExtTreeMap.getElem?_insert_self
    obtain ⟨disk', hdisk', hwear, -⟩ := exists_disk_run ovf hrecorded post
    rw [hops, runState_append, runState_append, runState_cons]
    exact allowsAllocation_of_wear hdisk' (Nat.lt_of_lt_of_le hpos hwear)

/-! ## 5. Evacuation -/

/-- The operation takes the disk from Healthy or Suspect into Degraded: a request, which both
states grant, or a snapshot from which Degraded is derived. -/
def entersDegraded (ovf : Overflow) (inv : DiskInventory) (d : DiskId) : InventoryOp → Bool
  | .transitionState k s =>
    k = d ∧ s = .degraded ∧ inv.disks[d]?.any (·.state.allowsAllocation)
  | .recordTelemetry k t =>
    k = d ∧ inv.disks[d]?.any fun disk =>
      disk.state.allowsAllocation ∧ disk.derivedBy ovf t = some .degraded
  | _ => false

/-- How often a disk enters Degraded in a run. -/
def entries (ovf : Overflow) (d : DiskId) (inv : DiskInventory) : List InventoryOp → Nat
  | [] => 0
  | op :: ops =>
    (entersDegraded ovf inv d op).toNat + entries ovf d (inventoryStep ovf inv op).1 ops

def handedOut (ovf : Overflow) (inv : DiskInventory) (ops : List InventoryOp) : List DiskId :=
  (runOutputs (inventoryStep ovf) inv ops).flatten

/-- **What evacuation promises** of a run of an inventory. -/
structure Evacuates (ovf : Overflow) (ops : List InventoryOp) : Prop where
  /-- Whatever takes a disk into Degraded moves it on to Draining and into the queue. -/
  drained : ∀ pre op post d, ops = pre ++ op :: post →
    entersDegraded ovf (runState (inventoryStep ovf) .new pre) d op = true →
    (inventoryStep ovf (runState (inventoryStep ovf) .new pre) op).1.getState d
        = .ok .draining ∧
      d ∈ (inventoryStep ovf (runState (inventoryStep ovf) .new pre) op).1.drainQueue
  /-- At every moment a disk has been handed out, or is in the queue, once for every time it
  entered Degraded. -/
  once : ∀ pre, pre <+: ops → ∀ d, (handedOut ovf .new pre).count d
    + (runState (inventoryStep ovf) .new pre).drainQueue.count d = entries ovf d .new pre
  /-- And no disk enters Degraded twice. -/
  single : ∀ d, entries ovf d .new ops ≤ 1

/-- The operation is no snapshot that takes a disk into Degraded. -/
def NotDegradedByTelemetry (ovf : Overflow) (inv : DiskInventory) (op : InventoryOp) : Prop :=
  ∀ d t disk, op = .recordTelemetry d t → inv.disks[d]? = some disk →
    disk.state.allowsAllocation = true → disk.derivedBy ovf t ≠ some .degraded

theorem entries_snoc (ovf : Overflow) (d : DiskId) (inv : DiskInventory) (ops : List InventoryOp)
    (op : InventoryOp) :
    entries ovf d inv (ops ++ [op]) = entries ovf d inv ops
      + (entersDegraded ovf (runState (inventoryStep ovf) inv ops) d op).toNat := by
  induction ops generalizing inv with
  | nil => simp [entries]
  | cons op' ops ih => simp only [List.cons_append, entries, ih, runState_cons, Nat.add_assoc]

theorem handedOut_snoc (ovf : Overflow) (inv : DiskInventory) (ops : List InventoryOp)
    (op : InventoryOp) :
    handedOut ovf inv (ops ++ [op]) = handedOut ovf inv ops
      ++ (inventoryStep ovf (runState (inventoryStep ovf) inv ops) op).2 := by
  rw [handedOut, runOutputs_snoc, List.flatten_append, List.flatten_singleton]
  rfl

/-- No disk is in Degraded. -/
def NoneDegraded (inv : DiskInventory) : Prop :=
  ∀ (d : DiskId) (disk : ManagedDisk), inv.disks[d]? = some disk → disk.state ≠ .degraded

/-- A snapshot that does not take the disk into Degraded leaves it elsewhere. -/
theorem afterTelemetry_ne_degraded {t : DiskTelemetry} (hstate : disk.state ≠ .degraded)
    (h : disk.state.allowsAllocation = true → disk.derivedBy ovf t ≠ some .degraded) :
    (disk.afterTelemetry ovf t).state ≠ .degraded := by
  unfold ManagedDisk.afterTelemetry
  dsimp only
  split
  · next derived hderived =>
    rw [hderived] at h
    split
    · next hlegal =>
      rintro rfl
      -- only a disk that takes extents may become Degraded
      refine h ?_ rfl
      cases hs : disk.state <;> rw [hs] at hlegal hstate <;>
        first | rfl | exact absurd rfl hstate | exact absurd hlegal (by decide)
    · exact hstate
  · exact hstate

/-- Without such snapshots no disk is ever IN Degraded: a request leads past it. -/
theorem NoneDegraded.step (h : NoneDegraded inv) (hop : NotDegradedByTelemetry ovf inv op) :
    NoneDegraded (inventoryStep ovf inv op).1 := by
  have hcases := inventoryStep_cases ovf inv op
  generalize (inventoryStep ovf inv op).1 = inv' at hcases ⊢
  have hinsert : ∀ k (new : ManagedDisk), new.state ≠ .degraded → ∀ queue,
      NoneDegraded ⟨inv.disks.insert k new, queue⟩ := by
    intro k new hnew queue d disk hd
    rcases eq_or_ne k d with rfl | hne
    · rw [ExtTreeMap.getElem?_insert_self, Option.some.injEq] at hd
      rwa [← hd]
    · exact h d disk (by rwa [getElem?_insert_of_ne _ hne] at hd)
  cases hcases with
  | refused => exact h
  | registered unknown fresh =>
    refine hinsert _ _ (fun hstate => ?_) _
    rw [hstate] at fresh
    cases fresh
  | changed known effect =>
    have hold := h _ _ known
    refine hinsert _ _ ?_ _
    cases effect with
    | moved legal other => exact other
    | drained legal => exact DiskState.noConfusion
    | recorded =>
      exact afterTelemetry_ne_degraded hold fun hstate => hop _ _ _ rfl known hstate
    | promoted suspect => exact DiskState.noConfusion
    | qualified => exact hold
    | burningIn => exact hold
    | reported => exact hold
  | taken => exact h

/-- From a state other than Degraded, a request for Degraded is granted exactly to a disk that
takes extents. -/
theorem legal_degraded_iff {s : DiskState} (h : s ≠ .degraded) :
    s.legal .degraded = s.allowsAllocation := by
  cases s <;> first | rfl | exact absurd rfl h

theorem inventoryStep_snd (ovf : Overflow) (inv : DiskInventory) (h : op ≠ .takeDrainQueue) :
    (inventoryStep ovf inv op).2 = [] := by
  cases op with
  | takeDrainQueue => exact absurd rfl h
  | _ => rfl

/-- Who enters Degraded took extents before. -/
theorem entersDegraded_iff : entersDegraded ovf inv d op = true ↔
    ∃ disk, inv.disks[d]? = some disk ∧ disk.state.allowsAllocation = true ∧
      (op = .transitionState d .degraded ∨
        ∃ t, op = .recordTelemetry d t ∧ disk.derivedBy ovf t = some .degraded) := by
  cases op with
  | transitionState k s =>
    simp only [entersDegraded, decide_eq_true_eq, Option.any_eq_true,
      InventoryOp.transitionState.injEq, reduceCtorEq, false_and, exists_false, or_false]
    constructor
    · rintro ⟨rfl, rfl, disk, hdisk, hstate⟩
      exact ⟨disk, hdisk, hstate, rfl, rfl⟩
    · rintro ⟨disk, hdisk, hstate, rfl, rfl⟩
      exact ⟨rfl, rfl, disk, hdisk, hstate⟩
  | recordTelemetry k t =>
    simp only [entersDegraded, decide_eq_true_eq, Option.any_eq_true,
      InventoryOp.recordTelemetry.injEq, reduceCtorEq, false_or]
    constructor
    · rintro ⟨rfl, disk, hdisk, hstate, hderived⟩
      exact ⟨disk, hdisk, hstate, t, ⟨rfl, rfl⟩, hderived⟩
    · rintro ⟨disk, hdisk, hstate, t', ⟨rfl, rfl⟩, hderived⟩
      exact ⟨rfl, disk, hdisk, hstate, hderived⟩
  | _ => simp [entersDegraded]

/-- **A request leads on**: the disk is draining and queued. -/
theorem drained_of_enters (hop : NotDegradedByTelemetry ovf inv op)
    (h : entersDegraded ovf inv d op = true) :
    (inventoryStep ovf inv op).1.getState d = .ok .draining ∧
      d ∈ (inventoryStep ovf inv op).1.drainQueue := by
  obtain ⟨disk, hdisk, hstate, rfl | ⟨t, rfl, hderived⟩⟩ := entersDegraded_iff.mp h
  · have hcases := inventoryStep_cases ovf inv (.transitionState d .degraded)
    generalize (inventoryStep ovf inv (.transitionState d .degraded)).1 = inv' at hcases ⊢
    cases hcases with
    | refused kept ungranted unrecorded =>
      have hlegal := ungranted d disk hdisk rfl
      rw [legal_degraded_iff (by rintro hs; rw [hs] at hstate; cases hstate), hstate] at hlegal
      cases hlegal
    | changed known effect =>
      cases effect with
      | moved legal other => exact absurd rfl other
      | drained legal =>
        exact ⟨getState_eq_ok_iff.mpr ⟨_, ExtTreeMap.getElem?_insert_self, rfl⟩,
          List.mem_append_right _ (List.mem_singleton.mpr rfl)⟩
  · exact absurd hderived (hop d t disk rfl hdisk hstate)

/-- A snapshot does not: the disk is IN Degraded. -/
theorem degraded_of_telemetry {t : DiskTelemetry} (hdisk : inv.disks[d]? = some disk)
    (hstate : disk.state.allowsAllocation = true) (h : disk.derivedBy ovf t = some .degraded) :
    (inventoryStep ovf inv (.recordTelemetry d t)).1.getState d = .ok .degraded := by
  have hlegal : disk.state.legal .degraded = true := by
    rw [legal_degraded_iff (by rintro hs; rw [hs] at hstate; cases hstate), hstate]
  rw [inventoryStep, recordTelemetry_eq hdisk]
  refine getState_eq_ok_iff.mpr ⟨_, ExtTreeMap.getElem?_insert_self, ?_⟩
  simp only [ManagedDisk.afterTelemetry, h, if_pos hlegal]

/-- **Every step keeps the books**: what is handed out or queued in it is what enters Degraded. -/
theorem count_step (hnone : NoneDegraded inv) (hop : NotDegradedByTelemetry ovf inv op)
    (d : DiskId) :
    (inventoryStep ovf inv op).2.count d + (inventoryStep ovf inv op).1.drainQueue.count d
      = inv.drainQueue.count d + (entersDegraded ovf inv d op).toNat := by
  by_cases htake : op = .takeDrainQueue
  · subst htake
    rfl
  rw [inventoryStep_snd ovf inv htake, List.count_nil, Nat.zero_add]
  have hcases := inventoryStep_cases ovf inv op
  generalize (inventoryStep ovf inv op).1 = inv' at hcases ⊢
  -- where nothing is queued, nothing enters
  have hnot : (∀ disk, inv.disks[d]? = some disk → disk.state.allowsAllocation = true →
      op ≠ .transitionState d .degraded) → (entersDegraded ovf inv d op).toNat = 0 := by
    intro h
    rw [Bool.toNat_eq_zero, ← Bool.not_eq_true]
    intro henters
    obtain ⟨disk, hdisk, hstate, hreq | ⟨t, rfl, hderived⟩⟩ := entersDegraded_iff.mp henters
    · exact h disk hdisk hstate hreq
    · exact hop d t disk rfl hdisk hstate hderived
  cases hcases with
  | refused kept ungranted unrecorded =>
    rw [hnot fun disk hdisk hstate hreq => ?_, Nat.add_zero]
    have hlegal := ungranted d disk hdisk hreq
    rw [legal_degraded_iff (hnone d disk hdisk), hstate] at hlegal
    cases hlegal
  | registered unknown fresh => rw [hnot (by simp), Nat.add_zero]; rfl
  | @changed op k old new known effect =>
    dsimp only
    rw [List.count_append]
    congr 1
    cases effect with
    | @moved _ s _ legal other =>
      rw [hnot fun disk _ _ hreq => other (InventoryOp.transitionState.inj hreq).2]
      cases s <;> first | rfl | exact absurd rfl other
    | drained legal =>
      rw [InventoryOp.queues, List.count_singleton]
      rw [legal_degraded_iff (hnone k old known)] at legal
      by_cases hk : k = d
      · subst hk
        have henters : entersDegraded ovf inv k (.transitionState k .degraded) = true :=
          entersDegraded_iff.mpr ⟨old, known, legal, Or.inl rfl⟩
        rw [henters]
        simp
      · rw [hnot fun disk _ _ hreq => hk (InventoryOp.transitionState.inj hreq).1]
        simp [hk]
    | recorded => rw [hnot (by simp)]; rfl
    | promoted suspect => rw [hnot (by simp)]; rfl
    | qualified => rw [hnot (by simp)]; rfl
    | burningIn => rw [hnot (by simp)]; rfl
    | reported => rw [hnot (by simp)]; rfl
  | taken => exact absurd rfl htake

/-- The books of a run without degrading snapshots. -/
structure Ledger (ovf : Overflow) (seen : List InventoryOp) (inv : DiskInventory) : Prop where
  none : NoneDegraded inv
  once : ∀ d, (handedOut ovf .new seen).count d + inv.drainQueue.count d
    = entries ovf d .new seen
  gone : ∀ d, entries ovf d .new seen = 0 ∨ entries ovf d .new seen = 1 ∧
    ∃ disk, inv.disks[d]? = some disk ∧ 0 < wear disk.state

theorem Ledger.start (ovf : Overflow) : Ledger ovf [] .new where
  none d disk h := by simp [DiskInventory.new] at h
  once d := rfl
  gone d := Or.inl rfl

theorem Ledger.step {seen : List InventoryOp}
    (h : Ledger ovf seen (runState (inventoryStep ovf) .new seen))
    (hop : NotDegradedByTelemetry ovf (runState (inventoryStep ovf) .new seen) op) :
    Ledger ovf (seen ++ [op])
      (inventoryStep ovf (runState (inventoryStep ovf) .new seen) op).1 where
  none := h.none.step hop
  once d := by
    have hcount := count_step h.none hop d
    have honce := h.once d
    rw [handedOut_snoc, entries_snoc, List.count_append]
    omega
  gone d := by
    rw [entries_snoc]
    cases henters : entersDegraded ovf (runState (inventoryStep ovf) .new seen) d op with
    | false =>
      rcases h.gone d with hzero | ⟨hone, disk, hdisk, hwear⟩
      · exact Or.inl (by rw [hzero]; rfl)
      · obtain ⟨disk', hdisk', hsame⟩ := exists_disk_step ovf hdisk op
        refine Or.inr ⟨by rw [hone]; rfl, disk', hdisk', ?_⟩
        rcases hsame with ⟨rfl, -⟩ | heffect
        · exact hwear
        · exact Nat.lt_of_lt_of_le hwear heffect.wear_le
    | true =>
      -- it took extents until now, so it had not entered before
      obtain ⟨disk, hdisk, hstate, -⟩ := entersDegraded_iff.mp henters
      obtain ⟨disk', hdisk', hdraining⟩ :=
        getState_eq_ok_iff.mp (drained_of_enters hop henters).1
      rcases h.gone d with hzero | ⟨-, disk'', hdisk'', hwear⟩
      · exact Or.inr ⟨by rw [hzero]; rfl, disk', hdisk', by rw [hdraining]; decide⟩
      · rw [hdisk, Option.some.injEq] at hdisk''
        rw [← hdisk'', (allowsAllocation_iff_wear _).mp hstate] at hwear
        exact absurd hwear (Nat.lt_irrefl 0)

theorem ledger_run {ops : List InventoryOp}
    (h : Along (inventoryStep ovf) (NotDegradedByTelemetry ovf) .new ops) :
    Ledger ovf ops (runState (inventoryStep ovf) .new ops) :=
  runState_history (P := Ledger ovf) (.start ovf) fun pre _ post hops hpre =>
    hpre.step (along_iff.mp h pre _ post hops)

/-- **EVACUATION.**  A run of an inventory keeps the promise exactly when no snapshot of it takes a
disk that takes extents into Degraded. -/
theorem evacuates_iff (ovf : Overflow) (ops : List InventoryOp) :
    Evacuates ovf ops ↔
      Along (inventoryStep ovf) (NotDegradedByTelemetry ovf) .new ops := by
  constructor
  · intro h
    refine along_iff.mpr fun pre op post hops d t disk hop hdisk hstate hderived => ?_
    subst hop
    have henters := entersDegraded_iff.mpr ⟨disk, hdisk, hstate, Or.inr ⟨t, rfl, hderived⟩⟩
    have hdraining := (h.drained pre _ post d hops henters).1
    rw [degraded_of_telemetry hdisk hstate hderived] at hdraining
    cases hdraining
  · intro h
    refine ⟨fun pre op post d hops => ?_, ?_, fun d => ?_⟩
    · exact drained_of_enters (along_iff.mp h pre op post hops)
    · rintro pre ⟨post, rfl⟩ d
      refine (ledger_run (along_iff.mpr ?_)).once d
      intro pre' op post' hpre
      exact along_iff.mp h pre' op (post' ++ post) (by rw [hpre]; simp)
    · rcases (ledger_run h).gone d with hzero | ⟨hone, -⟩ <;> omega

/-- A disk, and a snapshot with twenty read errors, the degraded threshold of the default
policy. -/
def failingReads : List InventoryOp :=
  [.register ⟨3#128⟩ "/data" false,
    .recordTelemetry ⟨3#128⟩ { DiskTelemetry.default with readErrors := 20 }, .takeDrainQueue]

/-- **Twenty read errors**: the disk is Degraded, is not draining, and is not handed out. -/
theorem failing_reads_not_evacuated :
    (runState (inventoryStep .checked) .new failingReads).getState ⟨3#128⟩ = .ok .degraded ∧
      handedOut .checked .new failingReads = [] ∧ entries .checked ⟨3#128⟩ .new failingReads = 1 ∧
      ¬ Evacuates .checked failingReads := by
  have hentries : entries .checked ⟨3#128⟩ .new failingReads = 1 := by decide
  refine ⟨by decide, by decide, hentries, fun h => ?_⟩
  have honce := h.once failingReads (List.prefix_refl _) ⟨3#128⟩
  rw [hentries] at honce
  exact absurd honce (by decide)

end Blockyard.Storage
