/-
# Reporting a failed disk

`blockyard-storage`, `failure.rs`: `handle_disk_failure` moves a disk to Failed and reports the
extents on it, so that the cluster can repair them.

The handler is not the only way into Failed.  `handle_xfs_error` takes a disk there when a write
finds the filesystem full or read-only, `record_telemetry` when the errors pass a threshold, and
any caller may request it.  None of them reports anything, and the handler takes a disk that is
Failed already for one it has reported: its list of affected extents is EMPTY then, although
nobody has seen the extents (§3).  So the report is complete exactly when nothing else failed the
disk before the handler was called, or when the disk holds nothing.
-/
import Blockyard.Storage.Corruption
import Blockyard.Storage.DiskLifecycle

open Std Machine

namespace Blockyard.Storage

/-! ## 1. The handler -/

/-- `list_for_disk`, in the order one scan of the hash map visits the entries. -/
def ExtentIndex.listForDisk (index : ExtentIndex) (order : IterOrder ExtentId) (diskId : DiskId) :
    List LocalExtentEntry :=
  ((order.keys index).filterMap fun extentId => index[extentId]?).filter (·.diskId = diskId)

structure DiskFailureReport where
  diskId : DiskId
  previousState : DiskState
  affectedExtents : List ExtentId
  reason : String
  deriving DecidableEq, Repr

def handleDiskFailure (order : IterOrder ExtentId) (inventory : DiskInventory)
    (index : ExtentIndex) (diskId : DiskId) (reason : String) :
    DiskInventory × Except StorageError DiskFailureReport :=
  match inventory.getState diskId with
  | .error e => (inventory, .error e)
  | .ok previousState =>
    if previousState = .failed ∨ previousState = .removed then
      (inventory, .ok
        { diskId
          previousState
          affectedExtents := []
          reason := s!"disk already in {previousState} state" })
    else
      match inventory.transitionState diskId .failed with
      | (inventory, .error e) => (inventory, .error e)
      | (inventory, .ok _) =>
        (inventory, .ok
          { diskId
            previousState
            affectedExtents := (index.listForDisk order diskId).map LocalExtentEntry.extentId
            reason })

/-- What happens to a node: an operation, with any errors, or a call of the failure handler. -/
inductive FailureEvent
  | op (op : NodeOp)
  | diskFailure (order : IterOrder ExtentId) (diskId : DiskId) (reason : String)

/-- One event, and the report of the handler. -/
def failureStep (x : Externals) (ovf : Overflow) (s : DataNodeService) :
    FailureEvent → DataNodeService × Option (Except StorageError DiskFailureReport)
  | .op op => ((nodeStep x ovf s op).1, none)
  | .diskFailure order diskId reason =>
    let (inventory, answer) := handleDiskFailure order s.inventory s.index diskId reason
    ({ s with inventory }, some answer)

/-! ## 2. The index -/

variable {index : ExtentIndex} {order : IterOrder ExtentId} {d : DiskId}

/-- Every entry is filed under its own extent. -/
def Keyed (index : ExtentIndex) : Prop :=
  ∀ (e : ExtentId) (entry : LocalExtentEntry), index[e]? = some entry → entry.extentId = e

theorem Keyed.insert (h : Keyed index) {e : ExtentId} {entry : LocalExtentEntry}
    (hentry : entry.extentId = e) : Keyed (index.insert e entry) := by
  intro e' entry' he'
  rcases eq_or_ne e e' with rfl | hne
  · rw [ExtTreeMap.getElem?_insert_self, Option.some.injEq] at he'
    rw [← he', hentry]
  · exact h e' entry' (by rwa [getElem?_insert_of_ne _ hne] at he')

theorem keyed_failureStep {x : Externals} {ovf : Overflow} {s : DataNodeService}
    (h : Keyed s.index) (ev : FailureEvent) : Keyed (failureStep x ovf s ev).1.index := by
  cases ev with
  | op op =>
    rcases index_nodeStep x ovf s op with ⟨-, hindex⟩ | ⟨e, cell, entry, -, hindex, hentry, -⟩
    · rw [failureStep, hindex]
      exact h
    · rw [failureStep, hindex]
      exact h.insert hentry
  | diskFailure order d reason => exact h

theorem keyed_run (x : Externals) (ovf : Overflow) {s : DataNodeService} (h : Keyed s.index)
    (evs : List FailureEvent) : Keyed (runState (failureStep x ovf) s evs).index :=
  runState_invariant (P := fun t : DataNodeService => Keyed t.index) h
    (fun _ ev ht => keyed_failureStep ht ev) evs

/-- Where the entries are filed under their extents, the list of a disk names every extent on
it. -/
theorem mem_listForDisk (hkeyed : Keyed index) {e : ExtentId} {entry : LocalExtentEntry}
    (he : index[e]? = some entry) (hd : entry.diskId = d) :
    e ∈ (index.listForDisk order d).map LocalExtentEntry.extentId := by
  refine List.mem_map.mpr ⟨entry, List.mem_filter.mpr ⟨?_, by simpa using hd⟩, hkeyed e entry he⟩
  exact List.mem_filterMap.mpr ⟨e, (IterOrder.mem_keys _ _ _).mpr (mem_of_getElem? he), he⟩

/-! ## 3. Reports -/

/-- The call returns a report that names every extent whose entry is on the disk. -/
def ReportsAll (order : IterOrder ExtentId) (s : DataNodeService) (d : DiskId) (reason : String) :
    Prop :=
  ∃ report, (handleDiskFailure order s.inventory s.index d reason).2 = .ok report ∧
    ∀ (e : ExtentId) (entry : LocalExtentEntry), s.index[e]? = some entry → entry.diskId = d →
      e ∈ report.affectedExtents

/-- Every state but the two the handler looks for may be failed. -/
theorem legal_failed {s : DiskState} (hfailed : s ≠ .failed) (hremoved : s ≠ .removed) :
    s.legal .failed = true := by
  cases s <;> first | rfl | exact absurd rfl hfailed | exact absurd rfl hremoved

/-- What the handler answers for a disk that is Failed or Removed. -/
theorem handleDiskFailure_already {inv : DiskInventory} {reason : String} {s : DiskState}
    (h : inv.getState d = .ok s) (hs : s = .failed ∨ s = .removed) :
    (handleDiskFailure order inv index d reason).2
      = .ok ⟨d, s, [], s!"disk already in {s} state"⟩ := by
  unfold handleDiskFailure
  rw [h]
  dsimp only
  rw [if_pos hs]

theorem handleDiskFailure_fresh {inv : DiskInventory} {reason : String} {s : DiskState}
    (h : inv.getState d = .ok s) (hs : ¬ (s = .failed ∨ s = .removed)) :
    (handleDiskFailure order inv index d reason).2
      = .ok ⟨d, s, (index.listForDisk order d).map LocalExtentEntry.extentId, reason⟩ := by
  obtain ⟨disk, hdisk, hstate⟩ := getState_eq_ok_iff.mp h
  have hlegal : disk.state.legal .failed = true := by
    rw [hstate]
    exact legal_failed (fun hf => hs (Or.inl hf)) (fun hr => hs (Or.inr hr))
  have htransition : inv.transitionState d .failed
      = (inv.setDisk d { disk with state := .failed }, .ok disk.state) := by
    rw [DiskInventory.transitionState, hdisk]
    dsimp only
    rw [validateTransition_ok hlegal]
    rfl
  unfold handleDiskFailure
  rw [h]
  dsimp only
  rw [if_neg hs, htransition]

/-- **FAILED DISKS ARE REPORTED** exactly when nobody has failed them before, or there is nothing
on them: after any history of a node, for any disk it knows and any call of the handler, the first
one included. -/
theorem reportsAll_iff (x : Externals) (ovf : Overflow) (s : DataNodeService)
    (hkeyed : Keyed s.index) (evs : List FailureEvent) (d : DiskId) (state : DiskState)
    (hstate : (runState (failureStep x ovf) s evs).inventory.getState d = .ok state)
    (order : IterOrder ExtentId) (reason : String) :
    ReportsAll order (runState (failureStep x ovf) s evs) d reason ↔
      (state ≠ .failed ∧ state ≠ .removed) ∨
        ∀ (e : ExtentId) (entry : LocalExtentEntry),
          (runState (failureStep x ovf) s evs).index[e]? = some entry → entry.diskId ≠ d := by
  have hkeys := keyed_run x ovf hkeyed evs
  generalize runState (failureStep x ovf) s evs = t at hstate hkeys ⊢
  by_cases hgone : state = .failed ∨ state = .removed
  · rw [ReportsAll, handleDiskFailure_already hstate hgone]
    constructor
    · rintro ⟨report, hreport, hall⟩
      cases hreport
      refine Or.inr fun e entry he hd => ?_
      exact absurd (hall e entry he hd) List.not_mem_nil
    · rintro (⟨hf, hr⟩ | hnone)
      · exact absurd hgone (not_or.mpr ⟨hf, hr⟩)
      · exact ⟨_, rfl, fun e entry he hd => absurd hd (hnone e entry he)⟩
  · refine ⟨fun _ => Or.inl (not_or.mp hgone), fun _ => ?_⟩
    exact ⟨_, handleDiskFailure_fresh hstate hgone,
      fun e entry he hd => mem_listForDisk hkeys he hd⟩

def oneExtent : FailureEvent :=
  .op (.write (trimEnv (.sorted _)) (sampleWrite ⟨21#128⟩ 1) [1] (.node ⟨2#128⟩))

theorem oneExtent_written (ovf : Overflow) :
    ∃ entry, (failureStep (jsonExternals sampleBlake3) ovf sampleNode oneExtent).1.inventory
        = sampleNode.inventory ∧
      (failureStep (jsonExternals sampleBlake3) ovf sampleNode oneExtent).1.index
        = (∅ : ExtentIndex).insert ⟨5#128⟩ entry ∧ entry.diskId = sampleDisk := by
  have hstate : (failureStep (jsonExternals sampleBlake3) ovf sampleNode oneExtent).1
      = (sampleNode.handleWrite (jsonExternals sampleBlake3) (trimEnv (.sorted _))
        (sampleWrite ⟨21#128⟩ 1) [1] (.node ⟨2#128⟩)).1 := rfl
  rw [hstate, sampleNode_handleWrite]
  exact ⟨_, rfl, rfl, rfl⟩

theorem reportsAll_iff_one_extent :
    ReportsAll (.sorted _) (runState (failureStep (jsonExternals sampleBlake3) .checked) sampleNode
      [oneExtent]) sampleDisk "media error" := by
  obtain ⟨entry, hinv, -, -⟩ := oneExtent_written .checked
  refine (reportsAll_iff (jsonExternals sampleBlake3) .checked sampleNode ?_ [oneExtent] sampleDisk
    .healthy ?_ _ _).mpr (Or.inl (by decide))
  · intro e entry he
    rw [show sampleNode.index = ∅ from rfl, ExtTreeMap.getElem?_empty] at he
    cases he
  · rw [runState_cons, runState_nil, hinv]
    decide

/-- Then a snapshot with a hundred read errors, the failed threshold of the default policy. -/
def failedByTelemetry : List FailureEvent :=
  [oneExtent, .op (.recordTelemetry sampleDisk { DiskTelemetry.default with readErrors := 100 })]

/-- **A hundred read errors**: the disk is Failed, the index has an extent on it, and the first
call of the handler reports none. -/
theorem telemetry_failure_unreported :
    let t := runState (failureStep (jsonExternals sampleBlake3) .checked) sampleNode
      failedByTelemetry
    t.inventory.getState sampleDisk = .ok .failed ∧
      (∃ entry, t.index[(⟨5#128⟩ : ExtentId)]? = some entry ∧ entry.diskId = sampleDisk) ∧
      (∀ order reason, (handleDiskFailure order t.inventory t.index sampleDisk reason).2
        = .ok ⟨sampleDisk, .failed, [], "disk already in failed state"⟩) ∧
      ∀ order reason, ¬ ReportsAll order t sampleDisk reason := by
  intro t
  obtain ⟨entry, hinv, hindex, hdisk⟩ := oneExtent_written .checked
  have hstate : t.inventory.getState sampleDisk = .ok .failed := by
    change ((failureStep (jsonExternals sampleBlake3) .checked sampleNode
      oneExtent).1.inventory.recordTelemetry .checked sampleDisk _).1.getState sampleDisk = _
    rw [hinv]
    decide
  have hentry : t.index[(⟨5#128⟩ : ExtentId)]? = some entry := by
    change (failureStep (jsonExternals sampleBlake3) .checked sampleNode
      oneExtent).1.index[(⟨5#128⟩ : ExtentId)]? = _
    rw [hindex]
    exact ExtTreeMap.getElem?_insert_self
  have hreport : ∀ order reason, (handleDiskFailure order t.inventory t.index sampleDisk reason).2
      = .ok ⟨sampleDisk, .failed, [], "disk already in failed state"⟩ :=
    fun order reason => handleDiskFailure_already hstate (Or.inl rfl)
  refine ⟨hstate, ⟨entry, hentry, hdisk⟩, hreport, ?_⟩
  rintro order reason ⟨report, hok, hall⟩
  rw [hreport] at hok
  cases hok
  exact absurd (hall _ entry hentry hdisk) List.not_mem_nil

end Blockyard.Storage
