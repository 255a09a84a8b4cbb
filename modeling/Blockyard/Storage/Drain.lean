/-
# Draining a disk

`blockyard-storage`, `background/drain.rs`: for each extent on the disk `drain_disk` picks a target
and puts a request into the queue of the repair worker; when all are in it moves the disk to
`Removed`.

`relocated` counts requests that were PUT INTO THE QUEUE.  Nothing waits for the repairs, and
nothing looks at their outcomes.  What the drain can rely on is the account of the queue: a request
that is neither queued nor on its way was processed.  So a disk that is removed has been emptied if
at that moment no repair of its extents is outstanding and none has failed (`drain_relocates`).

The worker runs while `drain_disk` awaits; a turn of the loop says what it did meanwhile.
-/
import Blockyard.Storage.Repair

open Machine

namespace Blockyard.Storage

/-! ## 1. The loop -/

structure DrainExtentEntry where
  extentId : ExtentId
  version : ExtentVersion
  healthySources : List DiskId
  deriving DecidableEq, Repr

structure DrainProgress where
  diskId : DiskId
  totalExtents : Nat
  relocated : Nat
  failed : Nat
  complete : Bool
  deriving DecidableEq, Repr

/-- What one turn of the loop meets: the answers of the inventory, and what happens to the worker
while the drain waits for the rate limiter and while it sleeps. -/
structure DrainTurn where
  isDraining : Bool
  waiting : List RepairEvent
  selectTargetDisk : Except String DiskId
  sleeping : List RepairEvent

/-- The worker, the progress, and the target chosen for each extent so far. -/
structure DrainState where
  worker : RepairWorker
  progress : DrainProgress
  targets : List (DrainExtentEntry × DiskId)

def DrainExtentEntry.relocation (entry : DrainExtentEntry) (target : DiskId) : RepairRequest where
  extentId := entry.extentId
  version := entry.version
  targetDiskId := target
  repairType := .replication entry.healthySources
  priority := 100

/-- The loop of `drain_disk`. -/
def drainLoop (turns : Nat → DrainTurn) (turn : Nat) (s : DrainState) :
    List DrainExtentEntry → DrainState
  | [] => s
  | entry :: entries =>
    if ¬ (turns turn).isDraining then s
    else
      let worker := runState RepairWorker.step s.worker (turns turn).waiting
      match (turns turn).selectTargetDisk with
      | .error _ =>
        drainLoop turns (turn + 1)
          { s with
            worker
            progress := { s.progress with failed := s.progress.failed + 1 } } entries
      | .ok target =>
        let worker := worker.enqueue (entry.relocation target)
        drainLoop turns (turn + 1)
          { worker := runState RepairWorker.step worker (turns turn).sleeping
            progress := { s.progress with relocated := s.progress.relocated + 1 }
            targets := s.targets ++ [(entry, target)] } entries

/-- `drain_disk`, on the extents `list_extents_on_disk` gives; `transitionToRemoved` is the answer
of the inventory at the end. -/
def drainDisk (diskId : DiskId) (worker : RepairWorker) (extents : List DrainExtentEntry)
    (turns : Nat → DrainTurn) (transitionToRemoved : Except String Unit) : DrainState :=
  let s := drainLoop turns 0 ⟨worker, ⟨diskId, extents.length, 0, 0, false⟩, []⟩ extents
  if s.progress.relocated = extents.length ∧ s.progress.failed = 0 then
    match transitionToRemoved with
    | .ok () => { s with progress := { s.progress with complete := true } }
    | .error _ => s
  else s

/-! ## 2. What the loop has done -/

/-- What the loop did on its way to a state: events of the worker, among them one request for each
new target, and nothing else. -/
structure Drained (s : DrainState) (entries : List DrainExtentEntry) (s' : DrainState)
    (new : List (DrainExtentEntry × DiskId)) (events : List RepairEvent) : Prop where
  worker : s'.worker = runState RepairWorker.step s.worker events
  targets : s'.targets = s.targets ++ new
  relocated : s'.progress.relocated = s.progress.relocated + new.length
  complete : s'.progress.complete = s.progress.complete
  entries : (new.map Prod.fst).Sublist entries
  enqueued : ∀ pair ∈ new, pair.1.relocation pair.2 ∈ RepairWorker.enqueued events

theorem Drained.skip {s s' : DrainState} {entry : DrainExtentEntry}
    {entries : List DrainExtentEntry} {waiting events : List RepairEvent}
    {new : List (DrainExtentEntry × DiskId)}
    (h : Drained { s with
        worker := runState RepairWorker.step s.worker waiting
        progress := { s.progress with failed := s.progress.failed + 1 } } entries s' new events) :
    Drained s (entry :: entries) s' new (waiting ++ events) where
  worker := by
    rw [runState_append]
    exact h.worker
  targets := h.targets
  relocated := h.relocated
  complete := h.complete
  entries := h.entries.cons _
  enqueued := by
    intro pair hpair
    rw [RepairWorker.enqueued_append]
    exact List.mem_append_right _ (h.enqueued pair hpair)

theorem Drained.ask {s s' : DrainState} {entry : DrainExtentEntry} {target : DiskId}
    {entries : List DrainExtentEntry} {waiting sleeping events : List RepairEvent}
    {new : List (DrainExtentEntry × DiskId)}
    (h : Drained
      { worker := runState RepairWorker.step
          ((runState RepairWorker.step s.worker waiting).enqueue (entry.relocation target)) sleeping
        progress := { s.progress with relocated := s.progress.relocated + 1 }
        targets := s.targets ++ [(entry, target)] } entries s' new events) :
    Drained s (entry :: entries) s' ((entry, target) :: new)
      (waiting ++ .enqueue (entry.relocation target) :: (sleeping ++ events)) where
  worker := by
    rw [runState_append, runState_cons, runState_append]
    exact h.worker
  targets := by rw [h.targets, List.append_assoc, List.singleton_append]
  relocated := by
    rw [h.relocated, List.length_cons]
    dsimp only
    omega
  complete := h.complete
  entries := h.entries.cons_cons _
  enqueued := by
    intro pair hpair
    rw [RepairWorker.enqueued_append, List.mem_append]
    refine Or.inr ?_
    change pair.1.relocation pair.2 ∈
      entry.relocation target :: RepairWorker.enqueued (sleeping ++ events)
    rcases List.mem_cons.mp hpair with rfl | hnew
    · exact List.mem_cons_self
    · refine List.mem_cons_of_mem _ ?_
      rw [RepairWorker.enqueued_append]
      exact List.mem_append_right _ (h.enqueued pair hnew)

theorem drained_drainLoop (turns : Nat → DrainTurn) (entries : List DrainExtentEntry) :
    ∀ (turn : Nat) (s : DrainState),
      ∃ new events, Drained s entries (drainLoop turns turn s entries) new events := by
  induction entries with
  | nil =>
    intro turn s
    exact ⟨[], [], rfl, by simp [drainLoop], rfl, rfl, .refl _, by simp⟩
  | cons entry entries ih =>
    intro turn s
    by_cases hdraining : (turns turn).isDraining = true
    case neg =>
      -- the disk is no longer draining: the loop ends here
      have hout : drainLoop turns turn s (entry :: entries) = s := by
        unfold drainLoop
        exact if_pos hdraining
      rw [hout]
      exact ⟨[], [], rfl, by simp, rfl, rfl, List.nil_sublist _, by simp⟩
    unfold drainLoop
    simp only [hdraining, not_true_eq_false, if_false]
    cases htarget : (turns turn).selectTargetDisk with
    | error e =>
      obtain ⟨new, events, h⟩ := ih (turn + 1) _
      exact ⟨new, _, h.skip⟩
    | ok target =>
      obtain ⟨new, events, h⟩ := ih (turn + 1) _
      exact ⟨(entry, target) :: new, _, h.ask⟩

/-- **A drain that completes has asked for every extent.** -/
theorem requested_of_complete {diskId : DiskId} {worker : RepairWorker}
    {extents : List DrainExtentEntry} {turns : Nat → DrainTurn} {removed : Except String Unit}
    (h : (drainDisk diskId worker extents turns removed).progress.complete = true) :
    ∀ entry ∈ extents, ∃ target,
      (entry, target) ∈ (drainDisk diskId worker extents turns removed).targets ∧
        entry.relocation target ∈
          (drainDisk diskId worker extents turns removed).worker.requests := by
  obtain ⟨new, events, hd⟩ := drained_drainLoop turns extents 0
    ⟨worker, ⟨diskId, extents.length, 0, 0, false⟩, []⟩
  unfold drainDisk at h ⊢
  dsimp only at h ⊢
  split at h
  case isFalse =>
    rw [hd.complete] at h
    cases h
  case isTrue hcount =>
  simp only [hcount, and_self, if_true]
  cases removed with
  | error e =>
    rw [hd.complete] at h
    cases h
  | ok u =>
    -- as many targets as extents, in the order of the extents
    have hall : new.map Prod.fst = extents := by
      refine hd.entries.eq_of_length ?_
      have hrelocated := hd.relocated
      rw [hcount.1] at hrelocated
      rw [List.length_map]
      simpa using hrelocated.symm
    intro entry hentry
    rw [← hall] at hentry
    obtain ⟨pair, hpair, rfl⟩ := List.mem_map.mp hentry
    refine ⟨pair.2, ?_, ?_⟩
    · rw [hd.targets]
      exact List.mem_append_right _ hpair
    · have hrequests := RepairWorker.accounted_run worker events
      rw [← hd.worker] at hrequests
      exact hrequests.mem_iff.mpr (List.mem_append_right _ (hd.enqueued pair hpair))

/-! ## 3. Relocation -/

/-- A processed repair has written the extent to the target. -/
def Relocated (w : RepairWorker) (entry : DrainExtentEntry) (target : DiskId) : Prop :=
  ∃ p ∈ w.processed, p.outcome.success = true ∧
    ∃ data, p.written = some ⟨target, entry.extentId, entry.version, data⟩

/-- The request is about the extent. -/
def Concerns (request : RepairRequest) (entry : DrainExtentEntry) : Prop :=
  request.extentId = entry.extentId ∧ request.version = entry.version

/-- No repair of the extent is outstanding, and none has failed. -/
structure Settled (w : RepairWorker) (entry : DrainExtentEntry) : Prop where
  queue : ∀ request ∈ w.queue, ¬ Concerns request entry
  taken : ∀ request ∈ w.taken, ¬ Concerns request entry
  processed : ∀ p ∈ w.processed, Concerns p.request entry → p.outcome.success = true

/-- **DRAIN.**  When a disk is moved to `Removed` and the repairs of its extents are settled, every
extent listed on it was written to the target chosen for it, by a repair that was processed. -/
theorem drain_relocates (diskId : DiskId) (worker : RepairWorker)
    (extents : List DrainExtentEntry) (turns : Nat → DrainTurn) (removed : Except String Unit)
    (hcomplete : (drainDisk diskId worker extents turns removed).progress.complete = true)
    (hsettled : ∀ entry ∈ extents,
      Settled (drainDisk diskId worker extents turns removed).worker entry) :
    ∀ entry ∈ extents, ∃ target,
      (entry, target) ∈ (drainDisk diskId worker extents turns removed).targets ∧
        Relocated (drainDisk diskId worker extents turns removed).worker entry target := by
  intro entry hentry
  obtain ⟨target, htarget, hrequest⟩ := requested_of_complete hcomplete entry hentry
  refine ⟨target, htarget, ?_⟩
  have hs := hsettled entry hentry
  have hconcerns : Concerns (entry.relocation target) entry := ⟨rfl, rfl⟩
  unfold RepairWorker.requests at hrequest
  rcases List.mem_append.mp hrequest with hold | hqueued
  · rcases List.mem_append.mp hold with hprocessed | htaken
    · obtain ⟨p, hp, hreq⟩ := List.mem_map.mp hprocessed
      have hsuccess := hs.processed p hp (hreq ▸ hconcerns)
      obtain ⟨data, hdata⟩ := RepairRequest.consistent_repair p.env p.request hsuccess
      refine ⟨p, hp, hsuccess, data, ?_⟩
      rw [hreq] at hdata
      rw [ProcessedRepair.written, hreq]
      exact hdata
    · exact absurd hconcerns (hs.taken _ htaken)
  · exact absurd hconcerns (hs.queue _ hqueued)

/-! ### One extent -/

def lastExtent : DrainExtentEntry := ⟨⟨5#128⟩, 1, [⟨2#128⟩]⟩

def calmRepair : RepairEnv where
  readExtent _ _ _ _ := .ok [1]
  readFragment _ _ _ _ := .error "not found"
  writeExtent _ _ _ _ _ := .ok ()
  reconstruct _ _ _ _ := .error "no fragments"

/-- Turns that choose disk 9 as the target; the worker does the given events while the drain
sleeps. -/
def turnsTo9 (sleeping : List RepairEvent) (_ : Nat) : DrainTurn :=
  ⟨true, [], .ok ⟨9#128⟩, sleeping⟩

/-- The worker repairs while the drain sleeps: the extent is on disk 9 when disk 3 is removed. -/
theorem drain_relocates_last_extent :
    Relocated (drainDisk ⟨3#128⟩ .new [lastExtent] (turnsTo9 [.take, .finish 0 calmRepair])
      (.ok ())).worker lastExtent ⟨9#128⟩ := by
  have hall := drain_relocates ⟨3#128⟩ .new [lastExtent]
    (turnsTo9 [.take, .finish 0 calmRepair]) (.ok ()) (by rfl) (by
      intro entry hentry
      obtain rfl := List.mem_singleton.mp hentry
      refine ⟨fun request h => absurd h List.not_mem_nil,
        fun request h => absurd h List.not_mem_nil, fun p hp _ => ?_⟩
      obtain rfl := List.mem_singleton.mp hp
      rfl)
  obtain ⟨target, htarget, hrelocated⟩ := hall lastExtent (List.mem_singleton.mpr rfl)
  have honly : target = ⟨9#128⟩ := congrArg Prod.snd (List.mem_singleton.mp htarget)
  rw [← honly]
  exact hrelocated

/-- **The disk is removed while the request waits in the queue**: no repair was processed. -/
theorem removed_before_repair :
    (drainDisk ⟨3#128⟩ .new [lastExtent] (turnsTo9 []) (.ok ())).progress
        = ⟨⟨3#128⟩, 1, 1, 0, true⟩ ∧
      (drainDisk ⟨3#128⟩ .new [lastExtent] (turnsTo9 []) (.ok ())).worker
        = ⟨[lastExtent.relocation ⟨9#128⟩], [], []⟩ ∧
      ¬ ∃ target, Relocated (drainDisk ⟨3#128⟩ .new [lastExtent] (turnsTo9 []) (.ok ())).worker
        lastExtent target := by
  refine ⟨by rfl, by rfl, ?_⟩
  rintro ⟨target, p, hp, -⟩
  exact absurd hp List.not_mem_nil

end Blockyard.Storage
