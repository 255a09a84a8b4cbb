/-
# The repair worker

`blockyard-storage`, `background/repair.rs`: requests wait in a queue ordered by priority;
`process_next` takes the first one, waits for the rate limiter, repairs, and notes the outcome.

The reader, the writer and the reconstructor are traits; a repair is a function of what they answer
(`RepairEnv`).  The worker is a machine whose events are its critical sections: a request is put
into the queue, taken out of it, or finished.  Taking and finishing are SEPARATE events, since
`process_next` awaits in between, so a run may interleave any number of callers.

`accounted_run` is the invariant of the queue: whatever was put in is queued, on its way, or
processed, and nothing is there twice.
-/
import Blockyard.Storage.Extent
import Blockyard.Lib.Run

open Machine

namespace Blockyard.Storage

/-! ## 1. Requests -/

inductive RepairType
  | replication (healthySources : List DiskId)
  | erasureCode (dataCount parityCount : Nat) (availableFragments : List (Nat × DiskId))
      (originalDataLen : Nat)
  deriving DecidableEq, Repr

/-- `RepairRequest`; a lower priority number goes first. -/
structure RepairRequest where
  extentId : ExtentId
  version : ExtentVersion
  targetDiskId : DiskId
  repairType : RepairType
  priority : Nat
  deriving DecidableEq, Repr

structure RepairOutcome where
  extentId : ExtentId
  targetDiskId : DiskId
  success : Bool
  error : Option String
  deriving DecidableEq, Repr

/-- What a `RepairExtentWriter` has accepted. -/
structure WrittenExtent where
  targetDiskId : DiskId
  extentId : ExtentId
  version : ExtentVersion
  data : Bytes
  deriving DecidableEq, Repr

/-- What one repair meets: `RepairExtentReader`, `FragmentReader`, `RepairExtentWriter` and
`EcReconstructor`.  The first argument of a reader or the writer counts the calls, so that no answer
binds a later one. -/
structure RepairEnv where
  readExtent : Nat → DiskId → ExtentId → ExtentVersion → Except String Bytes
  readFragment : Nat → DiskId → ExtentId → Nat → Except String Bytes
  writeExtent : Nat → DiskId → ExtentId → ExtentVersion → Bytes → Except String Unit
  reconstruct : (dataCount parityCount : Nat) → List (Option Bytes) → (originalLen : Nat) →
    Except String Bytes

/-! ## 2. One repair -/

namespace RepairRequest

variable (env : RepairEnv) (request : RepairRequest)

def succeeded : RepairOutcome := ⟨request.extentId, request.targetDiskId, true, none⟩

def failed (error : String) : RepairOutcome :=
  ⟨request.extentId, request.targetDiskId, false, some error⟩

def write (call : Nat) (data : Bytes) : Except String WrittenExtent :=
  (env.writeExtent call request.targetDiskId request.extentId request.version data).map
    fun _ => ⟨request.targetDiskId, request.extentId, request.version, data⟩

/-- `repair_replication`, from the source number `call` on. -/
def repairReplication (call : Nat) : List DiskId → RepairOutcome × Option WrittenExtent
  | [] => (request.failed "all healthy sources failed", none)
  | source :: sources =>
    match env.readExtent call source request.extentId request.version with
    | .error _ => repairReplication (call + 1) sources
    | .ok data =>
      match request.write env call data with
      | .ok written => (request.succeeded, some written)
      | .error _ => repairReplication (call + 1) sources

/-- The loop of `repair_ec` that fills the slots. -/
def gatherFragments (total call : Nat) (fragments : List (Option Bytes)) :
    List (Nat × DiskId) → List (Option Bytes)
  | [] => fragments
  | (idx, diskId) :: rest =>
    match env.readFragment call diskId request.extentId idx with
    | .error _ => gatherFragments total (call + 1) fragments rest
    | .ok data =>
      gatherFragments total (call + 1)
        (if idx < total then fragments.set idx (some data) else fragments) rest

def repairEc (dataCount parityCount : Nat) (availableFragments : List (Nat × DiskId))
    (originalDataLen : Nat) : RepairOutcome × Option WrittenExtent :=
  let total := dataCount + parityCount
  let fragments := request.gatherFragments env total 0 (List.replicate total none)
    availableFragments
  let availableCount := (fragments.filter Option.isSome).length
  if availableCount < dataCount then
    (request.failed s!"insufficient fragments: have {availableCount}, need {dataCount}", none)
  else
    match env.reconstruct dataCount parityCount fragments originalDataLen with
    | .error e => (request.failed s!"EC reconstruction failed: {e}", none)
    | .ok reconstructed =>
      match request.write env 0 reconstructed with
      | .error e => (request.failed s!"EC repair write failed: {e}", none)
      | .ok written => (request.succeeded, some written)

/-- The repair `process_next` makes of a request: its outcome, and what the target accepted. -/
def repair : RepairOutcome × Option WrittenExtent :=
  match request.repairType with
  | .replication healthySources => request.repairReplication env 0 healthySources
  | .erasureCode dataCount parityCount availableFragments originalDataLen =>
    request.repairEc env dataCount parityCount availableFragments originalDataLen

variable {env request}

theorem write_eq_ok {call : Nat} {data : Bytes} {written : WrittenExtent}
    (h : request.write env call data = .ok written) :
    written = ⟨request.targetDiskId, request.extentId, request.version, data⟩ := by
  unfold write at h
  cases hw : env.writeExtent call request.targetDiskId request.extentId request.version data with
  | error e => simp [hw, Except.map] at h
  | ok u =>
    simp only [hw, Except.map, Except.ok.injEq] at h
    exact h.symm

/-- A repair succeeded when the target accepted an extent, the one of the request. -/
def Consistent (request : RepairRequest) (result : RepairOutcome × Option WrittenExtent) : Prop :=
  result.1.success = true → ∃ data,
    result.2 = some ⟨request.targetDiskId, request.extentId, request.version, data⟩

theorem consistent_repairReplication (call : Nat) (sources : List DiskId) :
    Consistent request (request.repairReplication env call sources) := by
  induction sources generalizing call with
  | nil => intro h; cases h
  | cons source sources ih =>
    unfold repairReplication
    cases hread : env.readExtent call source request.extentId request.version with
    | error e => exact ih (call + 1)
    | ok data =>
      cases hw : request.write env call data with
      | error e =>
        simp only [hw]
        exact ih (call + 1)
      | ok written =>
        simp only [hw]
        intro _
        exact ⟨data, congrArg some (write_eq_ok hw)⟩

/-- **A repair that reports success has written the extent to its target.** -/
theorem consistent_repair (env : RepairEnv) (request : RepairRequest) :
    Consistent request (request.repair env) := by
  unfold repair
  split
  · exact consistent_repairReplication 0 _
  · unfold repairEc
    dsimp only
    split
    · intro h; cases h
    split
    · intro h; cases h
    split
    · intro h; cases h
    case h_2 data hrec _ written hw =>
      intro _
      exact ⟨data, congrArg some (write_eq_ok hw)⟩

end RepairRequest

/-! ## 3. The worker -/

structure ProcessedRepair where
  request : RepairRequest
  env : RepairEnv

def ProcessedRepair.outcome (p : ProcessedRepair) : RepairOutcome := (p.request.repair p.env).1

def ProcessedRepair.written (p : ProcessedRepair) : Option WrittenExtent :=
  (p.request.repair p.env).2

/-- `RepairWorker`: the queue, the requests between `pop_front` and the end of their repair, and the
repairs that ran.  The source keeps the outcomes of the last (`completed`). -/
structure RepairWorker where
  queue : List RepairRequest
  taken : List RepairRequest
  processed : List ProcessedRepair

/-- What can happen to a worker. -/
inductive RepairEvent
  | enqueue (request : RepairRequest)
  /-- `process_next` takes the first request. -/
  | take
  /-- The repair of a taken request runs. -/
  | finish (j : Nat) (env : RepairEnv)

namespace RepairWorker

def new : RepairWorker := ⟨[], [], []⟩

def completed (w : RepairWorker) : List RepairOutcome := w.processed.map ProcessedRepair.outcome

/-- `enqueue`: before the first request of a higher priority number. -/
def enqueue (w : RepairWorker) (request : RepairRequest) : RepairWorker :=
  let pos := (w.queue.findIdx? fun r => r.priority > request.priority).getD w.queue.length
  { w with queue := w.queue.insertIdx pos request }

/-- `process_next`, up to its `await`. -/
def take (w : RepairWorker) : RepairWorker :=
  match w.queue with
  | [] => w
  | request :: queue => { w with queue, taken := w.taken ++ [request] }

/-- `process_next`, from its `await` on. -/
def finish (w : RepairWorker) (j : Nat) (env : RepairEnv) : RepairWorker :=
  match w.taken[j]? with
  | none => w
  | some request =>
    { w with
      taken := w.taken.eraseIdx j
      processed := w.processed ++ [⟨request, env⟩] }

def step (w : RepairWorker) : RepairEvent → RepairWorker × Unit
  | .enqueue request => (w.enqueue request, ())
  | .take => (w.take, ())
  | .finish j env => (w.finish j env, ())

/-! ## 4. Nothing is lost -/

def requests (w : RepairWorker) : List RepairRequest :=
  w.processed.map ProcessedRepair.request ++ w.taken ++ w.queue

def enqueued (events : List RepairEvent) : List RepairRequest :=
  events.filterMap fun
    | .enqueue request => some request
    | _ => none

theorem enqueued_append (events later : List RepairEvent) :
    enqueued (events ++ later) = enqueued events ++ enqueued later := List.filterMap_append

/-- **Events move requests, and never drop or copy one.** -/
theorem requests_step (w : RepairWorker) (event : RepairEvent) :
    (w.step event).1.requests.Perm (w.requests ++ enqueued [event]) := by
  cases event with
  | enqueue request =>
    have hpos : (w.queue.findIdx? fun r => r.priority > request.priority).getD w.queue.length
        ≤ w.queue.length := by
      cases h : w.queue.findIdx? fun r => r.priority > request.priority with
      | none => exact le_rfl
      | some i => exact Nat.le_of_lt (List.findIdx?_eq_some_iff_findIdx_eq.mp h).1
    have hqueue : (w.enqueue request).queue.Perm (w.queue ++ [request]) :=
      (List.perm_insertIdx request w.queue hpos).trans (List.perm_append_singleton ..).symm
    have happ : w.requests ++ enqueued [.enqueue request]
        = w.processed.map ProcessedRepair.request ++ w.taken ++ (w.queue ++ [request]) :=
      List.append_assoc ..
    rw [happ]
    exact hqueue.append_left _
  | take =>
    have hnone : enqueued [.take] = [] := rfl
    rw [hnone, List.append_nil]
    change w.take.requests.Perm w.requests
    unfold take
    split
    · exact .refl _
    case h_2 request queue hqueue => simp [requests, hqueue]
  | finish j env =>
    have hnone : enqueued [.finish j env] = [] := rfl
    rw [hnone, List.append_nil]
    change (w.finish j env).requests.Perm w.requests
    unfold finish
    split
    · exact .refl _
    case h_2 request hj =>
      obtain ⟨hlt, heq⟩ := List.getElem?_eq_some_iff.mp hj
      have htaken : (request :: w.taken.eraseIdx j).Perm w.taken := by
        rw [← heq]
        exact List.getElem_cons_eraseIdx_perm hlt
      refine List.Perm.append_right _ ?_
      rw [List.map_append, List.append_assoc]
      exact htaken.append_left _

/-- **THE ACCOUNT OF THE QUEUE.**  After any run, the requests that are queued, taken or processed
are those of the start and those that were put in since, each as often as it was put in. -/
theorem accounted_run (w : RepairWorker) (events : List RepairEvent) :
    (runState step w events).requests.Perm (w.requests ++ enqueued events) := by
  refine runState_history (P := fun seen (v : RepairWorker) =>
    v.requests.Perm (w.requests ++ enqueued seen)) (by simp [enqueued]) ?_
  intro before event later _ ih
  rw [enqueued_append, ← List.append_assoc]
  exact (requests_step _ event).trans (ih.append_right _)

end RepairWorker

end Blockyard.Storage
