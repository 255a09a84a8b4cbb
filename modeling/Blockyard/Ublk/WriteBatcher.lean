/-
# The write batcher

`blockyard-ublk`, `write_batcher.rs`: commits are queued by `submit_commit`, and whoever flushes
takes the whole queue and commits it in one call to the metadata service.  There are two kinds of
flusher, the callers of `flush()` and the background task of `spawn_flush_task`, and nothing keeps
them from flushing at the same time.

A FLUSH is what either of them does with the commits it has taken: it waits for the call, advances
the watermark, updates the cache commit by commit, and answers the submitters commit by commit
(`Stage`).  Flushes are numbered in the order in which they took their commits.  The steps of all
flushes, the submissions and the metadata service interleave freely (`Event`).

What the queue alone guarantees is in `Batcher.Inv`: the batches and the queue, in this order, ARE
the submissions, so a commit is in at most one batch; and the answers given are those of the parts
of the batches that have been answered.  `batched_commits_answered_once` is the contract that
follows.  A cache update can panic, when a block's offset overflows in a build that checks: then
the flush unwinds before it has answered anybody (`overflowing_update_drops_the_batch`).
-/
import Blockyard.Lib.Run
import Blockyard.Raft.StateMachine
import Blockyard.Ublk.ExtentCache

open Std Machine

namespace Blockyard.Ublk

open Raft (BlockRange)

/-! ## 1. Commits, flushes, and the steps of a flush -/

variable {i id : Nat} {answer result : Except Error EpochId}

structure CommitRequest where
  volumeId : VolumeId
  blockRange : BlockRange
  extentId : ExtentId
  extentVersion : Nat
  epoch : EpochId
  replicaLocations : List NodeId
  checksums : List (List UInt8)
  operationId : Option OperationId
  previousVersion : Option Nat
  deriving DecidableEq

structure CacheUpdate where
  volumeId : VolumeId
  blockStart : Nat
  blockRange : Option BlockRange
  blockSize : Nat
  mapping : CachedExtentMapping
  deriving DecidableEq

abbrev VolumeCache := BTreeMap VolumeId ExtentMappings

namespace CacheUpdate

def call (u : CacheUpdate) : CacheCall :=
  match u.blockRange with
  | some range => .setExtentMappingRange range.start range.stop u.mapping
  | none => .setExtentMapping u.blockStart u.mapping

/-- No offset of the update overflows, or the build wraps. -/
def Fits (ovf : Overflow) (u : CacheUpdate) : Prop :=
  ovf = .wrapping ∨ ∀ range, u.blockRange = some range →
    (range.stop - 1 - range.start) * u.blockSize < 2 ^ 64

end CacheUpdate

/-- A cache update, with what it has made of the cache when it panics; a volume that is not in the
cache gets no mapping. -/
def applyUpdate (ovf : Overflow) (cache : VolumeCache) (u : CacheUpdate) :
    VolumeCache × Option Unit :=
  match cache[u.volumeId]? with
  | none => (cache, some ())
  | some mappings =>
    let (mappings, done) := cacheStep ovf u.blockSize mappings u.call
    (cache.insert u.volumeId mappings, done)

theorem setBlocks_done {ovf : Overflow} {size start : Nat} {base : CachedExtentMapping}
    {blocks : List Nat} (h : ∀ b ∈ blocks, mulU64 ovf (b - start) size ≠ none)
    (mappings : ExtentMappings) : (setBlocks ovf size start base blocks mappings).2 = some () := by
  induction blocks generalizing mappings with
  | nil => rfl
  | cons b rest ih =>
    obtain ⟨offset, hoffset⟩ := Option.ne_none_iff_exists'.mp (h b (by simp))
    rw [setBlocks, hoffset]
    exact ih (fun b' hb' => h b' (by simp [hb'])) _

/-- **An update that fits does not panic.** -/
theorem applyUpdate_done {ovf : Overflow} {u : CacheUpdate} (h : u.Fits ovf) (cache : VolumeCache) :
    (applyUpdate ovf cache u).2 = some () := by
  unfold applyUpdate
  split
  · rfl
  · dsimp only
    unfold CacheUpdate.call
    cases hrange : u.blockRange with
    | none => rfl
    | some range =>
      refine setBlocks_done (fun b hb => ?_) _
      rcases h with rfl | hfit
      · unfold mulU64
        split <;> simp
      · have hb' := List.mem_range'_1.mp hb
        rw [mulU64_of_lt ovf (Nat.lt_of_le_of_lt (Nat.mul_le_mul_right _ (by omega))
          (hfit range hrange))]
        simp

/-- `PendingCommit`; the number stands for the channel its submitter waits on. -/
structure PendingCommit where
  id : Nat
  request : CommitRequest
  cacheUpdate : CacheUpdate
  deriving DecidableEq

/-- How far a flush has got.  The numbers count the commits of the batch a loop is through with. -/
inductive Stage
  /-- Waiting for `commit_extent_mappings_batch`. -/
  | calling
  | returned (result : Except Error EpochId)
  | updating (epoch : EpochId) (done : Nat)
  | answering (result : Except Error EpochId) (done : Nat)
  | done (result : Except Error EpochId)
  /-- Unwound in a cache update. -/
  | panicked (epoch : EpochId)
  /-- Dropped while it was waiting. -/
  | abandoned
  deriving DecidableEq

structure Flush where
  batch : List PendingCommit
  stage : Stage
  deriving DecidableEq

variable {f : Flush} {stage : Stage}

/-- What a submitter is sent: an error of the call as its text. -/
def answerOf : Except Error EpochId → Except Error EpochId
  | .ok epoch => .ok epoch
  | .error e => .error (.raft (toString e))

/-- What the background task is doing.  Whether it waits a little for more commits depends on
`max_batch_size`; that is a matter of time only. -/
inductive BackgroundTask
  | waiting
  | collecting
  | flushing (i : Nat)
  | stopped
  deriving DecidableEq

/-- A `WriteBatcher` and everything under way: the submissions so far, the queue, the flushes, the
batches that the metadata service has applied, and the answers given. -/
structure Batcher (κ : Type) where
  submitted : List PendingCommit
  pending : List PendingCommit
  flushes : List Flush
  applied : List Nat
  background : BackgroundTask
  watermark : EpochId
  cache : κ
  answers : List (Nat × Except Error EpochId)

inductive Event
  | submit (request : CommitRequest) (cacheUpdate : CacheUpdate)
  /-- `flush()` takes the queue. -/
  | flush
  /-- The background task wakes up and looks at the queue. -/
  | wake
  /-- The background task takes the queue. -/
  | drain
  /-- The metadata service applies a batch. -/
  | apply (i : Nat)
  /-- The call of a flush returns. -/
  | complete (i : Nat) (result : Except Error EpochId)
  /-- A flush makes its next step. -/
  | advance (i : Nat)
  /-- A flush is dropped. -/
  | abandon (i : Nat)
  deriving DecidableEq

namespace Batcher

variable {κ : Type}

/-- `WriteBatcher::new`, and a background task that waits. -/
def new (cache : κ) (watermark : EpochId) : Batcher κ where
  submitted := []
  pending := []
  flushes := []
  applied := []
  background := .waiting
  watermark := watermark
  cache := cache
  answers := []

/-- Take the queue and begin the call, unless there is nothing to commit. -/
def take (s : Batcher κ) : Batcher κ :=
  if s.pending.isEmpty then s
  else { s with pending := [], flushes := s.flushes ++ [⟨s.pending, .calling⟩] }

def setStage (s : Batcher κ) (i : Nat) (f : Flush) (stage : Stage) : Batcher κ :=
  { s with flushes := s.flushes.set i { f with stage := stage } }

/-- The background task is not busy with a flush any more. -/
def release (background : BackgroundTask) (i : Nat) (next : BackgroundTask) : BackgroundTask :=
  if background = .flushing i then next else background

variable (update : κ → CacheUpdate → κ × Option Unit)

/-- The next step of a flush after its call.  A panic drops the channels of the batch. -/
def advance (s : Batcher κ) (i : Nat) (f : Flush) : Batcher κ :=
  match f.stage with
  | .calling | .abandoned | .panicked _ | .done _ => s
  | .returned (.ok epoch) =>
    { s.setStage i f (.updating epoch 0) with watermark := max s.watermark epoch }
  | .returned (.error e) => s.setStage i f (.answering (.error e) 0)
  | .updating epoch n =>
    match f.batch[n]? with
    | some commit =>
      match update s.cache commit.cacheUpdate with
      | (cache, some ()) => { s.setStage i f (.updating epoch (n + 1)) with cache }
      | (cache, none) =>
        { s.setStage i f (.panicked epoch) with
          cache, background := release s.background i .stopped }
    | none => s.setStage i f (.answering (.ok epoch) 0)
  | .answering result n =>
    match f.batch[n]? with
    | some commit =>
      { s.setStage i f (.answering result (n + 1)) with
        answers := s.answers ++ [(commit.id, answerOf result)] }
    | none =>
      { s.setStage i f (.done result) with background := release s.background i .waiting }

/-- One step.  A call can only have succeeded when its batch has been applied. -/
def step (s : Batcher κ) : Event → Batcher κ × Unit
  | .submit request cacheUpdate =>
    let commit : PendingCommit := ⟨s.submitted.length, request, cacheUpdate⟩
    ({ s with submitted := s.submitted ++ [commit], pending := s.pending ++ [commit] }, ())
  | .flush => (s.take, ())
  | .wake =>
    if s.background = .waiting ∧ s.pending ≠ [] then ({ s with background := .collecting }, ())
    else (s, ())
  | .drain =>
    if s.background = .collecting then
      if s.pending.isEmpty then ({ s with background := .waiting }, ())
      else ({ s.take with background := .flushing s.flushes.length }, ())
    else (s, ())
  | .apply i =>
    match s.flushes[i]? with
    | some f =>
      if f.stage = .calling ∧ i ∉ s.applied then ({ s with applied := s.applied ++ [i] }, ())
      else (s, ())
    | none => (s, ())
  | .complete i result =>
    match s.flushes[i]? with
    | some f =>
      if f.stage = .calling ∧ (result.toBool → i ∈ s.applied) then
        (s.setStage i f (.returned result), ())
      else (s, ())
    | none => (s, ())
  | .advance i =>
    match s.flushes[i]? with
    | some f => (s.advance update i f, ())
    | none => (s, ())
  | .abandon i =>
    match s.flushes[i]? with
    | some f =>
      if f.stage = .calling then
        ({ s.setStage i f .abandoned with background := release s.background i .stopped }, ())
      else (s, ())
    | none => (s, ())

def after (cache : κ) (watermark : EpochId) (events : List Event) : Batcher κ :=
  runState (step update) (new cache watermark) events

end Batcher

namespace Flush

def completed (f : Flush) : Option (Except Error EpochId) :=
  match f.stage with
  | .calling | .abandoned => none
  | .returned result | .answering result _ | .done result => some result
  | .updating epoch _ | .panicked epoch => some (.ok epoch)

/-- The part of a batch that has been answered. -/
def answered (f : Flush) : List PendingCommit :=
  match f.stage with
  | .answering _ n => f.batch.take n
  | .done _ => f.batch
  | _ => []

def answers (f : Flush) : List (Nat × Except Error EpochId) :=
  match f.completed with
  | some result => f.answered.map fun commit => (commit.id, answerOf result)
  | none => []

def raised (f : Flush) : Option EpochId :=
  match f.stage with
  | .updating epoch _ | .answering (.ok epoch) _ | .done (.ok epoch) | .panicked epoch => some epoch
  | _ => none

/-- The steps a flush has left after its call. -/
def remaining (f : Flush) : Nat :=
  match f.stage with
  | .calling | .abandoned | .panicked _ | .done _ => 0
  | .returned _ => 2 * f.batch.length + 3
  | .updating _ n => f.batch.length - n + f.batch.length + 2
  | .answering _ n => f.batch.length - n + 1

end Flush

/-! ## 2. What every step keeps -/

theorem exists_split_of_getElem? {α : Type} {l : List α} {a : α} (h : l[i]? = some a) :
    ∃ pre post, l = pre ++ a :: post ∧ ∀ b, l.set i b = pre ++ b :: post := by
  obtain ⟨hi, rfl⟩ := List.getElem?_eq_some_iff.mp h
  refine ⟨l.take i, l.drop (i + 1), ?_, fun b => ?_⟩
  · rw [← List.drop_eq_getElem_cons hi, List.take_append_drop]
  · rw [List.set_eq_take_append_cons_drop, if_pos hi]

namespace Batcher

variable {κ : Type} {update : κ → CacheUpdate → κ × Option Unit} {s t : Batcher κ}

/-- No cache update of a batch panics. -/
def Calm (update : κ → CacheUpdate → κ × Option Unit) (batch : List PendingCommit) : Prop :=
  ∀ commit ∈ batch, ∀ cache, (update cache commit.cacheUpdate).2 = some ()

/-- **The invariant of the queue.** -/
structure Inv (update : κ → CacheUpdate → κ × Option Unit) (s : Batcher κ) : Prop where
  /-- The batches, one after another, and then the queue: the submissions in their order. -/
  order : (s.flushes.map Flush.batch).flatten ++ s.pending = s.submitted
  ids : s.submitted.map PendingCommit.id = List.range s.submitted.length
  answers : s.answers.Perm (s.flushes.flatMap Flush.answers)
  raised : ∀ f ∈ s.flushes, ∀ epoch, f.raised = some epoch → epoch ≤ s.watermark
  panics : ∀ f ∈ s.flushes, ∀ epoch, f.stage = .panicked epoch → ¬ Calm update f.batch

theorem inv_new (update : κ → CacheUpdate → κ × Option Unit) (cache : κ) (watermark : EpochId) :
    (new cache watermark).Inv update := by
  constructor <;> simp [new]

theorem batches_setStage (h : s.flushes[i]? = some f) (stage : Stage) :
    (s.setStage i f stage).flushes.map Flush.batch = s.flushes.map Flush.batch := by
  obtain ⟨pre, post, hsplit, hset⟩ := exists_split_of_getElem? h
  rw [setStage, hset, hsplit]
  simp

theorem mem_setStage {g : Flush} (hg : g ∈ (s.setStage i f stage).flushes) :
    g = { f with stage := stage } ∨ g ∈ s.flushes := by
  rcases List.mem_or_eq_of_mem_set hg with h | h
  · exact .inr h
  · exact .inl h

theorem answers_setStage (h : s.flushes[i]? = some f) {new : List (Nat × Except Error EpochId)}
    (hnew : ({ f with stage := stage } : Flush).answers = f.answers ++ new) :
    (s.flushes.flatMap Flush.answers ++ new).Perm
      ((s.setStage i f stage).flushes.flatMap Flush.answers) := by
  obtain ⟨pre, post, hsplit, hset⟩ := exists_split_of_getElem? h
  rw [setStage, hset, hsplit]
  simp only [List.flatMap_append, List.flatMap_cons, hnew, List.append_assoc]
  exact ((List.perm_append_comm.append_left _).append_left _)

/-- **A flush that gets on keeps the invariant**, when its answers are the new ones and the
watermark is high enough. -/
theorem Inv.setStage (h : s.Inv update) (hf : s.flushes[i]? = some f)
    (hflushes : t.flushes = (s.setStage i f stage).flushes) (hpending : t.pending = s.pending)
    (hsubmitted : t.submitted = s.submitted) (hwatermark : s.watermark ≤ t.watermark)
    {new : List (Nat × Except Error EpochId)} (hanswers : t.answers = s.answers ++ new)
    (hnew : ({ f with stage := stage } : Flush).answers = f.answers ++ new)
    (hraised : ∀ epoch, ({ f with stage := stage } : Flush).raised = some epoch →
      epoch ≤ t.watermark) (hpanics : ∀ epoch, stage = .panicked epoch → ¬ Calm update f.batch) :
    t.Inv update where
  order := by rw [hflushes, batches_setStage hf, hpending, hsubmitted, h.order]
  ids := by rw [hsubmitted, h.ids]
  answers := by
    rw [hanswers, hflushes]
    exact (h.answers.append_right new).trans (answers_setStage hf hnew)
  raised := by
    intro g hg epoch hepoch
    rw [hflushes] at hg
    rcases mem_setStage hg with rfl | hold
    · exact hraised epoch hepoch
    · exact Nat.le_trans (h.raised g hold epoch hepoch) hwatermark
  panics := by
    intro g hg epoch hstage
    rw [hflushes] at hg
    rcases mem_setStage hg with rfl | hold
    · exact hpanics epoch hstage
    · exact h.panics g hold epoch hstage

/-- A flush that gets on without an answer or a new watermark. -/
theorem Inv.getsOn (h : s.Inv update) (hf : s.flushes[i]? = some f)
    (hflushes : t.flushes = (s.setStage i f stage).flushes) (hpending : t.pending = s.pending)
    (hsubmitted : t.submitted = s.submitted) (hwatermark : t.watermark = s.watermark)
    (hanswers : t.answers = s.answers)
    (hsame : ({ f with stage := stage } : Flush).answers = f.answers)
    (hraised : ∀ epoch, ({ f with stage := stage } : Flush).raised = some epoch →
      f.raised = some epoch) (hpanics : ∀ epoch, stage = .panicked epoch → ¬ Calm update f.batch) :
    t.Inv update := by
  refine h.setStage hf hflushes hpending hsubmitted (Nat.le_of_eq hwatermark.symm)
    (hanswers.trans (List.append_nil _).symm) (hsame.trans (List.append_nil _).symm) ?_ hpanics
  intro epoch hepoch
  rw [hwatermark]
  exact h.raised f (List.mem_of_getElem? hf) epoch (hraised epoch hepoch)

theorem Inv.take (h : s.Inv update) : s.take.Inv update := by
  unfold Batcher.take
  split
  · exact h
  · refine ⟨?_, h.ids, ?_, ?_, ?_⟩
    · simp [← h.order]
    · simpa [List.flatMap_append, Flush.answers, Flush.completed] using h.answers
    · exact List.forall_mem_append.mpr ⟨h.raised, List.forall_mem_singleton.mpr nofun⟩
    · exact List.forall_mem_append.mpr ⟨h.panics, List.forall_mem_singleton.mpr nofun⟩

theorem answers_answering {n : Nat} {commit : PendingCommit}
    (hstage : f.stage = .answering result n) (hcommit : f.batch[n]? = some commit) :
    ({ f with stage := .answering result (n + 1) } : Flush).answers
      = f.answers ++ [(commit.id, answerOf result)] := by
  simp [Flush.answers, Flush.completed, Flush.answered, hstage, List.take_add_one, hcommit]

theorem Inv.advance (h : s.Inv update) (hf : s.flushes[i]? = some f) :
    (s.advance update i f).Inv update := by
  have hmem : f ∈ s.flushes := List.mem_of_getElem? hf
  unfold Batcher.advance
  split
  case h_1 | h_2 | h_3 | h_4 => exact h
  case h_5 epoch hstage =>
    refine h.setStage hf rfl rfl rfl (Nat.le_max_left _ _) (List.append_nil _).symm ?_ ?_ nofun
    · simp [Flush.answers, Flush.completed, Flush.answered, hstage]
    · intro epoch' hepoch
      cases hepoch
      exact Nat.le_max_right _ _
  case h_6 e hstage =>
    refine h.getsOn hf rfl rfl rfl rfl rfl ?_ ?_ nofun
    · simp [Flush.answers, Flush.completed, Flush.answered, hstage]
    · simp [Flush.raised]
  case h_7 epoch n hstage =>
    split
    case h_1 commit hcommit =>
      split
      case h_1 =>
        refine h.getsOn hf rfl rfl rfl rfl rfl ?_ ?_ nofun
        · simp [Flush.answers, Flush.completed, Flush.answered, hstage]
        · simp [Flush.raised, hstage]
      case h_2 cache hnone =>
        refine h.getsOn hf rfl rfl rfl rfl rfl ?_ ?_ fun _ _ hcalm => ?_
        · simp [Flush.answers, Flush.completed, Flush.answered, hstage]
        · simp [Flush.raised, hstage]
        · have hdone := hcalm commit (List.mem_of_getElem? hcommit) s.cache
          rw [hnone] at hdone
          cases hdone
    case h_2 =>
      refine h.getsOn hf rfl rfl rfl rfl rfl ?_ ?_ nofun
      · simp [Flush.answers, Flush.completed, Flush.answered, hstage]
      · simp [Flush.raised, hstage]
  case h_8 result n hstage =>
    split
    case h_1 commit hcommit =>
      refine h.setStage hf rfl rfl rfl (Nat.le_refl _) rfl (answers_answering hstage hcommit) ?_
        nofun
      intro epoch hepoch
      refine h.raised f hmem epoch ?_
      cases result with
      | error e => cases hepoch
      | ok epoch' => simpa [Flush.raised, hstage] using hepoch
    case h_2 hend =>
      refine h.getsOn hf rfl rfl rfl rfl rfl ?_ ?_ nofun
      · have hall : f.batch.take n = f.batch :=
          List.take_of_length_le (List.getElem?_eq_none_iff.mp hend)
        simp [Flush.answers, Flush.completed, Flush.answered, hstage, hall]
      · cases result <;> simp [Flush.raised, hstage]

/-- The invariant does not look at the background task or at what has been applied. -/
theorem Inv.congr (h : s.Inv update) (hsubmitted : t.submitted = s.submitted)
    (hpending : t.pending = s.pending) (hflushes : t.flushes = s.flushes)
    (hwatermark : t.watermark = s.watermark) (hanswers : t.answers = s.answers) :
    t.Inv update where
  order := by rw [hflushes, hpending, hsubmitted, h.order]
  ids := by rw [hsubmitted, h.ids]
  answers := by rw [hanswers, hflushes]; exact h.answers
  raised := by rw [hflushes, hwatermark]; exact h.raised
  panics := by rw [hflushes]; exact h.panics

/-- **Every step keeps the invariant.** -/
theorem Inv.step (h : s.Inv update) (event : Event) : (step update s event).1.Inv update := by
  cases event with
  | submit request cacheUpdate =>
    refine ⟨?_, ?_, h.answers, h.raised, h.panics⟩
    · simp [Batcher.step, ← h.order]
    · simp [Batcher.step, h.ids, List.range_succ]
  | flush => exact h.take
  | wake =>
    rw [Batcher.step]
    split
    · exact h.congr rfl rfl rfl rfl rfl
    · exact h
  | drain =>
    rw [Batcher.step]
    split
    · split
      · exact h.congr rfl rfl rfl rfl rfl
      · exact h.take.congr rfl rfl rfl rfl rfl
    · exact h
  | apply i =>
    rw [Batcher.step]
    split
    · split
      · exact h.congr rfl rfl rfl rfl rfl
      · exact h
    · exact h
  | complete i result =>
    rw [Batcher.step]
    split
    case h_1 f hf =>
      split
      case isTrue hstage =>
        refine h.getsOn hf rfl rfl rfl rfl rfl ?_ ?_ nofun
        · simp [Flush.answers, Flush.completed, Flush.answered, hstage.1]
        · simp [Flush.raised]
      case isFalse => exact h
    · exact h
  | advance i =>
    rw [Batcher.step]
    split
    case h_1 f hf => exact h.advance hf
    · exact h
  | abandon i =>
    rw [Batcher.step]
    split
    case h_1 f hf =>
      split
      case isTrue hstage =>
        refine h.getsOn hf rfl rfl rfl rfl rfl ?_ ?_ nofun
        · simp [Flush.answers, Flush.completed, hstage]
        · simp [Flush.raised]
      case isFalse => exact h
    · exact h

/-- **The invariant holds after every interleaving.** -/
theorem inv_after (update : κ → CacheUpdate → κ × Option Unit) (cache : κ) (watermark : EpochId)
    (events : List Event) : (after update cache watermark events).Inv update :=
  runState_invariant (inv_new update cache watermark) (fun _ event h => h.step event) events

/-! ## 3. What a submitter gets -/

/-- The answers that a submitter has been sent. -/
def answersTo (s : Batcher κ) (id : Nat) : List (Except Error EpochId) :=
  (s.answers.filter fun answer => answer.1 = id).map Prod.snd

/-- In a list without a key twice, a key has its one value. -/
theorem filter_of_nodup_keys {α : Type} {l : List (Nat × α)} (h : (l.map Prod.fst).Nodup)
    {k : Nat} {v : α} (hmem : (k, v) ∈ l) : l.filter (fun p => p.1 = k) = [(k, v)] := by
  obtain ⟨pre, post, rfl⟩ := List.append_of_mem hmem
  have hnot : ∀ p ∈ pre ++ post, p.1 ≠ k := by
    rintro p hp rfl
    rw [List.map_append, List.map_cons] at h
    have hkey : p.1 ∈ pre.map Prod.fst ++ post.map Prod.fst := by
      rw [← List.map_append]
      exact List.mem_map_of_mem hp
    exact (List.nodup_cons.mp (List.nodup_middle.mp h)).1 hkey
  have hpre : pre.filter (fun p => p.1 = k) = [] :=
    List.filter_eq_nil_iff.mpr fun p hp => by simp [hnot p (List.mem_append_left _ hp)]
  have hpost : post.filter (fun p => p.1 = k) = [] :=
    List.filter_eq_nil_iff.mpr fun p hp => by simp [hnot p (List.mem_append_right _ hp)]
  simp [hpre, hpost]

theorem Inv.nodup_submitted (h : s.Inv update) : (s.submitted.map PendingCommit.id).Nodup := by
  rw [h.ids]
  exact List.nodup_range

theorem answered_sublist (f : Flush) : f.answered.Sublist f.batch := by
  unfold Flush.answered
  split
  · exact List.take_sublist _ _
  · exact List.Sublist.refl _
  · exact List.nil_sublist _

theorem keys_answers_sublist (f : Flush) :
    (f.answers.map Prod.fst).Sublist (f.batch.map PendingCommit.id) := by
  unfold Flush.answers
  split
  · rw [List.map_map]
    exact (answered_sublist f).map PendingCommit.id
  · exact List.nil_sublist _

theorem keys_flatMap_answers_sublist (flushes : List Flush) :
    ((flushes.flatMap Flush.answers).map Prod.fst).Sublist
      ((flushes.map Flush.batch).flatten.map PendingCommit.id) := by
  induction flushes with
  | nil => exact List.nil_sublist _
  | cons f flushes ih =>
    simp only [List.flatMap_cons, List.map_append, List.map_cons, List.flatten_cons]
    exact (keys_answers_sublist f).append ih

/-- **Nobody is answered twice.** -/
theorem Inv.nodup_answers (h : s.Inv update) : (s.answers.map Prod.fst).Nodup := by
  have hbatches : ((s.flushes.map Flush.batch).flatten.map PendingCommit.id).Nodup := by
    have hall := h.nodup_submitted
    rw [← h.order, List.map_append] at hall
    exact hall.sublist (List.sublist_append_left _ _)
  exact (h.answers.map Prod.fst).nodup_iff.mpr
    (hbatches.sublist (keys_flatMap_answers_sublist s.flushes))

theorem Inv.mem_answers_iff (h : s.Inv update) :
    (id, answer) ∈ s.answers ↔ ∃ f ∈ s.flushes, (id, answer) ∈ f.answers := by
  rw [h.answers.mem_iff, List.mem_flatMap]

theorem mem_answersTo :
    answer ∈ s.answersTo id ↔ (id, answer) ∈ s.answers := by
  simp [answersTo]

theorem Inv.answersTo_of_mem (h : s.Inv update) (hmem : (id, answer) ∈ s.answers) :
    s.answersTo id = [answer] := by
  rw [answersTo, filter_of_nodup_keys h.nodup_answers hmem]
  rfl

theorem Inv.flush_unique (h : s.Inv update) {g : Flush} (hf : f ∈ s.flushes) (hg : g ∈ s.flushes)
    {commit commit' : PendingCommit} (hcommit : commit ∈ f.batch) (hcommit' : commit' ∈ g.batch)
    (hid : commit.id = commit'.id) : f = g := by
  have hnodup : (s.flushes.map fun f => f.batch.map PendingCommit.id).flatten.Nodup := by
    have hall := h.nodup_submitted
    rw [← h.order, List.map_append, List.map_flatten, List.map_map] at hall
    exact hall.sublist (List.sublist_append_left _ _)
  have hpair := (List.nodup_flatten.mp hnodup).2
  rw [List.pairwise_map] at hpair
  have : Std.Symm fun f g : Flush =>
      (f.batch.map PendingCommit.id).Disjoint (g.batch.map PendingCommit.id) :=
    ⟨fun _ _ hdisjoint => hdisjoint.symm⟩
  by_contra hne
  refine hpair.forall hf hg hne (List.mem_map_of_mem hcommit) ?_
  rw [hid]
  exact List.mem_map_of_mem hcommit'

/-- A flush has answered commits of its own batch only, and with the result of its call. -/
theorem mem_flush_answers (h : (id, answer) ∈ f.answers) :
    ∃ result, f.completed = some result ∧ answer = answerOf result ∧
      (∀ epoch, result = .ok epoch → f.raised = some epoch) ∧
      ∃ commit ∈ f.batch, commit.id = id := by
  unfold Flush.answers at h
  cases hcompleted : f.completed with
  | none =>
    rw [hcompleted] at h
    cases h
  | some result =>
    rw [hcompleted] at h
    obtain ⟨commit, hcommit, heq⟩ := List.mem_map.mp h
    cases heq
    refine ⟨result, rfl, rfl, ?_, commit, (answered_sublist f).subset hcommit, rfl⟩
    rintro epoch rfl
    -- Only a flush that has got past the watermark has answered anybody.
    unfold Flush.completed at hcompleted
    unfold Flush.answered at hcommit
    unfold Flush.raised
    split at hcommit
    case h_1 hstage | h_2 hstage =>
      rw [hstage] at hcompleted ⊢
      cases hcompleted
      rfl
    case h_3 => cases hcommit

/-! ## 4. A flush gets to its end -/

/-- **A flush whose call has returned gets on**: one step fewer is left, unless it is done. -/
theorem advance_remaining (hf : s.flushes[i]? = some f) (hcompleted : f.completed = some result)
    (hcalm : result.toBool → Calm update f.batch) (hpanic : ∀ epoch, f.stage ≠ .panicked epoch)
    (hnot : f.stage ≠ .done result) :
    ∃ g, (s.advance update i f).flushes[i]? = some g ∧ g.batch = f.batch ∧
      g.completed = some result ∧ (∀ epoch, g.stage ≠ .panicked epoch) ∧
      g.remaining < f.remaining := by
  have hset : ∀ stage, (s.setStage i f stage).flushes[i]? = some { f with stage := stage } := by
    intro stage
    obtain ⟨hi, -⟩ := List.getElem?_eq_some_iff.mp hf
    simp [setStage, hi]
  obtain ⟨batch, stage⟩ := f
  cases stage with
  | calling => cases hcompleted
  | abandoned => cases hcompleted
  | panicked epoch => exact absurd rfl (hpanic epoch)
  | done r =>
    cases hcompleted
    exact absurd rfl hnot
  | returned r =>
    cases hcompleted
    cases result with
    | ok epoch =>
      refine ⟨_, hset (.updating epoch 0), rfl, rfl, nofun, ?_⟩
      simp [Flush.remaining]
      omega
    | error e =>
      refine ⟨_, hset (.answering (.error e) 0), rfl, rfl, nofun, ?_⟩
      simp [Flush.remaining]
      omega
  | updating epoch n =>
    cases hcompleted
    cases hcommit : batch[n]? with
    | some commit =>
      have hn : n < batch.length := (List.getElem?_eq_some_iff.mp hcommit).1
      have hdone := hcalm rfl commit (List.mem_of_getElem? hcommit) s.cache
      refine ⟨⟨batch, .updating epoch (n + 1)⟩, ?_, rfl, rfl, nofun, ?_⟩
      · simp only [Batcher.advance, hcommit]
        generalize update s.cache commit.cacheUpdate = made at hdone ⊢
        obtain ⟨cache, outcome⟩ := made
        cases hdone
        exact hset _
      · simp only [Flush.remaining]
        omega
    | none =>
      refine ⟨⟨batch, .answering (.ok epoch) 0⟩, ?_, rfl, rfl, nofun, ?_⟩
      · simp [Batcher.advance, hcommit, hset]
      · simp only [Flush.remaining]
        omega
  | answering r n =>
    cases hcompleted
    cases hcommit : batch[n]? with
    | some commit =>
      have hn : n < batch.length := (List.getElem?_eq_some_iff.mp hcommit).1
      refine ⟨⟨batch, .answering result (n + 1)⟩, ?_, rfl, rfl, nofun, ?_⟩
      · simp [Batcher.advance, hcommit, hset]
      · simp only [Flush.remaining]
        omega
    | none =>
      refine ⟨⟨batch, .done result⟩, ?_, rfl, rfl, nofun, ?_⟩
      · simp [Batcher.advance, hcommit, hset]
      · simp only [Flush.remaining]
        omega

/-- **A flush whose call has returned is done after enough steps of its own.** -/
theorem exists_done (s : Batcher κ) (f : Flush) (hf : s.flushes[i]? = some f)
    (hcompleted : f.completed = some result) (hcalm : result.toBool → Calm update f.batch)
    (hpanic : ∀ epoch, f.stage ≠ .panicked epoch) :
    ∃ n, (runState (step update) s (List.replicate n (.advance i))).flushes[i]?
      = some ⟨f.batch, .done result⟩ := by
  induction hremaining : f.remaining using Nat.strongRecOn generalizing s f with
  | ind remaining ih =>
    by_cases hdone : f.stage = .done result
    · refine ⟨0, ?_⟩
      rw [← hdone]
      exact hf
    · obtain ⟨g, hg, hbatch, hg', hpanic', hlt⟩ :=
        advance_remaining hf hcompleted hcalm hpanic hdone
      obtain ⟨n, hn⟩ := ih g.remaining (hremaining ▸ hlt) _ g hg hg' (hbatch ▸ hcalm) hpanic' rfl
      refine ⟨n + 1, ?_⟩
      rw [List.replicate_succ, runState_cons, step, hf, ← hbatch]
      exact hn

/-! ## 5. The contract -/

/-- **What the batcher promises its submitters.** -/
structure AnsweredOnce (ovf : Overflow) (s : Batcher VolumeCache) : Prop where
  /-- The batches, in the order they were taken, and the queue are the submissions in order. -/
  order : (s.flushes.map Flush.batch).flatten ++ s.pending = s.submitted
  /-- No submission is there twice, so none is in two batches. -/
  distinct : (s.submitted.map PendingCommit.id).Nodup
  /-- A flush that is done has answered each commit of its batch once, with the result of its
  call. -/
  answered : ∀ f ∈ s.flushes, ∀ result, f.stage = .done result → ∀ commit ∈ f.batch,
    s.answersTo commit.id = [answerOf result]
  /-- No answer is given otherwise, and none before the watermark has been advanced. -/
  only : ∀ f ∈ s.flushes, ∀ commit ∈ f.batch, ∀ answer ∈ s.answersTo commit.id,
    s.answersTo commit.id = [answer] ∧ ∃ result, f.completed = some result ∧
      answer = answerOf result ∧ ∀ epoch, result = .ok epoch → epoch ≤ s.watermark
  /-- A flush whose call has returned gets done by its own steps, when its cache updates fit. -/
  finishes : ∀ (i : Nat) f result, s.flushes[i]? = some f → f.completed = some result →
    (result.toBool → ∀ commit ∈ f.batch, commit.cacheUpdate.Fits ovf) →
    ∃ n, (runState (step (applyUpdate ovf)) s (List.replicate n (.advance i))).flushes[i]?
      = some ⟨f.batch, .done result⟩
  /-- A flush that has panicked had one that does not, and has answered nobody. -/
  panicked : ∀ f ∈ s.flushes, ∀ epoch, f.stage = .panicked epoch →
    (∃ commit ∈ f.batch, ¬ commit.cacheUpdate.Fits ovf) ∧
      ∀ commit ∈ f.batch, s.answersTo commit.id = []

/-- **Batched commits are answered exactly once**, in every interleaving. -/
theorem batched_commits_answered_once (ovf : Overflow) (cache : VolumeCache) (watermark : EpochId)
    (events : List Event) : AnsweredOnce ovf (after (applyUpdate ovf) cache watermark events) := by
  have h := inv_after (applyUpdate ovf) cache watermark events
  generalize after (applyUpdate ovf) cache watermark events = s at h
  -- nobody is answered but by the flush that has taken the commit
  have honly : ∀ f ∈ s.flushes, ∀ commit ∈ f.batch, ∀ answer ∈ s.answersTo commit.id,
      (commit.id, answer) ∈ f.answers := by
    intro f hf commit hcommit answer hanswer
    obtain ⟨g, hg, hgiven⟩ := h.mem_answers_iff.mp (mem_answersTo.mp hanswer)
    obtain ⟨-, -, -, -, commit', hcommit', hid⟩ := mem_flush_answers hgiven
    rwa [h.flush_unique hf hg hcommit hcommit' hid.symm]
  have hcalm : ∀ f : Flush, (∀ commit ∈ f.batch, commit.cacheUpdate.Fits ovf) →
      Calm (applyUpdate ovf) f.batch := fun f hfits commit hcommit cache =>
    applyUpdate_done (hfits commit hcommit) cache
  refine ⟨h.order, h.nodup_submitted, ?_, ?_, ?_, ?_⟩
  · intro f hf result hdone commit hcommit
    refine h.answersTo_of_mem (h.mem_answers_iff.mpr ⟨f, hf, ?_⟩)
    simp only [Flush.answers, Flush.completed, Flush.answered, hdone]
    exact List.mem_map_of_mem hcommit
  · intro f hf commit hcommit answer hanswer
    obtain ⟨result, hcompleted, hresult, hraised, -⟩ :=
      mem_flush_answers (honly f hf commit hcommit answer hanswer)
    refine ⟨h.answersTo_of_mem (mem_answersTo.mp hanswer), result, hcompleted, hresult,
      fun epoch hepoch => ?_⟩
    exact h.raised f hf epoch (hraised epoch hepoch)
  · intro i f result hf hcompleted hfits
    refine exists_done s f hf hcompleted (fun hok => hcalm f (hfits hok)) fun epoch hpanic => ?_
    have hresult : result = .ok epoch := by
      simpa [Flush.completed, hpanic] using hcompleted.symm
    exact h.panics f (List.mem_of_getElem? hf) epoch hpanic (hcalm f (hfits (by rw [hresult]; rfl)))
  · intro f hf epoch hpanic
    constructor
    · by_contra hall
      push Not at hall
      exact h.panics f hf epoch hpanic (hcalm f hall)
    · intro commit hcommit
      refine List.eq_nil_iff_forall_not_mem.mpr fun answer hanswer => ?_
      have hgiven := honly f hf commit hcommit answer hanswer
      simp [Flush.answers, Flush.completed, Flush.answered, hpanic] at hgiven

/-- A commit of three blocks of volume 7 in blocks of `2^63` bytes. -/
def hugeCommit : PendingCommit where
  id := 0
  request := ⟨⟨7#128⟩, ⟨0, 3⟩, ⟨1#128⟩, 1, 1, [], [], none, none⟩
  cacheUpdate := ⟨⟨7#128⟩, 0, some ⟨0, 3⟩, 2 ^ 63, ⟨⟨1#128⟩, 1, [], [], 4096, 0⟩⟩

/-- Its batch is committed, and the flush gets on. -/
def hugeRun : List Event :=
  [.submit hugeCommit.request hugeCommit.cacheUpdate, .flush, .apply 0, .complete 0 (.ok 1),
    .advance 0, .advance 0]

/-- **An update that overflows drops the batch.**  The call has completed, the offset of the third
block overflows in a build that checks, and the submitter is never answered. -/
theorem overflowing_update_drops_the_batch :
    (after (applyUpdate .checked) ((∅ : VolumeCache).insert ⟨7#128⟩ ∅) 0 hugeRun).flushes
        = [⟨[hugeCommit], .panicked 1⟩] ∧
      (after (applyUpdate .checked) ((∅ : VolumeCache).insert ⟨7#128⟩ ∅) 0
        (hugeRun ++ [.advance 0])).answersTo 0 = [] := by
  decide

end Batcher

end Blockyard.Ublk
