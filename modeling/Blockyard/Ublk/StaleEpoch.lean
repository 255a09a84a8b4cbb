/-
# Concurrent stale-epoch refreshes

`blockyard-ublk`, `stale_epoch.rs`: several writes may be told at once that their epoch is stale,
and each calls `handle_stale_epoch`.  The calls meet at an async mutex.  The code of a call runs
without interruption between its two await points, the lock and the refresh, so an interleaving is
a list of events: a call is polled for the first time, the call that was handed the lock is
resumed, the refresh of the call that holds the lock comes back.

The lock is first come, first served and is HANDED to the next in line when it is released, so a
late caller never overtakes.  From that everything follows by one invariant (`Served`):

* the calls that have returned, the one that holds the lock and those that wait are, in this
  order, the calls as they came in;
* the results are errors first, one per failed refresh, and from the first refresh that succeeds
  on they are epochs above the stale one, whoever asks.

`handleStaleEpoch_deduplicated` reads the guarantees off it: one refresh when none fails, an error
for the caller whose own refresh failed and for nobody else, the next in line refreshing after it,
writes paused only while a refresh is under way, and every call returning.  A single call is the
`Client.handleStaleEpoch` of the write pipelines (`solo_eq_handleStaleEpoch`).
-/
import Blockyard.Ublk.WritePipeline
import Blockyard.Lib.Run

open Std Machine

namespace Blockyard.Ublk

/-! ## 1. The handler and its callers -/

/-- Where the call that holds the lock stands. -/
inductive LockPhase
  /-- It was handed the lock and has not been resumed yet. -/
  | granted
  /-- It awaits `refresh_metadata`. -/
  | refreshing
  deriving DecidableEq, Repr

/-- `StaleEpochHandler` with the cache it refreshes.  Calls are numbered by their callers. -/
structure StaleEpochHandler where
  cache : MetadataCache
  paused : Bool
  refreshCount : Nat
  /-- The holder of `refresh_lock`. -/
  lock : Option (Nat × LockPhase)
  /-- Those who wait for the lock, first come first. -/
  waiting : List Nat
  /-- Observed: who has asked the metadata service for a refresh. -/
  performed : List Nat
  /-- Observed: what the calls have returned. -/
  returned : List (Nat × Except Error EpochId)

/-- What can happen next. -/
inductive RefreshEvent
  /-- A call of `handle_stale_epoch` is polled for the first time. -/
  | call (caller : Nat)
  /-- The call that was handed the lock is polled. -/
  | resume
  /-- The refresh comes back, with the cache it has left or with an error. -/
  | refreshed (result : Except Error MetadataCache)

namespace StaleEpochHandler

/-- A call returns: the guard is dropped and the lock handed to the next in line. -/
def release (s : StaleEpochHandler) (caller : Nat) (result : Except Error EpochId) :
    StaleEpochHandler :=
  { s with
    paused := false
    lock := s.waiting.head?.map fun next => (next, .granted)
    waiting := s.waiting.tail
    returned := s.returned ++ [(caller, result)] }

/-- `handle_stale_epoch` from the lock to the refresh, or to the return. -/
def proceed (stale : EpochId) (s : StaleEpochHandler) (caller : Nat) : StaleEpochHandler :=
  if s.cache.epoch > stale then s.release caller (.ok s.cache.epoch)
  else
    { s with
      paused := true
      lock := some (caller, .refreshing)
      performed := s.performed ++ [caller] }

/-- `handle_stale_epoch` after the refresh; the counter is a `u64`. -/
def finish (s : StaleEpochHandler) (caller : Nat) (result : Except Error MetadataCache) :
    StaleEpochHandler :=
  let s := { s with refreshCount := (s.refreshCount + 1) % 2 ^ 64 }
  match result with
  | .ok cache => release { s with cache } caller (.ok cache.epoch)
  | .error e => s.release caller (.error e)

/-- One event; those that cannot happen do nothing. -/
def step (stale : EpochId) (s : StaleEpochHandler) : RefreshEvent → StaleEpochHandler × Unit
  | .call caller =>
    match s.lock with
    | none => (s.proceed stale caller, ())
    | some _ => ({ s with waiting := s.waiting ++ [caller] }, ())
  | .resume =>
    match s.lock with
    | some (caller, .granted) => (s.proceed stale caller, ())
    | _ => (s, ())
  | .refreshed result =>
    match s.lock with
    | some (caller, .refreshing) => (s.finish caller result, ())
    | _ => (s, ())

end StaleEpochHandler

def callsOf (events : List RefreshEvent) : List Nat :=
  events.filterMap fun
    | .call caller => some caller
    | _ => none

/-! ## 2. What a run keeps -/

namespace StaleEpochHandler

variable {stale : EpochId} {s : StaleEpochHandler} {calls : List Nat}

def refreshing (s : StaleEpochHandler) : List Nat :=
  match s.lock with
  | some (caller, .refreshing) => [caller]
  | _ => []

/-- The results so far: `failed` were returned before a refresh succeeded, `served` afterwards.
`count` is the counter the run began with. -/
structure Results (stale : EpochId) (count : Nat) (s : StaleEpochHandler)
    (failed served : List (Nat × Except Error EpochId)) : Prop where
  returned : s.returned = failed ++ served
  errors : ∀ r ∈ failed, ∃ e, r.2 = .error e
  epochs : ∀ r ∈ served, ∃ epoch, r.2 = .ok epoch ∧ stale < epoch
  counted : s.refreshCount % 2 ^ 64 = (count + failed.length + min served.length 1) % 2 ^ 64
  /-- Until a refresh succeeds, those who asked for one are those who failed, and the holder. -/
  before : s.cache.epoch ≤ stale → served = [] ∧ s.performed = failed.map Prod.fst ++ s.refreshing
  /-- Afterwards one more has, the first who was served. -/
  after : stale < s.cache.epoch → s.refreshing = [] ∧ served ≠ [] ∧
    s.performed = failed.map Prod.fst ++ (served.map Prod.fst).take 1

/-- **The invariant.**  `calls` are the calls that have come in. -/
structure Served (stale : EpochId) (count : Nat) (calls : List Nat) (s : StaleEpochHandler)
    (failed served : List (Nat × Except Error EpochId)) : Prop
    extends Results stale count s failed served where
  inOrder : calls = s.returned.map Prod.fst ++ (s.lock.map Prod.fst).toList ++ s.waiting
  idle : s.lock = none → s.waiting = []
  paused : s.paused = true ↔ s.refreshing ≠ []
  /-- A lock is handed over by a call that has returned. -/
  handed : ∀ i, s.lock = some (i, .granted) → s.returned ≠ []

variable {stale : EpochId} {count caller : Nat} {calls : List Nat} {s : StaleEpochHandler}
  {failed served : List (Nat × Except Error EpochId)}

@[simp] theorem refreshing_release (s : StaleEpochHandler) (caller : Nat)
    (result : Except Error EpochId) : (s.release caller result).refreshing = [] := by
  unfold refreshing release
  cases s.waiting <;> rfl

/-- Releasing the lock moves the holder to those who have returned, and the next in line up. -/
theorem served_release {result : Except Error EpochId}
    (hresults : Results stale count (s.release caller result) failed served)
    (hcalls : calls = s.returned.map Prod.fst ++ caller :: s.waiting) :
    Served stale count calls (s.release caller result) failed served where
  toResults := hresults
  inOrder := by
    rw [hcalls]
    cases hw : s.waiting <;> simp [release, hw]
  idle := by cases hw : s.waiting <;> simp [release, hw]
  paused := by
    rw [refreshing_release]
    simp [release]
  handed := by simp [release]

/-- **The lock is taken.**  A newer cache answers at once; otherwise a refresh is under way. -/
theorem Results.proceed (h : Results stale count s failed served) (hnone : s.refreshing = [])
    (hcalls : calls = s.returned.map Prod.fst ++ caller :: s.waiting) :
    ∃ failed served, Served stale count calls (s.proceed stale caller) failed served := by
  unfold StaleEpochHandler.proceed
  split
  · next hlate =>
    obtain ⟨-, hsome, hperf⟩ := h.after hlate
    have hone : served.length ≠ 0 := by simpa using hsome
    refine ⟨failed, served ++ [(caller, .ok s.cache.epoch)], served_release
      ⟨by simp [release, h.returned], h.errors, ?_, ?_, ?_, ?_⟩ hcalls⟩
    · intro r hr
      rcases List.mem_append.mp hr with hr | hr
      · exact h.epochs r hr
      · rw [List.mem_singleton] at hr
        exact ⟨_, by rw [hr], hlate⟩
    · have hcount := h.counted
      simp only [release, List.length_append, List.length_singleton] at hcount ⊢
      omega
    · intro hle
      exact absurd hle (Nat.not_le.mpr hlate)
    · intro _
      refine ⟨refreshing_release _ _ _, by simp, ?_⟩
      obtain ⟨first, rest, rfl⟩ := List.exists_cons_of_ne_nil hsome
      exact hperf
  · next hearly =>
    have hle : s.cache.epoch ≤ stale := Nat.not_lt.mp hearly
    obtain ⟨hempty, hperf⟩ := h.before hle
    refine ⟨failed, served, ⟨h.returned, h.errors, h.epochs, h.counted, fun _ => ⟨hempty, ?_⟩,
      fun hlate => absurd hlate hearly⟩, ?_, ?_, ?_, ?_⟩
    · rw [hperf, hnone, List.append_nil]
      rfl
    · rw [hcalls]
      simp
    · simp
    · simp [refreshing]
    · simp

/-- **The refresh comes back**: with an error for its caller alone, or with an epoch that answers
everybody who waits. -/
theorem Served.finish (h : Served stale count calls s failed served)
    (hlock : s.lock = some (caller, .refreshing)) {result : Except Error MetadataCache}
    (hresult : ∀ cache, result = .ok cache → stale < cache.epoch) :
    ∃ failed served, Served stale count calls (s.finish caller result) failed served := by
  have hrefreshing : s.refreshing = [caller] := by rw [refreshing, hlock]
  have hle : s.cache.epoch ≤ stale := by
    by_contra hlate
    have := (h.after (Nat.not_le.mp hlate)).1
    simp [hrefreshing] at this
  obtain ⟨rfl, hperf⟩ := h.before hle
  rw [hrefreshing] at hperf
  have hcalls : calls = s.returned.map Prod.fst ++ caller :: s.waiting := by
    rw [h.inOrder, hlock]
    simp
  have hcount := h.counted
  unfold StaleEpochHandler.finish
  rcases result with e | cache
  · refine ⟨failed ++ [(caller, .error e)], [], served_release
      ⟨by simp [release, h.returned], ?_, by simp, ?_, ?_, ?_⟩ hcalls⟩
    · intro r hr
      rcases List.mem_append.mp hr with hr | hr
      · exact h.errors r hr
      · rw [List.mem_singleton] at hr
        exact ⟨e, by rw [hr]⟩
    · simp only [release, List.length_append, List.length_singleton, List.length_nil] at hcount ⊢
      omega
    · intro _
      rw [refreshing_release]
      simp [release, hperf]
    · intro hlate
      exact absurd hlate (Nat.not_lt.mpr hle)
  · have hnew := hresult cache rfl
    refine ⟨failed, [(caller, .ok cache.epoch)], served_release
      ⟨by simp [release, h.returned], h.errors, ?_, ?_, ?_, ?_⟩ hcalls⟩
    · intro r hr
      rw [List.mem_singleton] at hr
      exact ⟨_, by rw [hr], hnew⟩
    · simp only [release, List.length_singleton, List.length_nil] at hcount ⊢
      omega
    · intro hold
      exact absurd hold (Nat.not_le.mpr hnew)
    · intro _
      rw [refreshing_release]
      simp [release, hperf]

theorem step_call_of_locked {holder : Nat × LockPhase} (hlock : s.lock = some holder) :
    (StaleEpochHandler.step stale s (.call caller)).1
      = { s with waiting := s.waiting ++ [caller] } := by
  simp only [StaleEpochHandler.step, hlock]

/-- **One event keeps the invariant.** -/
theorem Served.step (h : Served stale count calls s failed served) (event : RefreshEvent)
    (hevent : ∀ cache, event = .refreshed (.ok cache) → stale < cache.epoch) :
    ∃ failed served,
      Served stale count (calls ++ callsOf [event]) (StaleEpochHandler.step stale s event).1
        failed served := by
  cases event with
  | call caller =>
    cases hlock : s.lock with
    | none =>
      -- the lock is free, and nobody waits for it
      have hcalls : calls ++ [caller] = s.returned.map Prod.fst ++ caller :: s.waiting := by
        rw [h.inOrder, hlock, h.idle hlock]
        simp
      simp only [StaleEpochHandler.step, hlock]
      exact h.toResults.proceed (by rw [refreshing, hlock]) hcalls
    | some holder =>
      rw [step_call_of_locked hlock]
      refine ⟨failed, served, ⟨h.returned, h.errors, h.epochs, h.counted, h.before, h.after⟩, ?_,
        ?_, h.paused, h.handed⟩
      · rw [h.inOrder]
        simp [callsOf]
      · simp [hlock]
  | resume =>
    have hsame : calls ++ callsOf [.resume] = calls := by simp [callsOf]
    rw [hsame]
    simp only [StaleEpochHandler.step]
    split
    · next i hlock =>
      have hcalls : calls = s.returned.map Prod.fst ++ i :: s.waiting := by
        rw [h.inOrder, hlock]
        simp
      exact h.toResults.proceed (by rw [refreshing, hlock]) hcalls
    · exact ⟨failed, served, h⟩
  | refreshed result =>
    have hsame : calls ++ callsOf [.refreshed result] = calls := by simp [callsOf]
    rw [hsame]
    simp only [StaleEpochHandler.step]
    split
    · next i hlock =>
      exact h.finish hlock fun cache hcache => hevent cache (by rw [hcache])
    · exact ⟨failed, served, h⟩

/-! ## 3. Runs -/

/-- A handler that no call uses, with a cache that is not newer than the epoch in question. -/
structure Idle (stale : EpochId) (s : StaleEpochHandler) : Prop where
  cache : s.cache.epoch ≤ stale
  paused : s.paused = false
  lock : s.lock = none
  waiting : s.waiting = []
  performed : s.performed = []
  returned : s.returned = []

theorem callsOf_append (events events' : List RefreshEvent) :
    callsOf (events ++ events') = callsOf events ++ callsOf events' := List.filterMap_append

/-- **The invariant holds along every interleaving.** -/
theorem served_run (h₀ : Idle stale s) {events : List RefreshEvent}
    (hevents : ∀ cache, RefreshEvent.refreshed (.ok cache) ∈ events → stale < cache.epoch) :
    ∃ failed served, Served stale s.refreshCount (callsOf events)
      (runState (StaleEpochHandler.step stale) s events) failed served := by
  refine runState_history (P := fun seen t => ∃ failed served,
    Served stale s.refreshCount (callsOf seen) t failed served) ⟨[], [], ?_⟩ ?_
  · have hnone : s.refreshing = [] := by rw [refreshing, h₀.lock]
    refine ⟨⟨h₀.returned, by simp, by simp, by simp, fun _ => ⟨rfl, ?_⟩, fun hlate => ?_⟩, ?_, ?_,
      ?_, ?_⟩
    · rw [h₀.performed, hnone]
      rfl
    · exact absurd hlate (Nat.not_lt.mpr h₀.cache)
    · simp [callsOf, h₀.returned, h₀.lock, h₀.waiting]
    · exact fun _ => h₀.waiting
    · simp [h₀.paused, hnone]
    · simp [h₀.lock]
  · rintro pre event post rfl ⟨failed, served, h⟩
    rw [callsOf_append]
    refine h.step event fun cache hcache => hevents cache ?_
    simp [hcache]

/-- Those who failed had asked for a refresh each, and those who asked are the first callers. -/
theorem Served.performed_prefixes (h : Served stale count calls s failed served) :
    failed.map Prod.fst <+: s.performed ∧ s.performed <+: calls ∧
      s.performed.length ≤ failed.length + 1 := by
  have hcalls := h.inOrder
  rw [h.returned, List.map_append] at hcalls
  by_cases hle : s.cache.epoch ≤ stale
  · obtain ⟨rfl, hperf⟩ := h.before hle
    have hholder : s.refreshing <+: (s.lock.map Prod.fst).toList := by
      unfold refreshing
      split
      · next i hlock => simp [hlock]
      · exact List.nil_prefix
    have hone : s.refreshing.length ≤ 1 := hholder.length_le.trans (by cases s.lock <;> simp)
    refine ⟨hperf ▸ List.prefix_append _ _, ?_, ?_⟩
    · rw [hperf, hcalls, List.map_nil, List.append_nil, List.append_assoc,
        List.prefix_append_right_inj]
      exact hholder.trans (List.prefix_append _ _)
    · rw [hperf, List.length_append, List.length_map]
      omega
  · obtain ⟨-, -, hperf⟩ := h.after (Nat.not_le.mp hle)
    refine ⟨hperf ▸ List.prefix_append _ _, ?_, ?_⟩
    · rw [hperf, hcalls, List.append_assoc, List.append_assoc, List.prefix_append_right_inj]
      exact (List.take_prefix _ _).trans (List.prefix_append _ _)
    · rw [hperf, List.length_append, List.length_map, List.length_take]
      omega

/-- Without failures the first caller is the one who refreshes. -/
theorem Served.performed_of_nil (h : Served stale count calls s [] served) :
    s.performed = calls.take 1 := by
  have hcalls := h.inOrder
  rw [h.returned, List.nil_append] at hcalls
  by_cases hle : s.cache.epoch ≤ stale
  · obtain ⟨rfl, hperf⟩ := h.before hle
    rw [hperf, hcalls]
    rcases hlock : s.lock with _ | ⟨i, _ | _⟩
    · simp [refreshing, hlock, h.idle hlock]
    · exact absurd h.returned (h.handed i hlock)
    · simp [refreshing, hlock]
  · obtain ⟨-, hsome, hperf⟩ := h.after (Nat.not_le.mp hle)
    obtain ⟨first, rest, rfl⟩ := List.exists_cons_of_ne_nil hsome
    rw [hperf, hcalls]
    simp

/-- Where an error comes from: the refresh of the call that returns it. -/
theorem returned_step (stale : EpochId) (s : StaleEpochHandler) (event : RefreshEvent) :
    (StaleEpochHandler.step stale s event).1.returned = s.returned ∨
      ∃ i result, (StaleEpochHandler.step stale s event).1.returned = s.returned ++ [(i, result)] ∧
        ∀ e, result = .error e →
          s.lock = some (i, .refreshing) ∧ event = .refreshed (.error e) := by
  have hproceed : ∀ i, (s.proceed stale i).returned = s.returned ∨
      ∃ epoch, (s.proceed stale i).returned = s.returned ++ [(i, .ok epoch)] := by
    intro i
    unfold StaleEpochHandler.proceed
    split
    · exact Or.inr ⟨_, rfl⟩
    · exact Or.inl rfl
  cases event with
  | call i =>
    simp only [StaleEpochHandler.step]
    split
    · rcases hproceed i with h | ⟨epoch, h⟩
      · exact Or.inl h
      · exact Or.inr ⟨i, .ok epoch, h, by simp⟩
    · exact Or.inl rfl
  | resume =>
    simp only [StaleEpochHandler.step]
    split
    · next i hlock =>
      rcases hproceed i with h | ⟨epoch, h⟩
      · exact Or.inl h
      · exact Or.inr ⟨i, .ok epoch, h, by simp⟩
    · exact Or.inl rfl
  | refreshed result =>
    simp only [StaleEpochHandler.step]
    split
    · next i hlock =>
      rcases result with e | cache
      · refine Or.inr ⟨i, .error e, rfl, fun e' he' => ⟨hlock, ?_⟩⟩
        cases he'
        rfl
      · exact Or.inr ⟨i, .ok cache.epoch, rfl, by simp⟩
    · exact Or.inl rfl

theorem error_returned_run (h₀ : Idle stale s) {events : List RefreshEvent} {i : Nat} {e : Error}
    (h : (i, .error e) ∈ (runState (StaleEpochHandler.step stale) s events).returned) :
    RefreshEvent.refreshed (.error e) ∈ events := by
  revert h
  refine runState_history (P := fun seen (t : StaleEpochHandler) => (i, .error e) ∈ t.returned →
    RefreshEvent.refreshed (.error e) ∈ seen) ?_ ?_
  · simp [h₀.returned]
  · intro pre event post _ ih hmem
    rcases returned_step stale (runState (StaleEpochHandler.step stale) s pre) event with
      hsame | ⟨j, result, hnew, herr⟩
    · rw [hsame] at hmem
      exact List.mem_append_left _ (ih hmem)
    · rw [hnew] at hmem
      rcases List.mem_append.mp hmem with hold | hlast
      · exact List.mem_append_left _ (ih hold)
      · rw [List.mem_singleton, Prod.mk.injEq] at hlast
        exact List.mem_append_right _ (by simp [(herr e hlast.2.symm).2])

/-! ## 4. Every call returns -/

/-- What is left to do: for each call that waits, to be handed the lock and to finish with it. -/
def pending (s : StaleEpochHandler) : Nat :=
  2 * s.waiting.length +
    match s.lock with
    | none => 0
    | some (_, .refreshing) => 1
    | some (_, .granted) => 2

theorem pending_release_lt (caller : Nat) (result : Except Error EpochId)
    {phase : LockPhase} (hlock : s.lock = some (caller, phase)) :
    (s.release caller result).pending < s.pending := by
  unfold pending release
  cases phase <;> cases hw : s.waiting <;> (simp [hlock]; try omega)

theorem pending_resume_lt (hlock : s.lock = some (caller, .granted)) :
    (StaleEpochHandler.step stale s .resume).1.pending < s.pending := by
  simp only [StaleEpochHandler.step, hlock, proceed]
  split
  · exact pending_release_lt caller _ hlock
  · simp [pending, hlock]

theorem pending_refreshed_lt (hlock : s.lock = some (caller, .refreshing))
    (result : Except Error MetadataCache) :
    (StaleEpochHandler.step stale s (.refreshed result)).1.pending < s.pending := by
  simp only [StaleEpochHandler.step, hlock, finish]
  rcases result with e | cache
  · exact pending_release_lt (s := { s with refreshCount := _ }) caller _ hlock
  · exact pending_release_lt (s := { s with refreshCount := _, cache := _ }) caller _ hlock

end StaleEpochHandler

/-! ## 5. The guarantees -/

open StaleEpochHandler

/-- **What the calls are promised**, after the events of a run that began with the given
`refresh_count`. -/
structure Deduplicated (stale : EpochId) (count : Nat) (events : List RefreshEvent)
    (s : StaleEpochHandler) : Prop where
  /-- When no refresh fails the first caller refreshes and nobody else does. -/
  oneRefresh : (∀ e, RefreshEvent.refreshed (.error e) ∉ events) →
    s.performed = (callsOf events).take 1
  /-- And all calls that return do so with a newer epoch. -/
  returnsOk : (∀ e, RefreshEvent.refreshed (.error e) ∉ events) →
    ∀ r ∈ s.returned, ∃ epoch, r.2 = .ok epoch ∧ stale < epoch
  /-- When no call is in progress all have returned, and writes are not paused. -/
  done : s.lock = none →
    s.waiting = [] ∧ s.returned.map Prod.fst = callsOf events ∧ s.paused = false
  /-- By then one refresh has been counted, when none failed. -/
  counted : (∀ e, RefreshEvent.refreshed (.error e) ∉ events) → s.lock = none →
    callsOf events ≠ [] → s.refreshCount % 2 ^ 64 = (count + 1) % 2 ^ 64
  /-- The calls that return an error come first, each after a refresh of its own; those who
  refresh are the first callers, at most one more than have failed. -/
  ownErrors : ∃ failed served, s.returned = failed ++ served ∧
    (∀ r ∈ failed, ∃ e, r.2 = .error e ∧ RefreshEvent.refreshed (.error e) ∈ events) ∧
    (∀ r ∈ served, ∃ epoch, r.2 = .ok epoch ∧ stale < epoch) ∧
    failed.map Prod.fst <+: s.performed ∧ s.performed <+: callsOf events ∧
    s.performed.length ≤ failed.length + 1
  /-- A refresh that fails is an error for its caller, and the next in line refreshes. -/
  nextRefreshes : ∀ i next rest e, s.lock = some (i, .refreshing) → s.waiting = next :: rest →
    ∃ s', runState (step stale) s [.refreshed (.error e), .resume] = s' ∧
      s'.returned = s.returned ++ [(i, .error e)] ∧ s'.performed = s.performed ++ [next] ∧
      s'.lock = some (next, .refreshing)
  /-- A call in progress gets further when it is resumed, or when its refresh comes back. -/
  progress : s.lock ≠ none → (step stale s .resume).1.pending < s.pending ∨
    ∀ result, (step stale s (.refreshed result)).1.pending < s.pending

/-- **Stale-epoch refreshes are deduplicated**, for any number of concurrent calls and in every
interleaving. -/
theorem handleStaleEpoch_deduplicated (stale : EpochId) (s : StaleEpochHandler)
    (h₀ : Idle stale s) (events : List RefreshEvent)
    (hevents : ∀ cache, RefreshEvent.refreshed (.ok cache) ∈ events → stale < cache.epoch) :
    Deduplicated stale s.refreshCount events (runState (step stale) s events) := by
  obtain ⟨failed, served, h⟩ := served_run h₀ hevents
  have hfails : ∀ r ∈ failed, ∃ e, r.2 = .error e ∧ RefreshEvent.refreshed (.error e) ∈ events := by
    intro r hr
    obtain ⟨e, he⟩ := h.errors r hr
    refine ⟨e, he, error_returned_run h₀ (i := r.1) ?_⟩
    rw [h.returned, ← he]
    exact List.mem_append_left _ hr
  have hnone : (∀ e, RefreshEvent.refreshed (.error e) ∉ events) → failed = [] := by
    intro hno
    refine List.eq_nil_iff_forall_not_mem.mpr fun r hr => ?_
    obtain ⟨e, -, hmem⟩ := hfails r hr
    exact hno e hmem
  generalize runState (step stale) s events = t at h
  have hdone : t.lock = none → t.waiting = [] ∧ t.returned.map Prod.fst = callsOf events := by
    intro hlock
    refine ⟨h.idle hlock, ?_⟩
    rw [h.inOrder, hlock, h.idle hlock]
    simp
  refine ⟨fun hno => ?_, fun hno => ?_, fun hlock => ?_, fun hno hlock hsome => ?_, ?_, ?_,
    fun hlock => ?_⟩
  · obtain rfl := hnone hno
    exact h.performed_of_nil
  · obtain rfl := hnone hno
    rw [h.returned]
    exact h.epochs
  · have hidle : t.refreshing = [] := by rw [refreshing, hlock]
    exact ⟨(hdone hlock).1, (hdone hlock).2, by simpa [hidle] using h.paused⟩
  · obtain rfl := hnone hno
    have hserved : 0 < served.length := by
      rw [← (hdone hlock).2, h.returned] at hsome
      exact List.length_pos_iff.mpr (by simpa using hsome)
    have hone : min served.length 1 = 1 := Nat.min_eq_right hserved
    simpa [hone] using h.counted
  · exact ⟨failed, served, h.returned, hfails, h.epochs, h.performed_prefixes⟩
  · intro i next rest e hlock hwaiting
    have hle : ¬ t.cache.epoch > stale := fun hlate => by
      have := (h.after hlate).1
      simp [refreshing, hlock] at this
    refine ⟨_, rfl, ?_, ?_, ?_⟩ <;>
      simp [step, hlock, finish, release, hwaiting, proceed, hle]
  · rcases hcase : t.lock with _ | ⟨i, _ | _⟩
    · exact absurd hcase hlock
    · exact Or.inl (pending_resume_lt hcase)
    · exact Or.inr (pending_refreshed_lt hcase)

def idleHandler : StaleEpochHandler where
  cache := ⟨3, ∅, ∅⟩
  paused := false
  refreshCount := 0
  lock := none
  waiting := []
  performed := []
  returned := []

/-- Three calls that overlap: the first refresh fails, the second brings epoch 5. -/
def overlapping : List RefreshEvent :=
  [.call 0, .call 1, .refreshed (.error (.network "timed out")), .call 2, .resume,
    .refreshed (.ok ⟨5, ∅, ∅⟩), .resume]

theorem handleStaleEpoch_deduplicated_three :
    Deduplicated 3 0 overlapping (runState (step 3) idleHandler overlapping) ∧
      (runState (step 3) idleHandler overlapping).performed = [0, 1] ∧
      (runState (step 3) idleHandler overlapping).lock = none := by
  refine ⟨handleStaleEpoch_deduplicated 3 idleHandler ⟨by decide, rfl, rfl, rfl, rfl, rfl⟩ _ ?_,
    by decide, by decide⟩
  intro cache hcache
  simp only [overlapping, List.mem_cons, RefreshEvent.refreshed.injEq, Except.ok.injEq,
    reduceCtorEq, List.not_mem_nil, or_false, false_or] at hcache
  rw [hcache]
  decide

/-- **A call by itself** is the `handle_stale_epoch` of the write pipelines. -/
theorem solo_eq_handleStaleEpoch (stale : EpochId) (c : Client)
    (result : Except Error MetadataCache) (s : StaleEpochHandler) (hcache : s.cache = c.cache)
    (hlock : s.lock = none) (hwaiting : s.waiting = []) :
    ∃ s', runState (step stale) s [.call 0, .refreshed result] = s' ∧
      { c with cache := s'.cache, paused := s'.paused } = c.handleStaleEpoch result stale := by
  refine ⟨_, rfl, ?_⟩
  by_cases hlate : c.cache.epoch > stale
  · simp [step, hlock, proceed, release, hwaiting, hcache, hlate, Client.handleStaleEpoch]
  · rcases result with e | cache <;>
      simp [step, hlock, proceed, finish, release, hcache, hlate, Client.handleStaleEpoch]

end Blockyard.Ublk
