/-
# Going through a list until a step stops

The loop behind every `for` with an early `return`: the items of a list are handled one by one, and
each step either goes on with a new state or stops with a result (`untilStop`).  What the loop has
done is the list of its VISITS (`visits`): which item, the state before, the state after, and
whether it stopped there.

The facts a caller needs about any such loop are the same: the visits follow the list from its start
(`items_visits`), only the last one can have stopped (`visits_stopped_last`), and the outcome of the
loop is that of its last visit (`untilStop_of_stopped`), or, when none has stopped, the whole list
has been visited (`visits_of_exhausted`); each visit begins where the one before it ended, and the
loop where the last one did (`leadsTo_visits`).

Nothing here knows what a step does.
-/
import Mathlib

namespace Until

variable {ι γ β : Type*}

/-! ## 1. The loop and its visits -/

def untilStop (step : γ → ι → γ × Option β) : γ → List ι → γ × Option β
  | g, [] => (g, none)
  | g, i :: is =>
    match step g i with
    | (g, some b) => (g, some b)
    | (g, none) => untilStop step g is

structure Visit (ι γ β : Type*) where
  item : ι
  before : γ
  after : γ
  stopped : Option β

def visits (step : γ → ι → γ × Option β) : γ → List ι → List (Visit ι γ β)
  | _, [] => []
  | g, i :: is =>
    match step g i with
    | (g', some b) => [⟨i, g, g', some b⟩]
    | (g', none) => ⟨i, g, g', none⟩ :: visits step g' is

variable {step : γ → ι → γ × Option β} {g g' : γ} {i : ι} {is : List ι} {b : β}
  {v : Visit ι γ β}

theorem untilStop_cons_of_stop (h : step g i = (g', some b)) (is : List ι) :
    untilStop step g (i :: is) = (g', some b) := by
  rw [untilStop, h]

theorem untilStop_cons_of_go (h : step g i = (g', none)) (is : List ι) :
    untilStop step g (i :: is) = untilStop step g' is := by
  rw [untilStop, h]

theorem visits_cons_of_stop (h : step g i = (g', some b)) (is : List ι) :
    visits step g (i :: is) = [⟨i, g, g', some b⟩] := by
  rw [visits, h]

theorem visits_cons_of_go (h : step g i = (g', none)) (is : List ι) :
    visits step g (i :: is) = ⟨i, g, g', none⟩ :: visits step g' is := by
  rw [visits, h]

def LeadsTo : γ → List (Visit ι γ β) → γ → Prop
  | g, [], g' => g = g'
  | g, v :: vs, g' => v.before = g ∧ LeadsTo v.after vs g'

/-! ## 2. What every loop does -/

/-- **The visits lead from the start of the loop to its end.** -/
theorem leadsTo_visits (step : γ → ι → γ × Option β) (g : γ) (is : List ι) :
    LeadsTo g (visits step g is) (untilStop step g is).1 := by
  induction is generalizing g with
  | nil => rfl
  | cons i is ih =>
    rcases hs : step g i with ⟨g', _ | b⟩
    · rw [visits_cons_of_go hs, untilStop_cons_of_go hs]
      exact ⟨rfl, ih g'⟩
    · rw [visits_cons_of_stop hs, untilStop_cons_of_stop hs]
      exact ⟨rfl, rfl⟩

/-- **A visit is a step.** -/
theorem step_of_mem_visits (h : v ∈ visits step g is) :
    step v.before v.item = (v.after, v.stopped) := by
  induction is generalizing g with
  | nil => cases h
  | cons i is ih =>
    rcases hs : step g i with ⟨g', _ | b⟩
    · rw [visits_cons_of_go hs] at h
      rcases List.mem_cons.mp h with rfl | h
      · exact hs
      · exact ih h
    · rw [visits_cons_of_stop hs] at h
      cases List.mem_singleton.mp h
      exact hs

/-- **The visits follow the list from its start.** -/
theorem items_visits (step : γ → ι → γ × Option β) (g : γ) (is : List ι) :
    (visits step g is).map Visit.item <+: is := by
  induction is generalizing g with
  | nil => exact List.nil_prefix
  | cons i is ih =>
    rcases hs : step g i with ⟨g', _ | b⟩
    · rw [visits_cons_of_go hs]
      exact List.cons_prefix_cons.mpr ⟨rfl, ih g'⟩
    · rw [visits_cons_of_stop hs]
      exact List.cons_prefix_cons.mpr ⟨rfl, List.nil_prefix⟩

theorem length_visits_le (step : γ → ι → γ × Option β) (g : γ) (is : List ι) :
    (visits step g is).length ≤ is.length := by
  have h := (items_visits step g is).length_le
  rwa [List.length_map] at h

/-- **Nothing comes after a visit that stopped.** -/
theorem visits_stopped_last {earlier later : List (Visit ι γ β)}
    (h : visits step g is = earlier ++ v :: later) (hv : v.stopped.isSome) :
    later = [] := by
  induction is generalizing g earlier with
  | nil => simp [visits] at h
  | cons i is ih =>
    rcases hs : step g i with ⟨g', _ | b⟩
    · rw [visits_cons_of_go hs] at h
      cases earlier with
      | nil =>
        obtain ⟨rfl, -⟩ := List.cons.inj h
        cases hv
      | cons e earlier => exact ih (List.cons.inj h).2
    · rw [visits_cons_of_stop hs] at h
      cases earlier with
      | nil => exact (List.cons.inj h).2.symm
      | cons e earlier => simp at h

/-- **The loop stops with the result of the visit that stopped.** -/
theorem untilStop_of_stopped (h : v ∈ visits step g is) (hv : v.stopped = some b) :
    untilStop step g is = (v.after, some b) := by
  induction is generalizing g with
  | nil => cases h
  | cons i is ih =>
    rcases hs : step g i with ⟨g', _ | b'⟩
    · rw [visits_cons_of_go hs] at h
      rw [untilStop_cons_of_go hs]
      rcases List.mem_cons.mp h with rfl | h
      · cases hv
      · exact ih h
    · rw [visits_cons_of_stop hs] at h
      rw [untilStop_cons_of_stop hs]
      cases List.mem_singleton.mp h
      cases hv
      rfl

theorem exists_stopped (h : untilStop step g is = (g', some b)) :
    ∃ v ∈ visits step g is, v.after = g' ∧ v.stopped = some b := by
  induction is generalizing g with
  | nil => cases h
  | cons i is ih =>
    rcases hs : step g i with ⟨g₁, _ | b'⟩
    · rw [untilStop_cons_of_go hs] at h
      rw [visits_cons_of_go hs]
      obtain ⟨v, hv, hafter⟩ := ih h
      exact ⟨v, List.mem_cons_of_mem _ hv, hafter⟩
    · rw [untilStop_cons_of_stop hs] at h
      rw [visits_cons_of_stop hs]
      cases h
      exact ⟨_, List.mem_singleton_self _, rfl, rfl⟩

/-- **A loop that does not stop visits the whole list.** -/
theorem visits_of_exhausted (h : untilStop step g is = (g', none)) :
    (visits step g is).map Visit.item = is := by
  induction is generalizing g with
  | nil => rfl
  | cons i is ih =>
    rcases hs : step g i with ⟨g₁, _ | b⟩
    · rw [untilStop_cons_of_go hs] at h
      rw [visits_cons_of_go hs, List.map_cons, ih h]
    · rw [untilStop_cons_of_stop hs] at h
      cases h

/-- **The invariant rule**: what every step that goes on preserves holds before every visit, and at
the end of a loop that does not stop. -/
theorem before_of_invariant {P : γ → Prop} (hstep : ∀ g i g', P g → step g i = (g', none) → P g')
    (h0 : P g) (h : v ∈ visits step g is) : P v.before := by
  induction is generalizing g with
  | nil => cases h
  | cons i is ih =>
    rcases hs : step g i with ⟨g', _ | b⟩
    · rw [visits_cons_of_go hs] at h
      rcases List.mem_cons.mp h with rfl | h
      · exact h0
      · exact ih (hstep g i g' h0 hs) h
    · rw [visits_cons_of_stop hs] at h
      cases List.mem_singleton.mp h
      exact h0

theorem exhausted_of_invariant {P : γ → Prop} (hstep : ∀ g i g', P g → step g i = (g', none) → P g')
    (h0 : P g) (h : untilStop step g is = (g', none)) : P g' := by
  induction is generalizing g with
  | nil =>
    cases h
    exact h0
  | cons i is ih =>
    rcases hs : step g i with ⟨g₁, _ | b⟩
    · rw [untilStop_cons_of_go hs] at h
      exact ih (hstep g i g₁ h0 hs) h
    · rw [untilStop_cons_of_stop hs] at h
      cases h

/-- **A loop that only carries more in its state** runs as the loop that does not. -/
theorem untilStop_map {γ' : Type*} {step' : γ' → ι → γ' × Option β} (f : γ → γ')
    (h : ∀ g i, step' (f g) i = (f (step g i).1, (step g i).2)) (g : γ) (is : List ι) :
    untilStop step' (f g) is = (f (untilStop step g is).1, (untilStop step g is).2) := by
  induction is generalizing g with
  | nil => rfl
  | cons i is ih =>
    have hi := h g i
    rcases hs : step g i with ⟨g', _ | b⟩
    · rw [hs] at hi
      rw [untilStop_cons_of_go hi, untilStop_cons_of_go hs, ih]
    · rw [hs] at hi
      rw [untilStop_cons_of_stop hi, untilStop_cons_of_stop hs]

end Until
