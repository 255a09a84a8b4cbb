/-
# Runs of a deterministic machine

A machine is a step function `σ → ι → σ × ο`: it takes the current state and one input and
returns the next state and the answer.  This module says what a RUN of such a machine is
(`runState`, with its answers `runOutputs`), how runs compose, and packages the inductions every
history argument needs:

* `runState_invariant` -- a property that each step preserves holds after every run;
* `runState_history` -- the same with the inputs seen so far as an index, and with the step
  hypothesis only asked of inputs that really occur in the run, at the state they really
  occur in;
* `runState_of_along` -- the same for inputs that each meet a condition (`Along`, and `along_iff`
  for its places);
* `forall_prefix_history_iff_along`, `forall_prefix_iff_along` -- a property that a step can lose
  holds THROUGHOUT a run exactly when every input of the run meets the condition under which its
  step keeps it.

Nothing here knows what the machine computes.
-/
import Mathlib

namespace Machine

variable {σ ι ο : Type*} (step : σ → ι → σ × ο)

/-! ## 1. Runs -/

/-- The state after feeding the inputs one by one. -/
def runState (s : σ) : List ι → σ
  | [] => s
  | i :: is => runState (step s i).1 is

@[simp] theorem runState_nil (s : σ) : runState step s [] = s := rfl

@[simp] theorem runState_cons (s : σ) (i : ι) (is : List ι) :
    runState step s (i :: is) = runState step (step s i).1 is := rfl

theorem runState_append (s : σ) (is js : List ι) :
    runState step s (is ++ js) = runState step (runState step s is) js := by
  induction is generalizing s with
  | nil => rfl
  | cons i is ih => exact ih _

theorem runState_snoc (s : σ) (is : List ι) (i : ι) :
    runState step s (is ++ [i]) = (step (runState step s is) i).1 := by
  rw [runState_append]; rfl

def runOutputs (s : σ) : List ι → List ο
  | [] => []
  | i :: is => (step s i).2 :: runOutputs (step s i).1 is

theorem runOutputs_snoc (s : σ) (is : List ι) (i : ι) :
    runOutputs step s (is ++ [i])
      = runOutputs step s is ++ [(step (runState step s is) i).2] := by
  induction is generalizing s with
  | nil => rfl
  | cons j is ih => exact congrArg _ (ih _)

/-- Every input of a run meets a condition, in the state it occurs in. -/
def Along (P : σ → ι → Prop) (s : σ) : List ι → Prop
  | [] => True
  | i :: is => P s i ∧ Along P (step s i).1 is

/-! ## 2. The inductions -/

variable {step} {C : σ → ι → Prop} {s : σ} {is : List ι}

/-- **The history rule.**  `P seen s` speaks of the inputs seen so far and of the state they
lead to.  It is enough to check it at the start and across each input that OCCURS in the run,
at the state the run has reached there. -/
theorem runState_history {P : List ι → σ → Prop} (h0 : P [] s)
    (hstep : ∀ pre i post, is = pre ++ i :: post → P pre (runState step s pre) →
      P (pre ++ [i]) (step (runState step s pre) i).1) :
    P is (runState step s is) := by
  induction is using List.reverseRecOn with
  | nil => exact h0
  | append_singleton is i ih =>
    rw [runState_snoc]
    refine hstep is i [] (by simp) (ih ?_)
    intro pre j post he hp
    exact hstep pre j (post ++ [i]) (by simp [he]) hp

/-- **The invariant rule.**  A property that holds at the start and that every step preserves
holds after every run. -/
theorem runState_invariant {P : σ → Prop} (h0 : P s) (hstep : ∀ t i, P t → P (step t i).1)
    (is : List ι) : P (runState step s is) :=
  runState_history (P := fun _ t => P t) h0 (fun _ _ _ _ hp => hstep _ _ hp)

/-- A condition along a run, said of each place of the run. -/
theorem along_iff :
    Along step C s is ↔
      ∀ pre i post, is = pre ++ i :: post → C (runState step s pre) i := by
  induction is generalizing s with
  | nil => simp [Along]
  | cons j is ih =>
    rw [Along, ih]
    constructor
    · rintro ⟨hj, his⟩ pre i post heq
      rcases List.cons_eq_append_iff.mp heq with ⟨rfl, hcons⟩ | ⟨pre', rfl, hrest⟩
      · cases hcons
        exact hj
      · exact his pre' i post hrest
    · intro h
      exact ⟨h [] j is rfl, fun pre i post heq => h (j :: pre) i post (by rw [heq]; rfl)⟩

/-- **The conditional invariant rule.**  A property that every step on an input meeting `C`
preserves holds after every run whose inputs all meet `C`. -/
theorem runState_of_along {P : σ → Prop} (h0 : P s) (hC : Along step C s is)
    (hstep : ∀ t i, P t → C t i → P (step t i).1) :
    P (runState step s is) := by
  induction is generalizing s with
  | nil => exact h0
  | cons i is ih => exact ih (hstep s i h0 hC.1) hC.2

/-- **The rule for a property that a step can lose.**  `P seen s` speaks of the inputs seen so far
and of the state they lead to.  `C` says exactly when a step keeps `P`, for inputs of the kind `Q`,
in states with the invariant `I`.  Then `P` holds at every state the run passes exactly when every
input of the run meets `C` at its turn. -/
theorem forall_prefix_history_iff_along {I P : List ι → σ → Prop} {Q : ι → Prop} (seen : List ι)
    (hI : I seen s) (h0 : P seen s) (hQ : ∀ i ∈ is, Q i)
    (hkeep : ∀ past t i, I past t → Q i → I (past ++ [i]) (step t i).1)
    (hstep : ∀ past t i, I past t → Q i → P past t → (P (past ++ [i]) (step t i).1 ↔ C t i)) :
    (∀ pre, pre <+: is → P (seen ++ pre) (runState step s pre)) ↔ Along step C s is := by
  induction is generalizing s seen with
  | nil =>
    simp only [List.prefix_nil, forall_eq, runState_nil, Along, iff_true, List.append_nil]
    exact h0
  | cons i is ih =>
    have hQi : Q i := hQ i List.mem_cons_self
    have hi : P (seen ++ [i]) (step s i).1 ↔ C s i := hstep seen s i hI hQi h0
    have hrest := fun h => ih (s := (step s i).1) (seen ++ [i]) (hkeep seen s i hI hQi) h
      fun j hj => hQ j (List.mem_cons_of_mem _ hj)
    constructor
    · intro h
      have hnext : P (seen ++ [i]) (step s i).1 := h [i] (by simp)
      refine ⟨hi.mp hnext, (hrest hnext).mp fun pre hpre => ?_⟩
      rw [List.append_assoc]
      exact h (i :: pre) (List.cons_prefix_cons.mpr ⟨rfl, hpre⟩)
    · rintro ⟨hC, halong⟩ pre hpre
      rcases List.prefix_cons_iff.mp hpre with rfl | ⟨pre', rfl, hpre'⟩
      · rw [List.append_nil]
        exact h0
      · have hlater := (hrest (hi.mpr hC)).mpr halong pre' hpre'
        rwa [List.append_assoc] at hlater

/-- The same rule for a property of the state alone. -/
theorem forall_prefix_iff_along {I P : σ → Prop} {Q : ι → Prop} (hI : I s) (h0 : P s)
    (hQ : ∀ i ∈ is, Q i) (hkeep : ∀ t i, I t → Q i → I (step t i).1)
    (hstep : ∀ t i, I t → Q i → P t → (P (step t i).1 ↔ C t i)) :
    (∀ pre, pre <+: is → P (runState step s pre)) ↔ Along step C s is :=
  forall_prefix_history_iff_along (I := fun _ t => I t) (P := fun _ t => P t) [] hI h0 hQ
    (fun _ t i => hkeep t i) (fun _ t i => hstep t i)

end Machine
