/-
# Replaying a log from checkpoints

A partial machine applies the entries of a log one after the other, each with an answer, and may
stop on one.  Every state that ONE uninterrupted replay of a log passes is a CHECKPOINT
(`Checkpoint`), with the entries that are left.  Started again from a checkpoint, the machine does
with the entries that are left what the uninterrupted replay does with them: the same states, the
same answers, and it stops where that one stops (`run_append_of`).  It does not matter who
kept the checkpoint, or how often it is gone back to.
-/
import Mathlib

namespace Replay

variable {S E R : Type*} (step : S → E → Option (S × R))

/-- The entries applied one after the other, with their answers. -/
def run : S → List E → Option (S × List R)
  | s, [] => some (s, [])
  | s, e :: es =>
    match step s e with
    | none => none
    | some (s', r) => (run s' es).map fun (s'', rs) => (s'', r :: rs)

variable {step}

@[simp] theorem run_nil (s : S) : run step s [] = some (s, []) := rfl

/-- **Two logs in a row**: the second is replayed from where the first one ends. -/
theorem run_append_of {s s' : S} {es : List E} {rs : List R}
    (h : run step s es = some (s', rs)) (es' : List E) :
    run step s (es ++ es') = (run step s' es').map fun (s'', rs') => (s'', rs ++ rs') := by
  induction es generalizing s rs with
  | nil =>
    cases h
    simp
  | cons e es ih =>
    rw [run] at h
    rw [List.cons_append, run]
    cases hstep : step s e with
    | none => simp [hstep] at h
    | some p =>
      rw [hstep] at h
      obtain ⟨⟨s₂, rs₂⟩, hrun, heq⟩ := Option.map_eq_some_iff.mp h
      obtain ⟨rfl, rfl⟩ := Prod.mk.inj heq
      simp [ih hrun, Function.comp_def]

/-- A state the uninterrupted replay of `log` passes, and the entries that are left there. -/
def Checkpoint (step : S → E → Option (S × R)) (init : S) (log : List E) (s : S)
    (rest : List E) : Prop :=
  ∃ done rs, log = done ++ rest ∧ run step init done = some (s, rs)

variable {init s s' : S} {log es rest : List E} {rs : List R}

theorem checkpoint_init : Checkpoint step init log init log := ⟨[], [], rfl, rfl⟩

/-- **Some more entries** lead from a checkpoint to a checkpoint. -/
theorem Checkpoint.advance (h : Checkpoint step init log s (es ++ rest))
    (hrun : run step s es = some (s', rs)) : Checkpoint step init log s' rest := by
  obtain ⟨done, rs₀, rfl, hdone⟩ := h
  refine ⟨done ++ es, rs₀ ++ rs, by simp, ?_⟩
  simp [run_append_of hdone, hrun]

end Replay
