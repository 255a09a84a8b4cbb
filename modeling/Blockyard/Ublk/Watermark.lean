/-
# The session watermark

`blockyard-ublk`, `watermark.rs`: `WriteWatermark` is one atomic number.  `advance_to` reads it and,
while its version is greater, tries to exchange what it has read for its version; the exchange fails
when the number has changed, and now and then for no reason (`compare_exchange_weak`).

Any number of calls run against each other here, one atomic access at a time.  The number is always
the greatest version that has been offered (`advanceTo_is_max`), and of several calls with the same
version one at most says that it has advanced the watermark.
-/
import Blockyard.Lib.Run

open Machine

namespace Blockyard.Ublk

/-- Where a call of `advance_to` is: in front of its load, in front of its exchange with what it has
loaded, or back with its answer. -/
inductive AdvanceCall
  | load
  | exchange (current : Nat)
  | returned (advanced : Bool)
  deriving DecidableEq, Repr

/-- `WriteWatermark`, and the calls of `advance_to` on it. -/
structure WriteWatermark where
  value : Nat
  calls : Nat → AdvanceCall

/-- One atomic access of a call; an exchange may fail spuriously. -/
inductive AdvanceEvent
  | load (i : Nat)
  | exchange (i : Nat) (spurious : Bool)
  deriving DecidableEq, Repr

namespace WriteWatermark

/-- `with_initial`, before the first call. -/
def withInitial (epoch : Nat) : WriteWatermark := ⟨epoch, fun _ => .load⟩

def set (w : WriteWatermark) (i : Nat) (call : AdvanceCall) : WriteWatermark :=
  { w with calls := Function.update w.calls i call }

/-- `advance_to`, access by access; call `i` is for `version i`. -/
def advanceTo (version : Nat → Nat) (w : WriteWatermark) : AdvanceEvent → WriteWatermark × Unit
  | .load i =>
    match w.calls i with
    | .load => (w.set i (if version i ≤ w.value then .returned false else .exchange w.value), ())
    | _ => (w, ())
  | .exchange i spurious =>
    match w.calls i with
    | .exchange current =>
      if w.value = current ∧ spurious = false then
        ({ w with value := version i }.set i (.returned true), ())
      else (w.set i .load, ())
    | _ => (w, ())

/-- What is known of the number and the calls at every moment. -/
structure Inv (version : Nat → Nat) (initial : Nat) (w : WriteWatermark) : Prop where
  low : initial ≤ w.value
  pending : ∀ i current, w.calls i = .exchange current → current < version i
  below : ∀ i advanced, w.calls i = .returned advanced → version i ≤ w.value
  origin : w.value = initial ∨ ∃ i, w.calls i = .returned true ∧ version i = w.value
  once : ∀ i j, w.calls i = .returned true → w.calls j = .returned true →
    version i = version j → i = j

variable {version : Nat → Nat} {initial : Nat} {w : WriteWatermark}

/-- **One access** keeps the invariant, and the number does not go back.  An exchange succeeds only
below its version, so the version is greater than all whose calls are back. -/
theorem Inv.step (h : w.Inv version initial) (event : AdvanceEvent) :
    (w.advanceTo version event).1.Inv version initial ∧
      w.value ≤ (w.advanceTo version event).1.value := by
  obtain ⟨low, pending, below, origin, once⟩ := h
  cases event with
  | load i =>
    cases hi : w.calls i with
    | load =>
      by_cases hle : version i ≤ w.value <;> simp only [advanceTo, hi, hle, set, if_true, if_false]
      · refine ⟨⟨low, ?_, ?_, ?_, ?_⟩, le_rfl⟩ <;> grind
      · refine ⟨⟨low, ?_, ?_, ?_, ?_⟩, le_rfl⟩ <;> grind
    | exchange | returned =>
      simp only [advanceTo, hi]
      exact ⟨⟨low, pending, below, origin, once⟩, le_rfl⟩
  | exchange i spurious =>
    cases hi : w.calls i with
    | exchange current =>
      have hlt := pending i current hi
      simp only [advanceTo, hi, set]
      split
      · next hsame =>
        have hnew : ∀ k advanced, w.calls k = .returned advanced → version k < version i :=
          fun k advanced hk => (below k advanced hk).trans_lt (hsame.1 ▸ hlt)
        refine ⟨⟨?_, ?_, ?_, ?_, ?_⟩, ?_⟩ <;> grind
      · refine ⟨⟨low, ?_, ?_, ?_, ?_⟩, le_rfl⟩ <;> grind
    | load | returned =>
      simp only [advanceTo, hi]
      exact ⟨⟨low, pending, below, origin, once⟩, le_rfl⟩

/-- **THE WATERMARK IS THE GREATEST VERSION**, after any interleaving of any calls and any spurious
failures: it is at least what it was at first and every version whose call is back, it is one of
them, it never goes back, and of several calls with one version at most one has advanced it. -/
theorem advanceTo_is_max (version : Nat → Nat) (initial : Nat) (events more : List AdvanceEvent) :
    let w := runState (advanceTo version) (withInitial initial) events
    IsGreatest {v | v = initial ∨ ∃ i advanced, w.calls i = .returned advanced ∧ version i = v}
        w.value ∧
      w.value ≤ (runState (advanceTo version) w more).value ∧
      (∀ i j, w.calls i = .returned true → w.calls j = .returned true →
        version i = version j → i = j) ∧
      ∀ i, w.calls i = .returned false →
        version i ≤ initial ∨ ∃ j, w.calls j = .returned true ∧ version i ≤ version j := by
  intro w
  have hinv : w.Inv version initial := by
    refine runState_invariant (P := Inv version initial) ?_ (fun _ event h => (h.step event).1) _
    exact ⟨le_rfl, by simp [withInitial], by simp [withInitial], Or.inl rfl, by simp [withInitial]⟩
  refine ⟨⟨?_, ?_⟩, ?_, hinv.once, ?_⟩
  · exact hinv.origin.imp_right fun ⟨i, hi, hversion⟩ => ⟨i, true, hi, hversion⟩
  · rintro v (rfl | ⟨i, advanced, hi, rfl⟩)
    · exact hinv.low
    · exact hinv.below i advanced hi
  · refine (runState_invariant (P := fun t => Inv version initial t ∧ w.value ≤ value t)
      ⟨hinv, le_rfl⟩ ?_ more).2
    intro t event ht
    exact ⟨(ht.1.step event).1, ht.2.trans (ht.1.step event).2⟩
  · intro i hi
    have hle := hinv.below i false hi
    rcases hinv.origin with heq | ⟨j, hj, heq⟩
    · exact Or.inl (heq ▸ hle)
    · exact Or.inr ⟨j, hj, heq ▸ hle⟩

end WriteWatermark

end Blockyard.Ublk
