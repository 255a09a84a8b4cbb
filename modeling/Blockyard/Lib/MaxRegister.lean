/-
# Registers that keep the greatest value

A register over a linear order takes a value that is greater than what it holds and ignores every
other (`offer`).  That is a join: after any offers it holds the greatest of them and of what it
held at first (`isGreatest_foldl_offer`), so the order of the offers and their repetition do not
show (`foldl_offer_congr`).
-/
import Mathlib

namespace MaxRegister

variable {α : Type*} [LinearOrder α]

/-- A value is taken when it is greater; an empty register takes any. -/
def offer (r : WithBot α) (a : α) : WithBot α := if r < a then a else r

theorem offer_eq_max (r : WithBot α) (a : α) : offer r a = max r a := by
  unfold offer
  split
  · next h => exact (max_eq_right h.le).symm
  · next h => exact (max_eq_left (not_lt.mp h)).symm

theorem le_offer (r : WithBot α) (a : α) : r ≤ offer r a := by
  rw [offer_eq_max]
  exact le_max_left _ _

/-- **A register holds the maximum.** -/
theorem foldl_offer (r : WithBot α) (as : List α) : as.foldl offer r = max r as.maximum := by
  induction as generalizing r with
  | nil => simp
  | cons a as ih => rw [List.foldl_cons, ih, offer_eq_max, List.maximum_cons, max_assoc]

theorem foldl_offer_congr (r : WithBot α) {as bs : List α} (h : ∀ a, a ∈ as ↔ a ∈ bs) :
    as.foldl offer r = bs.foldl offer r := by
  have hle : ∀ {as bs : List α}, (∀ a, a ∈ as → a ∈ bs) → as.maximum ≤ bs.maximum :=
    fun hsub => List.maximum_le_of_forall_le fun a ha => List.le_maximum_of_mem' (hsub a ha)
  rw [foldl_offer, foldl_offer,
    le_antisymm (hle fun a ha => (h a).mp ha) (hle fun a ha => (h a).mpr ha)]

/-- **What a register holds after an offer** is one of the values it had to choose from, and none
of them is greater. -/
theorem isGreatest_foldl_offer (r : WithBot α) {as : List α} (h : as ≠ []) :
    ∃ m : α, as.foldl offer r = m ∧ IsGreatest {a : α | r = a ∨ a ∈ as} m := by
  obtain ⟨top, htop⟩ : ∃ top : α, as.maximum = top :=
    ⟨_, (WithBot.coe_unbot _ (mt List.maximum_eq_bot.mp h)).symm⟩
  have hmem : top ∈ as := List.maximum_mem htop
  have hmax : ∀ a ∈ as, a ≤ top := fun a ha => List.le_maximum_of_mem ha htop
  rw [foldl_offer, htop]
  induction r using WithBot.recBotCoe with
  | bot =>
    refine ⟨top, by simp, Or.inr hmem, ?_⟩
    rintro a (ha | ha)
    · exact absurd ha WithBot.bot_ne_coe
    · exact hmax a ha
  | coe held =>
    refine ⟨max held top, by simp, ?_, ?_⟩
    · rcases max_choice held top with heq | heq
      · exact Or.inl (by rw [heq])
      · exact Or.inr (by rw [heq]; exact hmem)
    · rintro a (ha | ha)
      · rw [← WithBot.coe_inj.mp ha]
        exact le_max_left _ _
      · exact (hmax a ha).trans (le_max_right _ _)

end MaxRegister
