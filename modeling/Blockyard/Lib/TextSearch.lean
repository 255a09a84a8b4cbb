/-
# Searching a composed text

A text is put together from parts, and a pattern is searched in it.  An occurrence lies in one of
the parts unless it spans a place where two of them meet, and it cannot do that where one of the
two characters next to the place is not in the pattern (`Parted`).  So the search splits
(`infix_append_iff`).
-/
import Mathlib

namespace TextSearch

variable {α : Type*} {p a b : List α}

/-- No occurrence of the pattern spans the place where the two texts meet. -/
def Parted (p a b : List α) : Prop :=
  (∃ c, a.getLast? = some c ∧ c ∉ p) ∨ ∃ c, b.head? = some c ∧ c ∉ p

/-- **A pattern is found in a text** of two parts exactly when it is found in one of them. -/
theorem infix_append_iff (h : Parted p a b) : p <:+: a ++ b ↔ p <:+: a ∨ p <:+: b := by
  constructor
  · rintro ⟨s, t, heq⟩
    rcases List.append_eq_append_iff.mp heq with ⟨m, rfl, -⟩ | ⟨m, hsp, rfl⟩
    · exact Or.inl ⟨s, m, rfl⟩
    rcases List.append_eq_append_iff.mp hsp with ⟨k, rfl, rfl⟩ | ⟨k, rfl, rfl⟩
    · -- the occurrence would span the place
      rcases List.eq_nil_or_concat k with rfl | ⟨k', c, rfl⟩
      · exact Or.inr ⟨[], t, by simp⟩
      rcases m with _ | ⟨d, m⟩
      · exact Or.inl ⟨s, [], by simp⟩
      · rcases h with ⟨c', hlast, hout⟩ | ⟨d', hhead, hout⟩
        · obtain rfl : c = c' := by simpa using hlast
          exact absurd (by simp) hout
        · obtain rfl : d = d' := by simpa using hhead
          exact absurd (by simp) hout
    · exact Or.inr ⟨k, t, by simp⟩
  · rintro (h | h)
    · exact h.trans (List.prefix_append a b).isInfix
    · exact h.trans (List.suffix_append a b).isInfix

theorem not_infix_of_not_mem {c : α} (hp : c ∈ p) (ha : c ∉ a) : ¬ p <:+: a :=
  fun h => ha (h.subset hp)

end TextSearch
