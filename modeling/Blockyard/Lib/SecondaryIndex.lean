/-
# Tables with a secondary index

A table stores values under keys.  A secondary index leads from an ATTRIBUTE of a value back to
a key under which such a value is stored.  Nothing says that an attribute belongs to one value
only; the two maintenance steps below are the usual ones that would be right if it did.

* Storing a value under a key takes the overwritten value's attribute out of the index and then
  enters its own (`put`).
* Dropping a set of keys takes the attributes of all dropped values out of the index (`drop`).

The index then never leads astray (`Sound.put`, `Sound.drop`), whatever is shared.  But it can
forget: `complete_put_iff` and `complete_drop_iff` say exactly when a step keeps every stored
attribute known.
-/
import Mathlib

namespace SecondaryIndex

variable {P K V : Type*}

/-! ## 1. Tables and indexes -/

@[ext] structure Indexed (P K V : Type*) where
  table : P → Option V
  index : K → Option P

/-- The attribute of the value under a key. -/
def Indexed.attrAt (attr : V → Option K) (t : Indexed P K V) (p : P) : Option K :=
  (t.table p).bind attr

def Indexed.lookup (t : Indexed P K V) (k : K) : Option V := (t.index k).bind t.table

/-- The index never leads astray: where it leads, a value with that attribute is stored. -/
def Sound (attr : V → Option K) (t : Indexed P K V) : Prop :=
  ∀ k p, t.index k = some p → t.attrAt attr p = some k

/-- The index forgets nothing: it leads somewhere for every attribute of a stored value. -/
def Complete (attr : V → Option K) (t : Indexed P K V) : Prop :=
  ∀ p k, t.attrAt attr p = some k → ∃ p', t.index k = some p'

variable {attr : V → Option K} {t : Indexed P K V}

theorem attrAt_eq_some {p : P} {k : K} :
    t.attrAt attr p = some k ↔ ∃ v, t.table p = some v ∧ attr v = some k :=
  Option.bind_eq_some_iff

/-- What a sound index returns is stored, and has the attribute that was asked for. -/
theorem Sound.lookup (hs : Sound attr t) {k : K} {v : V} (h : t.lookup k = some v) :
    (∃ p, t.table p = some v) ∧ attr v = some k := by
  obtain ⟨p, hp, hv⟩ := Option.bind_eq_some_iff.mp h
  obtain ⟨v', hv', hk⟩ := attrAt_eq_some.mp (hs k p hp)
  rw [hv] at hv'
  cases hv'
  exact ⟨⟨p, hv⟩, hk⟩

/-- A sound and complete index answers for every attribute of a stored value. -/
theorem Sound.complete_iff (hs : Sound attr t) :
    Complete attr t ↔ ∀ p v k, t.table p = some v → attr v = some k →
      ∃ p' v', t.table p' = some v' ∧ attr v' = some k ∧ t.lookup k = some v' := by
  constructor
  · intro hc p v k hv hk
    obtain ⟨p', hp'⟩ := hc p k (attrAt_eq_some.mpr ⟨v, hv, hk⟩)
    obtain ⟨v', hv', hk'⟩ := attrAt_eq_some.mp (hs k p' hp')
    exact ⟨p', v', hv', hk', Option.bind_eq_some_iff.mpr ⟨p', hp', hv'⟩⟩
  · intro h p k hp
    obtain ⟨v, hv, hk⟩ := attrAt_eq_some.mp hp
    obtain ⟨-, v', -, -, hlook⟩ := h p v k hv hk
    obtain ⟨p', hp', -⟩ := Option.bind_eq_some_iff.mp hlook
    exact ⟨p', hp'⟩

/-! ## 2. Storing a value -/

section Put

variable [DecidableEq P] [DecidableEq K]

/-- Store `v` under `p`: the overwritten attribute goes, its own comes. -/
def put (attr : V → Option K) (t : Indexed P K V) (p : P) (v : V) : Indexed P K V where
  table := Function.update t.table p (some v)
  index k := if attr v = some k then some p else if t.attrAt attr p = some k then none
    else t.index k

@[simp] theorem attrAt_put_self (attr : V → Option K) (t : Indexed P K V) (p : P) (v : V) :
    (put attr t p v).attrAt attr p = attr v := by
  simp [put, Indexed.attrAt]

theorem attrAt_put_of_ne (attr : V → Option K) (t : Indexed P K V) {p p' : P} (h : p' ≠ p)
    (v : V) : (put attr t p v).attrAt attr p' = t.attrAt attr p' := by
  simp [put, Indexed.attrAt, h]

/-- **Storing a value keeps the index sound.** -/
theorem Sound.put (hs : Sound attr t) (p : P) (v : V) :
    Sound attr (put attr t p v) := by
  intro k q hq
  simp only [SecondaryIndex.put] at hq
  split at hq
  · rename_i hk
    cases hq
    rw [attrAt_put_self, hk]
  · split at hq
    · cases hq
    · rename_i hold
      -- the entry is an old one, and not the overwritten value's
      have hqk : t.attrAt attr q = some k := hs k q hq
      have hne : q ≠ p := by
        rintro rfl
        exact hold hqk
      rw [attrAt_put_of_ne attr t hne, hqk]

/-- **Storing a value keeps every attribute known** exactly when the overwritten value's
attribute is its own as well, or no other value has it. -/
theorem complete_put_iff (hc : Complete attr t) (p : P) (v : V) : Complete attr (put attr t p v) ↔
      ∀ k, t.attrAt attr p = some k →
        attr v = some k ∨ ∀ p', t.attrAt attr p' = some k → p' = p := by
  constructor
  · intro h k hold
    by_cases hown : attr v = some k
    · exact Or.inl hown
    · refine Or.inr fun p' hp' => ?_
      by_contra hne
      have hkept := attrAt_put_of_ne attr t hne v
      obtain ⟨q, hq⟩ := h p' k (hkept.trans hp')
      simp [put, hown, hold] at hq
  · intro h p' k hp'
    by_cases hown : attr v = some k
    · exact ⟨p, by simp [put, hown]⟩
    · have hne : p' ≠ p := by
        rintro rfl
        rw [attrAt_put_self] at hp'
        exact hown hp'
      rw [attrAt_put_of_ne attr t hne] at hp'
      have hold : t.attrAt attr p ≠ some k := fun hold =>
        (h k hold).elim hown fun honly => hne (honly p' hp')
      obtain ⟨q, hq⟩ := hc p' k hp'
      exact ⟨q, by simp [put, hown, hold, hq]⟩

end Put

/-! ## 3. Dropping keys -/

section Drop

open Classical in
/-- Drop the keys of `S`: the attributes of all dropped values go. -/
noncomputable def drop (attr : V → Option K) (t : Indexed P K V) (S : P → Prop) :
    Indexed P K V where
  table p := if S p then none else t.table p
  index k := if ∃ p, S p ∧ t.attrAt attr p = some k then none else t.index k

theorem attrAt_drop_of_not (attr : V → Option K) (t : Indexed P K V) {S : P → Prop} {p : P}
    (h : ¬ S p) : (drop attr t S).attrAt attr p = t.attrAt attr p := by
  simp [drop, Indexed.attrAt, h]

theorem not_of_attrAt_drop {S : P → Prop} {p : P} {k : K}
    (h : (drop attr t S).attrAt attr p = some k) : ¬ S p := by
  intro hS
  simp [drop, Indexed.attrAt, hS] at h

/-- **Dropping keys keeps the index sound.** -/
theorem Sound.drop (hs : Sound attr t) (S : P → Prop) :
    Sound attr (drop attr t S) := by
  intro k q hq
  simp only [SecondaryIndex.drop] at hq
  split at hq
  · cases hq
  · rename_i hnone
    have hqk : t.attrAt attr q = some k := hs k q hq
    rw [attrAt_drop_of_not attr t fun hS => hnone ⟨q, hS, hqk⟩, hqk]

/-- **Dropping keys keeps every attribute known** exactly when no value that stays shares its
attribute with one that goes. -/
theorem complete_drop_iff (hc : Complete attr t) (S : P → Prop) : Complete attr (drop attr t S) ↔
      ∀ p k, S p → t.attrAt attr p = some k → ∀ p', t.attrAt attr p' = some k → S p' := by
  constructor
  · intro h p k hS hp p' hp'
    by_contra hS'
    obtain ⟨q, hq⟩ := h p' k ((attrAt_drop_of_not attr t hS').trans hp')
    simp only [drop, if_pos (⟨p, hS, hp⟩ : ∃ p, S p ∧ t.attrAt attr p = some k)] at hq
    cases hq
  · intro h p' k hp'
    have hS' := not_of_attrAt_drop hp'
    rw [attrAt_drop_of_not attr t hS'] at hp'
    obtain ⟨q, hq⟩ := hc p' k hp'
    have hnone : ¬ ∃ p, S p ∧ t.attrAt attr p = some k := by
      rintro ⟨p, hS, hp⟩
      exact hS' (h p k hS hp p' hp')
    exact ⟨q, by simp only [drop, if_neg hnone, hq]⟩

end Drop

end SecondaryIndex
