/-
# Rendezvous hashing

Candidates are ranked by a score and the ones with the lowest scores are chosen.  When no two
scores are equal the ranking depends on the SET of candidates only (`ranked_eq`), so that a new
candidate slips into the ranking of the others (`filter_ranked`): whoever is chosen now and is not
new was chosen before (`mem_lowest_of_grown`), and a new candidate who is not chosen changes nothing
(`lowest_eq_of_grown`).  The places of those behind it all move by one.
-/
import Mathlib

namespace Rendezvous

variable {α : Type*} (score : α → Nat)

/-- The candidates in the order of their scores. -/
def ranked (l : List α) : List α := l.mergeSort fun a b => score a ≤ score b

def lowest (count : Nat) (l : List α) : List α := (ranked score l).take count

def NoTies (l : List α) : Prop := ∀ a ∈ l, ∀ b ∈ l, score a = score b → a = b

variable {score} {l l' : List α} {x : α}

theorem perm_ranked (l : List α) : (ranked score l).Perm l := List.mergeSort_perm _ _

/-- Sorting the candidates with their scores, and forgetting the scores, ranks them. -/
theorem map_snd_mergeSort (l : List α) :
    ((l.map fun a => (score a, a)).mergeSort fun p q => p.1 ≤ q.1).map Prod.snd
      = ranked score l := by
  have hmap : (ranked score l).map (fun a => (score a, a))
      = (l.map fun a => (score a, a)).mergeSort fun p q => p.1 ≤ q.1 :=
    List.map_mergeSort fun _ _ _ _ => rfl
  rw [← hmap, List.map_map]
  exact List.map_id _

theorem pairwise_ranked (l : List α) : (ranked score l).Pairwise fun a b => score a ≤ score b := by
  have h : (ranked score l).Pairwise fun a b => decide (score a ≤ score b) = true := by
    refine List.pairwise_mergeSort (fun a b c hab hbc => ?_) (fun a b => ?_) l
    · simp only [decide_eq_true_eq] at hab hbc ⊢
      omega
    · simp only [Bool.or_eq_true, decide_eq_true_eq]
      omega
  exact h.imp of_decide_eq_true

/-- **Without ties there is one ranking.** -/
theorem ranked_eq (hties : NoTies score l) (hperm : l'.Perm l)
    (hsorted : l'.Pairwise fun a b => score a ≤ score b) : ranked score l = l' := by
  refine List.Perm.eq_of_pairwise ?_ (pairwise_ranked l) hsorted ((perm_ranked l).trans hperm.symm)
  intro a b ha hb hab hba
  exact hties a ((perm_ranked l).mem_iff.mp ha) b (hperm.mem_iff.mp hb) (Nat.le_antisymm hab hba)

/-- **A new candidate leaves the ranking of the others.** -/
theorem filter_ranked [DecidableEq α] (hties : NoTies score l) (hx : x ∉ l)
    (hperm : l'.Perm (x :: l)) : (ranked score l').filter (· ≠ x) = ranked score l := by
  refine (ranked_eq hties ?_ ((pairwise_ranked l').filter _)).symm
  have hothers : (x :: l).filter (· ≠ x) = l := by
    rw [List.filter_cons_of_neg (by simp)]
    refine List.filter_eq_self.mpr fun a ha => ?_
    simpa using fun heq : a = x => hx (heq ▸ ha)
  rw [← hothers]
  exact ((perm_ranked l').trans hperm).filter _

/-- Whoever is chosen beside a new candidate was chosen before. -/
theorem mem_lowest_of_grown [DecidableEq α] (hties : NoTies score l) (hx : x ∉ l)
    (hperm : l'.Perm (x :: l)) {count : Nat} {y : α} (hy : y ∈ lowest score count l')
    (hne : y ≠ x) : y ∈ lowest score count l := by
  rw [lowest, ← filter_ranked hties hx hperm]
  have hmem : y ∈ ((ranked score l').take count).filter (· ≠ x) :=
    List.mem_filter.mpr ⟨hy, by simpa using hne⟩
  -- what is left of the first ones is a beginning of what is left of all
  have hbegin : ((ranked score l').take count).filter (· ≠ x) <+:
      (ranked score l').filter (· ≠ x) :=
    List.IsPrefix.filter _ ⟨_, List.take_append_drop count _⟩
  have hlen : (((ranked score l').take count).filter (· ≠ x)).length ≤ count :=
    (List.length_filter_le _ _).trans (List.length_take_le _ _)
  rw [List.prefix_iff_eq_take] at hbegin
  rw [hbegin] at hmem
  exact List.take_subset_take_left _ hlen hmem

theorem lowest_eq_of_perm (hties : NoTies score l) (hperm : l'.Perm l) (count : Nat) :
    lowest score count l' = lowest score count l := by
  rw [lowest, lowest, ranked_eq hties ((perm_ranked l').trans hperm) (pairwise_ranked l')]

theorem subperm_lowest (count : Nat) (l : List α) : (lowest score count l).Subperm l :=
  ((List.take_sublist _ _).subperm).trans (perm_ranked l).subperm

theorem length_lowest (count : Nat) (l : List α) :
    (lowest score count l).length = min count l.length := by
  rw [lowest, List.length_take, (perm_ranked l).length_eq]

/-- A new candidate who is not chosen changes nothing. -/
theorem lowest_eq_of_grown [DecidableEq α] (hties : NoTies score l) (hx : x ∉ l)
    (hperm : l'.Perm (x :: l)) {count : Nat} (hout : x ∉ lowest score count l') :
    lowest score count l = lowest score count l' := by
  have hmem : x ∈ ranked score l' :=
    (perm_ranked l').mem_iff.mpr (hperm.mem_iff.mpr List.mem_cons_self)
  -- all would be chosen, the new one included, if the count were not smaller
  have hcount : count < (ranked score l').length := by
    by_contra hle
    refine hout ?_
    rwa [lowest, List.take_of_length_le (Nat.le_of_not_lt hle)]
  have hkept : ((ranked score l').take count).filter (· ≠ x) = (ranked score l').take count := by
    refine List.filter_eq_self.mpr fun a ha => ?_
    simpa using fun heq : a = x => hout (heq ▸ ha)
  rw [lowest, lowest, ← filter_ranked hties hx hperm]
  conv_lhs => rw [← List.take_append_drop count (ranked score l'), List.filter_append, hkept]
  exact List.take_left' (List.length_take_of_le hcount.le)

/-- The choice is in the order of the scores, all of which are below those of the others. -/
structure InOrder (score : α → Nat) (chosen l : List α) : Prop where
  increasing : chosen.Pairwise fun a b => score a < score b
  below : ∀ a ∈ chosen, ∀ b ∈ l, b ∉ chosen → score a < score b

theorem inOrder_lowest (hnodup : l.Nodup) (hties : NoTies score l) (count : Nat) :
    InOrder score (lowest score count l) l := by
  -- without ties the ranking is strictly increasing
  have hstrict : (ranked score l).Pairwise fun a b => score a < score b := by
    refine (List.Pairwise.and_mem.mp ((pairwise_ranked l).and
      ((perm_ranked l).nodup_iff.mpr hnodup))).imp fun h => ?_
    obtain ⟨ha, hb, hle, hne⟩ := h
    refine Nat.lt_of_le_of_ne hle fun heq => hne ?_
    exact hties _ ((perm_ranked l).mem_iff.mp ha) _ ((perm_ranked l).mem_iff.mp hb) heq
  refine ⟨hstrict.sublist (List.take_sublist _ _), fun a ha b hb hout => ?_⟩
  rw [← List.take_append_drop count (ranked score l), List.pairwise_append] at hstrict
  refine hstrict.2.2 a ha b ?_
  have hmem : b ∈ (ranked score l).take count ++ (ranked score l).drop count := by
    rw [List.take_append_drop]
    exact (perm_ranked l).mem_iff.mpr hb
  exact (List.mem_append.mp hmem).resolve_left hout

end Rendezvous
