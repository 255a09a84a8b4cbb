/-
# Tables of intervals that are read through the nearest start

A table from starts to values, where a value `v` stored at `k` stands for the interval of `len v`
points from `k` on.  Nothing keeps the intervals apart.  A point is looked up through the row with
the NEAREST start at or below it (`floor`), and only through this one: if that row ends before the
point, nothing is found, whatever an older and longer row below it covers (`lookup`).

So a new interval can do harm in two ways: a start inside it hides its tail, and it hides the tail
of an older interval that reaches beyond its end.  `lookup_insert_iff` says that there is no third
way, and `lookup_tiles_iff` the same for an interval that is laid out point by point, which can do
only the second.
-/
import Blockyard.Lib.OrderedTable

open Std OrderedTable

namespace IntervalTable

variable {V : Type}

/-! ## 1. The nearest start -/

variable {m m' : ExtTreeMap Nat V compare} {x k : Nat} {v : V}

/-- The row with the largest start at or below a point. -/
def floor (m : ExtTreeMap Nat V compare) (x : Nat) : Option (Nat × V) :=
  (rows m (.upTo x)).getLast?

theorem mem_rows_upTo {row : Nat × V} :
    row ∈ rows m (.upTo x) ↔ m[row.1]? = some row.2 ∧ row.1 ≤ x := by
  rw [rows, List.mem_filter, ExtTreeMap.mem_toList_iff_getElem?_eq_some]
  simp [Range.contains, Range.upTo, Nat.isLE_compare]

theorem floor_eq_none_iff :
    floor m x = none ↔ ∀ k ∈ m, x < k := by
  rw [floor, List.getLast?_eq_none_iff, List.eq_nil_iff_forall_not_mem]
  constructor
  · intro h k hk
    obtain ⟨v, hv⟩ := Option.isSome_iff_exists.mp (ExtTreeMap.mem_iff_isSome_getElem?.mp hk)
    by_contra hle
    exact h (k, v) (mem_rows_upTo.mpr ⟨hv, Nat.le_of_not_lt hle⟩)
  · intro h row hrow
    obtain ⟨hget, hle⟩ := mem_rows_upTo.mp hrow
    have hlt : x < row.1 := h row.1 (ExtTreeMap.mem_iff_isSome_getElem?.mpr (by simp [hget]))
    omega

theorem floor_spec (h : floor m x = some (k, v)) :
    m[k]? = some v ∧ k ≤ x ∧ ∀ k' ∈ m, k' ≤ x → k' ≤ k := by
  obtain ⟨hget, hle⟩ := mem_rows_upTo.mp (List.mem_of_getLast? h)
  refine ⟨hget, hle, fun k' hk' hle' => ?_⟩
  obtain ⟨v', hv'⟩ := Option.isSome_iff_exists.mp (ExtTreeMap.mem_iff_isSome_getElem?.mp hk')
  -- The rows are sorted, so the last of them has the largest key.
  obtain ⟨init, hinit⟩ := List.getLast?_eq_some_iff.mp h
  have hsorted : (rows m (.upTo x)).Pairwise fun a b => compare a.1 b.1 = .lt :=
    ExtTreeMap.ordered_keys_toList.filter _
  have hmem : (k', v') ∈ rows m (.upTo x) := mem_rows_upTo.mpr ⟨hv', hle'⟩
  rw [hinit] at hsorted hmem
  rcases List.mem_append.mp hmem with hin | hlast
  · have hlt := (List.pairwise_append.mp hsorted).2.2 _ hin (k, v) (List.mem_singleton_self _)
    exact Nat.le_of_lt (Nat.compare_eq_lt.mp hlt)
  · cases List.mem_singleton.mp hlast
    exact Nat.le_refl _

/-- **The nearest start**: the largest one that is not above the point. -/
theorem floor_eq_some_iff :
    floor m x = some (k, v) ↔ m[k]? = some v ∧ k ≤ x ∧ ∀ k' ∈ m, k' ≤ x → k' ≤ k := by
  refine ⟨floor_spec, fun ⟨hget, hle, hmax⟩ => ?_⟩
  have hk : k ∈ m := ExtTreeMap.mem_iff_isSome_getElem?.mpr (by simp [hget])
  cases hfloor : floor m x with
  | none => exact absurd hle (Nat.not_le_of_lt (floor_eq_none_iff.mp hfloor k hk))
  | some row =>
    obtain ⟨hget', hle', hmax'⟩ := floor_spec hfloor
    have hrow : row.1 ∈ m := ExtTreeMap.mem_iff_isSome_getElem?.mpr (by simp [hget'])
    have hkey : row.1 = k := Nat.le_antisymm (hmax _ hrow hle') (hmax' _ hk hle)
    rw [hkey, hget] at hget'
    rw [← hkey, Option.some.inj hget']

theorem floor_self (h : m[k]? = some v) :
    floor m k = some (k, v) :=
  floor_eq_some_iff.mpr ⟨h, Nat.le_refl _, fun _ _ hle => hle⟩

/-- The nearest start depends on the rows up to the point only. -/
theorem floor_congr (h : ∀ k ≤ x, m'[k]? = m[k]?) : floor m' x = floor m x := by
  have hmem : ∀ k ≤ x, (k ∈ m' ↔ k ∈ m) := fun k hk => by
    rw [ExtTreeMap.mem_iff_isSome_getElem?, ExtTreeMap.mem_iff_isSome_getElem?, h k hk]
  refine Option.ext fun row => ?_
  constructor
  · intro hrow
    obtain ⟨hget, hle, hmax⟩ := floor_spec hrow
    refine floor_eq_some_iff.mpr ⟨(h _ hle).symm.trans hget, hle, fun k' hk' hle' => ?_⟩
    exact hmax k' ((hmem k' hle').mpr hk') hle'
  · intro hrow
    obtain ⟨hget, hle, hmax⟩ := floor_spec hrow
    refine floor_eq_some_iff.mpr ⟨(h _ hle).trans hget, hle, fun k' hk' hle' => ?_⟩
    exact hmax k' ((hmem k' hle').mp hk') hle'

/-- Two tables that agree from `e` on have the same nearest start once there is one from `e` on. -/
theorem floor_congr_from {e : Nat} (hk : k ∈ m) (hek : e ≤ k) (hkx : k ≤ x)
    (h : ∀ k ≥ e, m'[k]? = m[k]?) : floor m' x = floor m x := by
  cases hfloor : floor m x with
  | none => exact absurd hkx (Nat.not_le_of_lt (floor_eq_none_iff.mp hfloor k hk))
  | some row =>
    obtain ⟨hget, hle, hmax⟩ := floor_spec hfloor
    have herow : e ≤ row.1 := Nat.le_trans hek (hmax k hk hkx)
    refine floor_eq_some_iff.mpr ⟨(h _ herow).trans hget, hle, fun k' hk' hle' => ?_⟩
    by_cases hek' : e ≤ k'
    · refine hmax k' ?_ hle'
      rwa [ExtTreeMap.mem_iff_isSome_getElem?, ← h k' hek', ← ExtTreeMap.mem_iff_isSome_getElem?]
    · omega

/-- A new row changes the nearest start of the points that see no later start. -/
theorem floor_insert (m : ExtTreeMap Nat V compare) (k : Nat) (v : V) (x : Nat) :
    floor (m.insert k v) x = floor m x ∧ (x < k ∨ ∃ k' ∈ m, k < k' ∧ k' ≤ x) ∨
      floor (m.insert k v) x = some (k, v) ∧ k ≤ x ∧ ∀ k' ∈ m, k < k' → x < k' := by
  have hother : ∀ k', k ≠ k' → (m.insert k v)[k']? = m[k']? := fun k' hne => by
    rw [ExtTreeMap.getElem?_insert, if_neg fun he => hne (LawfulEqOrd.compare_eq_iff_eq.mp he)]
  by_cases hlt : x < k
  · exact .inl ⟨floor_congr fun k' hk' => hother k' (by omega), .inl hlt⟩
  · by_cases hlater : ∃ k' ∈ m, k < k' ∧ k' ≤ x
    · obtain ⟨k', hk', hkk', hk'x⟩ := hlater
      refine .inl ⟨floor_congr_from hk' hkk' hk'x fun j hj => hother j ?_,
        .inr ⟨k', hk', hkk', hk'x⟩⟩
      omega
    · have hnone : ∀ k' ∈ m, k < k' → x < k' := fun k' hk' hkk' => by
        by_contra hx
        exact hlater ⟨k', hk', hkk', Nat.le_of_not_lt hx⟩
      refine .inr ⟨floor_eq_some_iff.mpr ⟨ExtTreeMap.getElem?_insert_self, by omega, ?_⟩,
        by omega, hnone⟩
      intro k' hk' hk'x
      rcases ExtTreeMap.mem_insert.mp hk' with he | hin
      · exact Nat.le_of_eq (LawfulEqOrd.compare_eq_iff_eq.mp he).symm
      · by_contra hkk'
        exact absurd hk'x (Nat.not_le_of_lt (hnone k' hin (Nat.lt_of_not_le hkk')))

/-! ## 2. Looking a point up -/

/-- The row a point is found in. -/
def lookup (len : V → Nat) (m : ExtTreeMap Nat V compare) (x : Nat) : Option (Nat × V) :=
  (floor m x).filter fun row => decide (x < row.1 + len row.2)

variable {len : V → Nat}

theorem lookup_of_floor {row : Nat × V} (h : floor m x = some row) (hx : x < row.1 + len row.2) :
    lookup len m x = some row := by
  simp [lookup, h, hx]

theorem lookup_of_floor_le {row : Nat × V} (h : floor m x = some row) (hx : row.1 + len row.2 ≤ x) :
    lookup len m x = none := by
  simp [lookup, h, hx]

/-- A point that is not found hides all points up to the next start. -/
theorem lookup_eq_none_of_le {e : Nat} (h : lookup len m e = none) (hex : e ≤ x)
    (hgap : ∀ k ∈ m, e < k → x < k) :
    lookup len m x = none := by
  cases hfloor : floor m x with
  | none => simp [lookup, hfloor]
  | some row =>
    obtain ⟨hget, hle, hmax⟩ := floor_spec hfloor
    have hrow : row.1 ∈ m := ExtTreeMap.mem_iff_isSome_getElem?.mpr (by simp [hget])
    have hrowe : row.1 ≤ e := by
      by_contra hlt
      exact absurd (hgap row.1 hrow (Nat.lt_of_not_le hlt)) (Nat.not_lt_of_le hle)
    have hfe : floor m e = some row :=
      floor_eq_some_iff.mpr ⟨hget, hrowe, fun k' hk' hle' => hmax k' hk' (Nat.le_trans hle' hex)⟩
    refine lookup_of_floor_le hfloor ?_
    by_contra hcovered
    rw [lookup_of_floor hfe (by omega)] at h
    cases h

/-- **Beyond the end of a change.**  Two tables agree from `e` on; in each of them a row starts at
`e`, or nothing reaches it.  Then every point from `e` on is found alike. -/
theorem lookup_eq_of_agree {e : Nat} (hagree : ∀ k ≥ e, m'[k]? = m[k]?)
    (h : e ∈ m ∨ lookup len m e = none) (h' : e ∈ m ∨ lookup len m' e = none) (hex : e ≤ x) :
    lookup len m' x = lookup len m x := by
  by_cases hstart : ∃ k ∈ m, e ≤ k ∧ k ≤ x
  · obtain ⟨k, hk, hek, hkx⟩ := hstart
    rw [lookup, lookup, floor_congr_from hk hek hkx hagree]
  · have hgap : ∀ k ∈ m, e ≤ k → x < k := fun k hk hek => by
      by_contra hkx
      exact hstart ⟨k, hk, hek, Nat.le_of_not_lt hkx⟩
    have hnot : e ∉ m := fun he => absurd (hgap e he (Nat.le_refl _)) (Nat.not_lt_of_le hex)
    rw [lookup_eq_none_of_le (h.resolve_left hnot) hex fun k hk hek => hgap k hk (Nat.le_of_lt hek),
      lookup_eq_none_of_le (h'.resolve_left hnot) hex fun k hk hek => ?_]
    refine hgap k ?_ (Nat.le_of_lt hek)
    rwa [ExtTreeMap.mem_iff_isSome_getElem?, ← hagree k (Nat.le_of_lt hek),
      ← ExtTreeMap.mem_iff_isSome_getElem?]

/-! ## 3. A new interval -/

/-- **When a new interval is found everywhere and takes nothing else away**: exactly when no row
starts inside it, and at its end another row starts or nothing was found. -/
theorem lookup_insert_iff (len : V → Nat) (m : ExtTreeMap Nat V compare) {n : Nat}
    (hlen : 0 < len v) (hn : k + len v < n) :
    (∀ x < n, lookup len (m.insert k v) x
        = if k ≤ x ∧ x < k + len v then some (k, v) else lookup len m x) ↔
      (∀ k' ∈ m, k < k' → k + len v ≤ k') ∧
        (k + len v ∈ m ∨ lookup len m (k + len v) = none) := by
  have hother : ∀ k', k ≠ k' → (m.insert k v)[k']? = m[k']? := fun k' hne => by
    rw [ExtTreeMap.getElem?_insert, if_neg fun he => hne (LawfulEqOrd.compare_eq_iff_eq.mp he)]
  -- What is found at the end when the new row is the nearest one there.
  have hend : (∀ k' ∈ m, k < k' → k + len v < k') →
      lookup len (m.insert k v) (k + len v) = none := by
    intro hnext
    rcases floor_insert m k v (k + len v) with ⟨-, hlt | ⟨k', hk', hkk', hle⟩⟩ | ⟨hnew, -, -⟩
    · omega
    · exact absurd (hnext k' hk' hkk') (Nat.not_lt_of_le hle)
    · exact lookup_of_floor_le hnew (Nat.le_refl _)
  constructor
  · intro h
    have hinside : ∀ k' ∈ m, k < k' → k + len v ≤ k' := by
      intro k' hk' hkk'
      by_contra hlt
      have hfound := h k' (by omega)
      rw [if_pos ⟨by omega, by omega⟩] at hfound
      obtain ⟨v', hv'⟩ := Option.isSome_iff_exists.mp (ExtTreeMap.mem_iff_isSome_getElem?.mp hk')
      have hfloor : floor (m.insert k v) k' = some (k', v') :=
        floor_self ((hother k' (by omega)).trans hv')
      have hrow : (k', v') = (k, v) := by
        rw [lookup, hfloor] at hfound
        exact (Option.filter_eq_some_iff.mp hfound).1 |> Option.some.inj
      exact absurd (congrArg Prod.fst hrow) (by omega)
    refine ⟨hinside, or_iff_not_imp_left.mpr fun hnot => ?_⟩
    have hlast := h (k + len v) hn
    rw [if_neg (by omega), hend fun k' hk' hkk' => ?_] at hlast
    · exact hlast.symm
    · exact Nat.lt_of_le_of_ne (hinside k' hk' hkk') fun he => hnot (he ▸ hk')
  · rintro ⟨hinside, hreach⟩ x hx
    by_cases hbelow : x < k
    · rw [if_neg (by omega), lookup, lookup, floor_congr fun k' hk' => hother k' (by omega)]
    · by_cases hin : x < k + len v
      · rw [if_pos ⟨by omega, hin⟩]
        refine lookup_of_floor ?_ hin
        rcases floor_insert m k v x with ⟨-, hlt | ⟨k', hk', hkk', hle⟩⟩ | ⟨hnew, -, -⟩
        · omega
        · exact absurd (hinside k' hk' hkk') (by omega)
        · exact hnew
      · rw [if_neg (by omega)]
        refine lookup_eq_of_agree (fun k' hk' => hother k' (by omega)) hreach ?_ (by omega)
        refine or_iff_not_imp_left.mpr fun hnot => hend fun k' hk' hkk' => ?_
        exact Nat.lt_of_le_of_ne (hinside k' hk' hkk') fun he => hnot (he ▸ hk')

/-- **The same for an interval that is laid out point by point.** -/
theorem lookup_tiles_iff {f : Nat → V} {a b n : Nat}
    (hm' : ∀ x, m'[x]? = if a ≤ x ∧ x < b then some (f x) else m[x]?) (hf : ∀ x, len (f x) = 1)
    (hab : a < b) (hn : b < n) :
    (∀ x < n, lookup len m' x
        = if a ≤ x ∧ x < b then some (x, f x) else lookup len m x) ↔
      b ∈ m ∨ lookup len m b = none := by
  have hagree : ∀ k ≥ b, m'[k]? = m[k]? := fun k hk => by rw [hm', if_neg (by omega)]
  have hend : b ∉ m → lookup len m' b = none := by
    intro hnot
    have hfloor : floor m' b = some (b - 1, f (b - 1)) := by
      refine floor_eq_some_iff.mpr ⟨?_, by omega, fun k' hk' hle => ?_⟩
      · rw [hm', if_pos ⟨by omega, by omega⟩]
      · by_contra hlt
        obtain rfl : k' = b := by omega
        rw [ExtTreeMap.mem_iff_isSome_getElem?, hagree k' (Nat.le_refl _),
          ← ExtTreeMap.mem_iff_isSome_getElem?] at hk'
        exact hnot hk'
    refine lookup_of_floor_le hfloor ?_
    simp only [hf]
    omega
  constructor
  · intro h
    refine or_iff_not_imp_left.mpr fun hnot => ?_
    have hlast := h b hn
    rw [if_neg (by omega), hend hnot] at hlast
    exact hlast.symm
  · intro hreach x hx
    by_cases hin : a ≤ x ∧ x < b
    · have hfloor : floor m' x = some (x, f x) := floor_self (by rw [hm', if_pos hin])
      rw [if_pos hin]
      refine lookup_of_floor hfloor ?_
      simp only [hf]
      omega
    · rw [if_neg hin]
      by_cases hbelow : x < a
      · rw [lookup, lookup, floor_congr fun k' hk' => ?_]
        rw [hm', if_neg (by omega)]
      · exact lookup_eq_of_agree hagree hreach (or_iff_not_imp_left.mpr hend) (by omega)

end IntervalTable
