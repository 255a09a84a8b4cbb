/-
# Tables ordered by key

An ordered table is read by RANGES of keys: the rows between two bounds, each of them absent,
included or excluded, in the order of their keys (`rows`).  A range is also how rows are
removed: collect the keys of the range, then take them out one by one (`clear`), which is the
same as keeping what is outside the range (`clear_eq_filter`).

§3 is what a table that stores ENCODED values needs: inserting, clearing, reading a range and
reading the last row all commute with a map over the values.
-/
import Mathlib

open Std

namespace OrderedTable

/-! ## 1. Ranges of keys -/

inductive Bound (K : Type)
  | unbounded
  | included (k : K)
  | excluded (k : K)
  deriving DecidableEq, Repr

structure Range (K : Type) where
  start : Bound K
  stop : Bound K
  deriving DecidableEq, Repr

section

variable {K : Type} [Ord K]

def Range.contains (r : Range K) (k : K) : Bool :=
  (match r.start with
    | .unbounded => true
    | .included a => (compare a k).isLE
    | .excluded a => (compare a k).isLT) &&
  (match r.stop with
    | .unbounded => true
    | .included b => (compare k b).isLE
    | .excluded b => (compare k b).isLT)

/-- The start of the range lies after its end. -/
def Range.inverted (r : Range K) : Bool :=
  match r.start, r.stop with
  | .included a, .included b | .included a, .excluded b | .excluded a, .included b
  | .excluded a, .excluded b => (compare a b).isGT
  | _, _ => false

/-- The range excludes both of two equal ends. -/
def Range.hollow (r : Range K) : Bool :=
  match r.start, r.stop with
  | .excluded a, .excluded b => (compare a b).isEq
  | _, _ => false

/-- All keys from `k` on. -/
def Range.from (k : K) : Range K := ⟨.included k, .unbounded⟩

/-- All keys up to `k`. -/
def Range.upTo (k : K) : Range K := ⟨.unbounded, .included k⟩

end

/-! ## 2. Reading and clearing a range -/

variable {K V W : Type} [Ord K] [TransOrd K] [LawfulEqOrd K] {m : ExtTreeMap K V compare}

def rows (m : ExtTreeMap K V compare) (r : Range K) : List (K × V) :=
  m.toList.filter fun row => r.contains row.1

def lastRow (m : ExtTreeMap K V compare) : Option (K × V) := m.toList.getLast?

def clear (m : ExtTreeMap K V compare) (r : Range K) : ExtTreeMap K V compare :=
  ((rows m r).map Prod.fst).foldl (fun m k => m.erase k) m

theorem getElem?_of_lastRow {row : K × V} (h : lastRow m = some row) : m[row.1]? = some row.2 :=
  ExtTreeMap.mem_toList_iff_getElem?_eq_some.mp (List.mem_of_getLast? h)

omit [LawfulEqOrd K] in
theorem lastRow_eq_none_iff : lastRow m = none ↔ m = ∅ := by
  rw [lastRow, List.getLast?_eq_none_iff, ExtTreeMap.toList_eq_nil_iff]

theorem getElem?_foldl_erase [DecidableEq K] (ks : List K) (m : ExtTreeMap K V compare) (k : K) :
    (ks.foldl (fun m k => m.erase k) m)[k]? = if k ∈ ks then none else m[k]? := by
  induction ks generalizing m with
  | nil => simp
  | cons k' ks ih =>
    rw [List.foldl_cons, ih, ExtTreeMap.getElem?_erase]
    simp only [LawfulEqOrd.compare_eq_iff_eq, List.mem_cons]
    by_cases hk : k' = k
    · simp [hk]
    · simp [hk, Ne.symm hk]

theorem mem_keys_rows {r : Range K} {k : K} :
    k ∈ (rows m r).map Prod.fst ↔ k ∈ m ∧ r.contains k = true := by
  simp only [rows, List.mem_map, List.mem_filter, Prod.exists, exists_and_right, exists_eq_right,
    ExtTreeMap.mem_toList_iff_getElem?_eq_some, ExtTreeMap.mem_iff_isSome_getElem?,
    Option.isSome_iff_exists]

/-- **Clearing a range keeps what is outside it.** -/
theorem clear_eq_filter (m : ExtTreeMap K V compare) (r : Range K) :
    clear m r = m.filter fun k _ => !r.contains k := by
  classical
  refine ExtTreeMap.ext_getElem? fun k => ?_
  rw [clear, getElem?_foldl_erase, ExtTreeMap.getElem?_filter']
  cases hk : m[k]? with
  | none => simp
  | some v =>
    have hmem : k ∈ m := by
      rw [ExtTreeMap.mem_iff_isSome_getElem?, hk]
      rfl
    by_cases hin : r.contains k = true
    · rw [if_pos (mem_keys_rows.mpr ⟨hmem, hin⟩)]
      simp [Option.filter, hin]
    · rw [if_neg fun h => hin (mem_keys_rows.mp h).2]
      simp [Option.filter, hin]

theorem getElem?_clear {r : Range K} {k : K} {v : V} :
    (clear m r)[k]? = some v ↔ m[k]? = some v ∧ r.contains k = false := by
  rw [clear_eq_filter, ExtTreeMap.getElem?_filter', Option.filter_eq_some_iff]
  simp

/-! ## 3. Tables of encoded values -/

variable (f : V → W) (m : ExtTreeMap K V compare)

def encoded : ExtTreeMap K W compare :=
  m.map fun _ v => f v

@[simp] theorem encoded_empty :
    encoded f (∅ : ExtTreeMap K V compare) = ∅ := by
  refine ExtTreeMap.ext_getElem? fun k => ?_
  simp [encoded]

theorem encoded_insert (k : K) (v : V) :
    encoded f (m.insert k v) = (encoded f m).insert k (f v) := by
  refine ExtTreeMap.ext_getElem? fun k' => ?_
  simp only [encoded, ExtTreeMap.getElem?_map, ExtTreeMap.getElem?_insert]
  split <;> rfl

omit [LawfulEqOrd K] in
theorem toList_encoded :
    (encoded f m).toList = m.toList.map fun row => (row.1, f row.2) :=
  ExtTreeMap.toList_map

omit [LawfulEqOrd K] in
/-- **A range of the encoded table is the range, encoded.** -/
theorem rows_encoded (r : Range K) :
    rows (encoded f m) r = (rows m r).map fun row => (row.1, f row.2) := by
  rw [rows, rows, toList_encoded, List.filter_map]
  rfl

omit [LawfulEqOrd K] in
theorem lastRow_encoded :
    lastRow (encoded f m) = (lastRow m).map fun row => (row.1, f row.2) := by
  rw [lastRow, lastRow, toList_encoded, List.getLast?_map]

/-- **Clearing a range of the encoded table clears it, encoded.** -/
theorem clear_encoded (r : Range K) :
    clear (encoded f m) r = encoded f (clear m r) := by
  refine ExtTreeMap.ext_getElem? fun k => ?_
  simp only [clear_eq_filter, encoded, ExtTreeMap.getElem?_filter', ExtTreeMap.getElem?_map]
  cases m[k]? with
  | none => rfl
  | some v => by_cases hin : r.contains k <;> simp [Option.filter, hin]

end OrderedTable
