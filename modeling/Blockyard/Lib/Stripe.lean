/-
# Stripes

A string is cut into `k` pieces of one size; the last pieces are filled up.  Two facts carry
everything that is done with such pieces: laid out in a row they are the string and the filling
(`flatten_cut`), and in ANY row of pieces of one size an entry is found by division
(`getElem?_flatten`).  The second does not ask where the pieces come from, so it also speaks of
rows whose pieces come from different strings.
-/
import Mathlib

namespace Stripe

variable {α : Type*}

/-! ## 1. Rows of pieces of one size -/

section Rows

variable {f : Nat} {pieces : List (List α)}

theorem length_flatten (h : ∀ p ∈ pieces, p.length = f) :
    pieces.flatten.length = pieces.length * f := by
  induction pieces with
  | nil => simp
  | cons p pieces ih =>
    have hp : p.length = f := h p (by simp)
    have hrest : pieces.flatten.length = pieces.length * f := ih fun q hq => h q (by simp [hq])
    simp [hp, hrest, Nat.add_mul, Nat.add_comm]

/-- **An entry of the row** is an entry of the piece its position falls into. -/
theorem getElem?_flatten (hf : 0 < f) (h : ∀ p ∈ pieces, p.length = f) (j : Nat) :
    pieces.flatten[j]? = (pieces[j / f]?).bind fun p => p[j % f]? := by
  induction pieces generalizing j with
  | nil => simp
  | cons p pieces ih =>
    have hp : p.length = f := h p (by simp)
    rw [List.flatten_cons]
    by_cases hj : j < f
    · rw [List.getElem?_append_left (by omega), Nat.div_eq_of_lt hj, Nat.mod_eq_of_lt hj]
      rfl
    · have hdiv : j / f = (j - f) / f + 1 := Nat.div_eq_sub_div hf (by omega)
      have hmod : j % f = (j - f) % f := Nat.mod_eq_sub_mod (by omega)
      rw [List.getElem?_append_right (by omega), hp, ih (fun q hq => h q (by simp [hq])), hdiv,
        hmod, List.getElem?_cons_succ]

end Rows

/-! ## 2. Cutting -/

/-- The size of each of `k` pieces of a string of length `n`: the quotient, rounded up. -/
def pieceSize (n k : Nat) : Nat := (n + k - 1) / k

/-- The `i`-th piece of size `f`. -/
def piece (pad : α) (f : Nat) (data : List α) (i : Nat) : List α :=
  let part := (data.drop (i * f)).take f
  part ++ List.replicate (f - part.length) pad

/-- The first `k` pieces of size `f`. -/
def cut (pad : α) (k f : Nat) (data : List α) : List (List α) :=
  (List.range k).map (piece pad f data)

variable {pad : α} {k f n : Nat} {data : List α}

theorem le_mul_pieceSize (hk : 0 < k) : n ≤ k * pieceSize n k := by
  have hdiv := Nat.div_add_mod (n + k - 1) k
  have hmod := Nat.mod_lt (n + k - 1) hk
  unfold pieceSize
  omega

theorem div_pieceSize_lt (hk : 0 < k) {j : Nat} (hj : j < n) : j / pieceSize n k < k := by
  refine Nat.div_lt_of_lt_mul (Nat.lt_of_lt_of_le hj ?_)
  rw [Nat.mul_comm]
  exact le_mul_pieceSize hk

theorem pieceSize_pos (hk : 0 < k) (hn : 0 < n) : 0 < pieceSize n k :=
  Nat.div_pos (by omega) hk

@[simp] theorem length_cut : (cut pad k f data).length = k := by simp [cut]

@[simp] theorem length_piece (i : Nat) : (piece pad f data i).length = f := by
  simp only [piece, List.length_append, List.length_replicate, List.length_take]
  omega

theorem length_of_mem_cut {p : List α} (h : p ∈ cut pad k f data) : p.length = f := by
  obtain ⟨i, -, rfl⟩ := List.mem_map.mp h
  exact length_piece i

theorem getElem?_cut {i : Nat} (h : i < k) :
    (cut pad k f data)[i]? = some (piece pad f data i) := by
  simp [cut, h]

/-- An entry of a piece: one of the string, or filling. -/
theorem getElem?_piece {i t : Nat} (h : t < f) :
    (piece pad f data i)[t]? = some ((data[i * f + t]?).getD pad) := by
  unfold piece
  by_cases hin : i * f + t < data.length
  · have hpart : t < ((data.drop (i * f)).take f).length := by
      simp only [List.length_take, List.length_drop]
      omega
    rw [List.getElem?_append_left hpart, List.getElem?_take_of_lt h, List.getElem?_drop,
      List.getElem?_eq_getElem hin, Option.getD_some]
  · have hpart : ((data.drop (i * f)).take f).length ≤ t := by
      simp only [List.length_take, List.length_drop]
      omega
    rw [List.getElem?_append_right hpart, List.getElem?_eq_none (Nat.not_lt.mp hin),
      Option.getD_none, List.getElem?_replicate, if_pos (by omega)]

/-- **The pieces in a row** are the string and the filling. -/
theorem flatten_cut (hf : 0 < f) (hfit : data.length ≤ k * f) :
    (cut pad k f data).flatten = data ++ List.replicate (k * f - data.length) pad := by
  have hlen : (cut pad k f data).flatten.length = k * f := by
    rw [length_flatten fun _ => length_of_mem_cut, length_cut]
  apply List.ext_getElem?
  intro j
  by_cases hj : j < k * f
  · have hpiece : j / f < k := Nat.div_lt_of_lt_mul (by rwa [Nat.mul_comm])
    have hpos : j / f * f + j % f = j := by rw [Nat.mul_comm]; exact Nat.div_add_mod j f
    rw [getElem?_flatten hf fun _ => length_of_mem_cut, getElem?_cut hpiece, Option.bind_some,
      getElem?_piece (Nat.mod_lt j hf), hpos]
    by_cases hin : j < data.length
    · rw [List.getElem?_append_left hin, List.getElem?_eq_getElem hin, Option.getD_some]
    · rw [List.getElem?_append_right (by omega), List.getElem?_eq_none (by omega),
        Option.getD_none, List.getElem?_replicate, if_pos (by omega)]
  · rw [List.getElem?_eq_none (by omega), List.getElem?_eq_none]
    simp only [List.length_append, List.length_replicate]
    omega

end Stripe
