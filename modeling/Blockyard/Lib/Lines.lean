/-
# Lines and an unfinished last line

A text is its lines, each ended by a terminator, and what stands behind the last terminator.
`split` finds them, `join` puts them back; a text put together from lines without terminators
splits into these lines (`split_join`).
-/
import Mathlib

namespace Lines

variable {α : Type}

def join (d : α) (lines : List (List α)) (tail : List α) : List α :=
  (lines.map (· ++ [d])).flatten ++ tail

theorem join_snoc (d : α) (lines : List (List α)) (tail more : List α) :
    join d lines tail ++ (more ++ [d]) = join d (lines ++ [tail ++ more]) [] := by
  simp [join]

theorem join_tail (d : α) (lines : List (List α)) (tail more : List α) :
    join d lines tail ++ more = join d lines (tail ++ more) := by
  simp [join]

variable [DecidableEq α]

/-- The finished lines of a text and the unfinished rest. -/
def split (d : α) : List α → List (List α) × List α
  | [] => ([], [])
  | b :: text =>
    if b = d then ([] :: (split d text).1, (split d text).2)
    else match split d text with
      | ([], tail) => ([], b :: tail)
      | (line :: lines, tail) => ((b :: line) :: lines, tail)

theorem split_tail {d : α} {tail : List α} (h : d ∉ tail) : split d tail = ([], tail) := by
  induction tail with
  | nil => rfl
  | cons b tail ih =>
    rw [List.mem_cons, not_or] at h
    rw [split, if_neg (Ne.symm h.1), ih h.2]

theorem split_line {d : α} {line : List α} (h : d ∉ line) (text : List α) :
    split d (line ++ d :: text) = (line :: (split d text).1, (split d text).2) := by
  induction line with
  | nil => simp [split]
  | cons b line ih =>
    rw [List.mem_cons, not_or] at h
    rw [List.cons_append, split, if_neg (Ne.symm h.1), ih h.2]

/-- **A text splits into the lines it was put together from.** -/
theorem split_join {d : α} {lines : List (List α)} {tail : List α} (hlines : ∀ l ∈ lines, d ∉ l)
    (htail : d ∉ tail) : split d (join d lines tail) = (lines, tail) := by
  induction lines with
  | nil => exact split_tail htail
  | cons line lines ih =>
    have htext : join d (line :: lines) tail = line ++ d :: join d lines tail := by simp [join]
    rw [htext, split_line (hlines line (by simp)), ih fun l hl => hlines l (by simp [hl])]

end Lines
