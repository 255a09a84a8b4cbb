/-
# Block devices

A block device gives every block number its contents.  A write replaces the contents of
consecutive blocks by the slices of its data, a read concatenates the contents of consecutive
blocks.  What is proved is how writes COMPOSE (`write_append`: writing a concatenation is
writing its parts one behind the other; `write_comm`: apart, the order does not matter), which
blocks they leave alone (`write_of_lt`, `write_of_le`), and what a block holds after a sequence of
writes of which only one touches it (`writeAll_of_unique`).

Nothing here knows where a device keeps its blocks.
-/
import Mathlib

namespace BlockDevice

variable {α : Type*} (blockSize : Nat)

def slice (data : List α) (i : Nat) : List α := (data.drop (i * blockSize)).take blockSize

def write (dev : Nat → List α) (start : Nat) (data : List α) : Nat → List α := fun b =>
  if start ≤ b ∧ b < start + data.length / blockSize then slice blockSize data (b - start)
  else dev b

def read (dev : Nat → List α) (start count : Nat) : List α :=
  (List.range' start count).flatMap dev

def writeAll (dev : Nat → List α) (writes : List (Nat × List α)) : Nat → List α :=
  writes.foldl (fun dev w => write blockSize dev w.1 w.2) dev

/-- A write replaces the contents of a block. -/
def Replaces (w : Nat × List α) (b : Nat) : Prop :=
  w.1 ≤ b ∧ b < w.1 + w.2.length / blockSize

variable {blockSize} {dev dev' : Nat → List α} {start count b : Nat} {data data' : List α}
  {w : Nat × List α} {ws : List (Nat × List α)}

theorem slice_eq_iff {other : List α} {i : Nat} :
    slice blockSize data i = slice blockSize other i ↔
      ∀ j, i * blockSize ≤ j → j < (i + 1) * blockSize → data[j]? = other[j]? := by
  have hend : (i + 1) * blockSize = i * blockSize + blockSize := by rw [Nat.add_mul, Nat.one_mul]
  constructor
  · intro h j hge hlt
    have hj := congrArg (fun l : List α => l[j - i * blockSize]?) h
    simp only [slice] at hj
    rwa [List.getElem?_take_of_lt (by omega), List.getElem?_take_of_lt (by omega),
      List.getElem?_drop, List.getElem?_drop, Nat.add_sub_cancel' hge] at hj
  · intro h
    apply List.ext_getElem?
    intro t
    simp only [slice, List.getElem?_take, List.getElem?_drop]
    split
    · exact h _ (by omega) (by omega)
    · rfl

theorem write_of_lt (h : b < start) : write blockSize dev start data b = dev b :=
  if_neg fun hb => Nat.not_le.mpr h hb.1

theorem write_congr (h : dev b = dev' b) :
    write blockSize dev start data b = write blockSize dev' start data b := by
  simp only [write, h]

section Whole

variable (hpos : 0 < blockSize)

include hpos

theorem write_of_le (hdata : data.length = count * blockSize) (h : start + count ≤ b) :
    write blockSize dev start data b = dev b := by
  refine if_neg fun hb => ?_
  rw [hdata, Nat.mul_div_cancel _ hpos] at hb
  omega

theorem write_inside (hdata : data.length = count * blockSize) (h : start ≤ b)
    (h' : b < start + count) :
    write blockSize dev start data b = slice blockSize data (b - start) := by
  refine if_pos ⟨h, ?_⟩
  rwa [hdata, Nat.mul_div_cancel _ hpos]

/-- **Writing a concatenation** of whole blocks is writing its parts one behind the other. -/
theorem write_append {front back : List α} (hfront : front.length = count * blockSize) :
    write blockSize dev start (front ++ back)
      = write blockSize (write blockSize dev start front) (start + count) back := by
  have hlen : (front ++ back).length / blockSize = count + back.length / blockSize := by
    rw [List.length_append, hfront, Nat.add_comm, Nat.add_mul_div_right _ _ hpos, Nat.add_comm]
  funext b
  by_cases hfirst : b < start + count
  · -- in front of the second part
    rw [write_of_lt hfirst]
    by_cases hb : start ≤ b
    · rw [write_inside hpos hfront hb hfirst]
      have hin : b < start + (front ++ back).length / blockSize :=
        Nat.lt_of_lt_of_le hfirst (Nat.add_le_add_left (hlen ▸ Nat.le_add_right _ _) _)
      refine (if_pos ⟨hb, hin⟩).trans ?_
      have hi : (b - start + 1) * blockSize ≤ front.length := by
        rw [hfront]
        exact Nat.mul_le_mul_right _ (by omega)
      rw [Nat.add_mul, Nat.one_mul] at hi
      rw [slice, slice, List.drop_append_of_le_length (by omega),
        List.take_append_of_le_length (by rw [List.length_drop]; omega)]
    · rw [write_of_lt (Nat.not_le.mp hb), write_of_lt (Nat.not_le.mp hb)]
  · have hge : start + count ≤ b := Nat.not_lt.mp hfirst
    by_cases hb : b < start + count + back.length / blockSize
    · refine (if_pos ⟨by omega, by omega⟩).trans (Eq.trans ?_ (if_pos ⟨hge, hb⟩).symm)
      have hi : (b - start) * blockSize = front.length + (b - (start + count)) * blockSize := by
        rw [hfront, ← Nat.add_mul]
        congr 1
        omega
      rw [slice, slice, hi, List.drop_append, List.drop_eq_nil_of_le (Nat.le_add_right _ _),
        Nat.add_sub_cancel_left, List.nil_append]
    · refine (if_neg (by omega)).trans (Eq.trans ?_ (if_neg (by omega)).symm)
      exact (write_of_le hpos hfront hge).symm

theorem write_comm {start' : Nat} (hdata : data.length = count * blockSize)
    (hapart : start + count ≤ start') :
    write blockSize (write blockSize dev start data) start' data'
      = write blockSize (write blockSize dev start' data') start data := by
  funext b
  by_cases hb : b < start'
  · rw [write_of_lt hb]
    exact write_congr (write_of_lt hb).symm
  · have hge : start + count ≤ b := hapart.trans (Nat.not_lt.mp hb)
    rw [write_of_le hpos hdata hge]
    exact write_congr (write_of_le hpos hdata hge)

theorem write_injective (hdata : data.length = count * blockSize)
    (hdata' : data'.length = count * blockSize)
    (h : write blockSize dev start data = write blockSize dev start data') : data = data' := by
  apply List.ext_getElem?
  intro j
  by_cases hj : j < count * blockSize
  · have hi : j / blockSize < count := Nat.div_lt_of_lt_mul (by rwa [Nat.mul_comm])
    have hslice := congrFun h (start + j / blockSize)
    rw [write_inside hpos hdata (Nat.le_add_right _ _) (by omega),
      write_inside hpos hdata' (Nat.le_add_right _ _) (by omega), Nat.add_sub_cancel_left] at hslice
    exact slice_eq_iff.mp hslice j (Nat.div_mul_le_self j blockSize)
      (Nat.lt_mul_of_div_lt (Nat.lt_succ_self _) hpos)
  · rw [List.getElem?_eq_none (by omega), List.getElem?_eq_none (by omega)]

end Whole

@[simp] theorem write_nil : write blockSize dev start [] = dev := by
  funext b
  refine if_neg ?_
  rw [List.length_nil, Nat.zero_div]
  omega

/-! ## Sequences of writes -/

@[simp] theorem writeAll_nil : writeAll blockSize dev [] = dev := rfl

theorem writeAll_append {ws ws' : List (Nat × List α)} :
    writeAll blockSize dev (ws ++ ws') = writeAll blockSize (writeAll blockSize dev ws) ws' :=
  List.foldl_append

theorem writeAll_snoc :
    writeAll blockSize dev (ws ++ [w]) = write blockSize (writeAll blockSize dev ws) w.1 w.2 :=
  writeAll_append

theorem write_of_not_replaces (h : ¬ Replaces blockSize w b) :
    write blockSize dev w.1 w.2 b = dev b := if_neg h

theorem write_of_replaces (h : Replaces blockSize w b) :
    write blockSize dev w.1 w.2 b = write blockSize dev' w.1 w.2 b :=
  (if_pos h).trans (if_pos h).symm

theorem writeAll_of_not_replaces (h : ∀ w ∈ ws, ¬ Replaces blockSize w b) :
    writeAll blockSize dev ws b = dev b := by
  induction ws using List.reverseRecOn with
  | nil => rfl
  | append_singleton ws w ih =>
    rw [writeAll_snoc, write_of_not_replaces (h w (by simp))]
    exact ih fun w' hw' => h w' (by simp [hw'])

/-- **Only one write counts.**  When no other write of a sequence touches a block, the block ends
up as that write leaves it. -/
theorem writeAll_of_unique (hmem : w ∈ ws) (honly : ∀ w' ∈ ws, Replaces blockSize w' b → w' = w) :
    writeAll blockSize dev ws b = write blockSize dev w.1 w.2 b := by
  by_cases hw : Replaces blockSize w b
  · induction ws using List.reverseRecOn with
    | nil => cases hmem
    | append_singleton ws last ih =>
      rw [writeAll_snoc]
      by_cases hlast : Replaces blockSize last b
      · rw [honly last (by simp) hlast]
        exact write_of_replaces hw
      · -- `w` comes before the last write, which leaves the block alone
        rw [write_of_not_replaces hlast]
        have hmem' : w ∈ ws := by
          rcases List.mem_append.mp hmem with h | h
          · exact h
          · exact absurd (List.mem_singleton.mp h ▸ hw) hlast
        exact ih hmem' fun w' hw' => honly w' (by simp [hw'])
  · rw [write_of_not_replaces hw]
    exact writeAll_of_not_replaces fun w' hw' hrep => hw (honly w' hw' hrep ▸ hrep)

end BlockDevice
