/-
# Identifiers, maps and machine integers

The vocabulary the whole development shares (`blockyard-common`, `id.rs`).

* The UUID newtypes that `define_uuid_id!` declares are ONE parametrised type `Uid`, with one
  abbreviation per member.  Their `Display` text is the hyphenated lower-case hexadecimal
  form, because it ends up in error messages and in access-control keys; it determines the
  identifier (`Uid.text_injective`).
* `BTreeMap` and `HashMap` are both `Std.ExtTreeMap`: equality of two maps is equality of
  their contents, as it is for the Rust types.  What distinguishes a `HashMap` is that its
  iteration order is not determined by its contents; a scan over one takes an `IterOrder`.
* `u64` values are natural numbers.  Where an addition may overflow the model says so
  (`addU64`), in both ways the crate can be compiled.
-/
import Mathlib

open Std

namespace Blockyard

/-! ## 1. Identifiers -/

/-- The kinds of identifier `define_uuid_id!` is invoked for. -/
inductive IdKind
  | node | volume | extent | disk | session | operation
  deriving DecidableEq, Repr

/-- A UUID newtype. -/
structure Uid (k : IdKind) where
  uuid : BitVec 128
  deriving DecidableEq, Repr

abbrev NodeId := Uid .node
abbrev VolumeId := Uid .volume
abbrev ExtentId := Uid .extent
abbrev DiskId := Uid .disk
abbrev SessionId := Uid .session
abbrev OperationId := Uid .operation

/-- `EpochId`, the one `u64` newtype. -/
abbrev EpochId := Nat

/-- Identifiers are ordered as their texts are: the text is fixed-width hexadecimal, most
significant digit first. -/
instance (k : IdKind) : Ord (Uid k) := ⟨compareOn fun a => a.uuid.toNat⟩

instance (k : IdKind) : TransOrd (Uid k) :=
  inferInstanceAs (TransCmp (compareOn fun a : Uid k => a.uuid.toNat))

instance (k : IdKind) : LawfulEqOrd (Uid k) where
  eq_of_compare := by
    rintro ⟨a⟩ ⟨b⟩ h
    have hab : compare a.toNat b.toNat = .eq := h
    rw [LawfulEqOrd.compare_eq_iff_eq] at hab
    rw [BitVec.eq_of_toNat_eq hab]

/-- One lower-case hexadecimal digit. -/
def hexDigit (n : Nat) : Char :=
  if n < 10 then Char.ofNat (48 + n) else Char.ofNat (87 + n)

/-- The `width` lowest hexadecimal digits of `n`, most significant first. -/
def hexDigits (width n : Nat) : List Char :=
  (List.range width).reverse.map fun i => hexDigit (n / 16 ^ i % 16)

/-- `Display` of a UUID: groups of 8, 4, 4, 4 and 12 digits. -/
def Uid.text {k : IdKind} (u : Uid k) : String :=
  let d := hexDigits 32 u.uuid.toNat
  String.ofList (d.take 8 ++ '-' :: (d.drop 8).take 4 ++ '-' :: (d.drop 12).take 4
    ++ '-' :: (d.drop 16).take 4 ++ '-' :: d.drop 20)

instance (k : IdKind) : ToString (Uid k) := ⟨Uid.text⟩

example : toString (⟨0x1234567890abcdef1234567890abcdef#128⟩ : NodeId)
    = "12345678-90ab-cdef-1234-567890abcdef" := by decide

theorem hexDigits_succ (width n : Nat) :
    hexDigits (width + 1) n = hexDigit (n / 16 ^ width % 16) :: hexDigits width n := by
  simp only [hexDigits, List.range_succ, List.reverse_append, List.reverse_cons,
    List.reverse_nil, List.nil_append, List.cons_append, List.map_cons]

/-- The digits of a fixed width determine the number modulo `16 ^ width`. -/
theorem mod_eq_of_hexDigits_eq {width n m : Nat} (h : hexDigits width n = hexDigits width m) :
    n % 16 ^ width = m % 16 ^ width := by
  have hinj : ∀ i j : Fin 16, hexDigit i = hexDigit j → i = j := by decide
  induction width with
  | zero => simp [Nat.mod_one]
  | succ width ih =>
    rw [hexDigits_succ, hexDigits_succ, List.cons.injEq] at h
    have hdigit := hinj ⟨n / 16 ^ width % 16, Nat.mod_lt _ (by decide)⟩
      ⟨m / 16 ^ width % 16, Nat.mod_lt _ (by decide)⟩ h.1
    rw [pow_succ, Nat.mod_mul, Nat.mod_mul, ih h.2, Fin.mk.inj hdigit]

/-- A text without its hyphens is the digits. -/
theorem Uid.filter_text {k : IdKind} (u : Uid k) :
    u.text.toList.filter (· ≠ '-') = hexDigits 32 u.uuid.toNat := by
  have hne : ∀ i : Fin 16, hexDigit i ≠ '-' := by decide
  have hdigits : ∀ ch ∈ hexDigits 32 u.uuid.toNat, ch ≠ '-' := by
    intro ch hch
    obtain ⟨i, -, rfl⟩ := List.mem_map.mp hch
    exact hne ⟨_, Nat.mod_lt _ (by decide)⟩
  rw [Uid.text, String.toList_ofList]
  generalize hexDigits 32 u.uuid.toNat = digits at hdigits ⊢
  have hkeep : ∀ part : List Char, (∀ ch ∈ part, ch ∈ digits) →
      part.filter (· ≠ '-') = part := fun part hpart =>
    List.filter_eq_self.mpr fun ch hch => decide_eq_true (hdigits ch (hpart ch hch))
  have hjoin : ∀ n m, (digits.drop n).take m ++ digits.drop (n + m) = digits.drop n := by
    intro n m
    rw [← List.drop_drop, List.take_append_drop]
  have hmid : ∀ n m, ((digits.drop n).take m).filter (· ≠ '-') = (digits.drop n).take m :=
    fun n m => hkeep _ fun ch hch => List.mem_of_mem_drop (List.mem_of_mem_take hch)
  simp only [List.filter_append, List.filter_cons, hmid, hkeep _ fun _ => List.mem_of_mem_take,
    hkeep _ fun _ => List.mem_of_mem_drop, ne_eq, not_true_eq_false, decide_false,
    Bool.false_eq_true, if_false]
  rw [List.append_assoc, hjoin 16 4, List.append_assoc, hjoin 12 4, List.append_assoc, hjoin 8 4,
    List.take_append_drop]

/-- **The text of an identifier determines it.** -/
theorem Uid.text_injective {k : IdKind} : Function.Injective (Uid.text (k := k)) := by
  rintro ⟨a⟩ ⟨b⟩ h
  have hdigits : hexDigits 32 a.toNat = hexDigits 32 b.toNat := by
    rw [← Uid.filter_text (k := k) ⟨a⟩, h, Uid.filter_text]
  have hmod := mod_eq_of_hexDigits_eq hdigits
  have hpow : (16 : Nat) ^ 32 = 2 ^ 128 := by decide
  rw [hpow, Nat.mod_eq_of_lt a.isLt, Nat.mod_eq_of_lt b.isLt] at hmod
  rw [BitVec.eq_of_toNat_eq hmod]

/-! ## 2. Maps -/

abbrev BTreeMap (K V : Type) [Ord K] := ExtTreeMap K V compare
abbrev HashMap (K V : Type) [Ord K] := ExtTreeMap K V compare

section Maps

variable {K V : Type} [Ord K] [TransOrd K] {m : HashMap K V} {k : K} {v : V}

/-- `BTreeMap::values`: the values, in the order of their keys. -/
def mapValues (m : BTreeMap K V) : List V := m.toList.map Prod.snd

theorem mem_mapValues [LawfulEqOrd K] : v ∈ mapValues m ↔ ∃ k : K, m[k]? = some v := by
  simp only [mapValues, List.mem_map, Prod.exists, ExtTreeMap.mem_toList_iff_getElem?_eq_some,
    exists_eq_right]

theorem mem_of_getElem? (h : m[k]? = some v) : k ∈ m := by
  rw [ExtTreeMap.mem_iff_isSome_getElem?, h]
  rfl

theorem exists_getElem?_of_mem (h : k ∈ m) : ∃ v, m[k]? = some v :=
  Option.isSome_iff_exists.mp (ExtTreeMap.mem_iff_isSome_getElem?.mp h)

theorem getElem?_insert_of_ne [LawfulEqOrd K] (m : HashMap K V) {k k' : K} (h : k ≠ k') (v : V) :
    (m.insert k v)[k']? = m[k']? := by
  rw [ExtTreeMap.getElem?_insert, if_neg (fun e => h (LawfulEqOrd.compare_eq_iff_eq.mp e))]

theorem insert_of_getElem? [LawfulEqOrd K] (h : m[k]? = some v) : m.insert k v = m := by
  refine ExtTreeMap.ext_getElem? fun k' => ?_
  by_cases hk : k = k'
  · rw [← hk, ExtTreeMap.getElem?_insert_self, h]
  · exact getElem?_insert_of_ne _ hk _

/-- An iteration order of a hash map: what a scan of the map does to its list of keys.  Every
key is visited once; the order is free, and may differ from one scan to the next. -/
structure IterOrder (K : Type) where
  arrange : List K → List K
  perm : ∀ ks, (arrange ks).Perm ks

def IterOrder.keys (o : IterOrder K) (m : HashMap K V) : List K := o.arrange m.keys

@[simp] theorem IterOrder.mem_keys [LawfulEqOrd K] (o : IterOrder K) (m : HashMap K V) (k : K) :
    k ∈ o.keys m ↔ k ∈ m := by
  rw [IterOrder.keys, (o.perm _).mem_iff, ExtTreeMap.mem_keys]

end Maps

def IterOrder.sorted (K : Type) : IterOrder K := ⟨id, fun _ => List.Perm.refl _⟩

/-- The order that visits `k` first, when it is there. -/
def IterOrder.first {K : Type} [DecidableEq K] (k : K) : IterOrder K where
  arrange ks := if k ∈ ks then k :: ks.erase k else ks
  perm ks := by
    by_cases h : k ∈ ks
    · rw [if_pos h]; exact (List.perm_cons_erase h).symm
    · rw [if_neg h]

/-- The order that visits `k` last, when it is there. -/
def IterOrder.lastly {K : Type} [DecidableEq K] (k : K) : IterOrder K where
  arrange ks := if k ∈ ks then ks.erase k ++ [k] else ks
  perm ks := by
    by_cases h : k ∈ ks
    · rw [if_pos h]
      exact (List.perm_append_singleton k _).trans (List.perm_cons_erase h).symm
    · rw [if_neg h]

theorem IterOrder.arrange_lastly {K : Type} [DecidableEq K] {k : K} {ks : List K} (h : k ∈ ks) :
    (IterOrder.lastly k).arrange ks = ks.erase k ++ [k] := if_pos h

/-! ## 3. `u64` arithmetic -/

/-- What the compiled crate does when a `u64` addition overflows: a release build wraps, a
build with overflow checks panics. -/
inductive Overflow
  | wrapping | checked
  deriving DecidableEq, Repr

/-- The largest `u64`. -/
def u64Max : Nat := 2 ^ 64 - 1

/-- `a + b` on `u64`; `none` is the overflow panic. -/
def addU64 (ovf : Overflow) (a b : Nat) : Option Nat :=
  if a + b < 2 ^ 64 then some (a + b)
  else match ovf with
    | .wrapping => some ((a + b) % 2 ^ 64)
    | .checked => none

/-- `a - b` on `u64`; `none` is the overflow panic. -/
def subU64 (ovf : Overflow) (a b : Nat) : Option Nat :=
  if b ≤ a then some (a - b)
  else match ovf with
    | .wrapping => some (2 ^ 64 + a - b)
    | .checked => none

/-- `a * b` on `u64`; `none` is the overflow panic. -/
def mulU64 (ovf : Overflow) (a b : Nat) : Option Nat :=
  if a * b < 2 ^ 64 then some (a * b)
  else match ovf with
    | .wrapping => some (a * b % 2 ^ 64)
    | .checked => none

def saturatingAdd (a b : Nat) : Nat := min (a + b) u64Max

variable {ovf : Overflow} {a b c : Nat}

theorem addU64_of_lt (ovf : Overflow) (h : a + b < 2 ^ 64) :
    addU64 ovf a b = some (a + b) := if_pos h

theorem mulU64_of_lt (ovf : Overflow) (h : a * b < 2 ^ 64) :
    mulU64 ovf a b = some (a * b) := if_pos h

theorem mulU64_lt (h : mulU64 ovf a b = some c) : c < 2 ^ 64 := by
  unfold mulU64 at h
  split at h
  case isTrue hlt =>
    cases h
    exact hlt
  case isFalse =>
    cases ovf with
    | checked => cases h
    | wrapping =>
      cases h
      exact Nat.mod_lt _ (by norm_num)

theorem addU64_le (h : addU64 ovf a b = some c) : c ≤ a + b := by
  unfold addU64 at h
  split at h
  · cases h
    exact Nat.le_refl _
  · cases ovf with
    | checked => cases h
    | wrapping =>
      cases h
      exact Nat.mod_le _ _

/-- A sum is computed unless it overflows in a build that checks. -/
theorem addU64_ne_none_iff (ovf : Overflow) (a b : Nat) :
    addU64 ovf a b ≠ none ↔ ovf = .wrapping ∨ a + b < 2 ^ 64 := by
  unfold addU64
  by_cases hlt : a + b < 2 ^ 64
  · rw [if_pos hlt]
    exact ⟨fun _ => Or.inr hlt, fun _ => Option.some_ne_none _⟩
  · rw [if_neg hlt, or_iff_left hlt]
    cases ovf <;> simp

/-- A sum of two `u64` that wraps is less than either. -/
theorem addU64_lt_of_overflow (ha : a < 2 ^ 64) (hb : b < 2 ^ 64) (hover : ¬ a + b < 2 ^ 64)
    (h : addU64 ovf a b = some c) : c < a := by
  unfold addU64 at h
  rw [if_neg hover] at h
  cases ovf with
  | checked => cases h
  | wrapping =>
    cases h
    omega

end Blockyard
