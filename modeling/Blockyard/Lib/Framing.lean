/-
# Length-prefixed frames

A frame is the length of a payload, in four bytes with the highest first, and the payload.  A
reader takes the length, turns down what is over its limit, and waits for that many bytes.

The length is written as a 32-bit number, so the length of a payload of `2^32` bytes or more is
CUT, and the reader takes the beginning of such a payload for the whole.  `readFrame_take_frame`
is what a reader gets of a stream that ends anywhere; `received_iff` is the same for a text format
whose torn texts are no texts: a value comes out exactly when its text is within the limit and
arrives to the end.
-/
import Mathlib

namespace Framing

/-! ## 1. Frames -/

/-- A 32-bit number in four bytes, the highest first. -/
def be32 (n : Nat) : List UInt8 :=
  [UInt8.ofNat (n / 2 ^ 24), UInt8.ofNat (n / 2 ^ 16), UInt8.ofNat (n / 2 ^ 8), UInt8.ofNat n]

/-- The number of four bytes. -/
def ofBe32 (a b c d : UInt8) : Nat :=
  ((a.toNat * 2 ^ 8 + b.toNat) * 2 ^ 8 + c.toNat) * 2 ^ 8 + d.toNat

def frame (payload : List UInt8) : List UInt8 := be32 payload.length ++ payload

inductive ReadError
  | unexpectedEof
  | tooLarge (length : Nat)
  deriving DecidableEq, Repr

/-- Read one frame off a stream that ends. -/
def readFrame (limit : Nat) : List UInt8 → Except ReadError (List UInt8)
  | a :: b :: c :: d :: rest =>
    let length := ofBe32 a b c d
    if length > limit then .error (.tooLarge length)
    else if rest.length < length then .error .unexpectedEof
    else .ok (rest.take length)
  | _ => .error .unexpectedEof

/-! ## 2. What arrives -/

theorem ofBe32_be32 (n : Nat) :
    ofBe32 (UInt8.ofNat (n / 2 ^ 24)) (UInt8.ofNat (n / 2 ^ 16)) (UInt8.ofNat (n / 2 ^ 8))
      (UInt8.ofNat n) = n % 2 ^ 32 := by
  simp only [ofBe32, UInt8.toNat_ofNat']
  omega

/-- **What is read of a frame that is cut off anywhere.** -/
theorem readFrame_take_frame {limit n : Nat} {payload bytes : List UInt8} :
    readFrame limit ((frame payload).take n) = .ok bytes ↔
      payload.length % 2 ^ 32 ≤ limit ∧ 4 + payload.length % 2 ^ 32 ≤ n ∧
        bytes = payload.take (payload.length % 2 ^ 32) := by
  have hmod : payload.length % 2 ^ 32 ≤ payload.length := Nat.mod_le _ _
  rcases Nat.lt_or_ge n 4 with hn | hn
  · -- not even the length arrives
    have herr : readFrame limit ((frame payload).take n) = .error .unexpectedEof := by
      interval_cases n <;> rfl
    rw [herr]
    constructor
    · intro h
      cases h
    · omega
  · obtain ⟨n, rfl⟩ := Nat.exists_eq_add_of_le' hn
    simp only [frame, be32, List.cons_append, List.nil_append, List.take_succ_cons, readFrame,
      ofBe32_be32, List.length_take]
    by_cases hlimit : payload.length % 2 ^ 32 > limit
    · rw [if_pos hlimit]
      constructor
      · intro h
        cases h
      · omega
    rw [if_neg hlimit]
    by_cases hshort : min n payload.length < payload.length % 2 ^ 32
    · rw [if_pos hshort]
      constructor
      · intro h
        cases h
      · omega
    · rw [if_neg hshort, List.take_take, Nat.min_eq_left (by omega)]
      constructor
      · intro h
        cases h
        exact ⟨by omega, by omega, rfl⟩
      · rintro ⟨-, -, rfl⟩
        rfl

section Text

variable {α : Type} {toText : α → List UInt8} {ofText : List UInt8 → Option α}

/-- **A value arrives** exactly when its text is within the limit and comes through to the end, if
texts are read back and torn texts are not read. -/
theorem received_iff (hback : ∀ a, ofText (toText a) = some a)
    (htorn : ∀ a bytes, bytes <+: toText a → bytes ≠ toText a → ofText bytes = none)
    {limit n : Nat} (hlimit : limit < 2 ^ 32) {a b : α} :
    (∃ bytes, readFrame limit ((frame (toText a)).take n) = .ok bytes ∧ ofText bytes = some b) ↔
      (toText a).length ≤ limit ∧ 4 + (toText a).length ≤ n ∧ b = a := by
  constructor
  · rintro ⟨bytes, hread, hb⟩
    obtain ⟨hle, hn, rfl⟩ := readFrame_take_frame.mp hread
    -- a cut text would not have been read
    have hwhole : (toText a).take ((toText a).length % 2 ^ 32) = toText a := by
      by_contra hne
      rw [htorn a _ (List.take_prefix _ _) hne] at hb
      cases hb
    have hlen : (toText a).length % 2 ^ 32 = (toText a).length := by
      have h := congrArg List.length hwhole
      rw [List.length_take] at h
      have := Nat.mod_le (toText a).length (2 ^ 32)
      omega
    rw [hwhole, hback] at hb
    cases hb
    rw [hlen] at hle hn
    exact ⟨hle, hn, rfl⟩
  · rintro ⟨hle, hn, rfl⟩
    have hlen : (toText b).length % 2 ^ 32 = (toText b).length :=
      Nat.mod_eq_of_lt (Nat.lt_of_le_of_lt hle hlimit)
    refine ⟨toText b, ?_, hback b⟩
    rw [readFrame_take_frame, hlen, List.take_length]
    exact ⟨hle, hn, rfl⟩

end Text

end Framing
