/-
# The erasure codec

`blockyard-client`, `ec.rs`: data is cut into K data fragments, M parity fragments are computed
from them, and the data is rebuilt from any K of the K + M fragments.

The code itself is `reed_solomon_erasure`, a parameter (`ReedSolomon`).  §1 states what is asked
of it, §2 is the codec, §3 what encoding yields and that decoding undoes it.
-/
import Blockyard.Lib.Stripe
import Blockyard.Ublk.WritePipeline

namespace Blockyard

/-! ## 1. What is asked of the code -/

namespace Ublk

/-- Shards a code can work on: as many as it has, all of one size. -/
structure Shards (count size : Nat) (shards : List Bytes) : Prop where
  length : shards.length = count
  size : ∀ shard ∈ shards, shard.length = size

/-- Slots that hold what is left of a word: each its own symbol, or nothing. -/
def Remains {α : Type} (word : List α) (slots : List (Option α)) : Prop :=
  List.Forall₂ (fun symbol slot => slot = none ∨ slot = some symbol) word slots

/-- **The code is systematic and repairs erasures.**  Encoding leaves the data shards as they are
and makes shards of the same size; at most M shards of a code word may be missing and
`reconstruct` brings back all of them. -/
structure ReedSolomon.Lawful (rs : ReedSolomon) (k m : Nat) : Prop where
  new : rs.new k m = .ok ()
  encode : ∀ {size shards}, 0 < size → Shards (k + m) size shards →
    ∃ word, rs.encode k m shards = .ok word ∧ Shards (k + m) size word ∧
      word.take k = shards.take k
  reconstruct : ∀ {size shards word slots}, 0 < size → Shards (k + m) size shards →
    rs.encode k m shards = .ok word → Remains word slots → slots.countP Option.isNone ≤ m →
    rs.reconstruct k m slots = .ok (word.map some)

/-- **Any K shards of one size are those of a code word**, also when they were not encoded
together. -/
def ReedSolomon.Completes (rs : ReedSolomon) (k m : Nat) : Prop :=
  ∀ {size} slots, 0 < size → slots.length = k + m →
    (∀ shard, some shard ∈ slots → shard.length = size) → slots.countP Option.isNone = m →
    ∃ shards word, Shards (k + m) size shards ∧ rs.encode k m shards = .ok word ∧ Remains word slots

/-- **Nothing missing, nothing done**: when every shard is there `reconstruct` returns at once, and
whether the shards are a code word is not looked at. -/
def ReedSolomon.KeepsComplete (rs : ReedSolomon) (k m : Nat) : Prop :=
  ∀ {size shards}, 0 < size → Shards (k + m) size shards →
    rs.reconstruct k m (shards.map some) = .ok (shards.map some)

def column (shards : List Bytes) (t : Nat) : Bytes := shards.map fun shard => (shard[t]?).getD 0

/-- **One shard is missing at most.**  The shards that are there are kept, whether or not they come
from one code word; a missing data shard becomes the one the first parity shard, `parity` column by
column, asks for. -/
structure ReedSolomon.RepairsOne (rs : ReedSolomon) (k m : Nat) (parity : Bytes → UInt8) :
    Prop where
  repair : ∀ {size slots}, 0 < size → slots.length = k + m →
    (∀ shard, some shard ∈ slots → shard.length = size) → slots.countP Option.isNone ≤ 1 →
    ∃ shards, rs.reconstruct k m slots = .ok (shards.map some) ∧ Shards (k + m) size shards ∧
      Remains shards slots ∧ ∀ r < k, slots[r]? = some none → ∀ t < size,
        some (parity (column (shards.take k) t)) = (shards[k]?).bind (·[t]?)
  injective : ∀ {bytes : Bytes} {r : Nat} {a a' : UInt8}, bytes.length = k → r < k →
    parity (bytes.set r a) = parity (bytes.set r a') → a = a'

end Ublk

open Ublk

namespace Client

/-! ## 2. The codec -/

inductive EcError
  | invalidParameters (dataCount parityCount : Nat)
  | encodeFailed (text : String)
  | decodeFailed (text : String)
  | insufficientFragments (available required : Nat)
  deriving DecidableEq, Repr

/-- The text of an `EcError`. -/
instance ecErrorToString : ToString EcError where
  toString
    | .invalidParameters k m => s!"invalid parameters: K={k}, M={m}"
    | .encodeFailed text => s!"encoding failed: {text}"
    | .decodeFailed text => s!"decoding failed: {text}"
    | .insufficientFragments available required =>
      s!"insufficient fragments: have {available}, need {required}"

structure Fragment where
  index : Nat
  isData : Bool
  data : Bytes
  deriving DecidableEq, Repr

/-- `ErasureCodec`: the fields are private, so that a codec has parameters the code accepts. -/
structure ErasureCodec (rs : ReedSolomon) where
  dataCount : Nat
  parityCount : Nat
  dataCount_pos : 0 < dataCount
  parityCount_pos : 0 < parityCount
  built : rs.new dataCount parityCount = .ok ()

namespace ErasureCodec

variable {rs : ReedSolomon}

def new (rs : ReedSolomon) (dataCount parityCount : Nat) : Except EcError (ErasureCodec rs) :=
  if hpos : 0 < dataCount ∧ 0 < parityCount then
    match hnew : rs.new dataCount parityCount with
    | .error _ => .error (.invalidParameters dataCount parityCount)
    | .ok () => .ok ⟨dataCount, parityCount, hpos.1, hpos.2, hnew⟩
  else .error (.invalidParameters dataCount parityCount)

def totalCount (codec : ErasureCodec rs) : Nat := codec.dataCount + codec.parityCount

/-- `fragment_size`: the quotient, rounded up. -/
def fragmentSize (codec : ErasureCodec rs) (dataLen : Nat) : Nat :=
  (dataLen + codec.dataCount - 1) / codec.dataCount

def encode (codec : ErasureCodec rs) (data : Bytes) : Except EcError (List Fragment) :=
  if data.isEmpty then .error (.encodeFailed "empty input data")
  else
    let fragSize := codec.fragmentSize data.length
    let dataShards := (List.range codec.dataCount).map fun i =>
      let shard := (data.drop (i * fragSize)).take fragSize
      shard ++ List.replicate (fragSize - shard.length) 0
    let shards := dataShards ++ List.replicate codec.parityCount (List.replicate fragSize 0)
    match rs.encode codec.dataCount codec.parityCount shards with
    | .error e => .error (.encodeFailed e)
    | .ok shards => .ok (shards.zipIdx.map fun (shard, i) =>
        { index := i, isData := decide (i < codec.dataCount), data := shard })

/-- The loop of `decode` over the data shards. -/
def joinShards : List (Option Bytes) → Except EcError Bytes
  | [] => .ok []
  | none :: _ => .error (.decodeFailed "reconstruction did not restore all data shards")
  | some data :: rest =>
    match joinShards rest with
    | .error e => .error e
    | .ok result => .ok (data ++ result)

def decode (codec : ErasureCodec rs) (fragments : List (Option Fragment)) (originalLen : Nat) :
    Except EcError Bytes :=
  if fragments.length ≠ codec.totalCount then
    .error (.decodeFailed s!"expected {codec.totalCount} fragments, got {fragments.length}")
  else
    let available := (fragments.filter Option.isSome).length
    if available < codec.dataCount then
      .error (.insufficientFragments available codec.dataCount)
    else
      let shards := fragments.map fun fragment => fragment.map Fragment.data
      match rs.reconstruct codec.dataCount codec.parityCount shards with
      | .error e => .error (.decodeFailed e)
      | .ok shards =>
        match joinShards (shards.take codec.dataCount) with
        | .error e => .error e
        | .ok result => .ok (result.take originalLen)

end ErasureCodec

end Client

/-! ## 3. The stripe of a payload -/

namespace Ublk

abbrev fragmentSize (k : Nat) (data : Bytes) : Nat := Stripe.pieceSize data.length k

/-- What both encoders hand to the code: the data in K pieces, and M empty shards. -/
def blankStripe (k m : Nat) (data : Bytes) : List Bytes :=
  Stripe.cut 0 k (fragmentSize k data) data
    ++ List.replicate m (List.replicate (fragmentSize k data) 0)

/-- The fragments of a payload: what the code makes of its pieces. -/
structure Encodes (rs : ReedSolomon) (k m : Nat) (data : Bytes) (word : List Bytes) : Prop where
  encode : rs.encode k m (blankStripe k m data) = .ok word
  shards : Shards (k + m) (fragmentSize k data) word
  pieces : word.take k = Stripe.cut 0 k (fragmentSize k data) data

section Stripes

variable {rs : ReedSolomon} {k m : Nat} {data : Bytes} {word : List Bytes}

theorem fragmentSize_pos (hk : 0 < k) (hdata : data ≠ []) : 0 < fragmentSize k data :=
  Stripe.pieceSize_pos hk (List.length_pos_of_ne_nil hdata)

theorem shards_blankStripe (k m : Nat) (data : Bytes) :
    Shards (k + m) (fragmentSize k data) (blankStripe k m data) where
  length := by simp [blankStripe]
  size := by
    intro shard hshard
    rcases List.mem_append.mp hshard with h | h
    · exact Stripe.length_of_mem_cut h
    · rw [List.eq_of_mem_replicate h, List.length_replicate]

/-- **Every payload has a stripe.** -/
theorem ReedSolomon.Lawful.exists_encodes (h : rs.Lawful k m) (hk : 0 < k) (hdata : data ≠ []) :
    ∃ word, Encodes rs k m data word := by
  obtain ⟨word, hword, hshards, htake⟩ :=
    h.encode (fragmentSize_pos hk hdata) (shards_blankStripe k m data)
  refine ⟨word, hword, hshards, ?_⟩
  rw [htake, blankStripe, List.take_append_of_le_length (by simp), List.take_of_length_le (by simp)]

/-- **A stripe with at most M holes** is brought back whole. -/
theorem Encodes.reconstruct (h : Encodes rs k m data word) (hlaw : rs.Lawful k m) (hk : 0 < k)
    (hdata : data ≠ []) {slots : List (Option Bytes)} (hslots : Remains word slots)
    (hholes : slots.countP Option.isNone ≤ m) :
    rs.reconstruct k m slots = .ok (word.map some) :=
  hlaw.reconstruct (fragmentSize_pos hk hdata) (shards_blankStripe k m data) h.encode hslots hholes

/-- The data fragments in a row: the payload and the filling. -/
theorem Encodes.flatten (h : Encodes rs k m data word) (hk : 0 < k) (hdata : data ≠ []) :
    (word.take k).flatten
      = data ++ List.replicate (k * fragmentSize k data - data.length) 0 := by
  rw [h.pieces, Stripe.flatten_cut (fragmentSize_pos hk hdata) (Stripe.le_mul_pieceSize hk)]

/-- A byte of the payload, in the fragment it falls into. -/
theorem Encodes.byte (h : Encodes rs k m data word) (hk : 0 < k) {j : Nat} (hj : j < data.length) :
    (word[j / fragmentSize k data]?).bind (fun fragment => fragment[j % fragmentSize k data]?)
      = data[j]? := by
  have hdata : data ≠ [] := List.ne_nil_of_length_pos (Nat.zero_lt_of_lt hj)
  have hrow := congrArg (fun row : Bytes => row[j]?) (h.flatten hk hdata)
  rw [List.getElem?_append_left hj, Stripe.getElem?_flatten (fragmentSize_pos hk hdata)
    fun fragment hmem => h.shards.size fragment (List.mem_of_mem_take hmem),
    List.getElem?_take_of_lt (Stripe.div_pieceSize_lt hk hj)] at hrow
  exact hrow

theorem Encodes.encodeData (h : Encodes rs k m data word) (hnew : rs.new k m = .ok ())
    (hdata : data ≠ []) : encodeData rs data k m = .ok (.ofShards k data.length word) := by
  have henc := h.encode
  unfold Ublk.encodeData
  rw [if_neg (by simpa using hdata), hnew]
  unfold blankStripe Stripe.cut Stripe.piece fragmentSize Stripe.pieceSize at henc
  simp only [henc]

end Stripes

end Ublk

/-! ## 4. Round trips of the codec -/

namespace Client.ErasureCodec

variable {rs : ReedSolomon} {k m : Nat} {data : Bytes} {word : List Bytes}
  {slots : List (Option Fragment)}

theorem new_eq (hlaw : rs.Lawful k m) (hk : 0 < k) (hm : 0 < m) :
    new rs k m = .ok ⟨k, m, hk, hm, hlaw.new⟩ := by
  unfold new
  rw [dif_pos ⟨hk, hm⟩]
  split
  · rename_i e he
    rw [hlaw.new] at he
    cases he
  · rfl

def fragmentsOf (k : Nat) (word : List Bytes) : List Fragment :=
  word.zipIdx.map fun (shard, i) => { index := i, isData := decide (i < k), data := shard }

theorem map_data_fragmentsOf (k : Nat) (word : List Bytes) :
    (fragmentsOf k word).map Fragment.data = word := by
  rw [fragmentsOf, List.map_map]
  exact List.zipIdx_map_fst 0 word

theorem encode_eq (codec : ErasureCodec rs)
    (h : Encodes rs codec.dataCount codec.parityCount data word) (hdata : data ≠ []) :
    codec.encode data = .ok (fragmentsOf codec.dataCount word) := by
  have henc := h.encode
  unfold encode
  rw [if_neg (by simpa using hdata)]
  unfold blankStripe Stripe.cut Stripe.piece Ublk.fragmentSize Stripe.pieceSize at henc
  simp only [fragmentSize, henc, fragmentsOf]

theorem joinShards_map_some (shards : List Bytes) :
    joinShards (shards.map some) = .ok shards.flatten := by
  induction shards with
  | nil => rfl
  | cons shard shards ih => simp [joinShards, ih]

theorem length_filter_isSome {α : Type} (slots : List (Option α)) :
    (slots.filter Option.isSome).length + slots.countP Option.isNone = slots.length := by
  induction slots with
  | nil => rfl
  | cons slot slots ih => cases slot <;> simp <;> omega

theorem countP_map_data (slots : List (Option Fragment)) :
    (slots.map fun fragment => fragment.map Fragment.data).countP Option.isNone
      = slots.countP Option.isNone := by
  rw [List.countP_map]
  exact List.countP_congr fun slot _ => by simp

/-- **Decoding a code word**, with any M shards missing.  Only the bytes of a fragment count. -/
theorem decode_of_word (codec : ErasureCodec rs)
    (hlaw : rs.Lawful codec.dataCount codec.parityCount) {size : Nat} {shards : List Bytes}
    (hsize : 0 < size) (hshards : Shards codec.totalCount size shards)
    (henc : rs.encode codec.dataCount codec.parityCount shards = .ok word)
    (hslots : Remains word (slots.map fun fragment => fragment.map Fragment.data))
    (hholes : slots.countP Option.isNone ≤ codec.parityCount) (len : Nat) :
    codec.decode slots len = .ok ((word.take codec.dataCount).flatten.take len) := by
  have hrec := hlaw.reconstruct hsize hshards henc hslots ((countP_map_data slots).trans_le hholes)
  have hlen : slots.length = codec.totalCount := by
    obtain ⟨word', henc', hword, -⟩ := hlaw.encode hsize hshards
    cases henc.symm.trans henc'
    rw [totalCount, ← hword.length, hslots.length_eq, List.length_map]
  have hsplit := length_filter_isSome slots
  have henough : ¬ (slots.filter Option.isSome).length < codec.dataCount := by
    rw [hlen, totalCount] at hsplit
    omega
  unfold decode
  rw [if_neg (not_not_intro hlen)]
  simp only [if_neg henough, hrec, ← List.map_take, joinShards_map_some]

/-- The shards in the slots are what is left of a code word whose data shards begin with the
payload; the filling behind it is not looked at. -/
def Carries (codec : ErasureCodec rs) (data : Bytes) (slots : List (Option Fragment)) : Prop :=
  ∃ shards word, Shards codec.totalCount (Ublk.fragmentSize codec.dataCount data) shards ∧
    rs.encode codec.dataCount codec.parityCount shards = .ok word ∧
    (word.take codec.dataCount).flatten.take data.length = data ∧
    Remains word (slots.map fun fragment => fragment.map Fragment.data)

/-- **K shards of one size decode to the payload exactly when they carry it.** -/
theorem decode_eq_ok_iff (codec : ErasureCodec rs)
    (hlaw : rs.Lawful codec.dataCount codec.parityCount)
    (hcompletes : rs.Completes codec.dataCount codec.parityCount) (hdata : data ≠ [])
    (hlen : slots.length = codec.totalCount) (hsizes : ∀ fragment, some fragment ∈ slots →
      fragment.data.length = Ublk.fragmentSize codec.dataCount data)
    (hholes : slots.countP Option.isNone = codec.parityCount) :
    codec.decode slots data.length = .ok data ↔ codec.Carries data slots := by
  have hsize := fragmentSize_pos codec.dataCount_pos hdata
  constructor
  · intro hdecode
    obtain ⟨shards, word, hshards, henc, hslots⟩ := hcompletes
      (slots.map fun fragment => fragment.map Fragment.data) hsize
      ((List.length_map _).trans hlen) (by
        intro shard hshard
        obtain ⟨slot, hslot, heq⟩ := List.mem_map.mp hshard
        obtain ⟨fragment, rfl, rfl⟩ := Option.map_eq_some_iff.mp heq
        exact hsizes fragment hslot) ((countP_map_data slots).trans hholes)
    rw [decode_of_word codec hlaw hsize hshards henc hslots hholes.le] at hdecode
    exact ⟨shards, word, hshards, henc, Except.ok.inj hdecode, hslots⟩
  · rintro ⟨shards, word, hshards, henc, hpayload, hslots⟩
    rw [decode_of_word codec hlaw hsize hshards henc hslots hholes.le, hpayload]

/-- **Decoding undoes encoding.** -/
theorem decode_of_shards (codec : ErasureCodec rs)
    (hlaw : rs.Lawful codec.dataCount codec.parityCount)
    (h : Encodes rs codec.dataCount codec.parityCount data word) (hdata : data ≠ [])
    (hshards : Remains word (slots.map fun fragment => fragment.map Fragment.data))
    (hholes : slots.countP Option.isNone ≤ codec.parityCount) :
    codec.decode slots data.length = .ok data := by
  have hk := codec.dataCount_pos
  rw [decode_of_word codec hlaw (fragmentSize_pos hk hdata) (shards_blankStripe _ _ data) h.encode
    hshards hholes, h.flatten hk hdata, List.take_left]

theorem decode_of_remains (codec : ErasureCodec rs)
    (hlaw : rs.Lawful codec.dataCount codec.parityCount)
    (h : Encodes rs codec.dataCount codec.parityCount data word) (hdata : data ≠ [])
    (hslots : Remains (fragmentsOf codec.dataCount word) slots)
    (hholes : slots.countP Option.isNone ≤ codec.parityCount) :
    codec.decode slots data.length = .ok data := by
  refine decode_of_shards codec hlaw h hdata ?_ hholes
  rw [← map_data_fragmentsOf codec.dataCount word]
  refine List.forall₂_map_left_iff.mpr (List.forall₂_map_right_iff.mpr (hslots.imp ?_))
  rintro fragment slot (rfl | rfl)
  · exact Or.inl rfl
  · exact Or.inr rfl

end Client.ErasureCodec

end Blockyard
