/-
# The extent mappings of a cached volume

`blockyard-ublk`, `metadata_cache.rs`: the client remembers where the blocks of a volume are in a
map from block numbers to extent mappings.  There are two ways to fill it: `set_extent_mapping`
stores ONE entry for all the blocks of a mapping, `set_extent_mapping_range` one entry PER BLOCK.
`find_extent_for_range` looks at one entry only, the nearest at or below the block.

An entry of several blocks and an entry that starts inside it or on top of it do not go together:
the nearest entry hides what the older one covers further on (`overwrite_hides_the_rest`).  The
comment on `set_extent_mapping_range` says that per-block entries prevent this; they do so among
themselves, not over an entry that `set_extent_mapping` has left.

`lookups_latest_iff` is the exact condition on each call under which every lookup keeps finding the
mapping of the latest call that covers the block.  The table side of it is
`Blockyard.Lib.IntervalTable`; what is added here is the `u64` arithmetic.
-/
import Blockyard.Common.Id
import Blockyard.Lib.IntervalTable
import Blockyard.Lib.Run

open Std Machine IntervalTable

namespace Blockyard

namespace Ublk

/-! ## 1. The map and its lookups -/

structure CachedExtentMapping where
  extentId : ExtentId
  extentVersion : Nat
  replicaLocations : List NodeId
  checksums : List (List UInt8)
  sizeBytes : Nat
  extentOffset : Nat
  deriving DecidableEq

/-- The `extent_mappings` of one `CachedVolumeInfo`. -/
abbrev ExtentMappings := BTreeMap Nat CachedExtentMapping

namespace CachedExtentMapping

/-- `size_bytes.div_ceil(block_size.max(1))`. -/
def extentBlocks (blockSize : Nat) (mapping : CachedExtentMapping) : Nat :=
  (mapping.sizeBytes + max blockSize 1 - 1) / max blockSize 1

def atBlock (base : CachedExtentMapping) (blockSize extentOffset : Nat) : CachedExtentMapping :=
  { base with
    sizeBytes := blockSize
    extentOffset := extentOffset }

/-- A mapping of positive size, its numbers within `u64`. -/
structure Sized (mapping : CachedExtentMapping) : Prop where
  pos : 0 < mapping.sizeBytes
  size_lt : mapping.sizeBytes < 2 ^ 64
  offset_lt : mapping.extentOffset < 2 ^ 64

theorem Sized.extentBlocks_pos {mapping : CachedExtentMapping} (h : mapping.Sized)
    (blockSize : Nat) :
    0 < mapping.extentBlocks blockSize := by
  have hpos := h.pos
  refine Nat.div_pos ?_ (by omega)
  omega

theorem Sized.extentBlocks_lt {mapping : CachedExtentMapping} (h : mapping.Sized)
    (blockSize : Nat) :
    mapping.extentBlocks blockSize < 2 ^ 64 := by
  have hpos := h.pos
  refine Nat.lt_of_le_of_lt (Nat.div_le_of_le_mul ?_) h.size_lt
  obtain ⟨b, hb⟩ : ∃ b, max blockSize 1 = b + 1 := ⟨max blockSize 1 - 1, by omega⟩
  obtain ⟨s, hs⟩ : ∃ s, mapping.sizeBytes = s + 1 := ⟨mapping.sizeBytes - 1, by omega⟩
  have hprod : (b + 1) * (s + 1) = b * s + b + s + 1 := by ring
  rw [hb, hs, hprod]
  omega

@[simp] theorem extentBlocks_atBlock (hpos : 0 < blockSize) (base : CachedExtentMapping)
    (offset : Nat) :
    (base.atBlock blockSize offset).extentBlocks blockSize = 1 := by
  have hsize : (base.atBlock blockSize offset).sizeBytes = blockSize := rfl
  rw [extentBlocks, hsize, Nat.max_eq_left hpos]
  exact Nat.div_eq_of_lt_le (by omega) (by omega)

end CachedExtentMapping

/-- `find_extent_for_range` on the mappings of a volume; of the range it reads the start only.
`none` is the overflow panic of `block_start + extent_blocks`. -/
def findExtentForRange (ovf : Overflow) (blockSize : Nat) (mappings : ExtentMappings)
    (start : Nat) : Option (Option (Nat × CachedExtentMapping)) :=
  match floor mappings start with
  | none => some none
  | some (blockStart, mapping) =>
    if 0 < mapping.sizeBytes then
      match addU64 ovf blockStart (mapping.extentBlocks blockSize) with
      | none => none
      | some extentEndBlock =>
        if extentEndBlock ≤ start then some none else some (some (blockStart, mapping))
    else some (some (blockStart, mapping))

/-- The loop of `set_extent_mapping_range` over the blocks that are left; `none` is the overflow
panic of `(block_idx - block_range.start) * block_size`, which keeps the entries made so far. -/
def setBlocks (ovf : Overflow) (blockSize start : Nat) (base : CachedExtentMapping) :
    List Nat → ExtentMappings → ExtentMappings × Option Unit
  | [], mappings => (mappings, some ())
  | blockIdx :: rest, mappings =>
    match mulU64 ovf (blockIdx - start) blockSize with
    | none => (mappings, none)
    | some extentOffset =>
      setBlocks ovf blockSize start base rest
        (mappings.insert blockIdx (base.atBlock blockSize extentOffset))

def setExtentMappingRange (ovf : Overflow) (mappings : ExtentMappings) (start stop blockSize : Nat)
    (base : CachedExtentMapping) : ExtentMappings × Option Unit :=
  setBlocks ovf blockSize start base (List.range' start (stop - start)) mappings

inductive CacheCall
  | setExtentMapping (blockStart : Nat) (mapping : CachedExtentMapping)
  | setExtentMappingRange (start stop : Nat) (base : CachedExtentMapping)
  deriving DecidableEq

/-- One call on a volume with the given block size. -/
def cacheStep (ovf : Overflow) (blockSize : Nat) (mappings : ExtentMappings) :
    CacheCall → ExtentMappings × Option Unit
  | .setExtentMapping blockStart mapping => (mappings.insert blockStart mapping, some ())
  | .setExtentMappingRange start stop base =>
    setExtentMappingRange ovf mappings start stop blockSize base

variable {ovf : Overflow} {mapping : CachedExtentMapping} {blockSize start : Nat}
  {mappings : ExtentMappings} {past : List CacheCall}

/-! ## 2. What a lookup should find -/

namespace CacheCall

/-- The numbers of the call are `u64`, and its mapping has a positive size. -/
def Sized : CacheCall → Prop
  | .setExtentMapping blockStart mapping => blockStart < 2 ^ 64 ∧ mapping.Sized
  | .setExtentMappingRange _ stop _ => stop < 2 ^ 64

def entry (blockSize : Nat) (block : Nat) : CacheCall → Option (Nat × CachedExtentMapping)
  | .setExtentMapping blockStart mapping =>
    if blockStart ≤ block ∧ block < blockStart + mapping.extentBlocks blockSize then
      some (blockStart, mapping)
    else none
  | .setExtentMappingRange start stop base =>
    if start ≤ block ∧ block < stop then
      some (block, base.atBlock blockSize ((block - start) * blockSize))
    else none

/-- The entry of the most recent call that covers a block. -/
def latest (blockSize : Nat) (calls : List CacheCall) (block : Nat) :
    Option (Nat × CachedExtentMapping) :=
  calls.reverse.findSome? (entry blockSize block)

@[simp] theorem latest_nil (blockSize block : Nat) : latest blockSize [] block = none := rfl

theorem latest_snoc (blockSize block : Nat) (calls : List CacheCall) (call : CacheCall) :
    latest blockSize (calls ++ [call]) block
      = (call.entry blockSize block).or (latest blockSize calls block) := by
  rw [latest, List.reverse_append, List.reverse_singleton, List.singleton_append,
    List.findSome?_cons]
  cases call.entry blockSize block <;> rfl

/-- **The condition on a call**: no sum or product overflows, a mapping of several blocks is not
stored over a block that has an entry of its own, and at the end of what the call covers another
entry starts or nothing is found. -/
def Fits (ovf : Overflow) (blockSize : Nat) (mappings : ExtentMappings) : CacheCall → Prop
  | .setExtentMapping blockStart mapping =>
    blockStart + mapping.extentBlocks blockSize < 2 ^ 64 ∧
      (∀ k ∈ mappings, blockStart < k → blockStart + mapping.extentBlocks blockSize ≤ k) ∧
      (blockStart + mapping.extentBlocks blockSize ∈ mappings ∨
        findExtentForRange ovf blockSize mappings
          (blockStart + mapping.extentBlocks blockSize) = some none)
  | .setExtentMappingRange start stop _ =>
    start < stop →
      (stop - 1 - start) * blockSize < 2 ^ 64 ∧
        (stop ∈ mappings ∨ findExtentForRange ovf blockSize mappings stop = some none)

end CacheCall

/-! ## 3. Lookups without overflow -/

/-- The end of every entry is a `u64`. -/
def EndsFit (blockSize : Nat) (mappings : ExtentMappings) : Prop :=
  ∀ k mapping, mappings[k]? = some mapping →
    0 < mapping.sizeBytes ∧ k + mapping.extentBlocks blockSize < 2 ^ 64

theorem EndsFit.insert (h : EndsFit blockSize mappings) {k : Nat} (hpos : 0 < mapping.sizeBytes)
    (hfit : k + mapping.extentBlocks blockSize < 2 ^ 64) :
    EndsFit blockSize (mappings.insert k mapping) := by
  intro k' mapping' hget
  by_cases hk : k = k'
  · rw [hk, ExtTreeMap.getElem?_insert_self] at hget
    cases hget
    exact ⟨hpos, hk ▸ hfit⟩
  · exact h k' mapping' ((getElem?_insert_of_ne _ hk _).symm.trans hget)

/-- **Without overflow, `find_extent_for_range` is the lookup of a table of intervals.** -/
theorem findExtentForRange_eq_lookup (h : EndsFit blockSize mappings) (start : Nat) :
    findExtentForRange ovf blockSize mappings start
      = some (lookup (CachedExtentMapping.extentBlocks blockSize) mappings start) := by
  cases hfloor : floor mappings start with
  | none => rw [findExtentForRange, lookup, hfloor]; rfl
  | some row =>
    obtain ⟨hpos, hfit⟩ := h row.1 row.2 (floor_spec hfloor).1
    simp only [findExtentForRange, hfloor, if_pos hpos, addU64_of_lt ovf hfit]
    by_cases hend : row.1 + row.2.extentBlocks blockSize ≤ start
    · rw [if_pos hend, lookup_of_floor_le hfloor hend]
    · rw [if_neg hend, lookup_of_floor hfloor (Nat.lt_of_not_le hend)]

/-- What every call keeps: the entries are sized, and only covered blocks have one. -/
structure Recorded (blockSize : Nat) (past : List CacheCall) (mappings : ExtentMappings) :
    Prop where
  key_lt : ∀ k ∈ mappings, k < 2 ^ 64
  sized : ∀ (k : Nat) (mapping : CachedExtentMapping), mappings[k]? = some mapping → mapping.Sized
  covered : ∀ k ∈ mappings, (CacheCall.latest blockSize past k).isSome

/-- **The promise**: a lookup finds the mapping of the latest call that covers the block. -/
def LookupsLatest (ovf : Overflow) (blockSize : Nat) (past : List CacheCall)
    (mappings : ExtentMappings) : Prop :=
  ∀ block < 2 ^ 64, findExtentForRange ovf blockSize mappings block
    = some (CacheCall.latest blockSize past block)

/-- An entry that wraps around would not be found at its own start. -/
theorem LookupsLatest.endsFit (h : LookupsLatest ovf blockSize past mappings)
    (hrec : Recorded blockSize past mappings) : EndsFit blockSize mappings := by
  intro k mapping hget
  have hk : k ∈ mappings := mem_of_getElem? hget
  have hsized := hrec.sized k mapping hget
  refine ⟨hsized.pos, ?_⟩
  obtain ⟨found, hfound⟩ := Option.isSome_iff_exists.mp (hrec.covered k hk)
  have hlookup := h k (hrec.key_lt k hk)
  rw [findExtentForRange, floor_self hget, hfound] at hlookup
  simp only [if_pos hsized.pos] at hlookup
  by_contra hover
  cases hsum : addU64 ovf k (mapping.extentBlocks blockSize) with
  | none =>
    rw [hsum] at hlookup
    cases hlookup
  | some e =>
    have hlt : e < k :=
      addU64_lt_of_overflow (hrec.key_lt k hk) (hsized.extentBlocks_lt blockSize) hover hsum
    simp [hsum, Nat.le_of_lt hlt] at hlookup

/-! ## 4. One call -/

theorem getElem?_setBlocks_of_mem {base : CachedExtentMapping} {blocks : List Nat} {k : Nat}
    (h : (setBlocks ovf blockSize start base blocks mappings).1[k]? = some mapping) :
    mappings[k]? = some mapping ∨
      k ∈ blocks ∧ ∃ offset < 2 ^ 64, mapping = base.atBlock blockSize offset := by
  induction blocks generalizing mappings with
  | nil => exact .inl h
  | cons blockIdx rest ih =>
    rw [setBlocks] at h
    cases hmul : mulU64 ovf (blockIdx - start) blockSize with
    | none =>
      rw [hmul] at h
      exact .inl h
    | some offset =>
      rw [hmul] at h
      rcases ih h with hold | ⟨hmem, hnew⟩
      · by_cases hk : blockIdx = k
        · rw [hk, ExtTreeMap.getElem?_insert_self] at hold
          exact .inr ⟨hk ▸ List.mem_cons_self, offset, mulU64_lt hmul, (Option.some.inj hold).symm⟩
        · exact .inl ((getElem?_insert_of_ne _ hk _).symm.trans hold)
      · exact .inr ⟨List.mem_cons_of_mem _ hmem, hnew⟩

/-- The entries after a loop without overflow: one for each block of the range. -/
theorem getElem?_setBlocks (ovf : Overflow) {first n : Nat} (start : Nat)
    (base : CachedExtentMapping) (mappings : ExtentMappings)
    (hfit : ∀ i < n, (first + i - start) * blockSize < 2 ^ 64) (k : Nat) :
    (setBlocks ovf blockSize start base (List.range' first n) mappings).1[k]?
      = if first ≤ k ∧ k < first + n then some (base.atBlock blockSize ((k - start) * blockSize))
        else mappings[k]? := by
  induction n generalizing first mappings with
  | zero => rw [if_neg (by omega)]; rfl
  | succ n ih =>
    have hfirst : (first - start) * blockSize < 2 ^ 64 := hfit 0 (Nat.succ_pos n)
    simp only [List.range'_succ, setBlocks, mulU64_of_lt ovf hfirst]
    rw [ih _ fun i hi => ?_]
    · by_cases hlater : first + 1 ≤ k ∧ k < first + 1 + n
      · rw [if_pos hlater, if_pos (by omega)]
      · rw [if_neg hlater]
        by_cases hk : first = k
        · rw [hk, ExtTreeMap.getElem?_insert_self, if_pos (by omega)]
        · rw [if_neg (by omega), getElem?_insert_of_ne _ hk]
    · have := hfit (i + 1) (by omega)
      rwa [Nat.add_assoc, Nat.add_comm 1 i]

/-- **The entries after a range call without overflow.** -/
theorem getElem?_setExtentMappingRange (ovf : Overflow) (mappings : ExtentMappings) {stop : Nat}
    (base : CachedExtentMapping) (hfit : (stop - 1 - start) * blockSize < 2 ^ 64) (k : Nat) :
    (setExtentMappingRange ovf mappings start stop blockSize base).1[k]?
      = if start ≤ k ∧ k < stop then some (base.atBlock blockSize ((k - start) * blockSize))
        else mappings[k]? := by
  rw [setExtentMappingRange, getElem?_setBlocks ovf start base mappings fun i hi => ?_]
  · by_cases hk : start ≤ k ∧ k < stop
    · rw [if_pos (by omega), if_pos hk]
    · rw [if_neg (by omega), if_neg hk]
  · refine Nat.lt_of_le_of_lt (Nat.mul_le_mul_right blockSize ?_) hfit
    omega

theorem mem_setExtentMappingRange {stop k : Nat} {base : CachedExtentMapping}
    (h : (setExtentMappingRange ovf mappings start stop blockSize base).1[k]? = some mapping) :
    mappings[k]? = some mapping ∨
      (start ≤ k ∧ k < stop) ∧ ∃ offset < 2 ^ 64, mapping = base.atBlock blockSize offset := by
  rcases getElem?_setBlocks_of_mem h with hold | ⟨hmem, hnew⟩
  · exact .inl hold
  · have hk := List.mem_range'_1.mp hmem
    exact .inr ⟨by omega, hnew⟩

theorem Recorded.step (ovf : Overflow) (hpos : 0 < blockSize) (hlt : blockSize < 2 ^ 32)
    (h : Recorded blockSize past mappings) {call : CacheCall} (hcall : call.Sized) :
    Recorded blockSize (past ++ [call]) (cacheStep ovf blockSize mappings call).1 := by
  have hold : ∀ k ∈ mappings, (CacheCall.latest blockSize (past ++ [call]) k).isSome := by
    intro k hk
    rw [CacheCall.latest_snoc, Option.isSome_or, h.covered k hk, Bool.or_true]
  -- Every new entry is one of an old block, or of a block of this call.
  have hentry : ∀ k mapping, (cacheStep ovf blockSize mappings call).1[k]? = some mapping →
      mappings[k]? = some mapping ∨
        k < 2 ^ 64 ∧ mapping.Sized ∧ (call.entry blockSize k).isSome := by
    intro k mapping hget
    cases call with
    | setExtentMapping blockStart new =>
      by_cases hk : blockStart = k
      · rw [cacheStep, hk, ExtTreeMap.getElem?_insert_self] at hget
        cases hget
        have hblocks := hcall.2.extentBlocks_pos blockSize
        refine .inr ⟨hk ▸ hcall.1, hcall.2, ?_⟩
        rw [CacheCall.entry, if_pos (by omega)]
        rfl
      · exact .inl ((getElem?_insert_of_ne _ hk _).symm.trans hget)
    | setExtentMappingRange start stop base =>
      rcases mem_setExtentMappingRange hget with hsame | ⟨hk, offset, hoffset, rfl⟩
      · exact .inl hsame
      · refine .inr ⟨Nat.lt_trans hk.2 hcall, ⟨hpos, ?_, hoffset⟩, ?_⟩
        · exact Nat.lt_trans hlt (by norm_num)
        · rw [CacheCall.entry, if_pos hk]
          rfl
  constructor
  · intro k hk
    obtain ⟨mapping, hget⟩ := exists_getElem?_of_mem hk
    rcases hentry k mapping hget with hsame | ⟨hk, -, -⟩
    · exact h.key_lt k (mem_of_getElem? hsame)
    · exact hk
  · intro k mapping hget
    rcases hentry k mapping hget with hsame | ⟨-, hsized, -⟩
    · exact h.sized k mapping hsame
    · exact hsized
  · intro k hk
    obtain ⟨mapping, hget⟩ := exists_getElem?_of_mem hk
    rcases hentry k mapping hget with hsame | ⟨-, -, hcovers⟩
    · exact hold k (mem_of_getElem? hsame)
    · rw [CacheCall.latest_snoc, Option.isSome_or, hcovers, Bool.true_or]

/-- The promise after a call, in terms of tables of intervals. -/
theorem lookupsLatest_snoc_iff {mappings' : ExtentMappings} {call : CacheCall}
    (h : LookupsLatest ovf blockSize past mappings) (hfit : EndsFit blockSize mappings)
    (hfit' : EndsFit blockSize mappings') :
    LookupsLatest ovf blockSize (past ++ [call]) mappings' ↔
      ∀ block < 2 ^ 64, lookup (CachedExtentMapping.extentBlocks blockSize) mappings' block
        = (call.entry blockSize block).or
            (lookup (CachedExtentMapping.extentBlocks blockSize) mappings block) := by
  refine forall₂_congr fun block hblock => ?_
  have hbefore := h block hblock
  rw [findExtentForRange_eq_lookup hfit, Option.some.injEq] at hbefore
  rw [findExtentForRange_eq_lookup hfit', CacheCall.latest_snoc, Option.some.injEq, hbefore]

theorem lookupsLatest_setExtentMapping_iff (hpos : 0 < blockSize) (hlt : blockSize < 2 ^ 32)
    (hrec : Recorded blockSize past mappings) (h : LookupsLatest ovf blockSize past mappings)
    {blockStart : Nat} (hcall : (CacheCall.setExtentMapping blockStart mapping).Sized) :
    LookupsLatest ovf blockSize (past ++ [.setExtentMapping blockStart mapping])
        (cacheStep ovf blockSize mappings (.setExtentMapping blockStart mapping)).1 ↔
      (CacheCall.setExtentMapping blockStart mapping).Fits ovf blockSize mappings := by
  have hfit : EndsFit blockSize mappings := h.endsFit hrec
  by_cases hend : blockStart + mapping.extentBlocks blockSize < 2 ^ 64
  · rw [cacheStep, lookupsLatest_snoc_iff h hfit (hfit.insert hcall.2.pos hend)]
    have htable := lookup_insert_iff (CachedExtentMapping.extentBlocks blockSize) mappings
      (hcall.2.extentBlocks_pos blockSize) hend
    rw [CacheCall.Fits, findExtentForRange_eq_lookup hfit, Option.some.injEq, and_iff_right hend,
      ← htable]
    refine forall₂_congr fun block _ => ?_
    rw [CacheCall.entry]
    split <;> rfl
  · refine iff_of_false (fun h' => hend ?_) fun hfits => hend hfits.1
    have hfit' := h'.endsFit (hrec.step ovf hpos hlt hcall)
    exact (hfit' blockStart mapping ExtTreeMap.getElem?_insert_self).2

theorem lookupsLatest_setExtentMappingRange_iff (hpos : 0 < blockSize) (hlt : blockSize < 2 ^ 32)
    (hrec : Recorded blockSize past mappings) (h : LookupsLatest ovf blockSize past mappings)
    {stop : Nat} {base : CachedExtentMapping}
    (hcall : (CacheCall.setExtentMappingRange start stop base).Sized) :
    LookupsLatest ovf blockSize (past ++ [.setExtentMappingRange start stop base])
        (cacheStep ovf blockSize mappings (.setExtentMappingRange start stop base)).1 ↔
      (CacheCall.setExtentMappingRange start stop base).Fits ovf blockSize mappings := by
  have hfit : EndsFit blockSize mappings := h.endsFit hrec
  rw [CacheCall.Fits]
  by_cases hempty : stop ≤ start
  · -- An empty range covers nothing and stores nothing.
    refine iff_of_true (fun block hblock => ?_) fun hlt => absurd hlt (Nat.not_lt_of_le hempty)
    rw [CacheCall.latest_snoc, CacheCall.entry, if_neg (by omega), Option.none_or, cacheStep,
      setExtentMappingRange, Nat.sub_eq_zero_of_le hempty]
    exact h block hblock
  · have hab : start < stop := Nat.lt_of_not_le hempty
    rw [forall_prop_of_true hab]
    by_cases hmul : (stop - 1 - start) * blockSize < 2 ^ 64
    · have hget : ∀ k, (cacheStep ovf blockSize mappings
          (.setExtentMappingRange start stop base)).1[k]?
            = if start ≤ k ∧ k < stop then
                some (base.atBlock blockSize ((k - start) * blockSize))
              else mappings[k]? := getElem?_setExtentMappingRange ovf mappings base hmul
      have hfit' : EndsFit blockSize (cacheStep ovf blockSize mappings
          (.setExtentMappingRange start stop base)).1 := by
        intro k mapping hk
        rw [hget] at hk
        split at hk
        case isTrue hin =>
          cases hk
          rw [CachedExtentMapping.extentBlocks_atBlock hpos]
          exact ⟨hpos, Nat.lt_of_le_of_lt (Nat.succ_le_of_lt hin.2) hcall⟩
        case isFalse => exact hfit k mapping hk
      rw [lookupsLatest_snoc_iff h hfit hfit', and_iff_right hmul,
        findExtentForRange_eq_lookup hfit, Option.some.injEq,
        ← lookup_tiles_iff hget (fun k => CachedExtentMapping.extentBlocks_atBlock hpos base _) hab
          hcall]
      refine forall₂_congr fun block _ => ?_
      rw [CacheCall.entry]
      split <;> rfl
    · -- The last block of the range has an offset that no entry can hold.
      refine iff_of_false (fun h' => hmul ?_) fun hfits => hmul hfits.1
      have hlast := h' (stop - 1) (by have : stop < 2 ^ 64 := hcall; omega)
      have hrec' := hrec.step ovf hpos hlt hcall
      rw [findExtentForRange_eq_lookup (h'.endsFit hrec'), CacheCall.latest_snoc, CacheCall.entry,
        if_pos (by omega), Option.some_or, Option.some.injEq, lookup,
        Option.filter_eq_some_iff] at hlast
      exact (hrec'.sized _ _ (floor_spec hlast.1).1).offset_lt

/-! ## 5. Runs -/

/-- **When lookups keep finding the latest mapping**: exactly when every call fits the mappings it
finds. -/
theorem lookups_latest_iff (ovf : Overflow) (blockSize : Nat) (hpos : 0 < blockSize)
    (hlt : blockSize < 2 ^ 32) (calls : List CacheCall) (hcalls : ∀ call ∈ calls, call.Sized) :
    (∀ pre, pre <+: calls →
        LookupsLatest ovf blockSize pre (runState (cacheStep ovf blockSize) ∅ pre)) ↔
      Along (cacheStep ovf blockSize) (fun mappings call => call.Fits ovf blockSize mappings) ∅
        calls := by
  have hempty : Recorded blockSize [] ∅ := by
    constructor <;> simp
  have hstart : LookupsLatest ovf blockSize [] ∅ := by
    intro block _
    have hfloor : floor (∅ : ExtentMappings) block = none := floor_eq_none_iff.mpr (by simp)
    rw [findExtentForRange, hfloor]
    rfl
  refine forall_prefix_history_iff_along (I := Recorded blockSize)
    (P := LookupsLatest ovf blockSize) [] hempty hstart hcalls
    (fun past mappings call hrec hcall => hrec.step ovf hpos hlt hcall)
    fun past mappings call hrec hcall h => ?_
  cases call with
  | setExtentMapping blockStart mapping =>
    exact lookupsLatest_setExtentMapping_iff hpos hlt hrec h hcall
  | setExtentMappingRange start stop base =>
    exact lookupsLatest_setExtentMappingRange_iff hpos hlt hrec h hcall

def wholeExtent : CachedExtentMapping := ⟨⟨1#128⟩, 1, [⟨1#128⟩], [], 16384, 0⟩

def oneBlock : CachedExtentMapping := ⟨⟨1#128⟩, 2, [⟨1#128⟩], [], 4096, 0⟩

/-- Two mappings side by side, and a range behind them. -/
theorem lookups_latest_iff_side_by_side :
    LookupsLatest .checked 4096
      [.setExtentMapping 0 wholeExtent, .setExtentMapping 4 oneBlock,
        .setExtentMappingRange 5 7 oneBlock]
      (runState (cacheStep .checked 4096) ∅ [.setExtentMapping 0 wholeExtent,
        .setExtentMapping 4 oneBlock, .setExtentMappingRange 5 7 oneBlock]) := by
  refine (lookups_latest_iff .checked 4096 (by decide) (by decide)
    [.setExtentMapping 0 wholeExtent, .setExtentMapping 4 oneBlock,
      .setExtentMappingRange 5 7 oneBlock] ?_).mpr ?_ _ (List.prefix_refl _)
  · intro call hcall
    fin_cases hcall
    · exact ⟨by decide, ⟨by decide, by decide, by decide⟩⟩
    · exact ⟨by decide, ⟨by decide, by decide, by decide⟩⟩
    · show 7 < 2 ^ 64
      decide
  · refine ⟨⟨by decide, by simp, by decide⟩, ⟨by decide, ?_, by decide⟩,
      fun _ => ⟨by decide, by decide⟩, trivial⟩
    intro k hk hlt
    rcases ExtTreeMap.mem_insert.mp hk with he | he
    · rw [← LawfulEqOrd.compare_eq_iff_eq.mp he] at hlt
      cases hlt
    · simp at he

/-- **A block overwritten inside a mapping of four.**  The overwrite covers block 1 only, but block
2 is not found any more. -/
theorem overwrite_hides_the_rest :
    CacheCall.latest 4096 [.setExtentMapping 0 wholeExtent, .setExtentMappingRange 1 2 oneBlock] 2
        = some (0, wholeExtent) ∧
      findExtentForRange .checked 4096 (runState (cacheStep .checked 4096) ∅
        [.setExtentMapping 0 wholeExtent, .setExtentMappingRange 1 2 oneBlock]) 2
        = some none := by
  constructor <;> decide

end Ublk

end Blockyard
