/-
# The write coalescing buffer

`blockyard-ublk`, `ec_write_pipeline.rs`: `CoalescingBuffer` keeps ONE pending write per stripe.  A
further write to the stripe is merged into it: its data are put behind the data that are there, and
the block range is extended to cover both.  Whether the two ranges touch is not asked.

So the merge is right for a write that starts where the pending one ends, which is the case the
buffer is described for ("adjacent writes in the same stripe").  A gap or an overlap leaves a range
with too few or too many bytes, and a write IN FRONT of the pending one gets its data behind it
(`reversed_writes_swapped`).  `coalescing_preserves_iff` is the exact condition on each call.

The proof reads the pending writes block by block.  Writes of different stripes do not meet, so a
block holds what the pending write of its own stripe puts there (`writeAll_mapValues`), and a call
changes the entry of one stripe only (`writeAll_insert_iff`).
-/
import Blockyard.Lib.BlockDevice
import Blockyard.Lib.Run
import Blockyard.Raft.StateMachine

open Std Machine BlockDevice

namespace Blockyard.Ublk

open Raft (BlockRange)

/-! ## 1. The buffer -/

/-- `CoalescingConfig`; the delay is in nanoseconds. -/
structure CoalescingConfig where
  maxDelay : Nat
  maxBytes : Nat
  enabled : Bool
  deriving DecidableEq, Repr

def CoalescingConfig.default : CoalescingConfig := ⟨5000000, 128 * 1024, true⟩

structure PendingWrite where
  volumeId : VolumeId
  blockRange : BlockRange
  data : Bytes
  receivedAt : Nat
  deriving DecidableEq, Repr

namespace PendingWrite

def merge (existing write : PendingWrite) : PendingWrite :=
  { existing with
    data := existing.data ++ write.data
    blockRange := ⟨min existing.blockRange.start write.blockRange.start,
      max existing.blockRange.stop write.blockRange.stop⟩ }

end PendingWrite

/-- The pending writes, under the first blocks of their stripes. -/
abbrev PendingWrites := BTreeMap Nat PendingWrite

/-- The first block of a block's stripe.  The source panics when stripes have no block; no write
lies in such a stripe. -/
def stripeStart (stripeSize block : Nat) : Nat := block / stripeSize * stripeSize

/-- What a write leaves pending, before anything is flushed. -/
def mergeIn (stripeSize : Nat) (pending : PendingWrites) (write : PendingWrite) : PendingWrites :=
  let start := stripeStart stripeSize write.blockRange.start
  match pending[start]? with
  | some existing => pending.insert start (existing.merge write)
  | none => pending.insert start write

/-- `add_write` at the time `now`: what is pending afterwards, and the writes to be flushed. -/
def addWrite (config : CoalescingConfig) (stripeSize now : Nat) (pending : PendingWrites)
    (write : PendingWrite) : PendingWrites × List PendingWrite :=
  if !config.enabled then (pending, [write])
  else
    -- both limits are looked at before the write is merged in
    let totalBytes := ((mapValues pending).map (·.data.length)).sum
    let shouldFlush := totalBytes + write.data.length ≥ config.maxBytes
    let timeExceeded := (mapValues pending).any fun w => now - w.receivedAt ≥ config.maxDelay
    let pending := mergeIn stripeSize pending write
    if shouldFlush ∨ timeExceeded then (∅, mapValues pending) else (pending, [])

def flushAll (pending : PendingWrites) : PendingWrites × List PendingWrite :=
  (∅, mapValues pending)

/-! ## 2. Runs of the buffer -/

inductive BufferCall
  | addWrite (now : Nat) (write : PendingWrite)
  | flushAll

def BufferCall.added : BufferCall → List PendingWrite
  | .addWrite _ write => [write]
  | .flushAll => []

/-- The buffer, and the writes it has returned so far, in order. -/
structure Coalescing where
  pending : PendingWrites
  flushed : List PendingWrite

namespace Coalescing

/-- A buffer that was just made. -/
def new : Coalescing := ⟨∅, []⟩

def step (config : CoalescingConfig) (stripeSize : Nat) (s : Coalescing) (call : BufferCall) :
    Coalescing × List PendingWrite :=
  let (pending, out) := match call with
    | .addWrite now write => Ublk.addWrite config stripeSize now s.pending write
    | .flushAll => Ublk.flushAll s.pending
  (⟨pending, s.flushed ++ out⟩, out)

/-- The writes that are flushed when a `flush_all` comes last. -/
def flushedAtEnd (s : Coalescing) : List PendingWrite := s.flushed ++ (Ublk.flushAll s.pending).2

end Coalescing

/-! ## 3. What is promised -/

namespace PendingWrite

def onVolume (w : PendingWrite) : Nat × List UInt8 := (w.blockRange.start, w.data)

def Covers (w : PendingWrite) (b : Nat) : Prop := w.blockRange.start ≤ b ∧ b < w.blockRange.stop

def Whole (blockSize : Nat) (w : PendingWrite) : Prop :=
  w.data.length = (w.blockRange.stop - w.blockRange.start) * blockSize

/-- A write to the volume that lies in the stripe with first block `k`. -/
structure LiesIn (stripeSize k : Nat) (volumeId : VolumeId) (w : PendingWrite) : Prop where
  volume : w.volumeId = volumeId
  nonempty : w.blockRange.start < w.blockRange.stop
  stripe : stripeStart stripeSize w.blockRange.start = k
  stop_le : w.blockRange.stop ≤ k + stripeSize

/-- A block-aligned write inside a stripe. -/
structure Aligned (blockSize stripeSize : Nat) (volumeId : VolumeId) (w : PendingWrite) :
    Prop where
  inStripe : w.LiesIn stripeSize (stripeStart stripeSize w.blockRange.start) volumeId
  whole : w.Whole blockSize

end PendingWrite

/-- The flushed writes do to the volume what the added ones ask for. -/
structure Preserves (blockSize : Nat) (volumeId : VolumeId) (added flushed : List PendingWrite) :
    Prop where
  sameContents : ∀ dev, writeAll blockSize dev (flushed.map PendingWrite.onVolume)
    = writeAll blockSize dev (added.map PendingWrite.onVolume)
  noOtherBlock : ∀ w ∈ flushed, ∀ b, w.Covers b → ∃ w' ∈ added, w'.Covers b
  whole : ∀ w ∈ flushed, w.Whole blockSize
  volume : ∀ w ∈ flushed, w.volumeId = volumeId

/-- The pending write of the stripe, if any, is continued by the new one.  A write in front of it is
as good when it does not matter which data come first. -/
def Continues (config : CoalescingConfig) (stripeSize : Nat) (s : Coalescing) : BufferCall → Prop
  | .flushAll => True
  | .addWrite _ w => config.enabled = true → ∀ existing : PendingWrite,
      s.pending[stripeStart stripeSize w.blockRange.start]? = some existing →
        existing.blockRange.stop = w.blockRange.start ∨
          (w.blockRange.stop = existing.blockRange.start ∧
            existing.data ++ w.data = w.data ++ existing.data)

/-! ## 4. One write and one stripe -/

section Stripe

variable {blockSize stripeSize k b : Nat} {volumeId : VolumeId} {w existing : PendingWrite}

theorem stripeStart_le (stripeSize b : Nat) : stripeStart stripeSize b ≤ b :=
  Nat.div_mul_le_self b stripeSize

theorem stripeStart_eq_of_lt {start : Nat} (hle : stripeStart stripeSize start ≤ b)
    (hlt : b < stripeStart stripeSize start + stripeSize) :
    stripeStart stripeSize b = stripeStart stripeSize start := by
  have hdiv : b / stripeSize = start / stripeSize := by
    refine Nat.div_eq_of_lt_le hle ?_
    rwa [Nat.add_mul, Nat.one_mul]
  rw [stripeStart, hdiv, stripeStart]

namespace PendingWrite

theorem LiesIn.stripeStart_of_covers (h : w.LiesIn stripeSize k volumeId) (hb : w.Covers b) :
    stripeStart stripeSize b = k := by
  have hstart : stripeStart stripeSize w.blockRange.start ≤ b := (stripeStart_le _ _).trans hb.1
  rw [← h.stripe]
  refine stripeStart_eq_of_lt hstart ?_
  rw [h.stripe]
  exact Nat.lt_of_lt_of_le hb.2 h.stop_le

theorem LiesIn.merge (h : existing.LiesIn stripeSize k volumeId)
    (hw : w.LiesIn stripeSize k volumeId) : (existing.merge w).LiesIn stripeSize k volumeId where
  volume := h.volume
  nonempty := Nat.lt_of_le_of_lt (Nat.min_le_left _ _)
    (Nat.lt_of_lt_of_le h.nonempty (Nat.le_max_left _ _))
  stripe := by
    rcases Nat.le_total existing.blockRange.start w.blockRange.start with hle | hle
    · simp only [PendingWrite.merge, Nat.min_eq_left hle, h.stripe]
    · simp only [PendingWrite.merge, Nat.min_eq_right hle, hw.stripe]
  stop_le := Nat.max_le.mpr ⟨h.stop_le, hw.stop_le⟩

theorem replaces_onVolume (hpos : 0 < blockSize) (hw : w.Whole blockSize)
    (hrange : w.blockRange.start < w.blockRange.stop) :
    Replaces blockSize w.onVolume b ↔ w.Covers b := by
  have hcount : w.data.length / blockSize = w.blockRange.stop - w.blockRange.start := by
    rw [hw, Nat.mul_div_cancel _ hpos]
  simp only [Replaces, onVolume, Covers, hcount]
  omega

/-- The merged range has the bytes of both exactly when one range ends where the other starts. -/
theorem whole_merge_iff (hpos : 0 < blockSize) (he : existing.Whole blockSize)
    (hw : w.Whole blockSize) (hne : existing.blockRange.start < existing.blockRange.stop)
    (hnw : w.blockRange.start < w.blockRange.stop) :
    (existing.merge w).Whole blockSize ↔
      existing.blockRange.stop = w.blockRange.start ∨
        w.blockRange.stop = existing.blockRange.start := by
  simp only [Whole, merge, List.length_append] at he hw ⊢
  rw [he, hw, ← Nat.add_mul, Nat.mul_left_inj hpos.ne']
  omega

/-- **The merge.**  It has the right bytes and the right contents exactly when the new write
continues the pending one, or comes in front of it with data that commute. -/
theorem merge_iff (hpos : 0 < blockSize) (he : existing.Whole blockSize) (hw : w.Whole blockSize)
    (hne : existing.blockRange.start < existing.blockRange.stop)
    (hnw : w.blockRange.start < w.blockRange.stop) (dev : Nat → List UInt8) :
    ((existing.merge w).Whole blockSize ∧
        write blockSize dev (existing.merge w).blockRange.start (existing.merge w).data
          = write blockSize (write blockSize dev existing.blockRange.start existing.data)
            w.blockRange.start w.data) ↔
      existing.blockRange.stop = w.blockRange.start ∨
        (w.blockRange.stop = existing.blockRange.start ∧
          existing.data ++ w.data = w.data ++ existing.data) := by
  rw [whole_merge_iff hpos he hw hne hnw, or_and_right]
  refine or_congr (and_iff_left_of_imp fun hmeet => ?_) (and_congr_right fun hmeet => ?_)
  · -- the new data belong behind the old ones
    have hstart : (existing.merge w).blockRange.start = existing.blockRange.start :=
      Nat.min_eq_left (by omega)
    have hend : existing.blockRange.start + (existing.blockRange.stop - existing.blockRange.start)
        = w.blockRange.start := by omega
    rw [hstart, ← hend]
    exact write_append hpos he
  · -- the new data belong in front
    have hstart : (existing.merge w).blockRange.start = w.blockRange.start :=
      Nat.min_eq_right (by omega)
    have hend : w.blockRange.start + (w.blockRange.stop - w.blockRange.start)
        = existing.blockRange.start := by omega
    have hfront : write blockSize (write blockSize dev existing.blockRange.start existing.data)
        w.blockRange.start w.data
        = write blockSize dev w.blockRange.start (w.data ++ existing.data) := by
      rw [write_append hpos hw, hend, write_comm hpos hw (Nat.le_of_eq hend)]
    have hlen : (existing.data ++ w.data).length
        = (existing.blockRange.stop - w.blockRange.start) * blockSize := by
      rw [List.length_append, he, hw, ← Nat.add_mul]
      congr 1
      omega
    rw [hstart, hfront]
    refine ⟨fun h => write_injective hpos hlen ?_ h, fun h => congrArg _ h⟩
    rw [List.length_append, Nat.add_comm, ← List.length_append, hlen]

end PendingWrite

end Stripe

/-! ## 5. The pending writes on the volume -/

/-- Every pending write lies in the stripe it is kept under. -/
def Placed (stripeSize : Nat) (volumeId : VolumeId) (pending : PendingWrites) : Prop :=
  ∀ (k : Nat) (w : PendingWrite), pending[k]? = some w → w.LiesIn stripeSize k volumeId

def writeStripe (blockSize : Nat) (pending : PendingWrites) (k : Nat) (dev : Nat → List UInt8) :
    Nat → List UInt8 :=
  match pending[k]? with
  | some w => write blockSize dev w.blockRange.start w.data
  | none => dev

@[simp] theorem mapValues_empty : mapValues (∅ : PendingWrites) = [] := by simp [mapValues]

theorem mem_mapValues_insert {pending : PendingWrites} {k : Nat} {w w' : PendingWrite}
    (h : w' ∈ mapValues (pending.insert k w)) : w' = w ∨ w' ∈ mapValues pending := by
  obtain ⟨k', hk'⟩ := mem_mapValues.mp h
  by_cases hk : k = k'
  · rw [hk, ExtTreeMap.getElem?_insert_self] at hk'
    exact Or.inl (Option.some.inj hk').symm
  · rw [getElem?_insert_of_ne _ hk] at hk'
    exact Or.inr (mem_mapValues.mpr ⟨k', hk'⟩)

theorem mem_mapValues_insert_self (pending : PendingWrites) (k : Nat) (w : PendingWrite) :
    w ∈ mapValues (pending.insert k w) :=
  mem_mapValues.mpr ⟨k, ExtTreeMap.getElem?_insert_self⟩

section Volume

variable {blockSize stripeSize k : Nat} {volumeId : VolumeId} {pending : PendingWrites}
  {w m : PendingWrite} {dev : Nat → List UInt8}

theorem Placed.insert (h : Placed stripeSize volumeId pending)
    (hw : w.LiesIn stripeSize k volumeId) : Placed stripeSize volumeId (pending.insert k w) := by
  intro k' w' hk'
  by_cases hk : k = k'
  · rw [hk, ExtTreeMap.getElem?_insert_self] at hk'
    rw [← Option.some.inj hk', ← hk]
    exact hw
  · rw [getElem?_insert_of_ne _ hk] at hk'
    exact h k' w' hk'

variable (hpos : 0 < blockSize)

include hpos

/-- Flushing the pending writes gives each block what the pending write of its stripe has for it:
the others do not touch it, so their order does not matter. -/
theorem writeAll_mapValues (hplaced : Placed stripeSize volumeId pending)
    (hwhole : ∀ w ∈ mapValues pending, w.Whole blockSize) (b : Nat) :
    writeAll blockSize dev ((mapValues pending).map PendingWrite.onVolume) b
      = writeStripe blockSize pending (stripeStart stripeSize b) dev b := by
  have hrep : ∀ v ∈ (mapValues pending).map PendingWrite.onVolume, Replaces blockSize v b →
      ∃ w : PendingWrite, pending[stripeStart stripeSize b]? = some w ∧ v = w.onVolume := by
    intro v hv hb
    obtain ⟨w, hw, rfl⟩ := List.mem_map.mp hv
    obtain ⟨k, hk⟩ := mem_mapValues.mp hw
    have hlies := hplaced k w hk
    have hcovers := (PendingWrite.replaces_onVolume hpos (hwhole w hw) hlies.nonempty).mp hb
    rw [hlies.stripeStart_of_covers hcovers]
    exact ⟨w, hk, rfl⟩
  rw [writeStripe]
  cases hentry : pending[stripeStart stripeSize b]? with
  | none =>
    refine writeAll_of_not_replaces fun v hv hb => ?_
    obtain ⟨w, hw, _⟩ := hrep v hv hb
    rw [hentry] at hw
    cases hw
  | some w =>
    refine writeAll_of_unique (List.mem_map_of_mem (mem_mapValues.mpr ⟨_, hentry⟩))
      fun v hv hb => ?_
    obtain ⟨w', hw', rfl⟩ := hrep v hv hb
    rw [hentry] at hw'
    rw [Option.some.inj hw']

/-- A write leaves the blocks of other stripes alone. -/
theorem PendingWrite.LiesIn.write_of_ne (h : w.LiesIn stripeSize k volumeId)
    (hw : w.Whole blockSize) {b : Nat} (hb : stripeStart stripeSize b ≠ k) :
    write blockSize dev w.blockRange.start w.data b = dev b := by
  refine write_of_not_replaces (w := w.onVolume) fun hrep => hb (h.stripeStart_of_covers ?_)
  exact (PendingWrite.replaces_onVolume hpos hw h.nonempty).mp hrep

/-- **One entry is replaced.**  The flushed contents change by a write `w` exactly when the new
entry of the stripe does what the old entry and then `w` do. -/
theorem writeAll_insert_iff (hplaced : Placed stripeSize volumeId pending)
    (hwhole : ∀ w ∈ mapValues pending, w.Whole blockSize) (hm : m.LiesIn stripeSize k volumeId)
    (hmwhole : m.Whole blockSize) (hw : w.LiesIn stripeSize k volumeId)
    (hwwhole : w.Whole blockSize) :
    writeAll blockSize dev ((mapValues (pending.insert k m)).map PendingWrite.onVolume)
        = write blockSize (writeAll blockSize dev ((mapValues pending).map PendingWrite.onVolume))
          w.blockRange.start w.data ↔
      write blockSize dev m.blockRange.start m.data
        = write blockSize (writeStripe blockSize pending k dev) w.blockRange.start w.data := by
  have hwhole' : ∀ v ∈ mapValues (pending.insert k m), v.Whole blockSize := by
    intro v hv
    rcases mem_mapValues_insert hv with rfl | hv
    · exact hmwhole
    · exact hwhole v hv
  rw [funext_iff, funext_iff]
  refine forall_congr' fun b => ?_
  rw [writeAll_mapValues hpos (hplaced.insert hm) hwhole']
  have hold : writeAll blockSize dev ((mapValues pending).map PendingWrite.onVolume) b = _ :=
    writeAll_mapValues hpos hplaced hwhole b
  by_cases hb : stripeStart stripeSize b = k
  · -- a block of the stripe
    rw [hb] at hold ⊢
    rw [write_congr hold]
    simp only [writeStripe, ExtTreeMap.getElem?_insert_self]
  · -- a block of another stripe: nothing happens on either side
    have hstripe : writeStripe blockSize pending k dev b = dev b := by
      rw [writeStripe]
      cases hentry : pending[k]? with
      | none => rfl
      | some e =>
        exact (hplaced k e hentry).write_of_ne hpos (hwhole e (mem_mapValues.mpr ⟨k, hentry⟩)) hb
    rw [hw.write_of_ne hpos hwwhole hb, hw.write_of_ne hpos hwwhole hb, hold, hstripe,
      hm.write_of_ne hpos hmwhole hb]
    simp only [writeStripe, getElem?_insert_of_ne _ (Ne.symm hb)]

end Volume

/-! ## 6. A call and a run -/

section Calls

variable {blockSize stripeSize k : Nat} {volumeId : VolumeId} {pending : PendingWrites}
  {w m : PendingWrite} {added flushed : List PendingWrite}

/-- What was kept for the writes so far is kept when the same write is added and flushed. -/
theorem Preserves.snoc (h : Preserves blockSize volumeId added flushed)
    (hw : w.Whole blockSize) (hvol : w.volumeId = volumeId) :
    Preserves blockSize volumeId (added ++ [w]) (flushed ++ [w]) where
  sameContents := by
    intro dev
    simp only [List.map_append, List.map_cons, List.map_nil, writeAll_snoc, h.sameContents]
  noOtherBlock := by
    intro v hv b hb
    rcases List.mem_append.mp hv with hv | hv
    · obtain ⟨v', hv', hb'⟩ := h.noOtherBlock v hv b hb
      exact ⟨v', List.mem_append_left _ hv', hb'⟩
    · exact ⟨v, List.mem_append_right _ hv, hb⟩
  whole := by
    intro v hv
    rcases List.mem_append.mp hv with hv | hv
    · exact h.whole v hv
    · exact List.mem_singleton.mp hv ▸ hw
  volume := by
    intro v hv
    rcases List.mem_append.mp hv with hv | hv
    · exact h.volume v hv
    · exact List.mem_singleton.mp hv ▸ hvol

/-- A new entry for the stripe of a write keeps what was kept exactly when the entry is right: its
bytes, its blocks, and its contents. -/
theorem Preserves.insert_iff (hpos : 0 < blockSize) (hplaced : Placed stripeSize volumeId pending)
    (h : Preserves blockSize volumeId added (flushed ++ mapValues pending))
    (hm : m.LiesIn stripeSize k volumeId) (hw : w.LiesIn stripeSize k volumeId)
    (hwwhole : w.Whole blockSize) :
    Preserves blockSize volumeId (added ++ [w]) (flushed ++ mapValues (pending.insert k m)) ↔
      (∀ b, m.Covers b → ∃ v ∈ added ++ [w], v.Covers b) ∧ ∀ dev, m.Whole blockSize ∧
        write blockSize (writeAll blockSize dev (flushed.map PendingWrite.onVolume))
          m.blockRange.start m.data
          = write blockSize (writeStripe blockSize pending k
              (writeAll blockSize dev (flushed.map PendingWrite.onVolume)))
            w.blockRange.start w.data := by
  have hwhole : ∀ v ∈ mapValues pending, v.Whole blockSize :=
    fun v hv => h.whole v (List.mem_append_right _ hv)
  -- the contents before the call, with the flushed writes taken apart
  have hbefore : ∀ dev, writeAll blockSize dev ((added ++ [w]).map PendingWrite.onVolume)
      = write blockSize (writeAll blockSize
          (writeAll blockSize dev (flushed.map PendingWrite.onVolume))
          ((mapValues pending).map PendingWrite.onVolume)) w.blockRange.start w.data := by
    intro dev
    rw [← writeAll_append, ← List.map_append, h.sameContents, List.map_append]
    exact writeAll_snoc
  constructor
  · intro h'
    have hmem : m ∈ flushed ++ mapValues (pending.insert k m) :=
      List.mem_append_right _ (mem_mapValues_insert_self pending k m)
    refine ⟨h'.noOtherBlock m hmem, fun dev => ⟨h'.whole m hmem, ?_⟩⟩
    refine (writeAll_insert_iff hpos hplaced hwhole hm (h'.whole m hmem) hw hwwhole).mp ?_
    rw [← hbefore, ← h'.sameContents, List.map_append, writeAll_append]
  · rintro ⟨hblocks, hentry⟩
    have hmwhole : m.Whole blockSize := (hentry fun _ => []).1
    have hcases : ∀ v ∈ flushed ++ mapValues (pending.insert k m),
        v = m ∨ v ∈ flushed ++ mapValues pending := by
      intro v hv
      rcases List.mem_append.mp hv with hv | hv
      · exact Or.inr (List.mem_append_left _ hv)
      · exact (mem_mapValues_insert hv).imp_right (List.mem_append_right _)
    constructor
    · intro dev
      rw [hbefore, List.map_append, writeAll_append]
      exact (writeAll_insert_iff hpos hplaced hwhole hm hmwhole hw hwwhole).mpr (hentry dev).2
    · intro v hv b hb
      rcases hcases v hv with rfl | hv
      · exact hblocks b hb
      · obtain ⟨v', hv', hb'⟩ := h.noOtherBlock v hv b hb
        exact ⟨v', List.mem_append_left _ hv', hb'⟩
    · intro v hv
      rcases hcases v hv with rfl | hv
      · exact hmwhole
      · exact h.whole v hv
    · intro v hv
      rcases hcases v hv with rfl | hv
      · exact hm.volume
      · exact h.volume v hv

/-- **One write.**  Merging it in keeps what was kept exactly when it continues the pending write
of its stripe. -/
theorem Preserves.mergeIn_iff (hpos : 0 < blockSize) (hplaced : Placed stripeSize volumeId pending)
    (h : Preserves blockSize volumeId added (flushed ++ mapValues pending))
    (hw : w.Aligned blockSize stripeSize volumeId) :
    Preserves blockSize volumeId (added ++ [w])
        (flushed ++ mapValues (mergeIn stripeSize pending w)) ↔
      ∀ existing : PendingWrite,
        pending[stripeStart stripeSize w.blockRange.start]? = some existing →
          existing.blockRange.stop = w.blockRange.start ∨
            (w.blockRange.stop = existing.blockRange.start ∧
              existing.data ++ w.data = w.data ++ existing.data) := by
  rw [mergeIn]
  cases hentry : pending[stripeStart stripeSize w.blockRange.start]? with
  | none =>
    -- the write becomes the entry
    simp only [reduceCtorEq, false_imp_iff, implies_true, iff_true]
    refine (h.insert_iff hpos hplaced hw.inStripe hw.inStripe hw.whole).mpr ⟨?_, fun dev => ?_⟩
    · exact fun b hb => ⟨w, List.mem_append_right _ (List.mem_singleton_self w), hb⟩
    · rw [writeStripe, hentry]
      exact ⟨hw.whole, rfl⟩
  | some e =>
    have he := hplaced _ e hentry
    have hmem : e ∈ flushed ++ mapValues pending :=
      List.mem_append_right _ (mem_mapValues.mpr ⟨_, hentry⟩)
    have hmerge := PendingWrite.merge_iff hpos (h.whole e hmem) hw.whole he.nonempty
      hw.inStripe.nonempty
    simp only [Option.some.injEq, forall_eq']
    refine (h.insert_iff hpos hplaced (he.merge hw.inStripe) hw.inStripe hw.whole).trans ?_
    simp only [writeStripe, hentry]
    constructor
    · rintro ⟨_, hcontents⟩
      exact (hmerge _).mp (hcontents fun _ => [])
    · intro hmeet
      refine ⟨fun b hb => ?_, fun dev => (hmerge _).mpr hmeet⟩
      -- ranges that meet have no other block between them
      have hcover : e.Covers b ∨ w.Covers b := by
        have hne := he.nonempty
        have hnw := hw.inStripe.nonempty
        simp only [PendingWrite.Covers, PendingWrite.merge] at hb ⊢
        omega
      rcases hcover with hb | hb
      · obtain ⟨v, hv, hvb⟩ := h.noOtherBlock e hmem b hb
        exact ⟨v, List.mem_append_left _ hv, hvb⟩
      · exact ⟨w, List.mem_append_right _ (List.mem_singleton_self w), hb⟩

theorem Placed.mergeIn (hplaced : Placed stripeSize volumeId pending)
    (hw : w.Aligned blockSize stripeSize volumeId) :
    Placed stripeSize volumeId (mergeIn stripeSize pending w) := by
  rw [Ublk.mergeIn]
  cases hentry : pending[stripeStart stripeSize w.blockRange.start]? with
  | none => exact hplaced.insert hw.inStripe
  | some e => exact hplaced.insert ((hplaced _ e hentry).merge hw.inStripe)

end Calls

namespace Coalescing

variable {config : CoalescingConfig} {blockSize stripeSize : Nat} {volumeId : VolumeId}
  {s : Coalescing} {added : List PendingWrite} {call : BufferCall}

/-- What holds of the buffer whatever is written. -/
structure Inv (config : CoalescingConfig) (stripeSize : Nat) (volumeId : VolumeId)
    (s : Coalescing) : Prop where
  placed : Placed stripeSize volumeId s.pending
  disabled : config.enabled = false → s.pending = ∅

theorem placed_empty : Placed stripeSize volumeId ∅ := by
  intro k w h
  simp at h

theorem inv_new : Inv config stripeSize volumeId new := ⟨placed_empty, fun _ => rfl⟩

/-- Flushed at once or pending: in the end it makes no difference. -/
theorem flushedAtEnd_addWrite (henabled : config.enabled = true) (now : Nat) (w : PendingWrite) :
    (step config stripeSize s (.addWrite now w)).1.flushedAtEnd
      = s.flushed ++ mapValues (mergeIn stripeSize s.pending w) := by
  simp only [step, addWrite, henabled, Bool.not_true, Bool.false_eq_true, if_false, flushedAtEnd,
    flushAll]
  split <;> simp

theorem flushedAtEnd_flushAll :
    (step config stripeSize s .flushAll).1.flushedAtEnd = s.flushedAtEnd := by
  simp [step, flushedAtEnd, flushAll]

theorem Inv.step (h : Inv config stripeSize volumeId s)
    (hcall : ∀ w ∈ call.added, w.Aligned blockSize stripeSize volumeId) :
    Inv config stripeSize volumeId (Coalescing.step config stripeSize s call).1 := by
  cases call with
  | flushAll => exact ⟨placed_empty, fun _ => rfl⟩
  | addWrite now w =>
    have hw : w.Aligned blockSize stripeSize volumeId := hcall w (List.mem_singleton_self w)
    cases henabled : config.enabled with
    | false =>
      simp only [Coalescing.step, addWrite, henabled, Bool.not_false, if_true]
      exact ⟨h.placed, h.disabled⟩
    | true =>
      refine ⟨?_, fun hoff => absurd hoff (by simp [henabled])⟩
      simp only [Coalescing.step, addWrite, henabled, Bool.not_true, Bool.false_eq_true, if_false]
      split
      · exact placed_empty
      · exact h.placed.mergeIn hw

/-- **One call** keeps what was kept exactly when its write continues the pending one. -/
theorem preserves_step_iff (hpos : 0 < blockSize) (hinv : Inv config stripeSize volumeId s)
    (hcall : ∀ w ∈ call.added, w.Aligned blockSize stripeSize volumeId)
    (h : Preserves blockSize volumeId added s.flushedAtEnd) :
    Preserves blockSize volumeId (added ++ call.added)
        (step config stripeSize s call).1.flushedAtEnd ↔
      Continues config stripeSize s call := by
  cases call with
  | flushAll =>
    rw [flushedAtEnd_flushAll]
    simpa [BufferCall.added, Continues] using h
  | addWrite now w =>
    have hw : w.Aligned blockSize stripeSize volumeId := hcall w (List.mem_singleton_self w)
    cases henabled : config.enabled with
    | false =>
      -- nothing is pending, and the write goes through
      have hempty : s.pending = ∅ := hinv.disabled henabled
      have hflushed : s.flushedAtEnd = s.flushed := by
        simp [flushedAtEnd, flushAll, hempty]
      have hnext : (step config stripeSize s (.addWrite now w)).1.flushedAtEnd
          = s.flushed ++ [w] := by
        simp [step, addWrite, henabled, flushedAtEnd, flushAll, hempty]
      rw [hnext]
      rw [hflushed] at h
      refine iff_of_true (h.snoc hw.whole hw.inStripe.volume) ?_
      intro hon
      rw [henabled] at hon
      cases hon
    | true =>
      rw [flushedAtEnd_addWrite henabled]
      refine (h.mergeIn_iff hpos hinv.placed hw).trans ?_
      simp only [Continues, henabled, true_imp_iff]

end Coalescing

/-- **The coalescing buffer.**  At every time of a run, the writes flushed so far and by a final
`flush_all` do to the volume what the added writes ask for, exactly when every write finds its
stripe without a pending write or continues the one that is there. -/
theorem coalescing_preserves_iff (config : CoalescingConfig) (blockSize stripeSize : Nat)
    (hblock : 0 < blockSize) (volumeId : VolumeId) (calls : List BufferCall)
    (hcalls : ∀ call ∈ calls, ∀ w ∈ call.added, w.Aligned blockSize stripeSize volumeId) :
    (∀ past, past <+: calls → Preserves blockSize volumeId (past.flatMap BufferCall.added)
        (runState (Coalescing.step config stripeSize) .new past).flushedAtEnd) ↔
      Along (Coalescing.step config stripeSize) (Continues config stripeSize) .new calls := by
  have h0 : Preserves blockSize volumeId [] Coalescing.new.flushedAtEnd := by
    constructor <;> simp [Coalescing.new, Coalescing.flushedAtEnd, flushAll]
  refine forall_prefix_history_iff_along
    (I := fun _ s => Coalescing.Inv config stripeSize volumeId s)
    (P := fun past s => Preserves blockSize volumeId (past.flatMap BufferCall.added)
      s.flushedAtEnd) [] Coalescing.inv_new h0 hcalls ?_ ?_
  · exact fun _ _ _ hinv hcall => hinv.step hcall
  · intro past s call hinv hcall h
    rw [List.flatMap_append, List.flatMap_singleton]
    exact Coalescing.preserves_step_iff hblock hinv hcall h

def coalescedVolume : VolumeId := ⟨7#128⟩

def byteWrite (start : Nat) (data : Bytes) : PendingWrite :=
  ⟨coalescedVolume, ⟨start, start + data.length⟩, data, 0⟩

/-- In stripes of four blocks, two writes one behind the other. -/
theorem coalescing_preserves_iff_in_order :
    Preserves 1 coalescedVolume [byteWrite 0 [1, 2], byteWrite 2 [3]]
      (runState (Coalescing.step .default 4) .new
        [.addWrite 0 (byteWrite 0 [1, 2]), .addWrite 1 (byteWrite 2 [3])]).flushedAtEnd := by
  refine (coalescing_preserves_iff .default 1 4 Nat.one_pos coalescedVolume
    [.addWrite 0 (byteWrite 0 [1, 2]), .addWrite 1 (byteWrite 2 [3])] ?_).mpr ?_ _
    (List.prefix_refl _)
  · simp only [List.mem_cons, List.not_mem_nil, or_false, forall_eq_or_imp, forall_eq,
      BufferCall.added]
    exact ⟨⟨⟨rfl, by decide, rfl, by decide⟩, rfl⟩, ⟨⟨rfl, by decide, rfl, by decide⟩, rfl⟩⟩
  · refine ⟨fun _ e he => ?_, fun _ e he => ?_, trivial⟩
    · cases he
    · cases he
      exact Or.inl rfl

/-- **A write in front of the pending one.**  Blocks 2 and 3 are written, then blocks 0 and 1.  One
write of all four blocks is flushed, with the two halves the wrong way round. -/
theorem reversed_writes_swapped :
    let calls := [.addWrite 0 (byteWrite 2 [3, 4]), .addWrite 1 (byteWrite 0 [1, 2])]
    let flushed := (runState (Coalescing.step .default 4) .new calls).flushedAtEnd
    flushed = [⟨coalescedVolume, ⟨0, 4⟩, [3, 4, 1, 2], 0⟩] ∧
      ¬ Preserves 1 coalescedVolume (calls.flatMap BufferCall.added) flushed := by
  intro calls flushed
  have hflushed : flushed = [⟨coalescedVolume, ⟨0, 4⟩, [3, 4, 1, 2], 0⟩] := by decide
  refine ⟨hflushed, fun h => ?_⟩
  have hblock := congrFun (h.sameContents fun _ => []) 0
  rw [hflushed] at hblock
  exact absurd hblock (by decide)

end Blockyard.Ublk
