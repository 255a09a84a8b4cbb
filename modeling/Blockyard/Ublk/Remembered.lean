/-
# What the cache says about a recovered operation

`blockyard-ublk`, `ambiguous_write.rs` and `crash_recovery.rs`: both resolvers put the mapping of a
committed operation into the cache with `set_extent_mapping`, under the first block of its range
and with `size_bytes: 0`.  The range itself is dropped.  For `find_extent_for_range` a mapping of
size 0 has NO end, so the recovered mapping answers for every block from its first one up to the
next entry: too far when no entry starts at the end of the range, and not far enough when an entry
starts inside it.

`recovered_exactly_iff` is the exact condition, on the entries the recovery finds.  An empty cache
does not meet it (`recovered_mapping_has_no_end`).
-/
import Blockyard.Ublk.Recovery

open Std IntervalTable

namespace Blockyard.Ublk

/-! ## 1. Processing one operation last -/

def Resolver.mappingsOf (r : Resolver) (volumeId : VolumeId) : ExtentMappings :=
  r.extentMappings[volumeId]?.getD ∅

/-- The entry a resolver makes of a committed mapping. -/
def CommittedMapping.cached (mapping : CommittedMapping) : CachedExtentMapping where
  extentId := mapping.extentId
  extentVersion := mapping.extentVersion
  replicaLocations := mapping.replicaLocations
  checksums := mapping.checksums
  sizeBytes := 0
  extentOffset := 0

/-- **An operation is processed last**: by `resolve`, or by a `recover` that has got through the
operations before it. -/
inductive Recovers (client : MetadataClient) (volumeId : VolumeId) (operationId : OperationId) :
    Resolver → Resolver → Prop
  | resolve (before : Resolver) :
    Recovers client volumeId operationId before (resolve client before volumeId operationId).1
  | recover (start before : Resolver) (currentEpoch : EpochId) (earlier : List OperationId)
      (counts : RecoveryCounts) (hepoch : client.currentEpoch = .ok currentEpoch)
      (hearlier : recoverOps client volumeId earlier
        { start with cache := { start.cache with epoch := currentEpoch } } ⟨0, 0, []⟩
          = (before, .ok counts)) :
    Recovers client volumeId operationId before
      (recover client start volumeId (earlier ++ [operationId])).1

variable {volumeId : VolumeId} {mapping : CommittedMapping} {ovf : Overflow} {blockSize : Nat}
  {mappings : ExtentMappings}

theorem recoverOps_append {client : MetadataClient} {earlier : List OperationId}
    {r before : Resolver} {counts counts' : RecoveryCounts}
    (h : recoverOps client volumeId earlier r counts = (before, .ok counts'))
    (later : List OperationId) :
    recoverOps client volumeId (earlier ++ later) r counts
      = recoverOps client volumeId later before counts' := by
  induction earlier generalizing r counts with
  | nil =>
    cases h
    rfl
  | cons opId rest ih =>
    rw [List.cons_append, recoverOps]
    rw [recoverOps] at h
    cases hlookup : client.lookupOperation opId with
    | error e =>
      rw [hlookup] at h
      cases h
    | ok found =>
      rw [hlookup] at h
      cases found with
      | none => exact ih h
      | some mapping => exact ih h

theorem mappingsOf_remember {r : Resolver} (hvol : volumeId ∈ r.cache.volumes)
    (mapping : CommittedMapping) :
    (r.remember volumeId mapping).mappingsOf volumeId
      = (r.mappingsOf volumeId).insert mapping.blockRange.start mapping.cached := by
  obtain ⟨info, hinfo⟩ := exists_getElem?_of_mem hvol
  simp [Resolver.remember, Resolver.setExtentMapping, hinfo, Resolver.mappingsOf,
    CommittedMapping.cached]

/-- **What recovery does to the mappings of the volume**: one entry, under the first block. -/
theorem Recovers.mappingsOf {client : MetadataClient} {operationId : OperationId}
    {before after : Resolver} (h : Recovers client volumeId operationId before after)
    (hvol : volumeId ∈ before.cache.volumes)
    (hlookup : client.lookupOperation operationId = .ok (some mapping)) :
    after.mappingsOf volumeId
      = (before.mappingsOf volumeId).insert mapping.blockRange.start mapping.cached := by
  rw [← mappingsOf_remember hvol]
  cases h with
  | resolve =>
    rw [Ublk.resolve, hlookup]
    rfl
  | recover start _ currentEpoch earlier counts hepoch hearlier =>
    rw [Ublk.recover, hepoch]
    simp only [recoverOps_append hearlier, recoverOps, hlookup]
    rfl

/-! ## 2. What is promised, and what is left of it -/

/-- A cached entry holds the extent of a committed mapping, the whole range or a part of it. -/
def CommittedMapping.HeldBy (mapping : CommittedMapping) (entry : CachedExtentMapping) : Prop :=
  entry.extentId = mapping.extentId ∧ entry.extentVersion = mapping.extentVersion ∧
    entry.replicaLocations = mapping.replicaLocations ∧ entry.checksums = mapping.checksums

/-- A block is answered with a committed mapping. -/
def AnsweredWith (ovf : Overflow) (blockSize : Nat) (mappings : ExtentMappings)
    (mapping : CommittedMapping) (block : Nat) : Prop :=
  ∃ start entry, findExtentForRange ovf blockSize mappings block = some (some (start, entry)) ∧
    mapping.HeldBy entry

/-- **The promise**: the mapping answers for the blocks of its range, and for no others. -/
structure CoversExactly (ovf : Overflow) (blockSize : Nat) (before after : ExtentMappings)
    (mapping : CommittedMapping) : Prop where
  inside : ∀ block, mapping.blockRange.start ≤ block → block < mapping.blockRange.stop →
    AnsweredWith ovf blockSize after mapping block
  outside : ∀ block < 2 ^ 64,
    ¬ (mapping.blockRange.start ≤ block ∧ block < mapping.blockRange.stop) →
    findExtentForRange ovf blockSize after block = findExtentForRange ovf blockSize before block

/-- **The condition**: a block of the range that has a nearer entry is answered with the mapping
already, and there is an entry that ends the reach of the new one in time, or the new one was there
before. -/
structure Delimited (ovf : Overflow) (blockSize : Nat) (before : ExtentMappings)
    (mapping : CommittedMapping) : Prop where
  nearer : ∀ block k, k ∈ before → mapping.blockRange.start < k → k ≤ block →
    block < mapping.blockRange.stop → AnsweredWith ovf blockSize before mapping block
  ended : (∃ k ∈ before, mapping.blockRange.start < k ∧ k ≤ mapping.blockRange.stop) ∨
    before[mapping.blockRange.start]? = some mapping.cached

theorem findExtentForRange_congr {before after : ExtentMappings} {block : Nat}
    (h : floor after block = floor before block) :
    findExtentForRange ovf blockSize after block
      = findExtentForRange ovf blockSize before block := by
  rw [findExtentForRange, findExtentForRange, h]

theorem findExtentForRange_of_unsized {block start : Nat}
    (h : floor mappings block = some (start, mapping.cached)) :
    findExtentForRange ovf blockSize mappings block = some (some (start, mapping.cached)) := by
  rw [findExtentForRange, h]
  rfl

/-- What a lookup finds is the nearest entry. -/
theorem floor_of_findExtentForRange {block : Nat} {row : Nat × CachedExtentMapping}
    (h : findExtentForRange ovf blockSize mappings block = some (some row)) :
    floor mappings block = some row := by
  unfold findExtentForRange at h
  cases hfloor : floor mappings block with
  | none =>
    rw [hfloor] at h
    cases h
  | some found =>
    rw [hfloor] at h
    dsimp only at h
    split at h
    · split at h
      · cases h
      · split at h <;> cases h
        rfl
    · cases h
      rfl

theorem coversExactly_insert_iff (ovf : Overflow) (blockSize : Nat) (before : ExtentMappings)
    (hrange : mapping.blockRange.start < mapping.blockRange.stop)
    (hstop : mapping.blockRange.stop < 2 ^ 64) :
    CoversExactly ovf blockSize before
        (before.insert mapping.blockRange.start mapping.cached) mapping ↔
      Delimited ovf blockSize before mapping := by
  constructor
  · intro h
    constructor
    · intro block k hk hstart hkb hblock
      obtain ⟨start, entry, hfound, hheld⟩ := h.inside block (by omega) hblock
      rcases floor_insert before mapping.blockRange.start mapping.cached block with
        ⟨hsame, -⟩ | ⟨-, -, hnone⟩
      · rw [findExtentForRange_congr hsame] at hfound
        exact ⟨start, entry, hfound, hheld⟩
      · exact absurd (hnone k hk hstart) (Nat.not_lt_of_le hkb)
    · refine or_iff_not_imp_left.mpr fun hfree => ?_
      -- Nothing ends the new entry in time, so it answers for the block behind the range.
      have hend := h.outside mapping.blockRange.stop hstop (by omega)
      rcases floor_insert before mapping.blockRange.start mapping.cached mapping.blockRange.stop
        with ⟨-, hlt | ⟨k, hk, hk'⟩⟩ | ⟨hnew, -, -⟩
      · omega
      · exact absurd ⟨k, hk, hk'⟩ hfree
      · rw [findExtentForRange_of_unsized hnew] at hend
        exact (floor_spec (floor_of_findExtentForRange hend.symm)).1
  · rintro ⟨hnearer, hended⟩
    constructor
    · intro block hstart hblock
      rcases floor_insert before mapping.blockRange.start mapping.cached block with
        ⟨hsame, hlt | ⟨k, hk, hk', hkb⟩⟩ | ⟨hnew, -, -⟩
      · omega
      · obtain ⟨start, entry, hfound, hheld⟩ := hnearer block k hk hk' hkb hblock
        exact ⟨start, entry, (findExtentForRange_congr hsame).trans hfound, hheld⟩
      · exact ⟨_, _, findExtentForRange_of_unsized hnew, rfl, rfl, rfl, rfl⟩
    · intro block _ hout
      rcases floor_insert before mapping.blockRange.start mapping.cached block with
        ⟨hsame, -⟩ | ⟨hnew, hle, hnone⟩
      · exact findExtentForRange_congr hsame
      · rcases hended with ⟨k, hk, hk', hkstop⟩ | hthere
        · exact absurd (hnone k hk hk') (by omega)
        · have hold : floor before block = some (mapping.blockRange.start, mapping.cached) := by
            refine floor_eq_some_iff.mpr ⟨hthere, hle, fun k hk hkb => ?_⟩
            by_contra hlt
            exact absurd (hnone k hk (Nat.lt_of_not_le hlt)) (Nat.not_lt_of_le hkb)
          exact findExtentForRange_congr (hnew.trans hold.symm)

/-- **When a recovered mapping covers exactly its range.** -/
theorem recovered_exactly_iff (ovf : Overflow) (blockSize : Nat) (client : MetadataClient)
    (volumeId : VolumeId) (operationId : OperationId) (mapping : CommittedMapping)
    (before after : Resolver) (hrecovers : Recovers client volumeId operationId before after)
    (hvol : volumeId ∈ before.cache.volumes)
    (hlookup : client.lookupOperation operationId = .ok (some mapping))
    (hrange : mapping.blockRange.start < mapping.blockRange.stop)
    (hstop : mapping.blockRange.stop < 2 ^ 64) :
    CoversExactly ovf blockSize (before.mappingsOf volumeId) (after.mappingsOf volumeId) mapping ↔
      Delimited ovf blockSize (before.mappingsOf volumeId) mapping := by
  rw [hrecovers.mappingsOf hvol hlookup]
  exact coversExactly_insert_iff ovf blockSize (before.mappingsOf volumeId) hrange hstop

/-! ## 3. Two caches -/

def firstBlocks : CommittedMapping := ⟨⟨1#128⟩, 1, 1, ⟨0, 2⟩, [⟨1#128⟩], []⟩

def knowingClient : MetadataClient := ⟨.ok 1, fun _ => .ok (some firstBlocks)⟩

def volumeCached (mappings : ExtentMappings) : Resolver :=
  ⟨⟨0, ∅, (∅ : BTreeMap VolumeId CachedVolumeInfo).insert ⟨7#128⟩ ⟨.replicated 1⟩⟩,
    (∅ : BTreeMap VolumeId ExtentMappings).insert ⟨7#128⟩ mappings, 0⟩

theorem recovered_exactly_iff_ended :
    CoversExactly .checked 4096
      ((volumeCached ((∅ : ExtentMappings).insert 2 wholeExtent)).mappingsOf ⟨7#128⟩)
      ((resolve knowingClient (volumeCached ((∅ : ExtentMappings).insert 2 wholeExtent)) ⟨7#128⟩
        ⟨9#128⟩).1.mappingsOf ⟨7#128⟩) firstBlocks := by
  have hmappings : (volumeCached ((∅ : ExtentMappings).insert 2 wholeExtent)).mappingsOf ⟨7#128⟩
      = (∅ : ExtentMappings).insert 2 wholeExtent := by
    simp [volumeCached, Resolver.mappingsOf]
  refine (recovered_exactly_iff .checked 4096 knowingClient ⟨7#128⟩ ⟨9#128⟩ firstBlocks _ _
    (.resolve _) (by simp [volumeCached]) rfl (by decide) (by decide)).mpr ⟨?_, .inl ?_⟩
  · intro block k hk hstart hkb hstop
    rw [hmappings, ExtTreeMap.mem_insert] at hk
    have hlt : block < 2 := hstop
    rcases hk with he | he
    · have hk2 : 2 = k := LawfulEqOrd.compare_eq_iff_eq.mp he
      omega
    · simp at he
  · rw [hmappings]
    exact ⟨2, by simp, by decide, by decide⟩

/-- **A recovered mapping has no end.**  The operation was committed on the blocks 0 and 1; block 2
was unknown before the recovery and is answered with its mapping after it. -/
theorem recovered_mapping_has_no_end :
    findExtentForRange .checked 4096 ((volumeCached ∅).mappingsOf ⟨7#128⟩) 2 = some none ∧
      findExtentForRange .checked 4096
        ((resolve knowingClient (volumeCached ∅) ⟨7#128⟩ ⟨9#128⟩).1.mappingsOf ⟨7#128⟩) 2
          = some (some (0, firstBlocks.cached)) ∧
      findExtentForRange .checked 4096
        ((recover knowingClient (volumeCached ∅) ⟨7#128⟩ [⟨9#128⟩]).1.mappingsOf ⟨7#128⟩) 2
          = some (some (0, firstBlocks.cached)) := by
  refine ⟨?_, ?_, ?_⟩ <;> decide

end Blockyard.Ublk
