/-
# Which mapping a block belongs to

`state_machine.rs` stores the mappings of a volume by the START of their block range.  A commit
looks at the mapping with the same start and at no other, so nothing keeps a new range off the
blocks of an older one that starts elsewhere: commit blocks 0 to 9, then 5 to 14, and block 5
belongs to two mappings.

`blocks_unambiguous_iff` says exactly which runs keep every block in at most one mapping: those
in which each commit, when it is stored, shares no block with a mapping of its volume that
starts elsewhere.  Overwriting a mapping with one of the same start is harmless whatever the
lengths, and so is everything that is not a commit.
-/
import Blockyard.Raft.Unbatched

open Std

namespace Blockyard.Raft

open MetadataStateMachineData

/-- The two ranges have a block in common. -/
def BlockRange.Overlaps (r r' : BlockRange) : Prop :=
  ∃ b, (r.start ≤ b ∧ b < r.stop) ∧ r'.start ≤ b ∧ b < r'.stop

theorem BlockRange.Overlaps.symm {r r' : BlockRange} (h : r.Overlaps r') : r'.Overlaps r := by
  obtain ⟨b, hr, hr'⟩ := h
  exact ⟨b, hr', hr⟩

/-- **The promise**: two mappings of a volume that have a block in common are one mapping. -/
def BlocksUnambiguous (s : MetadataStateMachineData) : Prop :=
  ∀ v b b' m m', s.mappingAt (v, b) = some m → s.mappingAt (v, b') = some m' →
    m.blockRange.Overlaps m'.blockRange → b = b'

/-- A commit that is stored shares no block with a mapping of its volume that starts
elsewhere. -/
def StaysClear (s : MetadataStateMachineData) : MetadataRequest → Prop
  | .commitExtentMapping e => Admits s s.mappingAt e →
      ∀ b m, s.mappingAt (e.volumeId, b) = some m → b ≠ e.blockRange.start →
        ¬ e.blockRange.Overlaps m.blockRange
  | _ => True

theorem blocksUnambiguous_new : BlocksUnambiguous .new := by
  intro v b b' m m' hm
  exact absurd hm mappingAt_new_ne_some

variable {s : MetadataStateMachineData}

theorem BlocksUnambiguous.mono {s' : MetadataStateMachineData} (h : BlocksUnambiguous s)
    (hsub : ∀ k m, s'.mappingAt k = some m → s.mappingAt k = some m) : BlocksUnambiguous s' :=
  fun v b b' m m' hm hm' => h v b b' m m' (hsub _ _ hm) (hsub _ _ hm')

/-- **A stored commit keeps every block in one mapping exactly when it stays clear.** -/
theorem blocksUnambiguous_commitState_iff (ht : TablesMatch s) (h : BlocksUnambiguous s)
    {e : ExtentMappingEntry} (hv : e.volumeId ∈ s.volumes) :
    BlocksUnambiguous (commitState s e) ↔
      ∀ b m, s.mappingAt (e.volumeId, b) = some m → b ≠ e.blockRange.start →
        ¬ e.blockRange.Overlaps m.blockRange := by
  have hself : (commitState s e).mappingAt (e.volumeId, e.blockRange.start) = some e.mapping := by
    rw [mappingAt_commitState ht hv]
    exact if_pos rfl
  have hother : ∀ k, k ≠ e.key → (commitState s e).mappingAt k = s.mappingAt k := by
    intro k hk
    rw [mappingAt_commitState ht hv, if_neg (Ne.symm hk)]
  constructor
  · intro hc b m hm hb hover
    have hkey : (e.volumeId, b) ≠ e.key := fun heq => hb (congrArg Prod.snd heq)
    exact hb (hc _ _ _ _ _ hself ((hother _ hkey).trans hm) hover).symm
  · intro hclear v b b' m m' hm hm' hover
    by_cases hk : (v, b) = e.key
    · -- the new mapping against another one of its volume
      obtain ⟨rfl, rfl⟩ := Prod.mk.inj hk
      rw [hself] at hm
      cases hm
      by_contra hb
      have hkey : (e.volumeId, b') ≠ e.key := fun heq => hb (congrArg Prod.snd heq).symm
      rw [hother _ hkey] at hm'
      exact hclear b' m' hm' (Ne.symm hb) hover
    · by_cases hk' : (v, b') = e.key
      · obtain ⟨rfl, rfl⟩ := Prod.mk.inj hk'
        rw [hself] at hm'
        cases hm'
        by_contra hb
        rw [hother _ hk] at hm
        exact hclear b m hm hb hover.symm
      · rw [hother _ hk] at hm
        rw [hother _ hk'] at hm'
        exact h v b b' m m' hm hm' hover

theorem blocksUnambiguous_applyRequest_iff (ovf : Overflow) (ht : TablesMatch s)
    {r : MetadataRequest} (hr : r.isBatch = false) (h : BlocksUnambiguous s) :
    BlocksUnambiguous (s.applyRequest ovf r).1 ↔ StaysClear s r := by
  rcases tables_step ovf ht hr with ⟨e, rfl, had, hst⟩ | ⟨v, rfl⟩ | ⟨hcommit, -, hmap, -, -⟩
  · rw [hst, blocksUnambiguous_commitState_iff ht h had.1]
    exact ⟨fun hclear _ => hclear, fun hclear => hclear had⟩
  · exact ⟨fun _ => trivial, fun _ => h.mono fun k m hm => mappingAt_of_no_entries ht rfl hm⟩
  · have hclear : StaysClear s r := by
      cases r with
      | commitExtentMapping e => exact fun had => absurd had (hcommit e rfl)
      | _ => trivial
    refine ⟨fun _ => hclear, fun _ => h.mono fun k m hm => ?_⟩
    rwa [hmap] at hm

/-- **When every block has one mapping.**  Take any run, each batch as the commits it stores.
No two mappings of a volume have a block in common, at any state the run passes, exactly when
each commit that is stored stays clear of the mappings of its volume that start elsewhere. -/
theorem blocks_unambiguous_iff (ovf : Overflow) (reqs : List MetadataRequest) :
    (∀ pre, pre <+: unbatched ovf reqs → BlocksUnambiguous (after ovf pre)) ↔
      Machine.Along (applyRequest ovf) StaysClear .new (unbatched ovf reqs) := by
  refine Machine.forall_prefix_iff_along (Q := fun r => r.isBatch = false) tablesMatch_new
    blocksUnambiguous_new (fun r hr => isBatch_of_mem_unbatched hr) ?_ ?_
  · intro s r ht _
    exact ht.applyRequest ovf r
  · intro s r ht hr h
    exact blocksUnambiguous_applyRequest_iff ovf ht hr h

/-- A commit of blocks 0 to 9 and one of blocks 5 to 14 are both stored: block 5 belongs to two
mappings. -/
theorem overlapping_ranges_are_stored :
    let v : VolumeId := ⟨7#128⟩
    let first := { plainEntry v 0 1 0 with blockRange := ⟨0, 10⟩ }
    let second := { plainEntry v 5 2 0 with blockRange := ⟨5, 15⟩ }
    let reqs : List MetadataRequest := [.createVolume v 81920 (.replicated 1) 1,
      .commitExtentMapping first, .commitExtentMapping second]
    (after .wrapping reqs).mappingAt (v, 0) = some first.mapping ∧
      (after .wrapping reqs).mappingAt (v, 5) = some second.mapping ∧
      ¬ BlocksUnambiguous (after .wrapping reqs) := by
  intro v first second reqs
  have hfirst : (after .wrapping reqs).mappingAt (v, 0) = some first.mapping := by decide
  have hsecond : (after .wrapping reqs).mappingAt (v, 5) = some second.mapping := by decide
  refine ⟨hfirst, hsecond, fun h => ?_⟩
  have hover : first.mapping.blockRange.Overlaps second.mapping.blockRange :=
    ⟨5, ⟨by decide, by decide⟩, by decide, by decide⟩
  exact absurd (h v 0 5 _ _ hfirst hsecond hover) (by decide)

end Blockyard.Raft
