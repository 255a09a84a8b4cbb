/-
# Batch commits: when all-or-nothing holds

`request.rs` says of `CommitExtentMappingBatch` that either all entries succeed or none do.
`apply_request` commits the entries one by one and returns at the first error, so the entries
AHEAD of a rejected one stay committed.

`BatchAtomic` is the documented contract.  `batchAtomic_iff` says exactly which batches meet
it in a reachable state: those whose entries are all admitted at their turn, and those whose
entries ahead of the first rejected one only repeat what the state already says
(`Repeats`).  The second alternative is not idle talk: a batch whose FIRST entry is rejected
falls under it, and so does a retransmitted batch.
-/
import Blockyard.Raft.Commit

open Std

namespace Blockyard.Raft

open MetadataStateMachineData

/-! ## 1. A run of commits as three logs -/

/-- The mappings stored by a list of entries, in order. -/
def mappingLog (es : List ExtentMappingEntry) : List (MappingKey × ExtentMapping) :=
  es.map fun e => (e.key, e.mapping)

/-- The events of a list of entries on one secondary index.  `events` is what one entry does,
given the mapping it overwrites; `stored` runs along with the entries. -/
def indexLog {K : Type}
    (events : Option ExtentMapping → ExtentMappingEntry → List (K × Option MappingKey))
    (stored : MappingKey → Option ExtentMapping) :
    List ExtentMappingEntry → List (K × Option MappingKey)
  | [] => []
  | e :: es =>
    events (stored e.key) e
      ++ indexLog events (Function.update stored e.key (some e.mapping)) es

variable {s : MetadataStateMachineData} {es : List ExtentMappingEntry}

/-- `commitAll` replays three logs, each of them known from the state before. -/
theorem commitAll_eq_replay (ht : TablesMatch s) (hv : ∀ e ∈ es, e.volumeId ∈ s.volumes) :
    commitAll s es =
      { s with
        extentMappings := MapLog.replayIn s.extentMappings (mappingLog es)
        operationIndex := MapLog.replay s.operationIndex (indexLog opEvents s.mappingAt es)
        extentVersionIndex :=
          MapLog.replay s.extentVersionIndex (indexLog versionEvents s.mappingAt es) } := by
  induction es generalizing s with
  | nil => rfl
  | cons e es ih =>
    have hve : e.volumeId ∈ s.volumes := hv e List.mem_cons_self
    rw [commitAll_cons, ih (ht.commitState e) fun e' he' => hv e' (List.mem_cons_of_mem _ he'),
      mappingAt_commitState_eq_update ht hve]
    simp only [commitState, indexLog, mappingLog, List.map_cons, MapLog.replay, MapLog.replayIn,
      List.foldl_append, List.foldl_cons]

/-- **The entries only repeat what the state says**: at every mapping key, operation id and
extent version they mention, the LAST thing they say is what is already there. -/
def Repeats (s : MetadataStateMachineData) (es : List ExtentMappingEntry) : Prop :=
  (∀ v b m, MapLog.last (v, b) (mappingLog es) = some m → s.mappingAt (v, b) = some m) ∧
    MapLog.Idle s.operationIndex (indexLog opEvents s.mappingAt es) ∧
    MapLog.Idle s.extentVersionIndex (indexLog versionEvents s.mappingAt es)

theorem commitAll_eq_self_iff (ht : TablesMatch s) (hv : ∀ e ∈ es, e.volumeId ∈ s.volumes) :
    commitAll s es = s ↔ Repeats s es := by
  have hout : ∀ e ∈ mappingLog es, e.1.1 ∈ s.extentMappings := by
    intro e he
    obtain ⟨e', he', rfl⟩ := List.mem_map.mp he
    exact (ht _).mp (hv e' he')
  rw [commitAll_eq_replay ht hv]
  constructor
  · intro h
    have hmap := congrArg MetadataStateMachineData.extentMappings h
    have hop := congrArg MetadataStateMachineData.operationIndex h
    have hver := congrArg MetadataStateMachineData.extentVersionIndex h
    exact ⟨(MapLog.replayIn_eq_self_iff hout).mp hmap, (MapLog.replay_eq_self_iff _ _).mp hop,
      (MapLog.replay_eq_self_iff _ _).mp hver⟩
  · rintro ⟨hmap, hop, hver⟩
    rw [(MapLog.replayIn_eq_self_iff hout).mpr hmap, (MapLog.replay_eq_self_iff _ _).mpr hop,
      (MapLog.replay_eq_self_iff _ _).mpr hver]

/-- Entries that are all admitted at their turn: applying them one request at a time stores
them all. -/
theorem runState_commits {ovf : Overflow} (ht : TablesMatch s)
    (h : takeAdmitted s s.mappingAt es = es) :
    Machine.runState (applyRequest ovf) s (es.map .commitExtentMapping) = commitAll s es := by
  induction es generalizing s with
  | nil => rfl
  | cons e es ih =>
    rw [takeAdmitted] at h
    split at h
    · rename_i had
      have htail := List.tail_eq_of_cons_eq h
      rw [← mappingAt_commitState_eq_update ht had.1, ← takeAdmitted_commitState s e] at htail
      rw [List.map_cons, Machine.runState_cons, applyRequest, commit_of_admits ht had,
        commitAll_cons]
      exact ih (ht.commitState e) htail
    · cases h

/-! ## 2. Atomicity -/

/-- **The documented contract** of `CommitExtentMappingBatch`, at one state: the request is
answered; an error leaves the whole state as it was; a success leaves the state that the
entries, applied in order as single commits, lead to. -/
structure BatchAtomic (ovf : Overflow) (s : MetadataStateMachineData)
    (es : List ExtentMappingEntry) : Prop where
  answered : (s.applyRequest ovf (.commitExtentMappingBatch es)).2 ≠ none
  error : ∀ msg, (s.applyRequest ovf (.commitExtentMappingBatch es)).2 = some (.error msg) →
    (s.applyRequest ovf (.commitExtentMappingBatch es)).1 = s
  success : ∀ resp, (s.applyRequest ovf (.commitExtentMappingBatch es)).2 = some resp →
    resp.isError = false → (s.applyRequest ovf (.commitExtentMappingBatch es)).1
      = Machine.runState (applyRequest ovf) s (es.map .commitExtentMapping)

/-- **When a batch is atomic.**  In every reachable state and for every list of entries: the
batch meets its contract exactly when every entry passes its checks at its turn, or the
entries ahead of the first one that does not merely repeat what the state already says. -/
theorem batchAtomic_iff (ovf : Overflow) (reqs : List MetadataRequest)
    (es : List ExtentMappingEntry) :
    BatchAtomic ovf (after ovf reqs) es ↔
      takeAdmitted (after ovf reqs) (after ovf reqs).mappingAt es = es ∨
        Repeats (after ovf reqs) (takeAdmitted (after ovf reqs) (after ovf reqs).mappingAt es) := by
  have ht := tablesMatch_after ovf reqs
  generalize after ovf reqs = s at ht
  have hself : commitAll s (takeAdmitted s s.mappingAt es) = s ↔
      Repeats s (takeAdmitted s s.mappingAt es) :=
    commitAll_eq_self_iff ht fun e he => (mem_of_mem_takeAdmitted he).2
  obtain ⟨hst, ⟨hall, hans⟩ | ⟨hne, msg, hans⟩⟩ := batch_eq ht es
  · -- every entry admitted: the answer is a success, and the contract holds outright
    refine ⟨fun _ => Or.inl hall, fun _ => ⟨?_, ?_, ?_⟩⟩
    · rw [applyRequest, hans]
      exact Option.some_ne_none _
    · intro msg hmsg
      rw [applyRequest, hans] at hmsg
      cases hmsg
    · intro resp _ _
      rw [applyRequest, hst, hall, runState_commits ht hall]
  · -- some entry rejected: the answer is an error, and what is left to ask is the state
    constructor
    · intro hatomic
      have hsame := hatomic.error msg hans
      rw [applyRequest, hst] at hsame
      exact Or.inr (hself.mp hsame)
    · rintro (hall | hrep)
      · exact absurd hall hne
      · refine ⟨?_, ?_, ?_⟩
        · rw [applyRequest, hans]
          exact Option.some_ne_none _
        · intro _ _
          rw [applyRequest, hst, hself.mpr hrep]
        · intro resp hresp hok
          rw [applyRequest, hans] at hresp
          cases hresp
          cases hok

/-! ## 3. A batch that is not atomic -/

def plainEntry (v : VolumeId) (block version : Nat) (epoch : EpochId) : ExtentMappingEntry where
  volumeId := v
  blockRange := ⟨block, block + 1⟩
  extentId := ⟨1#128⟩
  extentVersion := version
  epoch := epoch
  replicaLocations := []
  checksums := []
  operationId := none
  previousVersion := none

/-- One volume, two entries, the second with an epoch the cluster is not in: the batch is
answered with an error and the first entry stays committed. -/
theorem batch_leaves_earlier_entries :
    let reqs : List MetadataRequest := [.createVolume ⟨7#128⟩ 4096 (.replicated 1) 1]
    let es := [plainEntry ⟨7#128⟩ 0 1 0, plainEntry ⟨7#128⟩ 1 2 5]
    ((after .wrapping reqs).applyRequest .wrapping (.commitExtentMappingBatch es)).2
        = some (.error "stale epoch: request has 5, current is 0") ∧
      ¬ BatchAtomic .wrapping (after .wrapping reqs) es := by
  intro reqs es
  have hans : ((after .wrapping reqs).applyRequest .wrapping (.commitExtentMappingBatch es)).2
      = some (.error "stale epoch: request has 5, current is 0") := by decide
  refine ⟨hans, fun hatomic => ?_⟩
  -- the extent-version index tells the two states apart
  have hindex := congrArg (·.extentVersionIndex[1]?) (hatomic.error _ hans)
  revert hindex
  decide

end Blockyard.Raft
