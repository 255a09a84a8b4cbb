/-
# How long a committed operation stays discoverable

A client that does not know whether its write committed asks the metadata service for the
operation id (`lookup_by_operation_id`).  The index behind that query keeps the operation of
the mapping that is CURRENTLY stored at a block: a commit that overwrites a mapping removes
the overwritten mapping's operation from the index.

So the index answers exactly as long as the mapping is in place.  `lookup_of_commit` is the
whole story over runs: until a later commit is stored at the same volume and block start, the
lookup returns the committed mapping; from then on it returns nothing.
`overwritten_operation_is_forgotten` is the run that shows the second half.
-/
import Blockyard.Raft.Commit

open Std

namespace Blockyard.Raft

open MetadataStateMachineData

/-! ## 1. The entries a run stores -/

variable {s : MetadataStateMachineData} {r : MetadataRequest} {e : ExtentMappingEntry}
  {o : OperationId} {es stored : List ExtentMappingEntry} {reqs : List MetadataRequest}
  {overwritten : Prop}

/-- The entries a request stores: a single commit that is admitted, and the entries of a
batch ahead of the first rejected one. -/
def storedEntries (s : MetadataStateMachineData) (r : MetadataRequest) :
    List ExtentMappingEntry := takeAdmitted s s.mappingAt r.entries

/-- The entries a run of requests stores, in order. -/
def storedIn (ovf : Overflow) (s : MetadataStateMachineData) :
    List MetadataRequest → List ExtentMappingEntry
  | [] => []
  | r :: rs => storedEntries s r ++ storedIn ovf (s.applyRequest ovf r).1 rs

/-- A commit or a batch leaves the state that its stored entries lead to. -/
theorem applyRequest_commits (ovf : Overflow) (ht : TablesMatch s) (he : e ∈ r.entries) :
    (s.applyRequest ovf r).1 = commitAll s (storedEntries s r) := by
  cases r with
  | commitExtentMapping e' => exact commit_fst ht e'
  | commitExtentMappingBatch es => exact (batch_eq ht es).1
  | _ => exact absurd he List.not_mem_nil

theorem storedEntries_of_entries_eq_nil (s : MetadataStateMachineData) (h : r.entries = []) :
    storedEntries s r = [] := by
  rw [storedEntries, h]
  rfl

/-! ## 2. Where an operation is known -/

/-- `o` leads to the mapping of `e`, and to no other. -/
structure Tracked (s : MetadataStateMachineData) (o : OperationId) (e : ExtentMappingEntry) :
    Prop where
  indexed : s.operationIndex[o]? = some e.key
  stored : s.mappingAt e.key = some e.mapping
  alone : ∀ k m, s.mappingAt k = some m → m.operationId = some o → k = e.key

/-- No mapping carries `o`, and the index does not know it. -/
structure Unknown (s : MetadataStateMachineData) (o : OperationId) : Prop where
  unindexed : s.operationIndex[o]? = none
  absent : ∀ k m, s.mappingAt k = some m → m.operationId ≠ some o

theorem Tracked.lookup (h : Tracked s o e) : s.lookupByOperationId o = some e.mapping := by
  have hst := h.stored
  unfold mappingAt MapLog.get2 at hst
  unfold lookupByOperationId
  rw [h.indexed]
  exact hst

theorem Unknown.lookup (h : Unknown s o) : s.lookupByOperationId o = none := by
  unfold lookupByOperationId
  rw [h.unindexed]
  rfl

theorem unknown_new (o : OperationId) : Unknown .new o where
  unindexed := ExtTreeMap.getElem?_empty
  absent _ _ hm := absurd hm mappingAt_new_ne_some

/-- What one commit says about an operation that is not its own: it goes, when the overwritten
mapping carried it, and stays as it was otherwise. -/
theorem operationIndex_commitState (ho : e.operationId ≠ some o) :
    (commitState s e).operationIndex[o]? =
      if (s.mappingAt e.key).bind (·.operationId) = some o then none
      else s.operationIndex[o]? := by
  have hown : MapLog.last o (e.operationId.toList.map (·, some e.key)) = none := by
    refine MapLog.last_eq_none ?_
    intro ev hev heq
    obtain ⟨o', ho', rfl⟩ := List.mem_map.mp hev
    exact ho (by rw [Option.mem_toList.mp ho', ← heq])
  simp only [commitState, MapLog.getElem?_replay, opEvents, MapLog.last_append, hown,
    Option.none_or]
  cases (s.mappingAt e.key).bind (·.operationId) with
  | none => rfl
  | some o' => by_cases hoo : o' = o <;> simp [MapLog.last_cons, hoo]

theorem operationIndex_commitState_self (s : MetadataStateMachineData)
    (hop : e.operationId = some o) :
    (commitState s e).operationIndex[o]? = some e.key := by
  simp only [commitState, MapLog.getElem?_replay, opEvents, hop, Option.toList_some,
    List.map_cons, List.map_nil, MapLog.last_append, MapLog.last_cons, MapLog.last_nil,
    if_pos, Option.none_or, Option.some_or, Option.getD_some]

/-! ## 3. One commit, one list of commits -/

theorem Unknown.commit (ht : TablesMatch s) (h : Unknown s o) (hv : e.volumeId ∈ s.volumes)
    (ho : e.operationId ≠ some o) : Unknown (commitState s e) o where
  unindexed := by
    rw [operationIndex_commitState ho, h.unindexed, ite_self]
  absent := by
    intro k m hm
    rw [mappingAt_commitState ht hv] at hm
    split at hm
    · cases hm
      exact ho
    · exact h.absent k m hm

/-- A commit stored elsewhere leaves the operation where it is. -/
theorem Tracked.commit (ht : TablesMatch s) (h : Tracked s o e) {e' : ExtentMappingEntry}
    (hv : e'.volumeId ∈ s.volumes) (ho : e'.operationId ≠ some o) (hk : e'.key ≠ e.key) :
    Tracked (commitState s e') o e where
  indexed := by
    rw [operationIndex_commitState ho, if_neg, h.indexed]
    intro hold
    obtain ⟨m, hm, hmo⟩ := Option.bind_eq_some_iff.mp hold
    exact hk (h.alone e'.key m hm hmo)
  stored := by
    rw [mappingAt_commitState ht hv, if_neg hk]
    exact h.stored
  alone := by
    intro k m hm hmo
    rw [mappingAt_commitState ht hv] at hm
    split at hm
    · cases hm
      exact absurd hmo ho
    · exact h.alone k m hm hmo

/-- **A commit stored at the same key makes the operation unknown.** -/
theorem Tracked.overwrite (ht : TablesMatch s) (h : Tracked s o e) (hop : e.operationId = some o)
    {e' : ExtentMappingEntry} (hv : e'.volumeId ∈ s.volumes) (ho : e'.operationId ≠ some o)
    (hk : e'.key = e.key) : Unknown (commitState s e') o where
  unindexed := by
    rw [operationIndex_commitState ho, hk, h.stored, if_pos]
    exact hop
  absent := by
    intro k m hm hmo
    rw [mappingAt_commitState ht hv] at hm
    split at hm
    · cases hm
      exact ho hmo
    · rename_i hne
      exact hne (hk.trans (h.alone k m hm hmo).symm)

/-- **A commit makes its own operation known**, when nothing carried it before. -/
theorem Unknown.track (ht : TablesMatch s) (h : Unknown s o) (hv : e.volumeId ∈ s.volumes)
    (hop : e.operationId = some o) : Tracked (commitState s e) o e where
  indexed := operationIndex_commitState_self s hop
  stored := by
    rw [mappingAt_commitState ht hv, if_pos rfl]
  alone := by
    intro k m hm hmo
    rw [mappingAt_commitState ht hv] at hm
    split at hm
    · rename_i hk
      exact hk.symm
    · exact absurd hmo (h.absent k m hm)

/-- The operation is tracked until `overwritten` holds, and unknown from then on. -/
def Fate (s : MetadataStateMachineData) (o : OperationId) (e : ExtentMappingEntry)
    (overwritten : Prop) : Prop :=
  (¬ overwritten ∧ Tracked s o e) ∨ (overwritten ∧ Unknown s o)

theorem Fate.commits (ht : TablesMatch s) (hop : e.operationId = some o)
    (h : Fate s o e overwritten) (hv : ∀ e' ∈ es, e'.volumeId ∈ s.volumes)
    (ho : ∀ e' ∈ es, e'.operationId ≠ some o) :
    Fate (commitAll s es) o e (overwritten ∨ ∃ e' ∈ es, e'.key = e.key) := by
  induction es generalizing s overwritten with
  | nil =>
    simpa only [List.not_mem_nil, false_and, exists_false, or_false, commitAll_nil] using h
  | cons e' es ih =>
    have hve : e'.volumeId ∈ s.volumes := hv e' List.mem_cons_self
    have hoe : e'.operationId ≠ some o := ho e' List.mem_cons_self
    -- one entry: where the operation stands after it
    have hhead : Fate (commitState s e') o e (overwritten ∨ e'.key = e.key) := by
      rcases h with ⟨hno, htr⟩ | ⟨hyes, hun⟩
      · by_cases hk : e'.key = e.key
        · exact Or.inr ⟨Or.inr hk, htr.overwrite ht hop hve hoe hk⟩
        · exact Or.inl ⟨fun hor => hor.elim hno hk, htr.commit ht hve hoe hk⟩
      · exact Or.inr ⟨Or.inl hyes, hun.commit ht hve hoe⟩
    have htail := ih (ht.commitState e') hhead
      (fun e'' he'' => hv e'' (List.mem_cons_of_mem _ he''))
      (fun e'' he'' => ho e'' (List.mem_cons_of_mem _ he''))
    rw [commitAll_cons]
    simpa only [List.mem_cons, exists_eq_or_imp, or_assoc] using htail

/-! ## 4. One request, one run -/

theorem Unknown.commits (ht : TablesMatch s) (h : Unknown s o)
    (hv : ∀ e ∈ es, e.volumeId ∈ s.volumes) (ho : ∀ e ∈ es, e.operationId ≠ some o) :
    Unknown (commitAll s es) o := by
  induction es generalizing s with
  | nil => exact h
  | cons e es ih =>
    exact ih (ht.commitState e)
      (h.commit ht (hv e List.mem_cons_self) (ho e List.mem_cons_self))
      (fun e' he' => hv e' (List.mem_cons_of_mem _ he'))
      (fun e' he' => ho e' (List.mem_cons_of_mem _ he'))

theorem Unknown.request (ovf : Overflow) (ht : TablesMatch s) (h : Unknown s o)
    (ho : ∀ e ∈ r.entries, e.operationId ≠ some o) : Unknown (s.applyRequest ovf r).1 o := by
  rcases hr : r.entries with - | ⟨e₀, es⟩
  · obtain ⟨-, hidx⟩ := applyRequest_of_no_entries ovf ht hr
    exact ⟨(hidx o fun k m _ hm => h.absent k m hm).trans h.unindexed,
      fun k m hm => h.absent k m (mappingAt_of_no_entries ht hr hm)⟩
  · rw [applyRequest_commits ovf ht (hr ▸ List.mem_cons_self)]
    exact h.commits ht (fun e he => (mem_of_mem_takeAdmitted he).2)
      (fun e he => ho e (mem_of_mem_takeAdmitted he).1)

/-- **One request.**  The operation stays where it is unless the request stores an entry at
its key. -/
theorem Fate.request (ovf : Overflow) (ht : TablesMatch s) (hop : e.operationId = some o)
    (h : Fate s o e overwritten) (hdel : r.deletes ≠ some e.volumeId)
    (ho : ∀ e' ∈ r.entries, e'.operationId ≠ some o) :
    Fate (s.applyRequest ovf r).1 o e
      (overwritten ∨ ∃ e' ∈ storedEntries s r, e'.key = e.key) := by
  rcases hr : r.entries with - | ⟨e₀, es⟩
  · rw [storedEntries_of_entries_eq_nil s hr]
    simp only [List.not_mem_nil, false_and, exists_false, or_false]
    rcases h with ⟨hno, htr⟩ | ⟨hyes, hun⟩
    · obtain ⟨hat, hidx⟩ := applyRequest_of_no_entries ovf ht hr
      refine Or.inl ⟨hno, ⟨(hidx o ?_).trans htr.indexed, ?_, ?_⟩⟩
      · -- only the deleted volume's mappings go, and `o` is not among them
        intro k m hk hm hmo
        rw [htr.alone k m hm hmo] at hk
        exact hdel hk
      · exact (hat e.key).trans ((if_neg hdel).trans htr.stored)
      · exact fun k m hm => htr.alone k m (mappingAt_of_no_entries ht hr hm)
    · exact Or.inr ⟨hyes, hun.request ovf ht ho⟩
  · rw [applyRequest_commits ovf ht (hr ▸ List.mem_cons_self)]
    exact h.commits ht hop (fun e' he' => (mem_of_mem_takeAdmitted he').2)
      (fun e' he' => ho e' (mem_of_mem_takeAdmitted he').1)

/-- **One run.** -/
theorem Fate.run (ovf : Overflow) (ht : TablesMatch s) (hop : e.operationId = some o)
    (h : Fate s o e overwritten) {rs : List MetadataRequest}
    (hdel : ∀ r ∈ rs, r.deletes ≠ some e.volumeId)
    (ho : ∀ r ∈ rs, ∀ e' ∈ r.entries, e'.operationId ≠ some o) :
    Fate (Machine.runState (applyRequest ovf) s rs) o e
      (overwritten ∨ ∃ e' ∈ storedIn ovf s rs, e'.key = e.key) := by
  induction rs generalizing s overwritten with
  | nil =>
    simpa only [storedIn, List.not_mem_nil, false_and, exists_false, or_false,
      Machine.runState_nil] using h
  | cons r rs ih =>
    have hhead := h.request ovf ht hop (hdel r List.mem_cons_self) (ho r List.mem_cons_self)
    have htail := ih (ht.applyRequest ovf r) hhead
      (fun r' hr' => hdel r' (List.mem_cons_of_mem _ hr'))
      (fun r' hr' => ho r' (List.mem_cons_of_mem _ hr'))
    rw [Machine.runState_cons]
    simpa only [storedIn, List.mem_append, or_and_right, exists_or, or_assoc] using htail

theorem unknown_after (ovf : Overflow) (ho : ∀ r ∈ reqs, ∀ e ∈ r.entries, e.operationId ≠ some o) :
    Unknown (after ovf reqs) o := by
  refine Machine.runState_history (P := fun _ s => Unknown s o) (unknown_new o) ?_
  intro pre r post heq hun
  refine hun.request ovf (tablesMatch_after ovf pre) (ho r ?_)
  rw [heq]
  exact List.mem_append_right _ List.mem_cons_self

/-! ## 5. The lookup -/

/-- **How long a committed operation is found.**  A run commits `e` with operation id `o`,
which no other commit of the run carries; the commit succeeds, and no later request deletes
the volume.  At the end of the run the lookup of `o` returns the committed mapping as long as
no later request has stored an entry at the same volume and block start, and nothing once one
has. -/
theorem lookup_of_commit (ovf : Overflow) (pre post : List MetadataRequest)
    (e : ExtentMappingEntry) (o : OperationId) (resp : MetadataResponse)
    (hop : e.operationId = some o)
    (hown : ∀ r ∈ pre ++ post, ∀ e' ∈ r.entries, e'.operationId ≠ some o)
    (hans : ((after ovf pre).applyRequest ovf (.commitExtentMapping e)).2 = some resp)
    (hok : resp.isError = false) (hdel : ∀ r ∈ post, r.deletes ≠ some e.volumeId) :
    (after ovf (pre ++ .commitExtentMapping e :: post)).lookupByOperationId o =
      if ∃ e' ∈ storedIn ovf (after ovf (pre ++ [MetadataRequest.commitExtentMapping e])) post,
          e'.key = e.key
      then none else some e.mapping := by
  have ht := tablesMatch_after ovf pre
  have hun : Unknown (after ovf pre) o :=
    unknown_after ovf fun r hr => hown r (List.mem_append_left _ hr)
  -- a successful answer means the commit was admitted
  have had : Admits (after ovf pre) (after ovf pre).mappingAt e := by
    by_contra hnot
    obtain ⟨msg, hmsg⟩ := commit_of_not_admits ht hnot
    rw [applyRequest, hmsg] at hans
    cases hans
    cases hok
  have hcommit : after ovf (pre ++ [.commitExtentMapping e]) = commitState (after ovf pre) e := by
    rw [after_snoc, applyRequest]
    exact congrArg Prod.fst (commit_of_admits ht had)
  have hstart : Fate (after ovf (pre ++ [.commitExtentMapping e])) o e False := by
    rw [hcommit]
    exact Or.inl ⟨id, hun.track ht had.1 hop⟩
  have hend := hstart.run ovf (tablesMatch_after ovf _) hop hdel
    (fun r hr => hown r (List.mem_append_right _ hr))
  have hsplit : after ovf (pre ++ .commitExtentMapping e :: post)
      = Machine.runState (applyRequest ovf)
          (after ovf (pre ++ [.commitExtentMapping e])) post := by
    rw [after_append_cons, after_snoc]
  rw [hsplit]
  rcases hend with ⟨hno, htr⟩ | ⟨hyes, hunk⟩
  · rw [if_neg fun h => hno (Or.inr h)]
    exact htr.lookup
  · rw [if_pos (hyes.resolve_left id)]
    exact hunk.lookup

def taggedEntry (v : VolumeId) (block version : Nat) (o : OperationId) : ExtentMappingEntry where
  volumeId := v
  blockRange := ⟨block, block + 1⟩
  extentId := ⟨1#128⟩
  extentVersion := version
  epoch := 0
  replicaLocations := []
  checksums := []
  operationId := some o
  previousVersion := none

/-- A commit at ANOTHER block start leaves the operation discoverable. -/
theorem lookup_of_commit_other_block :
    let pre : List MetadataRequest := [.createVolume ⟨7#128⟩ 4096 (.replicated 1) 1]
    let e := taggedEntry ⟨7#128⟩ 0 1 ⟨21#128⟩
    let post : List MetadataRequest := [.commitExtentMapping (taggedEntry ⟨7#128⟩ 1 2 ⟨22#128⟩)]
    (after .checked (pre ++ .commitExtentMapping e :: post)).lookupByOperationId ⟨21#128⟩
      = some e.mapping := by
  intro pre e post
  have h := lookup_of_commit .checked pre post e ⟨21#128⟩ (.epoch 0) rfl (by decide) (by decide)
    rfl (by decide)
  exact h.trans (if_neg (by decide))

/-- **A write that did commit and is no longer found.**  Two commits to the same block, both
answered with success, nothing deleted: the first operation is unknown afterwards. -/
theorem overwritten_operation_is_forgotten :
    let pre : List MetadataRequest := [.createVolume ⟨7#128⟩ 4096 (.replicated 1) 1]
    let e := taggedEntry ⟨7#128⟩ 0 1 ⟨21#128⟩
    let e' := taggedEntry ⟨7#128⟩ 0 2 ⟨22#128⟩
    ((after .checked pre).applyRequest .checked (.commitExtentMapping e)).2 = some (.epoch 0) ∧
      ((after .checked (pre ++ [.commitExtentMapping e])).applyRequest .checked
        (.commitExtentMapping e')).2 = some (.epoch 0) ∧
      e'.operationId ≠ e.operationId ∧
      (after .checked
        (pre ++ [.commitExtentMapping e, .commitExtentMapping e'])).lookupByOperationId ⟨21#128⟩
          = none := by
  decide

/-! ## 6. Which operations are known

Without the restriction to one carrier: however often an operation is committed, the service knows
it if and only if an entry that carries it was stored, unless a later one took its place. -/

theorem storedIn_append (ovf : Overflow) (s : MetadataStateMachineData)
    (rs rs' : List MetadataRequest) :
    storedIn ovf s (rs ++ rs')
      = storedIn ovf s rs ++ storedIn ovf (Machine.runState (applyRequest ovf) s rs) rs' := by
  induction rs generalizing s with
  | nil => rfl
  | cons r rs ih =>
    rw [List.cons_append, storedIn, ih, storedIn, List.append_assoc]
    rfl

/-- The second entry takes the place of an entry of `o`. -/
def Displaces (o : OperationId) (e e' : ExtentMappingEntry) : Prop :=
  e.operationId = some o ∧ e'.operationId ≠ some o ∧ e'.key = e.key

/-- **No later request takes the mapping of `o` away**: none is stored in its place, and none
deletes its volume. -/
structure Undisturbed (ovf : Overflow) (reqs : List MetadataRequest) (o : OperationId) : Prop where
  stays : (storedIn ovf .new reqs).Pairwise fun e e' => ¬ Displaces o e e'
  kept : ∀ pre r post, reqs = pre ++ r :: post → ∀ e ∈ storedIn ovf .new pre,
    e.operationId = some o → r.deletes ≠ some e.volumeId

/-- What the tables say of `o`, in terms of the entries stored. -/
structure Follows (s : MetadataStateMachineData) (o : OperationId)
    (stored : List ExtentMappingEntry) : Prop where
  origin : ∀ k m, s.mappingAt k = some m → m.operationId = some o →
    ∃ e ∈ stored, e.operationId = some o ∧ e.key = k
  known : (∃ e ∈ stored, e.operationId = some o) →
    ∃ k m, s.operationIndex[o]? = some k ∧ s.mappingAt k = some m ∧ m.operationId = some o
  unknown : (∀ e ∈ stored, e.operationId ≠ some o) → s.operationIndex[o]? = none

theorem Follows.new (o : OperationId) : Follows .new o [] where
  origin k m hm hmo := absurd hmo ((unknown_new o).absent k m hm)
  known h := by
    obtain ⟨e, he, -⟩ := h
    cases he
  unknown _ := (unknown_new o).unindexed

/-- **One entry.** -/
theorem Follows.commit (ht : TablesMatch s) (h : Follows s o stored) (hv : e.volumeId ∈ s.volumes)
    (hstays : ∀ e' ∈ stored, ¬ Displaces o e' e) :
    Follows (commitState s e) o (stored ++ [e]) := by
  have horigin : ∀ k m, (commitState s e).mappingAt k = some m → m.operationId = some o →
      ∃ e' ∈ stored ++ [e], e'.operationId = some o ∧ e'.key = k := by
    intro k m hm hmo
    rw [mappingAt_commitState ht hv] at hm
    split at hm
    · next hk =>
      cases hm
      exact ⟨e, by simp, hmo, hk⟩
    · obtain ⟨e', he', hop, hkey⟩ := h.origin k m hm hmo
      exact ⟨e', List.mem_append_left _ he', hop, hkey⟩
  by_cases hop : e.operationId = some o
  · refine ⟨horigin, ?_, fun hnone => absurd hop (hnone e (by simp))⟩
    intro _
    refine ⟨e.key, e.mapping, operationIndex_commitState_self s hop, ?_, hop⟩
    rw [mappingAt_commitState ht hv, if_pos rfl]
  · -- the mapping that is overwritten is not one of `o`
    have hfree : ¬ (s.mappingAt e.key).bind (·.operationId) = some o := by
      intro hold
      obtain ⟨m, hm, hmo⟩ := Option.bind_eq_some_iff.mp hold
      obtain ⟨e', he', hop', hkey⟩ := h.origin e.key m hm hmo
      exact hstays e' he' ⟨hop', hop, hkey.symm⟩
    have hindex : (commitState s e).operationIndex[o]? = s.operationIndex[o]? := by
      rw [operationIndex_commitState hop, if_neg hfree]
    refine ⟨horigin, ?_, ?_⟩
    · intro hsome
      have hbefore : ∃ e' ∈ stored, e'.operationId = some o := by
        obtain ⟨e', he', hop'⟩ := hsome
        rcases List.mem_append.mp he' with hold | hnew
        · exact ⟨e', hold, hop'⟩
        · rw [List.mem_singleton.mp hnew] at hop'
          exact absurd hop' hop
      obtain ⟨k, m, hk, hm, hmo⟩ := h.known hbefore
      refine ⟨k, m, hindex.trans hk, ?_, hmo⟩
      rw [mappingAt_commitState ht hv, if_neg]
      · exact hm
      · rintro rfl
        rw [hm] at hfree
        exact hfree hmo
    · intro hnone
      rw [hindex]
      exact h.unknown fun e' he' => hnone e' (List.mem_append_left _ he')

/-- **A list of entries.** -/
theorem Follows.commits (ht : TablesMatch s) (h : Follows s o stored)
    (hv : ∀ e ∈ es, e.volumeId ∈ s.volumes)
    (hstays : (stored ++ es).Pairwise fun e e' => ¬ Displaces o e e') :
    Follows (commitAll s es) o (stored ++ es) := by
  induction es generalizing s stored with
  | nil => rwa [List.append_nil]
  | cons e es ih =>
    rw [List.append_cons] at hstays ⊢
    have hhead := List.pairwise_append.mp (List.pairwise_append.mp hstays).1
    rw [commitAll_cons]
    refine ih (ht.commitState e) (h.commit ht (hv e List.mem_cons_self) ?_) ?_ hstays
    · exact fun e' he' => hhead.2.2 e' he' e (List.mem_singleton_self e)
    · exact fun e' he' => hv e' (List.mem_cons_of_mem _ he')

/-- **One request.** -/
theorem Follows.request (ovf : Overflow) (ht : TablesMatch s) (h : Follows s o stored)
    (hkept : ∀ e ∈ stored, e.operationId = some o → r.deletes ≠ some e.volumeId)
    (hstays : (stored ++ storedEntries s r).Pairwise fun e e' => ¬ Displaces o e e') :
    Follows (s.applyRequest ovf r).1 o (stored ++ storedEntries s r) := by
  rcases hr : r.entries with - | ⟨e₀, es⟩
  · rw [storedEntries_of_entries_eq_nil s hr, List.append_nil]
    obtain ⟨hat, hidx⟩ := applyRequest_of_no_entries ovf ht hr
    -- the volume that is deleted has no mapping of `o`
    have hother : ∀ k m, s.mappingAt k = some m → m.operationId = some o →
        r.deletes ≠ some k.1 := by
      intro k m hm hmo
      obtain ⟨e, he, hop, hkey⟩ := h.origin k m hm hmo
      rw [← hkey]
      exact hkept e he hop
    have hindex := hidx o fun k m hdel hm hmo => hother k m hm hmo hdel
    refine ⟨?_, ?_, ?_⟩
    · exact fun k m hm => h.origin k m (mappingAt_of_no_entries ht hr hm)
    · intro hsome
      obtain ⟨k, m, hk, hm, hmo⟩ := h.known hsome
      exact ⟨k, m, hindex.trans hk, (hat k).trans ((if_neg (hother k m hm hmo)).trans hm), hmo⟩
    · exact fun hnone => hindex.trans (h.unknown hnone)
  · rw [applyRequest_commits ovf ht (hr ▸ List.mem_cons_self)]
    exact h.commits ht (fun e he => (mem_of_mem_takeAdmitted he).2) hstays

/-- **Every run.** -/
theorem follows_after {ovf : Overflow} (h : Undisturbed ovf reqs o) :
    Follows (after ovf reqs) o (storedIn ovf .new reqs) := by
  refine Machine.runState_history
    (P := fun pre (s : MetadataStateMachineData) => Follows s o (storedIn ovf .new pre))
    (Follows.new o) ?_
  intro pre r post heq ih
  have hsnoc : storedIn ovf .new (pre ++ [r])
      = storedIn ovf .new pre ++ storedEntries (after ovf pre) r := by
    rw [storedIn_append]
    simp only [storedIn, List.append_nil]
    rfl
  have hstays := h.stays
  rw [heq, List.append_cons, storedIn_append] at hstays
  rw [hsnoc] at hstays ⊢
  exact ih.request ovf (tablesMatch_after ovf pre) (h.kept pre r post heq)
    (List.pairwise_append.mp hstays).1

/-- **An operation is found if and only if an entry that carries it was stored**, as long as no
later request takes the mapping away. -/
theorem lookup_isSome_iff {ovf : Overflow} (h : Undisturbed ovf reqs o) :
    ((after ovf reqs).lookupByOperationId o).isSome ↔
      ∃ e ∈ storedIn ovf .new reqs, e.operationId = some o := by
  have hfollows := follows_after h
  constructor
  · intro hsome
    by_contra hnone
    push Not at hnone
    unfold lookupByOperationId at hsome
    rw [hfollows.unknown hnone] at hsome
    cases hsome
  · intro hstored
    obtain ⟨k, m, hk, hm, -⟩ := hfollows.known hstored
    unfold mappingAt MapLog.get2 at hm
    unfold lookupByOperationId
    rw [hk]
    exact Option.isSome_iff_exists.mpr ⟨m, hm⟩

end Blockyard.Raft
