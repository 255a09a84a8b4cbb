/-
# A batch is a run of commits

`CommitExtentMappingBatch` commits its entries one by one.  So for a property of the mapping
tables a run with batches is no more than a run without: put in the place of each batch the
single commits of the entries it stores (`unbatched`), and every state of the old run is a state
of the new one (`after_unbatched`).

`after_of_singles` is the rule this gives: what holds in the empty state and survives every
request that is not a batch holds in every reachable state.
-/
import Blockyard.Raft.Batch
import Blockyard.Raft.Discovery

open Std

namespace Blockyard.Raft

open MetadataStateMachineData

/-! ## 1. Runs without batches -/

variable {s : MetadataStateMachineData} {r : MetadataRequest}

def MetadataRequest.isBatch : MetadataRequest → Bool
  | .commitExtentMappingBatch _ => true
  | _ => false

/-- A request as single requests: a batch is the commits it stores. -/
def singles (s : MetadataStateMachineData) : MetadataRequest → List MetadataRequest
  | .commitExtentMappingBatch es => (takeAdmitted s s.mappingAt es).map .commitExtentMapping
  | r => [r]

/-- The requests of a run as single requests. -/
def unbatchedFrom (ovf : Overflow) (s : MetadataStateMachineData) :
    List MetadataRequest → List MetadataRequest
  | [] => []
  | r :: rs => singles s r ++ unbatchedFrom ovf (s.applyRequest ovf r).1 rs

/-- The requests of a run from the empty state as single requests. -/
def unbatched (ovf : Overflow) (reqs : List MetadataRequest) : List MetadataRequest :=
  unbatchedFrom ovf .new reqs

theorem takeAdmitted_takeAdmitted (s : MetadataStateMachineData)
    (stored : MappingKey → Option ExtentMapping) (es : List ExtentMappingEntry) :
    takeAdmitted s stored (takeAdmitted s stored es) = takeAdmitted s stored es := by
  induction es generalizing stored with
  | nil => rfl
  | cons e es ih =>
    by_cases had : Admits s stored e
    · simp [takeAdmitted, had, ih]
    · simp [takeAdmitted, had]

/-- **The single requests lead to the state the request leads to.** -/
theorem runState_singles (ovf : Overflow) (ht : TablesMatch s) (r : MetadataRequest) :
    Machine.runState (applyRequest ovf) s (singles s r) = (s.applyRequest ovf r).1 := by
  cases r with
  | commitExtentMappingBatch es =>
    have hall := takeAdmitted_takeAdmitted s s.mappingAt es
    simp only [singles, applyRequest, (batch_eq ht es).1]
    exact runState_commits ht hall
  | _ => rfl

theorem runState_unbatchedFrom (ovf : Overflow) (ht : TablesMatch s) (reqs : List MetadataRequest) :
    Machine.runState (applyRequest ovf) s (unbatchedFrom ovf s reqs)
      = Machine.runState (applyRequest ovf) s reqs := by
  induction reqs generalizing s with
  | nil => rfl
  | cons r rs ih =>
    rw [unbatchedFrom, Machine.runState_append, runState_singles ovf ht, Machine.runState_cons]
    exact ih (ht.applyRequest ovf r)

/-- **A run and its single requests end in the same state.** -/
theorem after_unbatched (ovf : Overflow) (reqs : List MetadataRequest) :
    after ovf (unbatched ovf reqs) = after ovf reqs :=
  runState_unbatchedFrom ovf tablesMatch_new reqs

theorem isBatch_of_mem_singles {r' : MetadataRequest} (h : r' ∈ singles s r) :
    r'.isBatch = false := by
  cases r with
  | commitExtentMappingBatch es =>
    obtain ⟨e, -, rfl⟩ := List.mem_map.mp h
    rfl
  | _ =>
    cases List.mem_singleton.mp h
    rfl

theorem isBatch_of_mem_unbatchedFrom {ovf : Overflow} {reqs : List MetadataRequest}
    (h : r ∈ unbatchedFrom ovf s reqs) :
    r.isBatch = false := by
  induction reqs generalizing s with
  | nil => cases h
  | cons r' rs ih =>
    rcases List.mem_append.mp h with h | h
    · exact isBatch_of_mem_singles h
    · exact ih h

theorem isBatch_of_mem_unbatched {ovf : Overflow} {reqs : List MetadataRequest}
    (h : r ∈ unbatched ovf reqs) : r.isBatch = false :=
  isBatch_of_mem_unbatchedFrom h

/-- **The rule for single requests.**  What holds in the empty state and what every request
that is not a batch keeps holds in every reachable state. -/
theorem after_of_singles (ovf : Overflow) {P : MetadataStateMachineData → Prop} (h0 : P .new)
    (hstep : ∀ s r, TablesMatch s → r.isBatch = false → P s → P (s.applyRequest ovf r).1)
    (reqs : List MetadataRequest) : P (after ovf reqs) := by
  rw [← after_unbatched]
  refine (Machine.runState_history (P := fun _ s => TablesMatch s ∧ P s)
    ⟨tablesMatch_new, h0⟩ ?_).2
  intro pre r post heq hpre
  have hmem : r ∈ unbatched ovf reqs := by simp [heq]
  exact ⟨hpre.1.applyRequest ovf r, hstep _ r hpre.1 (isBatch_of_mem_unbatched hmem) hpre.2⟩

/-! ## 2. What one request does to the tables and the indexes -/

/-- **One request that is not a batch**: an admitted commit stores its entry, `DeleteVolume`
drops a volume, and every other request leaves the mappings and both indexes alone. -/
theorem tables_step (ovf : Overflow) (ht : TablesMatch s) (hr : r.isBatch = false) :
    (∃ e, r = .commitExtentMapping e ∧ Admits s s.mappingAt e ∧
        (s.applyRequest ovf r).1 = commitState s e) ∨
      (∃ v, r = .deleteVolume v) ∨
      (∀ e, r = .commitExtentMapping e → ¬ Admits s s.mappingAt e) ∧
        (∀ v, r ≠ .deleteVolume v) ∧
        (s.applyRequest ovf r).1.mappingAt = s.mappingAt ∧
        (s.applyRequest ovf r).1.operationIndex = s.operationIndex ∧
        (s.applyRequest ovf r).1.extentVersionIndex = s.extentVersionIndex := by
  have hframe := applyRequest_frame ovf s (r := r)
  cases r with
  | commitExtentMapping e =>
    by_cases had : Admits s s.mappingAt e
    · exact Or.inl ⟨e, rfl, had, congrArg Prod.fst (commit_of_admits ht had)⟩
    · obtain ⟨msg, hmsg⟩ := commit_of_not_admits ht had
      refine Or.inr (Or.inr ⟨?_, by simp, ?_⟩)
      · rintro e' ⟨⟩
        exact had
      · simp [applyRequest, hmsg]
  | deleteVolume v => exact Or.inr (Or.inl ⟨v, rfl⟩)
  | commitExtentMappingBatch es => cases hr
  | createVolume v size protection extentSize =>
    refine Or.inr (Or.inr ⟨by simp, by simp, ?_⟩)
    rcases createVolume_cases s v size protection extentSize with ⟨msg, heq⟩ | ⟨md, hv, heq⟩
    · simp [applyRequest, heq]
    · simp only [applyRequest, heq, and_self, and_true]
      funext k
      exact mappingAt_insert_empty ht hv k
  | _ =>
    refine Or.inr (Or.inr ⟨by simp, by simp, ?_⟩)
    obtain ⟨-, hmap, hop, hver⟩ := hframe rfl
    refine ⟨?_, hop, hver⟩
    funext k
    simp only [mappingAt, hmap]

/-- **A mapping that is there after one request** was there before, or is the one an admitted
commit has stored. -/
theorem mappingAt_applyRequest (ovf : Overflow) (ht : TablesMatch s) (hr : r.isBatch = false)
    {k : MappingKey} {m : ExtentMapping}
    (hm : (s.applyRequest ovf r).1.mappingAt k = some m) :
    s.mappingAt k = some m ∨ ∃ e, Admits s s.mappingAt e ∧
      (s.applyRequest ovf r).1 = commitState s e ∧ e.key = k ∧ e.mapping = m := by
  rcases tables_step ovf ht hr with ⟨e, rfl, had, hst⟩ | ⟨v, rfl⟩ | ⟨-, -, hmap, -, -⟩
  · rw [hst, mappingAt_commitState ht had.1] at hm
    split at hm
    · next hk => exact Or.inr ⟨e, had, hst, hk, Option.some.inj hm⟩
    · exact Or.inl hm
  · exact Or.inl (mappingAt_of_no_entries ht rfl hm)
  · rw [hmap] at hm
    exact Or.inl hm

end Blockyard.Raft
