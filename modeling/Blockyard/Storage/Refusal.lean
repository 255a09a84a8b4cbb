/-
# What stops a request on a data node

`blockyard-storage`, `service.rs`, seen from the answer: a request of a caller with full access, at
a node that was told neither an epoch nor a lease, can only be stopped by what `WriteStopped` and
`ReadStopped` list, and a read or write that is stopped there leaves the stored extents alone.

A write that fails late is the one case to be careful with.  `commit_extent` truncates the metadata
file before it renames the data file, so a commit that fails after its second call has answered
with an error AND changed the extent; it counts as stopped only if the calls up to the failing one
change nothing (`Changeless`).
-/
import Blockyard.Storage.Admission
import Blockyard.Storage.Dedup

open Std CrashFs

namespace Blockyard.Storage

namespace DataNodeService

variable {x : Externals} {env : WriteEnv} {s : DataNodeService} {payload : Bytes}

/-! ## 1. Stored extents -/

variable {d : DiskId} {store : ExtentStore} {request : WriteExtentRequest}

def fileAt (s : DataNodeService) (d : DiskId) (n : FileName) : Option File :=
  s.stores[d]?.bind fun store => store.files[n]?

/-- The two services have the same extents stored: index, data files and metadata files. -/
structure SameExtents (s s' : DataNodeService) : Prop where
  index : s'.index = s.index
  files : ∀ d n, n.kind ≠ .staged → s'.fileAt d n = s.fileAt d n

theorem SameExtents.refl (s : DataNodeService) : SameExtents s s := ⟨rfl, fun _ _ _ => rfl⟩

theorem SameExtents.of_stores {s' : DataNodeService} (hindex : s'.index = s.index)
    (hstores : s'.stores = s.stores) : SameExtents s s' := by
  refine ⟨hindex, fun d n _ => ?_⟩
  rw [fileAt, hstores, fileAt]

theorem sameExtents_insert_iff {s' : DataNodeService} {store' : ExtentStore}
    (hindex : s'.index = s.index) (hstores : s'.stores = s.stores.insert d store')
    (hstore : s.stores[d]? = some store) :
    SameExtents s s' ↔ ∀ n : FileName, n.kind ≠ .staged → store'.files[n]? = store.files[n]? := by
  have hat : ∀ n, s'.fileAt d n = store'.files[n]? := by
    intro n
    rw [fileAt, hstores, ExtTreeMap.getElem?_insert_self, Option.bind_some]
  have hat' : ∀ n, s.fileAt d n = store.files[n]? := by
    intro n
    rw [fileAt, hstore, Option.bind_some]
  constructor
  · intro h n hn
    rw [← hat, ← hat', h.files d n hn]
  · intro h
    refine ⟨hindex, fun d' n hn => ?_⟩
    by_cases hd : d = d'
    · subst hd
      rw [hat, hat', h n hn]
    · rw [fileAt, hstores, getElem?_insert_of_ne _ hd, fileAt]

/-! ## 2. Writes -/

def stagedStore (store : ExtentStore) (request : WriteExtentRequest) (payload : Bytes) :
    ExtentStore :=
  store.setFiles (execAll store.files
    (ExtentStore.stageCalls request.extentId request.extentVersion payload))

/-- The calls of a commit before the one at `i`, and as much of that one as gets through, leave
the stored files as they were: they have been made before, with the same result. -/
def Changeless (x : Externals) (env : WriteEnv) (store : ExtentStore)
    (request : WriteExtentRequest) (payload : Bytes) (fault : Fault) (i : Nat) : Prop :=
  let calls := ExtentStore.commitCalls x request.extentId request.extentVersion
    (writtenMeta x env store request payload)
  ∀ n : FileName, n.kind ≠ .staged → ∀ call, calls[i]? = some call →
    (execFailing fault (execAll (stagedStore store request payload).files (calls.take i))
      call)[n]? = store.files[n]?

/-- What stops a write of a caller with full access. -/
inductive WriteStopped (x : Externals) (env : WriteEnv) (s : DataNodeService)
    (request : WriteExtentRequest) (payload : Bytes) : Prop
  /-- The operation failed before, and the failure is in the log. -/
  | repeated {record : OperationRecord} (hdup : s.checkDuplicate request.operationId = some record)
      (hfail : record.success = false)
  | checksum (hnew : s.checkDuplicate request.operationId = none)
      (h : request.checksum ≠ x.checksum payload)
  | disk (hnew : s.checkDuplicate request.operationId = none)
      (h : ∀ d, selectWriteDisk env.diskOrder s.inventory request.targetDiskId ≠ .ok d)
  | store {d : DiskId} (hnew : s.checkDuplicate request.operationId = none)
      (hd : selectWriteDisk env.diskOrder s.inventory request.targetDiskId = .ok d)
      (h : d ∉ s.stores)
  | stage {i : Nat} (hnew : s.checkDuplicate request.operationId = none) (hi : i < 4)
      (h : env.stageFault i ≠ none)
  /-- A call of the commit failed, the first one at `i`, and the extent is as it was. -/
  | commit {d : DiskId} {store : ExtentStore} {i : Nat} {fault : Fault}
      (hnew : s.checkDuplicate request.operationId = none)
      (hd : selectWriteDisk env.diskOrder s.inventory request.targetDiskId = .ok d)
      (hstore : s.stores[d]? = some store) (hi : i < 7) (h : env.commitFault i = some fault)
      (hfirst : ∀ j < i, env.commitFault j = none)
      (hkept : Changeless x env store request payload fault i)

def FailsQuietly (s : DataNodeService) (answer : DataNodeService × WriteExtentResponse) : Prop :=
  answer.2.success = false ∧ SameExtents s answer.1

theorem failsQuietly_writeError (env : WriteEnv) (s : DataNodeService)
    (request : WriteExtentRequest) (message : String) :
    FailsQuietly s (s.writeError env request message) :=
  ⟨rfl, .of_stores rfl rfl⟩

/-- An I/O failure that leaves one store changed. -/
theorem failsQuietly_handleXfsError_iff {store' : ExtentStore} (hstore : s.stores[d]? = some store)
    (e : StorageError) (message : String) :
    FailsQuietly s ((({ s with stores := s.stores.insert d store' } :
        DataNodeService).handleXfsError d e).writeError env request message) ↔
      ∀ n : FileName, n.kind ≠ .staged → store'.files[n]? = store.files[n]? := by
  have hout : ∃ inv, (({ s with stores := s.stores.insert d store' } :
      DataNodeService).handleXfsError d e)
        = { s with stores := s.stores.insert d store', inventory := inv } := by
    unfold handleXfsError
    dsimp only
    split
    · exact ⟨_, rfl⟩
    · split <;> exact ⟨_, rfl⟩
  obtain ⟨inv, hinv⟩ := hout
  rw [hinv]
  have hsame : SameExtents s (({ s with stores := s.stores.insert d store', inventory := inv } :
      DataNodeService).writeError env request message).1 ↔
        ∀ n : FileName, n.kind ≠ .staged → store'.files[n]? = store.files[n]? :=
    sameExtents_insert_iff rfl rfl hstore
  rw [FailsQuietly, hsame]
  exact and_iff_right rfl

/-- A staging that fails touches the staging file only. -/
theorem failsQuietly_of_stageFault (hst : s.stores[d]? = some store)
    (hfault : ¬ ∀ i < 4, env.stageFault i = none) :
    FailsQuietly s (s.performWrite x env request payload d) := by
  have hframe : ∀ n : FileName, n.kind ≠ .staged →
      (store.stageExtent x env.stageFault request.extentId request.extentVersion
        payload).1.files[n]? = store.files[n]? := by
    intro n hn
    refine ExtentStore.stageExtent_frame env.stageFault store _ _ payload ?_
    rintro rfl
    exact hn rfl
  have hstop : ¬ (store.stageExtent x env.stageFault request.extentId request.extentVersion
      payload).2.isOk = true := by
    rw [ExtentStore.stageExtent_isOk_iff]
    exact hfault
  rcases hs : store.stageExtent x env.stageFault request.extentId request.extentVersion payload
    with ⟨store₁, result₁⟩
  rw [hs] at hframe hstop
  cases result₁ with
  | ok r => exact absurd rfl hstop
  | error e =>
    unfold performWrite
    simp only [hst, hs]
    exact (failsQuietly_handleXfsError_iff hst e _).mpr hframe

/-- The files after a commit whose call at `i` is the first to fail. -/
theorem changeless_iff {i : Nat} {fault : Fault} (hi : i < 7) (hf : env.commitFault i = some fault)
    (hfirst : ∀ j < i, env.commitFault j = none) :
    Changeless x env store request payload fault i ↔ ∀ n : FileName, n.kind ≠ .staged →
      ((stagedStore store request payload).commitExtent x env.commitFault env.committedAt
        request.extentId request.extentVersion (x.checksum payload) payload.length
        .default).1.files[n]? = store.files[n]? := by
  have hstaged : (stagedStore store request payload).files.contains
      ⟨.staged, request.extentId, request.extentVersion⟩ = true :=
    mem_files_staged store _ _ payload
  obtain ⟨step, hstep⟩ : ∃ step, ((stagedStore store request payload).commitScript x
      request.extentId request.extentVersion (writtenMeta x env store request payload))[i]?
        = some step := ⟨_, List.getElem?_eq_getElem hi⟩
  have hcall : (ExtentStore.commitCalls x request.extentId request.extentVersion
      (writtenMeta x env store request payload))[i]? = some step.1 := by
    rw [← ExtentStore.commitScript_calls (stagedStore store request payload), List.getElem?_map,
      hstep, Option.map_some]
  unfold Changeless ExtentStore.commitExtent
  rw [if_neg (not_not_intro hstaged)]
  simp only [hcall, Option.some.injEq, forall_eq']
  rw [← ExtentStore.commitScript_calls (stagedStore store request payload),
    ← runScript_of_fault hfirst hf hstep]
  rfl

/-- A commit that fails is quiet if the calls up to the failing one change nothing. -/
theorem failsQuietly_iff_changeless (hst : s.stores[d]? = some store)
    (hstage : ∀ i < 4, env.stageFault i = none) {i : Nat} {fault : Fault} (hi : i < 7)
    (hf : env.commitFault i = some fault) (hfirst : ∀ j < i, env.commitFault j = none) :
    FailsQuietly s (s.performWrite x env request payload d) ↔
      Changeless x env store request payload fault i := by
  have hok : (store.stageExtent x env.stageFault request.extentId request.extentVersion
      payload).2.isOk = true := ExtentStore.stageExtent_isOk_iff.mpr hstage
  have hstop : ¬ (s.performWrite x env request payload d).2.success = true := by
    rw [performWrite_success_iff]
    rintro ⟨-, -, h⟩
    rw [h i hi] at hf
    cases hf
  rcases hs : store.stageExtent x env.stageFault request.extentId request.extentVersion payload
    with ⟨store₁, result₁⟩
  rw [hs] at hok
  cases result₁ with
  | error e => cases hok
  | ok r =>
    obtain ⟨path, checksum⟩ := r
    obtain ⟨rfl, hsum⟩ := ExtentStore.stageExtent_ok hs
    obtain rfl : checksum = x.checksum payload := hsum
    rw [changeless_iff hi hf hfirst, stagedStore]
    rcases hc : (store.setFiles (execAll store.files (ExtentStore.stageCalls request.extentId
      request.extentVersion payload))).commitExtent x env.commitFault env.committedAt
      request.extentId request.extentVersion (x.checksum payload) payload.length .default
      with ⟨store₂, result₂⟩
    unfold performWrite at hstop ⊢
    simp only [hst, hs, hc] at hstop ⊢
    cases result₂ with
    | error e => exact failsQuietly_handleXfsError_iff hst e _
    | ok entry => exact absurd rfl hstop

/-- **What stops a write on its disk.** -/
theorem performWrite_failsQuietly_iff :
    FailsQuietly s (s.performWrite x env request payload d) ↔
      d ∉ s.stores ∨ (∃ i < 4, env.stageFault i ≠ none) ∨
        ∃ store, s.stores[d]? = some store ∧ ∃ i fault, i < 7 ∧ env.commitFault i = some fault ∧
          (∀ j < i, env.commitFault j = none) ∧ Changeless x env store request payload fault i := by
  have hfaulty : (∃ i < 4, env.stageFault i ≠ none) ↔ ¬ ∀ i < 4, env.stageFault i = none := by
    push Not
    rfl
  rw [hfaulty]
  cases hst : s.stores[d]? with
  | none =>
    have hno : d ∉ s.stores := fun hmem => by
      obtain ⟨store, hstore⟩ := exists_getElem?_of_mem hmem
      rw [hst] at hstore
      cases hstore
    have hout : s.performWrite x env request payload d
        = s.writeError env request s!"no extent store for disk {d}" := by
      unfold performWrite
      simp only [hst]
    rw [hout]
    exact ⟨fun _ => Or.inl hno, fun _ => failsQuietly_writeError env s request _⟩
  | some store =>
    have hmem : d ∈ s.stores := mem_of_getElem? hst
    by_cases hstage : ∀ i < 4, env.stageFault i = none
    · by_cases hcommit : ∀ i < 7, env.commitFault i = none
      · -- nothing is in the way: the write goes through
        have hdone : (s.performWrite x env request payload d).2.success = true :=
          performWrite_success_iff.mpr ⟨hmem, hstage, hcommit⟩
        constructor
        · rintro ⟨hfail, -⟩
          rw [hdone] at hfail
          cases hfail
        · rintro (hno | hno | ⟨store', -, i, fault, hi, hf, -⟩)
          · exact absurd hmem hno
          · exact absurd hstage hno
          · rw [hcommit i hi] at hf
            cases hf
      · constructor
        · intro hquiet
          obtain ⟨i, fault, hi, hf, hfirst⟩ := exists_first_fault hcommit
          exact Or.inr (Or.inr ⟨store, rfl, i, fault, hi, hf, hfirst,
            (failsQuietly_iff_changeless hst hstage hi hf hfirst).mp hquiet⟩)
        · rintro (hno | hno | ⟨store', hstore', i, fault, hi, hf, hfirst, hkept⟩)
          · exact absurd hmem hno
          · exact absurd hstage hno
          · cases hstore'
            exact (failsQuietly_iff_changeless hst hstage hi hf hfirst).mpr hkept
    · exact ⟨fun _ => Or.inr (Or.inl hstage), fun _ => failsQuietly_of_stageFault hst hstage⟩

/-- **What stops a write** of a caller with access, when the node knows no newer epoch and no
lease: one of the obstacles of `WriteStopped`, and nothing else. -/
theorem handleWrite_failsQuietly_iff {caller : PeerIdentity}
    (hacl : s.volumeAcl.checkWrite request.volumeId caller = true)
    (hepoch : s.currentEpoch ≤ request.epoch) (hlease : s.leaseCache[request.volumeId]? = none) :
    FailsQuietly s (s.handleWrite x env request payload caller) ↔
      WriteStopped x env s request payload := by
  have hgates : request.checksum = x.checksum payload → Gates x s request payload caller := by
    intro hsum
    refine ⟨hacl, hepoch, ?_, hsum⟩
    intro cached hcached
    rw [hlease] at hcached
    cases hcached
  rcases handleWrite_cases (x := x) env s request payload caller with
    ⟨hno, -⟩ | ⟨-, record, hdup, heq⟩ | ⟨hnew, hstop, msg, heq⟩ | ⟨hnew, hg, d, hd, heq⟩
  · rw [hacl] at hno
    cases hno
  · -- answered from the log
    rw [heq]
    constructor
    · rintro ⟨hfail, -⟩
      exact .repeated hdup hfail
    · intro h
      cases h with
      | repeated hdup' hfail =>
        rw [hdup] at hdup'
        cases hdup'
        exact ⟨hfail, .refl s⟩
      | checksum hnew _ | disk hnew _ | store hnew _ _ | stage hnew _ _ | commit hnew _ _ _ _ _ _ =>
        rw [hdup] at hnew
        cases hnew
  · -- refused before a disk was chosen
    rw [heq]
    refine ⟨fun _ => ?_, fun _ => failsQuietly_writeError env s request msg⟩
    by_cases hsum : request.checksum = x.checksum payload
    · exact .disk hnew fun d => hstop d (hgates hsum)
    · exact .checksum hnew hsum
  · rw [heq, performWrite_failsQuietly_iff]
    constructor
    · rintro (hno | ⟨i, hi, h⟩ | ⟨store, hstore, i, fault, hi, h, hfirst, hkept⟩)
      · exact .store hnew hd hno
      · exact .stage hnew hi h
      · exact .commit hnew hd hstore hi h hfirst hkept
    · intro h
      cases h with
      | repeated hdup _ =>
        rw [hnew] at hdup
        cases hdup
      | checksum _ h => exact absurd hg.checksum h
      | disk _ h => exact absurd hd (h d)
      | store _ hd' h =>
        rw [hd] at hd'
        cases hd'
        exact Or.inl h
      | stage _ hi h => exact Or.inr (Or.inl ⟨_, hi, h⟩)
      | commit _ hd' hstore hi h hfirst hkept =>
        rw [hd] at hd'
        cases hd'
        exact Or.inr (Or.inr ⟨_, hstore, _, _, hi, h, hfirst, hkept⟩)

/-! ## 3. Reads -/

/-- What stops a read of a caller with full access. -/
inductive ReadStopped (x : Externals) (fault : ExtentStore.ReadFault) (s : DataNodeService)
    (request : ReadExtentRequest) : Prop
  | unknown (h : s.index[request.extentId]? = none)
  | version {entry : LocalExtentEntry} (he : s.index[request.extentId]? = some entry)
      (h : entry.version ≠ request.extentVersion)
  | disk {entry : LocalExtentEntry} (he : s.index[request.extentId]? = some entry)
      (h : s.inventory.allowsReads entry.diskId = .ok false)
  | store {entry : LocalExtentEntry} (he : s.index[request.extentId]? = some entry)
      (h : s.stores[entry.diskId]? = none)
  | failed {entry : LocalExtentEntry} {store : ExtentStore} {e : StorageError}
      (he : s.index[request.extentId]? = some entry)
      (hstore : s.stores[entry.diskId]? = some store)
      (h : store.readExtent x fault request.extentId request.extentVersion = .error e)
  | corrupt {entry : LocalExtentEntry} {store : ExtentStore} {data : Bytes} {checksum : String}
      (he : s.index[request.extentId]? = some entry)
      (hstore : s.stores[entry.diskId]? = some store)
      (h : store.readExtent x fault request.extentId request.extentVersion = .ok (data, checksum))
      (hsum : checksum ≠ entry.checksum)

/-- A failed read and the state it leaves: an answer was given, without data. -/
def FailsReading (s : DataNodeService)
    (answer : DataNodeService × Option (ReadExtentResponse × Option Bytes)) : Prop :=
  (∃ response : ReadExtentResponse, answer.2 = some (response, none) ∧ response.success = false) ∧
    SameExtents s answer.1

theorem sameExtents_handleRead (ovf : Overflow) (fault : ExtentStore.ReadFault)
    (s : DataNodeService) (request : ReadExtentRequest) (caller : PeerIdentity) :
    SameExtents s (s.handleRead x ovf fault request caller).1 := by
  obtain ⟨inv, -, heq⟩ := handleRead_fst x ovf fault s request caller
  rw [heq]
  exact .of_stores rfl rfl

/-- **What stops a read** of a caller with access, when the node knows no newer epoch: one of the
obstacles of `ReadStopped`, and nothing else. -/
theorem handleRead_failsReading_iff {ovf : Overflow} {fault : ExtentStore.ReadFault}
    {request : ReadExtentRequest} {caller : PeerIdentity}
    (hacl : s.volumeAcl.checkRead request.volumeId caller = true)
    (hepoch : s.validateEpochForRead request.epoch = .ok ()) :
    FailsReading s (s.handleRead x ovf fault request caller) ↔ ReadStopped x fault s request := by
  rw [FailsReading, and_iff_left (sameExtents_handleRead ovf fault s request caller)]
  have hfails : ∀ message, ∃ response : ReadExtentResponse,
      some (readError request message, (none : Option Bytes)) = some (response, none) ∧
        response.success = false := fun message => ⟨readError request message, rfl, rfl⟩
  unfold handleRead
  simp only [hacl, hepoch, not_true_eq_false, if_false]
  cases he : s.index[request.extentId]? with
  | none => exact ⟨fun _ => .unknown he, fun _ => hfails _⟩
  | some entry =>
    by_cases hver : entry.version = request.extentVersion
    case neg =>
      simp only [hver, ne_eq, not_false_eq_true, if_true]
      exact ⟨fun _ => .version he hver, fun _ => hfails _⟩
    simp only [hver, ne_eq, not_true_eq_false, if_false]
    split
    case h_1 hdisk => exact ⟨fun _ => .disk he hdisk, fun _ => hfails _⟩
    case h_2 hdisk =>
    cases hst : s.stores[entry.diskId]? with
    | none => exact ⟨fun _ => .store he hst, fun _ => hfails _⟩
    | some store =>
      rcases hread : store.readExtent x fault request.extentId request.extentVersion with
        e | ⟨data, checksum⟩
      · simp only [hread]
        exact ⟨fun _ => .failed he hst hread, fun _ => hfails _⟩
      · simp only [hread]
        by_cases hsum : checksum = entry.checksum
        case neg =>
          simp only [hsum, not_false_eq_true, if_true]
          exact ⟨fun _ => .corrupt he hst hread hsum, fun _ => hfails _⟩
        -- the bytes are there: data is sent, or the slice panics
        simp only [hsum, not_true_eq_false, if_false]
        constructor
        · rintro ⟨response, hresponse, -⟩
          rw [Option.map_eq_some_iff] at hresponse
          obtain ⟨window, -, heq⟩ := hresponse
          cases heq
        · intro h
          cases h with
          | unknown h => rw [he] at h; cases h
          | version he' h => rw [he] at he'; cases he'; exact absurd hver h
          | disk he' h => rw [he] at he'; cases he'; exact absurd h hdisk
          | store he' h => rw [he] at he'; cases he'; rw [hst] at h; cases h
          | failed he' hstore h =>
            rw [he] at he'; cases he'
            rw [hst] at hstore; cases hstore
            rw [hread] at h; cases h
          | corrupt he' hstore h hsum' =>
            rw [he] at he'; cases he'
            rw [hst] at hstore; cases hstore
            rw [hread] at h; cases h
            exact absurd hsum hsum'

end DataNodeService

end Blockyard.Storage
