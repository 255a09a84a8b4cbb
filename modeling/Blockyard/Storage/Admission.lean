/-
# Which writes a data node admits

`handle_write` is a chain of seven gates.  This module reads the chain once, as predicates on
the service and the request:

* `Eligible` -- a disk new extents may go to, and `Chosen` -- what the disk scan of
  `select_write_disk` promises about the disk it returns, for EVERY order of the scan;
* `Gates` -- access control, epoch, lease and payload checksum;
* `handleWrite_of_gates` and `handleWrite_cases` -- a write that is not a duplicate is
  performed exactly when the gates hold and a disk was chosen, and otherwise recorded as
  failed with nothing else changed.

`write_admission` is the characterisation from the outside: a success implies all the gates,
and without I/O errors the gates imply success.
-/
import Blockyard.Storage.Service
import Blockyard.Storage.Files
import Blockyard.Storage.Json

open Std CrashFs

namespace Blockyard.Storage

open DataNodeService

/-! ## 1. The choice of a disk -/

variable {d : DiskId} {env : WriteEnv} {s : DataNodeService} {request : WriteExtentRequest}
  {payload : Bytes} {caller : PeerIdentity}

/-- A disk new extents may go to: qualified, Healthy or Suspect, without bad regions. -/
structure Eligible (inv : DiskInventory) (d : DiskId) (disk : ManagedDisk) : Prop where
  known : inv.disks[d]? = some disk
  qualified : disk.qualification = .qualified
  state : disk.state = .healthy ∨ disk.state = .suspect
  clean : disk.badRegions = []

/-- The state of a disk, if new extents may go to it. -/
def eligibleState (inv : DiskInventory) (d : DiskId) : Option DiskState :=
  inv.disks[d]?.bind fun disk =>
    if disk.qualification = .qualified ∧ disk.state.allowsAllocation ∧ disk.badRegions = [] then
      some disk.state
    else none

theorem eligibleState_eq_some_iff {inv : DiskInventory} {st : DiskState} :
    eligibleState inv d = some st ↔ ∃ disk, Eligible inv d disk ∧ disk.state = st := by
  unfold eligibleState
  constructor
  · intro h
    obtain ⟨disk, hdisk, hif⟩ := Option.bind_eq_some_iff.mp h
    split at hif
    · rename_i hok
      obtain ⟨hq, ha, hb⟩ := hok
      cases hif
      exact ⟨disk, ⟨hdisk, hq, (DiskState.allowsAllocation_iff _).mp ha, hb⟩, rfl⟩
    · cases hif
  · rintro ⟨disk, hel, rfl⟩
    rw [hel.known, Option.bind_some,
      if_pos ⟨hel.qualified, (DiskState.allowsAllocation_iff _).mpr hel.state, hel.clean⟩]

theorem considerDisk_eq (inv : DiskInventory) (c : Candidates) (d : DiskId) :
    considerDisk inv c d =
      (c.1.or (if eligibleState inv d = some .healthy then some d else none),
        c.2.or (if eligibleState inv d = some .suspect then some d else none)) := by
  obtain ⟨h, s⟩ := c
  unfold considerDisk DiskInventory.allowsAllocation DiskInventory.hasBadRegions
    DiskInventory.getState eligibleState
  cases hdisk : inv.disks[d]? with
  | none => simp
  | some disk =>
    -- the remaining cases are the disk's state, its qualification and its bad regions
    by_cases hq : disk.qualification = .qualified
    · by_cases hb : disk.badRegions = []
      · cases hst : disk.state <;> cases h <;> cases s <;>
          simp [hq, hb, hst, DiskState.allowsAllocation]
      · have hlen : 0 < disk.badRegions.length := List.length_pos_iff.mpr hb
        cases hst : disk.state <;> simp [hq, hb, hst, hlen, DiskState.allowsAllocation]
    · cases hst : disk.state <;> simp [hq, hst, DiskState.allowsAllocation]

/-- **The scan** keeps the first Healthy and the first Suspect disk it meets. -/
theorem foldl_considerDisk (inv : DiskInventory) (ds : List DiskId) (c : Candidates) :
    ds.foldl (considerDisk inv) c =
      (c.1.or (ds.find? fun d => eligibleState inv d = some .healthy),
        c.2.or (ds.find? fun d => eligibleState inv d = some .suspect)) := by
  induction ds generalizing c with
  | nil => simp
  | cons d ds ih =>
    rw [List.foldl_cons, ih, considerDisk_eq, List.find?_cons, List.find?_cons]
    by_cases hh : eligibleState inv d = some .healthy
    · simp [hh]
    · by_cases hs : eligibleState inv d = some .suspect
      · simp [hs]
      · simp [hh, hs]

/-- What `select_write_disk` promises about the disk it returns. -/
structure Chosen (inv : DiskInventory) (target : Option DiskId) (d : DiskId) : Prop where
  eligible : ∃ disk, Eligible inv d disk
  asRequested : ∀ t, target = some t → d = t
  prefersHealthy : target = none → (∃ d' disk', Eligible inv d' disk' ∧ disk'.state = .healthy) →
    ∃ disk, Eligible inv d disk ∧ disk.state = .healthy

/-- A requested target disk is taken exactly when it is eligible. -/
theorem selectWriteDisk_target (order : IterOrder DiskId) (inv : DiskInventory) (t d : DiskId) :
    selectWriteDisk order inv (some t) = .ok d ↔ d = t ∧ ∃ disk, Eligible inv t disk := by
  cases hdisk : inv.disks[t]? with
  | none =>
    have hno : ¬ ∃ disk, Eligible inv t disk := by
      rintro ⟨disk, hel⟩
      rw [hel.known] at hdisk
      cases hdisk
    simp [selectWriteDisk, DiskInventory.allowsAllocation, hdisk, hno]
  | some disk =>
    have hiff : (∃ disk', Eligible inv t disk') ↔
        disk.qualification = .qualified ∧ disk.state.allowsAllocation = true ∧
          disk.badRegions = [] := by
      constructor
      · rintro ⟨disk', hel⟩
        obtain rfl : disk = disk' := Option.some.inj (hdisk.symm.trans hel.known)
        exact ⟨hel.qualified, (DiskState.allowsAllocation_iff _).mpr hel.state, hel.clean⟩
      · rintro ⟨hq, ha, hb⟩
        exact ⟨disk, hdisk, hq, (DiskState.allowsAllocation_iff _).mp ha, hb⟩
    rw [hiff]
    unfold selectWriteDisk DiskInventory.allowsAllocation DiskInventory.hasBadRegions
    by_cases hq : disk.qualification = .qualified
    · by_cases hb : disk.badRegions = []
      · cases ha : disk.state.allowsAllocation <;> simp [hdisk, hq, hb, ha, eq_comm (a := t)]
      · have hlen : 0 < disk.badRegions.length := List.length_pos_iff.mpr hb
        cases ha : disk.state.allowsAllocation <;> simp [hdisk, hq, hb, ha, hlen]
    · simp [hdisk, hq]

/-- **The returned disk keeps the promise**, whatever the order of the scan. -/
theorem chosen_of_selectWriteDisk {order : IterOrder DiskId} {inv : DiskInventory}
    {target : Option DiskId} (h : selectWriteDisk order inv target = .ok d) :
    Chosen inv target d := by
  cases target with
  | some t =>
    obtain ⟨rfl, hel⟩ := (selectWriteDisk_target order inv t d).mp h
    refine ⟨hel, ?_, fun hn => by cases hn⟩
    intro t' ht'
    exact Option.some.inj ht'
  | none =>
    simp only [selectWriteDisk, foldl_considerDisk, Option.none_or] at h
    -- nobody is Healthy when the scan finds no Healthy disk
    have hnone : (inv.listDisks order).find? (fun d => eligibleState inv d = some .healthy) = none →
        ∀ d' disk', Eligible inv d' disk' → disk'.state ≠ .healthy := by
      intro hf d' disk' hel hst
      have hmem : d' ∈ inv.listDisks order :=
        (IterOrder.mem_keys order inv.disks d').mpr (mem_of_getElem? hel.known)
      have := List.find?_eq_none.mp hf d' hmem
      simp [eligibleState_eq_some_iff.mpr ⟨disk', hel, hst⟩] at this
    cases hh : (inv.listDisks order).find? (fun d => eligibleState inv d = some .healthy) with
    | some d₀ =>
      rw [hh] at h
      cases h
      obtain ⟨disk, hel, hst⟩ := eligibleState_eq_some_iff.mp (by simpa using List.find?_some hh)
      exact ⟨⟨disk, hel⟩, fun t ht => (by cases ht), fun _ _ => ⟨disk, hel, hst⟩⟩
    | none =>
      rw [hh] at h
      cases hs : (inv.listDisks order).find? (fun d => eligibleState inv d = some .suspect) with
      | none =>
        rw [hs] at h
        cases h
      | some d₀ =>
        rw [hs] at h
        cases h
        obtain ⟨disk, hel, -⟩ := eligibleState_eq_some_iff.mp (by simpa using List.find?_some hs)
        refine ⟨⟨disk, hel⟩, fun t ht => (by cases ht), ?_⟩
        rintro - ⟨d', disk', hel', hst'⟩
        exact absurd hst' (hnone hh d' disk' hel')

/-- **Some disk is returned** when an eligible one exists and the target, if any, is eligible. -/
theorem selectWriteDisk_of_eligible (order : IterOrder DiskId) {inv : DiskInventory}
    {target : Option DiskId} {disk : ManagedDisk} (hel : Eligible inv d disk)
    (htarget : ∀ t, target = some t → d = t) :
    ∃ d', selectWriteDisk order inv target = .ok d' := by
  cases target with
  | some t =>
    cases htarget t rfl
    exact ⟨d, (selectWriteDisk_target order inv d d).mpr ⟨rfl, disk, hel⟩⟩
  | none =>
    have hmem : d ∈ inv.listDisks order :=
      (IterOrder.mem_keys order inv.disks d).mpr (mem_of_getElem? hel.known)
    have hst := eligibleState_eq_some_iff.mpr ⟨disk, hel, rfl⟩
    simp only [selectWriteDisk, foldl_considerDisk, Option.none_or]
    cases hh : (inv.listDisks order).find? (fun d => eligibleState inv d = some .healthy) with
    | some d₀ => exact ⟨d₀, rfl⟩
    | none =>
      cases hs : (inv.listDisks order).find? (fun d => eligibleState inv d = some .suspect) with
      | some d₀ => exact ⟨d₀, rfl⟩
      | none =>
        have h1 := List.find?_eq_none.mp hh d hmem
        have h2 := List.find?_eq_none.mp hs d hmem
        rcases hel.state with h | h
        · simp [hst, h] at h1
        · simp [hst, h] at h2

/-! ## 2. The other gates -/

/-- Access control, epoch, lease and payload checksum. -/
structure Gates (x : Externals) (s : DataNodeService) (request : WriteExtentRequest)
    (payload : Bytes) (caller : PeerIdentity) : Prop where
  acl : s.volumeAcl.checkWrite request.volumeId caller = true
  epoch : s.currentEpoch ≤ request.epoch
  lease : ∀ cached, s.leaseCache[request.volumeId]? = some cached →
    request.sessionId = cached.sessionId ∧
      ∃ v, request.leaseVersion = some v ∧ cached.leaseVersion ≤ v
  checksum : request.checksum = x.checksum payload

theorem validateEpoch_eq_ok_iff (s : DataNodeService) (epoch : EpochId) :
    s.validateEpoch epoch = .ok () ↔ s.currentEpoch ≤ epoch := by
  unfold validateEpoch
  split
  · rename_i h
    simp only [reduceCtorEq, false_iff]
    exact Nat.not_le.mpr h
  · rename_i h
    simp only [true_iff]
    exact Nat.not_lt.mp h

theorem validateWriteLease_eq_ok_iff (s : DataNodeService) (request : WriteExtentRequest) :
    s.validateWriteLease request = .ok () ↔
      ∀ cached, s.leaseCache[request.volumeId]? = some cached →
        request.sessionId = cached.sessionId ∧
          ∃ v, request.leaseVersion = some v ∧ cached.leaseVersion ≤ v := by
  unfold validateWriteLease
  cases hc : s.leaseCache[request.volumeId]? with
  | none => simp
  | some cached =>
    cases hv : request.leaseVersion with
    | none => simp
    | some v =>
      by_cases hs : request.sessionId = cached.sessionId
      · by_cases hlt : v < cached.leaseVersion
        · simp [hs, hlt]
        · simp [hs, hlt, Nat.not_lt.mp hlt]
      · simp [hs]

/-! ## 3. Performing a write -/

def writeSuccess (request : WriteExtentRequest) (d : DiskId) (checksum : String) :
    WriteExtentResponse where
  operationId := request.operationId
  extentId := request.extentId
  extentVersion := request.extentVersion
  diskId := d
  success := true
  checksum := checksum
  error := none

def successRecord (request : WriteExtentRequest) (d : DiskId) (checksum : String) :
    OperationRecord where
  operationId := request.operationId
  extentId := request.extentId
  extentVersion := request.extentVersion
  diskId := d
  checksum := checksum
  success := true

variable {x : Externals}

section Written

variable (x : Externals) (env : WriteEnv) (store : ExtentStore) (request : WriteExtentRequest)
  (payload : Bytes)

/-- The metadata a write leaves beside its data. -/
def writtenMeta : ExtentMeta :=
  store.newMeta request.extentId request.extentVersion (x.checksum payload) payload.length
    .default env.committedAt

/-- The store after a write: staged, then committed. -/
def writtenStore : ExtentStore :=
  let staged := execAll store.files
    (ExtentStore.stageCalls request.extentId request.extentVersion payload)
  store.setFiles (execAll staged (ExtentStore.commitCalls x request.extentId
    request.extentVersion (writtenMeta x env store request payload)))

variable {x}

theorem getElem?_writtenStore (n : FileName) :
    (writtenStore x env store request payload).files[n]? =
      if n = ⟨.committed, request.extentId, request.extentVersion⟩ then some ⟨payload, true⟩
      else if n = ⟨.metadata, request.extentId, request.extentVersion⟩ then
        some ⟨x.toStringPretty (writtenMeta x env store request payload), true⟩
      else if n = ⟨.staged, request.extentId, request.extentVersion⟩ then none
      else store.files[n]? := by
  have hstaged := ExtentStore.files_stage store.files request.extentId request.extentVersion payload
  unfold writtenStore
  rw [ExtentStore.setFiles_files, ExtentStore.files_commit ((hstaged _).trans (if_pos rfl))]
  by_cases hn : n = ⟨.staged, request.extentId, request.extentVersion⟩
  · rw [if_pos hn, if_pos hn]
  · rw [if_neg hn, if_neg hn, hstaged, if_neg hn]

theorem writtenMeta_plain : (writtenMeta x env store request payload).Plain :=
  isAlphanum_of_mem_checksum x payload

theorem writtenStore_frame {n : FileName}
    (hn : n.extentId ≠ request.extentId ∨ n.version ≠ request.extentVersion) :
    (writtenStore x env store request payload).files[n]? = store.files[n]? := by
  have hne : ∀ k, n ≠ ⟨k, request.extentId, request.extentVersion⟩ := by
    rintro k rfl
    rcases hn with h | h <;> exact h rfl
  rw [getElem?_writtenStore, if_neg (hne _), if_neg (hne _), if_neg (hne _)]

theorem writtenStore_stored :
    ExtentStore.Stored x (writtenStore x env store request payload) request.extentId
      request.extentVersion payload := by
  refine ⟨⟨⟨payload, true⟩, ?_, rfl⟩, ⟨⟨x.toStringPretty _, true⟩, _, ?_,
    x.fromStr_toStringPretty _ (writtenMeta_plain env store request payload), rfl⟩⟩
  · rw [getElem?_writtenStore, if_pos rfl]
  · rw [getElem?_writtenStore, if_neg (by simp), if_pos rfl]

end Written

/-- The service after a write, before it is recorded. -/
def writtenService (x : Externals) (env : WriteEnv) (s : DataNodeService) (store : ExtentStore)
    (request : WriteExtentRequest) (payload : Bytes) (d : DiskId) : DataNodeService :=
  { s with
    stores := s.stores.insert d (writtenStore x env store request payload)
    index := s.index.upsert (store.committedEntry request.extentId request.extentVersion
      (x.checksum payload) payload.length .default) }

/-- The service an I/O failure leaves, before the failure is recorded: files and the state of
a disk may have changed, nothing else. -/
structure AfterFault (s s' : DataNodeService) : Prop where
  epoch : s'.currentEpoch = s.currentEpoch
  log : s'.operationLog = s.operationLog
  index : s'.index = s.index
  leases : s'.leaseCache = s.leaseCache
  acl : s'.volumeAcl = s.volumeAcl

theorem AfterFault.refl (s : DataNodeService) : AfterFault s s := ⟨rfl, rfl, rfl, rfl, rfl⟩

theorem afterFault_handleXfsError (s : DataNodeService) (stores : HashMap DiskId ExtentStore)
    (d : DiskId) (e : StorageError) :
    AfterFault s (({ s with stores := stores } : DataNodeService).handleXfsError d e) := by
  unfold handleXfsError
  dsimp only
  split
  · exact ⟨rfl, rfl, rfl, rfl, rfl⟩
  · split <;> exact ⟨rfl, rfl, rfl, rfl, rfl⟩

/-- **What performing a write does**: it writes, indexes, records and acknowledges, or it
records a failure. -/
theorem performWrite_cases (env : WriteEnv) (s : DataNodeService) (request : WriteExtentRequest)
    (payload : Bytes) (d : DiskId) :
    (∃ store, s.stores[d]? = some store ∧ s.performWrite x env request payload d =
        ((writtenService x env s store request payload d).recordOperation env.evictOrder
          (successRecord request d (x.checksum payload)),
          writeSuccess request d (x.checksum payload))) ∨
      ∃ s' msg, AfterFault s s' ∧
        s.performWrite x env request payload d = s'.writeError env request msg := by
  unfold performWrite
  cases hst : s.stores[d]? with
  | none => exact Or.inr ⟨s, _, AfterFault.refl s, rfl⟩
  | some store =>
    rcases hstage : store.stageExtent x env.stageFault request.extentId request.extentVersion
      payload with ⟨store₁, result₁⟩
    cases result₁ with
    | error e =>
      refine Or.inr ⟨_, s!"staging failed: {e}",
        afterFault_handleXfsError s (s.stores.insert d store₁) d e, ?_⟩
      simp only [hstage]
    | ok r =>
      obtain ⟨path, checksum⟩ := r
      obtain ⟨rfl, hsum⟩ := ExtentStore.stageExtent_ok hstage
      obtain rfl : checksum = x.checksum payload := hsum
      rcases hcommit : (store.setFiles (execAll store.files (ExtentStore.stageCalls
        request.extentId request.extentVersion payload))).commitExtent x env.commitFault
        env.committedAt request.extentId request.extentVersion (x.checksum payload)
        payload.length .default with ⟨store₂, result₂⟩
      cases result₂ with
      | error e =>
        refine Or.inr ⟨_, s!"commit failed: {e}",
          afterFault_handleXfsError s (s.stores.insert d store₂) d e, ?_⟩
        simp only [hstage, hcommit]
      | ok entry =>
        obtain ⟨-, rfl, rfl⟩ := ExtentStore.commitExtent_ok hcommit
        refine Or.inl ⟨store, rfl, ?_⟩
        simp only [hstage, hcommit]
        rfl

theorem mem_files_staged (store : ExtentStore) (e : ExtentId) (v : Nat) (payload : Bytes) :
    (⟨.staged, e, v⟩ : FileName) ∈
      (store.setFiles (execAll store.files (ExtentStore.stageCalls e v payload))).files := by
  rw [ExtTreeMap.mem_iff_isSome_getElem?, ExtentStore.setFiles_files, ExtentStore.files_stage,
    if_pos rfl]
  rfl

theorem performWrite_of_no_fault (hs : ∀ i, env.stageFault i = none)
    (hc : ∀ i, env.commitFault i = none) {store : ExtentStore} (hst : s.stores[d]? = some store)
    (request : WriteExtentRequest) (payload : Bytes) :
    s.performWrite x env request payload d =
      ((writtenService x env s store request payload d).recordOperation env.evictOrder
        (successRecord request d (x.checksum payload)),
        writeSuccess request d (x.checksum payload)) := by
  have hstaged := mem_files_staged store request.extentId request.extentVersion payload
  unfold performWrite
  simp only [hst, ExtentStore.stageExtent_of_no_fault hs,
    ExtentStore.commitExtent_of_no_fault hc _ hstaged]
  rfl

/-- **When a write on a disk succeeds**: the disk has a store, and none of the calls of staging
and commit fails. -/
theorem performWrite_success_iff :
    (s.performWrite x env request payload d).2.success = true ↔
      d ∈ s.stores ∧ (∀ i < 4, env.stageFault i = none) ∧ ∀ i < 7, env.commitFault i = none := by
  unfold performWrite
  cases hst : s.stores[d]? with
  | none =>
    have hno : d ∉ s.stores := by
      intro hmem
      obtain ⟨store, hstore⟩ := exists_getElem?_of_mem hmem
      rw [hst] at hstore
      cases hstore
    simp [writeError, hno]
  | some store =>
    rcases hstage : store.stageExtent x env.stageFault request.extentId request.extentVersion
      payload with ⟨store₁, result₁⟩
    have hstaging : result₁.isOk = true ↔ ∀ i < 4, env.stageFault i = none := by
      rw [← ExtentStore.stageExtent_isOk_iff, hstage]
    cases result₁ with
    | error e =>
      simp only [hstage, ← hstaging]
      simp [writeError, Except.isOk, Except.toBool]
    | ok r =>
      obtain ⟨path, checksum⟩ := r
      obtain ⟨rfl, -⟩ := ExtentStore.stageExtent_ok hstage
      have hstaged := mem_files_staged store request.extentId request.extentVersion payload
      rcases hcommit : (store.setFiles (execAll store.files (ExtentStore.stageCalls
        request.extentId request.extentVersion payload))).commitExtent x env.commitFault
        env.committedAt request.extentId request.extentVersion checksum payload.length .default
        with ⟨store₂, result₂⟩
      have hcommitting : result₂.isOk = true ↔ ∀ i < 7, env.commitFault i = none := by
        rw [← ExtentStore.commitExtent_isOk_iff hstaged, hcommit]
      simp only [hstage, hcommit, ← hstaging, ← hcommitting]
      cases result₂ with
      | error e => simp [writeError, Except.isOk, Except.toBool]
      | ok entry => simp [Except.isOk, Except.toBool, mem_of_getElem? hst]

/-! ## 4. Handling a write -/

theorem handleWrite_of_gates (hnew : s.checkDuplicate request.operationId = none)
    (hg : Gates x s request payload caller)
    (hd : selectWriteDisk env.diskOrder s.inventory request.targetDiskId = .ok d) :
    s.handleWrite x env request payload caller = s.performWrite x env request payload d := by
  unfold handleWrite
  rw [if_neg (by simpa using hg.acl)]
  simp only [hnew, (validateEpoch_eq_ok_iff s _).mpr hg.epoch,
    (validateWriteLease_eq_ok_iff s request).mpr hg.lease, hd, hg.checksum, ne_eq,
    not_true_eq_false, if_false]

theorem handleWrite_of_denied (hacl : s.volumeAcl.checkWrite request.volumeId caller = false) :
    s.handleWrite x env request payload caller = s.writeError env request
      s!"write denied: {caller} not authorized for volume {request.volumeId}" := by
  unfold handleWrite
  rw [if_pos (by simpa using hacl)]

theorem handleWrite_of_duplicate (hacl : s.volumeAcl.checkWrite request.volumeId caller = true)
    {record : OperationRecord} (hdup : s.checkDuplicate request.operationId = some record) :
    s.handleWrite x env request payload caller
      = (s, duplicateResponse request.operationId record) := by
  unfold handleWrite
  rw [if_neg (by simpa using hacl)]
  simp only [hdup]

/-- **What one write does**, in four cases: refused by access control and recorded as failed;
answered from the log; refused by a later gate and recorded as failed; performed. -/
theorem handleWrite_cases (env : WriteEnv) (s : DataNodeService) (request : WriteExtentRequest)
    (payload : Bytes) (caller : PeerIdentity) :
    (s.volumeAcl.checkWrite request.volumeId caller = false ∧
        ∃ msg, s.handleWrite x env request payload caller = s.writeError env request msg) ∨
      (s.volumeAcl.checkWrite request.volumeId caller = true ∧
        ∃ record, s.checkDuplicate request.operationId = some record ∧
          s.handleWrite x env request payload caller
            = (s, duplicateResponse request.operationId record)) ∨
      (s.checkDuplicate request.operationId = none ∧
        (∀ d, Gates x s request payload caller →
          selectWriteDisk env.diskOrder s.inventory request.targetDiskId ≠ .ok d) ∧
        ∃ msg, s.handleWrite x env request payload caller = s.writeError env request msg) ∨
      (s.checkDuplicate request.operationId = none ∧ Gates x s request payload caller ∧
        ∃ d, selectWriteDisk env.diskOrder s.inventory request.targetDiskId = .ok d ∧
          s.handleWrite x env request payload caller = s.performWrite x env request payload d) := by
  by_cases hacl : s.volumeAcl.checkWrite request.volumeId caller = true
  swap
  · have hno : s.volumeAcl.checkWrite request.volumeId caller = false := by simpa using hacl
    exact Or.inl ⟨hno, _, handleWrite_of_denied hno⟩
  right
  cases hdup : s.checkDuplicate request.operationId with
  | some record => exact Or.inl ⟨hacl, record, rfl, handleWrite_of_duplicate hacl hdup⟩
  | none =>
    right
    by_cases hperf : Gates x s request payload caller ∧
      ∃ d, selectWriteDisk env.diskOrder s.inventory request.targetDiskId = .ok d
    · obtain ⟨hg, d, hd⟩ := hperf
      exact Or.inr ⟨rfl, hg, d, hd, handleWrite_of_gates hdup hg hd⟩
    · refine Or.inl ⟨rfl, fun d hg hd => hperf ⟨hg, d, hd⟩, ?_⟩
      -- the first gate that fails names the error
      unfold handleWrite
      rw [if_neg (by simpa using hacl)]
      simp only [hdup]
      cases hep : s.validateEpoch request.epoch with
      | error msg => exact ⟨_, rfl⟩
      | ok u =>
        cases hle : s.validateWriteLease request with
        | error msg => exact ⟨_, rfl⟩
        | ok u =>
          cases hd : selectWriteDisk env.diskOrder s.inventory request.targetDiskId with
          | error e => exact ⟨_, rfl⟩
          | ok d =>
            have hsum : request.checksum ≠ x.checksum payload := fun hsum =>
              hperf ⟨⟨hacl, (validateEpoch_eq_ok_iff s _).mp hep,
                (validateWriteLease_eq_ok_iff s _).mp hle, hsum⟩, d, hd⟩
            simp only [ne_eq, hsum, not_false_eq_true, if_true]
            exact ⟨_, rfl⟩

theorem performed_of_success (hnew : s.checkDuplicate request.operationId = none)
    (hok : (s.handleWrite x env request payload caller).2.success = true) :
    Gates x s request payload caller ∧
      ∃ d, selectWriteDisk env.diskOrder s.inventory request.targetDiskId = .ok d ∧
        s.handleWrite x env request payload caller = s.performWrite x env request payload d := by
  rcases handleWrite_cases (x := x) env s request payload caller with
    ⟨-, msg, heq⟩ | ⟨-, record, hdup, -⟩ | ⟨-, -, msg, heq⟩ | ⟨-, hg, d, hd, heq⟩
  · rw [heq] at hok
    cases hok
  · rw [hnew] at hdup
    cases hdup
  · rw [heq] at hok
    cases hok
  · exact ⟨hg, d, hd, heq⟩

/-- **When a new write succeeds**: it meets the gates, a disk is chosen for it, and the write on
that disk succeeds. -/
theorem handleWrite_success_iff (hnew : s.checkDuplicate request.operationId = none) :
    (s.handleWrite x env request payload caller).2.success = true ↔
      Gates x s request payload caller ∧
        ∃ d, selectWriteDisk env.diskOrder s.inventory request.targetDiskId = .ok d ∧
          (s.performWrite x env request payload d).2.success = true := by
  constructor
  · intro hok
    obtain ⟨hg, d, hd, heq⟩ := performed_of_success hnew hok
    rw [heq] at hok
    exact ⟨hg, d, hd, hok⟩
  · rintro ⟨hg, d, hd, hok⟩
    rw [handleWrite_of_gates hnew hg hd]
    exact hok

/-- A write that only the disks can stop. -/
structure Admissible (x : Externals) (env : WriteEnv) (s : DataNodeService)
    (request : WriteExtentRequest) (payload : Bytes) : Prop where
  checksum : request.checksum = x.checksum payload
  disk : ∃ d ∈ s.stores, selectWriteDisk env.diskOrder s.inventory request.targetDiskId = .ok d
  stage : ∀ i < 4, env.stageFault i = none
  commit : ∀ i < 7, env.commitFault i = none

/-- **When the other gates are open** -- a caller with access, no newer epoch, no cached lease -- a
new write succeeds exactly when the disks take it. -/
theorem handleWrite_success_iff_admissible (hnew : s.checkDuplicate request.operationId = none)
    (hacl : s.volumeAcl.checkWrite request.volumeId caller = true)
    (hepoch : s.currentEpoch ≤ request.epoch) (hlease : s.leaseCache[request.volumeId]? = none) :
    (s.handleWrite x env request payload caller).2.success = true ↔
      Admissible x env s request payload := by
  rw [handleWrite_success_iff hnew]
  constructor
  · rintro ⟨hg, d, hd, hperf⟩
    obtain ⟨hstore, hstage, hcommit⟩ := performWrite_success_iff.mp hperf
    exact ⟨hg.checksum, ⟨d, hstore, hd⟩, hstage, hcommit⟩
  · rintro ⟨hsum, ⟨d, hstore, hd⟩, hstage, hcommit⟩
    have hg : Gates x s request payload caller := by
      refine ⟨hacl, hepoch, ?_, hsum⟩
      intro cached hcached
      rw [hlease] at hcached
      cases hcached
    exact ⟨hg, d, hd, performWrite_success_iff.mpr ⟨hstore, hstage, hcommit⟩⟩

/-- A write changes neither the epoch nor what the node knows of leases. -/
theorem handleWrite_frame (env : WriteEnv) (s : DataNodeService) (request : WriteExtentRequest)
    (payload : Bytes) (caller : PeerIdentity) :
    (s.handleWrite x env request payload caller).1.currentEpoch = s.currentEpoch ∧
      (s.handleWrite x env request payload caller).1.leaseCache = s.leaseCache := by
  rcases handleWrite_cases (x := x) env s request payload caller with
    ⟨-, msg, heq⟩ | ⟨-, record, -, heq⟩ | ⟨-, -, msg, heq⟩ | ⟨-, -, d, -, heq⟩
  · rw [heq]
    exact ⟨rfl, rfl⟩
  · rw [heq]
    exact ⟨rfl, rfl⟩
  · rw [heq]
    exact ⟨rfl, rfl⟩
  · rw [heq]
    rcases performWrite_cases (x := x) env s request payload d with
      ⟨store, -, hperf⟩ | ⟨s', msg, haf, hfail⟩
    · rw [hperf]
      exact ⟨rfl, rfl⟩
    · rw [hfail]
      exact ⟨haf.epoch, haf.leases⟩

theorem handleWrite_operationId (env : WriteEnv) (s : DataNodeService)
    (request : WriteExtentRequest) (payload : Bytes) (caller : PeerIdentity) :
    (s.handleWrite x env request payload caller).2.operationId = request.operationId := by
  rcases handleWrite_cases (x := x) env s request payload caller with
    ⟨-, msg, heq⟩ | ⟨-, record, -, heq⟩ | ⟨-, -, msg, heq⟩ | ⟨-, -, d, -, heq⟩
  · rw [heq]; rfl
  · rw [heq]; rfl
  · rw [heq]; rfl
  · rw [heq]
    rcases performWrite_cases (x := x) env s request payload d with
      ⟨store, -, hperf⟩ | ⟨s', msg, -, hfail⟩
    · rw [hperf]; rfl
    · rw [hfail]; rfl

/-- A write that is new to the log and succeeds has met every gate. -/
theorem gates_of_success (hnew : s.checkDuplicate request.operationId = none)
    (hok : (s.handleWrite x env request payload caller).2.success = true) :
    Gates x s request payload caller ∧
      Chosen s.inventory request.targetDiskId
        (s.handleWrite x env request payload caller).2.diskId := by
  obtain ⟨hg, d, hd, heq⟩ := performed_of_success hnew hok
  rw [heq] at hok ⊢
  rcases performWrite_cases (x := x) env s request payload d with
    ⟨store, -, hperf⟩ | ⟨s', msg, -, hfail⟩
  · rw [hperf]
    exact ⟨hg, chosen_of_selectWriteDisk hd⟩
  · rw [hfail] at hok
    cases hok

/-- **Write admission.**  For a write whose operation id is not in the log: a success means
that every gate was met and that the chosen disk keeps the promise of `Chosen`; and without
I/O errors, with a store for every disk, the write succeeds whenever the gates hold and some
eligible disk agrees with the requested target. -/
theorem write_admission (x : Externals) (env : WriteEnv) (s : DataNodeService)
    (request : WriteExtentRequest) (payload : Bytes) (caller : PeerIdentity)
    (hnew : s.checkDuplicate request.operationId = none) :
    ((s.handleWrite x env request payload caller).2.success = true →
        Gates x s request payload caller ∧
          Chosen s.inventory request.targetDiskId
            (s.handleWrite x env request payload caller).2.diskId) ∧
      ((∀ i, env.stageFault i = none) → (∀ i, env.commitFault i = none) →
        (∀ d, d ∈ s.inventory.disks → d ∈ s.stores) →
        Gates x s request payload caller →
        (∃ d disk, Eligible s.inventory d disk ∧ ∀ t, request.targetDiskId = some t → d = t) →
        (s.handleWrite x env request payload caller).2.success = true) := by
  constructor
  · exact gates_of_success hnew
  · rintro hs hc hstores hg ⟨d, disk, hel, htarget⟩
    obtain ⟨d', hd'⟩ := selectWriteDisk_of_eligible env.diskOrder hel htarget
    obtain ⟨disk', hel'⟩ := (chosen_of_selectWriteDisk hd').eligible
    have hmem : d' ∈ s.inventory.disks := mem_of_getElem? hel'.known
    obtain ⟨store, hstore⟩ := exists_getElem?_of_mem (hstores d' hmem)
    rw [handleWrite_of_gates hnew hg hd', performWrite_of_no_fault hs hc hstore]
    rfl

/-! ## 5. A node with one disk -/

def sampleDisk : DiskId := ⟨3#128⟩

def sampleNode : DataNodeService :=
  (DataNodeService.new ⟨(∅ : HashMap DiskId ManagedDisk).insert sampleDisk
    (.new sampleDisk "/mnt/d0"), []⟩ ∅ 1).registerStore sampleDisk ⟨"/mnt/d0", sampleDisk, ∅⟩

def calmEnv : WriteEnv where
  freshDiskId := ⟨9#128⟩
  diskOrder := .sorted _
  evictOrder := .sorted _
  stageFault := fun _ => none
  commitFault := fun _ => none
  committedAt := 1700000000

def sampleWrite (o : OperationId) (epoch : EpochId) : WriteExtentRequest where
  operationId := o
  sessionId := ⟨1#128⟩
  volumeId := ⟨7#128⟩
  extentId := ⟨5#128⟩
  extentVersion := 1
  epoch := epoch
  targetDiskId := none
  checksum := "48fc721fbbc172e0925fa27af1671de225ba927134802998b10a1568a188652b"
  payloadSize := 1
  leaseVersion := none

theorem sampleNode_gates {o : OperationId} :
    Gates (jsonExternals sampleBlake3) sampleNode (sampleWrite o 1) [1] (.node ⟨2#128⟩) where
  acl := rfl
  epoch := Nat.le_refl 1
  lease := by
    intro cached h
    have hnone : sampleNode.leaseCache[(⟨7#128⟩ : VolumeId)]? = none := by decide
    rw [show (sampleWrite o 1).volumeId = ⟨7#128⟩ from rfl, hnone] at h
    cases h
  checksum := by
    have hsum : "48fc721fbbc172e0925fa27af1671de225ba927134802998b10a1568a188652b"
        = computeChecksum sampleBlake3 [1] := by decide
    exact hsum

/-- The admission theorem at a concrete write: it succeeds, on the only disk. -/
theorem write_admission_one_disk :
    (sampleNode.handleWrite (jsonExternals sampleBlake3) calmEnv (sampleWrite ⟨21#128⟩ 1) [1]
        (.node ⟨2#128⟩)).2.success = true ∧
      Chosen sampleNode.inventory none
        (sampleNode.handleWrite (jsonExternals sampleBlake3) calmEnv (sampleWrite ⟨21#128⟩ 1) [1]
          (.node ⟨2#128⟩)).2.diskId := by
  obtain ⟨honly, hif⟩ := write_admission (jsonExternals sampleBlake3) calmEnv sampleNode
    (sampleWrite ⟨21#128⟩ 1) [1] (.node ⟨2#128⟩) (by decide)
  have hstores : ∀ d, d ∈ sampleNode.inventory.disks → d ∈ sampleNode.stores := by
    intro d hd
    have hd' : d ∈ (∅ : HashMap DiskId ManagedDisk).insert sampleDisk (.new sampleDisk "/mnt/d0") :=
      hd
    have hs : sampleNode.stores = (∅ : HashMap DiskId ExtentStore).insert sampleDisk
      ⟨"/mnt/d0", sampleDisk, ∅⟩ := rfl
    rw [hs, ExtTreeMap.mem_insert]
    rw [ExtTreeMap.mem_insert] at hd'
    exact hd'.imp id (fun h => absurd h ExtTreeMap.not_mem_empty)
  have hok := hif (fun _ => rfl) (fun _ => rfl) hstores sampleNode_gates
    ⟨sampleDisk, .new sampleDisk "/mnt/d0", ⟨by decide, rfl, Or.inl rfl, rfl⟩,
      fun t ht => by cases ht⟩
  exact ⟨hok, (honly hok).2⟩

end Blockyard.Storage
