/-
# A running data node is a last-write-wins register per extent

The abstract data node is a LOG of executed writes, and what it holds for an extent is what
the last entry of the log for that extent says (`MapLog.last`): a version, a disk and a
payload.  The concrete node spreads the same information over the index, the stores of
several disks and their committed and metadata files, with older copies of an extent left
behind under other versions and on other disks.

`Refines` relates the two.  Every event of a run without I/O errors preserves it, an executed
write by adding its entry to the log and everything else by adding nothing (`Refines.step`);
so a read sees the last executed write (`read_is_last_write`).
-/
import Blockyard.Lib.MapLog
import Blockyard.Storage.Dedup

open Std CrashFs Machine

namespace Blockyard.Storage

open DataNodeService

/-! ## 1. The log of executed writes -/

variable {x : Externals} {env : WriteEnv} {s : DataNodeService} {caller : PeerIdentity}
  {request : ReadExtentRequest}

/-- What an executed write leaves at its extent. -/
structure Cell where
  version : ExtentVersion
  disk : DiskId
  payload : Bytes
  deriving DecidableEq, Repr

variable {log : List (ExtentId × Cell)}

/-- The entry an event adds to the log: a write that succeeds without being answered from the
dedup record is executed, nothing else is. -/
def executed (x : Externals) (s : DataNodeService) : NodeOp → Option (ExtentId × Cell)
  | .write env request payload caller =>
    if s.checkDuplicate request.operationId = none ∧
        (s.handleWrite x env request payload caller).2.success = true then
      some (request.extentId, ⟨request.extentVersion,
        (s.handleWrite x env request payload caller).2.diskId, payload⟩)
    else none
  | _ => none

/-- The writes executed in a run, in order. -/
def executions (x : Externals) (ovf : Overflow) (s : DataNodeService) :
    List NodeOp → List (ExtentId × Cell)
  | [] => []
  | op :: ops => (executed x s op).toList ++ executions x ovf (nodeStep x ovf s op).1 ops

theorem executions_snoc (x : Externals) (ovf : Overflow) (s : DataNodeService) (ops : List NodeOp)
    (op : NodeOp) :
    executions x ovf s (ops ++ [op]) = executions x ovf s ops
      ++ (executed x (runState (nodeStep x ovf) s ops) op).toList := by
  induction ops generalizing s with
  | nil => simp [executions]
  | cons op' ops ih =>
    simp only [List.cons_append, executions, ih, runState_cons, List.append_assoc]

/-- The event has no I/O error. -/
def Calm : NodeOp → Prop
  | .write env _ _ _ => (∀ i, env.stageFault i = none) ∧ ∀ i, env.commitFault i = none
  | .read fault _ _ => fault = ⟨none, none⟩
  | _ => True

/-! ## 2. What a write without I/O errors does -/

def setLog (s : DataNodeService) (log : HashMap OperationId OperationRecord) : DataNodeService :=
  { s with operationLog := log }

theorem executed_of_writeError {s' : DataNodeService} {request : WriteExtentRequest}
    {payload : Bytes} {msg : String}
    (h : s.handleWrite x env request payload caller = s'.writeError env request msg) :
    executed x s (.write env request payload caller) = none := by
  refine if_neg ?_
  rw [h]
  rintro ⟨-, hok⟩
  cases hok

theorem executed_of_duplicate {request : WriteExtentRequest} {record : OperationRecord}
    (h : s.checkDuplicate request.operationId = some record) (env : WriteEnv) (payload : Bytes)
    (caller : PeerIdentity) :
    executed x s (.write env request payload caller) = none := by
  refine if_neg ?_
  rw [h]
  rintro ⟨hno, -⟩
  cases hno

/-- **A write without I/O errors** is executed, on a disk of the inventory with a store, or
leaves everything but the operation log as it is. -/
theorem handleWrite_calm (x : Externals) (hs : ∀ i, env.stageFault i = none)
    (hc : ∀ i, env.commitFault i = none) (s : DataNodeService) (request : WriteExtentRequest)
    (payload : Bytes) (caller : PeerIdentity) :
    (executed x s (.write env request payload caller) = none ∧
        ∃ log, (s.handleWrite x env request payload caller).1 = setLog s log) ∨
      ∃ d store log, s.stores[d]? = some store ∧ d ∈ s.inventory.disks ∧
        executed x s (.write env request payload caller)
          = some (request.extentId, ⟨request.extentVersion, d, payload⟩) ∧
        (s.handleWrite x env request payload caller).1
          = setLog (writtenService x env s store request payload d) log := by
  have hfail : ∀ msg, s.handleWrite x env request payload caller = s.writeError env request msg →
      executed x s (.write env request payload caller) = none ∧
        ∃ log, (s.handleWrite x env request payload caller).1 = setLog s log := by
    intro msg heq
    exact ⟨executed_of_writeError heq, _, by rw [heq]; rfl⟩
  rcases handleWrite_cases (x := x) env s request payload caller with
    ⟨-, msg, heq⟩ | ⟨-, record, hdup, heq⟩ | ⟨-, -, msg, heq⟩ | ⟨hnew, hg, d, hd, heq⟩
  · exact Or.inl (hfail msg heq)
  · exact Or.inl ⟨executed_of_duplicate hdup env payload caller, s.operationLog, by rw [heq]; rfl⟩
  · exact Or.inl (hfail msg heq)
  · cases hst : s.stores[d]? with
    | none =>
      refine Or.inl (hfail s!"no extent store for disk {d}" ?_)
      rw [heq]
      unfold performWrite
      rw [hst]
    | some store =>
      obtain ⟨disk, hel⟩ := (chosen_of_selectWriteDisk hd).eligible
      rw [performWrite_of_no_fault hs hc hst] at heq
      refine Or.inr ⟨d, store, _, hst, mem_of_getElem? hel.known, ?_, by rw [heq]; rfl⟩
      refine (if_pos ⟨hnew, by rw [heq]; rfl⟩).trans ?_
      rw [heq]
      rfl

/-- **What an event without I/O errors does**: it executes a write, or it leaves index, stores and
the set of disks as they are. -/
theorem nodeStep_calm (x : Externals) (ovf : Overflow) (s : DataNodeService) {op : NodeOp}
    (hop : Calm op) :
    (executed x s op = none ∧ (nodeStep x ovf s op).1.index = s.index ∧
        (nodeStep x ovf s op).1.stores = s.stores ∧
        DiskInventory.SameDisks s.inventory (nodeStep x ovf s op).1.inventory) ∨
      ∃ env request payload d store log, s.stores[d]? = some store ∧ d ∈ s.inventory.disks ∧
        executed x s op = some (request.extentId, ⟨request.extentVersion, d, payload⟩) ∧
        (nodeStep x ovf s op).1 = setLog (writtenService x env s store request payload d) log := by
  cases op with
  | write env request payload caller =>
    rcases handleWrite_calm x hop.1 hop.2 s request payload caller with
      ⟨hnone, log, heq⟩ | ⟨d, store, log, hst, hd, hsome, heq⟩
    · refine Or.inl ⟨hnone, ?_⟩
      show (s.handleWrite x env request payload caller).1.index = _ ∧
        (s.handleWrite x env request payload caller).1.stores = _ ∧
        DiskInventory.SameDisks _ (s.handleWrite x env request payload caller).1.inventory
      rw [heq]
      exact ⟨rfl, rfl, DiskInventory.SameDisks.refl _⟩
    · exact Or.inr ⟨env, request, payload, d, store, log, hst, hd, hsome, heq⟩
  | _ => exact Or.inl ⟨rfl, (nodeStep_frame x ovf s _ (by simp)).2⟩

theorem writtenService_stores (x : Externals) (env : WriteEnv) (s : DataNodeService)
    (store : ExtentStore) (request : WriteExtentRequest) (payload : Bytes) (d : DiskId) :
    (writtenService x env s store request payload d).stores
      = s.stores.insert d (writtenStore x env store request payload) := rfl

/-! ## 3. The refinement -/

/-- The node holds a cell at an extent: the index points to a disk of the inventory whose store
has the payload, with metadata that agrees. -/
structure CellStored (x : Externals) (s : DataNodeService) (e : ExtentId) (cell : Cell) : Prop where
  entry : ∃ entry, s.index[e]? = some entry ∧ entry.version = cell.version ∧
    entry.diskId = cell.disk ∧ entry.checksum = x.checksum cell.payload
  store : ∃ st, s.stores[cell.disk]? = some st ∧
    ExtentStore.Stored x st e cell.version cell.payload
  known : cell.disk ∈ s.inventory.disks

/-- The concrete node holds, for every extent, what the log of executed writes says. -/
structure Refines (x : Externals) (log : List (ExtentId × Cell)) (s : DataNodeService) : Prop where
  stores : ∀ (d : DiskId) st, s.stores[d]? = some st → st.diskId = d
  absent : ∀ e, MapLog.last e log = none → s.index[e]? = none
  present : ∀ e cell, MapLog.last e log = some cell → CellStored x s e cell

/-- A node as it is started: nothing indexed, every store registered under its own disk. -/
structure Started (s : DataNodeService) : Prop where
  index : s.index = ∅
  stores : ∀ (d : DiskId) st, s.stores[d]? = some st → st.diskId = d

theorem Started.refines (h : Started s) (x : Externals) :
    Refines x [] s where
  stores := h.stores
  absent := by
    intro e _
    rw [h.index]
    exact ExtTreeMap.getElem?_empty
  present := by
    intro e cell hcell
    cases hcell

/-- An event that touches neither index nor stores, and no disk's membership, executes
nothing. -/
theorem Refines.congr {s' : DataNodeService} (h : Refines x log s) (hindex : s'.index = s.index)
    (hstores : s'.stores = s.stores) (hdisks : DiskInventory.SameDisks s.inventory s'.inventory) :
    Refines x log s' where
  stores := by rw [hstores]; exact h.stores
  absent := by rw [hindex]; exact h.absent
  present := by
    intro e cell hcell
    have hs := h.present e cell hcell
    exact ⟨by rw [hindex]; exact hs.entry, by rw [hstores]; exact hs.store,
      (hdisks _).mpr hs.known⟩

theorem CellStored.write_other {store : ExtentStore} {d : DiskId} (hst : s.stores[d]? = some store)
    {e : ExtentId} {cell : Cell} (h : CellStored x s e cell) {request : WriteExtentRequest}
    (he : request.extentId ≠ e) (payload : Bytes) :
    CellStored x (writtenService x env s store request payload d) e cell where
  entry := by
    obtain ⟨entry, hentry, hrest⟩ := h.entry
    exact ⟨entry, (getElem?_insert_of_ne _ he _).trans hentry, hrest⟩
  store := by
    obtain ⟨st, hcell, hstored⟩ := h.store
    by_cases hd : d = cell.disk
    · -- the same disk: its other files are where they were
      subst hd
      obtain rfl : store = st := Option.some.inj (hst.symm.trans hcell)
      refine ⟨_, ExtTreeMap.getElem?_insert_self, hstored.congr fun k _ => ?_⟩
      exact writtenStore_frame env store request payload (Or.inl (Ne.symm he))
    · exact ⟨st, (getElem?_insert_of_ne _ hd _).trans hcell, hstored⟩
  known := h.known

/-- **An executed write** adds its cell to what the node holds. -/
theorem Refines.write {store : ExtentStore} {d : DiskId} (h : Refines x log s)
    (hst : s.stores[d]? = some store) (hd : d ∈ s.inventory.disks) (request : WriteExtentRequest)
    (payload : Bytes) :
    Refines x (log ++ [(request.extentId, ⟨request.extentVersion, d, payload⟩)])
      (writtenService x env s store request payload d) := by
  have hdisk : store.diskId = d := h.stores d store hst
  have hlast : ∀ e, MapLog.last e
      (log ++ [(request.extentId, (⟨request.extentVersion, d, payload⟩ : Cell))])
      = if request.extentId = e then some ⟨request.extentVersion, d, payload⟩
        else MapLog.last e log := by
    intro e
    rw [MapLog.last_append, MapLog.last_cons, MapLog.last_nil, Option.none_or]
    by_cases he : request.extentId = e <;> simp [he]
  refine ⟨?_, ?_, ?_⟩
  · intro d' st' hst'
    rw [writtenService_stores] at hst'
    by_cases hdd : d = d'
    · subst hdd
      rw [ExtTreeMap.getElem?_insert_self] at hst'
      cases hst'
      exact hdisk
    · rw [getElem?_insert_of_ne _ hdd] at hst'
      exact h.stores d' st' hst'
  · intro e hnone
    rw [hlast] at hnone
    by_cases he : request.extentId = e
    · rw [if_pos he] at hnone
      cases hnone
    · rw [if_neg he] at hnone
      exact (getElem?_insert_of_ne _ he _).trans (h.absent e hnone)
  · intro e cell hcell
    rw [hlast] at hcell
    by_cases he : request.extentId = e
    · rw [if_pos he] at hcell
      cases hcell
      subst he
      exact ⟨⟨_, ExtTreeMap.getElem?_insert_self, rfl, hdisk, rfl⟩,
        ⟨_, ExtTreeMap.getElem?_insert_self, writtenStore_stored env store request payload⟩, hd⟩
    · rw [if_neg he] at hcell
      exact (h.present e cell hcell).write_other hst he payload

/-- **One event** takes the log of executed writes along. -/
theorem Refines.step (h : Refines x log s) (ovf : Overflow) {op : NodeOp} (hop : Calm op) :
    Refines x (log ++ (executed x s op).toList) (nodeStep x ovf s op).1 := by
  rcases nodeStep_calm x ovf s hop with
    ⟨hnone, hindex, hstores, hsame⟩ | ⟨env, request, payload, d, store, log', hst, hd, hsome, heq⟩
  · rw [hnone, Option.toList_none, List.append_nil]
    exact h.congr hindex hstores hsame
  · rw [hsome, heq, Option.toList_some]
    exact (h.write hst hd request payload).congr rfl rfl (DiskInventory.SameDisks.refl _)

/-- **The whole run**: after every run of calm events the node holds what the log of its
executed writes says. -/
theorem refines_of_run (h : Started s) (ovf : Overflow) {ops : List NodeOp}
    (hops : ∀ op ∈ ops, Calm op) :
    Refines x (executions x ovf s ops) (runState (nodeStep x ovf) s ops) := by
  refine runState_history (P := fun pre t => Refines x (executions x ovf s pre) t)
    (h.refines x) ?_
  intro pre op post heq hpre
  rw [executions_snoc]
  refine hpre.step ovf (hops op ?_)
  rw [heq]
  exact List.mem_append_right _ List.mem_cons_self

/-! ## 4. Reads -/

/-- The read passes access control and the epoch check. -/
structure ReadGates (s : DataNodeService) (request : ReadExtentRequest) (caller : PeerIdentity) :
    Prop where
  acl : s.volumeAcl.checkRead request.volumeId caller = true
  epoch : s.validateEpochForRead request.epoch = .ok ()

def Readable (s : DataNodeService) (d : DiskId) : Prop :=
  ∃ disk, s.inventory.disks[d]? = some disk ∧ disk.state.allowsReads = true

def readSuccess (x : Externals) (request : ReadExtentRequest) (payload : Bytes) :
    ReadExtentResponse where
  operationId := request.operationId
  extentId := request.extentId
  extentVersion := request.extentVersion
  success := true
  checksum := x.checksum payload
  payloadSize := payload.length
  error := none

/-- A read of a cell at its version, from a readable disk, returns the window it asks for. -/
theorem handleRead_of_window {cell : Cell} (hg : ReadGates s request caller)
    (hcell : CellStored x s request.extentId cell) (hv : cell.version = request.extentVersion)
    (hread : Readable s cell.disk) {ovf : Overflow} {window : Bytes}
    (hw : readWindow ovf cell.payload request.offset request.length = some window) :
    s.handleRead x ovf ⟨none, none⟩ request caller
      = (s, some ({ readSuccess x request cell.payload with payloadSize := window.length },
          some window)) := by
  obtain ⟨entry, hentry, hver, hdisk, hsum⟩ := hcell.entry
  obtain ⟨st, hst, hstored⟩ := hcell.store
  obtain ⟨disk, hknown, hallows⟩ := hread
  have hok : s.inventory.allowsReads cell.disk = .ok true := by
    rw [DiskInventory.allowsReads, hknown, ← hallows]
  rw [hv] at hstored
  unfold handleRead
  rw [if_neg (by simpa using hg.acl)]
  simp only [hg.epoch, hentry, hver, hv, hok, hdisk, hst, hstored.readExtent, hsum, ne_eq,
    not_true_eq_false, if_false, hw]
  rfl

/-- The window of a read without offset and length is the whole payload. -/
theorem handleRead_of_cell {cell : Cell} (hg : ReadGates s request caller)
    (hcell : CellStored x s request.extentId cell) (hv : cell.version = request.extentVersion)
    (hread : Readable s cell.disk) (hwhole : request.offset = 0 ∧ request.length = 0)
    (ovf : Overflow) :
    s.handleRead x ovf ⟨none, none⟩ request caller
      = (s, some (readSuccess x request cell.payload, some cell.payload)) :=
  handleRead_of_window hg hcell hv hread (if_pos hwhole)

/-- A read fails when the node has nothing at the extent, has another version, or may not
read the disk. -/
theorem handleRead_of_no_cell (hg : ReadGates s request caller)
    (hno : s.index[request.extentId]? = none ∨
      ∃ cell, CellStored x s request.extentId cell ∧
        (cell.version ≠ request.extentVersion ∨ ¬ Readable s cell.disk)) (ovf : Overflow)
    (fault : ExtentStore.ReadFault) :
    ∃ msg, (s.handleRead x ovf fault request caller).2 = some (readError request msg, none) := by
  unfold handleRead
  rw [if_neg (by simpa using hg.acl)]
  simp only [hg.epoch]
  rcases hno with hnone | ⟨cell, hcell, hbad⟩
  · simp only [hnone]
    exact ⟨_, rfl⟩
  · obtain ⟨entry, hentry, hver, hdisk, -⟩ := hcell.entry
    simp only [hentry]
    by_cases hv : cell.version = request.extentVersion
    · -- the version is right, so the disk is not readable
      rw [if_neg (by rw [hver, hv]; exact fun h => h rfl)]
      have hnot : s.inventory.allowsReads entry.diskId = .ok false := by
        obtain ⟨disk, hknown⟩ := exists_getElem?_of_mem hcell.known
        rw [hdisk, DiskInventory.allowsReads, hknown]
        refine congrArg Except.ok (Bool.eq_false_iff.mpr fun hallows => ?_)
        exact (hbad.resolve_left (fun h => h hv)) ⟨disk, hknown, hallows⟩
      simp only [hnot]
      exact ⟨_, rfl⟩
    · rw [if_pos (by rw [hver]; exact hv)]
      exact ⟨_, rfl⟩

/-- What a read sees of a node that refines a log of executed writes: the last write of the
extent, if it has the version asked for and its disk is readable, and a failure otherwise. -/
theorem Refines.read (h : Refines x log s) (hg : ReadGates s request caller)
    (hwhole : request.offset = 0 ∧ request.length = 0) (ovf : Overflow) :
    (∀ cell, MapLog.last request.extentId log = some cell →
        cell.version = request.extentVersion → Readable s cell.disk →
        (s.handleRead x ovf ⟨none, none⟩ request caller).2
          = some (readSuccess x request cell.payload, some cell.payload)) ∧
      ((∀ cell, MapLog.last request.extentId log = some cell →
          cell.version = request.extentVersion → ¬ Readable s cell.disk) →
        ∃ msg, (s.handleRead x ovf ⟨none, none⟩ request caller).2
          = some (readError request msg, none)) := by
  constructor
  · intro cell hcell hv hread
    rw [handleRead_of_cell hg (h.present _ cell hcell) hv hread hwhole]
  · intro hno
    refine handleRead_of_no_cell hg ?_ ovf _
    cases hlast : MapLog.last request.extentId log with
    | none => exact Or.inl (h.absent _ hlast)
    | some cell =>
      refine Or.inr ⟨cell, h.present _ cell hlast, ?_⟩
      by_cases hv : cell.version = request.extentVersion
      · exact Or.inr (hno cell hlast hv)
      · exact Or.inl hv

def payloadOf (answer : Option (ReadExtentResponse × Option Bytes)) : Option Bytes :=
  answer.bind Prod.snd

/-- **A running data node is a last-write-wins register per extent.**  After any run without
I/O errors of a node started with nothing indexed, a read of a whole extent that passes access
control and the epoch check

* returns the payload of the last executed write of that extent, if that write had the version
  asked for and its disk is readable;
* fails otherwise;
* returns the same after one more event that executes no write of that extent, as long as the
  same disks are readable. -/
theorem read_is_last_write (x : Externals) (ovf : Overflow) (s t : DataNodeService)
    (ops : List NodeOp) (hstart : Started s) (hcalm : ∀ op ∈ ops, Calm op)
    (hrun : t = runState (nodeStep x ovf) s ops) (request : ReadExtentRequest)
    (caller : PeerIdentity) (hg : ReadGates t request caller)
    (hwhole : request.offset = 0 ∧ request.length = 0) :
    (∀ cell, MapLog.last request.extentId (executions x ovf s ops) = some cell →
        cell.version = request.extentVersion → Readable t cell.disk →
        (t.handleRead x ovf ⟨none, none⟩ request caller).2
          = some (readSuccess x request cell.payload, some cell.payload)) ∧
      ((∀ cell, MapLog.last request.extentId (executions x ovf s ops) = some cell →
          cell.version = request.extentVersion → ¬ Readable t cell.disk) →
        ∃ msg, (t.handleRead x ovf ⟨none, none⟩ request caller).2
          = some (readError request msg, none)) ∧
      ∀ op, Calm op → (∀ cell, executed x t op ≠ some (request.extentId, cell)) →
        (∀ d, Readable (nodeStep x ovf t op).1 d ↔ Readable t d) →
        ReadGates (nodeStep x ovf t op).1 request caller →
        payloadOf ((nodeStep x ovf t op).1.handleRead x ovf ⟨none, none⟩ request caller).2
          = payloadOf (t.handleRead x ovf ⟨none, none⟩ request caller).2 := by
  have href : Refines x (executions x ovf s ops) t := hrun ▸ refines_of_run hstart ovf hcalm
  have hread := href.read hg hwhole ovf
  refine ⟨hread.1, hread.2, ?_⟩
  intro op hop hother hsame hg'
  have hread' := (href.step ovf hop).read hg' hwhole ovf
  -- the event leaves the last write of the extent as it is
  have hlast : MapLog.last request.extentId (executions x ovf s ops ++ (executed x t op).toList)
      = MapLog.last request.extentId (executions x ovf s ops) := by
    rw [MapLog.last_append, MapLog.last_eq_none, Option.none_or]
    rintro ⟨e, cell⟩ hmem rfl
    exact hother cell (Option.mem_toList.mp hmem)
  rw [hlast] at hread'
  by_cases hcell : ∃ cell, MapLog.last request.extentId (executions x ovf s ops) = some cell ∧
      cell.version = request.extentVersion ∧ Readable t cell.disk
  · obtain ⟨cell, hc, hv, hr⟩ := hcell
    rw [hread.1 cell hc hv hr, hread'.1 cell hc hv ((hsame _).mpr hr)]
  · have hno : ∀ cell, MapLog.last request.extentId (executions x ovf s ops) = some cell →
        cell.version = request.extentVersion → ¬ Readable t cell.disk :=
      fun cell hc hv hr => hcell ⟨cell, hc, hv, hr⟩
    obtain ⟨msg, hmsg⟩ := hread.2 hno
    obtain ⟨msg', hmsg'⟩ := hread'.2 fun cell hc hv hr => hno cell hc hv ((hsame _).mp hr)
    rw [hmsg, hmsg']
    rfl

def sampleRead : ReadExtentRequest where
  operationId := ⟨31#128⟩
  sessionId := ⟨1#128⟩
  volumeId := ⟨7#128⟩
  extentId := ⟨5#128⟩
  extentVersion := 1
  epoch := 0
  offset := 0
  length := 0

theorem executed_sampleWrite :
    executed (jsonExternals sampleBlake3) sampleNode
        (.write (trimEnv (.sorted _)) (sampleWrite ⟨21#128⟩ 1) [1] (.node ⟨2#128⟩))
      = some (⟨5#128⟩, ⟨1, sampleDisk, [1]⟩) := by
  have hnew : sampleNode.checkDuplicate (sampleWrite ⟨21#128⟩ 1).operationId = none := by decide
  rw [executed, sampleNode_handleWrite, if_pos ⟨hnew, rfl⟩]
  rfl

/-- The register theorem at a run of one write: the read returns what was written. -/
theorem read_is_last_write_after_one :
    ((runState (nodeStep (jsonExternals sampleBlake3) .checked) sampleNode
        [.write (trimEnv (.sorted _)) (sampleWrite ⟨21#128⟩ 1) [1] (.node ⟨2#128⟩)]).handleRead
        (jsonExternals sampleBlake3) .checked ⟨none, none⟩ sampleRead (.node ⟨2#128⟩)).2
      = some (readSuccess (jsonExternals sampleBlake3) sampleRead [1], some [1]) := by
  have hok := sampleNode_handleWrite (.sorted _)
  have hstart : Started sampleNode := by
    refine ⟨rfl, ?_⟩
    intro d st hst
    have hstores : sampleNode.stores = (∅ : HashMap DiskId ExtentStore).insert sampleDisk
      ⟨"/mnt/d0", sampleDisk, ∅⟩ := rfl
    rw [hstores] at hst
    by_cases hd : sampleDisk = d
    · subst hd
      rw [ExtTreeMap.getElem?_insert_self] at hst
      cases hst
      rfl
    · rw [getElem?_insert_of_ne _ hd, ExtTreeMap.getElem?_empty] at hst
      cases hst
  have hcalm : ∀ op ∈ [NodeOp.write (trimEnv (.sorted _)) (sampleWrite ⟨21#128⟩ 1) [1]
      (.node ⟨2#128⟩)], Calm op := by
    intro op hop
    rw [List.mem_singleton] at hop
    subst hop
    exact ⟨fun _ => rfl, fun _ => rfl⟩
  have hstate : (nodeStep (jsonExternals sampleBlake3) .checked sampleNode
      (.write (trimEnv (.sorted _)) (sampleWrite ⟨21#128⟩ 1) [1] (.node ⟨2#128⟩))).1
      = sampleWritten (.sorted _) := rfl
  have hread := (read_is_last_write (jsonExternals sampleBlake3) .checked sampleNode _
    [.write (trimEnv (.sorted _)) (sampleWrite ⟨21#128⟩ 1) [1] (.node ⟨2#128⟩)] hstart hcalm rfl
    sampleRead (.node ⟨2#128⟩)
    (by rw [runState_cons, runState_nil, hstate, sampleWritten, hok]; exact ⟨rfl, rfl⟩)
    ⟨rfl, rfl⟩).1 ⟨1, sampleDisk, [1]⟩
  refine hread ?_ rfl ?_
  · rw [executions, executed_sampleWrite]
    rfl
  · rw [runState_cons, runState_nil, hstate, sampleWritten, hok]
    have hknown : sampleNode.inventory.disks[sampleDisk]?
      = some (ManagedDisk.new sampleDisk "/mnt/d0") := by decide
    exact ⟨ManagedDisk.new sampleDisk "/mnt/d0", hknown, rfl⟩

end Blockyard.Storage
