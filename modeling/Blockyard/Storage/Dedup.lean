/-
# The operation log over a run

Every write that is not answered from the log leaves a record of its outcome in it, under its
operation id (`operationLog_handleWrite`); nothing else touches the log.  Two things can
happen to a record afterwards: the log is trimmed when it has grown past its limit, and a
write carrying the same id that access control REFUSES is recorded over it.

* `retransmission_idempotent`: while neither happens, a write that was answered with success
  is answered the same way again, without touching a file or the index.
* `retry_succeeds_iff`: a write that a gate rejected is recorded too, so the retry that meets
  every gate succeeds only once the record of the rejection is gone.
* `operationLog_bounded`: the log keeps to its limit.
-/
import Blockyard.Lib.OrderedTable
import Blockyard.Lib.Run
import Blockyard.Storage.Admission
import Blockyard.Storage.DiskLifecycle

open Std CrashFs Machine

namespace Blockyard.Storage

open DataNodeService

/-! ## 1. Trimming -/

variable {log : HashMap OperationId OperationRecord} {o : OperationId} {s : DataNodeService}
  {x : Externals} {env : WriteEnv} {payload : Bytes} {caller : PeerIdentity}
  {request : WriteExtentRequest}

theorem trimLog_of_le {order : IterOrder OperationId} (h : log.size ≤ maxOperationLogSize) :
    trimLog order log = log :=
  if_neg (Nat.not_lt.mpr h)

theorem getElem?_of_trimLog {order : IterOrder OperationId} (h : log[o]? = none) :
    (trimLog order log)[o]? = none := by
  unfold trimLog
  split
  · rw [OrderedTable.getElem?_foldl_erase, h]
    split <;> rfl
  · exact h

/-- Trimming a log that is too large drops the key its scan visits first. -/
theorem getElem?_trimLog_first (h : maxOperationLogSize < log.size) (ho : o ∈ log) :
    (trimLog (.first o) log)[o]? = none := by
  unfold trimLog
  rw [if_pos h]
  dsimp only
  have hkeys : (IterOrder.first o).keys log = o :: log.keys.erase o :=
    if_pos (ExtTreeMap.mem_keys.mpr ho)
  rw [OrderedTable.getElem?_foldl_erase, hkeys]
  have hpos : 0 < log.size - maxOperationLogSize + maxOperationLogSize / 10 := by
    have : 0 < log.size - maxOperationLogSize := Nat.sub_pos_of_lt h
    omega
  obtain ⟨n, hn⟩ := Nat.exists_eq_succ_of_ne_zero (Nat.ne_of_gt hpos)
  rw [hn, List.take_succ_cons, if_pos List.mem_cons_self]

/-! ## 2. What one event does to the log -/

/-- The record of an outcome repeats the answer that was given. -/
structure Records (record : OperationRecord) (response : WriteExtentResponse) : Prop where
  success : record.success = response.success
  answer : response.success = true → duplicateResponse response.operationId record = response

theorem records_writeError (env : WriteEnv) (s : DataNodeService) (request : WriteExtentRequest)
    (msg : String) : Records (failureRecord env request) (s.writeError env request msg).2 :=
  ⟨rfl, fun h => by cases h⟩

theorem records_writeSuccess (request : WriteExtentRequest) (d : DiskId) (checksum : String) :
    Records (successRecord request d checksum) (writeSuccess request d checksum) :=
  ⟨rfl, fun _ => rfl⟩

/-- **The log after a write.**  Either the write was answered from the log, and nothing
changed; or its outcome was recorded, and a record it replaced was replaced because access
control refused the write. -/
theorem operationLog_handleWrite (x : Externals) (env : WriteEnv) (s : DataNodeService)
    (request : WriteExtentRequest) (payload : Bytes) (caller : PeerIdentity) :
    (∃ record, s.checkDuplicate request.operationId = some record ∧
        s.handleWrite x env request payload caller
          = (s, duplicateResponse request.operationId record)) ∨
      (s.volumeAcl.checkWrite request.volumeId caller = false ∨
          s.checkDuplicate request.operationId = none) ∧
        ∃ record, Records record (s.handleWrite x env request payload caller).2 ∧
          (s.handleWrite x env request payload caller).1.operationLog
            = trimLog env.evictOrder (s.operationLog.insert request.operationId record) := by
  rcases handleWrite_cases (x := x) env s request payload caller with
    ⟨hacl, msg, heq⟩ | ⟨-, record, hdup, heq⟩ | ⟨hnew, -, msg, heq⟩ | ⟨hnew, -, d, -, heq⟩
  · exact Or.inr ⟨Or.inl hacl, failureRecord env request, by
      rw [heq]; exact records_writeError env s request msg, by rw [heq]; rfl⟩
  · exact Or.inl ⟨record, hdup, heq⟩
  · exact Or.inr ⟨Or.inr hnew, failureRecord env request, by
      rw [heq]; exact records_writeError env s request msg, by rw [heq]; rfl⟩
  · refine Or.inr ⟨Or.inr hnew, ?_⟩
    rw [heq]
    rcases performWrite_cases (x := x) env s request payload d with
      ⟨store, -, hperf⟩ | ⟨s', msg, haf, hfail⟩
    · rw [hperf]
      exact ⟨_, records_writeSuccess request d (x.checksum payload), rfl⟩
    · rw [hfail]
      refine ⟨_, records_writeError env s' request msg, ?_⟩
      rw [← haf.log]
      rfl

theorem checkDuplicate_handleWrite_of_ne (env : WriteEnv) (payload : Bytes) (caller : PeerIdentity)
    (hne : request.operationId ≠ o) (hnew : s.checkDuplicate o = none) :
    (s.handleWrite x env request payload caller).1.checkDuplicate o = none := by
  rcases operationLog_handleWrite x env s request payload caller with
    ⟨record, -, heq⟩ | ⟨-, record, -, hlog⟩
  · rw [heq]
    exact hnew
  · rw [checkDuplicate, hlog]
    exact getElem?_of_trimLog ((getElem?_insert_of_ne _ hne _).trans hnew)

/-- A read moves a disk to another state at most. -/
theorem handleRead_fst (x : Externals) (ovf : Overflow) (fault : ExtentStore.ReadFault)
    (s : DataNodeService) (request : ReadExtentRequest) (caller : PeerIdentity) :
    ∃ inv, DiskInventory.SameDisks s.inventory inv ∧
      (s.handleRead x ovf fault request caller).1 = { s with inventory := inv } := by
  have hsame : ∃ inv, DiskInventory.SameDisks s.inventory inv ∧ s = { s with inventory := inv } :=
    ⟨s.inventory, DiskInventory.SameDisks.refl _, rfl⟩
  have hmove : ∀ d st, ∃ inv, DiskInventory.SameDisks s.inventory inv ∧
      ({ s with inventory := (s.inventory.transitionState d st).1 } : DataNodeService)
        = { s with inventory := inv } :=
    fun d st => ⟨_, sameDisks_step ovf s.inventory (.transitionState d st) nofun, rfl⟩
  unfold handleRead
  dsimp only
  split
  · exact hsame
  split
  · exact hsame
  split
  · exact hsame
  split
  · exact hsame
  split
  · exact hmove _ _
  split
  · exact hsame
  split
  · rename_i e _
    cases e with
    | checksumMismatch _ => exact hmove _ _
    | io _ => exact hmove _ _
    | _ => exact hsame
  split
  · exact hmove _ _
  · exact hsame

/-- **Only writes** touch the log, the index and the stores, and nothing drops a disk. -/
theorem nodeStep_frame (x : Externals) (ovf : Overflow) (s : DataNodeService) (op : NodeOp)
    (hop : ∀ env request payload caller, op ≠ .write env request payload caller) :
    (nodeStep x ovf s op).1.operationLog = s.operationLog ∧
      (nodeStep x ovf s op).1.index = s.index ∧ (nodeStep x ovf s op).1.stores = s.stores ∧
      DiskInventory.SameDisks s.inventory (nodeStep x ovf s op).1.inventory := by
  have hdisks := sameDisks_step ovf s.inventory
  cases op with
  | write env request payload caller => exact absurd rfl (hop env request payload caller)
  | read fault request caller =>
    obtain ⟨inv, hsame, hinv⟩ := handleRead_fst x ovf fault s request caller
    rw [nodeStep, hinv]
    exact ⟨rfl, rfl, rfl, hsame⟩
  | updateLease volumeId sessionId leaseVersion =>
    simp only [nodeStep, updateLease]
    split
    · split <;> exact ⟨rfl, rfl, rfl, .refl _⟩
    · exact ⟨rfl, rfl, rfl, .refl _⟩
  | transitionState d st => exact ⟨rfl, rfl, rfl, hdisks (.transitionState d st) nofun⟩
  | recordTelemetry d t => exact ⟨rfl, rfl, rfl, hdisks (.recordTelemetry d t) nofun⟩
  | completeQualification d => exact ⟨rfl, rfl, rfl, hdisks (.completeQualification d) nofun⟩
  | startBurnIn d now => exact ⟨rfl, rfl, rfl, hdisks (.startBurnIn d now) nofun⟩
  | reportBadRegion d offset length =>
    exact ⟨rfl, rfl, rfl, hdisks (.reportBadRegion d offset length) nofun⟩
  | _ => exact ⟨rfl, rfl, rfl, .refl _⟩

/-! ## 3. Records that stay -/

/-- A record stored under `o` fits into the log. -/
def Fits (log : HashMap OperationId OperationRecord) (o : OperationId) : Prop :=
  log.size < maxOperationLogSize ∨ o ∈ log ∧ log.size ≤ maxOperationLogSize

/-- The event does not make the log grow past its limit. -/
def HasRoom (s : DataNodeService) : NodeOp → Prop
  | .write _ request _ _ => Fits s.operationLog request.operationId
  | _ => True

/-- The event is not a write carrying `o` that access control refuses. -/
def NotRefused (o : OperationId) (s : DataNodeService) : NodeOp → Prop
  | .write _ request _ caller =>
    request.operationId = o → s.volumeAcl.checkWrite request.volumeId caller = true
  | _ => True

theorem trimLog_insert (order : IterOrder OperationId) (h : Fits log o) (record : OperationRecord) :
    trimLog order (log.insert o record) = log.insert o record := by
  refine trimLog_of_le ?_
  rw [ExtTreeMap.size_insert]
  rcases h with hlt | ⟨hmem, hle⟩
  · split
    · exact Nat.le_of_lt hlt
    · exact hlt
  · rw [if_pos (ExtTreeMap.contains_iff_mem.mpr hmem)]
    exact hle

/-- **What an event with room does to the log**: nothing, or it records one write.  A record
that was there is only replaced when access control refuses a write carrying its id. -/
theorem operationLog_of_hasRoom (x : Externals) (ovf : Overflow) {op : NodeOp} (h : HasRoom s op) :
    (nodeStep x ovf s op).1.operationLog = s.operationLog ∨
      ∃ o record, (nodeStep x ovf s op).1.operationLog = s.operationLog.insert o record ∧
        (o ∈ s.operationLog → ¬ NotRefused o s op ∧ record.success = false) := by
  by_cases hop : ∃ env request payload caller, op = .write env request payload caller
  swap
  · refine Or.inl (nodeStep_frame x ovf s op ?_).1
    intro env request payload caller heq
    exact hop ⟨env, request, payload, caller, heq⟩
  obtain ⟨env, request, payload, caller, rfl⟩ := hop
  have hstep : (nodeStep x ovf s (.write env request payload caller)).1
      = (s.handleWrite x env request payload caller).1 := rfl
  rw [hstep]
  rcases operationLog_handleWrite x env s request payload caller with
    ⟨record, -, heq⟩ | ⟨hwhy, record, hrec, heq⟩
  · exact Or.inl (by rw [heq])
  · refine Or.inr ⟨request.operationId, record, by rw [heq, trimLog_insert _ h], ?_⟩
    intro hmem
    -- the id was there, so the write got past the log because access control stopped it
    have hacl : s.volumeAcl.checkWrite request.volumeId caller = false := by
      refine hwhy.resolve_right fun hnew => ?_
      rw [ExtTreeMap.mem_iff_isSome_getElem?, show s.operationLog[_]? = none from hnew] at hmem
      cases hmem
    refine ⟨fun hnot => ?_, ?_⟩
    · have htrue := hnot rfl
      rw [hacl] at htrue
      cases htrue
    · rw [hrec.success, handleWrite_of_denied hacl]
      rfl

/-- **A record stays** as long as no event overflows the log and no write carrying its id is
refused. -/
theorem getElem?_operationLog_stays (x : Externals) (ovf : Overflow) {record : OperationRecord}
    {ops : List NodeOp} (hrec : s.operationLog[o]? = some record)
    (hroom : Along (nodeStep x ovf) (fun t op => HasRoom t op ∧ NotRefused o t op) s ops) :
    (runState (nodeStep x ovf) s ops).operationLog[o]? = some record := by
  refine runState_of_along (P := fun t => t.operationLog[o]? = some record) hrec hroom ?_
  rintro t op ht ⟨hr, hn⟩
  rcases operationLog_of_hasRoom x ovf hr with heq | ⟨o', record', heq, hold⟩
  · rw [heq]
    exact ht
  · rw [heq]
    by_cases ho : o' = o
    · subst ho
      exact absurd hn (hold (mem_of_getElem? ht)).1
    · rw [getElem?_insert_of_ne _ ho]
      exact ht

/-- **A failure stays a failure** as long as no event overflows the log. -/
theorem failure_stays (x : Externals) (ovf : Overflow) {ops : List NodeOp}
    (hrec : ∃ record, s.operationLog[o]? = some record ∧ record.success = false)
    (hroom : Along (nodeStep x ovf) HasRoom s ops) :
    ∃ record, (runState (nodeStep x ovf) s ops).operationLog[o]? = some record ∧
      record.success = false := by
  refine runState_of_along
    (P := fun t => ∃ record, t.operationLog[o]? = some record ∧ record.success = false)
    hrec hroom ?_
  rintro t op ⟨record, ht, hfail⟩ hr
  rcases operationLog_of_hasRoom x ovf hr with heq | ⟨o', record', heq, hold⟩
  · exact ⟨record, by rw [heq]; exact ht, hfail⟩
  · rw [heq]
    by_cases ho : o' = o
    · subst ho
      exact ⟨record', ExtTreeMap.getElem?_insert_self, (hold (mem_of_getElem? ht)).2⟩
    · rw [getElem?_insert_of_ne _ ho]
      exact ⟨record, ht, hfail⟩

/-! ## 4. Retransmissions -/

theorem record_of_success (hfits : Fits s.operationLog request.operationId)
    (hok : (s.handleWrite x env request payload caller).2.success = true) :
    ∃ record, (s.handleWrite x env request payload caller).1.operationLog[request.operationId]?
        = some record ∧
      duplicateResponse request.operationId record
        = (s.handleWrite x env request payload caller).2 := by
  rcases operationLog_handleWrite x env s request payload caller with
    ⟨record, hdup, heq⟩ | ⟨-, record, hrec, heq⟩
  · rw [heq]
    exact ⟨record, hdup, rfl⟩
  · refine ⟨record, ?_, ?_⟩
    · rw [heq, trimLog_insert _ hfits]
      exact ExtTreeMap.getElem?_insert_self
    · rw [← hrec.answer hok, handleWrite_operationId]

/-- **Idempotent retransmission.**  A write was answered with success.  Since then the log
never outgrew its limit and access control refused no write carrying the same operation id.
Then the same write, sent again by a caller that passes access control, gets the same answer
and changes nothing. -/
theorem retransmission_idempotent (x : Externals) (ovf : Overflow) (env env' : WriteEnv)
    (s : DataNodeService) (request : WriteExtentRequest) (payload : Bytes)
    (caller caller' : PeerIdentity) (ops : List NodeOp)
    (hok : (s.handleWrite x env request payload caller).2.success = true)
    (hfits : Fits s.operationLog request.operationId)
    (hops : Along (nodeStep x ovf) (fun t op => HasRoom t op ∧ NotRefused request.operationId t op)
      (s.handleWrite x env request payload caller).1 ops)
    (hacl : (runState (nodeStep x ovf) (s.handleWrite x env request payload caller).1
      ops).volumeAcl.checkWrite request.volumeId caller' = true) :
    (runState (nodeStep x ovf) (s.handleWrite x env request payload caller).1 ops).handleWrite x
        env' request payload caller'
      = (runState (nodeStep x ovf) (s.handleWrite x env request payload caller).1 ops,
          (s.handleWrite x env request payload caller).2) := by
  obtain ⟨record, hrec, hans⟩ := record_of_success hfits hok
  have hstays := getElem?_operationLog_stays x ovf hrec hops
  rw [handleWrite_of_duplicate hacl hstays, hans]

/-- The sample node's environment, with the order in which a trimming scans the log. -/
def trimEnv (order : IterOrder OperationId) : WriteEnv := { calmEnv with evictOrder := order }

noncomputable def sampleWritten (order : IterOrder OperationId) : DataNodeService :=
  (sampleNode.handleWrite (jsonExternals sampleBlake3) (trimEnv order) (sampleWrite ⟨21#128⟩ 1) [1]
    (.node ⟨2#128⟩)).1

theorem sampleNode_handleWrite (order : IterOrder OperationId) :
    sampleNode.handleWrite (jsonExternals sampleBlake3) (trimEnv order) (sampleWrite ⟨21#128⟩ 1) [1]
        (.node ⟨2#128⟩)
      = (((writtenService (jsonExternals sampleBlake3) (trimEnv order) sampleNode
          ⟨"/mnt/d0", sampleDisk, ∅⟩ (sampleWrite ⟨21#128⟩ 1) [1] sampleDisk).recordOperation order
          (successRecord (sampleWrite ⟨21#128⟩ 1) sampleDisk
            ((jsonExternals sampleBlake3).checksum [1]))),
        writeSuccess (sampleWrite ⟨21#128⟩ 1) sampleDisk
          ((jsonExternals sampleBlake3).checksum [1])) := by
  have hd : selectWriteDisk (trimEnv order).diskOrder sampleNode.inventory
      (sampleWrite ⟨21#128⟩ 1).targetDiskId = .ok sampleDisk := rfl
  have hst : sampleNode.stores[sampleDisk]? = some ⟨"/mnt/d0", sampleDisk, ∅⟩ := rfl
  rw [handleWrite_of_gates (by decide) sampleNode_gates hd,
    performWrite_of_no_fault (fun _ => rfl) (fun _ => rfl) hst]
  rfl

theorem sampleWritten_log (order : IterOrder OperationId) :
    (sampleWritten order).operationLog = (∅ : HashMap OperationId OperationRecord).insert ⟨21#128⟩
      (successRecord (sampleWrite ⟨21#128⟩ 1) sampleDisk
        ((jsonExternals sampleBlake3).checksum [1])) := by
  have hempty : Fits (∅ : HashMap OperationId OperationRecord) ⟨21#128⟩ := Or.inl (by decide)
  unfold sampleWritten
  rw [sampleNode_handleWrite]
  exact trimLog_insert order hempty _

theorem sampleWritten_acl (order : IterOrder OperationId) :
    (sampleWritten order).volumeAcl = .new := by
  unfold sampleWritten
  rw [sampleNode_handleWrite]
  rfl

def refusedWrite (order : IterOrder OperationId) (k : Nat) : NodeOp :=
  .write (trimEnv order) (sampleWrite ⟨BitVec.ofNat 128 (100 + k)⟩ 1) [1] (.client ⟨4#128⟩)

/-- The state after `n` refused writes, while the log has room: the record of the sample write
is there, and so is one record for each of them. -/
structure Flooded (n : Nat) (s : DataNodeService) : Prop where
  acl : s.volumeAcl = .new
  size : s.operationLog.size = n + 1
  kept : (⟨21#128⟩ : OperationId) ∈ s.operationLog
  fresh : ∀ k, n ≤ k → k < 2 ^ 64 →
    (⟨BitVec.ofNat 128 (100 + k)⟩ : OperationId) ∉ s.operationLog

theorem refused_id_injective {j k : Nat} (hj : j < 2 ^ 64) (hk : k < 2 ^ 64)
    (h : (⟨BitVec.ofNat 128 (100 + j)⟩ : OperationId) = ⟨BitVec.ofNat 128 (100 + k)⟩) : j = k := by
  have huuid := congrArg (fun u : OperationId => u.uuid.toNat) h
  simp only [BitVec.toNat_ofNat] at huuid
  omega

theorem nodeStep_refusedWrite (hacl : s.volumeAcl = .new) (x : Externals) (ovf : Overflow)
    (order : IterOrder OperationId) (n : Nat) :
    (nodeStep x ovf s (refusedWrite order n)).1
      = s.recordOperation order (failureRecord (trimEnv order)
          (sampleWrite ⟨BitVec.ofNat 128 (100 + n)⟩ 1)) := by
  have hno : s.volumeAcl.checkWrite ⟨7#128⟩ (.client ⟨4#128⟩) = false := by rw [hacl]; rfl
  show (s.handleWrite x _ _ _ _).1 = _
  rw [handleWrite_of_denied hno]
  rfl

/-- One more refused write adds one more record. -/
theorem Flooded.step {n : Nat} (h : Flooded n s) (hn : n + 1 < maxOperationLogSize) (x : Externals)
    (ovf : Overflow) (order : IterOrder OperationId) :
    Flooded (n + 1) (nodeStep x ovf s (refusedWrite order n)).1 := by
  have hn64 : n < 2 ^ 64 := Nat.lt_trans (Nat.lt_of_succ_lt hn) (by decide)
  have hstep := nodeStep_refusedWrite h.acl x ovf order n
  have hlog : (nodeStep x ovf s (refusedWrite order n)).1.operationLog
      = s.operationLog.insert ⟨BitVec.ofNat 128 (100 + n)⟩ (failureRecord (trimEnv order)
          (sampleWrite ⟨BitVec.ofNat 128 (100 + n)⟩ 1)) := by
    rw [hstep]
    exact trimLog_insert _ (Or.inl (by rw [h.size]; exact hn)) _
  refine ⟨by rw [hstep]; exact h.acl, ?_, ?_, ?_⟩
  · have hno := h.fresh n (Nat.le_refl n) hn64
    rw [hlog, ExtTreeMap.size_insert, if_neg (fun e => hno (ExtTreeMap.contains_iff_mem.mp e)),
      h.size]
  · rw [hlog, ExtTreeMap.mem_insert]
    exact Or.inr h.kept
  · intro k hk hk64
    rw [hlog, ExtTreeMap.mem_insert, LawfulEqOrd.compare_eq_iff_eq]
    rintro (he | hmem)
    · have := refused_id_injective hn64 hk64 he
      omega
    · exact h.fresh k (Nat.le_of_succ_le hk) hk64 hmem

/-- The refused write that overflows the log may trim the record of the sample write. -/
theorem Flooded.overflow {n : Nat} (h : Flooded n s) (hn : n + 1 = maxOperationLogSize)
    (x : Externals) (ovf : Overflow) :
    (nodeStep x ovf s (refusedWrite (.first ⟨21#128⟩) n)).1.checkDuplicate ⟨21#128⟩ = none := by
  have hmax : maxOperationLogSize < 2 ^ 64 := by decide
  have hn64 : n < 2 ^ 64 := by omega
  have hno := h.fresh n (Nat.le_refl n) hn64
  rw [nodeStep_refusedWrite h.acl]
  refine getElem?_trimLog_first ?_ (ExtTreeMap.mem_insert.mpr (Or.inr h.kept))
  rw [ExtTreeMap.size_insert]
  refine Nat.lt_of_lt_of_eq ?_ (if_neg (fun e => hno (ExtTreeMap.contains_iff_mem.mp e))).symm
  rw [h.size, hn]
  exact Nat.lt_succ_self _

theorem sampleWritten_flooded (x : Externals) (ovf : Overflow) (order : IterOrder OperationId) :
    ∀ n, n < maxOperationLogSize →
      Flooded n (runState (nodeStep x ovf) (sampleWritten order)
        ((List.range n).map (refusedWrite order))) := by
  intro n
  induction n with
  | zero =>
    intro _
    refine ⟨sampleWritten_acl order, ?_, ?_, ?_⟩
    · rw [List.range_zero, List.map_nil, runState_nil, sampleWritten_log, ExtTreeMap.size_insert]
      decide
    · rw [List.range_zero, List.map_nil, runState_nil, sampleWritten_log, ExtTreeMap.mem_insert]
      exact Or.inl (LawfulEqOrd.compare_eq_iff_eq.mpr rfl)
    · intro k _ hk
      rw [List.range_zero, List.map_nil, runState_nil, sampleWritten_log, ExtTreeMap.mem_insert,
        LawfulEqOrd.compare_eq_iff_eq]
      rintro (he | hmem)
      · have huuid := congrArg (fun u : OperationId => u.uuid.toNat) he
        simp only [BitVec.toNat_ofNat] at huuid
        omega
      · exact ExtTreeMap.not_mem_empty hmem
  | succ n ih =>
    intro hn
    rw [List.range_succ, List.map_append, List.map_singleton, runState_snoc]
    exact (ih (Nat.lt_of_succ_lt hn)).step hn x ovf order

/-- As many refused writes as the log holds records push the sample write's record out. -/
theorem sampleWritten_trimmed (x : Externals) (ovf : Overflow) {n : Nat}
    (hn : n = maxOperationLogSize) :
    (runState (nodeStep x ovf) (sampleWritten (.first ⟨21#128⟩))
      ((List.range n).map (refusedWrite (.first ⟨21#128⟩)))).checkDuplicate ⟨21#128⟩ = none := by
  obtain ⟨m, rfl⟩ := Nat.exists_eq_succ_of_ne_zero (n := n) (by rw [hn]; decide)
  have hm : m < maxOperationLogSize := by rw [← hn]; exact Nat.lt_succ_self m
  rw [Nat.succ_eq_add_one, List.range_succ, List.map_append, List.map_singleton, runState_snoc]
  exact (sampleWritten_flooded x ovf (.first ⟨21#128⟩) m hm).overflow hn x ovf

/-- **A record can be trimmed away.**  After the sample write succeeded, ten thousand refused
writes of a client without any rights push the log past its limit, and its trimming may start
with the record of the success.  When the epoch moves on, the retransmission is rejected. -/
theorem success_record_is_trimmed :
    (sampleNode.handleWrite (jsonExternals sampleBlake3) (trimEnv (.first ⟨21#128⟩))
        (sampleWrite ⟨21#128⟩ 1) [1] (.node ⟨2#128⟩)).2.success = true ∧
      ((runState (nodeStep (jsonExternals sampleBlake3) .checked)
          (sampleNode.handleWrite (jsonExternals sampleBlake3) (trimEnv (.first ⟨21#128⟩))
            (sampleWrite ⟨21#128⟩ 1) [1] (.node ⟨2#128⟩)).1
          ((List.range 10000).map (refusedWrite (.first ⟨21#128⟩)) ++ [.setEpoch 2])).handleWrite
        (jsonExternals sampleBlake3) (trimEnv (.first ⟨21#128⟩)) (sampleWrite ⟨21#128⟩ 1) [1]
        (.node ⟨2#128⟩)).2.success = false := by
  constructor
  · rw [sampleNode_handleWrite]
    rfl
  -- without the record the request is judged by its epoch, which is behind
  have hstale : ∀ t : DataNodeService, t.checkDuplicate ⟨21#128⟩ = none →
      ((t.setEpoch 2).handleWrite (jsonExternals sampleBlake3) (trimEnv (.first ⟨21#128⟩))
        (sampleWrite ⟨21#128⟩ 1) [1] (.node ⟨2#128⟩)).2.success = false := by
    intro t ht
    refine Bool.eq_false_iff.mpr fun hok => ?_
    have hnew : (t.setEpoch 2).checkDuplicate (sampleWrite ⟨21#128⟩ 1).operationId = none := ht
    have hepoch : (2 : Nat) ≤ 1 := (gates_of_success hnew hok).1.epoch
    exact absurd hepoch (by decide)
  have hset : ∀ t : DataNodeService,
      (nodeStep (jsonExternals sampleBlake3) .checked t (.setEpoch 2)).1 = t.setEpoch 2 := by
    intro t
    rfl
  have hmax : 10000 = maxOperationLogSize := rfl
  rw [runState_snoc, hset]
  exact hstale _ (sampleWritten_trimmed (jsonExternals sampleBlake3) .checked hmax)

/-- The retransmission theorem at a concrete run: the epoch moves on and another write is
refused, and the retransmission, stale by now, is answered as before. -/
theorem retransmission_idempotent_epoch_change :
    (runState (nodeStep (jsonExternals sampleBlake3) .checked) (sampleWritten (.sorted _))
        [.setEpoch 2, refusedWrite (.sorted _) 0]).handleWrite (jsonExternals sampleBlake3)
        (trimEnv (.sorted _)) (sampleWrite ⟨21#128⟩ 1) [1] (.node ⟨2#128⟩)
      = (runState (nodeStep (jsonExternals sampleBlake3) .checked) (sampleWritten (.sorted _))
          [.setEpoch 2, refusedWrite (.sorted _) 0],
        writeSuccess (sampleWrite ⟨21#128⟩ 1) sampleDisk
          ((jsonExternals sampleBlake3).checksum [1])) := by
  have hok := sampleNode_handleWrite (.sorted _)
  have hsize : ((sampleWritten (.sorted _)).setEpoch 2).operationLog.size
      < maxOperationLogSize := by
    show (sampleWritten (.sorted _)).operationLog.size < _
    rw [sampleWritten_log, ExtTreeMap.size_insert]
    decide
  have h := retransmission_idempotent (jsonExternals sampleBlake3) .checked (trimEnv (.sorted _))
    (trimEnv (.sorted _)) sampleNode (sampleWrite ⟨21#128⟩ 1) [1] (.node ⟨2#128⟩) (.node ⟨2#128⟩)
    [.setEpoch 2, refusedWrite (.sorted _) 0] (by rw [hok]; rfl) (Or.inl (by decide))
    ⟨⟨trivial, trivial⟩, ⟨Or.inl hsize, fun h => absurd h (by decide)⟩, trivial⟩ rfl
  rw [hok] at h
  unfold sampleWritten
  rw [hok]
  exact h

/-! ## 5. Retries of rejected writes -/

/-- The write is rejected by its epoch, by its lease, or for want of a disk. -/
structure Rejected (env : WriteEnv) (s : DataNodeService) (request : WriteExtentRequest)
    (caller : PeerIdentity) : Prop where
  acl : s.volumeAcl.checkWrite request.volumeId caller = true
  new : s.checkDuplicate request.operationId = none
  cause : s.validateEpoch request.epoch ≠ .ok () ∨ s.validateWriteLease request ≠ .ok () ∨
    ∀ d, selectWriteDisk env.diskOrder s.inventory request.targetDiskId ≠ .ok d

/-- A rejected write changes the log and nothing else. -/
theorem Rejected.handleWrite_eq (h : Rejected env s request caller) (x : Externals)
    (payload : Bytes) :
    ∃ msg, s.handleWrite x env request payload caller = s.writeError env request msg := by
  rcases handleWrite_cases (x := x) env s request payload caller with
    ⟨-, hwe⟩ | ⟨-, record, hdup, -⟩ | ⟨-, -, hwe⟩ | ⟨-, hg, d, hd, -⟩
  · exact hwe
  · rw [h.new] at hdup
    cases hdup
  · exact hwe
  · rcases h.cause with hep | hle | hno
    · exact absurd ((validateEpoch_eq_ok_iff s _).mpr hg.epoch) hep
    · exact absurd ((validateWriteLease_eq_ok_iff s _).mpr hg.lease) hle
    · exact absurd hd (hno d)

/-- Nothing stands in the way of the write: the gates are met, the disk it goes to has a
store, and no system call fails. -/
structure Unobstructed (x : Externals) (env : WriteEnv) (s : DataNodeService)
    (request : WriteExtentRequest) (payload : Bytes) (caller : PeerIdentity) : Prop where
  gates : Gates x s request payload caller
  disk : ∃ d store, selectWriteDisk env.diskOrder s.inventory request.targetDiskId = .ok d ∧
    s.stores[d]? = some store
  stage : ∀ i, env.stageFault i = none
  commit : ∀ i, env.commitFault i = none

/-- An unobstructed write that is new to the log is performed and succeeds. -/
theorem Unobstructed.performed (h : Unobstructed x env s request payload caller)
    (hnew : s.checkDuplicate request.operationId = none) :
    ∃ d, s.handleWrite x env request payload caller = s.performWrite x env request payload d ∧
      (s.performWrite x env request payload d).2.success = true := by
  obtain ⟨d, store, hd, hst⟩ := h.disk
  refine ⟨d, handleWrite_of_gates hnew h.gates hd, ?_⟩
  rw [performWrite_of_no_fault h.stage h.commit hst]
  rfl

/-- **Retrying a rejected write.**  A write was rejected by its epoch, its lease or for want of
a disk; the node ran on; and now the operation id is sent again with nothing in the way.

* Without a record of the id the retry is evaluated afresh and succeeds; in general it
  succeeds exactly when the log does not hold a FAILED record of the id.
* The rejection itself left such a record, when it fitted, and the retry fails for as long as
  the log is not trimmed. -/
theorem retry_succeeds_iff (x : Externals) (ovf : Overflow) (env env' : WriteEnv)
    (s t : DataNodeService) (request retry : WriteExtentRequest) (payload payload' : Bytes)
    (caller caller' : PeerIdentity) (ops : List NodeOp)
    (hrej : Rejected env s request caller)
    (hrun : t = runState (nodeStep x ovf) (s.handleWrite x env request payload caller).1 ops)
    (hid : retry.operationId = request.operationId)
    (hfree : Unobstructed x env' t retry payload' caller') :
    ((t.handleWrite x env' retry payload' caller').2.success = true ↔
        ∀ record, t.checkDuplicate request.operationId = some record → record.success = true) ∧
      (t.checkDuplicate request.operationId = none →
        ∃ d, t.handleWrite x env' retry payload' caller'
          = t.performWrite x env' retry payload' d) ∧
      (Fits s.operationLog request.operationId →
        Along (nodeStep x ovf) HasRoom (s.handleWrite x env request payload caller).1 ops →
        (t.handleWrite x env' retry payload' caller').2.success = false) := by
  have hiff : (t.handleWrite x env' retry payload' caller').2.success = true ↔
      ∀ record, t.checkDuplicate request.operationId = some record → record.success = true := by
    rw [← hid]
    cases hdup : t.checkDuplicate retry.operationId with
    | none =>
      obtain ⟨d, hperf, hok⟩ := hfree.performed hdup
      rw [hperf]
      exact ⟨fun _ record h => (by cases h), fun _ => hok⟩
    | some record =>
      rw [handleWrite_of_duplicate hfree.gates.acl hdup]
      constructor
      · rintro hok record' ⟨⟩
        exact hok
      · intro h
        exact h record rfl
  refine ⟨hiff, ?_, ?_⟩
  · intro hnone
    rw [← hid] at hnone
    obtain ⟨d, hperf, -⟩ := hfree.performed hnone
    exact ⟨d, hperf⟩
  · intro hfits hroom
    obtain ⟨msg, heq⟩ := hrej.handleWrite_eq x payload
    have hlog : (s.handleWrite x env request payload caller).1.operationLog
        = s.operationLog.insert request.operationId (failureRecord env request) := by
      rw [heq]
      exact trimLog_insert _ hfits _
    have hfirst : ∃ record, (s.handleWrite x env request payload caller).1.operationLog[
        request.operationId]? = some record ∧ record.success = false :=
      ⟨failureRecord env request, by rw [hlog]; exact ExtTreeMap.getElem?_insert_self, rfl⟩
    obtain ⟨record, hrec, hfail⟩ := failure_stays x ovf hfirst hroom
    rw [← hrun] at hrec
    refine Bool.eq_false_iff.mpr fun hok => ?_
    rw [hiff.mp hok record hrec] at hfail
    cases hfail

theorem sampleNode_rejects :
    Rejected calmEnv sampleNode (sampleWrite ⟨22#128⟩ 0) (.node ⟨2#128⟩) where
  acl := rfl
  new := by decide
  cause := by
    refine Or.inl fun h => ?_
    have hle : (1 : Nat) ≤ 0 := (validateEpoch_eq_ok_iff _ _).mp h
    exact absurd hle (by decide)

noncomputable def sampleRejected : DataNodeService :=
  (sampleNode.handleWrite (jsonExternals sampleBlake3) calmEnv (sampleWrite ⟨22#128⟩ 0) [1]
    (.node ⟨2#128⟩)).1

theorem sampleRejected_unobstructed :
    Unobstructed (jsonExternals sampleBlake3) calmEnv sampleRejected (sampleWrite ⟨22#128⟩ 1) [1]
      (.node ⟨2#128⟩) := by
  unfold sampleRejected
  obtain ⟨msg, heq⟩ := sampleNode_rejects.handleWrite_eq (jsonExternals sampleBlake3) [1]
  rw [heq]
  have hg := sampleNode_gates (o := ⟨22#128⟩)
  exact ⟨⟨hg.acl, hg.epoch, hg.lease, hg.checksum⟩, ⟨sampleDisk, _, rfl, rfl⟩, fun _ => rfl,
    fun _ => rfl⟩

/-- **A rejection is terminal.**  The write that came with an old epoch is sent again with the
current one, at once and with nothing in the way, and is answered as a failure. -/
theorem rejected_write_stays_rejected :
    Rejected calmEnv sampleNode (sampleWrite ⟨22#128⟩ 0) (.node ⟨2#128⟩) ∧
      Unobstructed (jsonExternals sampleBlake3) calmEnv sampleRejected (sampleWrite ⟨22#128⟩ 1) [1]
        (.node ⟨2#128⟩) ∧
      (sampleRejected.handleWrite (jsonExternals sampleBlake3) calmEnv (sampleWrite ⟨22#128⟩ 1) [1]
        (.node ⟨2#128⟩)).2.success = false ∧
      (sampleRejected.handleWrite (jsonExternals sampleBlake3) calmEnv (sampleWrite ⟨22#128⟩ 1) [1]
        (.node ⟨2#128⟩)).2.error = some "previous attempt failed" := by
  refine ⟨sampleNode_rejects, sampleRejected_unobstructed, ?_⟩
  have hdup : sampleRejected.checkDuplicate ⟨22#128⟩
      = some (failureRecord calmEnv (sampleWrite ⟨22#128⟩ 0)) := by
    unfold sampleRejected
    obtain ⟨msg, heq⟩ := sampleNode_rejects.handleWrite_eq (jsonExternals sampleBlake3) [1]
    rw [heq]
    rfl
  rw [handleWrite_of_duplicate (sampleRejected_unobstructed.gates.acl) hdup]
  exact ⟨rfl, rfl⟩

theorem retry_succeeds_iff_stale_epoch :
    (sampleRejected.handleWrite (jsonExternals sampleBlake3) calmEnv (sampleWrite ⟨22#128⟩ 1) [1]
        (.node ⟨2#128⟩)).2.success = false := by
  have h := retry_succeeds_iff (jsonExternals sampleBlake3) .checked calmEnv calmEnv sampleNode
    sampleRejected (sampleWrite ⟨22#128⟩ 0) (sampleWrite ⟨22#128⟩ 1) [1] [1] (.node ⟨2#128⟩)
    (.node ⟨2#128⟩) [] sampleNode_rejects rfl rfl sampleRejected_unobstructed
  exact h.2.2 (Or.inl (by decide)) trivial

/-! ## 6. The size of the log -/

theorem size_foldl_erase {keys : List OperationId} (hnodup : keys.Nodup)
    (hmem : ∀ key ∈ keys, key ∈ log) :
    (keys.foldl (fun log key => log.erase key) log).size + keys.length = log.size := by
  induction keys generalizing log with
  | nil => rfl
  | cons key keys ih =>
    obtain ⟨hkey, hkeys⟩ := List.nodup_cons.mp hnodup
    have hrest : ∀ other ∈ keys, other ∈ log.erase key := by
      intro other hother
      refine ExtTreeMap.mem_erase.mpr ⟨?_, hmem other (List.mem_cons_of_mem _ hother)⟩
      rw [Ne, LawfulEqOrd.compare_eq_iff_eq]
      rintro rfl
      exact hkey hother
    have hin := hmem key List.mem_cons_self
    have hpos : 0 < log.keys.length := List.length_pos_of_mem (ExtTreeMap.mem_keys.mpr hin)
    rw [ExtTreeMap.length_keys] at hpos
    have hsize := ih hkeys hrest
    rw [ExtTreeMap.size_erase, if_pos (ExtTreeMap.contains_iff_mem.mpr hin)] at hsize
    rw [List.foldl_cons, List.length_cons]
    omega

/-- A log that is too large is trimmed to nine tenths of its limit. -/
theorem size_trimLog (order : IterOrder OperationId) (h : maxOperationLogSize < log.size) :
    (trimLog order log).size = maxOperationLogSize - maxOperationLogSize / 10 := by
  have hperm := order.perm log.keys
  have hlength : (order.keys log).length = log.size :=
    hperm.length_eq.trans ExtTreeMap.length_keys
  have hnodup : (order.keys log).Nodup := hperm.nodup_iff.mpr ExtTreeMap.nodup_keys
  unfold trimLog
  rw [if_pos h]
  have hsize := size_foldl_erase (hnodup.sublist (List.take_sublist
    (log.size - maxOperationLogSize + maxOperationLogSize / 10) _)) fun key hkey =>
      (order.mem_keys log key).mp (List.mem_of_mem_take hkey)
  rw [List.length_take, hlength, Nat.min_eq_left (by omega)] at hsize
  dsimp only
  omega

/-- **THE LOG KEEPS TO ITS LIMIT.**  Whatever happens to a node, its log of operations does not grow
past the limit, and never holds less than it started with or nine tenths of the limit. -/
theorem operationLog_bounded (x : Externals) (ovf : Overflow) (s : DataNodeService)
    (ops : List NodeOp) :
    (runState (nodeStep x ovf) s ops).operationLog.size ∈
      Set.Icc (min s.operationLog.size (maxOperationLogSize - maxOperationLogSize / 10))
        (max s.operationLog.size maxOperationLogSize) := by
  refine runState_invariant (P := fun t : DataNodeService => t.operationLog.size ∈ Set.Icc _ _)
    ⟨min_le_left _ _, le_max_left _ _⟩ ?_ ops
  intro t op ht
  by_cases hop : ∃ env request payload caller, op = .write env request payload caller
  swap
  · rw [(nodeStep_frame x ovf t op fun env request payload caller heq =>
      hop ⟨env, request, payload, caller, heq⟩).1]
    exact ht
  obtain ⟨env, request, payload, caller, rfl⟩ := hop
  change (t.handleWrite x env request payload caller).1.operationLog.size ∈ _
  rcases operationLog_handleWrite x env t request payload caller with
    ⟨record, -, heq⟩ | ⟨-, record, -, heq⟩
  · rw [heq]
    exact ht
  rw [heq]
  by_cases hlarge : maxOperationLogSize < (t.operationLog.insert request.operationId record).size
  · rw [size_trimLog _ hlarge]
    exact ⟨min_le_right _ _, le_max_of_le_right (Nat.sub_le _ _)⟩
  · have hle := Nat.le_of_not_lt hlarge
    rw [trimLog_of_le hle]
    exact ⟨ht.1.trans ExtTreeMap.size_le_size_insert, le_max_of_le_right hle⟩

end Blockyard.Storage
