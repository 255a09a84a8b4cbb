/-
# Damaged files are not served

`blockyard-storage`, `service.rs` (`handle_read`) and `extent.rs` (`read_extent`): the bytes of an
extent are checked twice, against its metadata file and against the index.  The first check gives
way: a metadata file that is missing or does not parse is ignored, and one that was changed along
with the data agrees with it.  The second does not: the index is in memory, and what it has for an
extent was put there by the last write that was performed.

So the files may be changed in any way and at any time while the node runs (`DiskEvent.damage`).
The one thing the argument needs of a run is the index (`Indexes`), which no damage reaches and
no failed write changes; a read that succeeds returns bytes with the checksum of the last payload,
and where no other bytes have that checksum it returns the payload
(`damaged_bytes_never_returned`).
-/
import Blockyard.Storage.Register

open Std CrashFs Machine

namespace Blockyard.Storage

open DataNodeService

/-! ## 1. Runs with damage -/

/-- What happens to a node: an operation, with any I/O errors, or a change of the files of a disk
behind its back. -/
inductive DiskEvent
  | op (op : NodeOp)
  | damage (diskId : DiskId) (files : Fs FileName)

def DataNodeService.damage (s : DataNodeService) (diskId : DiskId) (files : Fs FileName) :
    DataNodeService :=
  match s.stores[diskId]? with
  | some store => { s with stores := s.stores.insert diskId (store.setFiles files) }
  | none => s

def diskStep (x : Externals) (ovf : Overflow) (s : DataNodeService) :
    DiskEvent → DataNodeService × NodeAnswer
  | .op op => nodeStep x ovf s op
  | .damage diskId files => (s.damage diskId files, .done)

def performedBy (x : Externals) (s : DataNodeService) : DiskEvent → Option (ExtentId × Cell)
  | .op op => executed x s op
  | .damage _ _ => none

/-- The writes performed in a run, in order.  A repetition that is answered from the operation log
is not performed again. -/
def performed (x : Externals) (ovf : Overflow) (s : DataNodeService) :
    List DiskEvent → List (ExtentId × Cell)
  | [] => []
  | ev :: evs => (performedBy x s ev).toList ++ performed x ovf (diskStep x ovf s ev).1 evs

theorem performed_snoc (x : Externals) (ovf : Overflow) (s : DataNodeService)
    (evs : List DiskEvent) (ev : DiskEvent) :
    performed x ovf s (evs ++ [ev]) = performed x ovf s evs
      ++ (performedBy x (runState (diskStep x ovf) s evs) ev).toList := by
  induction evs generalizing s with
  | nil => simp [performed]
  | cons ev' evs ih => simp only [List.cons_append, performed, ih, runState_cons,
      List.append_assoc]

/-! ## 2. The index -/

/-- The index has, for every extent, version and checksum of the last write of the log. -/
def Indexes (x : Externals) (log : List (ExtentId × Cell)) (index : ExtentIndex) : Prop :=
  ∀ e cell, MapLog.last e log = some cell →
    ∃ entry, index[e]? = some entry ∧ entry.version = cell.version ∧
      entry.checksum = x.checksum cell.payload

/-- What a write does to the index, whatever errors the disks report. -/
theorem index_handleWrite (x : Externals) (env : WriteEnv) (s : DataNodeService)
    (request : WriteExtentRequest) (payload : Bytes) (caller : PeerIdentity) :
    (executed x s (.write env request payload caller) = none ∧
        (s.handleWrite x env request payload caller).1.index = s.index) ∨
      ∃ cell entry, executed x s (.write env request payload caller)
          = some (request.extentId, cell) ∧
        (s.handleWrite x env request payload caller).1.index
          = s.index.insert request.extentId entry ∧ entry.extentId = request.extentId ∧
        entry.version = cell.version ∧ entry.checksum = x.checksum cell.payload := by
  have hfail : ∀ (s' : DataNodeService) msg, s'.index = s.index →
      s.handleWrite x env request payload caller = s'.writeError env request msg →
      executed x s (.write env request payload caller) = none ∧
        (s.handleWrite x env request payload caller).1.index = s.index := by
    intro s' msg hindex heq
    exact ⟨executed_of_writeError heq, by rw [heq]; exact hindex⟩
  rcases handleWrite_cases (x := x) env s request payload caller with
    ⟨-, msg, heq⟩ | ⟨-, record, hdup, heq⟩ | ⟨-, -, msg, heq⟩ | ⟨hnew, -, d, -, heq⟩
  · exact Or.inl (hfail s msg rfl heq)
  · exact Or.inl ⟨executed_of_duplicate hdup env payload caller, by rw [heq]⟩
  · exact Or.inl (hfail s msg rfl heq)
  · rcases performWrite_cases (x := x) env s request payload d with
      ⟨store, -, hperf⟩ | ⟨s', msg, hafter, hperf⟩
    · rw [hperf] at heq
      refine Or.inr ⟨_, store.committedEntry request.extentId request.extentVersion
        (x.checksum payload) payload.length .default, if_pos ⟨hnew, by rw [heq]; rfl⟩,
        by rw [heq]; rfl, rfl, rfl, rfl⟩
    · exact Or.inl (hfail s' msg hafter.index (heq.trans hperf))

/-- **What an operation does to the index**: a write that is performed enters its version and
checksum under its extent, and nothing else changes it. -/
theorem index_nodeStep (x : Externals) (ovf : Overflow) (s : DataNodeService) (op : NodeOp) :
    (executed x s op = none ∧ (nodeStep x ovf s op).1.index = s.index) ∨
      ∃ e cell entry, executed x s op = some (e, cell) ∧
        (nodeStep x ovf s op).1.index = s.index.insert e entry ∧ entry.extentId = e ∧
        entry.version = cell.version ∧ entry.checksum = x.checksum cell.payload := by
  cases op with
  | write env request payload caller =>
    rcases index_handleWrite x env s request payload caller with h | ⟨cell, entry, h⟩
    · exact Or.inl h
    · exact Or.inr ⟨request.extentId, cell, entry, h⟩
  | _ => exact Or.inl ⟨rfl, (nodeStep_frame x ovf s _ (by simp)).2.1⟩

/-- A performed write is the last of its extent. -/
theorem Indexes.insert {x : Externals} {log : List (ExtentId × Cell)} {index : ExtentIndex}
    (h : Indexes x log index) (e : ExtentId) {cell : Cell} {entry : LocalExtentEntry}
    (hversion : entry.version = cell.version) (hsum : entry.checksum = x.checksum cell.payload) :
    Indexes x (log ++ [(e, cell)]) (index.insert e entry) := by
  intro e' cell' hlast
  rw [MapLog.last_append, MapLog.last_cons, MapLog.last_nil, Option.none_or] at hlast
  by_cases he : e = e'
  · subst he
    obtain rfl : cell = cell' := by simpa using hlast
    exact ⟨entry, ExtTreeMap.getElem?_insert_self, hversion, hsum⟩
  · rw [getElem?_insert_of_ne _ he]
    exact h e' cell' (by simpa [he] using hlast)

/-- **One event**, damage included, takes the log of performed writes along. -/
theorem Indexes.step {x : Externals} {log : List (ExtentId × Cell)} {s : DataNodeService}
    (h : Indexes x log s.index) (ovf : Overflow) (ev : DiskEvent) :
    Indexes x (log ++ (performedBy x s ev).toList) (diskStep x ovf s ev).1.index := by
  cases ev with
  | op op =>
    rcases index_nodeStep x ovf s op with ⟨hnone, hindex⟩ |
      ⟨e, cell, entry, hsome, hindex, -, hv, hs⟩
    · simpa [performedBy, diskStep, hnone, hindex] using h
    · simpa [performedBy, diskStep, hsome, hindex] using h.insert e hv hs
  | damage d files =>
    have hindex : (s.damage d files).index = s.index := by
      unfold DataNodeService.damage
      split <;> rfl
    simpa [performedBy, diskStep, hindex] using h

/-- **The whole run.** -/
theorem indexes_run (x : Externals) (ovf : Overflow) (s : DataNodeService) (evs : List DiskEvent) :
    Indexes x (performed x ovf s evs) (runState (diskStep x ovf) s evs).index := by
  refine runState_history (P := fun seen (t : DataNodeService) =>
    Indexes x (performed x ovf s seen) t.index) ?_ ?_
  · intro e cell hcell
    cases hcell
  · intro pre ev post _ hpre
    rw [performed_snoc]
    exact hpre.step ovf ev

/-! ## 3. Reads -/

/-- What a request asks for of a payload: all of it, or a window of the payload followed by
zeros. -/
def ReadExtentRequest.windowOf (request : ReadExtentRequest) (payload : Bytes) : Bytes :=
  if request.offset = 0 ∧ request.length = 0 then payload
  else ((payload ++ List.replicate (request.offset + request.length) 0).drop request.offset).take
    request.length

/-- What is cut out of the stored bytes is the window, where a window is cut out at all. -/
theorem windowOf_eq_of_readWindow {ovf : Overflow} {request : ReadExtentRequest}
    {data window : Bytes} (hstop : request.offset + request.length < 2 ^ 64)
    (h : readWindow ovf data request.offset request.length = some window) :
    window = request.windowOf data := by
  unfold readWindow at h
  unfold ReadExtentRequest.windowOf
  by_cases hwhole : request.offset = 0 ∧ request.length = 0
  · rw [if_pos hwhole] at h ⊢
    exact (Option.some.inj h).symm
  rw [if_neg hwhole, addU64_of_lt ovf hstop] at h
  rw [if_neg hwhole]
  dsimp only at h
  have hsub : subU64 ovf (request.offset + request.length) request.offset = some request.length :=
    (if_pos (Nat.le_add_right _ _)).trans (by rw [Nat.add_sub_cancel_left])
  rw [List.drop_append, List.take_append, List.drop_replicate, List.take_replicate,
    List.length_drop]
  by_cases hafter : request.offset ≥ data.length
  · -- the window starts behind the data
    rw [if_pos hafter, hsub, Option.bind_some, zeroVec] at h
    split at h
    · rw [← Option.some.inj h, List.drop_eq_nil_of_le hafter, List.take_nil, List.nil_append]
      congr 1
      omega
    · cases h
  rw [if_neg hafter] at h
  by_cases hover : request.offset + request.length > data.length
  · rw [if_pos hover, zeroVec] at h
    split at h
    · have hfill : min (request.length - (data.length - request.offset))
          (request.offset + request.length - (request.offset - data.length))
          = request.offset + request.length - data.length := by omega
      rw [← Option.some.inj h, List.take_of_length_le (by rw [List.length_drop]; omega), hfill]
    · cases h
  · rw [if_neg hover, if_neg (by omega), Nat.add_sub_cancel_left] at h
    rw [← Option.some.inj h]
    have hnone : request.length - (data.length - request.offset) = 0 := by omega
    rw [hnone, Nat.zero_min, List.replicate_zero, List.append_nil]

theorem checksum_of_readExtent {x : Externals} {fault : ExtentStore.ReadFault} {st : ExtentStore}
    {e : ExtentId} {v : ExtentVersion} {data : Bytes} {checksum : String}
    (h : st.readExtent x fault e v = .ok (data, checksum)) : checksum = x.checksum data := by
  unfold ExtentStore.readExtent at h
  dsimp only at h
  split at h
  · cases h
  split at h
  · cases h
  -- the metadata decides whether there is an answer, not which
  split at h
  · cases h
    rfl
  split at h
  · cases h
  split at h
  · cases h
    rfl
  split at h
  · cases h
  · cases h
    rfl

/-- **What a read answers**: a failure without data, nothing at all when it panics, or a window of
bytes whose checksum is the one in the index. -/
theorem handleRead_cases (x : Externals) (ovf : Overflow) (fault : ExtentStore.ReadFault)
    (s : DataNodeService) (request : ReadExtentRequest) (caller : PeerIdentity) :
    (∃ msg, (s.handleRead x ovf fault request caller).2 = some (readError request msg, none)) ∨
      (s.handleRead x ovf fault request caller).2 = none ∨
      ∃ entry data window response, s.index[request.extentId]? = some entry ∧
        entry.version = request.extentVersion ∧ x.checksum data = entry.checksum ∧
        readWindow ovf data request.offset request.length = some window ∧
        (s.handleRead x ovf fault request caller).2 = some (response, some window) ∧
        response.success = true ∧ response.payloadSize = window.length := by
  unfold handleRead
  dsimp only
  split
  · exact Or.inl ⟨_, rfl⟩
  split
  · exact Or.inl ⟨_, rfl⟩
  split
  · exact Or.inl ⟨_, rfl⟩
  next entry hentry =>
  split
  · exact Or.inl ⟨_, rfl⟩
  next hversion =>
  split
  · exact Or.inl ⟨_, rfl⟩
  split
  · exact Or.inl ⟨_, rfl⟩
  split
  · exact Or.inl ⟨_, rfl⟩
  next data checksum hread =>
  split
  · exact Or.inl ⟨_, rfl⟩
  next hsum =>
  cases hwindow : readWindow ovf data request.offset request.length with
  | none => exact Or.inr (Or.inl rfl)
  | some window =>
    refine Or.inr (Or.inr ⟨entry, data, window, _, hentry, not_not.mp hversion, ?_, hwindow, rfl,
      rfl, rfl⟩)
    rw [← checksum_of_readExtent hread]
    exact not_not.mp hsum

def readAfter (x : Externals) (ovf : Overflow) (s : DataNodeService) (evs : List DiskEvent)
    (fault : ExtentStore.ReadFault) (request : ReadExtentRequest) (caller : PeerIdentity) :
    Option (ReadExtentResponse × Option Bytes) :=
  ((runState (diskStep x ovf) s evs).handleRead x ovf fault request caller).2

/-- **Damaged bytes are never returned.**  After any run, with any I/O errors and any damage to
the files, a read of an extent returns the window it asks for of the payload that was written
last, or it fails and returns nothing. -/
theorem damaged_bytes_never_returned (x : Externals) (ovf : Overflow) (s : DataNodeService)
    (evs : List DiskEvent) (fault : ExtentStore.ReadFault) (request : ReadExtentRequest)
    (caller : PeerIdentity) (hstop : request.offset + request.length < 2 ^ 64) (cell : Cell)
    (hlast : MapLog.last request.extentId (performed x ovf s evs) = some cell)
    (hfree : ∀ data, x.checksum data = x.checksum cell.payload → data = cell.payload) :
    (∃ response, cell.version = request.extentVersion ∧
        readAfter x ovf s evs fault request caller
          = some (response, some (request.windowOf cell.payload)) ∧ response.success = true) ∨
      payloadOf (readAfter x ovf s evs fault request caller) = none ∧
        ∀ r ∈ readAfter x ovf s evs fault request caller, r.1.success = false := by
  unfold readAfter
  obtain ⟨entry, hentry, hversion, hsum⟩ := indexes_run x ovf s evs _ cell hlast
  generalize runState (diskStep x ovf) s evs = t at hentry ⊢
  rcases handleRead_cases x ovf fault t request caller with
    ⟨msg, heq⟩ | heq | ⟨entry', data, window, response, hentry', hver, hdata, hwindow, heq, hok, -⟩
  · refine Or.inr ⟨by rw [heq]; rfl, fun r hr => ?_⟩
    rw [heq, Option.mem_some_iff] at hr
    rw [← hr]
    rfl
  · rw [heq]
    exact Or.inr ⟨rfl, by simp⟩
  · -- the bytes have the checksum the last write left in the index
    rw [hentry] at hentry'
    cases hentry'
    have hpayload := hfree data (hdata.trans hsum)
    rw [hpayload] at hwindow
    refine Or.inl ⟨response, hversion.symm.trans hver, ?_, hok⟩
    rw [heq, windowOf_eq_of_readWindow hstop hwindow]

theorem digest_eq_of_checksum_eq {blake3 : Bytes → BitVec 256} {data data' : Bytes}
    (h : computeChecksum blake3 data = computeChecksum blake3 data') :
    blake3 data = blake3 data' := by
  have hdigits := congrArg String.toList h
  rw [computeChecksum, computeChecksum, String.toList_ofList, String.toList_ofList] at hdigits
  have hmod := mod_eq_of_hexDigits_eq hdigits
  have hlt : ∀ d, (blake3 d).toNat < 16 ^ 64 := fun d => (blake3 d).isLt.trans_eq (by norm_num)
  rw [Nat.mod_eq_of_lt (hlt _), Nat.mod_eq_of_lt (hlt _)] at hmod
  exact BitVec.eq_of_toNat_eq hmod

/-- The sample write, and its file replaced by one with the byte 2 and no metadata. -/
def replacedFile : List DiskEvent :=
  [.op (.write (trimEnv (.sorted _)) (sampleWrite ⟨21#128⟩ 1) [1] (.node ⟨2#128⟩)),
    .damage sampleDisk ((∅ : Fs FileName).insert ⟨.committed, ⟨5#128⟩, 1⟩ ⟨[2], true⟩)]

theorem damaged_bytes_never_returned_replaced :
    payloadOf (readAfter (jsonExternals sampleBlake3) .checked sampleNode replacedFile
        ⟨none, none⟩ sampleRead (.node ⟨2#128⟩)) ∈ [some [1], none] := by
  have hlast : MapLog.last sampleRead.extentId
      (performed (jsonExternals sampleBlake3) .checked sampleNode replacedFile)
      = some ⟨1, sampleDisk, [1]⟩ := by
    rw [replacedFile, performed, performedBy, executed_sampleWrite]
    rfl
  have hfree : ∀ data, (jsonExternals sampleBlake3).checksum data
      = (jsonExternals sampleBlake3).checksum [1] → data = [1] := by
    intro data h
    have hdigest : sampleBlake3 data = sampleBlake3 [1] := digest_eq_of_checksum_eq h
    unfold sampleBlake3 at hdigest
    split at hdigest
    · rfl
    · exact absurd hdigest (by decide)
    · exact absurd hdigest (by decide)
  rcases damaged_bytes_never_returned (jsonExternals sampleBlake3) .checked sampleNode replacedFile
    ⟨none, none⟩ sampleRead (.node ⟨2#128⟩) (by decide) _ hlast hfree with
    ⟨response, -, heq, -⟩ | ⟨hnone, -⟩
  · rw [heq]
    exact List.mem_cons_self
  · rw [hnone]
    exact List.mem_cons_of_mem _ List.mem_cons_self

end Blockyard.Storage
