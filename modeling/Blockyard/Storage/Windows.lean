/-
# Windows of an extent

`blockyard-storage`, `service.rs`, the end of `handle_read`: which bytes a read with an offset and
a length returns.  Stored bytes are followed by zeros, since an extent may be partly written, and
the window is cut out of that.

Offset and length are any two `u64` the client sends.  Where a window is cut out at all it is the
right one (`exact_of_readWindow`).  It is not always cut out: the end `offset + length` may exceed
a `u64`, and a window of zeros may exceed what a vector can hold.  The handler checks neither, so
such a request PANICS in the node (`window_exact_iff`).
-/
import Blockyard.Storage.Corruption

open Std CrashFs Machine

namespace Blockyard.Storage

open DataNodeService

/-! ## 1. Requests that reach the bytes -/

/-- A read that passes the checks of the node, and the payload that is stored. -/
structure ReadPasses (x : Externals) (fault : ExtentStore.ReadFault) (s : DataNodeService)
    (request : ReadExtentRequest) (caller : PeerIdentity) (data : Bytes) : Prop where
  gates : ReadGates s request caller
  stored : ∃ entry store, s.index[request.extentId]? = some entry ∧
    entry.version = request.extentVersion ∧ s.inventory.allowsReads entry.diskId ≠ .ok false ∧
    s.stores[entry.diskId]? = some store ∧
    store.readExtent x fault request.extentId request.extentVersion = .ok (data, entry.checksum)

theorem handleRead_of_passes {x : Externals} {fault : ExtentStore.ReadFault}
    {s : DataNodeService} {request : ReadExtentRequest} {caller : PeerIdentity} {data : Bytes}
    (h : ReadPasses x fault s request caller data) (ovf : Overflow) :
    ∃ checksum, (s.handleRead x ovf fault request caller).2
      = (readWindow ovf data request.offset request.length).map fun payload =>
        ({ operationId := request.operationId
           extentId := request.extentId
           extentVersion := request.extentVersion
           success := true
           checksum := checksum
           payloadSize := payload.length
           error := none }, some payload) := by
  obtain ⟨entry, store, hentry, hversion, hreads, hstore, hdata⟩ := h.stored
  refine ⟨entry.checksum, ?_⟩
  unfold handleRead
  rw [if_neg (by simpa using h.gates.acl)]
  simp only [h.gates.epoch, hentry, hversion, ne_eq, not_true_eq_false, if_false, hstore, hdata]

/-! ## 2. What is cut out -/

/-- **The window a request asks for**: the whole payload for a request without offset and length,
and otherwise `length` bytes, with zeros behind the payload. -/
structure ExactWindow (request : ReadExtentRequest) (data bytes : Bytes) : Prop where
  whole : request.offset = 0 ∧ request.length = 0 → bytes = data
  length : ¬ (request.offset = 0 ∧ request.length = 0) → bytes.length = request.length
  byte : ¬ (request.offset = 0 ∧ request.length = 0) → ∀ i < request.length,
    bytes[i]? = some (data.getD (request.offset + i) 0)

theorem exact_windowOf (request : ReadExtentRequest) (data : Bytes) :
    ExactWindow request data (request.windowOf data) := by
  unfold ReadExtentRequest.windowOf
  refine ⟨fun h => if_pos h, fun h => ?_, fun h i hi => ?_⟩
  · rw [if_neg h]
    simp only [List.length_take, List.length_drop, List.length_append, List.length_replicate]
    omega
  · rw [if_neg h, List.getElem?_take_of_lt hi, List.getElem?_drop]
    by_cases hin : request.offset + i < data.length
    · rw [List.getElem?_append_left hin, List.getD_eq_getElem?_getD,
        List.getElem?_eq_getElem hin]
      rfl
    · rw [List.getElem?_append_right (by omega), List.getElem?_replicate_of_lt (by omega),
        List.getD_eq_default _ _ (by omega)]

/-- Zeros are the window of a request behind the payload. -/
theorem exact_replicate {request : ReadExtentRequest} {data : Bytes}
    (hbehind : data.length ≤ request.offset) (hsome : 0 < request.length) :
    ExactWindow request data (List.replicate request.length 0) := by
  refine ⟨fun h => absurd h.2 hsome.ne', fun _ => List.length_replicate, fun _ i hi => ?_⟩
  rw [List.getElem?_replicate_of_lt hi, List.getD_eq_default _ _ (by omega)]

/-- A sum that wraps, and the difference that unwraps it. -/
theorem sub_of_wrapped {offset length : Nat} (ho : offset < 2 ^ 64) (hl : length < 2 ^ 64)
    (hover : ¬ offset + length < 2 ^ 64) :
    addU64 .wrapping offset length = some (offset + length - 2 ^ 64) ∧
      subU64 .wrapping (offset + length - 2 ^ 64) offset = some length := by
  constructor
  · rw [addU64, if_neg hover]
    exact congrArg some (by omega)
  · rw [subU64, if_neg (by omega)]
    exact congrArg some (by omega)

/-- **When a window is cut out**: the sum fits, or it wraps harmlessly because the window lies
behind the payload anyway; and the window fits in a vector. -/
def Served (ovf : Overflow) (data : Bytes) (request : ReadExtentRequest) : Prop :=
  (request.offset = 0 ∧ request.length = 0) ∨
    request.length < 2 ^ 63 ∧ (request.offset + request.length < 2 ^ 64 ∨
      ovf = .wrapping ∧ data.length ≤ request.offset)

section Cut

variable {ovf : Overflow} {request : ReadExtentRequest} {data : Bytes}
  (ho : request.offset < 2 ^ 64) (hl : request.length < 2 ^ 64)

include ho hl

theorem readWindow_of_overflow (hover : ¬ request.offset + request.length < 2 ^ 64) :
    readWindow ovf data request.offset request.length
      = if ovf = .wrapping ∧ data.length ≤ request.offset then zeroVec request.length
        else none := by
  have hsome : ¬ (request.offset = 0 ∧ request.length = 0) := by omega
  unfold readWindow
  rw [if_neg hsome]
  cases ovf with
  | checked =>
    rw [addU64, if_neg hover]
    rfl
  | wrapping =>
    obtain ⟨hadd, hsub⟩ := sub_of_wrapped ho hl hover
    rw [hadd]
    dsimp only
    by_cases hbehind : request.offset ≥ data.length
    · rw [if_pos hbehind, if_pos ⟨rfl, hbehind⟩, hsub, Option.bind_some]
    · -- the end wraps to a place before the start
      rw [if_neg hbehind, if_neg (by omega), if_pos (by omega), if_neg (fun h => hbehind h.2)]

/-- **What is cut out is the window.** -/
theorem exact_of_readWindow {bytes : Bytes}
    (h : readWindow ovf data request.offset request.length = some bytes) :
    ExactWindow request data bytes := by
  by_cases hover : request.offset + request.length < 2 ^ 64
  · rw [windowOf_eq_of_readWindow hover h]
    exact exact_windowOf request data
  · rw [readWindow_of_overflow ho hl hover] at h
    split at h
    · next hzeros =>
      rw [zeroVec] at h
      split at h
      · rw [← Option.some.inj h]
        exact exact_replicate hzeros.2 (by omega)
      · cases h
    · cases h

/-- **Whether it is cut out.** -/
theorem readWindow_eq_none_iff (hd : data.length < 2 ^ 63) :
    readWindow ovf data request.offset request.length = none ↔ ¬ Served ovf data request := by
  unfold Served
  by_cases hwhole : request.offset = 0 ∧ request.length = 0
  · rw [readWindow, if_pos hwhole]
    simp [hwhole]
  by_cases hover : request.offset + request.length < 2 ^ 64
  · have hsub : subU64 ovf (request.offset + request.length) request.offset
        = some request.length :=
      (if_pos (Nat.le_add_right _ _)).trans (by rw [Nat.add_sub_cancel_left])
    simp only [hwhole, false_or, hover, true_or, and_true]
    rw [readWindow, if_neg hwhole, addU64_of_lt ovf hover]
    dsimp only
    by_cases hbehind : request.offset ≥ data.length
    · rw [if_pos hbehind, hsub, Option.bind_some, zeroVec]
      split <;> simp_all
    rw [if_neg hbehind]
    by_cases hpart : request.offset + request.length > data.length
    · rw [if_pos hpart, Nat.add_sub_cancel_left, zeroVec]
      split <;> simp_all
    · -- the window lies in the payload, which is a vector
      rw [if_neg hpart, if_neg (by omega)]
      simp only [reduceCtorEq, false_iff, not_not]
      omega
  · rw [readWindow_of_overflow ho hl hover]
    simp only [hwhole, hover, false_or]
    split
    · next hzeros =>
      rw [zeroVec]
      split <;> simp_all
    · next hno => simp [hno]

end Cut

/-! ## 3. Answers -/

/-- The read does not panic, and returns the window with its size. -/
def AnswersExactly (x : Externals) (ovf : Overflow) (fault : ExtentStore.ReadFault)
    (s : DataNodeService) (request : ReadExtentRequest) (caller : PeerIdentity) (data : Bytes) :
    Prop :=
  ∃ response bytes, (s.handleRead x ovf fault request caller).2 = some (response, some bytes) ∧
    response.success = true ∧ response.payloadSize = bytes.length ∧
    ExactWindow request data bytes

/-- **WINDOW READS ARE EXACT** exactly for the windows that are served, for every stored payload
and every request that passes the checks. -/
theorem window_exact_iff (x : Externals) (ovf : Overflow) (fault : ExtentStore.ReadFault)
    (s : DataNodeService) (request : ReadExtentRequest) (caller : PeerIdentity) (data : Bytes)
    (ho : request.offset < 2 ^ 64) (hl : request.length < 2 ^ 64) (hd : data.length < 2 ^ 63)
    (hpasses : ReadPasses x fault s request caller data) :
    AnswersExactly x ovf fault s request caller data ↔ Served ovf data request := by
  obtain ⟨checksum, hread⟩ := handleRead_of_passes hpasses ovf
  have hnone : readWindow ovf data _ _ = none ↔ _ := readWindow_eq_none_iff ho hl hd
  unfold AnswersExactly
  rw [hread]
  cases hwindow : readWindow ovf data request.offset request.length with
  | none =>
    refine ⟨?_, fun hserved => absurd hserved (hnone.mp hwindow)⟩
    rintro ⟨response, bytes, hsome, -⟩
    cases hsome
  | some bytes =>
    refine ⟨fun _ => ?_, fun _ => ⟨_, bytes, rfl, rfl, rfl, exact_of_readWindow ho hl hwindow⟩⟩
    by_contra hno
    rw [hnone.mpr hno] at hwindow
    cases hwindow

/-! ### The sample node -/

def sampleWindow (offset length : Nat) : ReadExtentRequest := { sampleRead with offset, length }

theorem sampleWindow_passes (order : IterOrder OperationId) (offset length : Nat) :
    ReadPasses (jsonExternals sampleBlake3) ⟨none, none⟩ (sampleWritten order)
      (sampleWindow offset length) (.node ⟨2#128⟩) [1] := by
  unfold sampleWritten
  rw [sampleNode_handleWrite]
  refine ⟨⟨rfl, rfl⟩, _, _, ExtTreeMap.getElem?_insert_self, rfl, ?_,
    ExtTreeMap.getElem?_insert_self,
    (writtenStore_stored (trimEnv order) _ (sampleWrite ⟨21#128⟩ 1) [1]).readExtent⟩
  have hallows : sampleNode.inventory.allowsReads sampleDisk = .ok true := by decide
  change sampleNode.inventory.allowsReads sampleDisk ≠ _
  rw [hallows]
  exact fun h => by cases h

theorem window_exact_iff_three_bytes :
    Served .checked [1] (sampleWindow 0 3) ∧
      AnswersExactly (jsonExternals sampleBlake3) .checked ⟨none, none⟩ (sampleWritten (.sorted _))
        (sampleWindow 0 3) (.node ⟨2#128⟩) [1] := by
  have hserved : Served .checked [1] (sampleWindow 0 3) :=
    Or.inr ⟨by decide, Or.inl (by decide)⟩
  exact ⟨hserved, (window_exact_iff (jsonExternals sampleBlake3) .checked ⟨none, none⟩ _
    (sampleWindow 0 3) (.node ⟨2#128⟩) [1] (by decide) (by decide) (by decide)
    (sampleWindow_passes _ 0 3)).mpr hserved⟩

/-- **Two requests that pass every check and panic**: one whose end exceeds a `u64`, in a build
with overflow checks, and one of more zeros than a vector holds, in any build. -/
theorem huge_windows_panic :
    ((sampleWritten (.sorted _)).handleRead (jsonExternals sampleBlake3) .checked ⟨none, none⟩
        (sampleWindow (2 ^ 64 - 1) 2) (.node ⟨2#128⟩)).2 = none ∧
      ∀ ovf, ((sampleWritten (.sorted _)).handleRead (jsonExternals sampleBlake3) ovf ⟨none, none⟩
        (sampleWindow 0 (2 ^ 64 - 1)) (.node ⟨2#128⟩)).2 = none := by
  constructor
  · obtain ⟨checksum, hread⟩ := handleRead_of_passes
      (sampleWindow_passes (.sorted _) (2 ^ 64 - 1) 2) .checked
    have hnone : readWindow .checked [1] (2 ^ 64 - 1) 2 = none := by decide
    rw [hread, show (sampleWindow (2 ^ 64 - 1) 2).offset = 2 ^ 64 - 1 from rfl,
      show (sampleWindow (2 ^ 64 - 1) 2).length = 2 from rfl, hnone]
    rfl
  · intro ovf
    obtain ⟨checksum, hread⟩ := handleRead_of_passes
      (sampleWindow_passes (.sorted _) 0 (2 ^ 64 - 1)) ovf
    have hnone : readWindow ovf [1] 0 (2 ^ 64 - 1) = none := by cases ovf <;> decide
    rw [hread, show (sampleWindow 0 (2 ^ 64 - 1)).offset = 0 from rfl,
      show (sampleWindow 0 (2 ^ 64 - 1)).length = 2 ^ 64 - 1 from rfl, hnone]
    rfl

end Blockyard.Storage
