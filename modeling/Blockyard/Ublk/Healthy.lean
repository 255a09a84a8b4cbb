/-
# Nodes in good order

A data node takes writes of a volume and answers reads when it has an eligible disk with a
store, is not ahead of its clients in epochs, and has no lease cached for the volume
(`Healthy`).  `Holds` says what it holds for an extent: nothing, or a payload that a read
finds.

§2 is what such a node does with a write it has not seen, §3 what it answers to a read.
-/
import Blockyard.Ublk.Cluster

open Std CrashFs

namespace Blockyard.Ublk

open Storage DataNodeService

/-! ## 1. Nodes in good order -/

/-- The node takes writes of the volume at an epoch, and reads at epoch 0. -/
structure Healthy (volumeId : VolumeId) (epoch : EpochId) (svc : DataNodeService) : Prop where
  disk : ∃ d disk, Eligible svc.inventory d disk
  stores : ∀ d disk, Eligible svc.inventory d disk →
    ∃ store, svc.stores[d]? = some store ∧ store.diskId = d
  writeEpoch : svc.currentEpoch ≤ epoch
  readEpoch : svc.currentEpoch ≤ 1
  lease : svc.leaseCache[volumeId]? = none

def Holds (x : Externals) (svc : DataNodeService) (e : ExtentId) : Option Bytes → Prop
  | none => svc.index[e]? = none
  | some payload => ∃ d, CellStored x svc e ⟨PlacementEngine.extentVersion, d, payload⟩ ∧
    Readable svc d

/-- Nothing fails during a round trip. -/
structure Quiet (tick : Tick) : Prop where
  delivery : tick.delivery = .delivered
  stage : ∀ i, tick.writeEnv.stageFault i = none
  commit : ∀ i, tick.writeEnv.commitFault i = none
  read : tick.readFault = ⟨none, none⟩

theorem readable_of_eligible {svc : DataNodeService} {d : DiskId} {disk : ManagedDisk}
    (h : Eligible svc.inventory d disk) : Readable svc d := by
  refine ⟨disk, h.known, ?_⟩
  rcases h.state with hs | hs <;> rw [hs] <;> rfl

/-! ## 2. A write -/

section Write

variable {x : Externals} {volumeId : VolumeId} {epoch : EpochId} {svc : DataNodeService}
  {store : ExtentStore} {d : DiskId}

/-- **A healthy node executes a new write.** -/
theorem Healthy.handleWrite_eq (h : Healthy volumeId epoch svc) {env : WriteEnv}
    (hs : ∀ i, env.stageFault i = none) (hc : ∀ i, env.commitFault i = none) {call : WriteCall}
    (hv : call.volumeId = volumeId) (he : call.epoch = epoch)
    (hsum : call.checksum = x.checksum call.data)
    (hnew : svc.checkDuplicate call.operationId = none) (nodeId : NodeId) :
    ∃ d disk store, Eligible svc.inventory d disk ∧ svc.stores[d]? = some store ∧
      store.diskId = d ∧
      svc.handleWrite x env call.request call.data (.node nodeId)
        = ((writtenService x env svc store call.request call.data d).recordOperation env.evictOrder
            (successRecord call.request d (x.checksum call.data)),
          writeSuccess call.request d (x.checksum call.data)) := by
  obtain ⟨d₀, disk₀, hel₀⟩ := h.disk
  have hg : Gates x svc call.request call.data (.node nodeId) := by
    refine ⟨rfl, le_of_le_of_eq h.writeEpoch he.symm, ?_, hsum⟩
    intro cached hcached
    have hnone : svc.leaseCache[call.volumeId]? = none := hv ▸ h.lease
    rw [show call.request.volumeId = call.volumeId from rfl, hnone] at hcached
    cases hcached
  have htarget : ∀ t, call.request.targetDiskId = some t → d₀ = t := by
    intro t ht
    cases ht
  obtain ⟨d, hd⟩ := selectWriteDisk_of_eligible env.diskOrder hel₀ htarget
  obtain ⟨disk, hel⟩ := (chosen_of_selectWriteDisk hd).eligible
  obtain ⟨store, hst, hid⟩ := h.stores d disk hel
  refine ⟨d, disk, store, hel, hst, hid, ?_⟩
  have hnew' : svc.checkDuplicate call.request.operationId = none := hnew
  rw [handleWrite_of_gates hnew' hg hd, performWrite_of_no_fault hs hc hst]

theorem Healthy.written (h : Healthy volumeId epoch svc) (hid : store.diskId = d) (env : WriteEnv)
    (request : WriteExtentRequest) (payload : Bytes) (order : IterOrder OperationId)
    (record : OperationRecord) :
    Healthy volumeId epoch
      ((writtenService x env svc store request payload d).recordOperation order record) where
  disk := h.disk
  stores := by
    intro d' disk' hel'
    have hstores : ((writtenService x env svc store request payload d).recordOperation order
        record).stores = svc.stores.insert d (writtenStore x env store request payload) := rfl
    rw [hstores]
    by_cases hd : d = d'
    · subst hd
      exact ⟨_, ExtTreeMap.getElem?_insert_self, hid⟩
    · rw [getElem?_insert_of_ne _ hd]
      exact h.stores d' disk' hel'
  writeEpoch := h.writeEpoch
  readEpoch := h.readEpoch
  lease := h.lease

theorem holds_written {disk : ManagedDisk} (hel : Eligible svc.inventory d disk)
    (hid : store.diskId = d) (env : WriteEnv) {call : WriteCall}
    (hver : call.extentVersion = PlacementEngine.extentVersion) (order : IterOrder OperationId)
    (record : OperationRecord) :
    Holds x ((writtenService x env svc store call.request call.data d).recordOperation order
      record) call.extentId (some call.data) := by
  refine ⟨d, ⟨⟨_, ExtTreeMap.getElem?_insert_self, hver, hid, rfl⟩, ⟨_,
    ExtTreeMap.getElem?_insert_self, ?_⟩, mem_of_getElem? hel.known⟩, readable_of_eligible hel⟩
  have hst := writtenStore_stored (x := x) env store call.request call.data
  rw [show call.request.extentVersion = PlacementEngine.extentVersion from hver] at hst
  exact hst

theorem Holds.write_other (hst : svc.stores[d]? = some store) {e : ExtentId}
    {payload : Option Bytes} (h : Holds x svc e payload) (env : WriteEnv)
    {request : WriteExtentRequest} (he : request.extentId ≠ e) (data : Bytes)
    (order : IterOrder OperationId) (record : OperationRecord) :
    Holds x ((writtenService x env svc store request data d).recordOperation order record) e
      payload := by
  cases payload with
  | none => exact (getElem?_insert_of_ne _ he _).trans h
  | some payload =>
    obtain ⟨d', hcell, hread⟩ := h
    have hcell' : CellStored x (writtenService x env svc store request data d) e _ :=
      hcell.write_other hst he data
    exact ⟨d', ⟨hcell'.entry, hcell'.store, hcell'.known⟩, hread⟩

end Write

/-! ## 3. A read -/

section Read

variable {x : Externals} {volumeId : VolumeId} {epoch : EpochId} {svc : DataNodeService}

/-- A window that is not empty and ends below `2^64`: the stored bytes, filled up with zeros. -/
theorem readWindow_eq (ovf : Overflow) (data : Bytes) {offset length : Nat} (hpos : 0 < length)
    (hstop : offset + length < 2 ^ 64) (hlen : length < 2 ^ 63) :
    readWindow ovf data offset length = some (resize (data.drop offset) length) := by
  have hzero : zeroVec length = some (List.replicate length 0) := if_pos hlen
  have hsub : subU64 ovf (offset + length) offset = some length :=
    (if_pos (Nat.le_add_right _ _)).trans (by rw [Nat.add_sub_cancel_left])
  unfold readWindow
  rw [if_neg (by omega), addU64_of_lt ovf hstop]
  dsimp only
  by_cases hafter : offset ≥ data.length
  · -- the window starts behind the data
    rw [if_pos hafter, hsub, Option.bind_some, hzero, resize, List.drop_eq_nil_of_le hafter]
    simp
  rw [if_neg hafter]
  by_cases hover : offset + length > data.length
  · have hfill : offset + length - data.length = length - (data.length - offset) := by omega
    rw [if_pos hover, Nat.add_sub_cancel_left, hzero, Option.map_some, resize, List.length_drop,
      List.take_of_length_le (by rw [List.length_drop]; omega), hfill]
  · rw [if_neg hover, if_neg (by omega), Nat.add_sub_cancel_left, resize, List.length_drop,
      show length - (data.length - offset) = 0 by omega, List.replicate_zero, List.append_nil]

theorem Healthy.readGates (h : Healthy volumeId epoch svc) {request : ReadExtentRequest}
    (he : request.epoch = 0) (nodeId : NodeId) : ReadGates svc request (.node nodeId) where
  acl := rfl
  epoch := by
    have hle : svc.currentEpoch ≤ saturatingAdd 0 1 := h.readEpoch
    rw [validateEpochForRead, he, if_neg (Nat.not_lt.mpr hle)]

/-- A read of what is held finds its window; there is no answer from a node that holds nothing. -/
def ReadsAs {ε : Type} (held : Option Bytes) (window : Bytes → Bytes) (r : Except ε Bytes) : Prop :=
  match held with
  | some payload => r = .ok (window payload)
  | none => ∃ e, r = .error e

/-- **What a healthy node answers** to a read of an extent it holds, and of one it does not. -/
theorem Healthy.handleRead_answer (h : Healthy volumeId epoch svc) {payload : Option Bytes}
    {ovf : Overflow} {request : ReadExtentRequest} (he : request.epoch = 0)
    (hver : request.extentVersion = PlacementEngine.extentVersion)
    (hheld : Holds x svc request.extentId payload) {window : Bytes → Bytes}
    (hwindow : ∀ p, readWindow ovf p request.offset request.length = some (window p))
    (nodeId : NodeId) :
    ∃ answer, svc.handleRead x ovf ⟨none, none⟩ request (.node nodeId) = (svc, some answer) ∧
      ReadsAs payload window (readAnswer nodeId (some answer)) := by
  have hg := h.readGates he nodeId
  cases payload with
  | some payload =>
    obtain ⟨d, hcell, hread⟩ := hheld
    refine ⟨_, handleRead_of_window hg hcell hver.symm hread (hwindow payload), ?_⟩
    simp only [ReadsAs, readAnswer, readSuccess, if_true, Option.getD_some]
    split
    · rfl
    · rw [List.length_eq_zero_iff.mp (by omega : (window payload).length = 0)]
  | none =>
    refine ⟨(readError request s!"extent {request.extentId} not found", none), ?_, _, rfl⟩
    unfold DataNodeService.handleRead
    have hnone : svc.index[request.extentId]? = none := hheld
    rw [if_neg (by simpa using hg.acl)]
    simp only [hg.epoch, hnone]

end Read

end Blockyard.Ublk
