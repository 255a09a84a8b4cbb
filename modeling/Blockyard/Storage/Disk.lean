/-
# The disk inventory

`blockyard-storage`, `disk.rs`, `health.rs` and the part of `region.rs` it uses: the disks of a
data node with their state, qualification, accumulated telemetry and bad regions, and the
operations that move them.  Discovery is left out -- it touches the operating system only --
except for the record it creates (`ManagedDisk.new`, `ManagedDisk.newQualifying`).
-/
import Blockyard.Storage.Extent

open Std

namespace Blockyard.Storage

/-! ## 1. Telemetry -/

structure DiskTelemetry where
  readErrors : Nat
  writeErrors : Nat
  checksumMismatches : Nat
  mediaErrors : Nat
  timeouts : Nat
  temperatureCelsius : Option Nat
  latencyP99Us : Option Nat
  deriving DecidableEq, Repr

def DiskTelemetry.default : DiskTelemetry := ⟨0, 0, 0, 0, 0, none, none⟩

structure HealthPolicy where
  suspectErrorThreshold : Nat
  degradedErrorThreshold : Nat
  failedErrorThreshold : Nat
  temperatureWarningCelsius : Nat
  temperatureCriticalCelsius : Nat
  deriving DecidableEq, Repr

def HealthPolicy.default : HealthPolicy := ⟨5, 20, 100, 60, 75⟩

structure DiskHealthTracker where
  diskId : DiskId
  cumulative : DiskTelemetry
  policy : HealthPolicy
  deriving DecidableEq, Repr

def DiskHealthTracker.new (diskId : DiskId) : DiskHealthTracker := ⟨diskId, .default, .default⟩

/-- `DiskHealthTracker::record`, on the accumulated counters.  The additions are made one by
one; `false` says that one of them panicked, with the earlier ones made. -/
def DiskTelemetry.accumulate (ovf : Overflow) (c t : DiskTelemetry) : DiskTelemetry × Bool :=
  match addU64 ovf c.readErrors t.readErrors with
  | none => (c, false)
  | some n =>
    let c := { c with readErrors := n }
    match addU64 ovf c.writeErrors t.writeErrors with
    | none => (c, false)
    | some n =>
      let c := { c with writeErrors := n }
      match addU64 ovf c.checksumMismatches t.checksumMismatches with
      | none => (c, false)
      | some n =>
        let c := { c with checksumMismatches := n }
        match addU64 ovf c.mediaErrors t.mediaErrors with
        | none => (c, false)
        | some n =>
          let c := { c with mediaErrors := n }
          match addU64 ovf c.timeouts t.timeouts with
          | none => (c, false)
          | some n =>
            ({ c with
                timeouts := n
                temperatureCelsius := t.temperatureCelsius.or c.temperatureCelsius
                latencyP99Us := t.latencyP99Us.or c.latencyP99Us }, true)

/-- `DiskHealthTracker::derive_state`; the outer `none` is a panic on the sum. -/
def DiskHealthTracker.deriveState (ovf : Overflow) (h : DiskHealthTracker) :
    Option (Option DiskState) := do
  let c := h.cumulative
  let totalErrors ← addU64 ovf c.readErrors c.writeErrors
  let totalErrors ← addU64 ovf totalErrors c.checksumMismatches
  let totalErrors ← addU64 ovf totalErrors c.mediaErrors
  if totalErrors ≥ h.policy.failedErrorThreshold then
    return some .failed
  if c.temperatureCelsius.any (· ≥ h.policy.temperatureCriticalCelsius) then
    return some .failed
  if totalErrors ≥ h.policy.degradedErrorThreshold then
    return some .degraded
  if c.temperatureCelsius.any (· ≥ h.policy.temperatureWarningCelsius) then
    return some .suspect
  if totalErrors ≥ h.policy.suspectErrorThreshold then
    return some .suspect
  return none

/-! ## 2. Disks -/

inductive QualificationState
  | pending
  | burnInRunning (startedAt : Nat)
  | qualified
  deriving DecidableEq, Repr

structure BadRegion where
  offset : Nat
  length : Nat
  deriving DecidableEq, Repr

structure ManagedDisk where
  diskId : DiskId
  mountPath : String
  state : DiskState
  qualification : QualificationState
  health : DiskHealthTracker
  badRegions : List BadRegion
  deriving DecidableEq, Repr

def ManagedDisk.new (diskId : DiskId) (mountPath : String) : ManagedDisk where
  diskId := diskId
  mountPath := mountPath
  state := .healthy
  qualification := .qualified
  health := .new diskId
  badRegions := []

def ManagedDisk.newQualifying (diskId : DiskId) (mountPath : String) : ManagedDisk where
  diskId := diskId
  mountPath := mountPath
  state := .suspect
  qualification := .pending
  health := .new diskId
  badRegions := []

/-! ## 3. The inventory -/

structure DiskInventory where
  disks : HashMap DiskId ManagedDisk
  drainQueue : List DiskId

namespace DiskInventory

def new : DiskInventory := ⟨∅, []⟩

def unknownDisk (diskId : DiskId) : StorageError := .diskNotFound s!"unknown disk: {diskId}"

variable (inv : DiskInventory) (diskId : DiskId)

def setDisk (disk : ManagedDisk) : DiskInventory :=
  { inv with disks := inv.disks.insert diskId disk }

/-- `transition_state`: a disk that becomes degraded moves on to draining and is queued for
evacuation. -/
def transitionState (newState : DiskState) : DiskInventory × Except StorageError DiskState :=
  match inv.disks[diskId]? with
  | none => (inv, .error (unknownDisk diskId))
  | some disk =>
    match disk.state.validateTransition newState with
    | .error e => (inv, .error (.invalidTransition (toString e)))
    | .ok () =>
      if newState = .degraded then
        let state :=
          match newState.validateTransition .draining with
          | .ok () => DiskState.draining
          | .error _ => newState
        let inv := inv.setDisk diskId { disk with state }
        ({ inv with drainQueue := inv.drainQueue ++ [diskId] }, .ok disk.state)
      else
        (inv.setDisk diskId { disk with state := newState }, .ok disk.state)

def allowsAllocation : Except StorageError Bool :=
  match inv.disks[diskId]? with
  | none => .error (unknownDisk diskId)
  | some disk => .ok (disk.state.allowsAllocation && disk.qualification = .qualified)

def allowsReads : Except StorageError Bool :=
  match inv.disks[diskId]? with
  | none => .error (unknownDisk diskId)
  | some disk => .ok disk.state.allowsReads

def getState : Except StorageError DiskState :=
  match inv.disks[diskId]? with
  | none => .error (unknownDisk diskId)
  | some disk => .ok disk.state

/-- `list_disks`, in the order one scan of the hash map visits the disks. -/
def listDisks (order : IterOrder DiskId) : List DiskId :=
  order.keys inv.disks

def hasBadRegions : Except StorageError Bool :=
  match inv.disks[diskId]? with
  | none => .error (unknownDisk diskId)
  | some disk => .ok (disk.badRegions.length > 0)

/-- `record_telemetry`; the answer `none` is a panic. -/
def recordTelemetry (ovf : Overflow) (inv : DiskInventory) (diskId : DiskId)
    (telemetry : DiskTelemetry) : DiskInventory × Option (Except StorageError Unit) :=
  match inv.disks[diskId]? with
  | none => (inv, some (.error (unknownDisk diskId)))
  | some disk =>
    let (cumulative, completed) := disk.health.cumulative.accumulate ovf telemetry
    let disk := { disk with health := { disk.health with cumulative } }
    let inv := inv.setDisk diskId disk
    if ¬ completed then (inv, none)
    else
      match disk.health.deriveState ovf with
      | none => (inv, none)
      | some none => (inv, some (.ok ()))
      | some (some derivedState) =>
        if derivedState ≠ disk.state ∧ disk.state.legal derivedState then
          (inv.setDisk diskId { disk with state := derivedState }, some (.ok ()))
        else (inv, some (.ok ()))

def completeQualification : DiskInventory × Except StorageError Unit :=
  match inv.disks[diskId]? with
  | none => (inv, .error (unknownDisk diskId))
  | some disk =>
    if disk.qualification = .qualified then (inv, .ok ())
    else
      let disk := { disk with qualification := .qualified }
      let disk := if disk.state = .suspect then { disk with state := .healthy } else disk
      (inv.setDisk diskId disk, .ok ())

def startBurnIn (now : Nat) : DiskInventory × Except StorageError Unit :=
  match inv.disks[diskId]? with
  | none => (inv, .error (unknownDisk diskId))
  | some disk =>
    if disk.qualification ≠ .pending then
      (inv, .error (.invalidTransition s!"disk {diskId} not in pending qualification state"))
    else (inv.setDisk diskId { disk with qualification := .burnInRunning now }, .ok ())

/-- `report_bad_region`: a region of length zero is ignored. -/
def reportBadRegion (offset length : Nat) : DiskInventory × Except StorageError Unit :=
  match inv.disks[diskId]? with
  | none => (inv, .error (unknownDisk diskId))
  | some disk =>
    if length = 0 then (inv, .ok ())
    else
      (inv.setDisk diskId { disk with badRegions := disk.badRegions ++ [⟨offset, length⟩] }, .ok ())

def takeDrainQueue : DiskInventory × List DiskId :=
  ({ inv with drainQueue := [] }, inv.drainQueue)

/-! ## 4. The disks of an inventory -/

/-- The disks of an inventory are the disks of another, whatever their records say. -/
def SameDisks (inv inv' : DiskInventory) : Prop := ∀ d, d ∈ inv'.disks ↔ d ∈ inv.disks

theorem SameDisks.refl : SameDisks inv inv := fun _ => Iff.rfl

theorem sameDisks_setDisk {inv : DiskInventory} {diskId : DiskId} {disk disk' : ManagedDisk}
    (h : inv.disks[diskId]? = some disk) : SameDisks inv (inv.setDisk diskId disk') := by
  intro d
  simp only [setDisk, ExtTreeMap.mem_insert, LawfulEqOrd.compare_eq_iff_eq]
  refine ⟨?_, Or.inr⟩
  rintro (rfl | hd)
  · exact mem_of_getElem? h
  · exact hd

end DiskInventory

end Blockyard.Storage
