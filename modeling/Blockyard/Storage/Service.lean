/-
# The data node service

`blockyard-storage`, `service.rs`: `DataNodeService` with its write and read handlers.  A
write passes, in this order: the volume's access control list, the dedup log, the epoch, the
cached lease, the choice of a disk, the payload checksum, the lookup of the disk's store,
staging and commit.  Every path but the duplicate one ends in `record_operation`; rejections
are recorded too.

What a call cannot know from its arguments and the service is passed to it (`WriteEnv`): the
order in which a hash map is scanned, a freshly generated disk id, the clock, and which
system calls fail.  The optional on-disk copy of the operation log is left out: it is written
and never read by the handlers, and a node is started without one.
-/
import Blockyard.Storage.Disk

open Std CrashFs

namespace Blockyard.Storage

/-! ## 1. Messages and state -/

structure WriteExtentRequest where
  operationId : OperationId
  sessionId : SessionId
  volumeId : VolumeId
  extentId : ExtentId
  extentVersion : ExtentVersion
  epoch : EpochId
  targetDiskId : Option DiskId
  checksum : String
  payloadSize : Nat
  leaseVersion : Option LeaseVersion
  deriving DecidableEq, Repr

structure WriteExtentResponse where
  operationId : OperationId
  extentId : ExtentId
  extentVersion : ExtentVersion
  diskId : DiskId
  success : Bool
  checksum : String
  error : Option String
  deriving DecidableEq, Repr

structure ReadExtentRequest where
  operationId : OperationId
  sessionId : SessionId
  volumeId : VolumeId
  extentId : ExtentId
  extentVersion : ExtentVersion
  epoch : EpochId
  offset : Nat
  length : Nat
  deriving DecidableEq, Repr

structure ReadExtentResponse where
  operationId : OperationId
  extentId : ExtentId
  extentVersion : ExtentVersion
  success : Bool
  checksum : String
  payloadSize : Nat
  error : Option String
  deriving DecidableEq, Repr

/-- `OperationRecord`: an entry of the dedup log. -/
structure OperationRecord where
  operationId : OperationId
  extentId : ExtentId
  extentVersion : ExtentVersion
  diskId : DiskId
  checksum : String
  success : Bool
  deriving DecidableEq, Repr

structure CachedLease where
  sessionId : SessionId
  leaseVersion : LeaseVersion
  deriving DecidableEq, Repr

structure DataNodeService where
  currentEpoch : EpochId
  operationLog : HashMap OperationId OperationRecord
  stores : HashMap DiskId ExtentStore
  inventory : DiskInventory
  index : ExtentIndex
  leaseCache : HashMap VolumeId CachedLease
  volumeAcl : VolumeAcl

/-- What the environment decides during one write. -/
structure WriteEnv where
  /-- `DiskId::generate`, for a rejected write without target disk. -/
  freshDiskId : DiskId
  /-- The scan of the inventory. -/
  diskOrder : IterOrder DiskId
  /-- The scan of the operation log when it is trimmed. -/
  evictOrder : IterOrder OperationId
  stageFault : Nat → Option Fault
  commitFault : Nat → Option Fault
  /-- The clock, in seconds, for the metadata file. -/
  committedAt : Nat

namespace DataNodeService

def new (inventory : DiskInventory) (index : ExtentIndex) (epoch : EpochId) :
    DataNodeService where
  currentEpoch := epoch
  operationLog := ∅
  stores := ∅
  inventory := inventory
  index := index
  leaseCache := ∅
  volumeAcl := .new

def registerStore (s : DataNodeService) (diskId : DiskId) (store : ExtentStore) :
    DataNodeService := { s with stores := s.stores.insert diskId store }

def setEpoch (s : DataNodeService) (epoch : EpochId) : DataNodeService :=
  { s with currentEpoch := epoch }

/-! ## 2. The operation log -/

def checkDuplicate (s : DataNodeService) (opId : OperationId) : Option OperationRecord :=
  s.operationLog[opId]?

def maxOperationLogSize : Nat := 10000

/-- The trimming in `record_operation`: a log that has grown past its limit loses the entries
a scan of the hash map visits first. -/
def trimLog (evictOrder : IterOrder OperationId) (log : HashMap OperationId OperationRecord) :
    HashMap OperationId OperationRecord :=
  if log.size > maxOperationLogSize then
    let evictCount := log.size - maxOperationLogSize + maxOperationLogSize / 10
    let keysToRemove := (evictOrder.keys log).take evictCount
    keysToRemove.foldl (fun log key => log.erase key) log
  else log

/-- `record_operation`: insert, then trim. -/
def recordOperation (evictOrder : IterOrder OperationId) (s : DataNodeService)
    (record : OperationRecord) : DataNodeService :=
  { s with
    operationLog := trimLog evictOrder (s.operationLog.insert record.operationId record) }

def failureRecord (env : WriteEnv) (request : WriteExtentRequest) : OperationRecord where
  operationId := request.operationId
  extentId := request.extentId
  extentVersion := request.extentVersion
  diskId := request.targetDiskId.getD env.freshDiskId
  checksum := ""
  success := false

/-- `write_error`: the rejection is recorded under the operation id. -/
def writeError (env : WriteEnv) (s : DataNodeService) (request : WriteExtentRequest)
    (message : String) : DataNodeService × WriteExtentResponse :=
  (s.recordOperation env.evictOrder (failureRecord env request),
    { operationId := request.operationId
      extentId := request.extentId
      extentVersion := request.extentVersion
      diskId := request.targetDiskId.getD env.freshDiskId
      success := false
      checksum := ""
      error := some message })

/-- The answer to a write whose operation id is in the log. -/
def duplicateResponse (opId : OperationId) (record : OperationRecord) : WriteExtentResponse where
  operationId := opId
  extentId := record.extentId
  extentVersion := record.extentVersion
  diskId := record.diskId
  success := record.success
  checksum := record.checksum
  error := if record.success then none else some "previous attempt failed"

/-! ## 3. Gates -/

def validateEpoch (s : DataNodeService) (requestEpoch : EpochId) : Except String Unit :=
  if requestEpoch < s.currentEpoch then
    .error s!"stale epoch: request epoch {requestEpoch} < current {s.currentEpoch}"
  else .ok ()

/-- `validate_epoch_for_read`: one epoch of tolerance. -/
def validateEpochForRead (s : DataNodeService) (requestEpoch : EpochId) : Except String Unit :=
  if saturatingAdd requestEpoch 1 < s.currentEpoch then
    .error (s!"stale epoch for read: request epoch {requestEpoch} < current {s.currentEpoch} "
      ++ "(tolerance exceeded)")
  else .ok ()

def validateWriteLease (s : DataNodeService) (request : WriteExtentRequest) :
    Except String Unit :=
  match s.leaseCache[request.volumeId]? with
  | none => .ok ()
  | some cached =>
    match request.leaseVersion with
    | none =>
      .error s!"volume {request.volumeId} requires lease, but write has no lease_version"
    | some requestVersion =>
      if request.sessionId ≠ cached.sessionId then
        .error (s!"lease for volume {request.volumeId} held by session {cached.sessionId}, "
          ++ s!"write from {request.sessionId}")
      else if requestVersion < cached.leaseVersion then
        .error (s!"stale lease version for volume {request.volumeId}: "
          ++ s!"request has {requestVersion}, current is {cached.leaseVersion}")
      else .ok ()

/-- The first Healthy and the first Suspect candidate seen so far. -/
abbrev Candidates := Option DiskId × Option DiskId

/-- One iteration of the scan in `select_write_disk`. -/
def considerDisk (inv : DiskInventory) (c : Candidates) (diskId : DiskId) : Candidates :=
  match inv.allowsAllocation diskId with
  | .error _ | .ok false => c
  | .ok true =>
    match inv.hasBadRegions diskId with
    | .error _ | .ok true => c
    | .ok false =>
      match inv.getState diskId, c with
      | .ok .healthy, (none, suspect) => (some diskId, suspect)
      | .ok .suspect, (healthy, none) => (healthy, some diskId)
      | _, _ => c

def selectWriteDisk (order : IterOrder DiskId) (inv : DiskInventory) :
    Option DiskId → Except StorageError DiskId
  | some diskId =>
    match inv.allowsAllocation diskId with
    | .error e => .error e
    | .ok true =>
      match inv.hasBadRegions diskId with
      | .ok true =>
        .error (.allocationDenied s!"preferred disk {diskId} has quarantined bad regions")
      | _ => .ok diskId
    | .ok false =>
      .error (.allocationDenied s!"preferred disk {diskId} does not allow allocation")
  | none =>
    match (inv.listDisks order).foldl (considerDisk inv) (none, none) with
    | (some id, _) => .ok id
    | (none, some id) => .ok id
    | (none, none) => .error (.allocationDenied "no eligible disks for allocation")

/-- `str::contains`. -/
def containsText (text pattern : String) : Bool :=
  text.toList.tails.any fun t => pattern.toList.isPrefixOf t

/-- `handle_xfs_error`: what the text of an error does to the disk. -/
def handleXfsError (s : DataNodeService) (diskId : DiskId) (error : StorageError) :
    DataNodeService :=
  let text := toString error
  if containsText text "No space left" || containsText text "read-only"
      || containsText text "Structure needs cleaning" then
    { s with inventory := (s.inventory.transitionState diskId .failed).1 }
  else if containsText text "Input/output error" then
    { s with inventory := (s.inventory.transitionState diskId .degraded).1 }
  else s

/-! ## 4. Writes -/

variable (x : Externals)

/-- The end of `handle_write`, from the lookup of the store on. -/
def performWrite (env : WriteEnv) (s : DataNodeService) (request : WriteExtentRequest)
    (payload : Bytes) (diskId : DiskId) : DataNodeService × WriteExtentResponse :=
  match s.stores[diskId]? with
  | none => s.writeError env request s!"no extent store for disk {diskId}"
  | some store =>
    match store.stageExtent x env.stageFault request.extentId request.extentVersion payload with
    | (store, .error e) =>
      let s := { s with stores := s.stores.insert diskId store }
      (s.handleXfsError diskId e).writeError env request s!"staging failed: {e}"
    | (store, .ok (_, checksum)) =>
      match store.commitExtent x env.commitFault env.committedAt request.extentId
          request.extentVersion checksum payload.length .default with
      | (store, .error e) =>
        let s := { s with stores := s.stores.insert diskId store }
        (s.handleXfsError diskId e).writeError env request s!"commit failed: {e}"
      | (store, .ok entry) =>
        let s := { s with
          stores := s.stores.insert diskId store
          index := s.index.upsert entry }
        let record : OperationRecord := {
          operationId := request.operationId
          extentId := request.extentId
          extentVersion := request.extentVersion
          diskId
          checksum
          success := true }
        (s.recordOperation env.evictOrder record,
          { operationId := request.operationId
            extentId := request.extentId
            extentVersion := request.extentVersion
            diskId
            success := true
            checksum
            error := none })

def handleWrite (env : WriteEnv) (s : DataNodeService) (request : WriteExtentRequest)
    (payload : Bytes) (caller : PeerIdentity) : DataNodeService × WriteExtentResponse :=
  if ¬ s.volumeAcl.checkWrite request.volumeId caller then
    s.writeError env request
      s!"write denied: {caller} not authorized for volume {request.volumeId}"
  else
    match s.checkDuplicate request.operationId with
    | some record => (s, duplicateResponse request.operationId record)
    | none =>
      match s.validateEpoch request.epoch with
      | .error msg => s.writeError env request msg
      | .ok () =>
        match s.validateWriteLease request with
        | .error msg => s.writeError env request msg
        | .ok () =>
          match selectWriteDisk env.diskOrder s.inventory request.targetDiskId with
          | .error e => s.writeError env request (toString e)
          | .ok diskId =>
            let payloadChecksum := x.checksum payload
            if request.checksum ≠ payloadChecksum then
              s.writeError env request (s!"payload checksum mismatch: expected {request.checksum}, "
                ++ s!"got {payloadChecksum}")
            else s.performWrite x env request payload diskId

/-! ## 5. Reads -/

def readError (request : ReadExtentRequest) (message : String) : ReadExtentResponse where
  operationId := request.operationId
  extentId := request.extentId
  extentVersion := request.extentVersion
  success := false
  checksum := ""
  payloadSize := 0
  error := some message

def handleReadError (s : DataNodeService) (diskId : DiskId) : StorageError → DataNodeService
  | .checksumMismatch _ =>
    { s with inventory := (s.inventory.transitionState diskId .suspect).1 }
  | .io _ => { s with inventory := (s.inventory.transitionState diskId .degraded).1 }
  | _ => s

/-- A vector of `n` zero bytes; a length above `isize::MAX` panics. -/
def zeroVec (n : Nat) : Option Bytes :=
  if n < 2 ^ 63 then some (List.replicate n 0) else none

/-- The part of the stored bytes a read asks for; `none` is a panic, on the sum of offset and
length, on a slice that ends before it starts, or on an allocation that cannot be made. -/
def readWindow (ovf : Overflow) (data : Bytes) (offset length : Nat) : Option Bytes :=
  if offset = 0 ∧ length = 0 then some data
  else
    match addU64 ovf offset length with
    | none => none
    | some stop =>
      if offset ≥ data.length then (subU64 ovf stop offset).bind zeroVec
      else if stop > data.length then
        (zeroVec (stop - offset)).map fun _ =>
          data.drop offset ++ List.replicate (stop - data.length) 0
      else if stop < offset then none
      else some ((data.drop offset).take (stop - offset))

/-- `handle_read`; the answer `none` is a panic. -/
def handleRead (ovf : Overflow) (fault : ExtentStore.ReadFault) (s : DataNodeService)
    (request : ReadExtentRequest) (caller : PeerIdentity) :
    DataNodeService × Option (ReadExtentResponse × Option Bytes) :=
  let fail (s : DataNodeService) (message : String) :
      DataNodeService × Option (ReadExtentResponse × Option Bytes) :=
    (s, some (readError request message, none))
  if ¬ s.volumeAcl.checkRead request.volumeId caller then
    fail s s!"read denied: {caller} not authorized for volume {request.volumeId}"
  else
    match s.validateEpochForRead request.epoch with
    | .error msg => fail s msg
    | .ok () =>
      match s.index[request.extentId]? with
      | none => fail s s!"extent {request.extentId} not found"
      | some entry =>
        if entry.version ≠ request.extentVersion then
          fail s s!"version mismatch: requested {request.extentVersion}, have {entry.version}"
        else
          match s.inventory.allowsReads entry.diskId with
          | .ok false =>
            fail { s with inventory := (s.inventory.transitionState entry.diskId .failed).1 }
              s!"disk {entry.diskId} not readable"
          | _ =>
            match s.stores[entry.diskId]? with
            | none => fail s s!"no extent store for disk {entry.diskId}"
            | some store =>
              match store.readExtent x fault request.extentId request.extentVersion with
              | .error e => fail (s.handleReadError entry.diskId e) s!"read failed: {e}"
              | .ok (data, readChecksum) =>
                if readChecksum ≠ entry.checksum then
                  fail { s with inventory := (s.inventory.transitionState entry.diskId .suspect).1 }
                    s!"checksum mismatch: expected {entry.checksum}, got {readChecksum}"
                else
                  (s, (readWindow ovf data request.offset request.length).map fun payload =>
                    ({ operationId := request.operationId
                       extentId := request.extentId
                       extentVersion := request.extentVersion
                       success := true
                       checksum := readChecksum
                       payloadSize := payload.length
                       error := none }, some payload))

/-! ## 6. Leases -/

/-- `update_lease`: a version that is not newer is ignored. -/
def updateLease (s : DataNodeService) (volumeId : VolumeId) (sessionId : SessionId)
    (leaseVersion : LeaseVersion) : DataNodeService :=
  match s.leaseCache[volumeId]? with
  | some existing =>
    if existing.leaseVersion ≥ leaseVersion then s
    else { s with leaseCache := s.leaseCache.insert volumeId ⟨sessionId, leaseVersion⟩ }
  | none => { s with leaseCache := s.leaseCache.insert volumeId ⟨sessionId, leaseVersion⟩ }

def revokeLease (s : DataNodeService) (volumeId : VolumeId) : DataNodeService :=
  { s with leaseCache := s.leaseCache.erase volumeId }

end DataNodeService

/-! ## 7. Runs -/

/-- What can happen to a data node: a write, a read, a change of its epoch, its access
control list, its leases or its disks. -/
inductive NodeOp
  | write (env : WriteEnv) (request : WriteExtentRequest) (payload : Bytes)
      (caller : PeerIdentity)
  | read (fault : ExtentStore.ReadFault) (request : ReadExtentRequest) (caller : PeerIdentity)
  | setEpoch (epoch : EpochId)
  | grant (volumeId : VolumeId) (identity : String) (permission : VolumePermission)
  | revoke (volumeId : VolumeId) (identity : String)
  | removeVolume (volumeId : VolumeId)
  | updateLease (volumeId : VolumeId) (sessionId : SessionId) (leaseVersion : LeaseVersion)
  | revokeLease (volumeId : VolumeId)
  | transitionState (diskId : DiskId) (state : DiskState)
  | recordTelemetry (diskId : DiskId) (telemetry : DiskTelemetry)
  | completeQualification (diskId : DiskId)
  | startBurnIn (diskId : DiskId) (now : Nat)
  | reportBadRegion (diskId : DiskId) (offset length : Nat)
  | takeDrainQueue

/-- The answers the data plane sees. -/
inductive NodeAnswer
  | write (response : WriteExtentResponse)
  | read (answer : Option (ReadExtentResponse × Option Bytes))
  | done

def nodeStep (x : Externals) (ovf : Overflow) (s : DataNodeService) :
    NodeOp → DataNodeService × NodeAnswer
  | .write env request payload caller =>
    let (s, response) := s.handleWrite x env request payload caller
    (s, .write response)
  | .read fault request caller =>
    let (s, answer) := s.handleRead x ovf fault request caller
    (s, .read answer)
  | .setEpoch epoch => (s.setEpoch epoch, .done)
  | .grant volumeId identity permission =>
    ({ s with volumeAcl := s.volumeAcl.grant volumeId identity permission }, .done)
  | .revoke volumeId identity =>
    ({ s with volumeAcl := s.volumeAcl.revoke volumeId identity }, .done)
  | .removeVolume volumeId =>
    ({ s with volumeAcl := s.volumeAcl.removeVolume volumeId }, .done)
  | .updateLease volumeId sessionId leaseVersion =>
    (s.updateLease volumeId sessionId leaseVersion, .done)
  | .revokeLease volumeId => (s.revokeLease volumeId, .done)
  | .transitionState diskId state =>
    ({ s with inventory := (s.inventory.transitionState diskId state).1 }, .done)
  | .recordTelemetry diskId telemetry =>
    ({ s with inventory := (s.inventory.recordTelemetry ovf diskId telemetry).1 }, .done)
  | .completeQualification diskId =>
    ({ s with inventory := (s.inventory.completeQualification diskId).1 }, .done)
  | .startBurnIn diskId now =>
    ({ s with inventory := (s.inventory.startBurnIn diskId now).1 }, .done)
  | .reportBadRegion diskId offset length =>
    ({ s with inventory := (s.inventory.reportBadRegion diskId offset length).1 }, .done)
  | .takeDrainQueue => ({ s with inventory := s.inventory.takeDrainQueue.1 }, .done)

end Blockyard.Storage
