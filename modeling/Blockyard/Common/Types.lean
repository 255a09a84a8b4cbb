/-
# The shared types of `blockyard-common`

Errors and their texts (`error.rs`), protection policies (`protection.rs`), disk states and
their transition table (`disk_state.rs`), volume leases (`lease.rs`), the per-volume access
control list (`auth.rs`) and checksums (`checksum.rs`).  Everything here is a direct
transcription; the only results are the facts later modules read off these tables instead of
unfolding them.
-/
import Blockyard.Common.Id

open Std

namespace Blockyard

/-! ## 1. Errors -/

/-- `blockyard_common::error::Error`.  An I/O error is known by the text the operating system
gives it. -/
inductive Error
  | io (text : String)
  | config (msg : String)
  | raft (msg : String)
  | storage (msg : String)
  | network (msg : String)
  | protocol (msg : String)
  | auth (msg : String)
  deriving DecidableEq, Repr

instance : ToString Error where
  toString
    | .io m => s!"io error: {m}"
    | .config m => s!"config error: {m}"
    | .raft m => s!"raft error: {m}"
    | .storage m => s!"storage error: {m}"
    | .network m => s!"network error: {m}"
    | .protocol m => s!"protocol error: {m}"
    | .auth m => s!"auth error: {m}"

/-! ## 2. Protection policies -/

/-- `ProtectionPolicy`: N-way replication, or erasure coding with K data and M parity chunks. -/
inductive ProtectionPolicy
  | replicated (replicas : Nat)
  | erasureCoded (dataChunks parityChunks : Nat)
  deriving DecidableEq, Repr

def ProtectionPolicy.validate : ProtectionPolicy → Except Error Unit
  | .replicated replicas =>
    if replicas < 1 then .error (.config "replicated policy requires at least 1 replica")
    else .ok ()
  | .erasureCoded dataChunks parityChunks =>
    if dataChunks < 1 then .error (.config "erasure coding requires at least 1 data chunk")
    else if parityChunks < 1 then
      .error (.config "erasure coding requires at least 1 parity chunk")
    else .ok ()

/-! ## 3. Disk states -/

inductive DiskState
  | healthy | suspect | degraded | draining | failed | removed
  deriving DecidableEq, Repr

instance : ToString DiskState where
  toString
    | .healthy => "healthy"
    | .suspect => "suspect"
    | .degraded => "degraded"
    | .draining => "draining"
    | .failed => "failed"
    | .removed => "removed"

def DiskState.allowsAllocation : DiskState → Bool
  | .healthy | .suspect => true
  | _ => false

def DiskState.allowsReads : DiskState → Bool
  | .healthy | .suspect | .degraded | .draining => true
  | _ => false

/-- The transition table of `DiskState::validate_transition`, staying put included. -/
def DiskState.legal : DiskState → DiskState → Bool
  | .healthy, new => new ∈ [.healthy, .suspect, .degraded, .draining, .failed]
  | .suspect, new => new ∈ [.suspect, .healthy, .degraded, .draining, .failed]
  | .degraded, new => new ∈ [.degraded, .draining, .failed, .removed]
  | .draining, new => new ∈ [.draining, .failed, .removed]
  | .failed, new => new ∈ [.failed, .removed]
  | .removed, new => new ∈ [.removed]

def DiskState.validateTransition (self new : DiskState) : Except Error Unit :=
  if self.legal new then .ok ()
  else .error (.storage s!"illegal disk state transition: {self} → {new}")

theorem DiskState.allowsAllocation_iff (s : DiskState) :
    s.allowsAllocation = true ↔ s = .healthy ∨ s = .suspect := by
  cases s <;> decide

/-! ## 4. Volume leases -/

abbrev LeaseVersion := Nat

structure VolumeLease where
  volumeId : VolumeId
  holder : SessionId
  grantedAtMs : Nat
  expiresAtMs : Nat
  leaseVersion : LeaseVersion
  deriving DecidableEq, Repr

def VolumeLease.isExpired (l : VolumeLease) (nowMs : Nat) : Bool := nowMs ≥ l.expiresAtMs

def VolumeLease.isHeldBy (l : VolumeLease) (sessionId : SessionId) : Bool := l.holder = sessionId

inductive LeaseRequest
  | acquire (volumeId : VolumeId) (sessionId : SessionId) (nowMs ttlMs : Nat)
  | renew (volumeId : VolumeId) (sessionId : SessionId) (nowMs ttlMs : Nat)
  | release (volumeId : VolumeId) (sessionId : SessionId)
  deriving DecidableEq, Repr

inductive LeaseResponse
  | granted (leaseVersion : LeaseVersion) (expiresAtMs : Nat)
  | renewed (leaseVersion : LeaseVersion) (expiresAtMs : Nat)
  | released
  | denied (reason : String)
  deriving DecidableEq, Repr

/-! ## 5. Access control -/

/-- `PeerIdentity`: who is on the other end of a connection. -/
inductive PeerIdentity
  | client (sessionId : SessionId)
  | node (nodeId : NodeId)
  deriving DecidableEq, Repr

instance : ToString PeerIdentity where
  toString
    | .client sid => s!"client:{sid}"
    | .node nid => s!"node:{nid}"

structure VolumePermission where
  read : Bool
  write : Bool
  deriving DecidableEq, Repr

/-- `VolumeAcl`: per volume, the permission of each identity under its printed form. -/
structure VolumeAcl where
  acls : HashMap VolumeId (HashMap String VolumePermission)

def VolumeAcl.new : VolumeAcl := ⟨∅⟩

def VolumeAcl.grant (acl : VolumeAcl) (volumeId : VolumeId) (identity : String)
    (permission : VolumePermission) : VolumeAcl :=
  ⟨acl.acls.insert volumeId (((acl.acls[volumeId]?).getD ∅).insert identity permission)⟩

/-- `VolumeAcl::revoke`: a volume whose last entry goes is dropped from the list. -/
def VolumeAcl.revoke (acl : VolumeAcl) (volumeId : VolumeId) (identity : String) : VolumeAcl :=
  match acl.acls[volumeId]? with
  | none => acl
  | some volAcl =>
    let volAcl := volAcl.erase identity
    ⟨if volAcl.isEmpty then acl.acls.erase volumeId else acl.acls.insert volumeId volAcl⟩

def VolumeAcl.removeVolume (acl : VolumeAcl) (volumeId : VolumeId) : VolumeAcl :=
  ⟨acl.acls.erase volumeId⟩

/-- The permission `check_read` and `check_write` look up; nodes are never looked up. -/
def VolumeAcl.permission (acl : VolumeAcl) (volumeId : VolumeId) (identity : PeerIdentity) :
    Option VolumePermission :=
  acl.acls[volumeId]?.bind fun volAcl => volAcl[toString identity]?

def VolumeAcl.checkRead (acl : VolumeAcl) (volumeId : VolumeId) : PeerIdentity → Bool
  | .node _ => true
  | .client sid => (acl.permission volumeId (.client sid)).any (·.read)

def VolumeAcl.checkWrite (acl : VolumeAcl) (volumeId : VolumeId) : PeerIdentity → Bool
  | .node _ => true
  | .client sid => (acl.permission volumeId (.client sid)).any (·.write)

/-! ## 6. Checksums -/

abbrev Bytes := List UInt8

/-- `compute_checksum` (`checksum.rs`): the 64 hexadecimal digits of the BLAKE3 digest.  The
digest function is the `blake3` crate's; its 32 bytes are read as one number, first byte
highest. -/
def computeChecksum (blake3 : Bytes → BitVec 256) (data : Bytes) : String :=
  String.ofList (hexDigits 64 (blake3 data).toNat)

end Blockyard
