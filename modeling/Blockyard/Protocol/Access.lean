/-
# Access decisions and their history

`blockyard-common`, `auth.rs`: a `VolumeAcl` is changed by `grant`, `revoke` and `remove_volume`
and asked by `check_read` and `check_write`.  Permissions are filed under the PRINTED identity, so
the answer for one client depends on no other because no two identities print alike; that is read
off the parser of identities, which undoes the printing.
-/
import Blockyard.Protocol.Auth

open Std Machine

namespace Blockyard

/-- A change of an access control list; grants are made under the printed form of an identity. -/
inductive AclCall
  | grant (volumeId : VolumeId) (identity : PeerIdentity) (permission : VolumePermission)
  | revoke (volumeId : VolumeId) (identity : String)
  | removeVolume (volumeId : VolumeId)

namespace AclCall

/-- The call is about this volume and the printed form of this identity. -/
def Affects (volumeId : VolumeId) (identity : PeerIdentity) : AclCall → Prop
  | .grant v other _ => v = volumeId ∧ other = identity
  | .revoke v name => v = volumeId ∧ name = toString identity
  | .removeVolume v => v = volumeId

instance (volumeId : VolumeId) (identity : PeerIdentity) :
    (call : AclCall) → Decidable (call.Affects volumeId identity)
  | .grant _ _ _ | .revoke _ _ => inferInstanceAs (Decidable (_ ∧ _))
  | .removeVolume _ => inferInstanceAs (Decidable (_ = _))

def granted : AclCall → Option VolumePermission
  | .grant _ _ permission => some permission
  | .revoke _ _ | .removeVolume _ => none

end AclCall

theorem PeerIdentity.toString_injective {a b : PeerIdentity} (h : toString a = toString b) :
    a = b := by
  have hparse := Protocol.parseIdentity_toString .inverse a
  rw [h, Protocol.parseIdentity_toString] at hparse
  exact (Except.ok.inj hparse).symm

namespace VolumeAcl

def call (acl : VolumeAcl) : AclCall → VolumeAcl × Unit
  | .grant volumeId identity permission => (acl.grant volumeId (toString identity) permission, ())
  | .revoke volumeId identity => (acl.revoke volumeId identity, ())
  | .removeVolume volumeId => (acl.removeVolume volumeId, ())

def after (calls : List AclCall) : VolumeAcl := runState call .new calls

variable {volumeId : VolumeId} {identity : PeerIdentity} {calls : List AclCall}

/-- **What a call does to a permission**: all it says, or nothing. -/
theorem permission_call (acl : VolumeAcl) (c : AclCall) :
    (acl.call c).1.permission volumeId identity
      = if c.Affects volumeId identity then c.granted else acl.permission volumeId identity := by
  cases c with
  | grant v other permission =>
    by_cases hv : v = volumeId
    · subst hv
      by_cases hid : other = identity
      · subst hid
        simp [call, VolumeAcl.grant, VolumeAcl.permission, AclCall.Affects, AclCall.granted]
      · have hname : toString other ≠ toString identity := fun h =>
          hid (PeerIdentity.toString_injective h)
        cases hvol : acl.acls[v]? <;>
          simp [call, VolumeAcl.grant, VolumeAcl.permission, AclCall.Affects, hid, hvol,
            getElem?_insert_of_ne _ hname]
    · simp [call, VolumeAcl.grant, VolumeAcl.permission, AclCall.Affects, hv,
        getElem?_insert_of_ne _ hv]
  | removeVolume v =>
    by_cases hv : v = volumeId <;>
      simp [call, VolumeAcl.removeVolume, VolumeAcl.permission, AclCall.Affects, AclCall.granted,
        hv, ExtTreeMap.getElem?_erase]
  | revoke v name =>
    change (acl.revoke v name).permission volumeId identity = _
    unfold VolumeAcl.revoke VolumeAcl.permission
    by_cases hv : v = volumeId
    · subst hv
      cases hvol : acl.acls[v]? with
      | none => simp [hvol, AclCall.granted]
      | some volAcl =>
        -- a list that the revocation empties is dropped, and nothing is found there either way
        have hfound : (volAcl.erase name)[toString identity]?
            = if name = toString identity then none else volAcl[toString identity]? := by
          simp only [ExtTreeMap.getElem?_erase, LawfulEqOrd.compare_eq_iff_eq]
        dsimp only
        split
        case isTrue hempty =>
          rw [ExtTreeMap.isEmpty_iff.mp hempty] at hfound
          simpa [AclCall.Affects, AclCall.granted] using hfound
        case isFalse => simpa [AclCall.Affects, AclCall.granted] using hfound
    · cases acl.acls[v]? with
      | none => simp [AclCall.Affects, hv]
      | some volAcl =>
        dsimp only
        split <;> simp [AclCall.Affects, hv, ExtTreeMap.getElem?_erase, getElem?_insert_of_ne _ hv]

def lastAffecting (calls : List AclCall) (volumeId : VolumeId) (identity : PeerIdentity) :
    Option AclCall :=
  calls.reverse.find? fun c => c.Affects volumeId identity

/-- **A permission is what the last call that affects it has left.** -/
theorem permission_after (calls : List AclCall) :
    (after calls).permission volumeId identity
      = (lastAffecting calls volumeId identity).bind AclCall.granted := by
  induction calls using List.reverseRecOn with
  | nil => simp [after, VolumeAcl.new, VolumeAcl.permission, lastAffecting]
  | append_singleton calls c ih =>
    rw [after, runState_snoc, ← after, permission_call, ih, lastAffecting, lastAffecting,
      List.reverse_append, List.reverse_singleton, List.singleton_append, List.find?_cons]
    by_cases haff : c.Affects volumeId identity <;> simp [haff]

theorem any_permission_after (flag : VolumePermission → Bool) :
    ((after calls).permission volumeId identity).any flag = true ↔
      ∃ permission, lastAffecting calls volumeId identity
        = some (.grant volumeId identity permission) ∧ flag permission = true := by
  rw [permission_after, Option.any_eq_true]
  refine exists_congr fun permission => and_congr_left fun _ => ?_
  constructor
  · intro h
    obtain ⟨c, hlast, hc⟩ := Option.bind_eq_some_iff.mp h
    have haff := List.find?_some hlast
    cases c with
    | grant v other p =>
      obtain ⟨rfl, rfl⟩ : v = volumeId ∧ other = identity := of_decide_eq_true haff
      cases hc
      exact hlast
    | revoke | removeVolume => cases hc
  · intro hlast
    rw [hlast]
    rfl

/-- **ACCESS FOLLOWS THE GRANTS.**  A client may write (read) exactly if the last call that affects
it is a grant that says so; the calls for other volumes and other identities change nothing; nodes
always may. -/
theorem access_follows_grants (calls : List AclCall) (volumeId : VolumeId) (sid : SessionId) :
    ((after calls).checkWrite volumeId (.client sid) = true ↔
      ∃ permission, lastAffecting calls volumeId (.client sid)
        = some (.grant volumeId (.client sid) permission) ∧ permission.write = true) ∧
    ((after calls).checkRead volumeId (.client sid) = true ↔
      ∃ permission, lastAffecting calls volumeId (.client sid)
        = some (.grant volumeId (.client sid) permission) ∧ permission.read = true) ∧
    (∀ c : AclCall, ¬ c.Affects volumeId (.client sid) →
      (after (calls ++ [c])).checkWrite volumeId (.client sid)
          = (after calls).checkWrite volumeId (.client sid) ∧
        (after (calls ++ [c])).checkRead volumeId (.client sid)
          = (after calls).checkRead volumeId (.client sid)) ∧
    (∀ other : PeerIdentity, other ≠ .client sid →
      toString other ≠ toString (PeerIdentity.client sid)) ∧
    ∀ nid : NodeId, (after calls).checkWrite volumeId (.node nid) = true ∧
      (after calls).checkRead volumeId (.node nid) = true := by
  refine ⟨any_permission_after _, any_permission_after _, fun c hc => ?_,
    fun other hne h => hne (PeerIdentity.toString_injective h), fun nid => ⟨rfl, rfl⟩⟩
  have hsame : (after (calls ++ [c])).permission volumeId (.client sid)
      = (after calls).permission volumeId (.client sid) := by
    rw [after, runState_snoc, permission_call, if_neg hc, ← after]
  simp only [checkWrite, checkRead, hsame, and_self]

end VolumeAcl

end Blockyard
