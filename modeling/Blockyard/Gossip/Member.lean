/-
# The member list of the gossip protocol

`blockyard-gossip`, `member.rs`: what a node believes about the members of the cluster, and how it
merges what others tell it.

An entry is overridden by an update with a higher incarnation, or with the same incarnation and a
worse state (`should_override`).  That is a strict order on pairs of incarnation and state
(`Status`), so for a REMOTE member the list is a register that keeps the greatest status it was
told (§3), and `mark_suspect` and `mark_dead` only move it up.

The entry of the LOCAL node is not such a register.  A claim that the node is suspect or dead is
answered by counting up `MemberList::incarnation`, and NOTHING reads that counter: the entry that
`recent_updates` sends out keeps the incarnation 0 it was created with (§4), so no update of a node
ever refutes a claim about it.
-/
import Blockyard.Common.Types
import Blockyard.Lib.MaxRegister
import Blockyard.Lib.Run

open Std Machine MaxRegister

namespace Blockyard.Gossip

/-! ## 1. Members and updates -/

inductive IpAddr
  | v4 (octets : BitVec 32)
  | v6 (octets : BitVec 128)
  deriving DecidableEq, Repr

structure SocketAddr where
  ip : IpAddr
  port : BitVec 16
  deriving DecidableEq, Repr

inductive MemberState
  | alive | suspect | dead
  deriving DecidableEq, Repr

def statePriority : MemberState → Nat
  | .alive => 0
  | .suspect => 1
  | .dead => 2

structure MembershipUpdate where
  nodeId : NodeId
  addr : SocketAddr
  state : MemberState
  incarnation : Nat
  deriving DecidableEq, Repr

/-- `Member`; the clock is in milliseconds. -/
structure Member where
  nodeId : NodeId
  addr : SocketAddr
  state : MemberState
  incarnation : Nat
  stateChange : Nat
  deriving DecidableEq, Repr

def Member.new (now : Nat) (nodeId : NodeId) (addr : SocketAddr) : Member :=
  ⟨nodeId, addr, .alive, 0, now⟩

def Member.withState (now : Nat) (nodeId : NodeId) (addr : SocketAddr) (state : MemberState)
    (incarnation : Nat) : Member :=
  ⟨nodeId, addr, state, incarnation, now⟩

def Member.toUpdate (m : Member) : MembershipUpdate := ⟨m.nodeId, m.addr, m.state, m.incarnation⟩

def shouldOverride (existing : Member) (update : MembershipUpdate) : Bool :=
  if update.incarnation > existing.incarnation then true
  else if update.incarnation < existing.incarnation then false
  else statePriority update.state > statePriority existing.state

structure MemberList where
  localId : NodeId
  members : HashMap NodeId Member
  incarnation : Nat

namespace MemberList

def new (now : Nat) (localId : NodeId) (localAddr : SocketAddr) : MemberList where
  localId := localId
  members := (∅ : HashMap NodeId Member).insert localId (.new now localId localAddr)
  incarnation := 0

/-- `next_incarnation`; `none` is the overflow panic. -/
def nextIncarnation (ovf : Overflow) (ml : MemberList) : MemberList × Option Nat :=
  match addU64 ovf ml.incarnation 1 with
  | none => (ml, none)
  | some inc => ({ ml with incarnation := inc }, some inc)

def handleLocalUpdate (ovf : Overflow) (ml : MemberList) (update : MembershipUpdate) :
    MemberList × Option Bool :=
  match update.state with
  | .suspect | .dead =>
    let (ml, inc) := ml.nextIncarnation ovf
    (ml, inc.map fun _ => false)
  | .alive => (ml, some false)

/-- `apply_update`: the list, and whether the state changed; `none` is a panic. -/
def applyUpdate (ovf : Overflow) (now : Nat) (ml : MemberList) (update : MembershipUpdate) :
    MemberList × Option Bool :=
  if update.nodeId = ml.localId then ml.handleLocalUpdate ovf update
  else
    let existing := ml.members[update.nodeId]?
    if existing.any fun member => !shouldOverride member update then (ml, some false)
    else
      let oldState := existing.map Member.state
      let member := Member.withState now update.nodeId update.addr update.state update.incarnation
      ({ ml with members := ml.members.insert update.nodeId member },
        some (decide (oldState ≠ some update.state)))

def markSuspect (now : Nat) (ml : MemberList) (nodeId : NodeId) : MemberList × Bool :=
  match ml.members[nodeId]? with
  | some member =>
    if member.state = .alive then
      ({ ml with members :=
          ml.members.insert nodeId { member with state := .suspect, stateChange := now } }, true)
    else (ml, false)
  | none => (ml, false)

def markDead (now : Nat) (ml : MemberList) (nodeId : NodeId) : MemberList × Bool :=
  match ml.members[nodeId]? with
  | some member =>
    if member.state ≠ .dead then
      ({ ml with members :=
          ml.members.insert nodeId { member with state := .dead, stateChange := now } }, true)
    else (ml, false)
  | none => (ml, false)

/-- The values of the map, in the order one scan visits them. -/
def scan (ml : MemberList) (order : IterOrder NodeId) : List Member :=
  (order.keys ml.members).filterMap fun nodeId => ml.members[nodeId]?

/-- `recent_updates`: every member, the highest incarnations first, as many as there is room
for. -/
def recentUpdates (ml : MemberList) (order : IterOrder NodeId) (maxCount : Nat) :
    List MembershipUpdate :=
  (((ml.scan order).map Member.toUpdate).mergeSort
    fun a b => decide (b.incarnation ≤ a.incarnation)).take maxCount

/-- What happens to a member list. -/
inductive Op
  | applyUpdate (now : Nat) (update : MembershipUpdate)
  | markSuspect (now : Nat) (nodeId : NodeId)
  | markDead (now : Nat) (nodeId : NodeId)
  /-- A message is sent, with updates piggybacked. -/
  | recentUpdates (order : IterOrder NodeId) (maxCount : Nat)

/-- One thing happening to a member list, and the updates that are piggybacked. -/
def step (ovf : Overflow) (ml : MemberList) : Op → MemberList × List MembershipUpdate
  | .applyUpdate now update => ((ml.applyUpdate ovf now update).1, [])
  | .markSuspect now nodeId => ((ml.markSuspect now nodeId).1, [])
  | .markDead now nodeId => ((ml.markDead now nodeId).1, [])
  | .recentUpdates order maxCount => (ml, ml.recentUpdates order maxCount)

end MemberList

/-! ## 2. The order of what is said of a member -/

/-- What an entry or an update says of a member. -/
@[ext] structure Status where
  incarnation : Nat
  state : MemberState
  deriving DecidableEq, Repr

/-- By incarnation, and then Dead over Suspect over Alive. -/
def Status.key (s : Status) : ℕ ×ₗ ℕ := toLex (s.incarnation, statePriority s.state)

theorem statePriority_injective : Function.Injective statePriority := by
  intro a b h
  cases a <;> cases b <;> first | rfl | exact absurd h (by decide)

theorem Status.key_injective : Function.Injective Status.key := by
  intro a b h
  have hpair : (a.incarnation, statePriority a.state) = (b.incarnation, statePriority b.state) := h
  rw [Prod.mk.injEq] at hpair
  exact Status.ext hpair.1 (statePriority_injective hpair.2)

instance Status.linearOrder : LinearOrder Status :=
  LinearOrder.lift' Status.key Status.key_injective

theorem Status.lt_iff {a b : Status} : a < b ↔ a.incarnation < b.incarnation ∨
    a.incarnation = b.incarnation ∧ statePriority a.state < statePriority b.state :=
  Prod.Lex.lt_iff

theorem Status.le_of_state {inc : Nat} {s s' : MemberState}
    (h : statePriority s ≤ statePriority s') : (⟨inc, s⟩ : Status) ≤ ⟨inc, s'⟩ :=
  Prod.Lex.le_iff.mpr (Or.inr ⟨rfl, h⟩)

def Member.status (m : Member) : Status := ⟨m.incarnation, m.state⟩

def MembershipUpdate.status (u : MembershipUpdate) : Status := ⟨u.incarnation, u.state⟩

def MemberList.statusOf (ml : MemberList) (n : NodeId) : WithBot Status :=
  match ml.members[n]? with
  | some m => (m.status : WithBot Status)
  | none => ⊥

/-- **`should_override` is the strict order.** -/
theorem shouldOverride_iff {m : Member} {u : MembershipUpdate} :
    shouldOverride m u = true ↔ m.status < u.status := by
  rw [Status.lt_iff]
  simp only [shouldOverride, Member.status, MembershipUpdate.status]
  split
  · next h => simp [h]
  · split
    · next h h' =>
      simp only [Bool.false_eq_true, false_iff, not_or, not_and]
      exact ⟨h, fun heq => absurd heq (by omega)⟩
    · next h h' =>
      have heq : m.incarnation = u.incarnation := by omega
      simp [heq]

/-! ## 3. Merging -/

namespace MemberList

variable {ovf : Overflow} {ml ml' : MemberList} {n l : NodeId} {m : Member}
  {u : MembershipUpdate} {order : IterOrder NodeId}

theorem statusOf_of_getElem? (h : ml.members[n]? = some m) :
    ml.statusOf n = m.status := by
  rw [statusOf, h]

theorem statusOf_insert (members : HashMap NodeId Member) (inc : Nat) (k : NodeId) (m : Member) :
    statusOf ⟨ml.localId, members.insert k m, inc⟩ n
      = if k = n then (m.status : WithBot Status) else statusOf ⟨ml.localId, members, inc⟩ n := by
  by_cases hk : k = n
  · subst hk
    rw [if_pos rfl, statusOf, ExtTreeMap.getElem?_insert_self]
  · rw [if_neg hk, statusOf, getElem?_insert_of_ne _ hk]
    rfl

/-- A claim about the local node touches the counter only. -/
theorem handleLocalUpdate_frame (ovf : Overflow) (ml : MemberList) (u : MembershipUpdate) :
    (ml.handleLocalUpdate ovf u).1.localId = ml.localId ∧
      (ml.handleLocalUpdate ovf u).1.members = ml.members := by
  unfold handleLocalUpdate nextIncarnation
  cases u.state <;> cases addU64 ovf ml.incarnation 1 <;> exact ⟨rfl, rfl⟩

/-- **An update of a remote member is an offer** to the register of that member. -/
theorem statusOf_applyUpdate (now : Nat) (hn : n ≠ ml.localId) :
    (ml.applyUpdate ovf now u).1.statusOf n
      = if u.nodeId = n then offer (ml.statusOf n) u.status else ml.statusOf n := by
  unfold applyUpdate
  by_cases hlocal : u.nodeId = ml.localId
  · rw [if_pos hlocal, if_neg (fun h => hn (h.symm.trans hlocal))]
    unfold statusOf
    rw [(handleLocalUpdate_frame ovf ml u).2]
  · rw [if_neg hlocal]
    dsimp only
    cases hm : ml.members[u.nodeId]? with
    | none =>
      rw [if_neg (by simp)]
      by_cases hk : u.nodeId = n
      · have hbot : ml.statusOf n = ⊥ := by rw [statusOf, ← hk, hm]
        rw [if_pos hk, statusOf_insert, if_pos hk, hbot, offer, if_pos (WithBot.bot_lt_coe _)]
        rfl
      · rw [if_neg hk, statusOf_insert, if_neg hk]
    | some m =>
      have hstatus : ml.statusOf u.nodeId = m.status := statusOf_of_getElem? hm
      by_cases hover : shouldOverride m u = true
      · rw [if_neg (by simp [hover])]
        by_cases hk : u.nodeId = n
        · rw [if_pos hk, statusOf_insert, if_pos hk, ← hk, hstatus, offer,
            if_pos (WithBot.coe_lt_coe.mpr (shouldOverride_iff.mp hover))]
          rfl
        · rw [if_neg hk, statusOf_insert, if_neg hk]
      · rw [if_pos (by simp [hover])]
        by_cases hk : u.nodeId = n
        · rw [if_pos hk, ← hk, hstatus, offer,
            if_neg fun h => hover (shouldOverride_iff.mpr (WithBot.coe_lt_coe.mp h))]
        · rw [if_neg hk]

@[simp] theorem localId_applyUpdate (now : Nat) (u : MembershipUpdate) :
    (ml.applyUpdate ovf now u).1.localId = ml.localId := by
  unfold applyUpdate
  split
  · exact (handleLocalUpdate_frame ovf ml u).1
  · dsimp only
    split <;> rfl

/-- What a verdict of the failure detector does: nothing, or it worsens the state of one entry. -/
def Worsened (ml ml' : MemberList) : Prop :=
  ml' = ml ∨ ∃ k m m', ml.members[k]? = some m ∧ m'.nodeId = m.nodeId ∧
    m'.incarnation = m.incarnation ∧ m.status ≤ m'.status ∧
    ml' = { ml with members := ml.members.insert k m' }

theorem worsened_markSuspect (now : Nat) (k : NodeId) : Worsened ml (ml.markSuspect now k).1 := by
  unfold markSuspect
  split
  · next m hk =>
    split
    · next halive =>
      refine Or.inr ⟨k, m, { m with state := .suspect, stateChange := now }, hk, rfl, rfl, ?_, rfl⟩
      refine Status.le_of_state ?_
      rw [halive]
      exact Nat.zero_le _
    · exact Or.inl rfl
  · exact Or.inl rfl

theorem worsened_markDead (now : Nat) (k : NodeId) : Worsened ml (ml.markDead now k).1 := by
  unfold markDead
  split
  · next m hk =>
    split
    · refine Or.inr ⟨k, m, { m with state := .dead, stateChange := now }, hk, rfl, rfl, ?_, rfl⟩
      refine Status.le_of_state ?_
      cases m.state <;> simp [statePriority]
    · exact Or.inl rfl
  · exact Or.inl rfl

theorem Worsened.localId (h : Worsened ml ml') : ml'.localId = ml.localId := by
  rcases h with rfl | ⟨k, m, m', -, -, -, -, rfl⟩ <;> rfl

theorem Worsened.statusOf_le (h : Worsened ml ml') (n : NodeId) :
    ml.statusOf n ≤ ml'.statusOf n := by
  rcases h with rfl | ⟨k, m, m', hk, -, -, hle, rfl⟩
  · exact le_rfl
  · rw [statusOf_insert]
    split
    · next heq =>
      rw [← heq, statusOf_of_getElem? hk]
      exact WithBot.coe_le_coe.mpr hle
    · exact le_rfl

@[simp] theorem localId_step (op : Op) : (ml.step ovf op).1.localId = ml.localId := by
  cases op with
  | applyUpdate now u => exact localId_applyUpdate now u
  | markSuspect now k => exact (worsened_markSuspect now k).localId
  | markDead now k => exact (worsened_markDead now k).localId
  | recentUpdates order maxCount => rfl

/-- **Nothing lowers the status of a remote member.** -/
theorem statusOf_le_step (hn : n ≠ ml.localId) (op : Op) :
    ml.statusOf n ≤ (ml.step ovf op).1.statusOf n := by
  cases op with
  | applyUpdate now u =>
    rw [step, statusOf_applyUpdate now hn]
    split
    · exact le_offer _ _
    · exact le_rfl
  | markSuspect now k => exact (worsened_markSuspect now k).statusOf_le n
  | markDead now k => exact (worsened_markDead now k).statusOf_le n
  | recentUpdates order maxCount => exact le_rfl

theorem localId_run (ops : List Op) : (runState (step ovf) ml ops).localId = ml.localId :=
  runState_invariant (P := fun t : MemberList => t.localId = ml.localId) rfl
    (fun _ op h => (localId_step op).trans h) ops

theorem statusOf_le_run (hn : n ≠ ml.localId) (ops : List Op) :
    ml.statusOf n ≤ (runState (step ovf) ml ops).statusOf n := by
  refine (runState_invariant (P := fun t : MemberList =>
    t.localId = ml.localId ∧ ml.statusOf n ≤ t.statusOf n) ⟨rfl, le_rfl⟩ ?_ ops).2
  rintro t op ⟨hid, hle⟩
  exact ⟨(localId_step op).trans hid, hle.trans (statusOf_le_step (by rwa [hid]) op)⟩

def deliveries (us : List (Nat × MembershipUpdate)) : List Op :=
  us.map fun (now, u) => .applyUpdate now u

def about (n : NodeId) (us : List (Nat × MembershipUpdate)) : List Status :=
  us.filterMap fun (_, u) => if u.nodeId = n then some u.status else none

/-- **The list is a register per remote member.** -/
theorem statusOf_deliveries (hn : n ≠ ml.localId) (us : List (Nat × MembershipUpdate)) :
    (runState (step ovf) ml (deliveries us)).statusOf n
      = (about n us).foldl offer (ml.statusOf n) := by
  induction us generalizing ml with
  | nil => rfl
  | cons delivery us ih =>
    obtain ⟨now, u⟩ := delivery
    have hlocal : n ≠ (ml.applyUpdate ovf now u).1.localId := by rwa [localId_applyUpdate]
    have hrest := ih hlocal
    rw [statusOf_applyUpdate now hn] at hrest
    change (runState (step ovf) (ml.applyUpdate ovf now u).1 (deliveries us)).statusOf n = _
    rw [hrest]
    by_cases hu : u.nodeId = n <;> simp [about, hu]

structure Converges (ovf : Overflow) (ml : MemberList) (n : NodeId) : Prop where
  /-- Behind any updates, the greatest of them and of the first entry. -/
  greatest : ∀ us, about n us ≠ [] → ∃ s : Status,
    (runState (step ovf) ml (deliveries us)).statusOf n = s ∧
      IsGreatest {t : Status | ml.statusOf n = t ∨ t ∈ about n us} s
  /-- The same updates in another order, some of them more often. -/
  order : ∀ us vs, (∀ t, t ∈ about n us ↔ t ∈ about n vs) →
    (runState (step ovf) ml (deliveries us)).statusOf n
      = (runState (step ovf) ml (deliveries vs)).statusOf n
  /-- With the verdicts of the failure detector among the updates. -/
  mono : ∀ ops ops', (runState (step ovf) ml ops).statusOf n
    ≤ (runState (step ovf) ml (ops ++ ops')).statusOf n

/-- **MEMBERSHIP MERGE CONVERGES**, for every remote member. -/
theorem merge_converges (ovf : Overflow) (ml : MemberList) (n : NodeId) (hn : n ≠ ml.localId) :
    Converges ovf ml n where
  greatest us hus := by
    rw [statusOf_deliveries hn]
    exact isGreatest_foldl_offer _ hus
  order us vs hsame := by
    rw [statusOf_deliveries hn, statusOf_deliveries hn]
    exact foldl_offer_congr _ hsame
  mono ops ops' := by
    rw [runState_append]
    exact statusOf_le_run (by rwa [localId_run]) ops'

def sampleAddr : SocketAddr := ⟨.v4 0x7f000001#32, 9000#16⟩

theorem merge_converges_fresh_list :
    (⟨2#128⟩ : NodeId) ≠ (MemberList.new 0 ⟨1#128⟩ sampleAddr).localId ∧
      Converges .wrapping (.new 0 ⟨1#128⟩ sampleAddr) ⟨2#128⟩ :=
  ⟨by decide, merge_converges _ _ _ (by decide)⟩

/-! ## 4. Refuting a claim -/

def claimsAbout (n : NodeId) (ops : List Op) : List MembershipUpdate :=
  ops.filterMap fun
    | .applyUpdate _ u => if u.nodeId = n ∧ u.state ≠ .alive then some u else none
    | _ => none

structure Refutes (claim u : MembershipUpdate) : Prop where
  alive : u.state = .alive
  newer : claim.incarnation < u.incarnation

/-- **What refutation promises** about a run: the update a node sends about itself refutes every
claim about it that it has handled. -/
def RefutesClaims (ovf : Overflow) (ml : MemberList) (ops : List Op) : Prop :=
  ∀ before order maxCount after, ops = before ++ .recentUpdates order maxCount :: after →
    ∀ claim ∈ claimsAbout ml.localId before,
      ∀ u ∈ (runState (step ovf) ml before).recentUpdates order maxCount,
        u.nodeId = ml.localId → Refutes claim u

/-- A list whose entry of the local node is the one it was created with, or a worse one. -/
structure OwnEntry (l : NodeId) (ml : MemberList) : Prop where
  localId : ml.localId = l
  keyed : ∀ {k : NodeId} {m : Member}, ml.members[k]? = some m → m.nodeId = k
  incarnation : ∀ {m : Member}, ml.members[l]? = some m → m.incarnation = 0

theorem OwnEntry.insert {l k : NodeId} (h : OwnEntry l ml) (hkey : m.nodeId = k)
    (hown : k = l → m.incarnation = 0) :
    OwnEntry l { ml with members := ml.members.insert k m } := by
  refine ⟨h.localId, ?_, ?_⟩
  · intro j m' hj
    by_cases hjk : k = j
    · subst hjk
      rw [ExtTreeMap.getElem?_insert_self, Option.some.injEq] at hj
      rw [← hj, hkey]
    · exact h.keyed (by rwa [getElem?_insert_of_ne _ hjk] at hj)
  · intro m' hm'
    by_cases hkl : k = l
    · subst hkl
      rw [ExtTreeMap.getElem?_insert_self, Option.some.injEq] at hm'
      rw [← hm', hown rfl]
    · exact h.incarnation (by rwa [getElem?_insert_of_ne _ hkl] at hm')

theorem ownEntry_new (now : Nat) (l : NodeId) (addr : SocketAddr) :
    OwnEntry l (.new now l addr) := by
  have hempty : OwnEntry l ⟨l, ∅, 0⟩ := ⟨rfl, by simp, by simp⟩
  exact hempty.insert rfl fun _ => rfl

theorem OwnEntry.worsened (h : OwnEntry l ml) (hw : Worsened ml ml') : OwnEntry l ml' := by
  rcases hw with rfl | ⟨k, m, m', hk, hid, hinc, -, rfl⟩
  · exact h
  · refine h.insert (hid.trans (h.keyed hk)) fun heq => ?_
    subst heq
    exact hinc.trans (h.incarnation hk)

/-- **No operation gives the local entry another incarnation.** -/
theorem OwnEntry.step (h : OwnEntry l ml) (op : Op) :
    OwnEntry l (ml.step ovf op).1 := by
  cases op with
  | applyUpdate now u =>
    unfold MemberList.step applyUpdate
    by_cases hlocal : u.nodeId = ml.localId
    · simp only [if_pos hlocal]
      obtain ⟨hid, hmembers⟩ := handleLocalUpdate_frame ovf ml u
      refine ⟨hid.trans h.localId, ?_, ?_⟩
      · rw [hmembers]; exact h.keyed
      · rw [hmembers]; exact h.incarnation
    · simp only [if_neg hlocal]
      split
      · exact h
      · exact h.insert rfl fun heq => absurd (heq.trans h.localId.symm) hlocal
  | markSuspect now k => exact h.worsened (worsened_markSuspect now k)
  | markDead now k => exact h.worsened (worsened_markDead now k)
  | recentUpdates order maxCount => exact h

theorem ownEntry_run (ovf : Overflow) (h : OwnEntry l ml) (ops : List Op) :
    OwnEntry l (runState (MemberList.step ovf) ml ops) :=
  runState_invariant h (fun _ op h => h.step op) ops

theorem mem_scan :
    m ∈ ml.scan order ↔ ∃ k : NodeId, ml.members[k]? = some m := by
  simp only [scan, List.mem_filterMap, IterOrder.mem_keys]
  constructor
  · rintro ⟨k, -, h⟩
    exact ⟨k, h⟩
  · rintro ⟨k, h⟩
    exact ⟨k, mem_of_getElem? h, h⟩

theorem exists_of_mem_recentUpdates {maxCount : Nat} (h : u ∈ ml.recentUpdates order maxCount) :
    ∃ (k : NodeId) (m : Member), ml.members[k]? = some m ∧ m.toUpdate = u := by
  have hmem := (List.mergeSort_perm _ _).mem_iff.mp (List.mem_of_mem_take h)
  obtain ⟨m, hm, rfl⟩ := List.mem_map.mp hmem
  obtain ⟨k, hk⟩ := mem_scan.mp hm
  exact ⟨k, m, hk, rfl⟩

theorem toUpdate_mem_recentUpdates {maxCount : Nat} {k : NodeId}
    (hroom : ml.members.size ≤ maxCount) (hk : ml.members[k]? = some m) :
    m.toUpdate ∈ ml.recentUpdates order maxCount := by
  have hlen : (((ml.scan order).map Member.toUpdate).mergeSort
      fun a b => decide (b.incarnation ≤ a.incarnation)).length ≤ maxCount := by
    rw [List.length_mergeSort, List.length_map]
    refine (List.length_filterMap_le _ _).trans ?_
    rw [IterOrder.keys, (order.perm _).length_eq, ExtTreeMap.length_keys]
    exact hroom
  rw [recentUpdates, List.take_of_length_le hlen, (List.mergeSort_perm _ _).mem_iff]
  exact List.mem_map_of_mem (mem_scan.mpr ⟨k, hk⟩)

/-- **REFUTATION.**  A run of a node's member list keeps the promise exactly when the node sends no
update about itself once it has handled a claim: any update it does send has incarnation 0. -/
theorem refutes_claims_iff (ovf : Overflow) (now : Nat) (localId : NodeId) (addr : SocketAddr)
    (ops : List Op) :
    RefutesClaims ovf (.new now localId addr) ops ↔
      ∀ before order maxCount after, ops = before ++ .recentUpdates order maxCount :: after →
        claimsAbout localId before ≠ [] →
        ∀ u ∈ (runState (MemberList.step ovf) (.new now localId addr) before).recentUpdates order
          maxCount, u.nodeId ≠ localId := by
  constructor
  · intro h before order maxCount after heq hclaims u hu hid
    obtain ⟨claim, hclaim⟩ := List.exists_mem_of_ne_nil _ hclaims
    have hnewer := (h before order maxCount after heq claim hclaim u hu hid).newer
    have hown := ownEntry_run ovf (ownEntry_new now localId addr) before
    obtain ⟨k, m, hk, rfl⟩ := exists_of_mem_recentUpdates hu
    have hkey : k = localId := (hown.keyed hk).symm.trans hid
    have hzero : m.toUpdate.incarnation = 0 := hown.incarnation (hkey ▸ hk)
    omega
  · intro h before order maxCount after heq claim hclaim u hu hid
    exact absurd hid (h before order maxCount after heq (List.ne_nil_of_mem hclaim) u hu)

def suspected : List Op :=
  [.applyUpdate 5 ⟨⟨1#128⟩, sampleAddr, .suspect, 0⟩, .recentUpdates (.sorted _) 10]

/-- **A false suspicion stands**: node 1 sends that it is alive, with incarnation 0, and a peer that
holds the claim ignores it. -/
theorem suspicion_not_refuted :
    ¬ RefutesClaims .wrapping (.new 0 ⟨1#128⟩ sampleAddr) suspected ∧
      ∃ u ∈ (runState (MemberList.step .wrapping) (.new 0 ⟨1#128⟩ sampleAddr)
          (suspected.take 1)).recentUpdates (.sorted _) 10,
        u.nodeId = ⟨1#128⟩ ∧
        ∀ peer : MemberList, peer.localId ≠ ⟨1#128⟩ →
          peer.statusOf ⟨1#128⟩ = (⟨0, .suspect⟩ : Status) →
          (peer.applyUpdate .wrapping 7 u).1.statusOf ⟨1#128⟩ = (⟨0, .suspect⟩ : Status) := by
  have hsent : (⟨⟨1#128⟩, sampleAddr, .alive, 0⟩ : MembershipUpdate) ∈
      (runState (MemberList.step .wrapping) (.new 0 ⟨1#128⟩ sampleAddr)
        (suspected.take 1)).recentUpdates (.sorted _) 10 :=
    toUpdate_mem_recentUpdates (k := ⟨1#128⟩) (m := .new 0 ⟨1#128⟩ sampleAddr) (by decide)
      (by rfl)
  refine ⟨fun h => ?_, _, hsent, rfl, ?_⟩
  · have hrefuted := h (suspected.take 1) (.sorted _) 10 [] rfl _ (List.mem_singleton.mpr rfl) _
      hsent rfl
    exact absurd hrefuted.newer (by decide)
  · intro peer hpeer hholds
    rw [statusOf_applyUpdate 7 (Ne.symm hpeer), if_pos rfl, hholds, offer, if_neg]
    rw [WithBot.coe_lt_coe]
    decide

end MemberList

end Blockyard.Gossip
