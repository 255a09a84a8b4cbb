/-
# The SWIM protocol at one node

`blockyard-gossip`, `protocol.rs` and `swim.rs`: the messages, and what a node does with them.  A
probe cycle is cut where it waits: the ping (`startProbe`), what follows the end of the first wait
or of the second (`endWait`).  Between these the node handles messages (`handleMessage`), and an
`Ack` takes the probe with its number out of the table of pending ones.

What the nodes do together is in `Gossip/Probes.lean`.  Here is the one promise that concerns a
single node: that a node which joins is a member afterwards (§4).  A `Join` is merged like any
update, as Alive with incarnation 0, and that overrides NOTHING the list has.  A node that was
declared Dead and comes back is still Dead.
-/
import Blockyard.Gossip.Member

open Std Machine MaxRegister

namespace Blockyard.Gossip

/-! ## 1. Messages -/

inductive GossipMessage
  | ping (sender : NodeId) (fromAddr : SocketAddr) (seq : Nat) (updates : List MembershipUpdate)
  | pingReq (sender : NodeId) (fromAddr : SocketAddr) (target : NodeId) (targetAddr : SocketAddr)
      (seq : Nat) (updates : List MembershipUpdate)
  | ack (sender : NodeId) (fromAddr : SocketAddr) (seq : Nat) (updates : List MembershipUpdate)
  | join (nodeId : NodeId) (addr : SocketAddr)
  | alive (nodeId : NodeId) (addr : SocketAddr) (incarnation : Nat)
  | suspect (nodeId : NodeId) (addr : SocketAddr) (incarnation : Nat)
  | dead (nodeId : NodeId) (addr : SocketAddr) (incarnation : Nat)
  deriving DecidableEq, Repr

def GossipMessage.updates : GossipMessage → List MembershipUpdate
  | .ping _ _ _ updates | .pingReq _ _ _ _ _ updates | .ack _ _ _ updates => updates
  | _ => []

/-- A message on its way out, and the address it is sent to. -/
abbrev Outgoing := SocketAddr × GossipMessage

/-! ## 2. What the protocol asks of the member list -/

namespace MemberList

def aliveMembers (ml : MemberList) (order : IterOrder NodeId) : List Member :=
  (ml.scan order).filter fun m => m.state ≠ .dead

def probeTargets (ml : MemberList) (order : IterOrder NodeId) : List Member :=
  (ml.scan order).filter fun m => m.nodeId ≠ ml.localId ∧ m.state ≠ .dead

def indirectProbeCandidates (ml : MemberList) (order : IterOrder NodeId) (exclude : NodeId) :
    List Member :=
  (ml.scan order).filter fun m =>
    m.nodeId ≠ ml.localId ∧ m.nodeId ≠ exclude ∧ m.state = .alive

/-- `apply_updates`; `false` says that one of them panicked, with the earlier ones made. -/
def applyUpdates (ovf : Overflow) (now : Nat) (ml : MemberList) :
    List MembershipUpdate → MemberList × Bool
  | [] => (ml, true)
  | update :: updates =>
    match ml.applyUpdate ovf now update with
    | (ml, none) => (ml, false)
    | (ml, some _) => ml.applyUpdates ovf now updates

end MemberList

/-! ## 3. The protocol -/

def indirectProbeCount : Nat := 3

def maxPiggybackUpdates : Nat := 10

/-- `SwimConfig`, on the clock of the member list. -/
structure SwimConfig where
  suspicionTimeout : Nat
  probeTimeout : Nat
  deriving DecidableEq, Repr

structure PendingProbe where
  target : NodeId
  sentAt : Nat
  indirectSent : Bool
  deriving DecidableEq, Repr

structure SwimProtocol where
  members : MemberList
  config : SwimConfig
  seq : Nat
  pendingProbes : HashMap Nat PendingProbe

/-- The local variables of a `probe_cycle` that waits: for the target, or for the relays. -/
structure ProbeCycle where
  target : NodeId
  targetAddr : SocketAddr
  seq : Nat
  deadline : Nat
  indirect : Bool
  deriving DecidableEq, Repr

namespace SwimProtocol

def new (members : MemberList) (config : SwimConfig) : SwimProtocol where
  members := members
  config := config
  seq := 0
  pendingProbes := ∅

/-- `next_seq`; `none` is the overflow panic. -/
def nextSeq (ovf : Overflow) (p : SwimProtocol) : SwimProtocol × Option Nat :=
  match addU64 ovf p.seq 1 with
  | none => (p, none)
  | some seq => ({ p with seq }, some seq)

/-- `probe_cycle` up to its first wait: nothing is sent without a target, or by a panic. -/
def startProbe (ovf : Overflow) (now : Nat) (localAddr : SocketAddr)
    (targetOrder updateOrder : IterOrder NodeId) (p : SwimProtocol) :
    SwimProtocol × Option ProbeCycle × List Outgoing :=
  match p.members.probeTargets targetOrder with
  | [] => (p, none, [])
  | first :: others =>
    let targets := first :: others
    match p.nextSeq ovf with
    | (p, none) => (p, none, [])
    | (p, some turn) =>
      let target := targets.getD (turn % targets.length) first
      match p.nextSeq ovf with
      | (p, none) => (p, none, [])
      | (p, some seq) =>
        let updates := p.members.recentUpdates updateOrder maxPiggybackUpdates
        let ping := GossipMessage.ping p.members.localId localAddr seq updates
        let pendingProbes := p.pendingProbes.insert seq
          { target := target.nodeId, sentAt := now, indirectSent := false }
        let cycle : ProbeCycle :=
          { target := target.nodeId
            targetAddr := target.addr
            seq
            deadline := now + p.config.probeTimeout
            indirect := false }
        ({ p with pendingProbes }, some cycle, [(target.addr, ping)])

def sendIndirectProbes (localAddr : SocketAddr) (relayOrder updateOrder : IterOrder NodeId)
    (targetId : NodeId) (targetAddr : SocketAddr) (seq : Nat) (p : SwimProtocol) :
    SwimProtocol × List Outgoing :=
  match (p.members.indirectProbeCandidates relayOrder targetId).take indirectProbeCount with
  | [] => (p, [])
  | relays =>
    let pendingProbes :=
      match p.pendingProbes[seq]? with
      | some probe => p.pendingProbes.insert seq { probe with indirectSent := true }
      | none => p.pendingProbes
    let updates := p.members.recentUpdates updateOrder maxPiggybackUpdates
    let pingReq := GossipMessage.pingReq p.members.localId localAddr targetId targetAddr seq updates
    ({ p with pendingProbes }, relays.map fun relay => (relay.addr, pingReq))

/-- What `wait_for_ack` may return: an acknowledgement once the probe is no longer pending, and
none once the deadline is reached.  (It looks at the clock first, so it may miss an
acknowledgement that came in time.) -/
def mayReturn (now : Nat) (cycle : ProbeCycle) (p : SwimProtocol) (acked : Bool) : Bool :=
  if acked then cycle.seq ∉ p.pendingProbes else cycle.deadline ≤ now

/-- `probe_cycle` from the end of a wait to the next one, or to its end. -/
def endWait (now : Nat) (localAddr : SocketAddr) (relayOrder updateOrder : IterOrder NodeId)
    (cycle : ProbeCycle) (acked : Bool) (p : SwimProtocol) :
    SwimProtocol × Option ProbeCycle × List Outgoing :=
  let finish (p : SwimProtocol) : SwimProtocol × Option ProbeCycle × List Outgoing :=
    ({ p with pendingProbes := p.pendingProbes.erase cycle.seq }, none, [])
  if acked then finish p
  else if cycle.indirect then
    finish { p with members := (p.members.markSuspect now cycle.target).1 }
  else
    let (p, out) :=
      p.sendIndirectProbes localAddr relayOrder updateOrder cycle.target cycle.targetAddr cycle.seq
    (p, some { cycle with deadline := now + p.config.probeTimeout, indirect := true }, out)

/-- One update of the member list, from a message that is nothing else. -/
def applyOne (ovf : Overflow) (now : Nat) (p : SwimProtocol) (update : MembershipUpdate) :
    SwimProtocol :=
  { p with members := (p.members.applyUpdate ovf now update).1 }

/-- `handle_message`.  A panic on the updates of the message ends it. -/
def handleMessage (ovf : Overflow) (now : Nat) (localAddr : SocketAddr)
    (updateOrder : IterOrder NodeId) (p : SwimProtocol) (msg : GossipMessage) :
    SwimProtocol × List Outgoing :=
  match p.members.applyUpdates ovf now msg.updates with
  | (members, false) => ({ p with members }, [])
  | (members, true) =>
    let p := { p with members }
    match msg with
    | .ping _ fromAddr seq _ =>
      (p, [(fromAddr, .ack p.members.localId localAddr seq
        (p.members.recentUpdates updateOrder maxPiggybackUpdates))])
    | .pingReq _ _ _ targetAddr seq _ =>
      (p, [(targetAddr, .ping p.members.localId localAddr seq
        (p.members.recentUpdates updateOrder maxPiggybackUpdates))])
    | .ack _ _ seq _ => ({ p with pendingProbes := p.pendingProbes.erase seq }, [])
    | .join nodeId addr =>
      let p := p.applyOne ovf now ⟨nodeId, addr, .alive, 0⟩
      (p, [(addr, .ack p.members.localId localAddr 0
        (p.members.recentUpdates updateOrder maxPiggybackUpdates))])
    | .alive nodeId addr incarnation =>
      (p.applyOne ovf now ⟨nodeId, addr, .alive, incarnation⟩, [])
    | .suspect nodeId addr incarnation =>
      (p.applyOne ovf now ⟨nodeId, addr, .suspect, incarnation⟩, [])
    | .dead nodeId addr incarnation =>
      (p.applyOne ovf now ⟨nodeId, addr, .dead, incarnation⟩, [])

def reapSuspects (now : Nat) (order : IterOrder NodeId) (p : SwimProtocol) : SwimProtocol :=
  let suspects := (p.members.probeTargets order).filter fun m =>
    m.state = .suspect ∧ now - m.stateChange ≥ p.config.suspicionTimeout
  { p with members := suspects.foldl (fun ml m => (ml.markDead now m.nodeId).1) p.members }

def joinSeeds (localAddr : SocketAddr) (seeds : List SocketAddr) (p : SwimProtocol) :
    List Outgoing :=
  (seeds.filter (· ≠ localAddr)).map fun seed => (seed, .join p.members.localId localAddr)

end SwimProtocol

/-! ## 4. Joining -/

namespace MemberList

/-- A list that some run of its node has led to. -/
def Reached (ovf : Overflow) (ml : MemberList) : Prop :=
  ∃ now localId addr ops, ml = runState (MemberList.step ovf) (.new now localId addr) ops

def HasMember (ml : MemberList) (n : NodeId) : Prop :=
  ∀ order, ∃ m ∈ ml.aliveMembers order, m.nodeId = n

variable {ovf : Overflow} {ml : MemberList} {n : NodeId}

theorem mem_aliveMembers {order : IterOrder NodeId} {m : Member} :
    m ∈ ml.aliveMembers order ↔ (∃ k : NodeId, ml.members[k]? = some m) ∧ m.state ≠ .dead := by
  rw [aliveMembers, List.mem_filter, mem_scan, decide_eq_true_eq]

/-- Where entries are filed under their node, being a member is a matter of one entry. -/
theorem hasMember_iff {l : NodeId} (h : OwnEntry l ml) :
    ml.HasMember n ↔ ∃ m, ml.members[n]? = some m ∧ m.state ≠ .dead := by
  constructor
  · intro hmember
    obtain ⟨m, hm, rfl⟩ := hmember (.sorted _)
    obtain ⟨⟨k, hk⟩, hdead⟩ := mem_aliveMembers.mp hm
    have hkey := h.keyed hk
    subst hkey
    exact ⟨m, hk, hdead⟩
  · rintro ⟨m, hm, hdead⟩ order
    exact ⟨m, mem_aliveMembers.mpr ⟨⟨n, hm⟩, hdead⟩, h.keyed hm⟩

/-- An update as Alive with incarnation 0 overrides no entry. -/
theorem shouldOverride_alive_zero (m : Member) (nodeId : NodeId) (addr : SocketAddr) :
    shouldOverride m ⟨nodeId, addr, .alive, 0⟩ = false := by
  simp [shouldOverride, statePriority]

/-- **What a join does to the list**: a node that is not in it is entered, and nothing else. -/
theorem getElem?_applyUpdate_join (now : Nat) (addr : SocketAddr) (hn : n ≠ ml.localId) :
    (ml.applyUpdate ovf now ⟨n, addr, .alive, 0⟩).1.members[n]?
      = some ((ml.members[n]?).getD (.withState now n addr .alive 0)) := by
  unfold applyUpdate
  rw [if_neg hn]
  cases hm : ml.members[n]? with
  | none => exact ExtTreeMap.getElem?_insert_self
  | some m =>
    dsimp only
    rw [if_pos (by simp [shouldOverride_alive_zero])]
    exact hm

end MemberList

/-- **A JOINING NODE BECOMES A MEMBER** exactly when the list does not have it as Dead. -/
theorem join_becomes_member_iff (ovf : Overflow) (p : SwimProtocol)
    (hreached : p.members.Reached ovf) (n : NodeId) (hn : n ≠ p.members.localId)
    (addr : SocketAddr) (now : Nat) (localAddr : SocketAddr) (order : IterOrder NodeId) :
    (p.handleMessage ovf now localAddr order (.join n addr)).1.members.HasMember n ↔
      ∀ m, p.members.members[n]? = some m → m.state ≠ .dead := by
  obtain ⟨now', localId, addr', ops, hrun⟩ := hreached
  have hown : MemberList.OwnEntry localId p.members := by
    rw [hrun]
    exact MemberList.ownEntry_run ovf (MemberList.ownEntry_new now' localId addr') ops
  have hafter : MemberList.OwnEntry localId
      (p.handleMessage ovf now localAddr order (.join n addr)).1.members :=
    hown.step (.applyUpdate now ⟨n, addr, .alive, 0⟩)
  rw [MemberList.hasMember_iff hafter]
  change (∃ m, (p.members.applyUpdate ovf now ⟨n, addr, .alive, 0⟩).1.members[n]? = some m ∧ _) ↔ _
  rw [MemberList.getElem?_applyUpdate_join now addr hn]
  cases hm : p.members.members[n]? with
  | none =>
    refine ⟨fun _ m h => (by cases h), fun _ => ⟨_, rfl, ?_⟩⟩
    exact MemberState.noConfusion
  | some m => simp

/-- Node 2 joins node 1, is silent, and is declared dead. -/
def silenced : List MemberList.Op :=
  [.applyUpdate 1 ⟨⟨2#128⟩, MemberList.sampleAddr, .alive, 0⟩, .markSuspect 2 ⟨2#128⟩,
    .markDead 3 ⟨2#128⟩]

def protocolAfter (ops : List MemberList.Op) : SwimProtocol :=
  .new (runState (MemberList.step .checked) (.new 0 ⟨1#128⟩ MemberList.sampleAddr) ops) ⟨4000, 500⟩

theorem join_becomes_member_iff_fresh :
    ((protocolAfter []).handleMessage .checked 4 MemberList.sampleAddr (.sorted _)
      (.join ⟨2#128⟩ MemberList.sampleAddr)).1.members.HasMember ⟨2#128⟩ := by
  refine (join_becomes_member_iff .checked (protocolAfter []) ⟨0, _, _, [], rfl⟩ ⟨2#128⟩ (by decide)
    MemberList.sampleAddr 4 MemberList.sampleAddr (.sorted _)).mpr ?_
  have hnone : (protocolAfter []).members.members[(⟨2#128⟩ : NodeId)]? = none := by decide
  rw [hnone]
  intro m hm
  cases hm

/-- **A node that comes back stays dead**: it is not a member after its Join. -/
theorem rejoin_after_death :
    ¬ ((protocolAfter silenced).handleMessage .checked 4 MemberList.sampleAddr (.sorted _)
      (.join ⟨2#128⟩ MemberList.sampleAddr)).1.members.HasMember ⟨2#128⟩ := by
  intro h
  obtain ⟨m, hm, hid⟩ := h (.sorted _)
  have honly : ∀ m ∈ ((protocolAfter silenced).handleMessage .checked 4 MemberList.sampleAddr
      (.sorted _) (.join ⟨2#128⟩ MemberList.sampleAddr)).1.members.aliveMembers (.sorted _),
      m.nodeId ≠ (⟨2#128⟩ : NodeId) := by decide
  exact honly m hm hid

end Blockyard.Gossip
