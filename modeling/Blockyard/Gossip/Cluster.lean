/-
# A cluster of SWIM nodes

`blockyard-gossip`, `swim.rs`: what the nodes of a cluster do together.  A cluster is its nodes and
the messages they have sent; a message can be delivered late, twice, out of order or never, so it
is not taken out when it is delivered.

Every message that is sent remembers which message it answers (`Packet.cause`).  That is the only
thing here that the code does not have.  With it one can say where an acknowledgement comes from:
`Cluster.Sound` holds after every run, and its last field traces each `Ack` to a ping, or to a
join, of the node it is sent to.
-/
import Blockyard.Gossip.Swim

open Std Machine

namespace Blockyard.Gossip

/-! ## 1. The cluster -/

namespace GossipMessage

def pingSeq : GossipMessage → Option Nat
  | .ping _ _ seq _ => some seq
  | _ => none

/-- The number of a request to a relay. -/
def askSeq : GossipMessage → Option Nat
  | .pingReq _ _ _ _ seq _ => some seq
  | _ => none

def askTarget : GossipMessage → Option NodeId
  | .pingReq _ _ target _ _ _ => some target
  | _ => none

def ackSeq : GossipMessage → Option Nat
  | .ack _ _ seq _ => some seq
  | _ => none

end GossipMessage

/-- A node: the address of its socket, its protocol, and the probe cycle it is in. -/
structure SwimNode where
  addr : SocketAddr
  protocol : SwimProtocol
  cycle : Option ProbeCycle

/-- A message that was sent: by whom, where to, and in answer to which message. -/
structure Packet where
  sender : NodeId
  dst : SocketAddr
  msg : GossipMessage
  cause : Option Nat
  deriving DecidableEq, Repr

/-- The nodes, and the messages sent so far. -/
structure Cluster where
  nodes : HashMap NodeId SwimNode
  sent : List Packet

/-- What a node can be made to do. -/
inductive Act
  /-- The probe loop starts a cycle. -/
  | probe (targetOrder updateOrder : IterOrder NodeId)
  /-- `wait_for_ack` returns in the cycle the node is in. -/
  | endWait (acked : Bool) (relayOrder updateOrder : IterOrder NodeId)
  /-- A message arrives. -/
  | deliver (packet : Nat) (updateOrder : IterOrder NodeId)
  | reap (order : IterOrder NodeId)
  | joinSeeds (seeds : List SocketAddr)

/-- A node, a time, and what it does. -/
structure SwimEvent where
  who : NodeId
  now : Nat
  act : Act

/-- What a node does, and which message its own messages answer; nothing if it cannot act so: the
probe loop waits for its cycle, a wait ends when it may, and a message is for one address. -/
def SwimNode.turn (ovf : Overflow) (sent : List Packet) (now : Nat) (node : SwimNode) :
    Act → Option (SwimNode × Option Nat × List Outgoing)
  | .probe targetOrder updateOrder =>
    if node.cycle.isSome then none
    else
      let (protocol, cycle, out) :=
        node.protocol.startProbe ovf now node.addr targetOrder updateOrder
      some ({ node with protocol, cycle }, none, out)
  | .endWait acked relayOrder updateOrder =>
    match node.cycle with
    | none => none
    | some cycle =>
      if node.protocol.mayReturn now cycle acked then
        let (protocol, cycle, out) :=
          node.protocol.endWait now node.addr relayOrder updateOrder cycle acked
        some ({ node with protocol, cycle }, none, out)
      else none
  | .deliver i updateOrder =>
    match sent[i]? with
    | none => none
    | some packet =>
      if packet.dst = node.addr then
        let (protocol, out) :=
          node.protocol.handleMessage ovf now node.addr updateOrder packet.msg
        some ({ node with protocol }, some i, out)
      else none
  | .reap order => some ({ node with protocol := node.protocol.reapSuspects now order }, none, [])
  | .joinSeeds seeds => some (node, none, node.protocol.joinSeeds node.addr seeds)

namespace Cluster

/-- A node is put back, and what it sends is filed. -/
def put (c : Cluster) (n : NodeId) (node : SwimNode) (cause : Option Nat) (out : List Outgoing) :
    Cluster where
  nodes := c.nodes.insert n node
  sent := c.sent ++ out.map fun o => ⟨n, o.1, o.2, cause⟩

def next (ovf : Overflow) (c : Cluster) (ev : SwimEvent) : Cluster :=
  match c.nodes[ev.who]? with
  | none => c
  | some node =>
    match node.turn ovf c.sent ev.now ev.act with
    | none => c
    | some (node, cause, out) => c.put ev.who node cause out

def step (ovf : Overflow) (c : Cluster) (ev : SwimEvent) : Cluster × Unit := (c.next ovf ev, ())

def pending (c : Cluster) (n : NodeId) : HashMap Nat PendingProbe :=
  match c.nodes[n]? with
  | some node => node.protocol.pendingProbes
  | none => ∅

end Cluster

/-- The nodes of a cluster, each at an address of its own. -/
structure Roster where
  ids : List NodeId
  addrOf : NodeId → SocketAddr
  distinct : ∀ a ∈ ids, ∀ b ∈ ids, addrOf a = addrOf b → a = b

namespace Roster

/-- A node that has just been started. -/
def node (r : Roster) (config : SwimConfig) (now : Nat) (n : NodeId) : SwimNode where
  addr := r.addrOf n
  protocol := .new (.new now n (r.addrOf n)) config
  cycle := none

/-- The cluster before anything happens. -/
def start (r : Roster) (config : SwimConfig) (now : Nat) : Cluster where
  nodes := r.ids.foldl (fun nodes n => nodes.insert n (r.node config now n)) ∅
  sent := []

def run (r : Roster) (ovf : Overflow) (config : SwimConfig) (now : Nat) (events : List SwimEvent) :
    Cluster :=
  runState (Cluster.step ovf) (r.start config now) events

end Roster

/-! ## 2. What an event does -/

section Effects

variable {ovf : Overflow} {c : Cluster} {ev : SwimEvent}

/-- **An event is one turn of one node.** -/
theorem next_cases (ovf : Overflow) (c : Cluster) (ev : SwimEvent) :
    c.next ovf ev = c ∨ ∃ node node' cause out, c.nodes[ev.who]? = some node ∧
      node.turn ovf c.sent ev.now ev.act = some (node', cause, out) ∧
      c.next ovf ev = c.put ev.who node' cause out := by
  unfold Cluster.next
  cases hnode : c.nodes[ev.who]? with
  | none => exact Or.inl rfl
  | some node =>
    dsimp only
    cases hturn : node.turn ovf c.sent ev.now ev.act with
    | none => exact Or.inl rfl
    | some result =>
      obtain ⟨node', cause, out⟩ := result
      exact Or.inr ⟨node, node', cause, out, rfl, hturn, rfl⟩

theorem getElem?_sent_next {i : Nat} {packet : Packet} (h : c.sent[i]? = some packet)
    (ev : SwimEvent) : (c.next ovf ev).sent[i]? = some packet := by
  rcases next_cases ovf c ev with heq | ⟨node, node', cause, out, -, -, heq⟩
  · rwa [heq]
  · rw [heq]
    exact List.getElem?_append_left (List.getElem?_eq_some_iff.mp h).1 ▸ h

/-- What is filed behind an event was there before, or the node has just sent it. -/
theorem mem_sent_put {n : NodeId} {node : SwimNode} {cause : Option Nat} {out : List Outgoing}
    {packet : Packet} (h : packet ∈ (c.put n node cause out).sent) :
    packet ∈ c.sent ∨ packet.sender = n ∧ packet.cause = cause ∧
      (packet.dst, packet.msg) ∈ out := by
  rcases List.mem_append.mp h with hold | hnew
  · exact Or.inl hold
  · obtain ⟨o, ho, rfl⟩ := List.mem_map.mp hnew
    exact Or.inr ⟨rfl, rfl, ho⟩

end Effects

namespace SwimProtocol

variable {ovf : Overflow} {now : Nat} {localAddr : SocketAddr} {p : SwimProtocol}

/-- What starting a probe does: nothing to be seen, or a ping to one target, whose probe is
pending from then on. -/
theorem startProbe_cases (ovf : Overflow) (now : Nat) (localAddr : SocketAddr)
    (targetOrder updateOrder : IterOrder NodeId) (p : SwimProtocol) :
    (∃ p' : SwimProtocol,
        p.startProbe ovf now localAddr targetOrder updateOrder = (p', none, []) ∧
        p'.members = p.members ∧ p'.pendingProbes = p.pendingProbes) ∨
      ∃ (p' : SwimProtocol) (target : Member) (seq deadline : Nat),
        p.startProbe ovf now localAddr targetOrder updateOrder
          = (p', some ⟨target.nodeId, target.addr, seq, deadline, false⟩,
            [(target.addr, .ping p.members.localId localAddr seq
              (p.members.recentUpdates updateOrder maxPiggybackUpdates))]) ∧
        target ∈ p.members.probeTargets targetOrder ∧ p'.members = p.members ∧
        p'.pendingProbes = p.pendingProbes.insert seq ⟨target.nodeId, now, false⟩ := by
  unfold startProbe nextSeq
  split
  · exact Or.inl ⟨p, rfl, rfl, rfl⟩
  · next first others htargets =>
    rw [htargets]
    rcases addU64 ovf p.seq 1 with _ | turn
    · exact Or.inl ⟨p, rfl, rfl, rfl⟩
    · dsimp only
      rcases addU64 ovf turn 1 with _ | seq
      · exact Or.inl ⟨_, rfl, rfl, rfl⟩
      · refine Or.inr ⟨_, (first :: others).getD (turn % (first :: others).length) first, seq, _,
          rfl, ?_, rfl, rfl⟩
        have hlt : turn % (first :: others).length < (first :: others).length :=
          Nat.mod_lt _ (Nat.succ_pos _)
        rw [List.getD_eq_getElem _ _ hlt]
        exact List.getElem_mem _

/-- Every pending probe of the second table is one of the first, with its number and target. -/
def Shrinks (before after : HashMap Nat PendingProbe) : Prop :=
  ∀ (s : Nat) (probe : PendingProbe), after[s]? = some probe →
    ∃ old, before[s]? = some old ∧ old.target = probe.target

theorem Shrinks.refl (probes : HashMap Nat PendingProbe) : Shrinks probes probes :=
  fun _ probe h => ⟨probe, h, rfl⟩

theorem getElem?_of_erase {probes : HashMap Nat PendingProbe} {s k : Nat} {probe : PendingProbe}
    (h : (probes.erase k)[s]? = some probe) : probes[s]? = some probe := by
  rw [ExtTreeMap.getElem?_erase] at h
  split at h
  · cases h
  · exact h

theorem Shrinks.erase {before after : HashMap Nat PendingProbe} (h : Shrinks before after)
    (k : Nat) : Shrinks before (after.erase k) :=
  fun s probe hs => h s probe (getElem?_of_erase hs)

/-- What sending indirect probes does: requests to relays, and a mark on the probe. -/
theorem sendIndirectProbes_spec (localAddr : SocketAddr) (relayOrder updateOrder : IterOrder NodeId)
    (targetId : NodeId) (targetAddr : SocketAddr) (seq : Nat) (p : SwimProtocol) :
    let (p', out) := p.sendIndirectProbes localAddr relayOrder updateOrder targetId targetAddr seq
    p'.members = p.members ∧ Shrinks p.pendingProbes p'.pendingProbes ∧
      ∀ o ∈ out, o.2 = .pingReq p.members.localId localAddr targetId targetAddr seq
        (p.members.recentUpdates updateOrder maxPiggybackUpdates) := by
  unfold sendIndirectProbes
  split
  next hsplit =>
    split at hsplit
    · cases hsplit
      exact ⟨rfl, .refl _, by simp⟩
    · cases hsplit
      refine ⟨rfl, ?_, ?_⟩
      · dsimp only
        split
        · next probe hprobe =>
          intro s probe' hs
          rcases eq_or_ne seq s with rfl | hne
          · rw [ExtTreeMap.getElem?_insert_self, Option.some.injEq] at hs
            exact ⟨probe, hprobe, by rw [← hs]⟩
          · exact ⟨probe', by rwa [getElem?_insert_of_ne _ hne] at hs, rfl⟩
        · exact .refl _
      · intro o ho
        obtain ⟨relay, -, rfl⟩ := List.mem_map.mp ho
        rfl

/-- What the end of a wait does: it never pings, and it adds no pending probe. -/
theorem endWait_spec (now : Nat) (localAddr : SocketAddr)
    (relayOrder updateOrder : IterOrder NodeId) (cycle : ProbeCycle) (acked : Bool)
    (p : SwimProtocol) :
    ∃ (p' : SwimProtocol) (cycle' : Option ProbeCycle) (out : List Outgoing),
      p.endWait now localAddr relayOrder updateOrder cycle acked = (p', cycle', out) ∧
      (p'.members = p.members ∨ p'.members = (p.members.markSuspect now cycle.target).1) ∧
      Shrinks p.pendingProbes p'.pendingProbes ∧
      (∀ next, cycle' = some next →
        next.target = cycle.target ∧ next.targetAddr = cycle.targetAddr) ∧
      ∀ o ∈ out, o.2 = .pingReq p.members.localId localAddr cycle.target cycle.targetAddr cycle.seq
        (p.members.recentUpdates updateOrder maxPiggybackUpdates) := by
  unfold endWait
  dsimp only
  split
  · exact ⟨_, _, _, rfl, Or.inl rfl, (Shrinks.refl _).erase _, nofun, by simp⟩
  · split
    · exact ⟨_, _, _, rfl, Or.inr rfl, (Shrinks.refl _).erase _, nofun, by simp⟩
    · obtain ⟨hmembers, hshrinks, hout⟩ := sendIndirectProbes_spec localAddr relayOrder updateOrder
        cycle.target cycle.targetAddr cycle.seq p
      refine ⟨_, _, _, rfl, Or.inl hmembers, hshrinks, ?_, hout⟩
      intro next hnext
      cases hnext
      exact ⟨rfl, rfl⟩

end SwimProtocol

theorem MemberList.localId_applyUpdates (ovf : Overflow) (now : Nat) (ml : MemberList)
    (updates : List MembershipUpdate) :
    (ml.applyUpdates ovf now updates).1.localId = ml.localId := by
  induction updates generalizing ml with
  | nil => rfl
  | cons update updates ih =>
    have hone : (ml.applyUpdate ovf now update).1.localId = ml.localId :=
      MemberList.localId_applyUpdate now update
    unfold MemberList.applyUpdates
    split
    · next ml' heq => rwa [heq] at hone
    · next ml' changed heq =>
      rw [heq] at hone
      rw [ih ml', hone]

namespace GossipMessage

/-- The message without the updates that are piggybacked on it. -/
def bare : GossipMessage → GossipMessage
  | .ping sender fromAddr seq _ => .ping sender fromAddr seq []
  | .pingReq sender fromAddr target targetAddr seq _ =>
    .pingReq sender fromAddr target targetAddr seq []
  | .ack sender fromAddr seq _ => .ack sender fromAddr seq []
  | msg => msg

/-- What a node sends when it has handled a message, bare. -/
def replies (localId : NodeId) (localAddr : SocketAddr) : GossipMessage → List Outgoing
  | .ping _ fromAddr seq _ => [(fromAddr, .ack localId localAddr seq [])]
  | .pingReq _ _ _ targetAddr seq _ => [(targetAddr, .ping localId localAddr seq [])]
  | .join _ addr => [(addr, .ack localId localAddr 0 [])]
  | _ => []

def settle (msg : GossipMessage) (pending : HashMap Nat PendingProbe) : HashMap Nat PendingProbe :=
  match msg.ackSeq with
  | some seq => pending.erase seq
  | none => pending

end GossipMessage

namespace SwimProtocol

variable {ovf : Overflow} {now : Nat} {localAddr : SocketAddr} {p : SwimProtocol}
  {updateOrder : IterOrder NodeId} {msg : GossipMessage}

theorem handleMessage_of_panicked
    (h : (p.members.applyUpdates ovf now msg.updates).2 = false) :
    p.handleMessage ovf now localAddr updateOrder msg
      = ({ p with members := (p.members.applyUpdates ovf now msg.updates).1 }, []) := by
  unfold handleMessage
  split
  · next members heq => rw [heq]
  · next members heq => rw [heq] at h; cases h

/-- **What handling a message does** to the pending probes, and what is sent, does not depend on
the member list. -/
theorem handleMessage_of_completed (localAddr : SocketAddr) (updateOrder : IterOrder NodeId)
    (h : (p.members.applyUpdates ovf now msg.updates).2 = true) :
    ∃ (p' : SwimProtocol) (out : List Outgoing),
      p.handleMessage ovf now localAddr updateOrder msg = (p', out) ∧
      p'.members.localId = p.members.localId ∧
      p'.pendingProbes = msg.settle p.pendingProbes ∧
      (out.map fun o => (o.1, o.2.bare)) = msg.replies p.members.localId localAddr := by
  have hid := MemberList.localId_applyUpdates ovf now p.members msg.updates
  unfold handleMessage
  split
  · next members heq => rw [heq] at h; cases h
  · next members heq =>
    rw [heq] at hid
    rw [← hid]
    cases msg with
    | join nodeId addr =>
      have hjoin : (members.applyUpdate ovf now ⟨nodeId, addr, .alive, 0⟩).1.localId
          = members.localId := MemberList.localId_applyUpdate now _
      refine ⟨_, _, rfl, hjoin, rfl, ?_⟩
      change [(addr, GossipMessage.ack (members.applyUpdate ovf now _).1.localId localAddr 0 [])]
        = _
      rw [hjoin]
      rfl
    | alive nodeId addr incarnation =>
      exact ⟨_, _, rfl, MemberList.localId_applyUpdate now _, rfl, rfl⟩
    | suspect nodeId addr incarnation =>
      exact ⟨_, _, rfl, MemberList.localId_applyUpdate now _, rfl, rfl⟩
    | dead nodeId addr incarnation =>
      exact ⟨_, _, rfl, MemberList.localId_applyUpdate now _, rfl, rfl⟩
    | _ => exact ⟨_, _, rfl, rfl, rfl, rfl⟩

/-- Either way, what is sent is among the replies and what is pending was pending. -/
theorem handleMessage_spec (ovf : Overflow) (now : Nat) (localAddr : SocketAddr)
    (updateOrder : IterOrder NodeId) (p : SwimProtocol) (msg : GossipMessage) :
    ∃ (p' : SwimProtocol) (out : List Outgoing),
      p.handleMessage ovf now localAddr updateOrder msg = (p', out) ∧
      p'.members.localId = p.members.localId ∧
      (p'.pendingProbes = p.pendingProbes ∨ p'.pendingProbes = msg.settle p.pendingProbes) ∧
      ∀ o ∈ out, (o.1, o.2.bare) ∈ msg.replies p.members.localId localAddr := by
  cases h : (p.members.applyUpdates ovf now msg.updates).2 with
  | false =>
    refine ⟨_, _, handleMessage_of_panicked h, ?_, Or.inl rfl, by simp⟩
    exact MemberList.localId_applyUpdates ovf now p.members msg.updates
  | true =>
    obtain ⟨p', out, heq, hid, hpending, hout⟩ :=
      handleMessage_of_completed localAddr updateOrder h
    refine ⟨p', out, heq, hid, Or.inr hpending, fun o ho => ?_⟩
    rw [← hout]
    exact List.mem_map_of_mem ho

end SwimProtocol

/-! ## 3. What the nodes know of each other

Addresses only travel from the node they belong to, so every address in the cluster is right.
-/

/-- The node is one of the cluster, and this is its address. -/
def Roster.Knows (r : Roster) (n : NodeId) (addr : SocketAddr) : Prop :=
  n ∈ r.ids ∧ addr = r.addrOf n

/-- Every entry has a node of the cluster at its address. -/
def MemberList.Truthful (r : Roster) (ml : MemberList) : Prop :=
  ∀ (k : NodeId) (m : Member), ml.members[k]? = some m → r.Knows m.nodeId m.addr

/-- A message that a node of the cluster sends: it says who sends it, and every address in it is
right. -/
def GossipMessage.Truthful (r : Roster) (sender : NodeId) (msg : GossipMessage) : Prop :=
  (∀ u ∈ msg.updates, r.Knows u.nodeId u.addr) ∧
    match msg with
    | .ping n addr _ _ | .ack n addr _ _ | .join n addr => n = sender ∧ addr = r.addrOf sender
    | .pingReq n addr target targetAddr _ _ =>
      n = sender ∧ addr = r.addrOf sender ∧ r.Knows target targetAddr
    | .alive .. | .suspect .. | .dead .. => False

/-- What is right about a node. -/
structure SwimNode.Truthful (r : Roster) (n : NodeId) (node : SwimNode) : Prop where
  mem : n ∈ r.ids
  addr : node.addr = r.addrOf n
  localId : node.protocol.members.localId = n
  members : node.protocol.members.Truthful r
  cycle : ∀ cycle, node.cycle = some cycle → r.Knows cycle.target cycle.targetAddr

namespace MemberList

variable {r : Roster} {ml : MemberList} {ovf : Overflow}

theorem Truthful.insert (h : ml.Truthful r) (k : NodeId) {m : Member}
    (hm : r.Knows m.nodeId m.addr) :
    ({ ml with members := ml.members.insert k m } : MemberList).Truthful r := by
  intro k' m' hk'
  rcases eq_or_ne k k' with rfl | hne
  · rw [ExtTreeMap.getElem?_insert_self, Option.some.injEq] at hk'
    rwa [← hk']
  · rw [getElem?_insert_of_ne _ hne] at hk'
    exact h k' m' hk'

theorem Truthful.applyUpdate (h : ml.Truthful r) (now : Nat) {u : MembershipUpdate}
    (hu : r.Knows u.nodeId u.addr) : (ml.applyUpdate ovf now u).1.Truthful r := by
  unfold MemberList.applyUpdate
  split
  · unfold Truthful
    rw [(handleLocalUpdate_frame ovf ml u).2]
    exact h
  · dsimp only
    split
    · exact h
    · exact h.insert _ hu

theorem Truthful.applyUpdates (now : Nat) {updates : List MembershipUpdate}
    (h : ml.Truthful r) (hu : ∀ u ∈ updates, r.Knows u.nodeId u.addr) :
    (ml.applyUpdates ovf now updates).1.Truthful r := by
  induction updates generalizing ml with
  | nil => exact h
  | cons update updates ih =>
    have hone : (ml.applyUpdate ovf now update).1.Truthful r :=
      h.applyUpdate now (hu update List.mem_cons_self)
    unfold MemberList.applyUpdates
    split
    · next ml' heq => rwa [heq] at hone
    · next ml' changed heq =>
      rw [heq] at hone
      exact ih hone fun u hmem => hu u (List.mem_cons_of_mem _ hmem)

theorem Truthful.markSuspect (h : ml.Truthful r) (now : Nat) (n : NodeId) :
    (ml.markSuspect now n).1.Truthful r := by
  unfold MemberList.markSuspect
  split
  · next m hm =>
    split
    · exact h.insert n (h n m hm)
    · exact h
  · exact h

theorem Truthful.markDead (h : ml.Truthful r) (now : Nat) (n : NodeId) :
    (ml.markDead now n).1.Truthful r := by
  unfold MemberList.markDead
  split
  · next m hm =>
    split
    · exact h.insert n (h n m hm)
    · exact h
  · exact h

theorem localId_markSuspect (now : Nat) (n : NodeId) :
    (ml.markSuspect now n).1.localId = ml.localId := by
  unfold MemberList.markSuspect
  split
  · split <;> rfl
  · rfl

theorem localId_markDead (now : Nat) (n : NodeId) :
    (ml.markDead now n).1.localId = ml.localId := by
  unfold MemberList.markDead
  split
  · split <;> rfl
  · rfl

theorem Truthful.markAllDead (now : Nat) (suspects : List Member) (h : ml.Truthful r) :
    (suspects.foldl (fun ml m => (ml.markDead now m.nodeId).1) ml).Truthful r ∧
      (suspects.foldl (fun ml m => (ml.markDead now m.nodeId).1) ml).localId = ml.localId := by
  induction suspects generalizing ml with
  | nil => exact ⟨h, rfl⟩
  | cons m suspects ih =>
    obtain ⟨htruth, hid⟩ := ih (h.markDead now m.nodeId)
    exact ⟨htruth, hid.trans (localId_markDead now m.nodeId)⟩

theorem Truthful.recentUpdates (h : ml.Truthful r) (order : IterOrder NodeId) (maxCount : Nat) :
    ∀ u ∈ ml.recentUpdates order maxCount, r.Knows u.nodeId u.addr := by
  intro u hu
  obtain ⟨k, m, hm, rfl⟩ := exists_of_mem_recentUpdates hu
  exact h k m hm

end MemberList

section Truth

variable {r : Roster} {ovf : Overflow} {now : Nat} {n : NodeId} {p : SwimProtocol}

/-- **Handling a true message** leaves a true list, and true messages are sent. -/
theorem handleMessage_truthful (ovf : Overflow) (now : Nat) (updateOrder : IterOrder NodeId)
    {sender : NodeId} {msg : GossipMessage} (hid : p.members.localId = n)
    (hml : p.members.Truthful r) (hsender : sender ∈ r.ids) (hmsg : msg.Truthful r sender) :
    let (p', out) := p.handleMessage ovf now (r.addrOf n) updateOrder msg
    p'.members.Truthful r ∧ ∀ o ∈ out, o.2.Truthful r n := by
  have happly : (p.members.applyUpdates ovf now msg.updates).1.Truthful r :=
    hml.applyUpdates now hmsg.1
  have hsame : (p.members.applyUpdates ovf now msg.updates).1.localId = n :=
    (MemberList.localId_applyUpdates ovf now p.members msg.updates).trans hid
  unfold SwimProtocol.handleMessage
  split
  next p' out hhandled =>
  split at hhandled
  · next members heq =>
    rw [heq] at happly
    cases hhandled
    exact ⟨happly, by simp⟩
  · next members heq =>
    rw [heq] at happly hsame
    obtain ⟨-, htold⟩ := hmsg
    cases msg with
    | ping _ fromAddr seq updates =>
      cases hhandled
      refine ⟨happly, fun o ho => ?_⟩
      rw [List.mem_singleton.mp ho]
      exact ⟨happly.recentUpdates _ _, hsame, rfl⟩
    | pingReq _ _ target targetAddr seq updates =>
      cases hhandled
      refine ⟨happly, fun o ho => ?_⟩
      rw [List.mem_singleton.mp ho]
      exact ⟨happly.recentUpdates _ _, hsame, rfl⟩
    | ack _ _ seq updates =>
      cases hhandled
      exact ⟨happly, by simp⟩
    | join nodeId addr =>
      obtain ⟨rfl, rfl⟩ := htold
      have hjoined :
          (members.applyUpdate ovf now ⟨nodeId, r.addrOf nodeId, .alive, 0⟩).1.Truthful r :=
        happly.applyUpdate now ⟨hsender, rfl⟩
      cases hhandled
      refine ⟨hjoined, fun o ho => ?_⟩
      rw [List.mem_singleton.mp ho]
      exact ⟨hjoined.recentUpdates _ _, (MemberList.localId_applyUpdate now _).trans hsame, rfl⟩
    | alive => exact htold.elim
    | suspect => exact htold.elim
    | dead => exact htold.elim

/-- What a turn can do to the probes of a node, and to those of others. -/
inductive Effect (ovf : Overflow) (sent : List Packet) (now : Nat) (node node' : SwimNode)
    (out : List Outgoing) : Act → Option Nat → Prop
  /-- A probe begins. -/
  | pings {targetOrder updateOrder : IterOrder NodeId} {cycle : ProbeCycle}
      {updates : List MembershipUpdate} (idle : node.cycle = none)
      (starts : (node.protocol.startProbe ovf now node.addr targetOrder updateOrder).2.1
        = some cycle)
      (waits : node'.cycle = some cycle)
      (pending : node'.protocol.pendingProbes
        = node.protocol.pendingProbes.insert cycle.seq ⟨cycle.target, now, false⟩)
      (sends : out = [(cycle.targetAddr,
        .ping node.protocol.members.localId node.addr cycle.seq updates)]) :
      Effect ovf sent now node node' out (.probe targetOrder updateOrder) none
  /-- A message is handled. -/
  | handles {i : Nat} {updateOrder : IterOrder NodeId} {packet : Packet}
      (received : sent[i]? = some packet) (dst : packet.dst = node.addr)
      (pending : node'.protocol.pendingProbes = node.protocol.pendingProbes ∨
        node'.protocol.pendingProbes = packet.msg.settle node.protocol.pendingProbes)
      (sends : ∀ o ∈ out,
        (o.1, o.2.bare) ∈ packet.msg.replies node.protocol.members.localId node.addr) :
      Effect ovf sent now node node' out (.deliver i updateOrder) (some i)
  /-- Anything else: no probe begins, nothing is acknowledged. -/
  | quiet {act : Act} (other : ∀ i updateOrder, act ≠ .deliver i updateOrder)
      (pending : SwimProtocol.Shrinks node.protocol.pendingProbes node'.protocol.pendingProbes)
      (sends : ∀ o ∈ out, o.2.pingSeq = none ∧ o.2.ackSeq = none) :
      Effect ovf sent now node node' out act none

/-- **What a turn does**: it has one of these effects, it keeps a node right, and what it sends is
right. -/
theorem turn_spec {sent : List Packet} {node node' : SwimNode} {act : Act} {cause : Option Nat}
    {out : List Outgoing} (hturn : node.turn ovf sent now act = some (node', cause, out)) :
    Effect ovf sent now node node' out act cause ∧
      ∀ (r : Roster) (n : NodeId), node.Truthful r n →
        (∀ packet ∈ sent, packet.sender ∈ r.ids ∧ packet.msg.Truthful r packet.sender) →
        node'.Truthful r n ∧ ∀ o ∈ out, o.2.Truthful r n := by
  cases act with
  | probe targetOrder updateOrder =>
    simp only [SwimNode.turn] at hturn
    split at hturn
    · cases hturn
    · next hidle =>
      rcases node.protocol.startProbe_cases ovf now node.addr targetOrder updateOrder with
        ⟨p', heq, hmembers, hpending⟩ |
        ⟨p', target, seq, deadline, heq, htarget, hmembers, hpending⟩
      · rw [heq] at hturn
        cases hturn
        refine ⟨.quiet nofun (hpending ▸ .refl _) (by simp), fun r n h _ => ⟨?_, by simp⟩⟩
        exact ⟨h.mem, h.addr, hmembers ▸ h.localId, hmembers ▸ h.members, nofun⟩
      · have hstarts := congrArg (fun result => result.2.1) heq
        rw [heq] at hturn
        cases hturn
        refine ⟨.pings (by simpa using hidle) hstarts rfl hpending rfl, fun r n h _ => ?_⟩
        refine ⟨⟨h.mem, h.addr, hmembers ▸ h.localId, hmembers ▸ h.members, ?_⟩, fun o ho => ?_⟩
        · intro cycle hcyc
          cases hcyc
          obtain ⟨k, hk⟩ := MemberList.mem_scan.mp (List.mem_filter.mp htarget).1
          exact h.members k target hk
        · rw [List.mem_singleton.mp ho]
          exact ⟨h.members.recentUpdates _ _, h.localId, h.addr⟩
  | endWait acked relayOrder updateOrder =>
    simp only [SwimNode.turn] at hturn
    split at hturn
    · cases hturn
    · next cycle hcyc =>
      split at hturn
      · obtain ⟨p', cycle', out', heq, hmembers, hshrinks, hkeeps, hout⟩ :=
          node.protocol.endWait_spec now node.addr relayOrder updateOrder cycle acked
        rw [heq] at hturn
        cases hturn
        refine ⟨.quiet nofun hshrinks fun o ho => hout o ho ▸ ⟨rfl, rfl⟩, fun r n h _ => ?_⟩
        have hknows := h.cycle cycle hcyc
        refine ⟨⟨h.mem, h.addr, ?_, ?_, fun next hnext => ?_⟩, fun o ho => ?_⟩
        · rcases hmembers with hsame | hmarked
          · rw [hsame, h.localId]
          · rw [hmarked, MemberList.localId_markSuspect, h.localId]
        · rcases hmembers with hsame | hmarked
          · exact hsame ▸ h.members
          · exact hmarked ▸ h.members.markSuspect now cycle.target
        · obtain ⟨htarget, htargetAddr⟩ := hkeeps next hnext
          rw [htarget, htargetAddr]
          exact hknows
        · rw [hout o ho]
          exact ⟨h.members.recentUpdates _ _, h.localId, h.addr, hknows⟩
      · cases hturn
  | deliver i updateOrder =>
    simp only [SwimNode.turn] at hturn
    split at hturn
    · cases hturn
    · next packet hpacket =>
      split at hturn
      · next hdst =>
        obtain ⟨p', out', heq, hsame, hpending, hout⟩ :=
          node.protocol.handleMessage_spec ovf now node.addr updateOrder packet.msg
        rw [heq] at hturn
        cases hturn
        refine ⟨.handles hpacket hdst hpending hout, fun r n h hsent => ?_⟩
        obtain ⟨hsender, hmsg⟩ := hsent packet (List.mem_of_getElem? hpacket)
        have htrue := handleMessage_truthful ovf now updateOrder h.localId h.members hsender hmsg
        rw [← h.addr, heq] at htrue
        exact ⟨⟨h.mem, h.addr, hsame.trans h.localId, htrue.1, h.cycle⟩, htrue.2⟩
      · cases hturn
  | reap order =>
    cases hturn
    refine ⟨.quiet nofun (.refl _) (by simp), fun r n h _ => ?_⟩
    obtain ⟨htrue, hsame⟩ := h.members.markAllDead now _
    exact ⟨⟨h.mem, h.addr, hsame.trans h.localId, htrue, h.cycle⟩, by simp⟩
  | joinSeeds seeds =>
    cases hturn
    have hjoin : ∀ o ∈ node.protocol.joinSeeds node.addr seeds,
        o.2 = .join node.protocol.members.localId node.addr := by
      intro o ho
      obtain ⟨seed, -, rfl⟩ := List.mem_map.mp ho
      rfl
    refine ⟨.quiet nofun (.refl _) fun o ho => hjoin o ho ▸ ⟨rfl, rfl⟩, fun r n h _ => ⟨h, ?_⟩⟩
    intro o ho
    rw [hjoin o ho]
    exact ⟨by simp [GossipMessage.updates], h.localId, h.addr⟩

end Truth

/-! ## 4. Where acknowledgements come from -/

namespace GossipMessage

@[simp] theorem pingSeq_bare (msg : GossipMessage) : msg.bare.pingSeq = msg.pingSeq := by
  cases msg <;> rfl

@[simp] theorem askSeq_bare (msg : GossipMessage) : msg.bare.askSeq = msg.askSeq := by
  cases msg <;> rfl

@[simp] theorem askTarget_bare (msg : GossipMessage) : msg.bare.askTarget = msg.askTarget := by
  cases msg <;> rfl

@[simp] theorem ackSeq_bare (msg : GossipMessage) : msg.bare.ackSeq = msg.ackSeq := by
  cases msg <;> rfl

variable {r : Roster} {sender localId : NodeId} {localAddr dst : SocketAddr}
  {msg reply : GossipMessage} {s : Nat}

/-- An acknowledgement answers a ping, under its number, or a join, under 0. -/
theorem ack_of_mem_replies (hmsg : msg.Truthful r sender)
    (hreply : (dst, reply.bare) ∈ msg.replies localId localAddr) (hack : reply.ackSeq = some s) :
    dst = r.addrOf sender ∧ (msg.pingSeq = some s ∨ s = 0) := by
  rw [← ackSeq_bare] at hack
  generalize reply.bare = sentBack at hreply hack
  obtain ⟨-, htold⟩ := hmsg
  cases msg with
  | ping n addr seq updates =>
    cases List.mem_singleton.mp hreply
    exact ⟨htold.2, Or.inl hack⟩
  | pingReq n addr target targetAddr seq updates =>
    cases List.mem_singleton.mp hreply
    cases hack
  | join n addr =>
    cases List.mem_singleton.mp hreply
    cases hack
    exact ⟨htold.2, Or.inr rfl⟩
  | _ => cases hreply

/-- A ping that is a reply is a relayed one, under the number of the request. -/
theorem ask_of_mem_replies (hreply : (dst, reply.bare) ∈ msg.replies localId localAddr)
    (hping : reply.pingSeq = some s) : msg.askSeq = some s := by
  rw [← pingSeq_bare] at hping
  generalize reply.bare = sentBack at hreply hping
  cases msg with
  | pingReq n addr target targetAddr seq updates =>
    cases List.mem_singleton.mp hreply
    exact hping
  | ping n addr seq updates =>
    cases List.mem_singleton.mp hreply
    cases hping
  | join n addr =>
    cases List.mem_singleton.mp hreply
    cases hping
  | _ => cases hreply

end GossipMessage

/-- The acknowledgement `q` answers a message of the node it is sent to: a ping under its number,
or else its number is 0. -/
def Answers (r : Roster) (sent : List Packet) (q : Packet) (s : Nat) : Prop :=
  ∃ i p, q.cause = some i ∧ sent[i]? = some p ∧ p.dst = r.addrOf q.sender ∧
    q.dst = r.addrOf p.sender ∧ (p.msg.pingSeq = some s ∨ s = 0)

/-- What holds of a cluster whatever has happened. -/
structure Cluster.Sound (r : Roster) (c : Cluster) : Prop where
  node : ∀ (n : NodeId) (node : SwimNode), c.nodes[n]? = some node → node.Truthful r n
  packet : ∀ packet ∈ c.sent, packet.sender ∈ r.ids ∧ packet.msg.Truthful r packet.sender
  answers : ∀ q ∈ c.sent, ∀ s, q.msg.ackSeq = some s → Answers r c.sent q s

section Soundness

variable {r : Roster} {ovf : Overflow} {c : Cluster}

theorem Answers.append {sent : List Packet} {q : Packet} {s : Nat} (h : Answers r sent q s)
    (later : List Packet) : Answers r (sent ++ later) q s := by
  obtain ⟨i, p, hcause, hp, hrest⟩ := h
  refine ⟨i, p, hcause, ?_, hrest⟩
  rw [List.getElem?_append_left (List.getElem?_eq_some_iff.mp hp).1, hp]

theorem Effect.answers {sent : List Packet} {now : Nat} {n : NodeId} {node node' : SwimNode}
    {out : List Outgoing} {act : Act} {cause : Option Nat}
    (heffect : Effect ovf sent now node node' out act cause) (hnode : node.Truthful r n)
    (hsent : ∀ packet ∈ sent, packet.sender ∈ r.ids ∧ packet.msg.Truthful r packet.sender)
    {q : Packet} {s : Nat} (hsender : q.sender = n) (hcause : q.cause = cause)
    (hq : (q.dst, q.msg) ∈ out) (hack : q.msg.ackSeq = some s) : Answers r sent q s := by
  cases heffect with
  | pings idle starts waits pending sends =>
    rw [sends, List.mem_singleton, Prod.mk.injEq] at hq
    rw [hq.2] at hack
    cases hack
  | @handles i updateOrder packet received dst pending sends =>
    obtain ⟨-, hmsg⟩ := hsent packet (List.mem_of_getElem? received)
    obtain ⟨hdst, hnumber⟩ := GossipMessage.ack_of_mem_replies hmsg (sends _ hq) hack
    refine ⟨i, packet, hcause, received, ?_, hdst, hnumber⟩
    rw [dst, hnode.addr, hsender]
  | quiet other pending sends =>
    have hnone := (sends _ hq).2
    rw [hack] at hnone
    cases hnone

theorem getElem?_nodes_start {config : SwimConfig} {now : Nat} {n : NodeId} {node : SwimNode}
    (h : (r.start config now).nodes[n]? = some node) :
    n ∈ r.ids ∧ node = r.node config now n := by
  have hfold := List.foldlRecOn r.ids (fun nodes n => nodes.insert n (r.node config now n))
    (motive := fun nodes : HashMap NodeId SwimNode => ∀ (k : NodeId) (v : SwimNode),
      nodes[k]? = some v → k ∈ r.ids ∧ v = r.node config now k)
    (show ∀ (k : NodeId) (v : SwimNode), (∅ : HashMap NodeId SwimNode)[k]? = some v → _ by simp)
  refine hfold ?_ n node h
  intro nodes ih m hm k v hk
  rcases eq_or_ne m k with rfl | hne
  · rw [ExtTreeMap.getElem?_insert_self, Option.some.injEq] at hk
    exact ⟨hm, hk.symm⟩
  · rw [getElem?_insert_of_ne _ hne] at hk
    exact ih k v hk

theorem sound_start (r : Roster) (config : SwimConfig) (now : Nat) :
    (r.start config now).Sound r where
  node := by
    intro n node h
    obtain ⟨hmem, rfl⟩ := getElem?_nodes_start h
    refine ⟨hmem, rfl, rfl, ?_, nofun⟩
    intro k m hm
    rcases eq_or_ne n k with rfl | hne
    · have hself : m = .new now n (r.addrOf n) := by
        simpa [Roster.node, SwimProtocol.new, MemberList.new] using hm.symm
      rw [hself]
      exact ⟨hmem, rfl⟩
    · simp only [Roster.node, SwimProtocol.new, MemberList.new] at hm
      rw [getElem?_insert_of_ne _ hne] at hm
      simp at hm
  packet := by simp [Roster.start]
  answers := by simp [Roster.start]

/-- **An event keeps a cluster sound.** -/
theorem Cluster.Sound.next (h : c.Sound r) (ovf : Overflow) (ev : SwimEvent) :
    (c.next ovf ev).Sound r := by
  rcases next_cases ovf c ev with heq | ⟨node, node', cause, out, hnode, hturn, heq⟩
  · rwa [heq]
  · have htrue := h.node ev.who node hnode
    obtain ⟨heffect, hright⟩ := turn_spec hturn
    obtain ⟨hnode', hout⟩ := hright r ev.who htrue h.packet
    rw [heq]
    refine ⟨?_, ?_, ?_⟩
    · intro n v hn
      rcases eq_or_ne ev.who n with rfl | hne
      · rw [Cluster.put, ExtTreeMap.getElem?_insert_self, Option.some.injEq] at hn
        rwa [← hn]
      · rw [Cluster.put, getElem?_insert_of_ne _ hne] at hn
        exact h.node n v hn
    · intro packet hpacket
      rcases mem_sent_put hpacket with hold | ⟨hsender, -, hmem⟩
      · exact h.packet packet hold
      · rw [hsender]
        exact ⟨htrue.mem, hout _ hmem⟩
    · intro q hq s hack
      rcases mem_sent_put hq with hold | ⟨hsender, hcause, hmem⟩
      · exact (h.answers q hold s hack).append _
      · exact (heffect.answers htrue h.packet hsender hcause hmem hack).append _

/-- **Whatever has happened, the cluster is sound.** -/
theorem sound_run (r : Roster) (ovf : Overflow) (config : SwimConfig) (now : Nat)
    (events : List SwimEvent) : (r.run ovf config now events).Sound r :=
  runState_invariant (P := Cluster.Sound r) (sound_start r config now)
    (fun _ ev hc => hc.next ovf ev) events

end Soundness

end Blockyard.Gossip
