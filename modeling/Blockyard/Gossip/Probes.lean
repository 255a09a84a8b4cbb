/-
# Probes and their acknowledgements

`blockyard-gossip`, `swim.rs`, `handle_message`: two promises about probes in a cluster.

* A pending probe is taken out only by an `Ack` of its target (§1).
* A target that only a relay can reach is reported back to the requester (§2).

The first fails where numbers meet.  Every node counts its probes 2, 4, 6, ..., and a relay sends
its ping under the REQUESTER's number, so the acknowledgement it gets may have the number of a
probe of its own.  It holds in every run in which numbers do not meet (`Unclashing`).

The second fails always: the handler of `PingReq` forgets who asked, and the relay keeps the
acknowledgement to itself.  The requester is told something only if it would have been told
without the relay (`relay_reports_iff`).
-/
import Blockyard.Gossip.Cluster

open Std Machine

namespace Blockyard.Gossip

/-! ## 1. A probe and its target -/

variable {n m : NodeId} {s : Nat} {probe : PendingProbe} {c : Cluster}

/-- The ping was sent for the node: by its own probe, or by a relay it asked under that number. -/
def OnBehalf (sent : List Packet) (ping : Packet) (n : NodeId) : Prop :=
  ping.cause = none ∧ ping.sender = n ∨
    ∃ k request, ping.cause = some k ∧ sent[k]? = some request ∧ request.sender = n ∧
      request.msg.askSeq = ping.msg.pingSeq

/-- The target has itself acknowledged a ping with that number, sent for the node. -/
def SatisfiedBy (c : Cluster) (n : NodeId) (s : Nat) (target : NodeId) : Prop :=
  ∃ ack ∈ c.sent, ack.sender = target ∧ ack.msg.ackSeq = some s ∧
    ∃ i ping, ack.cause = some i ∧ c.sent[i]? = some ping ∧ ping.msg.pingSeq = some s ∧
      OnBehalf c.sent ping n

/-- The event delivers an acknowledgement to the node, and takes out one of its pending probes. -/
def RemovedByAck (ovf : Overflow) (c : Cluster) (ev : SwimEvent) (n : NodeId) (s : Nat)
    (probe : PendingProbe) : Prop :=
  ev.who = n ∧
    (∃ i updateOrder packet, ev.act = .deliver i updateOrder ∧ c.sent[i]? = some packet ∧
      packet.msg.ackSeq ≠ none) ∧
    (c.pending n)[s]? = some probe ∧ s ∉ (c.next ovf ev).pending n

def Cluster.Pinged (c : Cluster) (n : NodeId) (s : Nat) : Prop :=
  ∃ packet ∈ c.sent, packet.sender = n ∧ packet.msg.pingSeq = some s

/-- Numbers do not meet at this event: a probe begins under a number that is not 0 and that the
node has sent no ping with, and a node is not asked to relay under the number of a probe it has
pending. -/
def Unclashing (ovf : Overflow) (c : Cluster) (ev : SwimEvent) : Prop :=
  ∀ node, c.nodes[ev.who]? = some node →
    match ev.act with
    | .probe targetOrder updateOrder =>
      node.cycle = none →
        ∀ cycle, (node.protocol.startProbe ovf ev.now node.addr targetOrder updateOrder).2.1
          = some cycle → cycle.seq ≠ 0 ∧ ¬ c.Pinged ev.who cycle.seq
    | .deliver i _ =>
      ∀ packet, c.sent[i]? = some packet → packet.dst = node.addr →
        ∀ s, packet.msg.askSeq = some s → s ∉ node.protocol.pendingProbes
    | _ => True

/-- Every ping that a node has sent under the number of a pending probe is that probe's own, to
its target. -/
def Exclusive (r : Roster) (c : Cluster) : Prop :=
  ∀ (n : NodeId) (s : Nat) (probe : PendingProbe), (c.pending n)[s]? = some probe →
    s ≠ 0 ∧ ∀ ping ∈ c.sent, ping.sender = n → ping.msg.pingSeq = some s →
      ping.cause = none ∧ r.Knows probe.target ping.dst

section Target

variable {r : Roster} {ovf : Overflow} {c : Cluster} {ev : SwimEvent}

theorem pending_of_getElem? {node : SwimNode} (h : c.nodes[n]? = some node) :
    c.pending n = node.protocol.pendingProbes := by
  rw [Cluster.pending, h]

theorem pending_put_self (n : NodeId) (node : SwimNode) (cause : Option Nat) (out : List Outgoing) :
    (c.put n node cause out).pending n = node.protocol.pendingProbes :=
  pending_of_getElem? ExtTreeMap.getElem?_insert_self

theorem pending_put_of_ne (h : n ≠ m) (node : SwimNode) (cause : Option Nat) (out : List Outgoing) :
    (c.put n node cause out).pending m = c.pending m := by
  rw [Cluster.pending, Cluster.put, getElem?_insert_of_ne _ h]
  rfl

theorem getElem?_of_settle {msg : GossipMessage} {probes : HashMap Nat PendingProbe}
    (h : (msg.settle probes)[s]? = some probe) :
    probes[s]? = some probe := by
  unfold GossipMessage.settle at h
  split at h
  · exact SwimProtocol.getElem?_of_erase h
  · exact h

/-- What is pending without a new probe, and is not asked for, stays apart. -/
theorem exclusive_of_shrinks {after : HashMap Nat PendingProbe} {packets : List Packet}
    (h : Exclusive r c) (hshrinks : SwimProtocol.Shrinks (c.pending n) after)
    (hs : after[s]? = some probe)
    (hnew : ∀ ping ∈ packets, s ∈ c.pending n → ping.msg.pingSeq = some s → ping ∈ c.sent) :
    s ≠ 0 ∧ ∀ ping ∈ packets, ping.sender = n → ping.msg.pingSeq = some s →
      ping.cause = none ∧ r.Knows probe.target ping.dst := by
  obtain ⟨old, hold, htarget⟩ := hshrinks s probe hs
  obtain ⟨hzero, hpings⟩ := h n s old hold
  refine ⟨hzero, fun ping hping hsender hseq => ?_⟩
  rw [← htarget]
  exact hpings ping (hnew ping hping (mem_of_getElem? hold) hseq) hsender hseq

/-- **An event at which numbers do not meet keeps pings apart.** -/
theorem Exclusive.next (h : Exclusive r c) (hsound : c.Sound r) (hev : Unclashing ovf c ev) :
    Exclusive r (c.next ovf ev) := by
  rcases next_cases ovf c ev with heq | ⟨node, node', cause, out, hnode, hturn, heq⟩
  · rwa [heq]
  rw [heq]
  obtain ⟨heffect, hright⟩ := turn_spec hturn
  obtain ⟨hnode', -⟩ := hright r ev.who (hsound.node ev.who node hnode) hsound.packet
  obtain ⟨who, now, act⟩ := ev
  dsimp only at *
  intro n s probe hs
  rcases eq_or_ne who n with rfl | hne
  · have hpending := pending_of_getElem? hnode
    have hclash := hev node hnode
    rw [pending_put_self] at hs
    -- the probe is an old one, unless the event is the one that begins it
    rcases heffect with
      ⟨hidle, hstarts, hwaits, hinsert, hsends⟩ | ⟨hpacket, hdst, hkeeps, hsends⟩ |
      ⟨-, hshrinks, hsends⟩
    · next targetOrder updateOrder cycle updates =>
      obtain ⟨hzero, hfresh⟩ := hclash hidle cycle hstarts
      rcases eq_or_ne cycle.seq s with rfl | hother
      · rw [hinsert, ExtTreeMap.getElem?_insert_self, Option.some.injEq] at hs
        refine ⟨hzero, fun ping hping hsender hseq => ?_⟩
        rcases mem_sent_put hping with hold | ⟨-, hcause, hmem⟩
        · exact absurd ⟨ping, hold, hsender, hseq⟩ hfresh
        · rw [hsends, List.mem_singleton, Prod.mk.injEq] at hmem
          refine ⟨hcause, ?_⟩
          rw [hmem.1, ← hs]
          exact hnode'.cycle cycle hwaits
      · rw [hinsert, getElem?_insert_of_ne _ hother, ← hpending] at hs
        refine exclusive_of_shrinks h (.refl _) hs fun ping hping _ hseq => ?_
        rcases mem_sent_put hping with hold | ⟨-, -, hmem⟩
        · exact hold
        · rw [hsends, List.mem_singleton, Prod.mk.injEq] at hmem
          rw [hmem.2] at hseq
          exact absurd (Option.some.inj hseq) hother
    · next i updateOrder packet =>
      have hshrinks : SwimProtocol.Shrinks (c.pending who) node'.protocol.pendingProbes := by
        rw [hpending]
        intro k old hk
        rcases hkeeps with hsame | hsettled
        · exact ⟨old, by rwa [hsame] at hk, rfl⟩
        · rw [hsettled] at hk
          exact ⟨old, getElem?_of_settle hk, rfl⟩
      refine exclusive_of_shrinks h hshrinks hs fun ping hping hmine hseq => ?_
      rcases mem_sent_put hping with hold | ⟨-, -, hmem⟩
      · exact hold
      · -- a relayed ping: its number is not that of a pending probe
        have hask := GossipMessage.ask_of_mem_replies (hsends _ hmem) hseq
        have hnot := hclash packet hpacket hdst s hask
        rw [← hpending] at hnot
        exact absurd hmine hnot
    · rw [← hpending] at hshrinks
      refine exclusive_of_shrinks h hshrinks hs fun ping hping _ hseq => ?_
      rcases mem_sent_put hping with hold | ⟨-, -, hmem⟩
      · exact hold
      · rw [(hsends _ hmem).1] at hseq
        cases hseq
  · -- the probes of another node are what they were, and it has sent nothing
    rw [pending_put_of_ne hne] at hs
    obtain ⟨hzero, hpings⟩ := h n s probe hs
    refine ⟨hzero, fun ping hping hsender hseq => ?_⟩
    rcases mem_sent_put hping with hold | ⟨hnew, -, -⟩
    · exact hpings ping hold hsender hseq
    · exact absurd (hnew.symm.trans hsender) hne

/-- An acknowledgement that takes out a probe has its number. -/
theorem ackSeq_of_settle {msg : GossipMessage} {probes : HashMap Nat PendingProbe} (hs : s ∈ probes)
    (hgone : s ∉ msg.settle probes) : msg.ackSeq = some s := by
  unfold GossipMessage.settle at hgone
  split at hgone
  · next seq hseq =>
    rw [hseq]
    by_contra hne
    exact hgone (ExtTreeMap.mem_erase.mpr ⟨fun heq => hne (congrArg some
      (LawfulEqOrd.compare_eq_iff_eq.mp heq)), hs⟩)
  · exact absurd hs hgone

/-- **Where pings are kept apart, a probe is taken out by its target.** -/
theorem Exclusive.satisfiedBy (h : Exclusive r c) (hsound : c.Sound r)
    (hremoved : RemovedByAck ovf c ev n s probe) :
    SatisfiedBy c n s probe.target := by
  obtain ⟨rfl, ⟨i, updateOrder, packet, hact, hpacket, -⟩, hs, hgone⟩ := hremoved
  have hmem : s ∈ c.pending ev.who := mem_of_getElem? hs
  rcases next_cases ovf c ev with heq | ⟨node, node', cause, out, hnode, hturn, heq⟩
  · rw [heq] at hgone
    exact absurd hmem hgone
  rw [heq, pending_put_self] at hgone
  rw [pending_of_getElem? hnode] at hmem
  rw [hact] at hturn
  cases (turn_spec hturn).1 with
  | quiet other => exact absurd rfl (other i updateOrder)
  | @handles _ _ received hreceived hdst hkeeps hsends =>
    cases hpacket.symm.trans hreceived
    have hack : packet.msg.ackSeq = some s := by
      rcases hkeeps with hsame | hsettled
      · rw [hsame] at hgone
        exact absurd hmem hgone
      · rw [hsettled] at hgone
        exact ackSeq_of_settle hmem hgone
    have hin := List.mem_of_getElem? hpacket
    obtain ⟨k, ping, hcause, hping, hto, hback, hnumber⟩ := hsound.answers packet hin s hack
    have hping_in := List.mem_of_getElem? hping
    obtain ⟨hzero, hpings⟩ := h ev.who s probe hs
    have hnode_true := hsound.node ev.who node hnode
    -- the acknowledgement came here, so the ping was sent from here
    have hown : ping.sender = ev.who := by
      refine r.distinct _ (hsound.packet ping hping_in).1 _ hnode_true.mem ?_
      rw [← hback, hdst, hnode_true.addr]
    have hseq : ping.msg.pingSeq = some s := hnumber.resolve_right hzero
    obtain ⟨hnone, hknown, haddr⟩ := hpings ping hping_in hown hseq
    have htarget : packet.sender = probe.target :=
      r.distinct _ (hsound.packet packet hin).1 _ hknown (hto.symm.trans haddr)
    exact ⟨packet, hin, htarget, hack, k, ping, hcause, hping, hseq, Or.inl ⟨hnone, hown⟩⟩

theorem exclusive_start (r : Roster) (config : SwimConfig) (now : Nat) :
    Exclusive r (r.start config now) := by
  intro n s probe hs
  unfold Cluster.pending at hs
  split at hs
  · next node hnode =>
    obtain ⟨-, rfl⟩ := getElem?_nodes_start hnode
    simp [Roster.node, SwimProtocol.new] at hs
  · simp at hs

end Target

/-- **A PROBE IS ONLY SATISFIED BY ITS TARGET**, in every run in which numbers do not meet. -/
theorem probe_satisfied_by_target (r : Roster) (ovf : Overflow) (config : SwimConfig) (now : Nat)
    (events : List SwimEvent)
    (hapart : Along (Cluster.step ovf) (Unclashing ovf) (r.start config now) events)
    (pre : List SwimEvent) (ev : SwimEvent) (post : List SwimEvent)
    (hevents : events = pre ++ ev :: post) (n : NodeId) (s : Nat) (probe : PendingProbe)
    (hremoved : RemovedByAck ovf (r.run ovf config now pre) ev n s probe) :
    SatisfiedBy (r.run ovf config now pre) n s probe.target := by
  have hpre : Along (Cluster.step ovf) (Unclashing ovf) (r.start config now) pre := by
    rw [along_iff] at hapart ⊢
    intro before event after heq
    exact hapart before event (after ++ ev :: post) (by rw [hevents, heq, List.append_assoc]; rfl)
  have hboth := runState_of_along (P := fun c => c.Sound r ∧ Exclusive r c)
    ⟨sound_start r config now, exclusive_start r config now⟩ hpre
    (fun c event hc hev => ⟨hc.1.next ovf event, hc.2.next hc.1 hev⟩)
  exact hboth.2.satisfiedBy hboth.1 hremoved

/-! ### A run, without its updates

The member lists decide who is probed and who relays.  What a delivery sends, and which probe it
settles, is read off the messages without their updates.
-/

/-- The packet without the updates piggybacked on it. -/
def Packet.bare (packet : Packet) : Packet := { packet with msg := packet.msg.bare }

def Cluster.outline (c : Cluster) : List Packet := c.sent.map Packet.bare

theorem applyUpdate_wrapping (now : Nat) (ml : MemberList) (u : MembershipUpdate) :
    (ml.applyUpdate .wrapping now u).2 ≠ none := by
  unfold MemberList.applyUpdate
  split
  · have hsome : ∃ inc, addU64 .wrapping ml.incarnation 1 = some inc := by
      unfold addU64
      split
      · exact ⟨_, rfl⟩
      · exact ⟨_, rfl⟩
    obtain ⟨inc, hinc⟩ := hsome
    unfold MemberList.handleLocalUpdate MemberList.nextIncarnation
    rw [hinc]
    cases u.state <;> simp
  · dsimp only
    split <;> simp

/-- Without overflow checks no update panics. -/
theorem applyUpdates_wrapping (now : Nat) (ml : MemberList) (updates : List MembershipUpdate) :
    (ml.applyUpdates .wrapping now updates).2 = true := by
  induction updates generalizing ml with
  | nil => rfl
  | cons u updates ih =>
    unfold MemberList.applyUpdates
    split
    · next ml' heq => exact absurd (congrArg Prod.snd heq) (applyUpdate_wrapping now ml u)
    · next ml' changed heq => exact ih ml'

@[simp] theorem GossipMessage.replies_bare (localId : NodeId) (localAddr : SocketAddr)
    (msg : GossipMessage) : msg.bare.replies localId localAddr = msg.replies localId localAddr := by
  cases msg <;> rfl

@[simp] theorem GossipMessage.settle_bare (msg : GossipMessage)
    (probes : HashMap Nat PendingProbe) : msg.bare.settle probes = msg.settle probes := by
  cases msg <;> rfl

theorem bare_mem_outline {packet : Packet} (h : packet ∈ c.sent) :
    packet.bare ∈ c.outline :=
  List.mem_map_of_mem h

theorem exists_of_outline {i : Nat} {packet : Packet} (h : c.outline[i]? = some packet) :
    ∃ full, c.sent[i]? = some full ∧ full.bare = packet := by
  rw [Cluster.outline, List.getElem?_map, Option.map_eq_some_iff] at h
  exact h

/-- What deliveries depend on and change, without the member lists. -/
structure Skeleton where
  outline : List Packet
  pending : NodeId → HashMap Nat PendingProbe

def Cluster.skeleton (c : Cluster) : Skeleton := ⟨c.outline, c.pending⟩

def SwimEvent.delivers (ev : SwimEvent) : Bool :=
  match ev.act with
  | .deliver .. => true
  | _ => false

def Skeleton.next (r : Roster) (sk : Skeleton) (ev : SwimEvent) : Skeleton :=
  match ev.act with
  | .deliver i _ =>
    match sk.outline[i]? with
    | some packet =>
      if packet.dst = r.addrOf ev.who then
        { outline := sk.outline ++ (packet.msg.replies ev.who (r.addrOf ev.who)).map
            fun o => ⟨ev.who, o.1, o.2, some i⟩
          pending := Function.update sk.pending ev.who (packet.msg.settle (sk.pending ev.who)) }
      else sk
    | none => sk
  | _ => sk

theorem pending_put (c : Cluster) (n : NodeId) (node : SwimNode) (cause : Option Nat)
    (out : List Outgoing) :
    (c.put n node cause out).pending
      = Function.update c.pending n node.protocol.pendingProbes := by
  funext m
  rcases eq_or_ne n m with rfl | hne
  · rw [pending_put_self, Function.update_self]
  · rw [pending_put_of_ne hne, Function.update_of_ne hne.symm]

/-- **A delivery does to the cluster what it does to its outline.** -/
theorem skeleton_next {r : Roster} (hsound : c.Sound r) {ev : SwimEvent} (hn : ev.who ∈ c.nodes)
    (hev : ev.delivers = true) :
    (c.next .wrapping ev).skeleton = c.skeleton.next r ev := by
  obtain ⟨n, now, act⟩ := ev
  cases act with
  | deliver i updateOrder =>
    obtain ⟨node, hnode⟩ := exists_getElem?_of_mem hn
    have htrue := hsound.node n node hnode
    simp only [Cluster.next, hnode, SwimNode.turn, Skeleton.next, Cluster.skeleton,
      Cluster.outline, List.getElem?_map]
    cases c.sent[i]? with
    | none => rfl
    | some full =>
      by_cases hdst : full.dst = r.addrOf n
      · obtain ⟨p', out, hhandle, -, hpending, hout⟩ :=
          SwimProtocol.handleMessage_of_completed node.addr updateOrder
            (applyUpdates_wrapping now node.protocol.members full.msg.updates)
        rw [htrue.localId, htrue.addr] at hout
        simp only [if_pos (hdst.trans htrue.addr.symm), hhandle, pending_put, hpending,
          Option.map_some, Packet.bare, if_pos hdst, GossipMessage.replies_bare,
          GossipMessage.settle_bare, pending_of_getElem? hnode, ← hout]
        simp [Cluster.put, Packet.bare]
      · simp only [htrue.addr, if_neg hdst, Option.map_some, Packet.bare]
  | _ => cases hev

theorem nodes_next_of_ne (ovf : Overflow) (c : Cluster) (ev : SwimEvent) (h : ev.who ≠ m) :
    (c.next ovf ev).nodes[m]? = c.nodes[m]? := by
  rcases next_cases ovf c ev with heq | ⟨node, node', cause, out, -, -, heq⟩
  · rw [heq]
  · rw [heq]
    exact getElem?_insert_of_ne _ h _

theorem nodes_run_of_ne (ovf : Overflow) (events : List SwimEvent) (h : ∀ ev ∈ events, ev.who ≠ m)
    (c : Cluster) :
    (runState (Cluster.step ovf) c events).nodes[m]? = c.nodes[m]? := by
  induction events generalizing c with
  | nil => rfl
  | cons ev events ih =>
    exact (ih (fun later hlater => h later (List.mem_cons_of_mem _ hlater)) _).trans
      (nodes_next_of_ne ovf c ev (h ev List.mem_cons_self))

theorem mem_nodes_next (ovf : Overflow) (h : m ∈ c.nodes) (ev : SwimEvent) :
    m ∈ (c.next ovf ev).nodes := by
  rcases next_cases ovf c ev with heq | ⟨node, node', cause, out, -, -, heq⟩
  · rwa [heq]
  · rw [heq]
    exact ExtTreeMap.mem_insert.mpr (Or.inr h)

/-- **A run of deliveries, in outline.** -/
theorem skeleton_run {r : Roster} (events : List SwimEvent) (hsound : c.Sound r)
    (hev : ∀ ev ∈ events, ev.who ∈ c.nodes ∧ ev.delivers = true) :
    (runState (Cluster.step .wrapping) c events).skeleton
      = events.foldl (Skeleton.next r) c.skeleton := by
  induction events generalizing c with
  | nil => rfl
  | cons ev events ih =>
    obtain ⟨hn, hdelivers⟩ := hev ev List.mem_cons_self
    rw [List.foldl_cons, ← skeleton_next hsound hn hdelivers]
    refine ih (hsound.next .wrapping ev) fun later hmem => ?_
    obtain ⟨hlater, hdelivers'⟩ := hev later (List.mem_cons_of_mem _ hmem)
    exact ⟨mem_nodes_next .wrapping hlater ev, hdelivers'⟩

theorem removedByAck_deliver {r : Roster} (hsound : c.Sound r) {i : Nat} {packet : Packet}
    (hs : (c.pending n)[s]? = some probe) (hpacket : c.outline[i]? = some packet)
    (hdst : packet.dst = r.addrOf n) (hack : packet.msg.ackSeq = some s) (now : Nat)
    (updateOrder : IterOrder NodeId) :
    RemovedByAck .wrapping c ⟨n, now, .deliver i updateOrder⟩ n s probe := by
  have hn : n ∈ c.nodes := by
    by_contra hnot
    rw [Cluster.pending, ExtTreeMap.getElem?_eq_none hnot] at hs
    simp at hs
  have hnext := congrArg (fun sk => sk.pending n)
    (skeleton_next hsound (show SwimEvent.who ⟨n, now, .deliver i updateOrder⟩ ∈ _ from hn) rfl)
  simp only [Cluster.skeleton, Skeleton.next, hpacket, if_pos hdst, Function.update_self] at hnext
  obtain ⟨full, hfull, rfl⟩ := exists_of_outline hpacket
  have hseq : full.msg.ackSeq = some s := (GossipMessage.ackSeq_bare full.msg).symm.trans hack
  refine ⟨rfl, ⟨i, updateOrder, full, rfl, hfull, ?_⟩, hs, ?_⟩
  · rw [hseq]
    exact Option.some_ne_none s
  · rw [hnext, GossipMessage.settle, hack]
    exact fun hmem => (ExtTreeMap.mem_erase.mp hmem).1 compare_self

def sampleRoster : Roster where
  ids := [⟨1#128⟩, ⟨2#128⟩, ⟨3#128⟩, ⟨4#128⟩]
  addrOf n := ⟨.v4 (n.uuid.setWidth 32), 7946#16⟩
  distinct := by decide

def sampleConfig : SwimConfig := ⟨4000, 500⟩

/-- Nodes 2 and 4 join node 1, and node 3 joins node 2. -/
def gathered : List SwimEvent :=
  [⟨⟨2#128⟩, 1, .joinSeeds [sampleRoster.addrOf ⟨1#128⟩]⟩,
    ⟨⟨4#128⟩, 2, .joinSeeds [sampleRoster.addrOf ⟨1#128⟩]⟩,
    ⟨⟨3#128⟩, 3, .joinSeeds [sampleRoster.addrOf ⟨2#128⟩]⟩,
    ⟨⟨1#128⟩, 4, .deliver 0 (.sorted _)⟩, ⟨⟨1#128⟩, 5, .deliver 1 (.sorted _)⟩,
    ⟨⟨2#128⟩, 6, .deliver 2 (.sorted _)⟩]

/-- Node 1 probes node 4, and node 2 probes node 3, both under the number 2.  Node 1 hears nothing
and asks node 2 to relay. -/
def probing : List SwimEvent :=
  [⟨⟨1#128⟩, 10, .probe (.sorted _) (.sorted _)⟩, ⟨⟨2#128⟩, 400, .probe (.sorted _) (.sorted _)⟩,
    ⟨⟨1#128⟩, 510, .endWait false (.sorted _) (.sorted _)⟩]

/-- The request reaches node 2, and its ping reaches node 4. -/
def relaying : List SwimEvent :=
  [⟨⟨2#128⟩, 520, .deliver 8 (.sorted _)⟩, ⟨⟨4#128⟩, 530, .deliver 9 (.sorted _)⟩]

def acknowledged : SwimEvent := ⟨⟨2#128⟩, 540, .deliver 10 (.sorted _)⟩

def askedCluster : Cluster := sampleRoster.run .wrapping sampleConfig 0 (gathered ++ probing)

def relayedCluster : Cluster :=
  sampleRoster.run .wrapping sampleConfig 0 (gathered ++ probing ++ relaying)

theorem sound_askedCluster : askedCluster.Sound sampleRoster := sound_run _ _ _ _ _

theorem sound_relayedCluster : relayedCluster.Sound sampleRoster := sound_run _ _ _ _ _

theorem skeleton_relayedCluster :
    relayedCluster.skeleton
      = relaying.foldl (Skeleton.next sampleRoster) askedCluster.skeleton := by
  rw [relayedCluster, Roster.run, runState_append]
  exact skeleton_run relaying sound_askedCluster (by decide +kernel)

theorem outline_relayedCluster :
    relayedCluster.outline
      = (relaying.foldl (Skeleton.next sampleRoster) askedCluster.skeleton).outline :=
  congrArg Skeleton.outline skeleton_relayedCluster

def relayedAck : Packet :=
  ⟨⟨4#128⟩, sampleRoster.addrOf ⟨2#128⟩, .ack ⟨4#128⟩ (sampleRoster.addrOf ⟨4#128⟩) 2 [], some 9⟩

theorem getElem?_relayedAck : relayedCluster.outline[10]? = some relayedAck := by
  rw [outline_relayedCluster]
  decide +kernel

/-- **A probe satisfied by another node**: node 2 loses its probe of node 3 to the acknowledgement
of node 4, and node 3 has acknowledged nothing. -/
theorem probe_satisfied_by_stranger :
    RemovedByAck .wrapping relayedCluster acknowledged ⟨2#128⟩ 2 ⟨⟨3#128⟩, 400, false⟩ ∧
      ¬ SatisfiedBy relayedCluster ⟨2#128⟩ 2 ⟨3#128⟩ := by
  constructor
  · refine removedByAck_deliver sound_relayedCluster ?_ getElem?_relayedAck rfl rfl 540 (.sorted _)
    rw [show relayedCluster.pending = _ from congrArg Skeleton.pending skeleton_relayedCluster]
    decide +kernel
  · rintro ⟨ack, hack, hsender, hseq, -⟩
    have hnone : ∀ packet ∈ relayedCluster.outline,
        packet.sender = ⟨3#128⟩ → packet.msg.ackSeq ≠ some 2 := by
      rw [outline_relayedCluster]
      decide +kernel
    exact hnone ack.bare (bare_mem_outline hack) hsender
      ((GossipMessage.ackSeq_bare ack.msg).trans hseq)

/-- Node 2 joins node 1, which probes it. -/
def greeted : List SwimEvent :=
  [⟨⟨2#128⟩, 1, .joinSeeds [sampleRoster.addrOf ⟨1#128⟩]⟩, ⟨⟨1#128⟩, 4, .deliver 0 (.sorted _)⟩,
    ⟨⟨1#128⟩, 10, .probe (.sorted _) (.sorted _)⟩]

def greetedBack : SwimEvent := ⟨⟨2#128⟩, 20, .deliver 2 (.sorted _)⟩

theorem unclashing_deliver {ovf : Overflow} (n : NodeId) (now i : Nat)
    (updateOrder : IterOrder NodeId) (h : ∀ packet ∈ c.outline, packet.msg.askSeq = none) :
    Unclashing ovf c ⟨n, now, .deliver i updateOrder⟩ := by
  intro node _ packet hpacket _ s hask
  have hnone := h packet.bare (bare_mem_outline (List.mem_of_getElem? hpacket))
  rw [show packet.bare.msg = packet.msg.bare from rfl, GossipMessage.askSeq_bare, hask] at hnone
  cases hnone

/-- The probe of a node that has pinged nobody. -/
theorem unclashing_greeting :
    Unclashing .wrapping (sampleRoster.run .wrapping sampleConfig 0 (greeted.take 2))
      ⟨⟨1#128⟩, 10, .probe (.sorted _) (.sorted _)⟩ := by
  intro node hnode hidle cycle hcycle
  have hbegins : ((sampleRoster.run .wrapping sampleConfig 0 (greeted.take 2)).nodes[
      (⟨1#128⟩ : NodeId)]?.bind fun node => (node.protocol.startProbe .wrapping 10 node.addr
        (.sorted _) (.sorted _)).2.1)
      = some ⟨⟨2#128⟩, sampleRoster.addrOf ⟨2#128⟩, 2, 510, false⟩ := by decide +kernel
  rw [hnode, Option.bind_some] at hbegins
  cases hcycle.symm.trans hbegins
  refine ⟨by decide, ?_⟩
  rintro ⟨packet, hpacket, -, hseq⟩
  have hnone : ∀ packet ∈ (sampleRoster.run .wrapping sampleConfig 0 (greeted.take 2)).outline,
      packet.msg.pingSeq = none := by decide +kernel
  have hthis := hnone packet.bare (bare_mem_outline hpacket)
  rw [show packet.bare.msg = packet.msg.bare from rfl, GossipMessage.pingSeq_bare, hseq] at hthis
  cases hthis

def greetedCluster : Cluster := sampleRoster.run .wrapping sampleConfig 0 greeted

def greetingAck : Packet :=
  ⟨⟨2#128⟩, sampleRoster.addrOf ⟨1#128⟩, .ack ⟨2#128⟩ (sampleRoster.addrOf ⟨2#128⟩) 2 [], some 2⟩

theorem skeleton_greetedBack :
    (sampleRoster.run .wrapping sampleConfig 0 (greeted ++ [greetedBack])).skeleton
      = greetedCluster.skeleton.next sampleRoster greetedBack := by
  rw [Roster.run, runState_append]
  exact skeleton_run [greetedBack] (sound_run _ _ _ _ greeted) (by decide +kernel)

theorem probe_satisfied_by_target_greeting :
    SatisfiedBy (sampleRoster.run .wrapping sampleConfig 0 (greeted ++ [greetedBack])) ⟨1#128⟩ 2
      ⟨2#128⟩ := by
  have houtline := congrArg Skeleton.outline skeleton_greetedBack
  have hpending := congrArg Skeleton.pending skeleton_greetedBack
  refine probe_satisfied_by_target sampleRoster .wrapping sampleConfig 0
    (greeted ++ [greetedBack] ++ [⟨⟨1#128⟩, 30, .deliver 3 (.sorted _)⟩]) ?_
    (greeted ++ [greetedBack]) ⟨⟨1#128⟩, 30, .deliver 3 (.sorted _)⟩ [] rfl ⟨1#128⟩ 2
    ⟨⟨2#128⟩, 10, false⟩ ?_
  · refine ⟨fun _ _ => trivial, unclashing_deliver _ _ _ _ (by decide +kernel), unclashing_greeting,
      unclashing_deliver _ _ _ _ (by decide +kernel), unclashing_deliver _ _ _ _ ?_, trivial⟩
    change ∀ packet ∈ (sampleRoster.run .wrapping sampleConfig 0
      (greeted ++ [greetedBack])).skeleton.outline, _
    rw [houtline]
    decide +kernel
  · refine removedByAck_deliver (sound_run _ _ _ _ _) ?_ (show _ = some greetingAck from ?_) rfl
      rfl 30 (.sorted _)
    · rw [show (sampleRoster.run .wrapping sampleConfig 0 (greeted ++ [greetedBack])).pending = _
        from hpending]
      decide +kernel
    · rw [show (sampleRoster.run .wrapping sampleConfig 0 (greeted ++ [greetedBack])).outline = _
        from houtline]
      decide +kernel

/-! ## 2. A target behind a relay -/

/-- The requester probes the target and has asked the relay for it; the relay has pinged the target
for that request, and the target's acknowledgement of this ping, the `j`-th message, is on its way
to the relay. -/
structure RelayRound (r : Roster) (c : Cluster) (requester relay target : NodeId) (s j : Nat) :
    Prop where
  pending : ∃ probe, (c.pending requester)[s]? = some probe ∧ probe.target = target
  chain : ∃ k request i ping ack, c.sent[k]? = some request ∧ c.sent[i]? = some ping ∧
    c.sent[j]? = some ack ∧
    (request.sender = requester ∧ request.dst = r.addrOf relay ∧ request.msg.askSeq = some s ∧
      request.msg.askTarget = some target) ∧
    (ping.sender = relay ∧ ping.dst = r.addrOf target ∧ ping.msg.pingSeq = some s ∧
      ping.cause = some k) ∧
    ack.sender = target ∧ ack.dst = r.addrOf relay ∧ ack.msg.ackSeq = some s ∧ ack.cause = some i

/-- The event delivers no message that one of the two nodes has sent to the other. -/
def NotDirect (a b : NodeId) (c : Cluster) (ev : SwimEvent) : Prop :=
  ∀ i updateOrder packet, ev.act = .deliver i updateOrder → c.sent[i]? = some packet →
    ¬ (ev.who = a ∧ packet.sender = b) ∧ ¬ (ev.who = b ∧ packet.sender = a)

/-- A message that takes out the requester's probe has been sent to it. -/
def Reported (r : Roster) (c : Cluster) (requester : NodeId) (s : Nat) : Prop :=
  ∃ packet ∈ c.sent, packet.dst = r.addrOf requester ∧ packet.msg.ackSeq = some s

section Relay

variable {r : Roster} {ovf : Overflow} {c : Cluster} {ev : SwimEvent} {a b : NodeId} {base : Nat}

/-- From some place on, what `b` has sent answers nothing of `a`. -/
def Unanswered (a b : NodeId) (base : Nat) (c : Cluster) : Prop :=
  ∀ (k : Nat) (q : Packet), base ≤ k → c.sent[k]? = some q → q.sender = b →
    ∀ i, q.cause = some i → ∃ p, c.sent[i]? = some p ∧ p.sender ≠ a

theorem Unanswered.next (h : Unanswered a b base c) (hev : NotDirect a b c ev) :
    Unanswered a b base (c.next ovf ev) := by
  rcases next_cases ovf c ev with heq | ⟨node, node', cause, out, -, hturn, heq⟩
  · rwa [heq]
  intro k q hbase hq hsender i hcause
  have hold : ∀ p, c.sent[i]? = some p ∧ p.sender ≠ a →
      ∃ p, (c.next ovf ev).sent[i]? = some p ∧ p.sender ≠ a :=
    fun p hp => ⟨p, getElem?_sent_next hp.1 ev, hp.2⟩
  rcases Nat.lt_or_ge k c.sent.length with hlt | hge
  · have hkept : (c.next ovf ev).sent[k]? = some c.sent[k] :=
      getElem?_sent_next (List.getElem?_eq_getElem hlt) ev
    have hthere : c.sent[k]? = some q := by
      rw [List.getElem?_eq_getElem hlt, ← hkept, hq]
    obtain ⟨p, hp⟩ := h k q hbase hthere hsender i hcause
    exact hold p hp
  · -- a message that the event has sent: its cause is the message that was delivered
    rw [heq, Cluster.put, List.getElem?_append_right hge] at hq
    obtain ⟨o, -, rfl⟩ := List.mem_map.mp (List.mem_of_getElem? hq)
    cases hcause
    obtain ⟨who, now, act⟩ := ev
    dsimp only at hturn hsender
    cases (turn_spec hturn).1 with
    | handles received dst pending sends =>
      have hnot := (hev i _ _ rfl received).2
      exact hold _ ⟨received, fun hp => hnot ⟨hsender, hp⟩⟩

/-- **A relay passes nothing on**: when it handles an acknowledgement it sends nothing. -/
theorem sent_next_deliver_ack {now j : Nat} {updateOrder : IterOrder NodeId} {ack : Packet}
    (hack : c.sent[j]? = some ack) (hseq : ack.msg.ackSeq = some s) :
    (c.next ovf ⟨n, now, .deliver j updateOrder⟩).sent = c.sent := by
  rcases next_cases ovf c ⟨n, now, .deliver j updateOrder⟩ with
    heq | ⟨node, node', cause, out, -, hturn, heq⟩
  · rw [heq]
  · rw [heq]
    cases (turn_spec hturn).1 with
    | quiet other => exact absurd rfl (other j updateOrder)
    | handles received dst pending sends =>
      cases hack.symm.trans received
      have hreplies : ack.msg.replies node.protocol.members.localId node.addr = [] := by
        generalize ack.msg = msg at hseq
        cases msg with
        | ack => rfl
        | _ => cases hseq
      have hout : out = [] := by
        refine List.eq_nil_iff_forall_not_mem.mpr fun o ho => ?_
        have hmem := sends o ho
        rw [hreplies] at hmem
        cases hmem
      rw [hout]
      exact List.append_nil _

end Relay

/-- **INDIRECT PROBES REPORT BACK** only what would have been reported without them: when the relay
has handled the target's acknowledgement, a message that takes out the requester's probe has been
sent exactly if one was sent before by another node, or before the round began. -/
theorem relay_reports_iff (r : Roster) (ovf : Overflow) (config : SwimConfig) (start : Nat)
    (before round : List SwimEvent) (requester relay target : NodeId) (s j : Nat)
    (hdirect : Along (Cluster.step ovf) (NotDirect requester target)
      (r.run ovf config start before) round)
    (hround : RelayRound r (r.run ovf config start (before ++ round)) requester relay target s j)
    (now : Nat) (updateOrder : IterOrder NodeId) :
    Reported r ((r.run ovf config start (before ++ round)).next ovf
        ⟨relay, now, .deliver j updateOrder⟩) requester s ↔
      ∃ k packet, (r.run ovf config start (before ++ round)).sent[k]? = some packet ∧
        packet.dst = r.addrOf requester ∧ packet.msg.ackSeq = some s ∧
        (packet.sender ≠ target ∨ k < (r.run ovf config start before).sent.length) := by
  obtain ⟨-, k₀, request, i, ping, ack, hrequest, -, hack, ⟨hasker, -⟩, -, -, -, hseq, -⟩ := hround
  have hrun : r.run ovf config start (before ++ round)
      = runState (Cluster.step ovf) (r.run ovf config start before) round :=
    runState_append _ _ _ _
  have hsound := sound_run r ovf config start (before ++ round)
  have hunanswered : Unanswered requester target (r.run ovf config start before).sent.length
      (r.run ovf config start (before ++ round)) := by
    rw [hrun]
    refine runState_of_along (P := Unanswered requester target _) ?_ hdirect
      fun c ev hc hev => hc.next hev
    intro k q hbase hq
    rw [List.getElem?_eq_none hbase] at hq
    cases hq
  unfold Reported
  rw [sent_next_deliver_ack hack hseq]
  constructor
  · rintro ⟨packet, hpacket, hdst, hnumber⟩
    obtain ⟨k, hk⟩ := List.getElem?_of_mem hpacket
    refine ⟨k, packet, hk, hdst, hnumber, ?_⟩
    by_contra hnot
    obtain ⟨hsender, hlate⟩ := not_or.mp hnot
    -- an acknowledgement of the target's own answers a message of the requester
    obtain ⟨m, p, hcause, hp, -, hback, -⟩ := hsound.answers packet hpacket s hnumber
    obtain ⟨p', hp', hother⟩ :=
      hunanswered k packet (Nat.not_lt.mp hlate) hk (not_not.mp hsender) m hcause
    cases hp.symm.trans hp'
    have hrequester := (hsound.packet request (List.mem_of_getElem? hrequest)).1
    rw [hasker] at hrequester
    exact hother (r.distinct _ (hsound.packet p (List.mem_of_getElem? hp)).1 _ hrequester
      (hback.symm.trans hdst))
  · rintro ⟨k, packet, hk, hdst, hnumber, -⟩
    exact ⟨packet, List.mem_of_getElem? hk, hdst, hnumber⟩

/-- Node 2 has pinged node 4 for node 1, and node 4 has answered. -/
theorem relayRound_relayedCluster :
    RelayRound sampleRoster relayedCluster ⟨1#128⟩ ⟨2#128⟩ ⟨4#128⟩ 2 10 := by
  constructor
  · refine ⟨⟨⟨4#128⟩, 10, true⟩, ?_, rfl⟩
    rw [show relayedCluster.pending = _ from congrArg Skeleton.pending skeleton_relayedCluster]
    decide +kernel
  · have hrequest : relayedCluster.outline[8]? = some ⟨⟨1#128⟩, sampleRoster.addrOf ⟨2#128⟩,
        .pingReq ⟨1#128⟩ (sampleRoster.addrOf ⟨1#128⟩) ⟨4#128⟩ (sampleRoster.addrOf ⟨4#128⟩) 2 [],
        none⟩ := by
      rw [outline_relayedCluster]
      decide +kernel
    have hping : relayedCluster.outline[9]? = some ⟨⟨2#128⟩, sampleRoster.addrOf ⟨4#128⟩,
        .ping ⟨2#128⟩ (sampleRoster.addrOf ⟨2#128⟩) 2 [], some 8⟩ := by
      rw [outline_relayedCluster]
      decide +kernel
    obtain ⟨request, hrequest, hrequest'⟩ := exists_of_outline hrequest
    obtain ⟨ping, hping, hping'⟩ := exists_of_outline hping
    obtain ⟨ack, hack, hack'⟩ := exists_of_outline getElem?_relayedAck
    refine ⟨8, request, 9, ping, ack, hrequest, hping, hack, ?_, ?_, ?_⟩
    · exact ⟨congrArg Packet.sender hrequest', congrArg Packet.dst hrequest',
        (GossipMessage.askSeq_bare _).symm.trans (congrArg (·.msg.askSeq) hrequest'),
        (GossipMessage.askTarget_bare _).symm.trans (congrArg (·.msg.askTarget) hrequest')⟩
    · exact ⟨congrArg Packet.sender hping', congrArg Packet.dst hping',
        (GossipMessage.pingSeq_bare _).symm.trans (congrArg (·.msg.pingSeq) hping'),
        congrArg Packet.cause hping'⟩
    · exact ⟨congrArg Packet.sender hack', congrArg Packet.dst hack',
        (GossipMessage.ackSeq_bare _).symm.trans (congrArg (·.msg.ackSeq) hack'),
        congrArg Packet.cause hack'⟩

/-- Nothing passes between nodes 1 and 4 in the round. -/
theorem notDirect_round :
    Along (Cluster.step .wrapping) (NotDirect ⟨1#128⟩ ⟨4#128⟩)
      (sampleRoster.run .wrapping sampleConfig 0 gathered) (probing ++ relaying) := by
  refine ⟨nofun, nofun, nofun, ?_, ?_, trivial⟩
  · intro i updateOrder packet _ _
    exact ⟨fun h => absurd h.1 (by decide), fun h => absurd h.1 (by decide)⟩
  · intro i updateOrder packet hact hpacket
    cases hact
    have hping : (askedCluster.next .wrapping ⟨⟨2#128⟩, 520, .deliver 8 (.sorted _)⟩).outline = _ :=
      congrArg Skeleton.outline
        (skeleton_run (relaying.take 1) sound_askedCluster (by decide +kernel))
    have hfrom : ((relaying.take 1).foldl (Skeleton.next sampleRoster)
      askedCluster.skeleton).outline[9]?.map Packet.sender = some ⟨2#128⟩ := by decide +kernel
    rw [← hping, Cluster.outline, List.getElem?_map] at hfrom
    have hsender : packet.sender = ⟨2#128⟩ := by
      rw [show (askedCluster.next .wrapping ⟨⟨2#128⟩, 520, .deliver 8 (.sorted _)⟩).sent[9]? = _
        from hpacket] at hfrom
      exact Option.some.inj hfrom
    refine ⟨fun h => absurd h.1 (by decide), fun h => ?_⟩
    exact absurd (hsender.symm.trans h.2) (by decide)

/-- Nobody has acknowledged anything to node 1 under the number of its probe. -/
theorem not_acknowledged_to_requester (packet : Packet) (h : packet ∈ relayedCluster.sent)
    (hdst : packet.dst = sampleRoster.addrOf ⟨1#128⟩) : packet.msg.ackSeq ≠ some 2 := by
  have hnone : ∀ packet ∈ relayedCluster.outline,
      packet.dst = sampleRoster.addrOf ⟨1#128⟩ → packet.msg.ackSeq ≠ some 2 := by
    rw [outline_relayedCluster]
    decide +kernel
  rw [← GossipMessage.ackSeq_bare]
  exact hnone packet.bare (bare_mem_outline h) hdst

theorem relay_reports_iff_silent :
    ¬ Reported sampleRoster (relayedCluster.next .wrapping acknowledged) ⟨1#128⟩ 2 := by
  intro hreported
  obtain ⟨k, packet, hk, hdst, hseq, -⟩ := (relay_reports_iff sampleRoster .wrapping sampleConfig 0
    gathered (probing ++ relaying) ⟨1#128⟩ ⟨2#128⟩ ⟨4#128⟩ 2 10 notDirect_round
    relayRound_relayedCluster 540 (.sorted _)).mp hreported
  exact not_acknowledged_to_requester packet (List.mem_of_getElem? hk) hdst hseq

/-- What the end of a wait does to a node depends on that node alone. -/
theorem getElem?_next_endWait {c' : Cluster} (h : c.nodes[n]? = c'.nodes[n]?) (ovf : Overflow)
    (now : Nat) (acked : Bool) (relayOrder updateOrder : IterOrder NodeId) :
    (c.next ovf ⟨n, now, .endWait acked relayOrder updateOrder⟩).nodes[n]?
      = (c'.next ovf ⟨n, now, .endWait acked relayOrder updateOrder⟩).nodes[n]? := by
  have hsent : ∀ node : SwimNode, node.turn ovf c.sent now (.endWait acked relayOrder updateOrder)
      = node.turn ovf c'.sent now (.endWait acked relayOrder updateOrder) := fun _ => rfl
  simp only [Cluster.next, h, hsent]
  split
  · exact h
  · split
    · exact h
    · simp only [Cluster.put, ExtTreeMap.getElem?_insert_self]

/-- **A target behind a relay is suspected**: node 2 has handled the acknowledgement of node 4 in
time, nothing was sent to node 1, and at its deadline node 1 marks node 4 as Suspect. -/
theorem relay_keeps_acknowledgement :
    Along (Cluster.step .wrapping) (NotDirect ⟨1#128⟩ ⟨4#128⟩)
        (sampleRoster.run .wrapping sampleConfig 0 gathered) (probing ++ relaying) ∧
      RelayRound sampleRoster relayedCluster ⟨1#128⟩ ⟨2#128⟩ ⟨4#128⟩ 2 10 ∧
      ¬ Reported sampleRoster (relayedCluster.next .wrapping acknowledged) ⟨1#128⟩ 2 ∧
      ((((relayedCluster.next .wrapping acknowledged).next .wrapping
        ⟨⟨1#128⟩, 1010, .endWait false (.sorted _) (.sorted _)⟩).nodes[(⟨1#128⟩ : NodeId)]?.bind
          fun node => node.protocol.members.members[(⟨4#128⟩ : NodeId)]?).map Member.state)
        = some .suspect := by
  have hround := relayRound_relayedCluster
  have hframe : (relayedCluster.next .wrapping acknowledged).nodes[(⟨1#128⟩ : NodeId)]?
      = askedCluster.nodes[(⟨1#128⟩ : NodeId)]? := by
    have hothers : ∀ ev ∈ relaying, ev.who ≠ ⟨1#128⟩ := by decide
    rw [nodes_next_of_ne _ _ _ (by decide), relayedCluster, Roster.run, runState_append]
    exact nodes_run_of_ne .wrapping relaying hothers _
  refine ⟨notDirect_round, hround, ?_, ?_⟩
  · obtain ⟨-, -, -, -, -, ack, -, -, hack, -, -, -, -, hseq, -⟩ := hround
    rintro ⟨packet, hmem, hdst, hnumber⟩
    rw [acknowledged, sent_next_deliver_ack hack hseq] at hmem
    exact not_acknowledged_to_requester packet hmem hdst hnumber
  · rw [getElem?_next_endWait hframe]
    decide +kernel

end Blockyard.Gossip
