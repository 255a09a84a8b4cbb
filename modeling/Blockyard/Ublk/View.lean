/-
# What the nodes hold

The block handler knows the nodes only through its data plane.  A `View` says what they hold
behind it, extent by extent, and which operation ids they have not seen.  A plane `Serves` views
when a write that is acknowledged replaces what its node holds, a write that is not leaves it
alone, and a read finds what is held: `acks` says which nodes acknowledge, `up` which nodes
answer reads.

§3 sends one write to several nodes.  §4 has the planes that serve: the TCP client in front of
healthy data nodes, nodes that do nothing but keep what they are sent, and any plane behind a
network that cuts some nodes off.
-/
import Blockyard.Ublk.Healthy

open Std CrashFs

namespace Blockyard.Ublk

open Storage DataNodeService

/-! ## 1. Views -/

/-- What the nodes hold, and which operation ids are new to them. -/
structure View where
  held : NodeId → ExtentId → Option Bytes
  fresh : NodeId → OperationId → Prop

/-- The view after a write was sent to a node. -/
def View.send (v : View) (acked : Bool) (call : WriteCall) : View where
  held := fun n e =>
    if acked = true ∧ n = call.nodeId ∧ e = call.extentId then some call.data else v.held n e
  fresh := fun n o => v.fresh n o ∧ ¬ (n = call.nodeId ∧ o = call.operationId)

/-- The view after writes were sent one after the other. -/
def View.sendAll (v : View) (acks : NodeId → Bool) (calls : List WriteCall) : View :=
  calls.foldl (fun v call => v.send (acks call.nodeId) call) v

/-- What the calls of a volume may name: its nodes, its epoch, its extents. -/
structure Scope where
  volumeId : VolumeId
  epoch : EpochId
  nodes : List NodeId
  extents : ExtentId → Prop

/-- The calls of a client of the volume. -/
def volumeScope (cfg : VolumeConfig) (cache : MetadataCache) (extents : ExtentId → Prop) : Scope :=
  ⟨cfg.volumeId, cache.epoch, cache.listNodes, extents⟩

structure Scope.Writes (scope : Scope) (blake3 : Bytes → BitVec 256) (call : WriteCall) : Prop where
  node : call.nodeId ∈ scope.nodes
  volumeId : call.volumeId = scope.volumeId
  epoch : call.epoch = scope.epoch
  extent : scope.extents call.extentId
  version : call.extentVersion = PlacementEngine.extentVersion
  checksum : call.checksum = computeChecksum blake3 call.data

/-- A read in the scope: of a whole extent, or of a window that ends below `2^64`. -/
structure Scope.Reads (scope : Scope) (call : ReadCall) : Prop where
  node : call.nodeId ∈ scope.nodes
  extent : scope.extents call.extentId
  version : call.extentVersion = PlacementEngine.extentVersion
  window : (call.offset = 0 ∧ call.length = 0) ∨
    (0 < call.length ∧ call.offset + call.length < 2 ^ 64 ∧ call.length < 2 ^ 63)

def ReadCall.windowOf (call : ReadCall) (payload : Bytes) : Bytes :=
  if call.length = 0 then payload else resize (payload.drop call.offset) call.length

/-- What a read finds at a node. -/
def slotOf (v : View) (up : NodeId → Bool) (e : ExtentId) (n : NodeId) : Option Bytes :=
  if up n = true then v.held n e else none

section Views

variable {v : View} {acks : NodeId → Bool} {calls : List WriteCall} {n : NodeId} {e : ExtentId}

@[simp] theorem View.sendAll_nil : v.sendAll acks [] = v := rfl

@[simp] theorem View.sendAll_cons (call : WriteCall) :
    v.sendAll acks (call :: calls) = (v.send (acks call.nodeId) call).sendAll acks calls := rfl

/-- A node that was sent nothing for an extent, or did not acknowledge it, holds what it held. -/
theorem View.held_sendAll_other
    (h : ∀ call ∈ calls, call.nodeId = n → call.extentId = e → acks n = false) :
    (v.sendAll acks calls).held n e = v.held n e := by
  induction calls generalizing v with
  | nil => rfl
  | cons call calls ih =>
    rw [sendAll_cons, ih fun c hc => h c (by simp [hc])]
    refine if_neg ?_
    rintro ⟨hack, rfl, rfl⟩
    exact absurd hack (by simp [h call])

/-- **A node that acknowledged** holds what it was sent. -/
theorem View.held_sendAll (hnodup : (calls.map WriteCall.nodeId).Nodup) {call : WriteCall}
    (hcall : call ∈ calls) (hack : acks call.nodeId = true) :
    (v.sendAll acks calls).held call.nodeId call.extentId = some call.data := by
  induction calls generalizing v with
  | nil => simp at hcall
  | cons first calls ih =>
    rw [List.map_cons, List.nodup_cons] at hnodup
    rw [sendAll_cons]
    rcases List.mem_cons.mp hcall with rfl | hmem
    · -- nobody else is sent anything at its place
      rw [held_sendAll_other]
      · simp [send, hack]
      · intro c hc hn
        exact absurd (hn ▸ List.mem_map_of_mem hc) hnodup.1
    · exact ih hnodup.2 hmem

theorem View.fresh_sendAll {o : OperationId} (hfresh : v.fresh n o)
    (h : ∀ call ∈ calls, call.nodeId = n → call.operationId ≠ o) :
    (v.sendAll acks calls).fresh n o := by
  induction calls generalizing v with
  | nil => exact hfresh
  | cons call calls ih =>
    rw [sendAll_cons]
    refine ih ⟨hfresh, ?_⟩ fun c hc => h c (by simp [hc])
    rintro ⟨hn, ho⟩
    exact h call (by simp) hn.symm ho.symm

/-- What one write of an extent, sent to several nodes, makes of a view: the nodes that
acknowledge hold what they were sent, and nothing else changes. -/
structure Sent (v v' : View) (acks : NodeId → Bool) (e : ExtentId) (o : OperationId)
    (calls : List WriteCall) : Prop where
  sent : ∀ call ∈ calls, v'.held call.nodeId e
    = if acks call.nodeId = true then some call.data else v.held call.nodeId e
  others : ∀ n, (∀ call ∈ calls, call.nodeId ≠ n) → v'.held n e = v.held n e
  elsewhere : ∀ n e', e' ≠ e → v'.held n e' = v.held n e'
  fresh : ∀ n o', v.fresh n o' → o' ≠ o → v'.fresh n o'

theorem View.sent_sendAll (v : View) (acks : NodeId → Bool) {o : OperationId}
    (hnodup : (calls.map WriteCall.nodeId).Nodup)
    (hcalls : ∀ call ∈ calls, call.extentId = e ∧ call.operationId = o) :
    Sent v (v.sendAll acks calls) acks e o calls where
  sent := by
    intro call hmem
    have hext := (hcalls call hmem).1
    cases hack : acks call.nodeId with
    | true => rw [if_pos rfl, ← hext, held_sendAll hnodup hmem hack]
    | false => simp [held_sendAll_other fun _ _ _ _ => hack]
  others := fun n hn => held_sendAll_other fun call hmem heq => absurd heq (hn call hmem)
  elsewhere := by
    intro n e' he'
    refine held_sendAll_other fun call hmem _ hext => ?_
    exact absurd (hext.symm.trans (hcalls call hmem).1) he'
  fresh := fun n o' ho' hne => fresh_sendAll ho' fun call hmem _ hop =>
    hne (hop.symm.trans (hcalls call hmem).2)

end Views

/-! ## 2. Planes that serve -/

def Acked (ack : WriteAck) : Prop := ack.success = true ∧ ack.error = none

/-- An acknowledgement says what happened. -/
def Reports (acked : Bool) (ack : WriteAck) : Prop :=
  if acked = true then Acked ack else ack.success = false

/-- **The plane serves views.**  `Shows v s`: in state `s` the nodes hold what `v` says. -/
structure Serves {σ : Type} (plane : DataPlane σ) (blake3 : Bytes → BitVec 256) (scope : Scope)
    (acks up : NodeId → Bool) (Shows : View → σ → Prop) : Prop where
  write : ∀ {v s call}, Shows v s → scope.Writes blake3 call →
    v.fresh call.nodeId call.operationId →
    ∃ s' ack, sendOne plane s call = (s', ack) ∧ Reports (acks call.nodeId) ack ∧
      Shows (v.send (acks call.nodeId) call) s'
  read : ∀ {v s call}, Shows v s → scope.Reads call →
    ∃ s' r, plane.readExtent s call = (s', r) ∧ Shows v s' ∧
      ReadsAs (if up call.nodeId then v.held call.nodeId call.extentId else none) call.windowOf r
  forget : ∀ {v s} {fresh : NodeId → OperationId → Prop}, Shows v s →
    (∀ n o, fresh n o → v.fresh n o) → Shows ⟨v.held, fresh⟩ s

/-! ## 3. One write to several nodes -/

section Serving

variable {σ : Type} {plane : DataPlane σ} {blake3 : Bytes → BitVec 256} {scope : Scope}
  {acks up : NodeId → Bool} {Shows : View → σ → Prop} {v : View}

theorem Serves.narrow {scope' : Scope} (h : Serves plane blake3 scope acks up Shows)
    (hvolume : scope'.volumeId = scope.volumeId) (hepoch : scope'.epoch = scope.epoch)
    (hnodes : ∀ n ∈ scope'.nodes, n ∈ scope.nodes)
    (hextents : ∀ e, scope'.extents e → scope.extents e) :
    Serves plane blake3 scope' acks up Shows where
  write := fun hs hw => h.write hs ⟨hnodes _ hw.node, hw.volumeId.trans hvolume,
    hw.epoch.trans hepoch, hextents _ hw.extent, hw.version, hw.checksum⟩
  read := fun hs hr => h.read hs ⟨hnodes _ hr.node, hextents _ hr.extent, hr.version, hr.window⟩
  forget := h.forget

/-- The loop of `transmit`: the acknowledgements come in the order of the calls. -/
theorem Serves.foldl_sendOne (h : Serves plane blake3 scope acks up Shows) (calls : List WriteCall)
    (hcalls : ∀ call ∈ calls, scope.Writes blake3 call)
    (hnodup : (calls.map WriteCall.nodeId).Nodup) (v : View)
    (hfresh : ∀ call ∈ calls, v.fresh call.nodeId call.operationId) (s : σ) (hs : Shows v s)
    (before : List WriteAck) :
    ∃ s' replies, calls.foldl (fun acc call =>
        let (s, ack) := sendOne plane acc.1 call
        (s, acc.2 ++ [ack])) (s, before) = (s', before ++ replies) ∧
      Shows (v.sendAll acks calls) s' ∧
      List.Forall₂ (fun call ack => Reports (acks call.nodeId) ack) calls replies := by
  induction calls generalizing v s before with
  | nil => exact ⟨s, [], by simp, hs, .nil⟩
  | cons call calls ih =>
    rw [List.map_cons, List.nodup_cons] at hnodup
    obtain ⟨s₁, ack, hsend, hreport, hs₁⟩ := h.write hs (hcalls call (by simp))
      (hfresh call (by simp))
    have hfresh' : ∀ c ∈ calls, (v.send (acks call.nodeId) call).fresh c.nodeId c.operationId := by
      intro c hc
      refine ⟨hfresh c (by simp [hc]), fun hsame => hnodup.1 ?_⟩
      rw [← hsame.1]
      exact List.mem_map_of_mem hc
    obtain ⟨s', replies, heq, hs', hall⟩ := ih (fun c hc => hcalls c (by simp [hc])) hnodup.2 _
      hfresh' s₁ hs₁ (before ++ [ack])
    refine ⟨s', ack :: replies, ?_, hs', .cons hreport hall⟩
    rw [List.foldl_cons]
    simp only [hsend, heq, List.append_assoc, List.singleton_append]

/-- **One write to several nodes**, in any order. -/
theorem Serves.transmit (h : Serves plane blake3 scope acks up Shows) (order : IterOrder WriteCall)
    {calls : List WriteCall} (hcalls : ∀ call ∈ calls, scope.Writes blake3 call)
    (hnodup : (calls.map WriteCall.nodeId).Nodup) {e : ExtentId} {o : OperationId}
    (hsame : ∀ call ∈ calls, call.extentId = e ∧ call.operationId = o)
    (hfresh : ∀ call ∈ calls, v.fresh call.nodeId o) {s : σ} (hs : Shows v s) :
    ∃ s' v' replies, transmit plane order s calls = (s', replies) ∧ Shows v' s' ∧
      Sent v v' acks e o calls ∧
      List.Forall₂ (fun call ack => Reports (acks call.nodeId) ack) (order.arrange calls)
        replies := by
  have hperm := order.perm calls
  have hnodup' : ((order.arrange calls).map WriteCall.nodeId).Nodup :=
    (hperm.map _).nodup_iff.mpr hnodup
  have hfresh' : ∀ c ∈ order.arrange calls, v.fresh c.nodeId c.operationId := by
    intro c hc
    have hmem := hperm.mem_iff.mp hc
    rw [(hsame c hmem).2]
    exact hfresh c hmem
  obtain ⟨s', replies, heq, hs', hall⟩ := h.foldl_sendOne (order.arrange calls)
    (fun c hc => hcalls c (hperm.mem_iff.mp hc)) hnodup' v hfresh' s hs []
  have hsent := v.sent_sendAll acks hnodup' fun c hc => hsame c (hperm.mem_iff.mp hc)
  refine ⟨s', _, replies, heq, hs', ⟨?_, ?_, hsent.elsewhere, hsent.fresh⟩, hall⟩
  · exact fun c hc => hsent.sent c (hperm.mem_iff.mpr hc)
  · exact fun n hn => hsent.others n fun c hc => hn c (hperm.mem_iff.mp hc)

theorem acked_of_reports {calls : List WriteCall} {replies : List WriteAck}
    (h : List.Forall₂ (fun _ ack => Reports true ack) calls replies) : ∀ a ∈ replies, Acked a := by
  induction h with
  | nil => simp
  | cons hreport _ ih => exact List.forall_mem_cons.mpr ⟨hreport, ih⟩

end Serving

/-! ## 4. The TCP client serves, and so does a plane with nodes cut off -/

/-- A healthy data node holds what the view says. -/
structure NodeShows (x : Externals) (scope : Scope) (v : View) (n : NodeId)
    (svc : DataNodeService) : Prop where
  healthy : Healthy scope.volumeId scope.epoch svc
  fresh : ∀ o, v.fresh n o → svc.checkDuplicate o = none
  holds : ∀ e, scope.extents e → Holds x svc e (v.held n e)

def ClusterShows (x : Externals) (scope : Scope) (v : View) (cl : Cluster) : Prop :=
  ∀ n ∈ scope.nodes, ∃ svc, cl.nodes[n]? = some svc ∧ NodeShows x scope v n svc

def ShowsAt (x : Externals) (scope : Scope) (extents : NodeId → ExtentId → Prop) (v : View)
    (cl : Cluster) : Prop :=
  ∀ n ∈ scope.nodes, ∃ svc, cl.nodes[n]? = some svc ∧
    NodeShows x { scope with extents := extents n } v n svc

section Tcp

variable {x : Externals} {scope : Scope} {v : View} {n : NodeId} {svc : DataNodeService}
  {extents : NodeId → ExtentId → Prop} {world : Nat → Tick} {call : WriteCall} {tick : Tick}

theorem NodeShows.write (h : NodeShows x scope v n svc) (hq : Quiet tick)
    (hcall : scope.Writes x.blake3 call) (hn : call.nodeId = n)
    (hnew : v.fresh n call.operationId) :
    ∃ svc' d, svc.handleWrite x tick.writeEnv call.request call.data (.node n)
        = (svc', writeSuccess call.request d (x.checksum call.data)) ∧
      NodeShows x scope (v.send true call) n svc' := by
  obtain ⟨d, disk, store, hel, hst, hid, heq⟩ := h.healthy.handleWrite_eq hq.stage hq.commit
    hcall.volumeId hcall.epoch hcall.checksum (h.fresh _ hnew) n
  refine ⟨_, d, heq, h.healthy.written hid _ _ _ _ _, ?_, ?_⟩
  · rintro o ⟨hfresh, hother⟩
    have hold : svc.operationLog[o]? = none := h.fresh o hfresh
    refine getElem?_of_trimLog ((getElem?_insert_of_ne _ ?_ _).trans hold)
    rintro rfl
    exact hother ⟨hn.symm, rfl⟩
  · intro e he
    by_cases hsame : e = call.extentId
    · subst hsame
      have hheld : (v.send true call).held n call.extentId = some call.data :=
        if_pos ⟨rfl, hn.symm, rfl⟩
      rw [hheld]
      exact holds_written hel hid _ hcall.version _ _
    · have hheld : (v.send true call).held n e = v.held n e := if_neg fun h => hsame h.2.2
      rw [hheld]
      exact (h.holds e he).write_other hst _ (Ne.symm hsame) _ _ _

theorem NodeShows.write_other (h : NodeShows x scope v n svc) (hn : call.nodeId ≠ n)
    (acked : Bool) : NodeShows x scope (v.send acked call) n svc where
  healthy := h.healthy
  fresh := fun o ho => h.fresh o ho.1
  holds := by
    intro e he
    have hheld : (v.send acked call).held n e = v.held n e := if_neg fun h => hn h.2.1.symm
    rw [hheld]
    exact h.holds e he

/-- One round trip of a read: the nodes stay as they are. -/
theorem tryReadExtent_shows (hquiet : ∀ i, Quiet (world i)) (ovf : Overflow) {cl : Cluster}
    (h : ShowsAt x scope extents v cl) {call : ReadCall}
    (hcall : { scope with extents := extents call.nodeId }.Reads call) :
    ∃ r, tryReadExtent x ovf world cl call = (cl.skip, r) ∧
      ReadsAs (v.held call.nodeId call.extentId) call.windowOf r := by
  obtain ⟨svc, hsvc, hnode⟩ := h call.nodeId hcall.node
  obtain ⟨request, hreq⟩ : ∃ request, request = call.request (world cl.tick) := ⟨_, rfl⟩
  have hwindow : ∀ p, readWindow ovf p request.offset request.length = some (call.windowOf p) := by
    intro p
    rw [hreq]
    show readWindow ovf p call.offset call.length = _
    unfold ReadCall.windowOf
    rcases hcall.window with hwhole | ⟨hpos, hstop, hlen⟩
    · rw [readWindow, if_pos hwhole, if_pos hwhole.2]
    · rw [readWindow_eq ovf p hpos hstop hlen, if_neg (Nat.pos_iff_ne_zero.mp hpos)]
  have hheld : Holds x svc request.extentId (v.held call.nodeId call.extentId) := by
    rw [hreq]
    exact hnode.holds call.extentId hcall.extent
  obtain ⟨answer, heq, hreads⟩ := hnode.healthy.handleRead_answer (by rw [hreq]; rfl)
    (by rw [hreq]; exact hcall.version) hheld hwindow call.nodeId
  refine ⟨_, ?_, hreads⟩
  have hq := hquiet cl.tick
  have hsame : cl.setNode call.nodeId svc = cl.skip := by
    rw [Cluster.setNode, insert_of_getElem? hsvc]
    rfl
  simp only [tryReadExtent, hsvc, hq.read, ← hreq, heq, hq.delivery, hsame]

/-- **The TCP client in front of healthy nodes serves**, when nothing is lost. -/
theorem serves_showsAt (hquiet : ∀ i, Quiet (world i)) (ovf : Overflow) {nodes : List NodeId}
    {asked : ExtentId → Prop} (hnodes : ∀ n ∈ nodes, n ∈ scope.nodes ∧ ∀ e, asked e → extents n e) :
    Serves (tcpPlane x ovf world) x.blake3 { scope with nodes, extents := asked } (fun _ => true)
      (fun _ => true) (ShowsAt x scope extents) where
  write := by
    intro v cl call hshows hcall hfresh
    obtain ⟨hmem, hsub⟩ := hnodes _ hcall.node
    obtain ⟨svc, hsvc, hnode⟩ := hshows call.nodeId hmem
    have hcall : { scope with extents := extents call.nodeId }.Writes x.blake3 call :=
      ⟨hmem, hcall.volumeId, hcall.epoch, hsub _ hcall.extent, hcall.version, hcall.checksum⟩
    obtain ⟨svc', d, heq, hnode'⟩ := hnode.write (hquiet cl.tick) hcall rfl hfresh
    refine ⟨cl.setNode call.nodeId svc', convertWriteResponse call.nodeId
      (writeSuccess call.request d (x.checksum call.data)), ?_, ⟨rfl, rfl⟩, ?_⟩
    · simp only [sendOne, tcpPlane, tcpWriteExtent, tryWriteExtent, hsvc, heq,
        (hquiet cl.tick).delivery]
    · intro n hn
      by_cases hcn : call.nodeId = n
      · subst hcn
        exact ⟨svc', ExtTreeMap.getElem?_insert_self, hnode'⟩
      · obtain ⟨svcn, hsvcn, hnoden⟩ := hshows n hn
        exact ⟨svcn, (getElem?_insert_of_ne _ hcn _).trans hsvcn, hnoden.write_other hcn _⟩
  read := by
    intro v cl call hshows hcall
    obtain ⟨hmem, hsub⟩ := hnodes _ hcall.node
    have hcall : { scope with extents := extents call.nodeId }.Reads call :=
      ⟨hmem, hsub _ hcall.extent, hcall.version, hcall.window⟩
    obtain ⟨r, hr, hreads⟩ := tryReadExtent_shows hquiet ovf hshows hcall
    have hskip : ShowsAt x scope extents v cl.skip := hshows
    obtain ⟨r', hr', hreads'⟩ := tryReadExtent_shows hquiet ovf hskip hcall
    simp only [tcpPlane, tcpReadExtent, if_true]
    cases hheld : v.held call.nodeId call.extentId with
    | some payload =>
      rw [hheld] at hreads
      obtain rfl : r = _ := hreads
      simp only [hr]
      exact ⟨_, _, rfl, hshows, rfl⟩
    | none =>
      rw [hheld] at hreads hreads'
      obtain ⟨err, rfl⟩ := hreads
      obtain ⟨err', rfl⟩ := hreads'
      simp only [hr, hr']
      exact ⟨_, _, rfl, hshows, _, rfl⟩
  forget := by
    intro v cl fresh hshows hsub n hn
    obtain ⟨svc, hsvc, hnode⟩ := hshows n hn
    exact ⟨svc, hsvc, hnode.healthy, fun o ho => hnode.fresh o (hsub n o ho), hnode.holds⟩

theorem serves_tcpPlane (hquiet : ∀ i, Quiet (world i)) (ovf : Overflow) :
    Serves (tcpPlane x ovf world) x.blake3 scope (fun _ => true) (fun _ => true)
      (ClusterShows x scope) :=
  serves_showsAt hquiet ovf fun _ hn => ⟨hn, fun _ he => he⟩

end Tcp

/-- Nodes that keep what they are sent, and nothing else: the plane a test would use. -/
def shelf : DataPlane (NodeId → ExtentId → Option Bytes) where
  writeExtent := fun held call =>
    (fun n e => if n = call.nodeId ∧ e = call.extentId then some call.data else held n e,
      .ok { nodeId := call.nodeId, success := true, checksum := call.checksum, error := none })
  readExtent := fun held call =>
    (held, match held call.nodeId call.extentId with
      | some payload => .ok (call.windowOf payload)
      | none => .error "extent not found")

theorem serves_shelf (blake3 : Bytes → BitVec 256) (scope : Scope) :
    Serves shelf blake3 scope (fun _ => true) (fun _ => true) fun v held => v.held = held where
  write := by
    rintro v _ call rfl _ _
    refine ⟨_, _, rfl, ⟨rfl, rfl⟩, ?_⟩
    funext n e
    simp [View.send]
  read := by
    rintro v _ call rfl _
    refine ⟨_, _, rfl, rfl, ?_⟩
    rw [if_pos rfl]
    cases v.held call.nodeId call.extentId with
    | some payload => rfl
    | none => exact ⟨_, rfl⟩
  forget := fun hs _ => hs

/-- A plane behind a network that lets writes through to some nodes and reads to some. -/
def DataPlane.cutOff {σ : Type} (plane : DataPlane σ) (acks up : NodeId → Bool) : DataPlane σ where
  writeExtent := fun s call =>
    if acks call.nodeId = true then plane.writeExtent s call
    else (s, .error (.network "connection refused"))
  readExtent := fun s call =>
    if up call.nodeId = true then plane.readExtent s call else (s, .error "connection refused")

/-- **Nodes that are cut off** neither acknowledge nor answer; the others serve as before. -/
theorem Serves.cutOff {σ : Type} {plane : DataPlane σ} {blake3 : Bytes → BitVec 256} {scope : Scope}
    {Shows : View → σ → Prop}
    (h : Serves plane blake3 scope (fun _ => true) (fun _ => true) Shows)
    (acks up : NodeId → Bool) : Serves (plane.cutOff acks up) blake3 scope acks up Shows where
  write := by
    intro v s call hs hcall hfresh
    cases hack : acks call.nodeId with
    | true =>
      obtain ⟨s', ack, hsend, hreport, hs'⟩ := h.write hs hcall hfresh
      refine ⟨s', ack, ?_, hreport, hs'⟩
      rw [← hsend]
      simp only [sendOne, DataPlane.cutOff, hack, if_true]
    | false =>
      refine ⟨s, ⟨call.nodeId, false, "", some (.internalError
        (toString (Error.network "connection refused")))⟩, ?_, rfl, ?_⟩
      · simp only [sendOne, DataPlane.cutOff, hack, Bool.false_eq_true, if_false]
      · have hsend : v.send false call = ⟨v.held, (v.send false call).fresh⟩ := by
          simp [View.send]
        rw [hsend]
        exact h.forget hs fun n o ho => ho.1
  read := by
    intro v s call hs hcall
    cases hup : up call.nodeId with
    | true =>
      obtain ⟨s', r, heq, hs', hreads⟩ := h.read hs hcall
      exact ⟨s', r, by simp only [DataPlane.cutOff, hup, if_true, heq], hs', hreads⟩
    | false => exact ⟨s, _, by simp only [DataPlane.cutOff, hup, Bool.false_eq_true, if_false]; rfl,
        hs, _, rfl⟩
  forget := h.forget

end Blockyard.Ublk
