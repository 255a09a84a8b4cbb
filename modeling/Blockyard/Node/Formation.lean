/-
# Forming a cluster

`blockyard`, `node.rs` and `api.rs`: under which Raft id a node runs.  `BlockyardNode::start` has
three branches.  A node with applied state RECOVERS: it takes the id its own copy of the state
machine has for it, and 1 if there is none.  A node without state and without seeds BOOTSTRAPS: it
takes 1, and registers itself afterwards.  Every other node JOINS: the cluster registers it, and it
takes the id of the answer.

Two of these go wrong on a crash.  The copy of a joiner is a PREFIX of the log, which need not reach
its own registration; it then recovers as 1.  And a bootstrap node that stops between
initialization and registration recovers without ever registering, so the first joiner is given 1.

`raft_ids_unique` is what holds otherwise: if the bootstrap node is the first to be registered, and
no joiner recovers from a prefix without its registration, ids are unique and those the state
machine assigns.

An entry on which `apply` panics stops every node that comes to it, so none has a longer prefix;
`machineOf` lets it pass without effect.
-/
import Blockyard.Lib.Run
import Blockyard.Raft.Persistent

open Std Machine

namespace Blockyard.Node

open Raft (MetadataRequest MetadataResponse MetadataStateMachineData Entry EntryPayload LogId)
open Raft.MetadataStateMachineData (RaftIds getRaftId_congr registerNode_answer)

/-! ## 1. Starting a node -/

variable {log : List Entry} {n : NodeId} {i : Nat}

def machineOf (ovf : Overflow) (log : List Entry) : MetadataStateMachineData :=
  log.foldl (fun s entry => ((s.applyEntry ovf entry).map Prod.fst).getD s) .new

/-- The branch of `BlockyardNode::start` that is taken. -/
inductive StartMode
  | recover (raftId : Nat)
  | bootstrap
  | join
  deriving DecidableEq

/-- Step 7 of `BlockyardNode::start`. -/
def startMode (sm : MetadataStateMachineData) (nodeId : NodeId) (hasSeeds : Bool) : StartMode :=
  if sm.lastApplied.isSome then .recover ((sm.getRaftId nodeId).getD 1)
  else if ¬ hasSeeds then .bootstrap
  else .join

/-- How far a node has got. -/
inductive Phase
  | down
  /-- Raft runs under id 1, and `initialize` is next. -/
  | bootstrapping
  /-- The cluster is initialized, and the registration of the node itself is next. -/
  | initialized
  /-- A seed is asked; the id of its answer, if there is one. -/
  | joining (answer : Option Nat)
  | running
  deriving DecidableEq

def Phase.answer : Phase → Option Nat
  | .joining answer => answer
  | _ => none

def Phase.RunsRaft (phase : Phase) : Prop :=
  phase = .bootstrapping ∨ phase = .initialized ∨ phase = .running

instance Phase.decidableRunsRaft (phase : Phase) : Decidable phase.RunsRaft := by
  unfold RunsRaft
  infer_instance

/-- A node: how many entries of the log it has applied and persisted, and its phase. -/
structure FormingNode where
  stored : Nat
  phase : Phase

/-- A cluster: the committed log, the nodes, under which id each call of `Raft::new` was made, and
which of them were recoveries. -/
structure Formation where
  log : List Entry
  nodes : NodeId → FormingNode
  ran : List (NodeId × Nat)
  restarts : List (NodeId × Nat)

variable {f : Formation}

inductive FormationEvent
  | start (n : NodeId)
  /-- The bootstrap node calls `initialize`. -/
  | initCluster (logId : LogId)
  /-- The bootstrap node registers itself. -/
  | registerSelf (logId : LogId) (addr : String)
  /-- `cluster_join` registers a node that asks. -/
  | registerJoin (n : NodeId) (logId : LogId) (addr : String)
  /-- The node gets its answer. -/
  | joinAnswer (n : NodeId)
  /-- Any other entry is committed. -/
  | commit (entry : Entry)
  /-- The node has applied and persisted so many entries. -/
  | persist (n : NodeId) (stored : Nat)
  | crash (n : NodeId)

def registration (logId : LogId) (n : NodeId) (addr : String) : Entry :=
  ⟨logId, .normal (.registerNode n addr)⟩

/-- `raft_id` of the `JoinResponse`, if the registration is answered. -/
def joinResponse : Option (MetadataStateMachineData × MetadataResponse) → Option Nat
  | some (_, .nodeRegistered raftId) => some raftId
  | _ => none

namespace Formation

/-- No node has ever run. -/
def start : Formation := ⟨[], fun _ => ⟨0, .down⟩, [], []⟩

def setPhase (f : Formation) (n : NodeId) (phase : Phase) : Formation :=
  { f with nodes := Function.update f.nodes n { f.nodes n with phase } }

/-- The copy of the state machine a node finds on its disk. -/
def stored (ovf : Overflow) (f : Formation) (n : NodeId) : MetadataStateMachineData :=
  machineOf ovf (f.log.take (f.nodes n).stored)

/-- One event; `boot` is the node without seeds. -/
def step (ovf : Overflow) (boot : NodeId) (f : Formation) : FormationEvent → Formation × Unit
  | .start n =>
    match (f.nodes n).phase with
    | .down =>
      match startMode (f.stored ovf n) n (n ≠ boot) with
      | .recover raftId =>
        ({ f.setPhase n .running with
            ran := f.ran ++ [(n, raftId)]
            restarts := f.restarts ++ [(n, raftId)] }, ())
      | .bootstrap => ({ f.setPhase n .bootstrapping with ran := f.ran ++ [(n, 1)] }, ())
      | .join => (f.setPhase n (.joining none), ())
    | _ => (f, ())
  | .initCluster logId =>
    match (f.nodes boot).phase with
    | .bootstrapping =>
      -- a log that has entries already is not initialized again, and the start fails
      if f.log = [] then
        ({ f.setPhase boot .initialized with
            log := [⟨logId, .membership [[1]] [(1, "")]⟩] }, ())
      else (f.setPhase boot .down, ())
    | _ => (f, ())
  | .registerSelf logId addr =>
    match (f.nodes boot).phase with
    | .initialized =>
      ({ f.setPhase boot .running with log := f.log ++ [registration logId boot addr] }, ())
    | _ => (f, ())
  | .registerJoin n logId addr =>
    match (f.nodes n).phase with
    | .joining _ =>
      if f.log = [] then (f, ())
      else
        let entry := registration logId n addr
        let answer := joinResponse ((machineOf ovf f.log).applyEntry ovf entry)
        ({ f.setPhase n (.joining answer) with log := f.log ++ [entry] }, ())
    | _ => (f, ())
  | .joinAnswer n =>
    match (f.nodes n).phase with
    | .joining (some raftId) =>
      ({ f.setPhase n .running with ran := f.ran ++ [(n, raftId)] }, ())
    | _ => (f, ())
  | .commit entry => if f.log = [] then (f, ()) else ({ f with log := f.log ++ [entry] }, ())
  | .persist n stored =>
    if (f.nodes n).phase.RunsRaft ∧ (f.nodes n).stored ≤ stored ∧ stored ≤ f.log.length then
      ({ f with nodes := Function.update f.nodes n { f.nodes n with stored } }, ())
    else (f, ())
  | .crash n => (f.setPhase n .down, ())

def after (ovf : Overflow) (boot : NodeId) (events : List FormationEvent) : Formation :=
  runState (step ovf boot) .start events

end Formation

/-! ## 2. The promise -/

/-- **What Raft asks of the ids**: no two nodes ever run under one, and a node that recovers runs
under the id that the state machine has assigned to it, or assigns when it is asked. -/
structure UniqueIdentities (ovf : Overflow) (f : Formation) : Prop where
  distinct : ∀ n n' i, (n, i) ∈ f.ran → (n', i) ∈ f.ran → n = n'
  assigned : ∀ n i, (n, i) ∈ f.restarts → ∀ addr,
    ((machineOf ovf f.log).registerNode ovf n addr).2 = some (.nodeRegistered i)

/-- The nodes that the entries of a log register, in order. -/
def registrations (log : List Entry) : List NodeId :=
  log.filterMap fun entry =>
    match entry.payload with
    | .normal (.registerNode n _) => some n
    | _ => none

/-- A joiner does not recover from a prefix without its registration. -/
def JoinerKnowsItself (ovf : Overflow) (boot : NodeId) (f : Formation) (event : FormationEvent) :
    Prop :=
  ∀ n, event = .start n → n ≠ boot → (f.nodes n).phase = .down →
    (f.stored ovf n).lastApplied.isSome → n ∈ registrations (f.log.take (f.nodes n).stored)

/-! ## 3. Ids along a log -/

section Log

variable {ovf : Overflow}

theorem machineOf_snoc (ovf : Overflow) (log : List Entry) (entry : Entry) :
    machineOf ovf (log ++ [entry])
      = (((machineOf ovf log).applyEntry ovf entry).map Prod.fst).getD (machineOf ovf log) := by
  rw [machineOf, List.foldl_append]
  rfl

theorem registrations_append (log later : List Entry) :
    registrations (log ++ later) = registrations log ++ registrations later :=
  List.filterMap_append

/-- **What an entry does to the ids**: a registration what `registerNode` does, any other entry
nothing. -/
theorem machineOf_snoc_cases (ovf : Overflow) (log : List Entry) (entry : Entry) :
    (registrations [entry] = [] ∧
        (machineOf ovf (log ++ [entry])).identity.2 = (machineOf ovf log).identity.2) ∨
      ∃ n addr, registrations [entry] = [n] ∧
        (machineOf ovf (log ++ [entry])).identity.2
          = ((machineOf ovf log).registerNode ovf n addr).1.identity.2 := by
  obtain ⟨logId, payload⟩ := entry
  rw [machineOf_snoc]
  generalize machineOf ovf log = s
  cases payload with
  | blank => exact Or.inl ⟨rfl, rfl⟩
  | membership configs nodes => exact Or.inl ⟨rfl, rfl⟩
  | normal req =>
    by_cases hreg : ∃ n addr, req = .registerNode n addr
    · obtain ⟨n, addr, rfl⟩ := hreg
      refine Or.inr ⟨n, addr, rfl, ?_⟩
      simp only [MetadataStateMachineData.applyEntry, MetadataStateMachineData.applyRequest,
        MetadataStateMachineData.registerNode]
      cases hid : s.nodeRaftMap[n]? with
      | some raftId => rfl
      | none =>
        cases hnext : addU64 ovf s.raftIdCounter 1 with
        | none => rfl
        | some raftId => rfl
    · push Not at hreg
      have hnot : registrations [⟨logId, .normal req⟩] = [] := by
        cases req with
        | registerNode n addr => exact absurd rfl (hreg n addr)
        | _ => rfl
      have hids := MetadataStateMachineData.identity_applyRequest ovf
        { s with lastApplied := some logId } req hreg
      refine Or.inl ⟨hnot, ?_⟩
      simp only [MetadataStateMachineData.applyEntry]
      rcases happly : MetadataStateMachineData.applyRequest ovf
        { s with lastApplied := some logId } req with ⟨s', _ | resp⟩
      · rfl
      · rw [happly] at hids
        exact (congrArg Prod.snd hids :
          s'.identity.2 = { s with lastApplied := some logId }.identity.2)

/-- **An id is kept for good**, however the log goes on. -/
theorem getRaftId_append (h : (machineOf ovf log).getRaftId n = some i) (later : List Entry) :
    (machineOf ovf (log ++ later)).getRaftId n = some i := by
  induction later using List.reverseRecOn with
  | nil => rwa [List.append_nil]
  | append_singleton later entry ih =>
    rw [← List.append_assoc]
    rcases machineOf_snoc_cases ovf (log ++ later) entry with
      ⟨-, hsame⟩ | ⟨n', addr, -, hreg⟩
    · rw [getRaftId_congr hsame]
      exact ih
    · rw [getRaftId_congr hreg]
      exact MetadataStateMachineData.getRaftId_applyRequest ih (.registerNode n' addr)

/-- **The ids of a log**: 1, 2, .., at most one for each registration. -/
theorem raftIds_machineOf (ovf : Overflow) (hroom : (registrations log).length < 2 ^ 64) :
    RaftIds (machineOf ovf log) ∧
      (machineOf ovf log).raftIdCounter ≤ (registrations log).length := by
  induction log using List.reverseRecOn with
  | nil => exact ⟨RaftIds.new, Nat.le_refl 0⟩
  | append_singleton log entry ih =>
    rw [registrations_append, List.length_append] at hroom ⊢
    obtain ⟨hids, hcounter⟩ := ih (by omega)
    rcases machineOf_snoc_cases ovf log entry with ⟨-, hsame⟩ | ⟨n, addr, hone, hreg⟩
    · have hsameCounter : (machineOf ovf (log ++ [entry])).raftIdCounter
          = (machineOf ovf log).raftIdCounter := congrArg Prod.fst hsame
      exact ⟨hids.congr hsame, by omega⟩
    · rw [hone, List.length_singleton] at hroom ⊢
      have hnext : (machineOf ovf log).raftIdCounter + 1 < 2 ^ 64 := by omega
      obtain ⟨-, -, -, hgrown, -⟩ := registerNode_answer ovf n addr hnext
      have hsameCounter : (machineOf ovf (log ++ [entry])).raftIdCounter
          = ((machineOf ovf log).registerNode ovf n addr).1.raftIdCounter :=
        congrArg Prod.fst hreg
      exact ⟨(hids.applyRequest ovf (.registerNode n addr) hnext).congr hreg, by omega⟩

theorem counter_room (ovf : Overflow) {entry : Entry}
    (hroom : (registrations (log ++ [entry])).length < 2 ^ 64)
    (hone : registrations [entry] = [n]) :
    (machineOf ovf log).raftIdCounter + 1 < 2 ^ 64 := by
  rw [registrations_append, hone, List.length_append, List.length_singleton] at hroom
  have := (raftIds_machineOf ovf (by omega : (registrations log).length < 2 ^ 64)).2
  omega

/-- **Who is registered has an id.** -/
theorem exists_id_of_registered (ovf : Overflow) (hroom : (registrations log).length < 2 ^ 64)
    (h : n ∈ registrations log) :
    ∃ i, (machineOf ovf log).getRaftId n = some i := by
  induction log using List.reverseRecOn with
  | nil => cases h
  | append_singleton log entry ih =>
    have hroom' := hroom
    rw [registrations_append, List.length_append] at hroom'
    rw [registrations_append, List.mem_append] at h
    rcases h with hmem | hmem
    · obtain ⟨i, hi⟩ := ih (by omega) hmem
      exact ⟨i, getRaftId_append hi [entry]⟩
    · rcases machineOf_snoc_cases ovf log entry with ⟨hnone, -⟩ | ⟨n', addr, hone, hreg⟩
      · rw [hnone] at hmem
        cases hmem
      · rw [hone, List.mem_singleton] at hmem
        subst hmem
        obtain ⟨i, hi, -⟩ := registerNode_answer ovf n addr (counter_room ovf hroom hone)
        exact ⟨i, (getRaftId_congr hreg n).trans hi⟩

theorem no_ids (ovf : Overflow) (h : registrations log = []) :
    (machineOf ovf log).raftIdCounter = 0 ∧ ∀ n, (machineOf ovf log).getRaftId n = none := by
  have hroom : (registrations log).length < 2 ^ 64 := by
    rw [h]
    decide
  obtain ⟨hids, hcounter⟩ := raftIds_machineOf ovf hroom
  rw [h] at hcounter
  have hzero := Nat.le_zero.mp hcounter
  refine ⟨hzero, ?_⟩
  intro n
  by_contra hsome
  obtain ⟨i, hi⟩ := Option.ne_none_iff_exists'.mp hsome
  have := hids.range n i hi
  omega

/-- **The node that is registered first has id 1.** -/
theorem first_registered_id (hroom : (registrations log).length < 2 ^ 64)
    (h : (registrations log).head? = some n) :
    (machineOf ovf log).getRaftId n = some 1 := by
  induction log using List.reverseRecOn with
  | nil => cases h
  | append_singleton log entry ih =>
    cases hlog : registrations log with
    | cons n' rest =>
      have hroom' := hroom
      rw [registrations_append, List.length_append] at hroom'
      rw [registrations_append, hlog] at h
      exact getRaftId_append (ih (by omega) (by rw [hlog]; exact h)) [entry]
    | nil =>
      rw [registrations_append, hlog, List.nil_append] at h
      rcases machineOf_snoc_cases ovf log entry with ⟨hnone, -⟩ | ⟨n', addr, hone, hreg⟩
      · rw [hnone] at h
        cases h
      · rw [hone] at h
        cases h
        obtain ⟨hzero, hfree⟩ := no_ids ovf hlog
        obtain ⟨i, hi, -, -, hold | ⟨-, hnew⟩⟩ :=
          registerNode_answer ovf n addr (counter_room ovf hroom hone)
        · rw [hfree n] at hold
          cases hold
        · rw [getRaftId_congr hreg, hi, hnew, hzero]

end Log

/-! ## 4. Ids along a history -/

section History

variable {ovf : Overflow} {boot : NodeId}

/-- A node may run under an id: the state machine has it, or it is the id of the bootstrap. -/
def MayRun (ovf : Overflow) (boot : NodeId) (log : List Entry) (n : NodeId) (i : Nat) : Prop :=
  n = boot ∧ i = 1 ∨ (machineOf ovf log).getRaftId n = some i

theorem MayRun.append (h : MayRun ovf boot log n i) (later : List Entry) :
    MayRun ovf boot (log ++ later) n i :=
  h.imp_right fun hid => getRaftId_append hid later

/-- **Every id is accounted for.** -/
structure Accounted (ovf : Overflow) (boot : NodeId) (f : Formation) : Prop where
  ran : ∀ n i, (n, i) ∈ f.ran → MayRun ovf boot f.log n i
  answers : ∀ n i, (f.nodes n).phase.answer = some i →
    (machineOf ovf f.log).getRaftId n = some i
  restarts : f.restarts ⊆ f.ran

theorem Accounted.start : Accounted ovf boot .start where
  ran n i h := by cases h
  answers n i h := by cases h
  restarts := List.Subset.refl _

/-- The log only grows, so what is new is all that has to be looked at. -/
theorem Accounted.next {f' : Formation} (h : Accounted ovf boot f) {later : List Entry}
    (hlog : f'.log = f.log ++ later)
    (hran : ∀ n i, (n, i) ∈ f'.ran → (n, i) ∈ f.ran ∨ MayRun ovf boot f'.log n i)
    (hanswers : ∀ n i, (f'.nodes n).phase.answer = some i →
      (f.nodes n).phase.answer = some i ∨ (machineOf ovf f'.log).getRaftId n = some i)
    (hrestarts : f'.restarts ⊆ f'.ran) : Accounted ovf boot f' where
  ran n i hmem := by
    rcases hran n i hmem with hold | hnew
    · rw [hlog]
      exact (h.ran n i hold).append later
    · exact hnew
  answers n i hphase := by
    rcases hanswers n i hphase with hold | hnew
    · rw [hlog]
      exact getRaftId_append (h.answers n i hold) later
    · exact hnew
  restarts := hrestarts

theorem phase_setPhase (f : Formation) (n m : NodeId) (phase : Phase) :
    ((f.setPhase n phase).nodes m).phase = if m = n then phase else (f.nodes m).phase := by
  by_cases h : m = n
  · subst h
    simp [Formation.setPhase]
  · simp [Formation.setPhase, h]

theorem Accounted.setPhase (h : Accounted ovf boot f) (n : NodeId) (phase : Phase)
    (hphase : phase.answer = none) : Accounted ovf boot (f.setPhase n phase) := by
  refine h.next (List.append_nil _).symm (fun _ _ hmem => Or.inl hmem) ?_ h.restarts
  intro m i hans
  rw [phase_setPhase] at hans
  split at hans
  · rw [hphase] at hans
    cases hans
  · exact Or.inl hans

/-- **A call of `Raft::new`**, under an id the node may run under. -/
theorem Accounted.run (h : Accounted ovf boot f) (hmay : MayRun ovf boot f.log n i)
    {restarts : List (NodeId × Nat)} (hrestarts : restarts ⊆ f.ran ++ [(n, i)]) :
    Accounted ovf boot { f with ran := f.ran ++ [(n, i)], restarts } := by
  refine h.next (List.append_nil _).symm ?_ (fun _ _ hans => Or.inl hans) hrestarts
  intro n' i' hmem
  rcases List.mem_append.mp hmem with hold | hnew
  · exact Or.inl hold
  · cases List.mem_singleton.mp hnew
    exact Or.inr hmay

/-- **An entry is committed.** -/
theorem Accounted.commit (h : Accounted ovf boot f) (later : List Entry) :
    Accounted ovf boot { f with log := f.log ++ later } :=
  h.next rfl (fun _ _ hmem => Or.inl hmem) (fun _ _ hans => Or.inl hans) h.restarts

/-- **The log only grows.** -/
theorem log_step (ovf : Overflow) (boot : NodeId) (f : Formation) (event : FormationEvent) :
    ∃ later, (f.step ovf boot event).1.log = f.log ++ later := by
  cases event with
  | initCluster logId =>
    simp only [Formation.step]
    split
    · split
      · next hlog => exact ⟨_, by rw [hlog]; rfl⟩
      · exact ⟨[], (List.append_nil _).symm⟩
    · exact ⟨[], (List.append_nil _).symm⟩
  | registerSelf logId addr =>
    simp only [Formation.step]
    split
    · exact ⟨_, rfl⟩
    · exact ⟨[], (List.append_nil _).symm⟩
  | registerJoin n logId addr =>
    simp only [Formation.step]
    split
    · split
      · exact ⟨[], (List.append_nil _).symm⟩
      · exact ⟨_, rfl⟩
    · exact ⟨[], (List.append_nil _).symm⟩
  | commit entry =>
    simp only [Formation.step]
    split
    · exact ⟨[], (List.append_nil _).symm⟩
    · exact ⟨_, rfl⟩
  | start | joinAnswer | persist | crash =>
    refine ⟨[], ?_⟩
    rw [List.append_nil]
    simp only [Formation.step]
    repeat' split
    all_goals rfl

/-- **A node recovers under an id it may run under**: the bootstrap node in any case, a joiner if
its copy has its registration. -/
theorem mayRun_recover (ovf : Overflow) (hroom : (registrations f.log).length < 2 ^ 64)
    (hknown : n ≠ boot → n ∈ registrations (f.log.take (f.nodes n).stored)) :
    MayRun ovf boot f.log n (((f.stored ovf n).getRaftId n).getD 1) := by
  have hsplit := List.take_append_drop (f.nodes n).stored f.log
  cases hid : (f.stored ovf n).getRaftId n with
  | some i =>
    refine Or.inr ?_
    rw [← hsplit]
    exact getRaftId_append hid _
  | none =>
    by_cases hboot : n = boot
    · exact Or.inl ⟨hboot, rfl⟩
    · -- the copy has the registration, so it has an id
      have hroomStored : (registrations (f.log.take (f.nodes n).stored)).length < 2 ^ 64 := by
        rw [← hsplit, registrations_append, List.length_append] at hroom
        omega
      obtain ⟨i, hi⟩ := exists_id_of_registered ovf hroomStored (hknown hboot)
      rw [Formation.stored, hi] at hid
      cases hid

/-- **The answer to a joiner is the id it has then.** -/
theorem getRaftId_of_joinResponse {logId : LogId} {addr : String}
    (hroom : (registrations (log ++ [registration logId n addr])).length < 2 ^ 64)
    (h : joinResponse ((machineOf ovf log).applyEntry ovf (registration logId n addr)) = some i) :
    (machineOf ovf (log ++ [registration logId n addr])).getRaftId n = some i := by
  have hnext := counter_room ovf hroom rfl
  rw [machineOf_snoc]
  revert h hnext
  generalize machineOf ovf log = s
  intro h hnext
  -- the entry is applied to a state that differs in `last_applied` alone
  obtain ⟨raftId, hid, hresp, -⟩ := registerNode_answer ovf n addr
    (s := { s with lastApplied := some logId }) hnext
  have happly : s.applyEntry ovf (registration logId n addr)
      = some ((MetadataStateMachineData.registerNode ovf
          { s with lastApplied := some logId } n addr).1, .nodeRegistered raftId) := by
    simp only [MetadataStateMachineData.applyEntry, registration,
      MetadataStateMachineData.applyRequest]
    rw [← Prod.eta (MetadataStateMachineData.registerNode ovf
      { s with lastApplied := some logId } n addr), hresp]
  rw [happly] at h ⊢
  cases h
  exact hid

/-- **A node is started**, in the branch that `start` takes. -/
theorem Accounted.startNode (h : Accounted ovf boot f)
    (hknown : JoinerKnowsItself ovf boot f (.start n))
    (hroom : (registrations f.log).length < 2 ^ 64) :
    Accounted ovf boot (f.step ovf boot (.start n)).1 := by
  simp only [Formation.step]
  split
  · next hdown =>
    split
    · next raftId hmode =>
      simp only [startMode] at hmode
      split_ifs at hmode with happlied
      cases hmode
      have hmay := mayRun_recover ovf hroom
        (fun hne : n ≠ boot => hknown n rfl hne hdown happlied)
      refine (h.setPhase n .running rfl).run hmay ?_
      exact List.append_subset.mpr ⟨List.subset_append_of_subset_left _ h.restarts,
        List.subset_append_right _ _⟩
    · next hmode =>
      simp only [startMode] at hmode
      split_ifs at hmode with happlied hboot
      have hself : n = boot := by simpa using hboot
      exact (h.setPhase n .bootstrapping rfl).run (Or.inl ⟨hself, rfl⟩)
        (List.subset_append_of_subset_left _ h.restarts)
    · exact h.setPhase n (.joining none) rfl
  · exact h

/-- **A joiner is registered**, and answered. -/
theorem Accounted.registerJoin (h : Accounted ovf boot f) {logId : LogId} {addr : String}
    (hroom : (registrations (f.log ++ [registration logId n addr])).length < 2 ^ 64) :
    Accounted ovf boot { f.setPhase n (.joining (joinResponse
        ((machineOf ovf f.log).applyEntry ovf (registration logId n addr)))) with
      log := f.log ++ [registration logId n addr] } := by
  refine h.next rfl (fun _ _ hmem => Or.inl hmem) ?_ h.restarts
  intro m i hans
  change ((f.setPhase n _).nodes m).phase.answer = some i at hans
  rw [phase_setPhase] at hans
  split at hans
  · next hself =>
    subst hself
    exact Or.inr (getRaftId_of_joinResponse hroom hans)
  · exact Or.inl hans

/-- **One event.** -/
theorem Accounted.step (h : Accounted ovf boot f) {event : FormationEvent}
    (hknown : JoinerKnowsItself ovf boot f event)
    (hroom : (registrations (f.step ovf boot event).1.log).length < 2 ^ 64) :
    Accounted ovf boot (f.step ovf boot event).1 := by
  cases event with
  | start n =>
    obtain ⟨later, hlog⟩ := log_step ovf boot f (.start n)
    rw [hlog, registrations_append, List.length_append] at hroom
    exact h.startNode hknown (by omega)
  | initCluster logId =>
    simp only [Formation.step]
    split
    · split
      · next hlog =>
        have hinit := (h.setPhase boot .initialized rfl).commit
          [⟨logId, .membership [[1]] [(1, "")]⟩]
        rwa [show (f.setPhase boot .initialized).log = [] from hlog] at hinit
      · exact h.setPhase boot .down rfl
    · exact h
  | registerSelf logId addr =>
    simp only [Formation.step]
    split
    · exact (h.setPhase boot .running rfl).commit _
    · exact h
  | registerJoin n logId addr =>
    simp only [Formation.step] at hroom ⊢
    split
    · next hjoining =>
      simp only [hjoining] at hroom
      split
      · exact h
      · next hlog =>
        rw [if_neg hlog] at hroom
        exact h.registerJoin hroom
    · exact h
  | joinAnswer n =>
    simp only [Formation.step]
    split
    · next raftId hphase =>
      have hanswer : (f.nodes n).phase.answer = some raftId := by
        rw [hphase]
        rfl
      exact (h.setPhase n .running rfl).run (Or.inr (h.answers n raftId hanswer))
        (List.subset_append_of_subset_left _ h.restarts)
    · exact h
  | commit entry =>
    simp only [Formation.step]
    split
    · exact h
    · exact h.commit [entry]
  | persist n stored =>
    simp only [Formation.step]
    split
    · refine h.next (List.append_nil _).symm (fun _ _ hmem => Or.inl hmem) ?_ h.restarts
      intro m i hans
      by_cases hm : m = n
      · subst hm
        simp only [Function.update_self] at hans
        exact Or.inl hans
      · simp only [Function.update_of_ne hm] at hans
        exact Or.inl hans
    · exact h
  | crash n => exact h.setPhase n .down rfl

/-- **Every history.** -/
theorem accounted_run {events : List FormationEvent}
    (hknown : Along (Formation.step ovf boot) (JoinerKnowsItself ovf boot) .start events)
    (hroom : (registrations (Formation.after ovf boot events).log).length < 2 ^ 64) :
    Accounted ovf boot (Formation.after ovf boot events) := by
  refine runState_of_along (P := fun f : Formation =>
    (registrations f.log).length < 2 ^ 64 → Accounted ovf boot f)
    (fun _ => Accounted.start) hknown ?_ hroom
  intro f event ih hevent hlater
  obtain ⟨later, hlog⟩ := log_step ovf boot f event
  have hroomLog : (registrations f.log).length < 2 ^ 64 := by
    rw [hlog, registrations_append, List.length_append] at hlater
    omega
  exact (ih hroomLog).step hevent hlater

end History

/-! ## 5. Unique ids -/

/-- **Id 1 is the bootstrap node's**: while nothing is registered, or by registration, if its is the
first. -/
theorem mayRun_cases {ovf : Overflow} {boot : NodeId}
    (hfirst : ∀ n, (registrations log).head? = some n → n = boot)
    (hroom : (registrations log).length < 2 ^ 64) (h : MayRun ovf boot log n i) :
    n = boot ∧ i = 1 ∧ registrations log = [] ∨ (machineOf ovf log).getRaftId n = some i := by
  rcases h with ⟨rfl, rfl⟩ | hid
  · cases hregs : registrations log with
    | nil => exact Or.inl ⟨rfl, rfl, rfl⟩
    | cons n' rest =>
      have hhead : (registrations log).head? = some n' := by rw [hregs]; rfl
      refine Or.inr ?_
      rw [← hfirst n' hhead]
      exact first_registered_id hroom hhead
  · exact Or.inr hid

/-- **Ids are unique, and a recovered node has its own**, if the bootstrap node is the first that
is registered and no joiner recovers from a prefix of the log without its own registration. -/
theorem raft_ids_unique (ovf : Overflow) (boot : NodeId) (events : List FormationEvent)
    (hfirst : ∀ n, (registrations (Formation.after ovf boot events).log).head? = some n → n = boot)
    (hknown : Along (Formation.step ovf boot) (JoinerKnowsItself ovf boot) .start events)
    (hroom : (registrations (Formation.after ovf boot events).log).length + 1 < 2 ^ 64) :
    UniqueIdentities ovf (Formation.after ovf boot events) := by
  have haccounted := accounted_run hknown (by omega)
  revert haccounted hfirst hroom
  generalize Formation.after ovf boot events = f
  intro hfirst hroom haccounted
  have hroomLog : (registrations f.log).length < 2 ^ 64 := by omega
  obtain ⟨hids, hcounter⟩ := raftIds_machineOf ovf hroomLog
  refine ⟨?_, ?_⟩
  · intro n n' i hran hran'
    rcases mayRun_cases hfirst hroomLog (haccounted.ran n i hran) with ⟨rfl, -, hnone⟩ | hid
    · rcases mayRun_cases hfirst hroomLog (haccounted.ran n' i hran') with ⟨rfl, -, -⟩ | hid'
      · rfl
      · rw [(no_ids ovf hnone).2 n'] at hid'
        cases hid'
    · rcases mayRun_cases hfirst hroomLog (haccounted.ran n' i hran') with ⟨rfl, -, hnone⟩ | hid'
      · rw [(no_ids ovf hnone).2 n] at hid
        cases hid
      · exact hids.injective n n' i hid hid'
  · intro n i hrestart addr
    obtain ⟨raftId, -, hresp, -, hold⟩ := registerNode_answer ovf n addr
      (by omega : (machineOf ovf f.log).raftIdCounter + 1 < 2 ^ 64)
    rw [hresp]
    have hran := haccounted.ran n i (haccounted.restarts hrestart)
    rcases mayRun_cases hfirst hroomLog hran with ⟨-, rfl, hnone⟩ | hid
    · obtain ⟨hzero, hfree⟩ := no_ids ovf hnone
      rcases hold with hid | ⟨-, hnew⟩
      · rw [hfree n] at hid
        cases hid
      · rw [hnew, hzero]
    · rcases hold with hid' | ⟨hnew, -⟩
      · rw [hid] at hid'
        cases hid'
        rfl
      · rw [hid] at hnew
        cases hnew

/-- Node 1 bootstraps, node 2 joins, persists so many entries, crashes and starts again. -/
def joinAndRestart (stored : Nat) : List FormationEvent :=
  [.start ⟨1⟩, .initCluster ⟨0, 0, 0⟩, .registerSelf ⟨1, 1, 1⟩ "a:9800", .start ⟨2⟩,
    .registerJoin ⟨2⟩ ⟨1, 1, 2⟩ "b:9800", .joinAnswer ⟨2⟩, .persist ⟨2⟩ stored, .crash ⟨2⟩,
    .start ⟨2⟩]

/-- Node 2 has persisted its registration, and recovers under its id. -/
theorem raft_ids_unique_joined :
    UniqueIdentities .wrapping (Formation.after .wrapping ⟨1⟩ (joinAndRestart 3)) ∧
      (Formation.after .wrapping ⟨1⟩ (joinAndRestart 3)).ran = [(⟨1⟩, 1), (⟨2⟩, 2), (⟨2⟩, 2)] := by
  have hregs : registrations (Formation.after .wrapping ⟨1⟩ (joinAndRestart 3)).log
      = [⟨1⟩, ⟨2⟩] := by
    rfl
  refine ⟨raft_ids_unique .wrapping ⟨1⟩ (joinAndRestart 3) ?_ ?_ ?_, by rfl⟩
  · intro n hn
    rw [hregs] at hn
    cases hn
    rfl
  · have hother : ∀ (f : Formation) (event : FormationEvent), (∀ n, event ≠ .start n) →
        JoinerKnowsItself .wrapping ⟨1⟩ f event := by
      intro f event hevent n hstart
      exact absurd hstart (hevent n)
    refine ⟨?_, hother _ _ (by simp), hother _ _ (by simp), ?_, hother _ _ (by simp),
      hother _ _ (by simp), hother _ _ (by simp), hother _ _ (by simp), ?_, trivial⟩
    · intro n hn hne
      cases hn
      exact absurd rfl hne
    · intro n hn _ _ happlied
      cases hn
      cases happlied
    · intro n hn _ _ _
      cases hn
      decide
  · rw [hregs]
    decide

/-- Node 1 stops between initialization and registration and starts again, and node 2 joins. -/
def restartAndJoin : List FormationEvent :=
  [.start ⟨1⟩, .initCluster ⟨0, 0, 0⟩, .persist ⟨1⟩ 1, .crash ⟨1⟩, .start ⟨1⟩, .start ⟨2⟩,
    .registerJoin ⟨2⟩ ⟨1, 1, 1⟩ "b:9800", .joinAnswer ⟨2⟩]

/-- **Two nodes run as 1.**  Node 2 has persisted one entry, the membership, and recovers under the
id of node 1.  Or node 1 stops when it has initialized the cluster, recovers without a registration,
and the first joiner is given its id. -/
theorem joiner_runs_as_one :
    (Formation.after .wrapping ⟨1⟩ (joinAndRestart 1)).ran = [(⟨1⟩, 1), (⟨2⟩, 2), (⟨2⟩, 1)] ∧
      ¬ UniqueIdentities .wrapping (Formation.after .wrapping ⟨1⟩ (joinAndRestart 1)) ∧
      ¬ UniqueIdentities .wrapping (Formation.after .wrapping ⟨1⟩ restartAndJoin) := by
  have hjoiner : (Formation.after .wrapping ⟨1⟩ (joinAndRestart 1)).ran
      = [(⟨1⟩, 1), (⟨2⟩, 2), (⟨2⟩, 1)] := by
    rfl
  have hboot : (Formation.after .wrapping ⟨1⟩ restartAndJoin).ran
      = [(⟨1⟩, 1), (⟨1⟩, 1), (⟨2⟩, 1)] := by
    rfl
  refine ⟨hjoiner, ?_, ?_⟩
  · intro h
    have hsame := h.distinct ⟨1⟩ ⟨2⟩ 1 (by rw [hjoiner]; decide) (by rw [hjoiner]; decide)
    cases hsame
  · intro h
    have hsame := h.distinct ⟨1⟩ ⟨2⟩ 1 (by rw [hboot]; decide) (by rw [hboot]; decide)
    cases hsame

end Blockyard.Node
