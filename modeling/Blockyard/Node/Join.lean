/-
# Joining a cluster

`blockyard`, `api.rs`: `cluster_join` registers the node, reads the voters from the Raft metrics,
ADDS the new id to a copy of them, makes the node a learner, answers, and two seconds later calls
`change_membership` with the copy.  `change_membership(s, false)` makes `s` the voters, and nothing
else.

So the voters after all promotions are the copy of the LAST one (`Promotions.last`), and whoever
became a voter after that copy was made is out again.  The voters are kept exactly when the join
that is promoted last made its copy when everyone else was a voter already
(`joins_keep_voters_iff`): when the joins wait for each other.

Learners have no part in this: `add_learner` is a step of a join, and the voters do not change.
-/
import Blockyard.Lib.Run
import Blockyard.Raft.StateMachine

open Machine

namespace Blockyard.Node

open Raft (MetadataRequest MetadataStateMachineData)

/-! ## 1. Join handlers and promotion tasks -/

/-- How far a call of `cluster_join` has got, its promotion task included. -/
inductive JoinStage
  | waiting
  /-- The registration failed, and the handler has answered with the error. -/
  | rejected
  | registered (raftId : Nat)
  /-- `new_members` is made. -/
  | captured (raftId : Nat) (newMembers : Finset Nat)
  /-- The learner is added, the node has its answer, and the promotion task sleeps. -/
  | answered (raftId : Nat) (newMembers : Finset Nat)
  | promoted (raftId : Nat) (newMembers : Finset Nat)

/-- A leader with its calls of `cluster_join`, numbered as they come in, and the join that was
promoted last. -/
structure JoiningCluster where
  machine : MetadataStateMachineData
  voters : Finset Nat
  joins : Nat → JoinStage
  lastPromoted : Option Nat

/-- What can happen: other requests to the metadata, and the steps of the joins. -/
inductive JoinEvent
  | applied (req : MetadataRequest)
  | register (j : Nat) (nodeId : NodeId) (addr : String)
  | reject (j : Nat)
  | capture (j : Nat)
  | addLearner (j : Nat)
  | promote (j : Nat)

namespace JoiningCluster

def start (machine : MetadataStateMachineData) (voters : Finset Nat) : JoiningCluster :=
  ⟨machine, voters, fun _ => .waiting, none⟩

def setStage (s : JoiningCluster) (j : Nat) (stage : JoinStage) : JoiningCluster :=
  { s with joins := Function.update s.joins j stage }

def step (ovf : Overflow) (s : JoiningCluster) : JoinEvent → JoiningCluster × Unit
  | .applied req => ({ s with machine := (s.machine.applyRequest ovf req).1 }, ())
  | .register j nodeId addr =>
    match s.joins j with
    | .waiting =>
      match s.machine.registerNode ovf nodeId addr with
      | (machine, some (.nodeRegistered raftId)) =>
        ({ s with machine }.setStage j (.registered raftId), ())
      | (machine, _) => ({ s with machine }.setStage j .rejected, ())
    | _ => (s, ())
  | .reject j =>
    match s.joins j with
    | .waiting => (s.setStage j .rejected, ())
    | _ => (s, ())
  | .capture j =>
    match s.joins j with
    | .registered raftId => (s.setStage j (.captured raftId (insert raftId s.voters)), ())
    | _ => (s, ())
  | .addLearner j =>
    match s.joins j with
    | .captured raftId newMembers => (s.setStage j (.answered raftId newMembers), ())
    | _ => (s, ())
  | .promote j =>
    match s.joins j with
    | .answered raftId newMembers =>
      ({ s.setStage j (.promoted raftId newMembers) with
          voters := newMembers
          lastPromoted := some j }, ())
    | _ => (s, ())

def after (ovf : Overflow) (s : JoiningCluster) (events : List JoinEvent) : JoiningCluster :=
  runState (step ovf) s events

end JoiningCluster

/-- The id and the copy of the voters of a join, from the moment the copy is made. -/
def JoinStage.copy : JoinStage → Option (Nat × Finset Nat)
  | .captured raftId newMembers | .answered raftId newMembers | .promoted raftId newMembers =>
    some (raftId, newMembers)
  | _ => none

/-! ## 2. The promise -/

/-- Every join has been promoted, or never got an id. -/
def AllPromoted (s : JoiningCluster) : Prop :=
  ∀ j, s.joins j = .waiting ∨ s.joins j = .rejected ∨ ∃ raftId newMembers,
    s.joins j = .promoted raftId newMembers

def Joined (s : JoiningCluster) (raftId : Nat) : Prop :=
  ∃ j newMembers, s.joins j = .promoted raftId newMembers

/-- **What joining promises**: once all promotions have run, the voters of the start and all nodes
that joined are voters. -/
def KeepsVoters (voters : Finset Nat) (s : JoiningCluster) : Prop :=
  AllPromoted s → voters ⊆ s.voters ∧ ∀ raftId, Joined s raftId → raftId ∈ s.voters

/-! ## 3. What a step does -/

/-- **A step changes nothing, moves one join without touching the voters, or promotes.** -/
inductive StepEffect (s s' : JoiningCluster) (event : JoinEvent) : Prop
  | still (hvoters : s'.voters = s.voters) (hjoins : s'.joins = s.joins)
      (hlast : s'.lastPromoted = s.lastPromoted)
  /-- A join without a copy that does not get one. -/
  | moved (j : Nat) (stage : JoinStage) (hold : (s.joins j).copy = none) (hnew : stage.copy = none)
      (hvoters : s'.voters = s.voters) (hjoins : s'.joins = Function.update s.joins j stage)
      (hlast : s'.lastPromoted = s.lastPromoted)
  | captured (j raftId : Nat) (hevent : event = .capture j)
      (hold : s.joins j = .registered raftId) (hvoters : s'.voters = s.voters)
      (hjoins : s'.joins
        = Function.update s.joins j (.captured raftId (insert raftId s.voters)))
      (hlast : s'.lastPromoted = s.lastPromoted)
  | answered (j raftId : Nat) (newMembers : Finset Nat)
      (hold : s.joins j = .captured raftId newMembers) (hvoters : s'.voters = s.voters)
      (hjoins : s'.joins = Function.update s.joins j (.answered raftId newMembers))
      (hlast : s'.lastPromoted = s.lastPromoted)
  | promoted (j raftId : Nat) (newMembers : Finset Nat)
      (hold : s.joins j = .answered raftId newMembers) (hvoters : s'.voters = newMembers)
      (hjoins : s'.joins = Function.update s.joins j (.promoted raftId newMembers))
      (hlast : s'.lastPromoted = some j)

theorem step_effect (ovf : Overflow) (s : JoiningCluster) (event : JoinEvent) :
    StepEffect s (s.step ovf event).1 event := by
  cases event with
  | applied req => exact .still rfl rfl rfl
  | register j nodeId addr =>
    rw [JoiningCluster.step]
    split
    case h_1 hwaiting =>
      have hcopy : (s.joins j).copy = none := by rw [hwaiting]; rfl
      split
      · exact .moved j _ hcopy rfl rfl rfl rfl
      · exact .moved j _ hcopy rfl rfl rfl rfl
    case h_2 => exact .still rfl rfl rfl
  | reject j =>
    rw [JoiningCluster.step]
    split
    case h_1 hwaiting => exact .moved j _ (by rw [hwaiting]; rfl) rfl rfl rfl rfl
    case h_2 => exact .still rfl rfl rfl
  | capture j =>
    rw [JoiningCluster.step]
    split
    case h_1 raftId hregistered => exact .captured j raftId rfl hregistered rfl rfl rfl
    case h_2 => exact .still rfl rfl rfl
  | addLearner j =>
    rw [JoiningCluster.step]
    split
    case h_1 raftId newMembers hcaptured =>
      exact .answered j raftId newMembers hcaptured rfl rfl rfl
    case h_2 => exact .still rfl rfl rfl
  | promote j =>
    rw [JoiningCluster.step]
    split
    case h_1 raftId newMembers hanswered =>
      exact .promoted j raftId newMembers hanswered rfl rfl rfl
    case h_2 => exact .still rfl rfl rfl

/-! ## 4. The last promotion decides -/

section Run

variable {ovf : Overflow} {first s s' : JoiningCluster} {seen : List JoinEvent}

/-- Each copy is that of the voters at the moment it was made, and the voters are the copy of the
last promotion. -/
structure Promotions (ovf : Overflow) (first : JoiningCluster) (seen : List JoinEvent)
    (s : JoiningCluster) : Prop where
  copies : ∀ j raftId newMembers, (s.joins j).copy = some (raftId, newMembers) →
    ∃ before later, seen = before ++ .capture j :: later ∧
      (first.after ovf before).joins j = .registered raftId ∧
      newMembers = insert raftId (first.after ovf before).voters
  untouched : s.lastPromoted = none → s.voters = first.voters ∧ ∀ raftId, ¬ Joined s raftId
  last : ∀ j, s.lastPromoted = some j → ∃ raftId, s.joins j = .promoted raftId s.voters

/-- A join gets a new stage, with the copy it had or without one. -/
theorem Promotions.update (h : Promotions ovf first seen s) {event : JoinEvent} {j : Nat}
    {stage : JoinStage} (hold : ∀ raftId newMembers, s.joins j ≠ .promoted raftId newMembers)
    (hnew : ∀ raftId newMembers, stage ≠ .promoted raftId newMembers)
    (hcopy : ∀ raftId newMembers, stage.copy = some (raftId, newMembers) →
      ∃ before later, seen ++ [event] = before ++ .capture j :: later ∧
        (first.after ovf before).joins j = .registered raftId ∧
        newMembers = insert raftId (first.after ovf before).voters)
    (hvoters : s'.voters = s.voters) (hjoins : s'.joins = Function.update s.joins j stage)
    (hlast : s'.lastPromoted = s.lastPromoted) : Promotions ovf first (seen ++ [event]) s' where
  copies := by
    intro j' raftId newMembers hcopied
    by_cases hj : j' = j
    · subst hj
      rw [hjoins, Function.update_self] at hcopied
      exact hcopy raftId newMembers hcopied
    · rw [hjoins, Function.update_of_ne hj] at hcopied
      obtain ⟨before, later, hseen, hrest⟩ := h.copies j' raftId newMembers hcopied
      exact ⟨before, later ++ [event], by simp [hseen], hrest⟩
  untouched := by
    intro hnone
    obtain ⟨hsame, hjoined⟩ := h.untouched (hlast ▸ hnone)
    refine ⟨hvoters.trans hsame, ?_⟩
    rintro raftId ⟨j', newMembers, hpromoted⟩
    by_cases hj : j' = j
    · subst hj
      rw [hjoins, Function.update_self] at hpromoted
      exact hnew raftId newMembers hpromoted
    · rw [hjoins, Function.update_of_ne hj] at hpromoted
      exact hjoined raftId ⟨j', newMembers, hpromoted⟩
  last := by
    intro j' hsome
    obtain ⟨raftId, hpromoted⟩ := h.last j' (hlast ▸ hsome)
    have hj : j' ≠ j := by
      rintro rfl
      exact hold raftId s.voters hpromoted
    refine ⟨raftId, ?_⟩
    rw [hjoins, Function.update_of_ne hj, hvoters]
    exact hpromoted

theorem Promotions.earlier (h : Promotions ovf first seen s) {j raftId : Nat}
    {newMembers : Finset Nat} (hcopied : (s.joins j).copy = some (raftId, newMembers))
    (event : JoinEvent) :
    ∃ before later, seen ++ [event] = before ++ .capture j :: later ∧
      (first.after ovf before).joins j = .registered raftId ∧
      newMembers = insert raftId (first.after ovf before).voters := by
  obtain ⟨before, later, hseen, hrest⟩ := h.copies j raftId newMembers hcopied
  exact ⟨before, later ++ [event], by simp [hseen], hrest⟩

theorem Promotions.step (h : Promotions ovf first seen s) (hs : s = first.after ovf seen)
    {event : JoinEvent} (heffect : StepEffect s s' event) :
    Promotions ovf first (seen ++ [event]) s' := by
  cases heffect with
  | still hvoters hjoins hlast =>
    refine ⟨?_, ?_, ?_⟩
    · intro j raftId newMembers hcopied
      rw [hjoins] at hcopied
      exact h.earlier hcopied event
    · intro hnone
      obtain ⟨hsame, hjoined⟩ := h.untouched (hlast ▸ hnone)
      refine ⟨hvoters.trans hsame, ?_⟩
      rintro raftId ⟨j, newMembers, hpromoted⟩
      exact hjoined raftId ⟨j, newMembers, hjoins ▸ hpromoted⟩
    · intro j hsome
      rw [hjoins, hvoters]
      exact h.last j (hlast ▸ hsome)
  | moved j stage hold hnew hvoters hjoins hlast =>
    refine h.update ?_ ?_ ?_ hvoters hjoins hlast
    · intro raftId newMembers hpromoted
      rw [hpromoted] at hold
      cases hold
    · rintro raftId newMembers rfl
      cases hnew
    · intro raftId newMembers hcopied
      rw [hnew] at hcopied
      cases hcopied
  | captured j raftId hevent hold hvoters hjoins hlast =>
    refine h.update ?_ ?_ ?_ hvoters hjoins hlast
    · intro raftId' newMembers hpromoted
      rw [hold] at hpromoted
      cases hpromoted
    · intro raftId' newMembers hpromoted
      cases hpromoted
    · -- the copy is made by this event, of the voters there are now
      rintro raftId' newMembers ⟨⟩
      subst hevent hs
      exact ⟨seen, [], rfl, hold, rfl⟩
  | answered j raftId newMembers hold hvoters hjoins hlast =>
    refine h.update ?_ ?_ ?_ hvoters hjoins hlast
    · intro raftId' newMembers' hpromoted
      rw [hold] at hpromoted
      cases hpromoted
    · intro raftId' newMembers' hpromoted
      cases hpromoted
    · rintro raftId' newMembers' ⟨⟩
      exact h.earlier (by rw [hold]; rfl) event
  | promoted j raftId newMembers hold hvoters hjoins hlast =>
    refine ⟨?_, ?_, ?_⟩
    · intro j' raftId' newMembers' hcopied
      by_cases hj : j' = j
      · subst hj
        rw [hjoins, Function.update_self] at hcopied
        cases hcopied
        exact h.earlier (by rw [hold]; rfl) event
      · rw [hjoins, Function.update_of_ne hj] at hcopied
        exact h.earlier hcopied event
    · intro hnone
      rw [hlast] at hnone
      cases hnone
    · intro j' hsome
      rw [hlast] at hsome
      cases hsome
      exact ⟨raftId, by rw [hjoins, Function.update_self, hvoters]⟩

/-- **The voters along a run of joins.** -/
theorem promotions_run (ovf : Overflow) (machine : MetadataStateMachineData) (voters : Finset Nat)
    (events : List JoinEvent) :
    Promotions ovf (.start machine voters) events
      (JoiningCluster.after ovf (.start machine voters) events) := by
  refine runState_history (P := fun seen s =>
    Promotions ovf (.start machine voters) seen s) ?_ ?_
  · refine ⟨?_, ?_, ?_⟩
    · intro j raftId newMembers hcopied
      cases hcopied
    · intro _
      refine ⟨rfl, ?_⟩
      rintro raftId ⟨j, newMembers, hpromoted⟩
      cases hpromoted
    · intro j hsome
      cases hsome
  · intro before event later _ ih
    exact ih.step rfl (step_effect ovf _ event)

theorem copy_step {j : Nat} {c : Nat × Finset Nat} (h : (s.joins j).copy = some c)
    (event : JoinEvent) : (((s.step ovf event).1.joins j).copy) = some c := by
  have hkept : ∀ {j' : Nat} {stage : JoinStage},
      (s.step ovf event).1.joins = Function.update s.joins j' stage →
      (j = j' → stage.copy = some c) → (((s.step ovf event).1.joins j).copy) = some c := by
    intro j' stage hjoins hstage
    by_cases hj : j = j'
    · rw [hjoins, hj, Function.update_self]
      exact hstage hj
    · rw [hjoins, Function.update_of_ne hj]
      exact h
  cases step_effect ovf s event with
  | still _ hjoins _ => rw [hjoins]; exact h
  | moved j' stage hold _ _ hjoins _ =>
    refine hkept hjoins ?_
    rintro rfl
    rw [hold] at h
    cases h
  | captured j' raftId _ hold _ hjoins _ =>
    refine hkept hjoins ?_
    rintro rfl
    rw [hold] at h
    cases h
  | answered j' raftId newMembers hold _ hjoins _ | promoted j' raftId newMembers hold _ hjoins _ =>
    refine hkept hjoins ?_
    rintro rfl
    rw [hold] at h
    exact h

theorem copy_of_capture {before : List JoinEvent} {j raftId : Nat}
    (hregistered : (first.after ovf before).joins j = .registered raftId)
    (later : List JoinEvent) :
    ((first.after ovf (before ++ .capture j :: later)).joins j).copy
      = some (raftId, insert raftId (first.after ovf before).voters) := by
  unfold JoiningCluster.after
  rw [runState_append, runState_cons]
  refine runState_invariant (P := fun s : JoiningCluster => (s.joins j).copy
    = some (raftId, insert raftId (first.after ovf before).voters)) ?_
    (fun _ event h => copy_step h event) later
  have hcaptured : ((first.after ovf before).step ovf (.capture j)).1.joins j
      = .captured raftId (insert raftId (first.after ovf before).voters) := by
    rw [JoiningCluster.step, hregistered]
    exact Function.update_self ..
  exact congrArg JoinStage.copy hcaptured

end Run

/-- **CONCURRENT JOINS.**  The joins keep the voters exactly when the join that is promoted last has
copied the voters at a moment when all voters of the start, and all other nodes that join, were
voters. -/
theorem joins_keep_voters_iff (ovf : Overflow) (machine : MetadataStateMachineData)
    (voters : Finset Nat) (events : List JoinEvent) :
    KeepsVoters voters (JoiningCluster.after ovf (.start machine voters) events) ↔
      (AllPromoted (JoiningCluster.after ovf (.start machine voters) events) →
        ∀ j, (JoiningCluster.after ovf (.start machine voters) events).lastPromoted = some j →
          ∃ before later raftId, events = before ++ .capture j :: later ∧
            (JoiningCluster.after ovf (.start machine voters) before).joins j
              = .registered raftId ∧
            ∀ id, id ∈ voters ∨
              Joined (JoiningCluster.after ovf (.start machine voters) events) id →
              id = raftId ∨
                id ∈ (JoiningCluster.after ovf (.start machine voters) before).voters) := by
  have hrun := promotions_run ovf machine voters events
  constructor
  · intro hkeeps hall j hlast
    obtain ⟨hstart, hjoined⟩ := hkeeps hall
    obtain ⟨raftId, hpromoted⟩ := hrun.last j hlast
    obtain ⟨before, later, hevents, hregistered, hcopy⟩ :=
      hrun.copies j raftId _ (by rw [hpromoted]; rfl)
    refine ⟨before, later, raftId, hevents, hregistered, ?_⟩
    intro id hid
    have hvoter : id ∈ (JoiningCluster.after ovf (.start machine voters) events).voters := by
      rcases hid with hid | hid
      · exact hstart hid
      · exact hjoined id hid
    rw [hcopy] at hvoter
    exact Finset.mem_insert.mp hvoter
  · intro hcond hall
    cases hlast : (JoiningCluster.after ovf (.start machine voters) events).lastPromoted with
    | none =>
      obtain ⟨hsame, hnobody⟩ := hrun.untouched hlast
      rw [hsame]
      exact ⟨subset_rfl, fun raftId hid => absurd hid (hnobody raftId)⟩
    | some j =>
      obtain ⟨raftId, hpromoted⟩ := hrun.last j hlast
      obtain ⟨before, later, raftId', hevents, hregistered, hcovers⟩ := hcond hall j hlast
      have hcopy := copy_of_capture hregistered later
      rw [← hevents, hpromoted] at hcopy
      obtain ⟨rfl, hvoters⟩ := Prod.mk.inj (Option.some.inj hcopy)
      have hmem : ∀ id, id ∈ voters ∨
          Joined (JoiningCluster.after ovf (.start machine voters) events) id →
          id ∈ (JoiningCluster.after ovf (.start machine voters) events).voters := by
        intro id hid
        rw [hvoters]
        exact Finset.mem_insert.mpr (hcovers id hid)
      exact ⟨fun id hid => hmem id (Or.inl hid), fun id hid => hmem id (Or.inr hid)⟩

/-! ### Two nodes at once -/

def singleNode : MetadataStateMachineData :=
  (MetadataStateMachineData.new.registerNode .wrapping ⟨1#128⟩ "10.0.0.1:9800").1

/-- Nodes 2 and 3 join; both handlers read the voters before either promotion runs. -/
def twoAtOnce : List JoinEvent :=
  [.register 0 ⟨2#128⟩ "10.0.0.2:9800", .capture 0, .addLearner 0,
    .register 1 ⟨3#128⟩ "10.0.0.3:9800", .capture 1, .addLearner 1, .promote 0, .promote 1]

/-- **Node 2 is evicted**: it was promoted, and the promotion of node 3 put the voters back to what
its handler had read, and node 3. -/
theorem joined_node_evicted :
    (JoiningCluster.after .wrapping (.start singleNode {1}) twoAtOnce).joins 0
        = .promoted 2 {2, 1} ∧
      (JoiningCluster.after .wrapping (.start singleNode {1}) twoAtOnce).voters = {3, 1} ∧
      ¬ KeepsVoters {1} (JoiningCluster.after .wrapping (.start singleNode {1}) twoAtOnce) := by
  have hfirst : (JoiningCluster.after .wrapping (.start singleNode {1}) twoAtOnce).joins 0
      = .promoted 2 {2, 1} := by rfl
  have hvoters : (JoiningCluster.after .wrapping (.start singleNode {1}) twoAtOnce).voters
      = {3, 1} := by rfl
  refine ⟨hfirst, hvoters, ?_⟩
  intro hkeeps
  have hall : AllPromoted (JoiningCluster.after .wrapping (.start singleNode {1}) twoAtOnce) := by
    rintro (_ | _ | j)
    · exact Or.inr (Or.inr ⟨2, {2, 1}, rfl⟩)
    · exact Or.inr (Or.inr ⟨3, {3, 1}, rfl⟩)
    · exact Or.inl rfl
  have hmem := (hkeeps hall).2 2 ⟨0, {2, 1}, hfirst⟩
  rw [hvoters] at hmem
  exact absurd hmem (by decide)

end Blockyard.Node
