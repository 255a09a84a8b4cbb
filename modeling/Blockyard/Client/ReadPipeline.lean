/-
# The replicated read pipeline

`blockyard-client`, `pipeline.rs` and `selector.rs`: a read resolves the extent's mapping, asks
the selector for an order of the replicas and reads them one after the other until one answers
with the mapping's checksum.

Everything the loop does is decided by the first replica that answers with the right checksum: what
stands in front of it is reported and noted, once each (`readWithFallback_first`); without such a
replica every one is (`readWithFallback_none`).  When no counter of the selector overflows all notes
succeed, and a replica with another checksum is suspect from then on (`noteAll_eq_some`).
`reads_outside_the_contract` has three reads that fall outside `replicated_read`.
-/
import Blockyard.Client.EcReadPipeline

open Std

namespace Blockyard.Client

open Storage (ExtentVersion)
open Ublk

/-! ## 1. The selector -/

inductive ReplicaHealth
  | healthy
  | suspect
  | failed
  deriving DecidableEq, Repr

structure ReplicaStats where
  nodeId : NodeId
  health : ReplicaHealth
  latencyUs : Nat
  isLocal : Bool
  failureCount : Nat
  deriving DecidableEq, Repr

def failureThreshold : Nat := 3

def defaultLatencyUs : Nat := 1000

def healthPriority : ReplicaHealth → Nat
  | .healthy => 0
  | .suspect => 1
  | .failed => 2

structure LatencyAwareSelector where
  stats : HashMap NodeId ReplicaStats

/-- What `select_replicas` sorts. -/
structure Candidate where
  nodeId : NodeId
  isLocal : Bool
  health : ReplicaHealth
  latencyUs : Nat
  deriving DecidableEq, Repr

/-- The comparison of `select_replicas`: failed last, local first, then by health, then by
latency. -/
def Candidate.cmp (a b : Candidate) : Ordering :=
  (compare (a.health == .failed) (b.health == .failed)).then <|
    (compare b.isLocal a.isLocal).then <|
      (compare (healthPriority a.health) (healthPriority b.health)).then
        (compare a.latencyUs b.latencyUs)

namespace LatencyAwareSelector

def new : LatencyAwareSelector := ⟨∅⟩

def getOrDefault (s : LatencyAwareSelector) (nodeId : NodeId) : ReplicaStats :=
  s.stats[nodeId]?.getD
    { nodeId, health := .healthy, latencyUs := defaultLatencyUs, isLocal := false
      failureCount := 0 }

def candidates (s : LatencyAwareSelector) (replicas : List ReplicaLocation) : List Candidate :=
  replicas.map fun r =>
    { nodeId := r.nodeId
      isLocal := r.isLocal
      health := (s.getOrDefault r.nodeId).health
      latencyUs := (s.getOrDefault r.nodeId).latencyUs }

def selectReplicas (s : LatencyAwareSelector) (replicas : List ReplicaLocation) : List NodeId :=
  ((s.candidates replicas).mergeSort fun a b => (a.cmp b).isLE).map (·.nodeId)

/-- `record_success`; `none` is the overflow panic of the latencies' sum. -/
def recordSuccess (ovf : Overflow) (s : LatencyAwareSelector) (nodeId : NodeId) (latencyUs : Nat) :
    Option LatencyAwareSelector :=
  let entry := s.getOrDefault nodeId
  (addU64 ovf entry.latencyUs latencyUs).map fun sum =>
    let entry := { entry with latencyUs := sum / 2 }
    let entry :=
      if entry.health = .suspect then
        let entry := { entry with failureCount := entry.failureCount - 1 }
        if entry.failureCount = 0 then { entry with health := .healthy } else entry
      else entry
    ⟨s.stats.insert nodeId entry⟩

/-- One more of a `u32`. -/
def succU32 (ovf : Overflow) (n : Nat) : Option Nat :=
  if n + 1 < 2 ^ 32 then some (n + 1)
  else match ovf with
    | .wrapping => some ((n + 1) % 2 ^ 32)
    | .checked => none

/-- `record_failure`; `none` is the overflow panic of the count. -/
def recordFailure (ovf : Overflow) (s : LatencyAwareSelector) (nodeId : NodeId) :
    Option LatencyAwareSelector :=
  let entry := s.getOrDefault nodeId
  (succU32 ovf entry.failureCount).map fun failureCount =>
    let health := if failureCount ≥ failureThreshold then .failed else .suspect
    ⟨s.stats.insert nodeId { entry with failureCount, health }⟩

def markSuspect (s : LatencyAwareSelector) (nodeId : NodeId) : LatencyAwareSelector :=
  ⟨s.stats.insert nodeId { s.getOrDefault nodeId with health := .suspect }⟩

end LatencyAwareSelector

/-- All of `ReplicaSelector`, with the counters that can overflow. -/
structure SuspectingSelector (σ : Type) where
  selectReplicas : σ → List ReplicaLocation → List NodeId
  recordSuccess : σ → NodeId → (latencyUs : Nat) → Option σ
  recordFailure : σ → NodeId → Option σ
  markSuspect : σ → NodeId → σ

/-- `LatencyAwareSelector` as a `ReplicaSelector`. -/
def latencyAware (ovf : Overflow) : SuspectingSelector LatencyAwareSelector where
  selectReplicas := LatencyAwareSelector.selectReplicas
  recordSuccess := LatencyAwareSelector.recordSuccess ovf
  recordFailure := LatencyAwareSelector.recordFailure ovf
  markSuspect := LatencyAwareSelector.markSuspect

/-! ## 2. The pipeline -/

structure CorruptionReport where
  nodeId : NodeId
  extentId : ExtentId
  extentVersion : ExtentVersion
  expectedChecksum : String
  actualChecksum : String
  deriving DecidableEq, Repr

/-- What one replicated read meets: a read also asks for the mapping. -/
structure ReplicatedEnv extends ReadEnv where
  getExtentMapping : Except ReadError (Option ExtentMapping)

/-- The state a replicated read changes: the selector, and the reports to the
`HealthReporter`. -/
structure FallbackState (σ : Type) where
  selector : σ
  corruptions : List CorruptionReport
  failures : List ReadFailureReport

section Pipeline

variable {σ : Type} (selector : SuspectingSelector σ) (env : ReplicatedEnv)

def resolveMapping (request : ReadRequest) (watermark : Nat) : Except ReadError ExtentMapping := do
  let notFound := ReadError.extentNotFound request.volumeId request.extentId
  match ← env.getExtentMapping with
  | none => .error notFound
  | some mapping =>
    if mapping.extentVersion < watermark then
      match ← env.refreshExtentMapping with
      | none => .error notFound
      | some refreshed => .ok refreshed
    else .ok mapping

def verifyMappingVersion (mapping : ExtentMapping) (watermark : Nat) : Except ReadError Unit :=
  if mapping.extentVersion < watermark then
    .error (.staleMapping mapping.extentId mapping.extentVersion watermark)
  else .ok ()

/-- The loop of `read_with_fallback`, and what follows it; `none` is a panic of the selector. -/
def readWithFallback (request : ReadRequest) (mapping : ExtentMapping) (call : Nat)
    (lastError : Option ReadError) (allCorrupt : Bool) (s : FallbackState σ) :
    List NodeId → Option (Except ReadError ReadResult × FallbackState σ)
  | [] =>
    if allCorrupt then some (.error (.allReplicasCorrupt request.extentId), s)
    else some (.error (lastError.getD (.allReplicasFailed request.extentId)), s)
  | nodeId :: rest =>
    match env.readExtent call nodeId request.volumeId request.extentId mapping.extentVersion
        request.offset request.length with
    | .ok result =>
      if result.checksum ≠ mapping.checksum then
        let report : CorruptionReport :=
          { nodeId
            extentId := request.extentId
            extentVersion := mapping.extentVersion
            expectedChecksum := mapping.checksum
            actualChecksum := result.checksum }
        readWithFallback request mapping (call + 1)
          (some (.checksumMismatch nodeId request.extentId mapping.checksum result.checksum))
          allCorrupt
          { s with
            selector := selector.markSuspect s.selector nodeId
            corruptions := s.corruptions ++ [report] } rest
      else
        match selector.recordSuccess s.selector nodeId (env.latencyUs call) with
        | none => none
        | some noted => some
          (.ok
            { extentId := result.extentId
              extentVersion := result.extentVersion
              data := result.data
              sourceNode := nodeId },
            { s with selector := noted })
    | .error e =>
      let report : ReadFailureReport :=
        { nodeId, extentId := request.extentId, reason := toString e }
      match selector.recordFailure s.selector nodeId with
      | none => none
      | some noted =>
        readWithFallback request mapping (call + 1) (some e) false
          { s with selector := noted, failures := s.failures ++ [report] } rest

/-- `read`, from the mapping on. -/
def readMapping (request : ReadRequest) (mapping : ExtentMapping) (s : FallbackState σ) :
    Option (Except ReadError ReadResult × FallbackState σ) :=
  if mapping.replicas.isEmpty then some (.error (.noHealthyReplicas request.extentId), s)
  else
    let orderedNodes := selector.selectReplicas s.selector mapping.replicas
    if orderedNodes.isEmpty then some (.error (.noHealthyReplicas request.extentId), s)
    else readWithFallback selector env request mapping 0 none true s orderedNodes

def read (request : ReadRequest) (s : FallbackState σ) :
    Option (Except ReadError ReadResult × FallbackState σ) :=
  if request.length = 0 then some (.error (.invalidRequest "read length must be non-zero"), s)
  else
    match env.getWriteWatermark with
    | .error e => some (.error e, s)
    | .ok watermark =>
      match resolveMapping env request watermark with
      | .error e => some (.error e, s)
      | .ok mapping =>
        match verifyMappingVersion mapping watermark with
        | .error e => some (.error e, s)
        | .ok () => readMapping selector env request mapping s

end Pipeline

/-! ## 3. The order of the replicas -/

instance : TransCmp Candidate.cmp :=
  inferInstanceAs (TransCmp (compareLex (compareOn fun c : Candidate => c.health == .failed)
    (compareLex (fun a b => compareOn Candidate.isLocal b a)
      (compareLex (compareOn fun c => healthPriority c.health)
        (compareOn Candidate.latencyUs)))))

/-- **Every replica is read at most once**: the order is a permutation of the replicas. -/
theorem perm_selectReplicas (s : LatencyAwareSelector) (replicas : List ReplicaLocation) :
    (s.selectReplicas replicas).Perm (replicas.map (·.nodeId)) := by
  have hsorted := List.mergeSort_perm (s.candidates replicas) fun a b => (a.cmp b).isLE
  have hids : (s.candidates replicas).map (·.nodeId) = replicas.map (·.nodeId) := by
    simp [LatencyAwareSelector.candidates]
  rw [← hids]
  exact hsorted.map _

/-- A candidate that comes no later than one that has not failed has not failed. -/
theorem failed_of_cmp_isLE {a b : Candidate} (h : (a.cmp b).isLE = true)
    (ha : a.health = .failed) : b.health = .failed := by
  by_contra hb
  have hbf : (b.health == .failed) = false := by simpa using hb
  have hgt : a.cmp b = .gt := by
    simp only [Candidate.cmp, ha, hbf]
    rfl
  rw [hgt] at h
  cases h

/-- **No failed replica comes before one that has not failed.** -/
theorem selectReplicas_failed_last (s : LatencyAwareSelector) (replicas : List ReplicaLocation) :
    (s.selectReplicas replicas).Pairwise fun a b =>
      (s.getOrDefault a).health = .failed → (s.getOrDefault b).health = .failed := by
  have hsorted : ((s.candidates replicas).mergeSort fun a b => (a.cmp b).isLE).Pairwise
      fun a b => (a.cmp b).isLE = true := by
    refine List.pairwise_mergeSort ?_ ?_ _
    · intro a b c hab hbc
      exact TransCmp.isLE_trans hab hbc
    · intro a b
      have hswap : b.cmp a = (a.cmp b).swap := OrientedCmp.eq_swap
      rw [hswap]
      cases a.cmp b <;> simp
  -- a candidate carries the health of its node
  have hhealth : ∀ c ∈ (s.candidates replicas).mergeSort fun a b => (a.cmp b).isLE,
      c.health = (s.getOrDefault c.nodeId).health := by
    intro c hc
    rw [List.mem_mergeSort] at hc
    obtain ⟨r, -, rfl⟩ := List.mem_map.mp hc
    rfl
  rw [LatencyAwareSelector.selectReplicas, List.pairwise_map]
  refine hsorted.imp_of_mem ?_
  intro a b ha hb hle hfailed
  rw [← hhealth b hb]
  rw [← hhealth a ha] at hfailed
  exact failed_of_cmp_isLE hle hfailed

/-! ## 4. The loop -/

/-- How a node behaves: it answers, with whatever it has, or it fails. -/
inductive NodeBehavior
  | success (result : DataNodeReadResult)
  | fail (error : ReadError)

def NodeBehavior.answer : NodeBehavior → Except ReadError DataNodeReadResult
  | .success result => .ok result
  | .fail error => .error error

def ReplicatedEnv.withNodes (env : ReplicatedEnv) (behaviour : NodeId → NodeBehavior) :
    ReplicatedEnv :=
  { env with readExtent := fun _ nodeId _ _ _ _ _ => (behaviour nodeId).answer }

theorem ReplicatedEnv.readExtent_withNodes (env : ReplicatedEnv)
    (behaviour : NodeId → NodeBehavior) (call : Nat) (nodeId : NodeId) (volumeId : VolumeId)
    (extentId : ExtentId) (extentVersion : ExtentVersion) (offset length : Nat) :
    (env.withNodes behaviour).readExtent call nodeId volumeId extentId extentVersion offset length
      = (behaviour nodeId).answer :=
  rfl

/-- The node answers with the mapping's checksum. -/
def NodeBehavior.Intact (mapping : ExtentMapping) : NodeBehavior → Prop
  | .success result => result.checksum = mapping.checksum
  | .fail _ => False

def NodeBehavior.Corrupt (mapping : ExtentMapping) : NodeBehavior → Prop
  | .success result => result.checksum ≠ mapping.checksum
  | .fail _ => False

theorem NodeBehavior.intact_iff {mapping : ExtentMapping} {b : NodeBehavior} :
    b.Intact mapping ↔ ∃ result, b = .success result ∧ result.checksum = mapping.checksum := by
  cases b <;> simp [NodeBehavior.Intact]

instance (mapping : ExtentMapping) : (b : NodeBehavior) → Decidable (b.Intact mapping)
  | .success result => inferInstanceAs (Decidable (result.checksum = mapping.checksum))
  | .fail _ => inferInstanceAs (Decidable False)

instance (mapping : ExtentMapping) : (b : NodeBehavior) → Decidable (b.Corrupt mapping)
  | .success result => inferInstanceAs (Decidable (result.checksum ≠ mapping.checksum))
  | .fail _ => inferInstanceAs (Decidable False)

section Loop

variable {σ : Type} (selector : SuspectingSelector σ) (behaviour : NodeId → NodeBehavior)
  (request : ReadRequest) (mapping : ExtentMapping)

def corruptionReport (nodeId : NodeId) : Option CorruptionReport :=
  match behaviour nodeId with
  | .success result =>
    if result.checksum = mapping.checksum then none
    else some ⟨nodeId, request.extentId, mapping.extentVersion, mapping.checksum, result.checksum⟩
  | .fail _ => none

def failureReport (nodeId : NodeId) : Option ReadFailureReport :=
  match behaviour nodeId with
  | .success _ => none
  | .fail error => some ⟨nodeId, request.extentId, toString error⟩

/-- What the selector notes about a node that is passed over. -/
def noteNode (s : σ) (nodeId : NodeId) : Option σ :=
  match behaviour nodeId with
  | .success _ => some (selector.markSuspect s nodeId)
  | .fail _ => selector.recordFailure s nodeId

def noteAll (s : σ) : List NodeId → Option σ
  | [] => some s
  | nodeId :: rest => (noteNode selector behaviour s nodeId).bind fun s => noteAll s rest

/-- The error a node that is passed over leaves behind. -/
def errorOf (nodeId : NodeId) : ReadError :=
  match behaviour nodeId with
  | .success result => .checksumMismatch nodeId request.extentId mapping.checksum result.checksum
  | .fail error => error

/-- The state behind nodes that were passed over: one report for each, and the notes. -/
def passedOver (s : FallbackState σ) (nodes : List NodeId) (noted : σ) : FallbackState σ where
  selector := noted
  corruptions := s.corruptions ++ nodes.filterMap (corruptionReport behaviour request mapping)
  failures := s.failures ++ nodes.filterMap (failureReport behaviour request)

variable {selector behaviour request mapping} {env : ReplicatedEnv}

/-- **One turn of the loop that passes a node over.** -/
theorem readWithFallback_cons {nodeId : NodeId} (h : ¬ (behaviour nodeId).Intact mapping)
    (call : Nat) (lastError : Option ReadError) (allCorrupt : Bool) (s : FallbackState σ)
    (rest : List NodeId) :
    readWithFallback selector (env.withNodes behaviour) request mapping call lastError allCorrupt s
        (nodeId :: rest)
      = (noteNode selector behaviour s.selector nodeId).bind fun noted =>
          readWithFallback selector (env.withNodes behaviour) request mapping (call + 1)
            (some (errorOf behaviour request mapping nodeId))
            (allCorrupt && decide ((behaviour nodeId).Corrupt mapping))
            (passedOver behaviour request mapping s [nodeId] noted) rest := by
  rw [readWithFallback, ReplicatedEnv.readExtent_withNodes]
  cases hb : behaviour nodeId with
  | success result =>
    have hne : result.checksum ≠ mapping.checksum := by
      rw [hb] at h
      exact h
    have hcorrupt : (NodeBehavior.success result).Corrupt mapping := hne
    simp [NodeBehavior.answer, hne, hcorrupt, passedOver, noteNode, corruptionReport,
      failureReport, errorOf, hb]
  | fail error =>
    have hcorrupt : ¬ (NodeBehavior.fail error).Corrupt mapping := id
    cases hnoted : selector.recordFailure s.selector nodeId with
    | none => simp [NodeBehavior.answer, noteNode, hb, hnoted]
    | some noted =>
      simp [NodeBehavior.answer, hcorrupt, passedOver, noteNode, corruptionReport, failureReport,
        errorOf, hb, hnoted]

/-- **Nodes in front are passed over**, whatever comes behind them. -/
theorem readWithFallback_append {before : List NodeId}
    (h : ∀ n ∈ before, ¬ (behaviour n).Intact mapping) (rest : List NodeId) (call : Nat)
    (lastError : Option ReadError) (allCorrupt : Bool) (s : FallbackState σ) :
    readWithFallback selector (env.withNodes behaviour) request mapping call lastError allCorrupt s
        (before ++ rest)
      = (noteAll selector behaviour s.selector before).bind fun noted =>
          readWithFallback selector (env.withNodes behaviour) request mapping
            (call + before.length)
            ((before.getLast?.map (errorOf behaviour request mapping)).or lastError)
            (allCorrupt && decide (∀ n ∈ before, (behaviour n).Corrupt mapping))
            (passedOver behaviour request mapping s before noted) rest := by
  induction before generalizing call lastError allCorrupt s with
  | nil => simp [passedOver, noteAll]
  | cons n before ih =>
    have hn : ¬ (behaviour n).Intact mapping := h n List.mem_cons_self
    rw [List.cons_append, readWithFallback_cons hn, noteAll, Option.bind_assoc]
    congr 1
    funext noted
    rw [ih fun n' hn' => h n' (List.mem_cons_of_mem _ hn')]
    congr 1
    funext noted'
    congr 1
    · simp only [List.length_cons]
      omega
    · rw [List.getLast?_cons]
      cases before.getLast? <;> simp
    · by_cases hc : (behaviour n).Corrupt mapping <;> simp [hc]
    · simp [passedOver, List.filterMap_cons]
      grind

/-- What a read returns of a node's answer. -/
def readResult (nodeId : NodeId) (result : DataNodeReadResult) : ReadResult where
  extentId := result.extentId
  extentVersion := result.extentVersion
  data := result.data
  sourceNode := nodeId

variable (selector behaviour env) in
/-- The notes of a read that a node serves, with `before` passed over. -/
def notesOf (s : σ) (before : List NodeId) (nodeId : NodeId) : Option σ :=
  (noteAll selector behaviour s before).bind fun noted =>
    selector.recordSuccess noted nodeId (env.latencyUs before.length)

variable (behaviour mapping) in
/-- The first node of an order that answers with the mapping's checksum, and those before it. -/
structure FirstIntact (order before : List NodeId) (nodeId : NodeId) (answer : DataNodeReadResult) :
    Prop where
  order : ∃ after, order = before ++ nodeId :: after
  passed : ∀ n ∈ before, ¬ (behaviour n).Intact mapping
  answers : behaviour nodeId = .success answer
  checksum : answer.checksum = mapping.checksum

/-- **The loop ends at the first node that answers with the mapping's checksum.** -/
theorem readWithFallback_first {order before : List NodeId} {nodeId : NodeId}
    {result : DataNodeReadResult} (h : FirstIntact behaviour mapping order before nodeId result)
    (s : FallbackState σ) :
    readWithFallback selector (env.withNodes behaviour) request mapping 0 none true s order
      = (notesOf selector behaviour env s.selector before nodeId).map fun noted =>
        (.ok (readResult nodeId result), passedOver behaviour request mapping s before noted) := by
  obtain ⟨after, rfl⟩ := h.order
  rw [readWithFallback_append h.passed, notesOf, Option.map_bind]
  congr 1
  funext noted
  rw [readWithFallback, ReplicatedEnv.readExtent_withNodes, h.answers]
  simp only [NodeBehavior.answer, h.checksum, ne_eq, not_true_eq_false, if_false, Nat.zero_add]
  simp only [Function.comp_apply, ReplicatedEnv.withNodes, passedOver]
  cases selector.recordSuccess noted nodeId (env.latencyUs before.length) <;> rfl

/-- **The loop without such a node**: every node is passed over. -/
theorem readWithFallback_none {order : List NodeId} (hne : order ≠ [])
    (hnone : ∀ n ∈ order, ¬ (behaviour n).Intact mapping) (s : FallbackState σ) :
    readWithFallback selector (env.withNodes behaviour) request mapping 0 none true s order
      = (noteAll selector behaviour s.selector order).map fun noted =>
          (.error (if ∀ n ∈ order, (behaviour n).Corrupt mapping then
              .allReplicasCorrupt request.extentId
            else errorOf behaviour request mapping (order.getLast hne)),
          passedOver behaviour request mapping s order noted) := by
  conv_lhs => rw [← List.append_nil order, readWithFallback_append hnone]
  cases noteAll selector behaviour s.selector order with
  | none => rfl
  | some noted =>
    rw [Option.bind_some, readWithFallback, List.getLast?_eq_some_getLast hne]
    by_cases hcorrupt : ∀ n ∈ order, (behaviour n).Corrupt mapping
    · rw [if_pos (by simpa using hcorrupt), Option.map_some, if_pos hcorrupt]
    · rw [if_neg (by simpa using hcorrupt), Option.map_some, if_neg hcorrupt]
      rfl

theorem errorOf_ne_allReplicasCorrupt {nodeId : NodeId} {extentId : ExtentId}
    (h : behaviour nodeId ≠ .fail (.allReplicasCorrupt extentId)) :
    errorOf behaviour request mapping nodeId ≠ .allReplicasCorrupt extentId := by
  unfold errorOf
  cases hb : behaviour nodeId with
  | success result => simp
  | fail error =>
    rintro rfl
    exact h hb

end Loop

/-! ## 5. The notes of the selector -/

namespace LatencyAwareSelector

theorem getOrDefault_insert (s : LatencyAwareSelector) (n m : NodeId) (stats : ReplicaStats) :
    (⟨s.stats.insert n stats⟩ : LatencyAwareSelector).getOrDefault m
      = if n = m then stats else s.getOrDefault m := by
  by_cases h : n = m
  · subst h
    simp [getOrDefault]
  · rw [if_neg h, getOrDefault, getOrDefault, getElem?_insert_of_ne _ h]

/-- The counters have room for a read of the mapping, or they wrap. -/
def HasRoom (ovf : Overflow) (s : LatencyAwareSelector) (mapping : ExtentMapping)
    (latencyUs : Nat → Nat) : Prop :=
  ovf = .wrapping ∨ ∀ replica ∈ mapping.replicas,
    (s.getOrDefault replica.nodeId).failureCount + mapping.replicas.length < 2 ^ 32 ∧
      ∀ call < mapping.replicas.length,
        (s.getOrDefault replica.nodeId).latencyUs + latencyUs call < 2 ^ 64

end LatencyAwareSelector

section Notes

variable {ovf : Overflow} {behaviour : NodeId → NodeBehavior} {mapping : ExtentMapping}
  {s noted : LatencyAwareSelector} {n m : NodeId}

/-- **A note** counts one failure at most and leaves the latencies alone; a replica with another
checksum is suspect if it was, or if the note is about it. -/
theorem noteNode_spec (mapping : ExtentMapping)
    (hnote : noteNode (latencyAware ovf) behaviour s n = some noted) (m : NodeId) :
    (noted.getOrDefault m).failureCount ≤ (s.getOrDefault m).failureCount + 1 ∧
      (noted.getOrDefault m).latencyUs = (s.getOrDefault m).latencyUs ∧
      ((behaviour m).Corrupt mapping → n = m ∨ (s.getOrDefault m).health = .suspect →
        (noted.getOrDefault m).health = .suspect) := by
  cases hb : behaviour n with
  | success result =>
    simp only [noteNode, hb, latencyAware, LatencyAwareSelector.markSuspect,
      Option.some.injEq] at hnote
    rw [← hnote, LatencyAwareSelector.getOrDefault_insert]
    split <;> simp_all
  | fail error =>
    simp only [noteNode, hb, latencyAware, LatencyAwareSelector.recordFailure,
      Option.map_eq_some_iff] at hnote
    obtain ⟨count, hcount, rfl⟩ := hnote
    have hle : count ≤ (s.getOrDefault n).failureCount + 1 := by
      unfold LatencyAwareSelector.succU32 at hcount
      grind
    rw [LatencyAwareSelector.getOrDefault_insert]
    by_cases hnm : n = m
    · subst hnm
      simp [hle, hb, NodeBehavior.Corrupt]
    · simp [hnm]

/-- **Some notes**: the replicas with another checksum among them are suspect. -/
theorem noteAll_spec (mapping : ExtentMapping) {nodes : List NodeId}
    (hnotes : noteAll (latencyAware ovf) behaviour s nodes = some noted) (m : NodeId) :
    (noted.getOrDefault m).latencyUs = (s.getOrDefault m).latencyUs ∧
      ((behaviour m).Corrupt mapping → m ∈ nodes ∨ (s.getOrDefault m).health = .suspect →
        (noted.getOrDefault m).health = .suspect) := by
  induction nodes generalizing s with
  | nil =>
    cases hnotes
    simp
  | cons n nodes ih =>
    obtain ⟨next, hnext, hrest⟩ := Option.bind_eq_some_iff.mp hnotes
    obtain ⟨-, hlatency, hsuspect⟩ := noteNode_spec mapping hnext m
    obtain ⟨hlatency', hsuspect'⟩ := ih hrest
    refine ⟨hlatency'.trans hlatency, fun hcorrupt hm => hsuspect' hcorrupt ?_⟩
    rw [List.mem_cons] at hm
    rcases hm with (rfl | hm) | hm
    · exact .inr (hsuspect hcorrupt (.inl rfl))
    · exact .inl hm
    · exact .inr (hsuspect hcorrupt (.inr hm))

/-- **Notes with room are all made.** -/
theorem noteAll_eq_some (mapping : ExtentMapping) {nodes : List NodeId}
    (hroom : ∀ n ∈ nodes, (behaviour n).Corrupt mapping ∨
      ovf = .wrapping ∨ (s.getOrDefault n).failureCount + nodes.length < 2 ^ 32) :
    ∃ noted, noteAll (latencyAware ovf) behaviour s nodes = some noted := by
  induction nodes generalizing s with
  | nil => exact ⟨s, rfl⟩
  | cons n nodes ih =>
    obtain ⟨noted, hnoted⟩ : ∃ noted, noteNode (latencyAware ovf) behaviour s n = some noted := by
      unfold noteNode
      cases hb : behaviour n with
      | success result => exact ⟨_, rfl⟩
      | fail error =>
        have hn := hroom n List.mem_cons_self
        rw [hb] at hn
        obtain ⟨count, hcount⟩ : ∃ count,
            LatencyAwareSelector.succU32 ovf (s.getOrDefault n).failureCount = some count := by
          unfold LatencyAwareSelector.succU32
          rcases hn with hcorrupt | rfl | hlt
          · cases hcorrupt
          · split <;> exact ⟨_, rfl⟩
          · rw [if_pos (by rw [List.length_cons] at hlt; omega)]
            exact ⟨_, rfl⟩
        simp [latencyAware, LatencyAwareSelector.recordFailure, hcount]
    simp only [noteAll, hnoted, Option.bind_some]
    refine ih fun m hm => ?_
    refine (hroom m (List.mem_cons_of_mem _ hm)).imp_right (Or.imp_right fun hlt => ?_)
    have hcount := (noteNode_spec mapping hnoted m).1
    rw [List.length_cons] at hlt
    omega

/-- A success leaves the health of the other nodes alone. -/
theorem health_recordSuccess {latencyUs : Nat} (hnm : n ≠ m)
    (h : s.recordSuccess ovf n latencyUs = some noted) :
    (noted.getOrDefault m).health = (s.getOrDefault m).health := by
  obtain ⟨sum, -, rfl⟩ := Option.map_eq_some_iff.mp h
  rw [LatencyAwareSelector.getOrDefault_insert, if_neg hnm]

/-- **The notes of a read with room** are all made. -/
theorem notesOf_eq_some {env : ReplicatedEnv} {before : List NodeId}
    (hroom : s.HasRoom ovf mapping env.latencyUs)
    (hbefore : ∀ n ∈ before, ∃ replica ∈ mapping.replicas, replica.nodeId = n)
    (hnode : ∃ replica ∈ mapping.replicas, replica.nodeId = n)
    (hlength : before.length < mapping.replicas.length) :
    ∃ noted, notesOf (latencyAware ovf) behaviour env s before n = some noted := by
  obtain ⟨noted, hnoted⟩ : ∃ noted, noteAll (latencyAware ovf) behaviour s before = some noted := by
    refine noteAll_eq_some mapping fun m hm => .inr (hroom.imp_right fun hlt => ?_)
    obtain ⟨replica, hreplica, rfl⟩ := hbefore m hm
    have := (hlt replica hreplica).1
    omega
  obtain ⟨replica, hreplica, rfl⟩ := hnode
  have hlatency := (noteAll_spec mapping hnoted replica.nodeId).1
  obtain ⟨sum, hsum⟩ : ∃ sum, addU64 ovf (noted.getOrDefault replica.nodeId).latencyUs
      (env.latencyUs before.length) = some sum := by
    refine Option.ne_none_iff_exists'.mp ((addU64_ne_none_iff _ _ _).mpr ?_)
    rw [hlatency]
    exact hroom.imp_right fun hlt => (hlt replica hreplica).2 _ hlength
  simp only [notesOf, hnoted, Option.bind_some]
  simp [latencyAware, LatencyAwareSelector.recordSuccess, hsum]

end Notes

/-! ## 6. The whole read

Which mapping a read uses is decided before any replica is asked; the replicas then decide the
rest.  `ReadContract` is what a caller of `read` may rely on. -/

/-- The mapping a read may use: the one the metadata source has, or else the one it has after one
refresh, and never one below the watermark. -/
def Serves (env : ReplicatedEnv) (mapping : ExtentMapping) : Prop :=
  ∃ watermark, env.getWriteWatermark = .ok watermark ∧
    watermark ≤ mapping.extentVersion ∧
    (env.getExtentMapping = .ok (some mapping) ∨
      ∃ cached, env.getExtentMapping = .ok (some cached) ∧ cached.extentVersion < watermark ∧
        env.refreshExtentMapping = .ok (some mapping))

/-- **`resolve_mapping` refreshes once**, and only a mapping below the watermark. -/
theorem resolveMapping_eq_ok_iff {env : ReplicatedEnv} {request : ReadRequest} {watermark : Nat}
    {mapping : ExtentMapping} :
    resolveMapping env request watermark = .ok mapping ↔
      (env.getExtentMapping = .ok (some mapping) ∧ ¬ mapping.extentVersion < watermark) ∨
        ∃ cached, env.getExtentMapping = .ok (some cached) ∧ cached.extentVersion < watermark ∧
          env.refreshExtentMapping = .ok (some mapping) := by
  unfold resolveMapping
  rcases env.getExtentMapping with e | _ | cached
  · simp [bind, Except.bind]
  · simp [bind, Except.bind]
  · by_cases hstale : cached.extentVersion < watermark
    · rcases env.refreshExtentMapping with e | _ | refreshed
      · simp [bind, Except.bind, hstale]
        grind
      · simp [bind, Except.bind, hstale]
        grind
      · simp [bind, Except.bind, hstale]
        grind
    · simp [bind, Except.bind, hstale]
      grind

section Read

variable {σ : Type} {selector : SuspectingSelector σ} {env : ReplicatedEnv}
  {request : ReadRequest} {mapping : ExtentMapping}

/-- **A read that may use a mapping uses it.** -/
theorem read_of_serves (hlength : request.length ≠ 0) (h : Serves env mapping)
    (s : FallbackState σ) :
    read selector env request s = readMapping selector env request mapping s := by
  obtain ⟨watermark, hwatermark, hversion, hmapping⟩ := h
  have hfresh : ¬ mapping.extentVersion < watermark := Nat.not_lt.mpr hversion
  have hresolve : resolveMapping env request watermark = .ok mapping := by
    rw [resolveMapping_eq_ok_iff]
    exact hmapping.imp_left fun hm => ⟨hm, hfresh⟩
  simp [read, hlength, hwatermark, hresolve, verifyMappingVersion, hfresh]

/-- **A read that may use no mapping reads no replica.** -/
theorem read_dichotomy (s : FallbackState σ) :
    (request.length ≠ 0 ∧ ∃ mapping, Serves env mapping) ∨
      ∃ e, read selector env request s = some (.error e, s) := by
  by_cases hlength : request.length = 0
  · exact .inr ⟨_, by rw [read, if_pos hlength]⟩
  rw [read, if_neg hlength]
  cases hwatermark : env.getWriteWatermark with
  | error e => exact .inr ⟨e, rfl⟩
  | ok watermark =>
    cases hresolve : resolveMapping env request watermark with
    | error e => exact .inr ⟨e, by simp only [hresolve]⟩
    | ok mapping =>
      simp only [hresolve, verifyMappingVersion]
      by_cases hstale : mapping.extentVersion < watermark
      · exact .inr ⟨_, by rw [if_pos hstale]⟩
      · refine .inl ⟨hlength, mapping, watermark, hwatermark, Nat.not_lt.mp hstale, ?_⟩
        exact (resolveMapping_eq_ok_iff.mp hresolve).imp_left And.left

/-- **A mapping that is still below the watermark after the refresh is turned down.** -/
theorem read_stale {watermark : Nat} {cached refreshed : ExtentMapping}
    (hlength : request.length ≠ 0) (hwatermark : env.getWriteWatermark = .ok watermark)
    (hcached : env.getExtentMapping = .ok (some cached)) (hold : cached.extentVersion < watermark)
    (hrefreshed : env.refreshExtentMapping = .ok (some refreshed))
    (hstale : refreshed.extentVersion < watermark) (s : FallbackState σ) :
    read selector env request s
      = some (.error (.staleMapping refreshed.extentId refreshed.extentVersion watermark), s) := by
  have hresolve : resolveMapping env request watermark = .ok refreshed := by
    rw [resolveMapping_eq_ok_iff]
    exact .inr ⟨cached, hcached, hold, hrefreshed⟩
  simp [read, hlength, hwatermark, hresolve, verifyMappingVersion, hstale]

end Read

section Contract

variable (ovf : Overflow) (env : ReplicatedEnv) (behaviour : NodeId → NodeBehavior)
  (request : ReadRequest) (s : FallbackState LatencyAwareSelector)

/-- `read` with the nodes' behaviours. -/
def readFrom : Option (Except ReadError ReadResult × FallbackState LatencyAwareSelector) :=
  read (latencyAware ovf) (env.withNodes behaviour) request s

def orderOf (mapping : ExtentMapping) : List NodeId :=
  s.selector.selectReplicas mapping.replicas

/-- What a replicated read promises, whatever the nodes do. -/
structure ReadContract : Prop where
  /-- Only a mapping at or above the watermark is used: without one nothing is read, noted or
  reported. -/
  mapping_used : (∃ mapping, Serves env mapping ∧ readFrom ovf env behaviour request s
      = readMapping (latencyAware ovf) (env.withNodes behaviour) request mapping s) ∨
    ∃ e, readFrom ovf env behaviour request s = some (.error e, s)
  /-- A mapping that the refresh leaves below the watermark is `StaleMapping`. -/
  stale : ∀ watermark cached refreshed, request.length ≠ 0 →
    env.getWriteWatermark = .ok watermark →
    env.getExtentMapping = .ok (some cached) → cached.extentVersion < watermark →
    env.refreshExtentMapping = .ok (some refreshed) → refreshed.extentVersion < watermark →
    readFrom ovf env behaviour request s
      = some (.error (.staleMapping refreshed.extentId refreshed.extentVersion watermark), s)
  /-- The read succeeds exactly when some replica answers with the mapping's checksum, if no counter
  of the selector overflows. -/
  ok_iff : request.length ≠ 0 → ∀ mapping, Serves env mapping → mapping.replicas ≠ [] →
    s.selector.HasRoom ovf mapping env.latencyUs →
    ((∃ result s', readFrom ovf env behaviour request s = some (.ok result, s')) ↔
      ∃ replica ∈ mapping.replicas, (behaviour replica.nodeId).Intact mapping)
  /-- It then returns the answer of the first such replica.  Each replica before it has been
  reported and noted once, and is suspect if its checksum was another one. -/
  ok_first : ∀ mapping, Serves env mapping → ∀ result s',
    readFrom ovf env behaviour request s = some (.ok result, s') →
    ∃ before nodeId answer,
      FirstIntact behaviour mapping (orderOf s mapping) before nodeId answer ∧
      result = readResult nodeId answer ∧
      s'.corruptions
        = s.corruptions ++ before.filterMap (corruptionReport behaviour request mapping) ∧
      s'.failures = s.failures ++ before.filterMap (failureReport behaviour request) ∧
      notesOf (latencyAware ovf) behaviour env s.selector before nodeId = some s'.selector ∧
      ∀ n ∈ before, (behaviour n).Corrupt mapping →
        (s'.selector.getOrDefault n).health = .suspect
  /-- It returns `AllReplicasCorrupt` exactly when every replica answers with another checksum, if
  this is not itself the error of a replica that fails. -/
  corrupt_iff : request.length ≠ 0 → ∀ mapping, Serves env mapping → mapping.replicas ≠ [] →
    (∀ replica ∈ mapping.replicas,
      behaviour replica.nodeId ≠ .fail (.allReplicasCorrupt request.extentId)) →
    ((∃ s', readFrom ovf env behaviour request s
        = some (.error (.allReplicasCorrupt request.extentId), s')) ↔
      ∀ replica ∈ mapping.replicas, (behaviour replica.nodeId).Corrupt mapping)
  /-- The order is one of the replicas, each of them once. -/
  order_perm : ∀ mapping : ExtentMapping,
    (orderOf s mapping).Perm (mapping.replicas.map (·.nodeId))
  /-- A failed replica is behind every one that has not failed. -/
  order_failed_last : ∀ mapping : ExtentMapping, (orderOf s mapping).Pairwise fun a b =>
    (s.selector.getOrDefault a).health = .failed → (s.selector.getOrDefault b).health = .failed

variable {ovf env behaviour request s} {mapping : ExtentMapping}

theorem forall_mem_orderOf_iff {P : NodeId → Prop} :
    (∀ n ∈ orderOf s mapping, P n) ↔ ∀ replica ∈ mapping.replicas, P replica.nodeId := by
  have hperm := perm_selectReplicas s.selector mapping.replicas
  simp [orderOf, hperm.mem_iff]

theorem orderOf_ne_nil (hreplicas : mapping.replicas ≠ []) : orderOf s mapping ≠ [] := by
  intro hnil
  have hperm := perm_selectReplicas s.selector mapping.replicas
  rw [← orderOf, hnil, List.nil_perm, List.map_eq_nil_iff] at hperm
  exact hreplicas hperm

theorem readFrom_of_serves (hlength : request.length ≠ 0) (h : Serves env mapping)
    (hreplicas : mapping.replicas ≠ []) :
    readFrom ovf env behaviour request s
      = readWithFallback (latencyAware ovf) (env.withNodes behaviour) request mapping 0 none true s
          (orderOf s mapping) := by
  have hserves : Serves (env.withNodes behaviour) mapping := h
  have horder : ((latencyAware ovf).selectReplicas s.selector mapping.replicas).isEmpty = false :=
    List.isEmpty_eq_false_iff.mpr (orderOf_ne_nil hreplicas)
  rw [readFrom, read_of_serves hlength hserves, readMapping,
    if_neg (by simpa using hreplicas)]
  simp only [horder]
  rfl

theorem readFrom_of_no_replicas (hlength : request.length ≠ 0) (h : Serves env mapping)
    (hreplicas : mapping.replicas = []) :
    readFrom ovf env behaviour request s
      = some (.error (.noHealthyReplicas request.extentId), s) := by
  have hserves : Serves (env.withNodes behaviour) mapping := h
  rw [readFrom, read_of_serves hlength hserves, readMapping, if_pos (by simp [hreplicas])]

variable (ovf behaviour s) in
/-- **The two ways the loop can end**, for the whole read: at the first intact replica, or behind
the last one. -/
theorem readFrom_cases (hlength : request.length ≠ 0) (h : Serves env mapping)
    (hreplicas : mapping.replicas ≠ []) :
    (∃ before nodeId answer,
      FirstIntact behaviour mapping (orderOf s mapping) before nodeId answer ∧
      readFrom ovf env behaviour request s
        = (notesOf (latencyAware ovf) behaviour env s.selector before nodeId).map fun noted =>
          (.ok (readResult nodeId answer), passedOver behaviour request mapping s before noted)) ∨
    (∀ n ∈ orderOf s mapping, ¬ (behaviour n).Intact mapping) ∧
      readFrom ovf env behaviour request s
        = (noteAll (latencyAware ovf) behaviour s.selector (orderOf s mapping)).map fun noted =>
          (.error (if ∀ n ∈ orderOf s mapping, (behaviour n).Corrupt mapping then
              .allReplicasCorrupt request.extentId
            else errorOf behaviour request mapping
              ((orderOf s mapping).getLast (orderOf_ne_nil hreplicas))),
            passedOver behaviour request mapping s (orderOf s mapping) noted) := by
  rw [readFrom_of_serves hlength h hreplicas]
  cases hfind : (orderOf s mapping).find? fun n => decide ((behaviour n).Intact mapping) with
  | none =>
    right
    have hnone : ∀ n ∈ orderOf s mapping, ¬ (behaviour n).Intact mapping := by
      simpa using hfind
    exact ⟨hnone, readWithFallback_none _ hnone s⟩
  | some nodeId =>
    left
    obtain ⟨hnode, before, after, horder, hbefore⟩ := List.find?_eq_some_iff_append.mp hfind
    have hbefore' : ∀ n ∈ before, ¬ (behaviour n).Intact mapping := by
      simpa using hbefore
    obtain ⟨answer, hanswer, hchecksum⟩ := (NodeBehavior.intact_iff.mp (by simpa using hnode))
    have hfirst : FirstIntact behaviour mapping (orderOf s mapping) before nodeId answer :=
      ⟨⟨after, horder⟩, hbefore', hanswer, hchecksum⟩
    exact ⟨before, nodeId, answer, hfirst, readWithFallback_first hfirst s⟩

/-- **Success needs an intact replica**, and one is enough. -/
theorem readFrom_ok_iff (hlength : request.length ≠ 0) (hserves : Serves env mapping)
    (hreplicas : mapping.replicas ≠ []) (hroom : s.selector.HasRoom ovf mapping env.latencyUs) :
    (∃ result s', readFrom ovf env behaviour request s = some (.ok result, s')) ↔
      ∃ replica ∈ mapping.replicas, (behaviour replica.nodeId).Intact mapping := by
  rcases readFrom_cases ovf behaviour s hlength hserves hreplicas with
    ⟨before, nodeId, answer, hfirst, hread⟩ | ⟨hnone, hread⟩
  · obtain ⟨after, horder⟩ := hfirst.order
    have hperm := perm_selectReplicas s.selector mapping.replicas
    rw [← orderOf, horder] at hperm
    have hlisted : ∀ n ∈ before ++ nodeId :: after,
        ∃ replica ∈ mapping.replicas, replica.nodeId = n :=
      fun n hn => List.mem_map.mp (hperm.mem_iff.mp hn)
    have hcount := hperm.length_eq
    rw [List.length_append, List.length_cons, List.length_map] at hcount
    obtain ⟨noted, hnoted⟩ : ∃ noted, notesOf (latencyAware ovf) behaviour env s.selector before
        nodeId = some noted :=
      notesOf_eq_some hroom (fun n hn => hlisted n (List.mem_append_left _ hn))
        (hlisted nodeId (by simp)) (by omega)
    obtain ⟨replica, hreplica, rfl⟩ := hlisted nodeId (by simp)
    refine iff_of_true ⟨_, _, by rw [hread, hnoted]; rfl⟩ ⟨replica, hreplica, ?_⟩
    exact NodeBehavior.intact_iff.mpr ⟨answer, hfirst.answers, hfirst.checksum⟩
  · rw [forall_mem_orderOf_iff] at hnone
    refine iff_of_false ?_ (by simpa using hnone)
    rintro ⟨result, s', hok⟩
    rw [hread, Option.map_eq_some_iff] at hok
    obtain ⟨noted, -, heq⟩ := hok
    cases heq

/-- **`AllReplicasCorrupt` needs every replica corrupt**, and that is enough. -/
theorem readFrom_allReplicasCorrupt_iff (hlength : request.length ≠ 0)
    (hserves : Serves env mapping) (hreplicas : mapping.replicas ≠ [])
    (herrors : ∀ replica ∈ mapping.replicas,
      behaviour replica.nodeId ≠ .fail (.allReplicasCorrupt request.extentId)) :
    (∃ s', readFrom ovf env behaviour request s
        = some (.error (.allReplicasCorrupt request.extentId), s')) ↔
      ∀ replica ∈ mapping.replicas, (behaviour replica.nodeId).Corrupt mapping := by
  have hall : (∀ n ∈ orderOf s mapping, (behaviour n).Corrupt mapping) ↔
      ∀ replica ∈ mapping.replicas, (behaviour replica.nodeId).Corrupt mapping :=
    forall_mem_orderOf_iff
  have herrors' : ∀ n ∈ orderOf s mapping,
      behaviour n ≠ .fail (.allReplicasCorrupt request.extentId) :=
    forall_mem_orderOf_iff.mpr herrors
  rw [← hall]
  rcases readFrom_cases ovf behaviour s hlength hserves hreplicas with
    ⟨before, nodeId, answer, hfirst, hread⟩ | ⟨-, hread⟩
  · refine iff_of_false ?_ fun hcorrupt => ?_
    · rintro ⟨s', herror⟩
      rw [hread, Option.map_eq_some_iff] at herror
      obtain ⟨noted, -, heq⟩ := herror
      cases heq
    · obtain ⟨after, horder⟩ := hfirst.order
      have hnode := hcorrupt nodeId (by simp [horder])
      rw [hfirst.answers] at hnode
      exact hnode hfirst.checksum
  · by_cases hcorrupt : ∀ n ∈ orderOf s mapping, (behaviour n).Corrupt mapping
    · obtain ⟨noted, hnoted⟩ : ∃ noted, noteAll (latencyAware ovf) behaviour s.selector
          (orderOf s mapping) = some noted :=
        noteAll_eq_some mapping fun n hn => .inl (hcorrupt n hn)
      refine iff_of_true ⟨passedOver behaviour request mapping s (orderOf s mapping) noted, ?_⟩
        hcorrupt
      rw [hread, hnoted, Option.map_some, if_pos hcorrupt]
    · refine iff_of_false ?_ hcorrupt
      rintro ⟨s', herror⟩
      rw [hread, Option.map_eq_some_iff] at herror
      obtain ⟨noted, -, heq⟩ := herror
      rw [if_neg hcorrupt] at heq
      have hlast := List.getLast_mem (orderOf_ne_nil (s := s) hreplicas)
      exact errorOf_ne_allReplicasCorrupt (herrors' _ hlast)
        (Except.error.inj (congrArg Prod.fst heq))

/-- **The replicated read keeps its contract**, for every mapping, watermark and selector state and
whatever the nodes do. -/
theorem replicated_read (ovf : Overflow) (env : ReplicatedEnv) (behaviour : NodeId → NodeBehavior)
    (request : ReadRequest) (s : FallbackState LatencyAwareSelector) :
    ReadContract ovf env behaviour request s where
  mapping_used := by
    have hcases : (request.length ≠ 0 ∧ ∃ mapping, Serves (env.withNodes behaviour) mapping) ∨
        ∃ e, readFrom ovf env behaviour request s = some (.error e, s) := read_dichotomy s
    rcases hcases with ⟨hlength, mapping, hserves⟩ | hrefused
    · exact .inl ⟨mapping, hserves, read_of_serves hlength hserves s⟩
    · exact .inr hrefused
  stale := by
    intro watermark cached refreshed hlength hwatermark hcached hold hrefreshed hstale
    have hwatermark' : (env.withNodes behaviour).getWriteWatermark = .ok watermark := hwatermark
    exact read_stale hlength hwatermark' hcached hold hrefreshed hstale s
  ok_iff := fun hlength _ hserves hreplicas hroom => readFrom_ok_iff hlength hserves hreplicas hroom
  ok_first := by
    intro mapping hserves result s' hok
    have hlength : request.length ≠ 0 := by
      intro hzero
      rw [readFrom, read, if_pos hzero] at hok
      cases hok
    have hreplicas : mapping.replicas ≠ [] := by
      intro hnil
      rw [readFrom_of_no_replicas hlength hserves hnil] at hok
      cases hok
    rcases readFrom_cases ovf behaviour s hlength hserves hreplicas with
      ⟨before, nodeId, answer, hfirst, hread⟩ | ⟨-, hread⟩
    · rw [hread, Option.map_eq_some_iff] at hok
      obtain ⟨noted, hnotes, heq⟩ := hok
      cases heq
      refine ⟨before, nodeId, answer, hfirst, rfl, rfl, rfl, hnotes, fun n hn hcorrupt => ?_⟩
      obtain ⟨next, hnext, hserved⟩ := Option.bind_eq_some_iff.mp hnotes
      have hne : nodeId ≠ n := by
        rintro rfl
        exact hfirst.passed _ hn
          (NodeBehavior.intact_iff.mpr ⟨answer, hfirst.answers, hfirst.checksum⟩)
      exact (health_recordSuccess hne hserved).trans
        ((noteAll_spec mapping hnext n).2 hcorrupt (.inl hn))
    · rw [hread, Option.map_eq_some_iff] at hok
      obtain ⟨noted, -, heq⟩ := hok
      cases heq
  corrupt_iff := fun hlength _ hserves hreplicas herrors =>
    readFrom_allReplicasCorrupt_iff hlength hserves hreplicas herrors
  order_perm := fun mapping => perm_selectReplicas s.selector mapping.replicas
  order_failed_last := fun mapping => selectReplicas_failed_last s.selector mapping.replicas

end Contract

def twoReplicas (extentVersion : ExtentVersion) : ExtentMapping where
  volumeId := ⟨1⟩
  extentId := ⟨2⟩
  extentVersion
  epoch := 0
  replicas := [⟨⟨1⟩, true⟩, ⟨⟨2⟩, false⟩]
  checksum := "good"

/-- The cached mapping is below the watermark, the refreshed one is not. -/
def refreshedEnv : ReplicatedEnv where
  getWriteWatermark := .ok 5
  getExtentMapping := .ok (some (twoReplicas 4))
  refreshExtentMapping := .ok (some (twoReplicas 5))
  readExtent := fun _ nodeId _ _ _ _ _ => .error (.dataNodeReadFailed nodeId "unused")
  latencyUs := fun _ => 10
  freshNodeId := ⟨9⟩

def firstCorrupt (nodeId : NodeId) : NodeBehavior :=
  .success ⟨⟨2⟩, 5, if nodeId = ⟨1⟩ then "bad" else "good", [7]⟩

/-- A read that refreshes its mapping and falls back to the second replica. -/
theorem replicated_read_falls_back :
    ∃ result s', readFrom .checked refreshedEnv firstCorrupt ⟨⟨1⟩, ⟨2⟩, 0, 1⟩
      ⟨LatencyAwareSelector.new, [], []⟩ = some (.ok result, s') := by
  have hserves : Serves refreshedEnv (twoReplicas 5) :=
    ⟨5, rfl, by decide, .inr ⟨twoReplicas 4, rfl, by decide, rfl⟩⟩
  refine ((replicated_read .checked refreshedEnv firstCorrupt _ _).ok_iff (by decide)
    (twoReplicas 5) hserves (by decide) (.inr ?_)).mpr ⟨⟨⟨2⟩, false⟩, by decide, by decide⟩
  decide

def oneReplicaEnv : ReplicatedEnv :=
  { refreshedEnv with
    getExtentMapping := .ok (some { twoReplicas 5 with replicas := [⟨⟨2⟩, false⟩] }) }

/-- **Three reads outside the contract.**  A read of no bytes is refused although the replica is
intact; the latency of an intact replica overflows in a build that checks; and the error of a
replica that fails is passed on, whatever it says. -/
theorem reads_outside_the_contract :
    readFrom .checked oneReplicaEnv firstCorrupt ⟨⟨1⟩, ⟨2⟩, 0, 0⟩ ⟨.new, [], []⟩
        = some (.error (.invalidRequest "read length must be non-zero"), ⟨.new, [], []⟩) ∧
      readFrom .checked oneReplicaEnv firstCorrupt ⟨⟨1⟩, ⟨2⟩, 0, 1⟩
        ⟨⟨(∅ : HashMap _ _).insert ⟨2⟩ ⟨⟨2⟩, .healthy, 2 ^ 64 - 1, false, 0⟩⟩, [], []⟩ = none ∧
      ∃ s', readFrom .checked oneReplicaEnv (fun _ => .fail (.allReplicasCorrupt ⟨2⟩))
        ⟨⟨1⟩, ⟨2⟩, 0, 1⟩ ⟨.new, [], []⟩ = some (.error (.allReplicasCorrupt ⟨2⟩), s') := by
  have hserves : Serves oneReplicaEnv { twoReplicas 5 with replicas := [⟨⟨2⟩, false⟩] } :=
    ⟨5, rfl, by decide, .inl rfl⟩
  have horder : ∀ s : FallbackState LatencyAwareSelector,
      orderOf s { twoReplicas 5 with replicas := [⟨⟨2⟩, false⟩] } = [⟨2⟩] := by
    intro s
    simp [orderOf, LatencyAwareSelector.selectReplicas, LatencyAwareSelector.candidates]
  refine ⟨rfl, ?_, ?_⟩
  · rw [readFrom_of_serves (by decide) hserves (by decide), horder]
    decide
  · rw [readFrom_of_serves (by decide) hserves (by decide), horder]
    exact ⟨_, rfl⟩

end Blockyard.Client
