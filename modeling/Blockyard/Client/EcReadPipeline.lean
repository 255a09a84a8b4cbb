/-
# The erasure-coded read pipeline

`blockyard-client`, `ec_read_pipeline.rs`: fragments are read one after the other, those of data
before those of parity and each kind in the order of the replica selector, until K reads have
ANSWERED; then they are decoded and the checksum of the payload is compared.

A fragment that cannot be read is replaced by the next one.  A fragment that is wrong is not: the
pipeline cannot tell which one it is, and it does not try another K of them.  So a read returns the
payload exactly when the first K fragments that answer carry it (`ec_read_returns_iff`), however
many intact ones there are behind them.
-/
import Blockyard.Client.ErasureCodec
import Blockyard.Storage.EcRepair
import Blockyard.Storage.Json

namespace Blockyard.Client

open Storage (ExtentVersion)
open Ublk

/-! ## 1. Types of the read path -/

inductive ReadError
  | extentNotFound (volumeId : VolumeId) (extentId : ExtentId)
  | noHealthyReplicas (extentId : ExtentId)
  | allReplicasFailed (extentId : ExtentId)
  | allReplicasCorrupt (extentId : ExtentId)
  | checksumMismatch (nodeId : NodeId) (extentId : ExtentId) (expected actual : String)
  | staleMapping (extentId : ExtentId) (mappingVersion requiredVersion : Nat)
  | metadataRefreshFailed (text : String)
  | dataNodeReadFailed (nodeId : NodeId) (reason : String)
  | invalidRequest (text : String)
  deriving DecidableEq, Repr

instance readErrorToString : ToString ReadError where
  toString
    | .extentNotFound volumeId extentId =>
      s!"extent not found: volume={volumeId}, extent={extentId}"
    | .noHealthyReplicas extentId => s!"no healthy replicas available for extent {extentId}"
    | .allReplicasFailed extentId => s!"all replicas failed for extent {extentId}"
    | .allReplicasCorrupt extentId => s!"all replicas returned corrupt data for extent {extentId}"
    | .checksumMismatch nodeId extentId expected actual =>
      s!"checksum mismatch on node {nodeId} for extent {extentId}: "
        ++ s!"expected={expected}, got={actual}"
    | .staleMapping extentId mappingVersion requiredVersion =>
      s!"stale mapping for extent {extentId}: mapping_version={mappingVersion}, "
        ++ s!"required={requiredVersion}"
    | .metadataRefreshFailed text => s!"metadata refresh failed: {text}"
    | .dataNodeReadFailed nodeId reason => s!"data node read failed on node {nodeId}: {reason}"
    | .invalidRequest text => s!"invalid read request: {text}"

structure ReplicaLocation where
  nodeId : NodeId
  isLocal : Bool
  deriving DecidableEq, Repr

/-- `ExtentMapping` of the client. -/
structure ExtentMapping where
  volumeId : VolumeId
  extentId : ExtentId
  extentVersion : ExtentVersion
  epoch : EpochId
  replicas : List ReplicaLocation
  checksum : String
  deriving DecidableEq, Repr

structure ReadRequest where
  volumeId : VolumeId
  extentId : ExtentId
  offset : Nat
  length : Nat
  deriving DecidableEq, Repr

structure ReadResult where
  extentId : ExtentId
  extentVersion : ExtentVersion
  data : Bytes
  sourceNode : NodeId
  deriving DecidableEq, Repr

structure DataNodeReadResult where
  extentId : ExtentId
  extentVersion : ExtentVersion
  checksum : String
  data : Bytes
  deriving DecidableEq, Repr

structure ReadFailureReport where
  nodeId : NodeId
  extentId : ExtentId
  reason : String
  deriving DecidableEq, Repr

structure FragmentPlacement where
  fragmentIndex : Nat
  isData : Bool
  nodeId : NodeId
  deriving DecidableEq, Repr

structure EcExtentMapping where
  base : ExtentMapping
  dataCount : Nat
  parityCount : Nat
  originalDataLen : Nat
  fragmentPlacements : List FragmentPlacement
  deriving DecidableEq, Repr

/-- `ReplicaSelector`, over its state. -/
structure ReplicaSelector (σ : Type) where
  selectReplicas : σ → List ReplicaLocation → List NodeId
  recordSuccess : σ → NodeId → (latencyUs : Nat) → σ
  recordFailure : σ → NodeId → σ

/-- What one read meets: the answers of the `MetadataProvider` and of the `DataNodeReader`, call by
call, and the clock. -/
structure ReadEnv where
  getWriteWatermark : Except ReadError Nat
  refreshExtentMapping : Except ReadError (Option ExtentMapping)
  readExtent : (call : Nat) → NodeId → VolumeId → ExtentId → ExtentVersion →
    (offset length : Nat) → Except ReadError DataNodeReadResult
  latencyUs : (call : Nat) → Nat
  freshNodeId : NodeId

/-! ## 2. The pipeline -/

section Pipeline

variable {σ : Type} (selector : ReplicaSelector σ) (rs : ReedSolomon)
  (blake3 : Bytes → BitVec 256) (env : ReadEnv)

/-- The state a read changes: the selector, and the reports to the `HealthReporter`. -/
structure ReadState (σ : Type) where
  selector : σ
  reports : List ReadFailureReport

/-- `usize::MAX`, the place of a node that the selector did not list. -/
def notListed : Nat := 2 ^ 64 - 1

def orderPlacements (s : σ) (ecMapping : EcExtentMapping) : List FragmentPlacement :=
  let replicas := ecMapping.fragmentPlacements.map fun p => ReplicaLocation.mk p.nodeId false
  let orderedNodes := selector.selectReplicas s replicas
  let key (p : FragmentPlacement) := (orderedNodes.findIdx? (· = p.nodeId)).getD notListed
  let sortByOrder (placements : List FragmentPlacement) :=
    placements.mergeSort fun a b => key a ≤ key b
  sortByOrder (ecMapping.fragmentPlacements.filter fun p => p.isData)
    ++ sortByOrder (ecMapping.fragmentPlacements.filter fun p => ¬ p.isData)

/-- The loop of `read_fragments`; an index outside the slots panics. -/
def readPlacements (request : ReadRequest) (ecMapping : EcExtentMapping) (dataCount call : Nat)
    (results : List (Option Fragment)) (successCount : Nat) (s : ReadState σ) :
    List FragmentPlacement → Option (List (Option Fragment) × Nat) × ReadState σ
  | [] => (some (results, successCount), s)
  | p :: rest =>
    if successCount ≥ dataCount then (some (results, successCount), s)
    else
      match env.readExtent call p.nodeId request.volumeId request.extentId
          ecMapping.base.extentVersion request.offset request.length with
      | .ok result =>
        let s := { s with
          selector := selector.recordSuccess s.selector p.nodeId (env.latencyUs call) }
        if p.fragmentIndex < results.length then
          readPlacements request ecMapping dataCount (call + 1)
            (results.set p.fragmentIndex (some ⟨p.fragmentIndex, p.isData, result.data⟩))
            (successCount + 1) s rest
        else (none, s)
      | .error e =>
        let report : ReadFailureReport :=
          { nodeId := p.nodeId
            extentId := request.extentId
            reason := s!"EC fragment {p.fragmentIndex} read failed: {e}" }
        readPlacements request ecMapping dataCount (call + 1) results successCount
          { selector := selector.recordFailure s.selector p.nodeId
            reports := s.reports ++ [report] } rest

def readFragments (request : ReadRequest) (ecMapping : EcExtentMapping) (dataCount total : Nat)
    (s : ReadState σ) : Option (Except ReadError (List (Option Fragment))) × ReadState σ :=
  let ordered := orderPlacements selector s.selector ecMapping
  match readPlacements selector env request ecMapping dataCount 0 (List.replicate total none) 0 s
      ordered with
  | (none, s) => (none, s)
  | (some (results, successCount), s) =>
    if successCount < dataCount then (some (.error (.allReplicasFailed request.extentId)), s)
    else (some (.ok results), s)

/-- The end of `read`, from the gathered fragments on. -/
def finishRead (request : ReadRequest) (ecMapping : EcExtentMapping) (codec : ErasureCodec rs)
    (fragments : List (Option Fragment)) : Except ReadError ReadResult :=
  match codec.decode fragments ecMapping.originalDataLen with
  | .error (.insufficientFragments _ _) => .error (.allReplicasFailed request.extentId)
  | .error e => .error (.invalidRequest s!"EC decode failed: {e}")
  | .ok decoded =>
    if computeChecksum blake3 decoded ≠ ecMapping.base.checksum then
      .error (.allReplicasCorrupt request.extentId)
    else
      .ok
        { extentId := request.extentId
          extentVersion := ecMapping.base.extentVersion
          data := decoded
          sourceNode := (ecMapping.fragmentPlacements.head?.map (·.nodeId)).getD env.freshNodeId }

/-- `EcReadPipeline::read`; the answer `none` is a panic. -/
def ecRead (request : ReadRequest) (ecMapping : EcExtentMapping) (s : ReadState σ) :
    Option (Except ReadError ReadResult) × ReadState σ :=
  if request.length = 0 then
    (some (.error (.invalidRequest "read length must be non-zero")), s)
  else
    match env.getWriteWatermark with
    | .error e => (some (.error e), s)
    | .ok watermark =>
      if ecMapping.base.extentVersion < watermark then
        match env.refreshExtentMapping with
        | .error e => (some (.error e), s)
        | .ok _ =>
          (some (.error (.staleMapping request.extentId ecMapping.base.extentVersion watermark)), s)
      else
        match ErasureCodec.new rs ecMapping.dataCount ecMapping.parityCount with
        | .error e => (some (.error (.invalidRequest s!"invalid EC parameters: {e}")), s)
        | .ok codec =>
          match readFragments selector env request ecMapping codec.dataCount codec.totalCount s with
          | (none, s) => (none, s)
          | (some (.error e), s) => (some (.error e), s)
          | (some (.ok fragments), s) =>
            (some (finishRead rs blake3 env request ecMapping codec fragments), s)

end Pipeline

/-! ## 3. Which fragments are used -/

section Used

variable {σ : Type} {selector : ReplicaSelector σ} {env : ReadEnv} {request : ReadRequest}
  {ecMapping : EcExtentMapping} {answers : FragmentPlacement → Option Bytes}
  {placements : List FragmentPlacement}

/-- Each placement of the list has one behaviour: it answers with some bytes, or fails. -/
def Assigned (env : ReadEnv) (request : ReadRequest) (ecMapping : EcExtentMapping)
    (answers : FragmentPlacement → Option Bytes) (placements : List FragmentPlacement) : Prop :=
  ∀ call, ∀ p ∈ placements,
    (env.readExtent call p.nodeId request.volumeId request.extentId ecMapping.base.extentVersion
      request.offset request.length).toOption.map DataNodeReadResult.data = answers p

def fillSlots (answers : FragmentPlacement → Option Bytes) (slots : List (Option Fragment))
    (placements : List FragmentPlacement) : List (Option Fragment) :=
  placements.foldl (fun slots p => slots.set p.fragmentIndex
    ((answers p).map fun data => ⟨p.fragmentIndex, p.isData, data⟩)) slots

/-- The first `k` placements that answer. -/
def firstAnswers (answers : FragmentPlacement → Option Bytes) (k : Nat)
    (placements : List FragmentPlacement) : List FragmentPlacement :=
  (placements.filter fun p => (answers p).isSome).take k

/-- **The loop uses the first K placements that answer.** -/
theorem readPlacements_eq (k : Nat) (hanswers : Assigned env request ecMapping answers placements) :
    ∀ (call : Nat) (results : List (Option Fragment)) (count : Nat) (s : ReadState σ),
      (∀ p ∈ placements, p.fragmentIndex < results.length) →
      (readPlacements selector env request ecMapping k call results count s placements).1
        = some (fillSlots answers results (firstAnswers answers (k - count) placements),
            count + (firstAnswers answers (k - count) placements).length) := by
  induction placements with
  | nil =>
    intro call results count s _
    simp [readPlacements, firstAnswers, fillSlots]
  | cons p placements ih =>
    intro call results count s hindex
    have hrest : Assigned env request ecMapping answers placements :=
      fun call q hq => hanswers call q (List.mem_cons_of_mem _ hq)
    have hindexRest : ∀ q ∈ placements, q.fragmentIndex < results.length :=
      fun q hq => hindex q (List.mem_cons_of_mem _ hq)
    have hp := hanswers call p List.mem_cons_self
    unfold readPlacements
    by_cases hdone : count ≥ k
    · rw [if_pos hdone]
      simp [firstAnswers, fillSlots, Nat.sub_eq_zero_of_le hdone]
    · rw [if_neg hdone]
      cases hread : env.readExtent call p.nodeId request.volumeId request.extentId
          ecMapping.base.extentVersion request.offset request.length with
      | error e =>
        rw [hread] at hp
        have hnone : answers p = none := hp.symm
        simp only
        rw [ih hrest _ _ _ _ hindexRest]
        simp [firstAnswers, hnone]
      | ok result =>
        rw [hread] at hp
        have hsome : answers p = some result.data := hp.symm
        simp only [hindex p List.mem_cons_self, if_true]
        rw [ih hrest _ _ _ _ (by simpa using hindexRest)]
        have hleft : k - count = (k - (count + 1)) + 1 := by omega
        rw [hleft]
        simp only [firstAnswers, hsome, Option.isSome_some, List.filter_cons_of_pos,
          List.take_succ_cons, fillSlots, List.foldl_cons, Option.map_some, List.length_cons]
        rw [Nat.add_assoc, Nat.add_comm 1]

theorem perm_orderPlacements (selector : ReplicaSelector σ) (s : σ) (ecMapping : EcExtentMapping) :
    (orderPlacements selector s ecMapping).Perm ecMapping.fragmentPlacements := by
  have hsplit := List.filter_append_perm (fun p : FragmentPlacement => p.isData)
    ecMapping.fragmentPlacements
  refine ((List.mergeSort_perm _ _).append (List.mergeSort_perm _ _)).trans ?_
  simpa using hsplit

theorem remains_set {word : List Bytes} {slots : List (Option Bytes)} (h : Remains word slots)
    {i : Nat} {fragment : Bytes} (hi : word[i]? = some fragment) :
    Remains word (slots.set i (some fragment)) := by
  obtain ⟨hlength, hslots⟩ := List.forall₂_iff_get.mp h
  refine List.forall₂_iff_get.mpr ⟨by simp [hlength], ?_⟩
  intro n hn hn'
  simp only [List.get_eq_getElem, List.getElem_set]
  split
  case isTrue heq =>
    subst heq
    exact Or.inr (by rw [List.getElem?_eq_getElem hn] at hi; exact hi.symm)
  case isFalse => exact hslots n hn (by simpa using hn')

/-- **Intact fragments leave what is left of the stripe.** -/
theorem remains_fillSlots {word : List Bytes}
    (hintact : ∀ p ∈ placements, ∃ fragment, word[p.fragmentIndex]? = some fragment ∧
      answers p = some fragment) :
    ∀ {slots : List (Option Fragment)},
      Remains word (slots.map fun slot => slot.map Fragment.data) →
      Remains word ((fillSlots answers slots placements).map fun slot =>
        slot.map Fragment.data) := by
  induction placements with
  | nil => exact fun h => h
  | cons p placements ih =>
    intro slots h
    obtain ⟨fragment, hword, hanswer⟩ := hintact p List.mem_cons_self
    refine ih (fun q hq => hintact q (List.mem_cons_of_mem _ hq)) ?_
    dsimp only
    rw [hanswer, List.map_set]
    exact remains_set h hword

theorem length_fillSlots (slots : List (Option Fragment)) (placements : List FragmentPlacement) :
    (fillSlots answers slots placements).length = slots.length := by
  induction placements generalizing slots with
  | nil => rfl
  | cons p placements ih => exact (ih _).trans (List.length_set ..)

/-- A slot holds what it held, or an answer. -/
theorem mem_fillSlots {slots : List (Option Fragment)} {slot : Option Fragment}
    (h : slot ∈ fillSlots answers slots placements) :
    slot ∈ slots ∨ ∃ p ∈ placements,
      slot = (answers p).map fun data => ⟨p.fragmentIndex, p.isData, data⟩ := by
  induction placements generalizing slots with
  | nil => exact Or.inl h
  | cons p placements ih =>
    rcases ih h with hset | ⟨q, hq, heq⟩
    · refine (List.mem_or_eq_of_mem_set hset).imp_right fun heq => ⟨p, List.mem_cons_self, heq⟩
    · exact Or.inr ⟨q, List.mem_cons_of_mem _ hq, heq⟩

/-- **Each placement fills a hole.** -/
theorem countP_fillSlots (hanswer : ∀ p ∈ placements, (answers p).isSome = true)
    (hdistinct : (placements.map FragmentPlacement.fragmentIndex).Nodup) :
    ∀ (slots : List (Option Fragment)),
      (∀ p ∈ placements, slots[p.fragmentIndex]? = some none) →
      (fillSlots answers slots placements).countP Option.isNone + placements.length
        = slots.countP Option.isNone := by
  induction placements with
  | nil => exact fun _ _ => rfl
  | cons p placements ih =>
    intro slots hempty
    rw [List.map_cons, List.nodup_cons] at hdistinct
    obtain ⟨data, hdata⟩ := Option.isSome_iff_exists.mp (hanswer p List.mem_cons_self)
    obtain ⟨hlt, hhole⟩ := List.getElem?_eq_some_iff.mp (hempty p List.mem_cons_self)
    have hrest := ih (fun q hq => hanswer q (List.mem_cons_of_mem _ hq)) hdistinct.2
      (slots.set p.fragmentIndex (some ⟨p.fragmentIndex, p.isData, data⟩)) (by
        intro q hq
        have hne : p.fragmentIndex ≠ q.fragmentIndex := by
          intro heq
          exact hdistinct.1 (heq ▸ List.mem_map_of_mem hq)
        rw [List.getElem?_set_ne hne]
        exact hempty q (List.mem_cons_of_mem _ hq))
    rw [List.countP_set hlt, hhole] at hrest
    have hpos : 0 < slots.countP Option.isNone :=
      List.countP_pos_iff.mpr ⟨none, hhole ▸ List.getElem_mem hlt, rfl⟩
    rw [fillSlots, List.foldl_cons, hdata, List.length_cons]
    simp only [Option.isNone_none, if_true, Option.isNone_some, Bool.false_eq_true, if_false,
      fillSlots] at hrest
    simp only [Option.map_some]
    omega

end Used

/-! ## 4. What a read returns -/

section Read

variable {σ : Type} (selector : ReplicaSelector σ) (rs : ReedSolomon)
  (blake3 : Bytes → BitVec 256) (env : ReadEnv)

/-- The setting of a read: a payload was encoded, the mapping describes its fragments and is not
older than the watermark, and each placement has one behaviour. -/
structure Reads (codec : ErasureCodec rs) (data : Bytes) (fragments : List Fragment)
    (request : ReadRequest) (ecMapping : EcExtentMapping)
    (answers : FragmentPlacement → Option Bytes) : Prop where
  encoded : codec.encode data = .ok fragments
  nonempty : data ≠ []
  dataCount : ecMapping.dataCount = codec.dataCount
  parityCount : ecMapping.parityCount = codec.parityCount
  originalDataLen : ecMapping.originalDataLen = data.length
  checksum : ecMapping.base.checksum = computeChecksum blake3 data
  placements : (ecMapping.fragmentPlacements.map FragmentPlacement.fragmentIndex).Perm
    (List.range codec.totalCount)
  length : request.length ≠ 0
  watermark : ∃ watermark, env.getWriteWatermark = .ok watermark ∧
    watermark ≤ ecMapping.base.extentVersion
  assigned : Assigned env request ecMapping answers ecMapping.fragmentPlacements

def Intact (fragments : List Fragment) (answers : FragmentPlacement → Option Bytes)
    (p : FragmentPlacement) : Prop :=
  (answers p).isSome ∧ answers p = fragments[p.fragmentIndex]?.map Fragment.data

instance decidableIntact (fragments : List Fragment) (answers : FragmentPlacement → Option Bytes)
    (p : FragmentPlacement) : Decidable (Intact fragments answers p) :=
  inferInstanceAs (Decidable (_ ∧ _))

def usedPlacements (selector : ReplicaSelector σ) (s : ReadState σ) (ecMapping : EcExtentMapping)
    (k : Nat) (answers : FragmentPlacement → Option Bytes) : List FragmentPlacement :=
  firstAnswers answers k (orderPlacements selector s.selector ecMapping)

def Returns (request : ReadRequest) (ecMapping : EcExtentMapping) (s : ReadState σ)
    (data : Bytes) : Prop :=
  ∃ sourceNode, (ecRead selector rs blake3 env request ecMapping s).1
    = some (.ok ⟨request.extentId, ecMapping.base.extentVersion, data, sourceNode⟩)

variable {selector rs blake3 env} {codec : ErasureCodec rs} {data : Bytes}
  {fragments : List Fragment} {request : ReadRequest} {ecMapping : EcExtentMapping}
  {answers : FragmentPlacement → Option Bytes} {s : ReadState σ}

theorem length_usedPlacements (selector : ReplicaSelector σ) (s : ReadState σ) {k : Nat}
    (henough : k ≤ ecMapping.fragmentPlacements.countP fun p => (answers p).isSome) :
    (usedPlacements selector s ecMapping k answers).length = k := by
  rw [usedPlacements, firstAnswers, List.length_take, ← List.countP_eq_length_filter,
    (perm_orderPlacements selector s.selector ecMapping).countP_eq]
  exact min_eq_left henough

/-- With K answers the read decodes the fragments it used. -/
theorem Reads.ecRead_eq (h : Reads rs blake3 env codec data fragments request ecMapping answers)
    (henough : codec.dataCount ≤ ecMapping.fragmentPlacements.countP fun p => (answers p).isSome) :
    (ecRead selector rs blake3 env request ecMapping s).1
      = some (finishRead rs blake3 env request ecMapping codec
          (fillSlots answers (List.replicate codec.totalCount none)
            (usedPlacements selector s ecMapping codec.dataCount answers))) := by
  obtain ⟨watermark, hwatermark, hversion⟩ := h.watermark
  have hperm := perm_orderPlacements selector s.selector ecMapping
  have hassigned : Assigned env request ecMapping answers
      (orderPlacements selector s.selector ecMapping) :=
    fun call p hp => h.assigned call p (hperm.mem_iff.mp hp)
  have hindex : ∀ p ∈ orderPlacements selector s.selector ecMapping, p.fragmentIndex <
      (List.replicate codec.totalCount (none : Option Fragment)).length := by
    intro p hp
    have hmem := h.placements.mem_iff.mp (List.mem_map_of_mem (hperm.mem_iff.mp hp))
    rw [List.length_replicate]
    exact List.mem_range.mp hmem
  have hlength := length_usedPlacements selector s henough
  have hnew : ErasureCodec.new rs ecMapping.dataCount ecMapping.parityCount = .ok codec := by
    unfold ErasureCodec.new
    rw [h.dataCount, h.parityCount, dif_pos ⟨codec.dataCount_pos, codec.parityCount_pos⟩]
    split
    · rename_i e he
      rw [codec.built] at he
      cases he
    · rfl
  have hloop : (readPlacements selector env request ecMapping codec.dataCount 0
      (List.replicate codec.totalCount none) 0 s
      (orderPlacements selector s.selector ecMapping)).1 = _ :=
    readPlacements_eq codec.dataCount hassigned 0 _ 0 s hindex
  rw [Nat.sub_zero, Nat.zero_add] at hloop
  unfold ecRead
  rw [if_neg h.length, hwatermark]
  simp only [if_neg (Nat.not_lt.mpr hversion), hnew]
  unfold readFragments
  rcases hrun : readPlacements selector env request ecMapping codec.dataCount 0
    (List.replicate codec.totalCount none) 0 s (orderPlacements selector s.selector ecMapping)
    with ⟨result, s'⟩
  rw [hrun] at hloop
  obtain rfl := hloop
  have hcount : ¬ (firstAnswers answers codec.dataCount
      (orderPlacements selector s.selector ecMapping)).length < codec.dataCount :=
    Nat.not_lt.mpr (le_of_eq hlength.symm)
  simp only [hrun, if_neg hcount]
  rfl

/-- The end of a read returns the payload exactly when the fragments decode to it. -/
theorem Reads.finishRead_iff
    (h : Reads rs blake3 env codec data fragments request ecMapping answers)
    (slots : List (Option Fragment)) :
    (∃ sourceNode, finishRead rs blake3 env request ecMapping codec slots
        = .ok ⟨request.extentId, ecMapping.base.extentVersion, data, sourceNode⟩) ↔
      codec.decode slots data.length = .ok data := by
  unfold finishRead
  rw [h.originalDataLen]
  constructor
  · rintro ⟨sourceNode, hok⟩
    split at hok
    · cases hok
    · cases hok
    case h_3 decoded hdecoded =>
      split at hok
      · cases hok
      · have hresult := Except.ok.inj hok
        simp only [ReadResult.mk.injEq, true_and] at hresult
        rw [hdecoded, hresult.1]
  · intro hdecode
    rw [hdecode]
    simp [h.checksum]

/-- **What the decoder is given**: K answers in their slots, and M holes. -/
theorem Reads.holes (h : Reads rs blake3 env codec data fragments request ecMapping answers)
    (selector : ReplicaSelector σ) (s : ReadState σ)
    (henough : codec.dataCount ≤ ecMapping.fragmentPlacements.countP fun p => (answers p).isSome) :
    (fillSlots answers (List.replicate codec.totalCount none)
      (usedPlacements selector s ecMapping codec.dataCount answers)).countP Option.isNone
      = codec.parityCount := by
  have hperm := perm_orderPlacements selector s.selector ecMapping
  have hused : (usedPlacements selector s ecMapping codec.dataCount answers).Sublist
      ((orderPlacements selector s.selector ecMapping).filter fun p => (answers p).isSome) :=
    List.take_sublist _ _
  have hdistinct : ((usedPlacements selector s ecMapping codec.dataCount answers).map
      FragmentPlacement.fragmentIndex).Nodup :=
    (((hperm.map FragmentPlacement.fragmentIndex).trans h.placements).nodup_iff.mpr
      List.nodup_range).sublist ((hused.trans List.filter_sublist).map _)
  have hholes := countP_fillSlots (fun p hp => (List.mem_filter.mp (hused.subset hp)).2) hdistinct
    (List.replicate codec.totalCount none) (by
      intro p hp
      have hmem := h.placements.mem_iff.mp (List.mem_map_of_mem
        (hperm.mem_iff.mp (List.mem_filter.mp (hused.subset hp)).1))
      rw [List.getElem?_replicate, if_pos (List.mem_range.mp hmem)])
  rw [length_usedPlacements selector s henough, List.countP_replicate] at hholes
  simp only [Option.isNone_none, if_true, ErasureCodec.totalCount] at hholes ⊢
  omega

/-- **Intact fragments decode.** -/
theorem Reads.decode_of_intact (hlaw : rs.Lawful codec.dataCount codec.parityCount)
    (h : Reads rs blake3 env codec data fragments request ecMapping answers)
    (henough : codec.dataCount ≤ ecMapping.fragmentPlacements.countP fun p => (answers p).isSome)
    (hintact : ∀ p ∈ usedPlacements selector s ecMapping codec.dataCount answers,
      Intact fragments answers p) :
    codec.decode (fillSlots answers (List.replicate codec.totalCount none)
      (usedPlacements selector s ecMapping codec.dataCount answers)) data.length = .ok data := by
  obtain ⟨word, hword⟩ := hlaw.exists_encodes codec.dataCount_pos h.nonempty
  have hfragments : ErasureCodec.fragmentsOf codec.dataCount word = fragments :=
    Except.ok.inj ((ErasureCodec.encode_eq codec hword h.nonempty).symm.trans h.encoded)
  refine ErasureCodec.decode_of_shards codec hlaw hword h.nonempty ?_
    (h.holes selector s henough).le
  refine remains_fillSlots ?_ ?_
  · intro p hp
    obtain ⟨hsome, hanswer⟩ := hintact p hp
    obtain ⟨bytes, hbytes⟩ := Option.isSome_iff_exists.mp hsome
    refine ⟨bytes, ?_, hbytes⟩
    rw [← ErasureCodec.map_data_fragmentsOf codec.dataCount word, hfragments,
      List.getElem?_map, ← hanswer, hbytes]
  · rw [List.map_replicate, Option.map_none]
    refine List.forall₂_iff_get.mpr ⟨by simp [hword.shards.length, ErasureCodec.totalCount], ?_⟩
    intro n hn hn'
    exact Or.inl (by simp)

/-- **ERASURE-CODED READS.**  With at least K intact placements and wrong answers of the right size,
the read returns the payload exactly when the first K answers, in their slots, carry it: they are
shards of one code word that begins with the payload.  Intact ones do. -/
theorem ec_read_returns_iff (selector : ReplicaSelector σ) (rs : ReedSolomon)
    (codec : ErasureCodec rs) (hlaw : rs.Lawful codec.dataCount codec.parityCount)
    (hcompletes : rs.Completes codec.dataCount codec.parityCount)
    (blake3 : Bytes → BitVec 256) (env : ReadEnv) (data : Bytes) (fragments : List Fragment)
    (request : ReadRequest) (ecMapping : EcExtentMapping)
    (answers : FragmentPlacement → Option Bytes) (s : ReadState σ)
    (h : Reads rs blake3 env codec data fragments request ecMapping answers)
    (hintact : codec.dataCount ≤
      ecMapping.fragmentPlacements.countP fun p => Intact fragments answers p) :
    ((∀ p ∈ ecMapping.fragmentPlacements, ∀ bytes, answers p = some bytes →
          bytes.length = Ublk.fragmentSize codec.dataCount data) →
        (Returns selector rs blake3 env request ecMapping s data ↔
          codec.Carries data (fillSlots answers (List.replicate codec.totalCount none)
            (usedPlacements selector s ecMapping codec.dataCount answers)))) ∧
      ((∀ p ∈ usedPlacements selector s ecMapping codec.dataCount answers,
          Intact fragments answers p) →
        Returns selector rs blake3 env request ecMapping s data) := by
  have henough : codec.dataCount ≤
      ecMapping.fragmentPlacements.countP fun p => (answers p).isSome := by
    refine hintact.trans (List.countP_mono_left fun p _ hp => ?_)
    exact (of_decide_eq_true hp).1
  have hiff : Returns selector rs blake3 env request ecMapping s data ↔
      codec.decode (fillSlots answers (List.replicate codec.totalCount none)
        (usedPlacements selector s ecMapping codec.dataCount answers)) data.length = .ok data := by
    rw [← h.finishRead_iff]
    unfold Returns
    rw [h.ecRead_eq henough]
    simp only [Option.some.injEq]
  refine ⟨fun hsizes => ?_, fun hused => hiff.mpr (h.decode_of_intact hlaw henough hused)⟩
  rw [hiff]
  refine codec.decode_eq_ok_iff hlaw hcompletes h.nonempty ?_ ?_ (h.holes selector s henough)
  · rw [length_fillSlots, List.length_replicate]
  · intro fragment hfragment
    rcases mem_fillSlots hfragment with hnone | ⟨p, hp, hanswer⟩
    · cases (List.mem_replicate.mp hnone).2
    · obtain ⟨bytes, hbytes, rfl⟩ := Option.map_eq_some_iff.mp hanswer.symm
      have hmem := List.mem_filter.mp ((List.take_sublist _ _).subset hp)
      exact hsizes p ((perm_orderPlacements selector s.selector ecMapping).mem_iff.mp hmem.1)
        bytes hbytes

end Read

/-! ### One wrong fragment -/

section Sample

open Storage

/-- A selector that keeps the order it is given, as `LatencyAwareSelector` does at the start. -/
def keepOrder : ReplicaSelector Unit where
  selectReplicas _ replicas := replicas.map ReplicaLocation.nodeId
  recordSuccess s _ _ := s
  recordFailure s _ := s

def oneByteMapping : EcExtentMapping where
  base := ⟨⟨7#128⟩, ⟨5#128⟩, 1, 0, [],
    "48fc721fbbc172e0925fa27af1671de225ba927134802998b10a1568a188652b"⟩
  dataCount := 2
  parityCount := 1
  originalDataLen := 1
  fragmentPlacements := [⟨0, true, ⟨1#128⟩⟩, ⟨1, true, ⟨2#128⟩⟩, ⟨2, false, ⟨3#128⟩⟩]

def oneByteFragments : List Fragment := [⟨0, true, [1]⟩, ⟨1, true, [0]⟩, ⟨2, false, [3]⟩]

def firstAnswersWith (first : Bytes) (p : FragmentPlacement) : Option Bytes :=
  if p.nodeId = ⟨1#128⟩ then some first else if p.nodeId = ⟨2#128⟩ then some [0] else some [3]

def oneByteEnv (first : Bytes) : ReadEnv where
  getWriteWatermark := .ok 1
  refreshExtentMapping := .ok none
  readExtent _ nodeId _ extentId version _ _ :=
    .ok ⟨extentId, version, "", if nodeId = ⟨1#128⟩ then first
      else if nodeId = ⟨2#128⟩ then [0] else [3]⟩
  latencyUs _ := 1000
  freshNodeId := ⟨9#128⟩

def wholeFragment : ReadRequest := ⟨⟨7#128⟩, ⟨5#128⟩, 0, 1⟩

theorem reads_oneByte (first : Bytes) :
    Reads pairCode sampleBlake3 (oneByteEnv first) pairCodec [1] oneByteFragments wholeFragment
      oneByteMapping (firstAnswersWith first) where
  encoded := by rfl
  nonempty := by decide
  dataCount := rfl
  parityCount := rfl
  originalDataLen := rfl
  checksum := by decide
  placements := by decide
  length := by decide
  watermark := ⟨1, rfl, le_rfl⟩
  assigned := by
    intro call p hp
    simp only [oneByteMapping, List.mem_cons, List.not_mem_nil, or_false] at hp
    rcases hp with rfl | rfl | rfl <;> rfl

theorem orderPlacements_oneByte :
    orderPlacements keepOrder () oneByteMapping = oneByteMapping.fragmentPlacements := by
  unfold orderPlacements
  dsimp only
  rw [List.mergeSort_of_pairwise (by decide), List.mergeSort_of_pairwise (by decide)]
  rfl

theorem usedPlacements_oneByte (first : Bytes) :
    usedPlacements keepOrder ⟨(), []⟩ oneByteMapping 2 (firstAnswersWith first)
      = [⟨0, true, ⟨1#128⟩⟩, ⟨1, true, ⟨2#128⟩⟩] := by
  rw [usedPlacements, orderPlacements_oneByte]
  rfl

theorem ec_read_returns_intact :
    Returns keepOrder pairCode sampleBlake3 (oneByteEnv [1]) wholeFragment oneByteMapping
      ⟨(), []⟩ [1] := by
  refine (ec_read_returns_iff keepOrder pairCode pairCodec pairCode_lawful pairCode_completes
    sampleBlake3 (oneByteEnv [1]) [1] oneByteFragments wholeFragment oneByteMapping
    (firstAnswersWith [1]) ⟨(), []⟩ (reads_oneByte [1]) (by decide)).2 ?_
  intro p hp
  have hused : p ∈ usedPlacements keepOrder ⟨(), []⟩ oneByteMapping 2 (firstAnswersWith [1]) := hp
  rw [usedPlacements_oneByte] at hused
  rcases List.mem_pair.mp hused with rfl | rfl <;> decide

/-- **The fragment of node 1 is wrong, the two others are intact, and the read fails**: it decodes
the wrong fragment and that of node 2, and does not try the parity fragment. -/
theorem corrupt_fragment_not_tolerated :
    oneByteMapping.fragmentPlacements.countP
        (fun p => Intact oneByteFragments (firstAnswersWith [2]) p) = 2 ∧
      (ecRead keepOrder pairCode sampleBlake3 (oneByteEnv [2]) wholeFragment oneByteMapping
        ⟨(), []⟩).1 = some (.error (.allReplicasCorrupt ⟨5#128⟩)) ∧
      ¬ Returns keepOrder pairCode sampleBlake3 (oneByteEnv [2]) wholeFragment oneByteMapping
        ⟨(), []⟩ [1] := by
  have hread : (ecRead keepOrder pairCode sampleBlake3 (oneByteEnv [2]) wholeFragment oneByteMapping
      ⟨(), []⟩).1 = some (.error (.allReplicasCorrupt ⟨5#128⟩)) := by
    rw [(reads_oneByte [2]).ecRead_eq (by decide)]
    change some (finishRead pairCode sampleBlake3 (oneByteEnv [2]) wholeFragment oneByteMapping
      pairCodec (fillSlots (firstAnswersWith [2]) (List.replicate 3 none)
        (usedPlacements keepOrder ⟨(), []⟩ oneByteMapping 2 (firstAnswersWith [2])))) = _
    rw [usedPlacements_oneByte]
    decide
  refine ⟨by decide, hread, ?_⟩
  rintro ⟨sourceNode, hreturns⟩
  rw [hread] at hreturns
  cases hreturns

end Sample

end Blockyard.Client
