/-
# What decides the outcome of a write

`blockyard-ublk`, `write_pipeline.rs` and `ec_write_pipeline.rs`: both pipelines try a write up to
`max_retries + 1` times, and each attempt either fails before it has sent anything or sends one
request to every selected node and settles on their acknowledgements.  The two attempts differ only
in WHAT they send (`Pipeline.plan`); what they do with it is the same (`attempt`).  The replicated
loop also asks, before a retry, whether the operation has been committed already.

What the nodes see is recorded by the plane itself: `recording` is the same plane, with a log of
every call and its answer (`executeWithRetries_recording`: the log changes nothing).

`outcome_decided_by_acks` is the whole contract.  The fact behind it is that an attempt that sends
anything is the last: it has an outcome, and the loop returns any outcome.  So the attempts before
it have changed nothing (`before_of_mem_attempts`).
-/
import Blockyard.Lib.Until
import Blockyard.Ublk.EcReadAfterWrite

open Std Until

namespace Blockyard.Ublk

open Storage (jsonExternals)

/-! ## 1. One shape for both pipelines -/

/-- A write, with the pipeline it goes through. -/
inductive Pipeline
  | replicated (request : WriteRequest)
  | erasureCoded (volumeId : VolumeId) (startBlock : Nat) (data : Bytes)

namespace Pipeline

def volumeId : Pipeline → VolumeId
  | .replicated request => request.volumeId
  | .erasureCoded volumeId _ _ => volumeId

def Accepts : Pipeline → ProtectionPolicy → Prop
  | .replicated _, .replicated replicas => 1 ≤ replicas
  | .erasureCoded _ _ _, .erasureCoded dataChunks parityChunks =>
    1 ≤ dataChunks ∧ 1 ≤ parityChunks ∧ dataChunks + parityChunks ≤ 255
  | _, _ => False

/-- What `lookup_operation` finds before an attempt; the erasure-coded loop does not ask. -/
def foundBefore (env : ChunkEnv) (k : Nat) : Pipeline → Option EpochId
  | .replicated _ => if k > 0 then env.lookup k else none
  | .erasureCoded _ _ _ => none

/-- The nodes a write is for, in the order of its fragments. -/
def selected (blake3 : Bytes → BitVec 256) (cache : MetadataCache) (policy : ProtectionPolicy) :
    Pipeline → List NodeId
  | .replicated request =>
    match policy with
    | .replicated replicas =>
      PlacementEngine.selectNodes blake3 request.volumeId
        (request.startBlock / max request.extentBlocks 1) cache.listNodes replicas
    | .erasureCoded _ _ => []
  | .erasureCoded volumeId startBlock _ =>
    match policy with
    | .replicated _ => []
    | .erasureCoded dataChunks parityChunks =>
      PlacementEngine.selectEcNodes blake3 volumeId startBlock cache.listNodes dataChunks
        parityChunks

def payloads (rs : ReedSolomon) (policy : ProtectionPolicy) (count : Nat) :
    Pipeline → List Bytes
  | .replicated request => List.replicate count request.data
  | .erasureCoded _ _ data =>
    match policy with
    | .replicated _ => []
    | .erasureCoded dataChunks parityChunks =>
      match encodeData rs data dataChunks parityChunks with
      | .ok encoded => encoded.shards
      | .error _ => []

end Pipeline

/-- The acknowledgements a policy asks for: a majority of the replicas, or one more than there are
data fragments. -/
def enoughAcks : ProtectionPolicy → Nat
  | .replicated replicas => if replicas > 1 then replicas / 2 + 1 else 1
  | .erasureCoded dataChunks _ => dataChunks + 1

theorem enoughAcks_pos (policy : ProtectionPolicy) : 0 < enoughAcks policy := by
  cases policy with
  | replicated replicas =>
    simp only [enoughAcks]
    split <;> omega
  | erasureCoded dataChunks parityChunks => exact Nat.succ_pos dataChunks

/-- The calls of an attempt and the acknowledgements it needs, or why it does not get so far. -/
abbrev AttemptPlan := Client → Except Error (List WriteCall × Nat)

section

variable {σ : Type} (plane : DataPlane σ) (blake3 : Bytes → BitVec 256) (rs : ReedSolomon)

def attempt (env : ChunkEnv) (plan : AttemptPlan) (k : Nat) (c : Client) (s : σ) :
    Client × σ × Except Error WriteOutcome :=
  match plan c with
  | .error e => (c, s, .error e)
  | .ok (calls, required) =>
    let (s, acks) := transmit plane (env.sendOrder k) s calls
    let (c', outcome) := settle c (env.refresh k) c.cache.epoch required acks
    (c', s, .ok outcome)

namespace Pipeline

def executeOnce (env : ChunkEnv) (k : Nat) (c : Client) (s : σ) :
    Pipeline → Client × σ × Except Error WriteOutcome
  | .replicated request => Ublk.executeOnce plane blake3 env k c s request
  | .erasureCoded volumeId startBlock data =>
    ecExecuteOnce plane blake3 rs env k c s volumeId startBlock data

/-- `execute_with_op_id`, with `max_retries` as a parameter. -/
def executeWithRetries (env : ChunkEnv) (n : Nat) (c : Client) (s : σ) :
    Pipeline → Client × σ × Except Error WriteOutcome
  | .replicated request =>
    executeAttempts plane blake3 env request (List.range (n + 1)) none c s
  | .erasureCoded volumeId startBlock data =>
    ecExecuteAttempts plane blake3 rs env volumeId startBlock data (List.range (n + 1)) none c s

def plan (env : ChunkEnv) : Pipeline → AttemptPlan
  | .replicated request => fun c =>
    if c.paused then .error (.storage "writes paused due to stale epoch")
    else
      match c.cache.volumes[request.volumeId]? with
      | none => .error (.storage s!"volume {request.volumeId} not found in cache")
      | some volumeInfo =>
        let extentNum := request.startBlock / max request.extentBlocks 1
        let (required, replicaNodes) := match volumeInfo.protection with
          | .replicated replicas =>
            (requiredAcks replicas, PlacementEngine.selectNodes blake3 request.volumeId extentNum
              c.cache.listNodes replicas)
          | .erasureCoded dataChunks parityChunks =>
            ((dataChunks + parityChunks) % 256, PlacementEngine.selectEcNodes blake3
              request.volumeId extentNum c.cache.listNodes dataChunks parityChunks)
        if replicaNodes.isEmpty then .error (.storage "no replica nodes available")
        else .ok (replicaNodes.map (replicaCall blake3 c env request), required)
  | .erasureCoded volumeId startBlock data => fun c =>
    if c.paused then .error (.storage "writes paused due to stale epoch")
    else
      match c.cache.volumes[volumeId]? with
      | none => .error (.storage s!"volume {volumeId} not found in cache")
      | some volumeInfo =>
        match volumeInfo.protection with
        | .replicated _ =>
          .error (.storage "EC write pipeline requires ErasureCoded protection policy")
        | .erasureCoded dataChunks parityChunks =>
          let nodes := c.cache.listNodes
          let totalRequired := dataChunks + parityChunks
          if nodes.length < totalRequired then
            .error (.storage s!"insufficient nodes: have {nodes.length}, need {totalRequired}")
          else
            match encodeData rs data dataChunks parityChunks with
            | .error e => .error e
            | .ok encoded =>
              let extentNum := startBlock / max volumeInfo.extentBlocks 1
              .ok (((PlacementEngine.selectEcNodes blake3 volumeId extentNum nodes
                dataChunks parityChunks).zip encoded.shards).map fun (nodeId, fragment) =>
                { nodeId
                  operationId := env.operationId
                  sessionId := c.sessionId
                  volumeId
                  extentId := PlacementEngine.extentIdForExtent blake3 volumeId extentNum
                  extentVersion := PlacementEngine.extentVersion
                  epoch := c.cache.epoch
                  data := fragment
                  checksum := computeChecksum blake3 fragment }, dataChunks + min 1 parityChunks)

/-- **Both attempts have this shape.** -/
theorem executeOnce_eq_attempt (p : Pipeline) (env : ChunkEnv) (k : Nat) (c : Client) (s : σ) :
    p.executeOnce plane blake3 rs env k c s = attempt plane env (p.plan blake3 rs env) k c s := by
  cases p with
  | replicated request =>
    simp only [executeOnce, Ublk.executeOnce, attempt, plan]
    by_cases hp : c.paused = true
    · rw [if_pos hp, if_pos hp]
    · rw [if_neg hp, if_neg hp]
      cases c.cache.volumes[request.volumeId]? with
      | none => rfl
      | some volumeInfo =>
        rcases volumeInfo with ⟨replicas | ⟨dataChunks, parityChunks⟩⟩ <;>
        · dsimp only
          split <;> rfl
  | erasureCoded volumeId startBlock data =>
    simp only [executeOnce, ecExecuteOnce, attempt, plan]
    by_cases hp : c.paused = true
    · rw [if_pos hp, if_pos hp]
    · rw [if_neg hp, if_neg hp]
      cases c.cache.volumes[volumeId]? with
      | none => rfl
      | some volumeInfo =>
        rcases volumeInfo with ⟨replicas | ⟨dataChunks, parityChunks⟩⟩
        · rfl
        · dsimp only
          split
          · rfl
          · cases encodeData rs data dataChunks parityChunks <;> rfl

/-- One round of the retry loop, over the client, the nodes and the last error. -/
def round (p : Pipeline) (env : ChunkEnv) (now : Client × σ × Option Error) (k : Nat) :
    (Client × σ × Option Error) × Option WriteOutcome :=
  match p.foundBefore env k with
  | some epoch => ((now.1.advance epoch, now.2.1, now.2.2), some (.committed epoch))
  | none =>
    match p.executeOnce plane blake3 rs env k now.1 now.2.1 with
    | (c, s, .ok outcome) => ((c, s, now.2.2), some outcome)
    | (c, s, .error e) => ((c, s, some e), none)

/-- The error of a loop that has run out of attempts without one. -/
def noError : Pipeline → Error
  | .replicated _ => .storage "write failed after retries"
  | .erasureCoded _ _ _ => .storage "EC write failed after retries"

def returned (p : Pipeline) : (Client × σ × Option Error) × Option WriteOutcome →
    Client × σ × Except Error WriteOutcome
  | ((c, s, _), some outcome) => (c, s, .ok outcome)
  | ((c, s, lastError), none) => (c, s, .error (lastError.getD p.noError))

/-- A loop that tries one attempt after another stops where `untilStop` does. -/
theorem retries_eq_untilStop {p : Pipeline} {env : ChunkEnv}
    (loop : List Nat → Option Error → Client → σ → Client × σ × Except Error WriteOutcome)
    (hnil : ∀ lastError c s, loop [] lastError c s = (c, s, .error (lastError.getD p.noError)))
    (hcons : ∀ k ks lastError c s, loop (k :: ks) lastError c s =
      match p.foundBefore env k with
      | some epoch => (c.advance epoch, s, .ok (.committed epoch))
      | none =>
        match p.executeOnce plane blake3 rs env k c s with
        | (c, s, .ok outcome) => (c, s, .ok outcome)
        | (c, s, .error e) => loop ks (some e) c s) (ks : List Nat) :
    ∀ lastError c s, loop ks lastError c s
      = p.returned (untilStop (p.round plane blake3 rs env) (c, s, lastError) ks) := by
  induction ks with
  | nil => exact hnil
  | cons k ks ih =>
    intro lastError c s
    rw [hcons, untilStop, round]
    cases p.foundBefore env k with
    | some epoch => rfl
    | none =>
      dsimp only
      rcases p.executeOnce plane blake3 rs env k c s with ⟨c₁, s₁, e | outcome⟩
      · exact ih _ _ _
      · rfl

/-- **Both pipelines are one loop.** -/
theorem executeWithRetries_eq_untilStop (p : Pipeline) (env : ChunkEnv) (n : Nat) (c : Client)
    (s : σ) :
    p.executeWithRetries plane blake3 rs env n c s
      = p.returned (untilStop (p.round plane blake3 rs env) (c, s, none)
          (List.range (n + 1))) := by
  cases p <;>
    exact retries_eq_untilStop plane blake3 rs _ (fun _ _ _ => rfl) (fun _ _ _ _ _ => rfl) _ _ _ _

end Pipeline

end

/-! ## 2. What the nodes see -/

/-- A `write_extent` call and what came back. -/
abbrev Exchange := WriteCall × Except Error WriteAck

/-- The acknowledgement the pipeline makes of an exchange. -/
def Exchange.ack (x : Exchange) : WriteAck :=
  match x.2 with
  | .ok ack => ack
  | .error e => ⟨x.1.nodeId, false, "", some (.internalError (toString e))⟩

/-- A node has acknowledged the write as done. -/
def Exchange.succeeded (x : Exchange) : Bool :=
  match x.2 with
  | .ok ack => ack.success
  | .error _ => false

/-- **Enough acknowledgements**: none of a stale epoch, and as many successes as asked for. -/
structure Sufficient (required : Nat) (exchanges : List Exchange) : Prop where
  fresh : ∀ x ∈ exchanges, ∀ ack, x.2 = .ok ack → ack.error ≠ some .staleEpoch
  enough : required ≤ exchanges.countP Exchange.succeeded

section

variable {σ : Type} (plane : DataPlane σ)

/-- The same plane, with a log of the writes. -/
def recording : DataPlane (σ × List Exchange) where
  writeExtent s call :=
    let (s', answer) := plane.writeExtent s.1 call
    ((s', s.2 ++ [(call, answer)]), answer)
  readExtent s call :=
    let (s', answer) := plane.readExtent s.1 call
    ((s', s.2), answer)

variable {plane}

theorem sendOne_eq (plane : DataPlane σ) (s : σ) (call : WriteCall) :
    sendOne plane s call
      = ((plane.writeExtent s call).1, Exchange.ack (call, (plane.writeExtent s call).2)) := by
  unfold sendOne Exchange.ack
  rcases plane.writeExtent s call with ⟨s', e | ack⟩ <;> rfl

def sendNext (plane : DataPlane σ) (acc : σ × List WriteAck) (call : WriteCall) :
    σ × List WriteAck :=
  ((sendOne plane acc.1 call).1, acc.2 ++ [(sendOne plane acc.1 call).2])

/-- **A transmission, with its log**: an exchange for every call, and their acknowledgements. -/
theorem transmit_recording (plane : DataPlane σ) (order : IterOrder WriteCall) (s : σ)
    (log : List Exchange) (calls : List WriteCall) :
    ∃ exchanges : List Exchange, (exchanges.map Prod.fst).Perm calls ∧
      (transmit plane order s calls).2 = exchanges.map Exchange.ack ∧
      transmit (recording plane) order (s, log) calls
        = (((transmit plane order s calls).1, log ++ exchanges), exchanges.map Exchange.ack) := by
  have hrounds : ∀ sent s log acks, ∃ exchanges : List Exchange, exchanges.map Prod.fst = sent ∧
      (sent.foldl (sendNext plane) (s, acks)).2 = acks ++ exchanges.map Exchange.ack ∧
      sent.foldl (sendNext (recording plane)) ((s, log), acks)
        = (((sent.foldl (sendNext plane) (s, acks)).1, log ++ exchanges),
            acks ++ exchanges.map Exchange.ack) := by
    intro sent
    induction sent with
    | nil => exact fun s log acks => ⟨[], rfl, by simp, by simp⟩
    | cons call sent ih =>
      intro s log acks
      obtain ⟨exchanges, hcalls, hacks, hrec⟩ := ih (plane.writeExtent s call).1
        (log ++ [(call, (plane.writeExtent s call).2)])
        (acks ++ [Exchange.ack (call, (plane.writeExtent s call).2)])
      rw [List.append_assoc] at hacks hrec
      rw [List.append_assoc] at hrec
      refine ⟨(call, (plane.writeExtent s call).2) :: exchanges,
        by rw [List.map_cons, hcalls], ?_, ?_⟩
      · rw [List.foldl_cons, sendNext, sendOne_eq]
        exact hacks
      · rw [List.foldl_cons, List.foldl_cons, sendNext, sendNext, sendOne_eq, sendOne_eq]
        exact hrec
  obtain ⟨exchanges, hcalls, hacks, hrec⟩ := hrounds (order.arrange calls) s log []
  exact ⟨exchanges, hcalls ▸ order.perm calls, hacks, hrec⟩

/-! ## 3. One attempt -/

theorem sufficient_iff {required : Nat} {exchanges : List Exchange} :
    Sufficient required exchanges ↔
      (exchanges.map Exchange.ack).any (fun a => a.error = some .staleEpoch) = false ∧
        required ≤ ((exchanges.map Exchange.ack).filter (·.success)).length := by
  have hack : ∀ x : Exchange, (x.ack.error = some .staleEpoch ↔
      ∃ ack, x.2 = .ok ack ∧ ack.error = some .staleEpoch) ∧ x.ack.success = x.succeeded := by
    rintro ⟨call, e | ack⟩ <;> simp [Exchange.ack, Exchange.succeeded]
  have hcount : ((exchanges.map Exchange.ack).filter (·.success)).length
      = exchanges.countP Exchange.succeeded := by
    rw [← List.countP_eq_length_filter, List.countP_map]
    exact List.countP_congr fun x _ => by simp [(hack x).2]
  rw [hcount]
  constructor
  · rintro ⟨hfresh, henough⟩
    refine ⟨?_, henough⟩
    rw [List.any_eq_false]
    simp only [List.mem_map, forall_exists_index, and_imp, forall_apply_eq_imp_iff₂,
      decide_eq_true_eq, (hack _).1, not_exists, not_and]
    exact hfresh
  · rintro ⟨hfresh, henough⟩
    refine ⟨?_, henough⟩
    rw [List.any_eq_false] at hfresh
    simpa only [List.mem_map, forall_exists_index, and_imp, forall_apply_eq_imp_iff₂,
      decide_eq_true_eq, (hack _).1, not_exists, not_and] using hfresh

/-- **Enough acknowledgements, and only these, commit.** -/
theorem settle_committed_iff (c : Client) (refresh : Except Error MetadataCache)
    (epoch : EpochId) {required : Nat} {exchanges : List Exchange} :
    (∃ e, (settle c refresh epoch required (exchanges.map Exchange.ack)).2 = .committed e) ↔
      Sufficient required exchanges := by
  rw [sufficient_iff, settle]
  by_cases hstale : (exchanges.map Exchange.ack).any (fun a => a.error = some .staleEpoch) = true
  · rw [if_pos hstale]
    simp [hstale]
  · rw [if_neg hstale]
    by_cases hfew : ((exchanges.map Exchange.ack).filter (·.success)).length < required
    · simp [hfew, Nat.not_le_of_lt hfew]
    · simp [hfew, Nat.le_of_not_lt hfew, Bool.eq_false_of_not_eq_true hstale]

/-- The watermark does not move unless the write is committed, and never back. -/
theorem settle_watermark (c : Client) (refresh : Except Error MetadataCache) (epoch : EpochId)
    (required : Nat) (acks : List WriteAck) :
    c.watermark ≤ (settle c refresh epoch required acks).1.watermark ∧
      ((settle c refresh epoch required acks).1.watermark ≠ c.watermark →
        ∃ e, (settle c refresh epoch required acks).2 = .committed e) := by
  unfold settle
  split
  · have hkeep : (c.handleStaleEpoch refresh epoch).watermark = c.watermark := by
      unfold Client.handleStaleEpoch
      split
      · rfl
      · split <;> rfl
    simp [hkeep]
  · dsimp only
    split
    · simp
    · exact ⟨Nat.le_max_left _ _, fun _ => ⟨epoch, rfl⟩⟩

end

/-! ## 4. What an attempt sends -/

namespace Pipeline

variable {blake3 : Bytes → BitVec 256} {rs : ReedSolomon} {env : ChunkEnv} {c : Client}
  {policy : ProtectionPolicy} {calls : List WriteCall} {required : Nat}

/-- **What is sent**: under the one operation id, to each selected node what it is to get. -/
structure Sends (blake3 : Bytes → BitVec 256) (rs : ReedSolomon) (env : ChunkEnv) (c : Client)
    (policy : ProtectionPolicy) (p : Pipeline) (calls : List WriteCall) : Prop where
  id : ∀ call ∈ calls, call.operationId = env.operationId
  share : calls.map (fun call => (call.nodeId, call.data))
    = (p.selected blake3 c.cache policy).zip
        (p.payloads rs policy (p.selected blake3 c.cache policy).length)
  length : (p.payloads rs policy (p.selected blake3 c.cache policy).length).length
    = (p.selected blake3 c.cache policy).length

theorem sends_replicated {request : WriteRequest}
    (hknown : c.cache.volumes[request.volumeId]? = some ⟨policy⟩)
    (haccepts : (Pipeline.replicated request).Accepts policy)
    (h : (Pipeline.replicated request).plan blake3 rs env c = .ok (calls, required)) :
    required = enoughAcks policy ∧ Sends blake3 rs env c policy (.replicated request) calls := by
  cases policy with
  | erasureCoded dataChunks parityChunks => cases haccepts
  | replicated replicas =>
    have hreplicas : 1 ≤ replicas := haccepts
    simp only [plan, hknown] at h
    split at h
    · cases h
    · split at h
      · cases h
      · cases h
        refine ⟨?_, ?_, ?_, ?_⟩
        · rw [requiredAcks, enoughAcks]
          split <;> omega
        · simp [replicaCall]
        · rw [payloads, ← List.map_const, ← List.map_prod_left_eq_zip, List.map_map]
          rfl
        · simp [payloads]

theorem sends_erasureCoded {volumeId : VolumeId} {startBlock : Nat} {data : Bytes}
    (hknown : c.cache.volumes[volumeId]? = some ⟨policy⟩)
    (haccepts : (Pipeline.erasureCoded volumeId startBlock data).Accepts policy)
    (hcode : ∀ k m, policy = .erasureCoded k m → rs.Lawful k m)
    (h : (Pipeline.erasureCoded volumeId startBlock data).plan blake3 rs env c
      = .ok (calls, required)) :
    required = enoughAcks policy ∧
      Sends blake3 rs env c policy (.erasureCoded volumeId startBlock data) calls := by
  cases policy with
  | replicated replicas => cases haccepts
  | erasureCoded dataChunks parityChunks =>
    obtain ⟨hdataChunks, hparityChunks, htotal⟩ := haccepts
    have hlaw : rs.Lawful dataChunks parityChunks := hcode _ _ rfl
    simp only [plan, hknown] at h
    split at h
    · cases h
    · split at h
      · cases h
      case isFalse hnodes =>
        cases hencode : encodeData rs data dataChunks parityChunks with
        | error e =>
          rw [hencode] at h
          cases h
        | ok encoded =>
          rw [hencode] at h
          cases h
          -- There are as many fragments as selected nodes, so that the `zip` loses nothing.
          have hdata : data ≠ [] := by
            rintro rfl
            simp [encodeData] at hencode
          obtain ⟨word, hword⟩ := hlaw.exists_encodes hdataChunks hdata
          have hfragments : encoded.shards.length = dataChunks + parityChunks := by
            rw [hword.encodeData hlaw.new hdata] at hencode
            cases hencode
            rw [EncodedStripe.shards_ofShards, hword.shards.length]
          have hselected : (PlacementEngine.selectEcNodes blake3 volumeId startBlock
              c.cache.listNodes dataChunks parityChunks).length = dataChunks + parityChunks := by
            rw [PlacementEngine.selectEcNodes, PlacementEngine.length_selectNodes,
              Nat.mod_eq_of_lt (by omega)]
            omega
          have hextent : startBlock / max (CachedVolumeInfo.extentBlocks
              ⟨.erasureCoded dataChunks parityChunks⟩) 1 = startBlock := by
            simp [CachedVolumeInfo.extentBlocks]
          refine ⟨?_, ?_, ?_, ?_⟩
          · rw [enoughAcks, Nat.min_eq_left hparityChunks]
          · intro call hcall
            obtain ⟨⟨nodeId, fragment⟩, -, rfl⟩ := List.mem_map.mp hcall
            rfl
          · simp only [payloads, selected, hencode, hextent, List.map_map]
            exact List.map_id _
          · simp only [payloads, selected, hencode, hselected, hfragments]

/-- **What both pipelines send.** -/
theorem sends_of_plan {p : Pipeline} (hknown : c.cache.volumes[p.volumeId]? = some ⟨policy⟩)
    (haccepts : p.Accepts policy) (hcode : ∀ k m, policy = .erasureCoded k m → rs.Lawful k m)
    (h : p.plan blake3 rs env c = .ok (calls, required)) :
    required = enoughAcks policy ∧ Sends blake3 rs env c policy p calls := by
  cases p with
  | replicated request => exact sends_replicated hknown haccepts h
  | erasureCoded volumeId startBlock data => exact sends_erasureCoded hknown haccepts hcode h

theorem nodup_selected (blake3 : Bytes → BitVec 256) (cache : MetadataCache)
    (policy : ProtectionPolicy) (p : Pipeline) : (p.selected blake3 cache policy).Nodup := by
  cases p <;> cases policy <;> simp only [selected, List.nodup_nil]
  · exact PlacementEngine.nodup_selectNodes (nodup_listNodes cache) _ _ _
  · exact PlacementEngine.nodup_selectNodes (nodup_listNodes cache) _ _ _

/-! ## 5. The rounds of the loop -/

section

variable {σ : Type} {plane : DataPlane σ} {p : Pipeline} {s : σ} {n : Nat}
  {v : Visit Nat (Client × (σ × List Exchange) × Option Error) WriteOutcome}

/-- **A round, with its log**: the operation was found, the attempt failed and sent nothing, or it
settled. -/
theorem round_recording (log : List Exchange) (lastError : Option Error) (k : Nat) :
    (∃ epoch, p.foundBefore env k = some epoch ∧
      p.round (recording plane) blake3 rs env (c, (s, log), lastError) k
        = ((c.advance epoch, (s, log), lastError), some (.committed epoch))) ∨
    (∃ e, p.round (recording plane) blake3 rs env (c, (s, log), lastError) k
        = ((c, (s, log), some e), none)) ∨
    ∃ calls required exchanges s', p.plan blake3 rs env c = .ok (calls, required) ∧
      (exchanges.map Prod.fst).Perm calls ∧
      p.round (recording plane) blake3 rs env (c, (s, log), lastError) k
        = (((settle c (env.refresh k) c.cache.epoch required (exchanges.map Exchange.ack)).1,
            (s', log ++ exchanges), lastError), some (settle c (env.refresh k) c.cache.epoch
              required (exchanges.map Exchange.ack)).2) := by
  cases hfound : p.foundBefore env k with
  | some epoch => exact .inl ⟨epoch, rfl, by simp [round, hfound]⟩
  | none =>
    refine .inr ?_
    simp only [round, hfound, executeOnce_eq_attempt, attempt]
    cases hplan : p.plan blake3 rs env c with
    | error e => exact .inl ⟨e, rfl⟩
    | ok planned =>
      obtain ⟨calls, required⟩ := planned
      obtain ⟨exchanges, hperm, -, hlogged⟩ :=
        transmit_recording plane (env.sendOrder k) s log calls
      refine .inr ⟨calls, required, exchanges, (transmit plane (env.sendOrder k) s calls).1, rfl,
        hperm, ?_⟩
      simp only [hlogged]

def unlogged (now : Client × (σ × List Exchange) × Option Error) : Client × σ × Option Error :=
  (now.1, now.2.1.1, now.2.2)

variable (blake3 rs env plane p) in
/-- **The log changes nothing.** -/
theorem untilStop_recording (now : Client × (σ × List Exchange) × Option Error) (ks : List Nat) :
    untilStop (p.round plane blake3 rs env) (unlogged now) ks
      = (unlogged (untilStop (p.round (recording plane) blake3 rs env) now ks).1,
          (untilStop (p.round (recording plane) blake3 rs env) now ks).2) := by
  refine untilStop_map unlogged (fun g k => ?_) now ks
  obtain ⟨c, ⟨s, log⟩, lastError⟩ := g
  simp only [round, unlogged, executeOnce_eq_attempt, attempt]
  cases p.foundBefore env k with
  | some epoch => rfl
  | none =>
    cases p.plan blake3 rs env c with
    | error e => rfl
    | ok planned =>
      obtain ⟨exchanges, -, hplain, hlogged⟩ :=
        transmit_recording plane (env.sendOrder k) s log planned.1
      simp only [hlogged, hplain]

/-- The rounds of an execution, with the nodes' log. -/
def attempts (plane : DataPlane σ) (blake3 : Bytes → BitVec 256) (rs : ReedSolomon)
    (env : ChunkEnv) (n : Nat) (c : Client) (s : σ) (p : Pipeline) :
    List (Visit Nat (Client × (σ × List Exchange) × Option Error) WriteOutcome) :=
  visits (p.round (recording plane) blake3 rs env) (c, (s, []), none) (List.range (n + 1))

def exchangesOf (v : Visit Nat (Client × (σ × List Exchange) × Option Error) WriteOutcome) :
    List Exchange :=
  v.after.2.1.2.drop v.before.2.1.2.length

/-- A round that does not stop changes nothing but the last error. -/
theorem round_of_go {now g' : Client × (σ × List Exchange) × Option Error} {k : Nat}
    (h : ∃ lastError, now = (c, (s, []), lastError))
    (hround : p.round (recording plane) blake3 rs env now k = (g', none)) :
    ∃ lastError, g' = (c, (s, []), lastError) := by
  obtain ⟨lastError, rfl⟩ := h
  rcases round_recording [] lastError k with
    ⟨epoch, -, hlogged⟩ | ⟨e, hlogged⟩ | ⟨_, _, _, _, -, -, hlogged⟩
  · rw [hlogged] at hround
    cases hround
  · rw [hlogged] at hround
    cases hround
    exact ⟨some e, rfl⟩
  · rw [hlogged] at hround
    cases hround

/-- **Up to the round that stops, nothing has changed**: the client is as it was, and the nodes have
not been asked anything. -/
theorem before_of_mem_attempts
    (h : v ∈ p.attempts plane blake3 rs env n c s) :
    ∃ lastError, v.before = (c, (s, []), lastError) :=
  before_of_invariant (P := fun now => ∃ lastError, now = (c, (s, []), lastError))
    (fun _ _ _ => round_of_go) ⟨none, rfl⟩ h

/-- **What a round of an execution can be.** -/
inductive RoundIs (blake3 : Bytes → BitVec 256) (rs : ReedSolomon) (env : ChunkEnv) (c : Client)
    (p : Pipeline) (v : Visit Nat (Client × (σ × List Exchange) × Option Error) WriteOutcome) : Prop
  | found (epoch : EpochId) (hfound : p.foundBefore env v.item = some epoch)
      (hnone : exchangesOf v = []) (hclient : v.after.1 = c.advance epoch)
      (hstopped : v.stopped = some (.committed epoch))
  | failed (hnone : exchangesOf v = []) (hclient : v.after.1 = c) (hstopped : v.stopped = none)
  | settled (calls : List WriteCall) (required : Nat)
      (hplan : p.plan blake3 rs env c = .ok (calls, required))
      (hperm : ((exchangesOf v).map Prod.fst).Perm calls)
      (hclient : v.after.1 = (settle c (env.refresh v.item) c.cache.epoch required
        ((exchangesOf v).map Exchange.ack)).1)
      (hstopped : v.stopped = some (settle c (env.refresh v.item) c.cache.epoch required
        ((exchangesOf v).map Exchange.ack)).2)

theorem roundIs_of_mem_attempts
    (h : v ∈ p.attempts plane blake3 rs env n c s) : RoundIs blake3 rs env c p v := by
  obtain ⟨lastError, hbefore⟩ := before_of_mem_attempts h
  have hstep := step_of_mem_visits h
  obtain ⟨k, before, after, stopped⟩ := v
  obtain rfl : before = (c, (s, []), lastError) := hbefore
  dsimp only at hstep
  rcases round_recording [] lastError k with
    ⟨epoch, hfound, hlogged⟩ | ⟨e, hlogged⟩ |
      ⟨calls, required, exchanges, s', hplan, hperm, hlogged⟩
  · rw [hlogged] at hstep
    cases hstep
    exact .found epoch hfound rfl rfl rfl
  · rw [hlogged] at hstep
    cases hstep
    exact .failed rfl rfl rfl
  · rw [hlogged, List.nil_append] at hstep
    cases hstep
    exact .settled calls required hplan hperm rfl rfl

theorem executeWithRetries_of_stopped
    (h : v ∈ p.attempts plane blake3 rs env n c s) {outcome : WriteOutcome}
    (hv : v.stopped = some outcome) :
    p.executeWithRetries plane blake3 rs env n c s = (v.after.1, v.after.2.1.1, .ok outcome) := by
  have hloop := untilStop_recording blake3 rs env plane p (c, (s, []), none) (List.range (n + 1))
  rw [untilStop_of_stopped h hv] at hloop
  rw [executeWithRetries_eq_untilStop]
  exact congrArg p.returned hloop

/-- An execution that no round has stopped has changed nothing. -/
theorem executeWithRetries_cases :
    (∃ v ∈ p.attempts plane blake3 rs env n c s, v.stopped.isSome) ∨
      ∃ e, p.executeWithRetries plane blake3 rs env n c s = (c, s, .error e) := by
  rcases hloop : untilStop (p.round (recording plane) blake3 rs env) (c, (s, []), none)
    (List.range (n + 1)) with ⟨last, _ | outcome⟩
  · right
    obtain ⟨lastError, rfl⟩ : ∃ lastError, last = (c, (s, []), lastError) :=
      exhausted_of_invariant (P := fun now => ∃ lastError, now = (c, (s, []), lastError))
        (fun _ _ _ => round_of_go) ⟨none, rfl⟩ hloop
    have hplain := untilStop_recording blake3 rs env plane p (c, (s, []), none) (List.range (n + 1))
    rw [hloop] at hplain
    refine ⟨lastError.getD p.noError, ?_⟩
    rw [executeWithRetries_eq_untilStop]
    exact congrArg p.returned hplain
  · left
    obtain ⟨v, hv, -, hstopped⟩ := exists_stopped hloop
    exact ⟨v, hv, by rw [hstopped]; rfl⟩

/-- The watermark never goes back, and moves only when the write is committed. -/
theorem watermark_executeWithRetries :
    c.watermark ≤ (p.executeWithRetries plane blake3 rs env n c s).1.watermark ∧
      ((p.executeWithRetries plane blake3 rs env n c s).1.watermark ≠ c.watermark →
        ∃ epoch, (p.executeWithRetries plane blake3 rs env n c s).2.2
          = .ok (.committed epoch)) := by
  rcases executeWithRetries_cases with ⟨v, hv, hstopped⟩ | ⟨e, herror⟩
  · obtain ⟨outcome, houtcome⟩ := Option.isSome_iff_exists.mp hstopped
    rw [executeWithRetries_of_stopped hv houtcome]
    cases roundIs_of_mem_attempts hv with
    | found epoch _ _ hclient hfinal =>
      rw [hfinal] at houtcome
      cases houtcome
      rw [hclient]
      exact ⟨Nat.le_max_left _ _, fun _ => ⟨epoch, rfl⟩⟩
    | failed _ _ hnone =>
      rw [hnone] at houtcome
      cases houtcome
    | settled calls required _ _ hclient hfinal =>
      rw [hfinal] at houtcome
      cases houtcome
      rw [hclient]
      obtain ⟨hle, hmoves⟩ := settle_watermark c (env.refresh v.item) c.cache.epoch required
        ((exchangesOf v).map Exchange.ack)
      exact ⟨hle, fun hne => (hmoves hne).imp fun _ he => congrArg Except.ok he⟩
  · rw [herror]
    exact ⟨Nat.le_refl _, fun hne => absurd rfl hne⟩

/-- A round that has exchanged anything has sent its plan. -/
theorem sends_of_exchanges (hknown : c.cache.volumes[p.volumeId]? = some ⟨policy⟩)
    (haccepts : p.Accepts policy) (hcode : ∀ k m, policy = .erasureCoded k m → rs.Lawful k m)
    (hv : v ∈ p.attempts plane blake3 rs env n c s) (hsent : exchangesOf v ≠ []) :
    ∃ calls, ((exchangesOf v).map Prod.fst).Perm calls ∧ Sends blake3 rs env c policy p calls ∧
      v.stopped = some (settle c (env.refresh v.item) c.cache.epoch (enoughAcks policy)
        ((exchangesOf v).map Exchange.ack)).2 := by
  cases roundIs_of_mem_attempts hv with
  | found _ _ hnone _ _ => exact absurd hnone hsent
  | failed hnone _ _ => exact absurd hnone hsent
  | settled calls required hplan hperm _ hfinal =>
    obtain ⟨rfl, hsends⟩ := sends_of_plan hknown haccepts hcode hplan
    exact ⟨calls, hperm, hsends, hfinal⟩

/-- An execution that ends in `Committed` has found the operation or had enough
acknowledgements. -/
theorem found_or_sufficient (hknown : c.cache.volumes[p.volumeId]? = some ⟨policy⟩)
    (haccepts : p.Accepts policy) (hcode : ∀ k m, policy = .erasureCoded k m → rs.Lawful k m)
    {epoch : EpochId}
    (h : (p.executeWithRetries plane blake3 rs env n c s).2.2 = .ok (.committed epoch)) :
    (∃ v ∈ p.attempts plane blake3 rs env n c s, p.foundBefore env v.item = some epoch) ∨
      ∃ v ∈ p.attempts plane blake3 rs env n c s,
        Sufficient (enoughAcks policy) (exchangesOf v) := by
  rcases executeWithRetries_cases with ⟨v, hv, hstopped⟩ | ⟨e, herror⟩
  · obtain ⟨outcome, houtcome⟩ := Option.isSome_iff_exists.mp hstopped
    rw [executeWithRetries_of_stopped hv houtcome] at h
    cases h
    cases roundIs_of_mem_attempts hv with
    | found epoch' hfound _ _ hfinal =>
      rw [hfinal] at houtcome
      cases houtcome
      exact .inl ⟨v, hv, hfound⟩
    | failed _ _ hnone =>
      rw [hnone] at houtcome
      cases houtcome
    | settled calls required hplan _ _ hfinal =>
      obtain ⟨rfl, -⟩ := sends_of_plan hknown haccepts hcode hplan
      rw [hfinal] at houtcome
      exact .inr ⟨v, hv, (settle_committed_iff _ _ _).mp ⟨epoch, Option.some.inj houtcome⟩⟩
  · rw [herror] at h
    cases h

end

end Pipeline

/-! ## 6. The contract -/

/-- **The outcome of a write is decided by acknowledgements.** -/
structure DecidedByAcks {σ : Type} (plane : DataPlane σ) (blake3 : Bytes → BitVec 256)
    (rs : ReedSolomon) (env : ChunkEnv) (n : Nat) (c : Client) (s : σ) (policy : ProtectionPolicy)
    (p : Pipeline) : Prop where
  /-- Committed only if a retry found the operation, or an attempt had enough acknowledgements. -/
  committed : ∀ epoch,
    (p.executeWithRetries plane blake3 rs env n c s).2.2 = .ok (.committed epoch) →
    (∃ v ∈ p.attempts plane blake3 rs env n c s, p.foundBefore env v.item = some epoch) ∨
      ∃ v ∈ p.attempts plane blake3 rs env n c s,
        Sufficient (enoughAcks policy) (Pipeline.exchangesOf v)
  /-- Such an attempt always yields `Committed`. -/
  sufficient : ∀ v ∈ p.attempts plane blake3 rs env n c s,
    Sufficient (enoughAcks policy) (Pipeline.exchangesOf v) →
      ∃ epoch, (p.executeWithRetries plane blake3 rs env n c s).2.2 = .ok (.committed epoch)
  /-- The watermark never decreases, and moves only when the write is committed. -/
  watermark_le : c.watermark ≤ (p.executeWithRetries plane blake3 rs env n c s).1.watermark
  watermark_moves : (p.executeWithRetries plane blake3 rs env n c s).1.watermark ≠ c.watermark →
    ∃ epoch, (p.executeWithRetries plane blake3 rs env n c s).2.2 = .ok (.committed epoch)
  attempts_le : (p.attempts plane blake3 rs env n c s).length ≤ n + 1
  sameId : ∀ v ∈ p.attempts plane blake3 rs env n c s, ∀ x ∈ Pipeline.exchangesOf v,
    x.1.operationId = env.operationId
  /-- One request to each selected node, the `i`-th with the `i`-th payload. -/
  oneEach : ∀ v ∈ p.attempts plane blake3 rs env n c s, Pipeline.exchangesOf v ≠ [] →
    ((Pipeline.exchangesOf v).map fun x => (x.1.nodeId, x.1.data)).Perm
      ((p.selected blake3 c.cache policy).zip
        (p.payloads rs policy (p.selected blake3 c.cache policy).length)) ∧
      (p.payloads rs policy (p.selected blake3 c.cache policy).length).length
        = (p.selected blake3 c.cache policy).length ∧
      (p.selected blake3 c.cache policy).Nodup

open Pipeline in
/-- **Both pipelines keep the contract**, for every behaviour of the data nodes and of the metadata
service. -/
theorem outcome_decided_by_acks {σ : Type} (plane : DataPlane σ) (blake3 : Bytes → BitVec 256)
    (rs : ReedSolomon) (env : ChunkEnv) (n : Nat) (c : Client) (s : σ) (policy : ProtectionPolicy)
    (p : Pipeline) (hknown : c.cache.volumes[p.volumeId]? = some ⟨policy⟩)
    (haccepts : p.Accepts policy) (hcode : ∀ k m, policy = .erasureCoded k m → rs.Lawful k m) :
    DecidedByAcks plane blake3 rs env n c s policy p := by
  refine ⟨fun epoch => found_or_sufficient hknown haccepts hcode, fun v hv hsufficient => ?_,
    watermark_executeWithRetries.1, watermark_executeWithRetries.2, ?_, fun v hv x hx => ?_,
    fun v hv hsent => ?_⟩
  · have hsent : exchangesOf v ≠ [] := by
      intro hnone
      have henough := hsufficient.enough
      rw [hnone, List.countP_nil] at henough
      exact absurd henough (Nat.not_le_of_lt (enoughAcks_pos policy))
    obtain ⟨_, -, -, hstopped⟩ := sends_of_exchanges hknown haccepts hcode hv hsent
    obtain ⟨epoch, hepoch⟩ :=
      (settle_committed_iff c (env.refresh v.item) c.cache.epoch).mpr hsufficient
    rw [hepoch] at hstopped
    exact ⟨epoch, by rw [executeWithRetries_of_stopped hv hstopped]⟩
  · have hle := length_visits_le (p.round (recording plane) blake3 rs env) (c, (s, []), none)
      (List.range (n + 1))
    rwa [List.length_range] at hle
  · obtain ⟨calls, hperm, hsends, -⟩ :=
      sends_of_exchanges hknown haccepts hcode hv (List.ne_nil_of_mem hx)
    exact hsends.id _ (hperm.mem_iff.mp (List.mem_map_of_mem hx))
  · obtain ⟨calls, hperm, hsends, -⟩ := sends_of_exchanges hknown haccepts hcode hv hsent
    refine ⟨?_, hsends.length, nodup_selected blake3 c.cache policy p⟩
    rw [← hsends.share]
    have hmapped := hperm.map fun call : WriteCall => (call.nodeId, call.data)
    rwa [List.map_map] at hmapped

/-- The contract at one write through each pipeline. -/
theorem outcome_decided_by_acks_both :
    DecidedByAcks (tcpPlane (jsonExternals volumeBlake3) .checked fun _ => calmTick) volumeBlake3
        noCode ((idsFrom 0).chunk 0) 3 smallClient smallCluster (.replicated 1)
        (.replicated ⟨⟨7#128⟩, 0, [1, 2], 2⟩) ∧
      DecidedByAcks (tcpPlane (jsonExternals stripeBlake3) .checked fun _ => calmTick) stripeBlake3
        copyCode ((idsFrom 0).chunk 0) 0 pairedClient pairedCluster (.erasureCoded 1 1)
        (.erasureCoded ⟨7#128⟩ 0 [1, 2]) := by
  constructor
  · refine outcome_decided_by_acks _ _ _ _ _ _ _ _ _ ExtTreeMap.getElem?_insert_self ?_ ?_
    · exact Nat.le_refl 1
    · rintro k m ⟨⟩
  · refine outcome_decided_by_acks _ _ _ _ _ _ _ _ _ ExtTreeMap.getElem?_insert_self ?_ ?_
    · exact ⟨Nat.le_refl 1, Nat.le_refl 1, by decide⟩
    · rintro k m ⟨⟩
      exact copyCode_lawful ⟨Nat.le_refl 1, by decide⟩

end Blockyard.Ublk
