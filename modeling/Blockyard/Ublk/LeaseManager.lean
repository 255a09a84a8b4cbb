/-
# The lease manager

`blockyard-ublk`, `lease_manager.rs`: a client's view of its write lease, against the metadata
state machine that grants it.

## The system

One client, the metadata state machine, other sessions, one clock (`LeaseSystem`).  A call of the
manager is THREE steps: the request leaves, stamped with the time; the state machine applies it;
the answer reaches the manager.  Any of them may come late, in another order than the calls were
made, or never -- a network error is an answer that does not come, and leaves the manager as it
is.  The renewal task sends `renew`s; nothing here depends on when.

## What holds

`check_write_allowed` looks at the STATE of the manager and not at the clock, so it says nothing
about now: a manager whose lease ran out stays `Active` until a renewal is answered with a denial
(`write_allowed_without_lease`), and `execute_mount_kernel` does not even start the task that would
ask.  What the manager does keep is `expires_at_ms`.  Before that time the lease is still there,
whatever the other sessions ask for, unless a request of the client's own has ended it or
shortened it since (`write_allowed_holds_lease`).
-/
import Blockyard.Raft.Fencing
import Blockyard.Ublk.WritePipeline

open Std

namespace Blockyard.Ublk

open Raft (MetadataRequest MetadataResponse MetadataStateMachineData)

/-! ## 1. The manager -/

/-- `LeaseManager`, with its `LeaseInner`. -/
structure LeaseManager where
  volumeId : VolumeId
  sessionId : SessionId
  ttlMs : Nat
  state : LeaseState
  leaseVersion : Option LeaseVersion
  expiresAtMs : Option Nat
  deriving DecidableEq

/-- `LeaseResponse` under `{:?}`, as far as the manager prints it. -/
def debugResponse : LeaseResponse → String
  | .granted version expires =>
    s!"Granted \x7b lease_version: {version}, expires_at_ms: {expires} \x7d"
  | .renewed version expires =>
    s!"Renewed \x7b lease_version: {version}, expires_at_ms: {expires} \x7d"
  | .released => "Released"
  | .denied reason => s!"Denied \x7b reason: {reason.quote} \x7d"

namespace LeaseManager

def new (volumeId : VolumeId) (sessionId : SessionId) (ttlMs : Nat) : LeaseManager where
  volumeId := volumeId
  sessionId := sessionId
  ttlMs := ttlMs
  state := .none
  leaseVersion := none
  expiresAtMs := none

def markLost (m : LeaseManager) : LeaseManager := { m with state := .lost }

/-- `acquire`, from the answer on. -/
def acquired (m : LeaseManager) : LeaseResponse → LeaseManager × Except Error LeaseVersion
  | .granted version expires =>
    ({ m with state := .active, leaseVersion := some version, expiresAtMs := some expires },
      .ok version)
  | .denied reason => (m, .error (.auth s!"lease denied: {reason}"))
  | other => (m, .error (.auth s!"unexpected lease response: {debugResponse other}"))

/-- `renew`, from the answer on.  It does not write the state. -/
def renewed (m : LeaseManager) : LeaseResponse → LeaseManager × Except Error LeaseVersion
  | .renewed version expires =>
    ({ m with leaseVersion := some version, expiresAtMs := some expires }, .ok version)
  | .denied reason => (m.markLost, .error (.auth s!"lease renewal denied: {reason}"))
  | other => (m.markLost, .error (.auth s!"unexpected renewal response: {debugResponse other}"))

/-- `release`, from the answer on. -/
def released (m : LeaseManager) (resp : LeaseResponse) : LeaseManager × Except Error Unit :=
  ({ m with state := .none, leaseVersion := none, expiresAtMs := none },
    match resp with
    | .released | .denied _ => .ok ()
    | other => .error (.auth s!"unexpected release response: {debugResponse other}"))

def answered (m : LeaseManager) (resp : LeaseResponse) : LeaseRequest → LeaseManager
  | .acquire .. => (m.acquired resp).1
  | .renew .. => (m.renewed resp).1
  | .release .. => (m.released resp).1

def checkWriteAllowed (m : LeaseManager) : Except Error LeaseVersion :=
  match m.state with
  | .active =>
    match m.leaseVersion with
    | some version => .ok version
    | none => .error (.auth "lease active but no version")
  | .none => .error (.auth "no write lease held")
  | .lost => .error (.auth "write lease lost — renewal failed")

end LeaseManager

/-! ## 2. The system -/

/-- A client, the metadata state machine, and the time. -/
structure LeaseSystem where
  nowMs : Nat
  metadata : MetadataStateMachineData
  manager : LeaseManager
  /-- The client's requests, in the order it made them. -/
  sent : List LeaseRequest
  /-- The client's requests that were applied, in the order they were, with their answers. -/
  served : List (LeaseRequest × LeaseResponse)

inductive LeaseOp
  | tick (ms : Nat)
  /-- The client calls `acquire`, `renew` or `release`. -/
  | acquire
  | renew
  | release
  /-- The `i`-th request of the client is applied. -/
  | serve (i : Nat)
  /-- The `j`-th answer reaches the client. -/
  | answer (j : Nat)
  /-- A request of someone else is applied. -/
  | other (req : MetadataRequest)
  /-- A write asks `check_write_allowed`. -/
  | check

namespace LeaseSystem

/-- What someone else can ask for: a lease request comes from another session, and with clocks
that agree its stamp is not from the future.  The volume is not deleted. -/
def foreign (g : LeaseSystem) : MetadataRequest → Bool
  | .lease (.acquire _ sessionId nowMs _) => sessionId ≠ g.manager.sessionId ∧ nowMs ≤ g.nowMs
  | .lease (.renew _ sessionId nowMs _) => sessionId ≠ g.manager.sessionId ∧ nowMs ≤ g.nowMs
  | .lease (.release _ sessionId) => sessionId ≠ g.manager.sessionId
  | .cleanupExpiredLeases nowMs => nowMs ≤ g.nowMs
  | .deleteVolume volumeId => volumeId ≠ g.manager.volumeId
  | _ => true

def send (g : LeaseSystem) (req : LeaseRequest) : LeaseSystem := { g with sent := g.sent ++ [req] }

/-- The metadata state machine applies a request of the client; a panic answers nothing. -/
def serve (ovf : Overflow) (g : LeaseSystem) (req : LeaseRequest) : LeaseSystem :=
  let (metadata, resp) := g.metadata.applyLeaseRequest ovf req
  { g with metadata, served := g.served ++ (resp.map fun resp => (req, resp)).toList }

/-- One step; `check` has an answer. -/
def step (ovf : Overflow) (g : LeaseSystem) :
    LeaseOp → LeaseSystem × Option (Except Error LeaseVersion)
  | .tick ms => ({ g with nowMs := g.nowMs + ms }, none)
  | .acquire =>
    (g.send (.acquire g.manager.volumeId g.manager.sessionId g.nowMs g.manager.ttlMs), none)
  | .renew =>
    (g.send (.renew g.manager.volumeId g.manager.sessionId g.nowMs g.manager.ttlMs), none)
  | .release => (g.send (.release g.manager.volumeId g.manager.sessionId), none)
  | .serve i =>
    match g.sent[i]? with
    | some req => (g.serve ovf req, none)
    | none => (g, none)
  | .answer j =>
    match g.served[j]? with
    | some (req, resp) => ({ g with manager := g.manager.answered resp req }, none)
    | none => (g, none)
  | .other req =>
    if g.foreign req then ({ g with metadata := (g.metadata.applyRequest ovf req).1 }, none)
    else (g, none)
  | .check => (g, some g.manager.checkWriteAllowed)

/-- A client about to mount, when the metadata state machine has already applied `reqs`. -/
def start (ovf : Overflow) (reqs : List MetadataRequest) (nowMs : Nat) (volumeId : VolumeId)
    (sessionId : SessionId) (ttlMs : Nat) : LeaseSystem where
  nowMs := nowMs
  metadata := MetadataStateMachineData.after ovf reqs
  manager := .new volumeId sessionId ttlMs
  sent := []
  served := []

/-- The metadata state machine holds a lease of the volume for the client's session, and it has
not run out. -/
def HoldsLease (g : LeaseSystem) : Prop :=
  ∃ lease, g.metadata.leases[g.manager.volumeId]? = some lease ∧
    lease.isHeldBy g.manager.sessionId ∧ ¬ lease.isExpired g.nowMs

/-! ## 3. Promises

An answer that grants or renews promises the lease up to a time.  A promise STANDS while the
client's later requests have not taken it back. -/

end LeaseSystem

def promise : LeaseResponse → Option Nat
  | .granted _ expires | .renewed _ expires => some expires
  | .released | .denied _ => none

/-- An answer that leaves a promise for `expires` standing: a denial, or a promise for no less. -/
def leaves (expires : Nat) : LeaseResponse → Bool
  | .granted _ later | .renewed _ later => expires ≤ later
  | .denied _ => true
  | .released => false

/-- The lease was promised up to `expires`, and none of the client's requests that were applied
since has released it or shortened it. -/
def Standing (served : List (LeaseRequest × LeaseResponse)) (expires : Nat) : Prop :=
  ∃ earlier call later, served = earlier ++ call :: later ∧ promise call.2 = some expires ∧
    ∀ other ∈ later, leaves expires other.2 = true

theorem leaves_of_promise {resp : LeaseResponse} {expires later : Nat}
    (h : promise resp = some later) : leaves expires resp = true ↔ expires ≤ later := by
  cases resp <;> simp_all [promise, leaves]

theorem not_standing_nil (expires : Nat) : ¬ Standing [] expires := by
  rintro ⟨earlier, call, later, h, -, -⟩
  simp at h

/-- A promise that stands behind one more answer is its promise, or one it leaves standing. -/
theorem Standing.snoc {served : List (LeaseRequest × LeaseResponse)} {req : LeaseRequest}
    {resp : LeaseResponse} {expires : Nat} (h : Standing (served ++ [(req, resp)]) expires) :
    promise resp = some expires ∨ (Standing served expires ∧ leaves expires resp = true) := by
  obtain ⟨earlier, call, later, heq, hpromise, hlater⟩ := h
  rcases List.eq_nil_or_concat later with rfl | ⟨between, last, rfl⟩
  · obtain ⟨-, hcall⟩ := List.append_inj' heq rfl
    cases hcall
    exact Or.inl hpromise
  · rw [List.concat_eq_append, ← List.cons_append, ← List.append_assoc] at heq
    obtain ⟨rfl, hlast⟩ := List.append_inj' heq rfl
    cases hlast
    refine Or.inr ⟨⟨earlier, call, between, rfl, hpromise, ?_⟩, hlater (req, resp) (by simp)⟩
    intro other hother
    exact hlater other (by simp [hother])

namespace LeaseSystem

/-- **The invariant.**  The client's requests are its own; an active manager has recorded a
promise; and a promise that stands and has not run out is kept. -/
structure Kept (g : LeaseSystem) : Prop where
  tables : Raft.TablesMatch g.metadata
  own : ∀ req ∈ g.sent, Raft.leaseVolume req = g.manager.volumeId ∧
    Raft.leaseSession req = g.manager.sessionId
  recorded : g.manager.state = .active → g.manager.expiresAtMs ≠ none
  kept : ∀ expires, Standing g.served expires → g.nowMs < expires →
    ∃ lease, g.metadata.leases[g.manager.volumeId]? = some lease ∧
      lease.holder = g.manager.sessionId ∧ expires ≤ lease.expiresAtMs

section Keeping

variable {ovf : Overflow} {g : LeaseSystem} {req : LeaseRequest}

theorem grantOf_eq_some {req : MetadataRequest} {ans : Option MetadataResponse} {grant : Raft.Grant}
    (h : Raft.grantOf req ans = some grant) :
    ∃ lreq resp, req = .lease lreq ∧ ans = some (.lease resp) ∧
      grant.volumeId = Raft.leaseVolume lreq ∧ grant.sessionId = Raft.leaseSession lreq ∧
      promise resp = some grant.expiresAtMs := by
  unfold Raft.grantOf at h
  split at h
  · cases h
    exact ⟨_, _, rfl, rfl, rfl, rfl, rfl⟩
  · cases h
    exact ⟨_, _, rfl, rfl, rfl, rfl, rfl⟩
  · cases h

theorem leaseSession_of_foreign (h : g.foreign (.lease req) = true) :
    Raft.leaseSession req ≠ g.manager.sessionId := by
  cases req <;> simp_all [foreign, Raft.leaseSession]

/-- **Nobody else takes a running lease away.** -/
theorem lease_of_foreign (ht : Raft.TablesMatch g.metadata) {req : MetadataRequest}
    (hf : g.foreign req = true) {lease : VolumeLease}
    (hl : g.metadata.leases[g.manager.volumeId]? = some lease)
    (hholder : lease.holder = g.manager.sessionId) (hlive : g.nowMs < lease.expiresAtMs) :
    (g.metadata.applyRequest ovf req).1.leases[g.manager.volumeId]? = some lease := by
  rcases Raft.leases_step ovf ht req with ⟨grant, hg⟩ | hk
  · obtain ⟨lreq, resp, rfl, -, -, hsession, -⟩ := grantOf_eq_some hg.answered
    have hother : lease.holder ≠ grant.sessionId := by
      rw [hholder, hsession]
      exact (leaseSession_of_foreign hf).symm
    obtain ⟨l, hleases, -⟩ := hg.stored
    have hvol : grant.volumeId ≠ g.manager.volumeId := by
      -- a grant for this volume would have found the lease expired
      intro heq
      obtain ⟨now, ttl, hreq, hexpired⟩ := hg.free lease (by rw [heq, hl]) hother
      rw [hreq] at hf
      simp only [foreign, decide_eq_true_eq] at hf
      omega
    rw [hleases, getElem?_insert_of_ne _ hvol, hl]
  · rcases hk.ended _ lease hl with hsame | ⟨rfl, -⟩ | ⟨now, rfl, hexpired⟩ | ⟨rfl, -⟩
    · exact hsame
    · simp [foreign, hholder] at hf
    · simp only [foreign, decide_eq_true_eq] at hf
      omega
    · simp [foreign] at hf

/-- A request of the client's own that was not answered with a grant or a release leaves the lease
as it was. -/
theorem lease_of_denied {ans : Option MetadataResponse}
    (hans : ans = (g.metadata.applyRequest ovf (.lease req)).2)
    (hk : Raft.Keeps ovf g.metadata (.lease req)) (hnot : ans ≠ some (.lease .released))
    {lease : VolumeLease} (hl : g.metadata.leases[g.manager.volumeId]? = some lease) :
    (g.metadata.applyRequest ovf (.lease req)).1.leases[g.manager.volumeId]? = some lease := by
  rcases hk.ended _ lease hl with hsame | ⟨-, hreleased⟩ | ⟨now, hreq, -⟩ | ⟨hreq, -⟩
  · exact hsame
  · exact absurd (hans.trans hreleased) hnot
  · cases hreq
  · cases hreq

/-- The promises behind a request of the client's own. -/
theorem Kept.kept_serve (h : g.Kept) (hmem : req ∈ g.sent) {expires : Nat}
    (hstanding : Standing (g.serve ovf req).served expires) (hlive : g.nowMs < expires) :
    ∃ lease, (g.serve ovf req).metadata.leases[g.manager.volumeId]? = some lease ∧
      lease.holder = g.manager.sessionId ∧ expires ≤ lease.expiresAtMs := by
  obtain ⟨hvol, hsession⟩ := h.own req hmem
  have hans : (g.metadata.applyLeaseRequest ovf req).2.map .lease
      = (g.metadata.applyRequest ovf (.lease req)).2 := rfl
  have hmeta : (g.serve ovf req).metadata = (g.metadata.applyRequest ovf (.lease req)).1 := rfl
  have hserved : (g.serve ovf req).served = g.served
      ++ ((g.metadata.applyLeaseRequest ovf req).2.map fun resp => (req, resp)).toList := rfl
  rw [hserved] at hstanding
  rw [hmeta]
  generalize (g.metadata.applyLeaseRequest ovf req).2 = answer at hans hstanding
  rcases Raft.leases_step ovf h.tables (.lease req) with ⟨grant, hg⟩ | hk
  · -- the answer promises the lease that is now stored
    obtain ⟨lreq, resp, hreq, hresp, hgvol, hgsession, hpromise⟩ := grantOf_eq_some hg.answered
    cases hreq
    obtain ⟨lease, hleases, hholder, -, hexpires⟩ := hg.stored
    refine ⟨lease, ?_, by rw [hholder, hgsession, hsession], ?_⟩
    · rw [hleases, ← hvol, ← hgvol, ExtTreeMap.getElem?_insert_self]
    · rw [hexpires]
      rw [hresp] at hans
      obtain ⟨resp', rfl, hlease⟩ := Option.map_eq_some_iff.mp hans
      cases hlease
      rcases Standing.snoc hstanding with hnew | ⟨-, hleaves⟩
      · rw [hpromise] at hnew
        exact (Option.some.inj hnew).ge
      · exact (leaves_of_promise hpromise).mp hleaves
  · -- no grant: the promise is an older one
    have hold : Standing g.served expires ∧ answer ≠ some .released := by
      cases answer with
      | none => exact ⟨by simpa using hstanding, by simp⟩
      | some resp =>
        rcases Standing.snoc hstanding with hnew | ⟨hold, hleaves⟩
        · have hnone := hk.answered
          rw [← hans] at hnone
          cases resp <;> simp_all [promise, Raft.grantOf]
        · refine ⟨hold, ?_⟩
          rintro heq
          cases heq
          simp [leaves] at hleaves
    obtain ⟨lease, hl, hholder, hexpires⟩ := h.kept expires hold.1 hlive
    refine ⟨lease, lease_of_denied hans hk ?_ hl, hholder, hexpires⟩
    intro hreleased
    obtain ⟨resp, rfl, hresp⟩ := Option.map_eq_some_iff.mp hreleased
    cases hresp
    exact hold.2 rfl

theorem Kept.send (h : g.Kept) (hvol : Raft.leaseVolume req = g.manager.volumeId)
    (hsession : Raft.leaseSession req = g.manager.sessionId) : (g.send req).Kept where
  tables := h.tables
  own := by
    intro other hother
    rcases List.mem_append.mp hother with hmem | hmem
    · exact h.own other hmem
    · rw [List.mem_singleton.mp hmem]
      exact ⟨hvol, hsession⟩
  recorded := h.recorded
  kept := h.kept

/-- An answer changes nothing but the manager, and the manager stays who it is. -/
theorem Kept.answer (h : g.Kept) (req : LeaseRequest) (resp : LeaseResponse) :
    ({ g with manager := g.manager.answered resp req } : LeaseSystem).Kept := by
  have hvol : (g.manager.answered resp req).volumeId = g.manager.volumeId := by
    cases req <;> cases resp <;> rfl
  have hsession : (g.manager.answered resp req).sessionId = g.manager.sessionId := by
    cases req <;> cases resp <;> rfl
  refine ⟨h.tables, ?_, ?_, ?_⟩
  · dsimp only
    rw [hvol, hsession]
    exact h.own
  · have hrec := h.recorded
    cases req <;> cases resp <;>
      simp_all [LeaseManager.answered, LeaseManager.acquired, LeaseManager.renewed,
        LeaseManager.released, LeaseManager.markLost]
  · dsimp only
    rw [hvol, hsession]
    exact h.kept

/-- **One step keeps the promises.** -/
theorem Kept.step (h : g.Kept) (op : LeaseOp) : (step ovf g op).1.Kept := by
  cases op with
  | tick ms =>
    refine ⟨h.tables, h.own, h.recorded, ?_⟩
    intro expires hstanding hlive
    exact h.kept expires hstanding (Nat.lt_of_le_of_lt (Nat.le_add_right _ _) hlive)
  | acquire => exact h.send rfl rfl
  | renew => exact h.send rfl rfl
  | release => exact h.send rfl rfl
  | serve i =>
    rw [LeaseSystem.step]
    split
    · next req hi =>
      refine ⟨h.tables.applyRequest ovf (.lease req), h.own, h.recorded, ?_⟩
      intro expires hstanding hlive
      exact h.kept_serve (List.mem_of_getElem? hi) hstanding hlive
    · exact h
  | answer j =>
    rw [LeaseSystem.step]
    split
    · exact h.answer _ _
    · exact h
  | other req =>
    rw [LeaseSystem.step]
    split
    · next hforeign =>
      refine ⟨h.tables.applyRequest ovf req, h.own, h.recorded, ?_⟩
      intro expires hstanding hlive
      obtain ⟨lease, hl, hholder, hexpires⟩ := h.kept expires hstanding hlive
      have hrunning := Nat.lt_of_lt_of_le hlive hexpires
      exact ⟨lease, lease_of_foreign h.tables hforeign hl hholder hrunning, hholder, hexpires⟩
    · exact h
  | check => exact h

/-- **Every run keeps the promises.** -/
theorem kept_run (ovf : Overflow) (reqs : List MetadataRequest) (nowMs : Nat) (volumeId : VolumeId)
    (sessionId : SessionId) (ttlMs : Nat) (ops : List LeaseOp) :
    (Machine.runState (step ovf) (start ovf reqs nowMs volumeId sessionId ttlMs) ops).Kept := by
  refine Machine.runState_invariant ⟨Raft.tablesMatch_after ovf reqs, ?_, ?_, ?_⟩
    (fun _ op h => h.step op) ops
  · simp [start]
  · simp [start, LeaseManager.new]
  · intro expires hstanding
    exact absurd hstanding (not_standing_nil expires)

end Keeping

theorem active_of_checkWriteAllowed {m : LeaseManager} {version : LeaseVersion}
    (h : m.checkWriteAllowed = .ok version) : m.state = .active := by
  unfold LeaseManager.checkWriteAllowed at h
  split at h
  · assumption
  · cases h
  · cases h

/-- **A WRITE IS ALLOWED UNDER A LEASE -- before the recorded expiry.**  Whatever the client, the
other sessions and the network do: a write that the manager allows at a time before the
`expires_at_ms` it has recorded finds the session's lease in the metadata state machine, not run
out, unless a request of the client's own has released or shortened it since it was promised. -/
theorem write_allowed_holds_lease (ovf : Overflow) (reqs : List MetadataRequest) (nowMs : Nat)
    (volumeId : VolumeId) (sessionId : SessionId) (ttlMs : Nat) (ops : List LeaseOp)
    (g : LeaseSystem)
    (hg : g = Machine.runState (step ovf) (start ovf reqs nowMs volumeId sessionId ttlMs) ops)
    {version : LeaseVersion} (hok : (step ovf g .check).2 = some (.ok version))
    (hrecorded : ∀ expires, g.manager.expiresAtMs = some expires →
      g.nowMs < expires ∧ Standing g.served expires) : g.HoldsLease := by
  have hkept : g.Kept := by
    rw [hg]
    exact kept_run ovf reqs nowMs volumeId sessionId ttlMs ops
  have hactive := active_of_checkWriteAllowed (Option.some.inj hok)
  obtain ⟨expires, hexp⟩ := Option.ne_none_iff_exists'.mp (hkept.recorded hactive)
  obtain ⟨hlive, hstanding⟩ := hrecorded expires hexp
  obtain ⟨lease, hl, hholder, hexpires⟩ := hkept.kept expires hstanding hlive
  refine ⟨lease, hl, by simpa [VolumeLease.isHeldBy] using hholder, ?_⟩
  simp only [VolumeLease.isExpired, decide_eq_true_eq, ge_iff_le, Nat.not_le]
  exact Nat.lt_of_lt_of_le hlive hexpires

/-! ### A mount -/

/-- Session 1 mounts volume 7 with the lease time of `execute_mount_kernel`, 30 seconds. -/
def mounted (ops : List LeaseOp) : LeaseSystem :=
  Machine.runState (step .wrapping)
    (start .wrapping [.createVolume ⟨7#128⟩ 4096 (.replicated 1) 1] 1000 ⟨7#128⟩ ⟨1#128⟩ 30000) ops

/-- The client acquires and renews; the answer to the renewal is lost; another session asks for the
lease.  The client may write, and holds the lease. -/
def renewalUnanswered : List LeaseOp :=
  [.acquire, .serve 0, .answer 0, .tick 10000, .renew, .serve 1,
    .other (.lease (.acquire ⟨7#128⟩ ⟨2#128⟩ 11000 30000))]

theorem write_allowed_holds_lease_unanswered :
    (step .wrapping (mounted renewalUnanswered) .check).2 = some (.ok 1) ∧
      (mounted renewalUnanswered).HoldsLease := by
  have hok : (step .wrapping (mounted renewalUnanswered) .check).2 = some (.ok 1) := by rfl
  refine ⟨hok, write_allowed_holds_lease .wrapping _ _ _ _ _ renewalUnanswered _ rfl hok ?_⟩
  intro expires hexpires
  have hrecorded : (mounted renewalUnanswered).manager.expiresAtMs = some 31000 := by rfl
  have hserved : (mounted renewalUnanswered).served
      = [] ++ (.acquire ⟨7#128⟩ ⟨1#128⟩ 1000 30000, .granted 1 31000)
        :: [(.renew ⟨7#128⟩ ⟨1#128⟩ 11000 30000, .renewed 2 41000)] := by rfl
  obtain rfl : 31000 = expires := Option.some.inj (hrecorded.symm.trans hexpires)
  refine ⟨?_, [], _, _, hserved, rfl, ?_⟩
  · change 11000 < 31000
    decide
  · simp [leaves]

/-- The client acquires; its renewal is lost; the lease runs out and another session is granted
it. -/
def renewalLost : List LeaseOp :=
  [.acquire, .serve 0, .answer 0, .tick 10000, .renew, .tick 20000,
    .other (.lease (.acquire ⟨7#128⟩ ⟨2#128⟩ 31000 30000))]

/-- **The client that lost its lease may still write**, while another session holds it. -/
theorem write_allowed_without_lease :
    (step .wrapping (mounted renewalLost) .check).2 = some (.ok 1) ∧
      (mounted renewalLost).metadata.leases[(⟨7#128⟩ : VolumeId)]?
        = some ⟨⟨7#128⟩, ⟨2#128⟩, 31000, 61000, 2⟩ ∧
      ¬ (mounted renewalLost).HoldsLease := by
  have hlease : (mounted renewalLost).metadata.leases[(⟨7#128⟩ : VolumeId)]?
      = some ⟨⟨7#128⟩, ⟨2#128⟩, 31000, 61000, 2⟩ := by decide
  refine ⟨by rfl, hlease, ?_⟩
  rintro ⟨lease, hl, hheld, -⟩
  have hvol : (mounted renewalLost).manager.volumeId = ⟨7#128⟩ := by rfl
  have hsession : (mounted renewalLost).manager.sessionId = ⟨1#128⟩ := by rfl
  rw [hvol, hlease] at hl
  cases hl
  rw [hsession] at hheld
  revert hheld
  decide

end LeaseSystem

end Blockyard.Ublk
