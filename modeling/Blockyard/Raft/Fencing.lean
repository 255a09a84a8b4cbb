/-
# Lease fencing

The metadata state machine numbers leases from ONE counter, over all volumes.  This module
proves what a data node relies on when it rejects a writer by version:

* the versions answered along a run are strictly increasing, across volumes and across
  deletion and re-creation of a volume;
* once a version has been answered for a volume, no smaller version validates there again;
* a session is granted a lease that another session holds only after that lease ended -- by
  release, cleanup or deletion of the volume -- or once it has expired.

Nothing is assumed about the clock: every `now_ms` is the caller's and may run backwards.  The
one assumption is that fewer than `2^64` leases are granted.  A build that wraps then never
wraps (`Fenced.counted`), and a build with overflow checks never reuses a version in any case.

§2 says once what a single request can do to the leases (`leases_step`); the three results are
an invariant over the history of grants (§3) and a walk from one grant to the next (§4).
-/
import Blockyard.Raft.Commit

open Std

namespace Blockyard.Raft

open MetadataStateMachineData

/-! ## 1. Grants along a run -/

variable {ovf : Overflow} {s : MetadataStateMachineData} {r : MetadataRequest} {v : VolumeId}
  {sess : SessionId} {now ttl : Nat}

/-- A lease answered with `Granted` or `Renewed`. -/
structure Grant where
  volumeId : VolumeId
  sessionId : SessionId
  leaseVersion : LeaseVersion
  expiresAtMs : Nat
  deriving DecidableEq, Repr

def leaseVolume : LeaseRequest → VolumeId
  | .acquire v _ _ _ | .renew v _ _ _ | .release v _ => v

def leaseSession : LeaseRequest → SessionId
  | .acquire _ s _ _ | .renew _ s _ _ | .release _ s => s

/-- The grant a request and its answer make, if they make one. -/
def grantOf : MetadataRequest → Option MetadataResponse → Option Grant
  | .lease req, some (.lease (.granted version expires)) =>
    some ⟨leaseVolume req, leaseSession req, version, expires⟩
  | .lease req, some (.lease (.renewed version expires)) =>
    some ⟨leaseVolume req, leaseSession req, version, expires⟩
  | _, _ => none

def grantsIn (ovf : Overflow) (s : MetadataStateMachineData) : List MetadataRequest → List Grant
  | [] => []
  | r :: rs =>
    (grantOf r (s.applyRequest ovf r).2).toList ++ grantsIn ovf (s.applyRequest ovf r).1 rs

theorem grantsIn_append (ovf : Overflow) (s : MetadataStateMachineData)
    (rs rs' : List MetadataRequest) :
    grantsIn ovf s (rs ++ rs')
      = grantsIn ovf s rs ++ grantsIn ovf (Machine.runState (applyRequest ovf) s rs) rs' := by
  induction rs generalizing s with
  | nil => rfl
  | cons r rs ih => simp only [List.cons_append, grantsIn, ih, Machine.runState_cons,
      List.append_assoc]

/-! ## 2. What one request does to the leases -/

/-- The ways a lease goes away without a new one taking its place: its holder releases it, a
cleanup finds it expired, its volume is deleted. -/
def Ends (r : MetadataRequest) (ans : Option MetadataResponse) (v : VolumeId)
    (holder : SessionId) (expiresAtMs : Nat) : Prop :=
  (r = .lease (.release v holder) ∧ ans = some (.lease .released)) ∨
    (∃ now, r = .cleanupExpiredLeases now ∧ expiresAtMs ≤ now) ∨
    (r = .deleteVolume v ∧ ans = some .ok)

/-- The request answers a grant `g`: the counter moves to its version, its lease is stored,
and a lease of ANOTHER session stood in the way only if it had expired. -/
structure Grants (ovf : Overflow) (s : MetadataStateMachineData) (r : MetadataRequest)
    (g : Grant) : Prop where
  answered : grantOf r (s.applyRequest ovf r).2 = some g
  bumped : addU64 ovf s.leaseVersionCounter 1 = some g.leaseVersion
  counter : (s.applyRequest ovf r).1.leaseVersionCounter = g.leaseVersion
  stored : ∃ l, (s.applyRequest ovf r).1.leases = s.leases.insert g.volumeId l ∧
    l.holder = g.sessionId ∧ l.leaseVersion = g.leaseVersion ∧ l.expiresAtMs = g.expiresAtMs
  free : ∀ l, s.leases[g.volumeId]? = some l → l.holder ≠ g.sessionId →
    ∃ now ttl, r = .lease (.acquire g.volumeId g.sessionId now ttl) ∧ l.expiresAtMs ≤ now

/-- The request answers no grant: no lease appears or changes, and one that goes away ends for
one of the three reasons.  The counter can still move, by a panic after the bump. -/
structure Keeps (ovf : Overflow) (s : MetadataStateMachineData) (r : MetadataRequest) :
    Prop where
  answered : grantOf r (s.applyRequest ovf r).2 = none
  counter : (s.applyRequest ovf r).1.leaseVersionCounter = s.leaseVersionCounter ∨
    (ovf = .checked ∧
      (s.applyRequest ovf r).1.leaseVersionCounter = s.leaseVersionCounter + 1)
  older : ∀ (v : VolumeId) l, (s.applyRequest ovf r).1.leases[v]? = some l → s.leases[v]? = some l
  ended : ∀ (v : VolumeId) l, s.leases[v]? = some l → (s.applyRequest ovf r).1.leases[v]? = some l ∨
    Ends r (s.applyRequest ovf r).2 v l.holder l.expiresAtMs

/-- Leases and counter untouched, no grant answered. -/
theorem Keeps.of_same (hans : grantOf r (s.applyRequest ovf r).2 = none)
    (hl : (s.applyRequest ovf r).1.leases = s.leases)
    (hc : (s.applyRequest ovf r).1.leaseVersionCounter = s.leaseVersionCounter) :
    Keeps ovf s r :=
  ⟨hans, Or.inl hc, fun v l h => by rwa [hl] at h, fun v l h => Or.inl (by rwa [hl])⟩

theorem Keeps.of_unchanged {resp : Option MetadataResponse} (heq : s.applyRequest ovf r = (s, resp))
    (hans : grantOf r resp = none) : Keeps ovf s r := by
  refine Keeps.of_same ?_ ?_ ?_
  · rw [heq]
    exact hans
  · rw [heq]
  · rw [heq]

/-- With room left the counter really moves up by one. -/
theorem addU64_one {n v : Nat} (h : addU64 ovf n 1 = some v)
    (hroom : ovf = .wrapping → n + 1 < 2 ^ 64) : v = n + 1 := by
  unfold addU64 at h
  split at h
  · cases h
    rfl
  · rename_i hge
    cases ovf with
    | wrapping => exact absurd (hroom rfl) hge
    | checked => cases h

/-- A build with overflow checks that panics on the expiry has bumped the counter by one. -/
theorem Keeps.of_panic {version now ttl : Nat}
    (hb : addU64 ovf s.leaseVersionCounter 1 = some version) (he : addU64 ovf now ttl = none)
    (heq : s.applyRequest ovf r = ({ s with leaseVersionCounter := version }, none)) :
    Keeps ovf s r := by
  cases ovf with
  | wrapping =>
    unfold addU64 at he
    split at he <;> cases he
  | checked =>
    have hv : version = s.leaseVersionCounter + 1 := addU64_one hb (by simp)
    refine ⟨?_, Or.inr ⟨rfl, ?_⟩, ?_, ?_⟩
    · rw [heq]
      cases r <;> rfl
    · rw [heq]
      exact hv
    · intro v l h
      rwa [heq] at h
    · intro v l h
      exact Or.inl (by rwa [heq])

/-- Erasing the lease of `v`, for one of the reasons in `Ends`. -/
theorem Keeps.of_erase (hans : grantOf r (s.applyRequest ovf r).2 = none)
    (hl : (s.applyRequest ovf r).1.leases = s.leases.erase v)
    (hc : (s.applyRequest ovf r).1.leaseVersionCounter = s.leaseVersionCounter)
    (hends : ∀ l, s.leases[v]? = some l →
      Ends r (s.applyRequest ovf r).2 v l.holder l.expiresAtMs) : Keeps ovf s r := by
  have hget : ∀ w : VolumeId, (s.applyRequest ovf r).1.leases[w]?
      = if v = w then none else s.leases[w]? := by
    intro w
    rw [hl, ExtTreeMap.getElem?_erase]
    simp only [LawfulEqOrd.compare_eq_iff_eq]
  refine ⟨hans, Or.inl hc, ?_, ?_⟩
  · intro w l h
    rw [hget] at h
    split at h
    · cases h
    · exact h
  · intro w l h
    by_cases hw : v = w
    · subst hw
      exact Or.inr (hends l h)
    · exact Or.inl (by rw [hget, if_neg hw, h])

/-- The state a lease request is turned down in. -/
def TurnedDown (s : MetadataStateMachineData) : LeaseRequest → Prop
  | .acquire v sess now _ => v ∉ s.volumes ∨
      ∃ l, s.leases[v]? = some l ∧ now < l.expiresAtMs ∧ l.holder ≠ sess
  | .renew v sess now _ => ∀ l, s.leases[v]? = some l → l.holder ≠ sess ∨ l.expiresAtMs ≤ now
  | .release v sess => ∃ l, s.leases[v]? = some l ∧ l.holder ≠ sess

/-- **The outcomes of a session's request for a lease of `v` from `now` for `ttl`** that is not
turned down: the counter overflows, the expiry overflows after the counter was bumped, or a
lease is stored. -/
inductive Extends (ovf : Overflow) (s : MetadataStateMachineData) (v : VolumeId)
    (sess : SessionId) (now ttl : Nat) : MetadataStateMachineData × Option LeaseResponse → Prop
  | counter (hc : addU64 ovf s.leaseVersionCounter 1 = none) :
      Extends ovf s v sess now ttl (s, none)
  | expiry {version : Nat} (hc : addU64 ovf s.leaseVersionCounter 1 = some version)
      (he : addU64 ovf now ttl = none) :
      Extends ovf s v sess now ttl ({ s with leaseVersionCounter := version }, none)
  | stored {version expires : Nat} {l : VolumeLease} {resp : LeaseResponse}
      (hc : addU64 ovf s.leaseVersionCounter 1 = some version)
      (he : addU64 ovf now ttl = some expires)
      (hl : l.expiresAtMs = expires ∧ l.holder = sess ∧ l.leaseVersion = version)
      (hv : v ∈ s.volumes ∧ l.volumeId = v ∨
        ∃ old, s.leases[v]? = some old ∧ l.volumeId = old.volumeId)
      (hresp : resp = .granted version expires ∨ resp = .renewed version expires) :
      Extends ovf s v sess now ttl
        ({ s with leaseVersionCounter := version, leases := s.leases.insert v l }, some resp)

variable (ovf)

theorem acquireLease_of_turnedDown (h : TurnedDown s (.acquire v sess now ttl)) :
    ∃ msg, s.acquireLease ovf v sess now ttl = (s, some (.denied msg)) := by
  unfold acquireLease
  by_cases hv : v ∈ s.volumes
  · obtain ⟨l, hl, hlive, hother⟩ := h.resolve_left fun hnot => hnot hv
    have hfilter : s.leases[v]?.filter (fun l => !l.isExpired now && !l.isHeldBy sess)
        = some l := by
      simp [hl, VolumeLease.isExpired, VolumeLease.isHeldBy, hlive, hother]
    rw [if_neg (by simpa using hv), hfilter]
    exact ⟨_, rfl⟩
  · rw [if_pos (by simpa using hv)]
    exact ⟨_, rfl⟩

theorem acquireLease_extends (h : ¬ TurnedDown s (.acquire v sess now ttl)) :
    Extends ovf s v sess now ttl (s.acquireLease ovf v sess now ttl) := by
  simp only [TurnedDown, not_or, not_not] at h
  obtain ⟨hv, hfree⟩ := h
  have hfilter : s.leases[v]?.filter (fun l => !l.isExpired now && !l.isHeldBy sess) = none := by
    rw [Option.filter_eq_none_iff]
    intro l hl hblock
    simp only [VolumeLease.isExpired, VolumeLease.isHeldBy, Bool.and_eq_true, Bool.not_eq_true',
      decide_eq_false_iff_not, Nat.not_le] at hblock
    exact hfree ⟨l, hl, hblock⟩
  unfold acquireLease
  rw [if_neg (by simpa using hv), hfilter]
  cases hc : addU64 ovf s.leaseVersionCounter 1 with
  | none => exact .counter hc
  | some version =>
    cases he : addU64 ovf now ttl with
    | none => exact .expiry hc he
    | some expires => exact .stored hc he ⟨rfl, rfl, rfl⟩ (Or.inl ⟨hv, rfl⟩) (Or.inl rfl)

theorem renewLease_of_turnedDown (h : TurnedDown s (.renew v sess now ttl)) :
    ∃ msg, s.renewLease ovf v sess now ttl = (s, some (.denied msg)) := by
  unfold renewLease
  cases hl : s.leases[v]? with
  | none => exact ⟨_, rfl⟩
  | some l =>
    by_cases hheld : l.holder = sess
    · have hexp : l.expiresAtMs ≤ now := (h l hl).resolve_left fun hne => hne hheld
      simp [VolumeLease.isHeldBy, VolumeLease.isExpired, hheld, hexp]
    · simp [VolumeLease.isHeldBy, hheld]

theorem renewLease_extends (h : ¬ TurnedDown s (.renew v sess now ttl)) :
    Extends ovf s v sess now ttl (s.renewLease ovf v sess now ttl) := by
  simp only [TurnedDown, not_forall, not_or, not_not, Nat.not_le] at h
  obtain ⟨l, hl, hheld, hlive⟩ := h
  unfold renewLease
  simp only [hl, VolumeLease.isHeldBy, VolumeLease.isExpired, hheld, decide_true, not_true,
    if_false, ge_iff_le, Nat.not_le.mpr hlive, decide_false, Bool.false_eq_true]
  cases hc : addU64 ovf s.leaseVersionCounter 1 with
  | none => exact .counter hc
  | some version =>
    cases he : addU64 ovf now ttl with
    | none => exact .expiry hc he
    | some expires => exact .stored hc he ⟨rfl, rfl, rfl⟩ (Or.inr ⟨l, hl, rfl⟩) (Or.inr rfl)

variable (s)

/-- **`Acquire` and `Renew`** are turned down, or have one of the three outcomes. -/
theorem timed_cases {req : LeaseRequest}
    (hreq : req = .acquire v sess now ttl ∨ req = .renew v sess now ttl) :
    TurnedDown s req ∧ (∃ msg, s.applyLeaseRequest ovf req = (s, some (.denied msg))) ∨
      ¬ TurnedDown s req ∧ Extends ovf s v sess now ttl (s.applyLeaseRequest ovf req) := by
  by_cases hdown : TurnedDown s req
  · refine Or.inl ⟨hdown, ?_⟩
    rcases hreq with rfl | rfl
    · exact acquireLease_of_turnedDown ovf hdown
    · exact renewLease_of_turnedDown ovf hdown
  · refine Or.inr ⟨hdown, ?_⟩
    rcases hreq with rfl | rfl
    · exact acquireLease_extends ovf hdown
    · exact renewLease_extends ovf hdown

theorem timed_step {req : LeaseRequest}
    (hreq : req = .acquire v sess now ttl ∨ req = .renew v sess now ttl) :
    (∃ g, Grants ovf s (.lease req) g) ∨ Keeps ovf s (.lease req) := by
  have happly : s.applyRequest ovf (.lease req)
      = ((s.applyLeaseRequest ovf req).1, (s.applyLeaseRequest ovf req).2.map .lease) := rfl
  rcases timed_cases ovf s hreq with ⟨-, msg, heq⟩ | ⟨hup, hext⟩
  · rw [heq] at happly
    exact Or.inr (Keeps.of_unchanged happly rfl)
  · generalize s.applyLeaseRequest ovf req = out at happly hext
    cases hext with
    | counter hc => exact Or.inr (Keeps.of_unchanged happly rfl)
    | expiry hc he => exact Or.inr (Keeps.of_panic hc he happly)
    | @stored version expires l resp hc he hl hv hresp =>
      refine Or.inl ⟨⟨v, sess, version, expires⟩, ⟨?_, hc, by rw [happly], ?_, ?_⟩⟩
      · rw [happly]
        rcases hreq with rfl | rfl <;> rcases hresp with rfl | rfl <;> rfl
      · exact ⟨l, by rw [happly], hl.2.1, hl.2.2, hl.1⟩
      · intro old hold hne
        rcases hreq with rfl | rfl
        · -- a live lease of another session would have been in the way
          refine ⟨now, ttl, rfl, Nat.not_lt.mp fun hlive => hup (Or.inr ⟨old, hold, hlive, hne⟩)⟩
        · -- a renewal only ever replaces the session's own lease
          refine absurd (fun l' hl' => Or.inl ?_) hup
          rw [hold] at hl'
          cases hl'
          exact hne

theorem release_step (v : VolumeId) (sess : SessionId) :
    Keeps ovf s (.lease (.release v sess)) := by
  have hreq : s.applyRequest ovf (.lease (.release v sess))
      = ((s.releaseLease v sess).1, (s.releaseLease v sess).2.map .lease) := rfl
  unfold releaseLease at hreq
  split at hreq
  · rename_i existing hex
    split at hreq
    · rename_i hheld
      have hholder : existing.holder = sess := by simpa [VolumeLease.isHeldBy] using hheld
      refine Keeps.of_erase (by rw [hreq]; rfl) (by rw [hreq]) (by rw [hreq]) fun l hl => ?_
      rw [hex] at hl
      cases hl
      exact Or.inl ⟨by rw [hholder], by rw [hreq]; rfl⟩
    · exact Keeps.of_unchanged hreq rfl
  · exact Keeps.of_unchanged hreq rfl

theorem cleanup_step (now : Nat) : Keeps ovf s (.cleanupExpiredLeases now) := by
  have hget : ∀ v : VolumeId, (s.applyRequest ovf (.cleanupExpiredLeases now)).1.leases[v]?
      = s.leases[v]?.filter fun l => !l.isExpired now := by
    intro v
    exact ExtTreeMap.getElem?_filter'
  refine ⟨rfl, Or.inl rfl, ?_, ?_⟩
  · intro v l h
    rw [hget] at h
    exact (Option.filter_eq_some_iff.mp h).1
  · intro v l h
    rw [hget, h]
    by_cases hexp : l.isExpired now
    · exact Or.inr (Or.inr (Or.inl ⟨now, rfl, by simpa [VolumeLease.isExpired] using hexp⟩))
    · exact Or.inl (by simp [Option.filter, hexp])

theorem commitAll_leases (es : List ExtentMappingEntry) :
    (commitAll s es).leases = s.leases ∧
      (commitAll s es).leaseVersionCounter = s.leaseVersionCounter := by
  induction es generalizing s with
  | nil => exact ⟨rfl, rfl⟩
  | cons e es ih => exact ih (commitState s e)

variable {s}

/-- **What one request does to the leases**: it answers a grant, or it keeps them. -/
theorem leases_step (ht : TablesMatch s) (r : MetadataRequest) :
    (∃ g, Grants ovf s r g) ∨ Keeps ovf s r := by
  have hsame : ∀ r' : MetadataRequest, (∀ req, r' ≠ .lease req) →
      (s.applyRequest ovf r').1.leases = s.leases →
      (s.applyRequest ovf r').1.leaseVersionCounter = s.leaseVersionCounter →
      (∃ g, Grants ovf s r' g) ∨ Keeps ovf s r' := by
    intro r' hr' hl hc
    refine Or.inr (Keeps.of_same ?_ hl hc)
    cases r' with
    | lease req => exact absurd rfl (hr' req)
    | _ => rfl
  cases r with
  | lease req =>
    cases req with
    | acquire v sess now ttl => exact timed_step ovf s (Or.inl rfl)
    | renew v sess now ttl => exact timed_step ovf s (Or.inr rfl)
    | release v sess => exact Or.inr (release_step ovf s v sess)
  | cleanupExpiredLeases now => exact Or.inr (cleanup_step ovf s now)
  | deleteVolume v =>
    rcases deleteVolume_cases ht v with ⟨-, msg, heq⟩ | ⟨vm, -, -, heq⟩
    · have heq' : s.applyRequest ovf (.deleteVolume v) = (s, some (.error msg)) := heq
      exact hsame _ (by simp) (by rw [heq']) (by rw [heq'])
    · exact Or.inr (Keeps.of_erase rfl (congrArg (·.1.leases) heq)
        (congrArg (·.1.leaseVersionCounter) heq)
        fun l _ => Or.inr (Or.inr ⟨rfl, congrArg Prod.snd heq⟩))
  | commitExtentMapping e =>
    have hst : (s.applyRequest ovf (.commitExtentMapping e)).1 = _ := commit_fst ht e
    exact hsame _ (by simp) (by rw [hst, (commitAll_leases _ _).1])
      (by rw [hst, (commitAll_leases _ _).2])
  | commitExtentMappingBatch es =>
    have hst : (s.applyRequest ovf (.commitExtentMappingBatch es)).1 = _ := (batch_eq ht es).1
    exact hsame _ (by simp) (by rw [hst, (commitAll_leases _ _).1])
      (by rw [hst, (commitAll_leases _ _).2])
  | createVolume v size protection extentSize =>
    rcases createVolume_cases s v size protection extentSize with ⟨msg, heq⟩ | ⟨md, -, heq⟩ <;>
      exact hsame _ (by simp) (congrArg (·.1.leases) heq)
        (congrArg (·.1.leaseVersionCounter) heq)
  | registerNode n addr =>
    refine hsame _ (by simp) ?_ ?_ <;>
      (simp only [applyRequest, registerNode]; repeat' split) <;> rfl
  | removeNode | updateDiskUsage | deregisterDisk =>
    refine hsame _ (by simp) ?_ ?_ <;> (simp only [applyRequest]; split <;> rfl)
  | addNode | advanceEpoch | updatePlacementMap | registerDisk =>
    exact hsame _ (by simp) rfl rfl

/-! ## 3. The history invariant -/

/-- **The invariant.**  `gs` are the grants so far: their versions are strictly increasing and
never above the counter, a stored lease is at least as new as every grant for its volume, and
a wrapping counter has counted the grants. -/
structure Fenced (ovf : Overflow) (gs : List Grant) (s : MetadataStateMachineData) : Prop where
  sorted : gs.Pairwise fun g g' => g.leaseVersion < g'.leaseVersion
  below : ∀ g ∈ gs, g.leaseVersion ≤ s.leaseVersionCounter
  live : ∀ (v : VolumeId) l, s.leases[v]? = some l → ∀ g ∈ gs, g.volumeId = v →
    g.leaseVersion ≤ l.leaseVersion
  counted : ovf = .wrapping → s.leaseVersionCounter = gs.length

theorem fenced_new : Fenced ovf [] .new :=
  ⟨List.Pairwise.nil, by simp, by simp, fun _ => rfl⟩

variable {ovf} {gs : List Grant}

/-- **One request keeps the invariant.** -/
theorem Fenced.step (ht : TablesMatch s) (h : Fenced ovf gs s)
    (hfew : (gs ++ (grantOf r (s.applyRequest ovf r).2).toList).length < 2 ^ 64) :
    Fenced ovf (gs ++ (grantOf r (s.applyRequest ovf r).2).toList) (s.applyRequest ovf r).1 := by
  rcases leases_step ovf ht r with ⟨g, hg⟩ | hk
  · rw [hg.answered] at hfew ⊢
    simp only [Option.toList_some, List.length_append, List.length_cons, List.length_nil] at hfew
    have hver : g.leaseVersion = s.leaseVersionCounter + 1 := by
      refine addU64_one hg.bumped fun hw => ?_
      rw [h.counted hw]
      exact hfew
    obtain ⟨l, hl, -, hlv, -⟩ := hg.stored
    have hbelow : ∀ a ∈ gs ++ [g], a.leaseVersion ≤ s.leaseVersionCounter + 1 := by
      intro a ha
      rcases List.mem_append.mp ha with ha | ha
      · exact Nat.le_succ_of_le (h.below a ha)
      · rw [List.mem_singleton.mp ha, hver]
    refine ⟨?_, ?_, ?_, ?_⟩
    · rw [Option.toList_some, List.pairwise_append]
      refine ⟨h.sorted, List.pairwise_singleton _ _, ?_⟩
      intro a ha b hb
      rw [List.mem_singleton.mp hb, hver]
      exact Nat.lt_succ_of_le (h.below a ha)
    · intro a ha
      rw [hg.counter, hver]
      exact hbelow a ha
    · intro v l' hl' a ha hav
      rw [hl, ExtTreeMap.getElem?_insert] at hl'
      split at hl'
      · -- the new lease carries the newest version of all
        cases hl'
        rw [hlv, hver]
        exact hbelow a ha
      · rename_i hne
        rcases List.mem_append.mp ha with ha | ha
        · exact h.live v l' hl' a ha hav
        · rw [List.mem_singleton.mp ha] at hav
          exact absurd (LawfulEqOrd.compare_eq_iff_eq.mpr hav) hne
    · intro hw
      rw [hg.counter, hver, h.counted hw]
      simp
  · rw [hk.answered, Option.toList_none, List.append_nil]
    refine ⟨h.sorted, ?_, fun v l hl => h.live v l (hk.older v l hl), ?_⟩
    · intro g hg
      rcases hk.counter with hc | ⟨-, hc⟩
      · rw [hc]
        exact h.below g hg
      · rw [hc]
        exact Nat.le_succ_of_le (h.below g hg)
    · intro hw
      rcases hk.counter with hc | ⟨hchk, -⟩
      · rw [hc, h.counted hw]
      · rw [hw] at hchk
        cases hchk

/-- **Every run keeps the invariant**, as long as fewer than `2^64` leases are granted. -/
theorem fenced_after (ovf : Overflow) {reqs : List MetadataRequest}
    (hfew : (grantsIn ovf .new reqs).length < 2 ^ 64) :
    Fenced ovf (grantsIn ovf .new reqs) (after ovf reqs) := by
  refine Machine.runState_history
    (P := fun pre s => (grantsIn ovf .new pre).length < 2 ^ 64 →
      Fenced ovf (grantsIn ovf .new pre) s) (fun _ => fenced_new ovf) ?_ hfew
  intro pre r post _ ih hlen
  rw [grantsIn_append, grantsIn, grantsIn, List.append_nil] at hlen ⊢
  refine (ih ?_).step (tablesMatch_after ovf pre) hlen
  rw [List.length_append] at hlen
  omega

/-- A version below one that was granted for the volume does not validate. -/
theorem Fenced.validateLease_stale (h : Fenced ovf gs s) {g : Grant} (hg : g ∈ gs)
    {version : LeaseVersion} (hlt : version < g.leaseVersion) (sess : SessionId) (now : Nat) :
    ∃ msg, s.validateLease g.volumeId sess version now = .error msg := by
  unfold validateLease
  split
  · exact ⟨_, rfl⟩
  · rename_i l hl
    have hle := h.live _ l hl g hg rfl
    rw [if_pos (Nat.ne_of_gt (Nat.lt_of_lt_of_le hlt hle))]
    split
    · exact ⟨_, rfl⟩
    · split <;> exact ⟨_, rfl⟩

/-! ## 4. From one holder to the next -/

/-- Without a grant for its volume a lease stays, or it has ended on the way. -/
theorem lease_stays_or_ends (ht : TablesMatch s) {l : VolumeLease}
    (hl : s.leases[v]? = some l) {mid : List MetadataRequest}
    (hmid : ∀ g ∈ grantsIn ovf s mid, g.volumeId ≠ v) :
    (Machine.runState (applyRequest ovf) s mid).leases[v]? = some l ∨
      ∃ m₁ r m₂, mid = m₁ ++ r :: m₂ ∧
        Ends r ((Machine.runState (applyRequest ovf) s m₁).applyRequest ovf r).2 v
          l.holder l.expiresAtMs := by
  induction mid generalizing s with
  | nil => exact Or.inl hl
  | cons r mid ih =>
    have hhead : (s.applyRequest ovf r).1.leases[v]? = some l ∨
        Ends r (s.applyRequest ovf r).2 v l.holder l.expiresAtMs := by
      rcases leases_step ovf ht r with ⟨g, hg⟩ | hk
      · have hgv : g.volumeId ≠ v := by
          refine hmid g ?_
          rw [grantsIn, hg.answered]
          exact List.mem_cons_self
        obtain ⟨l', hl', -⟩ := hg.stored
        rw [hl', ExtTreeMap.getElem?_insert,
          if_neg fun hc => hgv (LawfulEqOrd.compare_eq_iff_eq.mp hc)]
        exact Or.inl hl
      · exact hk.ended v l hl
    rcases hhead with hstay | hend
    · rcases ih (ht.applyRequest ovf r) hstay
          (fun g hg => hmid g (List.mem_append_right _ hg)) with h | ⟨m₁, r', m₂, heq, hends⟩
      · exact Or.inl h
      · exact Or.inr ⟨r :: m₁, r', m₂, by rw [heq]; rfl, hends⟩
    · exact Or.inr ⟨[], r, mid, rfl, hend⟩

/-- A grant that is answered is what `leases_step` says of one. -/
theorem Grants.of_answered (ht : TablesMatch s) {g : Grant}
    (h : grantOf r (s.applyRequest ovf r).2 = some g) : Grants ovf s r g := by
  rcases leases_step ovf ht r with ⟨g', hg'⟩ | hk
  · rw [hg'.answered] at h
    cases h
    exact hg'
  · rw [hk.answered] at h
    cases h

/-! ## 5. Fencing -/

/-- **What fencing promises** about one run. -/
structure Fencing (ovf : Overflow) (reqs : List MetadataRequest) : Prop where
  /-- The versions answered by `Granted` and `Renewed` are strictly increasing. -/
  increasing : (grantsIn ovf .new reqs).Pairwise fun g g' => g.leaseVersion < g'.leaseVersion
  /-- Once a version has been answered for a volume, no smaller one validates there. -/
  stale : ∀ pre post, reqs = pre ++ post → ∀ g ∈ grantsIn ovf .new pre,
    ∀ version < g.leaseVersion, ∀ sess now,
      ∃ msg, (after ovf reqs).validateLease g.volumeId sess version now = .error msg
  /-- Between two consecutive grants for a volume to different sessions the first lease ended,
  or it had expired at the clock of the second one's `Acquire`. -/
  handover : ∀ pre r₁ mid r₂ post g₁ g₂, reqs = pre ++ r₁ :: mid ++ r₂ :: post →
    grantOf r₁ ((after ovf pre).applyRequest ovf r₁).2 = some g₁ →
    (∀ g ∈ grantsIn ovf (after ovf (pre ++ [r₁])) mid, g.volumeId ≠ g₁.volumeId) →
    grantOf r₂ ((after ovf (pre ++ r₁ :: mid)).applyRequest ovf r₂).2 = some g₂ →
    g₂.volumeId = g₁.volumeId → g₂.sessionId ≠ g₁.sessionId →
      (∃ now ttl, r₂ = .lease (.acquire g₂.volumeId g₂.sessionId now ttl) ∧
          g₁.expiresAtMs ≤ now) ∨
        ∃ m₁ r m₂, mid = m₁ ++ r :: m₂ ∧
          Ends r ((after ovf (pre ++ r₁ :: m₁)).applyRequest ovf r).2 g₁.volumeId
            g₁.sessionId g₁.expiresAtMs

/-- **Lease fencing**, for every run with fewer than `2^64` grants and both ways a build can
treat overflow. -/
theorem lease_fencing (ovf : Overflow) (reqs : List MetadataRequest)
    (hfew : (grantsIn ovf .new reqs).length < 2 ^ 64) : Fencing ovf reqs where
  increasing := (fenced_after ovf hfew).sorted
  stale := by
    rintro pre post rfl g hg version hlt sess now
    refine (fenced_after ovf hfew).validateLease_stale ?_ hlt sess now
    rw [grantsIn_append]
    exact List.mem_append_left _ hg
  handover := by
    rintro pre r₁ mid r₂ post g₁ g₂ - h₁ hmid h₂ hvol hother
    rw [after_snoc] at hmid
    rw [after_append_cons] at h₂
    simp only [after_append_cons]
    have ht := tablesMatch_after ovf pre
    obtain ⟨l, hl, hholder, -, hexp⟩ := (Grants.of_answered ht h₁).stored
    have hstart : ((after ovf pre).applyRequest ovf r₁).1.leases[g₁.volumeId]? = some l := by
      rw [hl, ExtTreeMap.getElem?_insert_self]
    rcases lease_stays_or_ends (ht.applyRequest ovf r₁) hstart hmid with hstay | hends
    · -- the lease still stands, so only an `Acquire` past its expiry is granted another one
      have ht₂ := tablesMatch_after ovf (pre ++ r₁ :: mid)
      rw [after_append_cons] at ht₂
      obtain ⟨now, ttl, hreq, hle⟩ := (Grants.of_answered ht₂ h₂).free l (by rw [hvol]; exact hstay)
        (by rw [hholder]; exact hother.symm)
      exact Or.inl ⟨now, ttl, hreq, by rw [← hexp]; exact hle⟩
    · rw [hholder, hexp] at hends
      exact Or.inr hends

/-- Session 1 acquires and releases, session 2 acquires: versions 1 and 2, and version 1 no
longer validates for anyone. -/
theorem lease_fencing_after_release :
    let reqs : List MetadataRequest :=
      [.createVolume ⟨7#128⟩ 4096 (.replicated 1) 1, .lease (.acquire ⟨7#128⟩ ⟨1#128⟩ 100 50),
        .lease (.release ⟨7#128⟩ ⟨1#128⟩), .lease (.acquire ⟨7#128⟩ ⟨2#128⟩ 90 50)]
    (grantsIn .wrapping .new reqs).map (·.leaseVersion) = [1, 2] ∧ Fencing .wrapping reqs := by
  intro reqs
  exact ⟨by decide, lease_fencing .wrapping reqs (by decide)⟩

end Blockyard.Raft
