/-
# Well-formed metadata, refused requests and the lease clock

Three things a replica of the metadata state machine relies on when it applies a request.

* §1: a request that is answered with an error, or with a denied lease, changes nothing.
* §2, §3: the tables fit together in every reachable state (`WellFormed`), and applying a request
  never panics as long as the two counters and the lease expiry stay within 64 bits.
* §4: the expiry is the one sum over numbers that come from a client unchecked.  `now_ms + ttl_ms`
  is neither saturating nor checked, so past 64 bits it panics or wraps, on every replica alike.
  `lease_time_safe_iff` says exactly for which requests it does not.

All of this rests on the spec of `Acquire` and `Renew`: turned down, or one of three outcomes
(`timed_cases`).
-/
import Blockyard.Raft.Unbatched
import Blockyard.Raft.Fencing
import Blockyard.Raft.Identity

open Std

namespace Blockyard.Raft

open MetadataStateMachineData

variable {s : MetadataStateMachineData} {v : VolumeId} {sess : SessionId} {now ttl : Nat}
  {ovf : Overflow} {req : LeaseRequest} {r : MetadataRequest} {resp : LeaseResponse}
  {out : MetadataStateMachineData × Option LeaseResponse}

/-! ## 1. A refused request changes nothing -/

/-- The answers that refuse a request: an error, or a lease that is denied. -/
def MetadataResponse.refuses : MetadataResponse → Bool
  | .error _ => true
  | .lease (.denied _) => true
  | _ => false

theorem Extends.not_refused (h : Extends ovf s v sess now ttl out) (hresp : out.2 = some resp) :
    (MetadataResponse.lease resp).refuses = false := by
  cases h with
  | counter _ => cases hresp
  | expiry _ _ => cases hresp
  | stored _ _ _ _ hkind =>
    cases hresp
    rcases hkind with rfl | rfl <;> rfl

/-- A lease request that is denied leaves the state as it was. -/
theorem applyLeaseRequest_denied (ovf : Overflow) (s : MetadataStateMachineData)
    (h : (s.applyLeaseRequest ovf req).2 = some resp)
    (href : (MetadataResponse.lease resp).refuses = true) :
    (s.applyLeaseRequest ovf req).1 = s := by
  have htimed : ∀ v sess now ttl, req = .acquire v sess now ttl ∨ req = .renew v sess now ttl →
      (s.applyLeaseRequest ovf req).1 = s := by
    intro v sess now ttl hreq
    rcases timed_cases ovf s hreq with ⟨-, msg, heq⟩ | ⟨-, hext⟩
    · rw [heq]
    · rw [hext.not_refused h] at href
      cases href
  cases req with
  | acquire v sess now ttl => exact htimed v sess now ttl (Or.inl rfl)
  | renew v sess now ttl => exact htimed v sess now ttl (Or.inr rfl)
  | release v sess =>
    simp only [applyLeaseRequest, releaseLease] at h ⊢
    split at h
    · split at h
      · cases h
        cases href
      · rename_i hheld
        rw [if_neg hheld]
    · rfl

/-- **A refused request changes nothing**, unless it is a batch. -/
theorem applyRequest_refused (ovf : Overflow) (ht : TablesMatch s) (hr : r.isBatch = false)
    {resp : MetadataResponse} (h : (s.applyRequest ovf r).2 = some resp)
    (href : resp.refuses = true) :
    (s.applyRequest ovf r).1 = s := by
  cases r with
  | commitExtentMappingBatch es => cases hr
  | commitExtentMapping e =>
    by_cases had : Admits s s.mappingAt e
    · rw [applyRequest, commit_of_admits ht had] at h
      cases h
      cases href
    · obtain ⟨msg, heq⟩ := commit_of_not_admits ht had
      simp only [applyRequest, heq]
  | deleteVolume v =>
    rcases deleteVolume_cases ht v with ⟨-, msg, heq⟩ | ⟨vm, -, -, heq⟩
    · simp only [applyRequest, heq]
    · rw [applyRequest, heq] at h
      cases h
      cases href
  | createVolume v size protection extentSize =>
    rcases createVolume_cases s v size protection extentSize with ⟨msg, heq⟩ | ⟨md, -, heq⟩
    · simp only [applyRequest, heq]
    · rw [applyRequest, heq] at h
      cases h
      cases href
  | lease req =>
    obtain ⟨resp', hresp', rfl⟩ := Option.map_eq_some_iff.mp h
    exact applyLeaseRequest_denied ovf s hresp' href
  | registerNode n addr =>
    rcases registerNode_cases ovf s n addr with
      ⟨id, -, -, hans⟩ | ⟨-, ⟨-, hans⟩ | ⟨id, -, -, hans⟩⟩
    · rw [applyRequest, hans] at h
      cases h
      cases href
    · rw [applyRequest, hans] at h
      cases h
    · rw [applyRequest, hans] at h
      cases h
      cases href
  | removeNode | updateDiskUsage | deregisterDisk =>
    simp only [applyRequest] at h ⊢
    split at h
    · cases h
      cases href
    · simp_all
  | addNode | advanceEpoch | updatePlacementMap | registerDisk | cleanupExpiredLeases =>
    cases h
    cases href

/-! ## 2. The tables fit together -/

/-- Every lease is stored under its own volume, which exists. -/
def LeasesHoused (s : MetadataStateMachineData) : Prop :=
  ∀ (v : VolumeId) l, s.leases[v]? = some l → v ∈ s.volumes ∧ l.volumeId = v

/-- **Well-formed metadata**: the volumes and the mapping tables have the same keys, every lease
is stored under its own volume, which exists, and every mapping under the start of its own
range. -/
structure WellFormed (s : MetadataStateMachineData) : Prop where
  tables : TablesMatch s
  leases : LeasesHoused s
  ranges : ∀ v b m, s.mappingAt (v, b) = some m → m.blockRange.start = b

/-- Leases that were there before stay housed as long as their volumes stay. -/
theorem LeasesHoused.mono {s' : MetadataStateMachineData} (h : LeasesHoused s)
    (hl : ∀ (v : VolumeId) l, s'.leases[v]? = some l → s.leases[v]? = some l)
    (hv : ∀ v l, s'.leases[v]? = some l → v ∈ s.volumes → v ∈ s'.volumes) : LeasesHoused s' := by
  intro v l hvl
  obtain ⟨hmem, hid⟩ := h v l (hl v l hvl)
  exact ⟨hv v l hvl hmem, hid⟩

theorem Extends.leasesHoused (h : Extends ovf s v sess now ttl out) (hs : LeasesHoused s) :
    LeasesHoused out.1 := by
  cases h with
  | counter _ => exact hs
  | expiry _ _ => exact hs
  | @stored version expires l resp _ _ _ hv _ =>
    -- a renewed lease keeps the volume the lease before it was housed under
    have hnew : v ∈ s.volumes ∧ l.volumeId = v := by
      rcases hv with hv | ⟨old, hold, hid⟩
      · exact hv
      · rw [hid]
        exact hs v old hold
    intro w l' hl'
    by_cases hw : v = w
    · subst hw
      rw [ExtTreeMap.getElem?_insert_self] at hl'
      cases hl'
      exact hnew
    · rw [getElem?_insert_of_ne _ hw] at hl'
      exact hs w l' hl'

/-- Only `DeleteVolume` takes a volume away. -/
theorem mem_volumes_applyRequest (ovf : Overflow) (ht : TablesMatch s) (hr : r.isBatch = false)
    (hdel : ∀ v, r ≠ .deleteVolume v) (hv : v ∈ s.volumes) :
    v ∈ (s.applyRequest ovf r).1.volumes := by
  have hframe := applyRequest_frame ovf s (r := r)
  cases r with
  | commitExtentMappingBatch es => cases hr
  | deleteVolume w => exact absurd rfl (hdel w)
  | commitExtentMapping e =>
    by_cases had : Admits s s.mappingAt e
    · simpa [applyRequest, commit_of_admits ht had] using hv
    · obtain ⟨msg, heq⟩ := commit_of_not_admits ht had
      simpa [applyRequest, heq] using hv
  | createVolume w size protection extentSize =>
    rcases createVolume_cases s w size protection extentSize with ⟨msg, heq⟩ | ⟨md, -, heq⟩
    · simpa [applyRequest, heq] using hv
    · simp [applyRequest, heq, hv]
  | _ =>
    rw [(hframe rfl).1]
    exact hv

theorem LeasesHoused.lease (ovf : Overflow) (ht : TablesMatch s) (h : LeasesHoused s)
    (req : LeaseRequest) :
    LeasesHoused (s.applyRequest ovf (.lease req)).1 := by
  have htimed : ∀ v sess now ttl, req = .acquire v sess now ttl ∨ req = .renew v sess now ttl →
      LeasesHoused (s.applyLeaseRequest ovf req).1 := by
    intro v sess now ttl hreq
    rcases timed_cases ovf s hreq with ⟨-, msg, heq⟩ | ⟨-, hext⟩
    · rwa [heq]
    · exact hext.leasesHoused h
  cases req with
  | acquire v sess now ttl => exact htimed v sess now ttl (Or.inl rfl)
  | renew v sess now ttl => exact htimed v sess now ttl (Or.inr rfl)
  | release v sess =>
    have hmem : ∀ w, w ∈ s.volumes →
        w ∈ (s.applyRequest ovf (.lease (.release v sess))).1.volumes :=
      fun w hw => mem_volumes_applyRequest ovf ht rfl (by simp) hw
    exact h.mono (release_step ovf s v sess).older fun w _ _ hw => hmem w hw

/-- A volume goes together with its lease. -/
theorem LeasesHoused.deleteVolume (ovf : Overflow) (ht : TablesMatch s) (h : LeasesHoused s)
    (v : VolumeId) :
    LeasesHoused (s.applyRequest ovf (.deleteVolume v)).1 := by
  rcases deleteVolume_cases ht v with ⟨-, msg, heq⟩ | ⟨vm, -, -, heq⟩
  · simpa [MetadataStateMachineData.applyRequest, heq] using h
  · simp only [MetadataStateMachineData.applyRequest, heq]
    intro w l hl
    simp only [ExtTreeMap.getElem?_erase, LawfulEqOrd.compare_eq_iff_eq] at hl
    split at hl
    · cases hl
    · rename_i hne
      obtain ⟨hmem, hid⟩ := h w l hl
      exact ⟨by simp [ExtTreeMap.mem_erase, hmem, hne], hid⟩

theorem LeasesHoused.applyRequest (ovf : Overflow) (ht : TablesMatch s) (h : LeasesHoused s)
    (hr : r.isBatch = false) :
    LeasesHoused (s.applyRequest ovf r).1 := by
  by_cases hlease : ∃ req, r = .lease req
  · obtain ⟨req, rfl⟩ := hlease
    exact h.lease ovf ht req
  by_cases hdel : ∃ v, r = .deleteVolume v
  · obtain ⟨v, rfl⟩ := hdel
    exact h.deleteVolume ovf ht v
  push Not at hlease hdel
  rcases leases_step ovf ht r with ⟨g, hg⟩ | hkeep
  · -- a grant is the answer to a lease request
    have hans := hg.answered
    cases r with
    | lease req => exact absurd rfl (hlease req)
    | _ => cases hans
  · exact h.mono hkeep.older fun w _ _ hw => mem_volumes_applyRequest ovf ht hr hdel hw

theorem leasesHoused_after (ovf : Overflow) (reqs : List MetadataRequest) :
    LeasesHoused (after ovf reqs) :=
  after_of_singles ovf (fun v l hl => by simp [MetadataStateMachineData.new] at hl)
    (fun _ _ ht hr h => h.applyRequest ovf ht hr) reqs

/-- A mapping is stored under the start of its own range. -/
theorem ranges_after (ovf : Overflow) (reqs : List MetadataRequest) (k : MappingKey)
    (m : ExtentMapping) (hm : (after ovf reqs).mappingAt k = some m) :
    m.blockRange.start = k.2 := by
  refine after_of_singles ovf
    (P := fun s => ∀ k m, s.mappingAt k = some m → m.blockRange.start = k.2) ?_ ?_ reqs k m hm
  · intro k m hm
    exact absurd hm mappingAt_new_ne_some
  · intro s r ht hr h k m hm
    rcases mappingAt_applyRequest ovf ht hr hm with hold | ⟨e, -, -, rfl, rfl⟩
    · exact h k m hold
    · rfl

theorem wellFormed_after (ovf : Overflow) (reqs : List MetadataRequest) :
    WellFormed (after ovf reqs) where
  tables := tablesMatch_after ovf reqs
  leases := leasesHoused_after ovf reqs
  ranges v b := ranges_after ovf reqs (v, b)

/-! ## 3. Applying a request does not panic -/

def MetadataRequest.ExpiryFits : MetadataRequest → Prop
  | .lease (.acquire _ _ now ttl) | .lease (.renew _ _ now ttl) => now + ttl < 2 ^ 64
  | _ => True

/-- **One request moves each counter by at most one.** -/
theorem counters_applyRequest (ovf : Overflow) (ht : TablesMatch s) (r : MetadataRequest) :
    (s.applyRequest ovf r).1.leaseVersionCounter ≤ s.leaseVersionCounter + 1 ∧
      (s.applyRequest ovf r).1.raftIdCounter ≤ s.raftIdCounter + 1 := by
  constructor
  · rcases leases_step ovf ht r with ⟨g, hg⟩ | hkeep
    · rw [hg.counter]
      exact addU64_le hg.bumped
    · rcases hkeep.counter with h | ⟨-, h⟩
      · rw [h]
        exact Nat.le_succ _
      · exact h.le
  · exact raftIdCounter_applyRequest ovf s r

theorem counters_after (ovf : Overflow) (reqs : List MetadataRequest) :
    (after ovf reqs).leaseVersionCounter ≤ reqs.length ∧
      (after ovf reqs).raftIdCounter ≤ reqs.length := by
  refine Machine.runState_history
    (P := fun seen (s : MetadataStateMachineData) =>
      s.leaseVersionCounter ≤ seen.length ∧ s.raftIdCounter ≤ seen.length)
    ⟨Nat.le_refl 0, Nat.le_refl 0⟩ ?_
  rintro pre r post - ⟨hlease, hraft⟩
  obtain ⟨hlease', hraft'⟩ := counters_applyRequest ovf (tablesMatch_after ovf pre) r
  rw [List.length_append, List.length_singleton]
  exact ⟨hlease'.trans (Nat.succ_le_succ hlease), hraft'.trans (Nat.succ_le_succ hraft)⟩

theorem Extends.answered (h : Extends ovf s v sess now ttl out)
    (hc : s.leaseVersionCounter + 1 < 2 ^ 64) (he : now + ttl < 2 ^ 64) : out.2 ≠ none := by
  cases h with
  | counter hnone =>
    rw [addU64_of_lt ovf hc] at hnone
    cases hnone
  | expiry _ hnone =>
    rw [addU64_of_lt ovf he] at hnone
    cases hnone
  | stored _ _ _ _ _ => simp

/-- **A request is answered** when the counters and the expiry have room. -/
theorem applyRequest_answered (ovf : Overflow) (ht : TablesMatch s)
    (hc : s.leaseVersionCounter + 1 < 2 ^ 64) (hn : s.raftIdCounter + 1 < 2 ^ 64)
    (hfit : r.ExpiryFits) :
    (s.applyRequest ovf r).2 ≠ none := by
  cases r with
  | commitExtentMapping e =>
    by_cases had : Admits s s.mappingAt e
    · simp [applyRequest, commit_of_admits ht had]
    · obtain ⟨msg, heq⟩ := commit_of_not_admits ht had
      simp [applyRequest, heq]
  | commitExtentMappingBatch es =>
    obtain ⟨-, ⟨-, hans⟩ | ⟨-, msg, hans⟩⟩ := batch_eq ht es
    · simp [applyRequest, hans]
    · simp [applyRequest, hans]
  | deleteVolume v =>
    rcases deleteVolume_cases ht v with ⟨-, msg, heq⟩ | ⟨vm, -, -, heq⟩
    · simp [applyRequest, heq]
    · simp [applyRequest, heq]
  | createVolume v size protection extentSize =>
    rcases createVolume_cases s v size protection extentSize with ⟨msg, heq⟩ | ⟨md, -, heq⟩
    · simp [applyRequest, heq]
    · simp [applyRequest, heq]
  | lease req =>
    simp only [applyRequest, ne_eq, Option.map_eq_none_iff]
    have htimed : ∀ v sess now ttl, req = .acquire v sess now ttl ∨ req = .renew v sess now ttl →
        now + ttl < 2 ^ 64 → (s.applyLeaseRequest ovf req).2 ≠ none := by
      intro v sess now ttl hreq hroom
      rcases timed_cases ovf s hreq with ⟨-, msg, heq⟩ | ⟨-, hext⟩
      · simp [heq]
      · exact hext.answered hc hroom
    cases req with
    | acquire v sess now ttl => exact htimed v sess now ttl (Or.inl rfl) hfit
    | renew v sess now ttl => exact htimed v sess now ttl (Or.inr rfl) hfit
    | release v sess =>
      simp only [applyLeaseRequest, releaseLease]
      repeat' split
      all_goals simp
  | registerNode n addr =>
    obtain ⟨id, -, hans, -⟩ := registerNode_answer ovf n addr hn
    simp [applyRequest, hans]
  | removeNode | updateDiskUsage | deregisterDisk =>
    simp only [applyRequest]
    split <;> simp
  | addNode | advanceEpoch | updatePlacementMap | registerDisk | cleanupExpiredLeases =>
    simp [applyRequest]

/-- **The metadata stays well formed, no request panics, and a refused one changes nothing.**
For every run of fewer than `2^64` requests whose lease expiries fit in 64 bits: every state of
the run is well formed, every request of it is answered, and a request that is not a batch and
is answered with an error or a denied lease leaves the whole state as it was. -/
theorem metadata_well_formed (ovf : Overflow) (reqs : List MetadataRequest)
    (hcount : reqs.length < 2 ^ 64) (hfit : ∀ r ∈ reqs, r.ExpiryFits) :
    WellFormed (after ovf reqs) ∧
      ∀ pre r post, reqs = pre ++ r :: post →
        WellFormed (after ovf pre) ∧ ((after ovf pre).applyRequest ovf r).2 ≠ none ∧
          ∀ resp, ((after ovf pre).applyRequest ovf r).2 = some resp → r.isBatch = false →
            resp.refuses = true → ((after ovf pre).applyRequest ovf r).1 = after ovf pre := by
  refine ⟨wellFormed_after ovf reqs, ?_⟩
  rintro pre r post rfl
  have ht := tablesMatch_after ovf pre
  obtain ⟨hc, hn⟩ := counters_after ovf pre
  rw [List.length_append, List.length_cons] at hcount
  refine ⟨wellFormed_after ovf pre, ?_, ?_⟩
  · have hroom : pre.length + 1 < 2 ^ 64 := by omega
    exact applyRequest_answered ovf ht ((Nat.succ_le_succ hc).trans_lt hroom)
      ((Nat.succ_le_succ hn).trans_lt hroom) (hfit r (by simp))
  · intro resp hans hsingle href
    exact applyRequest_refused ovf ht hsingle hans href

theorem metadata_well_formed_denied_lease :
    let v : VolumeId := ⟨7#128⟩
    let denied : MetadataRequest := .lease (.acquire v ⟨2#128⟩ 10 100)
    let pre : List MetadataRequest := [.createVolume v 4096 (.replicated 1) 1,
      .lease (.acquire v ⟨1#128⟩ 0 100)]
    (∃ msg, ((after .checked pre).applyRequest .checked denied).2
        = some (.lease (.denied msg))) ∧
      ((after .checked pre).applyRequest .checked denied).1 = after .checked pre ∧
      WellFormed (after .checked (pre ++ [denied])) := by
  intro v denied pre
  have hfit : ∀ r ∈ pre ++ [denied], r.ExpiryFits := by
    simp [pre, denied, MetadataRequest.ExpiryFits]
  obtain ⟨hwell, hrun⟩ := metadata_well_formed .checked (pre ++ [denied]) (by decide) hfit
  have hans : ((after .checked pre).applyRequest .checked denied).2 = some (.lease (.denied
      s!"volume {v} lease held by session {(⟨1#128⟩ : SessionId)}")) := by decide
  exact ⟨⟨_, hans⟩, (hrun pre denied [] rfl).2.2 _ hans rfl rfl, hwell⟩

/-! ## 4. The lease clock -/

/-- **The promise** for a session's request for a lease of `v` from `now` for `ttl`: applying it
does not panic, and the lease it grants or renews ends no earlier than `now`, and for a positive
`ttl` later, so that it is valid at its own grant time. -/
structure LeaseTimeSafe (ovf : Overflow) (s : MetadataStateMachineData) (v : VolumeId)
    (sess : SessionId) (now ttl : Nat) (req : LeaseRequest) : Prop where
  answered : (s.applyRequest ovf (.lease req)).2 ≠ none
  expiry : ∀ version expires,
    (s.applyRequest ovf (.lease req)).2 = some (.lease (.granted version expires)) ∨
      (s.applyRequest ovf (.lease req)).2 = some (.lease (.renewed version expires)) →
    ∃ l, (s.applyRequest ovf (.lease req)).1.leases[v]? = some l ∧ now ≤ l.expiresAtMs ∧
      (0 < ttl → now < l.expiresAtMs ∧
        (s.applyRequest ovf (.lease req)).1.validateLease v sess version now = .ok ())

theorem leaseTimeSafe_of_turnedDown {msg : String}
    (h : s.applyLeaseRequest ovf req = (s, some (.denied msg))) :
    LeaseTimeSafe ovf s v sess now ttl req := by
  have hans : (s.applyRequest ovf (.lease req)).2 = some (.lease (.denied msg)) := by
    simp [applyRequest, h]
  refine ⟨by simp [hans], ?_⟩
  rintro version expires (hg | hg)
  · rw [hans] at hg
    cases hg
  · rw [hans] at hg
    cases hg

/-- A stored lease that ends at `now + ttl` keeps the promise. -/
theorem leaseTimeSafe_of_stored {expires : Nat} {l : VolumeLease}
    (hans : (s.applyRequest ovf (.lease req)).2 = some (.lease resp))
    (hresp : resp = .granted l.leaseVersion expires ∨ resp = .renewed l.leaseVersion expires)
    (hleases : (s.applyRequest ovf (.lease req)).1.leases[v]? = some l)
    (hexp : l.expiresAtMs = now + ttl) : LeaseTimeSafe ovf s v l.holder now ttl req := by
  refine ⟨by simp [hans], fun version' expires' hg => ⟨l, hleases, by omega, fun hpos => ?_⟩⟩
  have hlive : now < l.expiresAtMs := by omega
  have hsame : version' = l.leaseVersion := by
    rw [hans] at hg
    rcases hresp with rfl | rfl <;> rcases hg with hg | hg <;> cases hg <;> rfl
  refine ⟨hlive, ?_⟩
  simp [validateLease, hleases, VolumeLease.isHeldBy, VolumeLease.isExpired, hsame,
    Nat.not_le.mpr hlive]

/-- **A request that is not turned down keeps the promise exactly when its sums have room.** -/
theorem Extends.leaseTimeSafe_iff (hnow : now < 2 ^ 64) (httl : ttl < 2 ^ 64)
    (h : Extends ovf s v sess now ttl (s.applyLeaseRequest ovf req)) :
    LeaseTimeSafe ovf s v sess now ttl req ↔
      now + ttl < 2 ^ 64 ∧ (ovf = .wrapping ∨ s.leaseVersionCounter + 1 < 2 ^ 64) := by
  have hpanic : (s.applyLeaseRequest ovf req).2 = none →
      ¬ LeaseTimeSafe ovf s v sess now ttl req := by
    intro hnone hsafe
    exact hsafe.answered (by simp [applyRequest, hnone])
  generalize hout : s.applyLeaseRequest ovf req = out at h hpanic
  cases h with
  | counter hc =>
    constructor
    · intro hsafe
      exact absurd hsafe (hpanic rfl)
    · rintro ⟨-, hroom⟩
      exact absurd hc ((addU64_ne_none_iff ovf _ _).mpr hroom)
  | expiry _ he =>
    constructor
    · intro hsafe
      exact absurd hsafe (hpanic rfl)
    · rintro ⟨hroom, -⟩
      exact absurd he ((addU64_ne_none_iff ovf _ _).mpr (Or.inr hroom))
  | @stored version expires l resp hc he hl hv hresp =>
    obtain ⟨hexp, rfl, rfl⟩ := hl
    have hcounter : ovf = .wrapping ∨ s.leaseVersionCounter + 1 < 2 ^ 64 :=
      (addU64_ne_none_iff ovf _ _).mp (by simp [hc])
    have hans : (s.applyRequest ovf (.lease req)).2 = some (.lease resp) := by
      simp [applyRequest, hout]
    have hleases : (s.applyRequest ovf (.lease req)).1.leases[v]? = some l := by
      simp [applyRequest, hout]
    constructor
    · intro hsafe
      refine ⟨?_, hcounter⟩
      -- a wrapped expiry lies before the grant
      by_contra hover
      have hlt : expires < now := addU64_lt_of_overflow hnow httl hover he
      obtain ⟨l', hl', hle, -⟩ := hsafe.expiry l.leaseVersion expires
        (hresp.imp (fun hr => by rw [hans, hr]) fun hr => by rw [hans, hr])
      rw [hleases] at hl'
      cases hl'
      omega
    · rintro ⟨hroom, -⟩
      rw [addU64_of_lt ovf hroom] at he
      cases he
      exact leaseTimeSafe_of_stored hans hresp hleases hexp

/-- **When lease expiry is safe.**  In every reachable state and for all 64-bit `now_ms` and
`ttl_ms`: an `Acquire` or a `Renew` keeps the promise exactly when it is turned down, or when
`now_ms + ttl_ms` fits in 64 bits and the lease counter, in a build that checks overflow, has
not come to its end. -/
theorem lease_time_safe_iff (ovf : Overflow) (reqs : List MetadataRequest) (v : VolumeId)
    (sess : SessionId) (now ttl : UInt64) :
    (LeaseTimeSafe ovf (after ovf reqs) v sess now.toNat ttl.toNat
        (.acquire v sess now.toNat ttl.toNat) ↔
      TurnedDown (after ovf reqs) (.acquire v sess now.toNat ttl.toNat) ∨
        now.toNat + ttl.toNat < 2 ^ 64 ∧
          (ovf = .wrapping ∨ (after ovf reqs).leaseVersionCounter + 1 < 2 ^ 64)) ∧
      (LeaseTimeSafe ovf (after ovf reqs) v sess now.toNat ttl.toNat
          (.renew v sess now.toNat ttl.toNat) ↔
        TurnedDown (after ovf reqs) (.renew v sess now.toNat ttl.toNat) ∨
          now.toNat + ttl.toNat < 2 ^ 64 ∧
            (ovf = .wrapping ∨ (after ovf reqs).leaseVersionCounter + 1 < 2 ^ 64)) := by
  have htimed : ∀ req : LeaseRequest,
      req = .acquire v sess now.toNat ttl.toNat ∨ req = .renew v sess now.toNat ttl.toNat →
      (LeaseTimeSafe ovf (after ovf reqs) v sess now.toNat ttl.toNat req ↔
        TurnedDown (after ovf reqs) req ∨ now.toNat + ttl.toNat < 2 ^ 64 ∧
          (ovf = .wrapping ∨ (after ovf reqs).leaseVersionCounter + 1 < 2 ^ 64)) := by
    intro req hreq
    rcases timed_cases ovf (after ovf reqs) hreq with ⟨hdown, msg, heq⟩ | ⟨hdown, hext⟩
    · exact ⟨fun _ => Or.inl hdown, fun _ => leaseTimeSafe_of_turnedDown heq⟩
    · rw [or_iff_right hdown]
      exact hext.leaseTimeSafe_iff now.toNat_lt ttl.toNat_lt
  exact ⟨htimed _ (Or.inl rfl), htimed _ (Or.inr rfl)⟩

/-- The last millisecond of the 64-bit clock and a `ttl` of one: a build that checks overflow
panics, a release build grants a lease that ended at time 0. -/
theorem lease_expiry_overflows :
    let v : VolumeId := ⟨7#128⟩
    let reqs : List MetadataRequest := [.createVolume v 4096 (.replicated 1) 1]
    let req : LeaseRequest := .acquire v ⟨1#128⟩ (2 ^ 64 - 1) 1
    ((after .checked reqs).applyRequest .checked (.lease req)).2 = none ∧
      ((after .wrapping reqs).applyRequest .wrapping (.lease req)).2
        = some (.lease (.granted 1 0)) ∧
      ∀ ovf, ¬ LeaseTimeSafe ovf (after ovf reqs) v ⟨1#128⟩ (2 ^ 64 - 1) 1 req := by
  intro v reqs req
  have hchecked : ((after .checked reqs).applyRequest .checked (.lease req)).2 = none := by decide
  have hwrapping : ((after .wrapping reqs).applyRequest .wrapping (.lease req)).2
      = some (.lease (.granted 1 0)) := by decide
  refine ⟨hchecked, hwrapping, fun ovf hsafe => ?_⟩
  cases ovf with
  | checked => exact hsafe.answered hchecked
  | wrapping =>
    obtain ⟨l, hl, hle, -⟩ := hsafe.expiry 1 0 (Or.inl hwrapping)
    have hexp : (((after .wrapping reqs).applyRequest .wrapping (.lease req)).1.leases[v]?).map
        (·.expiresAtMs) = some 0 := by decide
    rw [hl, Option.map_some, Option.some_inj] at hexp
    omega

end Blockyard.Raft
