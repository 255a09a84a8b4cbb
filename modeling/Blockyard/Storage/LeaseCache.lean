/-
# The lease cache of a data node

`blockyard-storage`, `service.rs`: `update_lease` and `validate_write_lease`.  News of a lease may
reach a node late, twice or out of order.  The cache takes a lease only if its version is newer
than the cached one, and a write is checked against the cached lease with STRICT comparison of
versions, so what the node has been told of a volume (`told`) is summed up by one lease
(`Caches`), and that lease fences:

* the cached lease is the newest the node was told of, whatever the order (§2);
* no write gets through that is older than anything the node was told of, and none by a session
  other than the newest holder's (§3).

Two leases with one version and different sessions are not told apart by the cache: the first one
stays.  A lease version is granted once, so this does not arise, and it is a hypothesis here.
-/
import Blockyard.Storage.Dedup

open Std Machine

namespace Blockyard.Storage

open DataNodeService

/-! ## 1. What a node is told -/

def tells (volumeId : VolumeId) : NodeOp → Option CachedLease
  | .updateLease v sessionId leaseVersion =>
    if v = volumeId then some ⟨sessionId, leaseVersion⟩ else none
  | _ => none

/-- The leases of a volume a node knows of: the one it had, and those it is told of in a run. -/
def told (s : DataNodeService) (volumeId : VolumeId) (ops : List NodeOp) : List CachedLease :=
  (s.leaseCache[volumeId]?).toList ++ ops.filterMap (tells volumeId)

/-- The cached lease is one of those told, and none of them is newer. -/
structure Caches (cached : Option CachedLease) (leases : List CachedLease) : Prop where
  none : cached = .none → leases = []
  mem : ∀ lease ∈ cached, lease ∈ leases
  newest : ∀ lease ∈ cached, ∀ other ∈ leases, other.leaseVersion ≤ lease.leaseVersion

/-! ## 2. The cache keeps the newest lease -/

section Run

variable {x : Externals} {ovf : Overflow} {s : DataNodeService} {volumeId : VolumeId}

theorem leaseCache_updateLease_other {v : VolumeId} (hv : v ≠ volumeId) (sessionId : SessionId)
    (leaseVersion : LeaseVersion) :
    (s.updateLease v sessionId leaseVersion).leaseCache[volumeId]? = s.leaseCache[volumeId]? := by
  unfold updateLease
  split
  · split
    · rfl
    · exact getElem?_insert_of_ne _ hv _
  · exact getElem?_insert_of_ne _ hv _

/-- An operation that tells nothing of the volume leaves its entry alone, a revocation apart. -/
theorem leaseCache_nodeStep_of_silent {op : NodeOp} (hrevoke : op ≠ .revokeLease volumeId)
    (htells : tells volumeId op = none) :
    (nodeStep x ovf s op).1.leaseCache[volumeId]? = s.leaseCache[volumeId]? := by
  cases op with
  | write env request payload caller =>
    exact congrArg (·[volumeId]?) (handleWrite_frame (x := x) env s request payload caller).2
  | read fault request caller =>
    obtain ⟨inv, -, heq⟩ := handleRead_fst x ovf fault s request caller
    change (s.handleRead x ovf fault request caller).1.leaseCache[volumeId]? = _
    rw [heq]
  | updateLease v sessionId leaseVersion =>
    refine leaseCache_updateLease_other (fun hv => ?_) sessionId leaseVersion
    rw [tells, if_pos hv] at htells
    cases htells
  | revokeLease v =>
    have hv : v ≠ volumeId := fun hv => hrevoke (by rw [hv])
    change (s.leaseCache.erase v)[volumeId]? = _
    rw [ExtTreeMap.getElem?_erase, if_neg (by simpa using hv)]
  | _ => rfl

/-- **A delivery** keeps the newer of the two leases. -/
theorem Caches.deliver {leases : List CachedLease} (h : Caches s.leaseCache[volumeId]? leases)
    (lease : CachedLease) :
    Caches (s.updateLease volumeId lease.sessionId lease.leaseVersion).leaseCache[volumeId]?
      (leases ++ [lease]) := by
  have htake : (∀ other ∈ leases, other.leaseVersion ≤ lease.leaseVersion) →
      Caches ((s.leaseCache.insert volumeId lease)[volumeId]?) (leases ++ [lease]) := by
    intro hnewest
    rw [ExtTreeMap.getElem?_insert_self]
    refine ⟨nofun, ?_, ?_⟩
    · rintro _ ⟨⟩
      exact List.mem_append_right _ (List.mem_singleton.mpr rfl)
    · rintro _ ⟨⟩ other hother
      rcases List.mem_append.mp hother with hold | hnew
      · exact hnewest other hold
      · rw [List.mem_singleton.mp hnew]
  unfold updateLease
  cases hcached : s.leaseCache[volumeId]? with
  | none =>
    refine htake ?_
    rw [h.none hcached]
    simp
  | some existing =>
    rw [hcached] at h
    have hnewest := h.newest existing rfl
    dsimp only
    by_cases hkeep : existing.leaseVersion ≥ lease.leaseVersion
    · rw [if_pos hkeep, hcached]
      refine ⟨nofun, ?_, ?_⟩
      · rintro _ ⟨⟩
        exact List.mem_append_left _ (h.mem existing rfl)
      · rintro _ ⟨⟩ other hother
        rcases List.mem_append.mp hother with hold | hnew
        · exact hnewest other hold
        · rw [List.mem_singleton.mp hnew]
          exact hkeep
    · rw [if_neg hkeep]
      exact htake fun other hother => (hnewest other hother).trans (Nat.le_of_not_le hkeep)

/-- **The cache sums up what the node was told**, in every run without a revocation. -/
theorem caches_run (x : Externals) (ovf : Overflow) (s : DataNodeService) (volumeId : VolumeId)
    (ops : List NodeOp) (hrevoke : ∀ op ∈ ops, op ≠ .revokeLease volumeId) :
    Caches (runState (nodeStep x ovf) s ops).leaseCache[volumeId]? (told s volumeId ops) := by
  refine runState_history (P := fun seen (t : DataNodeService) =>
    Caches t.leaseCache[volumeId]? (told s volumeId seen)) ?_ ?_
  · rw [told, List.filterMap_nil, List.append_nil]
    refine ⟨fun hnone => by rw [hnone]; rfl, fun lease hlease => ?_, fun lease hlease => ?_⟩
    · exact Option.mem_toList.mpr hlease
    · intro other hother
      rw [Option.mem_toList, Option.mem_def.mp hlease] at hother
      rw [Option.some.inj hother]
  · intro pre op post hops hpre
    have hop : op ≠ .revokeLease volumeId :=
      hrevoke op (by rw [hops]; exact List.mem_append_right _ List.mem_cons_self)
    have hsnoc : told s volumeId (pre ++ [op])
        = told s volumeId pre ++ [op].filterMap (tells volumeId) := by
      rw [told, List.filterMap_append, ← List.append_assoc]
      rfl
    rw [hsnoc]
    cases htells : tells volumeId op with
    | none =>
      rw [leaseCache_nodeStep_of_silent hop htells, List.filterMap_cons_none htells,
        List.filterMap_nil, List.append_nil]
      exact hpre
    | some lease =>
      rw [List.filterMap_cons_some htells, List.filterMap_nil]
      cases op with
      | updateLease v sessionId leaseVersion =>
        rw [tells] at htells
        split at htells
        · next hv =>
          subst hv
          cases htells
          exact hpre.deliver ⟨sessionId, leaseVersion⟩
        · cases htells
      | _ => cases htells

end Run

/-! ## 3. The cache fences -/

/-- Leases with one version are one lease. -/
def Granted (leases : List CachedLease) : Prop :=
  ∀ lease ∈ leases, ∀ other ∈ leases, lease.leaseVersion = other.leaseVersion →
    lease.sessionId = other.sessionId

/-- The write is out of date for a lease the node was told of: it carries no version, or an older
one, or that lease is the newest and another session holds it. -/
def OutOfDate (request : WriteExtentRequest) (lease : CachedLease) (leases : List CachedLease) :
    Prop :=
  request.leaseVersion = none ∨ (∃ v, request.leaseVersion = some v ∧ v < lease.leaseVersion) ∨
    (∀ other ∈ leases, other.leaseVersion ≤ lease.leaseVersion) ∧
      request.sessionId ≠ lease.sessionId

/-- **What is promised of the leases of a volume in a run.** -/
structure Fences (x : Externals) (ovf : Overflow) (s : DataNodeService) (volumeId : VolumeId)
    (ops : List NodeOp) : Prop where
  /-- Behind the deliveries the cached lease is the one with the highest version. -/
  highest : told s volumeId ops ≠ [] → ∃ lease ∈ told s volumeId ops,
    (runState (nodeStep x ovf) s ops).leaseCache[volumeId]? = some lease ∧
      ∀ other ∈ told s volumeId ops, other ≠ lease → other.leaseVersion < lease.leaseVersion
  /-- In any order, with duplicates, and whatever else happens in between. -/
  order : ∀ ops', (∀ op ∈ ops', op ≠ .revokeLease volumeId) →
    (∀ lease, lease ∈ told s volumeId ops' ↔ lease ∈ told s volumeId ops) →
    (runState (nodeStep x ovf) s ops').leaseCache[volumeId]?
      = (runState (nodeStep x ovf) s ops).leaseCache[volumeId]?
  /-- At every moment, a write that is no recorded duplicate and is out of date for a lease the
  node was told of does not succeed. -/
  fenced : ∀ pre env request payload caller post,
    ops = pre ++ .write env request payload caller :: post → request.volumeId = volumeId →
    (runState (nodeStep x ovf) s pre).checkDuplicate request.operationId = none →
    ∀ lease ∈ told s volumeId pre, OutOfDate request lease (told s volumeId pre) →
      ((runState (nodeStep x ovf) s pre).handleWrite x env request payload caller).2.success
        = false

theorem eq_of_granted {leases : List CachedLease} (h : Granted leases) {lease other : CachedLease}
    (hl : lease ∈ leases) (ho : other ∈ leases)
    (hv : lease.leaseVersion = other.leaseVersion) : lease = other := by
  have hs := h _ hl _ ho hv
  obtain ⟨session, version⟩ := lease
  obtain ⟨session', version'⟩ := other
  cases hs
  cases hv
  rfl

/-- What the cache makes of leases that were granted once each is determined by which they are. -/
theorem Caches.unique {cached cached' : Option CachedLease} {leases leases' : List CachedLease}
    (h : Caches cached leases) (h' : Caches cached' leases') (hgranted : Granted leases)
    (hsame : ∀ lease, lease ∈ leases' ↔ lease ∈ leases) : cached' = cached := by
  rcases cached with _ | lease
  · have hnil : leases = [] := h.none rfl
    rcases cached' with _ | lease'
    · rfl
    · have hmem := (hsame lease').mp (h'.mem lease' rfl)
      rw [hnil] at hmem
      cases hmem
  · have hmem := h.mem lease rfl
    rcases cached' with _ | lease'
    · have hmem' := (hsame lease).mpr hmem
      rw [h'.none rfl] at hmem'
      cases hmem'
    · have hmem' := (hsame lease').mp (h'.mem lease' rfl)
      refine congrArg some (eq_of_granted hgranted hmem' hmem (Nat.le_antisymm ?_ ?_))
      · exact h.newest lease rfl lease' hmem'
      · exact h'.newest lease' rfl lease ((hsame lease).mpr hmem)

/-- A write that gets past the cached lease is out of date for none. -/
theorem not_outOfDate_of_gates {x : Externals} {s : DataNodeService} {request : WriteExtentRequest}
    {payload : Bytes} {caller : PeerIdentity} {leases : List CachedLease}
    (hgates : Gates x s request payload caller)
    (hcaches : Caches s.leaseCache[request.volumeId]? leases) (hgranted : Granted leases)
    {lease : CachedLease} (hlease : lease ∈ leases) : ¬ OutOfDate request lease leases := by
  cases hcached : s.leaseCache[request.volumeId]? with
  | none =>
    rw [hcaches.none hcached] at hlease
    cases hlease
  | some cached =>
    rw [hcached] at hcaches
    obtain ⟨hsession, v, hversion, hle⟩ := hgates.lease cached hcached
    have hnewest := hcaches.newest cached rfl lease hlease
    rintro (hnone | ⟨w, hw, hlt⟩ | ⟨hhighest, hother⟩)
    · rw [hversion] at hnone
      cases hnone
    · rw [hversion, Option.some.injEq] at hw
      exact absurd (hnewest.trans (hle.trans hw.le)) (Nat.not_le.mpr hlt)
    · -- the newest lease is the cached one, so its session is the writer's
      have hmem := hcaches.mem cached rfl
      have heq := eq_of_granted hgranted hlease hmem
        (Nat.le_antisymm hnewest (hhighest cached hmem))
      rw [heq] at hother
      exact hother hsession

/-- **THE LEASE CACHE IS ORDER-INSENSITIVE AND FENCES**, in every run without a revocation of the
volume's lease in which equal versions name the same session. -/
theorem lease_cache_fences (x : Externals) (ovf : Overflow) (s : DataNodeService)
    (volumeId : VolumeId) (ops : List NodeOp) (hrevoke : ∀ op ∈ ops, op ≠ .revokeLease volumeId)
    (hgranted : Granted (told s volumeId ops)) : Fences x ovf s volumeId ops where
  highest hsome := by
    have hcaches := caches_run x ovf s volumeId _ hrevoke
    cases hcached : (runState (nodeStep x ovf) s ops).leaseCache[volumeId]? with
    | none => exact absurd (hcaches.none hcached) hsome
    | some lease =>
      rw [hcached] at hcaches
      have hmem := hcaches.mem lease rfl
      refine ⟨lease, hmem, rfl, fun other hother hne => ?_⟩
      refine Nat.lt_of_le_of_ne (hcaches.newest lease rfl other hother) fun hv => hne ?_
      exact eq_of_granted hgranted hother hmem hv
  order ops' hrevoke' hsame :=
    (caches_run x ovf s volumeId _ hrevoke).unique (caches_run x ovf s volumeId _ hrevoke') hgranted
      hsame
  fenced pre env request payload caller post hops hvolume hnew lease hlease hout := by
    subst hvolume
    have hsub : ∀ l ∈ told s request.volumeId pre, l ∈ told s request.volumeId ops := by
      intro l hl
      rw [hops, told, List.filterMap_append, ← List.append_assoc]
      exact List.mem_append_left _ hl
    have hcaches := caches_run x ovf s request.volumeId pre fun op hop =>
      hrevoke op (by rw [hops]; exact List.mem_append_left _ hop)
    rw [← Bool.not_eq_true]
    intro hok
    refine not_outOfDate_of_gates (gates_of_success hnew hok).1 hcaches ?_ hlease hout
    exact fun l hl l' hl' => hgranted l (hsub l hl) l' (hsub l' hl')

def lateNews : List NodeOp :=
  [.updateLease ⟨7#128⟩ ⟨1#128⟩ 3, .updateLease ⟨7#128⟩ ⟨2#128⟩ 1, .updateLease ⟨7#128⟩ ⟨1#128⟩ 3,
    .updateLease ⟨7#128⟩ ⟨3#128⟩ 2]

theorem lease_cache_fences_late_news :
    Fences (jsonExternals sampleBlake3) .checked sampleNode ⟨7#128⟩ lateNews := by
  refine lease_cache_fences _ _ _ _ _ ?_ ?_
  · intro op hop
    simp only [lateNews, List.mem_cons, List.not_mem_nil, or_false] at hop
    rcases hop with rfl | rfl | rfl | rfl <;> exact fun h => by cases h
  · have htold : told sampleNode ⟨7#128⟩ lateNews
        = [⟨⟨1#128⟩, 3⟩, ⟨⟨2#128⟩, 1⟩, ⟨⟨1#128⟩, 3⟩, ⟨⟨3#128⟩, 2⟩] := by decide
    rw [htold]
    unfold Granted
    decide

end Blockyard.Storage
