/-
# Refreshing the client's metadata

`blockyard-ublk`, `http_metadata_client.rs` (`refresh_metadata`) and `metadata_cache.rs`
(`refresh`): a refresh makes three requests, one after the other -- the cluster status for the
epoch, the nodes, the volumes -- and replaces the cached epoch, cluster map and volumes.

Nine things can go wrong with three requests, and seven of them are reported and leave the cache
alone.  The other two are not: when the nodes are answered with an error STATUS the new epoch is
stored over the old nodes and volumes, and when the volumes are, the volumes are taken to be none.
Both refreshes return `Ok`.  `refreshMetadata_allOrNothing_iff` says exactly when a refresh is all
or nothing; the epoch of a cache is that of its nodes and volumes along every run of such
refreshes (`run_eq_run_complete`).

The second part is the one caller that relies on the epoch a refresh brings: `handle_read` checks
the cached epoch against the session's watermark, refreshes, and does not look again.  A service
that answers from a replica that is behind serves the read (`handleRead_observes_watermark_iff`).
-/
import Blockyard.Ublk.ExtentCache
import Blockyard.Ublk.ReadCompose

open Std Machine

namespace Blockyard.Ublk

/-! ## 1. The cache as a whole -/

/-- `CachedVolumeInfo`, with the fields the block handler does not read. -/
structure CachedVolume where
  volumeId : VolumeId
  sizeBytes : Nat
  blockSize : Nat
  protection : ProtectionPolicy
  extentMappings : ExtentMappings

/-- `CacheInner`; an address is known by its text. -/
@[ext]
structure CacheInner where
  epoch : EpochId
  clusterMap : BTreeMap NodeId String
  volumes : BTreeMap VolumeId CachedVolume

namespace CacheInner

/-- What the block handler reads of the cache. -/
def view (inner : CacheInner) : MetadataCache where
  epoch := inner.epoch
  clusterMap := inner.clusterMap
  volumes := inner.volumes.map fun _ v => ⟨v.protection⟩

def setEpoch (inner : CacheInner) (epoch : EpochId) : CacheInner := { inner with epoch }

/-- The map `refresh` makes of a list of node addresses. -/
def clusterMapOf (nodes : List (NodeId × String)) : BTreeMap NodeId String :=
  nodes.foldl (fun m n => m.insert n.1 n.2) ∅

/-- A fetched volume takes over the mappings of the volume it replaces, unless it has its own. -/
def keepMappings (inner : CacheInner) (v : CachedVolume) : CachedVolume :=
  match inner.volumes[v.volumeId]? with
  | some existing =>
    if v.extentMappings.isEmpty ∧ ¬ existing.extentMappings.isEmpty then
      { v with extentMappings := existing.extentMappings }
    else v
  | none => v

def refresh (inner : CacheInner) (epoch : EpochId) (nodes : List (NodeId × String))
    (volumes : List CachedVolume) : CacheInner where
  epoch := epoch
  clusterMap := clusterMapOf nodes
  volumes := volumes.foldl (fun m v => m.insert v.volumeId (inner.keepMappings v)) ∅

end CacheInner

/-! ## 2. The three requests -/

/-- An HTTP response; its body is read as JSON, or fails to be, with a text. -/
structure Response (α : Type) where
  code : Nat
  reason : String
  body : Except String α

def Response.isSuccess {α : Type} (r : Response α) : Bool := 200 ≤ r.code ∧ r.code < 300

/-- `Display` of the status code. -/
def Response.status {α : Type} (r : Response α) : String := s!"{r.code} {r.reason}"

/-- What `send().await` brings: a response, or the text of a transport error. -/
abbrev Fetch (α : Type) := Except String (Response α)

def Fetch.value {α : Type} : Fetch α → Option α
  | .ok r => if r.isSuccess then r.body.toOption else none
  | .error _ => none

/-- The request is answered with an error status. -/
def Fetch.Refused {α : Type} (f : Fetch α) : Prop := ∃ r, f = .ok r ∧ r.isSuccess = false

/-- The fields of `NodeInfo` that are read. -/
structure NodeInfo where
  id : NodeId
  address : String

/-- The fields of `VolumeInfo` that are read. -/
structure VolumeInfo where
  id : VolumeId
  sizeBytes : Nat
  protection : ProtectionPolicy

/-- How the three requests of a refresh end, were they made. -/
structure Fetches where
  /-- The `placement_epoch` of `/api/v1/cluster/status`. -/
  clusterStatus : Fetch Nat
  nodes : Fetch (List NodeInfo)
  volumes : Fetch (List VolumeInfo)

def VolumeInfo.cached (v : VolumeInfo) : CachedVolume where
  volumeId := v.id
  sizeBytes := v.sizeBytes
  blockSize := 4096
  protection := v.protection
  extentMappings := ∅

section Refresh

-- `str::parse::<SocketAddr>`, as the text of the address
variable (parse : String → Option String)

/-- The nodes that are cached: those whose address parses. -/
def cacheNodes (nodes : List NodeInfo) : List (NodeId × String) :=
  nodes.filterMap fun n => (parse n.address).map fun addr => (n.id, addr)

def refreshMetadata (inner : CacheInner) (f : Fetches) : CacheInner × Except Error EpochId :=
  match f.clusterStatus with
  | .error e => (inner, .error (.network s!"failed to fetch cluster status: {e}"))
  | .ok statusResp =>
    if statusResp.isSuccess then
      match statusResp.body with
      | .error e => (inner, .error (.network s!"failed to parse cluster status: {e}"))
      | .ok newEpoch =>
        match f.nodes with
        | .error e => (inner, .error (.network s!"failed to fetch nodes: {e}"))
        | .ok nodesResp =>
          if nodesResp.isSuccess then
            match nodesResp.body with
            | .error e => (inner, .error (.network s!"failed to parse nodes: {e}"))
            | .ok nodes =>
              match f.volumes with
              | .error e => (inner, .error (.network s!"failed to fetch volumes: {e}"))
              | .ok volumesResp =>
                if volumesResp.isSuccess then
                  match volumesResp.body with
                  | .error e => (inner, .error (.network s!"failed to parse volumes: {e}"))
                  | .ok volumes =>
                    (inner.refresh newEpoch (cacheNodes parse nodes)
                      (volumes.map VolumeInfo.cached), .ok newEpoch)
                else (inner.refresh newEpoch (cacheNodes parse nodes) [], .ok newEpoch)
          -- "just update the epoch if we can't get full data"
          else (inner.setEpoch newEpoch, .ok newEpoch)
    else (inner, .error (.network s!"cluster status returned {statusResp.status}"))

/-! ## 3. What a refresh can do -/

/-- The four ways a refresh can end. -/
inductive Refreshes (inner : CacheInner) (f : Fetches) : CacheInner × Except Error EpochId → Prop
  | reported (e : Error)
      (hfails : f.clusterStatus.value = none ∨ ¬ f.nodes.Refused ∧
        (f.nodes.value = none ∨ ¬ f.volumes.Refused ∧ f.volumes.value = none)) :
      Refreshes inner f (inner, .error e)
  | noNodes {epoch : EpochId} (hepoch : f.clusterStatus.value = some epoch)
      (hnodes : f.nodes.Refused) : Refreshes inner f (inner.setEpoch epoch, .ok epoch)
  | noVolumes {epoch : EpochId} {nodes : List NodeInfo}
      (hepoch : f.clusterStatus.value = some epoch) (hnodes : f.nodes.value = some nodes)
      (hvolumes : f.volumes.Refused) :
      Refreshes inner f (inner.refresh epoch (cacheNodes parse nodes) [], .ok epoch)
  | complete {epoch : EpochId} {nodes : List NodeInfo} {volumes : List VolumeInfo}
      (hepoch : f.clusterStatus.value = some epoch) (hnodes : f.nodes.value = some nodes)
      (hvolumes : f.volumes.value = some volumes) :
      Refreshes inner f
        (inner.refresh epoch (cacheNodes parse nodes) (volumes.map VolumeInfo.cached), .ok epoch)

variable {parse} {inner : CacheInner} {f : Fetches}

theorem Fetch.value_of_refused {α : Type} {f : Fetch α} (h : f.Refused) : f.value = none := by
  obtain ⟨r, rfl, hr⟩ := h
  simp [value, hr]

theorem Fetch.ends {α : Type} (f : Fetch α) :
    (∃ e, f = .error e) ∨ (∃ r, f = .ok r ∧ r.isSuccess = false) ∨
      (∃ r e, f = .ok r ∧ r.isSuccess = true ∧ r.body = .error e) ∨
      ∃ r a, f = .ok r ∧ r.isSuccess = true ∧ r.body = .ok a := by
  rcases f with e | r
  · exact Or.inl ⟨e, rfl⟩
  · rcases hr : r.isSuccess with _ | _
    · exact Or.inr (Or.inl ⟨r, rfl, hr⟩)
    · rcases hb : r.body with e | a
      · exact Or.inr (Or.inr (Or.inl ⟨r, e, rfl, hr, hb⟩))
      · exact Or.inr (Or.inr (Or.inr ⟨r, a, rfl, hr, hb⟩))

/-- **What a refresh does**, as one of the four: one case per request and per way it can end, in
the order the requests are made. -/
theorem refreshMetadata_refreshes (parse : String → Option String) (inner : CacheInner)
    (f : Fetches) :
    Refreshes parse inner f (refreshMetadata parse inner f) := by
  rcases f.clusterStatus.ends with ⟨e, hs⟩ | ⟨r, hs, hr⟩ | ⟨r, e, hs, hr, hb⟩ |
    ⟨r, epoch, hs, hr, hb⟩
  · simp only [refreshMetadata, hs]
    exact .reported _ (Or.inl (by simp [hs, Fetch.value]))
  · simp only [refreshMetadata, hs, hr]
    exact .reported _ (Or.inl (by simp [hs, hr, Fetch.value]))
  · simp only [refreshMetadata, hs, hr, hb]
    exact .reported _ (Or.inl (by simp [hs, hr, hb, Fetch.value, Except.toOption]))
  have hepoch : f.clusterStatus.value = some epoch := by
    simp [hs, hr, hb, Fetch.value, Except.toOption]
  simp only [refreshMetadata, hs, hr, hb, ↓reduceIte]
  clear hs hr hb r
  rcases f.nodes.ends with ⟨e, hn⟩ | ⟨r, hn, hr⟩ | ⟨r, e, hn, hr, hb⟩ | ⟨r, nodes, hn, hr, hb⟩
  · simp only [hn]
    exact .reported _ (Or.inr ⟨by simp [hn, Fetch.Refused], Or.inl (by simp [hn, Fetch.value])⟩)
  · simp only [hn, hr]
    exact .noNodes hepoch ⟨r, hn, hr⟩
  · simp only [hn, hr, hb]
    exact .reported _ (Or.inr ⟨by simp [hn, hr, Fetch.Refused],
      Or.inl (by simp [hn, hr, hb, Fetch.value, Except.toOption])⟩)
  have hnodes : f.nodes.value = some nodes := by
    simp [hn, hr, hb, Fetch.value, Except.toOption]
  have hgranted : ¬ f.nodes.Refused := by simp [hn, hr, Fetch.Refused]
  simp only [hn, hr, hb, ↓reduceIte]
  clear hn hr hb r
  rcases f.volumes.ends with ⟨e, hv⟩ | ⟨r, hv, hr⟩ | ⟨r, e, hv, hr, hb⟩ | ⟨r, volumes, hv, hr, hb⟩
  · simp only [hv]
    exact .reported _ (Or.inr ⟨hgranted, Or.inr (by simp [hv, Fetch.Refused, Fetch.value])⟩)
  · simp only [hv, hr]
    exact .noVolumes hepoch hnodes ⟨r, hv, hr⟩
  · simp only [hv, hr, hb]
    exact .reported _ (Or.inr ⟨hgranted,
      Or.inr (by simp [hv, hr, hb, Fetch.Refused, Fetch.value, Except.toOption])⟩)
  · simp only [hv, hr, hb]
    exact .complete hepoch hnodes (by simp [hv, hr, hb, Fetch.value, Except.toOption])

/-- What the block handler sees of a refresh: the cache it leaves, or the error it reports. -/
def refreshed (parse : String → Option String) (inner : CacheInner) (f : Fetches) :
    Except Error MetadataCache :=
  (refreshMetadata parse inner f).2.map fun _ => (refreshMetadata parse inner f).1.view

/-- A refresh that reports no error leaves the epoch the cluster status had, whichever node
answered. -/
theorem epoch_of_refreshed {cache : MetadataCache} (h : refreshed parse inner f = .ok cache) :
    f.clusterStatus.value = some cache.epoch := by
  have hcases := refreshMetadata_refreshes parse inner f
  unfold refreshed at h
  generalize refreshMetadata parse inner f = r at h hcases
  cases hcases with
  | reported => cases h
  | noNodes hepoch | noVolumes hepoch | complete hepoch =>
    cases h
    exact hepoch

/-! ## 4. All or nothing -/

/-- All three requests succeed. -/
def Fetches.Complete (f : Fetches) : Prop :=
  f.clusterStatus.value ≠ none ∧ f.nodes.value ≠ none ∧ f.volumes.value ≠ none

/-- **A refresh is all or nothing**: unless all three requests succeed the cache stays. -/
def AllOrNothing (parse : String → Option String) (inner : CacheInner) (f : Fetches) : Prop :=
  ¬ f.Complete → (refreshMetadata parse inner f).1 = inner

/-- The epoch is known, and the nodes are refused while the epoch has moved, or the volumes are
refused and the cache differs from one without volumes. -/
def HalfApplied (parse : String → Option String) (inner : CacheInner) (f : Fetches) : Prop :=
  ∃ epoch, f.clusterStatus.value = some epoch ∧
    (f.nodes.Refused ∧ epoch ≠ inner.epoch ∨
      ∃ nodes, f.nodes.value = some nodes ∧ f.volumes.Refused ∧
        ¬ (epoch = inner.epoch ∧ CacheInner.clusterMapOf (cacheNodes parse nodes)
          = inner.clusterMap ∧ inner.volumes = ∅))

theorem CacheInner.setEpoch_eq_iff (inner : CacheInner) (epoch : EpochId) :
    inner.setEpoch epoch = inner ↔ epoch = inner.epoch := by
  rw [CacheInner.ext_iff]
  simp [setEpoch]

theorem CacheInner.refresh_nil_eq_iff (inner : CacheInner) (epoch : EpochId)
    (nodes : List (NodeId × String)) :
    inner.refresh epoch nodes [] = inner ↔
      epoch = inner.epoch ∧ clusterMapOf nodes = inner.clusterMap ∧ inner.volumes = ∅ := by
  rw [CacheInner.ext_iff]
  simp [refresh, eq_comm]

theorem allOrNothing_of_not_halfApplied (hhalf : ¬ HalfApplied parse inner f) :
    AllOrNothing parse inner f := by
  intro hincomplete
  have h := refreshMetadata_refreshes parse inner f
  unfold HalfApplied at hhalf
  generalize refreshMetadata parse inner f = r at h ⊢
  cases h with
  | reported => rfl
  | noNodes hepoch hnodes =>
    rw [CacheInner.setEpoch_eq_iff]
    by_contra hne
    exact hhalf ⟨_, hepoch, Or.inl ⟨hnodes, hne⟩⟩
  | noVolumes hepoch hnodes hvolumes =>
    rw [CacheInner.refresh_nil_eq_iff]
    by_contra hne
    exact hhalf ⟨_, hepoch, Or.inr ⟨_, hnodes, hvolumes, hne⟩⟩
  | complete hepoch hnodes hvolumes =>
    refine absurd ?_ hincomplete
    simp [Fetches.Complete, hepoch, hnodes, hvolumes]

theorem HalfApplied.not_allOrNothing (hhalf : HalfApplied parse inner f) :
    ¬ AllOrNothing parse inner f := by
  intro hall
  have h := refreshMetadata_refreshes parse inner f
  unfold AllOrNothing Fetches.Complete at hall
  obtain ⟨epoch, hepoch, hrefused⟩ := hhalf
  generalize refreshMetadata parse inner f = r at h hall
  cases h with
  | reported e hfails =>
    rcases hrefused with ⟨hnodes, -⟩ | ⟨nodes, hnodes, hvolumes, -⟩
    · simp_all
    · simp_all
  | noNodes hepoch' hnodes =>
    have hnone := Fetch.value_of_refused hnodes
    simp_all [CacheInner.setEpoch_eq_iff]
  | noVolumes hepoch' hnodes' hvolumes =>
    have hnone := Fetch.value_of_refused hvolumes
    rcases hrefused with ⟨hnodes, -⟩ | ⟨nodes, hnodes, -, hne⟩
    · simp [Fetch.value_of_refused hnodes] at hnodes'
    · simp_all [CacheInner.refresh_nil_eq_iff]
  | complete hepoch' hnodes' hvolumes' =>
    rcases hrefused with ⟨hnodes, -⟩ | ⟨nodes, hnodes, hvolumes, -⟩
    · simp [Fetch.value_of_refused hnodes] at hnodes'
    · simp [Fetch.value_of_refused hvolumes] at hvolumes'

/-- **When a refresh is all or nothing**: exactly when it is not half applied. -/
theorem refreshMetadata_allOrNothing_iff (parse : String → Option String) (inner : CacheInner)
    (f : Fetches) : AllOrNothing parse inner f ↔ ¬ HalfApplied parse inner f :=
  ⟨fun hall hhalf => hhalf.not_allOrNothing hall, allOrNothing_of_not_halfApplied⟩

def knownCache : CacheInner where
  epoch := 3
  clusterMap := (∅ : BTreeMap NodeId String).insert ⟨2#128⟩ "10.0.0.2:7400"
  volumes := (∅ : BTreeMap VolumeId CachedVolume).insert ⟨7#128⟩
    ⟨⟨7#128⟩, 8192, 4096, .replicated 1, ∅⟩

def answered (nodes volumes : Nat) : Fetches where
  clusterStatus := .ok ⟨200, "OK", .ok 5⟩
  nodes := .ok ⟨nodes, "", .ok [⟨⟨2#128⟩, "10.0.0.2:7400"⟩]⟩
  volumes := .ok ⟨volumes, "", .ok [⟨⟨7#128⟩, 8192, .replicated 1⟩]⟩

def knownAfter (nodes volumes : Nat) : CacheInner × Except Error EpochId :=
  refreshMetadata some knownCache (answered nodes volumes)

/-- **Half a refresh.**  With the nodes unavailable, epoch 5 is stored over the nodes and volumes
of epoch 3; with the volumes unavailable, the volume is forgotten.  Both return epoch 5. -/
theorem refreshMetadata_half :
    ((knownAfter 503 200).1.epoch = 5 ∧
        (knownAfter 503 200).1.clusterMap = knownCache.clusterMap ∧
        (knownAfter 503 200).1.volumes = knownCache.volumes ∧
        (knownAfter 503 200).2.toOption = some 5) ∧
      ((⟨7#128⟩ : VolumeId) ∈ knownCache.volumes ∧
        (⟨7#128⟩ : VolumeId) ∉ (knownAfter 200 503).1.volumes ∧
        (knownAfter 200 503).2.toOption = some 5) ∧
      ¬ AllOrNothing some knownCache (answered 503 200) ∧
      ¬ AllOrNothing some knownCache (answered 200 503) := by
  have hepoch : ∀ n v, (answered n v).clusterStatus.value = some 5 := fun _ _ => rfl
  refine ⟨⟨rfl, rfl, rfl, rfl⟩, ⟨?_, ?_, rfl⟩, ?_, ?_⟩
  · exact ExtTreeMap.mem_insert_self
  · exact ExtTreeMap.not_mem_empty
  · exact HalfApplied.not_allOrNothing ⟨5, hepoch _ _, Or.inl ⟨⟨_, rfl, rfl⟩, by decide⟩⟩
  · exact HalfApplied.not_allOrNothing
      ⟨5, hepoch _ _, Or.inr ⟨_, rfl, ⟨_, rfl, rfl⟩, fun h => absurd h.1 (by decide)⟩⟩

/-- **Along runs of refreshes that are all or nothing** the cache is the one the complete
refreshes make: its epoch is the epoch its nodes and volumes were fetched with. -/
theorem run_eq_run_complete [DecidablePred Fetches.Complete] (inner : CacheInner)
    (fs : List Fetches)
    (hfs : Along (refreshMetadata parse) (fun inner f => ¬ HalfApplied parse inner f) inner fs) :
    runState (refreshMetadata parse) inner fs
      = runState (refreshMetadata parse) inner (fs.filter fun f => f.Complete) := by
  induction fs generalizing inner with
  | nil => rfl
  | cons f fs ih =>
    rw [runState_cons, ih _ hfs.2]
    by_cases hf : f.Complete
    · rw [List.filter_cons_of_pos (by simpa using hf), runState_cons]
    · rw [List.filter_cons_of_neg (by simpa using hf), allOrNothing_of_not_halfApplied hfs.1 hf]

end Refresh

/-! ## 5. Reads at the watermark -/

section Watermark

variable {σ : Type} (plane : DataPlane σ) (blake3 : Bytes → BitVec 256) (rs : ReedSolomon)
  (cfg : VolumeConfig)

/-- **A read observes the watermark**: it goes on to the nodes with a cache at or above it, or
fails and asks no node. -/
def ObservesWatermark (env : IoEnv) (c : Client) (s : σ) (request : IoRequest) : Prop :=
  match freshClient env c with
  | .ok c' => (handleRead plane blake3 rs cfg env c s request).1 = c' ∧
      c'.watermark ≤ c'.cache.epoch
  | .error e => handleRead plane blake3 rs cfg env c s request = (c, s, .error e)

/-- A read with a cache at or above the watermark, or with refreshes that bring one. -/
theorem observesWatermark_of_refresh {env : IoEnv} {c : Client}
    (h : c.watermark ≤ c.cache.epoch ∨
      ∀ cache, env.refresh = .ok cache → c.watermark ≤ cache.epoch) (s : σ) (request : IoRequest) :
    ObservesWatermark plane blake3 rs cfg env c s request := by
  unfold ObservesWatermark handleRead
  by_cases hfresh : c.watermark ≤ c.cache.epoch
  · have hok : freshClient env c = .ok c := if_pos hfresh
    simp [hok, hfresh]
  · rcases hrefresh : env.refresh with e | cache
    · have herr : freshClient env c = .error e := by
        rw [freshClient, if_neg hfresh, hrefresh]
      simp [herr]
    · have hok : freshClient env c = .ok { c with cache } := by
        rw [freshClient, if_neg hfresh, hrefresh]
      simpa [hok] using (h.resolve_left hfresh) cache hrefresh

/-- **When reads observe the watermark**: exactly when the cache is at or above it already, or no
refresh that succeeds leaves it below. -/
theorem handleRead_observes_watermark_iff (env : IoEnv) (c : Client) (s : σ)
    (request : IoRequest) :
    ObservesWatermark plane blake3 rs cfg env c s request ↔
      c.watermark ≤ c.cache.epoch ∨
        ∀ cache, env.refresh = .ok cache → c.watermark ≤ cache.epoch := by
  refine ⟨fun h => or_iff_not_imp_left.mpr fun hstale cache hrefresh => ?_,
    fun h => observesWatermark_of_refresh plane blake3 rs cfg h s request⟩
  -- the read goes on with what the refresh brought
  have hok : freshClient env c = .ok { c with cache } := by
    rw [freshClient, if_neg hstale, hrefresh]
  rw [ObservesWatermark, hok] at h
  exact h.2

/-- Over the HTTP client a read observes the watermark when the node that answers the cluster
status is not behind it. -/
theorem observesWatermark_of_status {parse : String → Option String} {inner : CacheInner}
    {f : Fetches} {env : IoEnv} (hrefresh : env.refresh = refreshed parse inner f) {c : Client}
    (hstatus : ∀ epoch, f.clusterStatus.value = some epoch → c.watermark ≤ epoch) (s : σ)
    (request : IoRequest) : ObservesWatermark plane blake3 rs cfg env c s request := by
  refine observesWatermark_of_refresh plane blake3 rs cfg (Or.inr fun cache hcache => ?_) s request
  rw [hrefresh] at hcache
  exact hstatus _ (epoch_of_refreshed hcache)

/-- Nodes that answer every read with blocks of the byte 1, or not at all. -/
def onesPlane (answers : NodeId → Bool) : DataPlane Unit where
  writeExtent := fun _ _ => ((), .error (.network "read only"))
  readExtent := fun _ call =>
    ((), if answers call.nodeId then .ok (List.replicate call.length 1)
      else .error "connection refused")

/-- A metadata service that answers from a replica at epoch 4. -/
def behindEnv : IoEnv := { idsFrom 51 with refresh := .ok { pairClient.cache with epoch := 4 } }

/-- A client whose cache is at epoch 3 and who has seen a commit of epoch 5. -/
def aheadClient : Client :=
  { pairClient with
    cache := { pairClient.cache with epoch := 3 }
    watermark := 5 }

/-- **A read below the watermark**: the refresh brings epoch 4 to a client whose watermark is 5,
and the block is read and returned. -/
theorem handleRead_below_watermark :
    freshClient behindEnv aheadClient
        = .ok { aheadClient with cache := { pairClient.cache with epoch := 4 } } ∧
      (handleRead (onesPlane fun _ => true) volumeBlake3 noCode pairVolume behindEnv aheadClient ()
        (blockRead pairVolume 0 1)).2.2 = .ok (some [1]) ∧
      ¬ ObservesWatermark (onesPlane fun _ => true) volumeBlake3 noCode pairVolume behindEnv
        aheadClient () (blockRead pairVolume 0 1) := by
  have hok : freshClient behindEnv aheadClient
      = .ok { aheadClient with cache := { pairClient.cache with epoch := 4 } } := rfl
  refine ⟨hok, ?_, ?_⟩
  · decide
  · unfold ObservesWatermark
    rw [hok]
    exact fun h => absurd h.2 (by decide)

end Watermark

end Blockyard.Ublk
