/-
# The order of commits and the order of cache updates

`blockyard-ublk`, `write_batcher.rs`: two flushes can be under way at once.  The metadata service
applies their batches one after the other; each flush updates the cache when ITS reply arrives.
Nothing makes the replies arrive in the order in which the batches were applied, so the cache can be
left with the mapping of the commit that lost (`cache_keeps_the_older_commit`).

What is needed is that the cache is updated for a commit only when the batches applied before its
own that touch one of its blocks are through with their cache updates (`Orderly`).  Then the cache
holds the mapping of the commit that was updated last in the order of the service (`Ordered`).  Once
all are through, this is the commit that was applied last: `cache_follows_commit_order`.
-/
import Blockyard.Ublk.WriteBatcher

open Std Machine IntervalTable

namespace Blockyard.Ublk

/-! ## 1. The cache under the batcher -/

variable {commit : PendingCommit} {volumeId : VolumeId} {block i : Nat} {f : Flush}
  {blockSize : VolumeId → Nat} {cache : VolumeCache}

def blockEntry (cache : VolumeCache) (volumeId : VolumeId) (block : Nat) :
    Option CachedExtentMapping :=
  (cache[volumeId]?.getD ∅)[block]?

namespace PendingCommit

def covers (commit : PendingCommit) (volumeId : VolumeId) (block : Nat) : Bool :=
  commit.request.volumeId = volumeId && commit.request.blockRange.start ≤ block &&
    block < commit.request.blockRange.stop

def entryAt (commit : PendingCommit) (block : Nat) : CachedExtentMapping :=
  commit.cacheUpdate.mapping.atBlock commit.cacheUpdate.blockSize
    ((block - commit.request.blockRange.start) * commit.cacheUpdate.blockSize)

theorem covers_iff :
    commit.covers volumeId block = true ↔ commit.request.volumeId = volumeId ∧
      commit.request.blockRange.start ≤ block ∧ block < commit.request.blockRange.stop := by
  simp [covers, and_assoc]

end PendingCommit

/-- **A per-block cache update of the request's own range**, in the block size of the volume and
within `u64`.  Without a `block_range` it is one of a single block. -/
structure PerBlock (blockSize : VolumeId → Nat) (request : CommitRequest) (u : CacheUpdate) :
    Prop where
  volume : u.volumeId = request.volumeId
  range : u.blockRange = some request.blockRange ∨ u.blockRange = none ∧
    request.blockRange = ⟨u.blockStart, u.blockStart + 1⟩ ∧
    u.mapping = u.mapping.atBlock u.blockSize 0
  size : u.blockSize = blockSize request.volumeId
  size_pos : 0 < u.blockSize
  stop_lt : request.blockRange.stop < 2 ^ 64
  offsets_lt : (request.blockRange.stop - 1 - request.blockRange.start) * u.blockSize < 2 ^ 64

theorem PerBlock.fits (ovf : Overflow) {request : CommitRequest} {u : CacheUpdate}
    (h : PerBlock blockSize request u) : u.Fits ovf := by
  refine .inr fun range hrange => ?_
  rcases h.range with hsome | ⟨hnone, -⟩
  · rw [hsome] at hrange
    cases hrange
    exact h.offsets_lt
  · rw [hnone] at hrange
    cases hrange

theorem PerBlock.getElem?_cacheStep (ovf : Overflow)
    (h : PerBlock blockSize commit.request commit.cacheUpdate) (mappings : ExtentMappings)
    (block : Nat) :
    (cacheStep ovf commit.cacheUpdate.blockSize mappings commit.cacheUpdate.call).1[block]?
      = if commit.request.blockRange.start ≤ block ∧ block < commit.request.blockRange.stop then
          some (commit.entryAt block) else mappings[block]? := by
  unfold CacheUpdate.call
  rcases h.range with hsome | ⟨hnone, hrange, hmapping⟩
  · rw [hsome]
    exact getElem?_setExtentMappingRange ovf mappings commit.cacheUpdate.mapping h.offsets_lt block
  · rw [hnone, hrange]
    dsimp only [cacheStep]
    by_cases hblock : block = commit.cacheUpdate.blockStart
    · subst hblock
      simp [PendingCommit.entryAt, hrange, ← hmapping]
    · rw [getElem?_insert_of_ne _ (Ne.symm hblock), if_neg (by omega)]

/-- **What such an update does to the cache.** -/
theorem blockEntry_applyUpdate (ovf : Overflow)
    (h : PerBlock blockSize commit.request commit.cacheUpdate)
    (hcached : commit.request.volumeId ∈ cache) (volumeId : VolumeId) (block : Nat) :
    blockEntry (applyUpdate ovf cache commit.cacheUpdate).1 volumeId block
      = if commit.covers volumeId block then some (commit.entryAt block)
        else blockEntry cache volumeId block := by
  obtain ⟨mappings, hmappings⟩ := exists_getElem?_of_mem hcached
  rw [applyUpdate, h.volume, hmappings]
  dsimp only
  by_cases hvol : commit.request.volumeId = volumeId
  · subst hvol
    rw [blockEntry, blockEntry, ExtTreeMap.getElem?_insert_self, hmappings, Option.getD_some,
      Option.getD_some, h.getElem?_cacheStep ovf]
    simp only [PendingCommit.covers_iff, true_and]
  · rw [blockEntry, getElem?_insert_of_ne _ hvol, ← blockEntry, if_neg]
    rw [PendingCommit.covers_iff]
    exact fun hcovers => hvol hcovers.1

theorem mem_applyUpdate {ovf : Overflow} {u : CacheUpdate} (h : volumeId ∈ cache) :
    volumeId ∈ (applyUpdate ovf cache u).1 := by
  unfold applyUpdate
  split
  · exact h
  · exact ExtTreeMap.mem_insert.mpr (.inr h)

/-! ## 2. The commits of the applied batches -/

/-- The part of a batch whose cache updates are made. -/
def Flush.updated (f : Flush) : List PendingCommit :=
  match f.stage with
  | .updating _ n => f.batch.take n
  | .answering (.ok _) _ | .done (.ok _) => f.batch
  | _ => []

/-- A flush is through with its cache updates. -/
def Flush.finished (f : Flush) : Bool :=
  match f.stage with
  | .answering _ _ | .done _ => true
  | _ => false

def Touches (batch : List PendingCommit) (volumeId : VolumeId) (block : Nat) : Prop :=
  ∃ commit ∈ batch, commit.covers volumeId block = true

def lastFor (volumeId : VolumeId) (block : Nat) (commits : List PendingCommit) :
    Option PendingCommit :=
  commits.reverse.find? fun commit => commit.covers volumeId block

theorem lastFor_append (volumeId : VolumeId) (block : Nat) (earlier later : List PendingCommit) :
    lastFor volumeId block (earlier ++ later)
      = (lastFor volumeId block later).or (lastFor volumeId block earlier) := by
  rw [lastFor, List.reverse_append, List.find?_append]
  rfl

theorem lastFor_eq_none {commits : List PendingCommit} (h : ¬ Touches commits volumeId block) :
    lastFor volumeId block commits = none := by
  rw [lastFor, List.find?_eq_none]
  intro commit hcommit hcovers
  exact h ⟨commit, List.mem_reverse.mp hcommit, hcovers⟩

theorem mem_of_lastFor {commits : List PendingCommit}
    (h : lastFor volumeId block commits = some commit) :
    commit ∈ commits ∧ commit.covers volumeId block = true := by
  unfold lastFor at h
  have hcovers := List.find?_some h
  exact ⟨List.mem_reverse.mp (List.mem_of_find?_eq_some h), hcovers⟩

theorem lastFor_singleton (volumeId : VolumeId) (block : Nat) (commit : PendingCommit) :
    lastFor volumeId block [commit]
      = if commit.covers volumeId block then some commit else none := by
  simp [lastFor, List.find?_cons]
  split <;> simp_all

/-- One more commit, and the commits behind it: what counts is whether it is for the block, unless
one of those behind it is. -/
theorem lastFor_insert (earlier : List PendingCommit) {later : List PendingCommit}
    (hlater : commit.covers volumeId block = true → ¬ Touches later volumeId block) :
    lastFor volumeId block (earlier ++ [commit] ++ later)
      = if commit.covers volumeId block then some commit
        else lastFor volumeId block (earlier ++ later) := by
  rw [lastFor_append, lastFor_append, lastFor_append, lastFor_singleton]
  split
  case isTrue hcovers =>
    rw [lastFor_eq_none (hlater hcovers)]
    rfl
  case isFalse => rfl

/-- One of several distinct flushes makes one more update. -/
theorem flatMap_of_one_more {f g : Nat → List PendingCommit} {earlier later : List Nat}
    (hnodup : (earlier ++ i :: later).Nodup) (hother : ∀ j, j ≠ i → g j = f j)
    (hown : g i = f i ++ [commit]) :
    (earlier ++ i :: later).flatMap g
      = (earlier.flatMap f ++ f i) ++ [commit] ++ later.flatMap f := by
  have hnot : i ∉ earlier ++ later := (List.nodup_cons.mp (List.nodup_middle.mp hnodup)).1
  have hearlier : earlier.flatMap g = earlier.flatMap f :=
    List.flatMap_congr fun j hj => hother j fun he => hnot (he ▸ List.mem_append_left _ hj)
  have hlater : later.flatMap g = later.flatMap f :=
    List.flatMap_congr fun j hj => hother j fun he => hnot (he ▸ List.mem_append_right _ hj)
  simp [hown, hearlier, hlater]

namespace Batcher

def batchAt {κ : Type} (s : Batcher κ) (i : Nat) : List PendingCommit :=
  (s.flushes[i]?.map Flush.batch).getD []

/-- The part of it whose cache updates are made. -/
def updatedAt {κ : Type} (s : Batcher κ) (i : Nat) : List PendingCommit :=
  (s.flushes[i]?.map Flush.updated).getD []

/-- A flush is through with its cache updates. -/
def FinishedAt {κ : Type} (s : Batcher κ) (i : Nat) : Prop :=
  ∃ f, s.flushes[i]? = some f ∧ f.finished = true

/-- The commits that the metadata service has applied, in its order. -/
def appliedCommits {κ : Type} (s : Batcher κ) : List PendingCommit := s.applied.flatMap s.batchAt

/-- The commit that a flush updates the cache for next. -/
def nextUpdate {κ : Type} (s : Batcher κ) (i : Nat) : Option PendingCommit :=
  match s.flushes[i]? with
  | some ⟨batch, .updating _ n⟩ => batch[n]?
  | _ => none

/-- **The condition on a step**: commits come with a per-block cache update for their range, and the
cache is updated for one only when the batches applied before its own that touch one of its blocks
are through with their cache updates. -/
def Orderly (blockSize : VolumeId → Nat) (s : Batcher VolumeCache) : Event → Prop
  | .submit request cacheUpdate =>
    PerBlock blockSize request cacheUpdate ∧ request.volumeId ∈ s.cache
  | .advance i => ∀ commit, s.nextUpdate i = some commit → ∀ j, [j, i].Sublist s.applied →
    ∀ volumeId block, commit.covers volumeId block = true → Touches (s.batchAt j) volumeId block →
    s.FinishedAt j
  | _ => True

/-! ## 3. What orderly steps keep -/

/-- **The invariant of orderly runs**: a batch that has updated a block has waited for the batches
applied before it that touch the block, and the cache holds the entry of the commit updated last, in
the order of the service. -/
structure Ordered (ovf : Overflow) (blockSize : VolumeId → Nat) (s : Batcher VolumeCache) :
    Prop where
  inv : s.Inv (applyUpdate ovf)
  perBlock : ∀ commit ∈ s.submitted, PerBlock blockSize commit.request commit.cacheUpdate
  cached : ∀ commit ∈ s.submitted, commit.request.volumeId ∈ s.cache
  nodup : s.applied.Nodup
  taken : ∀ i ∈ s.applied, i < s.flushes.length
  past : ∀ i (f : Flush) epoch, s.flushes[i]? = some f → f.completed = some (.ok epoch) →
    i ∈ s.applied
  turns : s.applied.Pairwise fun i j => ∀ volumeId block, Touches (s.batchAt i) volumeId block →
    Touches (s.updatedAt j) volumeId block → s.FinishedAt i
  content : ∀ volumeId block commit,
    lastFor volumeId block (s.applied.flatMap s.updatedAt) = some commit →
      blockEntry s.cache volumeId block = some (commit.entryAt block)

variable {ovf : Overflow} {s t : Batcher VolumeCache}

theorem ordered_new (ovf : Overflow) (blockSize : VolumeId → Nat) (cache : VolumeCache)
    (watermark : EpochId) : Ordered ovf blockSize (new cache watermark) := by
  refine ⟨inv_new _ cache watermark, ?_, ?_, ?_, ?_, ?_, ?_, ?_⟩ <;> simp [new, lastFor]

theorem mem_submitted_of_batchAt (h : s.Inv (applyUpdate ovf)) (hcommit : commit ∈ s.batchAt i) :
    commit ∈ s.submitted := by
  rw [batchAt] at hcommit
  cases hf : s.flushes[i]? with
  | none =>
    rw [hf] at hcommit
    cases hcommit
  | some f =>
    rw [hf] at hcommit
    rw [← h.order]
    refine List.mem_append_left _ (List.mem_flatten.mpr ⟨f.batch, ?_, hcommit⟩)
    exact List.mem_map_of_mem (List.mem_of_getElem? hf)

/-- **A step that makes no cache update and applies nothing.** -/
theorem Ordered.quiet (h : Ordered ovf blockSize s) (hinv : t.Inv (applyUpdate ovf))
    (hsubmitted : t.submitted = s.submitted) (happlied : t.applied = s.applied)
    (hcache : t.cache = s.cache)
    (hlength : s.flushes.length ≤ t.flushes.length)
    (hpast : ∀ i (f : Flush) epoch, t.flushes[i]? = some f → f.completed = some (.ok epoch) →
      i ∈ s.applied)
    (hsame : ∀ i < s.flushes.length, t.batchAt i = s.batchAt i ∧ t.updatedAt i = s.updatedAt i ∧
      (s.FinishedAt i → t.FinishedAt i)) : Ordered ovf blockSize t where
  inv := hinv
  perBlock := by rw [hsubmitted]; exact h.perBlock
  cached := by rw [hsubmitted, hcache]; exact h.cached
  nodup := by rw [happlied]; exact h.nodup
  taken := by
    rw [happlied]
    exact fun i hi => Nat.lt_of_lt_of_le (h.taken i hi) hlength
  past := by rw [happlied]; exact hpast
  turns := by
    rw [happlied]
    refine h.turns.imp_of_mem fun {i j} hi hj hij volumeId block hti htj => ?_
    obtain ⟨hbatch, -, hfinished⟩ := hsame i (h.taken i hi)
    rw [hbatch] at hti
    rw [(hsame j (h.taken j hj)).2.1] at htj
    exact hfinished (hij volumeId block hti htj)
  content := by
    have hupdated : t.applied.flatMap t.updatedAt = s.applied.flatMap s.updatedAt := by
      rw [happlied]
      exact List.flatMap_congr fun i hi => (hsame i (h.taken i hi)).2.1
    rw [hupdated, hcache]
    exact h.content

theorem getElem?_setStage (hf : s.flushes[i]? = some f) (stage : Stage) (j : Nat) :
    (s.setStage i f stage).flushes[j]?
      = if i = j then some { f with stage := stage } else s.flushes[j]? := by
  obtain ⟨hi, -⟩ := List.getElem?_eq_some_iff.mp hf
  simp [setStage, List.getElem?_set, hi]

theorem batchAt_of_setStage (hf : s.flushes[i]? = some f) {stage : Stage}
    (hflushes : t.flushes = (s.setStage i f stage).flushes) (j : Nat) :
    t.batchAt j = s.batchAt j := by
  rw [batchAt, batchAt, hflushes, getElem?_setStage hf]
  split
  case isTrue hij =>
    rw [← hij, hf]
    rfl
  case isFalse => rfl

/-- A flush that gets on without a cache update. -/
theorem Ordered.stage (h : Ordered ovf blockSize s) (hinv : t.Inv (applyUpdate ovf))
    (hf : s.flushes[i]? = some f)
    {stage : Stage} (hflushes : t.flushes = (s.setStage i f stage).flushes)
    (hsubmitted : t.submitted = s.submitted) (happlied : t.applied = s.applied)
    (hcache : t.cache = s.cache)
    (hupdated : ({ f with stage := stage } : Flush).updated = f.updated)
    (hfinished : f.finished = true → ({ f with stage := stage } : Flush).finished = true)
    (hcompleted : ∀ epoch, ({ f with stage := stage } : Flush).completed = some (.ok epoch) →
      i ∈ s.applied) : Ordered ovf blockSize t := by
  have hget : ∀ j, t.flushes[j]? = if i = j then some { f with stage := stage }
      else s.flushes[j]? := by
    rw [hflushes]
    exact getElem?_setStage hf stage
  refine h.quiet hinv hsubmitted happlied hcache ?_ ?_ ?_
  · rw [hflushes, setStage, List.length_set]
  · intro j g epoch hg hcomp
    rw [hget] at hg
    split at hg
    case isTrue hij =>
      cases hg
      exact hij ▸ hcompleted epoch hcomp
    case isFalse => exact h.past j g epoch hg hcomp
  · intro j _
    refine ⟨batchAt_of_setStage hf hflushes j, ?_⟩
    rw [updatedAt, updatedAt, FinishedAt, FinishedAt, hget]
    by_cases hij : i = j
    · subst hij
      rw [if_pos rfl, hf]
      refine ⟨hupdated, ?_⟩
      rintro ⟨_, ⟨⟩, hfin⟩
      exact ⟨_, rfl, hfinished hfin⟩
    · rw [if_neg hij]
      exact ⟨rfl, id⟩

theorem take_frame {κ : Type} (s : Batcher κ) : s.take.submitted = s.submitted ∧
    s.take.applied = s.applied ∧ s.take.cache = s.cache := by
  unfold Batcher.take
  split <;> exact ⟨rfl, rfl, rfl⟩

theorem Ordered.take (h : Ordered ovf blockSize s) (hinv : t.Inv (applyUpdate ovf))
    (hflushes : t.flushes = s.take.flushes) (hsubmitted : t.submitted = s.submitted)
    (happlied : t.applied = s.applied)
    (hcache : t.cache = s.cache) : Ordered ovf blockSize t := by
  unfold Batcher.take at hflushes
  split at hflushes
  · refine h.quiet hinv hsubmitted happlied hcache (by rw [hflushes]) ?_ ?_
    · rw [hflushes]
      exact h.past
    · intro i _
      simp [batchAt, updatedAt, FinishedAt, hflushes]
  · have hold : ∀ i < s.flushes.length, t.flushes[i]? = s.flushes[i]? := fun i hi => by
      rw [hflushes, List.getElem?_append_left hi]
    refine h.quiet hinv hsubmitted happlied hcache (by rw [hflushes]; simp) ?_ ?_
    · intro i f epoch hf hcompleted
      by_cases hi : i < s.flushes.length
      · exact h.past i f epoch ((hold i hi).symm.trans hf) hcompleted
      · -- The new flush has not called yet.
        rw [hflushes, List.getElem?_append_right (Nat.le_of_not_lt hi)] at hf
        have hnew := List.mem_of_getElem? hf
        cases List.mem_singleton.mp hnew
        cases hcompleted
    · intro i hi
      simp [batchAt, updatedAt, FinishedAt, hold i hi]

theorem updatedAt_of_calling {κ : Type} {s : Batcher κ} (hf : s.flushes[i]? = some f)
    (hcalling : f.stage = .calling) : s.updatedAt i = [] := by
  simp [updatedAt, hf, Flush.updated, hcalling]

theorem Ordered.apply (h : Ordered ovf blockSize s) (hf : s.flushes[i]? = some f)
    (hcalling : f.stage = .calling) (hnew : i ∉ s.applied) :
    Ordered ovf blockSize { s with applied := s.applied ++ [i] } where
  inv := h.inv.congr rfl rfl rfl rfl rfl
  perBlock := h.perBlock
  cached := h.cached
  nodup := by
    rw [List.nodup_append]
    refine ⟨h.nodup, List.nodup_singleton i, ?_⟩
    rintro j hj k hk rfl
    cases List.mem_singleton.mp hk
    exact hnew hj
  taken := by
    intro j hj
    rcases List.mem_append.mp hj with hj | hj
    · exact h.taken j hj
    · cases List.mem_singleton.mp hj
      exact (List.getElem?_eq_some_iff.mp hf).1
  past := fun j g epoch hg hcompleted => List.mem_append_left _ (h.past j g epoch hg hcompleted)
  turns := by
    refine List.pairwise_append.mpr ⟨h.turns, List.pairwise_singleton _ _, ?_⟩
    intro j hj k hk volumeId block hti htk
    cases List.mem_singleton.mp hk
    obtain ⟨commit, hcommit, -⟩ : Touches (s.updatedAt i) volumeId block := htk
    rw [updatedAt_of_calling hf hcalling] at hcommit
    cases hcommit
  content := by
    intro volumeId block commit hlast
    refine h.content volumeId block commit ?_
    rw [← hlast, List.flatMap_append, List.flatMap_singleton]
    show _ = lastFor volumeId block (s.applied.flatMap s.updatedAt ++ s.updatedAt i)
    rw [updatedAt_of_calling hf hcalling, List.append_nil]

/-- No batch applied behind an unfinished one has updated a block of it: it would have had to
wait. -/
theorem Ordered.later_untouched (h : Ordered ovf blockSize s) {earlier later : List Nat}
    (hsplit : s.applied = earlier ++ i :: later) (hf : s.flushes[i]? = some f)
    (hunfinished : f.finished = false) (hti : Touches (s.batchAt i) volumeId block) :
    ¬ Touches (later.flatMap s.updatedAt) volumeId block := by
  rintro ⟨commit, hcommit, hcovers⟩
  obtain ⟨j, hj, hupdated⟩ := List.mem_flatMap.mp hcommit
  have hturns := h.turns
  rw [hsplit] at hturns
  have hij := (List.pairwise_cons.mp (List.pairwise_append.mp hturns).2.1).1 j hj
  obtain ⟨g, hg, hfinished⟩ := hij volumeId block hti ⟨commit, hupdated, hcovers⟩
  rw [hf] at hg
  cases hg
  rw [hunfinished] at hfinished
  cases hfinished

/-- **A cache update in its turn.** -/
theorem Ordered.update (h : Ordered ovf blockSize s) (hinv : t.Inv (applyUpdate ovf))
    (hf : s.flushes[i]? = some f) {epoch : EpochId} {n : Nat} (hstage : f.stage = .updating epoch n)
    (hcommit : f.batch[n]? = some commit) (horderly : s.Orderly blockSize (.advance i))
    {cache : VolumeCache} {done : Option Unit}
    (hmade : applyUpdate ovf s.cache commit.cacheUpdate = (cache, done))
    (ht : t = { s.setStage i f (.updating epoch (n + 1)) with cache }) :
    Ordered ovf blockSize t := by
  have hflushes : t.flushes = (s.setStage i f (.updating epoch (n + 1))).flushes := by rw [ht]
  have hget : ∀ j, t.flushes[j]? = if i = j then some ⟨f.batch, .updating epoch (n + 1)⟩
      else s.flushes[j]? := by
    rw [hflushes]
    exact getElem?_setStage hf _
  have happlied : t.applied = s.applied := by rw [ht]; rfl
  have hunfinished : f.finished = false := by simp [Flush.finished, hstage]
  have hbatch : commit ∈ s.batchAt i := by
    rw [batchAt, hf]
    exact List.mem_of_getElem? hcommit
  have hmem : commit ∈ s.submitted := mem_submitted_of_batchAt h.inv hbatch
  have hturn : i ∈ s.applied := h.past i f epoch hf (by simp [Flush.completed, hstage])
  have hnext : s.nextUpdate i = some commit := by
    obtain ⟨batch, stage⟩ := f
    cases hstage
    simp only [nextUpdate, hf, hcommit]
  have hother : ∀ j, j ≠ i → t.updatedAt j = s.updatedAt j := by
    intro j hne
    rw [updatedAt, updatedAt, hget, if_neg (Ne.symm hne)]
  have hown : t.updatedAt i = s.updatedAt i ++ [commit] := by
    rw [updatedAt, updatedAt, hget, if_pos rfl, hf]
    simp [Flush.updated, hstage, List.take_add_one, hcommit]
  have hcache : t.cache = (applyUpdate ovf s.cache commit.cacheUpdate).1 := by rw [ht, hmade]
  refine ⟨hinv, ?_, ?_, ?_, ?_, ?_, ?_, ?_⟩
  · rw [ht]
    exact h.perBlock
  · rw [hcache, ht]
    exact fun c hc => mem_applyUpdate (h.cached c hc)
  · rw [happlied]
    exact h.nodup
  · rw [ht]
    simpa [setStage] using h.taken
  · intro j g epoch' hg hcompleted
    rw [happlied]
    rw [hget] at hg
    split at hg
    case isTrue hij => exact hij ▸ hturn
    case isFalse => exact h.past j g epoch' hg hcompleted
  · rw [happlied]
    refine List.pairwise_iff_forall_sublist.mpr fun {j k} hjk volumeId block htj htk => ?_
    rw [batchAt_of_setStage hf hflushes] at htj
    have hold := List.pairwise_iff_forall_sublist.mp h.turns hjk volumeId block htj
    -- Either the later batch has updated the block before, or it does so now.
    have hwaited : s.FinishedAt j := by
      by_cases hk : k = i
      · subst hk
        rw [hown] at htk
        obtain ⟨c, hc, hcovers⟩ := htk
        rcases List.mem_append.mp hc with hc | hc
        · exact hold ⟨c, hc, hcovers⟩
        · cases List.mem_singleton.mp hc
          exact horderly commit hnext j hjk volumeId block hcovers htj
      · rw [hother k hk] at htk
        exact hold htk
    obtain ⟨g, hg, hfinished⟩ := hwaited
    refine ⟨g, ?_, hfinished⟩
    rw [hget, if_neg, hg]
    rintro rfl
    rw [hf] at hg
    cases hg
    rw [hunfinished] at hfinished
    cases hfinished
  · -- The updated commits, with the new one behind the others of its batch.
    obtain ⟨earlier, later, hsplit⟩ := List.append_of_mem hturn
    have hnow := flatMap_of_one_more (hsplit ▸ h.nodup) hother hown
    intro volumeId block last hlast
    rw [happlied, hsplit, hnow, lastFor_insert _ fun hcovers =>
      h.later_untouched hsplit hf hunfinished ⟨commit, hbatch, hcovers⟩] at hlast
    have hentry : blockEntry t.cache volumeId block
        = if commit.covers volumeId block then some (commit.entryAt block)
          else blockEntry s.cache volumeId block := by
      rw [hcache]
      exact blockEntry_applyUpdate ovf (h.perBlock commit hmem) (h.cached commit hmem) _ _
    rw [hentry]
    split at hlast
    case isTrue hcovers =>
      cases hlast
      exact if_pos hcovers
    case isFalse hcovers =>
      rw [if_neg hcovers]
      refine h.content volumeId block last ?_
      rw [hsplit, ← hlast, List.flatMap_append, List.flatMap_cons, List.append_assoc]

theorem Ordered.advance (h : Ordered ovf blockSize s) (hf : s.flushes[i]? = some f)
    (horderly : s.Orderly blockSize (.advance i)) :
    Ordered ovf blockSize (s.advance (applyUpdate ovf) i f) := by
  have hinv : (s.advance (applyUpdate ovf) i f).Inv (applyUpdate ovf) := h.inv.advance hf
  unfold Batcher.advance at hinv ⊢
  split
  case h_1 | h_2 | h_3 | h_4 => exact h
  case h_5 epoch hstage =>
    rw [hstage] at hinv
    refine h.stage hinv hf rfl rfl rfl rfl ?_ ?_ ?_
    · simp [Flush.updated, hstage]
    · simp [Flush.finished, hstage]
    · intro _ _
      exact h.past i f epoch hf (by simp [Flush.completed, hstage])
  case h_6 e hstage =>
    rw [hstage] at hinv
    refine h.stage hinv hf rfl rfl rfl rfl ?_ ?_ ?_
    · simp [Flush.updated, hstage]
    · simp [Flush.finished, hstage]
    · simp [Flush.completed]
  case h_7 epoch n hstage =>
    rw [hstage] at hinv
    have happlied : i ∈ s.applied := h.past i f epoch hf (by simp [Flush.completed, hstage])
    split
    case h_1 commit hcommit =>
      simp only [hcommit] at hinv
      split
      case h_1 cache hmade =>
        rw [hmade] at hinv
        exact h.update hinv hf hstage hcommit horderly hmade rfl
      case h_2 cache hpanic =>
        have hmem : commit ∈ s.submitted := mem_submitted_of_batchAt h.inv (by
          rw [batchAt, hf]
          exact List.mem_of_getElem? hcommit)
        have hdone := applyUpdate_done ((h.perBlock commit hmem).fits ovf) s.cache
        rw [hpanic] at hdone
        cases hdone
    case h_2 hend =>
      simp only [hend] at hinv
      refine h.stage hinv hf rfl rfl rfl rfl ?_ ?_ fun _ _ => happlied
      · have hall : f.batch.take n = f.batch :=
          List.take_of_length_le (List.getElem?_eq_none_iff.mp hend)
        simp [Flush.updated, hstage, hall]
      · simp [Flush.finished, hstage]
  case h_8 result n hstage =>
    rw [hstage] at hinv
    have happlied : ∀ epoch, result = .ok epoch → i ∈ s.applied := by
      rintro epoch rfl
      exact h.past i f epoch hf (by simp [Flush.completed, hstage])
    split
    case h_1 commit hcommit =>
      simp only [hcommit] at hinv
      refine h.stage hinv hf rfl rfl rfl rfl ?_ ?_ ?_
      · cases result <;> simp [Flush.updated, hstage]
      · simp [Flush.finished]
      · simpa [Flush.completed] using happlied
    case h_2 hend =>
      simp only [hend] at hinv
      refine h.stage hinv hf rfl rfl rfl rfl ?_ ?_ ?_
      · cases result <;> simp [Flush.updated, hstage]
      · simp [Flush.finished]
      · simpa [Flush.completed] using happlied

/-- **Every orderly step keeps the order.** -/
theorem Ordered.step (h : Ordered ovf blockSize s) {event : Event}
    (horderly : s.Orderly blockSize event) :
    Ordered ovf blockSize (Batcher.step (applyUpdate ovf) s event).1 := by
  have hinv : (Batcher.step (applyUpdate ovf) s event).1.Inv (applyUpdate ovf) := h.inv.step event
  cases event with
  | submit request cacheUpdate =>
    refine ⟨hinv, ?_, ?_, h.nodup, h.taken, h.past, h.turns, h.content⟩
    · exact List.forall_mem_append.mpr ⟨h.perBlock, List.forall_mem_singleton.mpr horderly.1⟩
    · exact List.forall_mem_append.mpr ⟨h.cached, List.forall_mem_singleton.mpr horderly.2⟩
  | flush => exact h.take hinv rfl (take_frame s).1 (take_frame s).2.1 (take_frame s).2.2
  | wake =>
    rw [Batcher.step] at hinv ⊢
    split
    case isTrue hwake =>
      rw [if_pos hwake] at hinv
      exact h.quiet hinv rfl rfl rfl (Nat.le_refl _) h.past fun i _ => ⟨rfl, rfl, id⟩
    case isFalse => exact h
  | drain =>
    rw [Batcher.step] at hinv ⊢
    split
    case isTrue hcollecting =>
      rw [if_pos hcollecting] at hinv
      split
      case isTrue hempty =>
        rw [if_pos hempty] at hinv
        exact h.quiet hinv rfl rfl rfl (Nat.le_refl _) h.past fun i _ => ⟨rfl, rfl, id⟩
      case isFalse hsome =>
        rw [if_neg hsome] at hinv
        exact h.take hinv rfl (take_frame s).1 (take_frame s).2.1 (take_frame s).2.2
    case isFalse => exact h
  | apply i =>
    rw [Batcher.step]
    split
    case h_1 f hf =>
      split
      case isTrue hcalling => exact h.apply hf hcalling.1 hcalling.2
      case isFalse => exact h
    case h_2 => exact h
  | complete i result =>
    rw [Batcher.step] at hinv ⊢
    split
    case h_1 f hf =>
      split
      case isTrue hcalling =>
        simp only [hf, if_pos hcalling] at hinv
        refine h.stage hinv hf rfl rfl rfl rfl ?_ ?_ ?_
        · simp [Flush.updated, hcalling.1]
        · simp [Flush.finished, hcalling.1]
        · intro epoch hepoch
          cases hepoch
          exact hcalling.2 rfl
      case isFalse => exact h
    case h_2 => exact h
  | advance i =>
    rw [Batcher.step]
    split
    case h_1 f hf => exact h.advance hf horderly
    case h_2 => exact h
  | abandon i =>
    rw [Batcher.step] at hinv ⊢
    split
    case h_1 f hf =>
      split
      case isTrue hcalling =>
        simp only [hf, if_pos hcalling] at hinv
        refine h.stage hinv hf rfl rfl rfl rfl ?_ ?_ ?_
        · simp [Flush.updated, hcalling]
        · simp [Flush.finished, hcalling]
        · simp [Flush.completed]
      case isFalse => exact h
    case h_2 => exact h

/-! ## 4. When all batches are through -/

/-- All flushes are done, and their calls have succeeded. -/
def AllCommitted {κ : Type} (s : Batcher κ) : Prop :=
  ∀ f ∈ s.flushes, ∃ epoch, f.stage = .done (.ok epoch)

/-- **The promise**: the cached mapping of a block is that of the commit that was applied last for
it. -/
def FollowsCommitOrder (ovf : Overflow) (blockSize : VolumeId → Nat) (s : Batcher VolumeCache) :
    Prop :=
  ∀ volumeId block commit, lastFor volumeId block s.appliedCommits = some commit →
    findExtentForRange ovf (blockSize volumeId) (s.cache[volumeId]?.getD ∅) block
      = some (some (block, commit.entryAt block))

/-- An entry of one block is found at this block. -/
theorem findExtentForRange_of_entry (ovf : Overflow) {size offset : Nat} {mappings : ExtentMappings}
    {base : CachedExtentMapping} (hpos : 0 < size) (hblock : block + 1 < 2 ^ 64)
    (hentry : mappings[block]? = some (base.atBlock size offset)) :
    findExtentForRange ovf size mappings block = some (some (block, base.atBlock size offset)) := by
  have hsize : 0 < (base.atBlock size offset).sizeBytes := hpos
  simp [findExtentForRange, floor_self hentry, hsize, CachedExtentMapping.extentBlocks_atBlock hpos,
    addU64_of_lt ovf hblock]

/-- **The cache follows the commit order along every orderly run.** -/
theorem cache_follows_commit_order (ovf : Overflow) (blockSize : VolumeId → Nat)
    (cache : VolumeCache) (watermark : EpochId) (events : List Event)
    (horderly : Along (step (applyUpdate ovf)) (Orderly blockSize) (new cache watermark) events)
    (hall : (after (applyUpdate ovf) cache watermark events).AllCommitted) :
    FollowsCommitOrder ovf blockSize (after (applyUpdate ovf) cache watermark events) := by
  have h : Ordered ovf blockSize (after (applyUpdate ovf) cache watermark events) :=
    runState_of_along (ordered_new ovf blockSize cache watermark) horderly
      fun _ _ h horderly => h.step horderly
  generalize after (applyUpdate ovf) cache watermark events = s at h hall
  intro volumeId block commit hlast
  -- Everything applied has been updated.
  have hupdated : s.appliedCommits = s.applied.flatMap s.updatedAt := by
    refine List.flatMap_congr fun i hi => ?_
    obtain ⟨f, hf⟩ : ∃ f, s.flushes[i]? = some f :=
      ⟨_, List.getElem?_eq_getElem (h.taken i hi)⟩
    obtain ⟨epoch, hdone⟩ := hall f (List.mem_of_getElem? hf)
    simp [batchAt, updatedAt, hf, Flush.updated, hdone]
  obtain ⟨happlied, hcovers⟩ := mem_of_lastFor hlast
  have hmem : commit ∈ s.submitted := by
    obtain ⟨i, -, hi⟩ := List.mem_flatMap.mp happlied
    exact mem_submitted_of_batchAt h.inv hi
  rw [hupdated] at hlast
  obtain ⟨rfl, -, hstop⟩ := PendingCommit.covers_iff.mp hcovers
  have hblock := h.perBlock commit hmem
  rw [← hblock.size]
  refine findExtentForRange_of_entry ovf hblock.size_pos ?_ (h.content _ block commit hlast)
  have := hblock.stop_lt
  omega

/-! ## 5. Two commits to one block -/

def blockCommit (extentId : ExtentId) : CommitRequest :=
  ⟨⟨7#128⟩, ⟨0, 1⟩, extentId, 1, 1, [], [], none, none⟩

def blockUpdate (extentId : ExtentId) : CacheUpdate :=
  ⟨⟨7#128⟩, 0, some ⟨0, 1⟩, 4096, ⟨extentId, 1, [], [], 4096, 0⟩⟩

def emptyVolume : VolumeCache := (∅ : VolumeCache).insert ⟨7#128⟩ ∅

/-- Two batches are applied one after the other, and the replies come in the same order. -/
def inOrder : List Event :=
  [.submit (blockCommit ⟨1#128⟩) (blockUpdate ⟨1#128⟩), .flush,
    .submit (blockCommit ⟨2#128⟩) (blockUpdate ⟨2#128⟩), .flush,
    .apply 0, .apply 1, .complete 0 (.ok 1),
    .advance 0, .advance 0, .advance 0, .advance 0, .advance 0, .complete 1 (.ok 2),
    .advance 1, .advance 1, .advance 1, .advance 1, .advance 1]

theorem perBlock_blockUpdate (extentId : ExtentId) :
    PerBlock (fun _ => 4096) (blockCommit extentId) (blockUpdate extentId) :=
  ⟨rfl, .inl rfl, rfl, by simp [blockUpdate], by simp [blockCommit], by simp [blockCommit]⟩

theorem cache_follows_commit_order_in_turn :
    FollowsCommitOrder .checked (fun _ => 4096)
      (after (applyUpdate .checked) emptyVolume 0 inOrder) := by
  refine cache_follows_commit_order .checked (fun _ => 4096) emptyVolume 0 inOrder ?_ ?_
  · have hfirst : ∀ {s : Batcher VolumeCache}, s.applied = [0, 1] →
        s.Orderly (fun _ => 4096) (.advance 0) := by
      intro s happlied _ _ j hj
      rw [happlied] at hj
      simp [List.sublist_cons_iff] at hj
    have hsecond : ∀ {s : Batcher VolumeCache}, s.applied = [0, 1] → s.FinishedAt 0 →
        s.Orderly (fun _ => 4096) (.advance 1) := by
      intro s happlied hfinished _ _ j hj _ _ _ _
      rw [happlied] at hj
      obtain rfl : j = 0 := by simpa [List.sublist_cons_iff] using hj
      exact hfinished
    exact ⟨⟨perBlock_blockUpdate _, by decide⟩, trivial, ⟨perBlock_blockUpdate _, by decide⟩,
      trivial, trivial, trivial, trivial, hfirst rfl, hfirst rfl, hfirst rfl, hfirst rfl,
      hfirst rfl, trivial, hsecond rfl ⟨_, rfl, rfl⟩, hsecond rfl ⟨_, rfl, rfl⟩,
      hsecond rfl ⟨_, rfl, rfl⟩, hsecond rfl ⟨_, rfl, rfl⟩, hsecond rfl ⟨_, rfl, rfl⟩, trivial⟩
  · intro f hf
    fin_cases hf
    · exact ⟨1, rfl⟩
    · exact ⟨2, rfl⟩

/-- Two batches, one of `flush()` and one of the background task.  They are applied in the order in
which they were taken, but the reply to the second comes first. -/
def overtaken : List Event :=
  [.submit (blockCommit ⟨1#128⟩) (blockUpdate ⟨1#128⟩), .flush,
    .submit (blockCommit ⟨2#128⟩) (blockUpdate ⟨2#128⟩), .wake, .drain,
    .apply 0, .apply 1, .complete 1 (.ok 2),
    .advance 1, .advance 1, .advance 1, .advance 1, .advance 1, .complete 0 (.ok 1),
    .advance 0, .advance 0, .advance 0, .advance 0, .advance 0]

/-- **The cache keeps the older commit.**  Both batches have been committed and the second was
applied last, but the cached mapping of the block is the first one's. -/
theorem cache_keeps_the_older_commit :
    (after (applyUpdate .checked) emptyVolume 0 overtaken).AllCommitted ∧
      lastFor ⟨7#128⟩ 0 (after (applyUpdate .checked) emptyVolume 0 overtaken).appliedCommits
        = some ⟨1, blockCommit ⟨2#128⟩, blockUpdate ⟨2#128⟩⟩ ∧
      findExtentForRange .checked 4096
        ((after (applyUpdate .checked) emptyVolume 0 overtaken).cache[(⟨7#128⟩ : VolumeId)]?.getD ∅)
        0
        = some (some (0, ⟨⟨1#128⟩, 1, [], [], 4096, 0⟩)) := by
  refine ⟨?_, by decide, by decide⟩
  intro f hf
  fin_cases hf
  · exact ⟨1, rfl⟩
  · exact ⟨2, rfl⟩

end Batcher

end Blockyard.Ublk
