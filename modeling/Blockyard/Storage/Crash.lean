/-
# A crash in the middle of overwriting an extent

`stage_extent` writes the new payload to a staging file; `commit_extent` then REWRITES the
metadata file of the extent version in place, syncs it, and renames the staging file over the
committed one.  Between the first and the last of these steps the disk holds the old payload
beside metadata that is torn or already describes the new one.

This module follows the eleven system calls through a crash at any point, with every unsynced
file cut to any prefix (`crashed`), through `recover` with any scan order, and into
`read_extent`.  What the metadata file records after the crash is `recordedAfter`; the
overwrite is atomic at a crash point exactly when that agrees with the payload found there
(`crash_atomic_iff`).
-/
import Blockyard.Lib.MapLog
import Blockyard.Storage.Admission

open Std CrashFs

namespace Blockyard.Storage

namespace ExtentStore

variable {x : Externals}

/-! ## 1. What recovery reads -/

section Decoded

variable (x : Externals) (st : ExtentStore) (key : ExtentId × ExtentVersion)

/-- The checksum the metadata of an extent version records, if it can be decoded. -/
def recordedChecksum : Option String :=
  (st.recoverExtentFromFile x key).toOption.map LocalExtentEntry.checksum

/-- The metadata of an extent version, if there is any that can be decoded. -/
def decodedMeta : Option ExtentMeta :=
  st.files[(⟨.metadata, key.1, key.2⟩ : FileName)]?.bind fun f => (x.fromStr f.data).toOption

variable {x}

theorem recoverExtentFromFile_toOption :
    (st.recoverExtentFromFile x key).toOption = (decodedMeta x st key).map fun m =>
      { extentId := m.extentId
        diskId := m.diskId
        path := (⟨.committed, key.1, key.2⟩ : FileName).path st.mountPath
        version := m.version
        checksum := m.checksum
        size := m.size
        storageClass := m.storageClass } := by
  unfold recoverExtentFromFile decodedMeta
  dsimp only
  cases hf : st.files[(⟨.metadata, key.1, key.2⟩ : FileName)]? with
  | none => rfl
  | some f =>
    cases hm : x.fromStr f.data with
    | error err => simp [hm, Except.toOption]
    | ok m => simp [hm, Except.toOption]

theorem recordedChecksum_eq :
    recordedChecksum x st key = (decodedMeta x st key).map ExtentMeta.checksum := by
  rw [recordedChecksum, recoverExtentFromFile_toOption, Option.map_map]
  rfl

end Decoded

variable {st : ExtentStore} {e : ExtentId} {v : ExtentVersion} {f : File} {n : FileName}

/-- Every metadata file that can be decoded names the extent it belongs to. -/
def Named (x : Externals) (st : ExtentStore) : Prop :=
  ∀ key m, decodedMeta x st key = some m → m.extentId = key.1

/-- The index entries a scan finds, in the order it finds them. -/
def scanEvents (x : Externals) (st : ExtentStore) (keys : List (ExtentId × ExtentVersion)) :
    List (ExtentId × Option LocalExtentEntry) :=
  keys.filterMap fun key => (st.recoverExtentFromFile x key).toOption.map fun entry =>
    (entry.extentId, some entry)

/-- The scan stores the entries it finds into the index. -/
theorem scanCommitted_fst (st : ExtentStore) (keys : List (ExtentId × ExtentVersion))
    (index : ExtentIndex) (report : RecoveryReport) :
    (st.scanCommitted x keys index report).1 = MapLog.replay index (scanEvents x st keys) := by
  unfold scanCommitted
  induction keys generalizing index report with
  | nil => rfl
  | cons key keys ih =>
    rw [List.foldl_cons, scanEvents, List.filterMap_cons]
    cases hkey : st.recoverExtentFromFile x key with
    | error err => exact ih index _
    | ok entry => exact ih (index.upsert entry) _

/-- The checksum recorded last among the versions of one extent, in the order of a scan. -/
def lastRecorded (recorded : ExtentId × ExtentVersion → Option String)
    (keys : List (ExtentId × ExtentVersion)) (e : ExtentId) : Option String :=
  MapLog.last e (keys.filterMap fun key => (recorded key).map fun checksum => (key.1, checksum))

/-- The last entry of an extent among the scan's findings carries the checksum recorded last. -/
theorem last_scanEvents (hnamed : Named x st) (e : ExtentId)
    (keys : List (ExtentId × ExtentVersion)) :
    (MapLog.last e (scanEvents x st keys)).map (Option.map LocalExtentEntry.checksum)
      = (lastRecorded (recordedChecksum x st) keys e).map some := by
  induction keys with
  | nil => rfl
  | cons key keys ih =>
    unfold lastRecorded scanEvents at ih ⊢
    rw [List.filterMap_cons, List.filterMap_cons, recoverExtentFromFile_toOption,
      recordedChecksum_eq]
    cases hkey : decodedMeta x st key with
    | none => exact ih
    | some m =>
      simp only [Option.map_some, MapLog.last_cons, Option.map_or, ih, hnamed key m hkey]
      by_cases hke : key.1 = e
      · rw [if_pos hke, if_pos hke]
        rfl
      · rw [if_neg hke, if_neg hke]
        rfl

/-- The extents of the rebuilt index, starting from an empty one. -/
theorem recover_index (hnamed : Named x st) (order : IterOrder (ExtentId × ExtentVersion))
    (e : ExtentId) :
    ((st.recover x order ∅).2.1[e]?).map LocalExtentEntry.checksum
      = lastRecorded (recordedChecksum x st) (order.arrange st.committedKeys) e := by
  have hindex : (st.recover x order ∅).2.1
      = (st.scanCommitted x (order.arrange st.committedKeys) ∅ ⟨0, 0, 0⟩).1 := rfl
  have hlast := last_scanEvents hnamed e (order.arrange st.committedKeys)
  rw [hindex, scanCommitted_fst, MapLog.getElem?_replay, ExtTreeMap.getElem?_empty]
  cases hl : MapLog.last e (scanEvents x st (order.arrange st.committedKeys)) with
  | none =>
    rw [hl, Option.map_none] at hlast
    rw [Option.map_eq_none_iff.mp hlast.symm]
    rfl
  | some r =>
    rw [hl, Option.map_some] at hlast
    obtain ⟨c, hc, hsome⟩ := Option.map_eq_some_iff.mp hlast.symm
    rw [hc, Option.getD_some, hsome]

theorem recover_files (st : ExtentStore) (order : IterOrder (ExtentId × ExtentVersion))
    (hn : n.kind ≠ .staged) :
    (st.recover x order ∅).1.files[n]? = st.files[n]? := by
  have hfiles : (st.recover x order ∅).1.files
      = execAll st.files (st.stagedNames.map Call.remove) := rfl
  rw [hfiles]
  refine getElem?_execAll_of_not_touches st.files ?_
  intro c hc
  obtain ⟨s, hs, rfl⟩ := List.mem_map.mp hc
  have hkind : s.kind = .staged := by simpa using (List.mem_filter.mp hs).2
  rintro rfl
  exact hn hkind

/-- What a read returns: the committed payload, unless decodable metadata records another
checksum. -/
theorem readExtent_eq_ok_iff (hf : st.files[(⟨.committed, e, v⟩ : FileName)]? = some f)
    (r : Bytes × String) :
    st.readExtent x ⟨none, none⟩ e v = .ok r ↔
      r = (f.data, x.checksum f.data) ∧
        (recordedChecksum x st (e, v) = none ∨
          recordedChecksum x st (e, v) = some (x.checksum f.data)) := by
  rw [recordedChecksum_eq]
  unfold ExtentStore.readExtent decodedMeta
  simp only [hf]
  cases hm : st.files[(⟨.metadata, e, v⟩ : FileName)]? with
  | none => simp [eq_comm]
  | some mf =>
    cases hd : x.fromStr mf.data with
    | error err => simp [hd, Except.toOption, eq_comm]
    | ok m =>
      by_cases hsum : m.checksum = x.checksum f.data
      · simp [hd, Except.toOption, hsum, eq_comm]
      · simp [hd, Except.toOption, hsum]

/-! ## 2. The overwrite and its crash points -/

section Overwrite

variable (x : Externals) (st : ExtentStore) (e : ExtentId) (v : ExtentVersion) (payload : Bytes)

/-- The metadata `commit_extent` writes for the payload. -/
def overwriteMeta (cls : StorageClass) (now : Nat) : ExtentMeta :=
  st.newMeta e v (x.checksum payload) payload.length cls now

/-- The calls of `stage_extent` followed by those of `commit_extent`. -/
def overwriteCalls (m : ExtentMeta) : List (Call FileName) :=
  (st.stageScript e v payload).map Prod.fst ++ (st.commitScript x e v m).map Prod.fst

/-- The disk found after a crash behind the first `k` calls. -/
def crashed (m : ExtentMeta) (k : Nat) (cut : FileName → Nat) : ExtentStore :=
  st.setFiles (crash cut (execAll st.files ((overwriteCalls x st e v payload m).take k)))

end Overwrite

section Points

variable (st : ExtentStore) (e : ExtentId) (v : ExtentVersion) (payload : Bytes) (m : ExtentMeta)

theorem overwrite_frame (k : Nat) (hn : n.extentId ≠ e ∨ n.version ≠ v) :
    (execAll st.files ((overwriteCalls x st e v payload m).take k))[n]? = st.files[n]? := by
  have hne : ∀ kind, (⟨kind, e, v⟩ : FileName) ≠ n := by
    rintro kind rfl
    rcases hn with h | h <;> exact h rfl
  refine getElem?_execAll_of_not_touches st.files ?_
  intro c hc
  have hmem : c ∈ stageCalls e v payload ++ commitCalls x e v m := List.mem_of_mem_take hc
  simp only [stageCalls, commitCalls, List.cons_append, List.nil_append, List.mem_cons,
    List.not_mem_nil, or_false] at hmem
  rcases hmem with h | h | h | h | h | h | h | h | h | h | h <;> rw [h] <;>
    simp only [touches, not_false_eq_true, hne, or_self]

/-- The first five calls touch the staging file only. -/
theorem overwrite_early {k : Nat} (hk : k ≤ 5) (hn : n.kind ≠ .staged) :
    (execAll st.files ((overwriteCalls x st e v payload m).take k))[n]? = st.files[n]? := by
  have hne : (⟨.staged, e, v⟩ : FileName) ≠ n := by
    rintro rfl
    exact hn rfl
  refine getElem?_execAll_of_not_touches st.files ?_
  intro c hc
  have hmem : c ∈ stageCalls e v payload ++ [Call.mkdir] := by
    have htake : (overwriteCalls x st e v payload m).take k
        = ((overwriteCalls x st e v payload m).take 5).take k := by
      rw [List.take_take, Nat.min_eq_left hk]
    have hfive : (overwriteCalls x st e v payload m).take 5
        = stageCalls e v payload ++ [Call.mkdir] := rfl
    rw [htake, hfive] at hc
    exact List.mem_of_mem_take hc
  simp only [stageCalls, List.cons_append, List.nil_append, List.mem_cons, List.not_mem_nil,
    or_false] at hmem
  rcases hmem with h | h | h | h | h <;> rw [h] <;>
    simp only [touches, not_false_eq_true, hne]

/-- From the ninth call on everything has happened. -/
theorem overwrite_late {k : Nat} (hk : 9 ≤ k) :
    execAll st.files ((overwriteCalls x st e v payload m).take k)
      = execAll (execAll st.files (stageCalls e v payload)) (commitCalls x e v m) := by
  rcases Nat.lt_or_ge k 11 with hlt | hge
  · interval_cases k <;> rfl
  · rw [List.take_of_length_le hge]
    rfl

/-- **The committed file at a crash point**: the old one before the rename, the new one after. -/
theorem overwrite_committed (k : Nat) :
    (execAll st.files ((overwriteCalls x st e v payload m).take k))[
        (⟨.committed, e, v⟩ : FileName)]?
      = if k ≤ 8 then st.files[(⟨.committed, e, v⟩ : FileName)]? else some ⟨payload, true⟩ := by
  have hstaged := files_stage st.files e v payload
  rcases Nat.lt_or_ge k 6 with h5 | h6
  · rw [if_pos (by omega), overwrite_early st e v payload m (Nat.le_of_lt_succ h5) (by simp)]
  rcases Nat.lt_or_ge k 9 with h8 | h9
  · rw [if_pos (Nat.le_of_lt_succ h8)]
    -- the calls on the metadata file
    have hrest : ∀ fs : Fs FileName, (execAll fs (([.create ⟨.metadata, e, v⟩,
        .write ⟨.metadata, e, v⟩ (x.toStringPretty m), .sync ⟨.metadata, e, v⟩] :
          List (Call FileName)).take (k - 5)))[(⟨.committed, e, v⟩ : FileName)]?
        = fs[(⟨.committed, e, v⟩ : FileName)]? := by
      intro fs
      refine getElem?_execAll_of_not_touches fs fun c hc => ?_
      have hmem := List.mem_of_mem_take hc
      simp only [List.mem_cons, List.not_mem_nil, or_false] at hmem
      rcases hmem with h | h | h <;> rw [h] <;> simp [touches]
    have hsplit : execAll st.files ((overwriteCalls x st e v payload m).take k)
        = execAll (execAll st.files (stageCalls e v payload)) (([.create ⟨.metadata, e, v⟩,
          .write ⟨.metadata, e, v⟩ (x.toStringPretty m), .sync ⟨.metadata, e, v⟩] :
            List (Call FileName)).take (k - 5)) := by
      interval_cases k <;> rfl
    rw [hsplit, hrest, hstaged, if_neg (by simp)]
  · rw [if_neg (by omega), overwrite_late st e v payload m h9,
      files_commit ((hstaged _).trans (if_pos rfl)), if_pos rfl]

/-- **The metadata file at a crash point**: the old one, then empty, then written, then
synced. -/
theorem overwrite_metadata (k : Nat) :
    (execAll st.files ((overwriteCalls x st e v payload m).take k))[
        (⟨.metadata, e, v⟩ : FileName)]?
      = if k ≤ 5 then st.files[(⟨.metadata, e, v⟩ : FileName)]?
        else if k = 6 then some ⟨[], false⟩
        else some ⟨x.toStringPretty m, decide (8 ≤ k)⟩ := by
  have hstaged := files_stage st.files e v payload
  rcases Nat.lt_or_ge k 6 with h5 | h6
  · rw [if_pos (Nat.le_of_lt_succ h5),
      overwrite_early st e v payload m (Nat.le_of_lt_succ h5) (by simp)]
  rw [if_neg (by omega)]
  rcases Nat.lt_or_ge k 9 with h8 | h9
  · have hcreate := getElem?_exec_create (execAll st.files (stageCalls e v payload))
      (⟨.metadata, e, v⟩ : FileName) ⟨.metadata, e, v⟩
    rw [if_pos rfl] at hcreate
    have hwrite := getElem?_exec_write (exec (execAll st.files (stageCalls e v payload))
      (.create ⟨.metadata, e, v⟩)) (⟨.metadata, e, v⟩ : FileName) ⟨.metadata, e, v⟩
      (x.toStringPretty m)
    rw [if_pos rfl, hcreate] at hwrite
    have hall := getElem?_execAll_writeFile (execAll st.files (stageCalls e v payload))
      (⟨.metadata, e, v⟩ : FileName) ⟨.metadata, e, v⟩ (x.toStringPretty m)
    rw [if_pos rfl] at hall
    interval_cases k
    · exact hcreate
    · exact hwrite
    · exact hall
  · have hd : decide (8 ≤ k) = true := by simpa using Nat.le_of_succ_le h9
    rw [if_neg (by omega), overwrite_late st e v payload m h9,
      files_commit ((hstaged _).trans (if_pos rfl)), if_neg (by simp), if_pos rfl, hd]

end Points

/-! ## 3. What the crash leaves of the metadata -/

/-- A disk on which only staging files can be torn, and every metadata file names its extent. -/
structure Tidy (x : Externals) (st : ExtentStore) : Prop where
  synced : ∀ (n : FileName) f, st.files[n]? = some f → n.kind ≠ .staged → f.synced = true
  named : Named x st

/-- The checksum the metadata file records after a crash behind `k` calls, if the file can be
decoded: the old one while the file is untouched, none while it is torn, then the new one.
`written` is the new contents of the file, `cut` where the crash cut it off. -/
def recordedAfter (old new : String) (written : Bytes) (k cut : Nat) : Option String :=
  if k ≤ 5 then some old
  else if k = 6 ∨ k = 7 ∧ cut < written.length then none
  else some new

/-- The payload in the committed file after a crash behind `k` calls. -/
def payloadAfter (old new : Bytes) (k : Nat) : Bytes := if k ≤ 8 then old else new

/-- Metadata is never printed as nothing: nothing is also a torn piece of other metadata. -/
theorem toStringPretty_ne_nil {m : ExtentMeta} (hm : m.Plain) : x.toStringPretty m ≠ [] := by
  intro hnil
  have hback := x.fromStr_toStringPretty m hm
  rw [hnil] at hback
  -- metadata that differs in the version
  have hother : ({ m with version := m.version + 1 } : ExtentMeta).Plain := hm
  have hback' := x.fromStr_toStringPretty _ hother
  by_cases hnil' : x.toStringPretty { m with version := m.version + 1 } = []
  · rw [hnil', hback] at hback'
    have hv := congrArg ExtentMeta.version (Except.ok.inj hback')
    exact absurd hv (Nat.ne_of_lt (Nat.lt_succ_self _))
  · obtain ⟨err, herr⟩ := x.fromStr_torn _ [] hother (List.nil_prefix) (Ne.symm hnil')
    rw [hback] at herr
    cases herr

section After

variable {payload : Bytes} {m : ExtentMeta}

theorem decodedMeta_crashed_other (htidy : Tidy x st) (k : Nat) (cut : FileName → Nat)
    {key : ExtentId × ExtentVersion} (hkey : key ≠ (e, v)) :
    decodedMeta x (crashed x st e v payload m k cut) key = decodedMeta x st key := by
  have hne : key.1 ≠ e ∨ key.2 ≠ v := by
    by_contra h
    rw [not_or, not_not, not_not] at h
    exact hkey (Prod.ext h.1 h.2)
  unfold decodedMeta crashed
  rw [setFiles_files, getElem?_crash, overwrite_frame st e v payload m k hne]
  cases hf : st.files[(⟨.metadata, key.1, key.2⟩ : FileName)]? with
  | none => rfl
  | some f => rw [Option.map_some, survive_of_synced (htidy.synced _ f hf (by simp))]

theorem decodedMeta_crashed (htidy : Tidy x st) (hm : m.Plain) (k : Nat) (cut : FileName → Nat) :
    decodedMeta x (crashed x st e v payload m k cut) (e, v)
      = if k ≤ 5 then decodedMeta x st (e, v)
        else if k = 6 ∨ k = 7 ∧ cut ⟨.metadata, e, v⟩ < (x.toStringPretty m).length then none
        else some m := by
  have hback := x.fromStr_toStringPretty m hm
  unfold decodedMeta crashed
  rw [setFiles_files, getElem?_crash, overwrite_metadata st e v payload m k]
  by_cases h5 : k ≤ 5
  · rw [if_pos h5, if_pos h5]
    cases hf : st.files[(⟨.metadata, e, v⟩ : FileName)]? with
    | none => rfl
    | some f => rw [Option.map_some, survive_of_synced (htidy.synced _ f hf (by simp))]
  rw [if_neg h5, if_neg h5]
  have htorn : ∀ p, p <+: x.toStringPretty m → p ≠ x.toStringPretty m →
      (x.fromStr p).toOption = none := by
    intro p hp hne
    obtain ⟨err, herr⟩ := x.fromStr_torn m p hm hp hne
    rw [herr]
    rfl
  by_cases h6 : k = 6
  · rw [if_pos h6, if_pos (Or.inl h6), Option.map_some, survive_unsynced, Option.bind_some,
      List.take_nil]
    exact htorn [] List.nil_prefix (Ne.symm (toStringPretty_ne_nil hm))
  rw [if_neg h6]
  by_cases h7 : k = 7
  · have hsync : decide (8 ≤ k) = false := by rw [h7]; rfl
    rw [hsync, Option.map_some, survive_unsynced, Option.bind_some]
    by_cases hcut : cut ⟨.metadata, e, v⟩ < (x.toStringPretty m).length
    · rw [if_pos (Or.inr ⟨h7, hcut⟩)]
      refine htorn _ (List.take_prefix _ _) fun heq => ?_
      have hlen := congrArg List.length heq
      rw [List.length_take, Nat.min_eq_left (Nat.le_of_lt hcut)] at hlen
      exact absurd hlen (Nat.ne_of_lt hcut)
    · rw [if_neg (by rintro (h | h); exacts [h6 h, hcut h.2]),
        List.take_of_length_le (Nat.le_of_not_lt hcut), hback]
      rfl
  · have hsync : decide (8 ≤ k) = true := by simp only [decide_eq_true_eq]; omega
    rw [hsync, if_neg (by rintro (h | h); exacts [h6 h, h7 h.1]), Option.map_some, survive_synced,
      Option.bind_some, hback]
    rfl

theorem committed_crashed (htidy : Tidy x st)
    (hf : st.files[(⟨.committed, e, v⟩ : FileName)]? = some f) (k : Nat) (cut : FileName → Nat) :
    ∃ f', (crashed x st e v payload m k cut).files[(⟨.committed, e, v⟩ : FileName)]? = some f' ∧
      f'.data = payloadAfter f.data payload k := by
  unfold crashed payloadAfter
  rw [setFiles_files, getElem?_crash, overwrite_committed st e v payload m k, hf]
  by_cases h8 : k ≤ 8
  · rw [if_pos h8, if_pos h8, Option.map_some, survive_of_synced (htidy.synced _ f hf (by simp))]
    exact ⟨f, rfl, rfl⟩
  · rw [if_neg h8, if_neg h8]
    exact ⟨_, rfl, rfl⟩

/-- The recorded checksums after the crash, as a function of those before. -/
theorem recordedChecksum_crashed (htidy : Tidy x st) {old : Bytes} (hst : Stored x st e v old)
    (hm : m.Plain) (k : Nat) (cut : FileName → Nat) (key : ExtentId × ExtentVersion) :
    recordedChecksum x (crashed x st e v payload m k cut) key
      = if key = (e, v) then recordedAfter (x.checksum old) m.checksum (x.toStringPretty m) k
          (cut ⟨.metadata, e, v⟩)
        else recordedChecksum x st key := by
  rw [recordedChecksum_eq, recordedChecksum_eq]
  by_cases hkey : key = (e, v)
  · subst hkey
    obtain ⟨mf, m₀, hmf, hdec, hsum⟩ := hst.metadata
    have hold : decodedMeta x st (e, v) = some m₀ := by
      rw [decodedMeta, hmf, Option.bind_some, hdec]
      rfl
    rw [if_pos rfl, decodedMeta_crashed htidy hm, hold, recordedAfter, ← hsum]
    split
    · rfl
    · split <;> rfl
  · rw [if_neg hkey, decodedMeta_crashed_other htidy k cut hkey]

theorem named_crashed (htidy : Tidy x st) (hm : m.Plain) (hid : m.extentId = e) (k : Nat)
    (cut : FileName → Nat) : Named x (crashed x st e v payload m k cut) := by
  intro key m' hm'
  by_cases hkey : key = (e, v)
  · subst hkey
    rw [decodedMeta_crashed htidy hm] at hm'
    split at hm'
    · exact htidy.named _ m' hm'
    · split at hm'
      · cases hm'
      · cases hm'
        exact hid
  · rw [decodedMeta_crashed_other htidy k cut hkey] at hm'
    exact htidy.named key m' hm'

/-! ## 4. The scan visits the same extent versions -/

/-- Keys come in the order of the names of their committed files. -/
theorem committedKeys_sorted (st : ExtentStore) :
    st.committedKeys.Pairwise fun a b =>
      compare (⟨.committed, a.1, a.2⟩ : FileName) ⟨.committed, b.1, b.2⟩ = .lt := by
  refine List.Pairwise.filterMap _ ?_ ExtTreeMap.ordered_keys
  intro n n' hlt key hkey key' hkey'
  obtain ⟨kind, e, v⟩ := n
  obtain ⟨kind', e', v'⟩ := n'
  obtain ⟨rfl, hk⟩ : kind = .committed ∧ some (e, v) = some key :=
    Option.ite_none_right_eq_some.mp hkey
  obtain ⟨rfl, hk'⟩ : kind' = .committed ∧ some (e', v') = some key' :=
    Option.ite_none_right_eq_some.mp hkey'
  cases hk
  cases hk'
  exact hlt

theorem mem_committedKeys {key : ExtentId × ExtentVersion} :
    key ∈ st.committedKeys ↔ (⟨.committed, key.1, key.2⟩ : FileName) ∈ st.files := by
  unfold committedKeys
  rw [List.mem_filterMap]
  constructor
  · rintro ⟨n, hn, hkey⟩
    obtain ⟨kind, e, v⟩ := n
    obtain ⟨rfl, hk⟩ : kind = .committed ∧ some (e, v) = some key :=
      Option.ite_none_right_eq_some.mp hkey
    cases hk
    exact ExtTreeMap.mem_keys.mp hn
  · intro h
    exact ⟨_, ExtTreeMap.mem_keys.mpr h, if_pos rfl⟩

/-- Two disks with the same committed files are scanned alike. -/
theorem committedKeys_congr {st st' : ExtentStore}
    (h : ∀ key, key ∈ st.committedKeys ↔ key ∈ st'.committedKeys) :
    st.committedKeys = st'.committedKeys := by
  have hnodup : ∀ st : ExtentStore, st.committedKeys.Nodup := by
    intro st
    refine (committedKeys_sorted st).imp ?_
    rintro a b hlt rfl
    rw [ReflOrd.compare_self] at hlt
    cases hlt
  refine List.Perm.eq_of_pairwise ?_ (committedKeys_sorted st) (committedKeys_sorted st')
    ((List.perm_ext_iff_of_nodup (hnodup st) (hnodup st')).mpr h)
  intro a b _ _ hab hba
  rw [OrientedCmp.gt_of_lt hba] at hab
  cases hab

theorem committedKeys_crashed (hf : st.files[(⟨.committed, e, v⟩ : FileName)]? = some f) (k : Nat)
    (cut : FileName → Nat) :
    (crashed x st e v payload m k cut).committedKeys = st.committedKeys := by
  refine committedKeys_congr fun key => ?_
  rw [mem_committedKeys, mem_committedKeys, ExtTreeMap.mem_iff_isSome_getElem?,
    ExtTreeMap.mem_iff_isSome_getElem?, crashed, setFiles_files, getElem?_crash,
    Option.isSome_map]
  by_cases hkey : key = (e, v)
  · subst hkey
    rw [overwrite_committed st e v payload m k]
    split
    · rfl
    · simp [hf]
  · have hne : key.1 ≠ e ∨ key.2 ≠ v := by
      by_contra h
      rw [not_or, not_not, not_not] at h
      exact hkey (Prod.ext h.1 h.2)
    rw [overwrite_frame st e v payload m k hne]

end After

/-! ## 5. Crash atomicity -/

/-- After recovery the extent is in the index, and the read returns one of the two payloads
with the checksum the index has. -/
def CrashAtomic (x : Externals) (recovered : ExtentStore × ExtentIndex × RecoveryReport)
    (e : ExtentId) (v : ExtentVersion) (old new : Bytes) : Prop :=
  ∃ entry data checksum, recovered.2.1[e]? = some entry ∧
    recovered.1.readExtent x ⟨none, none⟩ e v = .ok (data, checksum) ∧
    (data = old ∨ data = new) ∧ checksum = entry.checksum

/-- The disk, crashed while `new` was written over `e` at version `v`, and recovered. -/
def recoveredAfter (x : Externals) (st : ExtentStore) (e : ExtentId) (v : ExtentVersion)
    (new : Bytes) (cls : StorageClass) (now k : Nat) (cut : FileName → Nat)
    (order : IterOrder (ExtentId × ExtentVersion)) :
    ExtentStore × ExtentIndex × RecoveryReport :=
  (crashed x st e v new (overwriteMeta x st e v new cls now) k cut).recover x order ∅

/-- What the metadata file of the overwritten version records after the crash. -/
def recordedAt (x : Externals) (st : ExtentStore) (e : ExtentId) (v : ExtentVersion)
    (old new : Bytes) (cls : StorageClass) (now k : Nat) (cut : FileName → Nat) : Option String :=
  recordedAfter (x.checksum old) (x.checksum new)
    (x.toStringPretty (overwriteMeta x st e v new cls now)) k (cut ⟨.metadata, e, v⟩)

/-- **Atomicity at one crash point**: the metadata records nothing or the checksum of the
payload found, and the last version the scan finds metadata for records that checksum too. -/
theorem crashAtomic_recoveredAfter {old : Bytes} (htidy : Tidy x st) (hst : Stored x st e v old)
    (new : Bytes) (cls : StorageClass) (now k : Nat) (cut : FileName → Nat)
    (order : IterOrder (ExtentId × ExtentVersion)) :
    CrashAtomic x (recoveredAfter x st e v new cls now k cut order) e v old new ↔
      (recordedAt x st e v old new cls now k cut = none ∨
          recordedAt x st e v old new cls now k cut = some (x.checksum (payloadAfter old new k))) ∧
        lastRecorded (fun key => if key = (e, v) then recordedAt x st e v old new cls now k cut
            else recordedChecksum x st key) (order.arrange st.committedKeys) e
          = some (x.checksum (payloadAfter old new k)) := by
  have hplain : (overwriteMeta x st e v new cls now).Plain := isAlphanum_of_mem_checksum x new
  obtain ⟨f, hf, rfl⟩ := hst.committed
  obtain ⟨f', hf', hdata⟩ : ∃ f', (crashed x st e v new (overwriteMeta x st e v new cls now) k
      cut).files[(⟨.committed, e, v⟩ : FileName)]? = some f' ∧
        f'.data = payloadAfter f.data new k := committed_crashed htidy hf k cut
  have hrec : ∀ key, recordedChecksum x (crashed x st e v new (overwriteMeta x st e v new cls now)
      k cut) key = if key = (e, v) then recordedAt x st e v f.data new cls now k cut
        else recordedChecksum x st key := recordedChecksum_crashed htidy hst hplain k cut
  have hnamed : Named x (crashed x st e v new (overwriteMeta x st e v new cls now) k cut) :=
    named_crashed htidy hplain rfl k cut
  have hindex := recover_index hnamed order e
  rw [committedKeys_crashed hf, funext hrec] at hindex
  -- the read looks at the same committed and metadata files as the recovery
  have hread : ∀ r, (recoveredAfter x st e v new cls now k cut order).1.readExtent x ⟨none, none⟩
      e v = .ok r ↔ r = (f'.data, x.checksum f'.data) ∧
        (recordedAt x st e v f.data new cls now k cut = none ∨
          recordedAt x st e v f.data new cls now k cut = some (x.checksum f'.data)) := by
    intro r
    have hf'' : (recoveredAfter x st e v new cls now k cut order).1.files[
        (⟨.committed, e, v⟩ : FileName)]? = some f' := by
      rw [recoveredAfter, recover_files _ _ (by simp), hf']
    have hsame : recordedChecksum x (recoveredAfter x st e v new cls now k cut order).1 (e, v)
        = recordedAt x st e v f.data new cls now k cut := by
      rw [recordedChecksum_eq, decodedMeta, recoveredAfter, recover_files _ _ (by simp),
        ← decodedMeta, ← recordedChecksum_eq, hrec, if_pos rfl]
    rw [readExtent_eq_ok_iff hf'', hsame]
  rw [← hdata]
  constructor
  · rintro ⟨entry, data, checksum, hentry, hok, -, hsum⟩
    obtain ⟨hr, hcond⟩ := (hread _).mp hok
    cases hr
    refine ⟨hcond, hindex.symm.trans ?_⟩
    rw [show (recover x order (crashed x st e v new (overwriteMeta x st e v new cls now) k cut)
      ∅).2.1[e]? = some entry from hentry, Option.map_some, hsum]
  · rintro ⟨hcond, hlast⟩
    obtain ⟨entry, hentry, hsum⟩ := Option.map_eq_some_iff.mp (hindex.trans hlast)
    refine ⟨entry, f'.data, x.checksum f'.data, hentry, (hread _).mpr ⟨rfl, hcond⟩, ?_, hsum.symm⟩
    rw [hdata, payloadAfter]
    split
    · exact Or.inl rfl
    · exact Or.inr rfl

/-- The last checksum recorded for an extent that has one version on the disk. -/
theorem lastRecorded_of_only {recorded : ExtentId × ExtentVersion → Option String}
    {keys : List (ExtentId × ExtentVersion)} (hmem : (e, v) ∈ keys)
    (honly : ∀ w, (e, w) ∈ keys → w = v) :
    lastRecorded recorded keys e = recorded (e, v) := by
  unfold lastRecorded
  have hevents : ∀ ev ∈ keys.filterMap (fun key => (recorded key).map fun checksum =>
      (key.1, checksum)), ev.1 = e → recorded (e, v) = some ev.2 := by
    rintro ⟨e', c⟩ hev rfl
    obtain ⟨⟨e'', w⟩, hkey, hsome⟩ := List.mem_filterMap.mp hev
    obtain ⟨c', hc', hpair⟩ := Option.map_eq_some_iff.mp hsome
    cases hpair
    obtain rfl := honly w hkey
    exact hc'
  cases hrec : recorded (e, v) with
  | none =>
    refine MapLog.last_eq_none fun ev hev he => ?_
    rw [hevents ev hev he] at hrec
    cases hrec
  | some c =>
    refine MapLog.last_eq_some ⟨(e, c), ?_, rfl⟩ fun ev hev he => ?_
    · exact List.mem_filterMap.mpr ⟨(e, v), hmem, by rw [hrec]; rfl⟩
    · exact Option.some.inj ((hevents ev hev he).symm.trans hrec)

/-- **Crash atomicity of an extent overwrite.**  On a tidy disk that holds `old` at `e`,
version `v`, a crash behind the first `k` calls of overwriting it with `new` is followed by a
recovery after which the extent is indexed and reads back as one of the two payloads exactly
when

* the metadata file records nothing, or the checksum of the payload in the committed file, and
* the last of the extent's versions that the scan finds metadata for records that checksum.

When `v` is the only version of `e` on the disk, this says: the crash came before the metadata
file was truncated, or after the rename, or the file was complete and both payloads have the
same checksum. -/
theorem crash_atomic_iff (x : Externals) (st : ExtentStore) (e : ExtentId) (v : ExtentVersion)
    (old new : Bytes) (cls : StorageClass) (now k : Nat) (cut : FileName → Nat)
    (order : IterOrder (ExtentId × ExtentVersion)) (htidy : Tidy x st)
    (hst : Stored x st e v old) :
    (CrashAtomic x (recoveredAfter x st e v new cls now k cut order) e v old new ↔
        (recordedAt x st e v old new cls now k cut = none ∨
            recordedAt x st e v old new cls now k cut
              = some (x.checksum (payloadAfter old new k))) ∧
          lastRecorded (fun key => if key = (e, v) then recordedAt x st e v old new cls now k cut
              else recordedChecksum x st key) (order.arrange st.committedKeys) e
            = some (x.checksum (payloadAfter old new k))) ∧
      ((∀ w, (e, w) ∈ st.committedKeys → w = v) →
        (CrashAtomic x (recoveredAfter x st e v new cls now k cut order) e v old new ↔
          k ≤ 5 ∨ 9 ≤ k ∨ x.checksum old = x.checksum new ∧
            (k = 8 ∨ k = 7 ∧ (x.toStringPretty (overwriteMeta x st e v new cls now)).length
              ≤ cut ⟨.metadata, e, v⟩))) := by
  refine ⟨crashAtomic_recoveredAfter htidy hst new cls now k cut order, fun honly => ?_⟩
  have hmem : (e, v) ∈ order.arrange st.committedKeys := by
    obtain ⟨f, hf, -⟩ := hst.committed
    exact (order.perm _).mem_iff.mpr (mem_committedKeys.mpr (mem_of_getElem? hf))
  have honly' : ∀ w, (e, w) ∈ order.arrange st.committedKeys → w = v :=
    fun w hw => honly w ((order.perm _).mem_iff.mp hw)
  rw [crashAtomic_recoveredAfter htidy hst, lastRecorded_of_only hmem honly', if_pos rfl]
  unfold recordedAt recordedAfter payloadAfter
  by_cases h5 : k ≤ 5
  · have h8 : k ≤ 8 := Nat.le_trans h5 (by decide)
    simp [h5, h8]
  · by_cases h9 : 9 ≤ k
    · have h6 : k ≠ 6 := by omega
      have h7 : k ≠ 7 := by omega
      have h8 : ¬ k ≤ 8 := by omega
      simp [h5, h6, h7, h8, h9]
    · have h8 : k ≤ 8 := by omega
      have hk : k = 6 ∨ k = 7 ∨ k = 8 := by omega
      rcases hk with rfl | rfl | rfl
      · simp
      · by_cases hcut : cut ⟨.metadata, e, v⟩
            < (x.toStringPretty (overwriteMeta x st e v new cls now)).length
        · simp [hcut]
        · simp [hcut, Nat.not_lt.mp hcut, eq_comm]
      · simp [eq_comm]

/-! ## 6. Tidy disks -/

theorem tidy_empty (mountPath : String) (diskId : DiskId) : Tidy x ⟨mountPath, diskId, ∅⟩ where
  synced := by
    intro n f hf
    rw [ExtTreeMap.getElem?_empty] at hf
    cases hf
  named := by
    intro key m hm
    rw [decodedMeta, ExtTreeMap.getElem?_empty] at hm
    cases hm

theorem decodedMeta_written (env : WriteEnv) (store : ExtentStore) (request : WriteExtentRequest)
    (payload : Bytes) (key : ExtentId × ExtentVersion) :
    decodedMeta x (writtenStore x env store request payload) key
      = if key = (request.extentId, request.extentVersion) then
          some (writtenMeta x env store request payload)
        else decodedMeta x store key := by
  obtain ⟨e, v⟩ := key
  unfold decodedMeta
  by_cases hkey : (e, v) = (request.extentId, request.extentVersion)
  · cases hkey
    rw [getElem?_writtenStore, if_neg (by simp), if_pos rfl, if_pos rfl, Option.bind_some,
      x.fromStr_toStringPretty _ (writtenMeta_plain env store request payload)]
    rfl
  · have hne : ¬ (e = request.extentId ∧ v = request.extentVersion) := fun h =>
      hkey (Prod.ext h.1 h.2)
    rw [getElem?_writtenStore, if_neg (by simp), if_neg (by simpa using hne), if_neg (by simp),
      if_neg hkey]

theorem Tidy.written {store : ExtentStore} (h : Tidy x store) (env : WriteEnv)
    (request : WriteExtentRequest) (payload : Bytes) :
    Tidy x (writtenStore x env store request payload) where
  synced := by
    intro n f hf hn
    rw [getElem?_writtenStore] at hf
    split at hf
    · cases hf
      rfl
    split at hf
    · cases hf
      rfl
    split at hf
    · cases hf
    · exact h.synced n f hf hn
  named := by
    intro key m hm
    rw [decodedMeta_written] at hm
    split at hm
    · next hkey =>
      cases hm
      rw [hkey]
      rfl
    · exact h.named key m hm

noncomputable def sampleStored : ExtentStore :=
  writtenStore (jsonExternals sampleBlake3) calmEnv ⟨"/mnt/d0", sampleDisk, ∅⟩
    (sampleWrite ⟨21#128⟩ 1) [1]

theorem tidy_sampleStored : Tidy (jsonExternals sampleBlake3) sampleStored :=
  (tidy_empty _ _).written calmEnv (sampleWrite ⟨21#128⟩ 1) [1]

theorem stored_sampleStored : Stored (jsonExternals sampleBlake3) sampleStored ⟨5#128⟩ 1 [1] :=
  writtenStore_stored calmEnv _ (sampleWrite ⟨21#128⟩ 1) [1]

/-- **The overwrite is not atomic.**  `[2]` is written over `[1]` and the machine stops after
the metadata file was synced and before the rename: the metadata then describes a payload that
is not there, and the extent cannot be read. -/
theorem crash_before_rename_loses_extent :
    Tidy (jsonExternals sampleBlake3) sampleStored ∧
      Stored (jsonExternals sampleBlake3) sampleStored ⟨5#128⟩ 1 [1] ∧
      ¬ CrashAtomic (jsonExternals sampleBlake3) (recoveredAfter (jsonExternals sampleBlake3)
        sampleStored ⟨5#128⟩ 1 [2] .default 1700000001 8 (fun _ => 0) (.sorted _))
        ⟨5#128⟩ 1 [1] [2] := by
  refine ⟨tidy_sampleStored, stored_sampleStored, ?_⟩
  rw [crashAtomic_recoveredAfter tidy_sampleStored stored_sampleStored]
  rintro ⟨hrec, -⟩
  have hne : computeChecksum sampleBlake3 [2] ≠ computeChecksum sampleBlake3 [1] := by decide
  rcases hrec with hnone | hsome
  · cases hnone
  · exact hne (Option.some.inj hsome)

/-- The theorem at the same overwrite, stopped one call before the metadata file is touched:
the old payload is there after recovery. -/
theorem crash_atomic_iff_before_truncation :
    CrashAtomic (jsonExternals sampleBlake3) (recoveredAfter (jsonExternals sampleBlake3)
      sampleStored ⟨5#128⟩ 1 [2] .default 1700000001 5 (fun _ => 0) (.sorted _))
      ⟨5#128⟩ 1 [1] [2] := by
  have honly : ∀ w, ((⟨5#128⟩ : ExtentId), w) ∈ sampleStored.committedKeys → w = 1 := by
    intro w hw
    rw [mem_committedKeys, ExtTreeMap.mem_iff_isSome_getElem?, sampleStored,
      getElem?_writtenStore] at hw
    split at hw
    · rename_i hname
      exact congrArg FileName.version hname
    · rw [if_neg (by simp), if_neg (by simp), ExtTreeMap.getElem?_empty] at hw
      cases hw
  exact ((crash_atomic_iff (jsonExternals sampleBlake3) sampleStored ⟨5#128⟩ 1 [1] [2] .default
    1700000001 5 (fun _ => 0) (.sorted _) tidy_sampleStored stored_sampleStored).2 honly).mpr
    (Or.inl (by decide))

end ExtentStore

end Blockyard.Storage
