/-
# Uncommitted data is never served

`blockyard-storage`, `extent.rs`: any sequence of `stage_extent` and `commit_extent` calls on a
fresh disk, overwrites included, cut off by a crash behind any system call, then `recover` into
an empty index and reads.

The disk is compared with the log of the renames that had completed (`CrashFs.renames`).  Two
facts carry everything, at every crash point (`Safe`): a committed file is the last payload
renamed to its name, and it is synced; a metadata file is a piece, from the start, of the text
of metadata that names the extent it belongs to.  The second is what makes a torn metadata file
harmless for the index: it does not decode.

`commit_extent` gets its checksum from the caller; it is a text of letters and digits, as
`compute_checksum` returns (`ChecksumText`).

Crashes can stop `recover` as well (`recover_restartable`).
-/
import Blockyard.Storage.Crash

open Std CrashFs

namespace Blockyard.Storage

namespace ExtentStore

/-! ## 1. Runs of the store -/

/-- A checksum as `compute_checksum` makes them. -/
abbrev ChecksumText := { c : String // ∀ ch ∈ c.toList, ch.isAlphanum = true }

inductive StoreOp
  | stage (e : ExtentId) (v : ExtentVersion) (data : Bytes)
  | commit (e : ExtentId) (v : ExtentVersion) (checksum : ChecksumText) (size : Nat)
      (cls : StorageClass) (now : Nat)

variable (x : Externals)

/-- The call, when no system call fails. -/
def perform (st : ExtentStore) : StoreOp → ExtentStore
  | .stage e v data => (st.stageExtent x (fun _ => none) e v data).1
  | .commit e v checksum size cls now =>
    (st.commitExtent x (fun _ => none) now e v checksum.1 size cls).1

/-- The system calls it makes: none, if there is nothing staged to commit. -/
def callsOf (st : ExtentStore) : StoreOp → List (Call FileName)
  | .stage e v data => stageCalls e v data
  | .commit e v checksum size cls now =>
    if (⟨.staged, e, v⟩ : FileName) ∈ st.files then
      commitCalls x e v (st.newMeta e v checksum.1 size cls now)
    else []

def performAll (st : ExtentStore) (ops : List StoreOp) : ExtentStore := ops.foldl (perform x) st

/-- The payloads renamed by the calls, each with the name it got. -/
def renamesOf (st : ExtentStore) : List StoreOp → List (FileName × Bytes)
  | [] => []
  | op :: ops => renames st.files (callsOf x st op) ++ renamesOf (perform x st op) ops

/-- The disk found after a crash behind the first `k` system calls of `op`. -/
def crashedIn (st : ExtentStore) (op : StoreOp) (k : Nat) (cut : FileName → Nat) : ExtentStore :=
  st.setFiles (crash cut (execAll st.files ((callsOf x st op).take k)))

def renamesBefore (st : ExtentStore) (ops : List StoreOp) (op : StoreOp) (k : Nat) :
    List (FileName × Bytes) :=
  renamesOf x st ops ++
    renames (performAll x st ops).files ((callsOf x (performAll x st ops) op).take k)

variable {x}

theorem files_perform (st : ExtentStore) (op : StoreOp) :
    perform x st op = st.setFiles (execAll st.files (callsOf x st op)) := by
  cases op with
  | stage e v data =>
    rw [perform, stageExtent_of_no_fault fun _ => rfl]
    rfl
  | commit e v checksum size cls now =>
    by_cases hs : (⟨.staged, e, v⟩ : FileName) ∈ st.files
    · rw [perform, commitExtent_of_no_fault (fun _ => rfl) now hs, callsOf, if_pos hs]
    · have hnot : ¬ st.files.contains (⟨.staged, e, v⟩ : FileName) = true := by simpa using hs
      rw [callsOf, if_neg hs, perform, commitExtent, if_pos hnot]
      rfl

/-! ## 2. What holds at every crash point -/

/-- The disk agrees with the log of renames. -/
structure Safe (x : Externals) (log : List (FileName × Bytes)) (files : Fs FileName) : Prop where
  committed : ∀ n : FileName, n.kind = .committed →
    files[n]? = (MapLog.last n log).map fun data => ⟨data, true⟩
  metadata : ∀ (n : FileName) f, n.kind = .metadata → files[n]? = some f →
    ∃ m : ExtentMeta, m.Plain ∧ m.extentId = n.extentId ∧ f.data <+: x.toStringPretty m

/-- Between calls the staged files are synced as well. -/
structure Settled (x : Externals) (log : List (FileName × Bytes)) (files : Fs FileName) : Prop
    extends Safe x log files where
  staged : ∀ (n : FileName) f, n.kind = .staged → files[n]? = some f → f.synced = true

theorem settled_empty : Settled x [] ∅ where
  committed := by simp
  metadata := by simp
  staged := by simp

section Steps

variable {log : List (FileName × Bytes)} {files : Fs FileName} {e : ExtentId} {v : ExtentVersion}
  {f : File} {m : ExtentMeta}

/-- A change to staged files is no change. -/
theorem Safe.congr (h : Safe x log files) {files' : Fs FileName}
    (hsame : ∀ n : FileName, n.kind ≠ .staged → files'[n]? = files[n]?) : Safe x log files' where
  committed := fun n hn => by rw [hsame n (by simp [hn]), h.committed n hn]
  metadata := fun n f hn hf => h.metadata n f hn (by rwa [hsame n (by simp [hn])] at hf)

/-- **A crash keeps the agreement**: committed files are synced, and a piece of a piece is a
piece. -/
theorem Safe.crash (h : Safe x log files) (cut : FileName → Nat) :
    Safe x log (crash cut files) where
  committed := by
    intro n hn
    rw [getElem?_crash, h.committed n hn, Option.map_map]
    rfl
  metadata := by
    intro n f hn hf
    rw [getElem?_crash] at hf
    obtain ⟨f₀, hf₀, rfl⟩ := Option.map_eq_some_iff.mp hf
    obtain ⟨m, hm, hid, hpre⟩ := h.metadata n f₀ hn hf₀
    refine ⟨m, hm, hid, List.IsPrefix.trans ?_ hpre⟩
    unfold File.survive
    split
    · exact List.prefix_rfl
    · exact List.take_prefix _ _

theorem renames_stage (k : Nat) (data : Bytes) :
    renames files ((stageCalls e v data).take k) = [] := by
  refine renames_eq_nil fun c hc src dst => ?_
  have hmem := List.mem_of_mem_take hc
  simp only [stageCalls, List.mem_cons, List.not_mem_nil, or_false] at hmem
  rcases hmem with rfl | rfl | rfl | rfl <;> simp

/-- **A crash point of staging.** -/
theorem Safe.stage (h : Safe x log files) (k : Nat) (data : Bytes) :
    Safe x log (execAll files ((stageCalls e v data).take k)) := by
  refine h.congr fun n hn => getElem?_execAll_of_not_touches files fun c hc => ?_
  have hne : (⟨.staged, e, v⟩ : FileName) ≠ n := by
    rintro rfl
    exact hn rfl
  have hmem := List.mem_of_mem_take hc
  simp only [stageCalls, List.mem_cons, List.not_mem_nil, or_false] at hmem
  rcases hmem with rfl | rfl | rfl | rfl <;> simp [touches, hne]

theorem Settled.stage (h : Settled x log files) (data : Bytes) :
    Settled x log (execAll files (stageCalls e v data)) where
  toSafe := by simpa [stageCalls] using h.toSafe.stage (e := e) (v := v) 4 data
  staged := by
    intro n f hn hf
    rw [files_stage] at hf
    split at hf
    · cases hf
      rfl
    · exact h.staged n f hn hf

/-- The calls of a commit before the rename. -/
def metadataCalls (x : Externals) (e : ExtentId) (v : ExtentVersion) (m : ExtentMeta) :
    List (Call FileName) :=
  [.mkdir, .create ⟨.metadata, e, v⟩, .write ⟨.metadata, e, v⟩ (x.toStringPretty m),
    .sync ⟨.metadata, e, v⟩]

/-- A commit before its rename has written a piece of the new metadata, or nothing. -/
theorem Safe.metadataCalls (h : Safe x log files) (hm : m.Plain) (hid : m.extentId = e) (k : Nat) :
    Safe x log (execAll files ((metadataCalls x e v m).take k)) := by
  have hother : ∀ n : FileName, n ≠ ⟨.metadata, e, v⟩ →
      (execAll files ((ExtentStore.metadataCalls x e v m).take k))[n]? = files[n]? := by
    intro n hn
    refine getElem?_execAll_of_not_touches files fun c hc => ?_
    have hmem := List.mem_of_mem_take hc
    simp only [ExtentStore.metadataCalls, List.mem_cons, List.not_mem_nil, or_false] at hmem
    rcases hmem with rfl | rfl | rfl | rfl <;> simp [touches, Ne.symm hn]
  refine ⟨fun n hn => ?_, fun n f hn hf => ?_⟩
  · rw [hother n (by rintro rfl; cases hn), h.committed n hn]
  by_cases hname : n = ⟨.metadata, e, v⟩
  · subst hname
    -- the file as it was, created, written, synced
    rcases k with _ | _ | _ | _ | k
    · exact h.metadata _ f hn hf
    · exact h.metadata _ f hn hf
    · refine ⟨m, hm, hid, ?_⟩
      have hfile := getElem?_exec_create files (⟨.metadata, e, v⟩ : FileName) ⟨.metadata, e, v⟩
      rw [if_pos rfl] at hfile
      cases hfile.symm.trans hf
      exact List.nil_prefix
    · refine ⟨m, hm, hid, ?_⟩
      have hfile := getElem?_exec_write (exec files (.create ⟨.metadata, e, v⟩))
        (⟨.metadata, e, v⟩ : FileName) ⟨.metadata, e, v⟩ (x.toStringPretty m)
      rw [if_pos rfl, getElem?_exec_create, if_pos rfl] at hfile
      cases hfile.symm.trans hf
      exact List.prefix_rfl
    · refine ⟨m, hm, hid, ?_⟩
      have htake : (ExtentStore.metadataCalls x e v m).take (k + 4)
          = ExtentStore.metadataCalls x e v m := List.take_of_length_le (Nat.le_add_left 4 k)
      have hfile := getElem?_execAll_writeFile files (⟨.metadata, e, v⟩ : FileName)
        ⟨.metadata, e, v⟩ (x.toStringPretty m)
      rw [if_pos rfl] at hfile
      rw [htake] at hf
      cases hfile.symm.trans hf
      exact List.prefix_rfl
  · exact h.metadata n f hn (by rwa [hother n hname] at hf)

/-- The staging file a commit finds is renamed, with what is in it. -/
theorem renames_commit (hs : files[(⟨.staged, e, v⟩ : FileName)]? = some f) (m : ExtentMeta) :
    renames files (commitCalls x e v m) = [(⟨.committed, e, v⟩, f.data)] := by
  have hstill : (execAll files (metadataCalls x e v m))[(⟨.staged, e, v⟩ : FileName)]? = some f :=
    (getElem?_execAll_writeFile files (⟨.metadata, e, v⟩ : FileName) ⟨.staged, e, v⟩
      (x.toStringPretty m)).trans (by rw [if_neg (by simp), hs])
  have hmoved : renamed (execAll files (metadataCalls x e v m))
      (.rename ⟨.staged, e, v⟩ ⟨.committed, e, v⟩) = [(⟨.committed, e, v⟩, f.data)] := by
    rw [renamed, hstill]
    rfl
  exact (List.append_nil _).trans hmoved

/-- **The commit point.** -/
theorem Settled.commit (h : Settled x log files)
    (hs : files[(⟨.staged, e, v⟩ : FileName)]? = some f) (hm : m.Plain) (hid : m.extentId = e) :
    Settled x (log ++ [(⟨.committed, e, v⟩, f.data)]) (execAll files (commitCalls x e v m)) := by
  have hsync := h.staged _ f rfl hs
  refine ⟨⟨fun n hn => ?_, fun n g hn hg => ?_⟩, fun n g hn hg => ?_⟩
  · rw [files_commit hs, MapLog.last_append, MapLog.last_cons, MapLog.last_nil, Option.none_or]
    by_cases hname : n = ⟨.committed, e, v⟩
    · subst hname
      simp [← hsync]
    · rw [if_neg hname, if_neg (Ne.symm hname), if_neg (by rintro rfl; cases hn),
        if_neg (by rintro rfl; cases hn), h.committed n hn, Option.none_or]
  · rw [files_commit hs, if_neg (by rintro rfl; cases hn)] at hg
    split at hg
    · next hname =>
      cases hg
      exact ⟨m, hm, by rw [hid, hname], List.prefix_rfl⟩
    · rw [if_neg (by rintro rfl; cases hn)] at hg
      exact h.metadata n g hn hg
  · rw [files_commit hs, if_neg (by rintro rfl; cases hn),
      if_neg (by rintro rfl; cases hn)] at hg
    split at hg
    · cases hg
    · exact h.staged n g hn hg

/-- **A crash point of a commit.** -/
theorem Settled.commit_take (h : Settled x log files)
    (hs : files[(⟨.staged, e, v⟩ : FileName)]? = some f) (hm : m.Plain) (hid : m.extentId = e)
    (k : Nat) :
    Safe x (log ++ renames files ((commitCalls x e v m).take k))
      (execAll files ((commitCalls x e v m).take k)) := by
  rcases Nat.lt_or_ge k 5 with hlt | hge
  · have htake : (commitCalls x e v m).take k = (ExtentStore.metadataCalls x e v m).take k := by
      interval_cases k <;> rfl
    have hnone : renames files ((ExtentStore.metadataCalls x e v m).take k) = [] := by
      refine renames_eq_nil fun c hc src dst => ?_
      have hmem := List.mem_of_mem_take hc
      simp only [ExtentStore.metadataCalls, List.mem_cons, List.not_mem_nil, or_false] at hmem
      rcases hmem with rfl | rfl | rfl | rfl <;> simp
    rw [htake, hnone, List.append_nil]
    exact h.toSafe.metadataCalls hm hid k
  · -- behind the rename only directories are synced
    have hall : execAll files ((commitCalls x e v m).take k) = execAll files (commitCalls x e v m) ∧
        renames files ((commitCalls x e v m).take k) = renames files (commitCalls x e v m) := by
      rcases Nat.lt_or_ge k 7 with hlt | hge
      · interval_cases k <;> exact ⟨rfl, rfl⟩
      · rw [List.take_of_length_le hge]
        exact ⟨rfl, rfl⟩
    rw [hall.1, hall.2, renames_commit hs]
    exact (h.commit hs hm hid).toSafe

end Steps

/-! ## 3. Whole runs -/

section Runs

variable {log : List (FileName × Bytes)} {st : ExtentStore}

theorem newMeta_plain (st : ExtentStore) (e : ExtentId) (v : ExtentVersion)
    (checksum : ChecksumText) (size : Nat) (cls : StorageClass) (now : Nat) :
    (st.newMeta e v checksum.1 size cls now).Plain := checksum.2

/-- **Every crash point of a call.** -/
theorem Settled.calls_take (h : Settled x log st.files) (op : StoreOp) (k : Nat) :
    Safe x (log ++ renames st.files ((callsOf x st op).take k))
      (execAll st.files ((callsOf x st op).take k)) := by
  cases op with
  | stage e v data =>
    rw [callsOf, renames_stage, List.append_nil]
    exact h.toSafe.stage k data
  | commit e v checksum size cls now =>
    rw [callsOf]
    split
    · next hs =>
      obtain ⟨f, hf⟩ := exists_getElem?_of_mem hs
      exact h.commit_take hf (newMeta_plain st e v checksum size cls now) rfl k
    · simpa using h.toSafe

/-- **A whole call.** -/
theorem Settled.perform (h : Settled x log st.files) (op : StoreOp) :
    Settled x (log ++ renames st.files (callsOf x st op)) (perform x st op).files := by
  rw [files_perform, setFiles_files]
  cases op with
  | stage e v data =>
    have hnone : renames st.files (stageCalls e v data) = [] := renames_stage 4 data
    rw [callsOf, hnone, List.append_nil]
    exact h.stage data
  | commit e v checksum size cls now =>
    rw [callsOf]
    split
    · next hs =>
      obtain ⟨f, hf⟩ := exists_getElem?_of_mem hs
      rw [renames_commit hf]
      exact h.commit hf (newMeta_plain st e v checksum size cls now) rfl
    · simpa using h

/-- **A run of calls.** -/
theorem Settled.performAll (h : Settled x log st.files) (ops : List StoreOp) :
    Settled x (log ++ renamesOf x st ops) (performAll x st ops).files := by
  induction ops generalizing log st with
  | nil => simpa [renamesOf, ExtentStore.performAll] using h
  | cons op ops ih =>
    rw [renamesOf, ← List.append_assoc]
    exact ih (h.perform op)

/-- **Every crash point of a run.** -/
theorem Settled.crashedIn (h : Settled x log st.files) (ops : List StoreOp) (op : StoreOp)
    (k : Nat) (cut : FileName → Nat) :
    Safe x (log ++ renamesBefore x st ops op k)
      (crashedIn x (ExtentStore.performAll x st ops) op k cut).files := by
  rw [renamesBefore, ← List.append_assoc]
  exact ((h.performAll ops).calls_take op k).crash cut

end Runs

/-! ## 4. Recovery and reads -/

section Recovery

variable {log : List (FileName × Bytes)} {st : ExtentStore}

/-- Metadata that decodes names its extent: a piece of it does not decode. -/
theorem Safe.named (h : Safe x log st.files) : Named x st := by
  intro key m hm
  obtain ⟨f, hf, hdec⟩ := Option.bind_eq_some_iff.mp hm
  obtain ⟨m₀, hplain, hid, hpre⟩ := h.metadata _ f rfl hf
  by_cases hwhole : f.data = x.toStringPretty m₀
  · rw [hwhole, x.fromStr_toStringPretty m₀ hplain] at hdec
    cases hdec
    exact hid
  · obtain ⟨err, herr⟩ := x.fromStr_torn m₀ f.data hplain hpre hwhole
    rw [herr] at hdec
    cases hdec

/-- A read that succeeds returns the bytes of the committed file. -/
theorem committed_of_readExtent {fault : ReadFault} {e : ExtentId} {v : ExtentVersion}
    {r : Bytes × String} (h : st.readExtent x fault e v = .ok r) :
    ∃ f, st.files[(⟨.committed, e, v⟩ : FileName)]? = some f ∧ r.1 = f.data := by
  unfold readExtent at h
  dsimp only at h
  split at h
  · cases h
  · next f hf =>
    refine ⟨f, hf, ?_⟩
    repeat' split at h
    all_goals cases h <;> rfl

/-- An extent of the rebuilt index has a committed file. -/
theorem Safe.committed_of_index (h : Safe x log st.files)
    (order : IterOrder (ExtentId × ExtentVersion)) {e : ExtentId}
    (he : e ∈ (st.recover x order ∅).2.1) :
    ∃ v, (⟨.committed, e, v⟩ : FileName) ∈ st.files := by
  obtain ⟨entry, hentry⟩ := exists_getElem?_of_mem he
  have hindex := recover_index h.named order e
  rw [hentry, Option.map_some] at hindex
  have hmem := MapLog.mem_of_last hindex.symm
  obtain ⟨⟨e', v⟩, hkey, hsome⟩ := List.mem_filterMap.mp hmem
  obtain ⟨checksum, -, hpair⟩ := Option.map_eq_some_iff.mp hsome
  cases hpair
  exact ⟨v, mem_committedKeys.mp ((order.perm _).mem_iff.mp hkey)⟩

theorem kind_ne_staged_of_recover (order : IterOrder (ExtentId × ExtentVersion)) {n : FileName}
    (hn : n ∈ (st.recover x order ∅).1.files) : n.kind ≠ .staged := by
  intro hkind
  have hfiles : (st.recover x order ∅).1.files
      = execAll st.files (st.stagedNames.map .remove) := rfl
  obtain ⟨f, hf⟩ := exists_getElem?_of_mem hn
  rw [hfiles, getElem?_execAll_remove] at hf
  split at hf
  · cases hf
  · next hnot =>
    refine hnot (List.mem_filter.mpr ⟨ExtTreeMap.mem_keys.mpr (mem_of_getElem? hf), ?_⟩)
    simpa using hkind

/-- **Uncommitted data is never served.**  After any calls on a fresh disk, a crash inside a
further one and a recovery into an empty index:

* a read that succeeds, of any extent version, returns the payload renamed to its committed name
  last before the crash;
* an extent is in the index only if a payload was renamed to one of its committed names;
* no staged file is left. -/
theorem uncommitted_never_served (x : Externals) (mountPath : String) (diskId : DiskId)
    (ops : List StoreOp) (op : StoreOp) (k : Nat) (cut : FileName → Nat)
    (order : IterOrder (ExtentId × ExtentVersion)) :
    let log := renamesBefore x ⟨mountPath, diskId, ∅⟩ ops op k
    let recovered := (crashedIn x (performAll x ⟨mountPath, diskId, ∅⟩ ops) op k cut).recover x
      order ∅
    (∀ fault e v r, recovered.1.readExtent x fault e v = .ok r →
        (⟨.committed, e, v⟩, r.1) ∈ log ∧
          MapLog.last (⟨.committed, e, v⟩ : FileName) log = some r.1) ∧
      (∀ e, (∀ v data, (⟨.committed, e, v⟩, data) ∉ log) → e ∉ recovered.2.1) ∧
      ∀ n ∈ recovered.1.files, n.kind ≠ .staged := by
  intro log recovered
  have hempty : Settled x [] (⟨mountPath, diskId, ∅⟩ : ExtentStore).files := settled_empty
  have hsafe : Safe x log (crashedIn x (performAll x ⟨mountPath, diskId, ∅⟩ ops) op k cut).files :=
    hempty.crashedIn ops op k cut
  have hlast : ∀ {e v f}, (crashedIn x (performAll x ⟨mountPath, diskId, ∅⟩ ops) op k cut).files[
      (⟨.committed, e, v⟩ : FileName)]? = some f →
        MapLog.last (⟨.committed, e, v⟩ : FileName) log = some f.data := by
    intro e v f hf
    rw [hsafe.committed _ rfl] at hf
    obtain ⟨data, hdata, rfl⟩ := Option.map_eq_some_iff.mp hf
    exact hdata
  refine ⟨?_, ?_, fun n hn => kind_ne_staged_of_recover order hn⟩
  · intro fault e v r hread
    obtain ⟨f, hf, hr⟩ := committed_of_readExtent hread
    rw [recover_files _ _ (by simp)] at hf
    rw [hr]
    exact ⟨MapLog.mem_of_last (hlast hf), hlast hf⟩
  · intro e hnone he
    obtain ⟨v, hv⟩ := hsafe.committed_of_index order he
    obtain ⟨f, hf⟩ := exists_getElem?_of_mem hv
    exact hnone v f.data (MapLog.mem_of_last (hlast hf))

end Recovery

/-! ## 5. A recovery that is cut off itself -/

/-- A crash inside `recover`: of the staged files those in `removed` are gone. -/
structure RecoveryCrash where
  removed : List FileName
  cut : FileName → Nat

/-- The disk found after it. -/
def stopped (st : ExtentStore) (c : RecoveryCrash) : ExtentStore :=
  st.setFiles (crash c.cut
    (execAll st.files ((st.stagedNames.filter (· ∈ c.removed)).map Call.remove)))

/-- Two disks that differ in their staged files at most. -/
structure SameCommitted (st st' : ExtentStore) : Prop where
  mountPath : st'.mountPath = st.mountPath
  diskId : st'.diskId = st.diskId
  files : ∀ n : FileName, n.kind ≠ .staged → st'.files[n]? = st.files[n]?

section Restart

variable {st st' : ExtentStore}

theorem SameCommitted.scan (h : SameCommitted st st')
    (order : IterOrder (ExtentId × ExtentVersion)) (index : ExtentIndex) :
    st'.scanCommitted x (order.arrange st'.committedKeys) index ⟨0, 0, 0⟩
      = st.scanCommitted x (order.arrange st.committedKeys) index ⟨0, 0, 0⟩ := by
  have hkeys : st'.committedKeys = st.committedKeys := by
    refine committedKeys_congr fun key => ?_
    rw [mem_committedKeys, mem_committedKeys, ExtTreeMap.mem_iff_isSome_getElem?,
      ExtTreeMap.mem_iff_isSome_getElem?, h.files _ (by simp)]
  have hentry : st'.recoverExtentFromFile x = st.recoverExtentFromFile x := by
    funext key
    unfold recoverExtentFromFile
    rw [h.mountPath, h.files _ (by simp)]
  unfold scanCommitted
  rw [hkeys, hentry]

theorem SameCommitted.recover (h : SameCommitted st st')
    (order : IterOrder (ExtentId × ExtentVersion)) :
    (st'.recover x order ∅).1 = (st.recover x order ∅).1 := by
  have hfiles : (st'.recover x order ∅).1.files = (st.recover x order ∅).1.files := by
    refine ExtTreeMap.ext_getElem? fun n => ?_
    by_cases hn : n.kind = .staged
    · have hgone : ∀ st : ExtentStore, (st.recover x order ∅).1.files[n]? = none := fun st =>
        ExtTreeMap.getElem?_eq_none fun hmem => kind_ne_staged_of_recover order hmem hn
      rw [hgone st', hgone st]
    · rw [recover_files st' order hn, recover_files st order hn, h.files n hn]
  calc (st'.recover x order ∅).1
      = ⟨st'.mountPath, st'.diskId, (st'.recover x order ∅).1.files⟩ := rfl
    _ = ⟨st.mountPath, st.diskId, (st.recover x order ∅).1.files⟩ := by
        rw [h.mountPath, h.diskId, hfiles]

/-- A crash leaves what a crash has left before alone. -/
theorem SameCommitted.stopped (cut : FileName → Nat)
    (h : SameCommitted (st.setFiles (crash cut st.files)) st') (c : RecoveryCrash) :
    SameCommitted (st.setFiles (crash cut st.files)) (st'.stopped c) where
  mountPath := h.mountPath
  diskId := h.diskId
  files := by
    intro n hn
    have hkeep : n ∉ st'.stagedNames.filter (· ∈ c.removed) := by
      intro hmem
      exact hn (by simpa using (List.mem_filter.mp (List.mem_filter.mp hmem).1).2)
    rw [ExtentStore.stopped, setFiles_files, getElem?_crash, getElem?_execAll_remove,
      if_neg hkeep, h.files n hn, setFiles_files, getElem?_crash, Option.map_map]
    refine Option.map_congr fun f _ => ?_
    exact survive_of_synced (synced_survive _ f) _

/-- **Recovery can be cut off at any point, any number of times.**  On a disk found after a crash,
the recovery that runs through in the end leaves the files, builds the index and counts the extents
and errors that the first one would have, whichever staged files the ones before it had already
removed; and a further one changes nothing. -/
theorem recover_restartable (x : Externals) (st : ExtentStore) (cut : FileName → Nat)
    (crashes : List RecoveryCrash) (order : IterOrder (ExtentId × ExtentVersion))
    (index : ExtentIndex) :
    let found := st.setFiles (crash cut st.files)
    let first := found.recover x order index
    ∀ later ∈ [(crashes.foldl stopped found).recover x order index, first.1.recover x order index],
      later.1 = first.1 ∧ later.2.1 = first.2.1 ∧
        later.2.2.committedRecovered = first.2.2.committedRecovered ∧
        later.2.2.errors = first.2.2.errors := by
  intro found first
  have hsame : SameCommitted found (crashes.foldl stopped found) := by
    refine List.foldlRecOn crashes stopped ⟨rfl, rfl, fun _ _ => rfl⟩ ?_
    intro st' h c _
    exact h.stopped cut c
  have hfirst : SameCommitted found first.1 :=
    ⟨rfl, rfl, fun n hn => recover_files (x := x) found order hn⟩
  -- what `recover` returns depends on the disk through its scan and the files it leaves
  have hagree : ∀ st', SameCommitted found st' →
      (st'.recover x order index).1 = first.1 ∧ (st'.recover x order index).2.1 = first.2.1 ∧
        (st'.recover x order index).2.2.committedRecovered = first.2.2.committedRecovered ∧
        (st'.recover x order index).2.2.errors = first.2.2.errors := by
    intro st' h
    refine ⟨h.recover (x := x) order, ?_, ?_, ?_⟩ <;>
      simp only [ExtentStore.recover, first, h.scan order]
  intro later hlater
  rcases List.mem_pair.mp hlater with rfl | rfl
  · exact hagree _ hsame
  · exact hagree _ hfirst

end Restart

end ExtentStore

end Blockyard.Storage
