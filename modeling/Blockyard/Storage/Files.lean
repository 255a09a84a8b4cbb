/-
# What staging, committing and reading do to the files of a disk

One spec lemma per operation of the extent store, so that no later proof looks at a system
call again: a staged write puts the payload in the staging file (`files_stage`), a commit
turns the staging file into the committed one beside a fresh metadata file (`files_commit`),
both touch the three files of THEIR extent version and nothing else, and a read returns the
committed bytes whenever the metadata agrees (`Stored`).
-/
import Blockyard.Storage.Extent

open Std CrashFs

namespace Blockyard.Storage

namespace ExtentStore

variable {x : Externals}

def setFiles (st : ExtentStore) (files : Fs FileName) : ExtentStore := { st with files }

@[simp] theorem setFiles_files (st : ExtentStore) (files : Fs FileName) :
    (st.setFiles files).files = files := rfl

/-! ## 1. Staging -/

variable {fault : Nat → Option Fault} {st : ExtentStore} {e : ExtentId} {v : ExtentVersion}
  {data : Bytes}

/-- The calls of `stage_extent`. -/
def stageCalls (e : ExtentId) (v : ExtentVersion) (data : Bytes) : List (Call FileName) :=
  [.mkdir, .create ⟨.staged, e, v⟩, .write ⟨.staged, e, v⟩ data, .sync ⟨.staged, e, v⟩]

theorem stageScript_calls (st : ExtentStore) (e : ExtentId) (v : ExtentVersion) (data : Bytes) :
    (st.stageScript e v data).map Prod.fst = stageCalls e v data := rfl

theorem files_stage (fs : Fs FileName) (e : ExtentId) (v : ExtentVersion) (data : Bytes)
    (n : FileName) : (execAll fs (stageCalls e v data))[n]?
      = if n = ⟨.staged, e, v⟩ then some ⟨data, true⟩ else fs[n]? := by
  refine (getElem?_execAll_writeFile fs ⟨.staged, e, v⟩ n data).trans ?_
  simp only [eq_comm]

theorem stageExtent_ok {st' : ExtentStore} {r : String × String}
    (h : st.stageExtent x fault e v data = (st', .ok r)) :
    st' = st.setFiles (execAll st.files (stageCalls e v data)) ∧
      r.2 = x.checksum data := by
  unfold stageExtent at h
  rcases hrun : runScript fault st.files (st.stageScript e v data) with ⟨files, result⟩
  rw [hrun] at h
  cases result with
  | error err => cases h
  | ok u =>
    cases h
    rw [runScript_ok hrun, stageScript_calls]
    exact ⟨rfl, rfl⟩

theorem stageExtent_of_no_fault (hf : ∀ i, fault i = none) (st : ExtentStore) (e : ExtentId)
    (v : ExtentVersion) (data : Bytes) :
    st.stageExtent x fault e v data =
      (st.setFiles (execAll st.files (stageCalls e v data)),
        .ok ((⟨.staged, e, v⟩ : FileName).path st.mountPath, x.checksum data)) := by
  unfold stageExtent
  rw [runScript_of_no_fault _ _ hf, stageScript_calls]
  rfl

/-- Staging makes four calls and ends well when none of them fails. -/
theorem stageExtent_isOk_iff :
    (st.stageExtent x fault e v data).2.isOk = true ↔ ∀ i < 4, fault i = none := by
  have hrun : (runScript fault st.files (st.stageScript e v data)).2.isOk = true ↔
      ∀ i < 4, fault i = none := runScript_isOk_iff
  rw [← hrun, stageExtent]
  rcases runScript fault st.files (st.stageScript e v data) with ⟨files, result⟩
  cases result <;> rfl

theorem stageExtent_frame (fault : Nat → Option Fault) (st : ExtentStore) (e : ExtentId)
    (v : ExtentVersion) (data : Bytes) {n : FileName} (hn : n ≠ ⟨.staged, e, v⟩) :
    (st.stageExtent x fault e v data).1.files[n]? = st.files[n]? := by
  have hrun : (st.stageExtent x fault e v data).1.files
      = (runScript fault st.files (st.stageScript e v data)).1 := rfl
  rw [hrun]
  refine getElem?_runScript_of_not_touches st.files fault ?_
  intro step hstep
  have hmem : step.1 ∈ stageCalls e v data := by
    rw [← stageScript_calls st]
    exact List.mem_map_of_mem hstep
  simp only [stageCalls, List.mem_cons, List.not_mem_nil, or_false] at hmem
  rcases hmem with h | h | h | h <;> rw [h] <;> first | exact id | exact fun he => hn he.symm

/-! ## 2. Commit -/

/-- The calls of `commit_extent`. -/
def commitCalls (x : Externals) (e : ExtentId) (v : ExtentVersion) (m : ExtentMeta) :
    List (Call FileName) :=
  [.mkdir, .create ⟨.metadata, e, v⟩, .write ⟨.metadata, e, v⟩ (x.toStringPretty m),
    .sync ⟨.metadata, e, v⟩, .rename ⟨.staged, e, v⟩ ⟨.committed, e, v⟩, .syncDir, .syncDir]

theorem commitScript_calls (st : ExtentStore) (e : ExtentId) (v : ExtentVersion)
    (m : ExtentMeta) : (st.commitScript x e v m).map Prod.fst = commitCalls x e v m := rfl

/-- After a commit the committed file is what the staging file was, the metadata file is the
new one, and the staging file is gone. -/
theorem files_commit {fs : Fs FileName} {f : File} (hs : fs[(⟨.staged, e, v⟩ : FileName)]? = some f)
    (m : ExtentMeta) (n : FileName) :
    (execAll fs (commitCalls x e v m))[n]? =
      if n = ⟨.committed, e, v⟩ then some f
      else if n = ⟨.metadata, e, v⟩ then some ⟨x.toStringPretty m, true⟩
      else if n = ⟨.staged, e, v⟩ then none
      else fs[n]? := by
  let mfile : FileName := ⟨.metadata, e, v⟩
  let before := execAll fs [.create mfile, .write mfile (x.toStringPretty m), .sync mfile]
  have hbefore : ∀ n' : FileName, before[n']?
      = if mfile = n' then some ⟨x.toStringPretty m, true⟩ else fs[n']? :=
    fun n' => getElem?_execAll_writeFile fs mfile n' (x.toStringPretty m)
  -- the staging file is still there when the rename comes
  have hsrc : before[(⟨.staged, e, v⟩ : FileName)]? = some f := by
    rw [hbefore, if_neg (by simp [mfile]), hs]
  have hafter : execAll fs (commitCalls x e v m)
      = exec before (.rename ⟨.staged, e, v⟩ ⟨.committed, e, v⟩) := rfl
  rw [hafter, getElem?_exec_rename hsrc, hbefore]
  simp only [mfile, eq_comm (b := n)]
  by_cases hst : n = ⟨.staged, e, v⟩
  · simp [hst]
  · simp [hst]

def committedEntry (st : ExtentStore) (e : ExtentId) (v : ExtentVersion) (checksum : String)
    (size : Nat) (cls : StorageClass) : LocalExtentEntry where
  extentId := e
  diskId := st.diskId
  path := (⟨.committed, e, v⟩ : FileName).path st.mountPath
  version := v
  checksum := checksum
  size := size
  storageClass := cls

theorem commitExtent_ok {now : Nat} {st' : ExtentStore} {checksum : String} {size : Nat}
    {cls : StorageClass} {entry : LocalExtentEntry}
    (h : st.commitExtent x fault now e v checksum size cls = (st', .ok entry)) :
    (⟨.staged, e, v⟩ : FileName) ∈ st.files ∧
      st' = st.setFiles (execAll st.files
        (commitCalls x e v (st.newMeta e v checksum size cls now))) ∧
      entry = st.committedEntry e v checksum size cls := by
  unfold commitExtent at h
  dsimp only at h
  split at h
  · cases h
  · rename_i hmem
    rcases hrun : runScript fault st.files
      (st.commitScript x e v (st.newMeta e v checksum size cls now)) with ⟨files, result⟩
    simp only [hrun] at h
    cases result with
    | error err => cases h
    | ok u =>
      cases h
      rw [runScript_ok hrun, commitScript_calls]
      exact ⟨by simpa using hmem, rfl, rfl⟩

theorem commitExtent_of_no_fault (hf : ∀ i, fault i = none) (now : Nat)
    (hs : (⟨.staged, e, v⟩ : FileName) ∈ st.files) (checksum : String) (size : Nat)
    (cls : StorageClass) :
    st.commitExtent x fault now e v checksum size cls =
      (st.setFiles (execAll st.files
          (commitCalls x e v (st.newMeta e v checksum size cls now))),
        .ok (st.committedEntry e v checksum size cls)) := by
  unfold commitExtent
  rw [if_neg (by simpa using hs)]
  simp only [runScript_of_no_fault _ _ hf, commitScript_calls]
  rfl

/-- With the staging file there, a commit makes seven calls and ends well when none of them
fails. -/
theorem commitExtent_isOk_iff {now : Nat} (hs : (⟨.staged, e, v⟩ : FileName) ∈ st.files)
    {checksum : String} {size : Nat} {cls : StorageClass} :
    (st.commitExtent x fault now e v checksum size cls).2.isOk = true ↔
      ∀ i < 7, fault i = none := by
  have hrun : (runScript fault st.files (st.commitScript x e v
      (st.newMeta e v checksum size cls now))).2.isOk = true ↔ ∀ i < 7, fault i = none :=
    runScript_isOk_iff
  rw [← hrun, commitExtent, if_neg (by simpa using hs)]
  dsimp only
  rcases runScript fault st.files
    (st.commitScript x e v (st.newMeta e v checksum size cls now)) with ⟨files, result⟩
  cases result <;> rfl

/-! ## 3. Reading -/

/-- The disk holds `data` as the committed extent version, and its metadata says so. -/
structure Stored (x : Externals) (st : ExtentStore) (e : ExtentId) (v : ExtentVersion)
    (data : Bytes) : Prop where
  committed : ∃ f, st.files[(⟨.committed, e, v⟩ : FileName)]? = some f ∧ f.data = data
  metadata : ∃ f m, st.files[(⟨.metadata, e, v⟩ : FileName)]? = some f ∧
    x.fromStr f.data = .ok m ∧ m.checksum = x.checksum data

/-- **A stored extent version reads back**, when the two files can be read. -/
theorem Stored.readExtent (h : Stored x st e v data) :
    st.readExtent x ⟨none, none⟩ e v = .ok (data, x.checksum data) := by
  obtain ⟨f, hf, rfl⟩ := h.committed
  obtain ⟨mf, m, hmf, hm, hsum⟩ := h.metadata
  unfold ExtentStore.readExtent
  simp only [hf, hmf, hm, hsum, ne_eq, not_true_eq_false, if_false]

theorem Stored.congr {st' : ExtentStore} (h : Stored x st e v data)
    (hsame : ∀ k, k ≠ FileKind.staged →
      st'.files[(⟨k, e, v⟩ : FileName)]? = st.files[(⟨k, e, v⟩ : FileName)]?) :
    Stored x st' e v data := by
  refine ⟨?_, ?_⟩
  · rw [hsame _ (by simp)]
    exact h.committed
  · rw [hsame _ (by simp)]
    exact h.metadata

end ExtentStore

end Blockyard.Storage
