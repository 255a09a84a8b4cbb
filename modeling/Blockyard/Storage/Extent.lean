/-
# Extent files: staging, commit, read, recovery

`blockyard-storage`, `extent.rs` and `error.rs`.  A committed extent is two files: its data
and a metadata file beside it.  `stage_extent` writes the data to a staging file;
`commit_extent` writes the metadata file IN PLACE and then renames the staged data over the
committed file; `read_extent` compares the data with the metadata's checksum if the metadata
parses, and accepts the data as it is if it does not; `recover` rebuilds the index from the
metadata files.

* Each store has a file system of its own: the disks of a node are separate XFS mounts.
* A file name is its kind, extent and version; `path` gives the string the source uses, which
  ends up in error texts.
* `Externals` is what this crate takes from others: the BLAKE3 digest, and `serde_json` on
  `ExtentMeta` -- a printer and a parser, with the two facts about them that matter: what was
  printed parses back, and a text that was cut off does not parse.
* I/O failures, the clock and directory scan orders are arguments of the operations.
-/
import Blockyard.Common.Types
import Blockyard.Lib.CrashFs

open Std CrashFs

namespace Blockyard.Storage

/-! ## 1. Errors and records -/

inductive StorageError
  | diskNotFound (msg : String)
  | duplicateDisk (msg : String)
  | xfsValidation (msg : String)
  | diskIdentity (msg : String)
  | invalidTransition (msg : String)
  | allocationDenied (msg : String)
  | extentNotFound (msg : String)
  | extentExists (msg : String)
  | immutabilityViolation (msg : String)
  | checksumMismatch (msg : String)
  | stagingError (msg : String)
  | io (msg : String)
  | staleEpoch (msg : String)
  | duplicateOperation (msg : String)
  | invalidLease (msg : String)
  deriving DecidableEq, Repr

instance : ToString StorageError where
  toString
    | .diskNotFound m => s!"disk not found: {m}"
    | .duplicateDisk m => s!"duplicate disk: {m}"
    | .xfsValidation m => s!"XFS validation failed: {m}"
    | .diskIdentity m => s!"disk identity error: {m}"
    | .invalidTransition m => s!"invalid state transition: {m}"
    | .allocationDenied m => s!"allocation denied: {m}"
    | .extentNotFound m => s!"extent not found: {m}"
    | .extentExists m => s!"extent already exists: {m}"
    | .immutabilityViolation m => s!"immutability violation: {m}"
    | .checksumMismatch m => s!"checksum mismatch: {m}"
    | .stagingError m => s!"staging error: {m}"
    | .io m => s!"io error: {m}"
    | .staleEpoch m => s!"stale epoch: {m}"
    | .duplicateOperation m => s!"duplicate operation: {m}"
    | .invalidLease m => s!"invalid lease: {m}"

abbrev ExtentVersion := Nat

inductive StorageClass
  | default | highPerformance | archive
  deriving DecidableEq, Repr

/-- `ExtentMeta`: what the metadata file of a committed extent says. -/
structure ExtentMeta where
  extentId : ExtentId
  diskId : DiskId
  version : ExtentVersion
  checksum : String
  size : Nat
  storageClass : StorageClass
  committedAt : Nat
  deriving DecidableEq, Repr

/-- `LocalExtentEntry`: an entry of the in-memory index. -/
structure LocalExtentEntry where
  extentId : ExtentId
  diskId : DiskId
  path : String
  version : ExtentVersion
  checksum : String
  size : Nat
  storageClass : StorageClass
  deriving DecidableEq, Repr

/-- `ExtentIndex`: one entry per extent, whatever its version. -/
abbrev ExtentIndex := HashMap ExtentId LocalExtentEntry

/-- `ExtentIndex::insert`: an existing entry is replaced. -/
def ExtentIndex.upsert (index : ExtentIndex) (entry : LocalExtentEntry) : ExtentIndex :=
  index.insert entry.extentId entry

/-- The checksum is made of letters and digits, as every checksum this crate computes is. -/
def ExtentMeta.Plain (m : ExtentMeta) : Prop := ∀ c ∈ m.checksum.toList, c.isAlphanum = true

/-- The functions of other crates: `blake3::hash`, and `serde_json::to_string_pretty` and
`serde_json::from_str` at `ExtentMeta`. -/
structure Externals where
  blake3 : Bytes → BitVec 256
  toStringPretty : ExtentMeta → Bytes
  fromStr : Bytes → Except String ExtentMeta
  /-- What was printed parses back. -/
  fromStr_toStringPretty : ∀ m : ExtentMeta, m.Plain → fromStr (toStringPretty m) = .ok m
  /-- A printed object that was cut off misses its closing brace and does not parse. -/
  fromStr_torn : ∀ (m : ExtentMeta) p, m.Plain → p <+: toStringPretty m →
    p ≠ toStringPretty m → ∃ err, fromStr p = .error err

/-- `compute_checksum` with the digest of the externals. -/
def Externals.checksum (x : Externals) (data : Bytes) : String := computeChecksum x.blake3 data

theorem isAlphanum_hexDigit {n : Nat} (h : n < 16) : (hexDigit n).isAlphanum = true := by
  interval_cases n <;> decide

theorem isAlphanum_of_mem_hexDigits {width n : Nat} {c : Char} (h : c ∈ hexDigits width n) :
    c.isAlphanum = true := by
  obtain ⟨i, -, rfl⟩ := List.mem_map.mp h
  exact isAlphanum_hexDigit (Nat.mod_lt _ (by decide))

theorem isAlphanum_of_mem_checksum (x : Externals) (data : Bytes) :
    ∀ c ∈ (x.checksum data).toList, c.isAlphanum = true := by
  intro c hc
  rw [Externals.checksum, computeChecksum, String.toList_ofList] at hc
  exact isAlphanum_of_mem_hexDigits hc

/-! ## 2. File names -/

/-- The three files an extent version can have on a disk. -/
inductive FileKind
  | staged | committed | metadata
  deriving DecidableEq, Repr

structure FileName where
  kind : FileKind
  extentId : ExtentId
  version : ExtentVersion
  deriving DecidableEq, Repr

/-- Position of a kind in the order of names. -/
def FileKind.rank : FileKind → Nat
  | .staged => 0
  | .committed => 1
  | .metadata => 2

/-- Names are ordered by kind, extent and version. -/
abbrev FileName.cmp : FileName → FileName → Ordering :=
  compareLex (compareOn fun n => n.kind.rank)
    (compareLex (compareOn FileName.extentId) (compareOn FileName.version))

instance : Ord FileName := ⟨FileName.cmp⟩

instance : TransOrd FileName := inferInstanceAs (TransCmp FileName.cmp)

instance : LawfulEqOrd FileName where
  eq_of_compare := by
    rintro ⟨k, e, v⟩ ⟨k', e', v'⟩ h
    have hcmp : FileName.cmp ⟨k, e, v⟩ ⟨k', e', v'⟩ = .eq := h
    simp only [FileName.cmp, compareLex_eq_eq, compareOn, LawfulEqOrd.compare_eq_iff_eq] at hcmp
    obtain ⟨hk, rfl, rfl⟩ := hcmp
    have hkk : k = k' := by
      cases k <;> cases k' <;> first | rfl | cases hk
    rw [hkk]

/-- `Path::join`. -/
def joinPath (base name : String) : String :=
  if base.isEmpty || base.endsWith "/" then base ++ name else base ++ "/" ++ name

/-- `committed_extent_path`, `staged_extent_path` and `extent_meta_path`. -/
def FileName.path (mountPath : String) (n : FileName) : String :=
  let idStr := toString n.extentId
  let committed := joinPath
    (joinPath (joinPath mountPath "committed") (String.ofList (idStr.toList.take 8)))
    s!"{idStr}_v{n.version}"
  match n.kind with
  | .staged => joinPath (joinPath mountPath "staged") s!"{idStr}_v{n.version}.staging"
  | .committed => committed
  | .metadata => committed ++ ".meta"

/-- The directory a committed extent and its metadata live in. -/
def committedDir (mountPath : String) (extentId : ExtentId) : String :=
  joinPath (joinPath mountPath "committed")
    (String.ofList ((toString extentId).toList.take 8))

/-! ## 3. The store -/

/-- `ExtentStore`, with the files on its disk. -/
structure ExtentStore where
  mountPath : String
  diskId : DiskId
  files : Fs FileName

namespace ExtentStore

variable (x : Externals)

/-- The calls of `stage_extent`, each with the error it turns a failure into. -/
def stageScript (st : ExtentStore) (extentId : ExtentId) (version : ExtentVersion)
    (data : Bytes) : List (Call FileName × (String → StorageError)) :=
  let staged : FileName := ⟨.staged, extentId, version⟩
  let path := staged.path st.mountPath
  [(.mkdir, .io),
    (.create staged, fun e => .stagingError s!"failed to create staging file {path}: {e}"),
    (.write staged data, fun e => .stagingError s!"failed to write staging file {path}: {e}"),
    (.sync staged, fun e => .stagingError s!"fsync failed for staging file {path}: {e}")]

/-- `stage_extent`: the store afterwards, and the staged path with the payload's checksum. -/
def stageExtent (fault : Nat → Option Fault) (st : ExtentStore) (extentId : ExtentId)
    (version : ExtentVersion) (data : Bytes) :
    ExtentStore × Except StorageError (String × String) :=
  let (files, result) := runScript fault st.files (st.stageScript extentId version data)
  ({ st with files }, result.map fun _ =>
    ((⟨.staged, extentId, version⟩ : FileName).path st.mountPath, x.checksum data))

/-- The metadata `commit_extent` writes. -/
def newMeta (st : ExtentStore) (extentId : ExtentId) (version : ExtentVersion)
    (checksum : String) (size : Nat) (storageClass : StorageClass) (committedAt : Nat) :
    ExtentMeta where
  extentId := extentId
  diskId := st.diskId
  version := version
  checksum := checksum
  size := size
  storageClass := storageClass
  committedAt := committedAt

/-- The calls of `commit_extent`, after its check that the staged file exists.  The metadata
file is truncated, written and synced BEFORE the rename. -/
def commitScript (st : ExtentStore) (extentId : ExtentId) (version : ExtentVersion)
    (m : ExtentMeta) : List (Call FileName × (String → StorageError)) :=
  let staged : FileName := ⟨.staged, extentId, version⟩
  let committed : FileName := ⟨.committed, extentId, version⟩
  let metadata : FileName := ⟨.metadata, extentId, version⟩
  let stagedPath := staged.path st.mountPath
  let committedPath := committed.path st.mountPath
  let metaPath := metadata.path st.mountPath
  let parent := committedDir st.mountPath extentId
  [(.mkdir, .io),
    (.create metadata, fun e =>
      .stagingError s!"failed to create metadata file {metaPath}: {e}"),
    (.write metadata (x.toStringPretty m), fun e =>
      .stagingError s!"failed to write metadata file {metaPath}: {e}"),
    (.sync metadata, fun e => .stagingError s!"fsync failed for metadata file {metaPath}: {e}"),
    (.rename staged committed, fun e =>
      .stagingError s!"atomic rename failed {stagedPath} → {committedPath}: {e}"),
    (.syncDir, fun e => .stagingError s!"failed to open parent dir {parent} for sync: {e}"),
    (.syncDir, fun e => .stagingError s!"failed to sync parent dir {parent}: {e}")]

/-- `commit_extent`: the store afterwards and the index entry of the committed extent. -/
def commitExtent (fault : Nat → Option Fault) (committedAt : Nat) (st : ExtentStore)
    (extentId : ExtentId) (version : ExtentVersion) (checksum : String) (size : Nat)
    (storageClass : StorageClass) : ExtentStore × Except StorageError LocalExtentEntry :=
  let staged : FileName := ⟨.staged, extentId, version⟩
  if ¬ st.files.contains staged then
    (st, .error (.stagingError s!"staged file not found: {staged.path st.mountPath}"))
  else
    let m := st.newMeta extentId version checksum size storageClass committedAt
    let (files, result) := runScript fault st.files (st.commitScript x extentId version m)
    ({ st with files }, result.map fun _ =>
      { extentId
        diskId := st.diskId
        path := (⟨.committed, extentId, version⟩ : FileName).path st.mountPath
        version
        checksum
        size
        storageClass })

/-- Failures of the two file reads of `read_extent`. -/
structure ReadFault where
  data : Option String
  metadata : Option String

/-- `read_extent`: the data and its checksum.  Metadata that does not parse is ignored. -/
def readExtent (fault : ReadFault) (st : ExtentStore) (extentId : ExtentId)
    (version : ExtentVersion) : Except StorageError (Bytes × String) :=
  let committed : FileName := ⟨.committed, extentId, version⟩
  match st.files[committed]? with
  | none =>
    .error (.extentNotFound s!"committed extent not found: {committed.path st.mountPath}")
  | some f =>
    match fault.data with
    | some e => .error (.io e)
    | none =>
      let checksum := x.checksum f.data
      match st.files[(⟨.metadata, extentId, version⟩ : FileName)]? with
      | none => .ok (f.data, checksum)
      | some mf =>
        match fault.metadata with
        | some e => .error (.io e)
        | none =>
          match x.fromStr mf.data with
          | .error _ => .ok (f.data, checksum)
          | .ok m =>
            if m.checksum ≠ checksum then
              .error (.checksumMismatch
                s!"extent {extentId} v{version}: expected {m.checksum}, got {checksum}")
            else .ok (f.data, checksum)

/-! ## 4. Recovery -/

structure RecoveryReport where
  committedRecovered : Nat
  stagedDiscarded : Nat
  errors : Nat
  deriving DecidableEq, Repr

/-- `recover_extent_from_file`, on the committed file of an extent version. -/
def recoverExtentFromFile (st : ExtentStore) (key : ExtentId × ExtentVersion) :
    Except StorageError LocalExtentEntry :=
  let path := (⟨.committed, key.1, key.2⟩ : FileName).path st.mountPath
  match st.files[(⟨.metadata, key.1, key.2⟩ : FileName)]? with
  | none => .error (.extentNotFound s!"metadata file missing for {path}")
  | some mf =>
    match x.fromStr mf.data with
    | .error e => .error (.extentNotFound s!"corrupt metadata at {path}.meta: {e}")
    | .ok m => .ok {
        extentId := m.extentId
        diskId := m.diskId
        path
        version := m.version
        checksum := m.checksum
        size := m.size
        storageClass := m.storageClass }

def committedKeys (st : ExtentStore) : List (ExtentId × ExtentVersion) :=
  st.files.keys.filterMap fun n =>
    if n.kind = .committed then some (n.extentId, n.version) else none

/-- `scan_committed_dir`, over the committed files in the order the scan visits them. -/
def scanCommitted (st : ExtentStore) (keys : List (ExtentId × ExtentVersion))
    (index : ExtentIndex) (report : RecoveryReport) : ExtentIndex × RecoveryReport :=
  keys.foldl (fun (acc : ExtentIndex × RecoveryReport) key =>
    match st.recoverExtentFromFile x key with
    | .ok entry =>
      (acc.1.upsert entry,
        { acc.2 with committedRecovered := acc.2.committedRecovered + 1 })
    | .error _ => (acc.1, { acc.2 with errors := acc.2.errors + 1 })) (index, report)

def stagedNames (st : ExtentStore) : List FileName :=
  st.files.keys.filter fun n => n.kind = .staged

/-- `recover`: rebuild the index from the committed files, discard the staged ones. -/
def recover (order : IterOrder (ExtentId × ExtentVersion)) (st : ExtentStore)
    (index : ExtentIndex) : ExtentStore × ExtentIndex × RecoveryReport :=
  let (index, report) := st.scanCommitted x (order.arrange st.committedKeys) index ⟨0, 0, 0⟩
  let staged := st.stagedNames
  ({ st with files := execAll st.files (staged.map .remove) }, index,
    { report with stagedDiscarded := staged.length })

end ExtentStore

end Blockyard.Storage
