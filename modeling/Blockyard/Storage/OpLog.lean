/-
# The durable operation log

`blockyard-storage`, `service.rs` (`DurableOpLog`): every completed operation is one JSON line of
`oplog.jsonl`, written and synced by `append`; `open` reads the lines back into a map, and skips
what it cannot parse.  Two things get lost.

* `open` does not cut off an unfinished last line.  The file is opened for appending, so the next
  record is written BEHIND the unfinished text, on the same line, and neither can be parsed.
* A file over the limit is renamed to `oplog.jsonl.old`, which `open` never reads.

`LogFiles` is the bytes on the disk.  `Page` says which records can be read back from them: an
append, a rotation and a crash are a line each, and the bytes follow the page (`Shows`), so the
map that `open` rebuilds is the page's records (`Shows.openLog`).  A run is durable exactly when
the page has kept the last completed record of every operation (`opLog_durable_iff`).
-/
import Blockyard.Lib.Lines
import Blockyard.Lib.MapLog
import Blockyard.Storage.Json
import Blockyard.Storage.Service

open Std

namespace Blockyard.Storage

/-! ## 1. Records as lines -/

/-- The checksum of a record is computed, or empty. -/
def OperationRecord.Plain (r : OperationRecord) : Prop :=
  ∀ c ∈ r.checksum.toList, c.isAlphanum = true

/-- A record as `record_operation` gets them. -/
abbrev LogRecord := { r : OperationRecord // r.Plain }

/-- `serde_json::to_string` and `serde_json::from_str` at `OperationRecord`, and what the standard
library says of a line: that it is UTF-8, and that nothing is left of it when it is trimmed. -/
structure OpCodec where
  toStr : LogRecord → Bytes
  fromStr : Bytes → Option OperationRecord
  validUtf8 : Bytes → Bool
  isBlank : Bytes → Bool
  /-- What was printed parses back. -/
  fromStr_toStr : ∀ r : LogRecord, fromStr (toStr r) = some r.1
  /-- Plain records are printed in printable ASCII. -/
  printable : ∀ (r : LogRecord), ∀ b ∈ toStr r, 32 ≤ b.toNat ∧ b.toNat < 127
  validUtf8_ascii : ∀ text, (∀ b ∈ text, b.toNat < 128) → validUtf8 text = true
  fromStr_blank : ∀ text, isBlank text = true → fromStr text = none
  /-- A printed object that was cut off misses its closing brace. -/
  fromStr_torn : ∀ (r : LogRecord) text, text <+: toStr r → text ≠ toStr r → fromStr text = none
  /-- An object does not begin inside another one's text, or behind it. -/
  fromStr_glued : ∀ (r r' : LogRecord) text, text <+: toStr r → text ≠ [] →
    fromStr (text ++ toStr r') = none

def maxOplogFileSize : Nat := 10 * 1024 * 1024

/-- `oplog.jsonl` and `oplog.jsonl.old`; a file that does not exist is empty. -/
structure LogFiles where
  current : Bytes
  old : Bytes
  deriving DecidableEq, Repr

def OpCodec.line (codec : OpCodec) (r : LogRecord) : Bytes := codec.toStr r ++ [10]

/-- `BufRead::lines`: a line feed ends a line, with a carriage return before it; text behind the
last one is a line too. -/
def bufLines (text : Bytes) : List Bytes :=
  (Lines.split 10 text).1.map (fun l => if l.getLast? = some 13 then l.dropLast else l)
    ++ (if (Lines.split 10 text).2 = [] then [] else [(Lines.split 10 text).2])

/-- The loop of `open`: it ends at a line that is not UTF-8. -/
def replayLines (codec : OpCodec) :
    List Bytes → HashMap OperationId OperationRecord → HashMap OperationId OperationRecord
  | [], map => map
  | line :: rest, map =>
    if codec.validUtf8 line = false then map
    else if codec.isBlank line then replayLines codec rest map
    else match codec.fromStr line with
      | some record => replayLines codec rest (map.insert record.operationId record)
      | none => replayLines codec rest map

/-- `DurableOpLog::open`: the map; the files stay as they are. -/
def openLog (codec : OpCodec) (files : LogFiles) : HashMap OperationId OperationRecord :=
  replayLines codec (bufLines files.current) ∅

def maybeRotate (files : LogFiles) : LogFiles :=
  if files.current.length > maxOplogFileSize then ⟨[], files.current⟩ else files

/-- The write and the `fsync` of `append`. -/
def writeRecord (codec : OpCodec) (files : LogFiles) (r : LogRecord) : LogFiles :=
  { files with current := files.current ++ codec.line r }

/-- `DurableOpLog::append`. -/
def appendRecord (codec : OpCodec) (files : LogFiles) (r : LogRecord) : LogFiles :=
  maybeRotate (writeRecord codec files r)

/-- Where the crash comes: behind `n` bytes of the line of `r`, which is not synced, or behind the
`fsync` of `r`, before the rotation. -/
inductive CrashPoint
  | torn (r : LogRecord) (n : Nat)
  | synced (r : LogRecord)

def CrashPoint.files (codec : OpCodec) (files : LogFiles) : CrashPoint → LogFiles
  | .torn r n => { files with current := files.current ++ (codec.line r).take n }
  | .synced r => writeRecord codec files r

def CrashPoint.completed : CrashPoint → List LogRecord
  | .torn _ _ => []
  | .synced r => [r]

/-- Appends, a crash, a reopening, appends. -/
structure LogRun where
  before : List LogRecord
  crash : CrashPoint
  after : List LogRecord

def LogRun.files (codec : OpCodec) (run : LogRun) : LogFiles :=
  run.after.foldl (appendRecord codec)
    (run.crash.files codec (run.before.foldl (appendRecord codec) ⟨[], []⟩))

/-- The records whose append completed, in order. -/
def LogRun.completed (run : LogRun) : List LogRecord :=
  run.before ++ run.crash.completed ++ run.after

def byOperation (records : List OperationRecord) : List (OperationId × OperationRecord) :=
  records.map fun r => (r.operationId, r)

/-- **Durability**: the last opening finds the last completed record of every operation. -/
def Durable (codec : OpCodec) (run : LogRun) : Prop :=
  ∀ id record, MapLog.last id (byOperation (run.completed.map Subtype.val)) = some record →
    (openLog codec (run.files codec))[id]? = some record

/-! ## 2. What can be read back -/

/-- The current file: the records on its finished lines, the unfinished text, and its size. -/
structure Page where
  kept : List LogRecord
  tail : Bytes
  size : Nat

/-- An append: behind an unfinished text it is lost, and a file over the limit is put away. -/
def Page.append (codec : OpCodec) (page : Page) (r : LogRecord) : Page :=
  if page.size + (codec.line r).length > maxOplogFileSize then ⟨[], [], 0⟩
  else ⟨if page.tail = [] then page.kept ++ [r] else page.kept, [],
    page.size + (codec.line r).length⟩

/-- A crash on a file without unfinished text. -/
def Page.crash (codec : OpCodec) (page : Page) : CrashPoint → Page
  | .torn r n =>
    if n ≤ (codec.toStr r).length then ⟨page.kept, (codec.toStr r).take n, page.size + n⟩
    else ⟨page.kept ++ [r], [], page.size + (codec.line r).length⟩
  | .synced r => ⟨page.kept ++ [r], [], page.size + (codec.line r).length⟩

def LogRun.page (codec : OpCodec) (run : LogRun) : Page :=
  run.after.foldl (Page.append codec)
    ((run.before.foldl (Page.append codec) ⟨[], [], 0⟩).crash codec run.crash)

/-- The records found on a page: an unfinished text counts if it is all there but its line feed. -/
def Page.found (codec : OpCodec) (page : Page) : List OperationRecord :=
  page.kept.map Subtype.val ++ (codec.fromStr page.tail).toList

/-- **The bytes of a page.** -/
structure Shows (codec : OpCodec) (page : Page) (text : Bytes) : Prop where
  size : text.length = page.size
  tail : ∃ r, page.tail <+: codec.toStr r
  text : ∃ lines, text = Lines.join 10 lines page.tail ∧
    (∀ l ∈ lines, ∀ b ∈ l, 32 ≤ b.toNat ∧ b.toNat < 127) ∧
    lines.filterMap codec.fromStr = page.kept.map Subtype.val

/-- A record is never printed as nothing: nothing is also a torn piece of another one. -/
theorem OpCodec.toStr_ne_nil (codec : OpCodec) (r : LogRecord) : codec.toStr r ≠ [] := by
  intro hnil
  -- a record that differs in its outcome
  let other : LogRecord := ⟨{ r.1 with success := !r.1.success }, r.2⟩
  have hback := codec.fromStr_toStr r
  rw [hnil] at hback
  by_cases hother : codec.toStr other = []
  · have hback' := codec.fromStr_toStr other
    rw [hother, hback] at hback'
    have hflag : r.1.success = !r.1.success :=
      congrArg OperationRecord.success (Option.some.inj hback')
    simp at hflag
  · rw [codec.fromStr_torn other [] List.nil_prefix (Ne.symm hother)] at hback
    cases hback

theorem OpCodec.fromStr_nil (codec : OpCodec) (r : LogRecord) : codec.fromStr [] = none :=
  codec.fromStr_torn r [] List.nil_prefix (Ne.symm (codec.toStr_ne_nil r))

section Pages

variable {codec : OpCodec} {page : Page} {text : Bytes} {files : LogFiles}

theorem Shows.printable_tail (h : Shows codec page text) :
    ∀ b ∈ page.tail, 32 ≤ b.toNat ∧ b.toNat < 127 := by
  obtain ⟨r, hr⟩ := h.tail
  exact fun b hb => codec.printable r b (hr.subset hb)

/-- A loop over ASCII lines puts in what they parse to. -/
theorem replayLines_eq {lines : List Bytes} (h : ∀ l ∈ lines, ∀ b ∈ l, b.toNat < 128)
    (map : HashMap OperationId OperationRecord) :
    replayLines codec lines map
      = MapLog.replay map ((lines.filterMap codec.fromStr).map fun r =>
          (r.operationId, some r)) := by
  induction lines generalizing map with
  | nil => rfl
  | cons line rest ih =>
    have hrest : ∀ l ∈ rest, ∀ b ∈ l, b.toNat < 128 := fun l hl => h l (by simp [hl])
    have hvalid := codec.validUtf8_ascii line (h line (by simp))
    rw [replayLines, if_neg (by simp [hvalid]), List.filterMap_cons]
    cases hrec : codec.fromStr line with
    | none => simp [ih hrest]
    | some record =>
      have hblank : codec.isBlank line ≠ true := by
        intro hblank
        rw [codec.fromStr_blank line hblank] at hrec
        cases hrec
      rw [if_neg hblank]
      exact ih hrest _

/-- A map built from records has the last one of each operation. -/
theorem getElem?_replay_byOperation (records : List OperationRecord) (id : OperationId) :
    (MapLog.replay (∅ : HashMap OperationId OperationRecord)
        (records.map fun r => (r.operationId, some r)))[id]?
      = MapLog.last id (byOperation records) := by
  have hlast : MapLog.last id (records.map fun r => (r.operationId, some r))
      = (MapLog.last id (byOperation records)).map some := by
    induction records with
    | nil => rfl
    | cons r records ih =>
      rw [byOperation, List.map_cons, List.map_cons, MapLog.last_cons, MapLog.last_cons, ih,
        Option.map_or]
      by_cases hid : r.operationId = id <;> simp [hid, byOperation]
  rw [MapLog.getElem?_replay, hlast, ExtTreeMap.getElem?_empty]
  cases MapLog.last id (byOperation records) <;> rfl

/-- **Opening reads the page.** -/
theorem Shows.openLog (h : Shows codec page text) (old : Bytes) (id : OperationId) :
    (openLog codec ⟨text, old⟩)[id]?
      = MapLog.last id (byOperation (page.found codec)) := by
  obtain ⟨lines, rfl, hprint, hkept⟩ := h.text
  have htail := h.printable_tail
  have hfeed : ∀ l : Bytes, (∀ b ∈ l, 32 ≤ b.toNat ∧ b.toNat < 127) → (10 : UInt8) ∉ l :=
    fun l hl hmem => absurd (hl 10 hmem).1 (by decide)
  have hsplit := Lines.split_join (fun l hl => hfeed l (hprint l hl)) (hfeed _ htail)
  -- no line ends with a carriage return
  have hstrip : lines.map (fun l => if l.getLast? = some 13 then l.dropLast else l) = lines := by
    conv_rhs => rw [← List.map_id lines]
    refine List.map_congr_left fun l hl => if_neg fun hlast => ?_
    exact absurd (hprint l hl 13 (List.mem_of_getLast? hlast)).1 (by decide)
  have hlines : bufLines (Lines.join 10 lines page.tail)
      = lines ++ (if page.tail = [] then [] else [page.tail]) := by
    rw [bufLines, hsplit, hstrip]
  have hascii : ∀ l ∈ bufLines (Lines.join 10 lines page.tail), ∀ b ∈ l, b.toNat < 128 := by
    intro l hl b hb
    rw [hlines, List.mem_append] at hl
    rcases hl with hl | hl
    · exact Nat.lt_succ_of_lt (hprint l hl b hb).2
    · split at hl
      · cases hl
      · rw [List.mem_singleton] at hl
        subst hl
        exact Nat.lt_succ_of_lt (htail b hb).2
  have hfound : (bufLines (Lines.join 10 lines page.tail)).filterMap codec.fromStr
      = page.found codec := by
    obtain ⟨r, -⟩ := h.tail
    rw [hlines, List.filterMap_append, hkept, Page.found]
    split
    · next hempty => simp [hempty, codec.fromStr_nil r]
    · cases hrec : codec.fromStr page.tail <;> simp [hrec]
  rw [Storage.openLog, replayLines_eq hascii, hfound, getElem?_replay_byOperation]

/-- **A record is written**: on a line of its own, or behind an unfinished text. -/
theorem Shows.write (h : Shows codec page text) (r : LogRecord) :
    Shows codec ⟨if page.tail = [] then page.kept ++ [r] else page.kept, [],
      page.size + (codec.line r).length⟩ (text ++ codec.line r) := by
  obtain ⟨lines, rfl, hprint, hkept⟩ := h.text
  refine ⟨by simp [← h.size], ⟨r, List.nil_prefix⟩,
    lines ++ [page.tail ++ codec.toStr r], Lines.join_snoc _ _ _ _, ?_, ?_⟩
  · intro l hl b hb
    rcases List.mem_append.mp hl with hl | hl
    · exact hprint l hl b hb
    · rw [List.mem_singleton] at hl
      subst hl
      rcases List.mem_append.mp hb with hb | hb
      · exact h.printable_tail b hb
      · exact codec.printable r b hb
  · rw [List.filterMap_append, hkept]
    by_cases htail : page.tail = []
    · simp [htail, codec.fromStr_toStr]
    · obtain ⟨r₀, hr₀⟩ := h.tail
      simp [htail, codec.fromStr_glued r₀ r page.tail hr₀ htail]

theorem shows_empty (codec : OpCodec) (r : LogRecord) : Shows codec ⟨[], [], 0⟩ [] :=
  ⟨rfl, ⟨r, List.nil_prefix⟩, [], rfl, by simp, rfl⟩

/-- **An append.** -/
theorem Shows.append (h : Shows codec page files.current) (r : LogRecord) :
    Shows codec (page.append codec r) (appendRecord codec files r).current := by
  have hsize : (files.current ++ codec.line r).length = page.size + (codec.line r).length := by
    rw [List.length_append, h.size]
  rw [appendRecord, maybeRotate, Page.append, writeRecord]
  dsimp only
  rw [hsize]
  split
  · exact shows_empty codec r
  · exact h.write r

/-- **Appends.** -/
theorem Shows.appendAll (h : Shows codec page files.current) (records : List LogRecord) :
    Shows codec (records.foldl (Page.append codec) page)
      (records.foldl (appendRecord codec) files).current := by
  induction records generalizing page files with
  | nil => exact h
  | cons r records ih => exact ih (h.append r)

theorem tail_appendAll (htail : page.tail = []) (records : List LogRecord) :
    (records.foldl (Page.append codec) page).tail = [] := by
  induction records generalizing page with
  | nil => exact htail
  | cons r records ih =>
    refine ih ?_
    rw [Page.append]
    split <;> rfl

/-- **A crash.** -/
theorem Shows.crash (h : Shows codec page files.current) (htail : page.tail = [])
    (point : CrashPoint) :
    Shows codec (page.crash codec point) (point.files codec files).current := by
  have hwrite := fun r => h.write r
  simp only [htail, if_true] at hwrite
  cases point with
  | synced r => exact hwrite r
  | torn r n =>
    rw [Page.crash, CrashPoint.files]
    split
    · next hle =>
      obtain ⟨lines, htext, hprint, hkept⟩ := h.text
      have htake : (codec.line r).take n = (codec.toStr r).take n :=
        List.take_append_of_le_length hle
      refine ⟨?_, ⟨r, List.take_prefix _ _⟩, lines, ?_, hprint, hkept⟩
      · simp [htake, h.size, hle]
      · rw [htake, htext, htail, Lines.join_tail, List.nil_append]
    · next hlt =>
      have htake : (codec.line r).take n = codec.line r :=
        List.take_of_length_le (by simp [OpCodec.line]; omega)
      rw [htake]
      exact hwrite r

end Pages

def CrashPoint.record : CrashPoint → LogRecord
  | .torn r _ => r
  | .synced r => r

/-- **The files of a run follow its page.** -/
theorem LogRun.shows (codec : OpCodec) (run : LogRun) :
    Shows codec (run.page codec) (run.files codec).current := by
  have hbefore : Shows codec (run.before.foldl (Page.append codec) ⟨[], [], 0⟩)
      (run.before.foldl (appendRecord codec) ⟨[], []⟩).current :=
    Shows.appendAll (shows_empty codec run.crash.record) run.before
  exact (hbefore.crash (tail_appendAll rfl run.before) run.crash).appendAll run.after

/-! ## 3. Durability -/

variable {codec : OpCodec} {page : Page} {run : LogRun}

/-- The page has kept the last completed record of every operation: it was not put away with a
rotated file, not written behind an unfinished text, and no unfinished record that is all there
has taken its place. -/
def Kept (codec : OpCodec) (run : LogRun) : Prop :=
  ∀ id record, MapLog.last id (byOperation (run.completed.map Subtype.val)) = some record →
    MapLog.last id (byOperation ((run.page codec).found codec)) = some record

theorem openLog_files (codec : OpCodec) (run : LogRun) (id : OperationId) :
    (openLog codec (run.files codec))[id]?
      = MapLog.last id (byOperation ((run.page codec).found codec)) :=
  (run.shows codec).openLog (run.files codec).old id

/-- Every append fits in the file, and nothing is appended behind a torn line. -/
structure Clean (codec : OpCodec) (run : LogRun) : Prop where
  fits : ((run.before ++ run.crash.record :: run.after).map fun r =>
    (codec.line r).length).sum ≤ maxOplogFileSize
  finished : ∀ r n, run.crash = .torn r n → n = 0 ∨ n < (codec.toStr r).length ∧ run.after = []

theorem appendAll_fits (htail : page.tail = []) (records : List LogRecord)
    (h : page.size + (records.map fun r => (codec.line r).length).sum ≤ maxOplogFileSize) :
    records.foldl (Page.append codec) page = ⟨page.kept ++ records, [],
      page.size + (records.map fun r => (codec.line r).length).sum⟩ := by
  induction records generalizing page with
  | nil =>
    obtain ⟨kept, tail, size⟩ := page
    simp_all
  | cons r records ih =>
    rw [List.map_cons, List.sum_cons, ← Nat.add_assoc] at h ⊢
    have hstep : page.append codec r
        = ⟨page.kept ++ [r], [], page.size + (codec.line r).length⟩ := by
      rw [Page.append, if_neg (by omega), if_pos htail]
    rw [List.foldl_cons, hstep, ih rfl h]
    simp

/-- The records found on a page without unfinished text. -/
theorem Page.found_of_tail (r : LogRecord) (htail : page.tail = []) :
    page.found codec = page.kept.map Subtype.val := by
  rw [Page.found, htail, codec.fromStr_nil r]
  simp

/-- **A clean run keeps everything.** -/
theorem Clean.found (h : Clean codec run) :
    (run.page codec).found codec = run.completed.map Subtype.val := by
  obtain ⟨before, crash, after⟩ := run
  have hfits := h.fits
  simp only [List.map_append, List.map_cons, List.sum_append, List.sum_cons] at hfits
  have hbefore : before.foldl (Page.append codec) ⟨[], [], 0⟩
      = ⟨before, [], (before.map fun r => (codec.line r).length).sum⟩ := by
    have hsum : (⟨[], [], 0⟩ : Page).size + (before.map fun r => (codec.line r).length).sum
        ≤ maxOplogFileSize := by
      simp only [Nat.zero_add]
      omega
    simpa using appendAll_fits rfl before hsum
  rw [LogRun.page, LogRun.completed]
  dsimp only
  rw [hbefore]
  cases crash with
  | synced r =>
    rw [Page.crash, appendAll_fits rfl after (by simp only [CrashPoint.record] at hfits ⊢; omega),
      Page.found_of_tail r rfl]
    rfl
  | torn r n =>
    simp only [CrashPoint.record] at hfits
    rcases h.finished r n rfl with rfl | ⟨hlt, hnone⟩
    · rw [Page.crash, if_pos (Nat.zero_le _), List.take_zero,
        appendAll_fits rfl after (by simp only; omega), Page.found_of_tail r rfl]
      simp [CrashPoint.completed]
    · -- the torn line is the last one and does not parse
      obtain rfl : after = [] := hnone
      have htorn : codec.fromStr ((codec.toStr r).take n) = none := by
        refine codec.fromStr_torn r _ (List.take_prefix _ _) fun heq => ?_
        have hlen := congrArg List.length heq
        rw [List.length_take, Nat.min_eq_left (Nat.le_of_lt hlt)] at hlen
        omega
      rw [List.foldl_nil, Page.crash, if_pos (Nat.le_of_lt hlt), Page.found, htorn]
      simp [CrashPoint.completed]

/-- **The log is durable exactly when the page keeps what was completed**; it does when every
append fits in the file and nothing is appended behind a torn line. -/
theorem opLog_durable_iff (codec : OpCodec) (run : LogRun) :
    (Durable codec run ↔ Kept codec run) ∧ (Clean codec run → Durable codec run) := by
  have hiff : Durable codec run ↔ Kept codec run := by
    unfold Durable Kept
    simp only [openLog_files]
  refine ⟨hiff, fun hclean => hiff.mpr fun id record hlast => ?_⟩
  rwa [hclean.found]

/-! ## 4. What is lost -/

theorem kept_appendAll_subset (records : List LogRecord) :
    ∀ r ∈ (records.foldl (Page.append codec) page).kept, r ∈ page.kept ++ records := by
  induction records generalizing page with
  | nil => simp
  | cons first records ih =>
    intro r hr
    have hmem := ih r hr
    rw [Page.append] at hmem
    split at hmem
    · simp only [List.nil_append] at hmem
      simp [hmem]
    · split at hmem <;> simp only [List.mem_append, List.mem_cons, List.not_mem_nil] at hmem ⊢
      · tauto
      · tauto

/-- **A record behind a torn line is lost**: after a crash inside the line of `r`, the record of a
new operation that is appended next is not found by the next opening. -/
theorem not_durable_of_torn (codec : OpCodec) {before : List LogRecord} {r next : LogRecord}
    {n : Nat} (hpos : 0 < n) (hle : n ≤ (codec.toStr r).length)
    (hnew : ∀ b ∈ before, b.1.operationId ≠ next.1.operationId) :
    ¬ Durable codec ⟨before, .torn r n, [next]⟩ := by
  intro hdurable
  have hcompleted : MapLog.last next.1.operationId (byOperation ((LogRun.completed
      ⟨before, .torn r n, [next]⟩).map Subtype.val)) = some next.1 := by
    simp [LogRun.completed, CrashPoint.completed, byOperation, MapLog.last_append,
      MapLog.last_cons]
  have hfound := (openLog_files codec ⟨before, .torn r n, [next]⟩ next.1.operationId).symm.trans
    (hdurable _ _ hcompleted)
  -- only records of `before` are left
  have htail : (codec.toStr r).take n ≠ [] := by
    rw [← List.length_pos_iff, List.length_take, Nat.min_eq_left hle]
    exact hpos
  have hpage : (LogRun.page codec ⟨before, .torn r n, [next]⟩).tail = [] ∧
      ∀ b ∈ (LogRun.page codec ⟨before, .torn r n, [next]⟩).kept, b ∈ before := by
    rw [LogRun.page, Page.crash]
    dsimp only
    rw [if_pos hle, List.foldl_cons, List.foldl_nil, Page.append]
    split
    · exact ⟨rfl, by simp⟩
    · refine ⟨rfl, fun b hb => ?_⟩
      simpa using kept_appendAll_subset before b hb
  rw [Page.found_of_tail r hpage.1] at hfound
  have hmem := MapLog.mem_of_last hfound
  simp only [byOperation, List.map_map, List.mem_map, Function.comp_apply] at hmem
  obtain ⟨b, hb, hpair⟩ := hmem
  exact hnew b (hpage.2 b hb) (congrArg Prod.fst hpair)

/-- **A rotation loses records**: when an append brings the file over the limit, the next opening
finds nothing, not even the record appended. -/
theorem not_durable_of_rotated (codec : OpCodec) (run : LogRun) (r : LogRecord)
    (hfull : ((run.files codec).current ++ codec.line r).length > maxOplogFileSize) :
    ¬ Durable codec { run with after := run.after ++ [r] } := by
  have hfiles : LogRun.files codec { run with after := run.after ++ [r] }
      = ⟨[], (run.files codec).current ++ codec.line r⟩ := by
    rw [LogRun.files, List.foldl_append]
    exact if_pos hfull
  have hcompleted : MapLog.last r.1.operationId (byOperation ((LogRun.completed
      { run with after := run.after ++ [r] }).map Subtype.val)) = some r.1 := by
    simp [LogRun.completed, byOperation, MapLog.last_append, MapLog.last_cons]
  intro hdurable
  have hfound := hdurable _ _ hcompleted
  rw [hfiles] at hfound
  cases hfound

/-! ## 5. The printed record -/

variable {r : OperationRecord}

def recordFields (r : OperationRecord) : List (List Char) :=
  [r.operationId.text.toList, r.extentId.text.toList, r.extentVersion.repr.toList,
    r.diskId.text.toList, r.checksum.toList,
    if r.success then ['t', 'r', 'u', 'e'] else ['f', 'a', 'l', 's', 'e']]

/-- The literal text around the fields, each with the delimiter that ends its field. -/
def recordShape : List (Bytes × UInt8) :=
  [(asciiBytes "\x7b\"operation_id\":\"".toList, 34),
    (asciiBytes ",\"extent_id\":\"".toList, 34),
    (asciiBytes ",\"extent_version\":".toList, 44),
    (asciiBytes "\"disk_id\":\"".toList, 34),
    (asciiBytes ",\"checksum\":\"".toList, 34),
    (asciiBytes ",\"success\":".toList, 125)]

/-- `serde_json::to_string` on a record with a plain checksum. -/
def recordJson (r : OperationRecord) : Bytes :=
  layout [] recordShape ((recordFields r).map asciiBytes)

theorem recordFields_injective : Function.Injective recordFields := by
  intro r r' h
  simp only [recordFields, List.cons.injEq, String.toList_inj, and_true, Nat.repr_inj] at h
  obtain ⟨ho, he, hv, hd, hc, hs⟩ := h
  obtain ⟨o, e, v, d, c, s⟩ := r
  obtain ⟨o', e', v', d', c', s'⟩ := r'
  obtain rfl := Uid.text_injective ho
  obtain rfl := Uid.text_injective he
  obtain rfl := Uid.text_injective hd
  subst hv hc
  cases s <;> cases s' <;> first | rfl | simp at hs

theorem fieldText_recordFields (hr : r.Plain) :
    ∀ f ∈ recordFields r, FieldText f := by
  intro f hf
  simp only [recordFields, List.mem_cons, List.not_mem_nil, or_false] at hf
  rcases hf with rfl | rfl | rfl | rfl | rfl | rfl
  · exact fieldText_uid _
  · exact fieldText_uid _
  · exact fieldText_nat _
  · exact fieldText_uid _
  · exact fun c hc => Or.inl (hr c hc)
  · cases r.success <;> simp [FieldText]

theorem field_byte {s : List Char} (h : FieldText s) : ∀ b ∈ asciiBytes s, 45 ≤ b.toNat ∧
    b.toNat < 123 := by
  intro b hb
  obtain ⟨c, hc, rfl⟩ := List.mem_map.mp hb
  have hrange := field_range (h c hc)
  rw [UInt8.toNat_ofNat', Nat.mod_eq_of_lt (by omega)]
  exact hrange

theorem forall_mem_layout {α : Type} {P : α → Prop} {final : List α}
    {shape : List (List α × α)} {fields : List (List α)} (hfinal : ∀ b ∈ final, P b)
    (hshape : ∀ p ∈ shape, (∀ b ∈ p.1, P b) ∧ P p.2) (hfields : ∀ f ∈ fields, ∀ b ∈ f, P b) :
    ∀ b ∈ layout final shape fields, P b := by
  induction shape generalizing fields with
  | nil => simpa [layout] using hfinal
  | cons p shape ih =>
    cases fields with
    | nil => simpa [layout] using hfinal
    | cons f fields =>
      obtain ⟨hlit, hdelim⟩ := hshape p (by simp)
      have hrest : ∀ b ∈ layout final shape fields, P b :=
        ih (fun p hp => hshape p (by simp [hp])) fun g hg => hfields g (by simp [hg])
      intro b hb
      simp only [layout, List.mem_append, List.mem_cons] at hb
      rcases hb with hb | hb | rfl | hb
      · exact hlit b hb
      · exact hfields f (by simp) b hb
      · exact hdelim
      · exact hrest b hb

def recordRest : List (Bytes × UInt8) :=
  (asciiBytes "\"operation_id\":\"".toList, 34) :: recordShape.tail

/-- A record begins with its only opening brace. -/
theorem recordJson_eq_cons (r : OperationRecord) :
    recordJson r = 123 :: layout [] recordRest ((recordFields r).map asciiBytes) := rfl

/-- The literal text is printable and has no further opening brace. -/
theorem recordRest_bytes : ∀ p ∈ recordRest, (∀ b ∈ p.1, 32 ≤ b.toNat ∧ b.toNat < 123) ∧
    32 ≤ p.2.toNat ∧ p.2.toNat < 127 ∧ p.2 ≠ 123 := by
  simp [recordRest, recordShape, asciiBytes]

theorem forall_mem_recordRest {P : UInt8 → Prop} (hr : r.Plain)
    (hshape : ∀ p ∈ recordRest, (∀ b ∈ p.1, P b) ∧ P p.2)
    (hfield : ∀ b : UInt8, 45 ≤ b.toNat → b.toNat < 123 → P b) :
    ∀ b ∈ layout [] recordRest ((recordFields r).map asciiBytes), P b := by
  refine forall_mem_layout (by simp) hshape fun f hf b hb => ?_
  obtain ⟨field, hmem, rfl⟩ := List.mem_map.mp hf
  obtain ⟨hge, hlt⟩ := field_byte (fieldText_recordFields hr field hmem) b hb
  exact hfield b hge hlt

theorem not_mem_recordRest (hr : r.Plain) :
    (123 : UInt8) ∉ layout [] recordRest ((recordFields r).map asciiBytes) := by
  intro hmem
  have hbrace : ∀ b : UInt8, b.toNat < 123 → b ≠ 123 := by
    rintro b hlt rfl
    exact absurd hlt (by decide)
  refine forall_mem_recordRest (P := fun b => b ≠ 123) hr (fun p hp => ?_)
    (fun b _ hlt => hbrace b hlt) 123 hmem rfl
  obtain ⟨hlit, -, -, hdelim⟩ := recordRest_bytes p hp
  exact ⟨fun b hb => hbrace b (hlit b hb).2, hdelim⟩

theorem printable_recordJson (hr : r.Plain) :
    ∀ b ∈ recordJson r, 32 ≤ b.toNat ∧ b.toNat < 127 := by
  rw [recordJson_eq_cons]
  refine List.forall_mem_cons.mpr ⟨by decide, ?_⟩
  refine forall_mem_recordRest (P := fun b => 32 ≤ b.toNat ∧ b.toNat < 127) hr (fun p hp => ?_)
    fun b hge hlt => ⟨by omega, by omega⟩
  obtain ⟨hlit, hge, hlt, -⟩ := recordRest_bytes p hp
  exact ⟨fun b hb => ⟨(hlit b hb).1, by have := (hlit b hb).2; omega⟩, hge, hlt⟩

theorem delimiters_recordFields (hr : r.Plain) :
    List.Forall₂ (fun f (p : Bytes × UInt8) => p.2 ∉ f) ((recordFields r).map asciiBytes)
      recordShape := by
  have hnot : ∀ f ∈ recordFields r, ∀ d : UInt8, d = 34 ∨ d = 44 ∨ d = 125 →
      d ∉ asciiBytes f := by
    intro f hf d hd hmem
    obtain ⟨hge, hlt⟩ := field_byte (fieldText_recordFields hr f hf) d hmem
    rcases hd with rfl | rfl | rfl <;> revert hge hlt <;> decide
  simp only [recordFields, List.mem_cons, List.not_mem_nil, or_false, forall_eq_or_imp,
    forall_eq] at hnot
  obtain ⟨h1, h2, h3, h4, h5, h6⟩ := hnot
  simp only [recordFields, recordShape, List.map_cons, List.map_nil, List.forall₂_cons,
    List.Forall₂.nil, and_true]
  exact ⟨h1.1, h2.1, h3.2.1, h4.1, h5.1, h6.2.2⟩

/-- **No printed record is a prefix of another one's text.** -/
theorem recordJson_prefixFree {r r' : OperationRecord} (hr : r.Plain) (hr' : r'.Plain)
    (h : recordJson r <+: recordJson r') : r = r' := by
  have hfields : (recordFields r).map asciiBytes = (recordFields r').map asciiBytes := by
    unfold recordJson at h
    refine layout_prefixFree ?_ ?_ (delimiters_recordFields hr) (delimiters_recordFields hr') h <;>
      simp only [recordFields, recordShape, List.length_map, List.length_cons, List.length_nil]
  exact recordFields_injective (map_asciiBytes_inj (fieldText_recordFields hr)
    (fieldText_recordFields hr') hfields)

/-- A text that is blank: spaces and control characters that count as space. -/
def blankText (text : Bytes) : Bool := text.all fun b => b = 32 || (9 ≤ b && b ≤ 13)

theorem blankText_cons_brace (text : Bytes) : blankText (123 :: text) = false := by
  rw [blankText, List.all_cons]
  rfl

open Classical in
/-- The printer above, and a parser that accepts what the printer prints. -/
noncomputable def jsonOpCodec : OpCodec where
  toStr r := recordJson r.1
  fromStr text :=
    if h : ∃ r : OperationRecord, r.Plain ∧ recordJson r = text then some h.choose else none
  validUtf8 text := text.all fun b => b < 128
  isBlank := blankText
  fromStr_toStr := by
    intro r
    have h : ∃ r' : OperationRecord, r'.Plain ∧ recordJson r' = recordJson r.1 := ⟨r.1, r.2, rfl⟩
    rw [dif_pos h]
    obtain ⟨hplain, heq⟩ := h.choose_spec
    have hp : recordJson h.choose <+: recordJson r.1 := by
      rw [heq]
    rw [recordJson_prefixFree hplain r.2 hp]
  printable r := printable_recordJson r.2
  validUtf8_ascii := by
    intro text h
    simpa [UInt8.lt_iff_toNat_lt] using h
  fromStr_blank := by
    intro text hblank
    refine dif_neg ?_
    rintro ⟨r, -, rfl⟩
    rw [recordJson_eq_cons, blankText_cons_brace] at hblank
    cases hblank
  fromStr_torn := by
    intro r text hp hne
    refine dif_neg ?_
    rintro ⟨r', hr', rfl⟩
    rw [recordJson_prefixFree hr' r.2 hp] at hne
    exact hne rfl
  fromStr_glued := by
    intro r r' text hp hne
    refine dif_neg ?_
    rintro ⟨r'', hr'', heq⟩
    -- the brace of the second record stands behind the one of the first
    obtain ⟨b, rest, rfl⟩ := List.exists_cons_of_ne_nil hne
    rw [recordJson_eq_cons, List.cons_append, recordJson_eq_cons] at heq
    refine not_mem_recordRest hr'' ?_
    rw [(List.cons.inj heq).2]
    simp

def sampleRecord (id : OperationId) : LogRecord :=
  ⟨⟨id, ⟨5#128⟩, 1, ⟨9#128⟩, "", true⟩, by simp [OperationRecord.Plain]⟩

/-- **The log does not survive a torn line.**  One byte of a first record is on the disk when the
machine stops; the record of another operation is appended, written and synced after the restart,
and the next opening does not find it. -/
theorem opLog_torn_line_loses_next :
    ¬ Durable jsonOpCodec ⟨[], .torn (sampleRecord ⟨21#128⟩) 1, [sampleRecord ⟨22#128⟩]⟩ :=
  not_durable_of_torn jsonOpCodec Nat.one_pos
    (List.length_pos_iff.mpr (jsonOpCodec.toStr_ne_nil _)) (by simp)

end Blockyard.Storage
