/-
# The two log stores

`blockyard-raft`, `store.rs` and `persistent_store.rs`: the log Raft keeps, with the vote and the
id up to which the log was purged, once in memory and once in a redb database.

The persistent store is the in-memory store with its values encoded (`Encodes`), so it answers the
same (`persistent_log_refines`), closed and reopened as often as one likes.  There is one
exception.  `BTreeMap::range` panics on a range that excludes both of two equal ends, and redb
returns no rows.

openraft's contract for `get_log_state` is that the last log id is the id of the last entry, and
that of the last PURGED entry when no entry is left.  Neither store has the second half, so the
contract is broken exactly when everything has been purged (`log_state_consistent_iff`).

redb's write transactions are atomic and durable and serde_json reads back what it wrote
(`Codec`); an I/O error of the database is not modelled.
-/
import Blockyard.Raft.Persistent
import Blockyard.Lib.OrderedTable
import Blockyard.Lib.Run

open Std OrderedTable

namespace Blockyard.Raft

/-! ## 1. Calls and answers -/

/-- `openraft::Vote<u64>`. -/
structure Vote where
  term : Nat
  nodeId : Nat
  committed : Bool
  deriving DecidableEq, Repr

/-- `openraft::LogState<TypeConfig>`. -/
structure LogState where
  lastPurgedLogId : Option LogId
  lastLogId : Option LogId
  deriving DecidableEq, Repr

/-- The calls of `RaftLogStorage` and `RaftLogReader`. -/
inductive LogCall
  | append (entries : List Entry)
  | truncate (logId : LogId)
  | purge (logId : LogId)
  | saveVote (vote : Vote)
  | readVote
  | getLogState
  | tryGetLogEntries (range : Range Nat)

inductive LogAnswer
  | done
  | vote (vote : Option Vote)
  | state (state : LogState)
  | entries (entries : List Entry)
  | storageError
  | panicked

/-- `BTreeMap::range`; `none` is its panic, on a range whose start lies after its end or that
excludes both of two equal ends. -/
def btreeRange {V : Type} (m : BTreeMap Nat V) (range : Range Nat) : Option (List (Nat × V)) :=
  if range.inverted || range.hollow then none else some (rows m range)

/-! ## 2. In memory -/

structure LogStore where
  vote : Option Vote
  log : BTreeMap Nat Entry
  lastPurged : Option LogId

namespace LogStore

def new : LogStore := ⟨none, ∅, none⟩

def append (s : LogStore) (entries : List Entry) : LogStore :=
  { s with log := entries.foldl (fun log entry => log.insert entry.logId.index entry) s.log }

def truncate (s : LogStore) (logId : LogId) : LogStore :=
  { s with log := clear s.log (.from logId.index) }

def purge (s : LogStore) (logId : LogId) : LogStore :=
  { s with log := clear s.log (.upTo logId.index), lastPurged := some logId }

def saveVote (s : LogStore) (vote : Vote) : LogStore := { s with vote := some vote }

def getLogState (s : LogStore) : LogState where
  lastPurgedLogId := s.lastPurged
  lastLogId := (lastRow s.log).map fun row => row.2.logId

/-- `try_get_log_entries`; `none` is the panic of `BTreeMap::range`. -/
def tryGetLogEntries (s : LogStore) (range : Range Nat) : Option (List Entry) :=
  (btreeRange s.log range).map fun found => found.map Prod.snd

def call (s : LogStore) : LogCall → LogStore × LogAnswer
  | .append entries => (s.append entries, .done)
  | .truncate logId => (s.truncate logId, .done)
  | .purge logId => (s.purge logId, .done)
  | .saveVote vote => (s.saveVote vote, .done)
  | .readVote => (s, .vote s.vote)
  | .getLogState => (s, .state s.getLogState)
  | .tryGetLogEntries range => (s, (s.tryGetLogEntries range).elim .panicked .entries)

def answers (s : LogStore) : List LogCall → List LogAnswer
  | [] => []
  | c :: calls => (s.call c).2 :: answers (s.call c).1 calls

end LogStore

/-! ## 3. In a database -/

/-- What the store takes from serde_json. -/
structure LogSerde where
  entry : Codec Entry
  vote : Codec Vote
  logId : Codec LogId

/-- The database file; a table that has not been created is `none`. -/
structure LogDb where
  log : Option (BTreeMap Nat (List UInt8))
  vote : Option (Option (List UInt8))
  purge : Option (Option (List UInt8))

/-- A database just created. -/
def LogDb.empty : LogDb := ⟨none, none, none⟩

/-- `PersistentLogStore`: the database with `LOG_TABLE`, `VOTE_TABLE` and `PURGE_TABLE` in it.
The last two have one row. -/
structure PersistentLogStore where
  log : BTreeMap Nat (List UInt8)
  vote : Option (List UInt8)
  purged : Option (List UInt8)

variable {serde : LogSerde} {p : PersistentLogStore} {s : LogStore}

namespace PersistentLogStore

/-- `PersistentLogStore::new`: a table that is missing is created empty. -/
def new (db : LogDb) : PersistentLogStore where
  log := db.log.getD ∅
  vote := db.vote.getD none
  purged := db.purge.getD none

/-- The file a store that is closed leaves behind. -/
def close (s : PersistentLogStore) : LogDb := ⟨some s.log, some s.vote, some s.purged⟩

variable (serde : LogSerde) (s : PersistentLogStore)

def append (entries : List Entry) : PersistentLogStore :=
  { s with
    log := entries.foldl
      (fun table entry => table.insert entry.logId.index (serde.entry.toVec entry)) s.log }

def truncate (logId : LogId) : PersistentLogStore :=
  { s with log := clear s.log (.from logId.index) }

/-- `purge`: both tables in one transaction. -/
def purge (logId : LogId) : PersistentLogStore :=
  { s with log := clear s.log (.upTo logId.index), purged := some (serde.logId.toVec logId) }

def saveVote (vote : Vote) : PersistentLogStore :=
  { s with vote := some (serde.vote.toVec vote) }

/-- A row that may be missing, decoded; `none` is a row that does not decode. -/
def decodeRow {α : Type} (codec : Codec α) : Option (List UInt8) → Option (Option α)
  | some row => (codec.fromSlice row).map some
  | none => some none

/-- `read_vote`; `none` is a storage error. -/
def readVote : Option (Option Vote) :=
  decodeRow serde.vote s.vote

/-- `get_log_state`; `none` is a storage error. -/
def getLogState : Option LogState := do
  let lastEntry ← decodeRow serde.entry ((lastRow s.log).map Prod.snd)
  let lastPurged ← decodeRow serde.logId s.purged
  some { lastPurgedLogId := lastPurged, lastLogId := lastEntry.map (·.logId) }

/-- `try_get_log_entries`; `none` is a storage error. -/
def tryGetLogEntries (range : Range Nat) : Option (List Entry) :=
  (rows s.log range).mapM fun row => serde.entry.fromSlice row.2

def call : LogCall → PersistentLogStore × LogAnswer
  | .append entries => (s.append serde entries, .done)
  | .truncate logId => (s.truncate logId, .done)
  | .purge logId => (s.purge serde logId, .done)
  | .saveVote vote => (s.saveVote serde vote, .done)
  | .readVote => (s, (s.readVote serde).elim .storageError .vote)
  | .getLogState => (s, (s.getLogState serde).elim .storageError .state)
  | .tryGetLogEntries range =>
    (s, (s.tryGetLogEntries serde range).elim .storageError .entries)

/-- What happens to a persistent store: a call, or it is closed and opened again. -/
inductive Event
  | call (c : LogCall)
  | reopen

def calls : List Event → List LogCall
  | [] => []
  | .call c :: events => c :: calls events
  | .reopen :: events => calls events

def next : Event → PersistentLogStore
  | .call c => (s.call serde c).1
  | .reopen => .new s.close

def answers (serde : LogSerde) (s : PersistentLogStore) : List Event → List LogAnswer
  | [] => []
  | .call c :: events => (s.call serde c).2 :: answers serde (s.next serde (.call c)) events
  | .reopen :: events => answers serde (s.next serde .reopen) events

end PersistentLogStore

/-! ## 4. The persistent store answers as the in-memory one -/

/-- **The persistent store holds the in-memory store, encoded.** -/
structure Encodes (serde : LogSerde) (p : PersistentLogStore) (s : LogStore) : Prop where
  log : p.log = encoded serde.entry.toVec s.log
  vote : p.vote = s.vote.map serde.vote.toVec
  purged : p.purged = s.lastPurged.map serde.logId.toVec

theorem encodes_new (serde : LogSerde) : Encodes serde (.new .empty) .new :=
  ⟨(encoded_empty _).symm, rfl, rfl⟩

theorem new_close (p : PersistentLogStore) : .new p.close = p := rfl

theorem encoded_foldl_insert (serde : LogSerde) (entries : List Entry)
    (log : BTreeMap Nat Entry) :
    encoded serde.entry.toVec
        (entries.foldl (fun log entry => log.insert entry.logId.index entry) log)
      = entries.foldl
          (fun table entry => table.insert entry.logId.index (serde.entry.toVec entry))
          (encoded serde.entry.toVec log) := by
  induction entries generalizing log with
  | nil => rfl
  | cons e entries ih => rw [List.foldl_cons, List.foldl_cons, ih, encoded_insert]

theorem decodeRow_map {α : Type} (codec : Codec α) (row : Option α) :
    PersistentLogStore.decodeRow codec (row.map codec.toVec) = some row := by
  cases row with
  | none => rfl
  | some a => simp [PersistentLogStore.decodeRow, codec.fromSlice_toVec]

theorem mapM_fromSlice {α : Type} (codec : Codec α) (found : List (Nat × α)) :
    (found.map fun row => (row.1, codec.toVec row.2)).mapM (fun row => codec.fromSlice row.2)
      = some (found.map Prod.snd) := by
  induction found with
  | nil => rfl
  | cons row found ih => simp [codec.fromSlice_toVec, ih]

theorem Encodes.decoded (h : Encodes serde p s) :
    PersistentLogStore.decodeRow serde.entry ((lastRow p.log).map Prod.snd)
        = some ((lastRow s.log).map Prod.snd) ∧
      PersistentLogStore.decodeRow serde.logId p.purged = some s.lastPurged ∧
      (p.log = ∅ ↔ s.log = ∅) ∧ (p.purged = none ↔ s.lastPurged = none) := by
  refine ⟨?_, ?_, ?_, ?_⟩
  · have hlast : (lastRow p.log).map Prod.snd
        = ((lastRow s.log).map Prod.snd).map serde.entry.toVec := by
      rw [h.log, lastRow_encoded]
      cases lastRow s.log <;> rfl
    rw [hlast, decodeRow_map]
  · rw [h.purged, decodeRow_map]
  · rw [← lastRow_eq_none_iff, ← lastRow_eq_none_iff, h.log, lastRow_encoded,
      Option.map_eq_none_iff]
  · rw [h.purged, Option.map_eq_none_iff]

theorem Encodes.getLogState (h : Encodes serde p s) : p.getLogState serde = some s.getLogState := by
  obtain ⟨hpresent, hpurged, -, -⟩ := h.decoded
  simp only [PersistentLogStore.getLogState, hpresent, hpurged, Option.bind_eq_bind,
    Option.bind_some, LogStore.getLogState, Option.map_map]
  rfl

/-- **One call**: the answer is the same unless the in-memory store panics, and the state is
the same state, encoded. -/
theorem Encodes.call (h : Encodes serde p s) (c : LogCall) :
    Encodes serde (p.call serde c).1 (s.call c).1 ∧
      ((∀ range, c = .tryGetLogEntries range → range.inverted = false ∧ range.hollow = false) →
        (p.call serde c).2 = (s.call c).2) := by
  cases c with
  | append entries =>
    refine ⟨⟨?_, h.vote, h.purged⟩, fun _ => rfl⟩
    simp only [PersistentLogStore.call, PersistentLogStore.append, LogStore.call, LogStore.append,
      encoded_foldl_insert, h.log]
  | truncate logId =>
    refine ⟨⟨?_, h.vote, h.purged⟩, fun _ => rfl⟩
    simp only [PersistentLogStore.call, PersistentLogStore.truncate, LogStore.call,
      LogStore.truncate, h.log, clear_encoded]
  | purge logId =>
    refine ⟨⟨?_, h.vote, rfl⟩, fun _ => rfl⟩
    simp only [PersistentLogStore.call, PersistentLogStore.purge, LogStore.call, LogStore.purge,
      h.log, clear_encoded]
  | saveVote vote => exact ⟨⟨h.log, rfl, h.purged⟩, fun _ => rfl⟩
  | readVote =>
    refine ⟨h, fun _ => ?_⟩
    simp [PersistentLogStore.call, PersistentLogStore.readVote, LogStore.call, h.vote,
      decodeRow_map]
  | getLogState =>
    refine ⟨h, fun _ => ?_⟩
    simp [PersistentLogStore.call, LogStore.call, h.getLogState]
  | tryGetLogEntries range =>
    refine ⟨h, fun hrange => ?_⟩
    obtain ⟨hinv, hhollow⟩ := hrange range rfl
    have hrows : p.tryGetLogEntries serde range = some ((rows s.log range).map Prod.snd) := by
      rw [PersistentLogStore.tryGetLogEntries, h.log, rows_encoded, mapM_fromSlice]
    simp [PersistentLogStore.call, LogStore.call, LogStore.tryGetLogEntries, btreeRange, hinv,
      hhollow, hrows]

/-- **A run of calls and reopenings.** -/
theorem Encodes.answers (h : Encodes serde p s) (events : List PersistentLogStore.Event)
    (hranges : ∀ range, .tryGetLogEntries range ∈ PersistentLogStore.calls events →
      range.inverted = false ∧ range.hollow = false) :
    p.answers serde events = s.answers (PersistentLogStore.calls events) := by
  induction events generalizing p s with
  | nil => rfl
  | cons event events ih =>
    cases event with
    | reopen =>
      rw [PersistentLogStore.answers, PersistentLogStore.next, new_close]
      exact ih h hranges
    | call c =>
      obtain ⟨hnext, hans⟩ := h.call c
      simp only [PersistentLogStore.answers, PersistentLogStore.calls, LogStore.answers]
      rw [hans fun range hc => hranges range (by rw [hc]; exact List.mem_cons_self)]
      exact congrArg _ (ih hnext fun range hr => hranges range (List.mem_cons_of_mem _ hr))

/-- **The persistent log refines the in-memory log.**  Over every list of calls, with the
persistent store closed and opened again at any points between them, the answers are the
in-memory store's answers to the calls, as long as no range read starts after its end or
excludes both of two equal ends. -/
theorem persistent_log_refines (serde : LogSerde) (events : List PersistentLogStore.Event)
    (hranges : ∀ range, .tryGetLogEntries range ∈ PersistentLogStore.calls events →
      range.inverted = false ∧ range.hollow = false) :
    (PersistentLogStore.new .empty).answers serde events
      = LogStore.new.answers (PersistentLogStore.calls events) :=
  (encodes_new serde).answers events hranges

section Countable

deriving instance Countable for LeaseRequest, ExtentMappingEntry, MetadataRequest, EntryPayload,
  Entry, Vote

theorem nonempty_logSerde : Nonempty LogSerde := by
  obtain ⟨entry⟩ := Codec.nonempty_of_countable Entry
  obtain ⟨vote⟩ := Codec.nonempty_of_countable Vote
  obtain ⟨logId⟩ := Codec.nonempty_of_countable LogId
  exact ⟨⟨entry, vote, logId⟩⟩

end Countable

def blankEntry (index : Nat) : Entry := ⟨⟨1, 1, index⟩, .blank⟩

/-- Two entries, a reopening, the first one purged, another reopening, the rest read. -/
theorem persistent_log_refines_reopened :
    let events : List PersistentLogStore.Event := [.call (.append [blankEntry 0, blankEntry 1]),
      .reopen, .call (.purge ⟨1, 1, 0⟩), .reopen, .call (.tryGetLogEntries (.from 0))]
    ∃ serde, (PersistentLogStore.new .empty).answers serde events
      = [.done, .done, .entries [blankEntry 1]] := by
  intro events
  obtain ⟨serde⟩ := nonempty_logSerde
  refine ⟨serde, ?_⟩
  rw [persistent_log_refines serde events]
  · rfl
  · intro range hmem
    simp only [events, PersistentLogStore.calls, List.mem_cons, reduceCtorEq, false_or,
      LogCall.tryGetLogEntries.injEq, List.not_mem_nil, or_false] at hmem
    subst hmem
    exact ⟨rfl, rfl⟩

/-- One entry, and the range that excludes 5 at both ends: its start does not lie after its end,
but the in-memory store panics and the persistent one answers with no entries. -/
theorem hollow_range_differs :
    let range : Range Nat := ⟨.excluded 5, .excluded 5⟩
    let calls : List LogCall := [.append [blankEntry 0], .tryGetLogEntries range]
    range.inverted = false ∧ LogStore.new.answers calls = [.done, .panicked] ∧
      ∀ serde, (PersistentLogStore.new .empty).answers serde (calls.map .call)
        = [.done, .entries []] := by
  intro range calls
  refine ⟨rfl, rfl, fun serde => ?_⟩
  have hnone : ∀ p : PersistentLogStore, p.tryGetLogEntries serde range = some [] := by
    intro p
    have hrows : rows p.log range = [] := by
      rw [rows, List.filter_eq_nil_iff]
      intro row _
      simp only [range, Range.contains, Bool.and_eq_true, Ordering.isLT_iff_eq_lt,
        Nat.compare_eq_lt, not_and]
      omega
    rw [PersistentLogStore.tryGetLogEntries, hrows]
    rfl
  simp [calls, PersistentLogStore.answers, PersistentLogStore.call, PersistentLogStore.next, hnone]

/-! ## 5. The log state -/

/-- **openraft's contract** for `get_log_state`, given the id of the last entry that is present
and the id that was purged last. -/
structure LogContract (lastPresent lastPurged : Option LogId) (state : LogState) : Prop where
  purged : state.lastPurgedLogId = lastPurged
  last : state.lastLogId = lastPresent.or lastPurged
  notBehind : ∀ p, state.lastPurgedLogId = some p →
    ∃ l, state.lastLogId = some l ∧ p.index ≤ l.index

namespace LogStore

def lastPresent (s : LogStore) : Option LogId := (lastRow s.log).map fun row => row.2.logId

/-- The index Raft appends at: behind the last entry, or else behind the last purged one. -/
def nextIndex (s : LogStore) : Nat :=
  match lastRow s.log, s.lastPurged with
  | some row, _ => row.1 + 1
  | none, some p => p.index + 1
  | none, none => 0

/-- The calls Raft may make: it appends without a gap, and truncates behind what was purged.
It may purge up to any id, of an entry that is present or of one that a snapshot covers. -/
def RaftMay (s : LogStore) : LogCall → Prop
  | .append entries =>
    entries.map (·.logId.index) = List.range' s.nextIndex entries.length
  | .truncate logId => ∀ p, s.lastPurged = some p → p.index < logId.index
  | _ => True

/-- Every entry lies at its own index, behind what was purged. -/
def BehindPurged (s : LogStore) : Prop :=
  ∀ (i : Nat) e, s.log[i]? = some e →
    e.logId.index = i ∧ ∀ p, s.lastPurged = some p → p.index < i

theorem BehindPurged.lt_nextIndex (h : s.BehindPurged) {p : LogId} (hp : s.lastPurged = some p) :
    p.index < s.nextIndex := by
  unfold nextIndex
  cases hlast : lastRow s.log with
  | none =>
    rw [hp]
    exact Nat.lt_succ_self _
  | some row =>
    have := (h row.1 row.2 (getElem?_of_lastRow hlast)).2 p hp
    simp only
    omega

/-- Fewer entries, the same or a purge in front of them. -/
theorem BehindPurged.clear (h : s.BehindPurged) (range : Range Nat) {purged : Option LogId}
    (hp : ∀ i, range.contains i = false → ∀ p, purged = some p →
      s.lastPurged = some p ∨ p.index < i) :
    BehindPurged { s with log := OrderedTable.clear s.log range, lastPurged := purged } := by
  intro i e he
  obtain ⟨hold, hout⟩ := getElem?_clear.mp he
  obtain ⟨hidx, hbehind⟩ := h i e hold
  exact ⟨hidx, fun p hpp => (hp i hout p hpp).elim (hbehind p) id⟩

theorem BehindPurged.append (h : s.BehindPurged) {entries : List Entry}
    (hlow : ∀ e ∈ entries, ∀ p, s.lastPurged = some p → p.index < e.logId.index) :
    BehindPurged (s.append entries) := by
  induction entries generalizing s with
  | nil => exact h
  | cons e entries ih =>
    have hone : BehindPurged { s with log := s.log.insert e.logId.index e } := by
      intro i e' he'
      simp only [ExtTreeMap.getElem?_insert, LawfulEqOrd.compare_eq_iff_eq] at he'
      split at he'
      · rename_i hi
        cases he'
        exact ⟨hi, hi ▸ hlow e List.mem_cons_self⟩
      · exact h i e' he'
    exact ih hone fun e' he' => hlow e' (List.mem_cons_of_mem _ he')

/-- **One call that Raft may make keeps the entries behind what was purged.** -/
theorem BehindPurged.call (h : s.BehindPurged) {c : LogCall} (hc : s.RaftMay c) :
    (s.call c).1.BehindPurged := by
  cases c with
  | append entries =>
    refine h.append fun e he p hp => ?_
    have hmem : e.logId.index ∈ List.range' s.nextIndex entries.length := by
      rw [← hc]
      exact List.mem_map_of_mem he
    exact (h.lt_nextIndex hp).trans_le (List.mem_range'_1.mp hmem).1
  | truncate logId => exact h.clear _ fun _ _ p hp => Or.inl hp
  | purge logId =>
    refine h.clear _ fun i hi p hp => Or.inr ?_
    cases hp
    simp only [Range.upTo, Range.contains, Bool.true_and] at hi
    rw [Bool.eq_false_iff, Ne, Nat.isLE_compare, Nat.not_le] at hi
    exact hi
  | saveVote | readVote | getLogState | tryGetLogEntries => exact h

/-- **The contract holds exactly when an entry is left or nothing was purged.** -/
theorem BehindPurged.logContract_iff (h : s.BehindPurged) :
    LogContract s.lastPresent s.lastPurged s.getLogState ↔
      s.log ≠ ∅ ∨ s.lastPurged = none := by
  constructor
  · intro hc
    by_contra hnot
    push Not at hnot
    obtain ⟨hempty, hpurged⟩ := hnot
    obtain ⟨p, hp⟩ := Option.ne_none_iff_exists'.mp hpurged
    have hlast : lastRow s.log = none := lastRow_eq_none_iff.mpr hempty
    obtain ⟨l, hl, -⟩ := hc.notBehind p hp
    simp [getLogState, hlast] at hl
  · intro hleft
    cases hlast : lastRow s.log with
    | none =>
      have hempty : s.log = ∅ := lastRow_eq_none_iff.mp hlast
      have hnone : s.lastPurged = none := hleft.resolve_left fun hne => hne hempty
      constructor
      · rfl
      · simp [getLogState, lastPresent, hlast, hnone]
      · intro p hp
        simp [getLogState, hnone] at hp
    | some row =>
      obtain ⟨hidx, hbehind⟩ := h row.1 row.2 (getElem?_of_lastRow hlast)
      constructor
      · rfl
      · simp [getLogState, lastPresent, hlast]
      · intro p hp
        refine ⟨row.2.logId, by simp [getLogState, hlast], ?_⟩
        rw [hidx]
        exact (hbehind p hp).le

end LogStore

theorem Encodes.run (h : Encodes serde p s) (events : List PersistentLogStore.Event) :
    Encodes serde (events.foldl (PersistentLogStore.next serde) p)
      (Machine.runState LogStore.call s (PersistentLogStore.calls events)) := by
  induction events generalizing p s with
  | nil => exact h
  | cons event events ih =>
    cases event with
    | reopen =>
      rw [List.foldl_cons, PersistentLogStore.next, new_close]
      exact ih h
    | call c => exact ih (h.call c).1

/-- **When the log state is consistent.**  For every list of calls that Raft may make, the
persistent store closed and reopened at any points: in both stores `get_log_state` meets
openraft's contract exactly when an entry is left in the log or nothing has been purged. -/
theorem log_state_consistent_iff (serde : LogSerde) (events : List PersistentLogStore.Event)
    (hmay : Machine.Along LogStore.call LogStore.RaftMay .new (PersistentLogStore.calls events)) :
    let s := Machine.runState LogStore.call .new (PersistentLogStore.calls events)
    let p := events.foldl (PersistentLogStore.next serde) (.new .empty)
    (LogContract s.lastPresent s.lastPurged s.getLogState ↔ s.log ≠ ∅ ∨ s.lastPurged = none) ∧
      ∃ present purged state,
        PersistentLogStore.decodeRow serde.entry ((lastRow p.log).map Prod.snd) = some present ∧
        PersistentLogStore.decodeRow serde.logId p.purged = some purged ∧
        p.getLogState serde = some state ∧
        (LogContract (present.map (·.logId)) purged state ↔ p.log ≠ ∅ ∨ p.purged = none) := by
  intro s p
  have hbehind : s.BehindPurged := by
    refine Machine.runState_of_along (P := LogStore.BehindPurged) ?_ hmay fun _ _ h hc => h.call hc
    intro i e he
    simp [LogStore.new] at he
  have hcontract := hbehind.logContract_iff
  have hp : Encodes serde p s := (encodes_new serde).run events
  obtain ⟨hpresent, hpurged, hempty, hnone⟩ := hp.decoded
  refine ⟨hcontract, _, _, _, hpresent, hpurged, hp.getLogState, ?_⟩
  rw [Option.map_map, Ne, hempty, hnone]
  exact hcontract

/-- Two entries appended and the first one purged: an entry is left, and the contract holds. -/
theorem log_state_consistent_one_left :
    let calls : List LogCall := [.append [blankEntry 0, blankEntry 1], .purge ⟨1, 1, 0⟩]
    let s := Machine.runState LogStore.call .new calls
    s.getLogState = ⟨some ⟨1, 1, 0⟩, some ⟨1, 1, 1⟩⟩ ∧
      LogContract s.lastPresent s.lastPurged s.getLogState := by
  intro calls s
  obtain ⟨serde⟩ := nonempty_logSerde
  have hmay : Machine.Along LogStore.call LogStore.RaftMay .new
      (PersistentLogStore.calls (calls.map .call)) := ⟨rfl, trivial, trivial⟩
  have hleft : s.log ≠ ∅ := by
    intro hempty
    have hrow : (lastRow s.log).isSome = true := by rfl
    rw [lastRow_eq_none_iff.mpr hempty] at hrow
    cases hrow
  exact ⟨rfl, (log_state_consistent_iff serde (calls.map .call) hmay).1.mpr (Or.inl hleft)⟩

/-- One entry appended and purged: both stores report no last log id next to a last purged one. -/
theorem purged_log_reports_no_last_id :
    let calls : List LogCall := [.append [blankEntry 0], .purge ⟨1, 1, 0⟩]
    let s := Machine.runState LogStore.call .new calls
    Machine.Along LogStore.call LogStore.RaftMay .new calls ∧
      s.getLogState = ⟨some ⟨1, 1, 0⟩, none⟩ ∧
      (∀ serde, ((calls.map .call).foldl (PersistentLogStore.next serde)
        (.new .empty)).getLogState serde = some ⟨some ⟨1, 1, 0⟩, none⟩) ∧
      ¬ LogContract s.lastPresent s.lastPurged s.getLogState := by
  intro calls s
  have hstate : s.getLogState = ⟨some ⟨1, 1, 0⟩, none⟩ := by rfl
  refine ⟨⟨rfl, trivial, trivial⟩, hstate, ?_, ?_⟩
  · intro serde
    rw [((encodes_new serde).run (calls.map .call)).getLogState]
    exact congrArg some hstate
  · intro hc
    obtain ⟨l, hl, -⟩ := hc.notBehind ⟨1, 1, 0⟩ rfl
    rw [hstate] at hl
    cases hl

end Blockyard.Raft
