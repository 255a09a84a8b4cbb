/-
# The persistent state machine store

`blockyard-raft`, `persistent_store.rs` and `store.rs`: the log entries Raft hands to a state
machine, the loop that applies them, and the store that keeps the state in a redb database across
restarts.

Replicas apply one committed log, crash, reopen, build snapshots and install each other's, in any
order of single steps (§3).  Every state a replica holds, in memory, on disk or in a snapshot, is a
checkpoint of the ONE uninterrupted in-memory run of the log (`Faithful`), so going on from it is
going on with that run.

redb's write transactions are atomic and durable and serde_json reads back what it wrote
(`Codec`); an I/O error of the database is not modelled.  A panic of `apply_request` ends the
task that applies entries: nothing but a restart follows, and what memory held is lost.
-/
import Blockyard.Lib.Replay
import Blockyard.Raft.Identity

open Std

namespace Blockyard.Raft

/-! ## 1. Entries, and the loop of `apply` -/

variable {responses : List MetadataResponse}

/-- `openraft::EntryPayload<TypeConfig>`. -/
inductive EntryPayload
  | blank
  | normal (req : MetadataRequest)
  | membership (configs : List (List Nat)) (nodes : List (Nat × String))

/-- `openraft::Entry<TypeConfig>`. -/
structure Entry where
  logId : LogId
  payload : EntryPayload

/-- A committed log: the indexes increase. -/
structure CommittedLog where
  entries : List Entry
  increasing : entries.Pairwise fun a b => a.logId.index < b.logId.index

/-- The entries after `last_applied`: what Raft hands out next. -/
def CommittedLog.after (log : CommittedLog) : Option LogId → List Entry
  | none => log.entries
  | some last => log.entries.filter fun e => last.index < e.logId.index

namespace MetadataStateMachineData

/-- One turn of the loop of `apply`; `none` is a panic. -/
def applyEntry (ovf : Overflow) (s : MetadataStateMachineData) (entry : Entry) :
    Option (MetadataStateMachineData × MetadataResponse) :=
  let s := { s with lastApplied := some entry.logId }
  match entry.payload with
  | .blank => some (s, .ok)
  | .normal req =>
    match s.applyRequest ovf req with
    | (s, some resp) => some (s, resp)
    | (_, none) => none
  | .membership configs nodes =>
    some ({ s with lastMembership := ⟨some entry.logId, configs, nodes⟩ }, .ok)

/-- The loop of `apply`: the state behind the entries, and their responses. -/
def applyEntries (ovf : Overflow) (s : MetadataStateMachineData) (entries : List Entry) :
    Option (MetadataStateMachineData × List MetadataResponse) :=
  Replay.run (applyEntry ovf) s entries

end MetadataStateMachineData

/-- `StateMachineStore`: the state machine in memory. -/
structure StateMachineStore where
  data : MetadataStateMachineData

def StateMachineStore.new : StateMachineStore := ⟨.new⟩

def StateMachineStore.apply (ovf : Overflow) (store : StateMachineStore) (entries : List Entry) :
    Option (StateMachineStore × List MetadataResponse) :=
  (store.data.applyEntries ovf entries).map fun (data, responses) => (⟨data⟩, responses)

/-! ## 2. The persistent store -/

/-- `serde_json::to_vec` and `serde_json::from_slice` at one type. -/
structure Codec (α : Type) where
  toVec : α → List UInt8
  fromSlice : List UInt8 → Option α
  fromSlice_toVec : ∀ a, fromSlice (toVec a) = some a

/-- `openraft::SnapshotMeta<u64, BasicNode>`. -/
structure SnapshotMeta where
  lastLogId : Option LogId
  lastMembership : StoredMembership
  snapshotId : String
  deriving DecidableEq

/-- `openraft::Snapshot<TypeConfig>`, and `StoredSnapshotData`. -/
structure Snapshot where
  snapshotMeta : SnapshotMeta
  data : List UInt8
  deriving DecidableEq

/-- What the store takes from serde_json and openraft. -/
structure Serde where
  data : Codec MetadataStateMachineData
  lastApplied : Codec (Option LogId)
  membership : Codec StoredMembership
  snapshot : Codec Snapshot
  /-- The text of a leader id. -/
  leaderId : (term nodeId : Nat) → String

/-- The database file: the three values of `STATE_MACHINE_TABLE`, and `SNAPSHOT_TABLE`. -/
structure StateDb where
  data : Option (List UInt8)
  lastApplied : Option (List UInt8)
  membership : Option (List UInt8)
  snapshot : Option (List UInt8)

/-- A database just created. -/
def StateDb.empty : StateDb := ⟨none, none, none, none⟩

structure PersistentStateMachineStore where
  db : StateDb
  data : MetadataStateMachineData
  snapshotIdx : Nat

namespace PersistentStateMachineStore

/-- The state `new` finds in the database; a value that is not there or does not decode is
left as it is. -/
def restored (serde : Serde) (db : StateDb) : MetadataStateMachineData :=
  let data := (db.data.bind serde.data.fromSlice).getD .new
  let data := match db.lastApplied.bind serde.lastApplied.fromSlice with
    | some lid => { data with lastApplied := lid }
    | none => data
  match db.membership.bind serde.membership.fromSlice with
  | some mem => { data with lastMembership := mem }
  | none => data

def new (serde : Serde) (db : StateDb) : PersistentStateMachineStore where
  db := db
  data := restored serde db
  snapshotIdx := 0

variable (serde : Serde) (store : PersistentStateMachineStore)

/-- `persist_state`: one transaction. -/
def persistState : PersistentStateMachineStore :=
  { store with
    db := { store.db with
      data := some (serde.data.toVec store.data)
      lastApplied := some (serde.lastApplied.toVec store.data.lastApplied)
      membership := some (serde.membership.toVec store.data.lastMembership) } }

/-- `apply`, up to `persist_state`. -/
def applyInMemory (ovf : Overflow) (store : PersistentStateMachineStore) (entries : List Entry) :
    Option (PersistentStateMachineStore × List MetadataResponse) :=
  (store.data.applyEntries ovf entries).map fun (data, responses) =>
    ({ store with data }, responses)

def apply (ovf : Overflow) (serde : Serde) (store : PersistentStateMachineStore)
    (entries : List Entry) : Option (PersistentStateMachineStore × List MetadataResponse) :=
  (store.applyInMemory ovf entries).map fun (store, responses) =>
    (store.persistState serde, responses)

/-- The snapshot `build_snapshot` makes of the state in memory. -/
def capture : PersistentStateMachineStore × Snapshot :=
  let idx := store.snapshotIdx + 1
  let snapshotId := match store.data.lastApplied with
    | some last => s!"{serde.leaderId last.term last.nodeId}-{last.index}-{idx}"
    | none => s!"--{idx}"
  ({ store with snapshotIdx := idx },
    { snapshotMeta := ⟨store.data.lastApplied, store.data.lastMembership, snapshotId⟩
      data := serde.data.toVec store.data })

/-- The transaction on `SNAPSHOT_TABLE` at the end of `build_snapshot` and `install_snapshot`. -/
def storeSnapshot (snap : Snapshot) : PersistentStateMachineStore :=
  { store with db := { store.db with snapshot := some (serde.snapshot.toVec snap) } }

def buildSnapshot : PersistentStateMachineStore × Snapshot :=
  let (store, snap) := store.capture serde
  (store.storeSnapshot serde snap, snap)

/-- `install_snapshot`, up to `persist_state`; `none` is the error of a text that does not
decode. -/
def loadSnapshot (snap : Snapshot) : Option PersistentStateMachineStore :=
  (serde.data.fromSlice snap.data).map fun newData =>
    { store with data := { newData with
        lastApplied := snap.snapshotMeta.lastLogId
        lastMembership := snap.snapshotMeta.lastMembership } }

def installSnapshot (snap : Snapshot) : Option PersistentStateMachineStore :=
  (store.loadSnapshot serde snap).map fun store =>
    (store.persistState serde).storeSnapshot serde snap

/-- `get_current_snapshot`; a text that does not decode is an error, and hands out nothing. -/
def getCurrentSnapshot : Option Snapshot :=
  store.db.snapshot.bind serde.snapshot.fromSlice

end PersistentStateMachineStore

/-! ## 3. Replicas -/

/-- The replicas' stores, and the snapshots on their way between them. -/
structure ReplicaSet where
  store : Nat → PersistentStateMachineStore
  snapshots : List Snapshot

def ReplicaSet.new (serde : Serde) : ReplicaSet := ⟨fun _ => .new serde .empty, []⟩

/-- One step of a replica `r`.  `apply` is `load` and `persist`, `build_snapshot` is `capture` and
`storeSnapshot`, `install_snapshot` is `loadSnapshot`, `persist` and `storeSnapshot`: a crash, or a
step of another task, can fall between any two. -/
inductive ReplicaOp
  /-- The loop of `apply`, over the next `n` entries. -/
  | load (r n : Nat)
  | persist (r : Nat)
  /-- The process dies and is started again. -/
  | crash (r : Nat)
  | capture (r : Nat)
  /-- `get_current_snapshot`. -/
  | resend (r : Nat)
  | storeSnapshot (r i : Nat)
  | loadSnapshot (r i : Nat)

namespace ReplicaSet

/-- The set with another store at `r`. -/
def set (g : ReplicaSet) (r : Nat) (store : PersistentStateMachineStore) : ReplicaSet :=
  { g with store := Function.update g.store r store }

def send (g : ReplicaSet) (snap : Snapshot) : ReplicaSet :=
  { g with snapshots := g.snapshots ++ [snap] }

/-- The state after a step, and the responses of the entries it applied. -/
def step (ovf : Overflow) (serde : Serde) (log : CommittedLog) (g : ReplicaSet) :
    ReplicaOp → ReplicaSet × List MetadataResponse
  | .load r n =>
    match (g.store r).applyInMemory ovf ((log.after (g.store r).data.lastApplied).take n) with
    | some (store, responses) => (g.set r store, responses)
    -- a panic: the process is restarted
    | none => (g.set r (.new serde (g.store r).db), [])
  | .persist r => (g.set r ((g.store r).persistState serde), [])
  | .crash r => (g.set r (.new serde (g.store r).db), [])
  | .capture r =>
    let (store, snap) := (g.store r).capture serde
    ((g.set r store).send snap, [])
  | .resend r =>
    match (g.store r).getCurrentSnapshot serde with
    | some snap => (g.send snap, [])
    | none => (g, [])
  | .storeSnapshot r i =>
    match g.snapshots[i]? with
    | some snap => (g.set r ((g.store r).storeSnapshot serde snap), [])
    | none => (g, [])
  | .loadSnapshot r i =>
    match g.snapshots[i]?.bind ((g.store r).loadSnapshot serde) with
    | some store => (g.set r store, [])
    | none => (g, [])

def after (ovf : Overflow) (serde : Serde) (log : CommittedLog) (ops : List ReplicaOp) :
    ReplicaSet :=
  Machine.runState (step ovf serde log) (.new serde) ops

@[simp] theorem store_set_self (g : ReplicaSet) (r : Nat) (store : PersistentStateMachineStore) :
    (g.set r store).store r = store := by
  simp [set]

@[simp] theorem snapshots_set (g : ReplicaSet) (r : Nat) (store : PersistentStateMachineStore) :
    (g.set r store).snapshots = g.snapshots := rfl

/-! ### The calls of the store are sequences of steps -/

section Calls

variable {ovf : Overflow} {serde : Serde} {log : CommittedLog} {g : ReplicaSet} {r n i : Nat}
  {store : PersistentStateMachineStore}

/-- `apply`, over the next entries. -/
theorem load_persist
    (h : (g.store r).apply ovf serde ((log.after (g.store r).data.lastApplied).take n)
      = some (store, responses)) :
    (step ovf serde log g (.load r n)).2 = responses ∧
      (Machine.runState (step ovf serde log) g [.load r n, .persist r]).store r = store := by
  obtain ⟨⟨loaded, rs⟩, hload, heq⟩ := Option.map_eq_some_iff.mp h
  cases heq
  simp [step, hload]

/-- `build_snapshot`. -/
theorem capture_storeSnapshot :
    (Machine.runState (step ovf serde log) g
      [.capture r, .storeSnapshot r g.snapshots.length]).store r
      = ((g.store r).buildSnapshot serde).1 := by
  simp [step, send, PersistentStateMachineStore.buildSnapshot]

/-- `install_snapshot`. -/
theorem loadSnapshot_persist_storeSnapshot (hi : g.snapshots[i]? = some snap)
    (h : (g.store r).installSnapshot serde snap = some store) :
    (Machine.runState (step ovf serde log) g
      [.loadSnapshot r i, .persist r, .storeSnapshot r i]).store r = store := by
  obtain ⟨loaded, hload, rfl⟩ := Option.map_eq_some_iff.mp h
  simp [step, hi, hload]

end Calls

end ReplicaSet

/-! ## 4. Checkpoints -/

namespace MetadataStateMachineData

/-! ### `last_applied` is the id of the entry applied last -/

theorem lastApplied_applyEntry {ovf : Overflow} {s s' : MetadataStateMachineData} {e : Entry}
    {resp : MetadataResponse} (h : s.applyEntry ovf e = some (s', resp)) :
    s'.lastApplied = some e.logId := by
  simp only [applyEntry] at h
  split at h
  · cases h
    rfl
  · next req _ =>
    have hreq := lastApplied_applyRequest ovf { s with lastApplied := some e.logId } req
    split at h
    · next heq =>
      rw [heq] at hreq
      cases h
      exact hreq
    · cases h
  · cases h
    rfl

theorem lastApplied_applyEntries {ovf : Overflow} {s s' : MetadataStateMachineData}
    {es : List Entry} {e : Entry} (h : s.applyEntries ovf (es ++ [e]) = some (s', responses)) :
    s'.lastApplied = some e.logId := by
  induction es generalizing s responses with
  | nil =>
    simp only [applyEntries, List.nil_append, Replay.run] at h
    split at h
    · cases h
    · next heq =>
      cases h
      exact lastApplied_applyEntry heq
  | cons e' es ih =>
    rw [applyEntries, List.cons_append, Replay.run] at h
    split at h
    · cases h
    · obtain ⟨⟨s₂, rs⟩, hrun, heq⟩ := Option.map_eq_some_iff.mp h
      cases heq
      exact ih hrun

end MetadataStateMachineData

/-! ### What is left behind a checkpoint -/

theorem CommittedLog.after_some (log : CommittedLog) {done rest : List Entry} {e : Entry}
    (h : log.entries = done ++ [e] ++ rest) : log.after (some e.logId) = rest := by
  have hsorted := log.increasing
  rw [h, List.pairwise_append, List.pairwise_append] at hsorted
  obtain ⟨⟨-, -, hbefore⟩, -, hbehind⟩ := hsorted
  have hdone : ∀ a ∈ done ++ [e], ¬ e.logId.index < a.logId.index := by
    intro a ha
    rcases List.mem_append.mp ha with hmem | hmem
    · exact Nat.lt_asymm (hbefore a hmem e (by simp))
    · rw [List.mem_singleton.mp hmem]
      exact Nat.lt_irrefl _
  have hrest : ∀ a ∈ rest, e.logId.index < a.logId.index := hbehind e (by simp)
  rw [CommittedLog.after, h, List.filter_append, List.filter_eq_nil_iff.mpr (by simpa using hdone),
    List.nil_append, List.filter_eq_self.mpr (by simpa using hrest)]

/-- The state is one that the uninterrupted in-memory run of the log passes, and `last_applied`
says where. -/
def Passed (ovf : Overflow) (log : CommittedLog) (d : MetadataStateMachineData) : Prop :=
  Replay.Checkpoint (MetadataStateMachineData.applyEntry ovf) .new log.entries d
    (log.after d.lastApplied)

section Faithful

variable {ovf : Overflow} {serde : Serde} {log : CommittedLog}

/-- `last_applied` of a checkpoint says which entries are left. -/
theorem Passed.of_checkpoint {d : MetadataStateMachineData} {rest : List Entry}
    (h : Replay.Checkpoint (MetadataStateMachineData.applyEntry ovf) .new log.entries d rest) :
    Passed ovf log d := by
  suffices hrest : log.after d.lastApplied = rest by rwa [Passed, hrest]
  obtain ⟨done, responses, hlog, hrun⟩ := h
  rcases List.eq_nil_or_concat done with rfl | ⟨before, e, rfl⟩
  · cases hrun
    exact hlog
  · rw [List.concat_eq_append] at hlog hrun
    rw [MetadataStateMachineData.lastApplied_applyEntries hrun]
    exact log.after_some hlog

theorem passed_new : Passed ovf log .new := .of_checkpoint Replay.checkpoint_init

/-- The loop of `apply`, over the next entries. -/
theorem Passed.applyEntries {d d' : MetadataStateMachineData} {n : Nat} (h : Passed ovf log d)
    (hrun : d.applyEntries ovf ((log.after d.lastApplied).take n) = some (d', responses)) :
    Passed ovf log d' := by
  rw [Passed, ← List.take_append_drop n (log.after d.lastApplied)] at h
  exact .of_checkpoint (h.advance hrun)

/-- The run passes one state with a given `last_applied`. -/
theorem Passed.agree {d d' : MetadataStateMachineData} (h : Passed ovf log d)
    (h' : Passed ovf log d') (hlast : d.lastApplied = d'.lastApplied) : d = d' := by
  obtain ⟨done, responses, hlog, hrun⟩ := h
  obtain ⟨done', responses', hlog', hrun'⟩ := h'
  rw [hlast] at hlog
  obtain rfl : done = done' := List.append_cancel_right (hlog.symm.trans hlog')
  rw [hrun] at hrun'
  cases hrun'
  rfl

/-- A snapshot of a state the run passes. -/
def Snapshot.Of (ovf : Overflow) (serde : Serde) (log : CommittedLog) (snap : Snapshot) : Prop :=
  ∃ d, Passed ovf log d ∧ snap.snapshotMeta.lastLogId = d.lastApplied ∧
    snap.snapshotMeta.lastMembership = d.lastMembership ∧ snap.data = serde.data.toVec d

variable {snap : Snapshot}

/-- A store that knows nothing but states the run passes: in memory, on disk and in its snapshot
table. -/
structure PersistentStateMachineStore.Faithful (ovf : Overflow) (serde : Serde)
    (log : CommittedLog) (store : PersistentStateMachineStore) : Prop where
  memory : Passed ovf log store.data
  disk : Passed ovf log (restored serde store.db)
  table : ∀ snap, store.getCurrentSnapshot serde = some snap → snap.Of ovf serde log

namespace PersistentStateMachineStore

variable {store : PersistentStateMachineStore}

/-- What a replica holds, and what it comes up with after a crash. -/
def states (serde : Serde) (store : PersistentStateMachineStore) : List MetadataStateMachineData :=
  [store.data, restored serde store.db]

theorem Faithful.states (h : Faithful ovf serde log store) {d : MetadataStateMachineData}
    (hd : d ∈ store.states serde) : Passed ovf log d := by
  rcases List.mem_pair.mp hd with rfl | rfl
  · exact h.memory
  · exact h.disk

/-- What `persist_state` wrote, `new` reads. -/
@[simp] theorem restored_persistState (store : PersistentStateMachineStore) :
    restored serde (store.persistState serde).db = store.data := by
  simp [restored, persistState, Codec.fromSlice_toVec]

theorem Faithful.empty : Faithful ovf serde log (.new serde .empty) where
  memory := passed_new
  disk := passed_new
  table := by simp [getCurrentSnapshot, new, StateDb.empty]

theorem Faithful.applyInMemory {store' : PersistentStateMachineStore} {n : Nat}
    (h : Faithful ovf serde log store)
    (hrun : store.applyInMemory ovf ((log.after store.data.lastApplied).take n)
      = some (store', responses)) : Faithful ovf serde log store' := by
  obtain ⟨⟨d, rs⟩, hd, heq⟩ := Option.map_eq_some_iff.mp hrun
  cases heq
  exact ⟨h.memory.applyEntries hd, h.disk, h.table⟩

theorem Faithful.persistState (h : Faithful ovf serde log store) :
    Faithful ovf serde log (store.persistState serde) where
  memory := h.memory
  disk := by
    rw [restored_persistState]
    exact h.memory
  table := h.table

theorem Faithful.new (h : Faithful ovf serde log store) :
    Faithful ovf serde log (.new serde store.db) :=
  ⟨h.disk, h.disk, h.table⟩

theorem Faithful.capture (h : Faithful ovf serde log store) :
    Faithful ovf serde log (store.capture serde).1 ∧ (store.capture serde).2.Of ovf serde log :=
  ⟨⟨h.memory, h.disk, h.table⟩, store.data, h.memory, rfl, rfl, rfl⟩

theorem Faithful.storeSnapshot (h : Faithful ovf serde log store) (hsnap : snap.Of ovf serde log) :
    Faithful ovf serde log (store.storeSnapshot serde snap) where
  memory := h.memory
  disk := h.disk
  table := by
    intro other hother
    simp only [getCurrentSnapshot, PersistentStateMachineStore.storeSnapshot, Option.bind_some,
      Codec.fromSlice_toVec, Option.some.injEq] at hother
    rwa [← hother]

/-- Loading a snapshot puts back the state it was made of. -/
theorem Faithful.loadSnapshot {store' : PersistentStateMachineStore}
    (h : Faithful ovf serde log store) (hsnap : snap.Of ovf serde log)
    (hload : store.loadSnapshot serde snap = some store') : Faithful ovf serde log store' := by
  obtain ⟨d, hd, hlast, hmembership, hdata⟩ := hsnap
  simp only [PersistentStateMachineStore.loadSnapshot, hdata, Codec.fromSlice_toVec, hlast,
    hmembership, Option.map_some, Option.some.injEq] at hload
  subst hload
  exact ⟨hd, h.disk, h.table⟩

end PersistentStateMachineStore

/-! ### Schedules -/

/-- Faithful replicas, and snapshots of states the run passes. -/
structure ReplicaSet.Faithful (ovf : Overflow) (serde : Serde) (log : CommittedLog)
    (g : ReplicaSet) : Prop where
  store : ∀ r, (g.store r).Faithful ovf serde log
  snapshots : ∀ snap ∈ g.snapshots, snap.Of ovf serde log

namespace ReplicaSet

variable {g : ReplicaSet}

theorem Faithful.set (h : g.Faithful ovf serde log) (r : Nat)
    {store : PersistentStateMachineStore} (hstore : store.Faithful ovf serde log) :
    (g.set r store).Faithful ovf serde log where
  store := by
    intro r'
    by_cases hr : r' = r
    · rw [hr, store_set_self]
      exact hstore
    · simpa [ReplicaSet.set, hr] using h.store r'
  snapshots := h.snapshots

theorem Faithful.send (h : g.Faithful ovf serde log) (hsnap : snap.Of ovf serde log) :
    (g.send snap).Faithful ovf serde log where
  store := h.store
  snapshots := by
    intro other hother
    rcases List.mem_append.mp hother with hmem | hmem
    · exact h.snapshots other hmem
    · rwa [List.mem_singleton.mp hmem]

/-- **One step keeps replicas faithful**, whatever it is. -/
theorem Faithful.step (h : g.Faithful ovf serde log) (op : ReplicaOp) :
    (step ovf serde log g op).1.Faithful ovf serde log := by
  cases op with
  | load r n =>
    rw [ReplicaSet.step]
    split
    · next hrun => exact h.set r ((h.store r).applyInMemory hrun)
    · exact h.set r (h.store r).new
  | persist r => exact h.set r (h.store r).persistState
  | crash r => exact h.set r (h.store r).new
  | capture r =>
    obtain ⟨hstore, hsnap⟩ := (h.store r).capture
    exact (h.set r hstore).send hsnap
  | resend r =>
    rw [ReplicaSet.step]
    split
    · next hsnap => exact h.send ((h.store r).table _ hsnap)
    · exact h
  | storeSnapshot r i =>
    rw [ReplicaSet.step]
    split
    · next hi => exact h.set r ((h.store r).storeSnapshot (h.snapshots _ (List.mem_of_getElem? hi)))
    · exact h
  | loadSnapshot r i =>
    rw [ReplicaSet.step]
    split
    · next hload =>
      obtain ⟨snap, hi, hsnap⟩ := Option.bind_eq_some_iff.mp hload
      exact h.set r ((h.store r).loadSnapshot (h.snapshots _ (List.mem_of_getElem? hi)) hsnap)
    · exact h

/-- **Every schedule** keeps replicas faithful. -/
theorem faithful_after (ops : List ReplicaOp) : (after ovf serde log ops).Faithful ovf serde log :=
  Machine.runState_invariant ⟨fun _ => .empty, by simp [ReplicaSet.new]⟩
    (fun _ op h => h.step op) ops

end ReplicaSet

end Faithful

/-! ## 5. The assumption on serde_json can be met

The state is a finite text, so there are texts for all states. -/

section Countable

instance countable_map {K V : Type} [Ord K] [TransOrd K] [Countable K] [Countable V] :
    Countable (ExtTreeMap K V compare) :=
  Function.Injective.countable fun _ _ h => ExtTreeMap.toList_inj.mp h

instance countable_char : Countable Char := by
  refine Function.Injective.countable (f := Char.toNat) ?_
  intro a b h
  exact Char.ext (UInt32.toNat_inj.mp h)

instance countable_string : Countable String :=
  Function.Injective.countable fun _ _ h => String.toList_injective h

instance countable_uid (k : IdKind) : Countable (Uid k) := by
  refine Function.Injective.countable (f := fun u : Uid k => u.uuid.toNat) ?_
  rintro ⟨a⟩ ⟨b⟩ h
  exact congrArg Uid.mk (BitVec.eq_of_toNat_eq h)

deriving instance Countable for ProtectionPolicy, DiskState, VolumeLease, BlockRange,
  VolumeMetadata, ExtentMapping, ClusterNode, ClusterDisk, LogId, StoredMembership,
  MetadataStateMachineData, SnapshotMeta, Snapshot

end Countable

theorem Codec.nonempty_of_countable (α : Type) [Countable α] : Nonempty (Codec α) := by
  classical
  obtain ⟨f, hf⟩ := exists_injective_nat α
  exact ⟨{
    toVec := fun a => List.replicate (f a) 0
    fromSlice := fun bytes => if h : ∃ a, f a = bytes.length then some h.choose else none
    fromSlice_toVec := by
      intro a
      have h : ∃ b, f b = (List.replicate (f a) (0 : UInt8)).length := ⟨a, by simp⟩
      rw [dif_pos h]
      exact congrArg some (hf (by simpa using h.choose_spec)) }⟩

theorem nonempty_serde : Nonempty Serde := by
  obtain ⟨data⟩ := Codec.nonempty_of_countable MetadataStateMachineData
  obtain ⟨lastApplied⟩ := Codec.nonempty_of_countable (Option LogId)
  obtain ⟨membership⟩ := Codec.nonempty_of_countable StoredMembership
  obtain ⟨snapshot⟩ := Codec.nonempty_of_countable Snapshot
  exact ⟨⟨data, lastApplied, membership, snapshot, fun _ _ => ""⟩⟩

/-! ## 6. Agreement -/

namespace ReplicaSet

/-- **REPLICAS AGREE.**  Two replicas that have applied the log up to the same entry hold the same
state, and so does a snapshot that is on its way, whatever batches, restarts and snapshots have
brought each of them there; the same goes for what a crash would make them come up with. -/
theorem replicas_agree (ovf : Overflow) (serde : Serde) (log : CommittedLog)
    (ops ops' : List ReplicaOp) (r r' : Nat) (d d' : MetadataStateMachineData)
    (hd : d ∈ ((after ovf serde log ops).store r).states serde)
    (hd' : d' ∈ ((after ovf serde log ops').store r').states serde)
    (hlast : d.lastApplied = d'.lastApplied) :
    d = d' ∧ ∀ snap ∈ (after ovf serde log ops').snapshots,
      snap.snapshotMeta.lastLogId = d.lastApplied →
        snap.snapshotMeta.lastMembership = d.lastMembership ∧ snap.data = serde.data.toVec d := by
  have hpassed := ((faithful_after ops).store r).states hd
  refine ⟨hpassed.agree (((faithful_after ops').store r').states hd') hlast, ?_⟩
  intro snap hsnap hid
  obtain ⟨made, hmade, hmadeLast, hmembership, hdata⟩ := (faithful_after ops').snapshots snap hsnap
  obtain rfl : d = made := hpassed.agree hmade (hid.symm.trans hmadeLast)
  exact ⟨hmembership, hdata⟩

def creationLog : CommittedLog where
  entries := [⟨⟨1, 1, 1⟩, .normal (.createVolume ⟨8#128⟩ 4096 (.replicated 1) 1)⟩]
  increasing := List.pairwise_singleton _ _

/-- The theorem at a replica that has come up from its disk and one that has never stopped. -/
theorem replicas_agree_restarted : ∃ serde : Serde,
    ((after .checked serde creationLog [.load 0 1, .persist 0, .crash 0]).store 0).data
      = ((after .checked serde creationLog [.load 1 1]).store 1).data := by
  obtain ⟨serde⟩ := nonempty_serde
  refine ⟨serde, (replicas_agree .checked serde creationLog [.load 0 1, .persist 0, .crash 0]
    [.load 1 1] 0 1 _ _ List.mem_cons_self List.mem_cons_self ?_).1⟩
  simp only [after, Machine.runState_cons, step, PersistentStateMachineStore.new, store_set_self,
    PersistentStateMachineStore.restored_persistState, Machine.runState_nil]
  rfl

end ReplicaSet

end Blockyard.Raft
