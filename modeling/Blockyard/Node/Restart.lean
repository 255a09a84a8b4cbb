/-
# Restarting a data node

`blockyard`, `node.rs`, `BlockyardNode::start`, steps 2 to 5: every disk is recovered into ONE
index, disk after disk.  A write leaves its files at a PLACE, a disk and a version; writes of the
same extent at other places leave theirs, which nothing removes.  The index keeps one entry per
extent and recovery replaces it at every place it visits, so the place visited LAST decides
(`restart_index`), and what a place holds is the last write that landed there (`Kept`).

`restart_serves_last_write_iff`: the restarted node has the last acknowledged write of an extent
exactly when the place of that write is visited last; and it has it in every order of the disks
and of the directory scans exactly when all writes of the extent landed at one place.
-/
import Blockyard.Storage.Crash
import Blockyard.Storage.Register

open Std CrashFs Machine

namespace Blockyard.Node

open Storage DataNodeService

/-! ## 1. `BlockyardNode::start` -/

variable {st : ExtentStore} {v : ExtentVersion}

/-- Step 3: a store for every disk, recovered into the index. -/
def recoverStores (x : Externals) (scan : DiskId → IterOrder (ExtentId × ExtentVersion))
    (disks : List ExtentStore) (index : ExtentIndex) : List (DiskId × ExtentStore) × ExtentIndex :=
  disks.foldl (fun (acc : List (DiskId × ExtentStore) × ExtentIndex) store =>
    let (recovered, index, _) := store.recover x (scan store.diskId) acc.2
    (acc.1 ++ [(store.diskId, recovered)], index)) ([], index)

/-- Steps 2 to 5: the service over the recovered stores. -/
def startStorage (x : Externals) (scan : DiskId → IterOrder (ExtentId × ExtentVersion))
    (inventory : DiskInventory) (disks : List ExtentStore) : DataNodeService :=
  let (stores, index) := recoverStores x scan disks ∅
  stores.foldl (fun service (diskId, store) => service.registerStore diskId store)
    (DataNodeService.new inventory index 0)

def disksInOrder (s : DataNodeService) (order : IterOrder DiskId) : List ExtentStore :=
  (order.keys s.stores).filterMap fun d => s.stores[d]?

/-- The node is stopped and started again. -/
def restart (x : Externals) (s : DataNodeService) (inventory : DiskInventory)
    (order : IterOrder DiskId) (scan : DiskId → IterOrder (ExtentId × ExtentVersion)) :
    DataNodeService := startStorage x scan inventory (disksInOrder s order)

/-! ## 2. The place visited last decides -/

def visitedFiles (scan : DiskId → IterOrder (ExtentId × ExtentVersion)) (disks : List ExtentStore)
    (e : ExtentId) : List (ExtentStore × ExtentVersion) :=
  disks.flatMap fun st => ((scan st.diskId).arrange st.committedKeys).filterMap fun key =>
    if key.1 = e then some (st, key.2) else none

def visits (scan : DiskId → IterOrder (ExtentId × ExtentVersion)) (disks : List ExtentStore)
    (e : ExtentId) : List (DiskId × ExtentVersion) :=
  (visitedFiles scan disks e).map fun p => (p.1.diskId, p.2)

section Recovery

variable {x : Externals} {scan : DiskId → IterOrder (ExtentId × ExtentVersion)}
  {disks : List ExtentStore} {e : ExtentId}

theorem recover_index_eq (st : ExtentStore) (order : IterOrder (ExtentId × ExtentVersion))
    (index : ExtentIndex) :
    (st.recover x order index).2.1
      = MapLog.replay index (ExtentStore.scanEvents x st (order.arrange st.committedKeys)) :=
  ExtentStore.scanCommitted_fst st _ index _

theorem recoverStores_index (index : ExtentIndex) :
    (recoverStores x scan disks index).2 = MapLog.replay index (disks.flatMap fun st =>
      ExtentStore.scanEvents x st ((scan st.diskId).arrange st.committedKeys)) := by
  have hfold : ∀ acc : List (DiskId × ExtentStore) × ExtentIndex,
      (disks.foldl (fun (acc : List (DiskId × ExtentStore) × ExtentIndex) store =>
        let (recovered, index, _) := store.recover x (scan store.diskId) acc.2
        (acc.1 ++ [(store.diskId, recovered)], index)) acc).2
        = MapLog.replay acc.2 (disks.flatMap fun st =>
            ExtentStore.scanEvents x st ((scan st.diskId).arrange st.committedKeys)) := by
    induction disks with
    | nil => exact fun _ => rfl
    | cons st disks ih =>
      intro acc
      rw [List.foldl_cons, ih, List.flatMap_cons, MapLog.replay, MapLog.replay, List.foldl_append]
      exact congrArg (fun m => MapLog.replay m _) (recover_index_eq st (scan st.diskId) acc.2)
  exact hfold ([], index)

/-- What holds of a service over the recovered index, and is kept by registering stores, holds of
the service that is started. -/
theorem startStorage_of {inventory : DiskInventory} {P : DataNodeService → Prop}
    (hnew : P (.new inventory (recoverStores x scan disks ∅).2 0))
    (hstore : ∀ service diskId store, P service → P (service.registerStore diskId store)) :
    P (startStorage x scan inventory disks) := by
  unfold startStorage
  generalize recoverStores x scan disks ∅ = recovered at hnew
  obtain ⟨stores, index⟩ := recovered
  refine List.foldlRecOn stores _ hnew ?_
  intro service h p _
  exact hstore service p.1 p.2 h

theorem startStorage_index (inventory : DiskInventory) :
    (startStorage x scan inventory disks).index = (recoverStores x scan disks ∅).2 :=
  startStorage_of (P := fun service => service.index = (recoverStores x scan disks ∅).2) rfl
    fun _ _ _ h => h

/-- The files of the extent on a disk can be decoded, and no other file names the extent. -/
structure Decodable (x : Externals) (e : ExtentId) (st : ExtentStore) : Prop where
  named : ExtentStore.Named x st
  decoded : ∀ v, (e, v) ∈ st.committedKeys → ∃ m, ExtentStore.decodedMeta x st (e, v) = some m

theorem scanEvents_of_extent (h : Decodable x e st) {keys : List (ExtentId × ExtentVersion)}
    (hkeys : ∀ key ∈ keys, key ∈ st.committedKeys) :
    ((ExtentStore.scanEvents x st keys).filterMap fun event =>
        if event.1 = e then some event.2 else none)
      = (keys.filterMap fun key => if key.1 = e then some (st, key.2) else none).map fun p =>
          (p.1.recoverExtentFromFile x (e, p.2)).toOption := by
  induction keys with
  | nil => rfl
  | cons key keys ih =>
    have hrest := ih fun key' hmem => hkeys key' (by simp [hmem])
    obtain ⟨e', v⟩ := key
    unfold ExtentStore.scanEvents at hrest ⊢
    rw [List.filterMap_cons, List.filterMap_cons]
    by_cases he : e' = e
    · subst he
      obtain ⟨m, hm⟩ := h.decoded v (hkeys _ (by simp))
      rw [ExtentStore.recoverExtentFromFile_toOption, hm]
      simp only [Option.map_some, List.filterMap_cons, h.named _ m hm, if_true, List.map_cons,
        hrest]
      rw [ExtentStore.recoverExtentFromFile_toOption, hm, Option.map_some, h.named _ m hm]
    · rw [ExtentStore.recoverExtentFromFile_toOption]
      cases hm : ExtentStore.decodedMeta x st (e', v) with
      | none => simpa [he] using hrest
      | some m =>
        have hname : m.extentId = e' := h.named _ m hm
        simpa [he, hname] using hrest

/-- **The file visited last decides** what the rebuilt index says of an extent. -/
theorem startStorage_index_of (h : ∀ st ∈ disks, Decodable x e st) (inventory : DiskInventory) :
    (startStorage x scan inventory disks).index[e]?
      = ((visitedFiles scan disks e).getLast?).bind fun p =>
          (p.1.recoverExtentFromFile x (e, p.2)).toOption := by
  have hevents : ((disks.flatMap fun st => ExtentStore.scanEvents x st
      ((scan st.diskId).arrange st.committedKeys)).filterMap fun event =>
        if event.1 = e then some event.2 else none)
      = (visitedFiles scan disks e).map fun p =>
          (p.1.recoverExtentFromFile x (e, p.2)).toOption := by
    rw [visitedFiles, List.filterMap_flatMap, List.map_flatMap]
    refine List.flatMap_congr fun st hst => scanEvents_of_extent (h st hst) fun key hkey => ?_
    exact ((scan st.diskId).perm _).mem_iff.mp hkey
  rw [startStorage_index, recoverStores_index, MapLog.getElem?_replay, ExtTreeMap.getElem?_empty,
    MapLog.last_eq_getLast?, hevents, List.getLast?_map]
  cases (visitedFiles scan disks e).getLast? <;> rfl

end Recovery

/-! ## 3. What a place holds -/

def placed (log : List (ExtentId × Cell)) : List ((ExtentId × DiskId × ExtentVersion) × Bytes) :=
  log.map fun w => ((w.1, w.2.disk, w.2.version), w.2.payload)

/-- The metadata of a write at a place. -/
structure Describes (x : Externals) (e : ExtentId) (d : DiskId) (v : ExtentVersion)
    (payload : Bytes) (m : ExtentMeta) : Prop where
  extentId : m.extentId = e
  diskId : m.diskId = d
  version : m.version = v
  checksum : m.checksum = x.checksum payload

/-- **Every place holds the last write that landed there**, and nothing if none did. -/
structure Kept (x : Externals) (e : ExtentId) (log : List (ExtentId × Cell)) (s : DataNodeService) :
    Prop where
  own : ∀ (d : DiskId) st, s.stores[d]? = some st → st.diskId = d
  named : ∀ (d : DiskId) st, s.stores[d]? = some st → ExtentStore.Named x st
  absent : ∀ (d : DiskId) st v, s.stores[d]? = some st → MapLog.last (e, d, v) (placed log) = none →
    (e, v) ∉ st.committedKeys
  present : ∀ (d : DiskId) v payload, MapLog.last (e, d, v) (placed log) = some payload →
    ∃ st m, s.stores[d]? = some st ∧ (e, v) ∈ st.committedKeys ∧
      ExtentStore.decodedMeta x st (e, v) = some m ∧ Describes x e d v payload m

/-- A node on whose disks an extent has no files yet. -/
structure Without (x : Externals) (e : ExtentId) (s : DataNodeService) : Prop where
  own : ∀ (d : DiskId) st, s.stores[d]? = some st → st.diskId = d
  named : ∀ (d : DiskId) st, s.stores[d]? = some st → ExtentStore.Named x st
  none : ∀ (d : DiskId) st v, s.stores[d]? = some st → (e, v) ∉ st.committedKeys

theorem Without.kept {x : Externals} {e : ExtentId} {s : DataNodeService} (h : Without x e s) :
    Kept x e [] s where
  own := h.own
  named := h.named
  absent := fun d st v hst _ => h.none d st v hst
  present := by
    intro d v payload hlast
    cases hlast

section Steps

variable {x : Externals} {e : ExtentId} {log : List (ExtentId × Cell)} {s s' : DataNodeService}

theorem Kept.congr (h : Kept x e log s) (hstores : s'.stores = s.stores) : Kept x e log s' where
  own := by rw [hstores]; exact h.own
  named := by rw [hstores]; exact h.named
  absent := by rw [hstores]; exact h.absent
  present := by rw [hstores]; exact h.present

theorem last_placed_snoc (k : ExtentId × DiskId × ExtentVersion) (e : ExtentId) (cell : Cell) :
    MapLog.last k (placed (log ++ [(e, cell)]))
      = if (e, cell.disk, cell.version) = k then some cell.payload
        else MapLog.last k (placed log) := by
  rw [placed, List.map_append, MapLog.last_append, List.map_singleton, MapLog.last_cons,
    MapLog.last_nil, Option.none_or]
  split <;> rfl

theorem mem_committedKeys_written {env : WriteEnv} {store : ExtentStore}
    {request : WriteExtentRequest} {payload : Bytes} {key : ExtentId × ExtentVersion} :
    key ∈ (writtenStore x env store request payload).committedKeys ↔
      key = (request.extentId, request.extentVersion) ∨ key ∈ store.committedKeys := by
  rw [ExtentStore.mem_committedKeys, ExtentStore.mem_committedKeys,
    ExtTreeMap.mem_iff_isSome_getElem?, ExtTreeMap.mem_iff_isSome_getElem?, getElem?_writtenStore]
  obtain ⟨e, v⟩ := key
  by_cases hkey : (e, v) = (request.extentId, request.extentVersion)
  · cases hkey
    simp
  · have hne : ¬ (e = request.extentId ∧ v = request.extentVersion) := fun h =>
      hkey (Prod.ext h.1 h.2)
    simp [hne]

/-- **An executed write** is the last one at its place, and leaves the other places. -/
theorem Kept.write {env : WriteEnv} {store : ExtentStore} {d : DiskId} (h : Kept x e log s)
    (hst : s.stores[d]? = some store) (request : WriteExtentRequest) (payload : Bytes) :
    Kept x e (log ++ [(request.extentId, ⟨request.extentVersion, d, payload⟩)])
      (writtenService x env s store request payload d) := by
  have hown := h.own d store hst
  have hstore : ∀ (d' : DiskId) st, (writtenService x env s store request payload d).stores[d']?
      = some st → (d' = d ∧ st = writtenStore x env store request payload) ∨
        (d' ≠ d ∧ s.stores[d']? = some st) := by
    intro d' st hst'
    rw [writtenService_stores] at hst'
    by_cases hd : d = d'
    · subst hd
      rw [ExtTreeMap.getElem?_insert_self] at hst'
      exact Or.inl ⟨rfl, (Option.some.inj hst').symm⟩
    · rw [getElem?_insert_of_ne _ hd] at hst'
      exact Or.inr ⟨Ne.symm hd, hst'⟩
  have hthis : (writtenService x env s store request payload d).stores[d]?
      = some (writtenStore x env store request payload) := ExtTreeMap.getElem?_insert_self
  have hother : ∀ d', d' ≠ d → (writtenService x env s store request payload d).stores[d']?
      = s.stores[d']? := fun d' hd => getElem?_insert_of_ne _ (Ne.symm hd) _
  refine ⟨?_, ?_, ?_, ?_⟩
  · intro d' st hst'
    rcases hstore d' st hst' with ⟨rfl, rfl⟩ | ⟨-, hold⟩
    · exact hown
    · exact h.own d' st hold
  · intro d' st hst' key m hm
    rcases hstore d' st hst' with ⟨rfl, rfl⟩ | ⟨-, hold⟩
    · rw [ExtentStore.decodedMeta_written] at hm
      split at hm
      · rename_i hkey
        cases hm
        exact (congrArg Prod.fst hkey).symm
      · exact h.named d' store hst key m hm
    · exact h.named d' st hold key m hm
  · intro d' st v hst' hlast
    rw [last_placed_snoc] at hlast
    split at hlast
    · cases hlast
    · rename_i hplace
      rcases hstore d' st hst' with ⟨rfl, rfl⟩ | ⟨-, hold⟩
      · rw [mem_committedKeys_written]
        rintro (hkey | hmem)
        · cases hkey
          exact hplace rfl
        · exact h.absent d' store v hst hlast hmem
      · exact h.absent d' st v hold hlast
  · intro d' v payload' hlast
    rw [last_placed_snoc] at hlast
    split at hlast
    · rename_i hplace
      cases hplace
      cases hlast
      refine ⟨_, writtenMeta x env store request payload, hthis,
        mem_committedKeys_written.mpr (Or.inl rfl), ?_, ⟨rfl, hown, rfl, rfl⟩⟩
      rw [ExtentStore.decodedMeta_written, if_pos rfl]
    · rename_i hplace
      obtain ⟨st, m, hst', hmem, hm, hdesc⟩ := h.present d' v payload' hlast
      by_cases hd : d' = d
      · subst hd
        obtain rfl : store = st := Option.some.inj (hst.symm.trans hst')
        have hkey : (e, v) ≠ (request.extentId, request.extentVersion) := by
          intro hkey
          cases hkey
          exact hplace rfl
        refine ⟨_, m, hthis, mem_committedKeys_written.mpr (Or.inr hmem), ?_, hdesc⟩
        rw [ExtentStore.decodedMeta_written, if_neg hkey, hm]
      · exact ⟨st, m, (hother d' hd).trans hst', hmem, hm, hdesc⟩

theorem Kept.step (h : Kept x e log s) (ovf : Overflow) {op : NodeOp} (hop : Calm op) :
    Kept x e (log ++ (executed x s op).toList) (nodeStep x ovf s op).1 := by
  rcases nodeStep_calm x ovf s hop with
    ⟨hnone, -, hstores, -⟩ | ⟨env, request, payload, d, store, log', hst, -, hsome, heq⟩
  · rw [hnone, Option.toList_none, List.append_nil]
    exact h.congr hstores
  · rw [hsome, heq, Option.toList_some]
    exact (h.write hst request payload).congr rfl

/-- **A whole run.** -/
theorem kept_of_run (h : Without x e s) (ovf : Overflow) {ops : List NodeOp}
    (hops : ∀ op ∈ ops, Calm op) :
    Kept x e (executions x ovf s ops) (runState (nodeStep x ovf) s ops) := by
  refine runState_history (P := fun pre t => Kept x e (executions x ovf s pre) t) h.kept ?_
  intro pre op post heq hpre
  rw [executions_snoc]
  refine hpre.step ovf (hops op ?_)
  rw [heq]
  exact List.mem_append_right _ List.mem_cons_self

end Steps

/-! ## 4. After a restart -/

/-- The index has the version, the checksum and the disk of a write. -/
def IndexHas (x : Externals) (s : DataNodeService) (e : ExtentId) (cell : Cell) : Prop :=
  ∃ entry, s.index[e]? = some entry ∧ entry.version = cell.version ∧
    entry.checksum = x.checksum cell.payload ∧ entry.diskId = cell.disk

section Restarted

variable {x : Externals} {e : ExtentId} {log : List (ExtentId × Cell)} {t : DataNodeService}
  {cell : Cell} {order : IterOrder DiskId} {scan : DiskId → IterOrder (ExtentId × ExtentVersion)}

/-- The last write of an extent is the last one at its place. -/
theorem last_placed_of_last (h : MapLog.last e log = some cell) :
    MapLog.last (e, cell.disk, cell.version) (placed log) = some cell.payload := by
  induction log with
  | nil => cases h
  | cons w log ih =>
    obtain ⟨e', c⟩ := w
    rw [MapLog.last_cons] at h
    rw [placed, List.map_cons, MapLog.last_cons]
    cases hrest : MapLog.last e log with
    | some c' =>
      rw [hrest, Option.some_or] at h
      cases h
      have hplaced := ih hrest
      rw [placed] at hplaced
      rw [hplaced]
      rfl
    | none =>
      rw [hrest, Option.none_or] at h
      obtain ⟨rfl, hc⟩ := Option.ite_none_right_eq_some.mp h
      cases hc
      -- no later write of the extent, so none at the place
      have hnone : MapLog.last (e', cell.disk, cell.version)
          (log.map fun w => ((w.1, w.2.disk, w.2.version), w.2.payload)) = none := by
        refine MapLog.last_eq_none fun event hevent hkey => ?_
        obtain ⟨w, hw, rfl⟩ := List.mem_map.mp hevent
        have he : w.1 = e' := congrArg Prod.fst hkey
        have hw' : (e', w.2) ∈ log := by
          rw [← he]
          exact hw
        obtain ⟨c', hc'⟩ := MapLog.exists_last_of_mem hw'
        rw [hrest] at hc'
        cases hc'
      rw [hnone, Option.none_or, if_pos rfl]

theorem mem_disksInOrder :
    st ∈ disksInOrder t order ↔ ∃ d : DiskId, t.stores[d]? = some st := by
  rw [disksInOrder, List.mem_filterMap]
  constructor
  · rintro ⟨d, -, hst⟩
    exact ⟨d, hst⟩
  · rintro ⟨d, hst⟩
    exact ⟨d, (order.mem_keys t.stores d).mpr (mem_of_getElem? hst), hst⟩

theorem mem_visitedFiles {disks : List ExtentStore} :
    (st, v) ∈ visitedFiles scan disks e ↔ st ∈ disks ∧ (e, v) ∈ st.committedKeys := by
  rw [visitedFiles, List.mem_flatMap]
  constructor
  · rintro ⟨st', hst', hmem⟩
    obtain ⟨⟨e', v'⟩, hkey, heq⟩ := List.mem_filterMap.mp hmem
    obtain ⟨rfl, hpair⟩ := Option.ite_none_right_eq_some.mp heq
    cases hpair
    exact ⟨hst', ((scan st.diskId).perm _).mem_iff.mp hkey⟩
  · rintro ⟨hst, hkey⟩
    exact ⟨st, hst, List.mem_filterMap.mpr ⟨(e, v), ((scan st.diskId).perm _).mem_iff.mpr hkey,
      if_pos rfl⟩⟩

/-- What a visited file says: the last write at its place. -/
theorem Kept.visited (h : Kept x e log t) (hst : st ∈ disksInOrder t order)
    (hkey : (e, v) ∈ st.committedKeys) :
    t.stores[st.diskId]? = some st ∧
      ∃ payload m, MapLog.last (e, st.diskId, v) (placed log) = some payload ∧
        ExtentStore.decodedMeta x st (e, v) = some m ∧ Describes x e st.diskId v payload m := by
  obtain ⟨d, hd⟩ := mem_disksInOrder.mp hst
  have hown := h.own d st hd
  subst hown
  refine ⟨hd, ?_⟩
  cases hlast : MapLog.last (e, st.diskId, v) (placed log) with
  | none => exact absurd hkey (h.absent _ st v hd hlast)
  | some payload =>
    obtain ⟨st', m, hst', -, hm, hdesc⟩ := h.present _ v payload hlast
    obtain rfl : st = st' := Option.some.inj (hd.symm.trans hst')
    exact ⟨payload, m, rfl, hm, hdesc⟩

theorem Kept.decodable (h : Kept x e log t) (hst : st ∈ disksInOrder t order) :
    Decodable x e st where
  named := by
    obtain ⟨d, hd⟩ := mem_disksInOrder.mp hst
    exact h.named d st hd
  decoded := by
    intro v hkey
    obtain ⟨-, -, m, -, hm, -⟩ := h.visited hst hkey
    exact ⟨m, hm⟩

/-- Where a write of the extent landed there is a last one. -/
theorem exists_last_placed {c : Cell} (hc : (e, c) ∈ log) :
    ∃ payload, MapLog.last (e, c.disk, c.version) (placed log) = some payload := by
  have hplaced : ((e, c.disk, c.version), c.payload) ∈ placed log := List.mem_map_of_mem hc
  exact MapLog.exists_last_of_mem hplaced

/-- The place of every write of the extent is visited. -/
theorem Kept.mem_visits (h : Kept x e log t) {c : Cell} (hc : (e, c) ∈ log) :
    ∃ st, t.stores[c.disk]? = some st ∧ (e, c.version) ∈ st.committedKeys := by
  obtain ⟨payload, hlast⟩ := exists_last_placed hc
  obtain ⟨st, -, hst, hkey, -⟩ := h.present _ _ payload hlast
  exact ⟨st, hst, hkey⟩

theorem Kept.of_mem_visits (h : Kept x e log t) {p : DiskId × ExtentVersion}
    (hp : p ∈ visits scan (disksInOrder t order) e) :
    ∃ c, (e, c) ∈ log ∧ (c.disk, c.version) = p := by
  obtain ⟨⟨st, v⟩, hmem, rfl⟩ := List.mem_map.mp hp
  obtain ⟨hst, hkey⟩ := mem_visitedFiles.mp hmem
  obtain ⟨-, payload, -, hplace, -, -⟩ := h.visited hst hkey
  obtain ⟨w, hw, heq⟩ := List.mem_map.mp (MapLog.mem_of_last hplace)
  obtain ⟨hkeys, -⟩ := Prod.ext_iff.mp heq
  obtain ⟨rfl, hrest⟩ := Prod.ext_iff.mp hkeys
  exact ⟨w.2, hw, hrest⟩

/-- **After a restart** the index has the last write at the place visited last. -/
theorem Kept.indexHas_of_visit (h : Kept x e log t) {d : DiskId} {payload : Bytes}
    (hvisit : (visits scan (disksInOrder t order) e).getLast? = some (d, v))
    (hplace : MapLog.last (e, d, v) (placed log) = some payload) (inventory : DiskInventory) :
    IndexHas x (restart x t inventory order scan) e ⟨v, d, payload⟩ := by
  have hdecodable : ∀ st ∈ disksInOrder t order, Decodable x e st := fun _ => h.decodable
  rw [visits, List.getLast?_map, Option.map_eq_some_iff] at hvisit
  obtain ⟨⟨st, v'⟩, hfile, heq⟩ := hvisit
  cases heq
  obtain ⟨hst, hkey⟩ := mem_visitedFiles.mp (List.mem_of_getLast? hfile)
  obtain ⟨-, payload', m, hplace', hm, hdesc⟩ := h.visited hst hkey
  obtain rfl : payload = payload' := Option.some.inj (hplace.symm.trans hplace')
  rw [IndexHas, restart, startStorage_index_of hdecodable inventory, hfile, Option.bind_some,
    ExtentStore.recoverExtentFromFile_toOption, hm]
  exact ⟨_, rfl, hdesc.version, hdesc.checksum, hdesc.diskId⟩

/-- **In one order**: the index has the last write exactly when its place is visited last. -/
theorem Kept.indexHas_iff (h : Kept x e log t) (hlast : MapLog.last e log = some cell)
    (inventory : DiskInventory) :
    IndexHas x (restart x t inventory order scan) e cell ↔
      (visits scan (disksInOrder t order) e).getLast? = some (cell.disk, cell.version) := by
  constructor
  · intro hhas
    cases hvisit : (visits scan (disksInOrder t order) e).getLast? with
    | none =>
      -- nothing is visited, so nothing is indexed
      have hdecodable : ∀ st ∈ disksInOrder t order, Decodable x e st := fun _ => h.decodable
      rw [visits, List.getLast?_map, Option.map_eq_none_iff] at hvisit
      obtain ⟨entry, hentry, -⟩ := hhas
      rw [restart, startStorage_index_of hdecodable inventory, hvisit] at hentry
      cases hentry
    | some p =>
      obtain ⟨c, hc, rfl⟩ := h.of_mem_visits (List.mem_of_getLast? hvisit)
      obtain ⟨payload, hplace⟩ := exists_last_placed hc
      obtain ⟨entry, hentry, hversion, -, hdisk⟩ := hhas
      obtain ⟨entry', hentry', hversion', -, hdisk'⟩ := h.indexHas_of_visit hvisit hplace inventory
      obtain rfl : entry = entry' := Option.some.inj (hentry.symm.trans hentry')
      rw [← hdisk, ← hversion, hdisk', hversion']
  · intro hvisit
    exact h.indexHas_of_visit hvisit (last_placed_of_last hlast) inventory

/-- There is an order in which a given place is visited last. -/
theorem visits_lastly {d : DiskId} (hst : t.stores[d]? = some st) (hown : st.diskId = d)
    (hkey : (e, v) ∈ st.committedKeys) :
    (visits (fun _ => .lastly (e, v)) (disksInOrder t (.lastly d)) e).getLast? = some (d, v) := by
  have hd : d ∈ t.stores.keys := ExtTreeMap.mem_keys.mpr (mem_of_getElem? hst)
  rw [visits, visitedFiles, disksInOrder, IterOrder.keys, IterOrder.arrange_lastly hd,
    List.filterMap_append, List.flatMap_append, List.map_append, List.filterMap_cons, hst]
  simp only [List.filterMap_nil, List.flatMap_cons, List.flatMap_nil, List.append_nil]
  rw [IterOrder.arrange_lastly hkey, List.filterMap_append, List.filterMap_cons, if_pos rfl]
  simp [hown]

end Restarted

/-- **Which restarts serve the last acknowledged write.**  A run without I/O errors, of a node whose
disks had no files of the extent, executed writes of it, the last one leaving `cell`; then the node
is started again.

* In one order of the disks and of the directory scans the rebuilt index has the version, the
  checksum and the disk of that write exactly when its place is the one visited last.
* It has them in EVERY order exactly when all writes of the extent landed at one place: on one disk,
  under one version. -/
theorem restart_serves_last_write_iff (x : Externals) (ovf : Overflow) (s t : DataNodeService)
    (ops : List NodeOp) (hcalm : ∀ op ∈ ops, Calm op) (hrun : t = runState (nodeStep x ovf) s ops)
    (e : ExtentId) (hstart : Without x e s) (cell : Cell)
    (hlast : MapLog.last e (executions x ovf s ops) = some cell) (inventory : DiskInventory) :
    (∀ order scan, IndexHas x (restart x t inventory order scan) e cell ↔
        (visits scan (disksInOrder t order) e).getLast? = some (cell.disk, cell.version)) ∧
      ((∀ order scan, IndexHas x (restart x t inventory order scan) e cell) ↔
        ∀ c, (e, c) ∈ executions x ovf s ops →
          (c.disk, c.version) = (cell.disk, cell.version)) := by
  have hkept : Kept x e (executions x ovf s ops) t := hrun ▸ kept_of_run hstart ovf hcalm
  refine ⟨fun order scan => hkept.indexHas_iff hlast inventory, ?_, ?_⟩
  · intro hall c hc
    obtain ⟨st, hst, hkey⟩ := hkept.mem_visits hc
    have hlastly := hall (.lastly c.disk) (fun _ => .lastly (e, c.version))
    rw [hkept.indexHas_iff hlast, visits_lastly hst (hkept.own _ st hst) hkey] at hlastly
    exact Option.some.inj hlastly
  · intro hone order scan
    rw [hkept.indexHas_iff hlast]
    -- something is visited, and whatever is visited is the one place
    obtain ⟨st, hst, hkey⟩ := hkept.mem_visits (MapLog.mem_of_last hlast)
    have hvisited : (st, cell.version) ∈ visitedFiles scan (disksInOrder t order) e :=
      mem_visitedFiles.mpr ⟨mem_disksInOrder.mpr ⟨_, hst⟩, hkey⟩
    have hne : visits scan (disksInOrder t order) e ≠ [] :=
      List.ne_nil_of_mem (List.mem_map_of_mem hvisited)
    obtain ⟨p, hp⟩ := Option.isSome_iff_exists.mp (List.getLast?_isSome.mpr hne)
    obtain ⟨c, hc, rfl⟩ := hkept.of_mem_visits (List.mem_of_getLast? hp)
    rw [hp, hone c hc]

def otherDisk : DiskId := ⟨4#128⟩

def twoDisks : DataNodeService :=
  ((DataNodeService.new ⟨((∅ : HashMap DiskId ManagedDisk).insert sampleDisk
    (.new sampleDisk "/mnt/d0")).insert otherDisk (.new otherDisk "/mnt/d1"), []⟩ ∅ 1).registerStore
      sampleDisk ⟨"/mnt/d0", sampleDisk, ∅⟩).registerStore otherDisk ⟨"/mnt/d1", otherDisk, ∅⟩

def writeOn (o : OperationId) (d : DiskId) (payload : Bytes) : NodeOp :=
  .write calmEnv { sampleWrite o 1 with
    targetDiskId := some d, checksum := computeChecksum sampleBlake3 payload }
    payload (.node ⟨2#128⟩)

def moving : List NodeOp := [writeOn ⟨21#128⟩ sampleDisk [1], writeOn ⟨22#128⟩ otherDisk [2]]

def staying : List NodeOp := [writeOn ⟨21#128⟩ sampleDisk [1], writeOn ⟨22#128⟩ sampleDisk [2]]

theorem executions_moving :
    executions (jsonExternals sampleBlake3) .checked twoDisks moving
      = [(⟨5#128⟩, ⟨1, sampleDisk, [1]⟩), (⟨5#128⟩, ⟨1, otherDisk, [2]⟩)] := by
  rfl

theorem executions_staying :
    executions (jsonExternals sampleBlake3) .checked twoDisks staying
      = [(⟨5#128⟩, ⟨1, sampleDisk, [1]⟩), (⟨5#128⟩, ⟨1, sampleDisk, [2]⟩)] := by
  rfl

theorem calm_writeOn (o : OperationId) (d : DiskId) (payload : Bytes) :
    Calm (writeOn o d payload) := ⟨fun _ => rfl, fun _ => rfl⟩

theorem calm_pair {op op' : NodeOp} (h : Calm op) (h' : Calm op') : ∀ o ∈ [op, op'], Calm o := by
  simp [h, h']

theorem without_twoDisks (x : Externals) (e : ExtentId) : Without x e twoDisks := by
  have hempty : ∀ (d : DiskId) st, twoDisks.stores[d]? = some st →
      st.diskId = d ∧ st.files = ∅ := by
    intro d st hst
    have hstores : twoDisks.stores = ((∅ : HashMap DiskId ExtentStore).insert sampleDisk
      ⟨"/mnt/d0", sampleDisk, ∅⟩).insert otherDisk ⟨"/mnt/d1", otherDisk, ∅⟩ := rfl
    rw [hstores] at hst
    by_cases hd : otherDisk = d
    · subst hd
      rw [ExtTreeMap.getElem?_insert_self] at hst
      cases hst
      exact ⟨rfl, rfl⟩
    · rw [getElem?_insert_of_ne _ hd] at hst
      by_cases hd' : sampleDisk = d
      · subst hd'
        rw [ExtTreeMap.getElem?_insert_self] at hst
        cases hst
        exact ⟨rfl, rfl⟩
      · rw [getElem?_insert_of_ne _ hd', ExtTreeMap.getElem?_empty] at hst
        cases hst
  refine ⟨fun d st hst => (hempty d st hst).1, ?_, ?_⟩
  · intro d st hst key m hm
    rw [ExtentStore.decodedMeta, (hempty d st hst).2, ExtTreeMap.getElem?_empty] at hm
    cases hm
  · intro d st v hst hkey
    rw [ExtentStore.mem_committedKeys, (hempty d st hst).2] at hkey
    exact ExtTreeMap.not_mem_empty hkey

/-- The theorem at two writes on one disk: whatever the order, the second is served. -/
theorem restart_serves_last_write_iff_staying :
    IndexHas (jsonExternals sampleBlake3) (restart (jsonExternals sampleBlake3)
      (runState (nodeStep (jsonExternals sampleBlake3) .checked) twoDisks staying)
      twoDisks.inventory (.first otherDisk) (fun _ => .sorted _)) ⟨5#128⟩ ⟨1, sampleDisk, [2]⟩ := by
  refine (restart_serves_last_write_iff (jsonExternals sampleBlake3) .checked twoDisks _ staying
    (calm_pair (calm_writeOn _ _ _) (calm_writeOn _ _ _)) rfl ⟨5#128⟩ (without_twoDisks _ _)
    ⟨1, sampleDisk, [2]⟩ (by rw [executions_staying]; rfl) twoDisks.inventory).2.mpr ?_ _ _
  rw [executions_staying]
  intro c hc
  rcases List.mem_pair.mp hc with heq | heq <;> cases heq <;> rfl

/-- **A restart that serves an older write.**  `[1]` is written to extent 5 on disk 3, then `[2]` on
disk 4, both acknowledged.  When disk 3 is recovered after disk 4, the index says disk 3 and the
checksum of `[1]`. -/
theorem restart_serves_older_write :
    MapLog.last ⟨5#128⟩ (executions (jsonExternals sampleBlake3) .checked twoDisks moving)
        = some ⟨1, otherDisk, [2]⟩ ∧
      IndexHas (jsonExternals sampleBlake3) (restart (jsonExternals sampleBlake3)
        (runState (nodeStep (jsonExternals sampleBlake3) .checked) twoDisks moving)
        twoDisks.inventory (.lastly sampleDisk) (fun _ => .lastly (⟨5#128⟩, 1))) ⟨5#128⟩
        ⟨1, sampleDisk, [1]⟩ := by
  refine ⟨by rw [executions_moving]; rfl, ?_⟩
  have hkept : Kept _ _ (executions (jsonExternals sampleBlake3) .checked twoDisks moving) _ :=
    kept_of_run (without_twoDisks _ ⟨5#128⟩) .checked
      (calm_pair (calm_writeOn _ _ _) (calm_writeOn _ _ _))
  rw [executions_moving] at hkept
  have hfirst : ((⟨5#128⟩ : ExtentId), (⟨1, sampleDisk, [1]⟩ : Cell)) ∈
      [((⟨5#128⟩ : ExtentId), (⟨1, sampleDisk, [1]⟩ : Cell)),
       (⟨5#128⟩, ⟨1, otherDisk, [2]⟩)] := by simp
  obtain ⟨st, hst, hkey⟩ := hkept.mem_visits hfirst
  exact hkept.indexHas_of_visit (visits_lastly hst (hkept.own _ st hst) hkey) (by decide) _

end Blockyard.Node
