/-
# Read after write

Is the volume a block device: does a read return, block by block, what was last written there?

On a healthy cluster the volume is a table of extents (`Table.lean`), and a write replaces the
WHOLE payload of every extent it touches by the piece of the write that falls into it.  So the
table is the block device (`Agrees`) as long as each piece starts at the beginning of its
extent and covers every block of it that was written before (`WholeExtents`).  §2 proves that
such writes keep the table and the device together, §3 that runs through the handler are runs
of the table; §5 puts the two together (`read_after_write`) and ends with the run in which a
write to one block of an extent loses the other.
-/
import Blockyard.Lib.Run
import Blockyard.Lib.BlockDevice
import Blockyard.Ublk.Table
import Blockyard.Storage.Json

open Std CrashFs

namespace Blockyard.Ublk

open Storage Machine

/-! ## 1. Requests and the device they act on -/

/-- A request of whole blocks, with what the environment decides while it is handled. -/
inductive BlockOp
  | write (env : IoEnv) (start : Nat) (data : Bytes)
  | read (env : IoEnv) (start count : Nat)

variable {op : BlockOp} {ops : List BlockOp}

namespace BlockOp

variable (cfg : VolumeConfig)

def start : BlockOp → Nat
  | write _ start _ => start
  | read _ start _ => start

/-- How many blocks a request is about. -/
def count : BlockOp → Nat
  | write _ _ data => data.length / cfg.blockSize
  | read _ _ count => count

def Writes (b : Nat) : BlockOp → Prop
  | write _ start data => start ≤ b ∧ b < start + data.length / cfg.blockSize
  | read _ _ _ => False

/-- The operation ids a request may draw. -/
def ids : BlockOp → List OperationId
  | write env _ data => chunkIds env.chunk 0 (data.length / cfg.blockSize)
  | read _ _ _ => []

/-- A request is about one or more whole blocks; the metadata service has no record of the ids
its chunks draw. -/
def Aligned : BlockOp → Prop
  | write env _ data => 0 < data.length / cfg.blockSize ∧
      data.length = data.length / cfg.blockSize * cfg.blockSize ∧
      ∀ i k, (env.chunk i).lookup k = none
  | read _ _ count => 0 < count

def WholeBlocks : BlockOp → Prop
  | write _ _ data => 0 < data.length / cfg.blockSize ∧
      data.length = data.length / cfg.blockSize * cfg.blockSize
  | read _ _ count => 0 < count

variable {cfg} in
theorem Aligned.wholeBlocks (h : op.Aligned cfg) : op.WholeBlocks cfg := by
  cases op with
  | write env start data => exact ⟨h.1, h.2.1⟩
  | read env start count => exact h

/-- The extents of the blocks of a request are among those in use, and the request ends, with
one more extent behind it, below `2^64` bytes: there the handler's block arithmetic is the
model's. -/
structure Within (used : Nat → Prop) (op : BlockOp) : Prop where
  extents : ∀ b, op.start ≤ b → b < op.start + op.count cfg → used (b / cfg.extentBlocks)
  bounded : (op.start + op.count cfg + cfg.extentBlocks) * cfg.blockSize < 2 ^ 64

end BlockOp

def deviceStep (cfg : VolumeConfig) (dev : Nat → Bytes) : BlockOp → Nat → Bytes
  | .write _ start data => BlockDevice.write cfg.blockSize dev start data
  | .read _ _ _ => dev

/-- The device after a sequence of requests; it starts blank. -/
def device (cfg : VolumeConfig) (ops : List BlockOp) : Nat → Bytes :=
  ops.foldl (deviceStep cfg) fun _ => zeros cfg.blockSize

/-- Every piece of the write starts at the beginning of its extent, and covers what earlier
requests wrote of it. -/
def WholeExtents (cfg : VolumeConfig) (earlier : List BlockOp) : BlockOp → Prop
  | .write _ start data => start % cfg.extentBlocks = 0 ∧
      ∀ op ∈ earlier, ∀ b, op.Writes cfg b → start + data.length / cfg.blockSize ≤ b →
        b / cfg.extentBlocks ≠ (start + data.length / cfg.blockSize - 1) / cfg.extentBlocks
  | .read _ _ _ => True

theorem device_snoc (cfg : VolumeConfig) (ops : List BlockOp) (op : BlockOp) :
    device cfg (ops ++ [op]) = deviceStep cfg (device cfg ops) op := by
  rw [device, List.foldl_append]
  rfl

theorem device_of_not_written (cfg : VolumeConfig) {b : Nat} (h : ∀ op ∈ ops, ¬ op.Writes cfg b) :
    device cfg ops b = zeros cfg.blockSize := by
  induction ops using List.reverseRecOn with
  | nil => rfl
  | append_singleton ops op ih =>
    have hop : ¬ op.Writes cfg b := h op (by simp)
    have hb := ih fun op' hop' => h op' (by simp [hop'])
    rw [device_snoc]
    cases op with
    | write env start data => exact (if_neg hop).trans hb
    | read env start count => exact hb

/-! ## 2. Tables and devices -/

/-- The table holds what is on the device. -/
def Agrees (cfg : VolumeConfig) (content : Nat → Option Bytes) (dev : Nat → Bytes) : Prop :=
  ∀ b, blockWindow cfg content b = dev b

theorem resize_nil (n : Nat) : resize [] n = zeros n := by simp [resize, zeros]

/-- The window of a block that lies inside a payload. -/
theorem resize_drop {payload : Bytes} {blockSize i : Nat}
    (h : (i + 1) * blockSize ≤ payload.length) :
    resize (payload.drop (i * blockSize)) blockSize = BlockDevice.slice blockSize payload i := by
  rw [Nat.add_mul, Nat.one_mul] at h
  rw [resize, List.length_drop, show blockSize - (payload.length - i * blockSize) = 0 by omega,
    List.replicate_zero, List.append_nil, BlockDevice.slice]

theorem agrees_blank (cfg : VolumeConfig) :
    Agrees cfg (fun _ => none) fun _ => zeros cfg.blockSize := by
  intro b
  rw [blockWindow, Option.getD_none, List.drop_nil, resize_nil]

section Chunks

variable {cfg : VolumeConfig} {content : Nat → Option Bytes} {dev : Nat → Bytes}

/-- **A chunk that starts its extent** takes table and device along, if the blocks of the extent
behind it are blank. -/
theorem Agrees.chunk (h : Agrees cfg content dev) (hbs : 0 < cfg.blockSize) {current count : Nat}
    {chunk : Bytes} (halign : current % cfg.extentBlocks = 0) (hcount : count ≤ cfg.extentBlocks)
    (hlen : chunk.length = count * cfg.blockSize)
    (hblank : ∀ b, current + count ≤ b → b / cfg.extentBlocks = current / cfg.extentBlocks →
      dev b = zeros cfg.blockSize) :
    Agrees cfg (Function.update content (current / cfg.extentBlocks) (some chunk))
      (BlockDevice.write cfg.blockSize dev current chunk) := by
  intro b
  have heb := extentBlocks_pos cfg
  have hcur := Nat.div_add_mod current cfg.extentBlocks
  have hbdiv := Nat.div_add_mod b cfg.extentBlocks
  have hbmod := Nat.mod_lt b heb
  by_cases he : b / cfg.extentBlocks = current / cfg.extentBlocks
  · rw [he] at hbdiv
    have hb : b = current + b % cfg.extentBlocks := by omega
    rw [blockWindow, he, Function.update_self, Option.getD_some]
    by_cases hin : b % cfg.extentBlocks < count
    · have hfit : (b % cfg.extentBlocks + 1) * cfg.blockSize ≤ chunk.length := by
        rw [hlen]
        exact Nat.mul_le_mul_right _ hin
      rw [BlockDevice.write_inside hbs hlen (by omega) (by omega), resize_drop hfit,
        show b - current = b % cfg.extentBlocks by omega]
    · have hbehind : chunk.length ≤ b % cfg.extentBlocks * cfg.blockSize := by
        rw [hlen]
        exact Nat.mul_le_mul_right _ (by omega)
      rw [BlockDevice.write_of_le hbs hlen (by omega), hblank b (by omega) he,
        List.drop_eq_nil_of_le hbehind, resize_nil]
  · -- another extent: neither side changes
    have hother : BlockDevice.write cfg.blockSize dev current chunk b = dev b := by
      by_cases hlt : b < current
      · exact BlockDevice.write_of_lt hlt
      · refine BlockDevice.write_of_le hbs hlen (Nat.not_lt.mp fun hin => he ?_)
        refine Nat.div_eq_of_lt_le ?_ ?_
        · rw [Nat.mul_comm]; omega
        · rw [Nat.add_mul, Nat.mul_comm (current / cfg.extentBlocks)]; omega
    rw [hother, blockWindow, Function.update_of_ne he]
    exact h b

/-- What the end of a chunk is, when the chunk starts its extent. -/
theorem chunkEnd_aligned {current endBlock : Nat} (halign : current % cfg.extentBlocks = 0) :
    chunkEnd cfg.extentBlocks current endBlock = min (current + cfg.extentBlocks) endBlock := by
  have hcur := Nat.div_add_mod current cfg.extentBlocks
  rw [chunkEnd, Nat.add_mul, Nat.one_mul, Nat.mul_comm]
  congr 2
  omega

/-- **The chunks of a write of whole extents** take table and device along.  The induction is on
the rounds of the loop; each round is a chunk that starts its extent, and only the last one can
end before its extent does. -/
theorem agrees_storeChunks (hbs : 0 < cfg.blockSize) {data : Bytes} {endBlock : Nat} (fuel : Nat) :
    ∀ (offset current : Nat) (content : Nat → Option Bytes) (dev : Nat → Bytes),
      Agrees cfg content dev → endBlock - current ≤ fuel →
      data.length - offset = (endBlock - current) * cfg.blockSize →
      (current < endBlock → current % cfg.extentBlocks = 0) →
      (∀ b, endBlock ≤ b → b / cfg.extentBlocks = (endBlock - 1) / cfg.extentBlocks →
        dev b = zeros cfg.blockSize) →
      Agrees cfg (storeChunks cfg data endBlock fuel offset current content)
        (BlockDevice.write cfg.blockSize dev current (data.drop offset)) := by
  have hdone : ∀ {offset current : Nat} {dev : Nat → Bytes}, ¬ current < endBlock →
      data.length - offset = (endBlock - current) * cfg.blockSize →
      BlockDevice.write cfg.blockSize dev current (data.drop offset) = dev := by
    intro offset current dev hlt hlen
    rw [show endBlock - current = 0 by omega, Nat.zero_mul] at hlen
    rw [List.drop_eq_nil_of_le (by omega), BlockDevice.write_nil]
  induction fuel with
  | zero =>
    intro offset current content dev h hfuel hlen _ _
    rw [hdone (by omega) hlen]
    exact h
  | succ fuel ih =>
    intro offset current content dev h hfuel hlen halign hblank
    rw [storeChunks]
    by_cases hlt : current < endBlock
    · have heb := extentBlocks_pos cfg
      have hal := halign hlt
      have hend : _ = min (current + cfg.extentBlocks) endBlock := chunkEnd_aligned hal
      have hcur := Nat.div_add_mod current cfg.extentBlocks
      rw [if_pos hlt]
      dsimp only
      generalize chunkEnd cfg.extentBlocks current endBlock = stop at hend ⊢
      -- the chunk is as long as its blocks
      have hbytes := chunk_add_rest (by omega : current ≤ stop) (by omega : stop ≤ endBlock) hlen
      rw [Nat.min_eq_left (by omega : (stop - current) * cfg.blockSize ≤ data.length - offset)]
      have hchunk : ((data.drop offset).take ((stop - current) * cfg.blockSize)).length
          = (stop - current) * cfg.blockSize := by
        rw [List.length_take, List.length_drop]
        omega
      have hagree := h.chunk hbs hal (by omega) hchunk fun b hb he => by
        by_cases hlast : stop = endBlock
        · refine hblank b (by omega) (he.trans (Nat.div_eq_of_lt_le ?_ ?_).symm)
          · rw [Nat.mul_comm]; omega
          · rw [Nat.add_mul, Nat.mul_comm (current / cfg.extentBlocks)]; omega
        · -- the extent ends with the chunk
          have hb' := Nat.div_add_mod b cfg.extentBlocks
          have hmod := Nat.mod_lt b heb
          rw [he] at hb'
          omega
      have hsplit : BlockDevice.write cfg.blockSize dev current (data.drop offset)
          = BlockDevice.write cfg.blockSize (BlockDevice.write cfg.blockSize dev current
              ((data.drop offset).take ((stop - current) * cfg.blockSize))) stop
              (data.drop (offset + (stop - current) * cfg.blockSize)) := by
        conv_lhs => rw [← List.take_append_drop ((stop - current) * cfg.blockSize)
          (data.drop offset)]
        rw [BlockDevice.write_append hbs hchunk, List.drop_drop,
          show current + (stop - current) = stop by omega]
      have hnext := ih (offset + (stop - current) * cfg.blockSize) stop _ _ hagree (by omega)
        (by omega) (fun hmore => ?_) fun b hb he => ?_
      · rwa [hsplit]
      · rw [show stop = current + cfg.extentBlocks by omega, Nat.add_mod_right, hal]
      · rw [BlockDevice.write_of_le hbs hchunk (by omega)]
        exact hblank b hb he
    · rw [if_neg hlt, hdone hlt hlen]
      exact h

end Chunks

/-- What the requests make of the table of extents. -/
def tableStep (cfg : VolumeConfig) (content : Nat → Option Bytes) :
    BlockOp → Nat → Option Bytes
  | .write _ start data => storeChunks cfg data (start + data.length / cfg.blockSize)
      (data.length / cfg.blockSize) 0 start content
  | .read _ _ _ => content

/-- The table after a sequence of requests; it starts empty. -/
def table (cfg : VolumeConfig) (ops : List BlockOp) : Nat → Option Bytes :=
  ops.foldl (tableStep cfg) fun _ => none

/-- **Requests of whole extents** keep table and device together. -/
theorem agrees_table {cfg : VolumeConfig} (hbs : 0 < cfg.blockSize)
    (hops : ∀ op ∈ ops, op.WholeBlocks cfg)
    (hwhole : ∀ pre op post, ops = pre ++ op :: post → WholeExtents cfg pre op) :
    Agrees cfg (table cfg ops) (device cfg ops) := by
  induction ops using List.reverseRecOn with
  | nil => exact agrees_blank cfg
  | append_singleton ops op ih =>
    have hpre : Agrees cfg (table cfg ops) (device cfg ops) := by
      refine ih (fun op' hop' => hops op' (List.mem_append_left _ hop')) fun pre op' post heq => ?_
      exact hwhole pre op' (post ++ [op]) (by rw [heq, List.append_assoc]; rfl)
    have hop : op.WholeBlocks cfg := hops op (List.mem_append_right _ List.mem_cons_self)
    have hw : WholeExtents cfg ops op := hwhole ops op [] rfl
    rw [device_snoc, table, List.foldl_append]
    cases op with
    | read env start count => exact hpre
    | write env start data =>
      have hlen := hop.2
      have hkeep := agrees_storeChunks hbs (data.length / cfg.blockSize) 0 start (table cfg ops)
        (device cfg ops) hpre (by rw [Nat.add_sub_cancel_left])
        (by rw [Nat.add_sub_cancel_left]; exact hlen) (fun _ => hw.1) fun b hb he =>
          device_of_not_written cfg fun op' hmem hwrites => hw.2 op' hmem b hwrites hb he
      rw [List.drop_zero] at hkeep
      exact hkeep

/-! ## 3. Runs through the handler -/

section Runs

variable (x : Externals) (ovf : Overflow) (world : Nat → Tick) (rs : ReedSolomon)
  (cfg : VolumeConfig)

def BlockOp.request : BlockOp → IoRequest
  | .write _ start data => blockWrite cfg start data
  | .read _ start count => blockRead cfg start count

/-- What the environment decides while it is handled. -/
def BlockOp.env : BlockOp → IoEnv
  | .write env _ _ => env
  | .read env _ _ => env

def blockStep (st : Client × Cluster) (op : BlockOp) :
    (Client × Cluster) × Except Error (Option Bytes) :=
  let (c, cl, result) := handleIo (tcpPlane x ovf world) x.blake3 rs cfg op.env st.1 st.2
    (op.request cfg)
  ((c, cl), result)

def Answered (st : Client × Cluster) : BlockOp → Prop
  | .write env start data =>
    ∃ v, (blockStep x ovf world rs cfg st (.write env start data)).2 = .ok v
  | .read _ _ _ => True

/-- All operation ids a run may draw. -/
def opIds (ops : List BlockOp) : List OperationId := ops.flatMap (BlockOp.ids cfg)

variable {x ovf world rs cfg} {cache : MetadataCache} {used : Nat → Prop}
  {ids : List OperationId} {content : Nat → Option Bytes} {st : Client × Cluster}

theorem blockStep_of_handleIo {c' : Client} {cl' : Cluster} {result : Except Error (Option Bytes)}
    (h : handleIo (tcpPlane x ovf world) x.blake3 rs cfg op.env st.1 st.2 (op.request cfg)
      = (c', cl', result)) :
    blockStep x ovf world rs cfg st op = ((c', cl'), result) := by
  rw [blockStep, h]

variable (hset : Setting x world cfg cache used)

include hset

/-- **One request that is answered Ok** moves the table. -/
theorem blockStep_good (hc : Settled cache st.1)
    (hop : op.Aligned cfg) (hu : op.Within cfg used) (hnodup : (op.ids cfg ++ ids).Nodup)
    (h : Good x cfg cache used (op.ids cfg ++ ids) content st.2)
    (hans : Answered x ovf world rs cfg st op) :
    Settled cache (blockStep x ovf world rs cfg st op).1.1 ∧
      Good x cfg cache used ids (tableStep cfg content op)
        (blockStep x ovf world rs cfg st op).1.2 := by
  cases op with
  | write env start data =>
    obtain ⟨v, hv⟩ := hans
    exact handleWrite_good rs hset hc hop.2.2 hop.2.1 hu.extents hnodup h
      (Prod.ext rfl (Prod.ext rfl hv))
  | read env start count =>
    obtain ⟨cl', heq, hgood⟩ := handleRead_good rs hset hc h hop hu.extents env ovf
    have hstep : blockStep x ovf world rs cfg st (.read env start count) = _ :=
      blockStep_of_handleIo heq
    rw [hstep]
    exact ⟨hc, hgood⟩

/-- **Runs through the handler are runs of the table.** -/
theorem run_good (hops : ∀ op ∈ ops, op.Aligned cfg ∧ op.Within cfg used) (hc : Settled cache st.1)
    (hnodup : (opIds cfg ops).Nodup) (h : Good x cfg cache used (opIds cfg ops) content st.2)
    (hans : Along (blockStep x ovf world rs cfg) (Answered x ovf world rs cfg) st ops) :
    Settled cache (runState (blockStep x ovf world rs cfg) st ops).1 ∧
      Good x cfg cache used [] (ops.foldl (tableStep cfg) content)
        (runState (blockStep x ovf world rs cfg) st ops).2 := by
  induction ops generalizing st content with
  | nil => exact ⟨hc, h⟩
  | cons op ops ih =>
    obtain ⟨hop, hu⟩ := hops op List.mem_cons_self
    have hids : opIds cfg (op :: ops) = op.ids cfg ++ opIds cfg ops := List.flatMap_cons
    rw [hids] at hnodup h
    obtain ⟨hc', h'⟩ := blockStep_good hset hc hop hu hnodup h hans.1
    exact ih (fun op' hop' => hops op' (List.mem_cons_of_mem _ hop')) hc' hnodup.of_append_right h'
      hans.2

/-- A ready client's requests of whole blocks are all answered Ok. -/
theorem answered_of_ready (hops : ∀ op ∈ ops, op.Aligned cfg ∧ op.Within cfg used)
    (hc : Settled cache st.1) (hr : Ready x cfg cache used st.1) (hnodup : (opIds cfg ops).Nodup)
    (h : Good x cfg cache used (opIds cfg ops) content st.2) :
    Along (blockStep x ovf world rs cfg) (Answered x ovf world rs cfg) st ops := by
  induction ops generalizing st content with
  | nil => trivial
  | cons op ops ih =>
    obtain ⟨hop, hu⟩ := hops op List.mem_cons_self
    have hids : opIds cfg (op :: ops) = op.ids cfg ++ opIds cfg ops := List.flatMap_cons
    rw [hids] at hnodup h
    have hfirst : Answered x ovf world rs cfg st op ∧
        Ready x cfg cache used (blockStep x ovf world rs cfg st op).1.1 := by
      cases op with
      | write env start data =>
        obtain ⟨c', cl', heq, hr'⟩ := handleWrite_ready rs hset hc hop.2.2 hop.2.1
          hu.extents hnodup h ovf hr
        have hstep : blockStep x ovf world rs cfg st (.write env start data) = _ :=
          blockStep_of_handleIo heq
        exact ⟨⟨none, by rw [hstep]⟩, by rw [hstep]; exact hr'⟩
      | read env start count =>
        obtain ⟨cl', heq, -⟩ := handleRead_good rs hset hc h hop hu.extents env ovf
        have hstep : blockStep x ovf world rs cfg st (.read env start count) = _ :=
          blockStep_of_handleIo heq
        exact ⟨trivial, by rw [hstep]; exact hr⟩
    obtain ⟨hc', h'⟩ := blockStep_good hset hc hop hu hnodup h hfirst.1
    exact ⟨hfirst.1, ih (fun op' hop' => hops op' (List.mem_cons_of_mem _ hop')) hc' hfirst.2
      hnodup.of_append_right h'⟩

theorem read_of_run (hops : ∀ op ∈ ops, op.Aligned cfg ∧ op.Within cfg used)
    (hc : Settled cache st.1) (hids : (opIds cfg ops).Nodup)
    (h : Good x cfg cache used (opIds cfg ops) (fun _ => none) st.2)
    (hans : Along (blockStep x ovf world rs cfg) (Answered x ovf world rs cfg) st ops) {env : IoEnv}
    {start count : Nat} (hread : (BlockOp.read env start count).Aligned cfg)
    (hused : (BlockOp.read env start count).Within cfg used) :
    (blockStep x ovf world rs cfg (runState (blockStep x ovf world rs cfg) st ops)
        (.read env start count)).2
      = .ok (some (BlockDevice.read (blockWindow cfg (table cfg ops)) start count)) := by
  obtain ⟨hc', hgood⟩ := run_good hset hops hc hids h hans
  obtain ⟨cl', heq, -⟩ := handleRead_good rs hset hc' hgood hread hused.extents env ovf
  have hstep : blockStep x ovf world rs cfg _ (.read env start count) = _ :=
    blockStep_of_handleIo heq
  rw [hstep]
  rfl

end Runs

/-! ## 4. One node, two blocks per extent -/

/-- BLAKE3 on the inputs of the runs below: three payloads, and the extent 0 of volume 7. -/
def volumeBlake3 (input : Bytes) : BitVec 256 :=
  if input = PlacementEngine.extentDomain ++ (⟨7#128⟩ : VolumeId).asBytes ++ leBytes 8 0 then
    0x21e0c08f90b7e81c8b713a0178b133e840a908524c4e1f082f38fb9706eaf0eb#256
  else if input = [1, 2] then
    0xb7d770040f780e9deff6bc038abea66e108b88d098d16d24cd7486eb671060b2#256
  else sampleBlake3 input

def smallVolume : VolumeConfig where
  volumeId := ⟨7#128⟩
  blockSize := 1
  protection := .replicated 1
  extentSize := 2

def smallCache : MetadataCache where
  epoch := 1
  clusterMap := (∅ : BTreeMap NodeId String).insert ⟨2#128⟩ "10.0.0.2:7400"
  volumes := (∅ : BTreeMap VolumeId CachedVolumeInfo).insert ⟨7#128⟩ ⟨.replicated 1⟩

def smallClient : Client where
  cache := smallCache
  watermark := 0
  paused := false
  leaseState := .active
  leaseVersion := some 1
  sessionId := ⟨1#128⟩

def smallCluster : Cluster := ⟨(∅ : HashMap NodeId DataNodeService).insert ⟨2#128⟩ sampleNode, 0⟩

def calmTick : Tick where
  delivery := .delivered
  writeEnv := calmEnv
  readFault := ⟨none, none⟩
  operationId := ⟨90#128⟩
  sessionId := ⟨1#128⟩

def idsFrom (first : Nat) : IoEnv where
  chunk := fun i =>
    { operationId := ⟨BitVec.ofNat 128 (first + i)⟩
      sendOrder := fun _ => .sorted _
      lookup := fun _ => none
      refresh := fun _ => .error (.network "no metadata service") }
  refresh := .error (.network "no metadata service")
  fragmentOrder := fun _ => .sorted _

def noCode : ReedSolomon where
  new := fun _ _ => .ok ()
  encode := fun _ _ shards => .ok shards
  reconstruct := fun _ _ shards => .ok shards

theorem healthy_sampleNode : Healthy ⟨7#128⟩ 1 sampleNode where
  disk := ⟨sampleDisk, .new sampleDisk "/mnt/d0", ExtTreeMap.getElem?_insert_self, rfl, Or.inl rfl,
    rfl⟩
  stores := by
    intro d disk hel
    by_cases hd : sampleDisk = d
    · exact ⟨⟨"/mnt/d0", sampleDisk, ∅⟩, by rw [← hd]; exact ExtTreeMap.getElem?_insert_self, hd⟩
    · -- there is no other disk
      have hknown := hel.known
      rw [show sampleNode.inventory.disks = (∅ : HashMap DiskId ManagedDisk).insert sampleDisk
        (.new sampleDisk "/mnt/d0") from rfl, getElem?_insert_of_ne _ hd,
        ExtTreeMap.getElem?_empty] at hknown
      cases hknown
  writeEpoch := Nat.le_refl 1
  readEpoch := Nat.le_refl 1
  lease := ExtTreeMap.getElem?_empty

theorem setting_small : Setting (jsonExternals volumeBlake3) (fun _ => calmTick) smallVolume
    smallCache (· = 0) where
  replicated := ⟨1, rfl⟩
  known := ExtTreeMap.getElem?_insert_self
  blockSize_pos := by decide
  blockSize_lt := by decide
  extentSize_lt := by decide
  quiet := fun _ => ⟨rfl, fun _ => rfl, fun _ => rfl, rfl⟩
  distinct := fun _ _ he he' _ => he.trans he'.symm

theorem replicasOf_small (e : Nat) :
    replicasOf (jsonExternals volumeBlake3) smallVolume smallCache e = [⟨2#128⟩] := by
  have hnodes : smallCache.listNodes = [⟨2#128⟩] := by decide
  rw [replicasOf, hnodes]
  rfl

theorem ready_small :
    Ready (jsonExternals volumeBlake3) smallVolume smallCache (· = 0) smallClient where
  lease := rfl
  version := ⟨1, rfl⟩
  running := rfl
  placed := by
    intro e _
    rw [replicasOf_small]
    decide
  enough := by
    intro e _
    rw [replicasOf_small]
    decide

theorem good_small (ids : List OperationId) :
    Good (jsonExternals volumeBlake3) smallVolume smallCache (· = 0) ids (fun _ => none)
      smallCluster where
  node := by
    intro n hn
    obtain rfl : n = ⟨2#128⟩ := by
      have hnodes : smallCache.listNodes = [⟨2#128⟩] := by decide
      rw [hnodes] at hn
      exact List.mem_singleton.mp hn
    refine ⟨sampleNode, ExtTreeMap.getElem?_insert_self, healthy_sampleNode, ?_, ?_⟩
    · intro o _
      exact ExtTreeMap.getElem?_empty
    · intro e _ _
      exact ExtTreeMap.getElem?_empty
  placed := fun _ h => absurd rfl h

noncomputable abbrev smallStep (tick : Tick) :
    Client × Cluster → BlockOp → (Client × Cluster) × Except Error (Option Bytes) :=
  blockStep (jsonExternals volumeBlake3) .checked (fun _ => tick) noCode smallVolume

/-- In the small volume, while nothing fails, a write is answered Ok. -/
abbrev SmallAnswered : Client × Cluster → BlockOp → Prop :=
  Answered (jsonExternals volumeBlake3) .checked (fun _ => calmTick) noCode smallVolume

theorem settled_small : Settled smallCache smallClient := ⟨rfl, Nat.zero_le _⟩

theorem within_small (h : op.start + op.count smallVolume ≤ 2) :
    op.Within smallVolume (· = 0) := by
  have htwo : smallVolume.extentBlocks = 2 := by decide
  have hone : smallVolume.blockSize = 1 := rfl
  constructor
  · intro b _ hb
    rw [htwo]
    exact Nat.div_eq_of_lt (by omega)
  · rw [htwo, hone]
    omega

def oneByOne : List BlockOp := [.write (idsFrom 31) 0 [1], .write (idsFrom 41) 1 [2]]

def growing : List BlockOp := [.write (idsFrom 31) 0 [1], .write (idsFrom 41) 0 [1, 2]]

theorem oneByOne_ok : ∀ op ∈ oneByOne, op.Aligned smallVolume ∧ op.Within smallVolume (· = 0) := by
  intro op hop
  rcases List.mem_pair.mp hop with rfl | rfl
  · exact ⟨⟨by decide, by decide, fun _ _ => rfl⟩, within_small (by decide)⟩
  · exact ⟨⟨by decide, by decide, fun _ _ => rfl⟩, within_small (by decide)⟩

theorem growing_ok : ∀ op ∈ growing, op.Aligned smallVolume ∧ op.Within smallVolume (· = 0) := by
  intro op hop
  rcases List.mem_pair.mp hop with rfl | rfl
  · exact ⟨⟨by decide, by decide, fun _ _ => rfl⟩, within_small (by decide)⟩
  · exact ⟨⟨by decide, by decide, fun _ _ => rfl⟩, within_small (by decide)⟩

theorem growing_whole : ∀ pre op post, growing = pre ++ op :: post →
    WholeExtents smallVolume pre op := by
  intro pre op post heq
  rcases pre with _ | ⟨first, _ | ⟨second, pre⟩⟩
  · cases heq
    exact ⟨by decide, fun op hop => absurd hop List.not_mem_nil⟩
  · cases heq
    refine ⟨by decide, fun op hop b hw hb => ?_⟩
    obtain rfl := List.mem_singleton.mp hop
    obtain ⟨-, hlt⟩ := hw
    have hone : ([1] : Bytes).length / smallVolume.blockSize = 1 := by decide
    have htwo : ([1, 2] : Bytes).length / smallVolume.blockSize = 2 := by decide
    omega
  · simp [growing] at heq

/-! ## 5. Read after write -/

/-- **Read after write.**  On a healthy cluster, after any run of reads and writes of whole
blocks in which every write is answered Ok and is made of whole extents, a read of whole blocks
returns for each block the bytes of the last write that covered it, and zeros for a block no
write covered. -/
theorem read_after_write (x : Externals) (ovf : Overflow) (world : Nat → Tick) (rs : ReedSolomon)
    (cfg : VolumeConfig) (cache : MetadataCache) (used : Nat → Prop)
    (hset : Setting x world cfg cache used) (c : Client) (cl : Cluster) (ops : List BlockOp)
    (hops : ∀ op ∈ ops, op.Aligned cfg ∧ op.Within cfg used) (hc : Settled cache c)
    (hids : (opIds cfg ops).Nodup) (hcl : Good x cfg cache used (opIds cfg ops) (fun _ => none) cl)
    (hans : Along (blockStep x ovf world rs cfg) (Answered x ovf world rs cfg) (c, cl) ops)
    (hwhole : ∀ pre op post, ops = pre ++ op :: post → WholeExtents cfg pre op)
    (env : IoEnv) (start count : Nat) (hread : (BlockOp.read env start count).Aligned cfg)
    (hused : (BlockOp.read env start count).Within cfg used) :
    (blockStep x ovf world rs cfg (runState (blockStep x ovf world rs cfg) (c, cl) ops)
        (.read env start count)).2
      = .ok (some (BlockDevice.read (device cfg ops) start count)) := by
  have hagree : blockWindow cfg (table cfg ops) = device cfg ops :=
    funext (agrees_table hset.blockSize_pos (fun op hop => (hops op hop).1.wholeBlocks) hwhole)
  rw [read_of_run hset hops hc hids hcl hans hread hused, hagree]

theorem read_after_write_growing :
    (smallStep calmTick (runState (smallStep calmTick) (smallClient, smallCluster) growing)
      (.read (idsFrom 51) 0 2)).2 = .ok (some [1, 2]) := by
  have hids : (opIds smallVolume growing).Nodup := by decide
  exact read_after_write _ _ _ _ _ smallCache (· = 0) setting_small _ _ growing growing_ok
    settled_small hids (good_small _)
    (answered_of_ready setting_small growing_ok settled_small ready_small hids (good_small _))
    growing_whole (idsFrom 51) 0 2 Nat.zero_lt_two (within_small (by decide))

/-- **A write to one block of an extent loses the other.**  Both writes are answered Ok, to block
0 and to block 1; the read of the two blocks finds the second write in block 0 and zeros in
block 1. -/
theorem partial_write_loses_block :
    Along (smallStep calmTick) SmallAnswered (smallClient, smallCluster) oneByOne ∧
      (smallStep calmTick (runState (smallStep calmTick) (smallClient, smallCluster) oneByOne)
        (.read (idsFrom 51) 0 2)).2 = .ok (some [2, 0]) ∧
      BlockDevice.read (device smallVolume oneByOne) 0 2 = [1, 2] := by
  have hids : (opIds smallVolume oneByOne).Nodup := by decide
  have hans : Along (smallStep calmTick) SmallAnswered (smallClient, smallCluster) oneByOne :=
    answered_of_ready setting_small oneByOne_ok settled_small ready_small hids (good_small _)
  refine ⟨hans, ?_, by decide⟩
  rw [read_of_run setting_small oneByOne_ok settled_small hids (good_small _) hans
    Nat.zero_lt_two (within_small (by decide))]
  decide

end Blockyard.Ublk
