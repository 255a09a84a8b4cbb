/-
# How a write is cut into chunks

`blockyard-ublk`, `block_handler.rs`: `handle_write` cuts a request at extent boundaries and sends
the pieces one after another.  The loop computes as it goes; this file separates the two things it
does:

* the PLAN (`planChunks`): the chunks the loop would send if all of them went through, which depends
  on the request alone;
* the DISPATCH (`dispatched`): what it does send, chunk by chunk, until one fails.

`write_splitting_exact` says that the plan of an aligned request is an exact one: the chunks follow
each other without gap or overlap, stay inside their extents, carry their own blocks' bytes, and are
no more than the extents that the request touches.  What is dispatched follows the plan from its
start, all of it when the request succeeds, and nothing behind a chunk that failed.
-/
import Blockyard.Lib.Until
import Blockyard.Ublk.ReadAfterWrite

open Std Until

namespace Blockyard.Ublk

open Storage (jsonExternals)

/-! ## 1. The plan of a request -/

/-- One piece of a write: a block range and its bytes. -/
structure Chunk where
  startBlock : Nat
  endBlock : Nat
  data : Bytes
  deriving DecidableEq

/-- The chunks the loop of `handle_write` makes, round by round. -/
def planChunks (cfg : VolumeConfig) (data : Bytes) (endBlock : Nat) :
    (fuel offset currentBlock : Nat) → List Chunk
  | 0, _, _ => []
  | fuel + 1, offset, currentBlock =>
    if currentBlock < endBlock then
      let chunkEnd := chunkEnd cfg.extentBlocks currentBlock endBlock
      let byteLen := min ((chunkEnd - currentBlock) * cfg.blockSize) (data.length - offset)
      ⟨currentBlock, chunkEnd, (data.drop offset).take byteLen⟩ ::
        planChunks cfg data endBlock fuel (offset + byteLen) chunkEnd
    else []

/-- Consecutive, non-empty block ranges from one block to another. -/
inductive Tiles (stop : Nat) : Nat → List Chunk → Prop
  | nil : Tiles stop stop []
  | cons (chunk : Chunk) {rest : List Chunk} (hpos : chunk.startBlock < chunk.endBlock)
      (hrest : Tiles stop chunk.endBlock rest) : Tiles stop chunk.startBlock (chunk :: rest)

/-- **An exact split** of the bytes of a block range. -/
structure ExactSplit (cfg : VolumeConfig) (start stop : Nat) (data : Bytes) (chunks : List Chunk) :
    Prop where
  tiles : Tiles stop start chunks
  inside : ∀ chunk ∈ chunks,
    chunk.startBlock / cfg.extentBlocks = (chunk.endBlock - 1) / cfg.extentBlocks
  sized : ∀ chunk ∈ chunks,
    chunk.data.length = (chunk.endBlock - chunk.startBlock) * cfg.blockSize
  content : (chunks.map Chunk.data).flatten = data
  /-- No more rounds than extents that the range touches. -/
  rounds : chunks.length ≤ ((Finset.Ico start stop).image (· / cfg.extentBlocks)).card

theorem ExactSplit.nil (cfg : VolumeConfig) (stop : Nat) : ExactSplit cfg stop stop [] [] where
  tiles := .nil
  inside := by simp
  sized := by simp
  content := rfl
  rounds := by simp

theorem chunkEnd_le (extentBlocks current stop : Nat) :
    chunkEnd extentBlocks current stop ≤ stop := Nat.min_le_right _ _

theorem chunkEnd_sub_one_div {extentBlocks current stop : Nat} (hpos : 0 < extentBlocks)
    (h : current < stop) :
    current / extentBlocks = (chunkEnd extentBlocks current stop - 1) / extentBlocks := by
  have hlt : current < chunkEnd extentBlocks current stop := lt_chunkEnd hpos h
  have hle : chunkEnd extentBlocks current stop ≤ (current / extentBlocks + 1) * extentBlocks :=
    Nat.min_le_left _ _
  refine Nat.le_antisymm (Nat.div_le_div_right (by omega)) (Nat.lt_add_one_iff.mp ?_)
  exact (Nat.div_lt_iff_lt_mul hpos).mpr (by omega)

/-- What is left behind a chunk lies in other extents. -/
theorem lt_div_of_chunkEnd_le {extentBlocks current stop block : Nat} (hpos : 0 < extentBlocks)
    (hblock : chunkEnd extentBlocks current stop ≤ block) (hstop : block < stop) :
    current / extentBlocks < block / extentBlocks := by
  have hend : (current / extentBlocks + 1) * extentBlocks ≤ block := by
    rw [chunkEnd] at hblock
    omega
  exact (Nat.le_div_iff_mul_le hpos).mpr hend

/-- One more chunk in front of an exact split. -/
theorem ExactSplit.cons {cfg : VolumeConfig} {current stop : Nat} (bytes : Bytes) {rest : Bytes}
    {chunks : List Chunk} (hlt : current < stop)
    (hbytes : bytes.length
      = (chunkEnd cfg.extentBlocks current stop - current) * cfg.blockSize)
    (h : ExactSplit cfg (chunkEnd cfg.extentBlocks current stop) stop rest chunks) :
    ExactSplit cfg current stop (bytes ++ rest)
      (⟨current, chunkEnd cfg.extentBlocks current stop, bytes⟩ :: chunks) where
  tiles := .cons ⟨current, _, bytes⟩ (lt_chunkEnd (extentBlocks_pos cfg) hlt) h.tiles
  inside := List.forall_mem_cons.mpr
    ⟨chunkEnd_sub_one_div (extentBlocks_pos cfg) hlt, h.inside⟩
  sized := List.forall_mem_cons.mpr ⟨hbytes, h.sized⟩
  content := by rw [List.map_cons, List.flatten_cons, h.content]
  rounds := by
    -- The extent of the new chunk is none of those behind it.
    have hnew : current / cfg.extentBlocks ∉
        (Finset.Ico (chunkEnd cfg.extentBlocks current stop) stop).image
          (· / cfg.extentBlocks) := by
      intro hmem
      obtain ⟨block, hblock, heq⟩ := Finset.mem_image.mp hmem
      obtain ⟨hle, hstop⟩ := Finset.mem_Ico.mp hblock
      exact absurd heq (Nat.ne_of_gt (lt_div_of_chunkEnd_le (extentBlocks_pos cfg) hle hstop))
    have hsub : insert (current / cfg.extentBlocks)
        ((Finset.Ico (chunkEnd cfg.extentBlocks current stop) stop).image (· / cfg.extentBlocks))
          ⊆ (Finset.Ico current stop).image (· / cfg.extentBlocks) := by
      refine Finset.insert_subset ?_ (Finset.image_subset_image ?_)
      · exact Finset.mem_image.mpr ⟨current, Finset.mem_Ico.mpr ⟨Nat.le_refl _, hlt⟩, rfl⟩
      · exact Finset.Ico_subset_Ico_left (Nat.le_of_lt (lt_chunkEnd (extentBlocks_pos cfg) hlt))
    calc (_ :: chunks).length
        = chunks.length + 1 := rfl
      _ ≤ ((Finset.Ico (chunkEnd cfg.extentBlocks current stop) stop).image
            (· / cfg.extentBlocks)).card + 1 := Nat.add_le_add_right h.rounds 1
      _ = (insert (current / cfg.extentBlocks) ((Finset.Ico (chunkEnd cfg.extentBlocks current stop)
            stop).image (· / cfg.extentBlocks))).card := (Finset.card_insert_of_notMem hnew).symm
      _ ≤ ((Finset.Ico current stop).image (· / cfg.extentBlocks)).card := Finset.card_le_card hsub

/-- **The plan is exact**, from any round on: the bytes that are left are those of the blocks that
are left. -/
theorem exactSplit_planChunks (cfg : VolumeConfig) (data : Bytes) {stop : Nat} (fuel : Nat) :
    ∀ offset current, current ≤ stop → stop - current ≤ fuel →
      data.length - offset = (stop - current) * cfg.blockSize →
      ExactSplit cfg current stop (data.drop offset)
        (planChunks cfg data stop fuel offset current) := by
  induction fuel with
  | zero =>
    intro offset current hle hfuel hlen
    obtain rfl : current = stop := by omega
    rw [Nat.sub_self, Nat.zero_mul] at hlen
    rw [List.drop_eq_nil_of_le (by omega)]
    exact ExactSplit.nil cfg current
  | succ fuel ih =>
    intro offset current hle hfuel hlen
    rw [planChunks]
    by_cases hlt : current < stop
    · have hstart : current < chunkEnd cfg.extentBlocks current stop :=
        lt_chunkEnd (extentBlocks_pos cfg) hlt
      have hend : chunkEnd cfg.extentBlocks current stop ≤ stop := chunkEnd_le _ _ _
      have hsum := chunk_add_rest (Nat.le_of_lt hstart) hend hlen
      have hbytes : min ((chunkEnd cfg.extentBlocks current stop - current) * cfg.blockSize)
          (data.length - offset)
            = (chunkEnd cfg.extentBlocks current stop - current) * cfg.blockSize := by
        omega
      have hrest := ih (offset + (chunkEnd cfg.extentBlocks current stop - current) * cfg.blockSize)
        (chunkEnd cfg.extentBlocks current stop) hend (by omega) (by omega)
      rw [if_pos hlt]
      dsimp only
      rw [hbytes]
      have hcons := ExactSplit.cons ((data.drop offset).take
        ((chunkEnd cfg.extentBlocks current stop - current) * cfg.blockSize)) hlt
        (by rw [List.length_take, List.length_drop]; omega) hrest
      rwa [← List.drop_drop, List.take_append_drop] at hcons
    · obtain rfl : current = stop := by omega
      rw [Nat.sub_self, Nat.zero_mul] at hlen
      rw [if_neg hlt, List.drop_eq_nil_of_le (by omega)]
      exact ExactSplit.nil cfg current

/-! ## 2. The dispatch -/

section

variable {σ : Type} (plane : DataPlane σ) (blake3 : Bytes → BitVec 256) (rs : ReedSolomon)
  (cfg : VolumeConfig)

/-- One round of the loop; the chunk's number picks its environment. -/
def sendChunk (env : Nat → ChunkEnv) (now : Client × σ) (numbered : Chunk × Nat) :
    (Client × σ) × Option Error :=
  match writeChunk plane blake3 rs cfg (env numbered.2) now.1 now.2 numbered.1.startBlock
      numbered.1.data with
  | (c, s, .error e) => ((c, s), some e)
  | (c, s, .ok ()) => ((c, s), none)

/-- **The loop sends its plan.** -/
theorem writeLoop_eq_untilStop (env : Nat → ChunkEnv) (data : Bytes) (endBlock fuel : Nat) :
    ∀ (i offset currentBlock : Nat) (c : Client) (s : σ),
      writeLoop plane blake3 rs cfg env data endBlock fuel i offset currentBlock c s
        = match untilStop (sendChunk plane blake3 rs cfg env) (c, s)
            ((planChunks cfg data endBlock fuel offset currentBlock).zipIdx i) with
          | ((c, s), some e) => (c, s, .error e)
          | ((c, s), none) => (c, s, .ok ()) := by
  induction fuel with
  | zero =>
    intro i offset currentBlock c s
    rfl
  | succ fuel ih =>
    intro i offset currentBlock c s
    rw [writeLoop, planChunks]
    by_cases hlt : currentBlock < endBlock
    · rw [if_pos hlt, if_pos hlt]
      dsimp only
      rw [List.zipIdx_cons, untilStop, sendChunk]
      dsimp only
      generalize writeChunk plane blake3 rs cfg (env i) c s currentBlock _ = sent
      rcases sent with ⟨c₁, s₁, e | _⟩
      · rfl
      · exact ih _ _ _ _ _
    · rw [if_neg hlt, if_neg hlt]
      rfl

/-- The chunks `handle_write` dispatches, each with the state it found and the state it left, and
with its error if it failed. -/
def dispatched (env : IoEnv) (c : Client) (s : σ) (request : IoRequest) :
    List (Visit (Chunk × Nat) (Client × σ) Error) :=
  if c.leaseState ≠ .active then []
  else
    match c.checkWriteAllowed with
    | .error _ => []
    | .ok _ =>
      let (startBlock, endBlock) := request.blockRange cfg.blockSize
      match request.data with
      | none => []
      | some data =>
        visits (sendChunk plane blake3 rs cfg env.chunk) (c, s)
          (planChunks cfg data endBlock (endBlock - startBlock) 0 startBlock).zipIdx

/-- **What is dispatched, against a plan.** -/
structure Dispatches (env : IoEnv) (c : Client) (s : σ) (request : IoRequest)
    (chunks : List Chunk) : Prop where
  follows : (dispatched plane blake3 rs cfg env c s request).map (·.item.1) <+: chunks
  /-- A dispatch is the chunk's way through the pipeline of the volume's policy. -/
  sent : ∀ v ∈ dispatched plane blake3 rs cfg env c s request,
    sendChunk plane blake3 rs cfg env.chunk v.before v.item = (v.after, v.stopped)
  /-- Each begins where the one before it ended, and `handle_write` ends where the last one did. -/
  leads : LeadsTo (c, s) (dispatched plane blake3 rs cfg env c s request)
    ((handleWrite plane blake3 rs cfg env c s request).1,
      (handleWrite plane blake3 rs cfg env c s request).2.1)
  complete : (handleWrite plane blake3 rs cfg env c s request).2.2 = .ok none →
    (dispatched plane blake3 rs cfg env c s request).map (·.item.1) = chunks
  failed : ∀ v ∈ dispatched plane blake3 rs cfg env c s request, ∀ e, v.stopped = some e →
    handleWrite plane blake3 rs cfg env c s request = (v.after.1, v.after.2, .error e)
  /-- Nothing is sent behind a chunk that failed. -/
  stops : ∀ earlier v later,
    dispatched plane blake3 rs cfg env c s request = earlier ++ v :: later →
    v.stopped.isSome → later = []

variable {env : IoEnv} {c : Client} {s : σ} {request : IoRequest}

theorem Dispatches.of_refused (chunks : List Chunk) {e : Error}
    (herror : handleWrite plane blake3 rs cfg env c s request = (c, s, .error e))
    (hempty : dispatched plane blake3 rs cfg env c s request = []) :
    Dispatches plane blake3 rs cfg env c s request chunks := by
  refine ⟨?_, ?_, ?_, ?_, ?_, ?_⟩
  · rw [hempty]
    exact List.nil_prefix
  · simp [hempty]
  · rw [hempty, herror]
    exact rfl
  · intro hok
    rw [herror] at hok
    cases hok
  · simp [hempty]
  · simp [hempty]

/-- A request whose chunks are sent one after the other, until one fails. -/
theorem Dispatches.of_visits {chunks : List Chunk}
    (hsent : dispatched plane blake3 rs cfg env c s request
      = visits (sendChunk plane blake3 rs cfg env.chunk) (c, s) chunks.zipIdx)
    (hresult : handleWrite plane blake3 rs cfg env c s request
      = match untilStop (sendChunk plane blake3 rs cfg env.chunk) (c, s) chunks.zipIdx with
        | ((c, s), some e) => (c, s, .error e)
        | ((c, s), none) => (c, s, .ok none)) :
    Dispatches plane blake3 rs cfg env c s request chunks := by
  have hitems : (visits (sendChunk plane blake3 rs cfg env.chunk) (c, s) chunks.zipIdx).map
      (·.item.1) = ((visits (sendChunk plane blake3 rs cfg env.chunk) (c, s)
        chunks.zipIdx).map Visit.item).map Prod.fst := by
    rw [List.map_map]
    rfl
  refine ⟨?_, ?_, ?_, ?_, ?_, ?_⟩
  · rw [hsent, hitems]
    have hprefix := (items_visits (sendChunk plane blake3 rs cfg env.chunk) (c, s)
      chunks.zipIdx).map Prod.fst
    rwa [List.zipIdx_map_fst] at hprefix
  · intro v hv
    rw [hsent] at hv
    exact step_of_mem_visits hv
  · have hleads := leadsTo_visits (sendChunk plane blake3 rs cfg env.chunk) (c, s) chunks.zipIdx
    rw [hsent, hresult]
    rcases hloop : untilStop (sendChunk plane blake3 rs cfg env.chunk) (c, s) chunks.zipIdx with
      ⟨⟨c₁, s₁⟩, _ | e⟩ <;>
    · rw [hloop] at hleads
      exact hleads
  · intro hok
    rw [hsent, hitems]
    rcases hloop : untilStop (sendChunk plane blake3 rs cfg env.chunk) (c, s) chunks.zipIdx with
      ⟨⟨c₁, s₁⟩, _ | e⟩
    · rw [visits_of_exhausted hloop, List.zipIdx_map_fst]
    · rw [hresult, hloop] at hok
      cases hok
  · intro v hv e he
    rw [hsent] at hv
    rw [hresult, untilStop_of_stopped hv he]
  · intro earlier v later hsplit hstopped
    rw [hsent] at hsplit
    exact visits_stopped_last hsplit hstopped

/-- **`handle_write` dispatches the plan of the request.** -/
theorem dispatches_planChunks (env : IoEnv) (c : Client) (s : σ)
    {data : Bytes} (hdata : request.data = some data) :
    Dispatches plane blake3 rs cfg env c s request
      (planChunks cfg data (request.blockRange cfg.blockSize).2
        ((request.blockRange cfg.blockSize).2 - (request.blockRange cfg.blockSize).1) 0
        (request.blockRange cfg.blockSize).1) := by
  generalize hchunks : planChunks cfg data (request.blockRange cfg.blockSize).2
    ((request.blockRange cfg.blockSize).2 - (request.blockRange cfg.blockSize).1) 0
    (request.blockRange cfg.blockSize).1 = chunks
  by_cases hlease : c.leaseState = .active
  · cases hallowed : c.checkWriteAllowed with
    | error e =>
      refine .of_refused plane blake3 rs cfg chunks (e := e) ?_ ?_
      · simp [handleWrite, hlease, hallowed]
      · simp [dispatched, hlease, hallowed]
    | ok version =>
      refine .of_visits plane blake3 rs cfg ?_ ?_
      · simp [dispatched, hlease, hallowed, hdata, hchunks]
      · simp only [handleWrite, hlease, hallowed, hdata, writeLoop_eq_untilStop, hchunks, ne_eq,
          not_true_eq_false, if_false]
        rcases untilStop (sendChunk plane blake3 rs cfg env.chunk) (c, s) chunks.zipIdx with
          ⟨⟨c₁, s₁⟩, _ | e⟩ <;> rfl
  · refine .of_refused plane blake3 rs cfg chunks (e := .auth "write lease not active") ?_ ?_
    · simp [handleWrite, hlease]
    · simp [dispatched, hlease]

end

/-! ## 3. The split of a request -/

variable {stop start : Nat} {chunks : List Chunk}

theorem Tiles.le (h : Tiles stop start chunks) : start ≤ stop := by
  induction h with
  | nil => exact Nat.le_refl _
  | cons _ hpos _ ih => omega

theorem Tiles.start_lt (h : Tiles stop start chunks) :
    ∀ chunk ∈ chunks, chunk.startBlock < stop := by
  induction h with
  | nil => simp
  | cons _ hpos hrest ih =>
    refine List.forall_mem_cons.mpr ⟨?_, ih⟩
    have := hrest.le
    omega

/-- The number of blocks of an extent is at most its size in bytes. -/
theorem extentBlocks_le (cfg : VolumeConfig) : cfg.extentBlocks ≤ max cfg.extentSize 1 :=
  max_le_max (Nat.div_le_self _ _) (Nat.le_refl _)

/-- **Write splitting is exact.**  The numbers of the loop stay within `u64`: the boundary behind
each chunk does, and no other number of a round is larger. -/
theorem write_splitting_exact {σ : Type} (plane : DataPlane σ) (blake3 : Bytes → BitVec 256)
    (rs : ReedSolomon) (cfg : VolumeConfig) (env : IoEnv) (c : Client) (s : σ)
    (request : IoRequest) (data : Bytes) (hpos : 0 < cfg.blockSize)
    (hoffset : cfg.blockSize ∣ request.offsetBytes) (hlength : cfg.blockSize ∣ request.lengthBytes)
    (hdata : request.data = some data) (hsize : data.length = request.lengthBytes)
    (hend : request.offsetBytes + request.lengthBytes < 2 ^ 63)
    (hextent : cfg.extentSize < 2 ^ 63) :
    ∃ chunks, ExactSplit cfg (request.blockRange cfg.blockSize).1
        (request.blockRange cfg.blockSize).2 data chunks ∧
      (∀ chunk ∈ chunks,
        (chunk.startBlock / cfg.extentBlocks + 1) * cfg.extentBlocks < 2 ^ 64) ∧
      Dispatches plane blake3 rs cfg env c s request chunks := by
  obtain ⟨start, hstart⟩ := hoffset
  obtain ⟨count, hcount⟩ := hlength
  rw [Nat.mul_comm] at hstart hcount
  have hrange : request.blockRange cfg.blockSize = (start, start + count) :=
    blockRange_aligned hpos hstart hcount
  have hplan := dispatches_planChunks plane blake3 rs cfg env c s hdata
  rw [hrange] at hplan ⊢
  have hexact : ExactSplit cfg start (start + count) data
      (planChunks cfg data (start + count) (start + count - start) 0 start) := by
    refine exactSplit_planChunks cfg data _ 0 start (Nat.le_add_right _ _) (Nat.le_refl _) ?_
    rw [Nat.add_sub_cancel_left, Nat.sub_zero, hsize, hcount]
  refine ⟨_, hexact, fun chunk hchunk => ?_, hplan⟩
  have hblock : chunk.startBlock < start + count := hexact.tiles.start_lt chunk hchunk
  have hbytes : start + count ≤ request.offsetBytes + request.lengthBytes := by
    rw [hstart, hcount, ← Nat.add_mul]
    exact Nat.le_mul_of_pos_right _ hpos
  have hblocks := extentBlocks_le cfg
  have hfloor := Nat.div_mul_le_self chunk.startBlock cfg.extentBlocks
  rw [Nat.add_mul, Nat.one_mul]
  omega

theorem write_splitting_exact_across_extents :
    ∃ chunks, ExactSplit smallVolume 1 5 [1, 2, 3, 4] chunks ∧
      (∀ chunk ∈ chunks,
        (chunk.startBlock / smallVolume.extentBlocks + 1) * smallVolume.extentBlocks < 2 ^ 64) ∧
      Dispatches (tcpPlane (jsonExternals volumeBlake3) .checked fun _ => calmTick) volumeBlake3
        noCode smallVolume (idsFrom 0) smallClient smallCluster
        (blockWrite smallVolume 1 [1, 2, 3, 4]) chunks :=
  write_splitting_exact _ _ _ smallVolume _ _ _ (blockWrite smallVolume 1 [1, 2, 3, 4])
    [1, 2, 3, 4] (by decide) (by decide) (by decide) rfl rfl (by decide) (by decide)

example : planChunks smallVolume [1, 2, 3, 4] 5 4 0 1
    = [⟨1, 2, [1]⟩, ⟨2, 4, [2, 3]⟩, ⟨4, 5, [4]⟩] := by
  decide

end Blockyard.Ublk
