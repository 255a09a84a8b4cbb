/-
# Any K fragments are enough

M fragments of a stripe may be missing: the codec of `ec.rs` decodes what is left, the write
pipeline makes the same fragments, and a block of an erasure-coded volume is read back whichever
M of its nodes do not answer.
-/
import Blockyard.Ublk.EcReadAfterWrite

open Std CrashFs Blockyard.Client

namespace Blockyard.Ublk

open Storage

section Volume

variable {σ : Type} {plane : DataPlane σ} {blake3 : Bytes → BitVec 256} {up : NodeId → Bool}
  {Shows : View → σ → Prop} {v : View} {rs : ReedSolomon} {cfg : VolumeConfig}
  {cache : MetadataCache} {k m start count : Nat} {c : Client} {s : σ}

theorem writeLoop_done {env : Nat → ChunkEnv} {data : Bytes} {endBlock current : Nat}
    (h : endBlock ≤ current) (fuel i offset : Nat) :
    writeLoop plane blake3 rs cfg env data endBlock fuel i offset current c s = (c, s, .ok ()) := by
  cases fuel with
  | zero => rfl
  | succ fuel => rw [writeLoop, if_neg (Nat.not_lt.mpr h)]

/-- **A write of the first blocks of an extent** is one chunk, stored as one stripe. -/
theorem handleWrite_single
    (h : Serves plane blake3 (ecScope blake3 cfg cache (· = start)) (fun _ => true) up Shows)
    (hvol : EcVolume cfg cache k m) (hlaw : rs.Lawful k m) (hc : Settled cache c) (ha : Armed c)
    {env : IoEnv} {data : Bytes} (hstart : start % cfg.extentBlocks = 0) (hcount : 0 < count)
    (hfit : count ≤ cfg.extentBlocks) (hdata : data.length = count * cfg.blockSize)
    (hfresh : ∀ n ∈ cache.listNodes, v.fresh n (env.chunk 0).operationId) (hs : Shows v s) :
    ∃ c' s' v', handleWrite plane blake3 rs cfg env c s (blockWrite cfg start data)
        = (c', s', .ok none) ∧ Settled cache c' ∧ Shows v' s' ∧
      StripeHeld rs k m v' (stripeNodes blake3 cfg cache (k + m) start) (stripeId blake3 cfg start)
        (some data) := by
  have hne : data ≠ [] := by
    rw [← List.length_pos_iff_ne_nil, hdata]
    exact Nat.mul_pos hcount hvol.blockSize_pos
  obtain ⟨word, hword⟩ := hlaw.exists_encodes hvol.dataChunks_pos hne
  obtain ⟨s', v', heq, hs', hsent⟩ := writeChunk_stored hvol hc.same ha.running hlaw.new hne hword
    ⟨start, rfl, rfl⟩ hfresh hs h
  refine ⟨c.advance cache.epoch, s', v', ?_, hc.advance, hs', hsent.stripeHeld hvol hne hword⟩
  -- the first round of the loop takes all the data, the second finds nothing left
  have hend : chunkEnd cfg.extentBlocks start (start + count) = start + count := by
    rw [chunkEnd_aligned hstart]
    omega
  have hloop : writeLoop plane blake3 rs cfg env.chunk data (start + count) count 0 0 start c s
      = (c.advance cache.epoch, s', .ok ()) := by
    obtain ⟨rounds, rfl⟩ : ∃ rounds, count = rounds + 1 := ⟨count - 1, by omega⟩
    rw [writeLoop, if_pos (by omega)]
    dsimp only
    rw [hend, Nat.add_sub_cancel_left, Nat.sub_zero, ← hdata, Nat.min_self, List.drop_zero,
      List.take_length, heq]
    exact writeLoop_done le_rfl _ _ _
  exact handleWrite_of_loop rs hvol.blockSize_pos ha.lease ha.version hdata hloop

/-- **A block of a stripe in place** is read back when at most M of its nodes do not answer. -/
theorem handleRead_single {acks : NodeId → Bool}
    (h : Serves plane blake3 (ecScope blake3 cfg cache (· = start)) acks up Shows)
    (hvol : EcVolume cfg cache k m) (hlaw : rs.Lawful k m) (hc : Settled cache c) {data : Bytes}
    (hstart : start % cfg.extentBlocks = 0) (hfit : count ≤ cfg.extentBlocks)
    (hdata : data.length = count * cfg.blockSize)
    (hheld : StripeHeld rs k m v (stripeNodes blake3 cfg cache (k + m) start)
      (stripeId blake3 cfg start) (some data))
    (hup : (stripeNodes blake3 cfg cache (k + m) start).countP (fun n => !up n) ≤ m) {b : Nat}
    (hb : start ≤ b) (hb' : b < start + count) (env : IoEnv) (hs : Shows v s) :
    ∃ s', handleRead plane blake3 rs cfg env c s (blockRead cfg b 1)
        = (c, s', .ok (some (BlockDevice.slice cfg.blockSize data (b - start)))) := by
  have haligned : alignedStart cfg b = start := by
    have hcur := Nat.div_add_mod start cfg.extentBlocks
    rw [hstart, Nat.add_zero, Nat.mul_comm] at hcur
    have hdiv : b / cfg.extentBlocks = start / cfg.extentBlocks := by
      refine Nat.div_eq_of_lt_le (by omega) ?_
      rw [Nat.add_mul, Nat.one_mul]
      omega
    rw [alignedStart, hdiv, hcur]
  rw [← haligned] at hheld hup
  obtain ⟨s', heq, -⟩ := readEcBlockData_held h hvol hlaw hc.same (fun _ hn => hn) hheld
    ⟨start, rfl, by rw [haligned]⟩ hup (env.fragmentOrder b) hs
  refine ⟨s', ?_⟩
  rw [handleRead_ecBlock plane blake3 rs hvol.policy hvol.blockSize_pos
    (freshClient_settled hc env), heq, haligned, Option.getD_some]
  -- the block lies inside the payload
  have hin : (b - start + 1) * cfg.blockSize ≤ data.length := by
    rw [hdata]
    exact Nat.mul_le_mul_right _ (by omega)
  rw [resize_drop hin]
  rfl

end Volume

/-- **Any K fragments are enough.**  Decoding what is left of the fragments of data, at most M of
them missing, gives back the data; `encode_data` makes the same fragments.  A write of the first
blocks of an extent that every node of the stripe acknowledges can be read back block by block,
whichever nodes of the stripe, at most M of them, do not answer. -/
theorem any_k_fragments_suffice (rs : ReedSolomon) (k m : Nat) (hk : 1 ≤ k) (hm : 1 ≤ m)
    (hlaw : rs.Lawful k m) :
    (∃ codec, ErasureCodec.new rs k m = .ok codec ∧ ∀ data : Bytes, data ≠ [] →
      ∃ fragments, codec.encode data = .ok fragments ∧ fragments.length = k + m ∧
        encodeData rs data k m
          = .ok ⟨fragments.map fun f => ⟨f.index, f.isData, f.data⟩, data.length⟩ ∧
        ∀ slots, Remains fragments slots → slots.countP Option.isNone ≤ m →
          codec.decode slots data.length = .ok data) ∧
    ∀ (σ : Type) (plane : DataPlane σ) (blake3 : Bytes → BitVec 256) (cfg : VolumeConfig)
      (cache : MetadataCache) (up : NodeId → Bool) (Shows : View → σ → Prop) (v : View) (c : Client)
      (s : σ) (env : IoEnv) (start count : Nat) (data : Bytes), EcVolume cfg cache k m →
      Serves plane blake3 (ecScope blake3 cfg cache (· = start)) (fun _ => true) up Shows →
      (stripeNodes blake3 cfg cache (k + m) start).countP (fun n => !up n) ≤ m →
      Settled cache c → Armed c → start % cfg.extentBlocks = 0 → 0 < count →
      count ≤ cfg.extentBlocks → data.length = count * cfg.blockSize →
      (start + count + cfg.extentBlocks) * cfg.blockSize < 2 ^ 64 →
      (∀ n ∈ cache.listNodes, v.fresh n (env.chunk 0).operationId) → Shows v s →
      ∃ c' s', handleIo plane blake3 rs cfg env c s (blockWrite cfg start data)
          = (c', s', .ok none) ∧
        ∀ b, start ≤ b → b < start + count → ∀ env', ∃ s'',
          handleIo plane blake3 rs cfg env' c' s' (blockRead cfg b 1)
            = (c', s'', .ok (some (BlockDevice.slice cfg.blockSize data (b - start)))) := by
  constructor
  · refine ⟨_, ErasureCodec.new_eq hlaw hk hm, fun data hdata => ?_⟩
    obtain ⟨word, hword⟩ := hlaw.exists_encodes hk hdata
    refine ⟨_, ErasureCodec.encode_eq _ hword hdata, ?_, ?_, fun slots hslots hholes => ?_⟩
    · rw [ErasureCodec.fragmentsOf, List.length_map, List.length_zipIdx, hword.shards.length]
    · rw [hword.encodeData hlaw.new hdata, ErasureCodec.fragmentsOf, List.map_map]
      rfl
    · exact ErasureCodec.decode_of_remains _ hlaw hword hdata hslots hholes
  · intro σ plane blake3 cfg cache up Shows v c s env start count data hvol hserves hup hc ha hstart
      hcount hfit hdata _ hfresh hs
    obtain ⟨c', s', v', heq, hc', hs', hheld⟩ := handleWrite_single hserves hvol hlaw hc ha hstart
      hcount hfit hdata hfresh hs
    exact ⟨c', s', heq, fun b hb hb' env' => handleRead_single hserves hvol hlaw hc' hstart hfit
      hdata hheld hup hb hb' env' hs'⟩

/-- The theorem at the paired volume: node 2, with the data fragment, does not answer. -/
theorem any_k_fragments_suffice_paired :
    (∃ codec, ErasureCodec.new copyCode 1 1 = .ok codec ∧
      ∃ fragments, codec.encode [1, 2] = .ok fragments ∧
        codec.decode [none, fragments[1]?] 2 = .ok [1, 2]) ∧
      ∃ c' s', handleIo ((tcpPlane (jsonExternals stripeBlake3) .checked fun _ => calmTick).cutOff
            (fun _ => true) (· ≠ ⟨2#128⟩)) stripeBlake3 copyCode pairedVolume (idsFrom 31)
            pairedClient pairedCluster (blockWrite pairedVolume 0 [1, 2]) = (c', s', .ok none) ∧
        ∃ s'', handleIo ((tcpPlane (jsonExternals stripeBlake3) .checked fun _ => calmTick).cutOff
            (fun _ => true) (· ≠ ⟨2#128⟩)) stripeBlake3 copyCode pairedVolume (idsFrom 41) c' s'
            (blockRead pairedVolume 1 1) = (c', s'', .ok (some [2])) := by
  obtain ⟨⟨codec, hnew, hcodec⟩, hvolume⟩ := any_k_fragments_suffice copyCode 1 1 le_rfl le_rfl
    (copyCode_lawful ⟨le_rfl, by decide⟩)
  constructor
  · obtain ⟨fragments, hencode, hlen, -, hdecode⟩ := hcodec [1, 2] (by decide)
    refine ⟨codec, hnew, fragments, hencode, hdecode _ ?_ (by simp [hlen])⟩
    obtain ⟨first, second, rfl⟩ := List.length_eq_two.mp hlen
    exact .cons (Or.inl rfl) (.cons (Or.inr rfl) .nil)
  · obtain ⟨c', s', hwrite, hread⟩ := hvolume _ _ _ _ pairedCache (· ≠ ⟨2#128⟩) _ _ pairedClient
      pairedCluster (idsFrom 31) 0 2 [1, 2] ecVolume_paired
      ((serves_tcpPlane (fun _ => quiet_calmTick) .checked).cutOff _ _) (by decide) settled_paired
      armed_paired rfl (by decide) (by decide) rfl (by decide) (fun _ _ => trivial)
      (clusterShows_paired _)
    exact ⟨c', s', hwrite, hread 1 (by decide) (by decide) (idsFrom 41)⟩

end Blockyard.Ublk
