/-
# Repair of an erasure-coded extent

`repair_ec` of `background/repair.rs`, with `ErasureCodec::decode` as its reconstructor: it gathers
fragments, DECODES them, and writes what it gets.  Decoding yields the payload, not a fragment, and
the request does not even say which fragment is missing.  So a repair that succeeds puts the whole
payload where fragment `i` was (`repair_writes_data`), and restores the stripe exactly when that
fragment happens to be the whole payload (`ec_repair_restores_iff`): with K = 1, say.
-/
import Blockyard.Client.ErasureCodec
import Blockyard.Storage.Repair

namespace Blockyard.Storage

open Client Ublk

/-! ## 1. The reconstructor -/

variable {available : List (Nat × DiskId)} {slots : List (Option Bytes)}

def fragmentSlots (dataCount : Nat) (slots : List (Option Bytes)) : List (Option Fragment) :=
  slots.zipIdx.map fun (slot, i) => slot.map fun data => ⟨i, decide (i < dataCount), data⟩

/-- `EcReconstructor` by `ErasureCodec`: build the codec and decode. -/
def decodeFragments (rs : ReedSolomon) (dataCount parityCount : Nat)
    (fragments : List (Option Bytes)) (originalLen : Nat) : Except String Bytes :=
  match ErasureCodec.new rs dataCount parityCount with
  | .error e => .error (toString e)
  | .ok codec =>
    match codec.decode (fragmentSlots dataCount fragments) originalLen with
    | .error e => .error (toString e)
    | .ok data => .ok data

/-! ## 2. The gathered fragments -/

section Gather

variable {env : RepairEnv} {request : RepairRequest} {total : Nat} {word : List Bytes}

def ReadsIntact (env : RepairEnv) (request : RepairRequest) (word : List Bytes)
    (available : List (Nat × DiskId)) : Prop :=
  ∀ call, ∀ source ∈ available, ∃ fragment, word[source.1]? = some fragment ∧
    env.readFragment call source.2 request.extentId source.1 = .ok fragment

/-- **Each listed fragment comes into its slot**, and the other slots stay. -/
theorem getElem?_gatherFragments (hword : word.length = total)
    (hreads : ReadsIntact env request word available) (call : Nat) (hslots : slots.length = total)
    (n : Nat) :
    (request.gatherFragments env total call slots available)[n]?
      = if n ∈ available.map Prod.fst then some word[n]? else slots[n]? := by
  induction available generalizing call slots with
  | nil => simp [RepairRequest.gatherFragments]
  | cons source available ih =>
    obtain ⟨idx, diskId⟩ := source
    obtain ⟨fragment, hfragment, hread⟩ := hreads call (idx, diskId) List.mem_cons_self
    have hlt : idx < total := hword ▸ (List.getElem?_eq_some_iff.mp hfragment).1
    have hset : (slots.set idx (some fragment)).length = total := by simp [hslots]
    have hrest := ih (fun call source hmem => hreads call source (List.mem_cons_of_mem _ hmem))
      (call + 1) hset
    unfold RepairRequest.gatherFragments
    simp only at hread hfragment
    simp only [hread, hlt, if_true, hrest, List.map_cons, List.mem_cons]
    by_cases hmem : n ∈ available.map Prod.fst
    · simp [hmem]
    · by_cases hn : n = idx
      · subst hn
        simp [hmem, hslots, hlt, hfragment]
      · simp [hmem, hn, List.getElem?_set_ne (Ne.symm hn)]

theorem gatherFragments_eq (hword : word.length = total)
    (hreads : ReadsIntact env request word available) :
    request.gatherFragments env total 0 (List.replicate total none) available
      = (List.range total).map fun n =>
          if n ∈ available.map Prod.fst then word[n]? else none := by
  refine List.ext_getElem? fun n => ?_
  rw [getElem?_gatherFragments hword hreads 0 List.length_replicate, List.getElem?_map]
  by_cases hn : n < total
  · rw [List.getElem?_range hn, List.getElem?_replicate, if_pos hn]
    split <;> simp_all
  · have hout : n ∉ available.map Prod.fst := by
      intro hmem
      obtain ⟨source, hsource, rfl⟩ := List.mem_map.mp hmem
      obtain ⟨fragment, hfragment, -⟩ := hreads 0 source hsource
      exact hn (hword ▸ (List.getElem?_eq_some_iff.mp hfragment).1)
    rw [if_neg hout, List.getElem?_replicate, if_neg hn,
      List.getElem?_eq_none (by simpa using hn)]
    rfl

theorem remains_gatherFragments (hword : word.length = total)
    (hreads : ReadsIntact env request word available) :
    Remains word (request.gatherFragments env total 0 (List.replicate total none) available) := by
  rw [gatherFragments_eq hword hreads]
  refine List.forall₂_iff_get.mpr ⟨by simp [hword], ?_⟩
  intro n hn hn'
  simp only [List.get_eq_getElem, List.getElem_map, List.getElem_range]
  split
  · exact Or.inr (List.getElem?_eq_getElem hn)
  · exact Or.inl rfl

theorem countP_gatherFragments (hword : word.length = total)
    (hreads : ReadsIntact env request word available) :
    (request.gatherFragments env total 0 (List.replicate total none) available).countP
        Option.isNone + (available.map Prod.fst).toFinset.card = total := by
  have hholes : (request.gatherFragments env total 0 (List.replicate total none)
      available).countP Option.isNone
        = (List.range total).countP fun n => ¬ n ∈ available.map Prod.fst := by
    rw [gatherFragments_eq hword hreads, List.countP_map]
    refine List.countP_congr fun n hn => ?_
    have hlt : n < word.length := hword ▸ List.mem_range.mp hn
    by_cases hmem : n ∈ available.map Prod.fst
    · simp [hmem, List.getElem?_eq_getElem hlt]
    · simp [hmem]
  have hlisted : (available.map Prod.fst).toFinset.card
      = (List.range total).countP fun n => n ∈ available.map Prod.fst := by
    rw [List.countP_eq_length_filter,
      ← List.toFinset_card_of_nodup (List.nodup_range.filter _)]
    refine congrArg Finset.card (Finset.ext fun n => ?_)
    rw [List.mem_toFinset, List.mem_toFinset, List.mem_filter, List.mem_range, decide_eq_true_eq]
    refine ⟨fun hmem => ⟨?_, hmem⟩, fun h => h.2⟩
    obtain ⟨source, hsource, rfl⟩ := List.mem_map.mp hmem
    obtain ⟨fragment, hfragment, -⟩ := hreads 0 source hsource
    exact hword ▸ (List.getElem?_eq_some_iff.mp hfragment).1
  have hsplit := List.length_eq_countP_add_countP (fun n => n ∈ available.map Prod.fst)
    (l := List.range total)
  simp only [List.length_range, decide_eq_true_eq] at hsplit
  rw [hholes, hlisted]
  omega

/-- Slots of fragments are what is left of the fragments, if their bytes are. -/
theorem remains_fragmentSlots (k : Nat) (h : Remains word slots) :
    Remains (ErasureCodec.fragmentsOf k word) (fragmentSlots k slots) := by
  have hfrom : ∀ n, List.Forall₂ (fun symbol slot => slot = none ∨ slot = some symbol)
      ((word.zipIdx n).map fun p => (⟨p.2, decide (p.2 < k), p.1⟩ : Fragment))
      ((slots.zipIdx n).map fun p =>
        p.1.map fun data => (⟨p.2, decide (p.2 < k), data⟩ : Fragment)) := by
    induction h with
    | nil => intro n; exact .nil
    | cons hslot _ ih =>
      intro n
      refine .cons ?_ (ih (n + 1))
      rcases hslot with rfl | rfl
      · exact Or.inl rfl
      · exact Or.inr rfl
  exact hfrom 0

theorem countP_fragmentSlots (k : Nat) (slots : List (Option Bytes)) :
    (fragmentSlots k slots).countP Option.isNone = slots.countP Option.isNone := by
  rw [fragmentSlots, List.countP_map]
  have hfst : slots = slots.zipIdx.map Prod.fst := (List.zipIdx_map_fst 0 slots).symm
  conv_rhs => rw [hfst, List.countP_map]
  exact List.countP_congr fun slot _ => by simp

end Gather

/-! ## 3. What the repair writes -/

section Repair

variable {rs : ReedSolomon} {codec : ErasureCodec rs} {data : Bytes} {word : List Bytes}
  {env : RepairEnv} {request : RepairRequest} {available : List (Nat × DiskId)}

/-- The reconstructor decodes any K fragments. -/
theorem decodeFragments_of_remains (hlaw : rs.Lawful codec.dataCount codec.parityCount)
    (h : Encodes rs codec.dataCount codec.parityCount data word) (hdata : data ≠ [])
    (hslots : Remains word slots) (hholes : slots.countP Option.isNone ≤ codec.parityCount) :
    decodeFragments rs codec.dataCount codec.parityCount slots data.length = .ok data := by
  have hdecode := ErasureCodec.decode_of_remains codec hlaw h hdata
    (remains_fragmentSlots codec.dataCount hslots)
    (by rw [countP_fragmentSlots]; exact hholes)
  unfold decodeFragments
  rw [ErasureCodec.new_eq hlaw codec.dataCount_pos codec.parityCount_pos]
  simp only [hdecode]

/-- **A repair from any K fragments writes the whole payload.** -/
theorem repair_writes_data (hlaw : rs.Lawful codec.dataCount codec.parityCount)
    (h : Encodes rs codec.dataCount codec.parityCount data word) (hdata : data ≠ [])
    (htype : request.repairType
      = .erasureCode codec.dataCount codec.parityCount available data.length)
    (hrec : env.reconstruct = decodeFragments rs)
    (hreads : ReadsIntact env request word available)
    (hcount : codec.dataCount ≤ (available.map Prod.fst).toFinset.card)
    (hsuccess : (request.repair env).1.success = true) :
    (request.repair env).2
      = some ⟨request.targetDiskId, request.extentId, request.version, data⟩ := by
  have hword : word.length = codec.dataCount + codec.parityCount := h.shards.length
  have hremains := remains_gatherFragments hword hreads
  have hcounted := countP_gatherFragments hword hreads
  have hholes : (request.gatherFragments env (codec.dataCount + codec.parityCount) 0
      (List.replicate (codec.dataCount + codec.parityCount) none) available).countP Option.isNone
        ≤ codec.parityCount := by omega
  have henough : ¬ ((request.gatherFragments env (codec.dataCount + codec.parityCount) 0
      (List.replicate (codec.dataCount + codec.parityCount) none) available).filter
        Option.isSome).length < codec.dataCount := by
    have hsplit := ErasureCodec.length_filter_isSome (request.gatherFragments env
      (codec.dataCount + codec.parityCount) 0
      (List.replicate (codec.dataCount + codec.parityCount) none) available)
    rw [← hremains.length_eq, hword] at hsplit
    omega
  have hdecoded := decodeFragments_of_remains hlaw h hdata hremains hholes
  unfold RepairRequest.repair at hsuccess ⊢
  rw [htype] at hsuccess ⊢
  unfold RepairRequest.repairEc at hsuccess ⊢
  simp only [if_neg henough, hrec, hdecoded] at hsuccess ⊢
  cases hw : request.write env 0 data with
  | error e => simp [hw, RepairRequest.failed] at hsuccess
  | ok written => exact congrArg some (RepairRequest.write_eq_ok hw)

/-- **What a repair promises**: it writes the missing fragment, so that any K of the fragments that
are then stored decode to the payload. -/
structure Restores (codec : ErasureCodec rs) (data : Bytes) (fragments : List Fragment) (i : Nat)
    (missing : Fragment) (env : RepairEnv) (request : RepairRequest) : Prop where
  written : (request.repair env).2
    = some ⟨request.targetDiskId, request.extentId, request.version, missing.data⟩
  decodes : ∀ written, (request.repair env).2 = some written → ∀ slots,
    Remains (fragments.set i { missing with data := written.data }) slots →
    slots.countP Option.isNone ≤ codec.parityCount → codec.decode slots data.length = .ok data

/-- **ERASURE-CODE REPAIR.**  A repair from any K of the other fragments that reports success keeps
the promise exactly when the missing fragment is the whole payload. -/
theorem ec_repair_restores_iff (rs : ReedSolomon) (codec : ErasureCodec rs)
    (hlaw : rs.Lawful codec.dataCount codec.parityCount) (data : Bytes) (hdata : data ≠ [])
    (fragments : List Fragment) (hencode : codec.encode data = .ok fragments) (i : Nat)
    (missing : Fragment) (hmissing : fragments[i]? = some missing) (env : RepairEnv)
    (request : RepairRequest) (available : List (Nat × DiskId))
    (htype : request.repairType
      = .erasureCode codec.dataCount codec.parityCount available data.length)
    (hrec : env.reconstruct = decodeFragments rs)
    (hothers : ∀ call, ∀ source ∈ available, source.1 ≠ i ∧ ∃ fragment,
      fragments[source.1]? = some fragment ∧
        env.readFragment call source.2 request.extentId source.1 = .ok fragment.data)
    (hcount : codec.dataCount ≤ (available.map Prod.fst).toFinset.card)
    (hsuccess : (request.repair env).1.success = true) :
    Restores codec data fragments i missing env request ↔ missing.data = data := by
  obtain ⟨word, hword⟩ := hlaw.exists_encodes codec.dataCount_pos hdata
  obtain rfl : ErasureCodec.fragmentsOf codec.dataCount word = fragments :=
    Except.ok.inj ((ErasureCodec.encode_eq codec hword hdata).symm.trans hencode)
  have hreads : ReadsIntact env request word available := by
    intro call source hmem
    obtain ⟨-, fragment, hfragment, hread⟩ := hothers call source hmem
    refine ⟨fragment.data, ?_, hread⟩
    rw [← ErasureCodec.map_data_fragmentsOf codec.dataCount word, List.getElem?_map, hfragment]
    rfl
  have hwritten := repair_writes_data hlaw hword hdata htype hrec hreads hcount hsuccess
  constructor
  · intro h
    have hsame := hwritten.symm.trans h.written
    simp only [Option.some.injEq, WrittenExtent.mk.injEq, true_and] at hsame
    exact hsame.symm
  · intro hwhole
    refine ⟨by rw [hwritten, hwhole], ?_⟩
    intro written hout slots hslots hholes
    obtain rfl := Option.some.inj (hwritten.symm.trans hout)
    -- the payload in place of the fragment is the fragment
    have hset : (ErasureCodec.fragmentsOf codec.dataCount word).set i { missing with data := data }
        = ErasureCodec.fragmentsOf codec.dataCount word := by
      obtain ⟨hlt, heq⟩ := List.getElem?_eq_some_iff.mp hmissing
      rw [← hwhole, ← heq]
      exact List.set_getElem_self hlt
    rw [hset] at hslots
    exact ErasureCodec.decode_of_remains codec hlaw hword hdata hslots hholes

end Repair

/-! ### The code with two data shards and one parity shard -/

/-- Doubling in the field of 256 elements. -/
def double (a : UInt8) : UInt8 := (a <<< 1) ^^^ (if a < 128 then 0 else 29)

/-- The parity of two bytes: three times the first and twice the second. -/
def parityOfTwo (a b : UInt8) : UInt8 := double a ^^^ a ^^^ double b

/-- Half and a third, the inverses of doubling and tripling. -/
def half (a : UInt8) : UInt8 := (a >>> 1) ^^^ (if a % 2 = 0 then 0 else 142)

def third (a : UInt8) : UInt8 := ([2, 4, 5, 6, 7].map fun n => double^[n] a).foldl (· ^^^ ·) 0

theorem inverse_of_bytes {f g : UInt8 → UInt8}
    (h : ∀ n < 256, f (g (UInt8.ofNat n)) = UInt8.ofNat n ∧ g (f (UInt8.ofNat n)) = UInt8.ofNat n)
    (a : UInt8) : f (g a) = a ∧ g (f a) = a := by
  rw [← UInt8.ofNat_toNat (x := a)]
  exact h a.toNat a.toNat_lt

theorem half_double (a : UInt8) : half (double a) = a ∧ double (half a) = a :=
  inverse_of_bytes (by decide +kernel) a

theorem third_triple (a : UInt8) :
    third (double a ^^^ a) = a ∧ double (third a) ^^^ third a = a :=
  inverse_of_bytes (f := third) (g := fun a => double a ^^^ a) (by decide +kernel) a

/-- The missing one of two shards and their parity. -/
def pairFill : List (Option Bytes) → Except String (List (Option Bytes))
  | [some a, some b, some p] => .ok [some a, some b, some p]
  | [none, some b, some p] =>
    .ok [some (List.zipWith (fun y z => third (double y ^^^ z)) b p), some b, some p]
  | [some a, none, some p] =>
    .ok [some a, some (List.zipWith (fun x z => half (double x ^^^ x ^^^ z)) a p), some p]
  | [some a, some b, none] => .ok [some a, some b, some (List.zipWith parityOfTwo a b)]
  | _ => .error "TooFewShardsPresent"

/-- The Reed-Solomon code with two data shards and one parity shard; shards of different sizes are
refused. -/
def pairCode : ReedSolomon where
  new k m := if k = 2 ∧ m = 1 then .ok () else .error "unsupported"
  encode _ _
    | [a, b, _] => .ok [a, b, List.zipWith parityOfTwo a b]
    | _ => .error "IncorrectShardCount"
  reconstruct _ _ slots :=
    let sizes := slots.reduceOption.map List.length
    if sizes.all (· = sizes.headD 0) then pairFill slots else .error "IncorrectShardSize"

theorem zipWith_cancel {f g : UInt8 → UInt8 → UInt8} (hfg : ∀ x y, f x (g x y) = y) :
    ∀ {a b : Bytes}, a.length = b.length → List.zipWith f a (List.zipWith g a b) = b
  | [], [], _ => rfl
  | x :: a, y :: b, h => by
    have hrest := zipWith_cancel hfg (by simpa using h : a.length = b.length)
    simp [hfg, hrest]

theorem zipWith_half {a b : Bytes} (h : a.length = b.length) :
    List.zipWith (fun x z => half (double x ^^^ x ^^^ z)) a (List.zipWith parityOfTwo a b) = b := by
  refine zipWith_cancel (fun x y => ?_) h
  rw [parityOfTwo, ← UInt8.xor_assoc, UInt8.xor_self, UInt8.zero_xor, (half_double y).1]

theorem zipWith_third {a b : Bytes} (h : a.length = b.length) :
    List.zipWith (fun y z => third (double y ^^^ z)) b (List.zipWith parityOfTwo a b) = a := by
  rw [List.zipWith_comm (f := parityOfTwo)]
  refine zipWith_cancel (fun y x => ?_) h.symm
  rw [parityOfTwo, UInt8.xor_comm (double x ^^^ x), ← UInt8.xor_assoc, UInt8.xor_self,
    UInt8.zero_xor, (third_triple x).1]

theorem pairFill_remains {a b : Bytes} (hab : a.length = b.length)
    (hslots : Remains [a, b, List.zipWith parityOfTwo a b] slots)
    (hholes : slots.countP Option.isNone ≤ 1) :
    pairFill slots = .ok [some a, some b, some (List.zipWith parityOfTwo a b)] := by
  obtain ⟨sa, _, ha, htwo, rfl⟩ := List.forall₂_cons_left_iff.mp hslots
  obtain ⟨sb, _, hb, hone, rfl⟩ := List.forall₂_cons_left_iff.mp htwo
  obtain ⟨sp, _, hp, hnil, rfl⟩ := List.forall₂_cons_left_iff.mp hone
  cases List.forall₂_nil_left_iff.mp hnil
  rcases ha with rfl | rfl
  · rcases hb with rfl | rfl
    · exact absurd hholes (by simp)
    · rcases hp with rfl | rfl
      · exact absurd hholes (by simp)
      · rw [pairFill, zipWith_third hab]
  · rcases hb with rfl | rfl
    · rcases hp with rfl | rfl
      · exact absurd hholes (by simp)
      · rw [pairFill, zipWith_half hab]
    · rcases hp with rfl | rfl <;> rfl

theorem length_of_remains {size : Nat} {word : List Bytes}
    (hword : ∀ shard ∈ word, shard.length = size) (hslots : Remains word slots) :
    ∀ len ∈ slots.reduceOption.map List.length, len = size := by
  intro len hlen
  obtain ⟨shard, hshard, rfl⟩ := List.mem_map.mp hlen
  have hmem : some shard ∈ slots := List.reduceOption_mem_iff.mp hshard
  obtain ⟨i, hi, hget⟩ := List.getElem_of_mem hmem
  obtain ⟨hlength, hzip⟩ := List.forall₂_iff_get.mp hslots
  rcases hzip i (hlength ▸ hi) hi with hnone | hsome
  · rw [List.get_eq_getElem, hget] at hnone
    cases hnone
  · rw [List.get_eq_getElem, hget] at hsome
    cases hsome
    exact hword _ (List.get_mem _ _)

theorem pairCode_lawful : pairCode.Lawful 2 1 where
  new := rfl
  encode := by
    rintro size shards hsize ⟨hlength, hsizes⟩
    obtain ⟨a, b, c, rfl⟩ := List.length_eq_three.mp hlength
    refine ⟨[a, b, List.zipWith parityOfTwo a b], rfl, ⟨rfl, ?_⟩, rfl⟩
    simp_all [List.length_zipWith]
  reconstruct := by
    rintro size shards word slots hsize ⟨hlength, hsizes⟩ hencode hslots hholes
    obtain ⟨a, b, c, rfl⟩ := List.length_eq_three.mp hlength
    obtain rfl := Except.ok.inj hencode
    have ha : a.length = size := hsizes a (by simp)
    have hb : b.length = size := hsizes b (by simp)
    have hword : ∀ shard ∈ [a, b, List.zipWith parityOfTwo a b], shard.length = size := by
      simp [List.length_zipWith, ha, hb]
    have hsame := length_of_remains hword hslots
    simp only [pairCode]
    rw [if_pos, pairFill_remains (ha.trans hb.symm) hslots hholes]
    · rfl
    · rw [List.all_eq_true]
      intro len hlen
      obtain ⟨first, rest, hsizes'⟩ := List.exists_cons_of_ne_nil (List.ne_nil_of_mem hlen)
      rw [hsame len hlen, hsizes', List.headD_cons, hsame first (by rw [hsizes']; simp)]
      simp

theorem pairCode_completes : pairCode.Completes 2 1 := by
  intro size slots hsize hlength hsizes hholes
  obtain ⟨first, second, parity, rfl⟩ := List.length_eq_three.mp hlength
  -- the two data shards that have the shards there are among their three
  have hcode : ∀ a b : Bytes, a.length = size → b.length = size →
      Remains [a, b, List.zipWith parityOfTwo a b] [first, second, parity] →
      ∃ shards word, Shards (2 + 1) size shards ∧ pairCode.encode 2 1 shards = .ok word ∧
        Remains word [first, second, parity] := by
    intro a b ha hb hslots
    exact ⟨[a, b, b], _, ⟨rfl, by simp [ha, hb]⟩, rfl, hslots⟩
  rcases first with _ | a <;> rcases second with _ | b <;> rcases parity with _ | p <;>
    simp at hholes
  · have hb := hsizes b (by simp)
    have hp := hsizes p (by simp)
    refine hcode (List.zipWith (fun y z => third (double y ^^^ z)) b p) b (by simp [hb, hp]) hb ?_
    rw [List.zipWith_comm (f := parityOfTwo), zipWith_cancel (fun y z => ?_) (hb.trans hp.symm)]
    · simp [Remains]
    · rw [parityOfTwo, (third_triple _).2, UInt8.xor_comm (double y), UInt8.xor_assoc,
        UInt8.xor_self, UInt8.xor_zero]
  · have ha := hsizes a (by simp)
    have hp := hsizes p (by simp)
    refine hcode a (List.zipWith (fun x z => half (double x ^^^ x ^^^ z)) a p) ha
      (by simp [ha, hp]) ?_
    rw [zipWith_cancel (fun x z => ?_) (ha.trans hp.symm)]
    · simp [Remains]
    · rw [parityOfTwo, (half_double _).2, ← UInt8.xor_assoc, UInt8.xor_self, UInt8.zero_xor]
  · exact hcode a b (hsizes a (by simp)) (hsizes b (by simp)) (by simp [Remains])

def pairCodec : ErasureCodec pairCode := ⟨2, 1, by decide, by decide, rfl⟩

/-- Extent 5 lost its first fragment; the other two are on disks 2 and 3. -/
def lostFirst (len : Nat) : RepairRequest where
  extentId := ⟨5#128⟩
  version := 1
  targetDiskId := ⟨9#128⟩
  repairType := .erasureCode 2 1 [(1, ⟨2#128⟩), (2, ⟨3#128⟩)] len
  priority := 100

def readsOthers (second parity : Bytes) : RepairEnv where
  readExtent _ _ _ _ := .error "not found"
  readFragment _ _ _ idx := .ok (if idx = 1 then second else parity)
  writeExtent _ _ _ _ _ := .ok ()
  reconstruct := decodeFragments pairCode

/-- A payload of one byte: its first fragment is the whole of it, and the repair is right. -/
theorem ec_repair_restores_one_byte :
    Restores pairCodec [1] [⟨0, true, [1]⟩, ⟨1, true, [0]⟩, ⟨2, false, [3]⟩] 0 ⟨0, true, [1]⟩
      (readsOthers [0] [3]) (lostFirst 1) := by
  refine (ec_repair_restores_iff pairCode pairCodec pairCode_lawful [1] (by decide)
    [⟨0, true, [1]⟩, ⟨1, true, [0]⟩, ⟨2, false, [3]⟩] (by rfl) 0 ⟨0, true, [1]⟩ rfl
    (readsOthers [0] [3]) (lostFirst 1) [(1, ⟨2#128⟩), (2, ⟨3#128⟩)] rfl rfl ?_ (by decide)
    (by rfl)).mpr rfl
  intro call source hmem
  rcases List.mem_pair.mp hmem with rfl | rfl
  · exact ⟨by decide, ⟨1, true, [0]⟩, rfl, rfl⟩
  · exact ⟨by decide, ⟨2, false, [3]⟩, rfl, rfl⟩

/-- **A payload of two bytes is written in place of its first fragment**, and the fragments that are
then stored do not decode to it. -/
theorem payload_in_place_of_fragment :
    pairCodec.encode [1, 2] = .ok [⟨0, true, [1]⟩, ⟨1, true, [2]⟩, ⟨2, false, [7]⟩] ∧
      (lostFirst 2).repair (readsOthers [2] [7])
        = (⟨⟨5#128⟩, ⟨9#128⟩, true, none⟩, some ⟨⟨9#128⟩, ⟨5#128⟩, 1, [1, 2]⟩) ∧
      pairCodec.decode [some ⟨0, true, [1, 2]⟩, none, some ⟨2, false, [7]⟩] 2
        = .error (.decodeFailed "IncorrectShardSize") ∧
      ¬ Restores pairCodec [1, 2] [⟨0, true, [1]⟩, ⟨1, true, [2]⟩, ⟨2, false, [7]⟩] 0 ⟨0, true, [1]⟩
        (readsOthers [2] [7]) (lostFirst 2) := by
  refine ⟨by rfl, by rfl, by rfl, ?_⟩
  intro h
  have hwritten := h.written
  exact absurd hwritten (by decide)

end Blockyard.Storage
