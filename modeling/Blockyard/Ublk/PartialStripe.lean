/-
# Partial-stripe writes

`blockyard-ublk`, `ec_write_pipeline.rs`: `partial_stripe_write` gets the stripe that is stored and
new data for a part of it, copies the data over the stripe and writes the result through the
erasure-coded pipeline.

The copy is CLIPPED to the stripe: data that reach over its end lose the rest, and the write is
committed all the same (`overhanging_write_clipped`).  An offset behind the end makes the length of
the copy negative, which is a panic with overflow checks and a panic of the slice without
(`modifiedStripe_eq`).  `partial_stripe_write_exact_iff` says for which inputs neither happens.
-/
import Blockyard.Ublk.EcReadAfterWrite

open Std

namespace Blockyard.Ublk

/-! ## 1. The source -/

/-- The stripe with the new data copied over it; `none` is a panic. -/
def modifiedStripe (ovf : Overflow) (existing newData : Bytes) (stripeOffset : Nat) :
    Option Bytes := do
  let stripeSize := existing.length
  let dataEnd ← addU64 ovf stripeOffset newData.length
  let stop := min dataEnd stripeSize
  let copyLen ← subU64 ovf stop stripeOffset
  let sliceEnd ← addU64 ovf stripeOffset copyLen
  -- the bounds of the two slices of `copy_from_slice`
  if stripeOffset ≤ sliceEnd ∧ sliceEnd ≤ stripeSize ∧ copyLen ≤ newData.length then
    some (existing.take stripeOffset ++ newData.take copyLen ++ existing.drop sliceEnd)
  else none

section Write

variable {σ : Type} (plane : DataPlane σ) (blake3 : Bytes → BitVec 256) (rs : ReedSolomon)

def partialStripeWrite (ovf : Overflow) (env : ChunkEnv) (c : Client) (s : σ) (volumeId : VolumeId)
    (startBlock : Nat) (newData existing : Bytes) (stripeOffset : Nat) :
    Option (Client × σ × Except Error WriteOutcome) :=
  match c.cache.volumes[volumeId]? with
  | none => some (c, s, .error (.storage s!"volume {volumeId} not found in cache"))
  | some volumeInfo =>
    match volumeInfo.protection with
    | .replicated _ =>
      some (c, s, .error (.storage "partial stripe write requires ErasureCoded policy"))
    | .erasureCoded _ _ => do
      let modified ← modifiedStripe ovf existing newData stripeOffset
      return ecExecute plane blake3 rs env c s volumeId startBlock modified

/-! ## 2. What is promised -/

/-- A stripe with all of the new data over it. -/
def overlay (existing newData : Bytes) (stripeOffset : Nat) : Bytes :=
  existing.take stripeOffset ++ newData ++ existing.drop (stripeOffset + newData.length)

/-- A stripe with the new data over it as far as the stripe goes. -/
def clippedOverlay (existing newData : Bytes) (stripeOffset : Nat) : Bytes :=
  overlay existing (newData.take (existing.length - stripeOffset)) stripeOffset

/-- The call does not panic, and a committed write has encoded the whole overlay. -/
structure ExactOverlay (ovf : Overflow) (env : ChunkEnv) (c : Client) (s : σ) (volumeId : VolumeId)
    (startBlock : Nat) (newData existing : Bytes) (stripeOffset : Nat) : Prop where
  returns : partialStripeWrite plane blake3 rs ovf env c s volumeId startBlock newData existing
    stripeOffset ≠ none
  encoded : ∀ c' s' epoch,
    partialStripeWrite plane blake3 rs ovf env c s volumeId startBlock newData existing
      stripeOffset = some (c', s', .ok (.committed epoch)) →
    modifiedStripe ovf existing newData stripeOffset
      = some (overlay existing newData stripeOffset)

/-- The client knows the volume as an erasure-coded one. -/
def ErasureCoded (c : Client) (volumeId : VolumeId) : Prop :=
  ∃ k m, c.cache.volumes[volumeId]? = some ⟨.erasureCoded k m⟩

end Write

/-! ## 3. The copy -/

section Copy

variable {existing newData : Bytes} {stripeOffset : Nat}

/-- A copy inside the machine's range never panics for an offset in the stripe, and always does for
one behind it. -/
theorem modifiedStripe_eq (ovf : Overflow) (hexisting : existing.length < 2 ^ 63)
    (hnew : newData.length < 2 ^ 63) :
    modifiedStripe ovf existing newData stripeOffset =
      if stripeOffset ≤ existing.length then some (clippedOverlay existing newData stripeOffset)
      else none := by
  split
  case isTrue hin =>
    have hsum : addU64 ovf stripeOffset newData.length = some (stripeOffset + newData.length) :=
      if_pos (by omega)
    have hle : stripeOffset ≤ min (stripeOffset + newData.length) existing.length := by omega
    have hsub : subU64 ovf (min (stripeOffset + newData.length) existing.length) stripeOffset
        = some (min newData.length (existing.length - stripeOffset)) :=
      (if_pos hle).trans (congrArg some (by omega))
    have hend : addU64 ovf stripeOffset (min newData.length (existing.length - stripeOffset))
        = some (stripeOffset + min newData.length (existing.length - stripeOffset)) :=
      if_pos (by omega)
    simp only [modifiedStripe, hsum, hsub, hend, Option.bind_eq_bind, Option.bind_some]
    rw [if_pos (by omega), clippedOverlay, overlay, List.length_take,
      Nat.min_comm newData.length, ← List.take_take, List.take_length]
  case isFalse hout =>
    -- whatever the arithmetic gives, the first slice would have to end before it starts
    cases hmodified : modifiedStripe ovf existing newData stripeOffset with
    | none => rfl
    | some modified =>
      simp only [modifiedStripe, Option.bind_eq_bind, Option.bind_eq_some_iff,
        Option.ite_none_right_eq_some] at hmodified
      obtain ⟨_, _, _, _, _, _, hbounds, _⟩ := hmodified
      exact absurd (hbounds.1.trans hbounds.2.1) hout

/-- Nothing is lost exactly when the new data end inside the stripe. -/
theorem clippedOverlay_eq_overlay_iff (hin : stripeOffset ≤ existing.length) :
    clippedOverlay existing newData stripeOffset = overlay existing newData stripeOffset ↔
      stripeOffset + newData.length ≤ existing.length := by
  constructor
  · intro h
    have hlen := congrArg List.length h
    simp only [clippedOverlay, overlay, List.length_append, List.length_take, List.length_drop]
      at hlen
    omega
  · intro hfits
    rw [clippedOverlay, List.take_of_length_le (by omega)]

end Copy

/-! ## 4. The write -/

section Exact

variable {σ : Type} {plane : DataPlane σ} {blake3 : Bytes → BitVec 256} {rs : ReedSolomon}
  {ovf : Overflow} {env : ChunkEnv} {c : Client} {s : σ} {volumeId : VolumeId} {startBlock : Nat}
  {newData existing : Bytes} {stripeOffset : Nat}

/-- Without the volume or with another policy nothing is copied. -/
theorem partialStripeWrite_refused (h : ¬ ErasureCoded c volumeId) :
    ∃ e, partialStripeWrite plane blake3 rs ovf env c s volumeId startBlock newData existing
      stripeOffset = some (c, s, .error e) := by
  rw [partialStripeWrite]
  split
  · exact ⟨_, rfl⟩
  · next info hvol =>
    split
    · exact ⟨_, rfl⟩
    · next k m hpolicy =>
      obtain ⟨policy⟩ := info
      cases hpolicy
      exact absurd ⟨k, m, hvol⟩ h

theorem partialStripeWrite_erasureCoded (h : ErasureCoded c volumeId) :
    partialStripeWrite plane blake3 rs ovf env c s volumeId startBlock newData existing stripeOffset
      = (modifiedStripe ovf existing newData stripeOffset).map fun modified =>
        ecExecute plane blake3 rs env c s volumeId startBlock modified := by
  obtain ⟨k, m, hvol⟩ := h
  rw [partialStripeWrite, hvol]
  cases modifiedStripe ovf existing newData stripeOffset <;> rfl

theorem exactOverlay_of_refused (h : ¬ ErasureCoded c volumeId) :
    ExactOverlay plane blake3 rs ovf env c s volumeId startBlock newData existing
      stripeOffset := by
  obtain ⟨e, he⟩ := partialStripeWrite_refused h
  constructor
  · rw [he]
    exact Option.some_ne_none _
  · intro c' s' epoch hcommitted
    rw [he] at hcommitted
    cases hcommitted

/-- Of an erasure-coded volume the stripe is copied; what counts is where the new data end, and
whether it is committed. -/
theorem exactOverlay_iff_of_erasureCoded (h : ErasureCoded c volumeId)
    (hexisting : existing.length < 2 ^ 63) (hnew : newData.length < 2 ^ 63) :
    ExactOverlay plane blake3 rs ovf env c s volumeId startBlock newData existing stripeOffset ↔
      stripeOffset ≤ existing.length ∧
        (stripeOffset + newData.length ≤ existing.length ∨
          ∀ epoch, (ecExecute plane blake3 rs env c s volumeId startBlock
            (clippedOverlay existing newData stripeOffset)).2.2 ≠ .ok (.committed epoch)) := by
  by_cases hin : stripeOffset ≤ existing.length
  · have hmodified : modifiedStripe ovf existing newData stripeOffset
        = some (clippedOverlay existing newData stripeOffset) := by
      rw [modifiedStripe_eq ovf hexisting hnew, if_pos hin]
    have hwrite : partialStripeWrite plane blake3 rs ovf env c s volumeId startBlock newData
        existing stripeOffset = some (ecExecute plane blake3 rs env c s volumeId startBlock
          (clippedOverlay existing newData stripeOffset)) := by
      rw [partialStripeWrite_erasureCoded h, hmodified, Option.map_some]
    rw [and_iff_right hin, ← clippedOverlay_eq_overlay_iff hin]
    constructor
    · intro hexact
      by_contra hneither
      push Not at hneither
      obtain ⟨hclipped, epoch, hcommitted⟩ := hneither
      have hall := hexact.encoded _ _ epoch
        (hwrite.trans (congrArg some (Prod.ext rfl (Prod.ext rfl hcommitted))))
      exact hclipped (Option.some.inj (hmodified.symm.trans hall))
    · intro hor
      refine ⟨by rw [hwrite]; exact Option.some_ne_none _, fun c' s' epoch hcommitted => ?_⟩
      rw [hwrite] at hcommitted
      rcases hor with hall | hnot
      · rw [hmodified, hall]
      · exact absurd (congrArg (·.2.2) (Option.some.inj hcommitted)) (hnot epoch)
  · have hwrite : partialStripeWrite plane blake3 rs ovf env c s volumeId startBlock newData
        existing stripeOffset = none := by
      rw [partialStripeWrite_erasureCoded h, modifiedStripe_eq ovf hexisting hnew, if_neg hin,
        Option.map_none]
    exact iff_of_false (fun hexact => hexact.returns hwrite) fun hr => hin hr.1

end Exact

/-- **Partial-stripe writes**, with chunk counts whose sum is a `u8`.  Where the pipeline commits
the clipped stripe, the write is an exact overlay that cannot panic exactly when the new data end
inside the stripe, or the volume is refused before anything is copied; where it does not, an offset
in the stripe is enough. -/
theorem partial_stripe_write_exact_iff {σ : Type} (plane : DataPlane σ)
    (blake3 : Bytes → BitVec 256) (rs : ReedSolomon) (ovf : Overflow) (env : ChunkEnv) (c : Client)
    (s : σ) (volumeId : VolumeId) (startBlock : Nat) (newData existing : Bytes) (stripeOffset : Nat)
    (hexisting : existing.length < 2 ^ 63) (hnew : newData.length < 2 ^ 63)
    (_hsum : ∀ k m, c.cache.volumes[volumeId]? = some ⟨.erasureCoded k m⟩ → k + m ≤ 255) :
    let written := (ecExecute plane blake3 rs env c s volumeId startBlock
      (clippedOverlay existing newData stripeOffset)).2.2
    let overlaid := ExactOverlay plane blake3 rs ovf env c s volumeId startBlock newData existing
      stripeOffset
    ((∃ epoch, written = .ok (.committed epoch)) →
        (overlaid ↔ stripeOffset + newData.length ≤ existing.length ∨ ¬ ErasureCoded c volumeId)) ∧
      ((∀ epoch, written ≠ .ok (.committed epoch)) →
        (overlaid ↔ stripeOffset ≤ existing.length ∨ ¬ ErasureCoded c volumeId)) := by
  intro written overlaid
  by_cases hec : ErasureCoded c volumeId
  · have hexact : overlaid ↔ _ := exactOverlay_iff_of_erasureCoded hec hexisting hnew
    rw [hexact]
    constructor
    · rintro ⟨epoch, hcommitted⟩
      rw [or_iff_left (not_not_intro hec), or_iff_left fun hnot => hnot epoch hcommitted]
      exact and_iff_right_of_imp (Nat.le_add_right _ _).trans
    · intro hnot
      rw [or_iff_left (not_not_intro hec), and_iff_left (Or.inr hnot)]
  · have hexact : overlaid := exactOverlay_of_refused hec
    exact ⟨fun _ => iff_of_true hexact (Or.inr hec), fun _ => iff_of_true hexact (Or.inr hec)⟩

/-- The second byte of a stored stripe is replaced. -/
theorem partial_stripe_write_exact_iff_inside :
    ExactOverlay shelf stripeBlake3 copyCode .checked ((idsFrom 31).chunk 0) pairedClient
      (fun _ _ => none) ⟨7#128⟩ 0 [8] [1, 2] 1 :=
  ((partial_stripe_write_exact_iff shelf stripeBlake3 copyCode .checked ((idsFrom 31).chunk 0)
    pairedClient (fun _ _ => none) ⟨7#128⟩ 0 [8] [1, 2] 1 (by decide) (by decide) fun k m hvol => by
      cases hvol.symm.trans ecVolume_paired.known
      decide).1 ⟨1, rfl⟩).mpr (Or.inl (by decide))

/-- **Data over the end of the stripe.**  Two bytes are written over the last byte of a stripe of
two: the second one is dropped, and the write is committed.  One byte further to the right than the
stripe goes, the call panics. -/
theorem overhanging_write_clipped :
    let write := fun newData => partialStripeWrite shelf stripeBlake3 copyCode .wrapping
      ((idsFrom 31).chunk 0) pairedClient (fun _ _ => none) ⟨7#128⟩ 0 newData [1, 2]
    let promise := fun newData => ExactOverlay shelf stripeBlake3 copyCode .wrapping
      ((idsFrom 31).chunk 0) pairedClient (fun _ _ => none) ⟨7#128⟩ 0 newData [1, 2]
    ((write [8, 9] 1).map (·.2.2) = some (.ok (.committed 1)) ∧
        modifiedStripe .wrapping [1, 2] [8, 9] 1 = some [1, 8] ∧ ¬ promise [8, 9] 1) ∧
      write [8] 3 = none ∧ ¬ promise [8] 3 := by
  refine ⟨⟨rfl, rfl, fun h => ?_⟩, rfl, fun h => h.returns rfl⟩
  have hall := h.encoded _ _ 1 rfl
  exact absurd hall (by decide)

end Blockyard.Ublk
