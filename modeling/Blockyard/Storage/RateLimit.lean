/-
# The token bucket

`blockyard-storage`, `background/rate_limit.rs`: background work takes tokens from a bucket, and
`refill` tops it up by whole tokens for the whole milliseconds since the last refill.

A rate limit promises two things.  The bucket never gives MORE than its budget
(`tokens_within_budget`): every refill is floored, and a sum of floors is at most the floor of the
sum.  For the same reason it may give LESS.  A refill moves `last_refill` to the present, so the
fraction of a token that had accrued is dropped, and a bucket that is polled often drops one at
every poll.  `credit_reaches_rate_iff` says exactly how much may be dropped: less than two tokens.
-/
import Blockyard.Common.Id
import Blockyard.Lib.Run

open Machine

namespace Blockyard.Storage

/-! ## 1. The bucket -/

/-- `TokenBucket`; an `Instant` is a number of nanoseconds. -/
structure TokenBucket where
  capacity : Nat
  refillRate : Nat
  tokens : Nat
  lastRefill : Nat
  deriving DecidableEq, Repr

/-- A call, beside the time it is made at. -/
inductive BucketCall
  | tryAcquire (count : Nat)
  | available
  deriving DecidableEq, Repr

def nanosPerMilli : Nat := 1000000

namespace TokenBucket

def new (capacity refillRate now : Nat) : TokenBucket := ⟨capacity, refillRate, capacity, now⟩

/-- `refill`; `none` is the overflow panic, which leaves the bucket as it is. -/
def refill (ovf : Overflow) (now : Nat) (b : TokenBucket) : Option TokenBucket :=
  let elapsed := now - b.lastRefill
  match mulU64 ovf (elapsed / nanosPerMilli % 2 ^ 64) b.refillRate with
  | none => none
  | some product =>
    let newTokens := product / 1000
    if newTokens > 0 then
      match addU64 ovf b.tokens newTokens with
      | none => none
      | some total => some { b with tokens := min total b.capacity, lastRefill := now }
    else some b

/-- `try_acquire`.  Without another caller the compare-exchange finds the value just read, so the
retry is never reached. -/
def tryAcquire (ovf : Overflow) (now count : Nat) (b : TokenBucket) : TokenBucket × Option Bool :=
  match b.refill ovf now with
  | none => (b, none)
  | some b =>
    if b.tokens ≥ count then ({ b with tokens := b.tokens - count }, some true)
    else (b, some false)

def available (ovf : Overflow) (now : Nat) (b : TokenBucket) : TokenBucket × Option Nat :=
  match b.refill ovf now with
  | none => (b, none)
  | some b => (b, some b.tokens)

def step (ovf : Overflow) (b : TokenBucket) : Nat × BucketCall → TokenBucket × Nat
  | (now, .tryAcquire count) =>
    let (b, acquired) := b.tryAcquire ovf now count
    (b, if acquired = some true then count else 0)
  | (now, .available) => ((b.available ovf now).1, 0)

/-! ## 2. A call within 64 bits -/

/-- The thousandths of a token that have accrued since the last refill. -/
def accrued (b : TokenBucket) (now : Nat) : Nat :=
  (now - b.lastRefill) / nanosPerMilli * b.refillRate

/-- The product and the sum of a refill stay within 64 bits. -/
def Fits (b : TokenBucket) (call : Nat × BucketCall) : Prop :=
  b.accrued call.1 < 2 ^ 64 ∧ b.tokens + b.accrued call.1 / 1000 < 2 ^ 64

instance (b : TokenBucket) (call : Nat × BucketCall) : Decidable (b.Fits call) :=
  inferInstanceAs (Decidable (_ ∧ _))

/-- The bucket after a refill within 64 bits. -/
def refilled (b : TokenBucket) (now : Nat) : TokenBucket :=
  if b.accrued now / 1000 = 0 then b
  else { b with tokens := min (b.tokens + b.accrued now / 1000) b.capacity, lastRefill := now }

variable {ovf : Overflow} {b : TokenBucket} {now deadline : Nat} {call : BucketCall}

theorem refill_eq (ovf : Overflow) (h : b.Fits (now, call)) :
    b.refill ovf now = some (b.refilled now) := by
  have hmillis : (now - b.lastRefill) / nanosPerMilli % 2 ^ 64 * b.refillRate = b.accrued now := by
    rcases Nat.eq_zero_or_pos b.refillRate with hrate | hrate
    · rw [accrued, hrate, Nat.mul_zero, Nat.mul_zero]
    · rw [accrued, Nat.mod_eq_of_lt (Nat.lt_of_le_of_lt (Nat.le_mul_of_pos_right _ hrate) h.1)]
  have hmul := mulU64_of_lt ovf (hmillis.symm ▸ h.1)
  rw [hmillis] at hmul
  unfold refill refilled
  simp only [hmul]
  by_cases hzero : b.accrued now / 1000 = 0
  · rw [if_neg (by omega), if_pos hzero]
  · rw [if_pos (by omega), if_neg hzero, addU64_of_lt ovf h.2]

@[simp] theorem capacity_refilled (b : TokenBucket) (now : Nat) :
    (b.refilled now).capacity = b.capacity := by
  unfold refilled
  split <;> rfl

@[simp] theorem refillRate_refilled (b : TokenBucket) (now : Nat) :
    (b.refilled now).refillRate = b.refillRate := by
  unfold refilled
  split <;> rfl

/-- **A call** refills the bucket, and spends what it grants. -/
theorem step_eq (ovf : Overflow) (h : b.Fits (now, call)) :
    ∃ spent ≤ (b.refilled now).tokens,
      b.step ovf (now, call) =
        ({ b.refilled now with tokens := (b.refilled now).tokens - spent }, spent) := by
  cases call with
  | available => exact ⟨0, Nat.zero_le _, by simp only [step, available, refill_eq ovf h]; rfl⟩
  | tryAcquire count =>
    simp only [step, tryAcquire, refill_eq ovf h]
    by_cases hcount : count ≤ (b.refilled now).tokens
    · exact ⟨count, hcount, by rw [if_pos hcount]; rfl⟩
    · exact ⟨0, Nat.zero_le _, by rw [if_neg hcount]; rfl⟩

/-! ## 3. Never more than the budget -/

/-- Flooring twice credits no more than flooring once. -/
theorem refilled_le (b : TokenBucket) (hnow : b.lastRefill ≤ now) (hdeadline : now ≤ deadline) :
    (b.refilled now).tokens + (b.refilled now).accrued deadline / 1000
      ≤ b.tokens + b.accrued deadline / 1000 := by
  unfold refilled
  split
  · exact le_rfl
  · have hmillis : (now - b.lastRefill) / nanosPerMilli + (deadline - now) / nanosPerMilli
        ≤ (deadline - b.lastRefill) / nanosPerMilli := by
      unfold nanosPerMilli
      omega
    have hsum := Nat.mul_le_mul_right b.refillRate hmillis
    rw [Nat.add_mul] at hsum
    simp only [accrued] at hsum ⊢
    omega

/-- **What a run grants** comes out of the tokens that are there and those that accrue. -/
theorem granted_le (ovf : Overflow) (calls : List (Nat × BucketCall)) (b : TokenBucket)
    (hfit : Along (step ovf) Fits b calls) (hlast : ∀ call ∈ calls, b.lastRefill ≤ call.1)
    (hsorted : (calls.map Prod.fst).Pairwise (· ≤ ·))
    (hdeadline : ∀ call ∈ calls, call.1 ≤ deadline) :
    (runOutputs (step ovf) b calls).sum ≤ b.tokens + b.accrued deadline / 1000 := by
  induction calls generalizing b with
  | nil => exact Nat.zero_le _
  | cons call calls ih =>
    obtain ⟨now, call⟩ := call
    obtain ⟨spent, hspent, hstep⟩ := step_eq ovf hfit.1
    rw [List.map_cons, List.pairwise_cons] at hsorted
    have hnow := hlast _ List.mem_cons_self
    have hlater : ∀ call ∈ calls, now ≤ call.1 := fun call hcall =>
      hsorted.1 _ (List.mem_map_of_mem hcall)
    have hrest := ih (b.step ovf (now, call)).1 hfit.2 (fun later hmem => ?_) hsorted.2
      fun later hmem => hdeadline later (List.mem_cons_of_mem _ hmem)
    · rw [runOutputs, List.sum_cons]
      have hle := refilled_le b hnow (hdeadline _ List.mem_cons_self)
      rw [hstep] at hrest ⊢
      simp only [accrued] at hrest hle ⊢
      omega
    · rw [hstep]
      change (b.refilled now).lastRefill ≤ later.1
      unfold refilled
      split
      · exact hlast later (List.mem_cons_of_mem _ hmem)
      · exact hlater later hmem

theorem tokens_run_le (capacity refillRate created : Nat) {calls : List (Nat × BucketCall)}
    (hfit : Along (step ovf) Fits (.new capacity refillRate created) calls) :
    (runState (step ovf) (.new capacity refillRate created) calls).tokens ≤ capacity := by
  refine (runState_of_along (P := fun t : TokenBucket => t.tokens ≤ capacity ∧
    t.capacity = capacity) ⟨le_rfl, rfl⟩ hfit ?_).1
  rintro t ⟨now, call⟩ ⟨htokens, hcap⟩ hfits
  obtain ⟨spent, -, hstep⟩ := step_eq ovf hfits
  rw [hstep]
  refine ⟨Nat.le_trans (Nat.sub_le _ _) ?_, (capacity_refilled t now).trans hcap⟩
  unfold refilled
  split
  · exact htokens
  · exact hcap ▸ Nat.min_le_right _ _

/-- **THE BUCKET STAYS WITHIN ITS BUDGET**, at every moment after its creation. -/
theorem tokens_within_budget (ovf : Overflow) (capacity refillRate created : Nat)
    (calls : List (Nat × BucketCall))
    (hsorted : (created :: calls.map Prod.fst).Pairwise (· ≤ ·))
    (hfit : Along (step ovf) Fits (.new capacity refillRate created) calls) (elapsed : Nat)
    (hupto : ∀ call ∈ calls, call.1 ≤ created + elapsed) :
    (runState (step ovf) (.new capacity refillRate created) calls).tokens ≤ capacity ∧
      (runOutputs (step ovf) (.new capacity refillRate created) calls).sum
        ≤ capacity + refillRate * (elapsed / nanosPerMilli) / 1000 := by
  refine ⟨tokens_run_le capacity refillRate created hfit, ?_⟩
  rw [List.pairwise_cons] at hsorted
  have hgranted := granted_le ovf calls _ hfit
    (fun call hcall => hsorted.1 _ (List.mem_map_of_mem hcall)) hsorted.2 hupto
  rw [accrued, Nat.mul_comm] at hgranted
  change _ ≤ capacity + refillRate * ((created + elapsed - created) / nanosPerMilli) / 1000
    at hgranted
  rwa [Nat.add_sub_cancel_left] at hgranted

/-- A bucket is emptied, and asked again 2.5 and 4 milliseconds later. -/
def greedy : List (Nat × BucketCall) :=
  [(0, .tryAcquire 10), (2500000, .tryAcquire 3), (4000000, .tryAcquire 3)]

theorem tokens_within_budget_greedy :
    (runState (step .checked) (.new 10 1500 0) greedy).tokens ≤ 10 ∧
      (runOutputs (step .checked) (.new 10 1500 0) greedy).sum ≤ 16 :=
  tokens_within_budget .checked 10 1500 0 greedy (by decide)
    ⟨by decide, by decide, by decide, trivial⟩ 4000000 (by decide)

/-! ## 4. Not always its rate -/

def credited (ovf : Overflow) (b : TokenBucket) : List (Nat × BucketCall) → Nat
  | [] => 0
  | call :: calls =>
    (((b.refill ovf call.1).getD b).tokens - b.tokens) + credited ovf (b.step ovf call).1 calls

/-- The capacity does not cut the refill off. -/
def Uncut (b : TokenBucket) (call : Nat × BucketCall) : Prop :=
  b.tokens + b.accrued call.1 / 1000 ≤ b.capacity

instance (b : TokenBucket) (call : Nat × BucketCall) : Decidable (b.Uncut call) :=
  inferInstanceAs (Decidable (_ ≤ _))

def atMillis (calls : List (Nat × BucketCall)) : List (Nat × BucketCall) :=
  calls.map fun call => (call.1 * nanosPerMilli, call.2)

/-- The thousandths of a token that polling at these milliseconds leaves uncredited: the remainder
of every refill, and what has accrued since the last. -/
def leftover (refillRate last now : Nat) : List Nat → Nat
  | [] => (now - last) * refillRate
  | t :: ts =>
    if (t - last) * refillRate / 1000 = 0 then leftover refillRate last t ts
    else (t - last) * refillRate % 1000 + leftover refillRate t t ts

theorem accrued_millis {last t : Nat} (hlast : b.lastRefill = last * nanosPerMilli) :
    b.accrued (t * nanosPerMilli) = (t - last) * b.refillRate := by
  rw [accrued, hlast, ← Nat.sub_mul, Nat.mul_div_cancel _ (by decide)]

/-- **The balance of a run**: what has accrued is credited or left over. -/
theorem credited_add_leftover (ovf : Overflow) (calls : List (Nat × BucketCall))
    (b : TokenBucket) (last now : Nat) (hlast : b.lastRefill = last * nanosPerMilli)
    (hnow : last ≤ now) (hsorted : (now :: calls.map Prod.fst).Pairwise (· < ·))
    (hfit : Along (step ovf) Fits b (atMillis calls))
    (huncut : Along (step ovf) Uncut b (atMillis calls)) :
    1000 * credited ovf b (atMillis calls) + leftover b.refillRate last now (calls.map Prod.fst)
      = ((calls.map Prod.fst).getLastD now - last) * b.refillRate := by
  induction calls generalizing b last now with
  | nil => exact Nat.zero_add _
  | cons call calls ih =>
    obtain ⟨t, call⟩ := call
    have hlater := (List.pairwise_cons.mp hsorted).2
    have hend : t ≤ (calls.map Prod.fst).getLastD t := by
      have hlast : (calls.map Prod.fst).getLastD t ∈ t :: calls.map Prod.fst :=
        List.getLastD_mem_cons
      rcases List.mem_cons.mp hlast with heq | hmem
      · rw [heq]
      · exact Nat.le_of_lt (List.rel_of_pairwise_cons hlater hmem)
    have hafter : last ≤ t :=
      hnow.trans (Nat.le_of_lt (List.rel_of_pairwise_cons hsorted List.mem_cons_self))
    have hfits : b.Fits (t * nanosPerMilli, call) := hfit.1
    obtain ⟨spent, -, hstep⟩ := step_eq ovf hfits
    have hrefill := refill_eq ovf hfits
    have hrate : (b.step ovf (t * nanosPerMilli, call)).1.refillRate = b.refillRate := by
      simp [hstep]
    have hcredit : credited ovf b (atMillis ((t, call) :: calls))
        = ((b.refill ovf (t * nanosPerMilli)).getD b).tokens - b.tokens
          + credited ovf (b.step ovf (t * nanosPerMilli, call)).1 (atMillis calls) := rfl
    rw [hcredit, hrefill, Option.getD_some, List.map_cons, leftover, List.getLastD_cons,
      ← accrued_millis hlast (t := t)]
    dsimp only
    by_cases hzero : b.accrued (t * nanosPerMilli) / 1000 = 0
    · have hsame : b.refilled (t * nanosPerMilli) = b := if_pos hzero
      have hrest := ih (b.step ovf (t * nanosPerMilli, call)).1 last t
        (by rw [hstep, hsame]; exact hlast) hafter hlater hfit.2 huncut.2
      rw [hrate] at hrest
      rw [if_pos hzero, hsame, Nat.sub_self, Nat.zero_add]
      exact hrest
    · have hnew : b.refilled (t * nanosPerMilli) =
          { b with
            tokens := b.tokens + b.accrued (t * nanosPerMilli) / 1000
            lastRefill := t * nanosPerMilli } := by
        rw [refilled, if_neg hzero, Nat.min_eq_left huncut.1]
      have hrest := ih (b.step ovf (t * nanosPerMilli, call)).1 t t (by rw [hstep, hnew]) le_rfl
        hlater hfit.2 huncut.2
      rw [hrate] at hrest
      rw [if_neg hzero, hnew, Nat.add_sub_cancel_left]
      have hsplit : ((calls.map Prod.fst).getLastD t - last) * b.refillRate
          = (t - last) * b.refillRate + ((calls.map Prod.fst).getLastD t - t) * b.refillRate := by
        rw [← Nat.add_mul]
        congr 1
        omega
      rw [hsplit, ← accrued_millis hlast (t := t), ← hrest]
      omega

/-- **THE BUCKET DELIVERS ITS RATE**, short of one token, exactly when the polls leave less than two
tokens over. -/
theorem credit_reaches_rate_iff (ovf : Overflow) (b : TokenBucket) (start : Nat)
    (hstart : b.lastRefill = start * nanosPerMilli) (calls : List (Nat × BucketCall))
    (hsorted : (start :: calls.map Prod.fst).Pairwise (· < ·))
    (hfit : Along (step ovf) Fits b (atMillis calls))
    (huncut : Along (step ovf) Uncut b (atMillis calls)) :
    ((calls.map Prod.fst).getLastD start - start) * b.refillRate / 1000 - 1
        ≤ credited ovf b (atMillis calls) ↔
      leftover b.refillRate start start (calls.map Prod.fst) < 2000 := by
  have hbalance := credited_add_leftover ovf calls b start start hstart le_rfl hsorted hfit huncut
  rw [← hbalance]
  omega

/-- A bucket that was emptied and has had its first refill, at millisecond 1. -/
def emptied (refillRate : Nat) : TokenBucket :=
  runState (step .checked) (.new 100 refillRate 0)
    [(0, .tryAcquire 100), (1 * nanosPerMilli, .available)]

def polls : List (Nat × BucketCall) :=
  [(2, .available), (3, .available), (4, .available), (5, .available)]

theorem credit_reaches_rate_iff_even :
    ((polls.map Prod.fst).getLastD 1 - 1) * (emptied 1000).refillRate / 1000 - 1
      ≤ credited .checked (emptied 1000) (atMillis polls) :=
  (credit_reaches_rate_iff .checked (emptied 1000) 1 rfl polls (by decide)
    ⟨by decide, by decide, by decide, by decide, trivial⟩
    ⟨by decide, by decide, by decide, by decide, trivial⟩).mpr (by decide)

/-- **Polling discards fractions**: at 1500 tokens a second, four milliseconds bring six tokens, and
four polls credit four. -/
theorem polling_discards_fractions :
    (emptied 1500).lastRefill = 1 * nanosPerMilli ∧
    Along (step .checked) Fits (emptied 1500) (atMillis polls) ∧
    Along (step .checked) Uncut (emptied 1500) (atMillis polls) ∧
    ¬ 4 * 1500 / 1000 - 1 ≤ credited .checked (emptied 1500) (atMillis polls) :=
  ⟨rfl, ⟨by decide, by decide, by decide, by decide, trivial⟩,
    ⟨by decide, by decide, by decide, by decide, trivial⟩, by decide⟩

end TokenBucket

end Blockyard.Storage
