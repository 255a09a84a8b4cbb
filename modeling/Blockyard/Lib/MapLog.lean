/-
# Finite maps driven by a log of key events

An event says what becomes of one key: `(k, some v)` stores `v` at `k`, `(k, none)` clears
`k`.  Replaying a log of events on a map is the same as looking, key by key, at the LAST
event that mentions the key (`getElem?_replay`); so a log leaves a map as it is exactly when
every last event repeats what the map already says (`replay_eq_self_iff`).

§3 is the same for a map of maps whose outer keys are never created: the log then addresses
pairs of an outer and an inner key (`replayIn_eq_self_iff`).
-/
import Mathlib

open Std

namespace MapLog

/-! ## 1. The last event of a log -/

section Last

variable {K V : Type} [DecidableEq K] {k : K} {v : V} {log : List (K × V)}

/-- What the last event mentioning `k` says, if any event does. -/
def last (k : K) : List (K × V) → Option V
  | [] => none
  | (k', v) :: log => (last k log).or (if k' = k then some v else none)

@[simp] theorem last_nil (k : K) : last k ([] : List (K × V)) = none := rfl

theorem last_cons (k k' : K) (v : V) (log : List (K × V)) :
    last k ((k', v) :: log) = (last k log).or (if k' = k then some v else none) := rfl

theorem last_append (k : K) (log log' : List (K × V)) :
    last k (log ++ log') = (last k log').or (last k log) := by
  induction log with
  | nil => simp
  | cons e log ih =>
    obtain ⟨k', v⟩ := e
    rw [List.cons_append, last_cons, last_cons, ih, Option.or_assoc]

theorem last_eq_none (h : ∀ e ∈ log, e.1 ≠ k) :
    last k log = none := by
  induction log with
  | nil => rfl
  | cons e log ih =>
    obtain ⟨k', v⟩ := e
    rw [last_cons, ih (fun e he => h e (List.mem_cons_of_mem _ he)),
      if_neg (h (k', v) List.mem_cons_self)]
    rfl

/-- A key whose events all say the same has that as its last event. -/
theorem last_eq_some (hmem : ∃ e ∈ log, e.1 = k) (hall : ∀ e ∈ log, e.1 = k → e.2 = v) :
    last k log = some v := by
  induction log with
  | nil =>
    obtain ⟨e, he, -⟩ := hmem
    cases he
  | cons e log ih =>
    obtain ⟨k', v'⟩ := e
    have hall' : ∀ e ∈ log, e.1 = k → e.2 = v := fun e he => hall e (List.mem_cons_of_mem _ he)
    rw [last_cons]
    by_cases hlog : ∃ e ∈ log, e.1 = k
    · rw [ih hlog hall']
      rfl
    · -- nothing later mentions the key, so the head does
      obtain ⟨e, he, hek⟩ := hmem
      have hnone : last k log = none := last_eq_none fun e he hek => hlog ⟨e, he, hek⟩
      rcases List.mem_cons.mp he with rfl | he'
      · have hv : v' = v := hall _ List.mem_cons_self hek
        rw [hnone, if_pos hek, hv]
        rfl
      · exact absurd ⟨e, he', hek⟩ hlog

/-- The last event mentioning a key, picked out of the log. -/
theorem last_eq_getLast? (k : K) (log : List (K × V)) :
    last k log = (log.filterMap fun e => if e.1 = k then some e.2 else none).getLast? := by
  induction log with
  | nil => rfl
  | cons e log ih =>
    obtain ⟨k', v⟩ := e
    rw [last_cons, ih, List.filterMap_cons]
    by_cases hk : k' = k
    · simp [hk, List.getLast?_cons]
    · simp [hk]

theorem mem_of_last (h : last k log = some v) :
    (k, v) ∈ log := by
  rw [last_eq_getLast?] at h
  obtain ⟨⟨k', v'⟩, hmem, heq⟩ := List.mem_filterMap.mp (List.mem_of_getLast? h)
  obtain ⟨rfl, hv⟩ := Option.ite_none_right_eq_some.mp heq
  rwa [← Option.some.inj hv]

theorem exists_last_of_mem (h : (k, v) ∈ log) :
    ∃ v', last k log = some v' := by
  rw [last_eq_getLast?, ← Option.isSome_iff_exists, List.getLast?_isSome]
  exact List.ne_nil_of_mem (List.mem_filterMap.mpr ⟨(k, v), h, if_pos rfl⟩)

end Last

/-! ## 2. Replaying a log on a map -/

section Replay

variable {K V : Type} [Ord K] [TransOrd K] [LawfulEqOrd K] [DecidableEq K]

def put (m : ExtTreeMap K V compare) : K × Option V → ExtTreeMap K V compare
  | (k, some v) => m.insert k v
  | (k, none) => m.erase k

/-- The events of a log applied from left to right. -/
def replay (m : ExtTreeMap K V compare) (log : List (K × Option V)) : ExtTreeMap K V compare :=
  log.foldl put m

theorem getElem?_put (m : ExtTreeMap K V compare) (k k' : K) (r : Option V) :
    (put m (k', r))[k]? = if k' = k then r else m[k]? := by
  cases r with
  | none => simp only [put, ExtTreeMap.getElem?_erase, LawfulEqOrd.compare_eq_iff_eq]
  | some v => simp only [put, ExtTreeMap.getElem?_insert, LawfulEqOrd.compare_eq_iff_eq]

/-- **The last event decides.**  After a replay a key holds what the last event on it says,
and what it held before when no event mentions it. -/
theorem getElem?_replay (m : ExtTreeMap K V compare) (log : List (K × Option V)) (k : K) :
    (replay m log)[k]? = (last k log).getD m[k]? := by
  induction log generalizing m with
  | nil => rfl
  | cons e log ih =>
    obtain ⟨k', r⟩ := e
    have hstep : replay m ((k', r) :: log) = replay (put m (k', r)) log := rfl
    rw [hstep, ih, last_cons, getElem?_put]
    cases last k log with
    | some r' => rfl
    | none => by_cases hk : k' = k <;> simp [hk]

/-- `Idle m log`: every last event of the log repeats what the map already says. -/
def Idle (m : ExtTreeMap K V compare) (log : List (K × Option V)) : Prop :=
  ∀ k r, last k log = some r → m[k]? = r

/-- **A log leaves a map as it is exactly when it is idle on it.** -/
theorem replay_eq_self_iff (m : ExtTreeMap K V compare) (log : List (K × Option V)) :
    replay m log = m ↔ Idle m log := by
  constructor
  · intro h k r hr
    have hk := getElem?_replay m log k
    rw [h, hr] at hk
    exact hk
  · intro h
    refine ExtTreeMap.ext_getElem? fun k => ?_
    rw [getElem?_replay]
    cases hr : last k log with
    | none => rfl
    | some r => exact (h k r hr).symm

end Replay

/-! ## 3. Maps of maps -/

section Nested

variable {K L V : Type} [Ord K] [TransOrd K] [LawfulEqOrd K] [Ord L] [TransOrd L]

/-- The value at an outer and an inner key. -/
def get2 (m : ExtTreeMap K (ExtTreeMap L V compare) compare) (k : K) (l : L) : Option V :=
  m[k]?.bind (·[l]?)

/-- Store a value under an outer key that is already there. -/
def put2 (m : ExtTreeMap K (ExtTreeMap L V compare) compare) (e : (K × L) × V) :
    ExtTreeMap K (ExtTreeMap L V compare) compare :=
  match m[e.1.1]? with
  | some inner => m.insert e.1.1 (inner.insert e.1.2 e.2)
  | none => m

/-- The events of a log stored from left to right. -/
def replayIn (m : ExtTreeMap K (ExtTreeMap L V compare) compare) (log : List ((K × L) × V)) :
    ExtTreeMap K (ExtTreeMap L V compare) compare :=
  log.foldl put2 m

/-- No outer key appears or disappears. -/
theorem mem_put2 (m : ExtTreeMap K (ExtTreeMap L V compare) compare) (e : (K × L) × V) (k : K) :
    k ∈ put2 m e ↔ k ∈ m := by
  unfold put2
  split
  · rename_i inner hm
    rw [ExtTreeMap.mem_insert, LawfulEqOrd.compare_eq_iff_eq]
    refine ⟨?_, Or.inr⟩
    rintro (rfl | h)
    · rw [ExtTreeMap.mem_iff_isSome_getElem?, hm]; rfl
    · exact h
  · rfl

theorem mem_replayIn (log : List ((K × L) × V))
    (m : ExtTreeMap K (ExtTreeMap L V compare) compare) (k : K) :
    k ∈ replayIn m log ↔ k ∈ m := by
  induction log generalizing m with
  | nil => rfl
  | cons e log ih => exact (ih (put2 m e)).trans (mem_put2 m e k)

variable [DecidableEq K] [LawfulEqOrd L] [DecidableEq L]
  {m : ExtTreeMap K (ExtTreeMap L V compare) compare}

theorem get2_put2 {e : (K × L) × V} (he : e.1.1 ∈ m) (k : K) (l : L) :
    get2 (put2 m e) k l = if e.1 = (k, l) then some e.2 else get2 m k l := by
  obtain ⟨inner, hm⟩ := Option.isSome_iff_exists.mp (ExtTreeMap.mem_iff_isSome_getElem?.mp he)
  unfold put2 get2
  rw [hm]
  simp only [ExtTreeMap.getElem?_insert, LawfulEqOrd.compare_eq_iff_eq]
  obtain ⟨⟨k', l'⟩, v⟩ := e
  by_cases hk : k' = k
  · subst hk
    simp only at hm
    simp [hm, ExtTreeMap.getElem?_insert]
  · simp [hk]

/-- **The last event decides**, for a log whose outer keys are all there. -/
theorem get2_replayIn {log : List ((K × L) × V)} (hlog : ∀ e ∈ log, e.1.1 ∈ m) (k : K) (l : L) :
    get2 (replayIn m log) k l = (last (k, l) log).or (get2 m k l) := by
  induction log generalizing m with
  | nil => simp [replayIn]
  | cons e log ih =>
    have he : e.1.1 ∈ m := hlog e List.mem_cons_self
    have hstep : replayIn m (e :: log) = replayIn (put2 m e) log := rfl
    rw [hstep, ih (fun e' he' => (mem_put2 m e _).mpr (hlog e' (List.mem_cons_of_mem _ he'))),
      get2_put2 he, last_cons]
    cases last (k, l) log with
    | some v => rfl
    | none => by_cases hk : e.1 = (k, l) <;> simp [hk]

/-- **A log leaves a map of maps as it is exactly when every last event repeats what is
stored.** -/
theorem replayIn_eq_self_iff {log : List ((K × L) × V)} (hlog : ∀ e ∈ log, e.1.1 ∈ m) :
    replayIn m log = m ↔ ∀ k l v, last (k, l) log = some v → get2 m k l = some v := by
  constructor
  · intro h k l v hv
    have hk := get2_replayIn hlog k l
    rw [h, hv] at hk
    exact hk
  · intro h
    have hget : ∀ k l, get2 (replayIn m log) k l = get2 m k l := by
      intro k l
      rw [get2_replayIn hlog]
      cases hv : last (k, l) log with
      | none => rfl
      | some v => rw [h k l v hv]; rfl
    refine ExtTreeMap.ext_getElem? fun k => ?_
    have hmem := mem_replayIn log m k
    rw [ExtTreeMap.mem_iff_isSome_getElem?, ExtTreeMap.mem_iff_isSome_getElem?] at hmem
    cases hm : m[k]? with
    | none =>
      rw [hm] at hmem
      exact Option.not_isSome_iff_eq_none.mp fun hs => by simpa using hmem.mp hs
    | some inner =>
      rw [hm] at hmem
      obtain ⟨inner', hm'⟩ := Option.isSome_iff_exists.mp (hmem.mpr rfl)
      rw [hm']
      refine congrArg some (ExtTreeMap.ext_getElem? fun l => ?_)
      have := hget k l
      simpa only [get2, hm, hm', Option.bind_some] using this

end Nested

end MapLog
