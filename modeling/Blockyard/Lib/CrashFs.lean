/-
# A flat file system with `fsync`, failing calls and crashes

Files are byte strings under names of an arbitrary ordered type.  The part of a file system
that crash arguments need is small:

* a call changes the names it mentions and no other (`getElem?_exec_of_not_touches`);
* a program is a LIST of calls, run until one fails (`runScript`); what a failed run leaves is
  what the calls before the failure left, plus -- for a failing write -- part of its bytes
  (`runScript_of_fault`);
* a crash after some number of calls keeps every file that was synced and cuts every other
  file to some prefix of its contents (`crash`).  Renames are atomic.

Reading is not a call: it changes nothing.
-/
import Mathlib

open Std

namespace CrashFs

/-! ## 1. Files and calls -/

/-- A file: its contents, and whether they have been synced since the last change. -/
structure File where
  data : List UInt8
  synced : Bool
  deriving DecidableEq, Repr

section Calls

variable {N : Type} [Ord N]

abbrev Fs (N : Type) [Ord N] := ExtTreeMap N File compare

/-- The calls that change a file system, and the two on directories that only can fail. -/
inductive Call (N : Type)
  | mkdir
  | create (n : N)
  | write (n : N) (bytes : List UInt8)
  | sync (n : N)
  | rename (src dst : N)
  | remove (n : N)
  | syncDir

variable [TransOrd N]

def exec (fs : Fs N) : Call N → Fs N
  | .mkdir | .syncDir => fs
  | .create n => fs.insert n ⟨[], false⟩
  | .write n bytes =>
    match fs[n]? with
    | some f => fs.insert n ⟨f.data ++ bytes, false⟩
    | none => fs
  | .sync n =>
    match fs[n]? with
    | some f => fs.insert n { f with synced := true }
    | none => fs
  | .rename src dst =>
    match fs[src]? with
    | some f => (fs.erase src).insert dst f
    | none => fs
  | .remove n => fs.erase n

def execAll (fs : Fs N) (calls : List (Call N)) : Fs N := calls.foldl exec fs

@[simp] theorem execAll_nil (fs : Fs N) : execAll fs [] = fs := rfl

@[simp] theorem execAll_cons (fs : Fs N) (c : Call N) (cs : List (Call N)) :
    execAll fs (c :: cs) = execAll (exec fs c) cs := rfl

def touches : Call N → N → Prop
  | .mkdir, _ | .syncDir, _ => False
  | .create n, m | .write n _, m | .sync n, m | .remove n, m => n = m
  | .rename src dst, m => src = m ∨ dst = m

/-- What a call moves to a name: the name, and the bytes of the file. -/
def renamed (fs : Fs N) : Call N → List (N × List UInt8)
  | .rename src dst => fs[src]?.toList.map fun f => (dst, f.data)
  | _ => []

/-- What a program has moved, in order. -/
def renames (fs : Fs N) : List (Call N) → List (N × List UInt8)
  | [] => []
  | c :: cs => renamed fs c ++ renames (exec fs c) cs

@[simp] theorem renames_nil (fs : Fs N) : renames fs [] = [] := rfl

@[simp] theorem renames_cons (fs : Fs N) (c : Call N) (cs : List (Call N)) :
    renames fs (c :: cs) = renamed fs c ++ renames (exec fs c) cs := rfl

theorem renames_eq_nil {fs : Fs N} {cs : List (Call N)}
    (h : ∀ c ∈ cs, ∀ src dst, c ≠ .rename src dst) : renames fs cs = [] := by
  induction cs generalizing fs with
  | nil => rfl
  | cons c cs ih =>
    rw [renames_cons, ih fun c' hc' => h c' (List.mem_cons_of_mem _ hc'), List.append_nil]
    cases c with
    | rename src dst => exact absurd rfl (h _ List.mem_cons_self src dst)
    | _ => rfl

end Calls

/-! ## 2. What a call changes -/

section Lookup

variable {N : Type} [Ord N] [TransOrd N] [LawfulEqOrd N] [DecidableEq N]

theorem getElem?_exec_create (fs : Fs N) (n m : N) :
    (exec fs (.create n))[m]? = if n = m then some ⟨[], false⟩ else fs[m]? := by
  simp only [exec, ExtTreeMap.getElem?_insert, LawfulEqOrd.compare_eq_iff_eq]

theorem getElem?_exec_write (fs : Fs N) (n m : N) (bytes : List UInt8) :
    (exec fs (.write n bytes))[m]?
      = if n = m then fs[n]?.map (fun f => ⟨f.data ++ bytes, false⟩) else fs[m]? := by
  simp only [exec]
  cases hn : fs[n]? with
  | none =>
    by_cases h : n = m
    · subst h
      simp [hn]
    · simp [h]
  | some f => simp [ExtTreeMap.getElem?_insert]

theorem getElem?_exec_sync (fs : Fs N) (n m : N) :
    (exec fs (.sync n))[m]?
      = if n = m then fs[n]?.map ({ · with synced := true }) else fs[m]? := by
  simp only [exec]
  cases hn : fs[n]? with
  | none =>
    by_cases h : n = m
    · subst h
      simp [hn]
    · simp [h]
  | some f => simp [ExtTreeMap.getElem?_insert]

theorem getElem?_exec_rename {fs : Fs N} {src dst : N} {f : File} (hsrc : fs[src]? = some f)
    (m : N) : (exec fs (.rename src dst))[m]?
      = if dst = m then some f else if src = m then none else fs[m]? := by
  simp only [exec, hsrc, ExtTreeMap.getElem?_insert, ExtTreeMap.getElem?_erase,
    LawfulEqOrd.compare_eq_iff_eq]

theorem getElem?_exec_remove (fs : Fs N) (n m : N) :
    (exec fs (.remove n))[m]? = if n = m then none else fs[m]? := by
  simp only [exec, ExtTreeMap.getElem?_erase, LawfulEqOrd.compare_eq_iff_eq]

/-- **Writing a whole file**: created, written, synced. -/
theorem getElem?_execAll_writeFile (fs : Fs N) (n m : N) (data : List UInt8) :
    (execAll fs [.create n, .write n data, .sync n])[m]?
      = if n = m then some ⟨data, true⟩ else fs[m]? := by
  simp only [execAll_cons, execAll_nil, getElem?_exec_sync, getElem?_exec_write,
    getElem?_exec_create]
  by_cases h : n = m
  · simp [h]
  · simp [h]

/-- **The frame rule.** -/
theorem getElem?_exec_of_not_touches (fs : Fs N) {c : Call N} {m : N} (h : ¬ touches c m) :
    (exec fs c)[m]? = fs[m]? := by
  cases c with
  | mkdir | syncDir => rfl
  | create n => exact (getElem?_exec_create fs n m).trans (if_neg h)
  | write n bytes => exact (getElem?_exec_write fs n m bytes).trans (if_neg h)
  | sync n => exact (getElem?_exec_sync fs n m).trans (if_neg h)
  | remove n => exact (getElem?_exec_remove fs n m).trans (if_neg h)
  | rename src dst =>
    have hne : src ≠ m ∧ dst ≠ m := not_or.mp h
    cases hsrc : fs[src]? with
    | none => simp only [exec, hsrc]
    | some f => rw [getElem?_exec_rename hsrc, if_neg hne.2, if_neg hne.1]

theorem getElem?_execAll_of_not_touches (fs : Fs N) {cs : List (Call N)} {m : N}
    (h : ∀ c ∈ cs, ¬ touches c m) : (execAll fs cs)[m]? = fs[m]? := by
  induction cs generalizing fs with
  | nil => rfl
  | cons c cs ih =>
    rw [execAll_cons, ih _ fun c' hc' => h c' (List.mem_cons_of_mem _ hc'),
      getElem?_exec_of_not_touches fs (h c List.mem_cons_self)]

theorem getElem?_execAll_remove (fs : Fs N) (names : List N) (m : N) :
    (execAll fs (names.map .remove))[m]? = if m ∈ names then none else fs[m]? := by
  induction names generalizing fs with
  | nil => simp
  | cons n names ih =>
    rw [List.map_cons, execAll_cons, ih, getElem?_exec_remove]
    by_cases hnm : n = m
    · simp [hnm]
    · simp [hnm, Ne.symm hnm]

end Lookup

/-! ## 3. Programs that can fail -/

section Script

variable {N : Type} [Ord N] [TransOrd N] {ε : Type} {fs : Fs N}
  {script : List (Call N × (String → ε))}

/-- A failing call: the text of its error and, for a write, how many bytes got through. -/
structure Fault where
  text : String
  written : Nat
  deriving DecidableEq, Repr

def execFailing (f : Fault) (fs : Fs N) : Call N → Fs N
  | .write n bytes => exec fs (.write n (bytes.take f.written))
  | _ => fs

variable {fault : Nat → Option Fault}

/-- Run a program: calls with the error each one turns a failure into.  `fault i` says
whether the `i`-th call fails. -/
def runScript (fault : Nat → Option Fault) (fs : Fs N) :
    List (Call N × (String → ε)) → Fs N × Except ε Unit
  | [] => (fs, .ok ())
  | (c, wrap) :: rest =>
    match fault 0 with
    | none => runScript (fun i => fault (i + 1)) (exec fs c) rest
    | some f => (execFailing f fs c, .error (wrap f.text))

theorem runScript_of_no_fault (fs : Fs N) (script : List (Call N × (String → ε)))
    (h : ∀ i, fault i = none) :
    runScript fault fs script = (execAll fs (script.map Prod.fst), .ok ()) := by
  induction script generalizing fs fault with
  | nil => rfl
  | cons step rest ih =>
    rw [runScript, h 0]
    exact ih _ fun i => h (i + 1)

theorem runScript_isOk_iff :
    (runScript fault fs script).2.isOk = true ↔ ∀ i < script.length, fault i = none := by
  induction script generalizing fs fault with
  | nil => simp [runScript, Except.isOk, Except.toBool]
  | cons step rest ih =>
    rw [runScript, List.length_cons, Nat.forall_lt_succ_left]
    split
    · next h0 =>
      rw [ih]
      simp [h0]
    · next h0 => simp [h0, Except.isOk, Except.toBool]

theorem runScript_ok {fs fs' : Fs N} (h : runScript fault fs script = (fs', .ok ())) :
    fs' = execAll fs (script.map Prod.fst) := by
  induction script generalizing fs fault with
  | nil =>
    cases h
    rfl
  | cons step rest ih =>
    rw [runScript] at h
    split at h
    · exact ih h
    · cases h

theorem exists_first_fault {n : Nat} (h : ¬ ∀ i < n, fault i = none) :
    ∃ i f, i < n ∧ fault i = some f ∧ ∀ j < i, fault j = none := by
  classical
  push Not at h
  obtain ⟨hi, hf⟩ := Nat.find_spec h
  obtain ⟨f, hsome⟩ := Option.ne_none_iff_exists'.mp hf
  refine ⟨Nat.find h, f, hi, hsome, fun j hj => ?_⟩
  by_contra hne
  exact Nat.find_min h hj ⟨hj.trans hi, hne⟩

/-- The calls before the first failing one are made, and the part of it that gets through. -/
theorem runScript_of_fault {i : Nat} {f : Fault} {call : Call N × (String → ε)}
    (hfirst : ∀ j < i, fault j = none) (hf : fault i = some f) (hcall : script[i]? = some call) :
    (runScript fault fs script).1
      = execFailing f (execAll fs ((script.map Prod.fst).take i)) call.1 := by
  induction script generalizing fs fault i with
  | nil => cases hcall
  | cons first rest ih =>
    rw [runScript]
    cases i with
    | zero =>
      cases hcall
      simp only [hf]
      rfl
    | succ i =>
      simp only [hfirst 0 (Nat.succ_pos i)]
      exact ih (fun j hj => hfirst (j + 1) (Nat.succ_lt_succ hj)) hf hcall

variable [LawfulEqOrd N] [DecidableEq N]

theorem getElem?_execFailing_of_not_touches (f : Fault) (fs : Fs N) {c : Call N} {m : N}
    (h : ¬ touches c m) : (execFailing f fs c)[m]? = fs[m]? := by
  cases c with
  | write n bytes => exact getElem?_exec_of_not_touches fs h
  | _ => rfl

/-- **The frame rule for programs**, failing or not. -/
theorem getElem?_runScript_of_not_touches (fs : Fs N) (fault : Nat → Option Fault) {m : N}
    (h : ∀ step ∈ script, ¬ touches step.1 m) :
    (runScript fault fs script).1[m]? = fs[m]? := by
  induction script generalizing fs fault with
  | nil => rfl
  | cons step rest ih =>
    rw [runScript]
    split
    · rw [ih _ _ fun s hs => h s (List.mem_cons_of_mem _ hs),
        getElem?_exec_of_not_touches fs (h step List.mem_cons_self)]
    · exact getElem?_execFailing_of_not_touches _ fs (h step List.mem_cons_self)

end Script

/-! ## 4. Crashes -/

section Crash

variable {N : Type} [Ord N] [TransOrd N]

/-- What a crash leaves of a file: all of it if it was synced, some prefix otherwise. -/
def File.survive (cut : Nat) (f : File) : File :=
  if f.synced then f else ⟨f.data.take cut, true⟩

/-- The file system found after a crash; `cut` says where each unsynced file was cut off. -/
def crash (cut : N → Nat) (fs : Fs N) : Fs N := fs.map fun n f => f.survive (cut n)

variable [LawfulEqOrd N]

theorem getElem?_crash (cut : N → Nat) (fs : Fs N) (n : N) :
    (crash cut fs)[n]? = fs[n]?.map (File.survive (cut n)) :=
  ExtTreeMap.getElem?_map

theorem survive_of_synced {f : File} (h : f.synced = true) (cut : Nat) : f.survive cut = f :=
  if_pos h

/-- What a crash leaves is on the disk. -/
theorem synced_survive (cut : Nat) (f : File) : (f.survive cut).synced = true := by
  unfold File.survive
  split
  · assumption
  · rfl

@[simp] theorem survive_synced (cut : Nat) (data : List UInt8) :
    File.survive cut ⟨data, true⟩ = ⟨data, true⟩ := rfl

@[simp] theorem survive_unsynced (cut : Nat) (data : List UInt8) :
    File.survive cut ⟨data, false⟩ = ⟨data.take cut, true⟩ := rfl

end Crash

end CrashFs
