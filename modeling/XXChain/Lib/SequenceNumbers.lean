import Mathlib.Data.List.Range
import Mathlib.Logic.Function.Iterate
import XXChain.Lib.Run

/-!
# XXChain — sequence numbers, one sequence for each key

An issuer has a counter for each key that was opened, and logs the numbers it issues. A key is
opened once, with the counter at `first`; to issue a number for an open key is to step its
counter with `next` and log what it became. Keys that are not allowed are never opened.

* **`Sound.step`** — for each key, the numbers issued are the ones that follow `first`, in
  order, and the counter is the last of them;
* **`run_extends`** — an open key stays open, and what is logged stays logged.
-/

namespace XXChain.SequenceNumbers

open Function Relation

variable {κ ν : Type} [DecidableEq κ]

/-- The counters of the open keys, and the numbers issued so far with their keys. -/
structure Issuer (κ ν : Type) where
  counter : κ → Option ν
  log : List (κ × ν)

/-- The numbers of the entries for a key. -/
def numbersOf (k : κ) (log : List (κ × ν)) : List ν :=
  log.filterMap fun entry => if entry.1 = k then some entry.2 else none

@[simp]
theorem numbersOf_append (k : κ) (log log' : List (κ × ν)) :
    numbersOf k (log ++ log') = numbersOf k log ++ numbersOf k log' :=
  List.filterMap_append ..

@[simp]
theorem numbersOf_singleton_self (k : κ) (n : ν) : numbersOf k [(k, n)] = [n] := by
  simp [numbersOf]

theorem numbersOf_singleton_of_ne {k k' : κ} (hne : k' ≠ k) (n : ν) :
    numbersOf k [(k', n)] = [] := by
  simp [numbersOf, hne]

theorem length_numbersOf_le (k : κ) (log : List (κ × ν)) :
    (numbersOf k log).length ≤ log.length :=
  List.length_filterMap_le _ log

/-- One step of an issuer with the allowed keys, the first counter and the way to step one. -/
inductive Step (allowed : κ → Prop) (first : ν) (next : ν → ν) : Issuer κ ν → Issuer κ ν → Prop
  | opened (s : Issuer κ ν) (k : κ) (hallowed : allowed k) (hnew : s.counter k = none) :
      Step allowed first next s { s with counter := update s.counter k (some first) }
  | issued (s : Issuer κ ν) (k : κ) (n : ν) (hopen : s.counter k = some n) :
      Step allowed first next s
        { counter := update s.counter k (some (next n)), log := s.log ++ [(k, next n)] }

variable {allowed : κ → Prop} {first : ν} {next : ν → ν} {s s' : Issuer κ ν}

/-- The first `m` numbers after `first`. -/
def successors (first : ν) (next : ν → ν) (m : Nat) : List ν :=
  (List.range m).map fun i => next^[i + 1] first

@[simp]
theorem length_successors (first : ν) (next : ν → ν) (m : Nat) :
    (successors first next m).length = m := by
  rw [successors, List.length_map, List.length_range]

theorem successors_succ (first : ν) (next : ν → ν) (m : Nat) :
    successors first next (m + 1) = successors first next m ++ [next^[m + 1] first] := by
  rw [successors, List.range_succ, List.map_append]
  rfl

/-- A key has been issued the first numbers of the sequence, and its counter is the last of
them; a key that is not open, or not allowed, has been issued none. -/
structure Sound (allowed : κ → Prop) (first : ν) (next : ν → ν) (s : Issuer κ ν) : Prop where
  opened : ∀ k n, s.counter k = some n →
    ∃ m, numbersOf k s.log = successors first next m ∧ n = next^[m] first
  closed : ∀ k, s.counter k = none → numbersOf k s.log = []
  forbidden : ∀ k, ¬ allowed k → s.counter k = none

theorem Sound.init (hcounter : s.counter = fun _ => none) (hlog : s.log = []) :
    Sound allowed first next s where
  opened := by
    intro k n hn
    rw [hcounter] at hn
    cases hn
  closed := by
    intro k _
    rw [hlog]
    rfl
  forbidden := by
    intro k _
    rw [hcounter]

/-- One key is written: its numbers are those of the new counter, and the others stay. -/
theorem Sound.write (hs : Sound allowed first next s) {k : κ} {m : Nat} {log : List (κ × ν)}
    (hallowed : allowed k) (hself : numbersOf k log = successors first next m)
    (hothers : ∀ j, j ≠ k → numbersOf j log = numbersOf j s.log) :
    Sound allowed first next
      { counter := update s.counter k (some (next^[m] first)), log := log } := by
  constructor
  case opened =>
    intro j n hj
    by_cases hjk : j = k
    · subst hjk
      have hn : next^[m] first = n := by simpa using hj
      exact ⟨m, hself, hn.symm⟩
    · obtain ⟨m', hnumbers, hn⟩ := hs.opened j n (by simpa [hjk] using hj)
      exact ⟨m', (hothers j hjk).trans hnumbers, hn⟩
  case closed =>
    intro j hj
    by_cases hjk : j = k
    · subst hjk
      simp at hj
    · exact (hothers j hjk).trans (hs.closed j (by simpa [hjk] using hj))
  case forbidden =>
    intro j hj
    have hjk : j ≠ k := fun heq => hj (heq ▸ hallowed)
    exact (update_of_ne hjk _ _).trans (hs.forbidden j hj)

theorem Sound.step (hs : Sound allowed first next s) (h : Step allowed first next s s') :
    Sound allowed first next s' := by
  cases h with
  | opened k hallowed hnew =>
    -- a key that was closed has been issued nothing yet
    exact hs.write (m := 0) hallowed (hs.closed k hnew) fun _ _ => rfl
  | issued k n hopen =>
    obtain ⟨m, hnumbers, hn⟩ := hs.opened k n hopen
    -- what is open is allowed
    have hallowed : allowed k := by
      by_contra hnot
      rw [hs.forbidden k hnot] at hopen
      cases hopen
    -- the number that is logged is the one that the counter steps to
    have hnext : next n = next^[m + 1] first := by rw [hn, iterate_succ_apply']
    rw [hnext]
    refine hs.write hallowed ?_ fun j hj => ?_
    · rw [numbersOf_append, hnumbers, numbersOf_singleton_self, successors_succ]
    · rw [numbersOf_append, numbersOf_singleton_of_ne (Ne.symm hj), List.append_nil]

theorem Sound.run (hs : Sound allowed first next s)
    (h : ReflTransGen (Step allowed first next) s s') : Sound allowed first next s' :=
  run_invariant (fun _ _ hs h => hs.step h) hs h

/-- What a run can only add to. -/
structure Extends (s s' : Issuer κ ν) : Prop where
  log : s.log <+: s'.log
  counter : ∀ k, s.counter k ≠ none → s'.counter k ≠ none

theorem step_extends (h : Step allowed first next s s') : Extends s s' := by
  cases h with
  | opened k hallowed hnew =>
    refine ⟨List.prefix_rfl, fun j hj => ?_⟩
    by_cases hjk : j = k
    · subst hjk
      simp
    · simpa [hjk] using hj
  | issued k n hopen =>
    refine ⟨List.prefix_append _ _, fun j hj => ?_⟩
    by_cases hjk : j = k
    · subst hjk
      simp
    · simpa [hjk] using hj

theorem run_extends (h : ReflTransGen (Step allowed first next) s s') : Extends s s' := by
  induction h with
  | refl => exact ⟨List.prefix_rfl, fun _ hk => hk⟩
  | tail _ hlast ih =>
    have hstep := step_extends hlast
    exact ⟨ih.log.trans hstep.log, fun k hk => hstep.counter k (ih.counter k hk)⟩

end XXChain.SequenceNumbers
