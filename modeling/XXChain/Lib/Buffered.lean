import Mathlib.Data.List.Basic

/-!
# XXChain — a value that changes at fixed times

What is written to a buffered value is kept aside, and comes into force with the next commit. So
the value in force is the last one that was written before a commit, whatever is pending:

* **`Buffered.run_current`** — the value in force after any list of operations.
-/

namespace XXChain

/-- A value in force, and the one that is to follow it. -/
structure Buffered (α : Type*) where
  current : α
  next : Option α

/-- A write, or the commit of what was written. -/
inductive BufferOp (α : Type*) where
  | write (a : α)
  | commit

variable {α : Type*}

namespace BufferOp

/-- Whether a commit is still to come. -/
def commits : List (BufferOp α) → Bool
  | [] => false
  | .write _ :: ops => commits ops
  | .commit :: _ => true

/-- The values written before the last commit, in order. -/
def committed : List (BufferOp α) → List α
  | [] => []
  | .write a :: ops => if commits ops then a :: committed ops else []
  | .commit :: ops => committed ops

/-- Without a commit nothing is committed. -/
theorem committed_of_not_commits {ops : List (BufferOp α)} (h : commits ops = false) :
    committed ops = [] := by
  induction ops with
  | nil => rfl
  | cons op ops ih =>
    cases op with
    | write a =>
      have hrest : commits ops = false := h
      rw [committed, hrest, if_neg Bool.false_ne_true]
    | commit => cases h

end BufferOp

namespace Buffered

open BufferOp (commits committed)

def apply (b : Buffered α) : BufferOp α → Buffered α
  | .write a => { b with next := some a }
  | .commit => { current := b.next.getD b.current, next := none }

def run (b : Buffered α) (ops : List (BufferOp α)) : Buffered α :=
  ops.foldl apply b

/-- What is pending at first counts as written, if a commit is to come. -/
def pending (b : Buffered α) (ops : List (BufferOp α)) : List α :=
  if commits ops then b.next.toList else []

theorem getLast?_append_getD (l l' : List α) (a : α) :
    (l ++ l').getLast?.getD a = l'.getLast?.getD (l.getLast?.getD a) := by
  rw [List.getLast?_append]
  cases l'.getLast? <;> rfl

/-- The value in force is the last one that was written before a commit. -/
theorem run_current (b : Buffered α) (ops : List (BufferOp α)) :
    (b.run ops).current = (b.pending ops ++ committed ops).getLast?.getD b.current := by
  induction ops generalizing b with
  | nil => rfl
  | cons op ops ih =>
    show ((b.apply op).run ops).current = _
    rw [ih, getLast?_append_getD, getLast?_append_getD]
    cases op with
    | write a =>
      show (committed ops).getLast?.getD (((b.apply (.write a)).pending ops).getLast?.getD
        b.current) = _
      unfold pending
      cases hcommits : commits ops with
      | false =>
        have hnone := BufferOp.committed_of_not_commits hcommits
        simp only [commits, committed, hcommits, hnone, Bool.false_eq_true, if_false]
      | true =>
        -- the write overrides what was pending
        simp only [commits, committed, hcommits, if_true, apply, Option.toList_some,
          List.getLast?_cons, List.getLast?_nil, Option.getD_some, Option.getD_none]
    | commit =>
      show (committed ops).getLast?.getD (((b.apply .commit).pending ops).getLast?.getD
        (b.next.getD b.current)) = (committed ops).getLast?.getD
          (b.next.toList.getLast?.getD b.current)
      have hpending : (b.apply .commit).pending ops = [] := by
        unfold pending
        split <;> rfl
      rw [hpending]
      cases b.next <;> rfl

end Buffered

end XXChain
