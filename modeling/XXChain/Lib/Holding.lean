import XXChain.Lib.Vesting

/-!
# XXChain — what one account holds

The free and the reserved balance of an account and its schedules are all that deposits and
schedules read and write of it. A `Holding` is that part of an account, with the two operations
on it.

* **`holding_deposit`** and **`holding_foldl_tryAdd`** — on the ledger the operations do to the
  holding of their account what they do to a `Holding`, and nothing to the others.
-/

namespace XXChain

open Function

variable {A σ : Type} [DecidableEq A]

/-- The balances of an account and its schedules. -/
structure Holding where
  free : Nat
  reserved : Nat
  schedules : List Schedule
  deriving DecidableEq, Repr

namespace Holding

def total (h : Holding) : Nat :=
  h.free + h.reserved

def deposit (ed v : Nat) (h : Holding) : Holding :=
  { h with free := h.free + Currency.accepted ed v h.total }

/-- Adds the schedules one by one, but for those that are refused. -/
def vest (limit block : Nat) (added : List Schedule) (h : Holding) : Holding :=
  { h with schedules := added.foldl (addSchedule limit block) h.schedules }

@[simp]
theorem deposit_schedules (ed v : Nat) (h : Holding) :
    (h.deposit ed v).schedules = h.schedules := rfl

@[simp]
theorem vest_free (limit block : Nat) (added : List Schedule) (h : Holding) :
    (h.vest limit block added).free = h.free := rfl

/-- Schedules do not count in a deposit. -/
theorem deposit_vest (ed v limit block : Nat) (added : List Schedule) (h : Holding) :
    (h.vest limit block added).deposit ed v = (h.deposit ed v).vest limit block added := rfl

theorem lockedTotal_vest {limit now block : Nat} (hblock : now ≤ block) {added : List Schedule}
    {h : Holding} (hvalid : ∀ v ∈ added, ValidSchedule v)
    (hroom : h.schedules.length + added.length ≤ limit) :
    lockedTotal block (h.vest limit now added).schedules =
      lockedTotal block h.schedules + lockedTotal block added :=
  lockedTotal_foldl_addSchedule hblock hvalid hroom

theorem length_vest_le (limit now : Nat) (added : List Schedule) (h : Holding) :
    (h.vest limit now added).schedules.length ≤ h.schedules.length + added.length :=
  length_foldl_addSchedule_le limit now h.schedules added

/-- What the vesting pallet says it locks. -/
def vestingBalance (block : Nat) (h : Holding) : Option Nat :=
  if h.schedules = [] then none else some (min h.free (lockedTotal block h.schedules))

/-- No schedule locks nothing. -/
theorem getD_vestingBalance (block : Nat) (h : Holding) :
    (h.vestingBalance block).getD 0 = min h.free (lockedTotal block h.schedules) := by
  unfold vestingBalance
  by_cases hnone : h.schedules = []
  · rw [if_pos hnone, hnone, lockedTotal_nil, Nat.min_zero]
    rfl
  · rw [if_neg hnone]
    rfl

end Holding

/-! ## On the ledger -/

variable {c : Currency A σ} {t : VestingSchedule A σ}

/-- What the account holds on the ledger. -/
def holding (c : Currency A σ) (t : VestingSchedule A σ) (s : σ) (a : A) : Holding where
  free := (c.account s a).free
  reserved := (c.account s a).reserved
  schedules := t.schedules s a

omit [DecidableEq A] in
theorem holding_congr {s s' : σ} {a : A} (haccount : c.account s' a = c.account s a)
    (hschedules : t.schedules s' a = t.schedules s a) : holding c t s' a = holding c t s a := by
  unfold holding
  rw [haccount, hschedules]

theorem vestingBalance_holding (ht : t.Lawful c) (block : Nat) (s : σ) (a : A) :
    t.vestingBalance block s a = (holding c t s a).vestingBalance block :=
  ht.vestingBalance_eq block s a

theorem holding_deposit (hc : c.Lawful) (ht : t.Lawful c) (s : σ) (a : A) (v : Nat) :
    holding c t (c.depositCreating s a v).1 =
      update (holding c t s) a ((holding c t s a).deposit c.existentialDeposit v) := by
  have hsets := hc.deposit_accepted s a v
  have hschedules := ht.leaves_schedules.deposit s a v
  funext b
  by_cases hb : b = a
  · rw [hb, update_self]
    unfold holding
    rw [hsets.self, hschedules]
    rfl
  · rw [update_of_ne hb]
    exact holding_congr (hsets.of_ne hb) (congrFun hschedules b)

theorem holding_dropPositive (hc : c.Lawful) (ht : t.Lawful c) (s : σ) (v : Nat) :
    holding c t (c.dropPositive s v) = holding c t s := by
  funext b
  exact holding_congr (congrFun (hc.dropPositive_account s v) b)
    (congrFun (ht.leaves_schedules.dropPositive s v) b)

theorem holding_tryAdd (ht : t.Lawful c) (block : Nat) (s : σ) (a : A) (v : Schedule) :
    holding c t (t.tryAdd block s a v) =
      update (holding c t s) a ((holding c t s a).vest t.maxSchedules block [v]) := by
  have hschedules := ht.tryAdd_schedules block s a v
  funext b
  by_cases hb : b = a
  · rw [hb, update_self]
    unfold holding
    rw [ht.tryAdd_free, ht.tryAdd_reserved, hschedules, update_self]
    rfl
  · rw [update_of_ne hb]
    apply holding_congr (ht.tryAdd_account_of_ne block s v hb)
    rw [hschedules, update_of_ne hb]

theorem holding_foldl_tryAdd (ht : t.Lawful c) (block : Nat) (s : σ) (a : A)
    (added : List Schedule) :
    holding c t (added.foldl (fun s v => t.tryAdd block s a v) s) =
      update (holding c t s) a ((holding c t s a).vest t.maxSchedules block added) := by
  induction added generalizing s with
  | nil => exact (update_eq_self _ _).symm
  | cons v added ih =>
    have hfirst := holding_tryAdd ht block s a v
    rw [List.foldl_cons, ih, hfirst, update_self, update_idem]
    rfl

end XXChain
