import Mathlib.Algebra.BigOperators.Group.Finset.Basic
import Mathlib.Algebra.Order.BigOperators.Group.Finset
import Mathlib.Algebra.Ring.Nat
import Mathlib.Logic.Function.Basic

/-!
# XXChain — currencies with imbalances

The currency of the runtime as the pallets see it: accounts with a free, a reserved and a
frozen amount, and imbalances, which are amounts credited but not yet issued (positive) or
issued but not yet credited (negative). `Currency` is the interface, over any state `σ` of
the pallets that implement it, and `Currency.Lawful` the documented behaviour the pallets of
this repository rely on, one law for each operation:

* an account that falls below the existential deposit is reaped, and what is left of it,
  its dust, leaves the issuance;
* dropping an imbalance moves the issuance to where the balances are.

**`sumBalances_of_update`** turns each law into an equation about the sum of all balances.
-/

namespace XXChain

/-- One more than the largest balance, which has 128 bits. -/
def balanceLimit : Nat := 340282366920938463463374607431768211456

/-- The difference of two balances in the release build, which wraps. -/
def wrappingSub (a b : Nat) : Nat :=
  (a + (balanceLimit - b)) % balanceLimit

theorem wrappingSub_eq {a b : Nat} (hle : b ≤ a) (ha : a < balanceLimit) :
    wrappingSub a b = a - b := by
  unfold wrappingSub
  have hsum : a + (balanceLimit - b) = a - b + balanceLimit := by omega
  rw [hsum, Nat.add_mod_right, Nat.mod_eq_of_lt (by omega)]

/-! ## Accounts -/

/-- The balance of an account. `frozen` is the largest of its locks, and `canDecProvider`
says that no other pallet refers to it, so that it may die. -/
structure AccountData where
  free : Nat
  reserved : Nat
  frozen : Nat
  canDecProvider : Bool
  deriving DecidableEq, Repr

namespace AccountData

/-- An account that is not there. -/
def absent : AccountData :=
  { free := 0, reserved := 0, frozen := 0, canDecProvider := true }

def total (a : AccountData) : Nat :=
  a.free + a.reserved

def liquid (a : AccountData) : Nat :=
  a.free - a.frozen

/-- What may be taken out of the account: all that is liquid if the account may die, else
what leaves it the existential deposit `ed`. -/
def reducible (ed : Nat) (keepAlive : Bool) (a : AccountData) : Nat :=
  if a.canDecProvider && !keepAlive then a.liquid
  else a.liquid - (ed - (a.total - a.liquid))

def credit (v : Nat) (a : AccountData) : AccountData :=
  { a with free := a.free + v }

def debit (v : Nat) (a : AccountData) : AccountData :=
  { a with free := a.free - v }

/-- What is left of the account is too little to exist. -/
def isDust (ed : Nat) (a : AccountData) : Bool :=
  decide (a.total < ed)

def dust (ed : Nat) (a : AccountData) : Nat :=
  if a.isDust ed then a.total else 0

def reap (ed : Nat) (a : AccountData) : AccountData :=
  if a.isDust ed then absent else a

/-- The account after a withdrawal, which leaves it alone when there is nothing to take. -/
def withdraw (ed v : Nat) (a : AccountData) : AccountData :=
  if v = 0 then a else (a.debit v).reap ed

def withdrawDust (ed v : Nat) (a : AccountData) : Nat :=
  if v = 0 then 0 else (a.debit v).dust ed

/-- No lock, no reserve and no reference of another pallet. -/
def Unencumbered (a : AccountData) : Prop :=
  a.reserved = 0 ∧ a.frozen = 0 ∧ a.canDecProvider = true

instance (a : AccountData) : Decidable a.Unencumbered := by
  unfold Unencumbered
  infer_instance

@[simp]
theorem credit_zero (a : AccountData) : a.credit 0 = a := rfl

theorem credit_credit (v w : Nat) (a : AccountData) : (a.credit v).credit w = a.credit (v + w) := by
  unfold credit
  rw [Nat.add_assoc]

@[simp]
theorem total_credit (v : Nat) (a : AccountData) : (a.credit v).total = a.total + v := by
  simp only [credit, total]
  omega

theorem total_debit {v : Nat} {a : AccountData} (h : v ≤ a.free) :
    (a.debit v).total + v = a.total := by
  simp only [debit, total]
  omega

theorem total_reap_add_dust (ed : Nat) (a : AccountData) :
    (a.reap ed).total + a.dust ed = a.total := by
  unfold reap dust
  cases a.isDust ed
  · simp
  · simp [absent, total]

theorem reducible_le_free (ed : Nat) (keepAlive : Bool) (a : AccountData) :
    a.reducible ed keepAlive ≤ a.free := by
  unfold reducible liquid
  split <;> omega

/-- Whoever is credited can pay at least what he could before. -/
theorem reducible_le_credit (ed : Nat) (keepAlive : Bool) (v : Nat) (a : AccountData) :
    a.reducible ed keepAlive ≤ (a.credit v).reducible ed keepAlive := by
  unfold reducible liquid total credit
  dsimp only
  split <;> omega

theorem reducible_le_total (ed : Nat) (keepAlive : Bool) (a : AccountData) :
    a.reducible ed keepAlive ≤ a.total :=
  (reducible_le_free ed keepAlive a).trans (Nat.le_add_right _ _)

/-- What may be taken out of an account that is kept alive is not locked, and leaves at least
the existential deposit. -/
theorem kept_of_le_reducible {ed v : Nat} {a : AccountData} (hpos : 0 < v)
    (h : v ≤ a.reducible ed true) : v + a.frozen ≤ a.free ∧ ed ≤ (a.debit v).total := by
  simp only [reducible, Bool.not_true, Bool.and_false, Bool.false_eq_true, if_false, debit, total,
    liquid] at h ⊢
  omega

/-- So the account is not reaped, and nothing of it is lost. -/
theorem withdraw_of_le_reducible {ed v : Nat} {a : AccountData} (h : v ≤ a.reducible ed true) :
    a.withdraw ed v = a.debit v ∧ a.withdrawDust ed v = 0 := by
  unfold withdraw withdrawDust
  by_cases hv : v = 0
  · subst hv
    exact ⟨rfl, rfl⟩
  · have hkept := (kept_of_le_reducible (Nat.pos_of_ne_zero hv) h).2
    have hdust : (a.debit v).isDust ed = false := decide_eq_false (Nat.not_lt_of_le hkept)
    rw [if_neg hv, if_neg hv, reap, dust, hdust]
    exact ⟨rfl, rfl⟩

/-- What may be taken out of an account that is kept alive leaves its reserve alone. -/
theorem reserved_withdraw {ed v : Nat} {a : AccountData} (h : v ≤ a.reducible ed true) :
    (a.withdraw ed v).reserved = a.reserved := by
  rw [(withdraw_of_le_reducible h).1]
  rfl

/-- An account without a reserve has none after a withdrawal. -/
theorem reserved_withdraw_of_zero {ed v : Nat} {a : AccountData} (h : a.reserved = 0) :
    (a.withdraw ed v).reserved = 0 := by
  unfold withdraw reap
  split
  · exact h
  · split
    · rfl
    · exact h

/-- An account can be emptied exactly when it is empty, or nothing ties its balance up. -/
theorem reducible_eq_total_iff {ed : Nat} (hed : 0 < ed) (a : AccountData) :
    a.reducible ed false = a.total ↔ a.total = 0 ∨ a.Unencumbered := by
  unfold reducible Unencumbered total liquid
  cases a.canDecProvider with
  | true =>
    simp only [Bool.not_false, Bool.and_self, if_true, and_true]
    omega
  | false =>
    -- the account has to keep the existential deposit
    simp only [Bool.not_false, Bool.false_and, Bool.false_eq_true, if_false, and_false, or_false]
    omega

theorem Unencumbered.total_eq {a : AccountData} (h : a.Unencumbered) : a.total = a.free := by
  rw [total, h.1, Nat.add_zero]

theorem total_withdraw_add_dust {ed v : Nat} {a : AccountData} (h : v ≤ a.free) :
    (a.withdraw ed v).total + a.withdrawDust ed v + v = a.total := by
  unfold withdraw withdrawDust
  split
  · omega
  · rw [total_reap_add_dust, total_debit h]

/-- An account that paid `v` out of its free balance: it holds so much less, or it was reaped,
with a remainder below the existential deposit. -/
def PaidOut (ed v : Nat) (before after : AccountData) : Prop :=
  (after.free + v = before.free ∧ after.reserved = before.reserved) ∨
    (after.total = 0 ∧ 0 < v ∧ v ≤ before.free ∧ before.total < v + ed)

theorem PaidOut.refl (ed : Nat) (a : AccountData) : PaidOut ed 0 a a :=
  Or.inl ⟨rfl, rfl⟩

/-- Once it is reaped an account has nothing more to pay, so two payments are one. -/
theorem PaidOut.trans {ed v w : Nat} {a b d : AccountData} (h : PaidOut ed v a b)
    (h' : PaidOut ed w b d) : PaidOut ed (v + w) a d := by
  unfold PaidOut total at *
  omega

theorem PaidOut.le_free {ed v : Nat} {a b : AccountData} (h : PaidOut ed v a b) :
    v ≤ a.free := by
  unfold PaidOut at h
  omega

/-- The free balance falls exactly when something is paid. -/
theorem PaidOut.free_le_iff {ed v : Nat} {a b : AccountData} (h : PaidOut ed v a b) :
    a.free ≤ b.free ↔ v = 0 := by
  unfold PaidOut total at h
  omega

/-- A payment takes what is paid, and the rest of the account if that is too little to stay. -/
theorem PaidOut.free_le_add {ed v : Nat} {a b : AccountData} (h : PaidOut ed v a b) :
    a.free ≤ b.free + (v + a.withdrawDust ed v) := by
  rcases h with ⟨hfree, _⟩ | ⟨_, hpos, hle, hdust⟩
  · omega
  · have htotal := total_debit hle
    have hgone : (a.debit v).isDust ed = true := decide_eq_true (by omega)
    have hrest : (a.debit v).free ≤ (a.debit v).total := Nat.le_add_right _ _
    have hdebit : (a.debit v).free = a.free - v := rfl
    rw [withdrawDust, if_neg (Nat.ne_of_gt hpos), dust, if_pos hgone]
    omega

theorem paidOut_withdraw {ed v : Nat} {a : AccountData} (h : v ≤ a.free) :
    PaidOut ed v a (a.withdraw ed v) := by
  unfold withdraw
  split
  next hv =>
    subst hv
    exact PaidOut.refl ed a
  next hv =>
    unfold reap
    split
    next hdust =>
      have htotal := total_debit h
      have hless : (a.debit v).total < ed := of_decide_eq_true hdust
      exact Or.inr ⟨rfl, Nat.pos_of_ne_zero hv, h, by omega⟩
    next => exact Or.inl ⟨Nat.sub_add_cancel h, rfl⟩

theorem Unencumbered.reap {a : AccountData} (ed : Nat) (h : a.Unencumbered) :
    (a.reap ed).Unencumbered := by
  unfold AccountData.reap
  split
  · exact ⟨rfl, rfl, rfl⟩
  · exact h

theorem Unencumbered.withdraw {a : AccountData} (ed v : Nat) (h : a.Unencumbered) :
    (a.withdraw ed v).Unencumbered := by
  unfold AccountData.withdraw
  split
  · exact h
  · exact Unencumbered.reap ed ⟨h.1, h.2.1, h.2.2⟩

theorem Unencumbered.credit {a : AccountData} (v : Nat) (h : a.Unencumbered) :
    (a.credit v).Unencumbered :=
  ⟨h.1, h.2.1, h.2.2⟩

/-- The account after as much as it has, up to `amount`, is withdrawn. -/
def draw (ed amount : Nat) (a : AccountData) : AccountData :=
  a.withdraw ed (min amount a.free)

theorem Unencumbered.draw {a : AccountData} (ed amount : Nat) (h : a.Unencumbered) :
    (a.draw ed amount).Unencumbered :=
  h.withdraw ed _

/-- A draw from an account with nothing but `free`. -/
theorem draw_plain (ed amount free : Nat) :
    AccountData.draw ed amount ⟨free, 0, 0, true⟩ =
      ⟨if min amount free = 0 then free
        else if free - min amount free < ed then 0 else free - min amount free, 0, 0, true⟩ := by
  simp only [AccountData.draw, AccountData.withdraw, AccountData.reap, isDust, debit, total,
    absent, Nat.add_zero]
  by_cases hnone : min amount free = 0
  · rw [if_pos hnone, if_pos hnone]
  · by_cases hdust : free - min amount free < ed <;> simp [hnone, hdust]

/-- What is drawn in two parts is drawn as one: once the account is reaped, or empty, there is
nothing more to draw. -/
theorem Unencumbered.draw_draw {a : AccountData} {ed : Nat} (hed : 0 < ed)
    (h : a.Unencumbered) (x y : Nat) : (a.draw ed x).draw ed y = a.draw ed (x + y) := by
  obtain ⟨free, reserved, frozen, canDecProvider⟩ := a
  obtain ⟨rfl, rfl, rfl⟩ := h
  rw [draw_plain, draw_plain, draw_plain]
  congr 1
  split_ifs <;> omega

/-- Withdrawing what there is, up to `amount`, leaves at most what `amount` does not cover. -/
theorem Unencumbered.withdrawDust_le {a : AccountData} (ed amount : Nat)
    (h : a.Unencumbered) :
    a.withdrawDust ed (min amount a.free) + amount ≤ max amount a.free := by
  have htotal := @total_withdraw_add_dust ed _ _ (Nat.min_le_right amount a.free)
  have hfree := h.total_eq
  omega

end AccountData

/-! ## The interface -/

/-- A currency over the state `σ` of the pallets that implement it. `transfer` and `settle`
allow the death of the account they take from, and `settle` offsets a positive imbalance by
a withdrawal. The second component of an operation is the imbalance it returns. -/
structure Currency (A σ : Type) where
  existentialDeposit : Nat
  account : σ → A → AccountData
  holders : σ → Finset A
  totalIssuance : σ → Nat
  reducibleBalance : σ → A → Bool → Nat
  transfer : σ → A → A → Nat → Option σ
  depositCreating : σ → A → Nat → σ × Nat
  settle : σ → A → Nat → Option σ
  burn : σ → Nat → σ × Nat
  issue : σ → Nat → σ × Nat
  dropPositive : σ → Nat → σ
  dropNegative : σ → Nat → σ
  unreserve : σ → A → Nat → σ

namespace Currency

variable {A σ : Type} (c : Currency A σ)

def freeBalance (s : σ) (a : A) : Nat :=
  (c.account s a).free

def totalBalance (s : σ) (a : A) : Nat :=
  (c.account s a).total

/-- The sum of all balances. -/
def sumBalances (s : σ) : Nat :=
  ∑ a ∈ c.holders s, c.totalBalance s a

/-- Whether `v` may be taken out of an account. -/
def CanWithdraw (a : AccountData) (v : Nat) : Prop :=
  v + a.frozen ≤ a.free ∧ (a.canDecProvider = true ∨ c.existentialDeposit ≤ a.total - v)

/-- `s'` is `s` with the account `a` set to `d`. -/
def Sets [DecidableEq A] (s s' : σ) (a : A) (d : AccountData) : Prop :=
  c.account s' = Function.update (c.account s) a d

/-- The documented behaviour of the currency. An account exists when its total is not zero.

The laws of `issue` and `depositCreating` are about amounts that the issuance and the balance have
room for, below the capacity of the balance type; what the pallet cuts off beyond that they do not
describe. -/
structure Lawful [DecidableEq A] : Prop where
  existentialDeposit_pos : 0 < c.existentialDeposit
  mem_holders : ∀ s a, c.totalBalance s a ≠ 0 → a ∈ c.holders s
  reducibleBalance_eq : ∀ s a keepAlive, c.reducibleBalance s a keepAlive =
    (c.account s a).reducible c.existentialDeposit keepAlive
  transfer_noop : ∀ s source dest v, v = 0 ∨ source = dest →
    c.transfer s source dest v = some s
  transfer_isSome : ∀ s source dest v, 0 < v → source ≠ dest →
    ((c.transfer s source dest v).isSome ↔
      c.CanWithdraw (c.account s source) v ∧
        c.existentialDeposit ≤ c.totalBalance s dest + v)
  transfer_account : ∀ s source dest v s', 0 < v → source ≠ dest →
    c.transfer s source dest v = some s' →
    c.account s' = Function.update
      (Function.update (c.account s) source
        (((c.account s source).debit v).reap c.existentialDeposit))
      dest ((c.account s dest).credit v)
  transfer_issuance : ∀ s source dest v s', 0 < v → source ≠ dest →
    c.transfer s source dest v = some s' →
    c.totalIssuance s' =
      c.totalIssuance s - ((c.account s source).debit v).dust c.existentialDeposit
  deposit_none : ∀ s a v, v = 0 ∨ (v < c.existentialDeposit ∧ c.totalBalance s a = 0) →
    c.depositCreating s a v = (s, 0)
  deposit_imbalance : ∀ s a v, 0 < v →
    (c.existentialDeposit ≤ v ∨ c.totalBalance s a ≠ 0) →
    (c.depositCreating s a v).2 = v
  deposit_account : ∀ s a v, 0 < v →
    (c.existentialDeposit ≤ v ∨ c.totalBalance s a ≠ 0) →
    c.Sets s (c.depositCreating s a v).1 a ((c.account s a).credit v)
  deposit_issuance : ∀ s a v, c.totalIssuance (c.depositCreating s a v).1 = c.totalIssuance s
  settle_isSome : ∀ s a v, 0 < v → c.CanWithdraw (c.account s a) v →
    (c.settle s a v).isSome
  settle_account : ∀ s a v s', 0 < v → c.settle s a v = some s' →
    c.Sets s s' a (((c.account s a).debit v).reap c.existentialDeposit)
  settle_issuance : ∀ s a v s', 0 < v → c.settle s a v = some s' →
    c.totalIssuance s' =
      c.totalIssuance s - ((c.account s a).debit v).dust c.existentialDeposit
  burn_imbalance : ∀ s v, (c.burn s v).2 = min v (c.totalIssuance s)
  burn_account : ∀ s v, c.account (c.burn s v).1 = c.account s
  burn_issuance : ∀ s v, c.totalIssuance (c.burn s v).1 = c.totalIssuance s - v
  issue_imbalance : ∀ s v, (c.issue s v).2 = v
  issue_account : ∀ s v, c.account (c.issue s v).1 = c.account s
  issue_issuance : ∀ s v, c.totalIssuance (c.issue s v).1 = c.totalIssuance s + v
  dropPositive_account : ∀ s v, c.account (c.dropPositive s v) = c.account s
  dropPositive_issuance : ∀ s v, c.totalIssuance (c.dropPositive s v) = c.totalIssuance s + v
  dropNegative_account : ∀ s v, c.account (c.dropNegative s v) = c.account s
  dropNegative_issuance : ∀ s v, c.totalIssuance (c.dropNegative s v) = c.totalIssuance s - v
  unreserve_account : ∀ s a v, c.Sets s (c.unreserve s a v) a
    { c.account s a with
      free := (c.account s a).free + min v (c.account s a).reserved
      reserved := (c.account s a).reserved - min v (c.account s a).reserved }
  unreserve_issuance : ∀ s a v, c.totalIssuance (c.unreserve s a v) = c.totalIssuance s

/-- No operation of the currency changes what `f` reads. -/
structure Leaves {β : Type} (f : σ → β) : Prop where
  transfer : ∀ s source dest v s', c.transfer s source dest v = some s' → f s' = f s
  deposit : ∀ s a v, f (c.depositCreating s a v).1 = f s
  settle : ∀ s a v s', c.settle s a v = some s' → f s' = f s
  burn : ∀ s v, f (c.burn s v).1 = f s
  issue : ∀ s v, f (c.issue s v).1 = f s
  dropPositive : ∀ s v, f (c.dropPositive s v) = f s
  dropNegative : ∀ s v, f (c.dropNegative s v) = f s
  unreserve : ∀ s a v, f (c.unreserve s a v) = f s

variable {c} [DecidableEq A] {s s' : σ} {a b : A} {d : AccountData} {v : Nat}

/-! ## Transfers -/

omit [DecidableEq A] in
/-- What can be taken out of an account at once cannot be taken out of it again. -/
theorem not_canWithdraw_twice {d : AccountData} (hpos : 0 < v)
    (hv : v = d.reducible c.existentialDeposit false) :
    ¬ c.CanWithdraw ((d.debit v).reap c.existentialDeposit) v := by
  rintro ⟨hfree, hkeep⟩
  unfold AccountData.reap at hfree hkeep
  split at hfree <;> rename_i hdust
  · -- nothing is left of the account
    simp only [AccountData.absent] at hfree
    omega
  · rw [if_neg hdust] at hkeep
    simp only [AccountData.debit, AccountData.total, AccountData.reducible,
      AccountData.liquid] at hv hfree hkeep
    cases hcan : d.canDecProvider with
    | true =>
      simp only [hcan, Bool.not_false, Bool.and_self, if_true] at hv
      omega
    | false =>
      simp only [hcan, Bool.not_false, Bool.false_and, Bool.false_eq_true, if_false,
        false_or] at hv hkeep
      omega

/-- The accounts after a transfer, of nothing or of something. -/
theorem Lawful.account_transfer (hc : c.Lawful) (hne : a ≠ b)
    (h : c.transfer s a b v = some s') :
    c.account s' = Function.update
      (Function.update (c.account s) a ((c.account s a).withdraw c.existentialDeposit v))
      b ((c.account s b).credit v) := by
  by_cases hv : v = 0
  · have hnoop := hc.transfer_noop s a b v (Or.inl hv)
    rw [hnoop] at h
    cases h
    subst hv
    rw [AccountData.withdraw, if_pos rfl, AccountData.credit, Function.update_eq_self,
      Nat.add_zero, Function.update_eq_self]
  · rw [AccountData.withdraw, if_neg hv]
    exact hc.transfer_account s a b v s' (Nat.pos_of_ne_zero hv) hne h

/-- A transfer takes the dust of its source out of the issuance. -/
theorem Lawful.issuance_transfer (hc : c.Lawful) (hne : a ≠ b)
    (h : c.transfer s a b v = some s') :
    c.totalIssuance s' =
      c.totalIssuance s - (c.account s a).withdrawDust c.existentialDeposit v := by
  unfold AccountData.withdrawDust
  by_cases hv : v = 0
  · have hnoop := hc.transfer_noop s a b v (Or.inl hv)
    rw [hnoop] at h
    cases h
    rw [if_pos hv, Nat.sub_zero]
  · rw [if_neg hv]
    exact hc.transfer_issuance s a b v s' (Nat.pos_of_ne_zero hv) hne h

/-- A transfer that the accounts allow. -/
def CanTransfer (c : Currency A σ) (accounts : A → AccountData) (a b : A) (v : Nat) : Prop :=
  v = 0 ∨ a = b ∨
    (c.CanWithdraw (accounts a) v ∧ c.existentialDeposit ≤ (accounts b).total + v)

/-- The accounts after a transfer that they allow. -/
def afterTransfer (c : Currency A σ) (accounts : A → AccountData) (a b : A) (v : Nat) :
    A → AccountData :=
  if a = b then accounts
  else Function.update
    (Function.update accounts a ((accounts a).withdraw c.existentialDeposit v))
    b ((accounts b).credit v)

theorem Lawful.transfer_isSome_iff (hc : c.Lawful) :
    (c.transfer s a b v).isSome ↔ c.CanTransfer (c.account s) a b v := by
  unfold CanTransfer
  by_cases hnoop : v = 0 ∨ a = b
  · rw [hc.transfer_noop s a b v hnoop, ← or_assoc]
    exact ⟨fun _ => Or.inl hnoop, fun _ => rfl⟩
  · rw [← or_assoc, or_iff_right hnoop]
    rw [not_or] at hnoop
    exact hc.transfer_isSome s a b v (Nat.pos_of_ne_zero hnoop.1) hnoop.2

/-- All that a transfer does to the accounts, also one to the source itself. -/
theorem Lawful.account_afterTransfer (hc : c.Lawful) (h : c.transfer s a b v = some s') :
    c.account s' = c.afterTransfer (c.account s) a b v := by
  unfold afterTransfer
  by_cases hself : a = b
  · have hnoop := hc.transfer_noop s a b v (Or.inr hself)
    rw [h] at hnoop
    cases hnoop
    rw [if_pos hself]
  · rw [if_neg hself]
    exact hc.account_transfer hself h

/-- A transfer moves no more than there is. -/
theorem Lawful.transfer_le_free (hc : c.Lawful) (hne : a ≠ b)
    (h : c.transfer s a b v = some s') : v ≤ (c.account s a).free := by
  have hcan := hc.transfer_isSome_iff.mp (by rw [h]; rfl : (c.transfer s a b v).isSome)
  rcases hcan with hzero | hself | ⟨⟨hfree, _⟩, _⟩
  · omega
  · exact absurd hself hne
  · omega

/-- What the source pays, and what all others receive. -/
theorem Lawful.paidOut_transfer (hc : c.Lawful) (h : c.transfer s a b v = some s') :
    (c.account s a).PaidOut c.existentialDeposit (if b = a then 0 else v) (c.account s' a) ∧
      ∀ x, x ≠ a → c.account s' x = (c.account s x).credit (if x = b then v else 0) := by
  rw [hc.account_afterTransfer h, afterTransfer]
  by_cases hself : a = b
  · rw [if_pos hself, if_pos hself.symm]
    refine ⟨AccountData.PaidOut.refl _ _, fun x hx => ?_⟩
    rw [if_neg (hself ▸ hx), AccountData.credit_zero]
  · rw [if_neg hself, if_neg (Ne.symm hself)]
    constructor
    · rw [Function.update_of_ne hself, Function.update_self]
      exact AccountData.paidOut_withdraw (hc.transfer_le_free hself h)
    · intro x hx
      by_cases hxb : x = b
      · rw [hxb, Function.update_self, if_pos rfl]
      · rw [Function.update_of_ne hxb, Function.update_of_ne hx, if_neg hxb,
          AccountData.credit_zero]

/-! ## Sums of balances -/

theorem Sets.self (h : c.Sets s s' a d) : c.account s' a = d := by
  rw [h, Function.update_self]

theorem Sets.of_ne (h : c.Sets s s' a d) (hne : b ≠ a) : c.account s' b = c.account s b := by
  rw [h, Function.update_of_ne hne]

/-- The sum of all balances is a sum over any set that has all the holders. -/
theorem Lawful.sumBalances_eq (hc : c.Lawful) {l : Finset A} (h : c.holders s ⊆ l) :
    c.sumBalances s = ∑ a ∈ l, c.totalBalance s a := by
  refine Finset.sum_subset h fun a _ hout => ?_
  by_contra hne
  exact hout (hc.mem_holders s a hne)

/-- The sum only depends on the accounts. -/
theorem Lawful.sumBalances_congr (hc : c.Lawful) (h : c.account s' = c.account s) :
    c.sumBalances s' = c.sumBalances s := by
  have hnew : c.holders s' ⊆ c.holders s ∪ c.holders s' := Finset.subset_union_right
  have hold : c.holders s ⊆ c.holders s ∪ c.holders s' := Finset.subset_union_left
  rw [hc.sumBalances_eq hnew, hc.sumBalances_eq hold]
  simp only [totalBalance, h]

/-- Setting one account changes the sum by its change. -/
theorem Lawful.sumBalances_of_sets (hc : c.Lawful) (h : c.Sets s s' a d) :
    c.sumBalances s' + c.totalBalance s a = c.sumBalances s + d.total := by
  obtain ⟨l, hnew, hold, ha⟩ : ∃ l, c.holders s' ⊆ l ∧ c.holders s ⊆ l ∧ a ∈ l :=
    ⟨insert a (c.holders s ∪ c.holders s'), fun x hx => by simp [hx], fun x hx => by simp [hx],
      Finset.mem_insert_self _ _⟩
  rw [hc.sumBalances_eq hnew, hc.sumBalances_eq hold]
  -- away from `a` the two sums have the same terms
  have hrest : ∑ x ∈ l.erase a, c.totalBalance s' x = ∑ x ∈ l.erase a, c.totalBalance s x := by
    apply Finset.sum_congr rfl
    intro x hx
    rw [totalBalance, totalBalance, h.of_ne (Finset.ne_of_mem_erase hx)]
  have hsplit' := Finset.add_sum_erase l (c.totalBalance s') ha
  have hsplit := Finset.add_sum_erase l (c.totalBalance s) ha
  have hself : c.totalBalance s' a = d.total := by rw [totalBalance, h.self]
  omega

/-! ## What the operations do to the sum -/

/-- Outstanding imbalances apart, the issuance is the sum of all balances: `positive` has
been credited but not issued, `negative` issued but not credited. -/
def Backed (c : Currency A σ) (s : σ) (positive negative : Nat) : Prop :=
  c.totalIssuance s + positive = c.sumBalances s + negative

/-- A deposit is refused and returns nothing, or credits what it returns. -/
theorem Lawful.deposit_cases (hc : c.Lawful) (s : σ) (a : A) (v : Nat) :
    c.depositCreating s a v = (s, 0) ∨
      ((c.depositCreating s a v).2 = v ∧
        c.Sets s (c.depositCreating s a v).1 a ((c.account s a).credit v)) := by
  by_cases hok : 0 < v ∧ (c.existentialDeposit ≤ v ∨ c.totalBalance s a ≠ 0)
  · exact Or.inr ⟨hc.deposit_imbalance s a v hok.1 hok.2, hc.deposit_account s a v hok.1 hok.2⟩
  · refine Or.inl (hc.deposit_none s a v ?_)
    by_cases hv : v = 0
    · exact Or.inl hv
    · have hrefused := not_and.mp hok (Nat.pos_of_ne_zero hv)
      rw [not_or, not_le, not_not] at hrefused
      exact Or.inr hrefused

/-- What a deposit of `v` to an account with a balance of `total` credits: too little to exist
opens no account. -/
def accepted (ed v total : Nat) : Nat :=
  if v < ed ∧ total = 0 then 0 else v

theorem Lawful.deposit_accepted (hc : c.Lawful) (s : σ) (a : A) (v : Nat) :
    c.Sets s (c.depositCreating s a v).1 a
      ((c.account s a).credit (accepted c.existentialDeposit v (c.totalBalance s a))) := by
  by_cases hok : 0 < v ∧ (c.existentialDeposit ≤ v ∨ c.totalBalance s a ≠ 0)
  · have haccepted : accepted c.existentialDeposit v (c.totalBalance s a) = v :=
      if_neg (by omega)
    rw [haccepted]
    exact hc.deposit_account s a v hok.1 hok.2
  · have hrefused : accepted c.existentialDeposit v (c.totalBalance s a) = 0 := by
      unfold accepted
      split <;> omega
    rw [hrefused, hc.deposit_none s a v (by omega)]
    exact (Function.update_eq_self _ _).symm

/-- The imbalance of a deposit is what is accepted of it. -/
theorem Lawful.deposit_imbalance_accepted (hc : c.Lawful) (s : σ) (a : A) (v : Nat) :
    (c.depositCreating s a v).2 = accepted c.existentialDeposit v (c.totalBalance s a) := by
  unfold accepted
  by_cases hok : 0 < v ∧ (c.existentialDeposit ≤ v ∨ c.totalBalance s a ≠ 0)
  · rw [hc.deposit_imbalance s a v hok.1 hok.2, if_neg (by omega)]
  · rw [hc.deposit_none s a v (by omega)]
    split <;> omega

/-- A deposit keeps the books: what it credits it returns as an imbalance. -/
theorem Lawful.backed_deposit (hc : c.Lawful) {positive negative : Nat}
    (h : c.Backed s positive negative) :
    c.Backed (c.depositCreating s a v).1 (positive + (c.depositCreating s a v).2) negative := by
  rcases hc.deposit_cases s a v with hnone | ⟨himb, hsets⟩
  · rw [hnone]
    exact h
  · have hsum := hc.sumBalances_of_sets hsets
    have hissuance := hc.deposit_issuance s a v
    rw [AccountData.total_credit] at hsum
    rw [himb]
    simp only [totalBalance] at hsum
    unfold Backed at h ⊢
    omega

/-- Withdrawing takes the amount, and the dust it leaves, out of the balances. -/
theorem Lawful.sumBalances_withdraw (hc : c.Lawful) (hfree : v ≤ (c.account s a).free)
    (h : c.Sets s s' a ((c.account s a).withdraw c.existentialDeposit v)) :
    c.sumBalances s' + v + (c.account s a).withdrawDust c.existentialDeposit v =
      c.sumBalances s := by
  have hsum := hc.sumBalances_of_sets h
  have htotal := @AccountData.total_withdraw_add_dust c.existentialDeposit _ _ hfree
  simp only [totalBalance] at hsum
  omega

/-- An unencumbered account can be made to settle any part of what it has. What it settles
is no longer outstanding, and the dust leaves the issuance. -/
theorem Lawful.settle_unencumbered (hc : c.Lawful) (hpos : 0 < v)
    (hfree : v ≤ (c.account s a).free) (ha : (c.account s a).Unencumbered) :
    ∃ s', c.settle s a v = some s' ∧
      c.Sets s s' a ((c.account s a).withdraw c.existentialDeposit v) ∧
      c.totalIssuance s' =
        c.totalIssuance s - (c.account s a).withdrawDust c.existentialDeposit v := by
  have hcan : c.CanWithdraw (c.account s a) v := ⟨by rw [ha.2.1]; exact hfree, Or.inl ha.2.2⟩
  obtain ⟨s', hs'⟩ := Option.isSome_iff_exists.mp (hc.settle_isSome s a v hpos hcan)
  rw [AccountData.withdraw, AccountData.withdrawDust, if_neg (Nat.ne_of_gt hpos),
    if_neg (Nat.ne_of_gt hpos)]
  exact ⟨s', hs', hc.settle_account s a v s' hpos hs', hc.settle_issuance s a v s' hpos hs'⟩

/-! ## What the operations do to the issuance -/

theorem Lawful.issuance_transfer_le (hc : c.Lawful) (h : c.transfer s a b v = some s') :
    c.totalIssuance s' ≤ c.totalIssuance s := by
  by_cases hself : a = b
  · rw [hc.transfer_noop s a b v (Or.inr hself)] at h
    cases h
    exact le_rfl
  · rw [hc.issuance_transfer hself h]
    exact Nat.sub_le _ _

theorem Lawful.issuance_settle_le (hc : c.Lawful) (hpos : 0 < v) (h : c.settle s a v = some s') :
    c.totalIssuance s' ≤ c.totalIssuance s := by
  rw [hc.settle_issuance s a v s' hpos h]
  exact Nat.sub_le _ _

/-- A deposit returns at most what it was of. -/
theorem Lawful.deposit_imbalance_le (hc : c.Lawful) (s : σ) (a : A) (v : Nat) :
    (c.depositCreating s a v).2 ≤ v := by
  rw [hc.deposit_imbalance_accepted, accepted]
  split
  · exact Nat.zero_le v
  · exact le_rfl

/-- One account holds at most the sum of all. -/
theorem Lawful.totalBalance_le_sum (hc : c.Lawful) (s : σ) (a : A) :
    c.totalBalance s a ≤ c.sumBalances s := by
  by_cases ha : a ∈ c.holders s
  · exact Finset.single_le_sum (f := c.totalBalance s) (fun _ _ => Nat.zero_le _) ha
  · by_contra hlt
    exact ha (hc.mem_holders s a (by omega))

end Currency

end XXChain
