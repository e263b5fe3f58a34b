import XXChain.Lib.Currency
import XXChain.Lib.StorageMap

/-!
# XXChain — a reference ledger

The smallest state that behaves as `Currency.Lawful` says: a map of accounts and the total
issuance. It shows that the laws can be met, and runs the pallets on concrete balances.

* **`Ledger.currency_lawful`** — the reference currency is lawful for every positive
  existential deposit;
* **`Currency.Lawful.along`** — a currency stays lawful as a part of a larger state.
-/

namespace XXChain

open Function

variable {A σ ρ : Type} [DecidableEq A]

/-! ## The ledger -/

structure Ledger (A : Type) where
  accounts : StorageMap A AccountData
  issuance : Nat

namespace Ledger

def account (l : Ledger A) (a : A) : AccountData :=
  (l.accounts.lookup a).getD .absent

def set (l : Ledger A) (a : A) (d : AccountData) : Ledger A :=
  { l with accounts := l.accounts.insert a d }

/-- The ledger with the accounts of a list, all of it issued. -/
def ofList (entries : List (A × AccountData)) : Ledger A where
  accounts := StorageMap.ofList entries
  issuance := (entries.map fun entry => entry.2.total).sum

theorem account_set (l : Ledger A) (a : A) (d : AccountData) :
    (l.set a d).account = update l.account a d := by
  funext x
  by_cases hx : x = a
  · subst hx
    simp [account, set]
  · simp [account, set, hx, Finmap.lookup_insert_of_ne]

/-- Taking `v` out of an account: the account, reaped when too little is left, and the
issuance without the dust. -/
def withdraw (ed : Nat) (l : Ledger A) (a : A) (v : Nat) : Ledger A :=
  { l.set a (((l.account a).debit v).reap ed) with
    issuance := l.issuance - ((l.account a).debit v).dust ed }

def canWithdraw (ed : Nat) (a : AccountData) (v : Nat) : Bool :=
  decide (v + a.frozen ≤ a.free) && (a.canDecProvider || decide (ed ≤ a.total - v))

/-- The reference currency. -/
def currency (ed : Nat) : Currency A (Ledger A) where
  existentialDeposit := ed
  account := account
  holders l := l.accounts.keys
  totalIssuance l := l.issuance
  reducibleBalance l a keepAlive := (l.account a).reducible ed keepAlive
  transfer l source dest v :=
    if v = 0 ∨ source = dest then some l
    else if canWithdraw ed (l.account source) v ∧ ed ≤ (l.account dest).total + v then
      some ((withdraw ed l source v).set dest ((l.account dest).credit v))
    else none
  depositCreating l a v :=
    if v = 0 ∨ (v < ed ∧ (l.account a).total = 0) then (l, 0)
    else (l.set a ((l.account a).credit v), v)
  settle l a v :=
    if v = 0 then some l
    else if canWithdraw ed (l.account a) v then some (withdraw ed l a v)
    else none
  burn l v := ({ l with issuance := l.issuance - v }, min v l.issuance)
  issue l v := ({ l with issuance := l.issuance + v }, v)
  dropPositive l v := { l with issuance := l.issuance + v }
  dropNegative l v := { l with issuance := l.issuance - v }
  unreserve l a v :=
    l.set a { l.account a with
      free := (l.account a).free + min v (l.account a).reserved
      reserved := (l.account a).reserved - min v (l.account a).reserved }

theorem canWithdraw_iff {ed : Nat} {a : AccountData} {v : Nat} :
    canWithdraw ed a v = true ↔ (currency (A := A) ed).CanWithdraw a v := by
  simp [canWithdraw, Currency.CanWithdraw, currency]

theorem account_withdraw (ed : Nat) (l : Ledger A) (a : A) (v : Nat) :
    (withdraw ed l a v).account = update l.account a (((l.account a).debit v).reap ed) :=
  account_set l a _

/-- A deposit that is not refused. -/
theorem not_refused {ed v total : Nat} (hpos : 0 < v) (hok : ed ≤ v ∨ total ≠ 0) :
    ¬(v = 0 ∨ (v < ed ∧ total = 0)) := by
  omega

/-- The reference currency is lawful. -/
theorem currency_lawful {ed : Nat} (hed : 0 < ed) : (currency (A := A) ed).Lawful where
  existentialDeposit_pos := hed
  mem_holders := by
    intro l a hne
    show a ∈ l.accounts.keys
    rw [Finmap.mem_keys]
    by_contra hout
    apply hne
    show (l.account a).total = 0
    rw [account, Finmap.lookup_eq_none.mpr hout]
    rfl
  reducibleBalance_eq := fun _ _ _ => rfl
  transfer_noop := by
    intro l source dest v h
    exact if_pos h
  transfer_isSome := by
    intro l source dest v hpos hne
    have hgo : ¬(v = 0 ∨ source = dest) := by simp [hne, Nat.ne_of_gt hpos]
    simp only [currency, if_neg hgo]
    rw [Option.isSome_ite, canWithdraw_iff (A := A)]
    rfl
  transfer_account := by
    intro l source dest v l' hpos hne h
    have hgo : ¬(v = 0 ∨ source = dest) := by simp [hne, Nat.ne_of_gt hpos]
    simp only [currency, if_neg hgo, Option.ite_none_right_eq_some, Option.some.injEq] at h
    obtain ⟨_, rfl⟩ := h
    show (((withdraw ed l source v).set dest _).account) = _
    rw [account_set, account_withdraw]
    rfl
  transfer_issuance := by
    intro l source dest v l' hpos hne h
    have hgo : ¬(v = 0 ∨ source = dest) := by simp [hne, Nat.ne_of_gt hpos]
    simp only [currency, if_neg hgo, Option.ite_none_right_eq_some, Option.some.injEq] at h
    obtain ⟨_, rfl⟩ := h
    rfl
  deposit_none := by
    intro l a v h
    exact if_pos h
  deposit_imbalance := by
    intro l a v hpos hok
    have hgo : ¬(v = 0 ∨ (v < ed ∧ (l.account a).total = 0)) := not_refused hpos hok
    simp only [currency, if_neg hgo]
  deposit_account := by
    intro l a v hpos hok
    have hgo : ¬(v = 0 ∨ (v < ed ∧ (l.account a).total = 0)) := not_refused hpos hok
    simp only [Currency.Sets, currency, if_neg hgo]
    exact account_set l a _
  deposit_issuance := by
    intro l a v
    show (if _ then (l, 0) else (l.set a _, v)).1.issuance = l.issuance
    split <;> rfl
  settle_isSome := by
    intro l a v hpos hcan
    have hgo : canWithdraw ed (l.account a) v = true := (canWithdraw_iff (A := A)).mpr hcan
    simp only [currency, if_neg (Nat.ne_of_gt hpos), if_pos hgo, Option.isSome_some]
  settle_account := by
    intro l a v l' hpos h
    simp only [currency, if_neg (Nat.ne_of_gt hpos), Option.ite_none_right_eq_some,
      Option.some.injEq] at h
    obtain ⟨_, rfl⟩ := h
    exact account_withdraw ed l a v
  settle_issuance := by
    intro l a v l' hpos h
    simp only [currency, if_neg (Nat.ne_of_gt hpos), Option.ite_none_right_eq_some,
      Option.some.injEq] at h
    obtain ⟨_, rfl⟩ := h
    rfl
  burn_imbalance := fun _ _ => rfl
  burn_account := fun _ _ => rfl
  burn_issuance := fun _ _ => rfl
  issue_imbalance := fun _ _ => rfl
  issue_account := fun _ _ => rfl
  issue_issuance := fun _ _ => rfl
  dropPositive_account := fun _ _ => rfl
  dropPositive_issuance := fun _ _ => rfl
  dropNegative_account := fun _ _ => rfl
  dropNegative_issuance := fun _ _ => rfl
  unreserve_account := fun l a _ => account_set l a _
  unreserve_issuance := fun _ _ _ => rfl

end Ledger

/-! ## As a part of a larger state -/

/-- A part of a larger state, with its access functions. -/
structure Part (ρ σ : Type) where
  get : ρ → σ
  put : ρ → σ → ρ
  get_put : ∀ r s, get (put r s) = s
  put_get : ∀ r, put r (get r) = r

/-- The currency of a part of the state. -/
def Currency.along (c : Currency A σ) (p : Part ρ σ) : Currency A ρ where
  existentialDeposit := c.existentialDeposit
  account r := c.account (p.get r)
  holders r := c.holders (p.get r)
  totalIssuance r := c.totalIssuance (p.get r)
  reducibleBalance r := c.reducibleBalance (p.get r)
  transfer r source dest v := (c.transfer (p.get r) source dest v).map (p.put r)
  depositCreating r a v :=
    (p.put r (c.depositCreating (p.get r) a v).1, (c.depositCreating (p.get r) a v).2)
  settle r a v := (c.settle (p.get r) a v).map (p.put r)
  burn r v := (p.put r (c.burn (p.get r) v).1, (c.burn (p.get r) v).2)
  issue r v := (p.put r (c.issue (p.get r) v).1, (c.issue (p.get r) v).2)
  dropPositive r v := p.put r (c.dropPositive (p.get r) v)
  dropNegative r v := p.put r (c.dropNegative (p.get r) v)
  unreserve r a v := p.put r (c.unreserve (p.get r) a v)

omit [DecidableEq A] in
theorem Currency.along_account_put (c : Currency A σ) (p : Part ρ σ) (r : ρ) (s : σ) :
    (c.along p).account (p.put r s) = c.account s :=
  congrArg c.account (p.get_put r s)

omit [DecidableEq A] in
theorem Currency.along_issuance_put (c : Currency A σ) (p : Part ρ σ) (r : ρ) (s : σ) :
    (c.along p).totalIssuance (p.put r s) = c.totalIssuance s :=
  congrArg c.totalIssuance (p.get_put r s)

/-- It is lawful when the currency is. -/
theorem Currency.Lawful.along {c : Currency A σ} (hc : c.Lawful) (p : Part ρ σ) :
    (c.along p).Lawful where
  existentialDeposit_pos := hc.existentialDeposit_pos
  mem_holders r := hc.mem_holders (p.get r)
  reducibleBalance_eq r := hc.reducibleBalance_eq (p.get r)
  transfer_noop := by
    intro r source dest v h
    show (c.transfer (p.get r) source dest v).map (p.put r) = some r
    rw [hc.transfer_noop (p.get r) source dest v h, Option.map_some, p.put_get]
  transfer_isSome := by
    intro r source dest v hpos hne
    show ((c.transfer (p.get r) source dest v).map (p.put r)).isSome ↔ _
    rw [Option.isSome_map]
    exact hc.transfer_isSome (p.get r) source dest v hpos hne
  transfer_account := by
    intro r source dest v r' hpos hne h
    obtain ⟨s, hs, rfl⟩ := Option.map_eq_some_iff.mp h
    rw [c.along_account_put]
    exact hc.transfer_account (p.get r) source dest v s hpos hne hs
  transfer_issuance := by
    intro r source dest v r' hpos hne h
    obtain ⟨s, hs, rfl⟩ := Option.map_eq_some_iff.mp h
    rw [c.along_issuance_put]
    exact hc.transfer_issuance (p.get r) source dest v s hpos hne hs
  deposit_none := by
    intro r a v h
    show (p.put r (c.depositCreating (p.get r) a v).1, (c.depositCreating (p.get r) a v).2) = _
    rw [hc.deposit_none (p.get r) a v h, p.put_get]
  deposit_imbalance r := hc.deposit_imbalance (p.get r)
  deposit_account r a v hpos hok :=
    (c.along_account_put p r _).trans (hc.deposit_account (p.get r) a v hpos hok)
  deposit_issuance r a v :=
    (c.along_issuance_put p r _).trans (hc.deposit_issuance (p.get r) a v)
  settle_isSome := by
    intro r a v hpos hcan
    show ((c.settle (p.get r) a v).map (p.put r)).isSome
    rw [Option.isSome_map]
    exact hc.settle_isSome (p.get r) a v hpos hcan
  settle_account := by
    intro r a v r' hpos h
    obtain ⟨s, hs, rfl⟩ := Option.map_eq_some_iff.mp h
    exact (c.along_account_put p r s).trans (hc.settle_account (p.get r) a v s hpos hs)
  settle_issuance := by
    intro r a v r' hpos h
    obtain ⟨s, hs, rfl⟩ := Option.map_eq_some_iff.mp h
    exact (c.along_issuance_put p r s).trans (hc.settle_issuance (p.get r) a v s hpos hs)
  burn_imbalance r := hc.burn_imbalance (p.get r)
  burn_account r v := (c.along_account_put p r _).trans (hc.burn_account (p.get r) v)
  burn_issuance r v := (c.along_issuance_put p r _).trans (hc.burn_issuance (p.get r) v)
  issue_imbalance r := hc.issue_imbalance (p.get r)
  issue_account r v := (c.along_account_put p r _).trans (hc.issue_account (p.get r) v)
  issue_issuance r v := (c.along_issuance_put p r _).trans (hc.issue_issuance (p.get r) v)
  dropPositive_account r v :=
    (c.along_account_put p r _).trans (hc.dropPositive_account (p.get r) v)
  dropPositive_issuance r v :=
    (c.along_issuance_put p r _).trans (hc.dropPositive_issuance (p.get r) v)
  dropNegative_account r v :=
    (c.along_account_put p r _).trans (hc.dropNegative_account (p.get r) v)
  dropNegative_issuance r v :=
    (c.along_issuance_put p r _).trans (hc.dropNegative_issuance (p.get r) v)
  unreserve_account r a v :=
    (c.along_account_put p r _).trans (hc.unreserve_account (p.get r) a v)
  unreserve_issuance r a v :=
    (c.along_issuance_put p r _).trans (hc.unreserve_issuance (p.get r) a v)

omit [DecidableEq A] in
/-- What a part of the state leaves alone, the currency along it does too. -/
theorem Currency.Leaves.along {β : Type} {c : Currency A σ} {f : σ → β} (h : c.Leaves f)
    (p : Part ρ σ) : (c.along p).Leaves fun r => f (p.get r) where
  transfer := by
    intro r source dest v r' hr
    obtain ⟨s, hs, rfl⟩ := Option.map_eq_some_iff.mp hr
    rw [p.get_put]
    exact h.transfer (p.get r) source dest v s hs
  deposit r a v := (congrArg f (p.get_put r _)).trans (h.deposit (p.get r) a v)
  settle := by
    intro r a v r' hr
    obtain ⟨s, hs, rfl⟩ := Option.map_eq_some_iff.mp hr
    rw [p.get_put]
    exact h.settle (p.get r) a v s hs
  burn r v := (congrArg f (p.get_put r _)).trans (h.burn (p.get r) v)
  issue r v := (congrArg f (p.get_put r _)).trans (h.issue (p.get r) v)
  dropPositive r v := (congrArg f (p.get_put r _)).trans (h.dropPositive (p.get r) v)
  dropNegative r v := (congrArg f (p.get_put r _)).trans (h.dropNegative (p.get r) v)
  unreserve r a v := (congrArg f (p.get_put r _)).trans (h.unreserve (p.get r) a v)

omit [DecidableEq A] in
/-- And so does it with all that is beside it. -/
theorem Currency.along_leaves {β : Type} (c : Currency A σ) (p : Part ρ σ) {f : ρ → β}
    (h : ∀ r s, f (p.put r s) = f r) : (c.along p).Leaves f where
  transfer := by
    intro r source dest v r' hr
    obtain ⟨s, _, rfl⟩ := Option.map_eq_some_iff.mp hr
    exact h r s
  deposit r _ _ := h r _
  settle := by
    intro r a v r' hr
    obtain ⟨s, _, rfl⟩ := Option.map_eq_some_iff.mp hr
    exact h r s
  burn r _ := h r _
  issue r _ := h r _
  dropPositive r _ := h r _
  dropNegative r _ := h r _
  unreserve r _ _ := h r _

end XXChain
