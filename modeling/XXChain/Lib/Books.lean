import XXChain.Lib.Vesting

/-!
# XXChain — balanced books

The books of a currency are balanced when what is issued is what the accounts hold, but for the
imbalances outstanding (`Currency.Backed`). Here is what each operation does to that. Where the
law of an operation takes something out of the issuance, it has to be shown that it was in it.

* **`Balanced.transfer`** … **`Balanced.resolveCreating`** — one rule for each operation;
* **`Balanced.settle`** — a settlement offsets a positive imbalance if the account pays all of
  it, or all it has. `Balanced` therefore keeps track of one account, the pool, that has nothing
  reserved.
-/

namespace XXChain

namespace Currency

variable {A σ : Type} [DecidableEq A] {c : Currency A σ} {t : VestingSchedule A σ}
  {s s' : σ} {a b pool : A} {v positive negative : Nat}

/-- The books are balanced but for the imbalances, and nothing of the pool is reserved. -/
structure Balanced (c : Currency A σ) (pool : A) (s : σ) (positive negative : Nat) : Prop where
  backed : c.Backed s positive negative
  unreserved : (c.account s pool).reserved = 0

/-! ## Sums -/

/-- The sum only depends on what each account holds. -/
theorem Lawful.sumBalances_congr_total (hc : c.Lawful)
    (h : ∀ x, c.totalBalance s' x = c.totalBalance s x) : c.sumBalances s' = c.sumBalances s := by
  have hnew : c.holders s' ⊆ c.holders s ∪ c.holders s' := Finset.subset_union_right
  have hold : c.holders s ⊆ c.holders s ∪ c.holders s' := Finset.subset_union_left
  rw [hc.sumBalances_eq hnew, hc.sumBalances_eq hold]
  exact Finset.sum_congr rfl fun x _ => h x

/-- Setting two accounts changes the sum by their changes. -/
theorem Lawful.sumBalances_of_two (hc : c.Lawful) (hne : a ≠ b) {d e : AccountData}
    (h : c.account s' = Function.update (Function.update (c.account s) a d) b e) :
    c.sumBalances s' + c.totalBalance s a + c.totalBalance s b =
      c.sumBalances s + d.total + e.total := by
  obtain ⟨l, hnew, hold, ha, hb⟩ :
      ∃ l, c.holders s' ⊆ l ∧ c.holders s ⊆ l ∧ a ∈ l ∧ b ∈ l :=
    ⟨insert a (insert b (c.holders s ∪ c.holders s')), fun x hx => by simp [hx],
      fun x hx => by simp [hx], by simp, by simp⟩
  rw [hc.sumBalances_eq hnew, hc.sumBalances_eq hold]
  have hb' : b ∈ l.erase a := Finset.mem_erase.mpr ⟨Ne.symm hne, hb⟩
  have hsplit' := Finset.add_sum_erase l (c.totalBalance s') ha
  have hsplit := Finset.add_sum_erase l (c.totalBalance s) ha
  have hrest' := Finset.add_sum_erase (l.erase a) (c.totalBalance s') hb'
  have hrest := Finset.add_sum_erase (l.erase a) (c.totalBalance s) hb'
  -- away from the two accounts nothing changes
  have hsame : ∑ x ∈ (l.erase a).erase b, c.totalBalance s' x =
      ∑ x ∈ (l.erase a).erase b, c.totalBalance s x := by
    apply Finset.sum_congr rfl
    intro x hx
    obtain ⟨hxb, hx⟩ := Finset.mem_erase.mp hx
    rw [totalBalance, totalBalance, h, Function.update_of_ne hxb,
      Function.update_of_ne (Finset.ne_of_mem_erase hx)]
  have ha' : c.totalBalance s' a = d.total := by
    rw [totalBalance, h, Function.update_of_ne hne, Function.update_self]
  have hb'' : c.totalBalance s' b = e.total := by
    rw [totalBalance, h, Function.update_self]
  omega

/-- One account is credited, and the others nothing. -/
theorem Sets.credited (h : c.Sets s s' a ((c.account s a).credit v)) (x : A) :
    c.account s' x = (c.account s x).credit (if x = a then v else 0) := by
  by_cases hx : x = a
  · rw [if_pos hx, hx, h.self]
  · rw [if_neg hx, AccountData.credit_zero, h.of_ne hx]

/-- What is dropped of a negative imbalance leaves the issuance, which covers it. -/
theorem Backed.dropNegative (hc : c.Lawful) (h : c.Backed s 0 (negative + v)) :
    c.Backed (c.dropNegative s v) 0 negative ∧
      c.totalIssuance (c.dropNegative s v) + v = c.totalIssuance s := by
  have hsum := hc.sumBalances_congr (hc.dropNegative_account s v)
  have hissuance := hc.dropNegative_issuance s v
  unfold Backed at h ⊢
  omega

/-- Several imbalances are dropped one by one. -/
theorem Backed.foldl_dropNegative (hc : c.Lawful) (dropped : List Nat)
    (h : c.Backed s 0 (negative + dropped.sum)) :
    c.Backed (dropped.foldl c.dropNegative s) 0 negative ∧
      c.totalIssuance (dropped.foldl c.dropNegative s) + dropped.sum = c.totalIssuance s ∧
      c.account (dropped.foldl c.dropNegative s) = c.account s := by
  induction dropped generalizing s with
  | nil => exact ⟨h, rfl, rfl⟩
  | cons v dropped ih =>
    have hsplit : negative + (v :: dropped).sum = negative + dropped.sum + v := by
      rw [List.sum_cons]
      omega
    rw [hsplit] at h
    obtain ⟨hfirst, hissuance⟩ := h.dropNegative hc
    obtain ⟨hbacked, hrest, haccount⟩ := ih hfirst
    rw [List.foldl_cons, List.sum_cons]
    refine ⟨hbacked, by omega, ?_⟩
    rw [haccount, hc.dropNegative_account]

/-- An account that is credited what was issued. -/
theorem Backed.credit (hc : c.Lawful) (h : c.Backed s positive (negative + v))
    (hsets : c.Sets s s' a ((c.account s a).credit v))
    (hissuance : c.totalIssuance s' = c.totalIssuance s) : c.Backed s' positive negative := by
  have hsum := hc.sumBalances_of_sets hsets
  rw [AccountData.total_credit] at hsum
  unfold totalBalance at hsum
  unfold Backed at h ⊢
  omega

/-- Dust was held by the account. -/
theorem Backed.withdrawDust_le (hc : c.Lawful) (h : c.Backed s 0 negative)
    (hfree : v ≤ (c.account s a).free) :
    (c.account s a).withdrawDust c.existentialDeposit v + v ≤ c.totalIssuance s := by
  have htotal := @AccountData.total_withdraw_add_dust c.existentialDeposit _ _ hfree
  have hsum := hc.totalBalance_le_sum s a
  unfold Backed at h
  unfold totalBalance at hsum
  omega

namespace Balanced

/-- What changes neither the issuance nor what each account holds and has reserved. -/
theorem congr (hc : c.Lawful) (h : c.Balanced pool s positive negative)
    (hissuance : c.totalIssuance s' = c.totalIssuance s)
    (hfree : ∀ x, (c.account s' x).free = (c.account s x).free)
    (hreserved : ∀ x, (c.account s' x).reserved = (c.account s x).reserved) :
    c.Balanced pool s' positive negative where
  backed := by
    have hsum : c.sumBalances s' = c.sumBalances s := by
      apply hc.sumBalances_congr_total
      intro x
      rw [totalBalance, totalBalance, AccountData.total, AccountData.total, hfree, hreserved]
    have hbacked := h.backed
    unfold Backed at hbacked ⊢
    omega
  unreserved := (hreserved pool).trans h.unreserved

omit [DecidableEq A] in
/-- Imbalances of opposite signs offset each other. -/
theorem offset (h : c.Balanced pool s (positive + v) (negative + v)) :
    c.Balanced pool s positive negative where
  backed := by
    have hbacked := h.backed
    unfold Backed at hbacked ⊢
    omega
  unreserved := h.unreserved

theorem transfer (hc : c.Lawful) (h : c.Balanced pool s 0 negative)
    (hrun : c.transfer s a b v = some s') : c.Balanced pool s' 0 negative := by
  by_cases hself : a = b
  · rw [hc.transfer_noop s a b v (Or.inr hself)] at hrun
    cases hrun
    exact h
  have hfree := hc.transfer_le_free hself hrun
  have haccounts := hc.account_transfer hself hrun
  have hissuance := hc.issuance_transfer hself hrun
  have hsum := hc.sumBalances_of_two hself haccounts
  have hpaid := @AccountData.total_withdraw_add_dust c.existentialDeposit _ _ hfree
  have hdust := h.backed.withdrawDust_le hc hfree
  have hbacked := h.backed
  constructor
  · rw [AccountData.total_credit] at hsum
    unfold totalBalance at hsum
    unfold Backed at hbacked ⊢
    omega
  · rw [haccounts]
    by_cases hb : pool = b
    · rw [hb, Function.update_self]
      exact hb ▸ h.unreserved
    · rw [Function.update_of_ne hb]
      by_cases ha : pool = a
      · rw [ha, Function.update_self]
        exact AccountData.reserved_withdraw_of_zero (ha ▸ h.unreserved)
      · rw [Function.update_of_ne ha]
        exact h.unreserved

theorem deposit (hc : c.Lawful) (h : c.Balanced pool s positive negative) (a : A) (v : Nat) :
    c.Balanced pool (c.depositCreating s a v).1 (positive + (c.depositCreating s a v).2)
      negative where
  backed := hc.backed_deposit h.backed
  unreserved := by
    rw [hc.deposit_accepted s a v]
    by_cases hpool : pool = a
    · rw [hpool, Function.update_self]
      exact hpool ▸ h.unreserved
    · rw [Function.update_of_ne hpool]
      exact h.unreserved

/-- The account pays `v` of the imbalance. -/
theorem settle (hc : c.Lawful) (h : c.Balanced pool s (positive + v) negative)
    (hfree : v ≤ (c.account s pool).free) (hall : positive = 0 ∨ v = (c.account s pool).free)
    (hpos : 0 < v) (hrun : c.settle s pool v = some s') :
    c.Balanced pool s' positive negative := by
  have hsets := hc.settle_account s pool v s' hpos hrun
  have hissuance := hc.settle_issuance s pool v s' hpos hrun
  have hsum := hc.sumBalances_of_sets hsets
  have hdebit := AccountData.total_debit hfree
  have hreap := ((c.account s pool).debit v).total_reap_add_dust c.existentialDeposit
  have hpool := hc.totalBalance_le_sum s pool
  have hbacked := h.backed
  have hreserved := h.unreserved
  unfold totalBalance at hsum hpool
  unfold Backed at hbacked
  have htotal : (c.account s pool).total = (c.account s pool).free := by
    rw [AccountData.total, hreserved, Nat.add_zero]
  have hdust : ((c.account s pool).debit v).dust c.existentialDeposit ≤ c.totalIssuance s := by
    omega
  constructor
  · unfold Backed
    omega
  · rw [hsets.self]
    unfold AccountData.reap
    split
    · rfl
    · exact hreserved

theorem dropPositive (hc : c.Lawful) (h : c.Balanced pool s (positive + v) negative) :
    c.Balanced pool (c.dropPositive s v) positive negative where
  backed := by
    have hsum := hc.sumBalances_congr (hc.dropPositive_account s v)
    have hissuance := hc.dropPositive_issuance s v
    have hbacked := h.backed
    unfold Backed at hbacked ⊢
    omega
  unreserved := by
    rw [hc.dropPositive_account]
    exact h.unreserved

theorem dropNegative (hc : c.Lawful) (h : c.Balanced pool s 0 (negative + v)) :
    c.Balanced pool (c.dropNegative s v) 0 negative where
  backed := (h.backed.dropNegative hc).1
  unreserved := by
    rw [hc.dropNegative_account]
    exact h.unreserved

theorem burn (hc : c.Lawful) (h : c.Balanced pool s positive negative) (v : Nat) :
    c.Balanced pool (c.burn s v).1 (positive + (c.burn s v).2) negative where
  backed := by
    have hsum := hc.sumBalances_congr (hc.burn_account s v)
    have hissuance := hc.burn_issuance s v
    have himbalance := hc.burn_imbalance s v
    have hbacked := h.backed
    unfold Backed at hbacked ⊢
    omega
  unreserved := by
    rw [hc.burn_account]
    exact h.unreserved

theorem issue (hc : c.Lawful) (h : c.Balanced pool s positive negative) (v : Nat) :
    c.Balanced pool (c.issue s v).1 positive (negative + (c.issue s v).2) where
  backed := by
    have hsum := hc.sumBalances_congr (hc.issue_account s v)
    have hissuance := hc.issue_issuance s v
    have himbalance := hc.issue_imbalance s v
    have hbacked := h.backed
    unfold Backed at hbacked ⊢
    omega
  unreserved := by
    rw [hc.issue_account]
    exact h.unreserved

theorem unreserve (hc : c.Lawful) (h : c.Balanced pool s positive negative) (a : A) (v : Nat) :
    c.Balanced pool (c.unreserve s a v) positive negative where
  backed := by
    have hsum := hc.sumBalances_of_sets (hc.unreserve_account s a v)
    have hissuance := hc.unreserve_issuance s a v
    have hbacked := h.backed
    unfold totalBalance AccountData.total at hsum
    unfold Backed at hbacked ⊢
    dsimp only at hsum
    omega
  unreserved := by
    have hreserved := h.unreserved
    rw [hc.unreserve_account s a v]
    by_cases hpool : pool = a
    · subst hpool
      rw [Function.update_self]
      dsimp only
      omega
    · rw [Function.update_of_ne hpool]
      exact hreserved

/-- A schedule locks coins, and moves none. -/
theorem tryAdd (hc : c.Lawful) (ht : t.Lawful c) (h : c.Balanced pool s positive negative)
    (block : Nat) (a : A) (w : Schedule) :
    c.Balanced pool (t.tryAdd block s a w) positive negative := by
  refine h.congr hc (ht.tryAdd_issuance block s a w) (fun x => ?_) fun x => ?_
  · by_cases hx : x = a
    · rw [hx, ht.tryAdd_free]
    · rw [ht.tryAdd_account_of_ne block s w hx]
  · by_cases hx : x = a
    · rw [hx, ht.tryAdd_reserved]
    · rw [ht.tryAdd_account_of_ne block s w hx]

theorem foldl_tryAdd (hc : c.Lawful) (ht : t.Lawful c)
    (h : c.Balanced pool s positive negative) (block : Nat) (a : A) (added : List Schedule) :
    c.Balanced pool (added.foldl (fun s w => t.tryAdd block s a w) s) positive negative := by
  induction added generalizing s with
  | nil => exact h
  | cons w added ih =>
    rw [List.foldl_cons]
    exact ih (h.tryAdd hc ht block a w)

end Balanced

/-! ## Resolving a negative imbalance -/

/-- What was issued is deposited, and what the account does not accept of it is dropped. -/
def resolveCreating (c : Currency A σ) (s : σ) (a : A) (v : Nat) : σ :=
  c.dropNegative (c.depositCreating s a v).1 (v - (c.depositCreating s a v).2)

theorem Balanced.resolveCreating (hc : c.Lawful) (h : c.Balanced pool s 0 (negative + v))
    (a : A) : c.Balanced pool (c.resolveCreating s a v) 0 negative := by
  have hle := hc.deposit_imbalance_le s a v
  have hdeposited := h.deposit hc a v
  have hsplit : negative + v = negative + (v - (c.depositCreating s a v).2) +
      (c.depositCreating s a v).2 := by omega
  rw [hsplit] at hdeposited
  exact hdeposited.offset.dropNegative hc

/-- The account is credited what it accepts, and the rest leaves the issuance, which covers it. -/
theorem Lawful.resolveCreating_accepted (hc : c.Lawful) (a : A)
    (h : c.Backed s 0 (negative + v)) :
    let credited := accepted c.existentialDeposit v (c.totalBalance s a)
    c.Sets s (c.resolveCreating s a v) a ((c.account s a).credit credited) ∧
      c.Backed (c.resolveCreating s a v) 0 negative ∧
      c.totalIssuance (c.resolveCreating s a v) + (v - credited) = c.totalIssuance s := by
  have hsets := hc.deposit_accepted s a v
  have himbalance := hc.deposit_imbalance_accepted s a v
  have hle := hc.deposit_imbalance_le s a v
  have hdeposited := hc.backed_deposit (a := a) (v := v) h
  have hissuance := hc.deposit_issuance s a v
  rw [himbalance] at hle hdeposited
  -- what was credited offsets its part of what was issued
  have hrest : c.Backed (c.depositCreating s a v).1 0
      (negative + (v - accepted c.existentialDeposit v (c.totalBalance s a))) := by
    unfold Backed at hdeposited ⊢
    omega
  obtain ⟨hbacked, hdropped⟩ := hrest.dropNegative hc
  unfold Currency.resolveCreating
  rw [himbalance]
  refine ⟨?_, hbacked, by omega⟩
  show c.account (c.dropNegative _ _) = _
  rw [hc.dropNegative_account]
  exact hsets

end Currency

end XXChain
