import XXChain.Economics.Model
import XXChain.Lib.Run

/-!
# XXChain — the rewards pool pays first

Validator rewards reach the pallet as a positive imbalance, credited but not issued; reward
remainders as a negative one, issued but not credited. Both adapters take what they can from
the pool and mint the rest.

* **`onUnbalanced_spec`** and **`remainder_spec`** — the accounts, the issuance and the
  events after one of either;
* **`rewards_pool_accounting`** — over any run of both: the books stay balanced, and each
  event debits the pool, pays the beneficiaries and changes the issuance as it should.
-/

namespace XXChain.Economics

variable {A σ : Type} [DecidableEq A] {T : Config A σ} {s s' : State σ}

/-! ## Events of the staking pallet -/

/-- The deposits of a payout, each a credit to one of the receivers, and the imbalances they
return. -/
def depositAll (c : Currency A σ) (ledger : σ) : List (A × Nat) → σ × List (A × Nat)
  | [] => (ledger, [])
  | (who, amount) :: receivers =>
    let (ledger, credited) := c.depositCreating ledger who amount
    let (ledger, rest) := depositAll c ledger receivers
    (ledger, (who, credited) :: rest)

/-- The total imbalance of a list of deposits. -/
def totalCredited (credits : List (A × Nat)) : Nat :=
  (credits.map Prod.snd).sum

/-- What a list of deposits credited to one account. -/
def creditedTo (who : A) (credits : List (A × Nat)) : Nat :=
  totalCredited (credits.filter fun credit => credit.1 = who)

/-- Validator rewards: the receivers are paid, and the pallet squares up the imbalance. -/
def payRewards (T : Config A σ) (receivers : List (A × Nat)) (s : State σ) : State σ :=
  let (ledger, credits) := depositAll T.currency s.ledger receivers
  onUnbalanced T (totalCredited credits) { s with ledger }

/-- A reward remainder: freshly issued, and passed to the adapter. -/
def payRemainder (T : Config A σ) (amount : Nat) (s : State σ) : State σ :=
  let (ledger, imbalance) := T.currency.issue s.ledger amount
  remainderOnUnbalanced T imbalance { s with ledger }

/-! ## Withdrawing from the pool -/

/-- The amounts of the events a reward leaves. -/
def rewardEvents (fromPool mint : Nat) : List Event :=
  (if fromPool = 0 then [] else [.rewardFromPool fromPool]) ++
    (if mint = 0 then [] else [.rewardMinted mint])

/-- The amount of an event of the rewards pool. -/
def eventAmount : Event → Nat
  | .rewardFromPool amount => amount
  | .rewardMinted amount => amount
  | _ => 0

theorem eventAmount_rewardEvents (fromPool mint : Nat) :
    ((rewardEvents fromPool mint).map eventAmount).sum = fromPool + mint := by
  unfold rewardEvents
  by_cases hpool : fromPool = 0 <;> by_cases hmint : mint = 0 <;> simp [hpool, hmint, eventAmount]

/-- The account of the pool. -/
def pool (T : Config A σ) (ledger : σ) : AccountData :=
  T.currency.account ledger T.rewardsAccountId

/-- The unencumbered pool can always be debited by what it has. -/
theorem withdraw_spec (hc : T.currency.Lawful) (hpool : (pool T s.ledger).Unencumbered)
    {v : Nat} (hle : v ≤ (pool T s.ledger).free) :
    T.currency.Sets s.ledger (withdraw T v s).ledger T.rewardsAccountId
        ((pool T s.ledger).withdraw T.currency.existentialDeposit v) ∧
      T.currency.totalIssuance (withdraw T v s).ledger =
        T.currency.totalIssuance s.ledger -
          (pool T s.ledger).withdrawDust T.currency.existentialDeposit v ∧
      (withdraw T v s).events = s.events ++ (if v = 0 then [] else [.rewardFromPool v]) := by
  unfold withdraw
  by_cases hv : v = 0
  · simp [hv, Currency.Sets, pool, AccountData.withdraw, AccountData.withdrawDust,
      Function.update_eq_self]
  · obtain ⟨ledger, hledger, hsets, hissuance⟩ :=
      hc.settle_unencumbered (Nat.pos_of_ne_zero hv) hle hpool
    simp only [if_neg hv, hledger]
    exact ⟨hsets, hissuance, rfl⟩

omit [DecidableEq A] in
theorem mintEvent_ledger (v : Nat) (s : State σ) : (mintEvent v s).ledger = s.ledger := by
  unfold mintEvent
  split <;> rfl

omit [DecidableEq A] in
theorem mintEvent_events (v : Nat) (s : State σ) :
    (mintEvent v s).events = s.events ++ (if v = 0 then [] else [.rewardMinted v]) := by
  unfold mintEvent
  split <;> simp [State.depositEvent]

/-! ## Positive imbalances -/

/-- A reward of `amount`, credited but not issued, with `p` in the pool: the pool loses
`min amount p` and the dust this leaves, no other account changes, the rest is issued, and
the events say so. Other imbalances may be outstanding. -/
theorem onUnbalanced_spec (hc : T.currency.Lawful) (hpool : (pool T s.ledger).Unencumbered)
    {amount negative : Nat} (hbacked : T.currency.Backed s.ledger amount negative) :
    let ed := T.currency.existentialDeposit
    let fromPool := min amount (pool T s.ledger).free
    let s' := onUnbalanced T amount s
    T.currency.Sets s.ledger s'.ledger T.rewardsAccountId
        ((pool T s.ledger).withdraw ed fromPool) ∧
      T.currency.totalIssuance s'.ledger + (pool T s.ledger).withdrawDust ed fromPool =
        T.currency.totalIssuance s.ledger + (amount - fromPool) ∧
      s'.events = s.events ++ rewardEvents fromPool (amount - fromPool) ∧
      T.currency.Backed s'.ledger 0 negative := by
  dsimp only
  by_cases hzero : amount = 0
  · subst hzero
    simpa [onUnbalanced, Currency.Sets, pool, rewardEvents, AccountData.withdraw,
      AccountData.withdrawDust, Function.update_eq_self] using hbacked
  have hbalance : rewardsBalance T s = (pool T s.ledger).free := rfl
  have hdust := hpool.withdrawDust_le T.currency.existentialDeposit amount
  have hle := Nat.min_le_right amount (pool T s.ledger).free
  have hamount := Nat.min_le_left amount (pool T s.ledger).free
  simp only [onUnbalanced, if_neg hzero, onNonzeroUnbalanced, hbalance, mintEvent_ledger,
    mintEvent_events]
  generalize min amount (pool T s.ledger).free = fromPool at hdust hle hamount ⊢
  obtain ⟨hsets, hissuance, hevents⟩ := withdraw_spec hc hpool hle
  have hwithdrawn := hc.sumBalances_withdraw hle hsets
  have haccounts := hc.dropPositive_account (withdraw T fromPool s).ledger (amount - fromPool)
  have hissued := hc.dropPositive_issuance (withdraw T fromPool s).ledger (amount - fromPool)
  have hsum := hc.sumBalances_congr haccounts
  -- what the pool has beyond the reward is issued, so its dust can leave the issuance
  have hpoolSum := hc.totalBalance_le_sum s.ledger T.rewardsAccountId
  have htotal : T.currency.totalBalance s.ledger T.rewardsAccountId =
      (pool T s.ledger).free := hpool.total_eq
  unfold Currency.Backed at hbacked ⊢
  refine ⟨?_, ?_, ?_, ?_⟩
  · show T.currency.account _ = _
    rw [haccounts]
    exact hsets
  · omega
  · rw [hevents, rewardEvents, List.append_assoc]
  · rw [show T.currency.account s.ledger T.rewardsAccountId = pool T s.ledger from rfl]
      at hwithdrawn
    omega

omit [DecidableEq A] in
/-- What neither the settlement from the pool nor a drop of rewards changes, a reward does not
change either. -/
theorem onUnbalanced_keeps {β : Type} {f : σ → β}
    (hdrop : ∀ ledger v, f (T.currency.dropPositive ledger v) = f ledger)
    (hsettle : ∀ ledger v ledger', 0 < v →
      T.currency.settle ledger T.rewardsAccountId v = some ledger' → f ledger' = f ledger)
    (amount : Nat) (s : State σ) : f (onUnbalanced T amount s).ledger = f s.ledger := by
  have hwithdraw : ∀ v (s : State σ), f (withdraw T v s).ledger = f s.ledger := by
    intro v s
    unfold withdraw
    by_cases hv : v = 0
    · rw [if_pos hv]
    · rw [if_neg hv]
      cases hrun : T.currency.settle s.ledger T.rewardsAccountId v with
      | none => exact hdrop s.ledger v
      | some ledger => exact hsettle s.ledger v ledger (Nat.pos_of_ne_zero hv) hrun
  unfold onUnbalanced
  split
  · rfl
  · simp only [onNonzeroUnbalanced]
    rw [hdrop, mintEvent_ledger, hwithdraw]

omit [DecidableEq A] in
theorem onUnbalanced_leaves {β : Type} {f : σ → β} (h : T.currency.Leaves f) (amount : Nat)
    (s : State σ) : f (onUnbalanced T amount s).ledger = f s.ledger :=
  onUnbalanced_keeps h.dropPositive
    (fun ledger v ledger' _ hrun => h.settle ledger T.rewardsAccountId v ledger' hrun) amount s

/-- Whatever is drawn, no account but the pool is touched. -/
theorem onUnbalanced_account_of_ne (hc : T.currency.Lawful) (amount : Nat) (s : State σ) {a : A}
    (hne : a ≠ T.rewardsAccountId) :
    T.currency.account (onUnbalanced T amount s).ledger a = T.currency.account s.ledger a := by
  refine onUnbalanced_keeps (f := fun ledger => T.currency.account ledger a)
    (fun ledger v => ?_) (fun ledger v ledger' hv hrun => ?_) amount s
  · rw [hc.dropPositive_account]
  · exact (hc.settle_account ledger T.rewardsAccountId v ledger' hv hrun).of_ne hne

/-! ## Deposits to the receivers -/

omit [DecidableEq A] in
@[simp]
theorem creditedTo_nil [DecidableEq A] (who : A) : creditedTo who [] = 0 := rfl

@[simp]
theorem creditedTo_cons (who a : A) (v : Nat) (credits : List (A × Nat)) :
    creditedTo who ((a, v) :: credits) =
      (if a = who then v else 0) + creditedTo who credits := by
  unfold creditedTo totalCredited
  by_cases h : a = who <;> simp [h]

/-- One deposit credits what it returns, whether it is accepted or refused. -/
theorem account_depositCreating {c : Currency A σ} (hc : c.Lawful) (ledger : σ) (a : A)
    (v : Nat) (who : A) :
    c.account (c.depositCreating ledger a v).1 who =
      (c.account ledger who).credit (if a = who then (c.depositCreating ledger a v).2 else 0) := by
  rcases hc.deposit_cases ledger a v with hnone | ⟨himb, hsets⟩
  · rw [hnone]
    simp [AccountData.credit]
  · rw [himb]
    by_cases hwho : a = who
    · subst hwho
      rw [hsets.self, if_pos rfl]
    · rw [hsets.of_ne (Ne.symm hwho), if_neg hwho]
      rfl

/-- The deposits credit each receiver by what was credited to it, and nobody else. -/
theorem depositAll_spec {c : Currency A σ} (hc : c.Lawful) (receivers : List (A × Nat))
    {ledger : σ} {positive : Nat} (hbacked : c.Backed ledger positive 0) :
    let result := depositAll c ledger receivers
    (∀ who, c.account result.1 who =
        (c.account ledger who).credit (creditedTo who result.2)) ∧
      c.totalIssuance result.1 = c.totalIssuance ledger ∧
      c.Backed result.1 (positive + totalCredited result.2) 0 := by
  induction receivers generalizing ledger positive with
  | nil => exact ⟨fun who => rfl, rfl, hbacked⟩
  | cons receiver receivers ih =>
    obtain ⟨a, v⟩ := receiver
    have hfirst := hc.backed_deposit (a := a) (v := v) hbacked
    obtain ⟨haccounts, hissuance, hrest⟩ := ih hfirst
    refine ⟨fun who => ?_, ?_, ?_⟩
    · simp only [depositAll, creditedTo_cons]
      rw [haccounts who, account_depositCreating hc]
      simp only [AccountData.credit, Nat.add_assoc]
    · simp only [depositAll]
      rw [hissuance, hc.deposit_issuance]
    · simpa only [depositAll, totalCredited, List.map_cons, List.sum_cons, Nat.add_assoc]
        using hrest

/-! ## Accounting of a reward -/

/-- The pool with its own share of the credits; nobody holds its key, but it can still be
named as a receiver. -/
def creditedPool (T : Config A σ) (s : State σ) (credits : List (A × Nat)) : AccountData :=
  (pool T s.ledger).credit (creditedTo T.rewardsAccountId credits)

/-- What the pool pays of a reward that credits `credits`. -/
def fromPool (T : Config A σ) (s : State σ) (credits : List (A × Nat)) : Nat :=
  min (totalCredited credits) (creditedPool T s credits).free

/-- What a reward that credits `credits` has to do to the books, its amount being their
total: the pool pays as much of it as it has, and the dust it is left with is burned; the
beneficiaries end up with what was credited to them and nobody else's account changes; the
rest is issued; and the events say so, with amounts that add up to that of the reward. -/
structure Accounted (T : Config A σ) (before after : State σ) (credits : List (A × Nat)) :
    Prop where
  pool_eq : pool T after.ledger = (creditedPool T before credits).withdraw
    T.currency.existentialDeposit (fromPool T before credits)
  credited : ∀ who, who ≠ T.rewardsAccountId → T.currency.account after.ledger who =
    (T.currency.account before.ledger who).credit (creditedTo who credits)
  issuance : T.currency.totalIssuance after.ledger +
      (creditedPool T before credits).withdrawDust T.currency.existentialDeposit
        (fromPool T before credits) =
    T.currency.totalIssuance before.ledger + (totalCredited credits - fromPool T before credits)
  events : after.events = before.events ++
    rewardEvents (fromPool T before credits) (totalCredited credits - fromPool T before credits)
  amounts : ((rewardEvents (fromPool T before credits)
    (totalCredited credits - fromPool T before credits)).map eventAmount).sum =
      totalCredited credits
  balanced : T.currency.totalIssuance after.ledger = T.currency.sumBalances after.ledger

theorem eventAmount_reward (T : Config A σ) (s : State σ) (credits : List (A × Nat)) :
    ((rewardEvents (fromPool T s credits) (totalCredited credits - fromPool T s credits)).map
      eventAmount).sum = totalCredited credits := by
  rw [eventAmount_rewardEvents]
  exact Nat.add_sub_of_le (Nat.min_le_left _ _)

theorem payRewards_accounted (hc : T.currency.Lawful)
    (hpool : (pool T s.ledger).Unencumbered)
    (hbooks : T.currency.totalIssuance s.ledger = T.currency.sumBalances s.ledger)
    (receivers : List (A × Nat)) :
    Accounted T s (payRewards T receivers s) (depositAll T.currency s.ledger receivers).2 := by
  have hbacked : T.currency.Backed s.ledger 0 0 := hbooks
  obtain ⟨haccounts, hissued, hrest⟩ := depositAll_spec hc receivers hbacked
  unfold payRewards
  generalize depositAll T.currency s.ledger receivers = result at haccounts hissued hrest ⊢
  obtain ⟨ledger, credits⟩ := result
  rw [Nat.zero_add] at hrest
  have hcredited : pool T ledger = creditedPool T s credits := haccounts T.rewardsAccountId
  have hunencumbered : (pool T ledger).Unencumbered := by
    rw [hcredited]
    exact hpool.credit _
  obtain ⟨hsets, hissuance, hevents, hbalanced⟩ :=
    @onUnbalanced_spec _ _ _ T { s with ledger } hc hunencumbered _ _ hrest
  simp only [hcredited] at hsets hissuance hevents
  refine ⟨hsets.self, fun who hwho => ?_, ?_, hevents, eventAmount_reward T s credits,
    hbalanced⟩
  · rw [hsets.of_ne hwho]
    exact haccounts who
  · rw [← hissued]
    exact hissuance

/-! ## Negative imbalances -/

/-- The remainder handler resolves an imbalance by crediting the account `treasury`, which
exists. -/
def ResolvesInto (T : Config A σ) (treasury : A) : Prop :=
  ∀ ledger v, 0 < v → T.currency.totalBalance ledger treasury ≠ 0 →
    T.currency.Sets ledger (T.rewardRemainder ledger v) treasury
        ((T.currency.account ledger treasury).credit v) ∧
      T.currency.totalIssuance (T.rewardRemainder ledger v) = T.currency.totalIssuance ledger

/-- What the pool pays of a remainder is burned and then withdrawn from it. The issuance
covers the burn. -/
theorem burn_withdraw_spec (hc : T.currency.Lawful) (hpool : (pool T s.ledger).Unencumbered)
    {paid : Nat} (hle : paid ≤ (pool T s.ledger).free)
    (hcovered : paid ≤ T.currency.totalIssuance s.ledger) :
    let ed := T.currency.existentialDeposit
    let burned := T.currency.burn s.ledger paid
    let s' := withdraw T paid { s with ledger := burned.1 }
    burned.2 = paid ∧
      T.currency.Sets s.ledger s'.ledger T.rewardsAccountId
        ((pool T s.ledger).withdraw ed paid) ∧
      T.currency.totalIssuance s'.ledger =
        T.currency.totalIssuance s.ledger - paid - (pool T s.ledger).withdrawDust ed paid ∧
      T.currency.sumBalances s'.ledger + paid + (pool T s.ledger).withdrawDust ed paid =
        T.currency.sumBalances s.ledger ∧
      s'.events = s.events ++ (if paid = 0 then [] else [.rewardFromPool paid]) := by
  dsimp only
  have hburned := hc.burn_account s.ledger paid
  have hissuance := hc.burn_issuance s.ledger paid
  have himbalance : (T.currency.burn s.ledger paid).2 = paid := by
    rw [hc.burn_imbalance]
    omega
  rw [himbalance]
  generalize (T.currency.burn s.ledger paid).1 = ledger at hburned hissuance ⊢
  -- the burn leaves the pool as it was
  have hpool₁ : pool T ledger = pool T s.ledger := congrFun hburned T.rewardsAccountId
  have hsum₁ := hc.sumBalances_congr hburned
  rw [← hpool₁] at hpool hle ⊢
  obtain ⟨hsets, hissuance₂, hevents⟩ := @withdraw_spec _ _ _ T { s with ledger } hc hpool paid hle
  have hsum₂ := hc.sumBalances_withdraw hle hsets
  refine ⟨rfl, ?_, ?_, ?_, hevents⟩
  · unfold Currency.Sets at hsets ⊢
    rw [← hburned]
    exact hsets
  · rw [hissuance₂, hissuance]
  · rw [← hsum₁]
    exact hsum₂

/-- A remainder of `amount`, issued but not credited: the pool loses what it can pay and the
dust this leaves, both of which leave the issuance, and the treasury is credited. -/
theorem remainder_spec (hc : T.currency.Lawful) (hpool : (pool T s.ledger).Unencumbered)
    {amount : Nat} (hpos : 0 < amount) (hbacked : T.currency.Backed s.ledger 0 amount)
    {treasury : A} (hne : treasury ≠ T.rewardsAccountId) (hhandler : ResolvesInto T treasury)
    (htreasury : T.currency.totalBalance s.ledger treasury ≠ 0) :
    let ed := T.currency.existentialDeposit
    let paid := min amount (pool T s.ledger).free
    let s' := remainderOnNonzeroUnbalanced T amount s
    T.currency.account s'.ledger = Function.update
        (Function.update (T.currency.account s.ledger) T.rewardsAccountId
          ((pool T s.ledger).withdraw ed paid))
        treasury ((T.currency.account s.ledger treasury).credit amount) ∧
      T.currency.totalIssuance s'.ledger + (pool T s.ledger).withdrawDust ed paid + paid =
        T.currency.totalIssuance s.ledger ∧
      s'.events = s.events ++ rewardEvents paid (amount - paid) ∧
      T.currency.Backed s'.ledger 0 0 := by
  dsimp only
  have hbalance : rewardsBalance T s = (pool T s.ledger).free := rfl
  have hle := Nat.min_le_right amount (pool T s.ledger).free
  have hamount := Nat.min_le_left amount (pool T s.ledger).free
  simp only [remainderOnNonzeroUnbalanced, hbalance, mintEvent_ledger, mintEvent_events]
  generalize min amount (pool T s.ledger).free = paid at hle hamount ⊢
  unfold Currency.Backed at hbacked
  obtain ⟨himbalance, hsets, hissuance, hsum, hevents⟩ :=
    burn_withdraw_spec hc hpool hle (by omega)
  rw [himbalance]
  generalize withdraw T paid _ = s₁ at hsets hissuance hsum hevents ⊢
  -- the treasury, which was not touched so far
  have htreasury₁ := hsets.of_ne hne
  obtain ⟨hresolved, hissuance₂⟩ := hhandler s₁.ledger amount hpos
    (by rw [Currency.totalBalance, htreasury₁]; exact htreasury)
  have hsum₂ := hc.sumBalances_of_sets hresolved
  rw [AccountData.total_credit, ← Currency.totalBalance] at hsum₂
  refine ⟨?_, ?_, ?_, ?_⟩
  · rw [hresolved, htreasury₁, hsets]
  · omega
  · rw [hevents, rewardEvents, List.append_assoc]
  · unfold Currency.Backed
    omega

/-- What a remainder credits: all of it to the treasury, and nothing to the pool. -/
theorem creditedPool_remainder {treasury : A} (hne : treasury ≠ T.rewardsAccountId)
    (amount : Nat) : creditedPool T s [(treasury, amount)] = pool T s.ledger := by
  simp [creditedPool, hne, AccountData.credit]

theorem fromPool_remainder {treasury : A} (hne : treasury ≠ T.rewardsAccountId) (amount : Nat) :
    fromPool T s [(treasury, amount)] = min amount (pool T s.ledger).free := by
  rw [fromPool, creditedPool_remainder hne]
  simp [totalCredited]

/-- A remainder of nothing. -/
theorem payRemainder_zero_accounted (hc : T.currency.Lawful)
    (hbooks : T.currency.totalIssuance s.ledger = T.currency.sumBalances s.ledger)
    {treasury : A} (hne : treasury ≠ T.rewardsAccountId) :
    Accounted T s (payRemainder T 0 s) [(treasury, 0)] := by
  have hissued := hc.issue_account s.ledger 0
  have hissuance := hc.issue_issuance s.ledger 0
  have hsum := hc.sumBalances_congr hissued
  have htotal : totalCredited [(treasury, 0)] = 0 := by simp [totalCredited]
  unfold payRemainder
  dsimp only
  rw [hc.issue_imbalance]
  generalize (T.currency.issue s.ledger 0).1 = ledger at hissued hissuance hsum ⊢
  have hsame : remainderOnUnbalanced T 0 { s with ledger } = { s with ledger } := if_pos rfl
  rw [hsame]
  refine ⟨?_, fun who _ => ?_, ?_, ?_, eventAmount_reward T s _, ?_⟩
  · rw [creditedPool_remainder hne, fromPool_remainder hne, Nat.zero_min, AccountData.withdraw,
      if_pos rfl]
    exact congrFun hissued T.rewardsAccountId
  · simp [hissued, AccountData.credit]
  · rw [creditedPool_remainder hne, fromPool_remainder hne, htotal, Nat.zero_min,
      AccountData.withdrawDust, if_pos rfl]
    exact hissuance
  · simp [fromPool, htotal, rewardEvents]
  · show T.currency.totalIssuance ledger = T.currency.sumBalances ledger
    omega

theorem payRemainder_accounted (hc : T.currency.Lawful)
    (hpool : (pool T s.ledger).Unencumbered)
    (hbooks : T.currency.totalIssuance s.ledger = T.currency.sumBalances s.ledger)
    {treasury : A} (hne : treasury ≠ T.rewardsAccountId) (hhandler : ResolvesInto T treasury)
    (htreasury : T.currency.totalBalance s.ledger treasury ≠ 0) (amount : Nat) :
    Accounted T s (payRemainder T amount s) [(treasury, amount)] := by
  rcases Nat.eq_zero_or_pos amount with rfl | hpos
  · exact payRemainder_zero_accounted hc hbooks hne
  have hissued := hc.issue_account s.ledger amount
  have hissuance := hc.issue_issuance s.ledger amount
  have hsum := hc.sumBalances_congr hissued
  have htotal : totalCredited [(treasury, amount)] = amount := by simp [totalCredited]
  unfold payRemainder
  dsimp only
  rw [hc.issue_imbalance]
  generalize (T.currency.issue s.ledger amount).1 = ledger at hissued hissuance hsum ⊢
  -- the remainder is issued, and no account has changed
  have hbacked : T.currency.Backed ledger 0 amount := by
    unfold Currency.Backed
    omega
  have hpool₁ : pool T ledger = pool T s.ledger := congrFun hissued T.rewardsAccountId
  have htreasury₁ : T.currency.totalBalance ledger treasury ≠ 0 := by
    unfold Currency.totalBalance
    rw [hissued]
    exact htreasury
  rw [← hpool₁] at hpool
  obtain ⟨haccounts, hissuance', hevents, hbalanced⟩ :=
    @remainder_spec _ _ _ T { s with ledger } hc hpool amount hpos hbacked treasury
      hne hhandler htreasury₁
  simp only [hpool₁, hissued] at haccounts hissuance' hevents
  have hrun : remainderOnUnbalanced T amount { s with ledger } =
      remainderOnNonzeroUnbalanced T amount { s with ledger } := if_neg (Nat.ne_of_gt hpos)
  rw [hrun]
  refine ⟨?_, fun who hwho => ?_, ?_, ?_, eventAmount_reward T s _, hbalanced⟩
  · rw [pool, haccounts, Function.update_of_ne (Ne.symm hne), Function.update_self,
      creditedPool_remainder hne, fromPool_remainder hne]
  · rw [haccounts, creditedTo_cons, creditedTo_nil, Nat.add_zero]
    by_cases hself : treasury = who
    · subst hself
      rw [Function.update_self, if_pos rfl]
    · rw [Function.update_of_ne (Ne.symm hself), Function.update_of_ne hwho, if_neg hself]
      rfl
  · have hle := Nat.min_le_left amount (pool T s.ledger).free
    rw [creditedPool_remainder hne, fromPool_remainder hne, htotal]
    omega
  · rw [fromPool_remainder hne, htotal]
    exact hevents

/-! ## Runs -/

/-- What the staking pallet hands to the pallet at the end of an era. -/
inductive Reward (A : Type) where
  | rewards (receivers : List (A × Nat))
  | remainder (amount : Nat)

def pay (T : Config A σ) (s : State σ) : Reward A → State σ
  | .rewards receivers => payRewards T receivers s
  | .remainder amount => payRemainder T amount s

/-- The credits of a reward paid in the state `s`; a deposit that the currency refuses, below
the existential deposit to an account that is not there, credits nothing. -/
def credits (T : Config A σ) (treasury : A) (s : State σ) : Reward A → List (A × Nat)
  | .rewards receivers => (depositAll T.currency s.ledger receivers).2
  | .remainder amount => [(treasury, amount)]

/-- The books are balanced, the pool is nobody else's, and the treasury exists. -/
structure InOrder (T : Config A σ) (treasury : A) (s : State σ) : Prop where
  balanced : T.currency.totalIssuance s.ledger = T.currency.sumBalances s.ledger
  pool_unencumbered : (pool T s.ledger).Unencumbered
  treasury_exists : T.currency.totalBalance s.ledger treasury ≠ 0

theorem pay_accounted (hc : T.currency.Lawful) {treasury : A}
    (hne : treasury ≠ T.rewardsAccountId) (hhandler : ResolvesInto T treasury)
    (h : InOrder T treasury s) (reward : Reward A) :
    Accounted T s (pay T s reward) (credits T treasury s reward) := by
  cases reward with
  | rewards receivers => exact payRewards_accounted hc h.pool_unencumbered h.balanced receivers
  | remainder amount =>
    exact payRemainder_accounted hc h.pool_unencumbered h.balanced hne hhandler
      h.treasury_exists amount

/-- An accounted reward leaves the books in order. -/
theorem InOrder.step {treasury : A} (hne : treasury ≠ T.rewardsAccountId)
    (h : InOrder T treasury s) {credits : List (A × Nat)} (hacc : Accounted T s s' credits) :
    InOrder T treasury s' := by
  refine ⟨hacc.balanced, ?_, ?_⟩
  · rw [hacc.pool_eq]
    exact (h.pool_unencumbered.credit _).withdraw _ _
  · have hexists := h.treasury_exists
    rw [Currency.totalBalance, hacc.credited treasury hne, AccountData.total_credit]
    rw [Currency.totalBalance] at hexists
    omega

/-- Over every run of rewards and remainders, in any order: the issuance is the sum of all
balances, and the next reward, whichever it is, is accounted for. The pool pays before
anything is minted. -/
theorem rewards_pool_accounting (T : Config A σ) (treasury : A) (hc : T.currency.Lawful)
    (hne : treasury ≠ T.rewardsAccountId) (hhandler : ResolvesInto T treasury)
    (s₀ : State σ) (h₀ : InOrder T treasury s₀) (run : List (Reward A)) :
    let s := run.foldl (pay T) s₀
    T.currency.totalIssuance s.ledger = T.currency.sumBalances s.ledger ∧
      ∀ reward, Accounted T s (pay T s reward) (credits T treasury s reward) := by
  have horder : InOrder T treasury (run.foldl (pay T) s₀) := by
    induction run generalizing s₀ with
    | nil => exact h₀
    | cons reward run ih => exact ih _ (h₀.step hne (pay_accounted hc hne hhandler h₀ reward))
  exact ⟨horder.balanced, pay_accounted hc hne hhandler horder⟩

/-- The treasury of the tests resolves. -/
theorem mockRuntime_resolves {existentialDeposit : Nat} (hpos : 0 < existentialDeposit) :
    ResolvesInto (mockRuntime existentialDeposit) 1337 := by
  intro ledger v hv htreasury
  have hc : (Ledger.currency (A := Nat) existentialDeposit).Lawful := Ledger.currency_lawful hpos
  have himbalance := hc.deposit_imbalance ledger 1337 v hv (Or.inr htreasury)
  have hdeposit := hc.deposit_account ledger 1337 v hv (Or.inr htreasury)
  have hissuance := hc.deposit_issuance ledger 1337 v
  refine ⟨hdeposit, ?_⟩
  show ((Ledger.currency existentialDeposit).depositCreating ledger 1337 v).1.issuance -
    (v - ((Ledger.currency existentialDeposit).depositCreating ledger 1337 v).2) = _
  rw [himbalance, Nat.sub_self, Nat.sub_zero]
  exact hissuance

/-- A reward that leaves dust in the pool, a remainder, and then a reward that is minted. -/
theorem rewards_pool_accounting_mock :
    let s := [Reward.rewards [(5, 296)], .remainder 50].foldl (pay (mockRuntime 10))
      (genesisBuild mockGenesis (mockLedger 300))
    s.ledger.issuance = 1346 ∧ (mockRuntime 10).currency.sumBalances s.ledger = 1346 ∧
      Accounted (mockRuntime 10) s (pay (mockRuntime 10) s (.rewards [(6, 1000), (7, 3)]))
        [(6, 1000), (7, 0)] := by
  obtain ⟨hbalanced, haccounted⟩ := rewards_pool_accounting (mockRuntime 10) 1337
    (Ledger.currency_lawful (by decide)) (by decide) (mockRuntime_resolves (by decide))
    (genesisBuild mockGenesis (mockLedger 300)) ⟨by rfl, by decide, by decide⟩
    [.rewards [(5, 296)], .remainder 50]
  exact ⟨by rfl, hbalanced.symm, haccounted (.rewards [(6, 1000), (7, 3)])⟩

end XXChain.Economics
