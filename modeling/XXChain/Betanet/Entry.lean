import XXChain.Betanet.Model
import XXChain.Economics.RewardsPool

/-!
# XXChain — paying one betanet reward

What `process_account` and `process_leftover_claim` do to the books, one entry at a time. The
rewards are drawn from the pool account, and what it cannot pay is minted.

* **`processAccount_spec`** — the account gains its reward, and its schedules grow as its
  option says;
* **`processLeftoverClaim_spec`** — the claim and the total grow by the reward, which leaves the
  issuance;
* **`Pays.trans`** — payments one after the other are one payment of their sum.
-/

namespace XXChain.Betanet

open StorageMap Claims

variable {A σ : Type} [DecidableEq A] {T : Config A σ} {pool : A} {s s' s'' : State A σ}

/-! ## The parts of the runtime -/

/-- The handler of the rewards draws a positive imbalance from the pool, and mints the rest. -/
structure DrawsOn (T : Config A σ) (pool : A) : Prop where
  sets : ∀ ledger amount negative, (T.claims.currency.account ledger pool).Unencumbered →
    T.claims.currency.Backed ledger amount negative →
    T.claims.currency.Sets ledger (T.reward ledger amount) pool
      ((T.claims.currency.account ledger pool).draw T.claims.currency.existentialDeposit amount)
  backed : ∀ ledger amount negative, (T.claims.currency.account ledger pool).Unencumbered →
    T.claims.currency.Backed ledger amount negative →
    T.claims.currency.Backed (T.reward ledger amount) 0 negative
  schedules : ∀ ledger amount, T.claims.vestingSchedule.schedules (T.reward ledger amount) =
    T.claims.vestingSchedule.schedules ledger

/-- The currency and the vesting pallet behave as documented, and rewards draw on the pool. -/
structure Config.Lawful (T : Config A σ) (pool : A) : Prop where
  currency : T.claims.currency.Lawful
  vesting : T.claims.vestingSchedule.Lawful T.claims.currency
  reward : DrawsOn T pool

def account (T : Config A σ) (s : State A σ) (a : A) : AccountData :=
  T.claims.currency.account s.ledger a

def schedules (T : Config A σ) (s : State A σ) (a : A) : List Schedule :=
  T.claims.vestingSchedule.schedules s.ledger a

def totalIssuance (T : Config A σ) (s : State A σ) : Nat :=
  T.claims.currency.totalIssuance s.ledger

/-- The books are balanced, and the pool is nobody else's. -/
structure InOrder (T : Config A σ) (pool : A) (s : State A σ) : Prop where
  balanced : totalIssuance T s = T.claims.currency.sumBalances s.ledger
  pool_unencumbered : (account T s pool).Unencumbered

/-! ## Payments -/

/-- From `s` to `s'` a reward of `amount` is paid: it is drawn from the pool, and the issuance
and the total of the claims together grow by what the pool does not lose. -/
structure Pays (T : Config A σ) (pool : A) (amount : Nat) (s s' : State A σ) : Prop where
  inOrder : InOrder T pool s'
  pool_eq : account T s' pool =
    (account T s pool).draw T.claims.currency.existentialDeposit amount
  issuance : totalIssuance T s' + s'.total + (account T s pool).total =
    totalIssuance T s + s.total + amount + (account T s' pool).total

omit [DecidableEq A] in
theorem Pays.refl (h : InOrder T pool s) : Pays T pool 0 s s where
  inOrder := h
  pool_eq := by simp [AccountData.draw, AccountData.withdraw]
  issuance := by omega

theorem Pays.trans (hT : T.Lawful pool) (h : InOrder T pool s) {x y : Nat}
    (hfirst : Pays T pool x s s') (hsecond : Pays T pool y s' s'') :
    Pays T pool (x + y) s s'' where
  inOrder := hsecond.inOrder
  pool_eq := by
    rw [hsecond.pool_eq, hfirst.pool_eq]
    exact h.pool_unencumbered.draw_draw hT.currency.existentialDeposit_pos x y
  issuance := by
    have hissuance₁ := hfirst.issuance
    have hissuance₂ := hsecond.issuance
    omega

/-- Paying with the handler, from a ledger with the same pool and the imbalances `amount` and
`negative` outstanding. -/
theorem reward_spec (hT : T.Lawful pool) {ledger : σ} {amount negative : Nat}
    (hpool : (T.claims.currency.account ledger pool).Unencumbered)
    (hbacked : T.claims.currency.Backed ledger amount negative) :
    (T.claims.currency.account (T.reward ledger amount) pool).Unencumbered ∧
      T.claims.currency.totalIssuance (T.reward ledger amount) =
        T.claims.currency.sumBalances (T.reward ledger amount) + negative ∧
      T.claims.currency.sumBalances (T.reward ledger amount) +
          (T.claims.currency.account ledger pool).total =
        T.claims.currency.sumBalances ledger +
          (T.claims.currency.account (T.reward ledger amount) pool).total := by
  have hsets := hT.reward.sets ledger amount negative hpool hbacked
  have hafter := hT.reward.backed ledger amount negative hpool hbacked
  have hsum := hT.currency.sumBalances_of_sets hsets
  refine ⟨?_, hafter, ?_⟩
  · rw [hsets.self]
    exact hpool.draw _ _
  · rw [hsets.self]
    exact hsum

/-! ## The lock of an account -/

/-- The part of the desired lock that is not locked already. -/
def rewardLock (info : UserInfo) (currentLocked : Option Nat) : Nat :=
  let desiredLock := (info.option.principalLock.of info.principal + rewardAmount info) %
    balanceLimit
  match currentLocked with
  | some l => desiredLock - l
  | none => desiredLock

/-- The last step of `process_account`. -/
def lockReward (T : Config A σ) (block : Nat) (account : A) (info : UserInfo) (ledger : σ) : σ :=
  match info.option with
  | .noVesting => ledger
  | _ =>
    let lock := rewardLock info (T.claims.vestingSchedule.vestingBalance block ledger account)
    if lock = 0 then ledger
    else
      T.claims.vestingSchedule.tryAdd block ledger account
        (lock, lock / info.option.vestingPeriod, T.enactmentBlock)

/-- The schedules it leaves, of an account with the balance `free`. -/
def rewardSchedules (T : Config A σ) (block : Nat) (info : UserInfo) (free : Nat)
    (schedules : List Schedule) : List Schedule :=
  match info.option with
  | .noVesting => schedules
  | _ =>
    let lock := rewardLock info
      (if schedules = [] then none else some (min free (lockedTotal block schedules)))
    if lock = 0 then schedules
    else
      addSchedule T.claims.vestingSchedule.maxSchedules block schedules
        (lock, lock / info.option.vestingPeriod, T.enactmentBlock)

omit [DecidableEq A] in
theorem processAccount_eq (T : Config A σ) (a : A) (info : UserInfo) (s : State A σ) :
    processAccount T a info s =
      let deposit := T.claims.currency.depositCreating s.ledger a (rewardAmount info)
      { s with ledger := lockReward T s.block a info (T.reward deposit.1 deposit.2) } := by
  unfold processAccount lockReward rewardLock
  cases info.option <;> rfl

omit [DecidableEq A] in
/-- It adds one schedule to the account, or nothing. -/
theorem lockReward_cases (T : Config A σ) (block : Nat) (a : A) (info : UserInfo) (ledger : σ) :
    lockReward T block a info ledger = ledger ∨ ∃ v, lockReward T block a info ledger =
      T.claims.vestingSchedule.tryAdd block ledger a v := by
  unfold lockReward
  cases info.option with
  | noVesting => exact Or.inl rfl
  | _ =>
    dsimp only
    split
    · exact Or.inl rfl
    · exact Or.inr ⟨_, rfl⟩

omit [DecidableEq A] in
/-- The reward is deposited and settled, and then a schedule may lock it. -/
theorem processAccount_ledger (T : Config A σ) (a : A) (info : UserInfo) (s : State A σ) :
    let deposit := T.claims.currency.depositCreating s.ledger a (rewardAmount info)
    (processAccount T a info s).ledger = T.reward deposit.1 deposit.2 ∨
      ∃ v, (processAccount T a info s).ledger =
        T.claims.vestingSchedule.tryAdd s.block (T.reward deposit.1 deposit.2) a v := by
  rw [processAccount_eq]
  exact lockReward_cases T s.block a info _

/-- It touches nothing of the account but its locks, and nothing of the others. -/
theorem lockReward_account (hT : T.Lawful pool) (block : Nat) (a : A) (info : UserInfo)
    (ledger : σ) :
    (T.claims.currency.account (lockReward T block a info ledger) a).free =
        (T.claims.currency.account ledger a).free ∧
      (T.claims.currency.account (lockReward T block a info ledger) a).reserved =
        (T.claims.currency.account ledger a).reserved ∧
      (∀ b, b ≠ a → T.claims.currency.account (lockReward T block a info ledger) b =
        T.claims.currency.account ledger b) ∧
      T.claims.currency.totalIssuance (lockReward T block a info ledger) =
        T.claims.currency.totalIssuance ledger := by
  rcases lockReward_cases T block a info ledger with hsame | ⟨v, hadd⟩
  · rw [hsame]
    exact ⟨rfl, rfl, fun _ _ => rfl, rfl⟩
  · rw [hadd]
    exact ⟨hT.vesting.tryAdd_free block ledger a v, hT.vesting.tryAdd_reserved block ledger a v,
      fun b hb => hT.vesting.tryAdd_account_of_ne block ledger v hb,
      hT.vesting.tryAdd_issuance block ledger a v⟩

theorem lockReward_schedules (hT : T.Lawful pool) (block : Nat) (a : A) (info : UserInfo)
    (ledger : σ) :
    T.claims.vestingSchedule.schedules (lockReward T block a info ledger) =
      Function.update (T.claims.vestingSchedule.schedules ledger) a
        (rewardSchedules T block info (T.claims.currency.account ledger a).free
          (T.claims.vestingSchedule.schedules ledger a)) := by
  have hbalance := hT.vesting.vestingBalance_eq block ledger a
  unfold lockReward rewardSchedules
  rw [hbalance]
  cases info.option with
  | noVesting => exact (Function.update_eq_self _ _).symm
  | _ =>
    dsimp only [Currency.freeBalance]
    generalize rewardLock info _ = lock
    by_cases hlock : lock = 0
    · rw [if_pos hlock, if_pos hlock]
      exact (Function.update_eq_self a _).symm
    · rw [if_neg hlock, if_neg hlock]
      exact hT.vesting.tryAdd_schedules block ledger a _

/-- Locks do not count in the sum of all balances. -/
theorem sumBalances_of_same (hT : T.Lawful pool) {ledger ledger' : σ} {a : A}
    (hothers : ∀ b, b ≠ a → T.claims.currency.account ledger' b =
      T.claims.currency.account ledger b)
    (htotal : (T.claims.currency.account ledger' a).total =
      (T.claims.currency.account ledger a).total) :
    T.claims.currency.sumBalances ledger' = T.claims.currency.sumBalances ledger := by
  have hsets : T.claims.currency.Sets ledger ledger' a (T.claims.currency.account ledger' a) := by
    funext b
    by_cases hb : b = a
    · rw [hb, Function.update_self]
    · rw [Function.update_of_ne hb, hothers b hb]
  have hsum := hT.currency.sumBalances_of_sets hsets
  simp only [Currency.totalBalance] at hsum
  omega

/-! ## An account -/

/-- A deposit to an account that exists, or of nothing. -/
theorem deposit_spec (hT : T.Lawful pool) (ledger : σ) {a : A} (v : Nat)
    (hexists : (T.claims.currency.account ledger a).total ≠ 0) :
    (T.claims.currency.depositCreating ledger a v).2 = v ∧
      T.claims.currency.Sets ledger (T.claims.currency.depositCreating ledger a v).1 a
        ((T.claims.currency.account ledger a).credit v) := by
  rcases hT.currency.deposit_cases ledger a v with hnone | hdone
  · -- only a deposit of nothing is refused
    have hzero : v = 0 := by
      by_contra hv
      have himbalance := hT.currency.deposit_imbalance ledger a v (Nat.pos_of_ne_zero hv)
        (Or.inr hexists)
      rw [hnone] at himbalance
      exact hv himbalance.symm
    rw [hnone, hzero]
    exact ⟨rfl, (Function.update_eq_self _ _).symm⟩
  · exact hdone

/-- A deposit whose imbalance the handler draws from the pool. -/
theorem deposit_reward_spec (hT : T.Lawful pool) {ledger : σ}
    (hbalanced : T.claims.currency.totalIssuance ledger = T.claims.currency.sumBalances ledger)
    (hpool : (T.claims.currency.account ledger pool).Unencumbered) {a : A} (hne : a ≠ pool)
    (hexists : (T.claims.currency.account ledger a).total ≠ 0) (v : Nat) :
    let c := T.claims.currency
    let ledger' := T.reward (c.depositCreating ledger a v).1 (c.depositCreating ledger a v).2
    (c.account ledger' pool = (c.account ledger pool).draw c.existentialDeposit v ∧
      c.account ledger' a = (c.account ledger a).credit v ∧
      ∀ b, b ≠ pool → b ≠ a → c.account ledger' b = c.account ledger b) ∧
    (c.totalIssuance ledger' = c.sumBalances ledger' ∧
      c.totalIssuance ledger' + (c.account ledger pool).total =
        c.totalIssuance ledger + v + (c.account ledger' pool).total) ∧
    T.claims.vestingSchedule.schedules ledger' = T.claims.vestingSchedule.schedules ledger := by
  obtain ⟨himbalance, hdeposited⟩ := deposit_spec hT ledger v hexists
  have hissued := hT.currency.deposit_issuance ledger a v
  have hsum := hT.currency.sumBalances_of_sets hdeposited
  have hleaves := hT.vesting.leaves_schedules.deposit ledger a v
  dsimp only
  rw [himbalance]
  generalize (T.claims.currency.depositCreating ledger a v).1 = ledger₁
    at hdeposited hissued hsum hleaves ⊢
  -- the reward is credited and not issued, and the pool is as it was
  have hpool₁ := hdeposited.of_ne (Ne.symm hne)
  rw [AccountData.total_credit, Currency.totalBalance] at hsum
  have hbacked : T.claims.currency.Backed ledger₁ v 0 := by
    unfold Currency.Backed
    omega
  rw [← hpool₁] at hpool
  have hsets := hT.reward.sets ledger₁ v 0 hpool hbacked
  obtain ⟨_, hbalanced', hdrawn⟩ := reward_spec hT hpool hbacked
  have hrewarded := hT.reward.schedules ledger₁ v
  rw [hpool₁] at hsets hdrawn
  refine ⟨⟨hsets.self, ?_, ?_⟩, ⟨hbalanced', ?_⟩, hrewarded.trans hleaves⟩
  · rw [hsets.of_ne hne, hdeposited.self]
  · intro b hb hba
    rw [hsets.of_ne hb, hdeposited.of_ne hba]
  · omega

/-- The account is paid its reward, and no other account than the pool is touched. -/
structure Credited (T : Config A σ) (pool a : A) (info : UserInfo) (s s' : State A σ) : Prop where
  free : (account T s' a).free = (account T s a).free + rewardAmount info
  reserved : (account T s' a).reserved = (account T s a).reserved
  schedules : schedules T s' = Function.update (schedules T s) a
    (rewardSchedules T s.block info ((account T s a).free + rewardAmount info) (schedules T s a))
  others : ∀ b, b ≠ pool → b ≠ a → account T s' b = account T s b

theorem processAccount_spec (hT : T.Lawful pool) (h : InOrder T pool s) {a : A}
    (hne : a ≠ pool) (hexists : (account T s a).total ≠ 0) (info : UserInfo) :
    Pays T pool (rewardAmount info) s (processAccount T a info s) ∧
      Credited T pool a info s (processAccount T a info s) := by
  rw [processAccount_eq]
  obtain ⟨⟨hpool, haccount, hothers⟩, ⟨hbalanced, hissuance⟩, hschedules⟩ :=
    deposit_reward_spec hT h.balanced h.pool_unencumbered hne hexists (rewardAmount info)
  dsimp only at hpool haccount hothers hbalanced hissuance hschedules ⊢
  generalize T.reward _ _ = ledger
    at hpool haccount hothers hbalanced hissuance hschedules ⊢
  -- the lock is added last, and moves no balance
  obtain ⟨hfree, hreserved, hlocked, hissued⟩ := lockReward_account hT s.block a info ledger
  have hadded := lockReward_schedules hT s.block a info ledger
  generalize lockReward T s.block a info ledger = ledger'
    at hfree hreserved hlocked hissued hadded ⊢
  have hpool' := hlocked pool (Ne.symm hne)
  have hsum := sumBalances_of_same hT hlocked (by rw [AccountData.total, hfree, hreserved]; rfl)
  rw [haccount] at hfree hreserved hadded
  refine ⟨⟨⟨?_, ?_⟩, hpool'.trans hpool, ?_⟩, hfree, hreserved, ?_, ?_⟩
  · show T.claims.currency.totalIssuance ledger' = T.claims.currency.sumBalances ledger'
    rw [hissued, hbalanced, hsum]
  · show (T.claims.currency.account ledger' pool).Unencumbered
    rw [hpool', hpool]
    exact h.pool_unencumbered.draw _ _
  · show T.claims.currency.totalIssuance ledger' + s.total +
        (T.claims.currency.account s.ledger pool).total =
      T.claims.currency.totalIssuance s.ledger + s.total + rewardAmount info +
        (T.claims.currency.account ledger' pool).total
    rw [hpool', hissued]
    omega
  · show T.claims.vestingSchedule.schedules ledger' = _
    rw [hadded, hschedules]
    rfl
  · intro b hb hba
    exact (hlocked b hba).trans (hothers b hb hba)

/-! ## A leftover claim -/

/-- Burning and issuing the same amount leaves the accounts and their schedules alone. -/
theorem burn_issue_spec (hT : T.Lawful pool) (ledger : σ) (v : Nat) :
    let c := T.claims.currency
    let ledger' := (c.issue (c.burn ledger v).1 v).1
    c.account ledger' = c.account ledger ∧
      c.totalIssuance ledger' = c.totalIssuance ledger - v + v ∧
      T.claims.vestingSchedule.schedules ledger' = T.claims.vestingSchedule.schedules ledger := by
  have hc := hT.currency
  have hleaves := hT.vesting.leaves_schedules
  refine ⟨?_, ?_, ?_⟩
  · rw [hc.issue_account, hc.burn_account]
  · rw [hc.issue_issuance, hc.burn_issuance]
  · rw [hleaves.issue, hleaves.burn]

/-- What the pool has is issued, so that less is not drawn when the burn is capped. -/
theorem draw_burned (hT : T.Lawful pool) {ledger : σ}
    (hbalanced : T.claims.currency.totalIssuance ledger = T.claims.currency.sumBalances ledger)
    (hpool : (T.claims.currency.account ledger pool).Unencumbered) (ed v : Nat) :
    (T.claims.currency.account ledger pool).draw ed
        (min v (T.claims.currency.totalIssuance ledger)) =
      (T.claims.currency.account ledger pool).draw ed v := by
  have hsum := hT.currency.totalBalance_le_sum ledger pool
  rw [Currency.totalBalance, hpool.total_eq] at hsum
  unfold AccountData.draw
  congr 1
  omega

/-- A pair of imbalances of which the handler draws one from the pool and the other is
dropped. -/
theorem pair_reward_spec (hT : T.Lawful pool) {ledger : σ}
    (hbalanced : T.claims.currency.totalIssuance ledger = T.claims.currency.sumBalances ledger)
    (hpool : (T.claims.currency.account ledger pool).Unencumbered) (v : Nat) :
    let c := T.claims.currency
    let debit := c.burn ledger v
    let credit := c.issue debit.1 v
    let ledger' := c.dropNegative (T.reward credit.1 debit.2) credit.2
    c.Sets ledger ledger' pool ((c.account ledger pool).draw c.existentialDeposit v) ∧
    (c.totalIssuance ledger' = c.sumBalances ledger' ∧
      c.totalIssuance ledger' + (c.account ledger pool).total =
        c.totalIssuance ledger + (c.account ledger' pool).total) ∧
    T.claims.vestingSchedule.schedules ledger' = T.claims.vestingSchedule.schedules ledger := by
  have hc := hT.currency
  have hdraw := draw_burned hT hbalanced hpool T.claims.currency.existentialDeposit v
  obtain ⟨haccount₁, hissuance₁, hschedules₁⟩ := burn_issue_spec hT ledger v
  dsimp only
  rw [hc.burn_imbalance, hc.issue_imbalance]
  generalize (T.claims.currency.issue (T.claims.currency.burn ledger v).1 v).1 = ledger₁
    at haccount₁ hissuance₁ hschedules₁ ⊢
  have hsum₁ := hc.sumBalances_congr haccount₁
  have hpool₁ : T.claims.currency.account ledger₁ pool = T.claims.currency.account ledger pool := by
    rw [haccount₁]
  -- the handler: the imbalances that are out are the capped burn and the issue
  generalize hdebit : min v (T.claims.currency.totalIssuance ledger) = debit at hdraw ⊢
  have hbacked : T.claims.currency.Backed ledger₁ debit v := by
    unfold Currency.Backed
    omega
  rw [← hpool₁] at hpool
  have hsets₂ := hT.reward.sets ledger₁ debit v hpool hbacked
  obtain ⟨_, hbalanced₂, hdrawn₂⟩ := reward_spec hT hpool hbacked
  have hschedules₂ := hT.reward.schedules ledger₁ debit
  generalize T.reward ledger₁ debit = ledger₂ at hsets₂ hbalanced₂ hdrawn₂ hschedules₂ ⊢
  rw [hpool₁] at hsets₂ hdrawn₂
  rw [hdraw] at hsets₂
  -- dropping the other one moves the issuance only
  have haccount₃ := hc.dropNegative_account ledger₂ v
  have hissuance₃ := hc.dropNegative_issuance ledger₂ v
  have hschedules₃ := hT.vesting.leaves_schedules.dropNegative ledger₂ v
  have hsum₃ := hc.sumBalances_congr haccount₃
  refine ⟨?_, ⟨?_, ?_⟩, ?_⟩
  · unfold Currency.Sets at hsets₂ ⊢
    rw [haccount₃, hsets₂, haccount₁]
  · omega
  · rw [haccount₃]
    omega
  · rw [hschedules₃, hschedules₂, hschedules₁]

/-- The lock that `process_leftover_claim` adds to the schedules of a claim. -/
def leftoverLock (T : Config A σ) (address : EthereumAddress) (reward : Nat) (s : State A σ) :
    Nat :=
  let principal := ((s.claims.lookup address).map fun claim =>
    (claim + reward) % balanceLimit).getD 0
  let option : RewardOption := default
  computeClaimsVestingLock T address
    ((option.principalLock.of principal + reward) % balanceLimit) s

omit [DecidableEq A] in
theorem processLeftoverClaim_vesting (T : Config A σ) (address : EthereumAddress)
    (reward : Nat) (s : State A σ) :
    (processLeftoverClaim T address reward s).vesting =
      let lock := leftoverLock T address reward s
      if lock = 0 then s.vesting
      else s.vesting.insert address ((s.vesting.lookup address).getD [] ++
        [(lock, lock / (default : RewardOption).vestingPeriod, T.enactmentBlock)]) := by
  unfold processLeftoverClaim leftoverLock
  cases hlookup : s.claims.lookup address with
  | none => simp only [hlookup, Option.map_none]
  | some claim => simp only [Finmap.lookup_insert, Option.map_some]

omit [DecidableEq A] in
/-- The schedules that a claim is left with are decided by its own entries. -/
theorem lookup_vesting_congr {address : EthereumAddress} (reward : Nat)
    (hclaim : s'.claims.lookup address = s.claims.lookup address)
    (hvesting : s'.vesting.lookup address = s.vesting.lookup address) :
    (processLeftoverClaim T address reward s').vesting.lookup address =
      (processLeftoverClaim T address reward s).vesting.lookup address := by
  have hlock : leftoverLock T address reward s' = leftoverLock T address reward s := by
    unfold leftoverLock computeClaimsVestingLock
    rw [hclaim, hvesting]
  rw [processLeftoverClaim_vesting, processLeftoverClaim_vesting, hlock, hvesting]
  dsimp only
  split
  · exact hvesting
  · rw [Finmap.lookup_insert, Finmap.lookup_insert]

/-- The claim grows by its reward, and no account but the pool is touched. -/
structure Added (T : Config A σ) (pool : A) (address : EthereumAddress) (reward : Nat)
    (s s' : State A σ) : Prop where
  claims : s'.claims.lookup address = (s.claims.lookup address).map (· + reward)
  claims_others : ∀ other, other ≠ address → s'.claims.lookup other = s.claims.lookup other
  vesting_others : ∀ other, other ≠ address → s'.vesting.lookup other = s.vesting.lookup other
  total : s'.total = s.total + reward
  accounts : ∀ b, b ≠ pool → account T s' b = account T s b
  schedules : schedules T s' = schedules T s

theorem processLeftoverClaim_spec (hT : T.Lawful pool) (h : InOrder T pool s)
    (address : EthereumAddress) (reward : Nat)
    (hclaim : ∀ claim, s.claims.lookup address = some claim → claim + reward < balanceLimit)
    (htotal : s.total + reward < balanceLimit) :
    Pays T pool reward s (processLeftoverClaim T address reward s) ∧
      Added T pool address reward s (processLeftoverClaim T address reward s) := by
  obtain ⟨hsets, ⟨hbalanced, hissuance⟩, hschedules⟩ :=
    pair_reward_spec hT h.balanced h.pool_unencumbered reward
  -- the vesting is read off the state before, the rest off the state after
  have hvesting : ∀ other, other ≠ address →
      (processLeftoverClaim T address reward s).vesting.lookup other = s.vesting.lookup other := by
    intro other hother
    rw [processLeftoverClaim_vesting]
    dsimp only
    split
    · rfl
    · exact Finmap.lookup_insert_of_ne _ hother
  unfold processLeftoverClaim at hvesting ⊢
  dsimp only
  generalize T.claims.currency.dropNegative _ _ = ledger
    at hsets hbalanced hissuance hschedules ⊢
  refine ⟨⟨⟨hbalanced, ?_⟩, hsets.self, ?_⟩, ?_, ?_, hvesting, ?_, ?_, hschedules⟩
  · show (T.claims.currency.account ledger pool).Unencumbered
    rw [hsets.self]
    exact h.pool_unencumbered.draw _ _
  · show T.claims.currency.totalIssuance ledger + (s.total + reward) % balanceLimit +
        (T.claims.currency.account s.ledger pool).total =
      T.claims.currency.totalIssuance s.ledger + s.total + reward +
        (T.claims.currency.account ledger pool).total
    rw [Nat.mod_eq_of_lt htotal]
    omega
  · cases hlookup : s.claims.lookup address with
    | none => exact hlookup
    | some claim =>
      show (s.claims.insert address _).lookup address = _
      rw [Finmap.lookup_insert, Nat.mod_eq_of_lt (hclaim claim hlookup)]
      rfl
  · intro other hother
    cases hlookup : s.claims.lookup address with
    | none => rfl
    | some claim => exact Finmap.lookup_insert_of_ne _ hother
  · exact Nat.mod_eq_of_lt htotal
  · intro b hb
    exact hsets.of_ne hb

end XXChain.Betanet
