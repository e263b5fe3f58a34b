import XXChain.Betanet.Claimant

/-!
# XXChain — whether the reward is locked as its option promises

`process_account` reads what the vesting pallet locks of the account, and adds a schedule of
what is missing of the promised lock. The vesting pallet refuses a schedule that unlocks
nothing per block, and one too many; `process_account` ignores that.

* **`locked_as_promised_iff`** — what is locked at the enactment block is at least what was
  promised exactly when it was before, or there is room for one more schedule and what is
  promised beyond the locks that the vesting pallet counts is at least one unit for each block
  of the vesting period, as an integer: a promise that is no balance wraps.
-/

namespace XXChain.Betanet

open Claims

variable {A σ : Type} [DecidableEq A] {T : Config A σ} {pool a : A} {s : State A σ}
  {info : UserInfo}

/-- What the schedules of an account lock at the enactment block. -/
def lockedAtEnactment (T : Config A σ) (s : State A σ) (a : A) : Nat :=
  lockedTotal T.enactmentBlock (schedules T s a)

/-- The reward that is paid: what the currency accepts of its amount. -/
def paidReward (T : Config A σ) (s : State A σ) (a : A) (info : UserInfo) : Nat :=
  (T.claims.currency.depositCreating s.ledger a (rewardAmount info)).2

/-- What the option promises to lock. -/
def promisedLock (T : Config A σ) (s : State A σ) (a : A) (info : UserInfo) : Nat :=
  info.option.principalLock.of info.principal + paidReward T s a info

/-- The ledger once the reward is paid and settled. -/
def settled (T : Config A σ) (s : State A σ) (a : A) (info : UserInfo) : σ :=
  T.reward (T.claims.currency.depositCreating s.ledger a (rewardAmount info)).1
    (paidReward T s a info)

/-- What is missing of the promised lock: the vesting pallet locks no more than the account
has, and the sum is one of balances. -/
def missingLock (T : Config A σ) (s : State A σ) (a : A) (info : UserInfo) : Nat :=
  (info.option.principalLock.of info.principal + rewardAmount info) % balanceLimit -
    min (T.claims.currency.freeBalance (settled T s a info) a) (lockedAtEnactment T s a)

/-! ## The condition

It is read off the state before: the free balance of the account, what its schedules lock and how
many there are, and what the option, the principal and the reward come to. -/

/-- What the currency accepts of the reward: nothing, if it is too little to open the account. -/
def acceptedReward (T : Config A σ) (s : State A σ) (a : A) (info : UserInfo) : Nat :=
  Currency.accepted T.claims.currency.existentialDeposit (rewardAmount info)
    (account T s a).total

/-- The free balance with the reward. The pool pays the rewards, and of its own it keeps what the
handler leaves it. -/
def freeWithReward (T : Config A σ) (pool : A) (s : State A σ) (a : A) (info : UserInfo) : Nat :=
  if a = pool then T.claims.currency.freeBalance (settled T s a info) a
  else (account T s a).free + acceptedReward T s a info

/-- What the vesting pallet counts of the locks there are. -/
def countedLock (T : Config A σ) (pool : A) (s : State A σ) (a : A) (info : UserInfo) : Nat :=
  min (freeWithReward T pool s a info) (lockedAtEnactment T s a)

/-- What a sum of balances loses as it wraps: nothing, if it is a balance. -/
def wrappedOff (n : Nat) : Nat :=
  n - n % balanceLimit

theorem wrappedOff_of_lt {n : Nat} (h : n < balanceLimit) : wrappedOff n = 0 := by
  unfold wrappedOff
  rw [Nat.mod_eq_of_lt h, Nat.sub_self]

/-- The schedules lock what is promised already, or there is room for one more and it is
accepted: the principal's part and the reward exceed what is counted by one unit for each block
of the vesting period. Where the two are no balance, what wraps must not have been needed. -/
def KeepsPromise (T : Config A σ) (pool : A) (s : State A σ) (a : A) (info : UserInfo) : Prop :=
  let lock := info.option.principalLock.of info.principal
  let reward := rewardAmount info
  let counted := countedLock T pool s a info
  lock + acceptedReward T s a info ≤ lockedAtEnactment T s a ∨
    (schedules T s a).length < T.claims.vestingSchedule.maxSchedules ∧
      info.option.vestingPeriod + wrappedOff (lock + reward) + counted ≤ lock + reward ∧
      (lock + reward < balanceLimit ∨
        wrappedOff (lock + reward) + acceptedReward T s a info + counted ≤
          lockedAtEnactment T s a + reward)

/-! ## What is added -/

theorem vestingPeriod_pos {option : RewardOption} (h : option ≠ .noVesting) :
    0 < option.vestingPeriod := by
  cases option with
  | noVesting => exact absurd rfl h
  | _ => decide

/-- A lock that starts at the block adds all of itself, or is refused. -/
theorem lockedTotal_addLock (limit block : Nat) (schedules : List Schedule) {lock period : Nat}
    (hlock : lock ≠ 0) (hperiod : 0 < period) :
    lockedTotal block (addSchedule limit block schedules (lock, lock / period, block)) =
      lockedTotal block schedules +
        if period ≤ lock ∧ schedules.length < limit then lock else 0 := by
  have hdiv : lock / period = 0 ↔ lock < period := Nat.div_eq_zero_iff_lt hperiod
  by_cases haccepted : period ≤ lock ∧ schedules.length < limit
  · have hvalid : ValidSchedule (lock, lock / period, block) :=
      ⟨hlock, hdiv.not.mpr (Nat.not_lt_of_le haccepted.1)⟩
    rw [if_pos haccepted, lockedTotal_addSchedule le_rfl hvalid haccepted.2, lockedAt_start]
  -- otherwise the vesting pallet refuses it, and nothing is locked
  · have hrefused : lock = 0 ∨ lock / period = 0 ∨ limit ≤ schedules.length := by
      rw [hdiv]
      omega
    rw [if_neg haccepted, addSchedule, if_pos hrefused, Nat.add_zero]

omit [DecidableEq A] in
/-- What the last step of `process_account` leaves locked. -/
theorem lockedTotal_lockHeld (h : Holding) (hoption : info.option ≠ .noVesting) :
    lockedTotal T.enactmentBlock (lockHeld T T.enactmentBlock info h).schedules =
      let missing := (info.option.principalLock.of info.principal + rewardAmount info) %
        balanceLimit - min h.free (lockedTotal T.enactmentBlock h.schedules)
      lockedTotal T.enactmentBlock h.schedules +
        if info.option.vestingPeriod ≤ missing ∧
            h.schedules.length < T.claims.vestingSchedule.maxSchedules then missing
        else 0 := by
  have hperiod := vestingPeriod_pos hoption
  have hlock : rewardLock info (h.vestingBalance T.enactmentBlock) =
      (info.option.principalLock.of info.principal + rewardAmount info) % balanceLimit -
        min h.free (lockedTotal T.enactmentBlock h.schedules) := by
    rw [← Holding.getD_vestingBalance]
    unfold rewardLock
    cases h.vestingBalance T.enactmentBlock <;> rfl
  unfold lockHeld
  rw [hlock]
  dsimp only
  generalize (info.option.principalLock.of info.principal + rewardAmount info) % balanceLimit -
    min h.free (lockedTotal T.enactmentBlock h.schedules) = missing
  cases hcase : info.option with
  | noVesting => exact absurd hcase hoption
  | _ =>
    rw [hcase] at hperiod
    dsimp only
    by_cases hzero : missing = 0
    · rw [if_pos hzero, if_neg (by omega), Nat.add_zero]
    · rw [if_neg hzero]
      exact lockedTotal_addLock _ _ h.schedules hzero hperiod

/-- What is locked after `process_account` at the enactment block. -/
theorem lockedAtEnactment_processAccount (hT : T.PaysFrom pool)
    (hoption : info.option ≠ .noVesting) :
    lockedAtEnactment T (processAccount T a info { s with block := T.enactmentBlock }) a =
      lockedAtEnactment T s a +
        if info.option.vestingPeriod ≤ missingLock T s a info ∧
            (schedules T s a).length < T.claims.vestingSchedule.maxSchedules then
          missingLock T s a info
        else 0 := by
  have hkept : (holding T.claims.currency T.claims.vestingSchedule (settled T s a info)
      a).schedules = schedules T s a := by
    show T.claims.vestingSchedule.schedules (T.reward _ _) a = _
    rw [hT.schedules, hT.vesting.leaves_schedules.deposit]
    rfl
  have hheld := congrFun (holding_lockReward hT T.enactmentBlock a info (settled T s a info)) a
  rw [Function.update_self] at hheld
  have hafter : lockedAtEnactment T
      (processAccount T a info { s with block := T.enactmentBlock }) a =
        lockedTotal T.enactmentBlock (holding T.claims.currency T.claims.vestingSchedule
          (lockReward T T.enactmentBlock a info (settled T s a info)) a).schedules := by
    rw [processAccount_eq]
    rfl
  rw [hafter, hheld, lockedTotal_lockHeld _ hoption, hkept]
  rfl

theorem paidReward_eq (hT : T.PaysFrom pool) (s : State A σ) (a : A) (info : UserInfo) :
    paidReward T s a info = acceptedReward T s a info :=
  hT.currency.deposit_imbalance_accepted s.ledger a (rewardAmount info)

/-- The reward handler takes nothing of an account but the pool. -/
theorem freeBalance_settled (hT : T.PaysFrom pool) (s : State A σ) (a : A) (info : UserInfo) :
    T.claims.currency.freeBalance (settled T s a info) a = freeWithReward T pool s a info := by
  unfold freeWithReward
  split
  case isTrue => rfl
  case isFalse hne =>
    have hpaid := (hT.currency.deposit_accepted s.ledger a (rewardAmount info)).self
    show (T.claims.currency.account (T.reward _ _) a).free = _
    rw [hT.accounts _ _ a hne, hpaid]
    rfl

/-- The missing lock, on the state before. -/
theorem missingLock_eq (hT : T.PaysFrom pool) (s : State A σ) (a : A) (info : UserInfo) :
    missingLock T s a info =
      info.option.principalLock.of info.principal + rewardAmount info -
        wrappedOff (info.option.principalLock.of info.principal + rewardAmount info) -
          countedLock T pool s a info := by
  have hmod := Nat.mod_le (info.option.principalLock.of info.principal + rewardAmount info)
    balanceLimit
  unfold missingLock countedLock wrappedOff
  rw [freeBalance_settled hT]
  omega

omit [DecidableEq A] in
theorem acceptedReward_le (T : Config A σ) (s : State A σ) (a : A) (info : UserInfo) :
    acceptedReward T s a info ≤ rewardAmount info := by
  unfold acceptedReward Currency.accepted
  split <;> omega

/-- For every account with an option that vests, every schedules it has and every amounts:
`process_account` at the enactment block leaves the promised lock locked exactly when it is
locked already, or there is room for one more schedule and what is promised exceeds the locks
that are counted by one unit for each block of the vesting period. -/
theorem locked_as_promised_iff (hT : T.PaysFrom pool) (s : State A σ) (a : A) (info : UserInfo)
    (hoption : info.option ≠ .noVesting) :
    promisedLock T s a info ≤
        lockedAtEnactment T (processAccount T a info { s with block := T.enactmentBlock }) a ↔
      KeepsPromise T pool s a info := by
  have hperiod := vestingPeriod_pos hoption
  have haccepted := acceptedReward_le T s a info
  have hcounted : countedLock T pool s a info ≤ lockedAtEnactment T s a := Nat.min_le_right _ _
  rw [lockedAtEnactment_processAccount hT hoption, missingLock_eq hT]
  unfold promisedLock KeepsPromise
  rw [paidReward_eq hT]
  dsimp only
  -- both sides are linear in the amounts, once it is known whether the sum wraps
  by_cases hfits : info.option.principalLock.of info.principal + rewardAmount info < balanceLimit
  · rw [wrappedOff_of_lt hfits]
    split <;> omega
  · split <;> omega

/-- A mock state in which account 5 has the schedules. -/
def mockVested (schedules : List Schedule) : State Nat (Economics.State (VestedLedger Nat)) :=
  { mockState 500 5 with
    ledger :=
      { (mockState 500 5).ledger with
        ledger := { (mockState 500 5).ledger.ledger with schedules := .ofList [(5, schedules)] } } }

theorem mockEnactment_paysFrom : mockEnactment.PaysFrom 0 :=
  onEconomics_paysFrom ((Ledger.currency_lawful (by decide)).along VestedLedger.ledgerPart)
    (VestedLedger.vesting_lawful 28 10) 100

/-- With a schedule that locks a part of it, the rest of the promised lock is added. -/
theorem locked_as_promised_mock :
    promisedLock mockEnactment (mockVested [(300, 1, 100)]) 5
        { principal := 5000000, reward := 2000000, option := .vesting3Month } ≤
      lockedAtEnactment mockEnactment
        (processAccount mockEnactment 5
          { principal := 5000000, reward := 2000000, option := .vesting3Month }
          { mockVested [(300, 1, 100)] with block := mockEnactment.enactmentBlock }) 5 :=
  (locked_as_promised_iff mockEnactment_paysFrom (mockVested [(300, 1, 100)]) 5 _
    (by decide)).mpr (.inr ⟨by decide, by decide, .inl (by decide)⟩)

/-- A principal of 50 with a reward of 10 unlocks nothing per block over nine months, and
nothing is locked; nor is anything of large amounts of an account with as many schedules as
it may have. -/
theorem promised_lock_is_dropped :
    (promisedLock mockEnactment (mockVested []) 5
        { principal := 50, reward := 10, option := .vesting9Month } = 62 ∧
      lockedAtEnactment mockEnactment
        (processAccount mockEnactment 5
          { principal := 50, reward := 10, option := .vesting9Month } (mockVested [])) 5 = 0) ∧
    promisedLock mockEnactment (mockVested (List.replicate 28 (1, 1, 100))) 5
        { principal := 5000000, reward := 2000000, option := .vesting3Month } = 5400000 ∧
      lockedAtEnactment mockEnactment
        (processAccount mockEnactment 5
          { principal := 5000000, reward := 2000000, option := .vesting3Month }
          (mockVested (List.replicate 28 (1, 1, 100)))) 5 = 28 := by
  decide

end XXChain.Betanet
