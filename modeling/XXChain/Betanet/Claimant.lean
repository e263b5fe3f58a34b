import XXChain.Betanet.Enactment
import XXChain.Betanet.Lifecycle
import XXChain.Lib.Holding

/-!
# XXChain — the program for one claimant

The reward of an address reaches its owner on one of two paths. An account that claims before
the enactment block is paid its reward then (`process_account`); a claim that is left over
grows by the reward, and by a schedule, before it is claimed (`process_leftover_claim`).
Both are read here as functions of what one account holds (`Holding`) and of what is recorded of
one claim (`Entry`), which nothing else in the program touches.

* **`held_enact`** and **`entry_enact`** — the enactment, for one account and for one claim;
* **`held_paidBy`** — the payment of a claim.
-/

namespace XXChain.Betanet

open StorageMap Claims

variable {A σ : Type} [DecidableEq A] {T : Config A σ} {pool dest a b : A} {s s' : State A σ}
  {address : EthereumAddress} {info : UserInfo} {reward : Nat}

/-- The currency and the vesting pallet behave as documented, and paying rewards touches no
account but the pool, and no schedule. -/
structure Config.PaysFrom (T : Config A σ) (pool : A) : Prop where
  currency : T.claims.currency.Lawful
  vesting : T.claims.vestingSchedule.Lawful T.claims.currency
  accounts : ∀ ledger amount a, a ≠ pool →
    T.claims.currency.account (T.reward ledger amount) a = T.claims.currency.account ledger a
  schedules : ∀ ledger amount, T.claims.vestingSchedule.schedules (T.reward ledger amount) =
    T.claims.vestingSchedule.schedules ledger

theorem onEconomics_paysFrom {E : Economics.Config A σ} {claims : Claims.Config A σ (Storage A)}
    (hE : E.currency.Lawful) (hvesting : claims.vestingSchedule.Lawful E.currency)
    (enactmentBlock : Nat) : (onEconomics E claims enactmentBlock).PaysFrom E.rewardsAccountId where
  currency := hE.along Economics.ledgerPart
  vesting := hvesting.along Economics.ledgerPart
  accounts := fun ledger amount _ hne =>
    Economics.onUnbalanced_account_of_ne hE amount ledger hne
  schedules := fun ledger amount =>
    Economics.onUnbalanced_leaves hvesting.leaves_schedules amount ledger

/-- What an account holds. -/
def held (T : Config A σ) (s : State A σ) (a : A) : Holding :=
  holding T.claims.currency T.claims.vestingSchedule s.ledger a

/-! ## The reward of an account -/

/-- `lockReward` on what the account holds. -/
def lockHeld (T : Config A σ) (block : Nat) (info : UserInfo) (h : Holding) : Holding :=
  match info.option with
  | .noVesting => h
  | _ =>
    let lock := rewardLock info (h.vestingBalance block)
    if lock = 0 then h
    else h.vest T.claims.vestingSchedule.maxSchedules block
      [(lock, lock / info.option.vestingPeriod, T.enactmentBlock)]

/-- `process_account` on what the account holds. -/
def rewardHeld (T : Config A σ) (block : Nat) (info : UserInfo) (h : Holding) : Holding :=
  lockHeld T block info (h.deposit T.claims.currency.existentialDeposit (rewardAmount info))

theorem holding_lockReward (hT : T.PaysFrom pool) (block : Nat) (a : A) (info : UserInfo)
    (ledger : σ) :
    holding T.claims.currency T.claims.vestingSchedule (lockReward T block a info ledger) =
      Function.update (holding T.claims.currency T.claims.vestingSchedule ledger) a
        (lockHeld T block info (holding T.claims.currency T.claims.vestingSchedule ledger a)) := by
  unfold lockReward lockHeld
  rw [vestingBalance_holding hT.vesting]
  cases info.option with
  | noVesting => exact (Function.update_eq_self _ _).symm
  | _ =>
    dsimp only
    generalize rewardLock info _ = lock
    by_cases hlock : lock = 0
    · rw [if_pos hlock, if_pos hlock]
      exact (Function.update_eq_self a _).symm
    · rw [if_neg hlock, if_neg hlock]
      exact holding_tryAdd hT.vesting block ledger a _

theorem holding_reward (hT : T.PaysFrom pool) (hne : a ≠ pool) (ledger : σ) (amount : Nat) :
    holding T.claims.currency T.claims.vestingSchedule (T.reward ledger amount) a =
      holding T.claims.currency T.claims.vestingSchedule ledger a :=
  holding_congr (hT.accounts ledger amount a hne) (congrFun (hT.schedules ledger amount) a)

theorem held_processAccount (hT : T.PaysFrom pool) (hne : a ≠ pool) (info : UserInfo) :
    held T (processAccount T a info s) a = rewardHeld T s.block info (held T s a) := by
  rw [processAccount_eq]
  show holding _ _ (lockReward _ _ _ _ _) a = _
  rw [holding_lockReward hT, Function.update_self, holding_reward hT hne,
    holding_deposit hT.currency hT.vesting, Function.update_self]
  rfl

theorem held_processAccount_of_ne (hT : T.PaysFrom pool) (hne : a ≠ pool) (hb : a ≠ b) :
    held T (processAccount T b info s) a = held T s a := by
  rw [processAccount_eq]
  show holding _ _ (lockReward _ _ _ _ _) a = _
  rw [holding_lockReward hT, Function.update_of_ne hb, holding_reward hT hne,
    holding_deposit hT.currency hT.vesting, Function.update_of_ne hb]
  rfl

/-- In any order of the drain, an account that is listed is paid its reward once, and nothing
else is done to it. -/
theorem held_processRewards (hT : T.PaysFrom pool) (hne : a ≠ pool)
    {order : List (A × UserInfo)} (hdrains : Drains order s.handler.accounts) :
    held T (processRewards T order s) a =
      (s.handler.accounts.lookup a).elim (held T s a) fun info =>
        rewardHeld T s.block info (held T s a) := by
  let step := fun (s : State A σ) (entry : A × UserInfo) =>
    processAccount T entry.1 entry.2 (setAccounts (s.handler.accounts.erase entry.1) s)
  have hself : ∀ s info, held T (step s (a, info)) a = rewardHeld T s.block info (held T s a) :=
    fun s info => held_processAccount hT hne info
  have hothers : ∀ s b info, b ≠ a → held T (step s (b, info)) a = held T s a :=
    fun s b info hb => held_processAccount_of_ne hT hne (Ne.symm hb)
  -- the block is read with the holding, and stays
  have hrun := hdrains.foldl_view (f := step) (fun s => (s.block, held T s a))
    (fun info view => (view.1, rewardHeld T view.1 info view.2))
    (fun s info => congrArg (s.block, ·) (hself s info))
    (fun s b info hb => congrArg (s.block, ·) (hothers s b info hb)) s
  have hheld := congrArg Prod.snd hrun
  cases hlookup : s.handler.accounts.lookup a with
  | none =>
    rw [hlookup] at hheld
    exact hheld
  | some info =>
    rw [hlookup] at hheld
    exact hheld

/-! ## A leftover claim -/

theorem held_processLeftoverClaim (hT : T.PaysFrom pool) (hne : a ≠ pool)
    (address : EthereumAddress) (reward : Nat) :
    held T (processLeftoverClaim T address reward s) a = held T s a := by
  have hc := hT.currency
  have hleaves := hT.vesting.leaves_schedules
  unfold processLeftoverClaim
  apply holding_congr
  · show T.claims.currency.account (T.claims.currency.dropNegative _ _) a = _
    rw [hc.dropNegative_account, hT.accounts _ _ a hne, hc.issue_account, hc.burn_account]
  · show T.claims.vestingSchedule.schedules (T.claims.currency.dropNegative _ _) a = _
    rw [hleaves.dropNegative, hT.schedules, hleaves.issue, hleaves.burn]

theorem held_processClaims (hT : T.PaysFrom pool) (hne : a ≠ pool)
    (order : List (EthereumAddress × Nat)) :
    held T (processClaims T order s) a = held T s a := by
  induction order generalizing s with
  | nil => rfl
  | cons entry order ih =>
    show held T (processClaims T order (processLeftoverClaim T entry.1 entry.2 _)) a = _
    rw [ih, held_processLeftoverClaim hT hne]
    rfl

/-- What is recorded of a claim. -/
structure Entry where
  claim : Option Nat
  vesting : Option (List Schedule)

def entry (s : State A σ) (address : EthereumAddress) : Entry where
  claim := s.claims.lookup address
  vesting := s.vesting.lookup address

/-- What `compute_claims_vesting_lock` takes the schedule to lock at the enactment block. The
product wraps. -/
def countedAt (enactmentBlock : Nat) (v : Schedule) : Nat :=
  v.1 - v.2.1 * (enactmentBlock - v.2.2) % balanceLimit

def countedTotal (enactmentBlock : Nat) (schedules : List Schedule) : Nat :=
  (schedules.map (countedAt enactmentBlock)).sum

/-- What the default option locks of a principal with a reward. -/
def desiredLock (principal reward : Nat) : Nat :=
  ((default : RewardOption).principalLock.of principal + reward) % balanceLimit

/-- `process_leftover_claim` on what is recorded of the claim. -/
def topUp (enactmentBlock reward : Nat) (e : Entry) : Entry :=
  let claim := e.claim.map fun claim => (claim + reward) % balanceLimit
  let lock := desiredLock (claim.getD 0) reward -
    countedTotal enactmentBlock (e.vesting.getD [])
  { claim := claim
    vesting := if lock = 0 then e.vesting else some (e.vesting.getD [] ++
      [(lock, lock / (default : RewardOption).vestingPeriod, enactmentBlock)]) }

omit [DecidableEq A] in
theorem computeClaimsVestingLock_eq (T : Config A σ) (address : EthereumAddress) (desired : Nat)
    (s : State A σ) :
    computeClaimsVestingLock T address desired s =
      desired - countedTotal T.enactmentBlock ((s.vesting.lookup address).getD []) := by
  have hfold : ∀ (schedules : List Schedule) (desired : Nat),
      schedules.foldl (fun lock v =>
        lock - (v.1 - v.2.1 * (T.enactmentBlock - v.2.2) % balanceLimit)) desired =
        desired - countedTotal T.enactmentBlock schedules := by
    intro schedules
    induction schedules with
    | nil => exact fun desired => rfl
    | cons v schedules ih =>
      intro desired
      rw [List.foldl_cons, ih, Nat.sub_sub]
      rfl
  unfold computeClaimsVestingLock
  cases s.vesting.lookup address with
  | none => rfl
  | some schedules => exact hfold schedules desired

omit [DecidableEq A] in
theorem entry_processLeftoverClaim (address : EthereumAddress) (reward : Nat) (s : State A σ) :
    entry (processLeftoverClaim T address reward s) address =
      topUp T.enactmentBlock reward (entry s address) := by
  have hclaim : (processLeftoverClaim T address reward s).claims.lookup address =
      (s.claims.lookup address).map fun claim => (claim + reward) % balanceLimit := by
    unfold processLeftoverClaim
    cases hlookup : s.claims.lookup address with
    | none => exact hlookup
    | some claim => exact Finmap.lookup_insert _
  have hlock : leftoverLock T address reward s =
      desiredLock (((s.claims.lookup address).map fun claim =>
        (claim + reward) % balanceLimit).getD 0) reward -
        countedTotal T.enactmentBlock ((s.vesting.lookup address).getD []) :=
    computeClaimsVestingLock_eq T address _ s
  unfold entry topUp
  rw [hclaim, processLeftoverClaim_vesting, hlock]
  dsimp only
  congr 1
  split
  · rfl
  · exact Finmap.lookup_insert _

omit [DecidableEq A] in
theorem entry_processLeftoverClaim_of_ne {other : EthereumAddress} (hne : other ≠ address)
    (reward : Nat) (s : State A σ) :
    entry (processLeftoverClaim T other reward s) address = entry s address := by
  have hclaim : (processLeftoverClaim T other reward s).claims.lookup address =
      s.claims.lookup address := by
    unfold processLeftoverClaim
    cases s.claims.lookup other with
    | none => rfl
    | some claim => exact Finmap.lookup_insert_of_ne _ (Ne.symm hne)
  unfold entry
  rw [hclaim, processLeftoverClaim_vesting]
  dsimp only
  split
  · rfl
  · rw [Finmap.lookup_insert_of_ne _ (Ne.symm hne)]

omit [DecidableEq A] in
/-- In any order of the drain, a claim with a leftover reward is topped up once, and no other
claim is touched by that. -/
theorem entry_processClaims {order : List (EthereumAddress × Nat)}
    (hdrains : Drains order s.rewards) (address : EthereumAddress) :
    entry (processClaims T order s) address =
      (s.rewards.lookup address).elim (entry s address) fun reward =>
        topUp T.enactmentBlock reward (entry s address) := by
  let step := fun (s : State A σ) (e : EthereumAddress × Nat) =>
    processLeftoverClaim T e.1 e.2 { s with rewards := s.rewards.erase e.1 }
  have hself : ∀ s reward, entry (step s (address, reward)) address =
      topUp T.enactmentBlock reward (entry s address) :=
    fun s reward => entry_processLeftoverClaim address reward _
  have hothers : ∀ s other reward, other ≠ address →
      entry (step s (other, reward)) address = entry s address :=
    fun s other reward hne => entry_processLeftoverClaim_of_ne hne reward _
  exact hdrains.foldl_view (f := step) (fun s => entry s address) _ hself hothers s

omit [DecidableEq A] in
theorem total_processClaims {order : List (EthereumAddress × Nat)}
    (hdrains : Drains order s.rewards) (hfits : s.total + sumBy id s.rewards < balanceLimit) :
    (processClaims T order s).total = s.total + sumBy id s.rewards := by
  induction order generalizing s with
  | nil =>
    rw [hdrains.eq_empty]
    rfl
  | cons e order ih =>
    obtain ⟨k, reward⟩ := e
    obtain ⟨hk, hrest⟩ := hdrains.cons
    have hsum := sumBy_erase id s.rewards k
    rw [valueAt_of_some hk, id_eq] at hsum
    have hfirst : (processLeftoverClaim T k reward
        { s with rewards := s.rewards.erase k }).total = s.total + reward :=
      Nat.mod_eq_of_lt (show s.total + reward < balanceLimit by omega)
    have hnext := ih (s := processLeftoverClaim T k reward
      { s with rewards := s.rewards.erase k }) hrest (by
        rw [hfirst]
        show s.total + reward + sumBy id (s.rewards.erase k) < balanceLimit
        omega)
    show (processClaims T order (processLeftoverClaim T k reward _)).total = _
    rw [hnext, hfirst]
    show s.total + reward + sumBy id (s.rewards.erase k) = _
    omega

/-! ## The enactment -/

/-- The enactment block is initialised. -/
abbrev enact (T : Config A σ) (accounts : List (A × UserInfo))
    (rewards : List (EthereumAddress × Nat)) : Step A σ :=
  .onInitialize T.enactmentBlock accounts rewards

section Enact

variable {accounts : List (A × UserInfo)} {rewards : List (EthereumAddress × Nat)}

theorem advance_enact (happroved : s.handler.approved = true) :
    advance T s (enact T accounts rewards) = depositEvent .programEnacted
      (enactProgram T accounts rewards { s with block := T.enactmentBlock }) := by
  show onInitialize T T.enactmentBlock accounts rewards _ = _
  unfold onInitialize
  rw [if_pos rfl, if_pos happroved]

theorem held_enact (hT : T.PaysFrom pool) (hne : a ≠ pool) (happroved : s.handler.approved = true)
    (hproper : Proper s (enact T accounts rewards)) :
    held T (advance T s (enact T accounts rewards)) a =
      (s.handler.accounts.lookup a).elim (held T s a) fun info =>
        rewardHeld T T.enactmentBlock info (held T s a) := by
  obtain ⟨_, haccounts, _⟩ := hproper
  rw [advance_enact happroved]
  show held T (processClaims T rewards (processRewards T accounts _)) a = _
  rw [held_processClaims hT hne]
  exact held_processRewards (s := { s with block := T.enactmentBlock }) hT hne haccounts

/-- Paying the accounts writes the ledger and empties their map, and then come the claims. -/
theorem enact_claims (happroved : s.handler.approved = true)
    (hproper : Proper s (enact T accounts rewards)) :
    ∃ s₁ : State A σ, advance T s (enact T accounts rewards) =
        depositEvent .programEnacted (processClaims T rewards s₁) ∧
      Drains rewards s₁.rewards ∧ s₁ = { s with
        block := T.enactmentBlock, ledger := s₁.ledger,
        handler := { s.handler with accounts := ∅ } } := by
  obtain ⟨ledger, hfirst⟩ := processRewards_frame (T := T)
    (s := { s with block := T.enactmentBlock }) hproper.2.1
  rw [advance_enact happroved, enactProgram, hfirst]
  exact ⟨_, rfl, hproper.2.2, rfl⟩

theorem entry_enact (happroved : s.handler.approved = true)
    (hproper : Proper s (enact T accounts rewards)) (address : EthereumAddress) :
    entry (advance T s (enact T accounts rewards)) address =
      (s.rewards.lookup address).elim (entry s address) fun reward =>
        topUp T.enactmentBlock reward (entry s address) := by
  obtain ⟨s₁, hadvance, hrewards, hs₁⟩ := enact_claims happroved hproper
  have hclaims := entry_processClaims (T := T) hrewards address
  rw [hadvance]
  show entry (processClaims T rewards s₁) address = _
  rw [hclaims, hs₁]
  rfl

theorem total_enact (happroved : s.handler.approved = true)
    (hproper : Proper s (enact T accounts rewards))
    (hfits : s.total + sumBy id s.rewards < balanceLimit) :
    (advance T s (enact T accounts rewards)).total = s.total + sumBy id s.rewards := by
  obtain ⟨s₁, hadvance, hrewards, hs₁⟩ := enact_claims happroved hproper
  have htotal := total_processClaims (T := T) hrewards (by
    rw [hs₁]
    exact hfits)
  rw [hadvance]
  show (processClaims T rewards s₁).total = _
  rw [htotal, hs₁]

/-- The enactment moves to its block, and leaves the statements and the preclaims alone. -/
theorem frame_enact (happroved : s.handler.approved = true)
    (hproper : Proper s (enact T accounts rewards)) :
    (advance T s (enact T accounts rewards)).block = T.enactmentBlock ∧
      (advance T s (enact T accounts rewards)).signing = s.signing ∧
      (advance T s (enact T accounts rewards)).preclaims = s.preclaims := by
  obtain ⟨s₁, hadvance, hrewards, hs₁⟩ := enact_claims happroved hproper
  obtain ⟨_, _, _, _, hframe⟩ := processClaims_frame (T := T) hrewards
  rw [hadvance, hframe, hs₁]
  exact ⟨rfl, rfl, rfl⟩

end Enact

/-! ## The claim -/

/-- `process_claim` on what the account holds. -/
def claimHeld (T : Config A σ) (block amount : Nat) (schedules : List Schedule) (h : Holding) :
    Holding :=
  (h.deposit T.claims.currency.existentialDeposit amount).vest
    T.claims.vestingSchedule.maxSchedules block schedules

theorem held_paidBy (hT : T.PaysFrom pool) {amount : Nat} (h : PaidBy T.wired s s' address dest)
    (hclaim : s.claims.lookup address = some amount) :
    held T s' dest =
      claimHeld T s.block amount ((s.vesting.lookup address).getD []) (held T s dest) := by
  obtain ⟨s₁, hs₁, hs'⟩ := h
  obtain ⟨v, hv, _, _, rfl⟩ := processClaim_eq_ok.mp hs₁
  rw [hclaim] at hv
  cases hv
  rw [hs']
  show holding _ _ (addSchedules T.wired _ _ _ _) dest = _
  have hvested := holding_foldl_tryAdd hT.vesting s.block
    (T.claims.currency.dropPositive (T.claims.currency.depositCreating s.ledger dest amount).1
      (T.claims.currency.depositCreating s.ledger dest amount).2) dest
    ((s.vesting.lookup address).getD [])
  rw [holding_dropPositive hT.currency hT.vesting,
    holding_deposit hT.currency hT.vesting, Function.update_self] at hvested
  exact (congrFun hvested dest).trans (Function.update_self _ _ _)

/-- A claim with a reward below the enactment block lists the account. -/
theorem accounts_paidBy {amount : Nat} (h : PaidBy T.wired s s' address dest)
    (hclaim : s.claims.lookup address = some amount)
    (hreward : s.rewards.lookup address = some reward) (hearly : s.block < T.enactmentBlock) :
    s'.handler = { s.handler with
      accounts := s.handler.accounts.insert dest
        { principal := amount, reward := reward, option := default } } ∧
      s'.block = s.block := by
  obtain ⟨s₁, hs₁, hs'⟩ := h
  obtain ⟨v, hv, _, _, rfl⟩ := processClaim_eq_ok.mp hs₁
  rw [hclaim] at hv
  cases hv
  have hlisted : (payment T.wired address dest amount s).handler =
      addClaimed T.enactmentBlock s.block s.handler dest amount reward :=
    payment_handler_some hreward
  rw [addClaimed, if_neg (by omega)] at hlisted
  rw [hs']
  exact ⟨hlisted, rfl⟩

end XXChain.Betanet
