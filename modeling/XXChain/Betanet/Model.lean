import XXChain.Claims.Model
import XXChain.Lib.Perbill

/-!
# XXChain — the betanet rewards pallet

`xx-betanet-rewards/src/lib.rs`: the rewards of the betanet's stakers. Up to the enactment
block an account that claims coins is listed with its reward and may select how it is to be
paid; at that block, if the program was approved, the rewards are paid, and those of addresses
that have not claimed yet are added to their claims.

The pallet is the reward handler of the claims pallet and writes to its storage, so its state
is the one of the claims pallet with its own storage as the handler's. A `drain` yields the
entries of a map in an order of their hashes; here it follows a given list.
-/

namespace XXChain.Betanet

/-! ## Reward options -/

inductive RewardOption where
  /-- No vesting, pays 2% rewards -/
  | noVesting
  /-- 1 month vest for 100% principal, pays 12% rewards -/
  | vesting1Month
  /-- 3 month vest for 90% principal, pays 45% rewards -/
  | vesting3Month
  /-- 6 month vest for 80% principal, pays 100% rewards (default) -/
  | vesting6Month
  /-- 9 month vest for 100% principal, pays 120% rewards -/
  | vesting9Month
  deriving DecidableEq, Repr

namespace RewardOption

instance : Inhabited RewardOption := ⟨vesting6Month⟩

/-- In blocks of 6 seconds. -/
def vestingPeriod : RewardOption → Nat
  | noVesting => 0
  | vesting1Month => 432000
  | vesting3Month => 1296000
  | vesting6Month => 2592000
  | vesting9Month => 3888000

/-- The part of the principal that is locked. -/
def principalLock : RewardOption → Perbill
  | noVesting => .zero
  | vesting1Month => .fromRational 1 1
  | vesting3Month => .fromRational 9 10
  | vesting6Month => .fromRational 8 10
  | vesting9Month => .fromRational 1 1

/-- The part of the rewards that is paid. -/
def rewards : RewardOption → Perbill
  | noVesting => .fromRational 2 100
  | vesting1Month => .fromRational 12 100
  | vesting3Month => .fromRational 45 100
  | vesting6Month => .fromRational 1 1
  | vesting9Month => .fromRational 1 1

/-- What is paid beyond that. -/
def extraRewards : RewardOption → Perbill
  | noVesting => .zero
  | vesting1Month => .zero
  | vesting3Month => .zero
  | vesting6Month => .zero
  | vesting9Month => .fromRational 2 10

end RewardOption

/-! ## Configuration and storage -/

structure UserInfo where
  principal : Nat
  reward : Nat
  option : RewardOption
  deriving DecidableEq, Repr

instance : Inhabited UserInfo where
  default := { principal := 0, reward := 0, option := default }

inductive Event (A : Type) where
  | optionSelected (who : A) (option : RewardOption)
  | programApproved
  | programEnacted
  deriving DecidableEq

inductive Error where
  | noRewards
  | enactmentBlockHasPassed
  deriving DecidableEq, Repr

/-- The storage of the pallet and its events. -/
structure Storage (A : Type) where
  accounts : StorageMap A UserInfo
  approved : Bool
  events : List (Event A)

abbrev State (A σ : Type) : Type := Claims.State A σ (Storage A)

/-- `reward` handles the positive imbalances of the rewards. -/
structure Config (A σ : Type) where
  claims : Claims.Config A σ (Storage A)
  enactmentBlock : Nat
  reward : σ → Nat → σ

abbrev DispatchResult : Type → Type := Except (DispatchError Error)

variable {A σ : Type} [DecidableEq A]

def setAccounts (accounts : StorageMap A UserInfo) (s : State A σ) : State A σ :=
  { s with handler := { s.handler with accounts } }

def depositEvent (event : Event A) (s : State A σ) : State A σ :=
  { s with handler := { s.handler with events := s.handler.events ++ [event] } }

/-! ## The reward handler -/

/-- Lists an account that claimed. -/
def addClaimed (enactmentBlock block : Nat) (s : Storage A) (dest : A) (claim reward : Nat) :
    Storage A :=
  if enactmentBlock ≤ block then s
  else
    let info : UserInfo := { principal := claim, reward := reward, option := default }
    { s with accounts := s.accounts.insert dest info }

/-- The claims pallet with this one as its reward handler. -/
def Config.wired (T : Config A σ) : Claims.Config A σ (Storage A) :=
  { T.claims with addClaimed := addClaimed T.enactmentBlock }

/-! ## Dispatchables -/

def selectOption (T : Config A σ) (origin : Origin A) (option : RewardOption)
    (s : State A σ) : DispatchResult (State A σ) := do
  let who ← ensureSigned origin
  ensure (s.handler.accounts.lookup who).isSome (.module .noRewards)
  ensure (decide (s.block < T.enactmentBlock)) (.module .enactmentBlockHasPassed)
  let info := (s.handler.accounts.lookup who).getD default
  .ok (depositEvent (.optionSelected who option)
    (setAccounts (s.handler.accounts.insert who { info with option }) s))

def approve (T : Config A σ) (origin : Origin A) (s : State A σ) :
    DispatchResult (State A σ) := do
  ensureRoot origin
  ensure (decide (s.block < T.enactmentBlock)) (.module .enactmentBlockHasPassed)
  .ok (depositEvent .programApproved { s with handler := { s.handler with approved := true } })

/-! ## Enacting the program -/

/-- The reward that the option of the account pays. -/
def rewardAmount (info : UserInfo) : Nat :=
  let extra := info.option.extraRewards
  if extra.isZero then info.option.rewards.of info.reward
  else (info.option.rewards.of info.reward + extra.of info.reward) % balanceLimit

/-- Pays the reward of one account, and locks it with the principal as its option says. -/
def processAccount (T : Config A σ) (account : A) (info : UserInfo) (s : State A σ) :
    State A σ :=
  let rewardAmount := rewardAmount info
  let (ledger, imbalance) := T.claims.currency.depositCreating s.ledger account rewardAmount
  let ledger := T.reward ledger imbalance
  let ledger :=
    match info.option with
    | .noVesting => ledger
    | _ =>
      let desiredLock := (info.option.principalLock.of info.principal + rewardAmount) %
        balanceLimit
      let currentLocked := T.claims.vestingSchedule.vestingBalance s.block ledger account
      let lock :=
        match currentLocked with
        | some l => desiredLock - l
        | none => desiredLock
      if lock = 0 then ledger
      else
        let perBlock := lock / info.option.vestingPeriod
        -- what `add_vesting_schedule` returns is not looked at
        T.claims.vestingSchedule.tryAdd s.block ledger account (lock, perBlock, T.enactmentBlock)
  { s with ledger }

/-- What the desired lock leaves to be locked besides the schedules of the claim: for each,
how much it locks at the enactment block is taken from it. -/
def computeClaimsVestingLock (T : Config A σ) (who : Claims.EthereumAddress) (desired : Nat)
    (s : State A σ) : Nat :=
  match s.vesting.lookup who with
  | some schedules =>
    schedules.foldl
      (fun lock vs =>
        let blocksAsBalance := T.enactmentBlock - vs.2.2
        lock - (vs.1 - vs.2.1 * blocksAsBalance % balanceLimit))
      desired
  | none => desired

/-- Adds the reward of an address that has not claimed yet to its claim. -/
def processLeftoverClaim (T : Config A σ) (address : Claims.EthereumAddress) (reward : Nat)
    (s : State A σ) : State A σ :=
  -- a pair of imbalances
  let (ledger, debit) := T.claims.currency.burn s.ledger reward
  let (ledger, credit) := T.claims.currency.issue ledger reward
  let ledger := T.reward ledger debit
  let claims :=
    match s.claims.lookup address with
    | some claim => s.claims.insert address ((claim + reward) % balanceLimit)
    | none => s.claims
  let total := (s.total + reward) % balanceLimit
  let ledger := T.claims.currency.dropNegative ledger credit
  -- the default option is applied
  let option : RewardOption := default
  let principal := (claims.lookup address).getD 0
  let desiredLock := (option.principalLock.of principal + reward) % balanceLimit
  let lock := computeClaimsVestingLock T address desiredLock s
  let vesting :=
    if lock = 0 then s.vesting
    else
      let perBlock := lock / option.vestingPeriod
      s.vesting.insert address
        ((s.vesting.lookup address).getD [] ++ [(lock, perBlock, T.enactmentBlock)])
  { s with ledger, claims, total, vesting }

/-- Drains `Accounts` in the order of the list. -/
def processRewards (T : Config A σ) (accounts : List (A × UserInfo)) (s : State A σ) :
    State A σ :=
  accounts.foldl
    (fun s entry =>
      processAccount T entry.1 entry.2 (setAccounts (s.handler.accounts.erase entry.1) s))
    s

/-- Drains the `Rewards` of the claims pallet in the order of the list. -/
def processClaims (T : Config A σ) (rewards : List (Claims.EthereumAddress × Nat))
    (s : State A σ) : State A σ :=
  rewards.foldl
    (fun s entry =>
      processLeftoverClaim T entry.1 entry.2 { s with rewards := s.rewards.erase entry.1 })
    s

def enactProgram (T : Config A σ) (accounts : List (A × UserInfo))
    (rewards : List (Claims.EthereumAddress × Nat)) (s : State A σ) : State A σ :=
  processClaims T rewards (processRewards T accounts s)

def onInitialize (T : Config A σ) (n : Nat) (accounts : List (A × UserInfo))
    (rewards : List (Claims.EthereumAddress × Nat)) (s : State A σ) : State A σ :=
  if n = T.enactmentBlock then
    if s.handler.approved then depositEvent .programEnacted (enactProgram T accounts rewards s)
    else s
  else s

/-- What the payment of every account and of every claim keeps, the hook keeps. -/
theorem onInitialize_keeps {T : Config A σ} {n : Nat} {accounts : List (A × UserInfo)}
    {rewards : List (Claims.EthereumAddress × Nat)} {I : State A σ → Prop}
    (haccount : ∀ s account info, I s →
      I (processAccount T account info (setAccounts (s.handler.accounts.erase account) s)))
    (hclaim : ∀ s, ∀ entry ∈ rewards, I s →
      I (processLeftoverClaim T entry.1 entry.2 { s with rewards := s.rewards.erase entry.1 }))
    (hevent : ∀ s, I s → I (depositEvent .programEnacted s)) {s : State A σ} (hs : I s) :
    I (onInitialize T n accounts rewards s) := by
  have hpaid : I (processRewards T accounts s) :=
    List.foldlRecOn (motive := I) accounts _ hs fun s hs entry _ =>
      haccount s entry.1 entry.2 hs
  have htopped : I (processClaims T rewards (processRewards T accounts s)) :=
    List.foldlRecOn (motive := I) rewards _ hpaid fun s hs entry hentry =>
      hclaim s entry hentry hs
  unfold onInitialize
  split
  · split
    · exact hevent _ htopped
    -- not approved, so nothing is enacted
    · exact hs
  · exact hs

/-! ## Genesis -/

def genesisBuild (accounts : List (A × UserInfo)) : Storage A where
  accounts := .ofList accounts
  approved := false
  events := []

/-! ## A mock runtime

Over the mock runtime of the claims pallet, with the enactment block `100` and rewards that are
minted. -/

def mockRuntime : Config Nat (VestedLedger Nat) where
  claims := Claims.mockConfig (VestedLedger.currency 1) (VestedLedger.vesting 28) (addClaimed 100)
  enactmentBlock := 100
  reward ledger amount := (VestedLedger.currency 1).dropPositive ledger amount

end XXChain.Betanet
