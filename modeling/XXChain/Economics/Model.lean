import Mathlib.Data.List.Sort
import XXChain.Frame
import XXChain.Lib.Ledger
import XXChain.Lib.Perbill

/-!
# XXChain — the economics pallet

`xx-economics/src`: the rewards pool (`rewards.rs`), the inflation curve and the era payout
(`inflation.rs`), and the admin calls and genesis build (`lib.rs`).

The imbalances of the source are amounts here; where the source splits, settles or drops
one, the model names the operation of the currency. `era_payout` cannot return an error, so
whatever is checked in it (an `unwrap`, a subtraction, a sum of balances) is a `Panic`.
-/

namespace XXChain.Economics

/-! ## Configuration and storage -/

/-- The inflation curve's fixed parameters. -/
structure InflationFixedParams where
  minInflation : Perbill
  idealStake : Perbill
  falloff : Perbill
  deriving DecidableEq, Repr

instance : Inhabited InflationFixedParams where
  default :=
    { minInflation := Perbill.fromRational 1 40
      idealStake := Perbill.fromRational 1 2
      falloff := Perbill.fromRational 1 2 }

structure IdealInterestPoint where
  block : Nat
  interest : Perbill
  deriving DecidableEq, Repr

inductive Event where
  | rewardFromPool (amount : Nat)
  | rewardMinted (amount : Nat)
  | inflationParamsChanged
  | interestPointsChanged
  | idealLiquidityStakeChanged
  | liquidityRewardsBalanceChanged
  deriving DecidableEq, Repr

/-- The runtime around the pallet: the currency, the other pallets' totals, the handler of
the reward remainder and the inflation function of the staking library. -/
structure Config (A σ : Type) where
  currency : Currency A σ
  totalCustody : σ → Nat
  publicAccounts : σ → List A
  rewardsAccountId : A
  rewardRemainder : σ → Nat → σ
  eraDuration : Nat
  adminOrigin : Origin A → Bool
  computeInflation : Perbill → Perbill → Perbill → Perbill

/-- The storage of the pallet, the block number, the events and the state `ledger` of the
currency and the other pallets. -/
structure State (σ : Type) where
  block : Nat
  inflationParams : InflationFixedParams
  interestPoints : List IdealInterestPoint
  idealLiquidityStake : Nat
  liquidityRewards : Nat
  ledger : σ
  events : List Event

variable {A σ : Type}

def State.depositEvent (s : State σ) (event : Event) : State σ :=
  { s with events := s.events ++ [event] }

/-- The currency and the other pallets, as a part of the state. -/
def ledgerPart : Part (State σ) σ where
  get s := s.ledger
  put s ledger := { s with ledger }
  get_put _ _ := rfl
  put_get _ := rfl

/-- The pallet over a larger state of the currency and the other pallets. -/
def Config.along {ρ : Type} (T : Config A σ) (p : Part ρ σ) : Config A ρ :=
  { T with
    currency := T.currency.along p
    totalCustody := fun r => T.totalCustody (p.get r)
    publicAccounts := fun r => T.publicAccounts (p.get r)
    rewardRemainder := fun r amount => p.put r (T.rewardRemainder (p.get r) amount) }

/-! ## The rewards pool -/

/-- The balance of the rewards pool account. -/
def rewardsBalance (T : Config A σ) (s : State σ) : Nat :=
  T.currency.freeBalance s.ledger T.rewardsAccountId

/-- Withdraws from the pool, to settle the positive imbalance `amount`. The result is
ignored, and an imbalance that could not be settled is dropped with it. -/
def withdraw (T : Config A σ) (amount : Nat) (s : State σ) : State σ :=
  if amount = 0 then s
  else
    let ledger :=
      match T.currency.settle s.ledger T.rewardsAccountId amount with
      | some ledger => ledger
      | none => T.currency.dropPositive s.ledger amount
    { s with ledger }.depositEvent (.rewardFromPool amount)

def mintEvent (amount : Nat) (s : State σ) : State σ :=
  if amount = 0 then s else s.depositEvent (.rewardMinted amount)

/-- `OnUnbalanced` for positive imbalances: the pool pays what it can, and the rest is
minted as its imbalance is dropped. -/
def onNonzeroUnbalanced (T : Config A σ) (amount : Nat) (s : State σ) : State σ :=
  let balance := rewardsBalance T s
  let fromPool := min amount balance
  let mint := amount - fromPool
  let s := withdraw T fromPool s
  let s := mintEvent mint s
  { s with ledger := T.currency.dropPositive s.ledger mint }

def onUnbalanced (T : Config A σ) (amount : Nat) (s : State σ) : State σ :=
  if amount = 0 then s else onNonzeroUnbalanced T amount s

/-- `RewardRemainderAdapter`, for negative imbalances: what the pool can pay is burned and
withdrawn from it, and the imbalance goes on to the remainder handler. -/
def remainderOnNonzeroUnbalanced (T : Config A σ) (amount : Nat) (s : State σ) : State σ :=
  let balance := rewardsBalance T s
  let fromPool := min amount balance
  let mint := amount - fromPool
  let (ledger, imbalance) := T.currency.burn s.ledger fromPool
  let s := withdraw T imbalance { s with ledger }
  let s := mintEvent mint s
  { s with ledger := T.rewardRemainder s.ledger amount }

def remainderOnUnbalanced (T : Config A σ) (amount : Nat) (s : State σ) : State σ :=
  if amount = 0 then s else remainderOnNonzeroUnbalanced T amount s

/-! ## Panics -/

inductive Panic where
  | unwrapNone
  | indexOutOfBounds
  | subtractOverflow
  | addOverflow
  deriving DecidableEq, Repr

def unwrap {α : Type} : Option α → Except Panic α
  | some a => .ok a
  | none => .error .unwrapNone

def index {α : Type} (l : List α) (i : Nat) : Except Panic α :=
  match l[i]? with
  | some a => .ok a
  | none => .error .indexOutOfBounds

def subtract (a b : Nat) : Except Panic Nat :=
  if b ≤ a then .ok (a - b) else .error .subtractOverflow

/-- The sum of two balances, as in a build that checks its arithmetic. -/
def addBalance (a b : Nat) : Except Panic Nat :=
  if a + b < balanceLimit then .ok (a + b) else .error .addOverflow

/-! ## Inflation -/

/-- The interest between two points of the curve. -/
def computeIdealInterest (T : Config A σ) (block : Nat) (start stop : IdealInterestPoint) :
    Except Panic Perbill :=
  let decreasing := decide (stop.interest < start.interest)
  let diff :=
    if decreasing then start.interest.saturatingSub stop.interest
    else stop.interest.saturatingSub start.interest
  if diff.isZero then .ok start.interest
  else do
    let blockDiff ← subtract stop.block start.block
    let halfEraBlocks := (Perbill.fromRational 1 2).of T.eraDuration
    -- from the end of the first era on, the interest is that of the midpoint of the era
    let calcBlock ← (if T.eraDuration ≤ block then subtract block halfEraBlocks
      else .ok block : Except Panic Nat)
    let ratio := Perbill.fromRational calcBlock blockDiff
    .ok (if decreasing then start.interest.saturatingSub (ratio * diff)
      else start.interest.saturatingAdd (ratio * diff))

/-- The ideal interest at a block: that of the segment the block falls into, of the first
point before the curve and of the last one after it. -/
def getIdealInterest (T : Config A σ) (block : Nat) (points : List IdealInterestPoint) :
    Except Panic Perbill :=
  match points.findIdx? (fun p => decide (block ≤ p.block)) with
  | some i =>
    if i = 0 then do
      let first ← index points 0
      .ok first.interest
    else do
      let start ← index points (i - 1)
      let stop ← index points i
      computeIdealInterest T block start stop
  | none => do
    let last ← unwrap points.getLast?
    .ok last.interest

def updateLiquidityRewards (portion interest : Perbill) (s : State σ) : State σ :=
  let payout := portion.of (interest.of s.idealLiquidityStake)
  { s with liquidityRewards := s.liquidityRewards - payout }

/-- What the issuance leaves after the balances that cannot be staked: the rewards pool,
what is under custody, the liquidity rewards and the public funds. Their sum is one that no balance
holds only if the books are wrong, so it is checked here; the release build would wrap it, as it
does the sums of the custody, the betanet, the public funds and the swap fee. -/
def computeTotalStakeable (T : Config A σ) (issuance : Nat) (s : State σ) :
    Except Panic Nat := do
  let unstakeable ← addBalance (rewardsBalance T s) (T.totalCustody s.ledger)
  let unstakeable ← addBalance unstakeable s.liquidityRewards
  let publicFunds ← (T.publicAccounts s.ledger).foldlM
    (fun acc x => addBalance acc (T.currency.freeBalance s.ledger x)) 0
  let unstakeable ← addBalance unstakeable publicFunds
  .ok (issuance - unstakeable)

/-- Milliseconds per Julian year. -/
def millisecondsPerYear : Nat :=
  1000 * 3600 * 24 * 36525 / 100

/-- The validator payout and the rest of the era's payout. -/
def eraPayout (T : Config A σ) (totalStaked totalIssuance eraDurationMillis : Nat)
    (s : State σ) : Except Panic (State σ × Nat × Nat) := do
  let params := s.inflationParams
  let idealInterest ← getIdealInterest T s.block s.interestPoints
  let max := idealInterest * params.idealStake
  let totalStakeable ← computeTotalStakeable T totalIssuance s
  let stake := min totalStaked totalStakeable
  let stakeRatio := Perbill.fromRational stake totalStakeable
  let inflationRatio := T.computeInflation stakeRatio params.idealStake params.falloff
  let inflation := params.minInflation.saturatingAdd
    (inflationRatio * max.saturatingSub params.minInflation)
  let portion := Perbill.fromRational eraDurationMillis millisecondsPerYear
  let s := updateLiquidityRewards portion idealInterest s
  let validatorPayout := portion.of (inflation.of totalStakeable)
  let maxPayout := portion.of (max.of totalStakeable)
  .ok (s, validatorPayout, maxPayout - validatorPayout)

/-! ## Admin calls and genesis -/

/-- A stable sort by block. -/
def sortPoints (points : List IdealInterestPoint) : List IdealInterestPoint :=
  points.insertionSort fun a b => a.block ≤ b.block

inductive Call where
  | setInflationParams (params : InflationFixedParams)
  | setInterestPoints (points : List IdealInterestPoint)
  | setLiquidityRewardsStake (amount : Nat)
  | setLiquidityRewardsBalance (amount : Nat)
  deriving DecidableEq, Repr

def ensureAdmin (T : Config A σ) (o : Origin A) : Except (DispatchError Empty) Unit :=
  if T.adminOrigin o then .ok () else ensureRoot o

def setInflationParams (T : Config A σ) (origin : Origin A) (params : InflationFixedParams)
    (s : State σ) : Except (DispatchError Empty) (State σ) := do
  ensureAdmin T origin
  .ok ({ s with inflationParams := params }.depositEvent .inflationParamsChanged)

def setInterestPoints (T : Config A σ) (origin : Origin A) (points : List IdealInterestPoint)
    (s : State σ) : Except (DispatchError Empty) (State σ) := do
  ensureAdmin T origin
  .ok ({ s with interestPoints := sortPoints points }.depositEvent .interestPointsChanged)

def setLiquidityRewardsStake (T : Config A σ) (origin : Origin A) (amount : Nat)
    (s : State σ) : Except (DispatchError Empty) (State σ) := do
  ensureAdmin T origin
  .ok ({ s with idealLiquidityStake := amount }.depositEvent .idealLiquidityStakeChanged)

def setLiquidityRewardsBalance (T : Config A σ) (origin : Origin A) (amount : Nat)
    (s : State σ) : Except (DispatchError Empty) (State σ) := do
  ensureAdmin T origin
  .ok ({ s with liquidityRewards := amount }.depositEvent .liquidityRewardsBalanceChanged)

def dispatch (T : Config A σ) (origin : Origin A) (call : Call) (s : State σ) :
    Except (DispatchError Empty) (State σ) :=
  match call with
  | .setInflationParams params => setInflationParams T origin params s
  | .setInterestPoints points => setInterestPoints T origin points s
  | .setLiquidityRewardsStake amount => setLiquidityRewardsStake T origin amount s
  | .setLiquidityRewardsBalance amount => setLiquidityRewardsBalance T origin amount s

/-- The calls only change the settings. -/
theorem dispatch_ledger {T : Config A σ} {origin : Origin A} {call : Call} {s s' : State σ}
    (h : dispatch T origin call s = .ok s') : s'.ledger = s.ledger := by
  cases call with
  | setInflationParams params =>
    simp only [dispatch, setInflationParams, bind_eq_ok] at h
    obtain ⟨_, _, hs'⟩ := h
    cases hs'
    rfl
  | setInterestPoints points =>
    simp only [dispatch, setInterestPoints, bind_eq_ok] at h
    obtain ⟨_, _, hs'⟩ := h
    cases hs'
    rfl
  | setLiquidityRewardsStake amount =>
    simp only [dispatch, setLiquidityRewardsStake, bind_eq_ok] at h
    obtain ⟨_, _, hs'⟩ := h
    cases hs'
    rfl
  | setLiquidityRewardsBalance amount =>
    simp only [dispatch, setLiquidityRewardsBalance, bind_eq_ok] at h
    obtain ⟨_, _, hs'⟩ := h
    cases hs'
    rfl

/-- The part of the genesis configuration that the storage keeps; the balance of the pool is
in the genesis `ledger`. -/
structure GenesisConfig where
  inflationParams : InflationFixedParams
  interestPoints : List IdealInterestPoint
  idealLiquidityStake : Nat
  liquidityRewards : Nat

def genesisBuild (config : GenesisConfig) (ledger : σ) : State σ where
  block := 0
  inflationParams := config.inflationParams
  interestPoints := sortPoints config.interestPoints
  idealLiquidityStake := config.idealLiquidityStake
  liquidityRewards := config.liquidityRewards
  ledger := ledger
  events := []

/-! ## The runtime of the pallet's tests

`xx-economics/src/mock.rs`, over the reference ledger: the account `0` stands for the rewards
pool, `1337` is the treasury, which resolves an imbalance by crediting it, and `99` the
admin. -/

def mockRuntime (existentialDeposit : Nat) : Config Nat (Ledger Nat) where
  currency := Ledger.currency existentialDeposit
  totalCustody _ := 1000
  publicAccounts _ := [42, 43]
  rewardsAccountId := 0
  rewardRemainder l amount :=
    let (l, credited) := (Ledger.currency existentialDeposit).depositCreating l 1337 amount
    (Ledger.currency existentialDeposit).dropNegative l (amount - credited)
  eraDuration := 10
  adminOrigin o := o = .signed 99
  computeInflation _ _ _ := .one

/-- The tests' genesis configuration, with one interest point. -/
def mockGenesis : GenesisConfig where
  inflationParams := default
  interestPoints := [{ block := 0, interest := Perbill.fromRational 1 6 }]
  idealLiquidityStake := 0
  liquidityRewards := 0

/-- A ledger with the pool and the treasury; `pool` is the balance of the pool. -/
def mockLedger (pool : Nat) : Ledger Nat :=
  Ledger.ofList [(0, { AccountData.absent with free := pool }),
    (1337, { AccountData.absent with free := 1000 })]

end XXChain.Economics
