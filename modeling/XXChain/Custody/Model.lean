import XXChain.Frame
import XXChain.Lib.Ledger
import XXChain.Lib.Perbill

/-!
# XXChain — the team custody pallet

`xx-team-custody/src`: the custody of the team's allocations (`custody.rs`), and the calls,
the admin and the genesis build around it (`lib.rs`). A team member has a custody account,
which custodians may bond and give a proxy for voting, and a reserve account; the allocation
is paid out of both in equal parts, and what is left at the end of the custody.

The currency, the staking and the proxy pallet act on the state `ledger`. Balances wrap where
the source computes without a check.
-/

namespace XXChain.Custody

/-! ## Configuration and storage -/

structure CustodyInfo (A : Type) where
  allocation : Nat
  vested : Nat
  custody : A
  reserve : A
  deriving DecidableEq

/-- The staking pallet. `otherLocks` and `otherwiseMayDie` read what the locks and references of
an account come to without the ones of the staking pallet. -/
structure Staking (A σ : Type) where
  bonded : σ → A → Bool
  otherLocks : σ → A → Nat
  otherwiseMayDie : σ → A → Bool
  forceUnstake : σ → A → Option σ
  bond : σ → A → A → Nat → Option σ
  bondExtra : σ → A → Nat → Option σ
  setController : σ → A → A → Option σ

/-- What a proxy may call for an account, as the runtime tells them apart. -/
inductive ProxyType where
  | any
  | nonTransfer
  | governance
  | staking
  | voting
  deriving DecidableEq, Repr

structure ProxyDefinition (A : Type) where
  delegate : A
  proxyType : ProxyType
  delay : Nat
  deriving DecidableEq

/-- The proxy pallet: the account derived from an owner, a proxy type and an index, and the
proxies of an account with the deposit reserved for them. -/
structure Proxies (A σ : Type) where
  pureAccount : A → ProxyType → Nat → A
  proxies : σ → A → List (ProxyDefinition A) × Nat
  remove : σ → A → σ
  addProxyDelegate : σ → A → A → ProxyType → Nat → Option σ

structure Config (A σ : Type) where
  currency : Currency A σ
  staking : Staking A σ
  proxies : Proxies A σ
  payoutFrequency : Nat
  custodyDuration : Nat
  governanceCustodyDuration : Nat
  custodyProxy : ProxyType
  adminOrigin : Origin A → Bool

inductive Event (A : Type) where
  | payoutFromCustody (who : A) (amount : Nat)
  | payoutFromReserve (who : A) (amount : Nat)
  | custodyDone (who : A)
  | custodianAdded (who : A)
  | custodianRemoved (who : A)
  | teamMemberUpdated (who new : A)
  deriving DecidableEq

inductive Error where
  | invalidTeamMember
  | invalidCustodyAccount
  | mustBeCustodian
  | payoutNotAvailable
  | payoutFailedInsufficientFunds
  | custodyPeriodEnded
  | governanceCustodyActive
  | governanceCustodyPeriodEnded
  | teamMemberExists
  deriving DecidableEq, Repr

/-- The storage of the pallet, the block number and the events. -/
structure State (A σ : Type) where
  block : Nat
  teamAccounts : StorageMap A (CustodyInfo A)
  custodyAccounts : StorageMap A Unit
  custodians : StorageMap A Unit
  totalCustody : Nat
  ledger : σ
  events : List (Event A)

abbrev DispatchResult : Type → Type := Except (DispatchError Error)

variable {A σ : Type} [DecidableEq A]

def State.depositEvent (s : State A σ) (event : Event A) : State A σ :=
  { s with events := s.events ++ [event] }

/-- The result of a call of another pallet. -/
def called {α : Type} (result : Option α) : DispatchResult α :=
  okOr result (.foreign 0)

/-! ## Proxies -/

def isCustodyDone (T : Config A σ) (block : Nat) : Bool :=
  decide (T.custodyDuration < block)

def isGovernanceCustodyDone (T : Config A σ) (block : Nat) : Bool :=
  decide (T.governanceCustodyDuration < block)

/-- Removes any proxies, and returns their deposit. -/
def removeCustodyProxies (T : Config A σ) (custody : A) (ledger : σ) : σ :=
  let oldDeposit := (T.proxies.proxies ledger custody).2
  let ledger := T.proxies.remove ledger custody
  T.currency.unreserve ledger custody oldDeposit

def setCustodyGovernanceProxy (T : Config A σ) (custody proxy : A) (ledger : σ) :
    DispatchResult σ :=
  called (T.proxies.addProxyDelegate (removeCustodyProxies T custody ledger) custody proxy
    T.custodyProxy 0)

/-! ## Payouts -/

def computePayout (T : Config A σ) (allocation : Nat) : Nat :=
  (Perbill.fromRational T.payoutFrequency T.custodyDuration).of allocation

def CustodyInfo.increaseVested (info : CustodyInfo A) (amount : Nat) : CustodyInfo A :=
  { info with vested := (info.vested + amount) % balanceLimit }

/-- The amounts to withdraw from custody and reserve: `amount`, from the custody first, and
all there is when the custody is done. -/
def withdrawals (T : Config A σ) (amount : Nat) (info : CustodyInfo A) (keepAlive : Bool)
    (ledger : σ) : Nat × Nat :=
  let custodyBalance := T.currency.reducibleBalance ledger info.custody keepAlive
  let reserveBalance := T.currency.reducibleBalance ledger info.reserve keepAlive
  if keepAlive then
    let fromCustody := min amount custodyBalance
    let fromReserve := amount - fromCustody
    (fromCustody, min fromReserve reserveBalance)
  else (custodyBalance, reserveBalance)

/-- One of the two transfers of a payout. -/
def transferPayout (T : Config A σ) (source who : A) (amount : Nat) (event : Event A)
    (s : State A σ) : DispatchResult (State A σ) :=
  if amount = 0 then .ok s
  else do
    let ledger ← called (T.currency.transfer s.ledger source who amount)
    .ok ({ s with ledger }.depositEvent event)

/-- What a payout takes out of the total under custody: the last one squares it with the
difference between what was vested, this payout included, and the allocation. -/
def custodyDeduct (keepAlive : Bool) (info : CustodyInfo A) (withdraw : Nat) : Nat :=
  if keepAlive then withdraw
  else if info.allocation < info.vested then withdraw - (info.vested - info.allocation)
  else if info.vested < info.allocation then
    min (balanceLimit - 1) (withdraw + (info.allocation - info.vested))
  else withdraw

def doPayout (T : Config A σ) (who : A) (amount : Nat) (info : CustodyInfo A)
    (keepAlive : Bool) (s : State A σ) : DispatchResult (State A σ) := do
  let amounts := withdrawals T amount info keepAlive s.ledger
  let withdraw := (amounts.1 + amounts.2) % balanceLimit
  let s ← transferPayout T info.custody who amounts.1 (.payoutFromCustody who amounts.1) s
  let s ← transferPayout T info.reserve who amounts.2 (.payoutFromReserve who amounts.2) s
  ensure (!(keepAlive && withdraw == 0)) (.module .payoutFailedInsufficientFunds)
  let info := info.increaseVested withdraw
  let totalCustody := s.totalCustody - custodyDeduct keepAlive info withdraw
  if keepAlive then
    .ok { s with totalCustody := totalCustody, teamAccounts := s.teamAccounts.insert who info }
  else
    .ok { s with
      totalCustody := totalCustody
      teamAccounts := s.teamAccounts.erase who
      custodyAccounts := s.custodyAccounts.erase info.custody }

/-- The last payout, once the custody is done. -/
def lastPayout (T : Config A σ) (who : A) (info : CustodyInfo A) (s : State A σ) :
    DispatchResult (State A σ) := do
  let ledger ← (if T.staking.bonded s.ledger info.custody then
      called (T.staking.forceUnstake s.ledger info.custody)
    else .ok s.ledger : DispatchResult σ)
  let ledger := removeCustodyProxies T info.custody ledger
  let s ← doPayout T who 0 info false { s with ledger }
  .ok (s.depositEvent (.custodyDone who))

def tryPayout (T : Config A σ) (who : A) (s : State A σ) : DispatchResult (State A σ) := do
  -- cannot fail, since the team member was checked before
  let info ← okOr (s.teamAccounts.lookup who) (.module .invalidTeamMember)
  if isCustodyDone T s.block then lastPayout T who info s
  else
    let payout := computePayout T info.allocation
    let chunks := s.block / T.payoutFrequency
    let amount := wrappingSub (payout * chunks % balanceLimit) info.vested
    if amount ≠ 0 then doPayout T who amount info true s
    else .error (.module .payoutNotAvailable)

/-! ## Dispatchables -/

def isTeamMember (who : A) (s : State A σ) : Bool :=
  (s.teamAccounts.lookup who).isSome

def isCustody (who : A) (s : State A σ) : Bool :=
  (s.custodyAccounts.lookup who).isSome

def isCustodian (who : A) (s : State A σ) : Bool :=
  (s.custodians.lookup who).isSome

def ensureAdmin (T : Config A σ) (o : Origin A) : DispatchResult Unit :=
  if T.adminOrigin o then .ok () else ensureRoot o

def payout (T : Config A σ) (origin : Origin A) (who : A) (s : State A σ) :
    DispatchResult (State A σ) := do
  let _ ← ensureSigned origin
  ensure (isTeamMember who s) (.module .invalidTeamMember)
  tryPayout T who s

/-- A call of a custodian for a custody account, allowed up to the block that `done` says. -/
def asCustodian (origin : Origin A) (custody : A) (done : Bool) (error : Error)
    (s : State A σ) (call : σ → DispatchResult σ) : DispatchResult (State A σ) := do
  let who ← ensureSigned origin
  ensure (isCustodian who s) (.module .mustBeCustodian)
  ensure (isCustody custody s) (.module .invalidCustodyAccount)
  ensure (!done) (.module error)
  let ledger ← call s.ledger
  .ok { s with ledger }

def custodyBond (T : Config A σ) (origin : Origin A) (custody controller : A) (value : Nat)
    (s : State A σ) : DispatchResult (State A σ) :=
  asCustodian origin custody (isCustodyDone T s.block) .custodyPeriodEnded s fun ledger =>
    called (T.staking.bond ledger custody controller value)

def custodyBondExtra (T : Config A σ) (origin : Origin A) (custody : A) (value : Nat)
    (s : State A σ) : DispatchResult (State A σ) :=
  asCustodian origin custody (isCustodyDone T s.block) .custodyPeriodEnded s fun ledger =>
    called (T.staking.bondExtra ledger custody value)

def custodySetController (T : Config A σ) (origin : Origin A) (custody controller : A)
    (s : State A σ) : DispatchResult (State A σ) :=
  asCustodian origin custody (isCustodyDone T s.block) .custodyPeriodEnded s fun ledger =>
    called (T.staking.setController ledger custody controller)

def custodySetProxy (T : Config A σ) (origin : Origin A) (custody proxy : A)
    (s : State A σ) : DispatchResult (State A σ) :=
  asCustodian origin custody (isGovernanceCustodyDone T s.block) .governanceCustodyPeriodEnded s
    fun ledger => setCustodyGovernanceProxy T custody proxy ledger

def teamCustodySetProxy (T : Config A σ) (origin : Origin A) (proxy : A) (s : State A σ) :
    DispatchResult (State A σ) := do
  let who ← ensureSigned origin
  ensure (isTeamMember who s) (.module .invalidTeamMember)
  ensure (isGovernanceCustodyDone T s.block) (.module .governanceCustodyActive)
  let info ← okOr (s.teamAccounts.lookup who) (.module .invalidTeamMember)
  let ledger ← setCustodyGovernanceProxy T info.custody proxy s.ledger
  .ok { s with ledger }

def addCustodian (T : Config A σ) (origin : Origin A) (custodian : A) (s : State A σ) :
    DispatchResult (State A σ) := do
  ensureAdmin T origin
  .ok ({ s with custodians := s.custodians.insert custodian () }.depositEvent
    (.custodianAdded custodian))

def removeCustodian (T : Config A σ) (origin : Origin A) (custodian : A) (s : State A σ) :
    DispatchResult (State A σ) := do
  ensureAdmin T origin
  .ok ({ s with custodians := s.custodians.erase custodian }.depositEvent
    (.custodianRemoved custodian))

def replaceTeamMember (T : Config A σ) (origin : Origin A) (who new : A) (s : State A σ) :
    DispatchResult (State A σ) := do
  ensureAdmin T origin
  ensure (isTeamMember who s) (.module .invalidTeamMember)
  ensure (!isTeamMember new s) (.module .teamMemberExists)
  let info ← okOr (s.teamAccounts.lookup who) (.module .invalidTeamMember)
  .ok ({ s with teamAccounts := (s.teamAccounts.erase who).insert new info }.depositEvent
    (.teamMemberUpdated who new))

inductive Call (A : Type) where
  | payout (who : A)
  | custodyBond (custody controller : A) (value : Nat)
  | custodyBondExtra (custody : A) (value : Nat)
  | custodySetController (custody controller : A)
  | custodySetProxy (custody proxy : A)
  | teamCustodySetProxy (proxy : A)
  | addCustodian (custodian : A)
  | removeCustodian (custodian : A)
  | replaceTeamMember (who new : A)

def dispatch (T : Config A σ) (origin : Origin A) (call : Call A) (s : State A σ) :
    DispatchResult (State A σ) :=
  match call with
  | .payout who => payout T origin who s
  | .custodyBond custody controller value => custodyBond T origin custody controller value s
  | .custodyBondExtra custody value => custodyBondExtra T origin custody value s
  | .custodySetController custody controller => custodySetController T origin custody controller s
  | .custodySetProxy custody proxy => custodySetProxy T origin custody proxy s
  | .teamCustodySetProxy proxy => teamCustodySetProxy T origin proxy s
  | .addCustodian custodian => addCustodian T origin custodian s
  | .removeCustodian custodian => removeCustodian T origin custodian s
  | .replaceTeamMember who new => replaceTeamMember T origin who new s

/-- A call that fails changes nothing. -/
def applyCall (T : Config A σ) (s : State A σ) (origin : Origin A) (call : Call A) : State A σ :=
  match dispatch T origin call s with
  | .ok s' => s'
  | .error _ => s

/-! ## Genesis -/

/-- The part of the allocation that goes to the reserve: 5.55555556%. -/
def reserveRatio : Perbill :=
  .fromRational 55555556 1000000000

/-- Deposits that are issued at once. -/
def depositIssued (T : Config A σ) (ledger : σ) (a : A) (amount : Nat) : σ :=
  let deposit := T.currency.depositCreating ledger a amount
  T.currency.dropPositive deposit.1 deposit.2

def initializeCustody (T : Config A σ) (who : A) (amount : Nat) (s : State A σ) : State A σ :=
  let reserveBalance := reserveRatio.of amount
  let custodyBalance := amount - reserveBalance
  let custodyAccount := T.proxies.pureAccount who T.custodyProxy 0
  let ledger := depositIssued T s.ledger custodyAccount custodyBalance
  let reserveAccount := T.proxies.pureAccount who T.custodyProxy 1
  let ledger := depositIssued T ledger reserveAccount reserveBalance
  let custodyInfo : CustodyInfo A :=
    { allocation := amount, vested := 0, custody := custodyAccount, reserve := reserveAccount }
  { s with
    ledger := ledger
    teamAccounts := s.teamAccounts.insert who custodyInfo
    custodyAccounts := s.custodyAccounts.insert custodyAccount ()
    totalCustody :=
      ((s.totalCustody + custodyBalance) % balanceLimit + reserveBalance) % balanceLimit }

structure GenesisConfig (A : Type) where
  custodians : List A
  teamAllocations : List (A × Nat)

/-- The custodians, and no custody yet. -/
def genesisCustodians (config : GenesisConfig A) (ledger : σ) : State A σ where
  block := 0
  teamAccounts := ∅
  custodyAccounts := ∅
  custodians := .ofList (config.custodians.map (·, ()))
  totalCustody := 0
  ledger := ledger
  events := []

def genesisBuild (T : Config A σ) (config : GenesisConfig A) (ledger : σ) : State A σ :=
  config.teamAllocations.foldl (fun s entry => initializeCustody T entry.1 entry.2 s)
    (genesisCustodians config ledger)

end XXChain.Custody
