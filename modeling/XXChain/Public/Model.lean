import XXChain.Frame
import XXChain.Lib.Vesting

/-!
# XXChain — the public distributions pallet

`xx-public/src/lib.rs`: two pots, one for the testnet and one for the sale, out of which the
manager of each distributes coins, some of them with vesting schedules.

The currency and the vesting pallet act on the state `ledger`. The sum of a distribution wraps,
as in the release build.
-/

namespace XXChain.Public

/-! ## Calls, events and errors -/

/-- Information about a single transfer. -/
structure TransferData (A : Type) where
  destination : A
  amount : Nat
  schedules : Option (List Schedule)
  deriving DecidableEq, Repr

inductive Call (A : Type) where
  | setTestnetManagerAccount (who : A)
  | setSaleManagerAccount (who : A)
  | testnetDistribute (data : List (TransferData A))
  | saleDistribute (data : List (TransferData A))
  deriving DecidableEq, Repr

inductive Event where
  | testnetManagerUpdated
  | saleManagerUpdated
  deriving DecidableEq, Repr

inductive Error where
  | mustBeTestnetManager
  | mustBeSaleManager
  | notEnoughFunds
  deriving DecidableEq, Repr

/-! ## Configuration and storage -/

/-- The accounts of the two pots are derived from the ids of the pallet. -/
structure Config (A σ : Type) where
  currency : Currency A σ
  vestingSchedule : VestingSchedule A σ
  testnetAccountId : A
  saleAccountId : A
  adminOrigin : Origin A → Bool

/-- The storage of the pallet, the block number and the events. -/
structure State (A σ : Type) where
  block : Nat
  testnetManager : Option A
  saleManager : Option A
  events : List Event
  ledger : σ

abbrev DispatchResult : Type → Type := Except (DispatchError Error)

variable {A σ : Type}

def State.depositEvent (s : State A σ) (event : Event) : State A σ :=
  { s with events := s.events ++ [event] }

/-- The accounts that the supply leaves out. -/
def accounts (T : Config A σ) : List A :=
  [T.testnetAccountId, T.saleAccountId]

/-! ## Utility methods -/

def ensureAdmin (T : Config A σ) (o : Origin A) : DispatchResult Unit :=
  if T.adminOrigin o then .ok () else ensureRoot o

def isTestnetManager [DecidableEq A] (who : A) (s : State A σ) : Bool :=
  match s.testnetManager with
  | some manager => decide (who = manager)
  | none => false

def isSaleManager [DecidableEq A] (who : A) (s : State A σ) : Bool :=
  match s.saleManager with
  | some manager => decide (who = manager)
  | none => false

/-! ## Distributions -/

/-- Adds the schedules one by one; one that the vesting pallet refuses is skipped. -/
def addSchedules (T : Config A σ) (now : Nat) (destination : A)
    (schedules : Option (List Schedule)) (ledger : σ) : σ :=
  match schedules with
  | some vs => vs.foldl (fun ledger v => T.vestingSchedule.tryAdd now ledger destination v) ledger
  | none => ledger

/-- One transfer of a distribution out of the account. -/
def distribute (T : Config A σ) (account : A) (s : State A σ) (d : TransferData A) :
    DispatchResult (State A σ) :=
  match T.currency.transfer s.ledger account d.destination d.amount with
  | some ledger =>
    .ok { s with ledger := addSchedules T s.block d.destination d.schedules ledger }
  | none => .error (.foreign 0)

def doDistribution (T : Config A σ) (account : A) (data : List (TransferData A))
    (s : State A σ) : DispatchResult (State A σ) := do
  let available := T.currency.freeBalance s.ledger account
  -- the sum of the amounts wraps
  let total := data.foldl (fun acc x => (acc + x.amount) % balanceLimit) 0
  ensure (decide (total ≤ available)) (.module .notEnoughFunds)
  data.foldlM (distribute T account) s

def doTestnetDistribution (T : Config A σ) (data : List (TransferData A)) (s : State A σ) :
    DispatchResult (State A σ) :=
  doDistribution T T.testnetAccountId data s

def doSaleDistribution (T : Config A σ) (data : List (TransferData A)) (s : State A σ) :
    DispatchResult (State A σ) :=
  doDistribution T T.saleAccountId data s

/-! ## Dispatchables -/

def setTestnetManagerAccount (T : Config A σ) (origin : Origin A) (who : A) (s : State A σ) :
    DispatchResult (State A σ) := do
  ensureAdmin T origin
  .ok ({ s with testnetManager := some who }.depositEvent .testnetManagerUpdated)

def setSaleManagerAccount (T : Config A σ) (origin : Origin A) (who : A) (s : State A σ) :
    DispatchResult (State A σ) := do
  ensureAdmin T origin
  .ok ({ s with saleManager := some who }.depositEvent .saleManagerUpdated)

def testnetDistribute [DecidableEq A] (T : Config A σ) (origin : Origin A)
    (data : List (TransferData A)) (s : State A σ) : DispatchResult (State A σ) := do
  let who ← ensureSigned origin
  ensure (isTestnetManager who s) (.module .mustBeTestnetManager)
  doTestnetDistribution T data s

def saleDistribute [DecidableEq A] (T : Config A σ) (origin : Origin A)
    (data : List (TransferData A)) (s : State A σ) : DispatchResult (State A σ) := do
  let who ← ensureSigned origin
  ensure (isSaleManager who s) (.module .mustBeSaleManager)
  doSaleDistribution T data s

def dispatch [DecidableEq A] (T : Config A σ) (call : Call A) (origin : Origin A) (s : State A σ) :
    DispatchResult (State A σ) :=
  match call with
  | .setTestnetManagerAccount who => setTestnetManagerAccount T origin who s
  | .setSaleManagerAccount who => setSaleManagerAccount T origin who s
  | .testnetDistribute data => testnetDistribute T origin data s
  | .saleDistribute data => saleDistribute T origin data s

/-- A call that fails changes nothing. -/
def applyCall [DecidableEq A] (T : Config A σ) (origin : Origin A) (call : Call A)
    (s : State A σ) : State A σ :=
  match dispatch T call origin s with
  | .ok s' => s'
  | .error _ => s

/-! ## The runtime of the pallet's tests

`xx-public/src/mock.rs`: the accounts `1` and `2` stand for the two pots, `42` and `43` are
their managers. -/

def mockConfig : Config Nat (VestedLedger Nat) where
  currency := VestedLedger.currency 1
  vestingSchedule := VestedLedger.vesting 2
  testnetAccountId := 1
  saleAccountId := 2
  adminOrigin o := decide (o = .signed 99)

/-- The genesis of the tests at block `1`, with the balances of the two pots. -/
def mockGenesis (testnetBalance saleBalance : Nat) : State Nat (VestedLedger Nat) where
  block := 1
  testnetManager := some 42
  saleManager := some 43
  events := []
  ledger :=
    { ledger := Ledger.ofList [(1, ⟨testnetBalance, 0, 0, true⟩), (2, ⟨saleBalance, 0, 0, true⟩),
        (42, ⟨100, 0, 0, true⟩), (43, ⟨100, 0, 0, true⟩)]
      schedules := ∅ }

end XXChain.Public
