import XXChain.Frame
import XXChain.Lib.Vesting

/-!
# XXChain — the claims pallet

`claims/src/lib.rs`: claims to coins by the owners of Ethereum addresses, spread over maps
that are keyed by the address (`Claims`, `Vesting`, `Signing`, `Rewards`) or by the account
it is claimed to (`Preclaims`), and their `Total`.

The currency and the vesting pallet act on the state `ledger`, the handler of the betanet
rewards on the state `handler`. Balances wrap where the source adds without a check.
-/

namespace XXChain.Claims

/-! ## Addresses, statements and signatures -/

abbrev EthereumAddress := Vector UInt8 20
abbrev EcdsaSignature := Vector UInt8 65

/-- The bytes of a text in ASCII. -/
def ascii (text : String) : List UInt8 :=
  text.toList.map fun c => UInt8.ofNat c.toNat

inductive StatementKind where
  | regular
  | saft
  deriving DecidableEq, Repr

/-- The English statement. -/
def StatementKind.toText : StatementKind → List UInt8
  | .regular => ascii <|
    "I hereby agree to the terms of the statement whose SHA-256 hash is " ++
    "0x3895c0d2a25a727b8eded6dcca37b2cb11bdfc94ae999da369d7bdc9eeca603c. " ++
    "(This may be found at the URL: " ++
    "https://docs.xx.network/xxNetworkDistributionContractV2.pdf)"
  | .saft => ascii "xx network doesn't have a SAFT statement"

/-- ASCII-encoded hex, twice as long as the data. -/
def toAsciiHex (data : List UInt8) : List UInt8 :=
  let nibble (n : UInt8) : UInt8 := if n < 10 then 48 + n else 97 - 10 + n
  data.flatMap fun b => [nibble (b / 16), nibble (b % 16)]

/-- The decimal digits of a length in ASCII, the last one first. -/
def decimalRev (l : Nat) : List UInt8 :=
  if h : l = 0 then []
  else (48 + UInt8.ofNat (l % 10)) :: decimalRev (l / 10)
termination_by l
decreasing_by exact Nat.div_lt_self (Nat.pos_of_ne_zero h) (by decide)

/-! ## Configuration and storage -/

variable {A σ H : Type}

structure Config (A σ H : Type) where
  currency : Currency A σ
  vestingSchedule : VestingSchedule A σ
  claimPrefix : List UInt8
  moveClaimOrigin : Origin A → Bool
  addClaimed : Nat → H → A → Nat → Nat → H
  encode : A → List UInt8
  keccak256 : List UInt8 → Vector UInt8 32
  secp256k1EcdsaRecover : EcdsaSignature → Vector UInt8 32 → Option (List UInt8)

/-- The pallet over a larger state. -/
def Config.along {ρ : Type} (T : Config A σ H) (p : Part ρ σ) : Config A ρ H :=
  { T with
    currency := T.currency.along p
    vestingSchedule := T.vestingSchedule.along p }

inductive Event (A : Type) where
  | claimed (who : A) (address : EthereumAddress) (amount reward : Nat)
  deriving DecidableEq

inductive Error where
  | invalidEthereumSignature
  | signerHasNoClaim
  | senderHasNoClaim
  | potUnderflow
  | invalidStatement
  | vestedBalanceExists
  deriving DecidableEq, Repr

/-- The storage of the pallet, the block number and the events. -/
structure State (A σ H : Type) where
  block : Nat
  claims : StorageMap EthereumAddress Nat
  total : Nat
  vesting : StorageMap EthereumAddress (List Schedule)
  signing : StorageMap EthereumAddress StatementKind
  preclaims : StorageMap A EthereumAddress
  rewards : StorageMap EthereumAddress Nat
  ledger : σ
  handler : H
  events : List (Event A)

abbrev DispatchResult : Type → Type := Except (DispatchError Error)

variable [DecidableEq A]

/-! ## Signatures -/

/-- The message that `personal_sign` and `eth_sign` would sign. -/
def ethereumSignableMessage (T : Config A σ H) (what extra : List UInt8) : List UInt8 :=
  let l := T.claimPrefix.length + what.length + extra.length
  25 :: ascii "Ethereum Signed Message:\n" ++ (decimalRev l).reverse ++ T.claimPrefix ++ what ++
    extra

/-- The address that signed, recovered from the signature of the message. -/
def ethRecover (T : Config A σ H) (signature : EcdsaSignature) (what extra : List UInt8) :
    Option EthereumAddress :=
  let msg := T.keccak256 (ethereumSignableMessage T what extra)
  (T.secp256k1EcdsaRecover signature msg).map fun key => (T.keccak256 key).drop 12

/-! ## Claiming -/

/-- Adds the schedules one by one; one that the vesting pallet refuses is skipped. -/
def addSchedules (T : Config A σ H) (now : Nat) (dest : A) (schedules : List Schedule)
    (ledger : σ) : σ :=
  schedules.foldl (fun ledger v => T.vestingSchedule.tryAdd now ledger dest v) ledger

def processClaim (T : Config A σ H) (signer : EthereumAddress) (dest : A) (s : State A σ H) :
    DispatchResult (State A σ H) := do
  let balanceDue ← okOr (s.claims.lookup signer) (.module .signerHasNoClaim)
  ensure (decide (balanceDue ≤ s.total)) (.module .potUnderflow)
  let newTotal := s.total - balanceDue
  let vesting := s.vesting.lookup signer
  ensure (!(vesting.isSome &&
    (T.vestingSchedule.vestingBalance s.block s.ledger dest).isSome))
    (.module .vestedBalanceExists)
  -- the imbalance of the deposit is dropped where it stands, which issues the coins
  let (ledger, imbalance) := T.currency.depositCreating s.ledger dest balanceDue
  let ledger := T.currency.dropPositive ledger imbalance
  let ledger := addSchedules T s.block dest (vesting.getD []) ledger
  let reward := s.rewards.lookup signer
  let handler :=
    match reward with
    | some rw => T.addClaimed s.block s.handler dest balanceDue rw
    | none => s.handler
  .ok { s with
    ledger := ledger
    handler := handler
    rewards := s.rewards.erase signer
    total := newTotal
    claims := s.claims.erase signer
    vesting := s.vesting.erase signer
    signing := s.signing.erase signer
    events := s.events ++ [.claimed dest signer balanceDue (reward.getD 0)] }

/-- The statement of a signer that has to make one must be the right one. -/
def ensureStatement (signer : EthereumAddress) (statement : List UInt8) (s : State A σ H) :
    DispatchResult Unit :=
  match s.signing.lookup signer with
  | some kind => ensure (kind.toText = statement) (.module .invalidStatement)
  | none => .ok ()

/-! ## Dispatchables -/

def claim (T : Config A σ H) (origin : Origin A) (dest : A) (signature : EcdsaSignature)
    (s : State A σ H) : DispatchResult (State A σ H) := do
  ensureNone origin
  let data := toAsciiHex (T.encode dest)
  let signer ← okOr (ethRecover T signature data []) (.module .invalidEthereumSignature)
  ensure (s.signing.lookup signer).isNone (.module .invalidStatement)
  processClaim T signer dest s

def mintClaim (origin : Origin A) (who : EthereumAddress) (value : Nat)
    (vestingSchedules : Option (List Schedule)) (statement : Option StatementKind)
    (s : State A σ H) : DispatchResult (State A σ H) := do
  ensureRoot origin
  .ok { s with
    total := (s.total + value) % balanceLimit
    claims := s.claims.insert who value
    vesting := vestingSchedules.elim s.vesting (s.vesting.insert who)
    signing := statement.elim s.signing (s.signing.insert who) }

def claimAttest (T : Config A σ H) (origin : Origin A) (dest : A)
    (signature : EcdsaSignature) (statement : List UInt8) (s : State A σ H) :
    DispatchResult (State A σ H) := do
  ensureNone origin
  let data := toAsciiHex (T.encode dest)
  let signer ← okOr (ethRecover T signature data statement) (.module .invalidEthereumSignature)
  ensureStatement signer statement s
  processClaim T signer dest s

def attest (T : Config A σ H) (origin : Origin A) (statement : List UInt8)
    (s : State A σ H) : DispatchResult (State A σ H) := do
  let who ← ensureSigned origin
  let signer ← okOr (s.preclaims.lookup who) (.module .senderHasNoClaim)
  ensureStatement signer statement s
  let s ← processClaim T signer who s
  .ok { s with preclaims := s.preclaims.erase who }

/-- `take` the entry at `source` and `insert` it at `dest`, if there is one. -/
def moveEntry {V : Type} (source dest : EthereumAddress) (m : StorageMap EthereumAddress V) :
    StorageMap EthereumAddress V :=
  match m.lookup source with
  | some v => (m.erase source).insert dest v
  | none => m

/-- The preclaim of the account, moved if it is one of `source`. -/
def movePreclaim (source dest : EthereumAddress) (preclaim : Option A)
    (m : StorageMap A EthereumAddress) : StorageMap A EthereumAddress :=
  match preclaim with
  | some who => if m.lookup who = some source then m.insert who dest else m
  | none => m

def ensureMove (T : Config A σ H) (o : Origin A) : DispatchResult Unit :=
  if T.moveClaimOrigin o then .ok () else ensureRoot o

def moveClaim (T : Config A σ H) (origin : Origin A) (old new : EthereumAddress)
    (maybePreclaim : Option A) (s : State A σ H) : DispatchResult (State A σ H) := do
  ensureMove T origin
  .ok { s with
    claims := moveEntry old new s.claims
    vesting := moveEntry old new s.vesting
    signing := moveEntry old new s.signing
    preclaims := movePreclaim old new maybePreclaim s.preclaims }

inductive Call (A : Type) where
  | claim (dest : A) (signature : EcdsaSignature)
  | mintClaim (who : EthereumAddress) (value : Nat) (vestingSchedules : Option (List Schedule))
      (statement : Option StatementKind)
  | claimAttest (dest : A) (signature : EcdsaSignature) (statement : List UInt8)
  | attest (statement : List UInt8)
  | moveClaim (old new : EthereumAddress) (maybePreclaim : Option A)

def dispatch (T : Config A σ H) (origin : Origin A) (call : Call A) (s : State A σ H) :
    DispatchResult (State A σ H) :=
  match call with
  | .claim dest signature => claim T origin dest signature s
  | .mintClaim who value vestingSchedules statement =>
    mintClaim origin who value vestingSchedules statement s
  | .claimAttest dest signature statement => claimAttest T origin dest signature statement s
  | .attest statement => attest T origin statement s
  | .moveClaim old new maybePreclaim => moveClaim T origin old new maybePreclaim s

/-- A call that fails changes nothing. -/
def applyCall (T : Config A σ H) (s : State A σ H) (call : Origin A × Call A) : State A σ H :=
  match dispatch T call.1 call.2 s with
  | .ok s' => s'
  | .error _ => s

/-! ## Genesis -/

/-- One entry of the genesis claims: the address, the amount, the betanet reward, the account
of a preclaim and the statement. -/
structure GenesisClaim (A : Type) where
  address : EthereumAddress
  amount : Nat
  reward : Option Nat
  preclaim : Option A
  statement : Option StatementKind

structure GenesisConfig (A : Type) where
  claims : List (GenesisClaim A)
  vesting : List (EthereumAddress × List Schedule)

def genesisBuild (config : GenesisConfig A) (ledger : σ) (handler : H) : State A σ H where
  block := 0
  claims := .ofList (config.claims.map fun c => (c.address, c.amount))
  total := config.claims.foldl (fun acc c => (acc + c.amount) % balanceLimit) 0
  vesting := .ofList config.vesting
  signing := .ofList (config.claims.filterMap fun c => c.statement.map (c.address, ·))
  preclaims := .ofList (config.claims.filterMap fun c => c.preclaim.map (·, c.address))
  rewards := .ofList (config.claims.filterMap fun c => c.reward.map (c.address, ·))
  ledger := ledger
  handler := handler
  events := []

/-! ## A mock runtime

No signature is valid, and the account `99` may move claims. `mockHandler` keeps the claims it
is told of. -/

def mockConfig (currency : Currency Nat σ) (vestingSchedule : VestingSchedule Nat σ)
    (addClaimed : Nat → H → Nat → Nat → Nat → H) : Config Nat σ H where
  currency := currency
  vestingSchedule := vestingSchedule
  claimPrefix := ascii "Pay RUSTs to the TEST account:"
  moveClaimOrigin o := o = .signed 99
  addClaimed := addClaimed
  encode _ := []
  keccak256 _ := Vector.replicate 32 0
  secp256k1EcdsaRecover _ _ := none

def mockHandler (_ : Nat) (handler : List (Nat × Nat × Nat)) (who balance reward : Nat) :
    List (Nat × Nat × Nat) :=
  handler ++ [(who, balance, reward)]

/-- Over the reference ledger with schedules. -/
def mockRuntime : Config Nat (VestedLedger Nat) (List (Nat × Nat × Nat)) :=
  mockConfig (VestedLedger.currency 1) (VestedLedger.vesting 28) mockHandler

/-- Nobody has a balance. -/
def mockLedger : VestedLedger Nat where
  ledger := Ledger.ofList []
  schedules := ∅

def mockAddress (n : UInt8) : EthereumAddress :=
  Vector.replicate 20 n

/-- Two claims: `mockAddress 1` of the account `42`, with a reward, and `mockAddress 2`. -/
def mockGenesis : GenesisConfig Nat where
  claims := [⟨mockAddress 1, 100, some 7, some 42, none⟩,
    ⟨mockAddress 2, 200, none, none, some .regular⟩]
  vesting := []

end XXChain.Claims
