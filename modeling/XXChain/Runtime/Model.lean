import XXChain.Betanet.Model
import XXChain.Cmix.Model
import XXChain.Custody.Model
import XXChain.Economics.Model
import XXChain.Public.Model
import XXChain.Swap.Model

/-!
# XXChain — the xxnetwork runtime

`runtime/xxnetwork/src/lib.rs`: the eight pallets of the repository over one currency, and the
kinds of proxies with the calls each of them may make.

A pallet keeps its own storage in `World`, with its ledger set aside, and its calls see the one
ledger of the runtime. The pallets that are not of this repository are `foreign`: their calls
may change all of the world, and the nonces and events of the bridge.
-/

namespace XXChain.Runtime

open Chainbridge (ChainId ResourceId RuntimeCall)
open Custody (ProxyType)

/-! ## Calls -/

/-- The calls of the betanet rewards pallet. -/
inductive BetanetCall where
  | selectOption (option : Betanet.RewardOption)
  | approve
  deriving DecidableEq

deriving instance DecidableEq for Claims.Call
deriving instance DecidableEq for Custody.Call

/-- The calls of all pallets but the bridge and the utility pallet. -/
inductive PalletCall (A F : Type) where
  | claims (call : Claims.Call A)
  | swap (call : Swap.Call A)
  | xxCmix (call : Cmix.Call A)
  | xxEconomics (call : Economics.Call)
  | xxCustody (call : Custody.Call A)
  | xxBetanetRewards (call : BetanetCall)
  | xxPublic (call : Public.Call A)
  | foreign (call : F)
  deriving DecidableEq

abbrev Call (A F : Type) := RuntimeCall A (PalletCall A F)

/-- The calls of the repository's own pallets. -/
def isOwn {A F : Type} : Call A F → Bool
  | .batchAll .. | .batch .. | .dispatchAs .. => false
  | .other (.foreign _) => false
  | _ => true

/-! ## What a proxy may call -/

/-- The calls that the kinds of proxies tell apart; `other` are those that none of them names. -/
inductive CallKind where
  | assets
  | uniques
  | nfts
  | balances
  | vestedTransfer
  | democracyVote
  | democracyRemoveVote
  | democracy
  | council
  | technicalCommittee
  | electionsVote
  | electionsRemoveVoter
  | elections
  | treasury
  | preimage
  | bounties
  | childBounties
  | staking
  | other
  deriving DecidableEq, Repr

/-- The filter of a proxy: a list of what it denies for `NonTransfer`, and of what it allows for
the rest. -/
def filter (t : ProxyType) (kind : CallKind) : Bool :=
  match t with
  | .any => true
  | .nonTransfer =>
    match kind with
    | .assets | .uniques | .nfts | .balances | .vestedTransfer => false
    | _ => true
  | .governance =>
    match kind with
    | .democracyVote | .democracyRemoveVote | .democracy | .council | .technicalCommittee
    | .electionsVote | .electionsRemoveVoter | .elections | .treasury | .preimage | .bounties
    | .childBounties => true
    | _ => false
  | .staking =>
    match kind with
    | .staking => true
    | _ => false
  | .voting =>
    match kind with
    | .democracyVote | .democracyRemoveVote | .electionsVote | .electionsRemoveVoter => true
    | _ => false

/-! ## State -/

/-- The storage of the pallets besides the bridge, and the one ledger. -/
structure World (A σ : Type) where
  claims : Betanet.State A Unit
  swap : Swap.Storage A Unit
  xxCmix : Cmix.State A Unit
  xxEconomics : Economics.State Unit
  xxCustody : Custody.State A Unit
  xxPublic : Public.State A Unit
  ledger : σ

abbrev State (A F σ : Type) := Chainbridge.State A (PalletCall A F) (World A σ)

variable {A F σ S E : Type}

def claimsPart : Part (World A σ) (Betanet.State A σ) where
  get w := { w.claims with ledger := w.ledger }
  put w s := { w with claims := { s with ledger := () }, ledger := s.ledger }
  get_put _ _ := rfl
  put_get _ := rfl

def swapPart : Part (World A σ) (Swap.Storage A σ) where
  get w := { w.swap with ledger := w.ledger }
  put w s := { w with swap := { s with ledger := () }, ledger := s.ledger }
  get_put _ _ := rfl
  put_get _ := rfl

def cmixPart : Part (World A σ) (Cmix.State A σ) where
  get w := { w.xxCmix with ledger := w.ledger }
  put w s := { w with xxCmix := { s with ledger := () }, ledger := s.ledger }
  get_put _ _ := rfl
  put_get _ := rfl

def economicsPart : Part (World A σ) (Economics.State σ) where
  get w := { w.xxEconomics with ledger := w.ledger }
  put w s := { w with xxEconomics := { s with ledger := () }, ledger := s.ledger }
  get_put _ _ := rfl
  put_get _ := rfl

def custodyPart : Part (World A σ) (Custody.State A σ) where
  get w := { w.xxCustody with ledger := w.ledger }
  put w s := { w with xxCustody := { s with ledger := () }, ledger := s.ledger }
  get_put _ _ := rfl
  put_get _ := rfl

def publicPart : Part (World A σ) (Public.State A σ) where
  get w := { w.xxPublic with ledger := w.ledger }
  put w s := { w with xxPublic := { s with ledger := () }, ledger := s.ledger }
  get_put _ _ := rfl
  put_get _ := rfl

/-! ## Configuration -/

/-- The runtime around the bridge. The pallets have one currency, and `callKind` says what the
proxies see of a foreign call.

A foreign call writes what is not the bridge's own, and its nonces and events through the
`transfer_*` functions. The pallets that dispatch calls of others (`proxy`, `multisig`, `recovery`,
the collectives, the scheduler, `as_derivative`) are foreign too; the calls that they dispatch are
actions of a run in their own right, under the origin that these pallets give them. -/
structure Config (A F σ : Type) where
  currency : Currency A σ
  bridgeId : A
  chainId : ChainId
  proposalLifetime : Nat
  twoThirdsTechnical : Origin A → Bool
  tokenId : ResourceId
  betanet : Betanet.Config A σ
  cmix : Cmix.Config A σ
  economics : Economics.Config A σ
  custody : Custody.Config A σ
  publicFunds : Public.Config A σ
  callKind : F → CallKind
  foreign : F → Chainbridge.Dispatch A (PalletCall A F) (World A σ)
  foreignFrame : ∀ call origin s s', foreign call origin s = .ok s' →
    s' = { s with chainNonces := s'.chainNonces, events := s'.events, world := s'.world }
  claims_currency : betanet.claims.currency = currency
  economics_currency : economics.currency = currency
  custody_currency : custody.currency = currency
  public_currency : publicFunds.currency = currency

/-- What the proxies see of a call. None of them names a pallet of this repository. -/
def Config.kindOf (T : Config A F σ) : Call A F → CallKind
  | .other (.foreign call) => T.callKind call
  | _ => .other

variable [DecidableEq A]

/-- The origin of the bridge account. -/
def ensureBridge (bridgeId : A) (o : Origin A) : Option A :=
  if o = .signed bridgeId then some bridgeId else none

def Config.swap (T : Config A F σ) : Swap.Config A σ where
  currency := T.currency
  nativeTokenId := T.tokenId
  bridgeOrigin := ensureBridge T.bridgeId
  adminOrigin := T.twoThirdsTechnical

/-! ## Dispatch -/

def betanetDispatch (T : Betanet.Config A σ) (call : BetanetCall) (origin : Origin A)
    (s : Betanet.State A σ) : Betanet.DispatchResult (Betanet.State A σ) :=
  match call with
  | .selectOption option => Betanet.selectOption T origin option s
  | .approve => Betanet.approve T origin s

omit [DecidableEq A] in
/-- A call of a pallet on its part of the world. -/
def through (p : Part (World A σ) S) (run : S → Except (DispatchError E) S) (s : State A F σ) :
    Chainbridge.DispatchResult (State A F σ) :=
  match run (p.get s.world) with
  | .ok part => .ok { s with world := p.put s.world part }
  | .error e => .error e.abroad

/-- The state as the swap pallet sees it. -/
def swapState (s : State A F σ) : Swap.State A (PalletCall A F) σ :=
  { s with world := swapPart.get s.world }

/-- A call of the swap pallet, which also writes to the bridge. -/
def swapDispatch (T : Config A F σ) (call : Swap.Call A) (origin : Origin A) (s : State A F σ) :
    Chainbridge.DispatchResult (State A F σ) :=
  match Swap.dispatch T.swap T.bridgeId call origin (swapState s) with
  | .ok s' => .ok { s' with world := swapPart.put s.world s'.world }
  | .error e => .error e.abroad

def palletDispatch (T : Config A F σ) (call : PalletCall A F) (origin : Origin A)
    (s : State A F σ) : Chainbridge.DispatchResult (State A F σ) :=
  match call with
  | .claims call => through claimsPart (Claims.dispatch T.betanet.wired origin call) s
  | .swap call => swapDispatch T call origin s
  | .xxCmix call => through cmixPart (Cmix.dispatch T.cmix call origin) s
  | .xxEconomics call => through economicsPart (Economics.dispatch T.economics origin call) s
  | .xxCustody call => through custodyPart (Custody.dispatch T.custody origin call) s
  | .xxBetanetRewards call => through claimsPart (betanetDispatch T.betanet call origin) s
  | .xxPublic call => through publicPart (Public.dispatch T.publicFunds call origin) s
  | .foreign call => T.foreign call origin s

omit [DecidableEq A] in
theorem through_ok {p : Part (World A σ) S} {run : S → Except (DispatchError E) S}
    {s s' : State A F σ} (h : through p run s = .ok s') :
    ∃ part, run (p.get s.world) = .ok part ∧ s' = { s with world := p.put s.world part } := by
  unfold through at h
  split at h
  next part hrun =>
    cases h
    exact ⟨part, hrun, rfl⟩
  next => cases h

theorem swapDispatch_ok {T : Config A F σ} {call : Swap.Call A} {origin : Origin A}
    {s s' : State A F σ} (h : swapDispatch T call origin s = .ok s') :
    ∃ s₁, Swap.dispatch T.swap T.bridgeId call origin (swapState s) = .ok s₁ ∧
      s' = { s₁ with world := swapPart.put s.world s₁.world } := by
  unfold swapDispatch at h
  split at h
  next s₁ hrun =>
    cases h
    exact ⟨s₁, hrun, rfl⟩
  next => cases h

/-- An option and the approval of the program are in the storage of the pallet itself. -/
theorem betanetDispatch_frame {C : Betanet.Config A σ} {call : BetanetCall} {origin : Origin A}
    {part part' : Betanet.State A σ} (h : betanetDispatch C call origin part = .ok part') :
    ∃ handler, part' = { part with handler } := by
  cases call with
  | selectOption option =>
    simp only [betanetDispatch, Betanet.selectOption, bind_eq_ok] at h
    obtain ⟨_, _, _, _, _, _, hpart'⟩ := h
    exact ⟨_, (Except.ok.inj hpart').symm⟩
  | approve =>
    simp only [betanetDispatch, Betanet.approve, bind_eq_ok] at h
    obtain ⟨_, _, _, _, hpart'⟩ := h
    exact ⟨_, (Except.ok.inj hpart').symm⟩

/-- The bridge in the runtime. Only the root dispatches under another origin. -/
def Config.bridge (T : Config A F σ) :
    Chainbridge.Config A (PalletCall A F) (World A σ) where
  accountId := T.bridgeId
  chainId := T.chainId
  proposalLifetime := T.proposalLifetime
  adminOrigin := T.twoThirdsTechnical
  mayDispatchAs origin _ := decide (origin = .root)
  other := palletDispatch T
  otherFrame := by
    intro call origin s s' h
    cases call with
    | swap call =>
      obtain ⟨s₁, hrun, hs'⟩ := swapDispatch_ok h
      rw [hs', Swap.dispatch_frame hrun]
      rfl
    | foreign call => exact T.foreignFrame call origin s s' h
    | claims | xxCmix | xxEconomics | xxCustody | xxBetanetRewards | xxPublic =>
      obtain ⟨part, _, hs'⟩ := through_ok h
      rw [hs']

/-- An extrinsic: a call that fails changes nothing. -/
def applyExtrinsic [DecidableEq F] (T : Config A F σ) (origin : Origin A) (call : Call A F)
    (s : State A F σ) : State A F σ :=
  Chainbridge.applyExtrinsic T.bridge origin call s

/-! ## A mock runtime

Over the reference ledger with schedules, with nothing at stake; the one other call is a remark,
which does nothing. The account `0` is the bridge account, `1` and `2` are the public pots, and
`3` gets the fees; `4` has coins, and the chain `1` is whitelisted. -/

def mockCustody : Custody.Config Nat (VestedLedger Nat) where
  currency := VestedLedger.currency 1
  staking :=
    { bonded := fun _ _ => false
      otherLocks := fun _ _ => 0
      otherwiseMayDie := fun _ _ => true
      forceUnstake := fun _ _ => none
      bond := fun _ _ _ _ => none
      bondExtra := fun _ _ _ => none
      setController := fun _ _ _ => none }
  proxies :=
    { pureAccount := fun who _ index => 100 * who + index
      proxies := fun _ _ => ([], 0)
      remove := fun ledger _ => ledger
      addProxyDelegate := fun _ _ _ _ _ => none }
  payoutFrequency := 100
  custodyDuration := 1000
  governanceCustodyDuration := 500
  custodyProxy := .voting
  adminOrigin o := decide (o = .signed 99)

def mockRuntime : Config Nat Unit (VestedLedger Nat) where
  currency := VestedLedger.currency 1
  bridgeId := 0
  chainId := 5
  proposalLifetime := 100
  twoThirdsTechnical o := decide (o = .signed 99)
  tokenId := Swap.mockNativeTokenId
  betanet := Betanet.mockRuntime
  cmix :=
    { adminOrigin := fun o => decide (o = .signed 99)
      cmixVariablesOrigin := fun o => decide (o = .signed 99)
      rewardByIds := fun ledger _ => ledger
      deductByIds := fun ledger _ => ledger }
  economics := { (Economics.mockRuntime 1).along VestedLedger.ledgerPart with
    rewardsAccountId := 5 }
  custody := mockCustody
  publicFunds := Public.mockConfig
  callKind _ := .other
  foreign _ _ s := .ok s
  foreignFrame := by
    intro _ _ s s' h
    cases h
    rfl
  claims_currency := rfl
  economics_currency := rfl
  custody_currency := rfl
  public_currency := rfl

/-- The account `4` has `balance`. -/
def mockWorld (balance : Nat) : World Nat (VestedLedger Nat) where
  claims := Claims.genesisBuild { claims := [], vesting := [] } () (Betanet.genesisBuild [])
  swap := { swapFee := 100, feeDestination := some 3, events := [], ledger := () }
  xxCmix :=
    { block := 1
      cmixHashes := default
      adminPermission := 0
      schedulingAccount := none
      cmixAddressSpace := 16
      nextCmixVariables := none
      cmixVariables := default
      ledger := ()
      events := [] }
  xxEconomics := Economics.genesisBuild Economics.mockGenesis ()
  xxCustody := Custody.genesisCustodians { custodians := [], teamAllocations := [] } ()
  xxPublic :=
    { block := 1, testnetManager := none, saleManager := none, events := [], ledger := () }
  ledger := { ledger := Ledger.ofList [(4, ⟨balance, 0, 0, true⟩)], schedules := ∅ }

def mockState (balance : Nat) : State Nat Unit (VestedLedger Nat) :=
  applyExtrinsic mockRuntime .root (.whitelistChain 1) (.default (mockWorld balance))

end XXChain.Runtime
