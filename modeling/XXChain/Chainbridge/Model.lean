import Mathlib.Data.Finmap
import XXChain.Frame
import XXChain.Lib.StorageMap
import XXChain.Lib.ThresholdVote

/-!
# XXChain — the ChainBridge pallet

The storage, the dispatchables and the vote handling of `chainbridge/src/lib.rs`, in the
order of the source. Two things go beyond the storage items:

* **`State.history`** is a history variable: every vote, every decision and every execution
  leaves an entry, with the roster and threshold of that moment. Like a storage write it is
  discarded with a dispatchable that fails.
* **`dispatch`** runs a whole runtime call, so that an approved proposal can itself be a
  sequence of bridge calls signed by the bridge account.

The release build wraps machine arithmetic, so `UInt32` and `UInt64` are used as they are.
-/

namespace XXChain.Chainbridge

open ThresholdVote (Entry Outcome Tally)

abbrev ChainId := UInt8
abbrev DepositNonce := UInt64
abbrev ResourceId := Vector UInt8 32

def defaultRelayerThreshold : UInt32 := 1

/-! ## Proposals and their votes -/

inductive ProposalStatus where
  | initiated
  | approved
  | rejected
  deriving DecidableEq, Repr

structure ProposalVotes (A : Type) where
  votesFor : List A
  votesAgainst : List A
  status : ProposalStatus
  expiry : Nat
  deriving DecidableEq, Repr

namespace ProposalVotes

variable {A : Type}

/-- `Default`, with the expiry that `commit_vote` then sets. -/
def new (expiry : Nat) : ProposalVotes A :=
  { votesFor := [], votesAgainst := [], status := .initiated, expiry }

/-- Marks the proposal as approved or rejected when the counts allow it. -/
def tryToComplete (votes : ProposalVotes A) (threshold total : UInt32) :
    ProposalVotes A × ProposalStatus :=
  if threshold.toNat ≤ votes.votesFor.length then
    ({ votes with status := .approved }, .approved)
  else if threshold ≤ total ∧
      total < UInt32.ofNat votes.votesAgainst.length + threshold then
    ({ votes with status := .rejected }, .rejected)
  else
    (votes, .initiated)

def isComplete (votes : ProposalVotes A) : Bool :=
  votes.status != .initiated

def hasVoted [DecidableEq A] (votes : ProposalVotes A) (who : A) : Bool :=
  decide (who ∈ votes.votesFor) || decide (who ∈ votes.votesAgainst)

def isExpired (votes : ProposalVotes A) (now : Nat) : Bool :=
  decide (votes.expiry ≤ now)

end ProposalVotes

/-! ## Calls, events and errors -/

/-- A runtime call: the bridge's own, the ones that dispatch further calls, and those of
the other pallets. `batchAll`, `batch` and `dispatchAs` are the ways of the utility pallet:
both calls or none, the second only after the first with what succeeded kept, and one call
under another origin. A longer batch is a nest of these. -/
inductive RuntimeCall (A O : Type) where
  | setThreshold (threshold : UInt32)
  | setResource (id : ResourceId) (method : List UInt8)
  | removeResource (id : ResourceId)
  | whitelistChain (id : ChainId)
  | addRelayer (v : A)
  | removeRelayer (v : A)
  | acknowledgeProposal (nonce : DepositNonce) (srcId : ChainId) (rId : ResourceId)
      (call : RuntimeCall A O)
  | rejectProposal (nonce : DepositNonce) (srcId : ChainId) (rId : ResourceId)
      (call : RuntimeCall A O)
  | evalVoteState (nonce : DepositNonce) (srcId : ChainId) (prop : RuntimeCall A O)
  | batchAll (first second : RuntimeCall A O)
  | batch (first second : RuntimeCall A O)
  | dispatchAs (asOrigin : Origin A) (call : RuntimeCall A O)
  | other (call : O)
  deriving DecidableEq

/-- The key of `Votes`: the source chain, and the deposit nonce with the call itself. -/
abbrev ProposalKey (A O : Type) := ChainId × DepositNonce × RuntimeCall A O

inductive Event (A : Type) where
  | relayerThresholdChanged (threshold : UInt32)
  | chainWhitelisted (id : ChainId)
  | relayerAdded (relayer : A)
  | relayerRemoved (relayer : A)
  | fungibleTransfer (destId : ChainId) (nonce : DepositNonce) (resourceId : ResourceId)
      (amount : BitVec 256) (recipient : List UInt8)
  | nonFungibleTransfer (destId : ChainId) (nonce : DepositNonce) (resourceId : ResourceId)
      (tokenId recipient metadata : List UInt8)
  | genericTransfer (destId : ChainId) (nonce : DepositNonce) (resourceId : ResourceId)
      (metadata : List UInt8)
  | voteFor (srcId : ChainId) (nonce : DepositNonce) (who : A)
  | voteAgainst (srcId : ChainId) (nonce : DepositNonce) (who : A)
  | proposalApproved (srcId : ChainId) (nonce : DepositNonce)
  | proposalRejected (srcId : ChainId) (nonce : DepositNonce)
  | proposalSucceeded (srcId : ChainId) (nonce : DepositNonce)
  | proposalFailed (srcId : ChainId) (nonce : DepositNonce)
  deriving DecidableEq, Repr

inductive Error where
  | thresholdNotSet
  | invalidChainId
  | invalidThreshold
  | chainNotWhitelisted
  | chainAlreadyWhitelisted
  | resourceDoesNotExist
  | relayerAlreadyExists
  | relayerInvalid
  | mustBeRelayer
  | relayerAlreadyVoted
  | proposalAlreadyExists
  | proposalDoesNotExist
  | proposalNotComplete
  | proposalAlreadyComplete
  | proposalExpired
  deriving DecidableEq, Repr

/-! ## State -/

/-- The storage of the pallet, the block number, the events deposited so far, the storage
`world` of the other pallets and the history variable. -/
structure State (A O W : Type) where
  block : Nat
  chainNonces : StorageMap ChainId DepositNonce
  relayerThreshold : UInt32
  relayers : StorageMap A Bool
  relayerCount : UInt32
  votes : StorageMap (ProposalKey A O) (ProposalVotes A)
  resources : StorageMap ResourceId (List UInt8)
  events : List (Event A)
  world : W
  history : List (Entry (ProposalKey A O) A)

/-- The storage before anything was written to it. -/
def State.default {A O W : Type} (world : W) : State A O W where
  block := 0
  chainNonces := ∅
  relayerThreshold := defaultRelayerThreshold
  relayers := ∅
  relayerCount := 0
  votes := ∅
  resources := ∅
  events := []
  world := world
  history := []

abbrev DispatchResult : Type → Type := Except (DispatchError Error)

/-- How a call is dispatched: under an origin, in a state. -/
abbrev Dispatch (A O W : Type) := Origin A → State A O W → DispatchResult (State A O W)

/-- The runtime the pallet is part of. The other pallets' calls reach the bridge only
through its `transfer_*` functions, so `otherFrame` leaves them the nonces and the events.
A pallet that dispatches the calls of others (a multisig, a proxy, a collective, the scheduler)
reaches more of it, by calls of its own origin: these are steps of a run in their own right, and
not part of the call that started them. Batches and `dispatch_as` are calls here, and nest. -/
structure Config (A O W : Type) where
  accountId : A
  chainId : ChainId
  proposalLifetime : Nat
  adminOrigin : Origin A → Bool
  mayDispatchAs : Origin A → Origin A → Bool
  other : O → Dispatch A O W
  otherFrame : ∀ call origin s s', other call origin s = .ok s' →
    s' = { s with chainNonces := s'.chainNonces, events := s'.events, world := s'.world }

variable {A O W : Type} [DecidableEq A] [DecidableEq O]

def State.depositEvent (s : State A O W) (event : Event A) : State A O W :=
  { s with events := s.events ++ [event] }

/-- Adds to the history variable. -/
def State.record (s : State A O W) (entry : Entry (ProposalKey A O) A) : State A O W :=
  { s with history := entry :: s.history }

/-- How the proposal stands in the terms of the history variable. -/
def ProposalStatus.outcome : ProposalStatus → Outcome
  | .initiated => .pending
  | .approved => .approved
  | .rejected => .rejected

def ProposalVotes.tally (votes : ProposalVotes A) : Tally A where
  inFavour := votes.votesFor
  against := votes.votesAgainst
  outcome := votes.status.outcome
  deadline := votes.expiry

/-! ## Utility methods -/

def ensureAdmin (T : Config A O W) (o : Origin A) : DispatchResult Unit :=
  if T.adminOrigin o then .ok () else ensureRoot o

/-- Checks if `who` is a relayer. -/
def isRelayer (who : A) (s : State A O W) : Bool :=
  (s.relayers.lookup who).getD false

/-- The accounts that are relayers. -/
def relayerSet (s : State A O W) : Finset A :=
  s.relayers.keys.filter fun who => isRelayer who s

def resourceExists (id : ResourceId) (s : State A O W) : Bool :=
  (s.resources.lookup id).isSome

def chainWhitelisted (id : ChainId) (s : State A O W) : Bool :=
  (s.chainNonces.lookup id).isSome

/-- Increments the deposit nonce of the chain. -/
def bumpNonce (id : ChainId) (s : State A O W) : DepositNonce × State A O W :=
  let nonce := (s.chainNonces.lookup id).getD 0 + 1
  (nonce, { s with chainNonces := s.chainNonces.insert id nonce })

/-! ## Admin methods -/

def setRelayerThreshold (threshold : UInt32) (s : State A O W) : DispatchResult (State A O W) := do
  ensure (decide (0 < threshold)) (.module .invalidThreshold)
  .ok ({ s with relayerThreshold := threshold }.depositEvent
    (.relayerThresholdChanged threshold))

def registerResource (id : ResourceId) (method : List UInt8) (s : State A O W) :
    DispatchResult (State A O W) :=
  .ok { s with resources := s.resources.insert id method }

def unregisterResource (id : ResourceId) (s : State A O W) : DispatchResult (State A O W) :=
  .ok { s with resources := s.resources.erase id }

def whitelist (T : Config A O W) (id : ChainId) (s : State A O W) :
    DispatchResult (State A O W) := do
  ensure (id != T.chainId) (.module .invalidChainId)
  ensure (!chainWhitelisted id s) (.module .chainAlreadyWhitelisted)
  .ok ({ s with chainNonces := s.chainNonces.insert id 0 }.depositEvent
    (.chainWhitelisted id))

def registerRelayer (relayer : A) (s : State A O W) : DispatchResult (State A O W) := do
  ensure (!isRelayer relayer s) (.module .relayerAlreadyExists)
  .ok ({ s with
    relayers := s.relayers.insert relayer true
    relayerCount := s.relayerCount + 1 }.depositEvent (.relayerAdded relayer))

def unregisterRelayer (relayer : A) (s : State A O W) : DispatchResult (State A O W) := do
  ensure (isRelayer relayer s) (.module .relayerInvalid)
  .ok ({ s with
    relayers := s.relayers.erase relayer
    relayerCount := s.relayerCount - 1 }.depositEvent (.relayerRemoved relayer))

/-! ## Proposal voting and execution -/

/-- Commits a vote for a proposal, which is created if it does not exist. -/
def commitVote (T : Config A O W) (who : A) (nonce : DepositNonce) (srcId : ChainId)
    (prop : RuntimeCall A O) (inFavour : Bool) (s : State A O W) :
    DispatchResult (State A O W) := do
  let votes := (s.votes.lookup (srcId, nonce, prop)).getD (.new (s.block + T.proposalLifetime))
  ensure (!votes.isComplete) (.module .proposalAlreadyComplete)
  ensure (!votes.isExpired s.block) (.module .proposalExpired)
  ensure (!votes.hasVoted who) (.module .relayerAlreadyVoted)
  let (votes, event) :=
    if inFavour then
      ({ votes with votesFor := votes.votesFor ++ [who] }, Event.voteFor srcId nonce who)
    else
      ({ votes with votesAgainst := votes.votesAgainst ++ [who] },
        Event.voteAgainst srcId nonce who)
  .ok (({ s with votes := s.votes.insert (srcId, nonce, prop) votes }.depositEvent event).record
    (.cast (srcId, nonce, prop) who inFavour (isRelayer who s)))

/-- Executes the proposal under the bridge account and signals the result. An error of the
call is an error of the whole dispatchable. -/
def finalizeExecution (T : Config A O W) (exec : Dispatch A O W) (srcId : ChainId)
    (nonce : DepositNonce) (call : RuntimeCall A O) (s : State A O W) :
    DispatchResult (State A O W) := do
  let s := s.depositEvent (.proposalApproved srcId nonce)
  -- the execution is recorded as it starts, with the votes and the threshold as stored
  let votes := (s.votes.lookup (srcId, nonce, call)).getD (.new 0)
  let s := s.record (.executed (srcId, nonce, call) votes.votesFor s.relayerThreshold.toNat)
  let s ← exec (.signed T.accountId) s
  .ok (s.depositEvent (.proposalSucceeded srcId nonce))

def cancelExecution (srcId : ChainId) (nonce : DepositNonce) (s : State A O W) :
    DispatchResult (State A O W) :=
  .ok (s.depositEvent (.proposalRejected srcId nonce))

/-- Attempts to finalize or cancel the proposal if the vote count allows; `exec` dispatches
the call `prop`. -/
def tryResolveProposal (T : Config A O W) (exec : Dispatch A O W) (nonce : DepositNonce)
    (srcId : ChainId) (prop : RuntimeCall A O) (s : State A O W) : DispatchResult (State A O W) :=
  match s.votes.lookup (srcId, nonce, prop) with
  | none => .error (.module .proposalDoesNotExist)
  | some votes => do
    ensure (!votes.isComplete) (.module .proposalAlreadyComplete)
    ensure (!votes.isExpired s.block) (.module .proposalExpired)
    let (votes, status) := votes.tryToComplete s.relayerThreshold s.relayerCount
    let s := { s with votes := s.votes.insert (srcId, nonce, prop) votes }
    let decided := Entry.decided (srcId, nonce, prop) votes.tally (relayerSet s)
      s.relayerThreshold.toNat
    match status with
    | .approved => finalizeExecution T exec srcId nonce prop (s.record decided)
    | .rejected => cancelExecution srcId nonce (s.record decided)
    | .initiated => .ok s

/-- Commits a vote in favour of the proposal and executes it if the threshold is met. -/
def voteFor (T : Config A O W) (exec : Dispatch A O W) (who : A) (nonce : DepositNonce)
    (srcId : ChainId) (prop : RuntimeCall A O) (s : State A O W) :
    DispatchResult (State A O W) := do
  let s ← commitVote T who nonce srcId prop true s
  tryResolveProposal T exec nonce srcId prop s

/-- Commits a vote against the proposal and cancels it if too many votes against exist. -/
def voteAgainst (T : Config A O W) (exec : Dispatch A O W) (who : A) (nonce : DepositNonce)
    (srcId : ChainId) (prop : RuntimeCall A O) (s : State A O W) :
    DispatchResult (State A O W) := do
  let s ← commitVote T who nonce srcId prop false s
  tryResolveProposal T exec nonce srcId prop s

/-! ## Transfers out of the chain, for other pallets -/

def transferFungible (destId : ChainId) (resourceId : ResourceId) (recipient : List UInt8)
    (amount : BitVec 256) (s : State A O W) : DispatchResult (State A O W) := do
  ensure (chainWhitelisted destId s) (.module .chainNotWhitelisted)
  let (nonce, s) := bumpNonce destId s
  .ok (s.depositEvent (.fungibleTransfer destId nonce resourceId amount recipient))

def transferNonfungible (destId : ChainId) (resourceId : ResourceId)
    (tokenId recipient metadata : List UInt8) (s : State A O W) : DispatchResult (State A O W) := do
  ensure (chainWhitelisted destId s) (.module .chainNotWhitelisted)
  let (nonce, s) := bumpNonce destId s
  .ok (s.depositEvent (.nonFungibleTransfer destId nonce resourceId tokenId recipient metadata))

def transferGeneric (destId : ChainId) (resourceId : ResourceId) (metadata : List UInt8)
    (s : State A O W) : DispatchResult (State A O W) := do
  ensure (chainWhitelisted destId s) (.module .chainNotWhitelisted)
  let (nonce, s) := bumpNonce destId s
  .ok (s.depositEvent (.genericTransfer destId nonce resourceId metadata))

/-! ## Dispatchables -/

def setThreshold (T : Config A O W) (origin : Origin A) (threshold : UInt32)
    (s : State A O W) : DispatchResult (State A O W) := do
  ensureAdmin T origin
  setRelayerThreshold threshold s

def setResource (T : Config A O W) (origin : Origin A) (id : ResourceId)
    (method : List UInt8) (s : State A O W) : DispatchResult (State A O W) := do
  ensureAdmin T origin
  registerResource id method s

def removeResource (T : Config A O W) (origin : Origin A) (id : ResourceId)
    (s : State A O W) : DispatchResult (State A O W) := do
  ensureAdmin T origin
  unregisterResource id s

def whitelistChain (T : Config A O W) (origin : Origin A) (id : ChainId)
    (s : State A O W) : DispatchResult (State A O W) := do
  ensureAdmin T origin
  whitelist T id s

def addRelayer (T : Config A O W) (origin : Origin A) (v : A) (s : State A O W) :
    DispatchResult (State A O W) := do
  ensureAdmin T origin
  registerRelayer v s

def removeRelayer (T : Config A O W) (origin : Origin A) (v : A) (s : State A O W) :
    DispatchResult (State A O W) := do
  ensureAdmin T origin
  unregisterRelayer v s

def acknowledgeProposal (T : Config A O W) (exec : Dispatch A O W) (origin : Origin A)
    (nonce : DepositNonce) (srcId : ChainId) (rId : ResourceId) (call : RuntimeCall A O)
    (s : State A O W) : DispatchResult (State A O W) := do
  let who ← ensureSigned origin
  ensure (isRelayer who s) (.module .mustBeRelayer)
  ensure (chainWhitelisted srcId s) (.module .chainNotWhitelisted)
  ensure (resourceExists rId s) (.module .resourceDoesNotExist)
  voteFor T exec who nonce srcId call s

def rejectProposal (T : Config A O W) (exec : Dispatch A O W) (origin : Origin A)
    (nonce : DepositNonce) (srcId : ChainId) (rId : ResourceId) (call : RuntimeCall A O)
    (s : State A O W) : DispatchResult (State A O W) := do
  let who ← ensureSigned origin
  ensure (isRelayer who s) (.module .mustBeRelayer)
  ensure (chainWhitelisted srcId s) (.module .chainNotWhitelisted)
  ensure (resourceExists rId s) (.module .resourceDoesNotExist)
  voteAgainst T exec who nonce srcId call s

/-- Evaluates the proposal given the current vote threshold. -/
def evalVoteState (T : Config A O W) (exec : Dispatch A O W) (origin : Origin A)
    (nonce : DepositNonce) (srcId : ChainId) (prop : RuntimeCall A O) (s : State A O W) :
    DispatchResult (State A O W) := do
  let _ ← ensureSigned origin
  tryResolveProposal T exec nonce srcId prop s

/-- Dispatches a runtime call. A proposal is dispatched by the same function, so the calls
it makes see, and change, the storage in the middle of the call that executes it. -/
def dispatch (T : Config A O W) : RuntimeCall A O → Dispatch A O W
  | .setThreshold threshold, origin, s => setThreshold T origin threshold s
  | .setResource id method, origin, s => setResource T origin id method s
  | .removeResource id, origin, s => removeResource T origin id s
  | .whitelistChain id, origin, s => whitelistChain T origin id s
  | .addRelayer v, origin, s => addRelayer T origin v s
  | .removeRelayer v, origin, s => removeRelayer T origin v s
  | .acknowledgeProposal nonce srcId rId call, origin, s =>
    acknowledgeProposal T (dispatch T call) origin nonce srcId rId call s
  | .rejectProposal nonce srcId rId call, origin, s =>
    rejectProposal T (dispatch T call) origin nonce srcId rId call s
  | .evalVoteState nonce srcId prop, origin, s =>
    evalVoteState T (dispatch T prop) origin nonce srcId prop s
  | .batchAll first second, origin, s => do
    let s ← dispatch T first origin s
    dispatch T second origin s
  | .batch first second, origin, s =>
    match dispatch T first origin s with
    | .error _ => .ok s
    | .ok s₁ =>
      match dispatch T second origin s₁ with
      | .error _ => .ok s₁
      | .ok s₂ => .ok s₂
  | .dispatchAs asOrigin call, origin, s =>
    if T.mayDispatchAs origin asOrigin then
      match dispatch T call asOrigin s with
      | .error _ => .ok s
      | .ok s' => .ok s'
    else .error .badOrigin
  | .other call, origin, s => T.other call origin s

/-! ## Genesis and runs -/

/-- The bridge part of the swap pallet's genesis build, `initialize`. -/
def initializeBridge (T : Config A O W) (chains : List ChainId) (relayers : List A)
    (resources : List (ResourceId × List UInt8)) (threshold : UInt32) (s : State A O W) :
    DispatchResult (State A O W) := do
  let s ← chains.foldlM (fun s c => whitelist T c s) s
  let s ← relayers.foldlM (fun s rs => registerRelayer rs s) s
  let s ← resources.foldlM (fun s entry => registerResource entry.1 entry.2 s) s
  setRelayerThreshold threshold s

/-- A genesis state: the default storage, as in a runtime without the swap pallet, or what
the swap pallet's genesis build makes of it. -/
inductive Genesis (T : Config A O W) : State A O W → Prop where
  | default (world : W) : Genesis T (State.default world)
  | swap (world : W) (chains : List ChainId) (relayers : List A)
      (resources : List (ResourceId × List UInt8)) (threshold : UInt32) (s : State A O W)
      (h : initializeBridge T chains relayers resources threshold (State.default world) = .ok s) :
      Genesis T s

/-- An extrinsic or a scheduled call: one that fails changes nothing. -/
def applyExtrinsic (T : Config A O W) (origin : Origin A) (call : RuntimeCall A O)
    (s : State A O W) : State A O W :=
  match dispatch T call origin s with
  | .ok s' => s'
  | .error _ => s

/-- A later block starts; the hooks of the other pallets may change their own storage. -/
def advance (block : Nat) (world : W) (s : State A O W) : State A O W :=
  { s with block, world }

inductive Step (T : Config A O W) : State A O W → State A O W → Prop where
  | extrinsic (origin : Origin A) (call : RuntimeCall A O) (s : State A O W) :
      Step T s (applyExtrinsic T origin call s)
  | advance (block : Nat) (world : W) (s : State A O W) (hlater : s.block < block) :
      Step T s (advance block world s)

/-- The state after a list of extrinsics, each with its origin. -/
def replay (T : Config A O W) (calls : List (Origin A × RuntimeCall A O)) (s : State A O W) :
    State A O W :=
  calls.foldl (fun s call => applyExtrinsic T call.1 call.2 s) s

/-- The states of all runs of the pallet from genesis. -/
abbrev ReachableState (T : Config A O W) : State A O W → Prop :=
  Reachable (Genesis T) (Step T)

theorem replay_run (T : Config A O W) (calls : List (Origin A × RuntimeCall A O))
    (s : State A O W) : Relation.ReflTransGen (Step T) s (replay T calls s) := by
  induction calls generalizing s with
  | nil => exact .refl
  | cons call calls ih => exact .head (.extrinsic call.1 call.2 s) (ih _)

/-! ## The runtime of the pallet's tests

`chainbridge/src/mock.rs`: the account `0` stands for the bridge account, `2`, `3` and `4`
are its relayers. -/

def mockRuntime : Config Nat Empty Unit where
  accountId := 0
  chainId := 5
  proposalLifetime := 50
  adminOrigin o := o = .root
  mayDispatchAs _ _ := false
  other call := nomatch call
  otherFrame call := nomatch call

/-- `new_test_ext_initialized` for the source chain `1`. -/
def mockSetup (rId : ResourceId) : List (Origin Nat × RuntimeCall Nat Empty) :=
  [(.root, .setThreshold 2), (.root, .addRelayer 2), (.root, .addRelayer 3),
    (.root, .addRelayer 4), (.root, .whitelistChain 1), (.root, .setResource rId [])]

/-- A call that succeeds, whoever dispatches it. -/
def mockCall : RuntimeCall Nat Empty :=
  .batch (.addRelayer 9) (.addRelayer 9)

/-- The state after `calls`, from the state of the tests. -/
def mockRun (calls : List (Origin Nat × RuntimeCall Nat Empty)) : State Nat Empty Unit :=
  replay mockRuntime (mockSetup (Vector.replicate 32 0) ++ calls) (State.default ())

theorem mockRun_reachable (calls : List (Origin Nat × RuntimeCall Nat Empty)) :
    ReachableState mockRuntime (mockRun calls) :=
  (Reachable.of_init (Genesis.default ())).trans (replay_run _ _ _)

end XXChain.Chainbridge
