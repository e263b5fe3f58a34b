import XXChain.Chainbridge.Model
import XXChain.Lib.Ledger

/-!
# XXChain — the swap pallet

`swap/src/lib.rs`: the native token leaves the chain through `transfer_native`, which pays a
fee, moves the amount to the bridge account and starts a bridge transfer, and comes back
through `transfer`, which the bridge account calls. The pallet works on the storage of the
bridge and on its own, which is the bridge's `world` together with the state `ledger` of the
currency.

Balances wrap where the source adds without a check.
-/

namespace XXChain.Swap

open Chainbridge (ChainId ResourceId RuntimeCall)

/-- The calls of the pallet. -/
inductive Call (A : Type) where
  | transferNative (amount : Nat) (recipient : List UInt8) (destId : ChainId)
  | transfer (dest : A) (amount : Nat)
  | setSwapFee (fee : Nat)
  | setFeeDestination (dest : A)
  deriving DecidableEq, Repr

inductive Event (A : Type) where
  | feeChanged (fee : Nat)
  | feeDestinationChanged (dest : A)
  deriving DecidableEq, Repr

inductive Error where
  | destinationNotWhitelisted
  | insufficientBalance
  deriving DecidableEq, Repr

/-- The storage of the pallet, its events and the state of the currency. -/
structure Storage (A σ : Type) where
  swapFee : Nat
  feeDestination : Option A
  events : List (Event A)
  ledger : σ

/-- `bridgeOrigin` returns the account of an origin that only the bridge can have. -/
structure Config (A σ : Type) where
  currency : Currency A σ
  nativeTokenId : ResourceId
  bridgeOrigin : Origin A → Option A
  adminOrigin : Origin A → Bool

abbrev DispatchResult : Type → Type := Except (DispatchError Error)

/-- The bridge with the storage of this pallet in its world. -/
abbrev State (A O σ : Type) := Chainbridge.State A O (Storage A σ)

variable {A O σ : Type}

def ensureAdmin (P : Config A σ) (o : Origin A) : DispatchResult Unit :=
  if P.adminOrigin o then .ok () else ensureRoot o

def putStorage (storage : Storage A σ) (s : State A O σ) : State A O σ :=
  { s with world := storage }

/-- A transfer of the currency that lets the source account die. -/
def currencyTransfer (P : Config A σ) (source dest : A) (amount : Nat) (s : State A O σ) :
    DispatchResult (State A O σ) :=
  match P.currency.transfer s.world.ledger source dest amount with
  | some ledger => .ok (putStorage { s.world with ledger } s)
  | none => .error (.foreign 0)

/-- The fee goes to the configured destination, if there is one. -/
def payFee (P : Config A σ) (source : A) (fee : Nat) (s : State A O σ) :
    DispatchResult (State A O σ) :=
  match s.world.feeDestination with
  | some dest => currencyTransfer P source dest fee s
  | none => .ok s

/-- Transfers an amount of the native token to a recipient on a whitelisted chain. -/
def transferNative (P : Config A σ) (bridgeId : A) (origin : Origin A) (amount : Nat)
    (recipient : List UInt8) (destId : ChainId) (s : State A O σ) :
    DispatchResult (State A O σ) := do
  let source ← ensureSigned origin
  ensure (Chainbridge.chainWhitelisted destId s) (.module .destinationNotWhitelisted)
  let fee := s.world.swapFee
  let balance := P.currency.freeBalance s.world.ledger source
  -- the sum of two balances wraps
  ensure (decide ((amount + fee) % balanceLimit ≤ balance)) (.module .insufficientBalance)
  let s ← payFee P source fee s
  let s ← currencyTransfer P source bridgeId amount s
  let amount := min amount (balanceLimit - 1)
  match Chainbridge.transferFungible destId P.nativeTokenId recipient (.ofNat 256 amount) s with
  | .ok s => .ok s
  | .error e => .error e.abroad

/-- Executes a currency transfer from the bridge account. -/
def transfer (P : Config A σ) (origin : Origin A) (dest : A) (amount : Nat) (s : State A O σ) :
    DispatchResult (State A O σ) :=
  match P.bridgeOrigin origin with
  | some source => currencyTransfer P source dest amount s
  | none => .error .badOrigin

def setSwapFee (P : Config A σ) (origin : Origin A) (fee : Nat) (s : State A O σ) :
    DispatchResult (State A O σ) := do
  ensureAdmin P origin
  .ok (putStorage { s.world with
    swapFee := fee
    events := s.world.events ++ [.feeChanged fee] } s)

def setFeeDestination (P : Config A σ) (origin : Origin A) (dest : A) (s : State A O σ) :
    DispatchResult (State A O σ) := do
  ensureAdmin P origin
  .ok (putStorage { s.world with
    feeDestination := some dest
    events := s.world.events ++ [.feeDestinationChanged dest] } s)

def dispatch (P : Config A σ) (bridgeId : A) (call : Call A) (origin : Origin A)
    (s : State A O σ) : DispatchResult (State A O σ) :=
  match call with
  | .transferNative amount recipient destId =>
    transferNative P bridgeId origin amount recipient destId s
  | .transfer dest amount => transfer P origin dest amount s
  | .setSwapFee fee => setSwapFee P origin fee s
  | .setFeeDestination dest => setFeeDestination P origin dest s

/-! ## As a part of the runtime -/

theorem currencyTransfer_frame {P : Config A σ} {source dest : A} {amount : Nat}
    {s s' : State A O σ} (h : currencyTransfer P source dest amount s = .ok s') :
    s' = { s with world := s'.world } := by
  unfold currencyTransfer at h
  split at h
  · cases h
    rfl
  · cases h

theorem payFee_frame {P : Config A σ} {source : A} {fee : Nat} {s s' : State A O σ}
    (h : payFee P source fee s = .ok s') : s' = { s with world := s'.world } := by
  unfold payFee at h
  split at h
  · exact currencyTransfer_frame h
  · cases h
    rfl

/-- The steps of a native transfer that succeeds: fee and amount are paid on a state that is the
bridge's with other storage in its world, and then the bridge sends. -/
theorem transferNative_steps {P : Config A σ} {bridgeId : A} {origin : Origin A} {amount : Nat}
    {recipient : List UInt8} {destId : ChainId} {s s' : State A O σ}
    (h : transferNative P bridgeId origin amount recipient destId s = .ok s') :
    ∃ source s₁ s₂, origin = .signed source ∧ Chainbridge.chainWhitelisted destId s = true ∧
      payFee P source s.world.swapFee s = .ok s₁ ∧
      currencyTransfer P source bridgeId amount s₁ = .ok s₂ ∧ s₂ = { s with world := s₂.world } ∧
      Chainbridge.transferFungible destId P.nativeTokenId recipient
        (.ofNat 256 (min amount (balanceLimit - 1))) s₂ = .ok s' := by
  simp only [transferNative, bind_eq_ok, ensureSigned_eq_ok, ensure_eq_ok] at h
  obtain ⟨source, horigin, _, hlisted, _, _, s₁, hfee, s₂, hmove, h⟩ := h
  have hframe : s₂ = { s with world := s₂.world } := by
    rw [currencyTransfer_frame hmove, payFee_frame hfee]
  refine ⟨source, s₁, s₂, horigin, hlisted, hfee, hmove, hframe, ?_⟩
  cases hbridge : Chainbridge.transferFungible destId P.nativeTokenId recipient
      (.ofNat 256 (min amount (balanceLimit - 1))) s₂ with
  | error e => simp [hbridge] at h
  | ok s₃ =>
    simp only [hbridge] at h
    cases h
    rfl

/-- A call of this pallet changes nothing of the bridge but its nonces and events. -/
theorem dispatch_frame {P : Config A σ} {bridgeId : A} {call : Call A} {origin : Origin A}
    {s s' : State A O σ} (h : dispatch P bridgeId call origin s = .ok s') :
    s' = { s with chainNonces := s'.chainNonces, events := s'.events, world := s'.world } := by
  cases call with
  | transferNative amount recipient destId =>
    obtain ⟨source, s₁, s₂, _, _, _, _, hframe, hsent⟩ := transferNative_steps h
    simp only [Chainbridge.transferFungible, bind_eq_ok] at hsent
    obtain ⟨_, _, hs'⟩ := hsent
    cases hs'
    rw [hframe]
    rfl
  | transfer dest amount =>
    simp only [dispatch, transfer] at h
    split at h
    · rw [currencyTransfer_frame h]
    · cases h
  | setSwapFee fee =>
    simp only [dispatch, setSwapFee, bind_eq_ok] at h
    obtain ⟨_, _, h⟩ := h
    cases h
    rfl
  | setFeeDestination dest =>
    simp only [dispatch, setFeeDestination, bind_eq_ok] at h
    obtain ⟨_, _, h⟩ := h
    cases h
    rfl

/-- A runtime with the bridge and this pallet. -/
def runtime (P : Config A σ) (bridgeId : A) (chainId : ChainId) (proposalLifetime : Nat)
    (adminOrigin : Origin A → Bool) (mayDispatchAs : Origin A → Origin A → Bool) :
    Chainbridge.Config A (Call A) (Storage A σ) where
  accountId := bridgeId
  chainId := chainId
  proposalLifetime := proposalLifetime
  adminOrigin := adminOrigin
  mayDispatchAs := mayDispatchAs
  other call origin s :=
    match dispatch P bridgeId call origin s with
    | .ok s' => .ok s'
    | .error e => .error e.abroad
  otherFrame := by
    intro call origin s s' h
    split at h
    next hrun =>
      cases h
      exact dispatch_frame hrun
    next => cases h

/-! ## The runtime of the pallet's tests

`swap/src/mock.rs`: the account `0` stands for the bridge account; the fee goes to `1`. -/

/-- The name of the native token, derived from its hash in the source. -/
def mockNativeTokenId : ResourceId := Vector.replicate 32 1

def mockSwap : Config Nat (Ledger Nat) where
  currency := Ledger.currency 1
  nativeTokenId := mockNativeTokenId
  bridgeOrigin o := if o = .signed 0 then some 0 else none
  adminOrigin o := decide (o = .signed 0)

def mockRuntime : Chainbridge.Config Nat (Call Nat) (Storage Nat (Ledger Nat)) :=
  runtime mockSwap 0 5 100 (fun o => decide (o = .root)) (fun _ _ => false)

/-- `new_test_ext`, with the account `2` endowed. -/
def mockStorage (balance : Nat) : Storage Nat (Ledger Nat) where
  swapFee := 100
  feeDestination := some 1
  events := []
  ledger := Ledger.ofList [(2, ⟨balance, 0, 0, true⟩)]

end XXChain.Swap
