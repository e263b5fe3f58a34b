import XXChain.Chainbridge.OutboundNonces
import XXChain.Swap.Model

/-!
# XXChain — the nonces of a runtime with the swap pallet

`transfer_native` starts its bridge transfer as the last of its steps, and is the only call of
the pallet that does.

* **`runtime_transfersOnly`** — the pallet reaches the nonces through `transfer_fungible` only;
* **`outbound_nonces_in_order`** — over every run of extrinsics and of transfers that other
  pallets start, each destination chain gets the nonces `1, 2, 3, …`.
-/

namespace XXChain.Swap

open Chainbridge Relation

variable {A O σ : Type} {P : Config A σ} {bridgeId : A}

/-- What a native transfer that succeeds has done to the bridge: a transfer, after writes to the
storage of the other pallets. -/
theorem transferNative_bridge {origin : Origin A} {amount : Nat} {recipient : List UInt8}
    {destId : ChainId} {s s' : State A O σ}
    (h : transferNative P bridgeId origin amount recipient destId s = .ok s') :
    ∃ world, (Transfer.fungible destId P.nativeTokenId recipient
      (.ofNat 256 (min amount (balanceLimit - 1)))).run { s with world } = .ok s' := by
  obtain ⟨_, _, s₂, _, _, _, _, hframe, hsent⟩ := transferNative_steps h
  refine ⟨s₂.world, ?_⟩
  rw [← hframe]
  exact hsent

theorem dispatch_issuer (T : Chainbridge.Config A O (Storage A σ)) {call : Call A}
    {origin : Origin A} {s s' : State A O σ} (h : dispatch P bridgeId call origin s = .ok s') :
    ReflTransGen (NonceStep T) (issuer s) (issuer s') := by
  cases call with
  | transferNative amount recipient destId =>
    obtain ⟨world, hrun⟩ := transferNative_bridge h
    -- the issuer does not see the storage of the other pallets
    have hstep : NonceStep T (issuer s) (issuer s') :=
      issuer_transfer (s := { s with world }) T hrun
    exact .single hstep
  | transfer dest amount =>
    simp only [dispatch, transfer] at h
    cases hbridge : P.bridgeOrigin origin with
    | none => simp [hbridge] at h
    | some source =>
      rw [hbridge] at h
      rw [currencyTransfer_frame h]
      exact .refl
  | setSwapFee fee =>
    simp only [dispatch, setSwapFee, bind_eq_ok] at h
    obtain ⟨_, _, h⟩ := h
    cases h
    exact .refl
  | setFeeDestination dest =>
    simp only [dispatch, setFeeDestination, bind_eq_ok] at h
    obtain ⟨_, _, h⟩ := h
    cases h
    exact .refl

theorem runtime_transfersOnly (P : Config A σ) (bridgeId : A) (chainId : ChainId)
    (proposalLifetime : Nat) (adminOrigin : Origin A → Bool)
    (mayDispatchAs : Origin A → Origin A → Bool) :
    (runtime P bridgeId chainId proposalLifetime adminOrigin mayDispatchAs).TransfersOnly := by
  intro call origin s s' h
  cases hrun : dispatch P bridgeId call origin s with
  | ok s₁ =>
    simp only [runtime, hrun] at h
    cases h
    exact dispatch_issuer _ hrun
  | error e => simp [runtime, hrun] at h

variable [DecidableEq A]

/-- A native transfer bumps the nonce of its own destination only. -/
theorem transferNative_other_chain {chainId : ChainId} {proposalLifetime : Nat}
    {adminOrigin : Origin A → Bool} {mayDispatchAs : Origin A → Origin A → Bool}
    (origin : Origin A) (amount : Nat) (recipient : List UInt8) {destId chain : ChainId}
    (s : State A (Call A) σ) (hne : chain ≠ destId) :
    (applyExtrinsic (runtime P bridgeId chainId proposalLifetime adminOrigin mayDispatchAs)
      origin (.other (.transferNative amount recipient destId)) s).chainNonces.lookup chain =
      s.chainNonces.lookup chain := by
  unfold applyExtrinsic
  cases hrun : transferNative P bridgeId origin amount recipient destId s with
  | error e => simp [Chainbridge.dispatch, runtime, dispatch, hrun]
  | ok s' =>
    obtain ⟨world, htransfer⟩ := transferNative_bridge hrun
    obtain ⟨nonce, _, hs'⟩ := Transfer.run_ok htransfer
    simp only [Chainbridge.dispatch, runtime, dispatch, hrun]
    rw [hs']
    exact Finmap.lookup_insert_of_ne _ hne

/-- The nonces of a state and of one later in the same run. -/
structure OutboundNonces (T : Chainbridge.Config A (Call A) (Storage A σ))
    (s s' : State A (Call A) σ) : Prop where
  earlier : NoncesInOrder T s
  later : NoncesInOrder T s'
  kept : ∀ chain nonce, s.chainNonces.lookup chain = some nonce →
    ∃ nonce', s'.chainNonces.lookup chain = some nonce' ∧ nonce ≤ nonce'
  transfers : ∀ (t : Transfer) (chain : ChainId), chain ≠ t.destId →
    (applyTransfer t s').chainNonces.lookup chain = s'.chainNonces.lookup chain
  natives : ∀ origin amount recipient destId chain, chain ≠ destId →
    (applyExtrinsic T origin (.other (.transferNative amount recipient destId))
      s').chainNonces.lookup chain = s'.chainNonces.lookup chain
  relisted : ∀ chain origin, chainWhitelisted chain s' = true →
    applyExtrinsic T origin (.whitelistChain chain) s' = s'

/-- For every run from genesis, successful or failing, with fewer than `2 ^ 64` transfers, and
each point of it: the nonces of each destination chain are `1, 2, 3, …` in the order of their
events, and as many as `ChainNonces` says; a transfer leaves the nonces of other chains alone;
a listed chain stays listed with a nonce that does not fall, and is not whitelisted again; and
the own chain never has a nonce. -/
theorem outbound_nonces_in_order (P : Config A σ) (bridgeId : A) (chainId : ChainId)
    (proposalLifetime : Nat) (adminOrigin : Origin A → Bool)
    (mayDispatchAs : Origin A → Origin A → Bool)
    (T : Chainbridge.Config A (Call A) (Storage A σ))
    (hT : T = runtime P bridgeId chainId proposalLifetime adminOrigin mayDispatchAs)
    (s₀ s s' : State A (Call A) σ) (h₀ : Genesis T s₀)
    (before after : List (Action A (Call A) (Storage A σ)))
    (hs : s = before.foldl (next T) s₀) (hs' : s' = after.foldl (next T) s)
    (hfew : (s'.events.filterMap Event.sent).length < 2 ^ 64) : OutboundNonces T s s' := by
  have honly : T.TransfersOnly := by
    rw [hT]
    exact runtime_transfersOnly P bridgeId chainId proposalLifetime adminOrigin mayDispatchAs
  have hsound : SoundIssuer T s := by
    rw [hs]
    exact sound_run honly h₀ before
  have hrun : ReflTransGen (NonceStep T) (issuer s) (issuer s') := by
    rw [hs']
    exact run_issuer honly s after
  have hextends := SequenceNumbers.run_extends hrun
  have hearlier : NoncesInOrder T s :=
    noncesInOrder_of_sound hsound (hextends.log.length_le.trans_lt hfew)
  have hlater : NoncesInOrder T s' := noncesInOrder_of_sound (hsound.run hrun) hfew
  constructor
  case earlier => exact hearlier
  case later => exact hlater
  case kept => exact fun chain nonce hnonce => nonce_kept hearlier hlater hextends hnonce
  case transfers => exact fun t chain hne => transfer_other_chain t hne
  case natives =>
    intro origin amount recipient destId chain hne
    rw [hT]
    exact transferNative_other_chain origin amount recipient s' hne
  case relisted => exact fun chain origin hlisted => whitelist_again hlisted origin

/-- The chain `1` is listed and gets a native and a generic transfer; the chain `2` is not. -/
def mockBefore : List (Action Nat (Call Nat) (Storage Nat (Ledger Nat))) :=
  [.extrinsic .root (.whitelistChain 1),
    .extrinsic (.signed 2) (.other (.transferNative 500 [7] 1)),
    .transfer (.generic 2 mockNativeTokenId []), .transfer (.generic 1 mockNativeTokenId [])]

/-- Both chains are listed, the chain `1` again, and get a transfer each. -/
def mockAfter : List (Action Nat (Call Nat) (Storage Nat (Ledger Nat))) :=
  [.extrinsic .root (.whitelistChain 2), .extrinsic .root (.whitelistChain 1),
    .transfer (.nonfungible 2 mockNativeTokenId [] [] []),
    .extrinsic (.signed 2) (.other (.transferNative 500 [7] 1))]

theorem outbound_nonces_mock :
    let s := mockBefore.foldl (next mockRuntime) (State.default (mockStorage 10000))
    let s' := mockAfter.foldl (next mockRuntime) s
    OutboundNonces mockRuntime s s' ∧ sentNonces 1 s' = [1, 2, 3] ∧ sentNonces 2 s' = [1] :=
  ⟨outbound_nonces_in_order mockSwap 0 5 100 _ _ mockRuntime rfl _ _ _ (.default _) mockBefore
    mockAfter rfl rfl (by decide), by decide, by decide⟩

end XXChain.Swap
