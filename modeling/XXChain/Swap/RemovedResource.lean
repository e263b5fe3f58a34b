import XXChain.Chainbridge.SmallStep
import XXChain.Swap.Model

/-!
# XXChain — transfers of a removed resource

`remove_resource` promises that transfers with the resource will be rejected from then on. The
two votes look the resource up; the three functions that start a transfer out of the chain
look up the destination chain only, and so does `transfer_native` before them.

* **`votes_rejected`** — without the resource no vote is accepted;
* **`transfers_rejected_iff`** — until the resource is set again, all transfers that name it
  are rejected exactly when no chain is whitelisted.
-/

namespace XXChain.Swap

open Chainbridge Relation

variable {A O W σ : Type} [DecidableEq A] [DecidableEq O]

/-! ## Until the resource is set again -/

/-- A small step that does not set the resource. -/
def QuietStep (T : Chainbridge.Config A O W) (id : ResourceId) (s s' : Chainbridge.State A O W) :
    Prop :=
  SmallStep T s s' ∧ ∀ method, registerResource id method s ≠ .ok s'

theorem QuietStep.resource {T : Chainbridge.Config A O W} {id : ResourceId}
    {s s' : Chainbridge.State A O W} (h : QuietStep T id s s')
    (hgone : resourceExists id s = false) : resourceExists id s' = false := by
  obtain ⟨hstep, hquiet⟩ := h
  cases hstep with
  | setResource id' method =>
    have hne : id ≠ id' := by
      rintro rfl
      exact hquiet method rfl
    show ((s.resources.insert id' method).lookup id).isSome = false
    rw [Finmap.lookup_insert_of_ne _ hne]
    exact hgone
  | removeResource id' =>
    show ((s.resources.erase id').lookup id).isSome = false
    by_cases hid : id = id'
    · rw [hid, Finmap.lookup_erase]
      rfl
    · rw [Finmap.lookup_erase_ne hid]
      exact hgone
  | other call origin h =>
    rw [T.otherFrame call origin s s' h]
    exact hgone
  | setThreshold | whitelistChain | addRelayer | removeRelayer | vote | approve | reject | succeed
  | advance => exact hgone

/-- In every state between the removal and the next `set_resource` the resource is gone. -/
theorem resource_gone {T : Chainbridge.Config A O W} {id : ResourceId} {origin : Origin A}
    {s₀ s₁ s : Chainbridge.State A O W} (hremove : removeResource T origin id s₀ = .ok s₁)
    (hrun : ReflTransGen (QuietStep T id) s₁ s) : resourceExists id s = false := by
  have hgone : resourceExists id s₁ = false := by
    simp only [removeResource, unregisterResource, bind_eq_ok] at hremove
    obtain ⟨_, _, hs₁⟩ := hremove
    cases hs₁
    show ((s₀.resources.erase id).lookup id).isSome = false
    rw [Finmap.lookup_erase]
    rfl
  clear hremove
  induction hrun with
  | refl => exact hgone
  | tail _ hlast ih => exact hlast.resource ih

/-! ## Into the chain -/

/-- Whoever votes, and on whatever call, the resource is looked up. -/
theorem votes_rejected {T : Chainbridge.Config A O W} {id : ResourceId}
    {s : Chainbridge.State A O W} (hgone : resourceExists id s = false) (inFavour : Bool)
    (origin : Origin A) (nonce : DepositNonce) (srcId : ChainId) (call : RuntimeCall A O) :
    ∃ e, Chainbridge.dispatch T
      ((⟨nonce, srcId, id, call⟩ : Proposal A O).submission inFavour) origin s = .error e := by
  cases hrun : Chainbridge.dispatch T
      ((⟨nonce, srcId, id, call⟩ : Proposal A O).submission inFavour) origin s with
  | error e => exact ⟨e, rfl⟩
  | ok s' =>
    cases inFavour with
    | true =>
      change acknowledgeProposal T _ origin nonce srcId id call s = .ok s' at hrun
      simp [acknowledgeProposal, bind_eq_ok, hgone] at hrun
    | false =>
      change rejectProposal T _ origin nonce srcId id call s = .ok s' at hrun
      simp [rejectProposal, bind_eq_ok, hgone] at hrun

/-! ## Out of the chain -/

/-- Every bridge transfer that names the resource is rejected: out of the chain, through this
pallet when it is the native token, and into it. -/
structure TransfersRejected (T : Chainbridge.Config A O (Storage A σ)) (P : Config A σ)
    (id : ResourceId) (s : State A O σ) : Prop where
  fungible : ∀ destId recipient amount,
    ∃ e, transferFungible destId id recipient amount s = .error e
  nonfungible : ∀ destId tokenId recipient metadata,
    ∃ e, transferNonfungible destId id tokenId recipient metadata s = .error e
  generic : ∀ destId metadata, ∃ e, transferGeneric destId id metadata s = .error e
  native : id = P.nativeTokenId → ∀ origin amount recipient destId,
    ∃ e, transferNative P T.accountId origin amount recipient destId s = .error e
  acknowledge : ∀ origin nonce srcId call,
    ∃ e, Chainbridge.dispatch T (.acknowledgeProposal nonce srcId id call) origin s = .error e
  reject : ∀ origin nonce srcId call,
    ∃ e, Chainbridge.dispatch T (.rejectProposal nonce srcId id call) origin s = .error e

omit [DecidableEq A] [DecidableEq O] in
theorem transferNative_not_whitelisted {P : Config A σ} {bridgeId : A} {s : State A O σ}
    {destId : ChainId} (hchain : chainWhitelisted destId s = false) (origin : Origin A)
    (amount : Nat) (recipient : List UInt8) :
    ∃ e, transferNative P bridgeId origin amount recipient destId s = .error e := by
  cases hrun : transferNative P bridgeId origin amount recipient destId s with
  | error e => exact ⟨e, rfl⟩
  | ok s' =>
    obtain ⟨_, _, _, _, hlisted, _⟩ := transferNative_steps hrun
    rw [hchain] at hlisted
    cases hlisted

/-- In every state of every run from a removal of the resource to the next `set_resource` for
it: all transfers that name it are rejected if and only if no chain is whitelisted. -/
theorem transfers_rejected_iff (T : Chainbridge.Config A O (Storage A σ)) (P : Config A σ)
    (id : ResourceId) (origin : Origin A) (s₀ s₁ s : State A O σ)
    (hremove : removeResource T origin id s₀ = .ok s₁)
    (hrun : ReflTransGen (QuietStep T id) s₁ s) :
    TransfersRejected T P id s ↔ ∀ destId, chainWhitelisted destId s = false := by
  constructor
  · -- a transfer to a whitelisted chain goes through
    intro h destId
    obtain ⟨e, hfail⟩ := h.generic destId []
    cases hchain : chainWhitelisted destId s with
    | false => rfl
    | true =>
      rw [transferGeneric, hchain] at hfail
      cases hfail
  · intro hnone
    have hvotes := votes_rejected (T := T) (resource_gone hremove hrun)
    refine ⟨fun destId _ _ => ?_, fun destId _ _ _ => ?_, fun destId _ => ?_,
      fun _ origin amount recipient destId =>
        transferNative_not_whitelisted (hnone destId) origin amount recipient,
      hvotes true, hvotes false⟩
    · exact ⟨_, by rw [transferFungible, hnone destId]; rfl⟩
    · exact ⟨_, by rw [transferNonfungible, hnone destId]; rfl⟩
    · exact ⟨_, by rw [transferGeneric, hnone destId]; rfl⟩

/-! ## The native token after its removal -/

/-- The chain `1` is whitelisted, and the native token a resource that is removed again. -/
def mockRemoved : State Nat (Call Nat) (Ledger Nat) :=
  replay mockRuntime [(.root, .whitelistChain 1), (.root, .setResource mockNativeTokenId []),
    (.root, .removeResource mockNativeTokenId)] (.default (mockStorage 1000))

theorem transfers_rejected_iff_mock :
    TransfersRejected mockRuntime mockSwap mockNativeTokenId
      (.default (mockStorage 1000) : State Nat (Call Nat) (Ledger Nat)) := by
  refine (transfers_rejected_iff mockRuntime mockSwap mockNativeTokenId .root
    (.default (mockStorage 1000)) _ _ rfl .refl).mpr fun destId => ?_
  rfl

/-- After the removal the native token still leaves the chain: the transfer is announced with
the removed resource and takes the next nonce. -/
theorem removed_resource_leaves :
    ReachableState mockRuntime mockRemoved ∧
    (∃ s₀, removeResource mockRuntime .root mockNativeTokenId s₀ = .ok mockRemoved) ∧
    ¬TransfersRejected mockRuntime mockSwap mockNativeTokenId mockRemoved ∧
    ∃ s', transferNative mockSwap mockRuntime.accountId (.signed 2) 500 [7] 1 mockRemoved =
        .ok s' ∧
      s'.events = mockRemoved.events ++ [.fungibleTransfer 1 1 mockNativeTokenId 500 [7]] ∧
      s'.chainNonces.lookup 1 = some 1 := by
  have hsent : ∃ s', transferNative mockSwap mockRuntime.accountId (.signed 2) 500 [7] 1
      mockRemoved = .ok s' ∧
      s'.events = mockRemoved.events ++ [.fungibleTransfer 1 1 mockNativeTokenId 500 [7]] ∧
      s'.chainNonces.lookup 1 = some 1 := ⟨_, rfl, rfl, rfl⟩
  refine ⟨(Reachable.of_init (Genesis.default _)).trans (replay_run _ _ _), ⟨_, rfl⟩, ?_, hsent⟩
  intro h
  obtain ⟨s', hok, _⟩ := hsent
  obtain ⟨e, hfail⟩ := h.native rfl (.signed 2) 500 [7] 1
  rw [hok] at hfail
  cases hfail

end XXChain.Swap
