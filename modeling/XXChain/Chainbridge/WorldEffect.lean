import XXChain.Chainbridge.SmallStep

/-!
# XXChain — what the bridge does to the other pallets

The bridge has no storage but its own, and reaches that of the other pallets only through the
proposals it executes, which it dispatches with the origin of its own account.

* **`dispatch_world`** — whoever signs a call of the bridge, the other pallets are changed only
  as the calls of the bridge account change them.
-/

namespace XXChain.Chainbridge

variable {A O W : Type} [DecidableEq A] [DecidableEq O] {T : Config A O W} {R : W → W → Prop}
  {s s' : State A O W} {nonce : DepositNonce} {srcId : ChainId} {prop : RuntimeCall A O}
  {exec : Dispatch A O W} {who : A}

/-- The calls of the pallet itself. -/
def RuntimeCall.ofBridge : RuntimeCall A O → Bool
  | .setThreshold .. | .setResource .. | .removeResource .. | .whitelistChain .. => true
  | .addRelayer .. | .removeRelayer .. => true
  | .acknowledgeProposal .. | .rejectProposal .. | .evalVoteState .. => true
  | .batchAll .. | .batch .. | .dispatchAs .. | .other .. => false

/-- A relation between the storages of the other pallets before and after, which the calls that
the bridge account signs keep, and which goes from step to step. The bridge account does not
dispatch under another origin. -/
structure Carries (T : Config A O W) (R : W → W → Prop) : Prop where
  refl : ∀ w, R w w
  trans : ∀ w₁ w₂ w₃, R w₁ w₂ → R w₂ w₃ → R w₁ w₃
  other : ∀ call s s', T.other call (.signed T.accountId) s = .ok s' → R s.world s'.world
  alone : ∀ origin, T.mayDispatchAs (.signed T.accountId) origin = false

/-- The call of a proposal keeps the relation when the bridge account dispatches it. -/
def ExecCarries (T : Config A O W) (R : W → W → Prop) (exec : Dispatch A O W) : Prop :=
  ∀ s s', exec (.signed T.accountId) s = .ok s' → R s.world s'.world

theorem tryResolveProposal_world (hR : Carries T R) (hexec : ExecCarries T R exec)
    (h : tryResolveProposal T exec nonce srcId prop s = .ok s') : R s.world s'.world := by
  obtain ⟨votes, _, _, _, hdone⟩ := tryResolveProposal_ok h
  rcases hdone with ⟨_, s₁, hrun, hs'⟩ | ⟨_, hs'⟩ | hs'
  · have hkept := hexec _ _ hrun
    rw [hs']
    exact hkept
  · rw [hs']
    exact hR.refl _
  · rw [hs']
    exact hR.refl _

theorem commitVote_world {inFavour : Bool}
    (h : commitVote T who nonce srcId prop inFavour s = .ok s') : s'.world = s.world := by
  obtain ⟨_, _, _, rfl⟩ := commitVote_ok h
  rfl

theorem voteFor_world (hR : Carries T R) (hexec : ExecCarries T R exec)
    (h : voteFor T exec who nonce srcId prop s = .ok s') : R s.world s'.world := by
  simp only [voteFor, bind_eq_ok] at h
  obtain ⟨s₁, hvote, hresolve⟩ := h
  rw [← commitVote_world hvote]
  exact tryResolveProposal_world hR hexec hresolve

theorem voteAgainst_world (hR : Carries T R) (hexec : ExecCarries T R exec)
    (h : voteAgainst T exec who nonce srcId prop s = .ok s') : R s.world s'.world := by
  simp only [voteAgainst, bind_eq_ok] at h
  obtain ⟨s₁, hvote, hresolve⟩ := h
  rw [← commitVote_world hvote]
  exact tryResolveProposal_world hR hexec hresolve

/-- Calls of the bridge signed by anyone, and all calls signed by the bridge account, keep the
relation. The induction is on the call: what a proposal executes is a call inside it, signed by
the bridge account. -/
theorem dispatch_world (hR : Carries T R) {call : RuntimeCall A O} {origin : Origin A}
    (hcall : call.ofBridge = true ∨ origin = .signed T.accountId)
    (h : dispatch T call origin s = .ok s') : R s.world s'.world := by
  induction call generalizing origin s s' with
  | setThreshold threshold =>
    simp only [dispatch, setThreshold, setRelayerThreshold, bind_eq_ok] at h
    obtain ⟨_, _, _, _, hs'⟩ := h
    cases hs'
    exact hR.refl _
  | setResource id method =>
    simp only [dispatch, setResource, registerResource, bind_eq_ok] at h
    obtain ⟨_, _, hs'⟩ := h
    cases hs'
    exact hR.refl _
  | removeResource id =>
    simp only [dispatch, removeResource, unregisterResource, bind_eq_ok] at h
    obtain ⟨_, _, hs'⟩ := h
    cases hs'
    exact hR.refl _
  | whitelistChain id =>
    simp only [dispatch, whitelistChain, whitelist, bind_eq_ok] at h
    obtain ⟨_, _, _, _, _, _, hs'⟩ := h
    cases hs'
    exact hR.refl _
  | addRelayer v =>
    simp only [dispatch, addRelayer, registerRelayer, bind_eq_ok] at h
    obtain ⟨_, _, _, _, hs'⟩ := h
    cases hs'
    exact hR.refl _
  | removeRelayer v =>
    simp only [dispatch, removeRelayer, unregisterRelayer, bind_eq_ok] at h
    obtain ⟨_, _, _, _, hs'⟩ := h
    cases hs'
    exact hR.refl _
  | acknowledgeProposal nonce srcId rId call ih =>
    simp only [dispatch, acknowledgeProposal, bind_eq_ok] at h
    obtain ⟨_, _, _, _, _, _, _, _, hvote⟩ := h
    exact voteFor_world hR (fun _ _ hrun => ih (Or.inr rfl) hrun) hvote
  | rejectProposal nonce srcId rId call ih =>
    simp only [dispatch, rejectProposal, bind_eq_ok] at h
    obtain ⟨_, _, _, _, _, _, _, _, hvote⟩ := h
    exact voteAgainst_world hR (fun _ _ hrun => ih (Or.inr rfl) hrun) hvote
  | evalVoteState nonce srcId prop ih =>
    simp only [dispatch, evalVoteState, bind_eq_ok] at h
    obtain ⟨_, _, hresolve⟩ := h
    exact tryResolveProposal_world hR (fun _ _ hrun => ih (Or.inr rfl) hrun) hresolve
  | batchAll first second ih₁ ih₂ =>
    have horigin := hcall.resolve_left Bool.false_ne_true
    simp only [dispatch, bind_eq_ok] at h
    obtain ⟨s₁, hfirst, hsecond⟩ := h
    exact hR.trans _ _ _ (ih₁ (Or.inr horigin) hfirst) (ih₂ (Or.inr horigin) hsecond)
  | batch first second ih₁ ih₂ =>
    have horigin := hcall.resolve_left Bool.false_ne_true
    simp only [dispatch] at h
    split at h
    · cases h
      exact hR.refl _
    next s₁ hfirst =>
      split at h
      · cases h
        exact ih₁ (Or.inr horigin) hfirst
      next s₂ hsecond =>
        cases h
        exact hR.trans _ _ _ (ih₁ (Or.inr horigin) hfirst) (ih₂ (Or.inr horigin) hsecond)
  | dispatchAs asOrigin call ih =>
    have horigin := hcall.resolve_left Bool.false_ne_true
    simp only [dispatch, horigin, hR.alone asOrigin, Bool.false_eq_true, if_false] at h
    cases h
  | other call =>
    have horigin := hcall.resolve_left Bool.false_ne_true
    rw [dispatch, horigin] at h
    exact hR.other call _ _ h

end XXChain.Chainbridge
