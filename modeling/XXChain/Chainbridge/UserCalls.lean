import XXChain.Chainbridge.Journal

/-!
# XXChain — what the calls of users keep

The users of the chain have no power over the bridge: they are no admins, and dispatch under no
other origin. Nor has the bridge account, as which the proposals are executed. So all that their
calls do to the pallet is to vote and to resolve, in whatever way they are nested.

* **`CallRule.dispatch`** — what voting and resolving keep, every call of theirs keeps.
-/

namespace XXChain.Chainbridge

variable {A O W : Type}

/-- The origin is of no admin, and dispatches under no other. -/
structure Powerless (T : Config A O W) (origin : Origin A) : Prop where
  admin : T.adminOrigin origin = false
  root : origin ≠ .root
  dispatchAs : ∀ asOrigin, T.mayDispatchAs origin asOrigin = false

theorem Powerless.not_admin {T : Config A O W} {origin : Origin A} (h : Powerless T origin) :
    ensureAdmin T origin ≠ .ok () := by
  unfold ensureAdmin
  rw [h.admin, if_neg Bool.false_ne_true]
  intro hroot
  exact h.root (ensureRoot_eq_ok.mp hroot)

variable [DecidableEq A] [DecidableEq O]

/-- The execution of a proposal keeps the invariant. -/
def ExecKeeps (T : Config A O W) (I : State A O W → Prop) (exec : Dispatch A O W) : Prop :=
  ∀ s s', I s → exec (.signed T.accountId) s = .ok s' → I s'

/-- What has to be checked of an invariant, if `C` is asked of the calls: that it does not depend on
the other pallets, and that a vote with the resolution after it keeps it, and so an evaluation. -/
structure CallRule (T : Config A O W) (I : State A O W → Prop)
    (C : Origin A → RuntimeCall A O → Prop) : Prop where
  frame : ∀ s s', I s → s' = { s with
    chainNonces := s'.chainNonces, events := s'.events, world := s'.world } → I s'
  parts : ∀ origin first second,
    C origin (.batchAll first second) ∨ C origin (.batch first second) →
    C origin first ∧ C origin second
  executed : ∀ call, C (.signed T.accountId) call
  vote : ∀ (exec : Dispatch A O W) (p : Proposal A O) (inFavour : Bool) (who : A)
    (s s₁ s' : State A O W), ExecKeeps T I exec → C (.signed who) (p.submission inFavour) →
    isRelayer who s = true → I s → commitVote T who p.nonce p.srcId p.call inFavour s = .ok s₁ →
    tryResolveProposal T exec p.nonce p.srcId p.call s₁ = .ok s' → I s'
  evaluate : ∀ (exec : Dispatch A O W) (nonce : DepositNonce) (srcId : ChainId)
    (prop : RuntimeCall A O) (s s' : State A O W), ExecKeeps T I exec → I s →
    tryResolveProposal T exec nonce srcId prop s = .ok s' → I s'

variable {T : Config A O W} {I : State A O W → Prop} {C : Origin A → RuntimeCall A O → Prop}

/-- **The rule.** The induction is on the call: a proposal is a call inside the one that votes for
it, and is executed as the bridge account. -/
theorem CallRule.dispatch (hR : CallRule T I C) (hbridge : Powerless T (.signed T.accountId))
    (call : RuntimeCall A O) {origin : Origin A} {s s' : State A O W}
    (hpower : Powerless T origin) (hcall : C origin call) (hs : I s)
    (h : Chainbridge.dispatch T call origin s = .ok s') : I s' := by
  induction call generalizing origin s s' with
  | setThreshold | setResource | removeResource | whitelistChain | addRelayer | removeRelayer
  | other =>
    rcases executes_cases ⟨rfl, h⟩ with ⟨pallet, _, hrun⟩ | hadmin
    · exact hR.frame s s' hs (T.otherFrame pallet origin s s' hrun)
    · exact absurd hadmin.admin hpower.not_admin
  | acknowledgeProposal nonce srcId rId call ih =>
    have hexec : ExecKeeps T I (Chainbridge.dispatch T call) :=
      fun _ _ hs hrun => ih hbridge (hR.executed call) hs hrun
    simp only [Chainbridge.dispatch, acknowledgeProposal, voteFor, bind_eq_ok, ensure_eq_ok,
      ensureSigned_eq_ok] at h
    obtain ⟨who, rfl, _, hrelayer, _, _, _, _, s₁, hcommit, hresolve⟩ := h
    exact hR.vote _ ⟨nonce, srcId, rId, call⟩ true who s s₁ s' hexec hcall hrelayer hs hcommit
      hresolve
  | rejectProposal nonce srcId rId call ih =>
    have hexec : ExecKeeps T I (Chainbridge.dispatch T call) :=
      fun _ _ hs hrun => ih hbridge (hR.executed call) hs hrun
    simp only [Chainbridge.dispatch, rejectProposal, voteAgainst, bind_eq_ok, ensure_eq_ok,
      ensureSigned_eq_ok] at h
    obtain ⟨who, rfl, _, hrelayer, _, _, _, _, s₁, hcommit, hresolve⟩ := h
    exact hR.vote _ ⟨nonce, srcId, rId, call⟩ false who s s₁ s' hexec hcall hrelayer hs hcommit
      hresolve
  | evalVoteState nonce srcId prop ih =>
    have hexec : ExecKeeps T I (Chainbridge.dispatch T prop) :=
      fun _ _ hs hrun => ih hbridge (hR.executed prop) hs hrun
    simp only [Chainbridge.dispatch, evalVoteState, bind_eq_ok] at h
    obtain ⟨_, _, hresolve⟩ := h
    exact hR.evaluate _ nonce srcId prop s s' hexec hs hresolve
  | batchAll first second ih₁ ih₂ =>
    obtain ⟨hfirst, hsecond⟩ := hR.parts origin first second (.inl hcall)
    simp only [Chainbridge.dispatch, bind_eq_ok] at h
    obtain ⟨s₁, hrun₁, hrun₂⟩ := h
    exact ih₂ hpower hsecond (ih₁ hpower hfirst hs hrun₁) hrun₂
  | batch first second ih₁ ih₂ =>
    obtain ⟨hfirst, hsecond⟩ := hR.parts origin first second (.inr hcall)
    simp only [Chainbridge.dispatch] at h
    cases hrun₁ : Chainbridge.dispatch T first origin s with
    | error e =>
      simp only [hrun₁] at h
      cases h
      exact hs
    | ok s₁ =>
      have hmiddle := ih₁ hpower hfirst hs hrun₁
      cases hrun₂ : Chainbridge.dispatch T second origin s₁ with
      | error e =>
        simp only [hrun₁, hrun₂] at h
        cases h
        exact hmiddle
      | ok s₂ =>
        simp only [hrun₁, hrun₂] at h
        cases h
        exact ih₂ hpower hsecond hmiddle hrun₂
  | dispatchAs asOrigin call ih => simp [Chainbridge.dispatch, hpower.dispatchAs asOrigin] at h

end XXChain.Chainbridge
