import XXChain.Chainbridge.AtMostOnce
import XXChain.Chainbridge.Journal

/-!
# XXChain — what is approved is executed

A proposal is stored as approved before its call is dispatched, and both are taken back when the
call fails. So whatever a call nests, a proposal that is newly approved when it succeeds has been
executed in it, as the bridge account and from start to end.

* **`resolution_causes`** — resolving a proposal approves it, or what its call approves;
* **`dispatch_causes`** — a call that succeeds executes whatever is newly approved in it;
* **`logged_dispatched`** — so what the log says was executed has been dispatched.
-/

namespace XXChain.Chainbridge

variable {A O W : Type} [DecidableEq A] [DecidableEq O] {T : Config A O W} {s s₁ s' : State A O W}
  {nonce : DepositNonce} {srcId : ChainId} {prop : RuntimeCall A O} {key : ProposalKey A O}

/-! ## Approvals -/

/-- The proposal is approved. -/
def Approved (key : ProposalKey A O) (s : State A O W) : Prop :=
  ∃ votes, s.votes.lookup key = some votes ∧ votes.status = .approved

/-- The call of the approved proposal, dispatched as the bridge account's. -/
structure IsExecution (T : Config A O W) (key : ProposalKey A O) (part : Journal A O W)
    (s s' : State A O W) : Prop where
  approved : Approved key s
  dispatched : dispatch T key.2.2 (.signed T.accountId) s = .ok s'
  calls : part = journal T key.2.2 (.signed T.accountId) s

/-- A dispatch in which the proposal is approved only if it is executed. -/
abbrev Performs (T : Config A O W) (key : ProposalKey A O) :
    Journal A O W → State A O W → State A O W → Prop :=
  Trace.Causes Bookkeeping (Executes T) (IsExecution T key) (Approved key)

theorem Approved.congr (h : s'.votes = s.votes) (hs : Approved key s') : Approved key s := by
  unfold Approved at hs ⊢
  rwa [h] at hs

/-- A write to the votes approves at most the proposal that is written. -/
theorem Approved.of_insert {votes : ProposalVotes A}
    (h : s'.votes = s.votes.insert (srcId, nonce, prop) votes) (hs : Approved key s') :
    (key = (srcId, nonce, prop) ∧ votes.status = .approved) ∨ Approved key s := by
  obtain ⟨stored, hlook, hstatus⟩ := hs
  rw [h] at hlook
  by_cases hkey : key = (srcId, nonce, prop)
  · rw [hkey, Finmap.lookup_insert] at hlook
    cases hlook
    exact Or.inl ⟨hkey, hstatus⟩
  · rw [Finmap.lookup_insert_of_ne _ hkey] at hlook
    exact Or.inr ⟨stored, hlook, hstatus⟩

/-- A vote approves nothing before the proposal is resolved. -/
theorem commitVote_approves_nothing {who : A} {inFavour : Bool}
    (h : commitVote T who nonce srcId prop inFavour s = .ok s') (hs : Approved key s') :
    Approved key s := by
  obtain ⟨hopen, _, _, hs'⟩ := commitVote_ok h
  refine (hs.of_insert (by rw [hs']; rfl)).resolve_left ?_
  rintro ⟨_, hstatus⟩
  have hsame : ((storedVotes T nonce srcId prop s).add who inFavour).isComplete = false := by
    cases inFavour <;> exact hopen
  rw [ProposalVotes.isComplete, hstatus] at hsame
  cases hsame

/-! ## A call executes what is approved in it -/

/-- The execution of an approved proposal brings about its approval, and what its call approves. -/
theorem execution_causes {votes : ProposalVotes A}
    (hinner : Performs T key (journal T prop (.signed T.accountId)
      (startExecution nonce srcId prop votes s)) (startExecution nonce srcId prop votes s) s₁)
    (hrun : dispatch T prop (.signed T.accountId) (startExecution nonce srcId prop votes s) =
      .ok s₁) :
    Performs T key
      (journal T prop (.signed T.accountId) (startExecution nonce srcId prop votes s)) s
      (s₁.depositEvent (.proposalSucceeded srcId nonce)) := by
  have hstart : Bookkeeping s (startExecution nonce srcId prop votes s) :=
    startExecution_bookkeeping
  have hend : Bookkeeping s₁ (s₁.depositEvent (.proposalSucceeded srcId nonce)) :=
    succeeded_bookkeeping
  by_cases hkey : key = (srcId, nonce, prop)
  · subst hkey
    refine ⟨.silent ((Trace.ofSilent hstart).append hinner.run) hend, fun _ => Or.inr ?_⟩
    have happroved : Approved (srcId, nonce, prop) (startExecution nonce srcId prop votes s) :=
      ⟨_, Finmap.lookup_insert _, rfl⟩
    exact ⟨[], _, [], _, s₁, (List.append_nil _).symm, .ofSilent hstart,
      ⟨happroved, hrun, rfl⟩, .ofSilent hend⟩
  · have hbefore : Performs T key [] s (startExecution nonce srcId prop votes s) :=
      .ofSilent hstart fun hs => (hs.of_insert rfl).resolve_left fun h => hkey h.1
    have hafter : Performs T key [] s₁ (s₁.depositEvent (.proposalSucceeded srcId nonce)) :=
      .ofSilent hend fun hs => hs.congr rfl
    have hwhole := (hbefore.append hinner).append hafter
    rwa [List.append_nil] at hwhole

/-- Resolving a proposal approves it, and then executes it, or what its call approves. -/
theorem resolution_causes
    (hinner : ∀ origin s s', dispatch T prop origin s = .ok s' →
      Performs T key (journal T prop origin s) s s')
    (h : tryResolveProposal T (dispatch T prop) nonce srcId prop s = .ok s') :
    Performs T key (resolutionJournal T (journal T prop) nonce srcId prop s) s s' := by
  obtain ⟨votes, hlook, hcomplete, hexpired, _⟩ := tryResolveProposal_ok h
  rw [tryResolveProposal_open hlook hcomplete hexpired] at h
  unfold resolutionJournal
  rw [hlook]
  dsimp only
  by_cases hfor : s.relayerThreshold.toNat ≤ votes.votesFor.length
  · rw [if_pos hfor, bind_eq_ok] at h
    obtain ⟨s₁, hrun, hs'⟩ := h
    cases hs'
    rw [if_pos hfor]
    exact execution_causes (hinner _ _ _ hrun) hrun
  · rw [if_neg hfor] at h ⊢
    by_cases hagainst : votes.Hopeless s.relayerThreshold s.relayerCount
    · rw [if_pos hagainst] at h
      cases h
      refine .ofSilent rejection_bookkeeping fun hs => (hs.of_insert rfl).resolve_left ?_
      exact fun hrejected => ProposalStatus.noConfusion hrejected.2
    · rw [if_neg hagainst] at h
      cases h
      exact .refl s

theorem vote_causes
    (hinner : ∀ origin s s', dispatch T prop origin s = .ok s' →
      Performs T key (journal T prop origin s) s s')
    {origin : Origin A} {who : A} (horigin : (ensureSigned origin : DispatchResult A) = .ok who)
    {inFavour : Bool} (hcommit : commitVote T who nonce srcId prop inFavour s = .ok s₁)
    (hresolve : tryResolveProposal T (dispatch T prop) nonce srcId prop s₁ = .ok s') :
    Performs T key (voteJournal T (journal T prop) origin nonce srcId prop inFavour s) s s' := by
  rw [voteJournal_of_commit _ horigin hcommit]
  have hvote : Performs T key [] s s₁ :=
    .ofSilent (commitVote_bookkeeping hcommit) (commitVote_approves_nothing hcommit)
  exact hvote.append (resolution_causes hinner hresolve)

/-- A call that dispatches no other leaves the votes alone. -/
theorem basic_causes {origin : Origin A} {call : RuntimeCall A O}
    (h : Executes T s (origin, call) s') : Performs T key [(s, origin, call)] s s' := by
  refine .single h fun hs => hs.congr ?_
  rcases executes_cases h with ⟨pallet, _, hrun⟩ | hadmin
  · rw [T.otherFrame pallet origin s s' hrun]
  · rw [hadmin.frame]

/-- **What is approved is executed.** A call that succeeds executes every proposal that is newly
approved after it. The induction is on the call. -/
theorem dispatch_causes (T : Config A O W) (key : ProposalKey A O) (call : RuntimeCall A O)
    (origin : Origin A) (s s' : State A O W) (h : dispatch T call origin s = .ok s') :
    Performs T key (journal T call origin s) s s' := by
  induction call generalizing origin s s' with
  | setThreshold | setResource | removeResource | whitelistChain | addRelayer | removeRelayer
  | other => exact basic_causes ⟨rfl, h⟩
  | acknowledgeProposal nonce srcId rId call ih =>
    simp only [dispatch, acknowledgeProposal, voteFor, bind_eq_ok] at h
    obtain ⟨who, horigin, _, _, _, _, _, _, s₁, hcommit, hresolve⟩ := h
    exact vote_causes ih horigin hcommit hresolve
  | rejectProposal nonce srcId rId call ih =>
    simp only [dispatch, rejectProposal, voteAgainst, bind_eq_ok] at h
    obtain ⟨who, horigin, _, _, _, _, _, _, s₁, hcommit, hresolve⟩ := h
    exact vote_causes ih horigin hcommit hresolve
  | evalVoteState nonce srcId prop ih =>
    simp only [dispatch, evalVoteState, bind_eq_ok] at h
    obtain ⟨_, _, hresolve⟩ := h
    exact resolution_causes ih hresolve
  | batchAll first second ih₁ ih₂ =>
    simp only [dispatch, bind_eq_ok] at h
    obtain ⟨s₁, hfirst, hsecond⟩ := h
    unfold journal
    rw [hfirst]
    exact (ih₁ _ _ _ hfirst).append (ih₂ _ _ _ hsecond)
  | batch first second ih₁ ih₂ =>
    unfold journal
    simp only [dispatch] at h
    cases hfirst : dispatch T first origin s with
    | error e =>
      simp only [hfirst] at h ⊢
      cases h
      exact .refl s
    | ok s₁ =>
      cases hsecond : dispatch T second origin s₁ with
      | error e =>
        simp only [hfirst, hsecond] at h ⊢
        cases h
        exact ih₁ _ _ _ hfirst
      | ok s₂ =>
        simp only [hfirst, hsecond] at h ⊢
        cases h
        exact (ih₁ _ _ _ hfirst).append (ih₂ _ _ _ hsecond)
  | dispatchAs asOrigin call ih =>
    unfold journal
    simp only [dispatch] at h
    cases hmay : T.mayDispatchAs origin asOrigin with
    | false => simp [hmay] at h
    | true =>
      cases hrun : dispatch T call asOrigin s with
      | error e =>
        simp only [hmay, hrun, if_true] at h ⊢
        cases h
        exact .refl s
      | ok s₁ =>
        simp only [hmay, hrun, if_true] at h ⊢
        cases h
        exact ih _ _ _ hrun

/-! ## The log of the executions

`finalizeExecution` logs an execution beside the dispatch of the call. That the log is not ahead of
the dispatches follows from the approval that comes with both. -/

/-- In every state of every run the proposals that were executed are those that are approved. -/
theorem executed_iff_approved (hs : ReachableState T s) (key : ProposalKey A O) :
    0 < ThresholdVote.executions key s.history ↔ Approved key s := by
  obtain ⟨_, hinv⟩ := reachable_inv hs
  have hcount : ThresholdVote.executions key s.history = _ := hinv.executions_eq key
  have houtcome : ∀ votes : ProposalVotes A,
      votes.tally.outcome = .approved ↔ votes.status = .approved := fun votes =>
    ⟨fun h => outcome_injective h, fun h => congrArg ProposalStatus.outcome h⟩
  rw [hcount]
  split
  next happroved =>
    obtain ⟨_, htally, happroved⟩ := happroved
    obtain ⟨votes, hlook, rfl⟩ := Option.map_eq_some_iff.mp htally
    exact iff_of_true Nat.one_pos ⟨votes, hlook, (houtcome votes).mp happroved⟩
  next hnone =>
    refine iff_of_false (lt_irrefl 0) ?_
    rintro ⟨votes, hlook, happroved⟩
    exact hnone ⟨votes.tally, congrArg (Option.map ProposalVotes.tally) hlook,
      (houtcome votes).mpr happroved⟩

/-- **What is logged is dispatched.** When a call that succeeds, in any state of any run, leaves an
execution on the log that was not there, the call of the proposal has been dispatched in it, as the
bridge account's and with success, and what that call came down to is a part of the journal. -/
theorem logged_dispatched (hs : ReachableState T s) (key : ProposalKey A O) {origin : Origin A}
    {call : RuntimeCall A O} (h : dispatch T call origin s = .ok s')
    (hlogged : ThresholdVote.executions key s.history < ThresholdVote.executions key s'.history) :
    Trace.Through Bookkeeping (Executes T) (IsExecution T key) (journal T call origin s) s s' := by
  have hs' : ReachableState T s' := by
    have hstep := Step.extrinsic (T := T) origin call s
    rw [applyExtrinsic, h] at hstep
    exact hs.trans (.single hstep)
  -- at most once, so not before
  have honce : ThresholdVote.executions key s'.history ≤ 1 :=
    (reachable_inv hs').2.executions_le_one key
  have hbefore : ¬Approved key s := by
    rw [← executed_iff_approved hs]
    omega
  have hafter : Approved key s' := (executed_iff_approved hs' key).mp (by omega)
  exact ((dispatch_causes T key call origin s s' h).cause hafter).resolve_left hbefore

end XXChain.Chainbridge
