import XXChain.Chainbridge.SmallStep

/-!
# XXChain — the outcome of an approved proposal

`finalize_execution` announces the approval, dispatches the call and announces its success;
the error of a call is the error of the whole dispatchable, which then leaves no trace. The
failure that `ProposalFailed` stands for is therefore never announced, and the vote that
reached the threshold is lost with it.

* **`decisive_dispatch`** — what a call does that takes a proposal over the threshold;
* **`outcome_signalled_iff`** — the approval is recorded and its outcome announced exactly when
  the call succeeds.
-/

namespace XXChain.Chainbridge

open Relation

variable {A O W : Type} [DecidableEq A] [DecidableEq O] {T : Config A O W}
  {s s' : State A O W} {p : Proposal A O}

/-! ## What every small step keeps -/

/-- A complete proposal keeps its entry. -/
theorem SmallStep.complete {key : ProposalKey A O} {votes : ProposalVotes A}
    (h : SmallStep T s s') (hcomplete : votes.isComplete = true)
    (hlook : s.votes.lookup key = some votes) : s'.votes.lookup key = some votes := by
  -- the entry that a step writes was open
  have hother : ∀ {k stored} new, s.votes.lookup k = some stored → stored.isComplete = false →
      (s.votes.insert k new).lookup key = some votes := by
    intro k stored new hstored hopen
    have hne : key ≠ k := by
      rintro rfl
      rw [hlook] at hstored
      cases hstored
      rw [hcomplete] at hopen
      cases hopen
    rw [Finmap.lookup_insert_of_ne _ hne, hlook]
  cases h with
  | setThreshold | setResource | removeResource | whitelistChain | addRelayer | removeRelayer
  | succeed | advance => exact hlook
  | other call origin h =>
    rw [T.otherFrame call origin s s' h]
    exact hlook
  | vote who nonce srcId rId prop inFavour stored hwho hchain hresource hstored hopen =>
    have hne : key ≠ (srcId, nonce, prop) := by
      rintro rfl
      rw [storedVotes, hlook, Option.getD_some] at hstored
      rw [← hstored, hcomplete] at hopen
      cases hopen
    show (s.votes.insert _ _).lookup key = _
    rw [Finmap.lookup_insert_of_ne _ hne, hlook]
  | approve nonce srcId prop stored hstored hopen => exact hother _ hstored hopen
  | reject nonce srcId prop stored hstored hopen => exact hother _ hstored hopen

theorem smallSteps_complete {key : ProposalKey A O} {votes : ProposalVotes A}
    (hrun : ReflTransGen (SmallStep T) s s') (hcomplete : votes.isComplete = true)
    (hlook : s.votes.lookup key = some votes) : s'.votes.lookup key = some votes := by
  induction hrun with
  | refl => exact hlook
  | tail _ hlast ih => exact hlast.complete hcomplete ih

/-- The other pallets, like this one, only add to the events. -/
def EventsAppend (T : Config A O W) : Prop :=
  ∀ call origin s s', T.other call origin s = .ok s' → s.events <+: s'.events

theorem SmallStep.events (h : SmallStep T s s') (hT : EventsAppend T) :
    s.events <+: s'.events := by
  cases h with
  | setResource | removeResource | advance => exact List.prefix_refl _
  | setThreshold | whitelistChain | addRelayer | removeRelayer | vote | approve | reject
  | succeed => exact List.prefix_append _ _
  | other call origin h => exact hT call origin s s' h

theorem smallSteps_events (hrun : ReflTransGen (SmallStep T) s s') (hT : EventsAppend T) :
    s.events <+: s'.events := by
  induction hrun with
  | refl => exact List.prefix_refl _
  | tail _ hlast ih => exact ih.trans (hlast.events hT)

/-! ## Over the threshold -/

/-- The calls that find an open proposal with enough votes in its favour: a relayer's
acknowledgement, with its own vote, and an evaluation. `voted` is the state they resolve the
proposal in, and `votes` are its votes there. -/
inductive Decisive (T : Config A O W) (p : Proposal A O) (s : State A O W) :
    Origin A → RuntimeCall A O → State A O W → ProposalVotes A → Prop where
  | acknowledge (who : A) (hwho : isRelayer who s = true)
      (hchain : chainWhitelisted p.srcId s = true) (hresource : resourceExists p.rId s = true)
      (votes : ProposalVotes A) (hstored : storedVotes T p.nonce p.srcId p.call s = votes)
      (hcomplete : votes.isComplete = false) (hexpired : votes.isExpired s.block = false)
      (hfresh : votes.hasVoted who = false)
      (hcount : s.relayerThreshold.toNat ≤ (votes.votesFor ++ [who]).length) :
      Decisive T p s (.signed who) (.acknowledgeProposal p.nonce p.srcId p.rId p.call)
        (commitment who p.nonce p.srcId p.call true votes s)
        { votes with votesFor := votes.votesFor ++ [who] }
  | evaluate (who : A) (votes : ProposalVotes A) (hlook : s.votes.lookup p.key = some votes)
      (hcomplete : votes.isComplete = false) (hexpired : votes.isExpired s.block = false)
      (hcount : s.relayerThreshold.toNat ≤ votes.votesFor.length) :
      Decisive T p s (.signed who) (.evalVoteState p.nonce p.srcId p.call) s votes

variable {origin : Origin A} {call : RuntimeCall A O} {voted : State A O W}
  {votes : ProposalVotes A}

/-- The proposal's call, dispatched by the bridge account in the state with the approval. -/
def execution (T : Config A O W) (p : Proposal A O) (votes : ProposalVotes A)
    (voted : State A O W) : DispatchResult (State A O W) :=
  dispatch T p.call (.signed T.accountId) (startExecution p.nonce p.srcId p.call votes voted)

/-- The call runs, and what it does is kept and announced only if it succeeds. -/
theorem decisive_dispatch (h : Decisive T p s origin call voted votes) :
    dispatch T call origin s = execution T p votes voted >>= fun s' =>
      .ok (s'.depositEvent (.proposalSucceeded p.srcId p.nonce)) := by
  cases h with
  | acknowledge who hwho hchain hresource votes hstored hcomplete hexpired hfresh hcount =>
    have hlook : (commitment who p.nonce p.srcId p.call true votes s).votes.lookup p.key =
        some { votes with votesFor := votes.votesFor ++ [who] } :=
      Finmap.lookup_insert _
    have hcommit : commitVote T who p.nonce p.srcId p.call true s =
        .ok (commitment who p.nonce p.srcId p.call true votes s) := by
      rw [commitVote_eq, hstored, if_neg (by rw [hcomplete]; decide),
        if_neg (by rw [hexpired]; decide), if_neg (by rw [hfresh]; decide)]
    show dispatch T (p.submission true) (.signed who) s = _
    rw [dispatch_submission true hwho hchain hresource, hcommit]
    exact (tryResolveProposal_open hlook hcomplete hexpired).trans (if_pos hcount)
  | evaluate who votes hlook hcomplete hexpired hcount =>
    exact (tryResolveProposal_open hlook hcomplete hexpired).trans (if_pos hcount)

/-- Before the call that decides it, the proposal is not approved. -/
theorem Decisive.not_approved (h : Decisive T p s origin call voted votes)
    {stored : ProposalVotes A} (hlook : s.votes.lookup p.key = some stored) :
    stored.status = .initiated := by
  have hopen : stored.isComplete = false := by
    cases h with
    | acknowledge who _ _ _ votes hstored hcomplete =>
      rw [storedVotes_of_lookup hlook] at hstored
      exact hstored ▸ hcomplete
    | evaluate who votes hlook' hcomplete =>
      rw [hlook] at hlook'
      cases hlook'
      exact hcomplete
  cases hstatus : stored.status with
  | initiated => rfl
  | approved => simp [ProposalVotes.isComplete, hstatus] at hopen
  | rejected => simp [ProposalVotes.isComplete, hstatus] at hopen

/-! ## Recorded and signalled -/

/-- The proposal is stored as approved with these votes, and the events tell its approval and
then the outcome of its call. -/
def Signalled (T : Config A O W) (p : Proposal A O) (votes : ProposalVotes A)
    (voted s' : State A O W) : Prop :=
  s'.votes.lookup p.key = some { votes with status := .approved } ∧
  ∃ during, s'.events =
    voted.events ++ [.proposalApproved p.srcId p.nonce] ++ during ++
      [if (execution T p votes voted).isOk then .proposalSucceeded p.srcId p.nonce
        else .proposalFailed p.srcId p.nonce]

/-- For every state, every proposal and every call that takes it over the threshold: the
proposal ends up recorded as approved, with its outcome announced, if and only if its call
succeeds. -/
theorem outcome_signalled_iff (T : Config A O W) (hT : EventsAppend T) (s : State A O W)
    (p : Proposal A O) (origin : Origin A) (call : RuntimeCall A O) (voted : State A O W)
    (votes : ProposalVotes A) (h : Decisive T p s origin call voted votes) :
    Signalled T p votes voted (applyExtrinsic T origin call s) ↔
      ∃ s', dispatch T p.call (.signed T.accountId)
        (startExecution p.nonce p.srcId p.call votes voted) = .ok s' := by
  have hdispatch := decisive_dispatch h
  cases hrun : execution T p votes voted with
  | error e =>
    -- the error discards everything, the vote included
    have hsame : applyExtrinsic T origin call s = s := by
      rw [applyExtrinsic, hdispatch, hrun]
      rfl
    rw [hsame]
    refine ⟨fun hsig => ?_, fun ⟨s', hok⟩ => ?_⟩
    · cases h.not_approved hsig.1
    · rw [execution, hok] at hrun
      cases hrun
  | ok s' =>
    have hafter : applyExtrinsic T origin call s =
        s'.depositEvent (.proposalSucceeded p.srcId p.nonce) := by
      rw [applyExtrinsic, hdispatch, hrun]
      rfl
    have hsteps : ReflTransGen (SmallStep T) _ s' := dispatch_smallSteps hrun
    have hstart : (startExecution p.nonce p.srcId p.call votes voted).votes.lookup p.key =
        some { votes with status := .approved } :=
      Finmap.lookup_insert _
    have hkept : s'.votes.lookup p.key = some { votes with status := .approved } :=
      smallSteps_complete hsteps rfl hstart
    refine ⟨fun _ => ⟨s', hrun⟩, fun _ => ⟨?_, ?_⟩⟩
    · rw [hafter]
      exact hkept
    · obtain ⟨during, hevents⟩ := smallSteps_events hsteps hT
      refine ⟨during, ?_⟩
      rw [hafter, hrun]
      show s'.events ++ _ = _
      rw [← hevents]
      rfl

/-! ## A call that fails -/

/-- A call that the bridge account may not make. -/
def mockFailing : Proposal Nat Empty :=
  ⟨1, 1, Vector.replicate 32 0, .addRelayer 9⟩

theorem mockRuntime_eventsAppend : EventsAppend mockRuntime := by
  intro call
  cases call

/-- With a call that does nothing the relayer `3` decides, and everything is on record. -/
theorem outcome_signalled_iff_mock :
    let s := mockRun [(.signed 2, .acknowledgeProposal 1 1 (Vector.replicate 32 0) mockCall)]
    let p : Proposal Nat Empty := ⟨1, 1, Vector.replicate 32 0, mockCall⟩
    Signalled mockRuntime p ⟨[2, 3], [], .initiated, 50⟩
      (commitment 3 1 1 mockCall true ⟨[2], [], .initiated, 50⟩ s)
      (applyExtrinsic mockRuntime (.signed 3)
        (.acknowledgeProposal 1 1 (Vector.replicate 32 0) mockCall) s) := by
  intro s p
  exact (outcome_signalled_iff mockRuntime mockRuntime_eventsAppend s p _ _ _ _
    (.acknowledge 3 (by decide) (by decide) (by decide) ⟨[2], [], .initiated, 50⟩ rfl rfl rfl rfl
      (by decide))).mpr ⟨_, rfl⟩

/-- With a call that fails, the vote that decides is lost: the proposal stays open with one
vote, and no event tells of an approval or a failure. -/
theorem failed_call_leaves_no_trace :
    let s := mockRun [(.signed 2, mockFailing.submission true)]
    Decisive mockRuntime mockFailing s (.signed 3) (mockFailing.submission true)
      (commitment 3 1 1 (.addRelayer 9) true ⟨[2], [], .initiated, 50⟩ s)
      ⟨[2, 3], [], .initiated, 50⟩ ∧
    ¬Signalled mockRuntime mockFailing ⟨[2, 3], [], .initiated, 50⟩
      (commitment 3 1 1 (.addRelayer 9) true ⟨[2], [], .initiated, 50⟩ s)
      (applyExtrinsic mockRuntime (.signed 3) (mockFailing.submission true) s) ∧
    (applyExtrinsic mockRuntime (.signed 3) (mockFailing.submission true) s).votes.lookup
      mockFailing.key = some ⟨[2], [], .initiated, 50⟩ ∧
    (applyExtrinsic mockRuntime (.signed 3) (mockFailing.submission true) s).events =
      s.events := by
  intro s
  have hlook : (applyExtrinsic mockRuntime (.signed 3) (mockFailing.submission true) s).votes.lookup
      mockFailing.key = some ⟨[2], [], .initiated, 50⟩ := by rfl
  refine ⟨?_, ?_, hlook, by rfl⟩
  · exact .acknowledge 3 (by decide) (by decide) (by decide) ⟨[2], [], .initiated, 50⟩ rfl rfl rfl
      rfl (by decide)
  · rintro ⟨happroved, _⟩
    rw [hlook] at happroved
    cases happroved

end XXChain.Chainbridge
