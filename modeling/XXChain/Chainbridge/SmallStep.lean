import XXChain.Chainbridge.Model

/-!
# XXChain — the ChainBridge pallet in small steps

A dispatchable of the bridge may dispatch further calls, and those see the storage in the
middle of it. `SmallStep` lists what happens to the storage one write at a time, guards
included, so that a run of small steps passes through all the states in between as well.

* **`commitVote_eq`** — what committing a vote does, with its three checks;
* **`tryResolveProposal_open`**, **`tryResolveProposal_ok`** — what resolving an open proposal
  does, its three ways;
* **`dispatch_smallSteps`** — every call that succeeds is a run of small steps, whatever it
  dispatches in turn;
* **`step_smallSteps`** — so is every step of a run of extrinsics and blocks.
-/

namespace XXChain.Chainbridge

open Relation

variable {A O W : Type} [DecidableEq A] [DecidableEq O] {T : Config A O W}
  {s s' : State A O W} {nonce : DepositNonce} {srcId : ChainId} {rId : ResourceId}
  {prop : RuntimeCall A O} {votes : ProposalVotes A}

/-! ## Voting on an open proposal -/

/-- The votes with one more, by `who`. -/
def ProposalVotes.add (votes : ProposalVotes A) (who : A) (inFavour : Bool) :
    ProposalVotes A :=
  if inFavour then { votes with votesFor := votes.votesFor ++ [who] }
  else { votes with votesAgainst := votes.votesAgainst ++ [who] }

/-- The state that a committed vote leaves; `votes` are the votes before it. -/
def commitment (who : A) (nonce : DepositNonce) (srcId : ChainId) (prop : RuntimeCall A O)
    (inFavour : Bool) (votes : ProposalVotes A) (s : State A O W) : State A O W :=
  ({ s with votes := s.votes.insert (srcId, nonce, prop) (votes.add who inFavour) }.depositEvent
    (if inFavour then .voteFor srcId nonce who else .voteAgainst srcId nonce who)).record
      (.cast (srcId, nonce, prop) who inFavour (isRelayer who s))

/-- The votes that `commit_vote` finds: the stored ones, or none with a new expiry. -/
def storedVotes (T : Config A O W) (nonce : DepositNonce) (srcId : ChainId)
    (prop : RuntimeCall A O) (s : State A O W) : ProposalVotes A :=
  (s.votes.lookup (srcId, nonce, prop)).getD (.new (s.block + T.proposalLifetime))

/-- `commit_vote` in one case distinction, its three checks in order. -/
theorem commitVote_eq (T : Config A O W) (who : A) (nonce : DepositNonce) (srcId : ChainId)
    (prop : RuntimeCall A O) (inFavour : Bool) (s : State A O W) :
    commitVote T who nonce srcId prop inFavour s =
      if (storedVotes T nonce srcId prop s).isComplete then
        .error (.module .proposalAlreadyComplete)
      else if (storedVotes T nonce srcId prop s).isExpired s.block then
        .error (.module .proposalExpired)
      else if (storedVotes T nonce srcId prop s).hasVoted who then
        .error (.module .relayerAlreadyVoted)
      else .ok (commitment who nonce srcId prop inFavour (storedVotes T nonce srcId prop s) s) := by
  unfold commitVote storedVotes
  generalize (s.votes.lookup (srcId, nonce, prop)).getD (.new (s.block + T.proposalLifetime)) =
    votes
  cases hcomplete : votes.isComplete with
  | true => simp only [hcomplete]; rfl
  | false =>
    cases hexpired : votes.isExpired s.block with
    | true => simp only [hcomplete, hexpired]; rfl
    | false =>
      cases hvoted : votes.hasVoted who with
      | true => simp only [hcomplete, hexpired, hvoted]; rfl
      | false =>
        simp only [hcomplete, hexpired, hvoted]
        cases inFavour <;> rfl

/-- A vote that is committed was by a new voter on an open proposal. -/
theorem commitVote_ok {who : A} {inFavour : Bool}
    (h : commitVote T who nonce srcId prop inFavour s = .ok s') :
    (storedVotes T nonce srcId prop s).isComplete = false ∧
      (storedVotes T nonce srcId prop s).isExpired s.block = false ∧
      (storedVotes T nonce srcId prop s).hasVoted who = false ∧
      s' = commitment who nonce srcId prop inFavour (storedVotes T nonce srcId prop s) s := by
  rw [commitVote_eq] at h
  split at h
  · cases h
  next hcomplete =>
    split at h
    · cases h
    next hexpired =>
      split at h
      · cases h
      next hfresh =>
        cases h
        simp only [Bool.not_eq_true] at hcomplete hexpired hfresh
        exact ⟨hcomplete, hexpired, hfresh, rfl⟩

/-! ## Resolving an open proposal -/

/-- The proposal stored with its decision, which is recorded with the roster and threshold. -/
def storeDecision (nonce : DepositNonce) (srcId : ChainId) (prop : RuntimeCall A O)
    (votes : ProposalVotes A) (s : State A O W) : State A O W :=
  { s with votes := s.votes.insert (srcId, nonce, prop) votes }.record
    (.decided (srcId, nonce, prop) votes.tally (relayerSet s) s.relayerThreshold.toNat)

/-- The state that an approved proposal dispatches its call in. -/
def startExecution (nonce : DepositNonce) (srcId : ChainId) (prop : RuntimeCall A O)
    (votes : ProposalVotes A) (s : State A O W) : State A O W :=
  ((storeDecision nonce srcId prop { votes with status := .approved } s).depositEvent
    (.proposalApproved srcId nonce)).record
      (.executed (srcId, nonce, prop) votes.votesFor s.relayerThreshold.toNat)

/-- The state that a rejected proposal leaves. -/
def rejection (nonce : DepositNonce) (srcId : ChainId) (prop : RuntimeCall A O)
    (votes : ProposalVotes A) (s : State A O W) : State A O W :=
  (storeDecision nonce srcId prop { votes with status := .rejected } s).depositEvent
    (.proposalRejected srcId nonce)

/-- The votes against leave too few relayers for the threshold, in machine words. -/
def ProposalVotes.Hopeless (votes : ProposalVotes A) (threshold total : UInt32) : Prop :=
  threshold ≤ total ∧ total < UInt32.ofNat votes.votesAgainst.length + threshold

instance (votes : ProposalVotes A) (threshold total : UInt32) :
    Decidable (votes.Hopeless threshold total) := by
  unfold ProposalVotes.Hopeless
  infer_instance

/-- An open proposal is executed, rejected or left as it is. -/
theorem tryResolveProposal_open {exec : Dispatch A O W}
    (hlook : s.votes.lookup (srcId, nonce, prop) = some votes)
    (hcomplete : votes.isComplete = false) (hexpired : votes.isExpired s.block = false) :
    tryResolveProposal T exec nonce srcId prop s =
      if s.relayerThreshold.toNat ≤ votes.votesFor.length then
        exec (.signed T.accountId) (startExecution nonce srcId prop votes s) >>= fun s' =>
          .ok (s'.depositEvent (.proposalSucceeded srcId nonce))
      else if votes.Hopeless s.relayerThreshold s.relayerCount then
        .ok (rejection nonce srcId prop votes s)
      else .ok s := by
  unfold tryResolveProposal
  simp only [hlook, hcomplete, hexpired, Bool.not_false]
  show (let r := votes.tryToComplete s.relayerThreshold s.relayerCount; _) = _
  unfold ProposalVotes.tryToComplete
  by_cases hfor : s.relayerThreshold.toNat ≤ votes.votesFor.length
  · simp only [if_pos hfor, finalizeExecution]
    unfold startExecution storeDecision
    simp only [State.record, State.depositEvent, Finmap.lookup_insert, Option.getD_some]
    rfl
  · simp only [if_neg hfor]
    by_cases hagainst : votes.Hopeless s.relayerThreshold s.relayerCount
    · rw [if_pos hagainst]
      unfold ProposalVotes.Hopeless at hagainst
      simp only [if_pos hagainst]
      rfl
    · rw [if_neg hagainst]
      unfold ProposalVotes.Hopeless at hagainst
      simp only [if_neg hagainst, StorageMap.insert_of_lookup hlook]
      rfl

/-- What resolving a proposal did when it succeeded: the proposal was open, and was executed,
rejected or left as it was. -/
theorem tryResolveProposal_ok {exec : Dispatch A O W}
    (h : tryResolveProposal T exec nonce srcId prop s = .ok s') :
    ∃ votes, s.votes.lookup (srcId, nonce, prop) = some votes ∧
      votes.isComplete = false ∧ votes.isExpired s.block = false ∧
      ((s.relayerThreshold.toNat ≤ votes.votesFor.length ∧
          ∃ s₁, exec (.signed T.accountId) (startExecution nonce srcId prop votes s) = .ok s₁ ∧
            s' = s₁.depositEvent (.proposalSucceeded srcId nonce)) ∨
        (votes.Hopeless s.relayerThreshold s.relayerCount ∧
          s' = rejection nonce srcId prop votes s) ∨
        s' = s) := by
  cases hlook : s.votes.lookup (srcId, nonce, prop) with
  | none =>
    unfold tryResolveProposal at h
    simp [hlook] at h
  | some votes =>
    have hopen : votes.isComplete = false ∧ votes.isExpired s.block = false := by
      unfold tryResolveProposal at h
      simp only [hlook, bind_eq_ok, ensure_eq_ok, Bool.not_eq_true'] at h
      obtain ⟨_, hcomplete, _, hexpired, _⟩ := h
      exact ⟨hcomplete, hexpired⟩
    refine ⟨votes, rfl, hopen.1, hopen.2, ?_⟩
    rw [tryResolveProposal_open hlook hopen.1 hopen.2] at h
    split at h
    next hfor =>
      rw [bind_eq_ok] at h
      obtain ⟨s₁, hrun, hs'⟩ := h
      cases hs'
      exact Or.inl ⟨hfor, s₁, hrun, rfl⟩
    next =>
      split at h
      next hagainst =>
        cases h
        exact Or.inr (Or.inl ⟨hagainst, rfl⟩)
      next =>
        cases h
        exact Or.inr (Or.inr rfl)

/-! ## Submissions -/

/-- What the relayers vote on: a call for a deposit, under a resource. -/
structure Proposal (A O : Type) where
  nonce : DepositNonce
  srcId : ChainId
  rId : ResourceId
  call : RuntimeCall A O

namespace Proposal

def key (p : Proposal A O) : ProposalKey A O :=
  (p.srcId, p.nonce, p.call)

/-- The call that votes for, or against, the proposal. -/
def submission (p : Proposal A O) (inFavour : Bool) : RuntimeCall A O :=
  if inFavour then .acknowledgeProposal p.nonce p.srcId p.rId p.call
  else .rejectProposal p.nonce p.srcId p.rId p.call

end Proposal

/-- A relayer's submission commits the vote and then resolves the proposal. -/
theorem dispatch_submission {p : Proposal A O} {who : A} (inFavour : Bool)
    (hwho : isRelayer who s = true) (hchain : chainWhitelisted p.srcId s = true)
    (hresource : resourceExists p.rId s = true) :
    dispatch T (p.submission inFavour) (.signed who) s =
      commitVote T who p.nonce p.srcId p.call inFavour s >>= fun s₁ =>
        tryResolveProposal T (dispatch T p.call) p.nonce p.srcId p.call s₁ := by
  cases inFavour with
  | true =>
    show (ensure (isRelayer who s) _ >>= fun _ => ensure (chainWhitelisted p.srcId s) _ >>=
      fun _ => ensure (resourceExists p.rId s) _ >>= fun _ =>
        voteFor T (dispatch T p.call) who p.nonce p.srcId p.call s) = _
    rw [hwho, hchain, hresource]
    rfl
  | false =>
    show (ensure (isRelayer who s) _ >>= fun _ => ensure (chainWhitelisted p.srcId s) _ >>=
      fun _ => ensure (resourceExists p.rId s) _ >>= fun _ =>
        voteAgainst T (dispatch T p.call) who p.nonce p.srcId p.call s) = _
    rw [hwho, hchain, hresource]
    rfl

theorem storedVotes_of_lookup {p : Proposal A O} {votes : ProposalVotes A}
    (hlook : s.votes.lookup p.key = some votes) :
    storedVotes T p.nonce p.srcId p.call s = votes := by
  rw [storedVotes, show s.votes.lookup (p.srcId, p.nonce, p.call) = some votes from hlook,
    Option.getD_some]

/-! ## Small steps -/

/-- One write to the storage. A call that is executed starts in the state that `approve`
leaves, and takes its own small steps before `succeed`. -/
inductive SmallStep (T : Config A O W) : State A O W → State A O W → Prop where
  | setThreshold (s : State A O W) (threshold : UInt32) (hpos : 0 < threshold) :
      SmallStep T s
        ({ s with relayerThreshold := threshold }.depositEvent (.relayerThresholdChanged threshold))
  | setResource (s : State A O W) (id : ResourceId) (method : List UInt8) :
      SmallStep T s { s with resources := s.resources.insert id method }
  | removeResource (s : State A O W) (id : ResourceId) :
      SmallStep T s { s with resources := s.resources.erase id }
  | whitelistChain (s : State A O W) (id : ChainId) (hother : id ≠ T.chainId)
      (hnew : chainWhitelisted id s = false) :
      SmallStep T s
        ({ s with chainNonces := s.chainNonces.insert id 0 }.depositEvent (.chainWhitelisted id))
  | addRelayer (s : State A O W) (v : A) (hnew : isRelayer v s = false) :
      SmallStep T s ({ s with
        relayers := s.relayers.insert v true
        relayerCount := s.relayerCount + 1 }.depositEvent (.relayerAdded v))
  | removeRelayer (s : State A O W) (v : A) (hold : isRelayer v s = true) :
      SmallStep T s ({ s with
        relayers := s.relayers.erase v
        relayerCount := s.relayerCount - 1 }.depositEvent (.relayerRemoved v))
  | vote (s : State A O W) (who : A) (nonce : DepositNonce) (srcId : ChainId)
      (rId : ResourceId) (prop : RuntimeCall A O) (inFavour : Bool) (votes : ProposalVotes A)
      (hwho : isRelayer who s = true) (hchain : chainWhitelisted srcId s = true)
      (hresource : resourceExists rId s = true) (hstored : storedVotes T nonce srcId prop s = votes)
      (hcomplete : votes.isComplete = false) (hexpired : votes.isExpired s.block = false)
      (hfresh : votes.hasVoted who = false) :
      SmallStep T s (commitment who nonce srcId prop inFavour votes s)
  | approve (s : State A O W) (nonce : DepositNonce) (srcId : ChainId) (prop : RuntimeCall A O)
      (votes : ProposalVotes A) (hlook : s.votes.lookup (srcId, nonce, prop) = some votes)
      (hcomplete : votes.isComplete = false) (hexpired : votes.isExpired s.block = false)
      (hcount : s.relayerThreshold.toNat ≤ votes.votesFor.length) :
      SmallStep T s (startExecution nonce srcId prop votes s)
  | reject (s : State A O W) (nonce : DepositNonce) (srcId : ChainId) (prop : RuntimeCall A O)
      (votes : ProposalVotes A) (hlook : s.votes.lookup (srcId, nonce, prop) = some votes)
      (hcomplete : votes.isComplete = false) (hexpired : votes.isExpired s.block = false)
      (hcount : votes.Hopeless s.relayerThreshold s.relayerCount) :
      SmallStep T s (rejection nonce srcId prop votes s)
  | succeed (s : State A O W) (nonce : DepositNonce) (srcId : ChainId) :
      SmallStep T s (s.depositEvent (.proposalSucceeded srcId nonce))
  | other {s s' : State A O W} (call : O) (origin : Origin A)
      (h : T.other call origin s = .ok s') : SmallStep T s s'
  | advance (s : State A O W) (block : Nat) (world : W) (hlater : s.block < block) :
      SmallStep T s (advance block world s)

/-! ### The pallet's functions -/

theorem setRelayerThreshold_smallStep {threshold : UInt32}
    (h : setRelayerThreshold threshold s = .ok s') : SmallStep T s s' := by
  simp only [setRelayerThreshold, bind_eq_ok, ensure_eq_ok, decide_eq_true_eq] at h
  obtain ⟨_, hpos, hs'⟩ := h
  cases hs'
  exact .setThreshold s threshold hpos

theorem registerResource_smallStep {id : ResourceId} {method : List UInt8}
    (h : registerResource id method s = .ok s') : SmallStep T s s' := by
  cases h
  exact .setResource s id method

theorem unregisterResource_smallStep {id : ResourceId}
    (h : unregisterResource id s = .ok s') : SmallStep T s s' := by
  cases h
  exact .removeResource s id

theorem whitelist_smallStep {id : ChainId} (h : whitelist T id s = .ok s') :
    SmallStep T s s' := by
  simp only [whitelist, bind_eq_ok, ensure_eq_ok, bne_iff_ne, Bool.not_eq_true'] at h
  obtain ⟨_, hother, _, hnew, hs'⟩ := h
  cases hs'
  exact .whitelistChain s id hother hnew

theorem registerRelayer_smallStep {v : A} (h : registerRelayer v s = .ok s') :
    SmallStep T s s' := by
  simp only [registerRelayer, bind_eq_ok, ensure_eq_ok, Bool.not_eq_true'] at h
  obtain ⟨_, hnew, hs'⟩ := h
  cases hs'
  exact .addRelayer s v hnew

theorem unregisterRelayer_smallStep {v : A} (h : unregisterRelayer v s = .ok s') :
    SmallStep T s s' := by
  simp only [unregisterRelayer, bind_eq_ok, ensure_eq_ok] at h
  obtain ⟨_, hold, hs'⟩ := h
  cases hs'
  exact .removeRelayer s v hold

theorem commitVote_smallStep {who : A} {inFavour : Bool} (hwho : isRelayer who s = true)
    (hchain : chainWhitelisted srcId s = true) (hresource : resourceExists rId s = true)
    (h : commitVote T who nonce srcId prop inFavour s = .ok s') : SmallStep T s s' := by
  obtain ⟨hcomplete, hexpired, hfresh, rfl⟩ := commitVote_ok h
  exact .vote s who nonce srcId rId prop inFavour _ hwho hchain hresource rfl hcomplete hexpired
    hfresh

/-- Resolving a proposal is a run of small steps when its call is one. -/
theorem tryResolveProposal_smallSteps {exec : Dispatch A O W}
    (hexec : ∀ origin s s', exec origin s = .ok s' → ReflTransGen (SmallStep T) s s')
    (h : tryResolveProposal T exec nonce srcId prop s = .ok s') :
    ReflTransGen (SmallStep T) s s' := by
  obtain ⟨votes, hlook, hcomplete, hexpired, hdone⟩ := tryResolveProposal_ok h
  rcases hdone with ⟨hfor, s₁, hrun, hs'⟩ | ⟨hagainst, hs'⟩ | hs'
  · rw [hs']
    have happrove := SmallStep.approve (T := T) s nonce srcId prop votes hlook hcomplete hexpired
      hfor
    exact .head happrove ((hexec _ _ _ hrun).tail (.succeed s₁ nonce srcId))
  · rw [hs']
    exact .single (.reject s nonce srcId prop votes hlook hcomplete hexpired hagainst)
  · rw [hs']

theorem voteFor_smallSteps {exec : Dispatch A O W}
    (hexec : ∀ origin s s', exec origin s = .ok s' → ReflTransGen (SmallStep T) s s') {who : A}
    (hwho : isRelayer who s = true) (hchain : chainWhitelisted srcId s = true)
    (hresource : resourceExists rId s = true)
    (h : voteFor T exec who nonce srcId prop s = .ok s') : ReflTransGen (SmallStep T) s s' := by
  simp only [voteFor, bind_eq_ok] at h
  obtain ⟨s₁, hvote, hresolve⟩ := h
  have hstep := commitVote_smallStep hwho hchain hresource hvote
  exact .head hstep (tryResolveProposal_smallSteps hexec hresolve)

theorem voteAgainst_smallSteps {exec : Dispatch A O W}
    (hexec : ∀ origin s s', exec origin s = .ok s' → ReflTransGen (SmallStep T) s s') {who : A}
    (hwho : isRelayer who s = true) (hchain : chainWhitelisted srcId s = true)
    (hresource : resourceExists rId s = true)
    (h : voteAgainst T exec who nonce srcId prop s = .ok s') :
    ReflTransGen (SmallStep T) s s' := by
  simp only [voteAgainst, bind_eq_ok] at h
  obtain ⟨s₁, hvote, hresolve⟩ := h
  have hstep := commitVote_smallStep hwho hchain hresource hvote
  exact .head hstep (tryResolveProposal_smallSteps hexec hresolve)

/-- Every call that succeeds is a run of small steps. The induction is on the call: what a
bridge call executes is a call inside it. -/
theorem dispatch_smallSteps {call : RuntimeCall A O} {origin : Origin A}
    (h : dispatch T call origin s = .ok s') : ReflTransGen (SmallStep T) s s' := by
  induction call generalizing origin s s' with
  -- the administration: each call checks its origin, and then the pallet function does the rest
  | setThreshold threshold =>
    simp only [dispatch, setThreshold, bind_eq_ok] at h
    obtain ⟨_, _, h⟩ := h
    exact .single (setRelayerThreshold_smallStep h)
  | setResource id method =>
    simp only [dispatch, setResource, bind_eq_ok] at h
    obtain ⟨_, _, h⟩ := h
    exact .single (registerResource_smallStep h)
  | removeResource id =>
    simp only [dispatch, removeResource, bind_eq_ok] at h
    obtain ⟨_, _, h⟩ := h
    exact .single (unregisterResource_smallStep h)
  | whitelistChain id =>
    simp only [dispatch, whitelistChain, bind_eq_ok] at h
    obtain ⟨_, _, h⟩ := h
    exact .single (whitelist_smallStep h)
  | addRelayer v =>
    simp only [dispatch, addRelayer, bind_eq_ok] at h
    obtain ⟨_, _, h⟩ := h
    exact .single (registerRelayer_smallStep h)
  | removeRelayer v =>
    simp only [dispatch, removeRelayer, bind_eq_ok] at h
    obtain ⟨_, _, h⟩ := h
    exact .single (unregisterRelayer_smallStep h)
  -- the votes and the evaluation, where the proposal itself may run
  | acknowledgeProposal nonce srcId rId call ih =>
    simp only [dispatch, acknowledgeProposal, bind_eq_ok, ensure_eq_ok] at h
    obtain ⟨who, _, _, hwho, _, hchain, _, hresource, h⟩ := h
    exact voteFor_smallSteps (fun _ _ _ hrun => ih hrun) hwho hchain hresource h
  | rejectProposal nonce srcId rId call ih =>
    simp only [dispatch, rejectProposal, bind_eq_ok, ensure_eq_ok] at h
    obtain ⟨who, _, _, hwho, _, hchain, _, hresource, h⟩ := h
    exact voteAgainst_smallSteps (fun _ _ _ hrun => ih hrun) hwho hchain hresource h
  | evalVoteState nonce srcId prop ih =>
    simp only [dispatch, evalVoteState, bind_eq_ok] at h
    obtain ⟨_, _, h⟩ := h
    exact tryResolveProposal_smallSteps (fun _ _ _ hrun => ih hrun) h
  | batchAll first second ih₁ ih₂ =>
    simp only [dispatch, bind_eq_ok] at h
    obtain ⟨s₁, hfirst, hsecond⟩ := h
    exact (ih₁ hfirst).trans (ih₂ hsecond)
  | batch first second ih₁ ih₂ =>
    simp only [dispatch] at h
    cases hfirst : dispatch T first origin s with
    | error e =>
      -- a batch stops at the first error, and keeps what went before it
      simp only [hfirst] at h
      cases h
      exact .refl
    | ok s₁ =>
      cases hsecond : dispatch T second origin s₁ with
      | error e =>
        simp only [hfirst, hsecond] at h
        cases h
        exact ih₁ hfirst
      | ok s₂ =>
        simp only [hfirst, hsecond] at h
        cases h
        exact (ih₁ hfirst).trans (ih₂ hsecond)
  | dispatchAs asOrigin call ih =>
    simp only [dispatch] at h
    split at h
    · cases hrun : dispatch T call asOrigin s with
      | error e =>
        simp only [hrun] at h
        cases h
        exact .refl
      | ok s₁ =>
        simp only [hrun] at h
        cases h
        exact ih hrun
    · cases h
  | other call =>
    rw [dispatch] at h
    exact .single (.other call origin h)

theorem step_smallSteps (h : Step T s s') : ReflTransGen (SmallStep T) s s' := by
  cases h with
  | extrinsic origin call s =>
    unfold applyExtrinsic
    cases hrun : dispatch T call origin s with
    | error e => exact .refl
    | ok s' => exact dispatch_smallSteps hrun
  | advance block world s hlater => exact .single (.advance s block world hlater)

theorem run_smallSteps (h : ReflTransGen (Step T) s s') : ReflTransGen (SmallStep T) s s' := by
  induction h with
  | refl => exact .refl
  | tail _ hlast ih => exact ih.trans (step_smallSteps hlast)

/-- The genesis build is a run of small steps, too. -/
theorem genesis_smallSteps (h : Genesis T s) :
    ∃ world, ReflTransGen (SmallStep T) (State.default world) s := by
  cases h with
  | default world => exact ⟨world, .refl⟩
  | swap world chains relayers resources threshold s h =>
    simp only [initializeBridge, bind_eq_ok] at h
    -- chains, relayers and resources are added one after the other, and then the threshold
    obtain ⟨s₁, hchains, s₂, hrelayers, s₃, hresources, hthreshold⟩ := h
    refine ⟨world, ?_⟩
    have h₁ : ReflTransGen (SmallStep T) (State.default world) s₁ :=
      foldlM_invariant (I := ReflTransGen (SmallStep T) (State.default world))
        (fun _ _ _ hrun hstep => hrun.tail (whitelist_smallStep hstep)) .refl hchains
    have h₂ : ReflTransGen (SmallStep T) (State.default world) s₂ :=
      foldlM_invariant (I := ReflTransGen (SmallStep T) (State.default world))
        (fun _ _ _ hrun hstep => hrun.tail (registerRelayer_smallStep hstep)) h₁ hrelayers
    have h₃ : ReflTransGen (SmallStep T) (State.default world) s₃ :=
      foldlM_invariant (I := ReflTransGen (SmallStep T) (State.default world))
        (fun _ _ _ hrun hstep => hrun.tail (registerResource_smallStep hstep)) h₂ hresources
    exact h₃.tail (setRelayerThreshold_smallStep hthreshold)

end XXChain.Chainbridge
