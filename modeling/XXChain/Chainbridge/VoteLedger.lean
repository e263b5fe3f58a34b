import XXChain.Chainbridge.Refinement

/-!
# XXChain — the invariant of the vote ledger

What the storage says about relayers and votes in every reachable state. `RelayerCount` is a
machine word and wraps with the relayers. A proposal is evaluated where `try_to_complete` looks
at its votes; an evaluation whose dispatchable fails afterwards leaves nothing behind, so what
an open proposal shows is the last one that took effect. The storage does not keep that
threshold: `evaluations` reads it off a call, and `LoggedRun` collects it along a run.

* **`SmallStep.voted`** — every write leaves the votes well formed;
* **`dispatch_tracked`** — after every call the open proposals fell short of the threshold at
  their last evaluation;
* **`vote_ledger`** — both over runs, with the relayer count.
-/

namespace XXChain.Chainbridge

open Relation

variable {A O W : Type} [DecidableEq A] [DecidableEq O] {T : Config A O W}
  {s s' s₀ : State A O W} {nonce : DepositNonce} {srcId : ChainId} {prop : RuntimeCall A O}

/-! ## Evaluations -/

/-- The proposals that were evaluated, each with the threshold, the oldest first. -/
abbrev EvaluationLog (A O : Type) := List (ProposalKey A O × UInt32)

/-- The threshold of the last evaluation of the proposal. -/
def lastEvaluation (key : ProposalKey A O) (log : EvaluationLog A O) : Option UInt32 :=
  (log.filterMap fun e => if e.1 = key then some e.2 else none).getLast?

theorem lastEvaluation_self (key : ProposalKey A O) (log : EvaluationLog A O) (q : UInt32) :
    lastEvaluation key (log ++ [(key, q)]) = some q := by
  simp [lastEvaluation]

theorem lastEvaluation_of_ne {key k : ProposalKey A O} (hne : k ≠ key)
    (log : EvaluationLog A O) (q : UInt32) :
    lastEvaluation k (log ++ [(key, q)]) = lastEvaluation k log := by
  simp [lastEvaluation, Ne.symm hne]

/-- What resolving a proposal evaluates when it succeeds: the proposal, and what its execution
evaluates. -/
def resolution (T : Config A O W) (inner : Origin A → State A O W → EvaluationLog A O)
    (nonce : DepositNonce) (srcId : ChainId) (prop : RuntimeCall A O) (s : State A O W) :
    EvaluationLog A O :=
  ((srcId, nonce, prop), s.relayerThreshold) ::
    match s.votes.lookup (srcId, nonce, prop) with
    | some votes =>
      if s.relayerThreshold.toNat ≤ votes.votesFor.length then
        inner (.signed T.accountId) (startExecution nonce srcId prop votes s)
      else []
    | none => []

/-- What voting on a proposal evaluates when it succeeds. -/
def voteEvaluations (T : Config A O W) (inner : Origin A → State A O W → EvaluationLog A O)
    (origin : Origin A) (nonce : DepositNonce) (srcId : ChainId) (prop : RuntimeCall A O)
    (inFavour : Bool) (s : State A O W) : EvaluationLog A O :=
  match ensureSigned origin >>= fun who => commitVote T who nonce srcId prop inFavour s with
  | .ok s₁ => resolution T inner nonce srcId prop s₁
  | .error _ => []

/-- What a call that succeeds evaluates. As in `dispatch`, a batch keeps what succeeded. -/
def evaluations (T : Config A O W) :
    RuntimeCall A O → Origin A → State A O W → EvaluationLog A O
  | .acknowledgeProposal nonce srcId _ call, origin, s =>
    voteEvaluations T (evaluations T call) origin nonce srcId call true s
  | .rejectProposal nonce srcId _ call, origin, s =>
    voteEvaluations T (evaluations T call) origin nonce srcId call false s
  | .evalVoteState nonce srcId prop, _, s => resolution T (evaluations T prop) nonce srcId prop s
  | .batchAll first second, origin, s =>
    match dispatch T first origin s with
    | .ok s₁ => evaluations T first origin s ++ evaluations T second origin s₁
    | .error _ => []
  | .batch first second, origin, s =>
    match dispatch T first origin s with
    | .ok s₁ =>
      match dispatch T second origin s₁ with
      | .ok _ => evaluations T first origin s ++ evaluations T second origin s₁
      | .error _ => evaluations T first origin s
    | .error _ => []
  | .dispatchAs asOrigin call, _, s =>
    match dispatch T call asOrigin s with
    | .ok _ => evaluations T call asOrigin s
    | .error _ => []
  | .setThreshold _, _, _ => []
  | .setResource _ _, _, _ => []
  | .removeResource _, _, _ => []
  | .whitelistChain _, _, _ => []
  | .addRelayer _, _, _ => []
  | .removeRelayer _, _, _ => []
  | .other _, _, _ => []

/-! ## Functions that leave the votes alone -/

section Votes

omit [DecidableEq O]

variable {threshold : UInt32} {id : ResourceId} {method : List UInt8} {chain : ChainId}
  {relayer : A}

omit [DecidableEq A] in
theorem setRelayerThreshold_votes (h : setRelayerThreshold threshold s = .ok s') :
    s'.votes = s.votes := by
  simp only [setRelayerThreshold, bind_eq_ok] at h
  obtain ⟨_, _, hs'⟩ := h
  cases hs'
  rfl

omit [DecidableEq A] in
theorem registerResource_votes (h : registerResource id method s = .ok s') :
    s'.votes = s.votes := by
  cases h
  rfl

omit [DecidableEq A] in
theorem unregisterResource_votes (h : unregisterResource id s = .ok s') :
    s'.votes = s.votes := by
  cases h
  rfl

omit [DecidableEq A] in
theorem whitelist_votes (h : whitelist T chain s = .ok s') : s'.votes = s.votes := by
  simp only [whitelist, bind_eq_ok] at h
  obtain ⟨_, _, _, _, hs'⟩ := h
  cases hs'
  rfl

theorem registerRelayer_votes (h : registerRelayer relayer s = .ok s') : s'.votes = s.votes := by
  simp only [registerRelayer, bind_eq_ok] at h
  obtain ⟨_, _, hs'⟩ := h
  cases hs'
  rfl

theorem unregisterRelayer_votes (h : unregisterRelayer relayer s = .ok s') :
    s'.votes = s.votes := by
  simp only [unregisterRelayer, bind_eq_ok] at h
  obtain ⟨_, _, hs'⟩ := h
  cases hs'
  rfl

end Votes

/-! ## Open proposals fell short at their last evaluation -/

/-- The proposal was evaluated, last with a threshold that its votes in favour do not reach. -/
def FellShort (log : EvaluationLog A O) (key : ProposalKey A O) (votes : ProposalVotes A) :
    Prop :=
  ∃ q, lastEvaluation key log = some q ∧ votes.votesFor.length < q.toNat

def Tracked (log : EvaluationLog A O) (s : State A O W) : Prop :=
  ∀ key votes, s.votes.lookup key = some votes → votes.status = .initiated →
    FellShort log key votes

/-- As far as the other proposals go. -/
def TrackedBut (key : ProposalKey A O) (log : EvaluationLog A O) (s : State A O W) : Prop :=
  ∀ k votes, k ≠ key → s.votes.lookup k = some votes → votes.status = .initiated →
    FellShort log k votes

theorem Tracked.congr {log : EvaluationLog A O} (h : Tracked log s)
    (hvotes : s'.votes = s.votes) : Tracked log s' := by
  unfold Tracked
  rw [hvotes]
  exact h

theorem Tracked.insert {key : ProposalKey A O} {log : EvaluationLog A O}
    {new : ProposalVotes A} (h : Tracked log s) (hvotes : s'.votes = s.votes.insert key new) :
    TrackedBut key log s' := by
  intro k votes hne hlook hopen
  rw [hvotes, Finmap.lookup_insert_of_ne _ hne] at hlook
  exact h k votes hlook hopen

/-- An evaluation that completes the proposal, or finds it short of the threshold. -/
theorem TrackedBut.evaluated {key : ProposalKey A O} {log : EvaluationLog A O}
    {new : ProposalVotes A} {q : UInt32} (h : TrackedBut key log s)
    (hvotes : s'.votes = s.votes.insert key new)
    (hnew : new.status = .initiated → new.votesFor.length < q.toNat) :
    Tracked (log ++ [(key, q)]) s' := by
  intro k votes hlook hopen
  rw [hvotes] at hlook
  by_cases hk : k = key
  · subst hk
    rw [Finmap.lookup_insert] at hlook
    cases hlook
    exact ⟨q, lastEvaluation_self k log q, hnew hopen⟩
  · rw [Finmap.lookup_insert_of_ne _ hk] at hlook
    obtain ⟨q', hlast, hshort⟩ := h k votes hk hlook hopen
    exact ⟨q', (lastEvaluation_of_ne hk log q).trans hlast, hshort⟩

/-- What a dispatch evaluates keeps track of the open proposals. -/
def Tracks (exec : Dispatch A O W) (inner : Origin A → State A O W → EvaluationLog A O) :
    Prop :=
  ∀ origin log s s', Tracked log s → exec origin s = .ok s' →
    Tracked (log ++ inner origin s) s'

/-- A dispatch that leaves the votes alone evaluates nothing. -/
theorem Tracks.of_votes {exec : Dispatch A O W}
    (hvotes : ∀ origin s s', exec origin s = .ok s' → s'.votes = s.votes) :
    Tracks exec fun _ _ => [] := by
  intro origin log s s' htracked h
  rw [List.append_nil]
  exact htracked.congr (hvotes origin s s' h)

/-- So does the administration, where its functions leave the votes alone. -/
theorem Tracks.administration {f : State A O W → DispatchResult (State A O W)}
    (hvotes : ∀ s s', f s = .ok s' → s'.votes = s.votes) :
    Tracks (fun origin s => ensureAdmin T origin >>= fun _ => f s) fun _ _ => [] := by
  refine .of_votes fun origin s s' h => ?_
  rw [bind_eq_ok] at h
  obtain ⟨_, _, h⟩ := h
  exact hvotes s s' h

theorem resolution_tracked {exec : Dispatch A O W}
    {inner : Origin A → State A O W → EvaluationLog A O} (hinner : Tracks exec inner)
    {log : EvaluationLog A O} (htracked : TrackedBut (srcId, nonce, prop) log s)
    (h : tryResolveProposal T exec nonce srcId prop s = .ok s') :
    Tracked (log ++ resolution T inner nonce srcId prop s) s' := by
  obtain ⟨votes, hlook, hcomplete, hexpired, _⟩ := tryResolveProposal_ok h
  rw [tryResolveProposal_open hlook hcomplete hexpired] at h
  unfold resolution
  rw [hlook]
  dsimp only
  by_cases hfor : s.relayerThreshold.toNat ≤ votes.votesFor.length
  · -- approved, and then whatever the call does
    rw [if_pos hfor, bind_eq_ok] at h
    obtain ⟨s₁, hrun, hs'⟩ := h
    cases hs'
    have hstart : Tracked (log ++ [((srcId, nonce, prop), s.relayerThreshold)])
        (startExecution nonce srcId prop votes s) :=
      htracked.evaluated rfl fun hopen => by cases hopen
    have hafter := hinner _ _ _ _ hstart hrun
    rw [if_pos hfor, List.append_cons]
    exact hafter.congr rfl
  · rw [if_neg hfor] at h ⊢
    by_cases hagainst : votes.Hopeless s.relayerThreshold s.relayerCount
    · rw [if_pos hagainst] at h
      cases h
      exact htracked.evaluated rfl fun hopen => by cases hopen
    · rw [if_neg hagainst] at h
      cases h
      exact htracked.evaluated (StorageMap.insert_of_lookup hlook).symm fun _ => by omega

theorem vote_tracked {exec : Dispatch A O W}
    {inner : Origin A → State A O W → EvaluationLog A O} (hinner : Tracks exec inner)
    {log : EvaluationLog A O} (htracked : Tracked log s) {origin : Origin A} {who : A}
    (horigin : (ensureSigned origin : DispatchResult A) = .ok who) {inFavour : Bool}
    {s₁ : State A O W}
    (hcommit : commitVote T who nonce srcId prop inFavour s = .ok s₁)
    (hresolve : tryResolveProposal T exec nonce srcId prop s₁ = .ok s') :
    Tracked (log ++ voteEvaluations T inner origin nonce srcId prop inFavour s) s' := by
  have hevaluations : voteEvaluations T inner origin nonce srcId prop inFavour s =
      resolution T inner nonce srcId prop s₁ := by
    unfold voteEvaluations
    rw [horigin]
    show (match commitVote T who nonce srcId prop inFavour s with
      | .ok s₁ => resolution T inner nonce srcId prop s₁
      | .error _ => []) = _
    rw [hcommit]
  have hbut : TrackedBut (srcId, nonce, prop) log s₁ := by
    rw [(commitVote_ok hcommit).2.2.2]
    exact htracked.insert rfl
  rw [hevaluations]
  exact resolution_tracked hinner hbut hresolve

/-- Every call keeps track. The induction is on the call, as in `dispatch_smallSteps`. -/
theorem dispatch_tracked (T : Config A O W) (call : RuntimeCall A O) :
    Tracks (dispatch T call) (evaluations T call) := by
  induction call with
  -- the administration and the other pallets leave the votes alone
  | setThreshold threshold => exact .administration fun _ _ => setRelayerThreshold_votes
  | setResource id method => exact .administration fun _ _ => registerResource_votes
  | removeResource id => exact .administration fun _ _ => unregisterResource_votes
  | whitelistChain id => exact .administration fun _ _ => whitelist_votes
  | addRelayer v => exact .administration fun _ _ => registerRelayer_votes
  | removeRelayer v => exact .administration fun _ _ => unregisterRelayer_votes
  | other call =>
    refine .of_votes fun origin s s' h => ?_
    rw [dispatch] at h
    rw [T.otherFrame call origin s s' h]
  -- a vote opens the gap between votes and evaluations that its own evaluation closes
  | acknowledgeProposal nonce srcId rId call ih =>
    intro origin log s s' htracked h
    simp only [dispatch, acknowledgeProposal, voteFor, bind_eq_ok] at h
    obtain ⟨who, horigin, _, _, _, _, _, _, s₁, hcommit, hresolve⟩ := h
    exact vote_tracked ih htracked horigin hcommit hresolve
  | rejectProposal nonce srcId rId call ih =>
    intro origin log s s' htracked h
    simp only [dispatch, rejectProposal, voteAgainst, bind_eq_ok] at h
    obtain ⟨who, horigin, _, _, _, _, _, _, s₁, hcommit, hresolve⟩ := h
    exact vote_tracked ih htracked horigin hcommit hresolve
  | evalVoteState nonce srcId prop ih =>
    intro origin log s s' htracked h
    simp only [dispatch, evalVoteState, bind_eq_ok] at h
    obtain ⟨_, _, hresolve⟩ := h
    exact resolution_tracked ih (fun k votes _ => htracked k votes) hresolve
  -- what is kept of a batch is logged, in its order
  | batchAll first second ih₁ ih₂ =>
    intro origin log s s' htracked h
    simp only [dispatch, bind_eq_ok] at h
    obtain ⟨s₁, hfirst, hsecond⟩ := h
    have hmiddle := ih₁ origin log s s₁ htracked hfirst
    have hlast := ih₂ origin _ s₁ s' hmiddle hsecond
    unfold evaluations
    rw [hfirst]
    rw [List.append_assoc] at hlast
    exact hlast
  | batch first second ih₁ ih₂ =>
    intro origin log s s' htracked h
    unfold evaluations
    simp only [dispatch] at h
    cases hfirst : dispatch T first origin s with
    | error e =>
      simp only [hfirst] at h ⊢
      cases h
      rw [List.append_nil]
      exact htracked
    | ok s₁ =>
      have hmiddle := ih₁ origin log s s₁ htracked hfirst
      cases hsecond : dispatch T second origin s₁ with
      | error e =>
        simp only [hfirst, hsecond] at h ⊢
        cases h
        exact hmiddle
      | ok s₂ =>
        simp only [hfirst, hsecond] at h ⊢
        cases h
        have hlast := ih₂ origin _ s₁ s' hmiddle hsecond
        rw [List.append_assoc] at hlast
        exact hlast
  | dispatchAs asOrigin call ih =>
    intro origin log s s' htracked h
    unfold evaluations
    simp only [dispatch] at h
    cases hmay : T.mayDispatchAs origin asOrigin with
    | false => simp [hmay] at h
    | true =>
      cases hrun : dispatch T call asOrigin s with
      | error e =>
        simp only [hmay, hrun, if_true] at h ⊢
        cases h
        rw [List.append_nil]
        exact htracked
      | ok s₁ =>
        simp only [hmay, hrun, if_true] at h ⊢
        cases h
        exact ih asOrigin log s s' htracked hrun

/-! ## Every write leaves the votes well formed -/

/-- Somebody voted on the proposal, and what completed it is there. -/
structure Voted (votes : ProposalVotes A) : Prop where
  present : votes.votesFor ≠ [] ∨ votes.votesAgainst ≠ []
  approved : votes.status = .approved → votes.votesFor ≠ []
  rejected : votes.status = .rejected → votes.votesAgainst ≠ []

/-- The threshold is positive, and every proposal has been voted on. -/
structure WellVoted (s : State A O W) : Prop where
  threshold : 0 < s.relayerThreshold
  votes : ∀ key votes, s.votes.lookup key = some votes → Voted votes

omit [DecidableEq A] [DecidableEq O] in
theorem status_of_open {votes : ProposalVotes A} (hopen : votes.isComplete = false) :
    votes.status = .initiated := by
  simpa [ProposalVotes.isComplete] using hopen

omit [DecidableEq A] [DecidableEq O] in
theorem voted_add {votes : ProposalVotes A} (hopen : votes.isComplete = false) (who : A)
    (inFavour : Bool) : Voted (votes.add who inFavour) := by
  have hstatus := status_of_open hopen
  cases inFavour with
  | true =>
    refine ⟨Or.inl (by simp [ProposalVotes.add]), fun h => ?_, fun h => ?_⟩
    · simp [ProposalVotes.add]
    · simp [ProposalVotes.add, hstatus] at h
  | false =>
    refine ⟨Or.inr (by simp [ProposalVotes.add]), fun h => ?_, fun h => ?_⟩
    · simp [ProposalVotes.add, hstatus] at h
    · simp [ProposalVotes.add]

omit [DecidableEq A] [DecidableEq O] in
/-- Without a vote against nothing is rejected. -/
theorem ProposalVotes.Hopeless.votesAgainst {votes : ProposalVotes A} {threshold total : UInt32}
    (h : votes.Hopeless threshold total) : votes.votesAgainst ≠ [] := by
  intro hnone
  obtain ⟨hle, hlt⟩ := h
  -- the sum is then the threshold, which does not exceed the total
  rw [hnone, List.length_nil, UInt32.lt_iff_toNat_lt, UInt32.toNat_add] at hlt
  rw [UInt32.le_iff_toNat_le] at hle
  have hbound := threshold.toNat_lt
  simp at hlt
  omega

theorem WellVoted.insert {key : ProposalKey A O} {new : ProposalVotes A} (h : WellVoted s)
    (hthreshold : s'.relayerThreshold = s.relayerThreshold)
    (hvotes : s'.votes = s.votes.insert key new) (hnew : Voted new) : WellVoted s' := by
  refine ⟨hthreshold ▸ h.threshold, fun k votes hlook => ?_⟩
  rw [hvotes] at hlook
  by_cases hk : k = key
  · rw [hk, Finmap.lookup_insert] at hlook
    cases hlook
    exact hnew
  · rw [Finmap.lookup_insert_of_ne _ hk] at hlook
    exact h.votes k votes hlook

theorem SmallStep.voted (h : SmallStep T s s') (hs : WellVoted s) : WellVoted s' := by
  cases h with
  | setThreshold threshold hpos => exact ⟨hpos, hs.votes⟩
  | setResource | removeResource | whitelistChain | addRelayer | removeRelayer | succeed
  | advance => exact ⟨hs.threshold, hs.votes⟩
  | other call origin h =>
    rw [T.otherFrame call origin s s' h]
    exact ⟨hs.threshold, hs.votes⟩
  | vote who nonce srcId rId prop inFavour votes hwho hchain hresource hstored hopen =>
    exact hs.insert rfl rfl (voted_add hopen who inFavour)
  | approve nonce srcId prop votes hlook hopen hexpired hcount =>
    have hpos := UInt32.lt_iff_toNat_lt.mp hs.threshold
    -- as many votes as a positive threshold
    have hfor : votes.votesFor ≠ [] := by
      intro hnone
      rw [hnone, List.length_nil] at hcount
      exact absurd hpos (Nat.not_lt_of_le hcount)
    exact hs.insert rfl rfl ⟨Or.inl hfor, fun _ => hfor, fun h => (by cases h)⟩
  | reject nonce srcId prop votes hlook hopen hexpired hcount =>
    have hagainst := hcount.votesAgainst
    exact hs.insert rfl rfl ⟨Or.inr hagainst, fun h => (by cases h), fun _ => hagainst⟩

/-! ## Runs -/

/-- A run with the evaluations that took effect. -/
inductive LoggedRun (T : Config A O W) (s₀ : State A O W) :
    EvaluationLog A O → State A O W → Prop
  | refl : LoggedRun T s₀ [] s₀
  | dispatched {log : EvaluationLog A O} {s s' : State A O W} (hrun : LoggedRun T s₀ log s)
      (origin : Origin A) (call : RuntimeCall A O) (h : dispatch T call origin s = .ok s') :
      LoggedRun T s₀ (log ++ evaluations T call origin s) s'
  | failed {log : EvaluationLog A O} {s : State A O W} (hrun : LoggedRun T s₀ log s)
      (origin : Origin A) (call : RuntimeCall A O) (e : DispatchError Error)
      (h : dispatch T call origin s = .error e) : LoggedRun T s₀ log s
  | advance {log : EvaluationLog A O} {s : State A O W} (hrun : LoggedRun T s₀ log s)
      (block : Nat) (world : W) (hlater : s.block < block) :
      LoggedRun T s₀ log (advance block world s)

/-- A logged run is a run, and every run has a log. -/
theorem exists_loggedRun_iff :
    (∃ log, LoggedRun T s₀ log s) ↔ ReflTransGen (Step T) s₀ s := by
  constructor
  · rintro ⟨log, hrun⟩
    induction hrun with
    | refl => exact .refl
    | @dispatched log s s' _ origin call h ih =>
      have hstep : Step T s (applyExtrinsic T origin call s) := .extrinsic origin call s
      unfold applyExtrinsic at hstep
      rw [h] at hstep
      exact ih.tail hstep
    | failed _ origin call e h ih => exact ih
    | advance _ block world hlater ih => exact ih.tail (.advance block world _ hlater)
  · intro hrun
    induction hrun with
    | refl => exact ⟨[], .refl⟩
    | @tail s₁ s₂ _ hlast ih =>
      obtain ⟨log, hlog⟩ := ih
      cases hlast with
      | extrinsic origin call =>
        unfold applyExtrinsic
        cases h : dispatch T call origin s₁ with
        | ok s' => exact ⟨_, hlog.dispatched origin call h⟩
        | error e => exact ⟨log, hlog.failed origin call e h⟩
      | advance block world _ hlater => exact ⟨log, hlog.advance block world hlater⟩

/-- What a list of extrinsics evaluates. -/
def replayLog (T : Config A O W) : List (Origin A × RuntimeCall A O) → State A O W →
    EvaluationLog A O
  | [], _ => []
  | call :: calls, s =>
    match dispatch T call.2 call.1 s with
    | .ok s' => evaluations T call.2 call.1 s ++ replayLog T calls s'
    | .error _ => replayLog T calls s

theorem LoggedRun.replay {log : EvaluationLog A O} (hrun : LoggedRun T s₀ log s)
    (calls : List (Origin A × RuntimeCall A O)) :
    LoggedRun T s₀ (log ++ replayLog T calls s) (replay T calls s) := by
  induction calls generalizing log s with
  | nil =>
    rw [replayLog, List.append_nil]
    exact hrun
  | cons call calls ih =>
    show LoggedRun T s₀ _ (Chainbridge.replay T calls (applyExtrinsic T call.1 call.2 s))
    unfold replayLog applyExtrinsic
    cases h : dispatch T call.2 call.1 s with
    | ok s' =>
      have hrest := ih (hrun.dispatched call.1 call.2 h)
      rw [List.append_assoc] at hrest
      exact hrest
    | error e => exact ih (hrun.failed call.1 call.2 e h)

theorem LoggedRun.tracked {log : EvaluationLog A O} (h₀ : Tracked [] s₀)
    (hrun : LoggedRun T s₀ log s) : Tracked log s := by
  induction hrun with
  | refl => exact h₀
  | dispatched _ origin call h ih => exact dispatch_tracked T call origin _ _ _ ih h
  | failed _ origin call e h ih => exact ih
  | advance _ block world hlater ih => exact ih.congr rfl

omit [DecidableEq O] in
/-- At genesis nothing has been voted on. -/
theorem genesis_votes (h : Genesis T s) : s.votes = ∅ := by
  cases h with
  | default world => rfl
  | swap world chains relayers resources threshold s h =>
    simp only [initializeBridge, bind_eq_ok] at h
    obtain ⟨s₁, hchains, s₂, hrelayers, s₃, hresources, hthreshold⟩ := h
    have h₁ : s₁.votes = ∅ :=
      foldlM_invariant (I := fun s : State A O W => s.votes = ∅)
        (fun _ _ _ hs hstep => (whitelist_votes hstep).trans hs) rfl hchains
    have h₂ : s₂.votes = ∅ :=
      foldlM_invariant (I := fun s : State A O W => s.votes = ∅)
        (fun _ _ _ hs hstep => (registerRelayer_votes hstep).trans hs) h₁ hrelayers
    have h₃ : s₃.votes = ∅ :=
      foldlM_invariant (I := fun s : State A O W => s.votes = ∅)
        (fun _ _ _ hs hstep => (registerResource_votes hstep).trans hs) h₂ hresources
    exact (setRelayerThreshold_votes hthreshold).trans h₃

theorem genesis_voted (h : Genesis T s) : WellVoted s := by
  obtain ⟨world, hrun⟩ := genesis_smallSteps h
  have hdefault : WellVoted (State.default world : State A O W) :=
    ⟨by show 0 < defaultRelayerThreshold; decide, fun key votes hlook => by cases hlook⟩
  exact run_invariant (fun _ _ hs hstep => hstep.voted hs) hdefault hrun

/-! ## The ledger -/

/-- The number of relayers is kept in a machine word, which is right below its capacity, where
there is always something to take from it; the threshold is positive; no account votes twice on a
proposal, and somebody does; and an open proposal fell short when it was last evaluated. -/
structure VoteLedger (log : EvaluationLog A O) (s : State A O W) : Prop where
  counted : s.relayerCount = UInt32.ofNat (relayerSet s).card
  exactly : (relayerSet s).card < 2 ^ 32 →
    s.relayerCount.toNat = (relayerSet s).card ∧ ∀ who, isRelayer who s = true →
      0 < s.relayerCount
  threshold : 1 ≤ s.relayerThreshold
  distinct : ∀ key votes, s.votes.lookup key = some votes →
    votes.votesFor.Nodup ∧ votes.votesAgainst.Nodup ∧ votes.votesFor.Disjoint votes.votesAgainst
  voted : ∀ key votes, s.votes.lookup key = some votes → Voted votes
  initiated : ∀ key votes, s.votes.lookup key = some votes → votes.status = .initiated →
    FellShort log key votes

/-- For every runtime, every genesis and every run of calls, successful or failing, nested in
any way, and blocks: the vote ledger is well formed. -/
theorem vote_ledger (T : Config A O W) (s₀ s : State A O W) (log : EvaluationLog A O)
    (h₀ : Genesis T s₀) (hrun : LoggedRun T s₀ log s) : VoteLedger log s := by
  have hsteps : ReflTransGen (Step T) s₀ s := exists_loggedRun_iff.mp ⟨log, hrun⟩
  obtain ⟨hcounted, hinv⟩ := reachable_inv ⟨s₀, h₀, hsteps⟩
  have hvoted : WellVoted s :=
    run_invariant (fun _ _ hs hstep => hstep.voted hs) (genesis_voted h₀) (run_smallSteps hsteps)
  have hempty : Tracked [] s₀ := by
    intro key votes hlook
    rw [genesis_votes h₀] at hlook
    cases hlook
  constructor
  case counted => exact hcounted
  case exactly =>
    intro hfits
    have hcount := hcounted.toNat hfits
    refine ⟨hcount, fun who hwho => ?_⟩
    have hpos : 0 < (relayerSet s).card := Finset.card_pos.mpr ⟨who, mem_relayerSet.mpr hwho⟩
    rw [UInt32.lt_iff_toNat_lt, hcount]
    exact hpos
  case threshold =>
    have hpos := UInt32.lt_iff_toNat_lt.mp hvoted.threshold
    exact UInt32.le_iff_toNat_le.mpr hpos
  case distinct =>
    intro key votes hlook
    have htally : (ballot s).tallies key = some votes.tally := by simp [ballot, hlook]
    have hdistinct := (hinv.recorded key votes.tally htally).distinct
    obtain ⟨hfor, hagainst, hdisjoint⟩ := List.nodup_append'.mp hdistinct
    exact ⟨hfor, hagainst, hdisjoint⟩
  case voted => exact hvoted.votes
  case initiated => exact hrun.tracked hempty

/-- One of two votes was evaluated, under a threshold of two. -/
theorem vote_ledger_mock :
    VoteLedger [((1, 1, mockCall), 2)]
      (mockRun [(.signed 2, .acknowledgeProposal 1 1 (Vector.replicate 32 0) mockCall)]) :=
  vote_ledger mockRuntime (State.default ()) _ _ (.default ())
    (LoggedRun.refl.replay (mockSetup (Vector.replicate 32 0) ++
      [(.signed 2, .acknowledgeProposal 1 1 (Vector.replicate 32 0) mockCall)]))

/-! ## Where the counter wraps, and an evaluation that leaves no trace -/

/-- The accounts below `n` are made relayers. -/
def manyRelayers (n : Nat) : State Nat Empty Unit :=
  replay mockRuntime ((List.range n).map fun i => (.root, .addRelayer i)) (State.default ())

theorem manyRelayers_succ (n : Nat) :
    manyRelayers (n + 1) = applyExtrinsic mockRuntime .root (.addRelayer n) (manyRelayers n) := by
  unfold manyRelayers replay
  rw [List.range_succ, List.map_append, List.foldl_append]
  rfl

theorem relayerSet_manyRelayers (n : Nat) : relayerSet (manyRelayers n) = Finset.range n := by
  induction n with
  | zero => rfl
  | succ n ih =>
    have hnew : isRelayer n (manyRelayers n) = false := by
      rw [← Bool.not_eq_true, ← mem_relayerSet, ih]
      exact Finset.notMem_range_self
    have hadded : (manyRelayers (n + 1)).relayers = (manyRelayers n).relayers.insert n true := by
      rw [manyRelayers_succ]
      unfold applyExtrinsic
      simp only [dispatch, addRelayer, registerRelayer, hnew]
      rfl
    rw [relayerSet_insert hadded, ih, Finset.range_add_one]

theorem manyRelayers_reachable (n : Nat) : ReachableState mockRuntime (manyRelayers n) :=
  (Reachable.of_init (Genesis.default ())).trans (replay_run _ _ _)

/-- A call that the bridge account may not make has one vote in favour, and the threshold is
then lowered to one. -/
def mockLapsed : State Nat Empty Unit :=
  mockRun [(.signed 2, .acknowledgeProposal 1 1 (Vector.replicate 32 0) (.removeRelayer 9)),
    (.root, .setThreshold 1)]

/-- With `2 ^ 32` relayers their count is zero, and removing one underflows. And a proposal that
reaches the threshold when it is evaluated stays open when its call fails. -/
theorem vote_ledger_limits :
    (∃ s, ReachableState mockRuntime s ∧ (relayerSet s).card = 2 ^ 32 ∧ s.relayerCount = 0 ∧
      isRelayer 0 s = true) ∧
    ReachableState mockRuntime mockLapsed ∧
      mockLapsed.votes.lookup (1, 1, .removeRelayer 9) = some ⟨[2], [], .initiated, 50⟩ ∧
      mockLapsed.relayerThreshold = 1 ∧
      dispatch mockRuntime (.evalVoteState 1 1 (.removeRelayer 9)) (.signed 9) mockLapsed =
        .error .badOrigin := by
  refine ⟨⟨manyRelayers (2 ^ 32), manyRelayers_reachable _, ?_, ?_, ?_⟩,
    mockRun_reachable _, by rfl, by rfl, by rfl⟩
  · rw [relayerSet_manyRelayers, Finset.card_range]
  · have hcounted := (reachable_inv (manyRelayers_reachable (2 ^ 32))).1
    rw [Counted, relayerSet_manyRelayers, Finset.card_range] at hcounted
    rw [hcounted]
    rfl
  · rw [← mem_relayerSet, relayerSet_manyRelayers]
    exact Finset.mem_range.mpr (Nat.two_pow_pos 32)

end XXChain.Chainbridge
