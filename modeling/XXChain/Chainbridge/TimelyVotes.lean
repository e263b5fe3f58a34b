import XXChain.Chainbridge.HonestRelayers

/-!
# XXChain — votes that come in time

The other half of what honest relayers can rely on: what enough of them acknowledge in time is
approved, whatever the others do in between. Each vote is followed by a resolution in the same call,
so between two calls no open proposal has the votes that it needs; and a vote that is cast stays.

* **`dispatch_votesKept`** — no call takes a vote back, or changes a decided proposal;
* **`dispatch_prompt`** — no call of a user leaves an open proposal with enough votes;
* **`acknowledge_heard`** — an honest relayer who acknowledges a deposit in time is heard;
* **`approved_of_heard`** — when enough of them are, it is approved.
-/

namespace XXChain.Chainbridge

open Relation

variable {A O W : Type} [DecidableEq A] [DecidableEq O] {T : Config A O W} {s s₁ s' : State A O W}
  {R honest : Finset A} {t : Nat} {deposits : Finset (ProposalKey A O)} {nonce : DepositNonce}
  {srcId : ChainId} {prop : RuntimeCall A O} {votes : ProposalVotes A} {key : ProposalKey A O}
  {who : A}

/-! ## Votes stay -/

/-- Every vote for a proposal stays, and so does what is decided. -/
def VotesKept (s s' : State A O W) : Prop :=
  ∀ key votes, s.votes.lookup key = some votes → ∃ votes', s'.votes.lookup key = some votes' ∧
    (∀ who ∈ votes.votesFor, who ∈ votes'.votesFor) ∧ (votes.isComplete = true → votes' = votes)

theorem VotesKept.of_same (h : s'.votes = s.votes) : VotesKept s s' := by
  intro key votes hlook
  rw [← h] at hlook
  exact ⟨votes, hlook, fun _ hwho => hwho, fun _ => rfl⟩

theorem VotesKept.trans (h : VotesKept s s₁) (h' : VotesKept s₁ s') : VotesKept s s' := by
  intro key votes hlook
  obtain ⟨votes₁, hlook₁, hfor₁, hdecided₁⟩ := h key votes hlook
  obtain ⟨votes', hlook', hfor', hdecided'⟩ := h' key votes₁ hlook₁
  refine ⟨votes', hlook', fun who hwho => hfor' who (hfor₁ who hwho), fun hcomplete => ?_⟩
  have hsame := hdecided₁ hcomplete
  rw [hsame] at hdecided'
  exact hdecided' hcomplete

/-- A write to an open proposal, or to one that was not there. -/
theorem VotesKept.of_insert (h : s'.votes = s.votes.insert key votes)
    (hold : ∀ old, s.votes.lookup key = some old →
      old.isComplete = false ∧ ∀ who ∈ old.votesFor, who ∈ votes.votesFor) : VotesKept s s' := by
  intro other old hlook
  by_cases hkey : other = key
  · subst hkey
    obtain ⟨hopen, hfor⟩ := hold old hlook
    refine ⟨votes, ?_, hfor, fun hcomplete => ?_⟩
    · rw [h, Finmap.lookup_insert]
    · rw [hopen] at hcomplete
      cases hcomplete
  · refine ⟨old, ?_, fun _ hwho => hwho, fun _ => rfl⟩
    rw [h, Finmap.lookup_insert_of_ne _ hkey, hlook]

omit [DecidableEq A] in
theorem mem_votesFor_add {inFavour : Bool} {voter : A} (h : voter ∈ votes.votesFor) :
    voter ∈ (votes.add who inFavour).votesFor := by
  cases inFavour with
  | true => exact List.mem_append_left _ h
  | false => exact h

theorem SmallStep.votesKept (h : SmallStep T s s') : VotesKept s s' := by
  cases h with
  | vote who nonce srcId rId prop inFavour votes hwho hchain hresource hstored hcomplete =>
    refine .of_insert rfl fun old hlook => ?_
    have hsame : votes = old := by
      rw [← hstored, storedVotes, hlook, Option.getD_some]
    rw [hsame] at hcomplete ⊢
    exact ⟨hcomplete, fun _ => mem_votesFor_add⟩
  | approve nonce srcId prop votes hlook hcomplete =>
    refine .of_insert rfl fun old hold => ?_
    rw [hlook] at hold
    cases hold
    exact ⟨hcomplete, fun _ hwho => hwho⟩
  | reject nonce srcId prop votes hlook hcomplete =>
    refine .of_insert rfl fun old hold => ?_
    rw [hlook] at hold
    cases hold
    exact ⟨hcomplete, fun _ hwho => hwho⟩
  | other call origin hrun =>
    have hframe := T.otherFrame call origin _ _ hrun
    rw [hframe]
    exact .of_same rfl
  | setThreshold | setResource | removeResource | whitelistChain | addRelayer | removeRelayer
  | succeed | advance => exact .of_same rfl

theorem dispatch_votesKept {call : RuntimeCall A O} {origin : Origin A}
    (h : dispatch T call origin s = .ok s') : VotesKept s s' := by
  have hsteps := dispatch_smallSteps h
  clear h
  induction hsteps with
  | refl => exact .of_same rfl
  | tail _ hstep ih => exact ih.trans hstep.votesKept

/-! ## Open proposals lack votes -/

/-- The proposals that pass lack votes for the threshold while they are open. -/
def LackVotes (t : Nat) (P : ProposalKey A O → Prop) (s : State A O W) : Prop :=
  ∀ key votes, P key → s.votes.lookup key = some votes → votes.isComplete = false →
    votes.votesFor.length < t

/-- The threshold is `t`, and every proposal that has the votes is decided. -/
structure Prompt (t : Nat) (s : State A O W) : Prop where
  threshold : s.relayerThreshold.toNat = t
  lack : LackVotes t (fun _ => True) s

/-- One proposal may have the votes, if it is decided now. -/
theorem Prompt.of_insert (votes : ProposalVotes A) (hthreshold : s.relayerThreshold.toNat = t)
    (hs : LackVotes t (fun other => other ≠ key) s)
    (hdecided : votes.isComplete = false → votes.votesFor.length < t) :
    Prompt t { s with votes := s.votes.insert key votes } where
  threshold := hthreshold
  lack := by
    intro other stored _ hlook hopen
    by_cases hkey : other = key
    · subst hkey
      rw [Finmap.lookup_insert] at hlook
      cases hlook
      exact hdecided hopen
    · rw [Finmap.lookup_insert_of_ne _ hkey] at hlook
      exact hs other stored hkey hlook hopen

/-- Resolving a proposal decides it, if it has the votes. -/
theorem resolution_prompt {exec : Dispatch A O W} (hexec : ExecKeeps T (Prompt t) exec)
    (hthreshold : s.relayerThreshold.toNat = t)
    (hs : LackVotes t (fun other => other ≠ (srcId, nonce, prop)) s)
    (h : tryResolveProposal T exec nonce srcId prop s = .ok s') : Prompt t s' := by
  obtain ⟨votes, hlook, hcomplete, hexpired, _⟩ := tryResolveProposal_ok h
  rw [tryResolveProposal_open hlook hcomplete hexpired] at h
  split at h
  next =>
    rw [bind_eq_ok] at h
    obtain ⟨s₁, hrun, hs'⟩ := h
    cases hs'
    have hstored := Prompt.of_insert { votes with status := .approved } hthreshold hs
      fun hopen => absurd (show true = false from hopen) (by decide)
    have hstart : Prompt t (startExecution nonce srcId prop votes s) :=
      ⟨hstored.threshold, hstored.lack⟩
    have hdone := hexec _ s₁ hstart hrun
    exact ⟨hdone.threshold, hdone.lack⟩
  next hfew =>
    split at h
    next =>
      cases h
      have hstored := Prompt.of_insert { votes with status := .rejected } hthreshold hs
        fun hopen => absurd (show true = false from hopen) (by decide)
      exact ⟨hstored.threshold, hstored.lack⟩
    next =>
      cases h
      refine ⟨hthreshold, fun other stored _ hother hopen => ?_⟩
      by_cases hkey : other = (srcId, nonce, prop)
      · rw [hkey, hlook] at hother
        cases hother
        rw [hthreshold] at hfew
        exact Nat.lt_of_not_le hfew
      · exact hs other stored hkey hother hopen

theorem prompt_rule : CallRule T (Prompt t) fun _ _ => True where
  frame := by
    intro s s' hs hframe
    rw [hframe]
    exact ⟨hs.threshold, hs.lack⟩
  parts := fun _ _ _ _ => ⟨trivial, trivial⟩
  executed := fun _ => trivial
  vote := by
    intro exec p inFavour who s s₁ s' hexec _ _ hs hcommit hresolve
    obtain ⟨_, _, _, hs₁⟩ := commitVote_ok hcommit
    refine resolution_prompt hexec (by rw [hs₁]; exact hs.threshold) ?_ hresolve
    intro other stored hkey hlook hopen
    rw [hs₁] at hlook
    have hbefore : s.votes.lookup other = some stored :=
      (Finmap.lookup_insert_of_ne _ hkey).symm.trans hlook
    exact hs.lack other stored trivial hbefore hopen
  evaluate := by
    intro exec nonce srcId prop s s' hexec hs hresolve
    exact resolution_prompt hexec hs.threshold
      (fun other stored _ => hs.lack other stored trivial) hresolve

/-- **No call leaves a decision open.** A call that no admin dispatches keeps every proposal that
has the votes decided. -/
theorem dispatch_prompt (hbridge : Powerless T (.signed T.accountId)) (call : RuntimeCall A O)
    {origin : Origin A} (hpower : Powerless T origin) (hs : Prompt t s)
    (h : dispatch T call origin s = .ok s') : Prompt t s' :=
  prompt_rule.dispatch hbridge call hpower trivial hs h

/-! ## Votes that are heard -/

/-- The proposal has the vote, or is approved already. -/
def Heard (key : ProposalKey A O) (who : A) (s : State A O W) : Prop :=
  ∃ votes, s.votes.lookup key = some votes ∧ (votes.status = .approved ∨ who ∈ votes.votesFor)

theorem Heard.kept (h : Heard key who s) (hkept : VotesKept s s') : Heard key who s' := by
  obtain ⟨votes, hlook, hheard⟩ := h
  obtain ⟨votes', hlook', hfor, hdecided⟩ := hkept key votes hlook
  refine ⟨votes', hlook', ?_⟩
  rcases hheard with happroved | hvoted
  · have hcomplete : votes.isComplete = true := by
      rw [ProposalVotes.isComplete, happroved]
      rfl
    rw [hdecided hcomplete]
    exact Or.inl happroved
  · exact Or.inr (hfor who hvoted)

/-- The proposal can be acknowledged, it has not expired, and its call succeeds if it is
executed. -/
structure Timely (T : Config A O W) (p : Proposal A O) (s : State A O W) : Prop where
  chain : chainWhitelisted p.srcId s = true
  resource : resourceExists p.rId s = true
  time : (storedVotes T p.nonce p.srcId p.call s).isExpired s.block = false
  succeeds : ∀ s₁, Bookkeeping s s₁ → ∃ s₂, dispatch T p.call (.signed T.accountId) s₁ = .ok s₂

omit [DecidableEq A] [DecidableEq O] in
theorem Bookkeeping.trans (h : Bookkeeping s s₁) (h' : Bookkeeping s₁ s') : Bookkeeping s s' where
  frame := by rw [h'.frame, h.frame]
  outbound := h'.outbound.trans h.outbound

/-- A vote that is committed in time is heard, whatever the resolution then does. -/
theorem submission_heard {p : Proposal A O} (hwho : isRelayer who s = true)
    (htimely : Timely T p s) (hopen : (storedVotes T p.nonce p.srcId p.call s).isComplete = false)
    (hfresh : (storedVotes T p.nonce p.srcId p.call s).hasVoted who = false) :
    ∃ s', dispatch T (p.submission true) (.signed who) s = .ok s' ∧ Heard p.key who s' := by
  have hdispatch := dispatch_submission (T := T) (p := p) true hwho htimely.chain htimely.resource
  have htime := htimely.time
  generalize hvotes : storedVotes T p.nonce p.srcId p.call s = votes at hopen hfresh htime
  have hcommit : commitVote T who p.nonce p.srcId p.call true s =
      .ok (commitment who p.nonce p.srcId p.call true votes s) := by
    rw [commitVote_eq, hvotes, hopen, htime, hfresh]
    rfl
  generalize hs₁ : commitment who p.nonce p.srcId p.call true votes s = s₁ at hcommit
  have hlook : s₁.votes.lookup (p.srcId, p.nonce, p.call) = some (votes.add who true) := by
    rw [← hs₁]
    exact Finmap.lookup_insert _
  have hvoted : who ∈ (votes.add who true).votesFor :=
    List.mem_append_right _ (List.mem_singleton_self who)
  have htime₁ : (votes.add who true).isExpired s₁.block = false := by
    rw [← hs₁]
    exact htime
  rw [hcommit] at hdispatch
  rw [hdispatch]
  show ∃ s', tryResolveProposal T (dispatch T p.call) p.nonce p.srcId p.call s₁ = _ ∧ _
  rw [tryResolveProposal_open hlook hopen htime₁]
  split
  next =>
    -- approved: the call is executed
    have hstart : Bookkeeping s
        (startExecution p.nonce p.srcId p.call (votes.add who true) s₁) :=
      (commitVote_bookkeeping hcommit).trans startExecution_bookkeeping
    obtain ⟨s₂, hrun⟩ := htimely.succeeds _ hstart
    have hheard : Heard p.key who
        (startExecution p.nonce p.srcId p.call (votes.add who true) s₁) :=
      ⟨_, Finmap.lookup_insert _, Or.inl rfl⟩
    have hdone : Heard p.key who s₂ := hheard.kept (dispatch_votesKept hrun)
    refine ⟨s₂.depositEvent (.proposalSucceeded p.srcId p.nonce), ?_, hdone.kept (.of_same rfl)⟩
    rw [hrun]
    rfl
  next =>
    split
    next => exact ⟨_, rfl, _, Finmap.lookup_insert _, Or.inr hvoted⟩
    next => exact ⟨_, rfl, _, hlook, Or.inr hvoted⟩

/-- **An acknowledgement is heard.** If an honest relayer acknowledges a deposit in time, and the
honest ones reach the threshold, then after that the proposal has the vote or is approved. -/
theorem acknowledge_heard {p : Proposal A O} (hs : Vouched R honest t deposits s)
    (hmany : (R \ honest).card + t ≤ R.card) (hwho : who ∈ R) (hhonest : who ∈ honest)
    (hdeposit : p.key ∈ deposits) (htimely : Timely T p s) :
    Heard p.key who (applyExtrinsic T (.signed who) (p.submission true) s) := by
  have hrelayer : isRelayer who s = true := by
    rw [← hs.relayers] at hwho
    exact mem_relayerSet.mp hwho
  -- a vote that is there already stays, whether the call fails or not
  have hkept : VotesKept s (applyExtrinsic T (.signed who) (p.submission true) s) := by
    unfold applyExtrinsic
    split
    next s' hrun => exact dispatch_votesKept hrun
    next => exact .of_same rfl
  have hcast : (storedVotes T p.nonce p.srcId p.call s).isComplete = false →
      (storedVotes T p.nonce p.srcId p.call s).hasVoted who = false →
      Heard p.key who (applyExtrinsic T (.signed who) (p.submission true) s) := by
    intro hopen hfresh
    obtain ⟨s', hrun, hheard⟩ := submission_heard hrelayer htimely hopen hfresh
    rw [applyExtrinsic, hrun]
    exact hheard
  cases hlook : s.votes.lookup p.key with
  | none =>
    have hnew : storedVotes T p.nonce p.srcId p.call s = .new (s.block + T.proposalLifetime) := by
      rw [storedVotes, show s.votes.lookup (p.srcId, p.nonce, p.call) = none from hlook]
      rfl
    rw [hnew] at hcast
    exact hcast rfl rfl
  | some votes =>
    have hvotes := hs.votes _ votes hlook
    rw [storedVotes_of_lookup hlook] at hcast
    cases hstatus : votes.status with
    | approved => exact Heard.kept ⟨votes, hlook, Or.inl hstatus⟩ hkept
    | rejected => exact absurd hdeposit (hvotes.rejected hmany hstatus)
    | initiated =>
      have hopen : votes.isComplete = false := by
        rw [ProposalVotes.isComplete, hstatus]
        rfl
      by_cases hvoted : who ∈ votes.votesFor
      · exact Heard.kept ⟨votes, hlook, Or.inr hvoted⟩ hkept
      · have hagainst : who ∉ votes.votesAgainst := fun hmem =>
          (hvotes.votesAgainst who hmem).2 hhonest hdeposit
        exact hcast hopen (by simp [ProposalVotes.hasVoted, hvoted, hagainst])

/-- **Enough are heard.** A deposit that as many honest relayers have voted for as the threshold
asks is approved. -/
theorem approved_of_heard (hs : Vouched R honest t deposits s) (hprompt : Prompt t s)
    (hmany : (R \ honest).card + t ≤ R.card) (hdeposit : key ∈ deposits) {Q : Finset A}
    (hpos : 0 < t) (hQ : t ≤ Q.card) (hheard : ∀ who ∈ Q, Heard key who s) :
    ∃ votes, s.votes.lookup key = some votes ∧ votes.status = .approved := by
  obtain ⟨first, hfirst⟩ := Finset.card_pos.mp (Nat.lt_of_lt_of_le hpos hQ)
  obtain ⟨votes, hlook, _⟩ := hheard first hfirst
  refine ⟨votes, hlook, ?_⟩
  have hvotes := hs.votes key votes hlook
  cases hstatus : votes.status with
  | approved => rfl
  | rejected => exact absurd hdeposit (hvotes.rejected hmany hstatus)
  | initiated =>
    have hopen : votes.isComplete = false := by
      rw [ProposalVotes.isComplete, hstatus]
      rfl
    have hfew := hprompt.lack key votes trivial hlook hopen
    have hsubset : Q ⊆ votes.votesFor.toFinset := by
      intro who hwho
      obtain ⟨votes', hlook', happroved | hvoted⟩ := hheard who hwho
      · rw [hlook] at hlook'
        cases hlook'
        rw [hstatus] at happroved
        cases happroved
      · rw [hlook] at hlook'
        cases hlook'
        exact List.mem_toFinset.mpr hvoted
    have hcard := Finset.card_le_card hsubset
    have hlength := List.toFinset_card_le votes.votesFor
    omega

end XXChain.Chainbridge
