import XXChain.Chainbridge.AtMostOnce
import XXChain.Lib.FixedRoster

/-!
# XXChain — the order of the votes on a bridge proposal

The relayers are assigned their votes in advance and submit them in any order, with
evaluations by anyone and later blocks in between. A proposal is decided as soon as the
counts allow it, which is after different votes in different orders; the decision is the
same.

* **`vote_order_irrelevant`** — the proposal ends up approved, and executed once, when enough
  relayers are assigned a vote in favour, and rejected otherwise;
* **`crowd_undecided`** — with `2 ^ 32 - 1` relayers, the most that `RelayerCount` can count,
  no vote against is ever enough.
-/

namespace XXChain.Chainbridge

open ThresholdVote Relation

variable {A O W : Type} [DecidableEq A] [DecidableEq O] {T : Config A O W}
  {s s' : State A O W}

/-! ## Turns -/

/-- What may happen next: a relayer submits its vote, somebody evaluates the proposal, or
blocks go by, with whatever the other pallets do in them. -/
inductive Turn (A W : Type) where
  | submit (who : A)
  | evaluate (origin : Origin A)
  | advance (blocks : Nat) (world : W)
  deriving DecidableEq

def takeTurn (T : Config A O W) (p : Proposal A O) (side : A → Bool) (s : State A O W) :
    Turn A W → State A O W
  | .submit who => applyExtrinsic T (.signed who) (p.submission (side who)) s
  | .evaluate origin => applyExtrinsic T origin (.evalVoteState p.nonce p.srcId p.call) s
  | .advance blocks world => advance (s.block + blocks + 1) world s

theorem takeTurn_step (p : Proposal A O) (side : A → Bool) (s : State A O W) (turn : Turn A W) :
    Step T s (takeTurn T p side s turn) := by
  cases turn with
  | submit who => exact .extrinsic _ _ s
  | evaluate origin => exact .extrinsic _ _ s
  | advance blocks world => exact .advance _ world s (by omega)

/-- The proposal has not expired; a vote that opens it is always in time, unless proposals
have no lifetime at all. -/
def OnTime (T : Config A O W) (p : Proposal A O) (s : State A O W) : Prop :=
  (storedVotes T p.nonce p.srcId p.call s).isExpired s.block = false

/-- Where the proposal has its votes, its call succeeds, and leaves the relayers, the chain
and the resource in place. -/
def CallSucceeds (T : Config A O W) (p : Proposal A O) (s : State A O W) : Prop :=
  ∀ votes, s.votes.lookup p.key = some votes → s.relayerThreshold.toNat ≤ votes.votesFor.length →
    ∃ s', dispatch T p.call (.signed T.accountId)
        (startExecution p.nonce p.srcId p.call votes s) = .ok s' ∧
      relayerSet s' = relayerSet s ∧ chainWhitelisted p.srcId s' = true ∧
      resourceExists p.rId s' = true

/-- A turn of a relayer comes in time, and if its vote is committed the call, where it is
dispatched, succeeds. -/
def Admissible (T : Config A O W) (p : Proposal A O) (side : A → Bool) (R : Finset A)
    (s : State A O W) : Turn A W → Prop
  | .submit who => who ∈ R ∧ OnTime T p s ∧
      ∀ s₁, commitVote T who p.nonce p.srcId p.call (side who) s = .ok s₁ → CallSucceeds T p s₁
  | .evaluate _ => True
  | .advance _ _ => True

/-- The votes decide, whatever the order of the turns: the proposal is complete after them,
approved and executed once or rejected and never executed, as the votes assigned to `R` say;
and a submission to the complete proposal fails and changes nothing. -/
def SettledByVotes (T : Config A O W) (p : Proposal A O) (side : A → Bool) (R : Finset A)
    (t : UInt32) (s₀ : State A O W) (turns : List (Turn A W)) : Prop :=
  let s := turns.foldl (takeTurn T p side) s₀
  (∃ votes, s.votes.lookup p.key = some votes ∧ votes.isComplete = true ∧
    if t.toNat ≤ (R.filter fun who => side who = true).card then
      votes.status = .approved ∧ executions p.key s.history = 1
    else votes.status = .rejected ∧ executions p.key s.history = 0) ∧
  Along (takeTurn T p side) (fun s turn => ∀ who votes, turn = .submit who →
    s.votes.lookup p.key = some votes → votes.isComplete = true →
      dispatch T (p.submission (side who)) (.signed who) s =
        .error (.module .proposalAlreadyComplete) ∧ takeTurn T p side s turn = s) s₀ turns

/-! ## One submission -/

omit [DecidableEq A] [DecidableEq O] in
/-- Below the capacity of a word, the rejecting comparison is one of numbers. -/
theorem hopeless_iff {votes : ProposalVotes A} {threshold total : UInt32}
    (hfits : votes.votesAgainst.length + threshold.toNat < 2 ^ 32) :
    votes.Hopeless threshold total ↔ threshold.toNat ≤ total.toNat ∧
      total.toNat < votes.votesAgainst.length + threshold.toNat := by
  unfold ProposalVotes.Hopeless
  rw [UInt32.le_iff_toNat_le, UInt32.lt_iff_toNat_lt, UInt32.toNat_add, UInt32.toNat_ofNat']
  rw [Nat.mod_eq_of_lt (by omega : votes.votesAgainst.length < 2 ^ 32), Nat.mod_eq_of_lt hfits]

/-! ## Before and after the decision -/

section Phases

variable {p : Proposal A O} {side : A → Bool} {R voters : Finset A} {t : UInt32}

/-- The relayers, the chain and the resource are in place. -/
structure Setting (p : Proposal A O) (R : Finset A) (s : State A O W) : Prop where
  relayers : relayerSet s = R
  chain : chainWhitelisted p.srcId s = true
  resource : resourceExists p.rId s = true

/-- The votes are those of `voters`, too few of either kind to decide. -/
structure Undecided (side : A → Bool) (R : Finset A) (t : UInt32) (voters : Finset A)
    (votes : ProposalVotes A) : Prop where
  incomplete : votes.isComplete = false
  collects : votes.tally.Collects side voters
  few_for : votes.votesFor.length < t.toNat
  few_against : votes.votesAgainst.length + t.toNat ≤ R.card

/-- The proposal is open, and `voters` have voted on it. -/
structure Pending (T : Config A O W) (p : Proposal A O) (side : A → Bool) (R : Finset A)
    (t : UInt32) (voters : Finset A) (s : State A O W) : Prop extends Setting p R s where
  threshold : s.relayerThreshold = t
  counted : Counted s
  members : voters ⊆ R
  undecided : Undecided side R t voters (storedVotes T p.nonce p.srcId p.call s)

/-- What the votes assigned to `R` come to. -/
def verdict (side : A → Bool) (R : Finset A) (t : UInt32) : ProposalStatus :=
  if t.toNat ≤ (camp side true R).card then .approved else .rejected

/-- The proposal is decided the way the votes assigned to `R` say. -/
structure Decided (p : Proposal A O) (side : A → Bool) (R : Finset A) (t : UInt32)
    (s : State A O W) : Prop extends Setting p R s where
  entry : ∃ votes, s.votes.lookup p.key = some votes ∧ votes.status = verdict side R t

omit [DecidableEq O] in
theorem Setting.isRelayer {who : A} (h : Setting p R s) (hwho : who ∈ R) :
    isRelayer who s = true :=
  mem_relayerSet.mp (h.relayers ▸ hwho)

omit [DecidableEq A] in
theorem isComplete_of_verdict {votes : ProposalVotes A} (h : votes.status = verdict side R t) :
    votes.isComplete = true := by
  unfold ProposalVotes.isComplete
  rw [h, verdict]
  split <;> rfl

/-! ### A decided proposal -/

/-- A submission to a decided proposal fails. -/
theorem Decided.submit {who : A} (h : Decided p side R t s) (hwho : who ∈ R) :
    dispatch T (p.submission (side who)) (.signed who) s =
      .error (.module .proposalAlreadyComplete) := by
  obtain ⟨votes, hlook, hstatus⟩ := h.entry
  rw [dispatch_submission _ (h.isRelayer hwho) h.chain h.resource, commitVote_eq,
    storedVotes_of_lookup hlook, if_pos (isComplete_of_verdict hstatus)]
  rfl

/-- Nothing happens to a decided proposal any more. -/
theorem Decided.turn {turn : Turn A W} (h : Decided p side R t s)
    (hturn : Admissible T p side R s turn) : Decided p side R t (takeTurn T p side s turn) := by
  cases turn with
  | submit who =>
    show Decided p side R t (applyExtrinsic T _ _ s)
    rw [applyExtrinsic, h.submit hturn.1]
    exact h
  | evaluate origin =>
    show Decided p side R t (applyExtrinsic T _ _ s)
    obtain ⟨votes, hlook, hstatus⟩ := h.entry
    have hclosed : (votes.isComplete || votes.isExpired s.block) = true := by
      rw [isComplete_of_verdict hstatus, Bool.true_or]
    have hfail : ∃ e, dispatch T (.evalVoteState p.nonce p.srcId p.call) origin s = .error e := by
      cases origin with
      | signed who => exact ⟨_, tryResolveProposal_closed hlook hclosed⟩
      | root | none | other => exact ⟨_, rfl⟩
    obtain ⟨e, he⟩ := hfail
    rw [applyExtrinsic, he]
    exact h
  | advance blocks world => exact ⟨⟨h.relayers, h.chain, h.resource⟩, h.entry⟩

/-! ### An open proposal -/

theorem Pending.count (h : Pending T p side R t voters s) (hsize : R.card + 1 < 2 ^ 32) :
    s.relayerCount.toNat = R.card := by
  rw [h.counted.toNat (by rw [h.relayers]; omega), h.relayers]

/-- Too few votes do not decide. -/
theorem Pending.not_hopeless {votes : ProposalVotes A} (h : Pending T p side R t voters s)
    (hvotes : votes.votesAgainst.length + t.toNat ≤ R.card) (hsize : R.card + 1 < 2 ^ 32) :
    ¬votes.Hopeless s.relayerThreshold s.relayerCount := by
  intro hno
  have hlt := hno.lt
  rw [h.threshold, h.count hsize] at hlt
  omega

/-- An evaluation finds too few votes and changes nothing. -/
theorem Pending.evaluate {origin : Origin A} (h : Pending T p side R t voters s)
    (hsize : R.card + 1 < 2 ^ 32) :
    applyExtrinsic T origin (.evalVoteState p.nonce p.srcId p.call) s = s := by
  unfold applyExtrinsic
  cases origin with
  | root | none | other => rfl
  | signed who =>
    have hdispatch : dispatch T (.evalVoteState p.nonce p.srcId p.call) (.signed who) s =
        tryResolveProposal T (dispatch T p.call) p.nonce p.srcId p.call s := rfl
    rw [hdispatch]
    cases hlook : s.votes.lookup (p.srcId, p.nonce, p.call) with
    | none =>
      unfold tryResolveProposal
      rw [hlook]
    | some votes =>
      have hvotes := h.undecided
      rw [storedVotes_of_lookup hlook] at hvotes
      cases hexpired : votes.isExpired s.block with
      | true =>
        rw [tryResolveProposal_closed hlook (by rw [hexpired, Bool.or_true])]
      | false =>
        have hfor : ¬s.relayerThreshold.toNat ≤ votes.votesFor.length := by
          rw [h.threshold]
          exact Nat.not_le.mpr hvotes.few_for
        rw [tryResolveProposal_open hlook hvotes.incomplete hexpired, if_neg hfor,
          if_neg (h.not_hopeless hvotes.few_against hsize)]

/-- Later blocks only move the deadline of a proposal nobody has voted on. -/
theorem Pending.advance {blocks : Nat} {world : W} (h : Pending T p side R t voters s) :
    Pending T p side R t voters (advance (s.block + blocks + 1) world s) := by
  refine ⟨⟨h.relayers, h.chain, h.resource⟩, h.threshold, h.counted, h.members, ?_⟩
  have hvotes := h.undecided
  unfold storedVotes at hvotes ⊢
  show Undecided side R t voters ((s.votes.lookup _).getD _)
  cases hlook : s.votes.lookup (p.srcId, p.nonce, p.call) with
  | none =>
    rw [hlook] at hvotes
    obtain ⟨hnodup, hnodup', hfor, hagainst⟩ := hvotes.collects
    exact ⟨rfl, ⟨hnodup, hnodup', hfor, hagainst⟩, hvotes.few_for, hvotes.few_against⟩
  | some votes =>
    rw [hlook] at hvotes
    exact hvotes

/-- A relayer that has voted is turned away. -/
theorem Pending.repeated {who : A} (h : Pending T p side R t voters s) (hwho : who ∈ voters)
    (htime : OnTime T p s) :
    applyExtrinsic T (.signed who) (p.submission (side who)) s = s := by
  have hvoted : (storedVotes T p.nonce p.srcId p.call s).hasVoted who = true := by
    have hmem := h.undecided.collects.mem_iff.mpr hwho
    simpa [ProposalVotes.hasVoted, ProposalVotes.tally] using hmem
  rw [applyExtrinsic,
    dispatch_submission _ (h.isRelayer (h.members hwho)) h.chain h.resource, commitVote_eq,
    if_neg (by rw [h.undecided.incomplete]; decide), if_neg (by rw [htime]; decide),
    if_pos hvoted]
  rfl

/-- A relayer's vote is committed. -/
theorem Pending.commit {who : A} (h : Pending T p side R t voters s) (hwho : who ∉ voters)
    (htime : OnTime T p s) :
    commitVote T who p.nonce p.srcId p.call (side who) s =
      .ok (commitment who p.nonce p.srcId p.call (side who)
        (storedVotes T p.nonce p.srcId p.call s) s) := by
  have hvoted : ¬(storedVotes T p.nonce p.srcId p.call s).hasVoted who = true := by
    rw [← h.undecided.collects.mem_iff] at hwho
    simpa [ProposalVotes.hasVoted, ProposalVotes.tally] using hwho
  rw [commitVote_eq, if_neg (by rw [h.undecided.incomplete]; decide),
    if_neg (by rw [htime]; decide), if_neg hvoted]

/-- Resolving the proposal after a vote: it is executed, rejected or left open, as the votes
of `voters` allow. -/
theorem resolve_after_vote {votes : ProposalVotes A} (hset : Setting p R s)
    (hthreshold : s.relayerThreshold = t) (hcounted : Counted s) (hmembers : voters ⊆ R)
    (hsize : R.card + 1 < 2 ^ 32) (hle : t.toNat ≤ R.card)
    (hlook : s.votes.lookup p.key = some votes) (hincomplete : votes.isComplete = false)
    (hexpired : votes.isExpired s.block = false) (hcollects : votes.tally.Collects side voters)
    (hagainst : votes.votesAgainst.length + t.toNat ≤ R.card + 1) (hcall : CallSucceeds T p s) :
    ∃ s', tryResolveProposal T (dispatch T p.call) p.nonce p.srcId p.call s = .ok s' ∧
      (Pending T p side R t voters s' ∨ Decided p side R t s') := by
  have hcount : s.relayerCount.toNat = R.card := by
    rw [hcounted.toNat (by rw [hset.relayers]; omega), hset.relayers]
  rw [tryResolveProposal_open hlook hincomplete hexpired]
  by_cases hfor : s.relayerThreshold.toNat ≤ votes.votesFor.length
  · -- the call runs in the state with the approval, and its entry is closed from there on
    obtain ⟨s', hrun, hrelayers, hchain, hresource⟩ := hcall votes hlook hfor
    have hstart : (startExecution p.nonce p.srcId p.call votes s).votes.lookup p.key =
        some { votes with status := .approved } :=
      Finmap.lookup_insert _
    obtain ⟨hlook', _, _⟩ := (dispatch_refines hrun).closed hcounted hstart rfl
    rw [if_pos hfor, hrun]
    refine ⟨_, rfl, .inr ⟨⟨?_, hchain, hresource⟩, _, hlook', ?_⟩⟩
    · exact hrelayers.trans hset.relayers
    · rw [hthreshold] at hfor
      exact (if_pos (hcollects.le_of_approved hmembers hfor)).symm
  · rw [if_neg hfor]
    by_cases hno : votes.Hopeless s.relayerThreshold s.relayerCount
    · rw [if_pos hno]
      have hlt := hno.lt
      rw [hcount, hthreshold] at hlt
      have hfew := hcollects.lt_of_rejected hmembers hlt
      refine ⟨_, rfl, .inr ⟨⟨hset.relayers, hset.chain, hset.resource⟩, _,
        Finmap.lookup_insert _, ?_⟩⟩
      exact (if_neg (Nat.not_le.mpr hfew)).symm
    · rw [if_neg hno]
      refine ⟨s, rfl, .inl ⟨hset, hthreshold, hcounted, hmembers, ?_⟩⟩
      rw [hthreshold] at hfor hno
      rw [hopeless_iff (by omega), hcount] at hno
      rw [storedVotes_of_lookup hlook]
      exact ⟨hincomplete, hcollects, by omega, by omega⟩

/-- One more vote, which decides the proposal the way the votes assigned to `R` say, or
leaves it open. -/
theorem Pending.submit {who : A} (h : Pending T p side R t voters s) (hsize : R.card + 1 < 2 ^ 32)
    (hle : t.toNat ≤ R.card) (hturn : Admissible T p side R s (.submit who : Turn A W)) :
    Pending T p side R t (insert who voters) (takeTurn T p side s (.submit who)) ∨
      Decided p side R t (takeTurn T p side s (.submit who)) := by
  obtain ⟨hmem, htime, hcall⟩ := hturn
  show Pending T p side R t _ (applyExtrinsic T _ _ s) ∨ Decided p side R t (applyExtrinsic T _ _ s)
  by_cases hwho : who ∈ voters
  · rw [h.repeated hwho htime, Finset.insert_eq_of_mem hwho]
    exact .inl h
  · have hcommit := h.commit hwho htime
    have hopen := h.undecided
    have hexpired : (storedVotes T p.nonce p.srcId p.call s).isExpired s.block = false := htime
    generalize storedVotes T p.nonce p.srcId p.call s = votes at hcommit hopen hexpired
    have hlook : (commitment who p.nonce p.srcId p.call (side who) votes s).votes.lookup p.key =
        some (votes.add who (side who)) :=
      Finmap.lookup_insert _
    have hcollects : (votes.add who (side who)).tally.Collects side (insert who voters) := by
      rw [tally_add]
      exact hopen.collects.cast hwho
    have hincomplete : (votes.add who (side who)).isComplete = false := by
      have hbefore := hopen.incomplete
      cases side who <;> exact hbefore
    have hstill : (votes.add who (side who)).isExpired s.block = false := by
      cases side who <;> exact hexpired
    have hagainst : (votes.add who (side who)).votesAgainst.length + t.toNat ≤ R.card + 1 := by
      have hbefore := hopen.few_against
      cases side who with
      | true => exact Nat.le_succ_of_le hbefore
      | false =>
        show (votes.votesAgainst ++ [who]).length + t.toNat ≤ R.card + 1
        rw [List.length_append, List.length_singleton]
        omega
    obtain ⟨s', hrun, hs'⟩ := resolve_after_vote
      (s := commitment who p.nonce p.srcId p.call (side who) votes s)
      ⟨h.relayers, h.chain, h.resource⟩ h.threshold h.counted
      (Finset.insert_subset hmem h.members) hsize hle hlook hincomplete hstill hcollects hagainst
      (hcall _ hcommit)
    have hdispatch : dispatch T (p.submission (side who)) (.signed who) s = .ok s' := by
      rw [dispatch_submission _ (h.isRelayer hmem) h.chain h.resource, hcommit]
      exact hrun
    rw [applyExtrinsic, hdispatch]
    exact hs'

/-! ### A run of turns -/

/-- Either the votes have decided, or all of `submitted` have voted on an open proposal. -/
def Progress (T : Config A O W) (p : Proposal A O) (side : A → Bool) (R : Finset A)
    (t : UInt32) (submitted : Set A) (s : State A O W) : Prop :=
  (∃ voters : Finset A, submitted ⊆ voters ∧ Pending T p side R t voters s) ∨ Decided p side R t s

theorem Progress.turn {submitted : Set A} {turn : Turn A W}
    (h : Progress T p side R t submitted s) (hsize : R.card + 1 < 2 ^ 32) (hle : t.toNat ≤ R.card)
    (hturn : Admissible T p side R s turn) :
    Progress T p side R t (submitted ∪ {who | turn = .submit who}) (takeTurn T p side s turn) := by
  rcases h with ⟨voters, hsub, hpending⟩ | hdecided
  · cases turn with
    | submit who =>
      rcases hpending.submit hsize hle hturn with hpending' | hdecided
      · refine .inl ⟨insert who voters, ?_, hpending'⟩
        rintro x (hx | hx)
        · exact Finset.mem_coe.mpr (Finset.mem_insert_of_mem (hsub hx))
        · cases hx
          exact Finset.mem_coe.mpr (Finset.mem_insert_self _ _)
      · exact .inr hdecided
    | evaluate origin =>
      refine .inl ⟨voters, ?_, ?_⟩
      · rintro x (hx | hx)
        · exact hsub hx
        · cases hx
      · show Pending T p side R t voters (applyExtrinsic T _ _ s)
        rw [hpending.evaluate hsize]
        exact hpending
    | advance blocks world =>
      refine .inl ⟨voters, ?_, hpending.advance⟩
      rintro x (hx | hx)
      · exact hsub hx
      · cases hx
  · exact .inr (hdecided.turn hturn)

theorem Progress.run {submitted : Set A} {turns : List (Turn A W)}
    (h : Progress T p side R t submitted s) (hsize : R.card + 1 < 2 ^ 32) (hle : t.toNat ≤ R.card)
    (hturns : Along (takeTurn T p side) (Admissible T p side R) s turns) :
    Progress T p side R t (submitted ∪ {who | .submit who ∈ turns})
      (turns.foldl (takeTurn T p side) s) := by
  induction turns generalizing s submitted with
  | nil => simpa using h
  | cons turn turns ih =>
    have hrest := ih (h.turn hsize hle hturns.1) hturns.2
    rw [List.foldl_cons]
    refine cast (congrArg (Progress T p side R t · _) ?_) hrest
    ext who
    simp only [Set.mem_union, Set.mem_ofPred_eq, List.mem_cons, or_assoc, eq_comm]

/-- Once every relayer has submitted, the votes have decided. -/
theorem Progress.decided {submitted : Set A} (h : Progress T p side R t submitted s)
    (hall : ∀ who ∈ R, who ∈ submitted) : Decided p side R t s := by
  rcases h with ⟨voters, hsub, hpending⟩ | hdecided
  · -- with the votes of all of `R`, one of the two counts is reached
    have heq : voters = R :=
      hpending.members.antisymm fun who hwho => Finset.mem_coe.mp (hsub (hall who hwho))
    subst heq
    obtain ⟨_, hcollects, hfor, hagainst⟩ := hpending.undecided
    have hlt := hcollects.decided_of_all (Nat.not_le.mpr hfor)
    exact absurd hlt (Nat.not_lt.mpr hagainst)
  · exact hdecided

/-- A complete proposal turns a submission away, and nothing changes. -/
theorem Progress.turned_away {submitted : Set A} {who : A} {votes : ProposalVotes A}
    (h : Progress T p side R t submitted s) (hwho : who ∈ R)
    (hlook : s.votes.lookup p.key = some votes) (hcomplete : votes.isComplete = true) :
    dispatch T (p.submission (side who)) (.signed who) s =
        .error (.module .proposalAlreadyComplete) ∧
      takeTurn T p side s (.submit who) = s := by
  rcases h with ⟨voters, hsub, hpending⟩ | hdecided
  · -- an open proposal is not complete
    have hincomplete := hpending.undecided.incomplete
    rw [storedVotes_of_lookup hlook, hcomplete] at hincomplete
    cases hincomplete
  · refine ⟨hdecided.submit hwho, ?_⟩
    show applyExtrinsic T _ _ s = s
    rw [applyExtrinsic, hdecided.submit hwho]

theorem Progress.along_turned_away {submitted : Set A} {turns : List (Turn A W)}
    (h : Progress T p side R t submitted s) (hsize : R.card + 1 < 2 ^ 32) (hle : t.toNat ≤ R.card)
    (hturns : Along (takeTurn T p side) (Admissible T p side R) s turns) :
    Along (takeTurn T p side) (fun s turn => ∀ who votes, turn = .submit who →
      s.votes.lookup p.key = some votes → votes.isComplete = true →
        dispatch T (p.submission (side who)) (.signed who) s =
          .error (.module .proposalAlreadyComplete) ∧ takeTurn T p side s turn = s) s turns := by
  induction turns generalizing s submitted with
  | nil => trivial
  | cons turn turns ih =>
    refine ⟨?_, ih (h.turn hsize hle hturns.1) hturns.2⟩
    rintro who votes rfl hlook hcomplete
    exact h.turned_away hturns.1.1 hlook hcomplete

/-- Before anybody has voted, the proposal is open. -/
theorem pending_of_fresh (hs : ReachableState T s) (hpos : 1 ≤ s.relayerThreshold.toNat)
    (hle : s.relayerThreshold.toNat ≤ (relayerSet s).card)
    (hchain : chainWhitelisted p.srcId s = true) (hresource : resourceExists p.rId s = true)
    (hfresh : s.votes.lookup p.key = none) :
    Pending T p side (relayerSet s) s.relayerThreshold ∅ s := by
  refine ⟨⟨rfl, hchain, hresource⟩, rfl, (reachable_inv hs).1, Finset.empty_subset _, ?_⟩
  rw [storedVotes, show s.votes.lookup (p.srcId, p.nonce, p.call) = none from hfresh,
    Option.getD_none]
  refine ⟨rfl, Tally.Collects.opened side _, hpos, ?_⟩
  show 0 + s.relayerThreshold.toNat ≤ _
  omega

end Phases

theorem turns_run (p : Proposal A O) (side : A → Bool) (turns : List (Turn A W))
    (s : State A O W) : ReflTransGen (Step T) s (turns.foldl (takeTurn T p side) s) := by
  induction turns generalizing s with
  | nil => exact .refl
  | cons turn turns ih => exact .head (takeTurn_step p side s turn) (ih _)

/-- For every fixed set `R` of relayers, of fewer than `2 ^ 32 - 1`, every threshold from `1`
to its size, every assignment of votes to `R`, and every proposal for a whitelisted chain and
a registered resource on which nobody has voted yet: in whatever order the relayers submit
their votes, before the expiry and with a call that succeeds where it is dispatched, and
whatever evaluations and blocks come in between, the votes decide once every relayer has
submitted. An execution on the log is one that was dispatched (`logged_dispatched`). -/
theorem vote_order_irrelevant (T : Config A O W) (p : Proposal A O) (side : A → Bool)
    (R : Finset A) (t : UInt32) (s₀ : State A O W) (hs₀ : ReachableState T s₀)
    (hrelayers : relayerSet s₀ = R) (hthreshold : s₀.relayerThreshold = t)
    (hsize : R.card + 1 < 2 ^ 32) (hpos : 1 ≤ t.toNat) (hle : t.toNat ≤ R.card)
    (hchain : chainWhitelisted p.srcId s₀ = true) (hresource : resourceExists p.rId s₀ = true)
    (hfresh : s₀.votes.lookup p.key = none) (turns : List (Turn A W))
    (hturns : Along (takeTurn T p side) (Admissible T p side R) s₀ turns)
    (hall : ∀ who ∈ R, .submit who ∈ turns) : SettledByVotes T p side R t s₀ turns := by
  subst hrelayers hthreshold
  have hpending : Pending T p side (relayerSet s₀) s₀.relayerThreshold ∅ s₀ :=
    pending_of_fresh hs₀ hpos hle hchain hresource hfresh
  have hstart : Progress T p side (relayerSet s₀) s₀.relayerThreshold ∅ s₀ :=
    .inl ⟨∅, Set.empty_subset _, hpending⟩
  refine ⟨?_, hstart.along_turned_away hsize hle hturns⟩
  have hend := (hstart.run hsize hle hturns).decided fun who hwho => .inr (hall who hwho)
  obtain ⟨votes, hlook, hstatus⟩ := hend.entry
  refine ⟨votes, hlook, isComplete_of_verdict hstatus, ?_⟩
  -- a proposal is executed once when it is approved, and not at all otherwise
  have hexec := (reachable_inv (hs₀.trans (turns_run p side turns s₀))).2.executions_eq p.key
  have hget : (ballot (turns.foldl (takeTurn T p side) s₀)).tallies p.key = some votes.tally := by
    simp [ballot, hlook]
  rw [hget] at hexec
  unfold verdict camp at hstatus
  split
  next hcount =>
    rw [if_pos hcount] at hstatus
    refine ⟨hstatus, hexec.trans (if_pos ⟨_, rfl, ?_⟩)⟩
    show votes.status.outcome = .approved
    rw [hstatus]
    rfl
  next hcount =>
    rw [if_neg hcount] at hstatus
    refine ⟨hstatus, hexec.trans (if_neg ?_)⟩
    rintro ⟨_, ⟨⟩, hout⟩
    change votes.status.outcome = .approved at hout
    rw [hstatus] at hout
    cases hout

/-! ## The runtime of the tests -/

def mockProposal : Proposal Nat Empty :=
  ⟨1, 1, Vector.replicate 32 0, mockCall⟩

/-- A vote that is committed keeps the chain and the resource, and the call succeeds. -/
theorem mockProposal_succeeds {s : State Nat Empty Unit} {who : Nat} {inFavour : Bool}
    (hchain : chainWhitelisted 1 s = true)
    (hresource : resourceExists (Vector.replicate 32 0) s = true) :
    ∀ s₁, commitVote mockRuntime who 1 1 mockCall inFavour s = .ok s₁ →
      CallSucceeds mockRuntime mockProposal s₁ := by
  intro s₁ hcommit votes _ _
  obtain ⟨_, _, _, rfl⟩ := commitVote_ok hcommit
  exact ⟨_, rfl, rfl, hchain, hresource⟩

/-- The relayers `4`, `3` and `2` vote, the relayer `3` against; the relayer `2` decides. -/
def mockTurns : List (Turn Nat Unit) :=
  [.submit 4, .evaluate (.signed 9), .submit 3, .advance 3 (), .submit 2, .submit 3]

theorem vote_order_irrelevant_mock :
    SettledByVotes mockRuntime mockProposal (fun who => who != 3) {2, 3, 4} 2 (mockRun [])
      mockTurns := by
  refine vote_order_irrelevant mockRuntime mockProposal (fun who => who != 3) {2, 3, 4} 2
    (mockRun []) (mockRun_reachable _) (by decide) rfl (by decide) (by decide) (by decide)
    (by decide) (by decide) rfl mockTurns ?_ (by decide)
  refine ⟨⟨by decide, rfl, mockProposal_succeeds (by decide) (by decide)⟩, trivial,
    ⟨by decide, rfl, mockProposal_succeeds (by decide) (by decide)⟩, trivial,
    ⟨by decide, rfl, mockProposal_succeeds (by decide) (by decide)⟩,
    ⟨by decide, rfl, mockProposal_succeeds (by decide) (by decide)⟩, trivial⟩

/-! ### As many relayers as can be counted -/

/-- `n` relayers, with the default threshold `1`, the chain `1` and a resource. -/
def mockCrowd (n : Nat) : State Nat Empty Unit :=
  replay mockRuntime
    ([(.root, .whitelistChain 1), (.root, .setResource (Vector.replicate 32 0) [])] ++
      (List.range n).map fun who => (.root, .addRelayer who)) (State.default ())

theorem mockCrowd_succ (n : Nat) :
    mockCrowd (n + 1) = applyExtrinsic mockRuntime .root (.addRelayer n) (mockCrowd n) := by
  unfold mockCrowd replay
  rw [List.range_succ, List.map_append, ← List.append_assoc, List.foldl_append]
  rfl

/-- Nobody has voted, at block `0`, with a threshold of `1`. -/
structure CrowdSetting (n : Nat) (s : State Nat Empty Unit) : Prop
    extends Setting mockProposal (Finset.range n) s where
  threshold : s.relayerThreshold = 1
  fresh : s.votes = ∅
  block : s.block = 0

theorem mockCrowd_setting (n : Nat) : CrowdSetting n (mockCrowd n) := by
  induction n with
  | zero => exact ⟨⟨rfl, rfl, rfl⟩, rfl, rfl, rfl⟩
  | succ n ih =>
    have hnew : isRelayer n (mockCrowd n) = false := by
      rw [← Bool.not_eq_true, ← mem_relayerSet, ih.relayers]
      exact Finset.notMem_range_self
    have hadd : dispatch mockRuntime (.addRelayer n) .root (mockCrowd n) =
        .ok ({ mockCrowd n with
          relayers := (mockCrowd n).relayers.insert n true
          relayerCount := (mockCrowd n).relayerCount + 1 }.depositEvent (.relayerAdded n)) := by
      show (ensure (!isRelayer n (mockCrowd n)) _ >>= fun _ => _) = _
      rw [hnew]
      rfl
    rw [mockCrowd_succ, applyExtrinsic, hadd]
    refine ⟨⟨?_, ih.chain, ih.resource⟩, ih.threshold, ih.fresh, ih.block⟩
    rw [relayerSet_insert (s := mockCrowd n) rfl, ih.relayers, Finset.range_add_one]

/-- Open votes without any in favour, until the block `50`. -/
structure NoneFor (votes : ProposalVotes Nat) : Prop where
  incomplete : votes.isComplete = false
  none_for : votes.votesFor = []
  expiry : votes.expiry = 50

/-- Nobody has voted in favour, and the relayer count is the greatest there is. -/
structure Stuck (R : Finset Nat) (s : State Nat Empty Unit) : Prop
    extends Setting mockProposal R s where
  threshold : s.relayerThreshold = 1
  count : s.relayerCount.toNat = 2 ^ 32 - 1
  block : s.block = 0
  votes : NoneFor
    (storedVotes mockRuntime mockProposal.nonce mockProposal.srcId mockProposal.call s)

theorem mockCrowd_stuck (n : Nat) (hn : n = 2 ^ 32 - 1) :
    Stuck (Finset.range n) (mockCrowd n) := by
  obtain ⟨hset, hthreshold, hfresh, hblock⟩ := mockCrowd_setting n
  have hreach : ReachableState mockRuntime (mockCrowd n) :=
    (Reachable.of_init (Genesis.default ())).trans (replay_run _ _ _)
  refine ⟨hset, hthreshold, ?_, hblock, ?_⟩
  · rw [(reachable_inv hreach).1.toNat] <;> rw [hset.relayers, Finset.card_range] <;> omega
  · rw [storedVotes, hfresh, hblock]
    exact ⟨rfl, rfl, rfl⟩

theorem Stuck.onTime {R : Finset Nat} {s : State Nat Empty Unit} (h : Stuck R s) :
    OnTime mockRuntime mockProposal s := by
  rw [OnTime, ProposalVotes.isExpired, h.votes.expiry, h.block]
  rfl

/-- A vote against leaves nobody in favour. -/
theorem Stuck.commit {R : Finset Nat} {s s₁ : State Nat Empty Unit} {who : Nat} (h : Stuck R s)
    (hcommit : commitVote mockRuntime who mockProposal.nonce mockProposal.srcId mockProposal.call
      false s = .ok s₁) :
    Stuck R s₁ ∧ ∃ votes, s₁.votes.lookup mockProposal.key = some votes := by
  obtain ⟨_, _, _, rfl⟩ := commitVote_ok hcommit
  have hvotes := h.votes
  generalize storedVotes _ mockProposal.nonce _ _ s = votes at hvotes
  have hlook : (commitment who mockProposal.nonce mockProposal.srcId mockProposal.call false
      votes s).votes.lookup mockProposal.key = some (votes.add who false) :=
    Finmap.lookup_insert _
  refine ⟨⟨⟨h.relayers, h.chain, h.resource⟩, h.threshold, h.count, h.block, ?_⟩, _, hlook⟩
  rw [storedVotes_of_lookup hlook]
  exact ⟨hvotes.incomplete, hvotes.none_for, hvotes.expiry⟩

/-- No number of votes against exceeds the greatest relayer count. -/
theorem Stuck.resolve {R : Finset Nat} {s : State Nat Empty Unit} {votes : ProposalVotes Nat}
    (h : Stuck R s) (hlook : s.votes.lookup mockProposal.key = some votes) :
    tryResolveProposal mockRuntime (dispatch mockRuntime mockProposal.call) mockProposal.nonce
      mockProposal.srcId mockProposal.call s = .ok s := by
  have hvotes := h.votes
  have htime := h.onTime
  rw [OnTime, storedVotes_of_lookup hlook] at htime
  rw [storedVotes_of_lookup hlook] at hvotes
  have hfor : ¬s.relayerThreshold.toNat ≤ votes.votesFor.length := by
    rw [h.threshold, hvotes.none_for]
    decide
  have hno : ¬votes.Hopeless s.relayerThreshold s.relayerCount := by
    intro hno
    have hlt := UInt32.lt_iff_toNat_lt.mp hno.2
    have hword := UInt32.toNat_lt (UInt32.ofNat votes.votesAgainst.length + s.relayerThreshold)
    rw [h.count] at hlt
    omega
  rw [tryResolveProposal_open hlook hvotes.incomplete htime, if_neg hfor, if_neg hno]

theorem Stuck.submit {R : Finset Nat} {s : State Nat Empty Unit} {who : Nat} (h : Stuck R s)
    (hwho : who ∈ R) :
    Stuck R (takeTurn mockRuntime mockProposal (fun _ => false) s (.submit who)) := by
  have hdispatch := dispatch_submission (T := mockRuntime) (p := mockProposal) false
    (h.isRelayer hwho) h.chain h.resource
  show Stuck R (applyExtrinsic mockRuntime _ (mockProposal.submission false) s)
  cases hcommit : commitVote mockRuntime who mockProposal.nonce mockProposal.srcId
      mockProposal.call false s with
  | error e =>
    rw [hcommit] at hdispatch
    rw [applyExtrinsic, hdispatch]
    exact h
  | ok s₁ =>
    obtain ⟨hstuck, votes, hlook⟩ := h.commit hcommit
    rw [hcommit] at hdispatch
    rw [applyExtrinsic, hdispatch.trans (hstuck.resolve hlook)]
    exact hstuck

/-- However many of the relayers vote against, in time and with a call that would succeed. -/
theorem Stuck.run {R : Finset Nat} {s : State Nat Empty Unit} (voters : List Nat)
    (h : Stuck R s) (hvoters : ∀ who ∈ voters, who ∈ R) :
    Along (takeTurn mockRuntime mockProposal fun _ => false)
        (Admissible mockRuntime mockProposal (fun _ => false) R) s (voters.map .submit) ∧
      Stuck R ((voters.map .submit).foldl
        (takeTurn mockRuntime mockProposal fun _ => false) s) := by
  induction voters generalizing s with
  | nil => exact ⟨trivial, h⟩
  | cons who voters ih =>
    have hwho := hvoters who List.mem_cons_self
    obtain ⟨halong, hstuck⟩ := ih (h.submit hwho) fun x hx => hvoters x (List.mem_cons_of_mem _ hx)
    exact ⟨⟨⟨hwho, h.onTime, mockProposal_succeeds h.chain h.resource⟩, halong⟩, hstuck⟩

/-- As many relayers as can be counted vote against a call, one after the other, and leave the
proposal open, although the threshold of one vote in favour is out of reach. -/
theorem crowd_undecided : ∃ (n : Nat) (turns : List (Turn Nat Unit)), n = 2 ^ 32 - 1 ∧
    ReachableState mockRuntime (mockCrowd n) ∧
    relayerSet (mockCrowd n) = Finset.range n ∧
    (mockCrowd n).relayerThreshold.toNat = 1 ∧ 1 ≤ (Finset.range n).card ∧
    chainWhitelisted mockProposal.srcId (mockCrowd n) = true ∧
    resourceExists mockProposal.rId (mockCrowd n) = true ∧
    (mockCrowd n).votes.lookup mockProposal.key = none ∧
    Along (takeTurn mockRuntime mockProposal fun _ => false)
      (Admissible mockRuntime mockProposal (fun _ => false) (Finset.range n)) (mockCrowd n) turns ∧
    (∀ who ∈ Finset.range n, .submit who ∈ turns) ∧
    ¬SettledByVotes mockRuntime mockProposal (fun _ => false) (Finset.range n) 1 (mockCrowd n)
      turns := by
  obtain ⟨n, hn⟩ : ∃ n, n = 2 ^ 32 - 1 := ⟨_, rfl⟩
  have hset := mockCrowd_setting n
  obtain ⟨halong, hstuck⟩ :=
    (mockCrowd_stuck n hn).run (List.range n) fun who hwho => by simpa using hwho
  refine ⟨n, (List.range n).map .submit, hn,
    (Reachable.of_init (Genesis.default ())).trans (replay_run _ _ _), hset.relayers, ?_, ?_,
    hset.chain, hset.resource, ?_, halong, ?_, ?_⟩
  · rw [hset.threshold]
    decide
  · rw [Finset.card_range]
    omega
  · rw [hset.fresh]
    rfl
  · intro who hwho
    exact List.mem_map_of_mem (List.mem_range.mpr (Finset.mem_range.mp hwho))
  · rintro ⟨⟨votes, hlook, hcomplete, _⟩, _⟩
    have hstill := hstuck.votes.incomplete
    rw [storedVotes_of_lookup hlook, hcomplete] at hstill
    cases hstill

end XXChain.Chainbridge
