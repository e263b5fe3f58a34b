import XXChain.Chainbridge.Refinement
import XXChain.Chainbridge.UserCalls

/-!
# XXChain — bridge proposals when some relayers lie

The relayers say what was deposited on the other chains, and the pallet has no way to check it.
Let some of them be honest: they vote for the proposals of true deposits, and against others. The
rest may vote as they like, in any order and through any nest of calls.

* **`dispatch_vouched`** — a call keeps what holds of the votes then. As long as fewer relayers
  are not honest than the threshold asks for, only deposits are approved; as long as the honest
  ones reach the threshold, no deposit is rejected.
-/

namespace XXChain.Chainbridge

variable {A O W : Type}

/-! ## Honest calls -/

/-- The votes that a call casts as its own. What a proposal calls in turn it calls as the bridge
account. -/
def votesCast : RuntimeCall A O → List (ProposalKey A O × Bool)
  | .acknowledgeProposal nonce srcId _ call => [((srcId, nonce, call), true)]
  | .rejectProposal nonce srcId _ call => [((srcId, nonce, call), false)]
  | .batchAll first second => votesCast first ++ votesCast second
  | .batch first second => votesCast first ++ votesCast second
  | .dispatchAs .. | .evalVoteState .. | .other .. => []
  | .setThreshold .. | .setResource .. | .removeResource .. | .whitelistChain .. => []
  | .addRelayer .. | .removeRelayer .. => []

/-- An honest relayer votes for the deposits, and against all else. -/
def HonestCall (honest : Finset A) (deposits : Finset (ProposalKey A O)) (origin : Origin A)
    (call : RuntimeCall A O) : Prop :=
  ∀ who ∈ honest, origin = .signed who →
    ∀ vote ∈ votesCast call, vote.2 = true ↔ vote.1 ∈ deposits

/-- The votes on a proposal are those of different relayers, the honest ones tell whether it is a
deposit, and so does the decision if there are not too many others. -/
structure VouchedVotes (R honest : Finset A) (t : Nat) (isDeposit : Prop)
    (votes : ProposalVotes A) [DecidableEq A] : Prop where
  nodup_for : votes.votesFor.Nodup
  nodup_against : votes.votesAgainst.Nodup
  votesFor : ∀ who ∈ votes.votesFor, who ∈ R ∧ (who ∈ honest → isDeposit)
  votesAgainst : ∀ who ∈ votes.votesAgainst, who ∈ R ∧ (who ∈ honest → ¬ isDeposit)
  approved : (R \ honest).card < t → votes.status = .approved → isDeposit
  rejected : (R \ honest).card + t ≤ R.card → votes.status = .rejected → ¬ isDeposit

variable [DecidableEq A] [DecidableEq O]

/-- The relayers are `R` and their threshold is `t`, and all votes are vouched for. -/
structure Vouched (R honest : Finset A) (t : Nat) (deposits : Finset (ProposalKey A O))
    (s : State A O W) : Prop where
  relayers : relayerSet s = R
  threshold : s.relayerThreshold.toNat = t
  counted : s.relayerCount.toNat = R.card
  votes : ∀ key votes, s.votes.lookup key = some votes →
    VouchedVotes R honest t (key ∈ deposits) votes

variable {T : Config A O W} {R honest : Finset A} {t : Nat}
  {deposits : Finset (ProposalKey A O)} {s s' : State A O W} {nonce : DepositNonce}
  {srcId : ChainId} {prop : RuntimeCall A O} {votes : ProposalVotes A} {isDeposit : Prop}

omit [DecidableEq A] [DecidableEq O] in
theorem HonestCall.mono {call call' : RuntimeCall A O} {origin : Origin A}
    (h : HonestCall honest deposits origin call)
    (hsub : ∀ vote ∈ votesCast call', vote ∈ votesCast call) :
    HonestCall honest deposits origin call' :=
  fun who hwho horigin vote hvote => h who hwho horigin vote (hsub vote hvote)

omit [DecidableEq A] [DecidableEq O] in
/-- Nobody is honest who has no vote. -/
theorem honestCall_of_notMem {who : A} (h : who ∉ honest) (call : RuntimeCall A O) :
    HonestCall honest deposits (.signed who) call := by
  intro other hother horigin
  cases horigin
  exact absurd hother h

/-! ## Votes that are vouched for -/

/-- As many relayers as there are voters are not honest, if no voter is. -/
theorem length_le_dishonest {voters : List A} (hnodup : voters.Nodup)
    (hvoters : ∀ who ∈ voters, who ∈ R ∧ who ∉ honest) :
    voters.length ≤ (R \ honest).card := by
  rw [← List.toFinset_card_of_nodup hnodup]
  apply Finset.card_le_card
  intro who hwho
  exact Finset.mem_sdiff.mpr (hvoters who (List.mem_toFinset.mp hwho))

theorem vouchedVotes_new (expiry : Nat) :
    VouchedVotes R honest t isDeposit (.new expiry) where
  nodup_for := List.nodup_nil
  nodup_against := List.nodup_nil
  votesFor := fun _ h => nomatch h
  votesAgainst := fun _ h => nomatch h
  approved := fun _ h => nomatch h
  rejected := fun _ h => nomatch h

/-- One more vote, which is true if it is an honest one. -/
theorem VouchedVotes.add (h : VouchedVotes R honest t isDeposit votes) {who : A} (hwho : who ∈ R)
    (hnew : votes.hasVoted who = false) {inFavour : Bool}
    (hhonest : who ∈ honest → (inFavour = true ↔ isDeposit)) :
    VouchedVotes R honest t isDeposit (votes.add who inFavour) := by
  obtain ⟨hfor, hagainst⟩ : who ∉ votes.votesFor ∧ who ∉ votes.votesAgainst := by
    simpa [ProposalVotes.hasVoted] using hnew
  have happend : ∀ voters : List A, voters.Nodup → who ∉ voters → (voters ++ [who]).Nodup := by
    intro voters hnodup hout
    rw [List.nodup_append]
    refine ⟨hnodup, List.nodup_singleton who, fun a ha b hb => ?_⟩
    rw [List.mem_singleton.mp hb]
    exact fun heq => hout (heq ▸ ha)
  cases inFavour with
  | true =>
    refine { h with nodup_for := happend _ h.nodup_for hfor, votesFor := fun voter hvoter => ?_ }
    rcases List.mem_append.mp hvoter with hold | hlast
    · exact h.votesFor voter hold
    · rw [List.mem_singleton.mp hlast]
      exact ⟨hwho, fun hmem => (hhonest hmem).mp rfl⟩
  | false =>
    refine { h with
      nodup_against := happend _ h.nodup_against hagainst
      votesAgainst := fun voter hvoter => ?_ }
    rcases List.mem_append.mp hvoter with hold | hlast
    · exact h.votesAgainst voter hold
    · rw [List.mem_singleton.mp hlast]
      exact ⟨hwho, fun hmem hdeposit => Bool.false_ne_true ((hhonest hmem).mpr hdeposit)⟩

/-- With the threshold reached by more than those who are not honest, an honest one vouches. -/
theorem VouchedVotes.approve (h : VouchedVotes R honest t isDeposit votes)
    (hcount : t ≤ votes.votesFor.length) :
    VouchedVotes R honest t isDeposit { votes with status := .approved } := by
  refine { h with approved := fun hfew _ => ?_, rejected := fun _ hstatus => nomatch hstatus }
  by_contra hno
  have hlength := length_le_dishonest h.nodup_for fun who hwho =>
    ⟨(h.votesFor who hwho).1, fun hmem => hno ((h.votesFor who hwho).2 hmem)⟩
  omega

/-- The votes against a deposit leave the honest ones, who reach the threshold. -/
theorem VouchedVotes.reject (h : VouchedVotes R honest t isDeposit votes)
    (hcount : R.card < votes.votesAgainst.length + t) :
    VouchedVotes R honest t isDeposit { votes with status := .rejected } := by
  refine { h with rejected := fun hmany _ => ?_, approved := fun _ hstatus => nomatch hstatus }
  intro hdeposit
  have hlength := length_le_dishonest h.nodup_against fun who hwho =>
    ⟨(h.votesAgainst who hwho).1, fun hmem => (h.votesAgainst who hwho).2 hmem hdeposit⟩
  omega

/-! ## What a step writes -/

theorem Vouched.congr (h : Vouched R honest t deposits s) (hrelayers : s'.relayers = s.relayers)
    (hthreshold : s'.relayerThreshold = s.relayerThreshold)
    (hcount : s'.relayerCount = s.relayerCount) (hvotes : s'.votes = s.votes) :
    Vouched R honest t deposits s' where
  relayers := by
    rw [← h.relayers]
    unfold relayerSet isRelayer
    rw [hrelayers]
  threshold := by rw [hthreshold, h.threshold]
  counted := by rw [hcount, h.counted]
  votes := by
    rw [hvotes]
    exact h.votes

/-- A write of votes that are vouched for. -/
theorem Vouched.insert (h : Vouched R honest t deposits s)
    (hvotes : VouchedVotes R honest t ((srcId, nonce, prop) ∈ deposits) votes) :
    Vouched R honest t deposits
      { s with votes := s.votes.insert (srcId, nonce, prop) votes } where
  relayers := h.relayers
  threshold := h.threshold
  counted := h.counted
  votes := by
    intro key votes' hlook
    by_cases hkey : key = (srcId, nonce, prop)
    · subst hkey
      rw [Finmap.lookup_insert] at hlook
      cases hlook
      exact hvotes
    · rw [Finmap.lookup_insert_of_ne _ hkey] at hlook
      exact h.votes key votes' hlook

/-- A state before any vote, in which the relayers are counted right. -/
theorem vouched_of_fresh (honest : Finset A) (deposits : Finset (ProposalKey A O))
    (hvotes : s.votes = ∅) (hcounted : s.relayerCount.toNat = (relayerSet s).card) :
    Vouched (relayerSet s) honest s.relayerThreshold.toNat deposits s where
  relayers := rfl
  threshold := rfl
  counted := hcounted
  votes := by
    rw [hvotes]
    exact fun _ _ h => nomatch h

theorem Vouched.commitVote (h : Vouched R honest t deposits s) {who : A}
    (hwho : isRelayer who s = true) {inFavour : Bool}
    (hhonest : who ∈ honest → (inFavour = true ↔ (srcId, nonce, prop) ∈ deposits))
    (hcommit : commitVote T who nonce srcId prop inFavour s = .ok s') :
    Vouched R honest t deposits s' := by
  obtain ⟨_, _, hnew, hs'⟩ := commitVote_ok hcommit
  have hmem : who ∈ R := by
    rw [← h.relayers]
    exact mem_relayerSet.mpr hwho
  have hstored : VouchedVotes R honest t ((srcId, nonce, prop) ∈ deposits)
      (storedVotes T nonce srcId prop s) := by
    unfold storedVotes
    cases hlook : s.votes.lookup (srcId, nonce, prop) with
    | none => exact vouchedVotes_new _
    | some votes => exact h.votes _ votes hlook
  rw [hs']
  exact (h.insert (hstored.add hmem hnew hhonest)).congr rfl rfl rfl rfl

/-! ## A call keeps the votes vouched for -/

theorem resolution_vouched {exec : Dispatch A O W}
    (hexec : ExecKeeps T (Vouched R honest t deposits) exec) (hs : Vouched R honest t deposits s)
    (h : tryResolveProposal T exec nonce srcId prop s = .ok s') :
    Vouched R honest t deposits s' := by
  obtain ⟨votes, hlook, _, _, hcases⟩ := tryResolveProposal_ok h
  have hvotes := hs.votes _ votes hlook
  rcases hcases with ⟨hcount, s₁, hrun, rfl⟩ | ⟨hcount, rfl⟩ | rfl
  · -- approved: the call is executed as the bridge account
    rw [hs.threshold] at hcount
    have hstart : Vouched R honest t deposits (startExecution nonce srcId prop votes s) :=
      (hs.insert (hvotes.approve hcount)).congr rfl rfl rfl rfl
    exact (hexec _ _ hstart hrun).congr rfl rfl rfl rfl
  · -- rejected
    have hlt := hcount.lt
    rw [hs.counted, hs.threshold] at hlt
    exact (hs.insert (hvotes.reject hlt)).congr rfl rfl rfl rfl
  · exact hs

theorem vouched_rule (hbystander : T.accountId ∉ honest) :
    CallRule T (Vouched R honest t deposits) (HonestCall honest deposits) where
  frame := by
    intro s s' hs hframe
    rw [hframe]
    exact hs.congr rfl rfl rfl rfl
  parts := by
    intro origin first second hboth
    rcases hboth with hboth | hboth
    all_goals
      exact ⟨hboth.mono fun _ hvote => List.mem_append_left _ hvote,
        hboth.mono fun _ hvote => List.mem_append_right _ hvote⟩
  executed := honestCall_of_notMem hbystander
  vote := by
    intro exec p inFavour who s s₁ s' hexec hhonest hrelayer hs hcommit hresolve
    have htrue : who ∈ honest → (inFavour = true ↔ (p.srcId, p.nonce, p.call) ∈ deposits) := by
      intro hmem
      cases inFavour with
      | true => exact hhonest who hmem rfl _ (List.mem_singleton_self _)
      | false => exact hhonest who hmem rfl _ (List.mem_singleton_self _)
    exact resolution_vouched hexec (hs.commitVote hrelayer htrue hcommit) hresolve
  evaluate := fun _ _ _ _ _ _ hexec hs hresolve => resolution_vouched hexec hs hresolve

/-- **Votes stay vouched for.** A call that no admin dispatches keeps the votes vouched for if it
is honest. -/
theorem dispatch_vouched (hbridge : Powerless T (.signed T.accountId))
    (hbystander : T.accountId ∉ honest) (call : RuntimeCall A O) {origin : Origin A}
    (hpower : Powerless T origin) (hhonest : HonestCall honest deposits origin call)
    (hs : Vouched R honest t deposits s) (h : dispatch T call origin s = .ok s') :
    Vouched R honest t deposits s' :=
  (vouched_rule hbystander).dispatch hbridge call hpower hhonest hs h

end XXChain.Chainbridge
