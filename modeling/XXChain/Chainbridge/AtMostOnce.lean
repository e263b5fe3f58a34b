import XXChain.Chainbridge.Refinement

/-!
# XXChain — bridge proposals are executed at most once

Safety of the bridged funds, over every run from genesis: any interleaving of the pallet's
calls by any origins, with block advances, calls that fail and are rolled back, and
proposals that are themselves sequences of bridge calls.

* **`proposal_executed_at_most_once`** — a proposal is executed at most once, backed by the
  threshold of that moment in distinct votes of relayers; once decided or expired its entry
  is frozen and its call is out of reach.
-/

namespace XXChain.Chainbridge

open ThresholdVote Relation

variable {A O W : Type} [DecidableEq A] [DecidableEq O] {T : Config A O W}
  {s s' : State A O W}

/-! ## A closed entry -/

omit [DecidableEq A] in
theorem outcome_injective : Function.Injective ProposalStatus.outcome := by
  intro x y h
  cases x <;> cases y <;> first | rfl | cases h

omit [DecidableEq A] in
/-- The tally of a proposal is all of its entry. -/
theorem tally_injective : Function.Injective (ProposalVotes.tally (A := A)) := by
  rintro ⟨_, _, st, _⟩ ⟨_, _, st', _⟩ h
  simp only [ProposalVotes.tally, Tally.mk.injEq] at h
  obtain ⟨hfor, hagainst, hstatus, hexpiry⟩ := h
  rw [hfor, hagainst, outcome_injective hstatus, hexpiry]

omit [DecidableEq A] in
theorem isClosed_iff {votes : ProposalVotes A} {now : Nat} :
    votes.tally.IsClosed now ↔ (votes.isComplete || votes.isExpired now) = true := by
  rw [Tally.IsClosed, ne_eq, tally_outcome_eq_pending, Bool.or_eq_true]
  simp [ProposalVotes.isExpired, ProposalVotes.tally]

/-- What refines leaves a decided or expired entry as it is, and does not execute it. -/
theorem Refines.closed {key : ProposalKey A O} {votes : ProposalVotes A} (h : Refines T s s')
    (hc : Counted s) (hlook : s.votes.lookup key = some votes)
    (hclosed : (votes.isComplete || votes.isExpired s.block) = true) :
    s'.votes.lookup key = some votes ∧
      (votes.isComplete || votes.isExpired s'.block) = true ∧
      executions key s'.history = executions key s.history := by
  have hbefore : Closed (ballot s) key votes.tally :=
    ⟨by simp [ballot, hlook], isClosed_iff.mpr hclosed⟩
  obtain ⟨⟨hget, hstill⟩, hexec⟩ := hbefore.run (h hc).2
  refine ⟨?_, isClosed_iff.mp hstill, hexec⟩
  obtain ⟨votes', hlook', htally⟩ := Option.map_eq_some_iff.mp hget
  rw [hlook', tally_injective htally]

/-- So does a run. -/
theorem closed_run {key : ProposalKey A O} {votes : ProposalVotes A} (hs : ReachableState T s)
    (hlook : s.votes.lookup key = some votes)
    (hclosed : (votes.isComplete || votes.isExpired s.block) = true)
    (hrun : ReflTransGen (Step T) s s') :
    s'.votes.lookup key = some votes ∧
      (votes.isComplete || votes.isExpired s'.block) = true ∧
      executions key s'.history = executions key s.history :=
  (run_refines hrun).closed (reachable_inv hs).1 hlook hclosed

/-- Whatever the call would do, a decided or expired proposal does not get to run it. -/
theorem tryResolveProposal_closed {exec : Dispatch A O W} {nonce : DepositNonce}
    {srcId : ChainId} {prop : RuntimeCall A O} {votes : ProposalVotes A}
    (hlook : s.votes.lookup (srcId, nonce, prop) = some votes)
    (hclosed : (votes.isComplete || votes.isExpired s.block) = true) :
    tryResolveProposal T exec nonce srcId prop s =
      .error (.module
        (if votes.isComplete then .proposalAlreadyComplete else .proposalExpired)) := by
  unfold tryResolveProposal
  simp only [hlook]
  cases hcomplete : votes.isComplete with
  | true => rfl
  | false =>
    -- it is not complete, so it has expired
    rw [hcomplete, Bool.false_or] at hclosed
    simp [hclosed, ensure]
    rfl

/-! ## At most once -/

/-- In every state of every run: a proposal was executed at most once; each execution was
backed, as stored when it started, by at least the threshold then in force, at least one, in
distinct votes, each cast earlier by an account that was a relayer at the time; and an entry
that is decided or expired stays as it is in every later state, is not executed again, and
from there no dispatch of its call is even attempted. The log says what was executed, and
`logged_dispatched` that it was dispatched. -/
theorem proposal_executed_at_most_once (T : Config A O W) (s : State A O W)
    (hs : ReachableState T s) (srcId : ChainId) (nonce : DepositNonce)
    (call : RuntimeCall A O) :
    executions (srcId, nonce, call) s.history ≤ 1 ∧
    (∀ voters threshold past,
      .executed (srcId, nonce, call) voters threshold :: past <:+ s.history →
        1 ≤ threshold ∧ threshold ≤ voters.length ∧ voters.Nodup ∧
        ∀ who ∈ voters, .cast (srcId, nonce, call) who true true ∈ past) ∧
    (∀ votes, s.votes.lookup (srcId, nonce, call) = some votes →
      (votes.isComplete || votes.isExpired s.block) = true →
      ∀ s', ReflTransGen (Step T) s s' →
        s'.votes.lookup (srcId, nonce, call) = some votes ∧
        executions (srcId, nonce, call) s'.history =
          executions (srcId, nonce, call) s.history ∧
        ∀ exec, ∃ e, tryResolveProposal T exec nonce srcId call s' = .error e) := by
  have hinv := (reachable_inv hs).2
  refine ⟨hinv.executions_le_one _, fun _ _ _ => hinv.executed_backed, ?_⟩
  intro votes hlook hclosed s' hrun
  obtain ⟨hlook', hclosed', hexec⟩ := closed_run hs hlook hclosed hrun
  exact ⟨hlook', hexec, fun exec => ⟨_, tryResolveProposal_closed hlook' hclosed'⟩⟩

/-- A call that votes, under the account that dispatches it, against the deposit `2`. -/
def mockReentrant : RuntimeCall Nat Empty :=
  .rejectProposal 2 1 (Vector.replicate 32 0) (.addRelayer 9)

/-- The bridge account is made a relayer, and the relayers `2` and `3` approve the re-entrant
call; the relayer `4` comes too late. -/
def mockApproval : State Nat Empty Unit :=
  let rId := Vector.replicate 32 0
  mockRun [(.root, .addRelayer 0), (.signed 2, .acknowledgeProposal 1 1 rId mockReentrant),
    (.signed 3, .acknowledgeProposal 1 1 rId mockReentrant),
    (.signed 4, .acknowledgeProposal 1 1 rId mockReentrant)]

theorem proposal_executed_at_most_once_mock :
    executions (1, 1, mockReentrant) mockApproval.history = 1 ∧
    executions (1, 1, mockReentrant) mockApproval.history ≤ 1 ∧
    [2, 3].Nodup ∧
    ∀ s', ReflTransGen (Step mockRuntime) mockApproval s' →
      executions (1, 1, mockReentrant) s'.history =
        executions (1, 1, mockReentrant) mockApproval.history := by
  obtain ⟨honce, hbacked, hfrozen⟩ := proposal_executed_at_most_once mockRuntime mockApproval
    (mockRun_reachable _) 1 1 mockReentrant
  -- the bridge account voted against the deposit `2` while the call ran
  have hexecuted := hbacked [2, 3] 2 _ ⟨[.cast (1, 2, .addRelayer 9) 0 false true], rfl⟩
  refine ⟨by rfl, honce, hexecuted.2.2.1, fun s' hrun => ?_⟩
  exact (hfrozen ⟨[2, 3], [], .approved, 50⟩ (by rfl) (by rfl) s' hrun).2.1

end XXChain.Chainbridge
