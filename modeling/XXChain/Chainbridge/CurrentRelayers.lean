import XXChain.Chainbridge.Refinement

/-!
# XXChain — whose votes decide a bridge proposal

`try_to_complete` compares the lengths of the vote lists with the relayer count and the
threshold of the moment, while the lists keep the votes of relayers that have been removed
since. A decision is therefore one of the accounts that were relayers when they voted.

* **`decided_by_relayers_of_the_vote`** — what the counts establish about the relayers at the
  decision, up to the voters removed in between; exact when there are none.
-/

namespace XXChain.Chainbridge

open ThresholdVote Relation

variable {A O W : Type} [DecidableEq A] [DecidableEq O] {T : Config A O W} {s : State A O W}

/-! ## Counting against the roster of the decision -/

/-- The votes decide among `relayers` alone: enough of them are in favour of an approved
proposal, and too few have not voted against a rejected one. -/
def DecidedByCurrent (votes : Tally A) (relayers : Finset A) (threshold : Nat) : Prop :=
  (votes.outcome = .approved → threshold ≤ (votes.inFavour.toFinset ∩ relayers).card) ∧
  (votes.outcome = .rejected → (relayers \ votes.against.toFinset).card < threshold)

instance (votes : Tally A) (relayers : Finset A) (threshold : Nat) :
    Decidable (DecidedByCurrent votes relayers threshold) := by
  unfold DecidedByCurrent
  infer_instance

/-- An approval has the threshold in current relayers once the removed ones are added. -/
theorem approved_count {votes : Tally A} {relayers : Finset A} {threshold capacity : Nat}
    (hnodup : (votes.inFavour ++ votes.against).Nodup)
    (hjust : votes.Justified capacity relayers threshold) (happroved : votes.outcome = .approved) :
    threshold ≤ (votes.inFavour.toFinset ∩ relayers).card +
      (votes.inFavour.toFinset \ relayers).card := by
  rw [Tally.Justified, happroved] at hjust
  have hlen := List.toFinset_card_of_nodup (List.nodup_append.mp hnodup).1
  have hsplit := Finset.card_inter_add_card_sdiff votes.inFavour.toFinset relayers
  omega

/-- A rejection leaves fewer current relayers than the threshold without a vote against, once
the removed voters against are added to it. -/
theorem rejected_count {votes : Tally A} {relayers : Finset A} {threshold capacity : Nat}
    (hnodup : (votes.inFavour ++ votes.against).Nodup)
    (hjust : votes.Justified capacity relayers threshold) (hrejected : votes.outcome = .rejected)
    (hfew : relayers.card < capacity) :
    (relayers \ votes.against.toFinset).card <
      threshold + (votes.against.toFinset \ relayers).card := by
  rw [Tally.Justified, hrejected] at hjust
  have hcount : relayers.card < votes.against.length + threshold := by
    rwa [Nat.mod_eq_of_lt hfew] at hjust
  have hlen := List.toFinset_card_of_nodup (List.nodup_append.mp hnodup).2.1
  have hrelayers := Finset.card_inter_add_card_sdiff relayers votes.against.toFinset
  have hagainst := Finset.card_inter_add_card_sdiff votes.against.toFinset relayers
  rw [Finset.inter_comm] at hagainst
  omega

/-! ## Removing a relayer while a proposal is open -/

/-- The relayer `2` votes, in favour or against, and is removed; the proposal is then voted
on by the relayer `3`, or evaluated by anyone. -/
def mockRemoval (inFavour : Bool) : State Nat Empty Unit :=
  let rId := Vector.replicate 32 0
  if inFavour then
    mockRun [(.signed 2, .acknowledgeProposal 1 1 rId mockCall), (.root, .removeRelayer 2),
      (.signed 3, .acknowledgeProposal 1 1 rId mockCall)]
  else
    mockRun [(.signed 2, .rejectProposal 1 1 rId mockCall), (.root, .removeRelayer 2),
      (.signed 9, .evalVoteState 1 1 mockCall)]

theorem mockRemoval_reachable (inFavour : Bool) :
    ReachableState mockRuntime (mockRemoval inFavour) := by
  cases inFavour <;> exact mockRun_reachable _

/-! ## Decisions of a run -/

/-- In every state of every run, a complete proposal was decided on exactly the votes it
holds, at a moment with some relayers and some threshold that the history shows. The votes
are distinct, and every voter was a relayer when it voted. An approval has at least the
threshold in current relayers and voters removed since; a rejection leaves fewer current
relayers without a vote against than the threshold and the removed voters against together.
Where no voter was removed the current relayers alone decided. -/
theorem decided_by_relayers_of_the_vote (T : Config A O W) (s : State A O W)
    (hs : ReachableState T s) (key : ProposalKey A O) (votes : ProposalVotes A)
    (hlook : s.votes.lookup key = some votes) (hcomplete : votes.isComplete = true) :
    ∃ relayers threshold past,
      .decided key votes.tally relayers threshold :: past <:+ s.history ∧
      (votes.votesFor ++ votes.votesAgainst).Nodup ∧
      (∀ who ∈ votes.votesFor, .cast key who true true ∈ past) ∧
      (∀ who ∈ votes.votesAgainst, .cast key who false true ∈ past) ∧
      (votes.status = .approved →
        threshold ≤ (votes.votesFor.toFinset ∩ relayers).card +
          (votes.votesFor.toFinset \ relayers).card) ∧
      (votes.status = .rejected → relayers.card < 2 ^ 32 →
        (relayers \ votes.votesAgainst.toFinset).card <
          threshold + (votes.votesAgainst.toFinset \ relayers).card) ∧
      ((∀ who ∈ votes.votesFor ++ votes.votesAgainst, who ∈ relayers) →
        relayers.card < 2 ^ 32 → DecidedByCurrent votes.tally relayers threshold) := by
  have hinv := (reachable_inv hs).2
  have hget : (ballot s).tallies key = some votes.tally := by simp [ballot, hlook]
  have hne : votes.tally.outcome ≠ .pending := by simp [tally_outcome_eq_pending, hcomplete]
  -- a complete proposal has its decision in the history, with what it rested on
  obtain ⟨relayers, threshold, hmem⟩ := hinv.complete key votes.tally hget hne
  obtain ⟨before, past, hlog⟩ := List.append_of_mem hmem
  have hsuffix : .decided key votes.tally relayers threshold :: past <:+ s.history :=
    ⟨before, hlog.symm⟩
  obtain ⟨hjust, hrecorded, _⟩ := hinv.sound.supportedBy hsuffix
  have happroved := approved_count hrecorded.distinct hjust
  have hrejected := rejected_count hrecorded.distinct hjust
  refine ⟨relayers, threshold, past, hsuffix, hrecorded.distinct, hrecorded.inFavour,
    hrecorded.against, fun hst => happroved ?_, fun hst hfew => hrejected ?_ hfew, ?_⟩
  · simp [ProposalVotes.tally, ProposalStatus.outcome, hst]
  · simp [ProposalVotes.tally, ProposalStatus.outcome, hst]
  · intro hcurrent hfew
    refine ⟨fun hout => ?_, fun hout => ?_⟩
    · -- nobody who voted in favour has been removed
      have hnone : votes.tally.inFavour.toFinset \ relayers = ∅ :=
        Finset.sdiff_eq_empty_iff_subset.mpr fun who hwho =>
          hcurrent who (List.mem_append_left _ (List.mem_toFinset.mp hwho))
      have hcount := happroved hout
      rwa [hnone, Finset.card_empty, Nat.add_zero] at hcount
    · -- nor has anybody who voted against
      have hnone : votes.tally.against.toFinset \ relayers = ∅ :=
        Finset.sdiff_eq_empty_iff_subset.mpr fun who hwho =>
          hcurrent who (List.mem_append_right _ (List.mem_toFinset.mp hwho))
      have hcount := hrejected hout hfew
      rwa [hnone, Finset.card_empty, Nat.add_zero] at hcount

theorem decided_by_relayers_of_the_vote_mock :
    ∃ relayers threshold past,
      .decided (1, 1, mockCall) ⟨[2, 3], [], .approved, 50⟩ relayers threshold :: past <:+
        (mockRemoval true).history ∧
      threshold ≤ (([2, 3] : List Nat).toFinset ∩ relayers).card +
        (([2, 3] : List Nat).toFinset \ relayers).card := by
  obtain ⟨relayers, threshold, past, hsuffix, _, _, _, happroved, _⟩ :=
    decided_by_relayers_of_the_vote mockRuntime (mockRemoval true) (mockRemoval_reachable true)
      (1, 1, mockCall) ⟨[2, 3], [], .approved, 50⟩ (by rfl) (by rfl)
  exact ⟨relayers, threshold, past, hsuffix, happroved rfl⟩

/-- The votes of a removed relayer decide: it makes up the threshold of an approval by one
current relayer, and its vote against rejects a proposal that two current relayers, as many
as the threshold, have not voted on. -/
theorem decided_by_removed_relayer :
    (ReachableState mockRuntime (mockRemoval true) ∧
      .decided (1, 1, mockCall) ⟨[2, 3], [], .approved, 50⟩ (relayerSet (mockRemoval true)) 2 ∈
        (mockRemoval true).history ∧
      ¬DecidedByCurrent ⟨[2, 3], [], .approved, 50⟩ (relayerSet (mockRemoval true)) 2) ∧
    (ReachableState mockRuntime (mockRemoval false) ∧
      .decided (1, 1, mockCall) ⟨[], [2], .rejected, 50⟩ (relayerSet (mockRemoval false)) 2 ∈
        (mockRemoval false).history ∧
      ¬DecidedByCurrent ⟨[], [2], .rejected, 50⟩ (relayerSet (mockRemoval false)) 2) := by
  refine ⟨⟨mockRemoval_reachable true, ?_, by decide⟩,
    ⟨mockRemoval_reachable false, ?_, by decide⟩⟩
  · exact List.mem_cons_of_mem (Entry.executed (1, 1, mockCall) [2, 3] 2) List.mem_cons_self
  · exact List.mem_cons_self

end XXChain.Chainbridge
