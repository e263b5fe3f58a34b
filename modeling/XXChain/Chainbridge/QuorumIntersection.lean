import XXChain.Chainbridge.Refinement
import XXChain.Lib.FixedRoster

/-!
# XXChain — one execution for a deposit

`Votes` is keyed by the call as well as the deposit, so nothing in the storage links two
calls that compete for one deposit. While the relayers and the threshold stay the same they
exclude each other all the same, when the threshold is more than half of the relayers and no
relayer acknowledges two of them.

The run is one of small steps: the relayers and the threshold stay the same in the middle of
a call as well, and a call counts as executed once its execution has started.

* **`one_execution_per_deposit`** — at most one call of a deposit is ever executed, and it is
  executed once.
-/

namespace XXChain.Chainbridge

open ThresholdVote Relation

variable {A O W : Type} [DecidableEq A] [DecidableEq O] {T : Config A O W}
  {s s' : State A O W} {R : Finset A} {t : UInt32}

/-! ## Runs under fixed relayers and a fixed threshold -/

/-- A small step after which `R` are still the relayers and `t` is still the threshold. -/
def SteadyStep (T : Config A O W) (R : Finset A) (t : UInt32) (s s' : State A O W) : Prop :=
  SmallStep T s s' ∧ relayerSet s' = R ∧ s'.relayerThreshold = t

/-- The proposals for one deposit on the chain `srcId`, whatever their calls. -/
def deposit (srcId : ChainId) (nonce : DepositNonce) : Set (ProposalKey A O) :=
  {key | key.1 = srcId ∧ key.2.1 = nonce}

/-- What a steady run keeps: the ballot's own invariant, and the quorums for one deposit. -/
structure Steady (R : Finset A) (t : UInt32) (motions : Set (ProposalKey A O))
    (s : State A O W) : Prop where
  relayers : relayerSet s = R
  threshold : s.relayerThreshold = t
  counted : Counted s
  inv : ThresholdVote.Inv (2 ^ 32) (ballot s)
  quorate : Quorate R t.toNat motions (ballot s)

/-- One small step: a write to the ballot is made with the relayers and the threshold of the
state before it. -/
theorem Steady.step {motions : Set (ProposalKey A O)} (h : Steady R t motions s)
    (hstep : SteadyStep T R t s s') : Steady R t motions s' := by
  obtain ⟨hsmall, hrelayers, hthreshold⟩ := hstep
  obtain ⟨hcounted, hwrite⟩ := hsmall.writes h.counted
  refine ⟨hrelayers, hthreshold, hcounted, ?_, ?_⟩
  · exact run_invariant (fun _ _ hinv hw => hw.inv hinv) h.inv hwrite.to_reflTransGen
  · have hroster : (ballot s).roster = R := h.relayers
    have hcount : (ballot s).threshold = t.toNat := congrArg UInt32.toNat h.threshold
    rcases (reflGen_iff _ _ _).mp hwrite with heq | hw
    · rw [heq]
      exact h.quorate
    · exact h.quorate.write hroster hcount hw

theorem Steady.run {motions : Set (ProposalKey A O)} (h : Steady R t motions s)
    (hrun : ReflTransGen (SteadyStep T R t) s s') : Steady R t motions s' :=
  run_invariant (fun _ _ hs hstep => hs.step hstep) h hrun

/-- A reachable state in which nobody has voted on the deposit starts a steady run. -/
theorem steady_of_fresh {srcId : ChainId} {nonce : DepositNonce} (hs : ReachableState T s)
    (hfresh : ∀ call, s.votes.lookup (srcId, nonce, call) = none) :
    Steady (relayerSet s) s.relayerThreshold (deposit srcId nonce) s := by
  obtain ⟨hcounted, hinv⟩ := reachable_inv hs
  refine ⟨rfl, rfl, hcounted, hinv, Quorate.of_no_motions ?_⟩
  rintro ⟨_, _, call⟩ ⟨rfl, rfl⟩
  show (s.votes.lookup _).map ProposalVotes.tally = none
  rw [hfresh call, Option.map_none]

/-! ## At most one call -/

/-- In a run during which the relayers `R` and the threshold `t` stay the same, with more
than half of `R` needed: if no relayer votes for two calls of a deposit, at most one call of
the deposit is ever executed, and at most once. The run may start in any reachable state
without proposals for the deposit, such as genesis. As `logged_dispatched` has it, what the log
says was executed was dispatched. -/
theorem one_execution_per_deposit (T : Config A O W) (R : Finset A) (t : UInt32)
    (s₀ s : State A O W) (hs₀ : ReachableState T s₀) (hrelayers : relayerSet s₀ = R)
    (hthreshold : s₀.relayerThreshold = t) (hmajority : R.card < 2 * t.toNat)
    (hrun : ReflTransGen (SteadyStep T R t) s₀ s) (srcId : ChainId) (nonce : DepositNonce)
    (hfresh : ∀ call, s₀.votes.lookup (srcId, nonce, call) = none)
    (honce : ∀ who call call' entitled entitled',
      .cast (srcId, nonce, call) who true entitled ∈ s.history →
      .cast (srcId, nonce, call') who true entitled' ∈ s.history → call = call') :
    (∀ call, executions (srcId, nonce, call) s.history ≤ 1) ∧
    ∀ call call', 0 < executions (srcId, nonce, call) s.history →
      0 < executions (srcId, nonce, call') s.history → call = call' := by
  subst hrelayers hthreshold
  have hsteady := (steady_of_fresh hs₀ hfresh).run hrun
  refine ⟨fun call => hsteady.inv.executions_le_one _, fun call call' hexec hexec' => ?_⟩
  obtain ⟨who, hvote, hvote'⟩ :=
    hsteady.quorate.common_voter hsteady.inv hmajority ⟨rfl, rfl⟩ ⟨rfl, rfl⟩ hexec hexec'
  exact honce who call call' true true hvote hvote'

/-- The relayers `2` and `3` approve a call, which runs and changes nothing, and the relayer
`4` votes for another call of the same deposit. -/
def mockCompeting : State Nat Empty Unit :=
  let voted := commitment 3 1 1 mockCall true ⟨[2], [], .initiated, 50⟩
    (commitment 2 1 1 mockCall true (.new 50) (mockRun []))
  let executed := startExecution 1 1 mockCall ⟨[2, 3], [], .initiated, 50⟩ voted
  commitment 4 1 1 (.addRelayer 9) true (.new 50) (executed.depositEvent (.proposalSucceeded 1 1))

theorem one_execution_per_deposit_mock :
    executions (1, 1, mockCall) mockCompeting.history = 1 ∧
    (∀ call, executions (1, 1, call) mockCompeting.history ≤ 1) ∧
    ∀ call call', 0 < executions (1, 1, call) mockCompeting.history →
      0 < executions (1, 1, call') mockCompeting.history → call = call' := by
  have hrun : ReflTransGen (SteadyStep mockRuntime {2, 3, 4} 2) (mockRun []) mockCompeting := by
    refine .head ⟨.vote _ 2 1 1 (Vector.replicate 32 0) mockCall true (.new 50) (by decide)
      (by decide) (by decide) rfl rfl rfl rfl, by decide, by decide⟩ ?_
    refine .head ⟨.vote _ 3 1 1 (Vector.replicate 32 0) mockCall true ⟨[2], [], .initiated, 50⟩
      (by decide) (by decide) (by decide) rfl rfl rfl rfl, by decide, by decide⟩ ?_
    refine .head ⟨.approve _ 1 1 mockCall ⟨[2, 3], [], .initiated, 50⟩ rfl rfl rfl (by decide),
      by decide, by decide⟩ ?_
    refine .head ⟨.succeed _ 1 1, by decide, by decide⟩ ?_
    exact .single ⟨.vote _ 4 1 1 (Vector.replicate 32 0) (.addRelayer 9) true (.new 50)
      (by decide) (by decide) (by decide) rfl rfl rfl rfl, by decide, by decide⟩
  refine ⟨rfl, one_execution_per_deposit mockRuntime {2, 3, 4} 2 (mockRun []) mockCompeting
    (mockRun_reachable _) (by decide) (by decide) (by decide) hrun 1 1 (fun _ => rfl) ?_⟩
  obtain ⟨relayers, hlog⟩ : ∃ relayers, mockCompeting.history =
      [.cast (1, 1, .addRelayer 9) 4 true true, .executed (1, 1, mockCall) [2, 3] 2,
        .decided (1, 1, mockCall) ⟨[2, 3], [], .approved, 50⟩ relayers 2,
        .cast (1, 1, mockCall) 3 true true, .cast (1, 1, mockCall) 2 true true] := ⟨_, rfl⟩
  rw [hlog]
  intro who call call' entitled entitled' hvote hvote'
  -- a relayer has at most one vote on the log
  simp only [List.mem_cons, Entry.cast.injEq, Prod.mk.injEq, reduceCtorEq, List.not_mem_nil,
    or_false, false_or, true_and] at hvote hvote'
  rcases hvote with ⟨rfl, rfl, _⟩ | ⟨rfl, rfl, _⟩ | ⟨rfl, rfl, _⟩ <;> simp_all

end XXChain.Chainbridge
