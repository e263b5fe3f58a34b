import XXChain.Betanet.Claimant

/-!
# XXChain — the betanet program is enacted once

What the life of the program and the two paths of a reward come to over a run: the program pays
in its block, if it was approved before, and then each account and each claim once.

* **`program_enacted_once`** — for any run from any genesis.
-/

namespace XXChain.Betanet

open StorageMap Claims

variable {A σ : Type} [DecidableEq A]

/-- What holds of the program after the steps of a run, and of what comes after them. -/
structure EnactedOnce (T : Config A σ) (pool : A) (genesis : State A σ)
    (steps : List (Step A σ)) : Prop where
  /-- The program acts in the enactment block only, if it was approved in a block before. -/
  in_time : ∀ step, Proper (stateAfter T genesis steps) step →
    ProgramActs T (stateAfter T genesis steps) step →
      ApprovedIn T genesis steps ∧
      ∃ accounts rewards, step = .onInitialize T.enactmentBlock accounts rewards
  /-- It acts once. -/
  once : ∀ step between step',
    Along (advance T) Proper genesis (steps ++ step :: between ++ [step']) →
    ProgramActs T (stateAfter T genesis steps) step →
      ¬ProgramActs T (stateAfter T genesis (steps ++ step :: between)) step'
  /-- In that block all that it pays from is emptied, for good. -/
  emptied : ApprovedIn T genesis steps → ∀ accounts rewards after,
    Along (advance T) Proper genesis
      (steps ++ .onInitialize T.enactmentBlock accounts rewards :: after) →
    let s := stateAfter T genesis
      (steps ++ .onInitialize T.enactmentBlock accounts rewards :: after)
    s.handler.accounts = ∅ ∧ s.rewards = ∅
  /-- Each account that is listed is paid its reward then, once, and no other account is paid. The
  pool, which pays, is left out. -/
  accounts_paid : ApprovedIn T genesis steps → ∀ accounts rewards,
    Proper (stateAfter T genesis steps) (enact T accounts rewards) → ∀ a, a ≠ pool →
    let s := stateAfter T genesis steps
    held T (stateAfter T genesis (steps ++ [enact T accounts rewards])) a =
      (s.handler.accounts.lookup a).elim (held T s a) fun info =>
        rewardHeld T T.enactmentBlock info (held T s a)
  /-- Each claim that is left over with a reward is topped up with it, once, and no other claim
  and none of its schedules changes. -/
  claims_paid : ApprovedIn T genesis steps → ∀ accounts rewards,
    Proper (stateAfter T genesis steps) (enact T accounts rewards) → ∀ address,
    let s := stateAfter T genesis steps
    entry (stateAfter T genesis (steps ++ [enact T accounts rewards])) address =
      (s.rewards.lookup address).elim (entry s address) fun reward =>
        topUp T.enactmentBlock reward (entry s address)
  /-- No reward of a claim that was paid is left with the claim. -/
  claimed : ∀ who address amount reward,
    .claimed who address amount reward ∈ (stateAfter T genesis steps).events →
      (stateAfter T genesis steps).rewards.lookup address = none
  /-- The rewards on record are never more than those of the genesis. -/
  rewards_le : rewardsSum (stateAfter T genesis steps) ≤ rewardsSum genesis
  /-- Without an approval, all is as it would be without the program. -/
  untouched : ¬ApprovedIn T genesis steps →
    (stateAfter T genesis steps).alone = steps.foldl (advanceAlone T) genesis.alone
  /-- No option changes in the enactment block or after it. -/
  options : ∀ step, Proper (stateAfter T genesis steps) step →
    T.enactmentBlock ≤ (advance T (stateAfter T genesis steps) step).block →
    ∀ a info, (advance T (stateAfter T genesis steps) step).handler.accounts.lookup a = some info →
      (stateAfter T genesis steps).handler.accounts.lookup a = some info

/-- Over a run from any genesis, in which each block is initialised once and in order, with any
calls of the two pallets and any changes of the ledger in each: the program is enacted at most
once, in its block and if it was approved in a block before, pays each listed account and tops up
each leftover claim once, and leaves nothing to pay; without an approval it changes nothing; and
no option changes from its block on. -/
theorem program_enacted_once (T : Config A σ) (pool : A) (hT : T.PaysFrom pool)
    (config : GenesisConfig A) (accounts : List (A × UserInfo)) (ledger : σ)
    (steps : List (Step A σ))
    (hproper : Along (advance T) Proper
      (Claims.genesisBuild config ledger (genesisBuild accounts)) steps) :
    EnactedOnce T pool (Claims.genesisBuild config ledger (genesisBuild accounts)) steps := by
  obtain ⟨genesis, hgenesis⟩ : ∃ genesis : State A σ,
    genesis = Claims.genesisBuild config ledger (genesisBuild accounts) := ⟨_, rfl⟩
  rw [← hgenesis] at hproper ⊢
  have hnot : genesis.handler.approved = false := by rw [hgenesis]; rfl
  -- no claim is paid at genesis
  have hkept : (records genesis).Kept (rewardsSum genesis) := by
    refine ⟨fun _ _ _ _ hmem => ?_, Nat.le_refl _⟩
    rw [hgenesis] at hmem
    cases hmem
  have hflag := fun happroved => (approved_iff hnot hproper).mpr happroved
  exact
    { in_time := fun step _ hacts => acts_in_time hnot hproper hacts
      once := fun step between step' hall hacts => acts_once hall hacts
      emptied := by
        intro happroved accounts rewards after hall
        have henacting : Enacting T (stateAfter T genesis steps)
            (.onInitialize T.enactmentBlock accounts rewards) :=
          ⟨rfl, hflag happroved⟩
        have hempty := over_after henacting hall
        exact ⟨hempty.accounts, hempty.rewards⟩
      accounts_paid := by
        intro happroved accounts rewards hstep a hne
        rw [stateAfter_concat]
        exact held_enact hT hne (hflag happroved) hstep
      claims_paid := by
        intro happroved accounts rewards hstep address
        rw [stateAfter_concat]
        exact entry_enact (hflag happroved) hstep address
      claimed := (kept_run hkept hproper).claimed
      rewards_le := (kept_run hkept hproper).sum_le
      untouched := alone_of_not_approved hnot hproper
      options := fun step hstep hlate a info hinfo => lookup_late hstep hlate hinfo }

/-! ## A mock run

An account claims its coins, the program is approved and the enactment block pays the reward of
the account. -/

theorem program_enacted_once_mock :
    EnactedOnce mockEnactment 0
      (Claims.genesisBuild mockGenesis (mockState 500 5).ledger (genesisBuild []))
      [.within (.claims (.signed 42) (.attest [])), .within (.approve .root),
        enact mockEnactment [(42, { principal := 100, reward := 7, option := default })] []] :=
  program_enacted_once mockEnactment 0
    (onEconomics_paysFrom ((Ledger.currency_lawful (by decide)).along VestedLedger.ledgerPart)
      (VestedLedger.vesting_lawful 28 10) 100)
    mockGenesis [] (mockState 500 5).ledger
    [.within (.claims (.signed 42) (.attest [])), .within (.approve .root),
      enact mockEnactment [(42, { principal := 100, reward := 7, option := default })] []]
    ⟨trivial, trivial, ⟨by decide, by decide, by decide⟩, trivial⟩

end XXChain.Betanet
