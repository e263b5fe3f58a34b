import XXChain.Chainbridge.Spending
import XXChain.Runtime.Backing
import XXChain.Runtime.Settings

/-!
# XXChain — the bridge account pays what was approved

The two directions of the bridge together. Coins that leave the chain are announced by an event
and kept in the bridge account; coins that come back are paid out of it by the calls of approved
proposals. Over any run, what was announced stays backed but for what was approved, with each
approval counted once.

* **`run_spends`** — what the bridge account signs in a run is covered by the proposals approved
  in it, whatever a call is said to cost;
* **`run_solvent`** — so are the coins that it pays out.
-/

namespace XXChain.Runtime

open Chainbridge (approvedSpending charge dispatch_spends spent)

variable {A F σ : Type} [DecidableEq A] [DecidableEq F] {T : Config A F σ}
  {c : PalletCall A F → Nat} {origin : Origin A} {s s' : State A F σ}

/-! ## What the bridge account signs -/

/-- What the bridge account is charged with for an action, besides the proposals executed in it:
the calls of an extrinsic that are dispatched as its own. -/
def Action.charge (T : Config A F σ) (c : PalletCall A F → Nat) : Action A F σ → Nat
  | .extrinsic origin call => Chainbridge.charge T.bridge c call origin
  | _ => 0

omit [DecidableEq F] in
/-- A user is not the bridge account, and cannot dispatch as another. -/
theorem charge_of_user (huser : isUser origin = true) (hne : origin ≠ .signed T.bridgeId)
    (call : Call A F) : Chainbridge.charge T.bridge c call origin = 0 := by
  have hroot : origin ≠ .root := by
    intro hroot
    rw [hroot] at huser
    cases huser
  induction call with
  | other call => exact if_neg hne
  | batchAll first second ih₁ ih₂ | batch first second ih₁ ih₂ =>
    unfold Chainbridge.charge
    rw [ih₁, ih₂]
  | dispatchAs asOrigin call =>
    have hmay : T.bridge.mayDispatchAs origin asOrigin = false := decide_eq_false hroot
    unfold Chainbridge.charge
    rw [hmay, if_neg Bool.false_ne_true]
  | setThreshold | setResource | removeResource | whitelistChain | addRelayer | removeRelayer
  | acknowledgeProposal | rejectProposal | evalVoteState => rfl

omit [DecidableEq F] in
/-- Users are charged with nothing. -/
theorem charged_of_users {actions : List (Action A F σ)}
    (husers : ∀ action ∈ actions, action.byUser = true ∧
      ∀ origin call, action = .extrinsic origin call → origin ≠ .signed T.bridgeId) :
    (actions.map (Action.charge T c)).sum = 0 := by
  refine List.sum_eq_zero fun charged hcharged => ?_
  obtain ⟨action, haction, rfl⟩ := List.mem_map.mp hcharged
  obtain ⟨huser, hne⟩ := husers action haction
  cases action with
  | extrinsic origin call => exact charge_of_user huser (hne origin call rfl) call
  | onInitialize | endEra | eraPayout | payRewards | payRemainder | elsewhere => rfl

/-- What the entries of a record spend. -/
def recordSpent (T : Config A F σ) (c : PalletCall A F → Nat)
    (entries : List (State A F σ × Action A F σ)) : Nat :=
  (entries.map fun e => e.2.charge T c).sum

/-- One action spends at most what it is charged itself and what is newly approved in it. -/
theorem next_spends (T : Config A F σ) (c : PalletCall A F → Nat) (s : State A F σ)
    (action : Action A F σ) :
    recordSpent T c (entries T s action) + approvedSpending T.bridge c s ≤
      approvedSpending T.bridge c (next T s action) + action.charge T c := by
  have hquiet : ∀ action : Action A F σ, entries T s action = [(s, action)] →
      action.charge T c = 0 → (next T s action).votes = s.votes →
      recordSpent T c (entries T s action) + approvedSpending T.bridge c s ≤
        approvedSpending T.bridge c (next T s action) + action.charge T c := by
    intro action hentries hcharge hvotes
    unfold recordSpent approvedSpending
    rw [hentries, hvotes, List.map_singleton, List.sum_singleton, hcharge, Nat.zero_add,
      Nat.add_zero]
  cases action with
  | extrinsic origin call =>
    show recordSpent T c (entries T s (.extrinsic origin call)) + _ ≤
      approvedSpending T.bridge c (Chainbridge.applyExtrinsic T.bridge origin call s) +
        Chainbridge.charge T.bridge c call origin
    dsimp only [entries, Chainbridge.applyExtrinsic]
    cases h : Chainbridge.dispatch T.bridge call origin s with
    | error e =>
      show 0 + _ ≤ approvedSpending T.bridge c s + _
      omega
    | ok s' =>
      have hspent := dispatch_spends T.bridge c call origin s s' h
      have hsame : recordSpent T c ((Chainbridge.journal T.bridge call origin s).map
          fun e => (e.1, .ofCall e.2)) = spent T.bridge c
            (Chainbridge.journal T.bridge call origin s) := by
        unfold recordSpent
        rw [List.map_map]
        rfl
      dsimp only
      rw [hsame]
      exact hspent
  | eraPayout totalStaked totalIssuance eraDurationMillis =>
    obtain ⟨_, hera⟩ := eraPayout_frame T totalStaked totalIssuance eraDurationMillis s
    refine hquiet _ rfl rfl ?_
    show (eraPayout T totalStaked totalIssuance eraDurationMillis s).votes = s.votes
    rw [hera]
  | onInitialize | endEra | payRewards | payRemainder | elsewhere => exact hquiet _ rfl rfl rfl

/-- **What the bridge account spends is approved.** Over any run, and whatever a call of another
pallet is said to cost when the bridge account signs it, what the calls cost that it signs is
covered by the proposals approved in the run, each counted once, and by the calls that are
dispatched as its own without a proposal. -/
theorem run_spends (T : Config A F σ) (c : PalletCall A F → Nat) (s : State A F σ)
    (actions : List (Action A F σ)) :
    recordSpent T c (record T s actions) + approvedSpending T.bridge c s ≤
      approvedSpending T.bridge c (run T s actions) +
        (actions.map (Action.charge T c)).sum :=
  record_sum_le (approvedSpending T.bridge c) (fun e => e.2.charge T c) (Action.charge T c)
    (next_spends T c) s actions

/-! ## What it pays out -/

omit [DecidableEq A] [DecidableEq F] in
/-- What a call pays out when the bridge account signs it. -/
def withdrawal : PalletCall A F → Nat
  | .swap (.transfer _ amount) => amount
  | _ => 0

/-- What the proposals approved so far pay out. -/
def approvedWithdrawals (T : Config A F σ) (s : State A F σ) : Nat :=
  approvedSpending T.bridge withdrawal s

omit [DecidableEq F] in
/-- What the bridge account loses besides what it pays out: the dust when a payment leaves less
than the existential deposit, native transfers that it signs itself, and what the pallets that are
not of this repository take. -/
def slippage (T : Config A F σ) (s : State A F σ) : Action A F σ → Nat
  | .extrinsic origin (.other (.swap (.transfer _ amount))) =>
    if origin = .signed T.bridgeId then
      (T.currency.account s.world.ledger T.bridgeId).withdrawDust T.currency.existentialDeposit
        amount
    else 0
  | action => released T s action

omit [DecidableEq F] in
theorem released_le (T : Config A F σ) (s : State A F σ) (action : Action A F σ) :
    released T s action ≤ action.charge T withdrawal + slippage T s action := by
  cases action with
  | extrinsic origin call =>
    cases call with
    | other call =>
      cases call with
      | swap call =>
        cases call with
        | transfer dest amount =>
          show (if origin = .signed T.bridgeId then
              lost T T.bridgeId (if dest = T.bridgeId then 0 else amount) s else 0) ≤
            (if origin = .signed T.bridgeId then amount else 0) +
              if origin = .signed T.bridgeId then _ else 0
          by_cases horigin : origin = .signed T.bridgeId
          · simp only [if_pos horigin]
            by_cases hself : dest = T.bridgeId
            · rw [if_pos hself, lost, AccountData.withdrawDust, if_pos rfl]
              exact Nat.zero_le _
            · rw [if_neg hself]
              exact le_rfl
          · simp only [if_neg horigin]
            exact Nat.zero_le _
        | transferNative | setSwapFee | setFeeDestination => exact Nat.le_add_left _ _
      | claims | xxCmix | xxEconomics | xxCustody | xxBetanetRewards | xxPublic | foreign =>
        exact Nat.le_add_left _ _
    | setThreshold | setResource | removeResource | whitelistChain | addRelayer | removeRelayer
    | acknowledgeProposal | rejectProposal | evalVoteState | batchAll | batch | dispatchAs =>
      exact Nat.le_add_left _ _
  | onInitialize | endEra | eraPayout | payRewards | payRemainder | elsewhere =>
    exact Nat.le_add_left _ _

/-- **The bridge is solvent.** Over any run of extrinsics of users, none of them the bridge account
itself, and of hooks, what is announced to the other chains beyond what comes into the bridge
account is covered by the payments that the relayers approved, each counted once, and by what the
bridge account loses besides. -/
theorem run_solvent (T : Config A F σ) (hT : T.Lawful) (hR : T.Respects T.bridgeId)
    (s : State A F σ) (hapart : Apart T.bridgeId s) (actions : List (Action A F σ))
    (husers : ∀ action ∈ actions, action.byUser = true ∧
      ∀ origin call, action = .extrinsic origin call → origin ≠ .signed T.bridgeId) :
    sent T (run T s actions) + backing T s + approvedWithdrawals T s ≤
      sent T s + backing T (run T s actions) + approvedWithdrawals T (run T s actions) +
        ((record T s actions).map fun e => slippage T e.1 e.2).sum := by
  have hbacked := recorded_backed hT hR hapart (run_trace T s actions)
  have hspent : recordSpent T withdrawal (record T s actions) +
      approvedSpending T.bridge withdrawal s ≤
      approvedSpending T.bridge withdrawal (run T s actions) +
        (actions.map (Action.charge T withdrawal)).sum :=
    record_sum_le _ _ _ (next_spends T withdrawal) s actions
  have hcharged := charged_of_users (T := T) (c := withdrawal) husers
  have hreleased : ((record T s actions).map fun e => released T e.1 e.2).sum ≤
      recordSpent T withdrawal (record T s actions) +
        ((record T s actions).map fun e => slippage T e.1 e.2).sum := by
    unfold recordSpent
    rw [← List.sum_map_add]
    exact List.sum_le_sum fun e _ => released_le T e.1 e.2
  unfold Backed at hbacked
  show _ + approvedSpending T.bridge withdrawal s ≤
    _ + approvedSpending T.bridge withdrawal (run T s actions) + _
  omega

/-! ## On the mock runtime -/

/-- A transfer of `200` out of the bridge account. -/
def mockWithdrawal : Call Nat Unit :=
  .other (.swap (.transfer 8 200))

/-- The account `4` sends `500` to another chain, and the relayer `7` approves a payment of `200`
to the account `8`. -/
def mockRoundTrip : List (Action Nat Unit (VestedLedger Nat)) :=
  [.extrinsic (.signed 4) mockSend,
    .extrinsic (.signed 7) (.acknowledgeProposal 1 1 mockRuntime.tokenId mockWithdrawal), .endEra]

theorem run_solvent_mock :
    sent wiredRuntime (run wiredRuntime mockGoverned mockRoundTrip) = 500 ∧
      backing wiredRuntime (run wiredRuntime mockGoverned mockRoundTrip) = 300 ∧
      approvedWithdrawals wiredRuntime (run wiredRuntime mockGoverned mockRoundTrip) = 200 ∧
      sent wiredRuntime (run wiredRuntime mockGoverned mockRoundTrip) +
          backing wiredRuntime mockGoverned + approvedWithdrawals wiredRuntime mockGoverned ≤
        sent wiredRuntime mockGoverned +
          backing wiredRuntime (run wiredRuntime mockGoverned mockRoundTrip) +
          approvedWithdrawals wiredRuntime (run wiredRuntime mockGoverned mockRoundTrip) +
          ((record wiredRuntime mockGoverned mockRoundTrip).map
            fun e => slippage wiredRuntime e.1 e.2).sum :=
  ⟨by decide +kernel, by decide +kernel, by decide +kernel,
    run_solvent wiredRuntime wiredRuntime_lawful (wiredRuntime_respects 0 (by decide))
      mockGoverned
      { team := fun _ _ h => nomatch h
        custody := rfl } mockRoundTrip (by
        intro action haction
        simp only [mockRoundTrip, List.mem_cons, List.not_mem_nil, or_false] at haction
        rcases haction with rfl | rfl | rfl
        · exact ⟨rfl, fun origin call h => by cases h; decide⟩
        · exact ⟨rfl, fun origin call h => by cases h; decide⟩
        · exact ⟨rfl, fun origin call h => by cases h⟩)⟩

end XXChain.Runtime
