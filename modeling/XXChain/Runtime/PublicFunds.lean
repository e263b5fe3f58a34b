import XXChain.Runtime.Outflow

/-!
# XXChain — what leaves the public funds

The two pots of the public pallet are accounts that nobody has a key of. Each has a manager, whom
only an admin names, and its coins leave it by the distributions of whoever is the manager then.

* **`publicOutflow_signed`** — what takes from a pot is signed by its manager;
* **`happens_handedOut`** — every entry of a record takes from a pot at most what it is charged
  with;
* **`run_handedOut`** — so does every run.
-/

namespace XXChain.Runtime

/-! ## The pots -/

inductive Pot where
  | testnet
  | sale
  deriving DecidableEq, Repr

variable {A F σ : Type} {T : Config A F σ} {pot : Pot} {s s' : State A F σ} {origin : Origin A}

def Pot.account (T : Config A F σ) : Pot → A
  | .testnet => T.publicFunds.testnetAccountId
  | .sale => T.publicFunds.saleAccountId

def Pot.manager (s : State A F σ) : Pot → Option A
  | .testnet => s.world.xxPublic.testnetManager
  | .sale => s.world.xxPublic.saleManager

variable [DecidableEq A]

theorem isTestnetManager_iff {who : A} {part : Public.State A σ} :
    Public.isTestnetManager who part = true ↔ part.testnetManager = some who := by
  unfold Public.isTestnetManager
  split
  next manager hmanager => rw [hmanager, decide_eq_true_iff, Option.some.injEq, eq_comm]
  next hnone => simp [hnone]

theorem isSaleManager_iff {who : A} {part : Public.State A σ} :
    Public.isSaleManager who part = true ↔ part.saleManager = some who := by
  unfold Public.isSaleManager
  split
  next manager hmanager => rw [hmanager, decide_eq_true_iff, Option.some.injEq, eq_comm]
  next hnone => simp [hnone]

/-! ## Every step -/

/-- What is handed out of the pot with an entry of a record: the distributions that its manager at
the time signs, and what the pallets take that are not of this repository. -/
def handedOut (T : Config A F σ) (pot : Pot) (s : State A F σ) : Action A F σ → Nat
  | .extrinsic origin (.other (.xxPublic call)) =>
    if (pot.manager s).map Origin.signed = some origin then
      publicOutflow T (pot.account T) call s
    else 0
  | .extrinsic origin (.other (.foreign call)) =>
    outflowBy T (pot.account T) (.foreign call) origin s
  | .elsewhere ledger => outflow T (pot.account T) s (.elsewhere ledger)
  | _ => 0

/-- Only the manager of a pot takes from it. -/
theorem publicOutflow_signed (pot : Pot)
    (hpots : T.publicFunds.testnetAccountId ≠ T.publicFunds.saleAccountId)
    {call : Public.Call A} {part : Public.State A σ}
    (h : Public.dispatch T.publicFunds call origin (publicPart.get s.world) = .ok part) :
    publicOutflow T (pot.account T) call s = 0 ∨
      (pot.manager s).map Origin.signed = some origin := by
  cases call with
  | setTestnetManagerAccount | setSaleManagerAccount => exact Or.inl rfl
  | testnetDistribute data =>
    simp only [Public.dispatch, Public.testnetDistribute, bind_eq_ok, ensureSigned_eq_ok,
      ensure_eq_ok, isTestnetManager_iff] at h
    obtain ⟨who, horigin, _, hmanager, _⟩ := h
    cases pot with
    | testnet =>
      refine Or.inr ?_
      have hsame : s.world.xxPublic.testnetManager = some who := hmanager
      rw [Pot.manager, hsame, horigin]
      rfl
    | sale => exact Or.inl (if_neg (Ne.symm hpots))
  | saleDistribute data =>
    simp only [Public.dispatch, Public.saleDistribute, bind_eq_ok, ensureSigned_eq_ok,
      ensure_eq_ok, isSaleManager_iff] at h
    obtain ⟨who, horigin, _, hmanager, _⟩ := h
    cases pot with
    | testnet => exact Or.inl (if_neg hpots)
    | sale =>
      refine Or.inr ?_
      have hsame : s.world.xxPublic.saleManager = some who := hmanager
      rw [Pot.manager, hsame, horigin]
      rfl

/-- An origin that is not the account itself. -/
def isNot (a : A) (o : Origin A) : Bool :=
  decide (o ≠ .signed a)

variable [DecidableEq F]

theorem happens_handedOut (hT : T.Lawful) (hR : T.Respects (pot.account T))
    (hpots : T.publicFunds.testnetAccountId ≠ T.publicFunds.saleAccountId)
    (hapart : Apart (pot.account T) s) {action : Action A F σ}
    (hother : action.origins (isNot (pot.account T)) = true) (h : Happens T s action s') :
    Apart (pot.account T) s' ∧ free T (pot.account T) s.world ≤
      free T (pot.account T) s'.world + handedOut T pot s action := by
  obtain ⟨hapart', hle⟩ := happens_outflow hT hR hapart h
  refine ⟨hapart', hle.trans (Nat.add_le_add_left ?_ _)⟩
  cases action with
  | extrinsic origin call =>
    cases call with
    | other call =>
      cases call with
      | swap call =>
        have hne : origin ≠ .signed (pot.account T) := of_decide_eq_true hother
        exact (if_neg hne).le
      | xxPublic call =>
        obtain ⟨part, hrun, _⟩ := through_ok h.2
        rcases publicOutflow_signed pot hpots hrun with hnothing | hsigned
        · exact hnothing.le.trans (Nat.zero_le _)
        · exact (if_pos hsigned).ge
      | claims | xxCmix | xxEconomics | xxCustody | xxBetanetRewards | foreign => exact le_rfl
    | setThreshold | setResource | removeResource | whitelistChain | addRelayer | removeRelayer
    | acknowledgeProposal | rejectProposal | evalVoteState | batchAll | batch | dispatchAs =>
      exact le_rfl
  | onInitialize | endEra | eraPayout | payRewards | payRemainder | elsewhere => exact le_rfl

/-! ## Runs -/

/-- **What leaves the public funds.** Over any run of extrinsics of any origin, whatever they nest,
and of hooks, in which nothing is dispatched as the pot itself, a pot that has no part in the
custody pays only what its manager at the time distributes, and what the pallets take that are not
of this repository. -/
theorem run_handedOut (T : Config A F σ) (hT : T.Lawful) (pot : Pot)
    (hR : T.Respects (pot.account T))
    (hpots : T.publicFunds.testnetAccountId ≠ T.publicFunds.saleAccountId) (s : State A F σ)
    (hapart : Apart (pot.account T) s) (actions : List (Action A F σ))
    (hothers : ∀ e ∈ record T s actions, e.2.origins (isNot (pot.account T)) = true) :
    free T (pot.account T) s.world ≤ free T (pot.account T) (run T s actions).world +
      ((record T s actions).map fun e => handedOut T pot e.1 e.2).sum := by
  -- that the pot has no part in the custody stays so
  have hrun := (run_trace T s actions).costs
    (R := fun n s₁ s₂ => Apart (pot.account T) s₁ → Apart (pot.account T) s₂ ∧
      free T (pot.account T) s₁.world ≤ free T (pot.account T) s₂.world + n)
    (P := fun _ action => action.origins (isNot (pot.account T)) = true)
    (handedOut T pot) (fun _ hs => ⟨hs, Nat.le_add_right _ _⟩)
    (fun m n s₁ s₂ s₃ hfirst hsecond hs => by
      obtain ⟨hs₂, hle⟩ := hfirst hs
      obtain ⟨hs₃, hle'⟩ := hsecond hs₂
      exact ⟨hs₃, by omega⟩)
    (fun s₁ s₂ hquiet hs => by
      have hworld := hquiet.world
      exact ⟨hs.of_books (by rw [hworld]), by rw [hworld]; exact Nat.le_add_right _ _⟩)
    (fun s₁ action s₂ horigins hstep hs => happens_handedOut hT hR hpots hs horigins hstep) hothers
  exact (hrun hapart).2

/-! ## On the mock runtime -/

/-- The pot of the testnet has `700`, and `42` is its manager. -/
def mockFunded : State Nat Unit (VestedLedger Nat) :=
  run wiredRuntime (mockState 1000)
    [.payRewards [(1, 700)], .extrinsic .root (.other (.xxPublic (.setTestnetManagerAccount 42)))]

/-- The manager distributes `200`, and somebody else would like to; then he is replaced, and the
new one distributes `100`. -/
def mockDistributions : List (Action Nat Unit (VestedLedger Nat)) :=
  [.extrinsic (.signed 42) (.batch (.other (.xxPublic (.testnetDistribute [⟨8, 200, none⟩])))
      (.other (.xxPublic (.saleDistribute [⟨8, 100, none⟩])))),
    .extrinsic (.signed 9) (.other (.xxPublic (.testnetDistribute [⟨9, 300, none⟩]))),
    .extrinsic (.other 2) (.other (.xxPublic (.setTestnetManagerAccount 43))),
    .extrinsic (.signed 43) (.other (.xxPublic (.testnetDistribute [⟨8, 100, none⟩])))]

theorem run_handedOut_mock :
    free wiredRuntime 1 (run wiredRuntime mockFunded mockDistributions).world = 400 ∧
      700 ≤ 400 + ((record wiredRuntime mockFunded mockDistributions).map
        fun e => handedOut wiredRuntime .testnet e.1 e.2).sum := by
  have hfree : free wiredRuntime 1 (run wiredRuntime mockFunded mockDistributions).world = 400 := by
    decide +kernel
  have hstart : free wiredRuntime 1 mockFunded.world = 700 := by decide +kernel
  have hle := run_handedOut wiredRuntime wiredRuntime_lawful .testnet
    (wiredRuntime_respects 1 (by decide)) (by decide) mockFunded
    { team := fun _ _ h => nomatch h
      custody := rfl } mockDistributions (by decide +kernel)
  have hle' : free wiredRuntime 1 mockFunded.world ≤
      free wiredRuntime 1 (run wiredRuntime mockFunded mockDistributions).world +
        ((record wiredRuntime mockFunded mockDistributions).map
          fun e => handedOut wiredRuntime .testnet e.1 e.2).sum := hle
  rw [hfree, hstart] at hle'
  exact ⟨hfree, hle'⟩

end XXChain.Runtime
