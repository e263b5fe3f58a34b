import XXChain.Betanet.Claimant
import XXChain.Runtime.Payable

/-!
# XXChain — the choices of the betanet

An account that is listed for a betanet reward chooses how it is to be paid, long before the program
is enacted. In between, the runtime goes on.

* **`happens_listed`** — what others do leaves the account listed as it is;
* **`run_betanet_choice`** — so at the enactment it is paid, and locked, as it chose.
-/

namespace XXChain.Runtime

open StorageMap

variable {A F σ : Type} [DecidableEq A] {T : Config A F σ} {origin : Origin A}
  {s s' : State A F σ} {who : A}

/-- How the account is listed. -/
def listed (s : State A F σ) (who : A) : Option Betanet.UserInfo :=
  s.world.claims.handler.accounts.lookup who

/-- A call of the claims pallet that may pay a claim to the account. -/
def mayPay (who : A) : Origin A → Claims.Call A → Bool
  | _, .claim dest _ => decide (dest = who)
  | _, .claimAttest dest _ _ => decide (dest = who)
  | origin, .attest _ => decide (origin = .signed who)
  | _, _ => false

/-- The account does not choose again, no claim is paid to it, and it is not the block of the
enactment. -/
def Action.sparesChoice (T : Config A F σ) (who : A) : Action A F σ → Bool
  | .extrinsic origin (.other (.claims call)) => !mayPay who origin call
  | .extrinsic origin (.other (.xxBetanetRewards (.selectOption _))) =>
    decide (origin ≠ .signed who)
  | .onInitialize block _ _ => decide (block ≠ T.betanet.enactmentBlock)
  | _ => true

/-! ## The calls -/

/-- A claim that is paid lists its own account only. -/
theorem claims_dispatch_listed {call : Claims.Call A} {part part' : Betanet.State A σ}
    (hspares : mayPay who origin call = false)
    (h : Claims.dispatch T.betanet.wired origin call part = .ok part') :
    part'.handler.accounts.lookup who = part.handler.accounts.lookup who := by
  cases hpays : call.pays with
  | true =>
    obtain ⟨signer, dest, haddressed, part₁, hprocess, hpart'⟩ := Claims.dispatch_pays hpays h
    have hne : who ≠ dest := by
      rintro rfl
      cases call with
      | claim account signature =>
        obtain ⟨_, hwho, _⟩ := haddressed
        exact of_decide_eq_false hspares hwho
      | claimAttest account signature statement =>
        obtain ⟨_, hwho, _⟩ := haddressed
        exact of_decide_eq_false hspares hwho
      | attest statement =>
        obtain ⟨horigin, _⟩ := haddressed
        exact of_decide_eq_false hspares horigin
      | mintClaim => exact haddressed.elim
      | moveClaim => exact haddressed.elim
    obtain ⟨balanceDue, _, hhandler⟩ := Claims.processClaim_handler hprocess
    rw [hpart']
    show part₁.handler.accounts.lookup who = _
    rw [hhandler]
    split
    next reward _ =>
      show (Betanet.addClaimed _ _ _ dest balanceDue reward).accounts.lookup who = _
      unfold Betanet.addClaimed
      split
      · rfl
      · exact Finmap.lookup_insert_of_ne _ hne
    next => rfl
  | false =>
    obtain ⟨_, _, _, _, _, hpart'⟩ := Claims.dispatch_frame hpays h
    rw [hpart']

/-- Only the account itself chooses for it. -/
theorem betanetDispatch_listed {C : Betanet.Config A σ} {call : BetanetCall}
    {part part' : Betanet.State A σ}
    (hspares : ∀ option, call = .selectOption option → origin ≠ .signed who)
    (h : betanetDispatch C call origin part = .ok part') :
    part'.handler.accounts.lookup who = part.handler.accounts.lookup who := by
  cases call with
  | selectOption option =>
    simp only [betanetDispatch, Betanet.selectOption, bind_eq_ok, ensureSigned_eq_ok] at h
    obtain ⟨other, horigin, _, _, _, _, hpart'⟩ := h
    cases hpart'
    have hne : who ≠ other := by
      rintro rfl
      exact hspares option rfl horigin
    exact Finmap.lookup_insert_of_ne _ hne
  | approve =>
    simp only [betanetDispatch, Betanet.approve, bind_eq_ok] at h
    obtain ⟨_, _, _, _, hpart'⟩ := h
    cases hpart'
    rfl

theorem palletDispatch_listed (hS : T.SparesClaims) {call : PalletCall A F}
    (hspares : (Action.extrinsic origin (.other call) : Action A F σ).sparesChoice T who = true)
    (h : palletDispatch T call origin s = .ok s') : listed s' who = listed s who := by
  cases call with
  | claims call =>
    obtain ⟨part, hrun, hs'⟩ := through_ok h
    -- a claim that is paid to the account would list it anew
    have hmay : mayPay who origin call = false := by
      simpa [Action.sparesChoice] using hspares
    have hlisted := claims_dispatch_listed hmay hrun
    rw [hs']
    exact hlisted
  | xxBetanetRewards call =>
    obtain ⟨part, hrun, hs'⟩ := through_ok h
    have hother : ∀ option, call = .selectOption option → origin ≠ .signed who := by
      rintro option rfl
      exact of_decide_eq_true hspares
    have hlisted := betanetDispatch_listed hother hrun
    rw [hs']
    exact hlisted
  | swap call =>
    obtain ⟨s₁, _, hs'⟩ := swapDispatch_ok h
    rw [hs']
    rfl
  | xxCmix | xxEconomics | xxCustody | xxPublic =>
    obtain ⟨part, _, hs'⟩ := through_ok h
    rw [hs']
    rfl
  | foreign call =>
    have hsame : s'.world.claims = s.world.claims := hS call origin s s' h
    unfold listed
    rw [hsame]

variable [DecidableEq F]

/-- Every entry of a record leaves the account listed as it is. -/
theorem happens_listed (hS : T.SparesClaims) {action : Action A F σ}
    (hspares : action.sparesChoice T who = true) (h : Happens T s action s') :
    listed s' who = listed s who := by
  cases action with
  | extrinsic origin call =>
    rcases Chainbridge.executes_cases h with ⟨pallet, hcall, hrun⟩ | hadmin
    · subst hcall
      exact palletDispatch_listed hS hspares hrun
    · unfold listed
      rw [hadmin.world]
  | onInitialize block accounts rewards =>
    -- the map is drained at the enactment only
    have hblock : block ≠ T.betanet.enactmentBlock := of_decide_eq_true hspares
    rw [show s' = _ from h]
    show (Betanet.onInitialize T.betanet block accounts rewards _).handler.accounts.lookup who = _
    rw [Betanet.onInitialize, if_neg hblock]
    rfl
  | eraPayout totalStaked totalIssuance eraDurationMillis =>
    obtain ⟨_, hera⟩ := eraPayout_frame T totalStaked totalIssuance eraDurationMillis s
    rw [show s' = _ from Eq.trans h hera]
    rfl
  | endEra | payRewards | payRemainder | elsewhere =>
    rw [show s' = _ from h]
    rfl

/-! ## The enactment -/

omit [DecidableEq F] in
/-- The economics pallet pays the rewards of the betanet. -/
theorem betanet_paysFrom (hT : T.Lawful) (hreward : T.RewardedByEconomics) :
    T.betanet.PaysFrom T.economics.rewardsAccountId where
  currency := claims_currency_lawful hT
  vesting := hT.claims
  accounts := by
    intro ledger amount a hne
    obtain ⟨part, rfl, hpart⟩ := hreward ledger amount
    have haccount := Economics.onUnbalanced_account_of_ne (economics_currency_lawful hT) amount part
      hne
    rw [T.economics_currency] at haccount
    rw [hpart, T.claims_currency]
    exact haccount
  schedules := by
    intro ledger amount
    obtain ⟨part, rfl, hpart⟩ := hreward ledger amount
    have hleaves := hT.claims.leaves_schedules
    rw [T.claims_currency, ← T.economics_currency] at hleaves
    rw [hpart]
    exact Economics.onUnbalanced_leaves hleaves amount part

/-- What the account holds in the runtime: its balances and its schedules. -/
def held (T : Config A F σ) (s : State A F σ) (who : A) : Holding :=
  Betanet.held T.betanet (claimsPart.get s.world) who

/-- **The choices of the betanet.** An account that is listed is paid at the enactment as it is
listed, and locked so, whatever has happened since, in any calls of anybody, if it does not choose
again and no claim is paid to it; in whatever order the lists are drained. -/
theorem run_betanet_choice (T : Config A F σ) (hT : T.Lawful) (hreward : T.RewardedByEconomics)
    (hS : T.SparesClaims) (s : State A F σ) (who : A) (hwho : who ≠ T.economics.rewardsAccountId)
    (info : Betanet.UserInfo) (hinfo : listed s who = some info) (actions : List (Action A F σ))
    (hspares : ∀ e ∈ record T s actions, e.2.sparesChoice T who = true) (s' : State A F σ)
    (hs' : s' = run T s actions) (happroved : s'.world.claims.handler.approved = true)
    (accounts : List (A × Betanet.UserInfo)) (rewards : List (Claims.EthereumAddress × Nat))
    (hdrains : Drains accounts s'.world.claims.handler.accounts) :
    listed s' who = some info ∧
      held T (next T s' (.onInitialize T.betanet.enactmentBlock accounts rewards)) who =
        Betanet.rewardHeld T.betanet T.betanet.enactmentBlock info (held T s' who) := by
  have hlisted : listed s' who = some info := by
    have hkept := (run_trace T s actions).keeps
      (R := fun s s' : State A F σ => listed s' who = listed s who)
      (P := fun _ action => action.sparesChoice T who = true)
      (fun _ => rfl) (fun _ _ _ hfirst hsecond => hsecond.trans hfirst)
      (fun s s' hquiet => by rw [listed, hquiet.world]; rfl)
      (fun s action s' hspares hstep => happens_listed hS hspares hstep) hspares
    rw [hs', hkept, hinfo]
  refine ⟨hlisted, ?_⟩
  have hP := betanet_paysFrom hT hreward
  let part := claimsPart.get (s'.world.setBlock T.betanet.enactmentBlock)
  -- the accounts come first, and what is left over tops up claims
  have hpaid : Betanet.held T.betanet (Betanet.processRewards T.betanet accounts part) who =
      Betanet.rewardHeld T.betanet T.betanet.enactmentBlock info (held T s' who) := by
    have hrewards := Betanet.held_processRewards (s := part) hP hwho hdrains
    have hlookup : part.handler.accounts.lookup who = some info := hlisted
    rw [hlookup] at hrewards
    exact hrewards
  have henacted : Betanet.onInitialize T.betanet T.betanet.enactmentBlock accounts rewards part =
      Betanet.depositEvent .programEnacted
        (Betanet.processClaims T.betanet rewards
          (Betanet.processRewards T.betanet accounts part)) := by
    have happroved' : part.handler.approved = true := happroved
    rw [Betanet.onInitialize, if_pos rfl, if_pos happroved']
    rfl
  show Betanet.held T.betanet
    (Betanet.onInitialize T.betanet T.betanet.enactmentBlock accounts rewards part) who = _
  rw [henacted, ← hpaid]
  exact Betanet.held_processClaims hP hwho rewards

/-- The accounts `4` and `6` are listed, `4` for all of its reward at once. -/
def mockListed : State Nat Unit (VestedLedger Nat) :=
  { mockState 1000 with
    world := { (mockState 1000).world with
      claims := Claims.genesisBuild { claims := [], vesting := [] } () (Betanet.genesisBuild
        [(4, ⟨5000000, 2000000, .vesting3Month⟩), (6, ⟨100, 10, .vesting6Month⟩)]) } }

/-- Meanwhile `6` changes its mind, and the root approves the program. -/
def mockMeanwhile : List (Action Nat Unit (VestedLedger Nat)) :=
  [.extrinsic (.signed 6) (.batch (.other (.xxBetanetRewards (.selectOption .noVesting)))
      (.other (.foreign ()))),
    .extrinsic .root (.other (.xxBetanetRewards .approve)), .onInitialize 99 [] []]

/-- It gets `900000`, and that is locked with nine tenths of the principal. -/
theorem run_betanet_choice_mock :
    held wiredRuntime (next wiredRuntime (run wiredRuntime mockListed mockMeanwhile)
      (.onInitialize 100 [(6, ⟨100, 10, .noVesting⟩), (4, ⟨5000000, 2000000, .vesting3Month⟩)]
        [])) 4 =
      { free := 901000, reserved := 0, schedules := [(5400000, 4, 100)] } := by
  have hpaid := run_betanet_choice wiredRuntime wiredRuntime_lawful
    wiredRuntime_issuesNothing.reward (fun _ _ s s' h => by cases h; rfl) mockListed 4 (by decide)
    ⟨5000000, 2000000, .vesting3Month⟩ (by decide +kernel) mockMeanwhile (by decide +kernel) _ rfl
    (by decide +kernel) [(6, ⟨100, 10, .noVesting⟩), (4, ⟨5000000, 2000000, .vesting3Month⟩)] []
    (by decide +kernel)
  exact hpaid.2.trans (by decide +kernel)

end XXChain.Runtime
