import XXChain.Runtime.Blocks
import XXChain.Runtime.NonTransfer
import XXChain.Swap.ExactTransfer
import XXChain.Claims.Payment
import XXChain.Custody.Runs

/-!
# XXChain — who changes the settings

The pallets keep settings: the relayers, the resources and the chains of the bridge, the fee of
the swap, the variables of the mix network, the inflation, the custodians, the managers of the
public funds. They are changed by admins only, and no admin is an account. The pallets that are
not of this repository may call one as an admin: a collective that carries a motion does.

* **`palletDispatch_settings`** — a call of a pallet of this repository that an account signs, or
  that is unsigned, changes no setting;
* **`run_settings`** — what changes a setting over a run, whatever the extrinsics nest: batches,
  calls under another origin, and proposals, which the bridge account executes.
-/

namespace XXChain.Runtime

open Chainbridge (ChainId ResourceId Commands)

variable {A F σ : Type}

/-! ## Users and settings

A setting is what an admin call of a pallet writes. What the pallets count or schedule on their own
(nonces, votes, points, pending payouts) is none. -/

/-- `cmixVariables` are those that are in force from the end of the era. -/
structure Settings (A : Type) where
  relayers : StorageMap A Bool
  relayerCount : UInt32
  relayerThreshold : UInt32
  resources : StorageMap ResourceId (List UInt8)
  chains : Finset ChainId
  swapFee : Nat
  feeDestination : Option A
  approved : Bool
  cmixHashes : Cmix.SoftwareHashes
  adminPermission : Nat
  schedulingAccount : Option A
  cmixVariables : Cmix.Variables
  inflationParams : Economics.InflationFixedParams
  interestPoints : List Economics.IdealInterestPoint
  idealLiquidityStake : Nat
  custodians : StorageMap A Unit
  testnetManager : Option A
  saleManager : Option A

def settings (s : State A F σ) : Settings A where
  relayers := s.relayers
  relayerCount := s.relayerCount
  relayerThreshold := s.relayerThreshold
  resources := s.resources
  chains := s.chainNonces.keys
  swapFee := s.world.swap.swapFee
  feeDestination := s.world.swap.feeDestination
  approved := s.world.claims.handler.approved
  cmixHashes := s.world.xxCmix.cmixHashes
  adminPermission := s.world.xxCmix.adminPermission
  schedulingAccount := s.world.xxCmix.schedulingAccount
  cmixVariables := s.world.xxCmix.nextCmixVariables.getD s.world.xxCmix.cmixVariables
  inflationParams := s.world.xxEconomics.inflationParams
  interestPoints := s.world.xxEconomics.interestPoints
  idealLiquidityStake := s.world.xxEconomics.idealLiquidityStake
  custodians := s.world.xxCustody.custodians
  testnetManager := s.world.xxPublic.testnetManager
  saleManager := s.world.xxPublic.saleManager

/-- No admin of a pallet is an account, as in the runtime, where they are shares of a
collective. -/
structure Config.Governed [DecidableEq A] (T : Config A F σ) : Prop where
  bridge : ∀ o, isUser o = true → T.twoThirdsTechnical o = false
  cmix : ∀ o, isUser o = true → T.cmix.adminOrigin o = false
  cmixVariables : ∀ o, isUser o = true → T.cmix.cmixVariablesOrigin o = false
  economics : ∀ o, isUser o = true → T.economics.adminOrigin o = false
  custody : ∀ o, isUser o = true → T.custody.adminOrigin o = false
  publicFunds : ∀ o, isUser o = true → T.publicFunds.adminOrigin o = false

/-- A call of a pallet that is not of this repository. -/
def Action.isForeign : Action A F σ → Bool
  | .extrinsic _ (.other (.foreign _)) => true
  | _ => false

variable {origin : Origin A}

/-- A user does not pass the check for an admin. -/
theorem user_not_admin {E : Type} {admin : Origin A → Bool} (huser : isUser origin = true)
    (hadmin : admin origin = false) :
    (if admin origin then .ok () else ensureRoot origin : Except (DispatchError E) Unit) ≠
      .ok () := by
  rw [hadmin, if_neg Bool.false_ne_true]
  intro hroot
  rw [ensureRoot_eq_ok.mp hroot] at huser
  cases huser

variable [DecidableEq A] {T : Config A F σ} {s s' : State A F σ}

/-! ## The pallets

One lemma for each pallet: the calls for users leave its settings as they are, and the others
begin with the check for an admin, or for the root, which no user passes. -/

/-- A claim that is paid, or moved, or minted, is nothing to the approval of the program. -/
theorem claims_approved {call : Claims.Call A} {part part' : Betanet.State A σ}
    (h : Claims.dispatch T.betanet.wired origin call part = .ok part') :
    part'.handler.approved = part.handler.approved := by
  have hpays : ∀ {signer dest}, Claims.PaidBy T.betanet.wired part part' signer dest →
      part'.handler.approved = part.handler.approved := by
    rintro signer dest ⟨part₁, hprocess, hpart'⟩
    obtain ⟨v, _, hhandler⟩ := Claims.processClaim_handler hprocess
    -- the handler of the payment lists the account that claimed, at most
    rw [hpart']
    show part₁.handler.approved = _
    rw [hhandler]
    split
    · show (Betanet.addClaimed _ _ _ _ _ _).approved = _
      unfold Betanet.addClaimed
      split <;> rfl
    · rfl
  cases call with
  | claim | claimAttest | attest =>
    obtain ⟨signer, dest, _, hpaidBy⟩ := Claims.dispatch_pays rfl h
    exact hpays hpaidBy
  | mintClaim | moveClaim =>
    obtain ⟨_, _, _, _, _, hpart'⟩ := Claims.dispatch_frame rfl h
    rw [hpart']

/-- A user chooses his option; the root approves the program. -/
theorem betanet_approved {C : Betanet.Config A σ} {call : BetanetCall}
    {part part' : Betanet.State A σ} (huser : isUser origin = true)
    (h : betanetDispatch C call origin part = .ok part') :
    part'.handler.approved = part.handler.approved := by
  cases call with
  | selectOption option =>
    simp only [betanetDispatch, Betanet.selectOption, bind_eq_ok] at h
    obtain ⟨_, _, _, _, _, _, hpart'⟩ := h
    cases hpart'
    rfl
  | approve =>
    simp only [betanetDispatch, Betanet.approve, bind_eq_ok, ensureRoot_eq_ok] at h
    obtain ⟨_, hroot, _⟩ := h
    rw [hroot] at huser
    cases huser

/-- The transfers of the currency are nothing to the settings of the swap. -/
theorem swap_settings (hT : T.Governed) (huser : isUser origin = true) {call : Swap.Call A}
    {st st' : Swap.State A (PalletCall A F) σ}
    (h : Swap.dispatch T.swap T.bridgeId call origin st = .ok st') :
    st'.world.swapFee = st.world.swapFee ∧ st'.world.feeDestination = st.world.feeDestination ∧
      st'.chainNonces.keys = st.chainNonces.keys := by
  have hadmin := user_not_admin (E := Swap.Error) huser (hT.bridge origin huser)
  cases call with
  | transferNative amount recipient destId =>
    obtain ⟨source, st₁, st₂, _, _, hfee, hmove, hframe, hsent⟩ := Swap.transferNative_steps h
    obtain ⟨nonce, hnonce, hst'⟩ := Chainbridge.Transfer.run_ok
      (t := .fungible destId T.swap.nativeTokenId recipient _) hsent
    have hworld : st'.world = st₂.world := by rw [hst']
    have hmoved := Swap.currencyTransfer_world hmove
    have hpaid := Swap.payFee_world hfee
    have hnonces : st₂.chainNonces = st.chainNonces := by rw [hframe]
    refine ⟨?_, ?_, ?_⟩
    · rw [hworld, hmoved, hpaid]
    · rw [hworld, hmoved, hpaid]
    · -- the nonce that is bumped is there already
      rw [hst']
      show (st₂.chainNonces.insert destId (nonce + 1)).keys = st.chainNonces.keys
      rw [← hnonces]
      exact StorageMap.keys_insert_of_lookup hnonce
  | transfer dest amount =>
    simp only [Swap.dispatch, Swap.transfer] at h
    split at h
    · rw [Swap.currencyTransfer_frame h, Swap.currencyTransfer_world h]
      exact ⟨rfl, rfl, rfl⟩
    · cases h
  -- the settings of the swap take an admin
  | setSwapFee fee =>
    simp only [Swap.dispatch, Swap.setSwapFee, bind_eq_ok] at h
    obtain ⟨_, hpassed, _⟩ := h
    exact absurd hpassed hadmin
  | setFeeDestination dest =>
    simp only [Swap.dispatch, Swap.setFeeDestination, bind_eq_ok] at h
    obtain ⟨_, hpassed, _⟩ := h
    exact absurd hpassed hadmin

/-- The scheduling account submits points and the address space, which are no settings. -/
theorem cmix_settings (hT : T.Governed) (huser : isUser origin = true) {call : Cmix.Call A}
    {part part' : Cmix.State A σ} (h : Cmix.dispatch T.cmix call origin part = .ok part') :
    part'.cmixHashes = part.cmixHashes ∧ part'.adminPermission = part.adminPermission ∧
      part'.schedulingAccount = part.schedulingAccount ∧
      part'.nextCmixVariables = part.nextCmixVariables ∧
      part'.cmixVariables = part.cmixVariables := by
  have hadmin := user_not_admin (E := Cmix.Error) huser (hT.cmix origin huser)
  have hvariables := user_not_admin (E := Cmix.Error) huser (hT.cmixVariables origin huser)
  cases call with
  | setCmixHashes hashes =>
    simp only [Cmix.dispatch, Cmix.setCmixHashes, bind_eq_ok] at h
    obtain ⟨_, hpassed, _⟩ := h
    exact absurd hpassed hadmin
  | setSchedulingAccount who =>
    simp only [Cmix.dispatch, Cmix.setSchedulingAccount, bind_eq_ok] at h
    obtain ⟨_, hpassed, _⟩ := h
    exact absurd hpassed hadmin
  | setNextCmixVariables vars =>
    simp only [Cmix.dispatch, Cmix.setNextCmixVariables, bind_eq_ok] at h
    obtain ⟨_, hpassed, _⟩ := h
    exact absurd hpassed hvariables
  -- what the scheduling account submits
  | submitCmixPoints data =>
    simp only [Cmix.dispatch, Cmix.submitCmixPoints, bind_eq_ok] at h
    obtain ⟨_, _, _, _, hpart'⟩ := h
    cases hpart'
    exact ⟨rfl, rfl, rfl, rfl, rfl⟩
  | submitCmixDeductions data =>
    simp only [Cmix.dispatch, Cmix.submitCmixDeductions, bind_eq_ok] at h
    obtain ⟨_, _, _, _, hpart'⟩ := h
    cases hpart'
    exact ⟨rfl, rfl, rfl, rfl, rfl⟩
  | setCmixAddressSpace size =>
    simp only [Cmix.dispatch, Cmix.setCmixAddressSpace, bind_eq_ok] at h
    obtain ⟨_, _, _, _, hpart'⟩ := h
    cases hpart'
    exact ⟨rfl, rfl, rfl, rfl, rfl⟩
  | setAdminPermission permission =>
    simp only [Cmix.dispatch, Cmix.setAdminPermission, bind_eq_ok, ensureRoot_eq_ok] at h
    obtain ⟨_, hroot, _⟩ := h
    rw [hroot] at huser
    cases huser

/-- All calls of the economics pallet are the admin's. -/
theorem economics_refused (hT : T.Governed) (huser : isUser origin = true)
    {call : Economics.Call} {part part' : Economics.State σ}
    (h : Economics.dispatch T.economics origin call part = .ok part') : False := by
  have hadmin := user_not_admin (E := Empty) huser (hT.economics origin huser)
  cases call with
  | setInflationParams | setInterestPoints | setLiquidityRewardsStake
  | setLiquidityRewardsBalance =>
    simp only [Economics.dispatch, Economics.setInflationParams, Economics.setInterestPoints,
      Economics.setLiquidityRewardsStake, Economics.setLiquidityRewardsBalance, bind_eq_ok] at h
    obtain ⟨_, hpassed, _⟩ := h
    exact hadmin hpassed

/-- A payout writes what is vested, and no custodian. -/
theorem custodians_payout {who : A} {part part' : Custody.State A σ}
    (h : Custody.payout T.custody origin who part = .ok part') :
    part'.custodians = part.custodians := by
  have hdo : ∀ {amount info keepAlive} {p p' : Custody.State A σ},
      Custody.doPayout T.custody who amount info keepAlive p = .ok p' →
      p'.custodians = p.custodians := by
    intro amount info keepAlive p p' hpay
    obtain ⟨_, _, _, _, _, _, _, hp'⟩ := Custody.doPayout_eq hpay
    rw [hp']
  obtain ⟨info, _, ⟨_, hlast⟩ | ⟨_, hpay⟩⟩ := Custody.payout_cases h
  · obtain ⟨ledger, part₁, _, hpay, hpart'⟩ := Custody.lastPayout_cases hlast
    have hpaid := hdo hpay
    rw [hpart']
    exact hpaid
  · exact hdo hpay

/-- Members and custodians bond, set proxies and pay out; who is a custodian the admin says. -/
theorem custody_custodians (hT : T.Governed) (huser : isUser origin = true)
    {call : Custody.Call A} {part part' : Custody.State A σ}
    (h : Custody.dispatch T.custody origin call part = .ok part') :
    part'.custodians = part.custodians := by
  have hadmin := user_not_admin (E := Custody.Error) huser (hT.custody origin huser)
  cases call with
  | payout who => exact custodians_payout h
  | custodyBond | custodyBondExtra | custodySetController | custodySetProxy =>
    unfold Custody.dispatch at h
    simp only [Custody.custodyBond, Custody.custodyBondExtra, Custody.custodySetController,
      Custody.custodySetProxy] at h
    obtain ⟨_, ledger, _, hpart'⟩ := Custody.asCustodian_ok h
    rw [hpart']
  | teamCustodySetProxy proxy =>
    obtain ⟨_, _, ledger, _, _, hpart'⟩ := Custody.teamCustodySetProxy_ok h
    rw [hpart']
  -- who is a custodian or of the team, an admin says
  | addCustodian custodian =>
    simp only [Custody.dispatch, Custody.addCustodian, bind_eq_ok] at h
    obtain ⟨_, hpassed, _⟩ := h
    exact absurd hpassed hadmin
  | removeCustodian custodian =>
    simp only [Custody.dispatch, Custody.removeCustodian, bind_eq_ok] at h
    obtain ⟨_, hpassed, _⟩ := h
    exact absurd hpassed hadmin
  | replaceTeamMember who new =>
    simp only [Custody.dispatch, Custody.replaceTeamMember, bind_eq_ok] at h
    obtain ⟨_, hpassed, _⟩ := h
    exact absurd hpassed hadmin

/-- The managers distribute, entry by entry, and name no manager. -/
theorem public_managers (hT : T.Governed) (huser : isUser origin = true) {call : Public.Call A}
    {part part' : Public.State A σ}
    (h : Public.dispatch T.publicFunds call origin part = .ok part') :
    part'.testnetManager = part.testnetManager ∧ part'.saleManager = part.saleManager := by
  have hadmin := user_not_admin (E := Public.Error) huser (hT.publicFunds origin huser)
  have hdistribution : ∀ {pot data} {p p' : Public.State A σ},
      Public.doDistribution T.publicFunds pot data p = .ok p' →
      p'.testnetManager = p.testnetManager ∧ p'.saleManager = p.saleManager := by
    intro pot data p p' hrun
    simp only [Public.doDistribution, bind_eq_ok] at hrun
    obtain ⟨_, _, hfold⟩ := hrun
    -- each entry writes to the ledger only
    refine foldlM_invariant (I := fun q : Public.State A σ =>
      q.testnetManager = p.testnetManager ∧ q.saleManager = p.saleManager)
      (fun q d q' hq hstep => ?_) ⟨rfl, rfl⟩ hfold
    unfold Public.distribute at hstep
    split at hstep
    · cases hstep
      exact hq
    · cases hstep
  cases call with
  | setTestnetManagerAccount who =>
    simp only [Public.dispatch, Public.setTestnetManagerAccount, bind_eq_ok] at h
    obtain ⟨_, hpassed, _⟩ := h
    exact absurd hpassed hadmin
  | setSaleManagerAccount who =>
    simp only [Public.dispatch, Public.setSaleManagerAccount, bind_eq_ok] at h
    obtain ⟨_, hpassed, _⟩ := h
    exact absurd hpassed hadmin
  -- the managers' own calls
  | testnetDistribute data =>
    simp only [Public.dispatch, Public.testnetDistribute, bind_eq_ok] at h
    obtain ⟨_, _, _, _, hrun⟩ := h
    exact hdistribution hrun
  | saleDistribute data =>
    simp only [Public.dispatch, Public.saleDistribute, bind_eq_ok] at h
    obtain ⟨_, _, _, _, hrun⟩ := h
    exact hdistribution hrun

/-- A call of this repository that a user dispatches changes no setting. -/
theorem palletDispatch_settings (hT : T.Governed) (huser : isUser origin = true)
    {call : PalletCall A F} (hown : ∀ f, call ≠ .foreign f)
    (h : palletDispatch T call origin s = .ok s') : settings s' = settings s := by
  cases call with
  | claims call =>
    obtain ⟨part, hrun, hs'⟩ := through_ok h
    rw [hs']
    show ({ settings s with approved := part.handler.approved } : Settings A) = settings s
    rw [claims_approved hrun]
    rfl
  | swap call =>
    obtain ⟨s₁, hrun, hs'⟩ := swapDispatch_ok h
    obtain ⟨hfee, hdestination, hchains⟩ := swap_settings hT huser hrun
    rw [hs', Swap.dispatch_frame hrun]
    show ({ settings s with
      chains := s₁.chainNonces.keys
      swapFee := s₁.world.swapFee
      feeDestination := s₁.world.feeDestination } : Settings A) = settings s
    rw [hfee, hdestination, hchains]
    rfl
  | xxCmix call =>
    obtain ⟨part, hrun, hs'⟩ := through_ok h
    obtain ⟨hhashes, hpermission, hscheduling, hnext, hvariables⟩ := cmix_settings hT huser hrun
    rw [hs']
    show ({ settings s with
      cmixHashes := part.cmixHashes
      adminPermission := part.adminPermission
      schedulingAccount := part.schedulingAccount
      cmixVariables := part.nextCmixVariables.getD part.cmixVariables } : Settings A) = settings s
    rw [hhashes, hpermission, hscheduling, hnext, hvariables]
    rfl
  | xxEconomics call =>
    obtain ⟨part, hrun, _⟩ := through_ok h
    -- there is no call for users
    exact (economics_refused hT huser hrun).elim
  | xxCustody call =>
    obtain ⟨part, hrun, hs'⟩ := through_ok h
    rw [hs']
    show ({ settings s with custodians := part.custodians } : Settings A) = settings s
    rw [custody_custodians hT huser hrun]
    rfl
  | xxBetanetRewards call =>
    obtain ⟨part, hrun, hs'⟩ := through_ok h
    rw [hs']
    show ({ settings s with approved := part.handler.approved } : Settings A) = settings s
    rw [betanet_approved huser hrun]
    rfl
  | xxPublic call =>
    obtain ⟨part, hrun, hs'⟩ := through_ok h
    obtain ⟨htestnet, hsale⟩ := public_managers hT huser hrun
    rw [hs']
    show ({ settings s with
      testnetManager := part.testnetManager
      saleManager := part.saleManager } : Settings A) = settings s
    rw [htestnet, hsale]
    rfl
  | foreign call => exact absurd rfl (hown call)

/-! ## The hooks

They pay, and write what they paid and to whom; the one setting that a hook writes is the
variables of the mix network, which are in force from the end of the era on that they were set
for. -/

/-- From `part` to `part'` only the ledger and the events change. -/
def OnlyLedger (part part' : Economics.State σ) : Prop :=
  ∃ ledger events, part' = { part with ledger, events }

omit [DecidableEq A] in
theorem OnlyLedger.trans {part part₁ part' : Economics.State σ} (h : OnlyLedger part part₁)
    (h' : OnlyLedger part₁ part') : OnlyLedger part part' := by
  obtain ⟨_, _, rfl⟩ := h
  obtain ⟨ledger, events, rfl⟩ := h'
  exact ⟨ledger, events, rfl⟩

section RewardsPool

omit [DecidableEq A]

variable (C : Economics.Config A σ) (amount : Nat) (part : Economics.State σ)

/-- The pool is settled in the ledger, or nothing is paid. -/
theorem onlyLedger_withdraw : OnlyLedger part (Economics.withdraw C amount part) := by
  unfold Economics.withdraw
  split
  · exact ⟨part.ledger, part.events, rfl⟩
  · exact ⟨_, _, rfl⟩

theorem onlyLedger_mintEvent : OnlyLedger part (Economics.mintEvent amount part) := by
  unfold Economics.mintEvent
  split
  · exact ⟨part.ledger, part.events, rfl⟩
  · exact ⟨part.ledger, _, rfl⟩

/-- The pool pays, and what it mints is announced. -/
theorem onlyLedger_onUnbalanced : OnlyLedger part (Economics.onUnbalanced C amount part) := by
  unfold Economics.onUnbalanced
  split
  · exact ⟨part.ledger, part.events, rfl⟩
  · have hpaid := (onlyLedger_withdraw C (min amount (Economics.rewardsBalance C part)) part).trans
      (onlyLedger_mintEvent (amount - min amount (Economics.rewardsBalance C part)) _)
    exact hpaid.trans ⟨_, _, rfl⟩

theorem onlyLedger_payRewards (receivers : List (A × Nat)) :
    OnlyLedger part (Economics.payRewards C receivers part) := by
  have hcredited : OnlyLedger part
      { part with ledger := (Economics.depositAll C.currency part.ledger receivers).1 } :=
    ⟨_, part.events, rfl⟩
  exact hcredited.trans (onlyLedger_onUnbalanced C _ _)

theorem onlyLedger_payRemainder : OnlyLedger part (Economics.payRemainder C amount part) := by
  have hissued : OnlyLedger part
      { part with ledger := (C.currency.issue part.ledger amount).1 } := ⟨_, part.events, rfl⟩
  refine hissued.trans ?_
  unfold Economics.payRemainder Economics.remainderOnUnbalanced
  dsimp only
  split
  · exact ⟨_, part.events, rfl⟩
  · refine OnlyLedger.trans ⟨_, part.events, rfl⟩ ((onlyLedger_withdraw C _ _).trans
      ((onlyLedger_mintEvent _ _).trans ⟨_, _, rfl⟩))

end RewardsPool

omit [DecidableEq A] in
/-- The economics pallet keeps its settings when it only pays. -/
theorem settings_economics {part : Economics.State σ}
    (h : OnlyLedger (economicsPart.get s.world) part) :
    settings { s with world := economicsPart.put s.world part } = settings s := by
  obtain ⟨ledger, events, rfl⟩ := h
  rfl

/-- The program stays approved, or not, as it is enacted. -/
theorem approved_onInitialize (C : Betanet.Config A σ) (block : Nat)
    (accounts : List (A × Betanet.UserInfo)) (rewards : List (Claims.EthereumAddress × Nat))
    (part : Betanet.State A σ) :
    (Betanet.onInitialize C block accounts rewards part).handler.approved =
      part.handler.approved :=
  Betanet.onInitialize_keeps
    (I := fun after : Betanet.State A σ => after.handler.approved = part.handler.approved)
    (fun _ _ _ h => h) (fun _ _ _ h => h) (fun _ h => h) rfl

theorem settings_onInitialize {block : Nat} {accounts : List (A × Betanet.UserInfo)}
    {rewards : List (Claims.EthereumAddress × Nat)} :
    settings (onInitialize T block accounts rewards s) = settings s := by
  have happroved := approved_onInitialize T.betanet block accounts rewards
    (claimsPart.get (s.world.setBlock block))
  show ({ settings s with approved := (Betanet.onInitialize T.betanet block accounts rewards
    (claimsPart.get (s.world.setBlock block))).handler.approved } : Settings A) = settings s
  rw [happroved]
  rfl

/-! ## Runs

What a record lists are the calls at the bottom of every nest, each with the origin that it had
there. So it is enough to look at one of them at a time, and at how a user's extrinsic comes down to
calls of users: a batch keeps the origin, a proposal is dispatched as the bridge account's, and a
call under another origin takes the root. -/

variable [DecidableEq F]

/-- An entry of a record that is a user's, or a hook, changes no setting, unless it is a call of a
pallet that is not of this repository. -/
theorem happens_settings (hT : T.Governed) {action : Action A F σ} (huser : action.byUser = true)
    (hown : action.isForeign = false) (h : Happens T s action s') :
    settings s' = settings s := by
  cases action with
  | extrinsic origin call =>
    rcases Chainbridge.executes_cases h with ⟨pallet, rfl, hrun⟩ | hadministered
    · refine palletDispatch_settings hT huser (fun f hf => ?_) hrun
      rw [hf] at hown
      cases hown
    -- the administration of the bridge begins with the same check
    · exact absurd hadministered.admin
        (user_not_admin (E := Chainbridge.Error) huser (hT.bridge origin huser))
  | onInitialize block accounts rewards =>
    rw [show s' = _ from h]
    exact settings_onInitialize
  | endEra =>
    -- the variables that come into force are the ones set before
    obtain ⟨_, hera⟩ := endEra_frame s
    rw [show s' = _ from Eq.trans h hera]
    rfl
  | eraPayout totalStaked totalIssuance eraDurationMillis =>
    -- the liquidity rewards, which count down on their own, are no setting
    obtain ⟨_, hera⟩ := eraPayout_frame T totalStaked totalIssuance eraDurationMillis s
    rw [show s' = _ from Eq.trans h hera]
    rfl
  | payRewards receivers =>
    rw [show s' = _ from h]
    exact settings_economics (onlyLedger_payRewards T.economics _ receivers)
  | payRemainder amount =>
    rw [show s' = _ from h]
    exact settings_economics (onlyLedger_payRemainder T.economics amount _)
  | elsewhere ledger =>
    rw [show s' = _ from h]
    rfl

/-- The entry of a record changed a setting. -/
def ChangesSettings (T : Config A F σ) (e : State A F σ × Action A F σ) : Prop :=
  ∃ s', Happens T e.1 e.2 s' ∧ settings s' ≠ settings e.1

/-- **Who changes the settings.** If a setting differs after a run, from any state, one of the calls
that were dispatched in it changed it. And whichever of them changes a setting is a call of a pallet
that is not of this repository, or one of the root or an admin. The second takes an extrinsic of
the run that is no user's: no vote of the relayers has a proposal change the bridge that executes
it, no batch and no call under another origin has more power than its signer. -/
theorem run_settings (T : Config A F σ) (hT : T.Governed) (s : State A F σ)
    (actions : List (Action A F σ)) :
    (settings (run T s actions) ≠ settings s →
      ∃ e ∈ record T s actions, ChangesSettings T e) ∧
    ∀ e ∈ record T s actions, ChangesSettings T e →
      e.2.isForeign = true ∨
        e.2.byUser = false ∧ ∃ action ∈ actions, action.byUser = false := by
  refine ⟨fun hchanged => ?_, fun e hmem hchanges => ?_⟩
  -- the settings are as they were up to some entry, and not after it
  · obtain ⟨before, _, after, s₁, s₂, hrecord, _, ⟨action, rfl, hstep, hsame, hne⟩, _⟩ :=
      (run_trace T s actions).loses (Q := fun s' => settings s' = settings s)
        (fun _ _ hquiet hs => by rw [hquiet.frame]; exact hs) rfl hchanged
    have hmem : (s₁, action) ∈ record T s actions := by
      rw [hrecord]
      exact List.mem_append_left _ (List.mem_append_right _ (List.mem_singleton_self _))
    exact ⟨(s₁, action), hmem, s₂, hstep, hsame ▸ hne⟩
  · obtain ⟨s', hstep, hchange⟩ := hchanges
    by_cases hforeign : e.2.isForeign = true
    · exact Or.inl hforeign
    · have hadmin : e.2.byUser ≠ true := fun huser =>
        hchange (happens_settings hT huser (Bool.eq_false_of_not_eq_true hforeign) hstep)
      refine Or.inr ⟨Bool.eq_false_of_not_eq_true hadmin, ?_⟩
      -- users only dispatch as users
      by_contra hnone
      refine hadmin (record_origins rfl rfl (fun other hother => ?_) _ hmem)
      by_contra huser
      exact hnone ⟨other, hother, Bool.eq_false_of_not_eq_true huser⟩

/-! ## On the mock runtime -/

theorem other_not_user {o : Origin Nat} {tag : Nat} (huser : isUser o = true) :
    decide (o = .other tag) = false := by
  refine decide_eq_false fun hother => ?_
  rw [hother] at huser
  cases huser

theorem wiredRuntime_governed : wiredRuntime.Governed where
  bridge _ huser := other_not_user huser
  cmix _ huser := other_not_user huser
  cmixVariables _ huser := other_not_user huser
  economics _ huser := other_not_user huser
  custody _ huser := other_not_user huser
  publicFunds _ huser := other_not_user huser

/-- The account `7` is the one relayer, and one vote is enough. -/
def mockGoverned : State Nat Unit (VestedLedger Nat) :=
  run wiredRuntime (mockState 1000)
    [.extrinsic .root (.addRelayer 7), .extrinsic .root (.setResource mockRuntime.tokenId [])]

/-- It votes for another relayer, which the bridge account may not add, and then the root raises
the threshold. -/
def mockChange : List (Action Nat Unit (VestedLedger Nat)) :=
  [.extrinsic (.signed 7) (.acknowledgeProposal 1 1 mockRuntime.tokenId (.addRelayer 8)),
    .extrinsic .root (.setThreshold 2)]

theorem run_settings_mock :
    (∃ e ∈ record wiredRuntime mockGoverned mockChange, ChangesSettings wiredRuntime e) ∧
    ∀ e ∈ record wiredRuntime mockGoverned mockChange, ChangesSettings wiredRuntime e →
      e.2.isForeign = true ∨
        e.2.byUser = false ∧ ∃ action ∈ mockChange, action.byUser = false := by
  have hbefore : (settings mockGoverned).relayerThreshold = 1 := by decide
  have hafter : (settings (run wiredRuntime mockGoverned mockChange)).relayerThreshold = 2 := by
    decide
  obtain ⟨hchanges, hwho⟩ :=
    run_settings wiredRuntime wiredRuntime_governed mockGoverned mockChange
  refine ⟨hchanges fun hsame => ?_, hwho⟩
  rw [hsame, hbefore] at hafter
  exact absurd hafter (by decide)

end XXChain.Runtime
