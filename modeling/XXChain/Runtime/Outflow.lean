import XXChain.Runtime.Supply

/-!
# XXChain — who takes coins from an account

The free balance of an account falls in few ways: by the native transfers and, for the bridge
account, the transfers that it signs, by the distributions out of a public pot, and by what the
pallets do that are not of this repository. Over any run of the runtime nothing else takes from an
account that has no part in the custody and is not the rewards pool.

* **`palletDispatch_outflow`** — a call of a pallet takes at most what it is charged with;
* **`happens_outflow`** — so does every entry of a record;
* **`run_outflow`** — and so does every run;
* **`run_untouched`** — users that sign nothing lose nothing.
-/

namespace XXChain.Runtime

open Chainbridge (outbound)

variable {A F σ : Type} [DecidableEq A] {T : Config A F σ} {a : A} {origin : Origin A}
  {s s' : State A F σ} {w w' : World A σ}

/-! ## Accounts on their own -/

/-- The account has no part in the custody. -/
def Apart (a : A) (s : State A F σ) : Prop :=
  Custody.Bystander (custodyPart.get s.world) a

/-- The account is not the rewards pool, which handles the rewards of the betanet too; the
treasury takes nothing from it, and the pallets that are not of this repository do not put it
under custody. -/
structure Config.Respects (T : Config A F σ) (a : A) : Prop where
  pool : a ≠ T.economics.rewardsAccountId
  reward : T.RewardedByEconomics
  rewardRemainder : ∀ l amount, T.currency.freeBalance l a ≤
    T.currency.freeBalance (T.economics.rewardRemainder l amount) a
  foreign : ∀ call o s s', T.foreign call o s = .ok s' → Apart a s → Apart a s'

theorem Apart.of_books (h : Apart a s) (hcustody : s'.world.xxCustody = s.world.xxCustody) :
    Apart a s' where
  team := by
    show ∀ who info, s'.world.xxCustody.teamAccounts.lookup who = some info → _
    rw [hcustody]
    exact h.team
  custody := by
    show s'.world.xxCustody.custodyAccounts.lookup a = none
    rw [hcustody]
    exact h.custody

/-! ## The rewards

They are paid out of the pool, or issued; whoever else has coins keeps them. -/

section Rewards

variable {C : Economics.Config A σ}

theorem deposit_free_le {c : Currency A σ} (hc : c.Lawful) (l : σ) (who : A) (v : Nat) :
    (c.account l a).free ≤ (c.account (c.depositCreating l who v).1 a).free := by
  have hcredit := congrArg AccountData.free (Economics.account_depositCreating hc l who v a)
  have hadded : ∀ x, ((c.account l a).credit x).free = (c.account l a).free + x := fun _ => rfl
  rw [hcredit, hadded]
  exact Nat.le_add_right _ _

theorem depositAll_free_le {c : Currency A σ} (hc : c.Lawful) (l : σ)
    (receivers : List (A × Nat)) :
    (c.account l a).free ≤ (c.account (Economics.depositAll c l receivers).1 a).free := by
  induction receivers generalizing l with
  | nil => exact le_rfl
  | cons receiver receivers ih =>
    have hfirst := deposit_free_le (a := a) hc l receiver.1 receiver.2
    exact hfirst.trans (ih (c.depositCreating l receiver.1 receiver.2).1)

theorem payRewards_free_le (hc : C.currency.Lawful) (hne : a ≠ C.rewardsAccountId)
    (receivers : List (A × Nat)) (part : Economics.State σ) :
    C.currency.freeBalance part.ledger a ≤
      C.currency.freeBalance (Economics.payRewards C receivers part).ledger a := by
  have hdeposits := depositAll_free_le (a := a) hc part.ledger receivers
  unfold Currency.freeBalance Economics.payRewards
  dsimp only
  rw [Economics.onUnbalanced_account_of_ne hc _ _ hne]
  exact hdeposits

theorem withdraw_account_of_ne (hc : C.currency.Lawful) (hne : a ≠ C.rewardsAccountId)
    (amount : Nat) (part : Economics.State σ) :
    C.currency.account (Economics.withdraw C amount part).ledger a =
      C.currency.account part.ledger a := by
  unfold Economics.withdraw
  split
  · rfl
  next hpos =>
    show C.currency.account (match _ with | some ledger => ledger | none => _) a = _
    split
    next ledger hsettle =>
      exact (hc.settle_account _ _ _ _ (Nat.pos_of_ne_zero hpos) hsettle).of_ne hne
    next => rw [hc.dropPositive_account]

theorem payRemainder_free_le (hc : C.currency.Lawful) (hne : a ≠ C.rewardsAccountId)
    (hremainder : ∀ l amount, C.currency.freeBalance l a ≤
      C.currency.freeBalance (C.rewardRemainder l amount) a)
    (amount : Nat) (part : Economics.State σ) :
    C.currency.freeBalance part.ledger a ≤
      C.currency.freeBalance (Economics.payRemainder C amount part).ledger a := by
  have hissued := congrFun (hc.issue_account part.ledger amount) a
  have hsame : C.currency.freeBalance part.ledger a =
      C.currency.freeBalance (C.currency.issue part.ledger amount).1 a := by
    unfold Currency.freeBalance
    rw [hissued]
  rw [hsame]
  show _ ≤ C.currency.freeBalance (Economics.remainderOnUnbalanced C
    (C.currency.issue part.ledger amount).2
    { part with ledger := (C.currency.issue part.ledger amount).1 }).ledger a
  unfold Economics.remainderOnUnbalanced
  split
  · exact le_rfl
  · refine le_trans ?_ (hremainder _ _)
    rw [Economics.mintEvent_ledger]
    unfold Currency.freeBalance
    rw [withdraw_account_of_ne hc hne, hc.burn_account]

end Rewards

/-! ## The betanet rewards -/

theorem reward_account (hT : T.Lawful) (hR : T.Respects a) (l : σ) (amount : Nat) :
    T.betanet.claims.currency.account (T.betanet.reward l amount) a =
      T.betanet.claims.currency.account l a := by
  obtain ⟨part, hpart, hreward⟩ := hR.reward l amount
  have hdrawn := Economics.onUnbalanced_account_of_ne (economics_currency_lawful hT) amount part
    hR.pool
  rw [T.economics_currency, hpart] at hdrawn
  rw [T.claims_currency, hreward]
  exact hdrawn

/-- A schedule locks coins, and moves none. -/
theorem tryAdd_free_eq {t : VestingSchedule A σ} {c : Currency A σ} (ht : t.Lawful c)
    (block : Nat) (l : σ) (who a : A) (v : Schedule) :
    (c.account (t.tryAdd block l who v) a).free = (c.account l a).free := by
  by_cases hsame : a = who
  · rw [hsame, ht.tryAdd_free]
  · rw [ht.tryAdd_account_of_ne block l v hsame]

theorem processAccount_free_le (hT : T.Lawful) (hR : T.Respects a) (account : A)
    (info : Betanet.UserInfo) (part : Betanet.State A σ) :
    (T.betanet.claims.currency.account part.ledger a).free ≤
      (T.betanet.claims.currency.account
        (Betanet.processAccount T.betanet account info part).ledger a).free := by
  have hdeposit := deposit_free_le (a := a) (claims_currency_lawful hT) part.ledger
    account (Betanet.rewardAmount info)
  refine hdeposit.trans (le_of_eq ?_)
  rw [← reward_account hT hR]
  rcases Betanet.processAccount_ledger T.betanet account info part with hpaid | ⟨v, hlocked⟩
  · rw [hpaid]
  · rw [hlocked, tryAdd_free_eq hT.claims]

theorem processLeftoverClaim_account (hT : T.Lawful) (hR : T.Respects a)
    (address : Claims.EthereumAddress) (reward : Nat) (part : Betanet.State A σ) :
    T.betanet.claims.currency.account
        (Betanet.processLeftoverClaim T.betanet address reward part).ledger a =
      T.betanet.claims.currency.account part.ledger a := by
  have hc := claims_currency_lawful hT
  unfold Betanet.processLeftoverClaim
  dsimp only
  rw [hc.dropNegative_account, reward_account hT hR, hc.issue_account, hc.burn_account]

theorem onInitialize_free_le (hT : T.Lawful) (hR : T.Respects a) (block : Nat)
    (accounts : List (A × Betanet.UserInfo)) (rewards : List (Claims.EthereumAddress × Nat))
    (part : Betanet.State A σ) :
    (T.betanet.claims.currency.account part.ledger a).free ≤
      (T.betanet.claims.currency.account
        (Betanet.onInitialize T.betanet block accounts rewards part).ledger a).free := by
  refine Betanet.onInitialize_keeps (I := fun after : Betanet.State A σ =>
    (T.betanet.claims.currency.account part.ledger a).free ≤
      (T.betanet.claims.currency.account after.ledger a).free) ?_ ?_ (fun _ h => h) le_rfl
  · intro after account info hle
    exact hle.trans (processAccount_free_le hT hR account info
      (Betanet.setAccounts (after.handler.accounts.erase account) after))
  · intro after entry _ hle
    have hsame := processLeftoverClaim_account hT hR entry.1 entry.2
      { after with rewards := after.rewards.erase entry.1 }
    rw [hsame]
    exact hle

/-! ## What is taken -/

/-- What the account loses with a payment of `v`: a remainder too little to stay goes with it. -/
def lost (T : Config A F σ) (a : A) (v : Nat) (s : State A F σ) : Nat :=
  v + (T.currency.account s.world.ledger a).withdrawDust T.currency.existentialDeposit v

/-- What a call of the swap pallet takes from the account that signs it. -/
def swapOutflow (T : Config A F σ) (a : A) (call : Swap.Call A) (s : State A F σ) : Nat :=
  match call with
  | .transfer dest amount => lost T a (if dest = a then 0 else amount) s
  | .transferNative amount _ _ =>
    lost T a (Swap.feePaid a s.world.swap + if T.bridgeId = a then 0 else amount) s
  | _ => 0

/-- What a distribution takes from its pot. -/
def publicOutflow (T : Config A F σ) (a : A) (call : Public.Call A) (s : State A F σ) : Nat :=
  match call with
  | .testnetDistribute data =>
    if a = T.publicFunds.testnetAccountId then lost T a (Public.amountOut a data) s else 0
  | .saleDistribute data =>
    if a = T.publicFunds.saleAccountId then lost T a (Public.amountOut a data) s else 0
  | _ => 0

/-- What a call of another pallet takes from the account. The calls of the pallets that are not of
this repository are charged with what is missing after them. -/
def outflowBy (T : Config A F σ) (a : A) (call : PalletCall A F) (origin : Origin A)
    (s : State A F σ) : Nat :=
  match call with
  | .swap call => if origin = .signed a then swapOutflow T a call s else 0
  | .xxPublic call => publicOutflow T a call s
  | .foreign call =>
    match T.foreign call origin s with
    | .ok s' => free T a s.world - free T a s'.world
    | .error _ => 0
  | _ => 0

/-- What an entry of a record takes from the account. -/
def outflow (T : Config A F σ) (a : A) (s : State A F σ) : Action A F σ → Nat
  | .extrinsic origin (.other call) => outflowBy T a call origin s
  | .elsewhere ledger => free T a s.world - T.currency.freeBalance ledger a
  | _ => 0

theorem swapDispatch_outflow (hT : T.Lawful) {call : Swap.Call A}
    (h : swapDispatch T call origin s = .ok s') :
    free T a s.world ≤ free T a s'.world +
      if origin = .signed a then swapOutflow T a call s else 0 := by
  obtain ⟨s₁, hrun, hs'⟩ := swapDispatch_ok h
  have hafter : free T a s'.world = (Swap.account T.swap s₁ a).free := by
    rw [hs']
    rfl
  rw [hafter]
  show (Swap.account T.swap (swapState s) a).free ≤ _
  cases call with
  | transferNative amount recipient destId =>
    obtain ⟨source, _, _, hsource, _⟩ := Swap.transferNative_steps hrun
    rw [hsource] at hrun ⊢
    have hmoved := Swap.transferNative_moved hT.currency hrun
    by_cases hsame : source = a
    · rw [hsame, if_pos rfl]
      rw [hsame] at hmoved
      exact hmoved.signer.free_le_add
    -- who does not sign may only receive
    · have hreceived := congrArg AccountData.free (hmoved.others a (Ne.symm hsame))
      rw [hreceived]
      exact Nat.le_add_right_of_le (Nat.le_add_right _ _)
  | transfer dest amount =>
    simp only [Swap.dispatch, Swap.transfer] at hrun
    split at hrun
    next source hauthorised =>
      simp only [Config.swap, ensureBridge] at hauthorised
      split at hauthorised
      -- only the bridge account passes, and it pays
      next horigin =>
        cases hauthorised
        have hmoved := Swap.currencyTransfer_ok (P := T.swap) hT.currency hrun
        rw [horigin]
        by_cases hsame : T.bridgeId = a
        · rw [hsame, if_pos rfl]
          rw [hsame] at hmoved
          exact hmoved.signer.free_le_add
        · have hreceived := congrArg AccountData.free (hmoved.others a (Ne.symm hsame))
          rw [hreceived]
          exact Nat.le_add_right_of_le (Nat.le_add_right _ _)
      next => cases hauthorised
    next => cases hrun
  | setSwapFee fee =>
    simp only [Swap.dispatch, Swap.setSwapFee, bind_eq_ok] at hrun
    obtain ⟨_, _, hs₁⟩ := hrun
    cases hs₁
    exact Nat.le_add_right _ _
  | setFeeDestination dest =>
    simp only [Swap.dispatch, Swap.setFeeDestination, bind_eq_ok] at hrun
    obtain ⟨_, _, hs₁⟩ := hrun
    cases hs₁
    exact Nat.le_add_right _ _

/-- A distribution takes from its pot what it sends to others. -/
theorem distribution_outflow (hT : T.Lawful) {pot : A} {data : List (Public.TransferData A)}
    {part : Public.State A σ}
    (h : Public.doDistribution T.publicFunds pot data (publicPart.get s.world) = .ok part) :
    free T a s.world ≤ T.currency.freeBalance part.ledger a +
      if a = pot then lost T a (Public.amountOut a data) s else 0 := by
  have hcurrency : T.publicFunds.currency.Lawful := T.public_currency ▸ hT.currency
  have hdone := Public.doDistribution_ok ⟨hcurrency, hT.publicFunds⟩ h
  by_cases hsame : a = pot
  · rw [if_pos hsame, hsame]
    have hpaid := hdone.source.free_le_add
    rw [T.public_currency] at hpaid
    exact hpaid
  · have hfree := hdone.free a hsame
    rw [T.public_currency] at hfree
    rw [if_neg hsame]
    unfold Currency.freeBalance
    rw [hfree]
    exact Nat.le_add_right _ _

theorem public_outflow (hT : T.Lawful) {call : Public.Call A} {part : Public.State A σ}
    (h : Public.dispatch T.publicFunds call origin (publicPart.get s.world) = .ok part) :
    free T a s.world ≤ T.currency.freeBalance part.ledger a + publicOutflow T a call s := by
  cases call with
  | setTestnetManagerAccount who =>
    simp only [Public.dispatch, Public.setTestnetManagerAccount, bind_eq_ok] at h
    obtain ⟨_, _, hpart⟩ := h
    cases hpart
    exact le_rfl
  | setSaleManagerAccount who =>
    simp only [Public.dispatch, Public.setSaleManagerAccount, bind_eq_ok] at h
    obtain ⟨_, _, hpart⟩ := h
    cases hpart
    exact le_rfl
  | testnetDistribute data =>
    simp only [Public.dispatch, Public.testnetDistribute, bind_eq_ok] at h
    obtain ⟨_, _, _, _, hdistribution⟩ := h
    exact distribution_outflow hT hdistribution
  | saleDistribute data =>
    simp only [Public.dispatch, Public.saleDistribute, bind_eq_ok] at h
    obtain ⟨_, _, _, _, hdistribution⟩ := h
    exact distribution_outflow hT hdistribution

/-! ## Every step -/

/-- The custody takes from its own accounts. -/
def PalletCall.isCustody : PalletCall A F → Bool
  | .xxCustody _ => true
  | _ => false

/-- The calls that may write to the books of the custody. -/
def PalletCall.writesCustody : PalletCall A F → Bool
  | .xxCustody _ | .foreign _ => true
  | _ => false

/-- Whoever holds the account, a call takes at most what it is charged with. -/
theorem palletDispatch_free_le (hT : T.Lawful) {call : PalletCall A F}
    (hcustody : call.isCustody = false) (h : palletDispatch T call origin s = .ok s') :
    free T a s.world ≤ free T a s'.world + outflowBy T a call origin s := by
  cases call with
  | claims call =>
    obtain ⟨part, hrun, hs'⟩ := through_ok h
    have hfree := Claims.free_le_dispatch (T := T.betanet.wired) (claims_currency_lawful hT)
      hT.claims hrun a
    rw [hs']
    exact free_le_of_currency T.claims_currency hfree
  | swap call => exact swapDispatch_outflow hT h
  | xxCmix call =>
    obtain ⟨part, hrun, hs'⟩ := through_ok h
    -- points are the staking pallet's, and move no coins
    have haccount : T.currency.account part.ledger = T.currency.account s.world.ledger := by
      rcases Cmix.dispatch_ledger hrun with hsame | ⟨data, hreward⟩ | ⟨data, hdeduct⟩
      · rw [hsame]
        rfl
      · rw [hreward]
        exact hT.rewardByIds s.world.ledger data
      · rw [hdeduct]
        exact hT.deductByIds s.world.ledger data
    rw [hs']
    show (T.currency.account s.world.ledger a).free ≤ (T.currency.account part.ledger a).free
    rw [haccount]
  | xxEconomics call =>
    obtain ⟨part, hrun, hs'⟩ := through_ok h
    have hledger : part.ledger = s.world.ledger := Economics.dispatch_ledger hrun
    rw [hs']
    show T.currency.freeBalance s.world.ledger a ≤ T.currency.freeBalance part.ledger a
    rw [hledger]
  | xxCustody call => cases hcustody
  | xxBetanetRewards call =>
    obtain ⟨part, hrun, hs'⟩ := through_ok h
    have hledger : part.ledger = s.world.ledger := betanetDispatch_ledger hrun
    rw [hs']
    show T.currency.freeBalance s.world.ledger a ≤ T.currency.freeBalance part.ledger a
    rw [hledger]
  | xxPublic call =>
    obtain ⟨part, hrun, hs'⟩ := through_ok h
    have houtflow := public_outflow (a := a) hT hrun
    rw [hs']
    exact houtflow
  | foreign call =>
    -- what is missing after the call is what it is charged with
    have hforeign : T.foreign call origin s = .ok s' := h
    simp only [outflowBy, hforeign]
    omega

theorem palletDispatch_books {call : PalletCall A F} (hcustody : call.writesCustody = false)
    (h : palletDispatch T call origin s = .ok s') :
    s'.world.xxCustody = s.world.xxCustody := by
  cases call with
  | xxCustody | foreign => cases hcustody
  | swap call =>
    obtain ⟨s₁, _, hs'⟩ := swapDispatch_ok h
    rw [hs']
    rfl
  | claims | xxCmix | xxEconomics | xxBetanetRewards | xxPublic =>
    obtain ⟨part, _, hs'⟩ := through_ok h
    rw [hs']
    rfl

theorem palletDispatch_outflow (hT : T.Lawful) (hR : T.Respects a) {call : PalletCall A F}
    (hapart : Apart a s) (h : palletDispatch T call origin s = .ok s') :
    Apart a s' ∧ free T a s.world ≤ free T a s'.world + outflowBy T a call origin s := by
  cases call with
  | xxCustody call =>
    obtain ⟨part, hrun, hs'⟩ := through_ok h
    have hbystander := hapart.dispatch hrun
    have hfree := Custody.free_le_dispatch hT.custody hT.leavesOthers hapart hrun
    rw [hs']
    exact ⟨⟨hbystander.team, hbystander.custody⟩,
      free_le_of_currency T.custody_currency hfree⟩
  | foreign call =>
    exact ⟨hR.foreign call origin s s' h hapart, palletDispatch_free_le hT rfl h⟩
  | claims | swap | xxCmix | xxEconomics | xxBetanetRewards | xxPublic =>
    exact ⟨hapart.of_books (palletDispatch_books rfl h),
      palletDispatch_free_le hT rfl h⟩

variable [DecidableEq F]

/-- The entry is a call of the custody. -/
def Action.isCustody : Action A F σ → Bool
  | .extrinsic _ (.other call) => call.isCustody
  | _ => false

def Action.isHook : Action A F σ → Bool
  | .extrinsic .. => false
  | _ => true

/-- Whoever holds the account, an entry of a record that is no call of the custody takes at most
what it is charged with. -/
theorem happens_free_le (hT : T.Lawful) (hR : T.Respects a) {action : Action A F σ}
    (hcustody : action.isCustody = false) (h : Happens T s action s') :
    free T a s.world ≤ free T a s'.world + outflow T a s action := by
  cases action with
  | extrinsic origin call =>
    rcases Chainbridge.executes_cases h with ⟨pallet, hcall, hrun⟩ | hadmin
    · subst hcall
      exact palletDispatch_free_le hT hcustody hrun
    · have hworld := hadmin.world
      rw [hworld]
      exact Nat.le_add_right _ _
  | onInitialize block accounts rewards =>
    have hfree := onInitialize_free_le hT hR block accounts rewards
      (claimsPart.get (s.world.setBlock block))
    rw [show s' = _ from h]
    exact free_le_of_currency T.claims_currency hfree
  | endEra =>
    obtain ⟨_, hera⟩ := endEra_frame s
    rw [show s' = _ from Eq.trans h hera]
    exact le_rfl
  | eraPayout totalStaked totalIssuance eraDurationMillis =>
    obtain ⟨_, hera⟩ := eraPayout_frame T totalStaked totalIssuance eraDurationMillis s
    rw [show s' = _ from Eq.trans h hera]
    exact le_rfl
  | payRewards receivers =>
    have hfree := payRewards_free_le (economics_currency_lawful hT) hR.pool receivers
      (economicsPart.get s.world)
    rw [show s' = _ from h]
    exact free_le_of_currency T.economics_currency hfree
  | payRemainder amount =>
    have hremainder : ∀ l amount, T.economics.currency.freeBalance l a ≤
        T.economics.currency.freeBalance (T.economics.rewardRemainder l amount) a := by
      rw [T.economics_currency]
      exact hR.rewardRemainder
    have hfree := payRemainder_free_le (economics_currency_lawful hT) hR.pool hremainder amount
      (economicsPart.get s.world)
    rw [show s' = _ from h]
    exact free_le_of_currency T.economics_currency hfree
  | elsewhere ledger =>
    rw [show s' = _ from h]
    show free T a s.world ≤ T.currency.freeBalance ledger a +
      (free T a s.world - T.currency.freeBalance ledger a)
    omega

/-- A hook leaves the books of the custody alone, but for the block that begins. -/
theorem hook_books {action : Action A F σ} (hhook : action.isHook = true)
    (h : Happens T s action s') :
    ∃ block, s'.world.xxCustody = { s.world.xxCustody with block } ∧
      ((∃ accounts rewards, action = .onInitialize block accounts rewards) ∨
        block = s.world.xxCustody.block) := by
  cases action with
  | extrinsic => cases hhook
  | onInitialize block accounts rewards =>
    rw [show s' = _ from h]
    exact ⟨block, rfl, Or.inl ⟨accounts, rewards, rfl⟩⟩
  | eraPayout totalStaked totalIssuance eraDurationMillis =>
    obtain ⟨_, hera⟩ := eraPayout_frame T totalStaked totalIssuance eraDurationMillis s
    rw [show s' = _ from Eq.trans h hera]
    exact ⟨_, rfl, Or.inr rfl⟩
  | endEra | payRewards | payRemainder | elsewhere =>
    rw [show s' = _ from h]
    exact ⟨_, rfl, Or.inr rfl⟩

/-- Every entry of a record takes at most what it is charged with, and keeps the account out of the
custody. -/
theorem happens_outflow (hT : T.Lawful) (hR : T.Respects a) {action : Action A F σ}
    (hapart : Apart a s) (h : Happens T s action s') :
    Apart a s' ∧ free T a s.world ≤ free T a s'.world + outflow T a s action := by
  cases action with
  | extrinsic origin call =>
    rcases Chainbridge.executes_cases h with ⟨pallet, hcall, hrun⟩ | hadmin
    · subst hcall
      exact palletDispatch_outflow hT hR hapart hrun
    -- the administration of the bridge leaves the world alone
    · have hworld := hadmin.world
      refine ⟨hapart.of_books (by rw [hworld]), ?_⟩
      rw [hworld]
      exact Nat.le_add_right _ _
  | onInitialize | endEra | eraPayout | payRewards | payRemainder | elsewhere =>
    obtain ⟨block, hcustody, _⟩ := hook_books rfl h
    refine ⟨⟨?_, ?_⟩, happens_free_le hT hR rfl h⟩
    · show ∀ who info, s'.world.xxCustody.teamAccounts.lookup who = some info → _
      rw [hcustody]
      exact hapart.team
    · show s'.world.xxCustody.custodyAccounts.lookup a = none
      rw [hcustody]
      exact hapart.custody

/-- So does a record. -/
theorem recorded_outflow (hT : T.Lawful) (hR : T.Respects a)
    {entries : List (State A F σ × Action A F σ)} (hapart : Apart a s)
    (h : Recorded T entries s s') :
    Apart a s' ∧ free T a s.world ≤
      free T a s'.world + (entries.map fun e => outflow T a e.1 e.2).sum := by
  have hflow := h.flow_le (Apart a) (fun _ => 0) (fun s => free T a s.world) (outflow T a)
    (fun s s' hapart hquiet => by
      have hworld := hquiet.world
      exact ⟨hapart.of_books (by rw [hworld]), by rw [hworld]⟩)
    (fun s action s' hapart hstep => by
      obtain ⟨hapart', hle⟩ := happens_outflow hT hR hapart hstep
      exact ⟨hapart', by omega⟩) hapart
  exact ⟨hflow.1, by omega⟩

/-- **Who takes coins.** From any state in which the account has no part in the custody, and over
any run, with any calls nested in batches, proposals of the bridge and calls under other origins,
its free balance falls at most by what the entries of the record take from it. -/
theorem run_outflow (T : Config A F σ) (hT : T.Lawful) (a : A) (hR : T.Respects a)
    (s : State A F σ) (hapart : Apart a s) (actions : List (Action A F σ)) :
    free T a s.world ≤ free T a (run T s actions).world +
      ((record T s actions).map fun e => outflow T a e.1 e.2).sum :=
  (recorded_outflow hT hR hapart (run_trace T s actions)).2

/-- The pallets that are not of this repository take nothing from the account with the entry. -/
def sparedOutside (T : Config A F σ) (a : A) : State A F σ × Action A F σ → Bool
  | (s, .extrinsic origin (.other (.foreign call))) =>
    match T.foreign call origin s with
    | .ok s' => decide (free T a s.world ≤ free T a s'.world)
    | .error _ => true
  | (s, .elsewhere ledger) => decide (free T a s.world ≤ T.currency.freeBalance ledger a)
  | _ => true

/-- The origins of users other than the account. -/
def isOther (a : A) (o : Origin A) : Bool :=
  isUser o && decide (o ≠ .signed a)

omit [DecidableEq F] in
theorem outflow_of_other (htestnet : a ≠ T.publicFunds.testnetAccountId)
    (hsale : a ≠ T.publicFunds.saleAccountId) {e : State A F σ × Action A F σ}
    (horigin : e.2.origins (isOther a) = true) (houtside : sparedOutside T a e = true) :
    outflow T a e.1 e.2 = 0 := by
  obtain ⟨s, action⟩ := e
  cases action with
  | extrinsic origin call =>
    cases call with
    | other call =>
      cases call with
      | swap call =>
        -- a native transfer takes from its signer only
        have hne : origin ≠ .signed a := of_decide_eq_true (Bool.and_eq_true_iff.mp horigin).2
        exact if_neg hne
      | xxPublic call =>
        cases call with
        | testnetDistribute data => exact if_neg htestnet
        | saleDistribute data => exact if_neg hsale
        | setTestnetManagerAccount | setSaleManagerAccount => rfl
      | foreign call =>
        show (match T.foreign call origin s with
          | .ok s' => free T a s.world - free T a s'.world
          | .error _ => 0) = 0
        dsimp only [sparedOutside] at houtside
        split
        next s' hforeign =>
          rw [hforeign] at houtside
          exact Nat.sub_eq_zero_of_le (of_decide_eq_true houtside)
        next => rfl
      | claims | xxCmix | xxEconomics | xxCustody | xxBetanetRewards => rfl
    | setThreshold | setResource | removeResource | whitelistChain | addRelayer | removeRelayer
    | acknowledgeProposal | rejectProposal | evalVoteState | batchAll | batch | dispatchAs => rfl
  | elsewhere ledger => exact Nat.sub_eq_zero_of_le (of_decide_eq_true houtside)
  | onInitialize | endEra | eraPayout | payRewards | payRemainder => rfl

/-- **Nobody pays for another.** Over any run of extrinsics of users, none of them signed by the
account, its free balance does not fall, if it is none of the accounts that the pallets pay out of
and the pallets that are not of this repository take nothing from it. -/
theorem run_untouched (T : Config A F σ) (hT : T.Lawful) (a : A) (hR : T.Respects a)
    (hbridge : a ≠ T.bridgeId) (htestnet : a ≠ T.publicFunds.testnetAccountId)
    (hsale : a ≠ T.publicFunds.saleAccountId) (s : State A F σ) (hapart : Apart a s)
    (actions : List (Action A F σ))
    (hothers : ∀ action ∈ actions, action.origins (isOther a) = true)
    (houtside : ∀ e ∈ record T s actions, sparedOutside T a e = true) :
    free T a s.world ≤ free T a (run T s actions).world := by
  have hother : isOther a (.signed T.bridgeId) = true :=
    decide_eq_true fun hsame => hbridge (Origin.signed.inj hsame).symm
  have hrecord := record_origins (T := T) (s := s) (P := isOther a) rfl hother hothers
  have hnothing : ((record T s actions).map fun e => outflow T a e.1 e.2).sum = 0 := by
    refine List.sum_eq_zero fun taken htaken => ?_
    obtain ⟨e, he, rfl⟩ := List.mem_map.mp htaken
    exact outflow_of_other htestnet hsale (hrecord e he) (houtside e he)
  have hle := (recorded_outflow hT hR hapart (run_trace T s actions)).2
  omega

/-! ## On the mock runtime -/

theorem wiredRuntime_respects (a : Nat) (hpool : a ≠ 5) : wiredRuntime.Respects a where
  pool := hpool
  reward := wiredRuntime_issuesNothing.reward
  rewardRemainder l amount := deposit_free_le mockCurrency_lawful l.ledger 1337 amount
  foreign _ _ _ _ h hapart := by
    cases h
    exact hapart

theorem mockState_apart (balance a : Nat) : Apart a (mockState balance) where
  team _ _ h := nomatch h
  custody := rfl

/-- The account `4` sends `500` with a fee of `100`, and gets a reward of `50`. -/
def mockSpending : List (Action Nat Unit (VestedLedger Nat)) :=
  [.extrinsic (.signed 4) mockSend, .payRewards [(4, 50)]]

theorem run_outflow_mock :
    free wiredRuntime 4 (run wiredRuntime (mockState 1000) mockSpending).world = 450 ∧
      1000 ≤ 450 + ((record wiredRuntime (mockState 1000) mockSpending).map
        fun e => outflow wiredRuntime 4 e.1 e.2).sum := by
  have hfree : free wiredRuntime 4 (run wiredRuntime (mockState 1000) mockSpending).world =
      450 := by decide +kernel
  have hle := run_outflow wiredRuntime wiredRuntime_lawful 4 (wiredRuntime_respects 4 (by decide))
    (mockState 1000) (mockState_apart 1000 4) mockSpending
  rw [hfree] at hle
  exact ⟨hfree, hle⟩

/-- Others try to send, and the root is not among them. -/
def mockOthers : List (Action Nat Unit (VestedLedger Nat)) :=
  [.extrinsic (.signed 9) (.dispatchAs (.signed 4) mockSend),
    .extrinsic (.signed 9) (.batch (.other (.foreign ())) mockSend), .payRewards [(4, 50)]]

theorem run_untouched_mock :
    1000 ≤ free wiredRuntime 4 (run wiredRuntime (mockState 1000) mockOthers).world :=
  run_untouched wiredRuntime wiredRuntime_lawful 4 (wiredRuntime_respects 4 (by decide))
    (by decide) (by decide) (by decide) (mockState 1000) (mockState_apart 1000 4) mockOthers
    (by decide) (by decide +kernel)

end XXChain.Runtime
