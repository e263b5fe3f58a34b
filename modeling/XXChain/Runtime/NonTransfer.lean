import XXChain.Chainbridge.WorldEffect
import XXChain.Claims.ExactPayment
import XXChain.Custody.Bystanders
import XXChain.Public.Distribution
import XXChain.Runtime.Model
import XXChain.Swap.ExactTransfer

/-!
# XXChain — what a `NonTransfer` proxy can do to its delegator's coins

The proxy type is a list of the calls it denies, and what it does not deny it allows: all calls
of the repository's own pallets. None of them takes coins from its signer but one, which sends
them to another chain.

* **`palletDispatch_spares`** — what the calls of each pallet leave alone, `transfer_native`
  apart;
* **`bridgeCall_spares`** — what the calls of the bridge do, with all that they execute;
* **`send_free_le_iff`** — when a native transfer lowers its signer's free balance;
* **`nonTransfer_keeps_iff`** — a call that passes the filter lowers its signer's free balance
  exactly when it is a native transfer that goes through and moves something away.
-/

namespace XXChain.Runtime

open Chainbridge (RuntimeCall)
open Custody (ProxyType)

variable {A F σ : Type} [DecidableEq A] {T : Config A F σ} {a : A} {origin : Origin A}
  {s s' : State A F σ} {w w' : World A σ}

/-! ## Ordinary accounts -/

omit [DecidableEq A] in
def free (T : Config A F σ) (a : A) (w : World A σ) : Nat :=
  T.currency.freeBalance w.ledger a

/-- An account that the pallets do not hold funds in. -/
structure Ordinary (T : Config A F σ) (a : A) (w : World A σ) : Prop where
  bridge : a ≠ T.bridgeId
  testnet : a ≠ T.publicFunds.testnetAccountId
  sale : a ≠ T.publicFunds.saleAccountId
  custody : Custody.Bystander (custodyPart.get w) a

/-- From `w` to `w'` an ordinary account stays one, and its free balance does not fall. -/
def Spares (T : Config A F σ) (a : A) (w w' : World A σ) : Prop :=
  Ordinary T a w → Ordinary T a w' ∧ free T a w ≤ free T a w'

/-- The documented behaviour of the pallets that are not of this repository, as far as these
call them. -/
structure Config.Lawful (T : Config A F σ) : Prop where
  currency : T.currency.Lawful
  claims : T.betanet.claims.vestingSchedule.Lawful T.betanet.claims.currency
  publicFunds : T.publicFunds.vestingSchedule.Lawful T.publicFunds.currency
  custody : T.custody.Lawful
  leavesOthers : T.custody.LeavesOthers
  rewardByIds : ∀ ledger data, T.currency.account (T.cmix.rewardByIds ledger data) =
    T.currency.account ledger
  deductByIds : ∀ ledger data, T.currency.account (T.cmix.deductByIds ledger data) =
    T.currency.account ledger

/-- What the bridge account makes of a world by a call of one of the pallets. -/
def BridgeStep (T : Config A F σ) (w w' : World A σ) : Prop :=
  ∃ call s s', palletDispatch T call (.signed T.bridgeId) s = .ok s' ∧ s.world = w ∧ s'.world = w'

/-- The bridge account has no power over the coins of the account in the pallets that are not of
this repository, as it would have as its proxy: nothing it calls there takes from the account,
from that world on. -/
def BridgeSpares (T : Config A F σ) (a : A) (w : World A σ) : Prop :=
  ∀ w₁, Relation.ReflTransGen (BridgeStep T) w w₁ → ∀ call s s', s.world = w₁ →
    T.foreign call (.signed T.bridgeId) s = .ok s' → Spares T a w₁ s'.world

theorem Spares.refl (w : World A σ) : Spares T a w w :=
  fun ha => ⟨ha, le_rfl⟩

theorem Spares.trans {w₁ : World A σ} (h : Spares T a w w₁) (h' : Spares T a w₁ w') :
    Spares T a w w' := by
  intro ha
  obtain ⟨ha₁, hfirst⟩ := h ha
  obtain ⟨ha', hsecond⟩ := h' ha₁
  exact ⟨ha', hfirst.trans hsecond⟩

/-- A call that leaves the books of the custody alone spares those it does not take from. -/
theorem Spares.of_free (hcustody : w'.xxCustody = w.xxCustody)
    (hfree : Ordinary T a w → free T a w ≤ free T a w') : Spares T a w w' := by
  intro ha
  have hbystander : Custody.Bystander (custodyPart.get w') a := by
    refine ⟨?_, ?_⟩
    · show ∀ who info, w'.xxCustody.teamAccounts.lookup who = some info → _
      rw [hcustody]
      exact ha.custody.team
    · show w'.xxCustody.custodyAccounts.lookup a = none
      rw [hcustody]
      exact ha.custody.custody
  exact ⟨⟨ha.bridge, ha.testnet, ha.sale, hbystander⟩, hfree ha⟩

theorem Spares.of_ledger (hcustody : w'.xxCustody = w.xxCustody) (hledger : w'.ledger = w.ledger) :
    Spares T a w w' := by
  refine Spares.of_free hcustody fun _ => ?_
  rw [free, free, hledger]

omit [DecidableEq A] in
/-- The currency of a pallet is the one of the runtime. -/
theorem free_le_of_currency {c : Currency A σ} (hc : c = T.currency)
    (h : c.freeBalance w.ledger a ≤ c.freeBalance w'.ledger a) : free T a w ≤ free T a w' := by
  subst hc
  exact h

/-! ## The pallets -/

theorem claims_spares (hT : T.Lawful) {call : Claims.Call A}
    (h : through claimsPart (Claims.dispatch T.betanet.wired origin call) s = .ok s') :
    Spares T a s.world s'.world := by
  obtain ⟨part, hrun, hs'⟩ := through_ok h
  rw [hs']
  refine Spares.of_free rfl fun _ => free_le_of_currency T.claims_currency ?_
  have hcurrency : T.betanet.claims.currency.Lawful := T.claims_currency ▸ hT.currency
  exact Claims.free_le_dispatch (T := T.betanet.wired) hcurrency hT.claims hrun a

/-- An option and the approval of the program move nothing by themselves. -/
theorem betanetDispatch_ledger {C : Betanet.Config A σ} {call : BetanetCall}
    {part part' : Betanet.State A σ} (h : betanetDispatch C call origin part = .ok part') :
    part'.ledger = part.ledger := by
  obtain ⟨_, rfl⟩ := betanetDispatch_frame h
  rfl

theorem betanet_spares {call : BetanetCall}
    (h : through claimsPart (betanetDispatch T.betanet call origin) s = .ok s') :
    Spares T a s.world s'.world := by
  obtain ⟨part, hrun, hs'⟩ := through_ok h
  have hledger : part.ledger = s.world.ledger := betanetDispatch_ledger hrun
  rw [hs']
  exact Spares.of_ledger rfl hledger

theorem economics_spares {call : Economics.Call}
    (h : through economicsPart (Economics.dispatch T.economics origin call) s = .ok s') :
    Spares T a s.world s'.world := by
  obtain ⟨part, hrun, hs'⟩ := through_ok h
  have hledger : part.ledger = s.world.ledger := Economics.dispatch_ledger hrun
  rw [hs']
  exact Spares.of_ledger rfl hledger

/-- The points that the staking pallet is given change no balance. -/
theorem cmix_spares (hT : T.Lawful) {call : Cmix.Call A}
    (h : through cmixPart (Cmix.dispatch T.cmix call origin) s = .ok s') :
    Spares T a s.world s'.world := by
  obtain ⟨part, hrun, hs'⟩ := through_ok h
  have haccount : T.currency.account part.ledger = T.currency.account s.world.ledger := by
    rcases Cmix.dispatch_ledger hrun with hsame | ⟨data, hreward⟩ | ⟨data, hdeduct⟩
    · rw [hsame]
      rfl
    · rw [hreward]
      exact hT.rewardByIds s.world.ledger data
    · rw [hdeduct]
      exact hT.deductByIds s.world.ledger data
  rw [hs']
  refine Spares.of_free rfl fun _ => ?_
  show (T.currency.account s.world.ledger a).free ≤ (T.currency.account part.ledger a).free
  rw [haccount]

theorem custody_spares (hT : T.Lawful) {call : Custody.Call A}
    (h : through custodyPart (Custody.dispatch T.custody origin call) s = .ok s') :
    Spares T a s.world s'.world := by
  obtain ⟨part, hrun, hs'⟩ := through_ok h
  intro ha
  have hbystander := ha.custody.dispatch hrun
  have hfree := Custody.free_le_dispatch hT.custody hT.leavesOthers ha.custody hrun
  rw [hs']
  exact ⟨⟨ha.bridge, ha.testnet, ha.sale, hbystander.team, hbystander.custody⟩,
    free_le_of_currency T.custody_currency hfree⟩

/-- A distribution out of another account's funds. -/
theorem distribution_free_le (hT : T.Lawful) {pot : A} {data : List (Public.TransferData A)}
    {part part' : Public.State A σ} (hne : a ≠ pot)
    (h : Public.doDistribution T.publicFunds pot data part = .ok part') :
    T.publicFunds.currency.freeBalance part.ledger a ≤
      T.publicFunds.currency.freeBalance part'.ledger a := by
  have hcurrency : T.publicFunds.currency.Lawful := T.public_currency ▸ hT.currency
  have hfree := (Public.doDistribution_ok ⟨hcurrency, hT.publicFunds⟩ h).free a hne
  unfold Currency.freeBalance
  omega

theorem public_spares (hT : T.Lawful) {call : Public.Call A}
    (h : through publicPart (Public.dispatch T.publicFunds call origin) s = .ok s') :
    Spares T a s.world s'.world := by
  obtain ⟨part, hrun, hs'⟩ := through_ok h
  rw [hs']
  refine Spares.of_free rfl fun ha => free_le_of_currency T.public_currency ?_
  cases call with
  | setTestnetManagerAccount who =>
    simp only [Public.dispatch, Public.setTestnetManagerAccount, bind_eq_ok] at hrun
    obtain ⟨_, _, hpart⟩ := hrun
    cases hpart
    exact le_refl _
  | setSaleManagerAccount who =>
    simp only [Public.dispatch, Public.setSaleManagerAccount, bind_eq_ok] at hrun
    obtain ⟨_, _, hpart⟩ := hrun
    cases hpart
    exact le_refl _
  | testnetDistribute data =>
    simp only [Public.dispatch, Public.testnetDistribute, bind_eq_ok] at hrun
    obtain ⟨_, _, _, _, hdistribution⟩ := hrun
    exact distribution_free_le hT ha.testnet hdistribution
  | saleDistribute data =>
    simp only [Public.dispatch, Public.saleDistribute, bind_eq_ok] at hrun
    obtain ⟨_, _, _, _, hdistribution⟩ := hrun
    exact distribution_free_le hT ha.sale hdistribution

/-- A native transfer that someone else signs can only bring coins. -/
theorem transferNative_free_le (hT : T.Lawful) {source : A} {amount : Nat}
    {recipient : List UInt8} {destId : Chainbridge.ChainId}
    {st st' : Swap.State A (PalletCall A F) σ} (hne : a ≠ source)
    (h : Swap.transferNative T.swap T.bridgeId (.signed source) amount recipient destId st =
      .ok st') :
    (Swap.account T.swap st a).free ≤ (Swap.account T.swap st' a).free := by
  rw [(Swap.transferNative_moved hT.currency h).others a hne]
  exact Nat.le_add_right _ _

/-- The calls of the swap pallet, but for the native transfer that the account itself signs. -/
theorem swap_spares (hT : T.Lawful) {call : Swap.Call A}
    (hsend : ∀ amount recipient destId, call = .transferNative amount recipient destId →
      origin ≠ .signed a)
    (h : swapDispatch T call origin s = .ok s') : Spares T a s.world s'.world := by
  obtain ⟨s₁, hrun, hs'⟩ := swapDispatch_ok h
  rw [hs']
  refine Spares.of_free rfl fun ha => ?_
  show (Swap.account T.swap (swapState s) a).free ≤ (Swap.account T.swap s₁ a).free
  cases call with
  | transferNative amount recipient destId =>
    have horigin := hsend amount recipient destId rfl
    obtain ⟨source, _, _, hsource, _⟩ := Swap.transferNative_steps hrun
    rw [hsource] at hrun horigin
    have hne : a ≠ source := fun hsame => horigin (by rw [hsame])
    exact transferNative_free_le hT hne hrun
  | transfer dest amount =>
    simp only [Swap.dispatch, Swap.transfer] at hrun
    split at hrun
    next source hbridge =>
      have hsource : source = T.bridgeId := by
        simp only [Config.swap, ensureBridge] at hbridge
        split at hbridge
        · exact (Option.some.inj hbridge).symm
        · cases hbridge
      have hne : a ≠ source := by
        rw [hsource]
        exact ha.bridge
      rw [(Swap.currencyTransfer_ok (P := T.swap) hT.currency hrun).others a hne]
      exact Nat.le_add_right _ _
    next => cases hrun
  | setSwapFee fee =>
    simp only [Swap.dispatch, Swap.setSwapFee, bind_eq_ok] at hrun
    obtain ⟨_, _, hs₁⟩ := hrun
    cases hs₁
    exact le_rfl
  | setFeeDestination dest =>
    simp only [Swap.dispatch, Swap.setFeeDestination, bind_eq_ok] at hrun
    obtain ⟨_, _, hs₁⟩ := hrun
    cases hs₁
    exact le_rfl

/-- A native transfer, which takes from whoever signs it. -/
def isSend : PalletCall A F → Bool
  | .swap (.transferNative ..) => true
  | _ => false

/-- What the calls of each pallet leave alone. The calls of the pallets that are not of this
repository are left out, but those of the bridge account. -/
theorem palletDispatch_spares (hT : T.Lawful) (hbridge : BridgeSpares T a s.world)
    {call : PalletCall A F} (hsend : isSend call = true → origin ≠ .signed a)
    (hforeign : ∀ inner, call = .foreign inner → origin = .signed T.bridgeId)
    (h : palletDispatch T call origin s = .ok s') : Spares T a s.world s'.world := by
  cases call with
  | claims call => exact claims_spares hT h
  | swap call =>
    refine swap_spares hT (fun amount recipient destId hcall => ?_) h
    rw [hcall] at hsend
    exact hsend rfl
  | xxCmix call => exact cmix_spares hT h
  | xxEconomics call => exact economics_spares h
  | xxCustody call => exact custody_spares hT h
  | xxBetanetRewards call => exact betanet_spares h
  | xxPublic call => exact public_spares hT h
  | foreign call =>
    rw [hforeign call rfl] at h
    exact hbridge s.world .refl call s s' rfl h

/-! ## The bridge -/

/-- The calls that the bridge account signs: a native transfer among them takes from the bridge
account, and it has no other power than its own. -/
theorem bridge_carries (hT : T.Lawful) (hne : a ≠ T.bridgeId) :
    Chainbridge.Carries T.bridge
      (fun w w' => BridgeSpares T a w → BridgeSpares T a w' ∧ Spares T a w w') where
  refl w hbridge := ⟨hbridge, Spares.refl w⟩
  trans _ _ _ h h' hbridge := by
    obtain ⟨hbridge₁, hfirst⟩ := h hbridge
    obtain ⟨hbridge', hsecond⟩ := h' hbridge₁
    exact ⟨hbridge', hfirst.trans hsecond⟩
  other call s s' h hbridge := by
    have hother : (Origin.signed T.bridgeId : Origin A) ≠ .signed a :=
      fun hsame => hne (Origin.signed.inj hsame).symm
    have hstep : BridgeStep T s.world s'.world := ⟨call, s, s', h, rfl, rfl⟩
    exact ⟨fun w hreached => hbridge w (.head hstep hreached),
      palletDispatch_spares hT hbridge (fun _ => hother) (fun _ _ => rfl) h⟩
  alone origin := by
    show decide ((Origin.signed T.bridgeId : Origin A) = .root) = false
    exact decide_eq_false nofun

variable [DecidableEq F] {call : Call A F}

/-- The calls of the bridge, whoever signs them, with all that they execute. -/
theorem bridgeCall_spares (hT : T.Lawful) (hbridge : BridgeSpares T a s.world)
    (hne : a ≠ T.bridgeId) (hcall : call.ofBridge = true)
    (h : Chainbridge.dispatch T.bridge call origin s = .ok s') : Spares T a s.world s'.world :=
  (Chainbridge.dispatch_world (bridge_carries hT hne) (Or.inl hcall) h hbridge).2

/-! ## The filter -/

/-- The call takes coins from the account that signs it: it is a native transfer whose checks
pass, and what it moves away with the fee is not nothing. -/
def SendsAway (T : Config A F σ) (a : A) : Call A F → State A F σ → Prop
  | .other (.swap (.transferNative amount _ destId)), s =>
    Swap.Sendable T.swap T.bridgeId a amount destId (swapState s) ∧
      amount + Swap.feePaid a s.world.swap ≠ 0
  | _, _ => False

/-- What holds after every call that succeeds holds after the extrinsic. -/
theorem free_le_applyExtrinsic
    (h : ∀ s', Chainbridge.dispatch T.bridge call origin s = .ok s' →
      free T a s.world ≤ free T a s'.world) :
    free T a s.world ≤ free T a (applyExtrinsic T origin call s).world := by
  unfold applyExtrinsic Chainbridge.applyExtrinsic
  split
  next s' hrun => exact h s' hrun
  next => exact le_rfl

omit [DecidableEq A] [DecidableEq F] in
theorem own_cases (h : isOwn call = true) : call.ofBridge = true ∨
    ∃ pallet, call = .other pallet ∧ ∀ inner, pallet ≠ .foreign inner := by
  cases call with
  | other pallet =>
    refine Or.inr ⟨pallet, rfl, fun inner hforeign => ?_⟩
    rw [hforeign] at h
    cases h
  | batchAll | batch | dispatchAs => cases h
  | _ => exact Or.inl rfl

omit [DecidableEq A] [DecidableEq F] in
/-- The deny-list names none of the repository's own pallets. -/
theorem nonTransfer_allows (h : isOwn call = true) :
    filter .nonTransfer (T.kindOf call) = true := by
  rcases own_cases h with hbridge | ⟨pallet, hcall, hforeign⟩
  · cases call with
    | other => cases hbridge
    | _ => rfl
  · rw [hcall]
    cases pallet with
    | foreign inner => exact absurd rfl (hforeign inner)
    | _ => rfl

omit [DecidableEq F] in
theorem SendsAway.isSend {pallet : PalletCall A F} (h : SendsAway T a (.other pallet) s) :
    isSend pallet = true := by
  unfold SendsAway at h
  split at h
  next hcall =>
    cases hcall
    rfl
  next => exact h.elim

omit [DecidableEq F] in
theorem sendsAway_iff (hT : T.Lawful) {amount : Nat} {recipient : List UInt8}
    {destId : Chainbridge.ChainId} :
    SendsAway T a (.other (.swap (.transferNative amount recipient destId)) : Call A F) s ↔
      (∃ s₁, Swap.transferNative T.swap T.bridgeId (.signed a) amount recipient destId
        (swapState s) = .ok s₁) ∧ amount + Swap.feePaid a s.world.swap ≠ 0 := by
  rw [Swap.transferNative_ok_iff hT.currency]
  rfl

/-- The ledger after an extrinsic of the swap pallet. -/
theorem applyExtrinsic_swap {call : Swap.Call A} {s₁ : Swap.State A (PalletCall A F) σ}
    (h : Swap.dispatch T.swap T.bridgeId call origin (swapState s) = .ok s₁) :
    (applyExtrinsic T origin (.other (.swap call)) s).world.ledger = s₁.world.ledger := by
  simp only [applyExtrinsic, Chainbridge.applyExtrinsic, Chainbridge.dispatch, Config.bridge,
    palletDispatch, swapDispatch, h]
  rfl

theorem applyExtrinsic_swap_error {call : Swap.Call A} {e : DispatchError Swap.Error}
    (h : Swap.dispatch T.swap T.bridgeId call origin (swapState s) = .error e) :
    applyExtrinsic T origin (.other (.swap call)) s = s := by
  simp only [applyExtrinsic, Chainbridge.applyExtrinsic, Chainbridge.dispatch, Config.bridge,
    palletDispatch, swapDispatch, h]

/-- A native transfer leaves its signer's free balance where it was exactly when it is refused
or moves nothing away. -/
theorem send_free_le_iff (hT : T.Lawful) (hne : a ≠ T.bridgeId) {amount : Nat}
    {recipient : List UInt8} {destId : Chainbridge.ChainId} :
    free T a s.world ≤ free T a (applyExtrinsic T (.signed a)
        (.other (.swap (.transferNative amount recipient destId))) s).world ↔
      ¬ SendsAway T a (.other (.swap (.transferNative amount recipient destId))) s := by
  rw [sendsAway_iff hT]
  cases hrun : Swap.transferNative T.swap T.bridgeId (.signed a) amount recipient destId
      (swapState s) with
  | error e =>
    have hdispatch : Swap.dispatch T.swap T.bridgeId (.transferNative amount recipient destId)
        (.signed a) (swapState s) = .error e := hrun
    rw [applyExtrinsic_swap_error hdispatch]
    simp
  | ok s₁ =>
    have hdispatch : Swap.dispatch T.swap T.bridgeId (.transferNative amount recipient destId)
        (.signed a) (swapState s) = .ok s₁ := hrun
    have hpaid := (Swap.transferNative_moved hT.currency hrun).signer
    rw [if_neg (Ne.symm hne), Nat.add_comm] at hpaid
    have hfree : free T a s.world ≤ free T a (applyExtrinsic T (.signed a)
          (.other (.swap (.transferNative amount recipient destId))) s).world ↔
        amount + Swap.feePaid a s.world.swap = 0 := by
      unfold free Currency.freeBalance
      rw [applyExtrinsic_swap hdispatch]
      exact hpaid.free_le_iff
    rw [hfree]
    simp

/-- Whatever a `NonTransfer` proxy may call of the repository's own pallets, in every state and
for every account that the pallets do not hold funds in: the call leaves the account at least
what it had, except for a native transfer that its checks let through and that moves something
away. The pallets that are not of this repository are only called by the proposals that the
bridge executes, and the bridge account has no power over the account in them. -/
theorem nonTransfer_keeps_iff (T : Config A F σ) (hT : T.Lawful) (a : A) (s : State A F σ)
    (ha : Ordinary T a s.world) (hbridge : BridgeSpares T a s.world) (call : Call A F)
    (hown : isOwn call = true) :
    (filter .nonTransfer (T.kindOf call) = true →
        free T a s.world ≤ free T a (applyExtrinsic T (.signed a) call s).world) ↔
      ¬ SendsAway T a call s := by
  rw [imp_iff_right (nonTransfer_allows hown)]
  rcases own_cases hown with hcall | ⟨pallet, hcall, hforeign⟩
  · have hspares : free T a s.world ≤ free T a (applyExtrinsic T (.signed a) call s).world :=
      free_le_applyExtrinsic fun s' hrun =>
        (bridgeCall_spares hT hbridge ha.bridge hcall hrun ha).2
    cases call with
    | other => cases hcall
    | _ => exact iff_of_true hspares not_false
  · subst hcall
    cases hsend : isSend pallet with
    | false =>
      refine iff_of_true (free_le_applyExtrinsic fun s' hrun => ?_) fun haway => ?_
      · have hspares : Spares T a s.world s'.world := by
          refine palletDispatch_spares hT hbridge (fun h => ?_)
            (fun inner h => absurd h (hforeign inner)) hrun
          rw [hsend] at h
          cases h
        exact (hspares ha).2
      · rw [haway.isSend] at hsend
        cases hsend
    | true =>
      unfold isSend at hsend
      split at hsend
      next => exact send_free_le_iff hT ha.bridge
      next => cases hsend

/-! ## On the mock runtime -/

/-- A native transfer of `500`. -/
def mockSend : Call Nat Unit :=
  .other (.swap (.transferNative 500 [7] 1))

theorem mockRuntime_lawful : mockRuntime.Lawful where
  currency := (Ledger.currency_lawful (by decide)).along VestedLedger.ledgerPart
  claims := VestedLedger.vesting_lawful 28 1
  publicFunds := VestedLedger.vesting_lawful 2 1
  custody :=
    { currency := (Ledger.currency_lawful (by decide)).along VestedLedger.ledgerPart
      forceUnstake_account := fun _ _ _ h => nomatch h
      forceUnstake_proxies := fun _ _ _ h => nomatch h
      remove_account := fun _ _ => rfl }
  leavesOthers :=
    { bond := fun _ _ _ _ _ _ h => nomatch h
      bondExtra := fun _ _ _ _ _ h => nomatch h
      setController := fun _ _ _ _ _ h => nomatch h
      addProxyDelegate := fun _ _ _ _ _ _ _ h => nomatch h }
  rewardByIds _ _ := rfl
  deductByIds _ _ := rfl

theorem mockState_ordinary (balance : Nat) : Ordinary mockRuntime 4 (mockState balance).world where
  bridge := by decide
  testnet := by decide
  sale := by decide
  custody :=
    { team := fun _ _ h => nomatch h
      custody := rfl }

/-- A remark takes nothing. -/
theorem mockRuntime_bridgeSpares (a : Nat) (w : World Nat (VestedLedger Nat)) :
    BridgeSpares mockRuntime a w := by
  intro w₁ _ call s s' hworld h
  cases h
  rw [hworld]
  exact Spares.refl _

theorem nonTransfer_keeps_iff_mock :
    (filter .nonTransfer (mockRuntime.kindOf mockSend) = true →
        free mockRuntime 4 (mockState 1000).world ≤
          free mockRuntime 4 (applyExtrinsic mockRuntime (.signed 4) mockSend
            (mockState 1000)).world) ↔
      ¬ SendsAway mockRuntime 4 mockSend (mockState 1000) :=
  nonTransfer_keeps_iff mockRuntime mockRuntime_lawful 4 (mockState 1000)
    (mockState_ordinary 1000) (mockRuntime_bridgeSpares 4 _) mockSend rfl

/-- The account sends `500` and pays `100` as a fee. -/
theorem nonTransfer_takes :
    mockRuntime.Lawful ∧ Ordinary mockRuntime 4 (mockState 1000).world ∧
      isOwn mockSend = true ∧ filter .nonTransfer (mockRuntime.kindOf mockSend) = true ∧
      free mockRuntime 4 (mockState 1000).world = 1000 ∧
      free mockRuntime 4
        (applyExtrinsic mockRuntime (.signed 4) mockSend (mockState 1000)).world = 400 :=
  ⟨mockRuntime_lawful, mockState_ordinary 1000, rfl, rfl, by decide +kernel, by decide +kernel⟩

end XXChain.Runtime
