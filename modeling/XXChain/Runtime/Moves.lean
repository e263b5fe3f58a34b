import XXChain.Custody.Runs
import XXChain.Runtime.Model

/-!
# XXChain — the pallets that only move coins

The custody, the public funds, the swap and the cmix pallet neither credit nor burn. Whatever their
calls do to the ledger they do by a few operations of the currency, of the vesting pallet and of the
pallets that are not of this repository. What each of these operations keeps, a call keeps, however
many of them it makes:

* **`custody_kept`** — the calls of the custody, its two kinds of payout included;
* **`public_kept`** — the distributions, over any list of receivers;
* **`swap_kept`** and **`cmix_kept`** — the other two.
-/

namespace XXChain.Runtime

variable {A F σ : Type} {T : Config A F σ} {P : σ → Prop} {origin : Origin A}

/-- The operations on the ledger by which the pallets move coins, or have others move them, keep
`P`. -/
structure Config.MovesKeep (T : Config A F σ) (P : σ → Prop) : Prop where
  transfer : ∀ l source dest v l', T.currency.transfer l source dest v = some l' → P l → P l'
  unreserve : ∀ l a v, P l → P (T.currency.unreserve l a v)
  tryAdd : ∀ block l a v, P l → P (T.publicFunds.vestingSchedule.tryAdd block l a v)
  forceUnstake : ∀ l a l', T.custody.staking.forceUnstake l a = some l' → P l → P l'
  bond : ∀ l a controller v l', T.custody.staking.bond l a controller v = some l' → P l → P l'
  bondExtra : ∀ l a v l', T.custody.staking.bondExtra l a v = some l' → P l → P l'
  setController : ∀ l a controller l', T.custody.staking.setController l a controller = some l' →
    P l → P l'
  remove : ∀ l a, P l → P (T.custody.proxies.remove l a)
  addProxyDelegate : ∀ l a delegate proxyType delay l',
    T.custody.proxies.addProxyDelegate l a delegate proxyType delay = some l' → P l → P l'
  rewardByIds : ∀ l data, P l → P (T.cmix.rewardByIds l data)
  deductByIds : ∀ l data, P l → P (T.cmix.deductByIds l data)

/-! ## The custody

A payout is at most two transfers; the last one is made after the custody account is unstaked and
its proxies are removed. -/

section Custody

variable [DecidableEq A] {part part' : Custody.State A σ} {who custody : A}

omit [DecidableEq A] in
theorem transferPayout_kept (hP : T.MovesKeep P) {source : A} {amount : Nat}
    {event : Custody.Event A}
    (h : Custody.transferPayout T.custody source who amount event part = .ok part')
    (hpart : P part.ledger) : P part'.ledger := by
  unfold Custody.transferPayout at h
  split at h
  · cases h
    exact hpart
  · simp only [bind_eq_ok, Custody.called, okOr_eq_ok] at h
    obtain ⟨ledger, htransfer, hpart'⟩ := h
    cases hpart'
    rw [T.custody_currency] at htransfer
    exact hP.transfer _ _ _ _ _ htransfer hpart

theorem doPayout_kept (hP : T.MovesKeep P) {amount : Nat} {info : Custody.CustodyInfo A}
    {keepAlive : Bool} (h : Custody.doPayout T.custody who amount info keepAlive part = .ok part')
    (hpart : P part.ledger) : P part'.ledger := by
  obtain ⟨⟨part₁, part₂, _, _, hfirst, hsecond, hledger⟩, _⟩ := Custody.doPayout_ok h
  have hcustody := transferPayout_kept hP hfirst hpart
  have hreserve := transferPayout_kept hP hsecond hcustody
  rw [hledger]
  exact hreserve

omit [DecidableEq A] in
theorem removeCustodyProxies_kept (hP : T.MovesKeep P) {l : σ} (hl : P l) :
    P (Custody.removeCustodyProxies T.custody custody l) := by
  unfold Custody.removeCustodyProxies
  dsimp only
  rw [T.custody_currency]
  exact hP.unreserve _ custody _ (hP.remove l custody hl)

omit [DecidableEq A] in
/-- The proxies that there are go, and then the one for governance is set. -/
theorem setCustodyGovernanceProxy_kept (hP : T.MovesKeep P) {proxy : A} {l l' : σ}
    (h : Custody.setCustodyGovernanceProxy T.custody custody proxy l = .ok l') (hl : P l) :
    P l' := by
  simp only [Custody.setCustodyGovernanceProxy, Custody.called, okOr_eq_ok] at h
  exact hP.addProxyDelegate _ _ _ _ _ _ h (removeCustodyProxies_kept hP hl)

theorem payout_kept (hP : T.MovesKeep P)
    (h : Custody.payout T.custody origin who part = .ok part') (hpart : P part.ledger) :
    P part'.ledger := by
  obtain ⟨info, _, ⟨_, hlast⟩ | ⟨_, hpay⟩⟩ := Custody.payout_cases h
  · obtain ⟨ledger, part₁, hunstaked, hpay, hpart'⟩ := Custody.lastPayout_cases hlast
    have hunstake : P ledger := by
      rcases hunstaked with ⟨_, hsame⟩ | ⟨_, hforced⟩
      · rw [hsame]
        exact hpart
      · exact hP.forceUnstake _ _ _ hforced hpart
    have hreleased : P (Custody.removeCustodyProxies T.custody info.custody ledger) :=
      removeCustodyProxies_kept hP hunstake
    have hpaid := doPayout_kept hP hpay
    rw [hpart']
    exact hpaid hreleased
  · exact doPayout_kept hP hpay hpart

/-- What a custodian does for a custody account keeps what the call keeps. -/
theorem asCustodian_kept {done : Bool} {error : Custody.Error} {f : σ → Custody.DispatchResult σ}
    (h : Custody.asCustodian origin custody done error part f = .ok part')
    (hf : ∀ ledger, f part.ledger = .ok ledger → P ledger) : P part'.ledger := by
  obtain ⟨_, ledger, hcall, hpart'⟩ := Custody.asCustodian_ok h
  rw [hpart']
  exact hf ledger hcall

theorem custody_kept (hP : T.MovesKeep P) {call : Custody.Call A}
    (h : Custody.dispatch T.custody origin call part = .ok part') (hpart : P part.ledger) :
    P part'.ledger := by
  cases call with
  | payout who => exact payout_kept hP h hpart
  | custodyBond custody controller value =>
    unfold Custody.dispatch Custody.custodyBond at h
    refine asCustodian_kept h fun ledger hcall => ?_
    simp only [Custody.called, okOr_eq_ok] at hcall
    exact hP.bond _ _ _ _ _ hcall hpart
  | custodyBondExtra custody value =>
    unfold Custody.dispatch Custody.custodyBondExtra at h
    refine asCustodian_kept h fun ledger hcall => ?_
    simp only [Custody.called, okOr_eq_ok] at hcall
    exact hP.bondExtra _ _ _ _ hcall hpart
  | custodySetController custody controller =>
    unfold Custody.dispatch Custody.custodySetController at h
    refine asCustodian_kept h fun ledger hcall => ?_
    simp only [Custody.called, okOr_eq_ok] at hcall
    exact hP.setController _ _ _ _ hcall hpart
  | custodySetProxy custody proxy =>
    unfold Custody.dispatch Custody.custodySetProxy at h
    exact asCustodian_kept h fun ledger hcall => setCustodyGovernanceProxy_kept hP hcall hpart
  | teamCustodySetProxy proxy =>
    obtain ⟨_, _, ledger, _, hproxy, hpart'⟩ := Custody.teamCustodySetProxy_ok h
    rw [hpart']
    exact setCustodyGovernanceProxy_kept hP hproxy hpart
  -- the others leave the ledger alone
  | addCustodian custodian =>
    rw [Custody.addCustodian_ok h]
    exact hpart
  | removeCustodian custodian =>
    rw [Custody.removeCustodian_ok h]
    exact hpart
  | replaceTeamMember who new =>
    obtain ⟨_, _, _, hpart'⟩ := Custody.replaceTeamMember_eq h
    rw [hpart']
    exact hpart

end Custody

/-! ## The public funds

A distribution is a transfer for each receiver, and the schedules that lock it. The induction is on
the list, in `foldlM_invariant`. -/

section Public

variable [DecidableEq A] {part part' : Public.State A σ}

omit [DecidableEq A] in
theorem addSchedules_kept (hP : T.MovesKeep P) (block : Nat) (a : A)
    (schedules : Option (List Schedule)) {l : σ} (hl : P l) :
    P (Public.addSchedules T.publicFunds block a schedules l) := by
  cases schedules with
  | none => exact hl
  | some added =>
    unfold Public.addSchedules
    dsimp only
    induction added generalizing l with
    | nil => exact hl
    | cons v added ih => exact ih (hP.tryAdd block l a v hl)

omit [DecidableEq A] in
theorem doDistribution_kept (hP : T.MovesKeep P) {pot : A} {data : List (Public.TransferData A)}
    (h : Public.doDistribution T.publicFunds pot data part = .ok part') (hpart : P part.ledger) :
    P part'.ledger := by
  simp only [Public.doDistribution, bind_eq_ok] at h
  obtain ⟨_, _, hfold⟩ := h
  refine foldlM_invariant (I := fun p : Public.State A σ => P p.ledger)
    (fun p d p' hp hstep => ?_) hpart hfold
  unfold Public.distribute at hstep
  split at hstep
  next ledger htransfer =>
    cases hstep
    rw [T.public_currency] at htransfer
    have hmoved := hP.transfer _ _ _ _ _ htransfer hp
    exact addSchedules_kept hP p.block d.destination d.schedules hmoved
  next => cases hstep

theorem public_kept (hP : T.MovesKeep P) {call : Public.Call A}
    (h : Public.dispatch T.publicFunds call origin part = .ok part') (hpart : P part.ledger) :
    P part'.ledger := by
  cases call with
  | setTestnetManagerAccount who =>
    simp only [Public.dispatch, Public.setTestnetManagerAccount, bind_eq_ok] at h
    obtain ⟨_, _, hpart'⟩ := h
    cases hpart'
    exact hpart
  | setSaleManagerAccount who =>
    simp only [Public.dispatch, Public.setSaleManagerAccount, bind_eq_ok] at h
    obtain ⟨_, _, hpart'⟩ := h
    cases hpart'
    exact hpart
  | testnetDistribute data =>
    simp only [Public.dispatch, Public.testnetDistribute, bind_eq_ok] at h
    obtain ⟨_, _, _, _, hdistribution⟩ := h
    exact doDistribution_kept hP hdistribution hpart
  | saleDistribute data =>
    simp only [Public.dispatch, Public.saleDistribute, bind_eq_ok] at h
    obtain ⟨_, _, _, _, hdistribution⟩ := h
    exact doDistribution_kept hP hdistribution hpart

end Public

/-! ## The swap and the mix network

A native transfer pays the fee and then the amount; what it announces is the bridge's. The points
that the cmix pallet hands out reach the ledger through the staking pallet only. -/

section Others

variable [DecidableEq A] {st st' : Swap.State A (PalletCall A F) σ}

theorem currencyTransfer_kept (hP : T.MovesKeep P) {source dest : A} {amount : Nat}
    (h : Swap.currencyTransfer T.swap source dest amount st = .ok st')
    (hst : P st.world.ledger) : P st'.world.ledger := by
  unfold Swap.currencyTransfer at h
  split at h
  next ledger htransfer =>
    cases h
    exact hP.transfer _ _ _ _ _ htransfer hst
  next => cases h

theorem payFee_kept (hP : T.MovesKeep P) {source : A} {fee : Nat}
    (h : Swap.payFee T.swap source fee st = .ok st') (hst : P st.world.ledger) :
    P st'.world.ledger := by
  unfold Swap.payFee at h
  split at h
  · exact currencyTransfer_kept hP h hst
  · cases h
    exact hst

theorem swap_kept (hP : T.MovesKeep P) {call : Swap.Call A}
    (h : Swap.dispatch T.swap T.bridgeId call origin st = .ok st') (hst : P st.world.ledger) :
    P st'.world.ledger := by
  cases call with
  | transferNative amount recipient destId =>
    obtain ⟨_, st₁, st₂, _, _, hfee, hmove, _, hsent⟩ := Swap.transferNative_steps h
    simp only [Chainbridge.transferFungible, bind_eq_ok] at hsent
    obtain ⟨_, _, hst'⟩ := hsent
    cases hst'
    -- the bridge announces the transfer, and leaves the ledger alone
    have hpaid : P st₂.world.ledger := currencyTransfer_kept hP hmove (payFee_kept hP hfee hst)
    exact hpaid
  | transfer dest amount =>
    simp only [Swap.dispatch, Swap.transfer] at h
    split at h
    · exact currencyTransfer_kept hP h hst
    · cases h
  | setSwapFee fee =>
    simp only [Swap.dispatch, Swap.setSwapFee, bind_eq_ok] at h
    obtain ⟨_, _, hst'⟩ := h
    cases hst'
    exact hst
  | setFeeDestination dest =>
    simp only [Swap.dispatch, Swap.setFeeDestination, bind_eq_ok] at h
    obtain ⟨_, _, hst'⟩ := h
    cases hst'
    exact hst

theorem cmix_kept (hP : T.MovesKeep P) {call : Cmix.Call A}
    {part part' : Cmix.State A σ} (h : Cmix.dispatch T.cmix call origin part = .ok part')
    (hpart : P part.ledger) : P part'.ledger := by
  rcases Cmix.dispatch_ledger h with hsame | ⟨data, hreward⟩ | ⟨data, hdeduct⟩
  · rw [hsame]
    exact hpart
  · rw [hreward]
    exact hP.rewardByIds part.ledger data hpart
  · rw [hdeduct]
    exact hP.deductByIds part.ledger data hpart

end Others

end XXChain.Runtime
