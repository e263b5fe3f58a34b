import XXChain.Custody.Model

/-!
# XXChain — the payouts of the custody

Before the end of the custody a payout pays what is due by then, as far as there is enough to
take out of the custody and the reserve account. The last payout first unstakes the custody
account and removes its proxies, and pays out all that can be taken. What the pallets it calls
do to the accounts is documented (`Config.Lawful`), so that the state before the last payout
tells what it pays.

* **`payout_cases`** — a payout that goes through is one of the two;
* **`doPayout_ok`** — what it writes into the books;
* **`lastPayout_ok`** — the accounts that the last payout pays out of are the ones
  `accountsAtEnd` reads off the state before;
* **`doPayout_last`** — what it takes out of them, and what the member receives.
-/

namespace XXChain.Custody

open Function

variable {A σ : Type} [DecidableEq A]

/-! ## The pallets it calls -/

/-- The documented behaviour of the currency, and of the calls to the staking and the proxy
pallet: `force_unstake` takes the staking lock and reference off the account, and the proxies
of an account are removed without its balances. -/
structure Config.Lawful (T : Config A σ) : Prop where
  currency : T.currency.Lawful
  forceUnstake_account : ∀ l a l', T.staking.forceUnstake l a = some l' →
    T.currency.Sets l l' a
      { T.currency.account l a with
        frozen := T.staking.otherLocks l a
        canDecProvider := T.staking.otherwiseMayDie l a }
  forceUnstake_proxies : ∀ l a l', T.staking.forceUnstake l a = some l' →
    T.proxies.proxies l' = T.proxies.proxies l
  remove_account : ∀ l a, T.currency.account (T.proxies.remove l a) = T.currency.account l

/-! ## The accounts at the end -/

/-- The custody account once it is unstaked. -/
def unstaked (T : Config A σ) (ledger : σ) (custody : A) : AccountData :=
  if T.staking.bonded ledger custody then
    { T.currency.account ledger custody with
      frozen := T.staking.otherLocks ledger custody
      canDecProvider := T.staking.otherwiseMayDie ledger custody }
  else T.currency.account ledger custody

/-- The custody account once it is unstaked and the deposit of its proxies is returned. -/
def released (T : Config A σ) (ledger : σ) (custody : A) : AccountData :=
  let a := unstaked T ledger custody
  let deposit := min (T.proxies.proxies ledger custody).2 a.reserved
  { a with free := a.free + deposit, reserved := a.reserved - deposit }

/-- The accounts that the last payout pays out of. -/
def accountsAtEnd (T : Config A σ) (ledger : σ) (custody : A) : A → AccountData :=
  update (T.currency.account ledger) custody (released T ledger custody)

/-- What the last payout takes out of an account of the member. -/
def takenAtEnd (T : Config A σ) (ledger : σ) (info : CustodyInfo A) (a : A) : Nat :=
  (accountsAtEnd T ledger info.custody a).reducible T.currency.existentialDeposit false

variable {T : Config A σ} {s s' : State A σ} {ledger ledger' : σ} {who custody source : A}
  {info : CustodyInfo A} {amount : Nat} {event : Event A}

omit [DecidableEq A] in
theorem total_released : (released T ledger custody).total =
    T.currency.totalBalance ledger custody := by
  have hunstaked : (unstaked T ledger custody).total =
      T.currency.totalBalance ledger custody := by
    unfold unstaked Currency.totalBalance
    split <;> rfl
  rw [← hunstaked]
  show _ + min _ (unstaked T ledger custody).reserved +
      ((unstaked T ledger custody).reserved - min _ (unstaked T ledger custody).reserved) =
    _ + (unstaked T ledger custody).reserved
  omega

/-- Unstaking and removing the proxies changes no total. -/
theorem total_accountsAtEnd (T : Config A σ) (ledger : σ) (custody a : A) :
    (accountsAtEnd T ledger custody a).total = T.currency.totalBalance ledger a := by
  by_cases ha : a = custody
  · subst ha
    rw [accountsAtEnd, update_self, total_released]
  · rw [accountsAtEnd, update_of_ne ha]
    rfl

theorem takenAtEnd_le (T : Config A σ) (ledger : σ) (info : CustodyInfo A) (a : A) :
    takenAtEnd T ledger info a ≤ T.currency.totalBalance ledger a := by
  rw [← total_accountsAtEnd T ledger info.custody]
  exact AccountData.reducible_le_total _ _ _

/-! ## Before the transfers -/

theorem account_removeCustodyProxies (hT : T.Lawful) :
    T.currency.account (removeCustodyProxies T custody ledger) =
      update (T.currency.account ledger) custody
        { T.currency.account ledger custody with
          free := (T.currency.account ledger custody).free +
            min (T.proxies.proxies ledger custody).2 (T.currency.account ledger custody).reserved
          reserved := (T.currency.account ledger custody).reserved -
            min (T.proxies.proxies ledger custody).2
              (T.currency.account ledger custody).reserved } := by
  have hsets := hT.currency.unreserve_account (T.proxies.remove ledger custody) custody
    (T.proxies.proxies ledger custody).2
  unfold Currency.Sets at hsets
  rw [hT.remove_account] at hsets
  exact hsets

/-- The last payout unstakes the custody account if it is bonded, removes its proxies and pays. -/
theorem lastPayout_cases (h : lastPayout T who info s = .ok s') :
    ∃ ledger s₁, (T.staking.bonded s.ledger info.custody = false ∧ ledger = s.ledger ∨
        T.staking.bonded s.ledger info.custody = true ∧
          T.staking.forceUnstake s.ledger info.custody = some ledger) ∧
      doPayout T who 0 info false
        { s with ledger := removeCustodyProxies T info.custody ledger } = .ok s₁ ∧
      s' = s₁.depositEvent (.custodyDone who) := by
  simp only [lastPayout, bind_eq_ok] at h
  obtain ⟨ledger, hledger, s₁, hpay, hs'⟩ := h
  cases hs'
  refine ⟨ledger, s₁, ?_, hpay, rfl⟩
  cases hbonded : T.staking.bonded s.ledger info.custody with
  | false =>
    rw [hbonded] at hledger
    cases hledger
    exact Or.inl ⟨rfl, rfl⟩
  | true =>
    rw [hbonded] at hledger
    simp only [called, if_true, okOr_eq_ok] at hledger
    exact Or.inr ⟨rfl, hledger⟩

/-- The last payout pays out of the accounts at the end. -/
theorem lastPayout_ok (hT : T.Lawful) (h : lastPayout T who info s = .ok s') :
    ∃ ledger s₁, T.currency.account ledger = accountsAtEnd T s.ledger info.custody ∧
      doPayout T who 0 info false { s with ledger } = .ok s₁ ∧
      s' = s₁.depositEvent (.custodyDone who) := by
  obtain ⟨ledger, s₁, hledger, hpay, hs'⟩ := lastPayout_cases h
  refine ⟨_, s₁, ?_, hpay, hs'⟩
  -- the deposit is read after the unstaking, which leaves it alone
  rw [account_removeCustodyProxies hT, accountsAtEnd]
  rcases hledger with ⟨hbonded, rfl⟩ | ⟨hbonded, hunstake⟩
  · simp only [released, unstaked, hbonded, Bool.false_eq_true, if_false]
  · have haccount := hT.forceUnstake_account _ _ _ hunstake
    have hself := haccount.self
    rw [hT.forceUnstake_proxies _ _ _ hunstake, hself, haccount, update_idem]
    simp only [released, unstaked, hbonded, if_true]

/-! ## The transfers -/

/-- A transfer of a payout, of nothing or of something. -/
theorem transferPayout_ok (hT : T.Lawful) (hne : source ≠ who)
    (h : transferPayout T source who amount event s = .ok s') :
    T.currency.account s'.ledger = update
        (update (T.currency.account s.ledger) source
          ((T.currency.account s.ledger source).withdraw T.currency.existentialDeposit amount))
        who ((T.currency.account s.ledger who).credit amount) := by
  unfold transferPayout at h
  by_cases hamount : amount = 0
  · rw [if_pos hamount] at h
    cases h
    have hnoop := hT.currency.transfer_noop s.ledger source who amount (Or.inl hamount)
    exact hT.currency.account_transfer hne hnoop
  · rw [if_neg hamount] at h
    simp only [bind_eq_ok, called, okOr_eq_ok] at h
    obtain ⟨ledger, htransfer, hs'⟩ := h
    cases hs'
    exact hT.currency.account_transfer hne htransfer

omit [DecidableEq A] in
/-- It changes nothing but the ledger and the events. -/
theorem transferPayout_frame (h : transferPayout T source who amount event s = .ok s') :
    s' = { s with ledger := s'.ledger, events := s'.events } := by
  unfold transferPayout at h
  split at h
  · cases h
    rfl
  · simp only [bind_eq_ok] at h
    obtain ⟨ledger, _, hs'⟩ := h
    cases hs'
    rfl

omit [DecidableEq A] in
/-- A transfer of a payout that takes something can be withdrawn. -/
theorem canWithdraw_of_transferPayout [DecidableEq A] (hT : T.Lawful) (hne : source ≠ who)
    (hpos : 0 < amount) (h : transferPayout T source who amount event s = .ok s') :
    T.currency.CanWithdraw (T.currency.account s.ledger source) amount := by
  unfold transferPayout at h
  rw [if_neg (Nat.ne_of_gt hpos)] at h
  simp only [bind_eq_ok, called, okOr_eq_ok] at h
  obtain ⟨ledger, htransfer, _⟩ := h
  have hsome : (T.currency.transfer s.ledger source who amount).isSome := by
    rw [htransfer]
    rfl
  exact ((hT.currency.transfer_isSome s.ledger source who amount hpos hne).mp hsome).1

/-- What a payout pays in all. -/
def withdrawn (T : Config A σ) (amount : Nat) (info : CustodyInfo A) (keepAlive : Bool)
    (ledger : σ) : Nat :=
  ((withdrawals T amount info keepAlive ledger).1 +
    (withdrawals T amount info keepAlive ledger).2) % balanceLimit

/-- What a payout takes out of the total under custody. -/
def deducted (T : Config A σ) (amount : Nat) (info : CustodyInfo A) (keepAlive : Bool)
    (ledger : σ) : Nat :=
  let withdraw := withdrawn T amount info keepAlive ledger
  custodyDeduct keepAlive (info.increaseVested withdraw) withdraw

/-- A payout makes its two transfers and writes its books; the last one forgets the accounts. -/
theorem doPayout_eq {keepAlive : Bool} (h : doPayout T who amount info keepAlive s = .ok s') :
    ∃ s₁ ledger events event₁ event₂,
      transferPayout T info.custody who (withdrawals T amount info keepAlive s.ledger).1 event₁ s =
        .ok s₁ ∧
      transferPayout T info.reserve who (withdrawals T amount info keepAlive s.ledger).2 event₂ s₁ =
        .ok { s with ledger, events } ∧
      s' = { s with
        ledger
        events
        totalCustody := s.totalCustody - deducted T amount info keepAlive s.ledger
        teamAccounts :=
          if keepAlive then s.teamAccounts.insert who
            (info.increaseVested (withdrawn T amount info keepAlive s.ledger))
          else s.teamAccounts.erase who
        custodyAccounts :=
          if keepAlive then s.custodyAccounts else s.custodyAccounts.erase info.custody } := by
  simp only [doPayout, bind_eq_ok] at h
  obtain ⟨s₁, hcustody, s₂, hreserve, _, _, hs'⟩ := h
  have hframe := transferPayout_frame hreserve
  rw [transferPayout_frame hcustody] at hframe
  rw [hframe] at hreserve
  refine ⟨s₁, s₂.ledger, s₂.events, _, _, hcustody, hreserve, ?_⟩
  cases keepAlive with
  | true =>
    cases hs'
    rw [hframe]
    rfl
  | false =>
    cases hs'
    rw [hframe]
    rfl

theorem doPayout_ok {keepAlive : Bool} (h : doPayout T who amount info keepAlive s = .ok s') :
    (∃ s₁ s₂ event₁ event₂,
      transferPayout T info.custody who (withdrawals T amount info keepAlive s.ledger).1 event₁ s =
        .ok s₁ ∧
      transferPayout T info.reserve who (withdrawals T amount info keepAlive s.ledger).2 event₂ s₁ =
        .ok s₂ ∧
      s'.ledger = s₂.ledger) ∧
    s'.block = s.block ∧
    s'.totalCustody = s.totalCustody - deducted T amount info keepAlive s.ledger ∧
    s'.teamAccounts =
      if keepAlive then s.teamAccounts.insert who
        (info.increaseVested (withdrawn T amount info keepAlive s.ledger))
      else s.teamAccounts.erase who := by
  obtain ⟨s₁, ledger, events, event₁, event₂, hcustody, hreserve, hs'⟩ := doPayout_eq h
  rw [hs']
  exact ⟨⟨s₁, _, event₁, event₂, hcustody, hreserve, rfl⟩, rfl, rfl, rfl⟩

theorem doPayout_custodyAccounts {keepAlive : Bool}
    (h : doPayout T who amount info keepAlive s = .ok s') :
    s'.custodyAccounts =
      if keepAlive then s.custodyAccounts else s.custodyAccounts.erase info.custody := by
  obtain ⟨_, _, _, _, _, _, _, hs'⟩ := doPayout_eq h
  rw [hs']

/-- Before the end a payout of nothing is refused. -/
theorem withdrawn_pos (h : doPayout T who amount info true s = .ok s') :
    0 < withdrawn T amount info true s.ledger := by
  simp only [doPayout, bind_eq_ok, ensure_eq_ok] at h
  obtain ⟨_, _, _, _, _, hpaid, _⟩ := h
  apply Nat.pos_of_ne_zero
  intro hzero
  unfold withdrawn at hzero
  rw [hzero] at hpaid
  cases hpaid

/-- What the last payout takes out of the custody account leaves the reserve account alone:
were they the same, there would be nothing left to take. -/
theorem reserve_kept {s₁ s₂ : State A σ} {event₁ event₂ : Event A} (hT : T.Lawful)
    (hcustody : info.custody ≠ who) (hreserve : info.reserve ≠ who)
    (h₁ : transferPayout T info.custody who
      ((T.currency.account s.ledger info.custody).reducible T.currency.existentialDeposit false)
      event₁ s = .ok s₁)
    (h₂ : transferPayout T info.reserve who
      ((T.currency.account s.ledger info.reserve).reducible T.currency.existentialDeposit false)
      event₂ s₁ = .ok s₂) :
    T.currency.account s₁.ledger info.reserve = T.currency.account s.ledger info.reserve := by
  have haccount := transferPayout_ok hT hcustody h₁
  by_cases hsame : info.reserve = info.custody
  · rw [hsame] at h₂ ⊢
    rw [haccount, update_of_ne hcustody, update_self]
    unfold AccountData.withdraw
    split
    · rfl
    · -- something was taken, so the second transfer would have failed
      rename_i hne
      have hpos := Nat.pos_of_ne_zero hne
      have hcan := canWithdraw_of_transferPayout hT hcustody hpos h₂
      rw [haccount, update_of_ne hcustody, update_self, AccountData.withdraw, if_neg hne] at hcan
      exact absurd hcan (Currency.not_canWithdraw_twice hpos rfl)
  · rw [haccount, update_of_ne hreserve, update_of_ne hsame]

omit [DecidableEq A] in
/-- Taking what can be taken leaves no more than the rest. -/
theorem total_withdraw_reducible (ed : Nat) (a : AccountData) :
    (a.withdraw ed (a.reducible ed false)).total + a.reducible ed false ≤ a.total := by
  have htotal := @AccountData.total_withdraw_add_dust ed _ _ (a.reducible_le_free ed false)
  omega

/-- What the last payout takes out of the two accounts, the member receives, and no more than
the rest is left in them. -/
theorem doPayout_last (hT : T.Lawful) (hcustody : info.custody ≠ who)
    (hreserve : info.reserve ≠ who)
    (haccount : T.currency.account s.ledger = accountsAtEnd T ledger info.custody)
    (h : doPayout T who 0 info false s = .ok s') :
    T.currency.totalBalance s'.ledger who = T.currency.totalBalance ledger who +
        takenAtEnd T ledger info info.custody + takenAtEnd T ledger info info.reserve ∧
      ∀ a, a = info.custody ∨ a = info.reserve →
        T.currency.totalBalance s'.ledger a + takenAtEnd T ledger info a ≤
          T.currency.totalBalance ledger a := by
  have hwithdrawals : withdrawals T 0 info false s.ledger =
      ((T.currency.account s.ledger info.custody).reducible T.currency.existentialDeposit false,
        (T.currency.account s.ledger info.reserve).reducible T.currency.existentialDeposit
          false) := by
    rw [← hT.currency.reducibleBalance_eq, ← hT.currency.reducibleBalance_eq]
    rfl
  -- the custody account pays first, the reserve account after it
  obtain ⟨⟨s₁, s₂, _, _, h₁, h₂, hledger⟩, _⟩ := doPayout_ok h
  rw [hwithdrawals] at h₁ h₂
  have haccount₁ := transferPayout_ok hT hcustody h₁
  have haccount₂ := transferPayout_ok hT hreserve h₂
  rw [reserve_kept hT hcustody hreserve h₁ h₂] at haccount₂
  have htotal : ∀ a, (T.currency.account s.ledger a).total = T.currency.totalBalance ledger a := by
    intro a
    rw [haccount, total_accountsAtEnd]
  have htaken : ∀ a, takenAtEnd T ledger info a =
      (T.currency.account s.ledger a).reducible T.currency.existentialDeposit false := by
    intro a
    rw [haccount]
    rfl
  rw [hledger]
  constructor
  · rw [Currency.totalBalance, haccount₂, update_self, AccountData.total_credit, haccount₁,
      update_self, AccountData.total_credit, htotal, htaken, htaken]
  · rintro a ha
    rw [htaken, ← htotal, Currency.totalBalance]
    have hrest := total_withdraw_reducible T.currency.existentialDeposit
      (T.currency.account s.ledger a)
    by_cases hsame : a = info.reserve
    · -- what the first transfer left alone, the second takes out
      rw [haccount₂, hsame, update_of_ne hreserve, update_self]
      rw [hsame] at hrest
      exact hrest
    · have ha' := ha.resolve_right hsame
      rw [haccount₂, update_of_ne (ha' ▸ hcustody), update_of_ne hsame, haccount₁, ha',
        update_of_ne hcustody, update_self]
      rw [ha'] at hrest
      exact hrest

/-! ## The two kinds of payout -/

/-- What is paid of an allocation by a block when every payout is made in full. -/
def due (T : Config A σ) (allocation block : Nat) : Nat :=
  computePayout T allocation * (block / T.payoutFrequency)

/-- What is due to a member at a block, beyond what is vested. -/
def amountDue (T : Config A σ) (block : Nat) (info : CustodyInfo A) : Nat :=
  wrappingSub (due T info.allocation block % balanceLimit) info.vested

/-- A payout that goes through is the last one when the custody is done, and else pays what is
due. -/
theorem payout_cases {origin : Origin A} (h : payout T origin who s = .ok s') :
    ∃ info, s.teamAccounts.lookup who = some info ∧
      ((T.custodyDuration < s.block ∧ lastPayout T who info s = .ok s') ∨
        (s.block ≤ T.custodyDuration ∧
          doPayout T who (amountDue T s.block info) info true s = .ok s')) := by
  simp only [payout, tryPayout, bind_eq_ok, okOr_eq_ok] at h
  obtain ⟨_, _, _, _, info, hinfo, hpay⟩ := h
  refine ⟨info, hinfo, ?_⟩
  by_cases hdone : T.custodyDuration < s.block
  · rw [isCustodyDone, decide_eq_true hdone, if_pos rfl] at hpay
    exact Or.inl ⟨hdone, hpay⟩
  · rw [isCustodyDone, decide_eq_false hdone, if_neg Bool.false_ne_true] at hpay
    split at hpay
    · exact Or.inr ⟨Nat.le_of_not_lt hdone, hpay⟩
    · cases hpay

/-- Once the custody is done, a payout is the last one. -/
theorem payout_done {origin : Origin A} (hdone : T.custodyDuration < s.block)
    (hinfo : s.teamAccounts.lookup who = some info) (h : payout T origin who s = .ok s') :
    lastPayout T who info s = .ok s' := by
  obtain ⟨info', hinfo', ⟨_, hpay⟩ | ⟨hbefore, _⟩⟩ := payout_cases h
  · rw [hinfo] at hinfo'
    cases hinfo'
    exact hpay
  · omega

end XXChain.Custody
