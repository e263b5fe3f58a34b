import XXChain.Custody.Books

/-!
# XXChain — what the end of a custody leaves behind

The last payout is meant to leave no funds in accounts that nobody can reach any more, and
deletes them. It unlocks what is staked and returns the deposit of the proxies, and nothing
else: an account that a vote has locked keeps what it locks.

* **`payout_strands_nothing_iff`** — everything goes to the member exactly when the staking lock
  and the deposit of the proxies are all that ties the two accounts up.
-/

namespace XXChain.Custody

open Function

variable {A σ : Type} [DecidableEq A] {T : Config A σ} {s s' : State A σ} {who : A}
  {origin : Origin A} {info : CustodyInfo A}

/-- The two accounts are empty, and the member has all that was in them. -/
def StrandsNothing (T : Config A σ) (who : A) (info : CustodyInfo A) (s s' : State A σ) : Prop :=
  T.currency.totalBalance s'.ledger info.custody = 0 ∧
    T.currency.totalBalance s'.ledger info.reserve = 0 ∧
    T.currency.totalBalance s'.ledger who = T.currency.totalBalance s.ledger who +
      T.currency.totalBalance s.ledger info.custody +
      T.currency.totalBalance s.ledger info.reserve

/-- At the end of the custody nothing ties up what the account has: no lock but the one of the
stake, no reserve but the deposit of the proxies, and no other reference. -/
def Releasable (T : Config A σ) (ledger : σ) (info : CustodyInfo A) (a : A) : Prop :=
  (accountsAtEnd T ledger info.custody a).total = 0 ∨
    (accountsAtEnd T ledger info.custody a).Unencumbered

/-- What this asks of the custody account. -/
theorem releasable_custody_iff (ledger : σ) : Releasable T ledger info info.custody ↔
    T.currency.totalBalance ledger info.custody = 0 ∨
      ((T.currency.account ledger info.custody).reserved ≤
          (T.proxies.proxies ledger info.custody).2 ∧
        if T.staking.bonded ledger info.custody then
          T.staking.otherLocks ledger info.custody = 0 ∧
            T.staking.otherwiseMayDie ledger info.custody = true
        else (T.currency.account ledger info.custody).frozen = 0 ∧
          (T.currency.account ledger info.custody).canDecProvider = true) := by
  unfold Releasable
  rw [total_accountsAtEnd, accountsAtEnd, update_self, AccountData.Unencumbered]
  refine or_congr Iff.rfl (and_congr ?_ ?_)
  · show (unstaked T ledger info.custody).reserved -
      min _ (unstaked T ledger info.custody).reserved = 0 ↔ _
    have hreserved : (unstaked T ledger info.custody).reserved =
        (T.currency.account ledger info.custody).reserved := by
      unfold unstaked
      split <;> rfl
    rw [hreserved]
    omega
  · show (unstaked T ledger info.custody).frozen = 0 ∧
      (unstaked T ledger info.custody).canDecProvider = true ↔ _
    unfold unstaked
    split <;> rfl

/-- What it asks of a reserve account of its own: to be empty, or not tied up. -/
theorem releasable_reserve_iff (ledger : σ) (hne : info.reserve ≠ info.custody) :
    Releasable T ledger info info.reserve ↔
      T.currency.totalBalance ledger info.reserve = 0 ∨
        (T.currency.account ledger info.reserve).Unencumbered := by
  rw [Releasable, total_accountsAtEnd, accountsAtEnd, update_of_ne hne]

theorem takenAtEnd_eq_iff (hT : T.Lawful) (ledger : σ) (a : A) :
    takenAtEnd T ledger info a = T.currency.totalBalance ledger a ↔
      Releasable T ledger info a := by
  rw [takenAtEnd, ← total_accountsAtEnd T ledger info.custody]
  exact AccountData.reducible_eq_total_iff hT.currency.existentialDeposit_pos _

/-- The last payout leaves nothing behind exactly when nothing but the stake and the proxies
ties the two accounts up. -/
theorem payout_strands_nothing_iff (T : Config A σ) (hT : T.Lawful) (s s' : State A σ)
    (origin : Origin A) (who : A) (info : CustodyInfo A) (hdone : T.custodyDuration < s.block)
    (hinfo : s.teamAccounts.lookup who = some info) (hcustody : info.custody ≠ who)
    (hreserve : info.reserve ≠ who) (h : payout T origin who s = .ok s') :
    StrandsNothing T who info s s' ↔
      Releasable T s.ledger info info.custody ∧ Releasable T s.ledger info info.reserve := by
  obtain ⟨ledger, s₁, haccount, hpay, rfl⟩ := lastPayout_ok hT (payout_done hdone hinfo h)
  obtain ⟨hwho, hrest⟩ := doPayout_last hT hcustody hreserve haccount hpay
  have hrestCustody := hrest info.custody (Or.inl rfl)
  have hrestReserve := hrest info.reserve (Or.inr rfl)
  have hleCustody := takenAtEnd_le T s.ledger info info.custody
  have hleReserve := takenAtEnd_le T s.ledger info info.reserve
  rw [← takenAtEnd_eq_iff hT, ← takenAtEnd_eq_iff hT]
  constructor
  · -- the member received all there was, so all could be taken out of both accounts
    rintro ⟨_, _, hall⟩
    have hreceived := hwho.symm.trans hall
    constructor <;> omega
  · rintro ⟨hallCustody, hallReserve⟩
    refine ⟨?_, ?_, ?_⟩
    · show T.currency.totalBalance s₁.ledger info.custody = 0
      omega
    · show T.currency.totalBalance s₁.ledger info.reserve = 0
      omega
    · show T.currency.totalBalance s₁.ledger who = _
      rw [hwho, hallCustody, hallReserve]

def mockMember : CustodyInfo Nat :=
  { allocation := 102000000000, vested := 0, custody := 10, reserve := 11 }

/-- The member `1` at the end, with the custody account `10` and the reserve account `11`: half
of what is in custody is staked and `2` are reserved for a proxy, and `vote` more are locked by
a vote if there is one. -/
def mockEnd (vote : Option Nat) : State Nat (Books Nat) where
  block := 15778801
  teamAccounts := .ofList [(1, mockMember)]
  custodyAccounts := .ofList [(10, ())]
  custodians := ∅
  totalCustody := 102000000000
  ledger :=
    { ledger := .ofList [(1, ⟨5000000000, 0, 0, true⟩),
        (10, ⟨92000000000, 2, max 46000000000 (vote.getD 0), false⟩),
        (11, ⟨10000000000, 0, 0, true⟩)]
      stakes := .ofList [(10, 46000000000)]
      votes := .ofList (vote.toList.map (10, ·))
      proxies := .ofList [(10, [⟨3, .voting, 0⟩], 2)] }
  events := []

/-- A stake and a proxy are both given back. -/
theorem payout_strands_nothing_mock :
    ∃ s', payout mockConfig (.signed 7) 1 (mockEnd none) = .ok s' ∧
      StrandsNothing mockConfig 1 mockMember (mockEnd none) s' :=
  ⟨_, rfl, (payout_strands_nothing_iff mockConfig (Books.config_lawful (by decide) 2 _)
    (mockEnd none) _ (.signed 7) 1 mockMember (by decide) rfl (by decide) (by decide) rfl).mpr
    ⟨Or.inr (by decide), Or.inr (by decide)⟩⟩

/-- A vote has locked 40 of the 92 coins in custody: they stay in the account, and the pallet
forgets about it. -/
theorem payout_strands_a_vote :
    ∃ s', payout mockConfig (.signed 7) 1 (mockEnd (some 40000000000)) = .ok s' ∧
      mockConfig.currency.totalBalance s'.ledger 10 = 40000000000 ∧
      s'.teamAccounts.lookup 1 = none ∧ s'.custodyAccounts.lookup 10 = none ∧
      ¬ StrandsNothing mockConfig 1 mockMember (mockEnd (some 40000000000)) s' := by
  refine ⟨_, rfl, by decide, by decide, by decide, ?_⟩
  rintro ⟨hcustody, _⟩
  exact absurd hcustody (by decide)

end XXChain.Custody
