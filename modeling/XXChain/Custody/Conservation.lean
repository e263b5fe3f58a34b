import XXChain.Custody.TotalCustody

/-!
# XXChain — what a payout before the end of the custody conserves

Before the end a payout takes no more out of the two accounts than leaves them alive, so the
transfers, which would let them die, move coins and burn none. The vested amount is increased
without a check, and the total under custody is decreased as far as it goes; where the
allocations are large enough for the schedule, neither of the two makes a difference.

* **`doPayout_conserved`** — what the two transfers and the books do;
* **`squared_before_end`** — up to the end, the books of every run from a valid genesis are
  exact;
* **`payout_conserves`** — the two together, and that a payout that fails changes nothing.
-/

namespace XXChain.Custody

open Function StorageMap

variable {A σ : Type} [DecidableEq A] {T : Config A σ} {s s' : State A σ} {origin : Origin A}
  {who source : A} {info : CustodyInfo A} {amount : Nat} {event : Event A}

/-! ## The transfers -/

theorem transferPayout_issuance (hT : T.Lawful) (hne : source ≠ who)
    (h : transferPayout T source who amount event s = .ok s') :
    T.currency.totalIssuance s'.ledger = T.currency.totalIssuance s.ledger -
      (T.currency.account s.ledger source).withdrawDust T.currency.existentialDeposit amount := by
  unfold transferPayout at h
  by_cases hamount : amount = 0
  · rw [if_pos hamount] at h
    cases h
    rw [AccountData.withdrawDust, if_pos hamount, Nat.sub_zero]
  · rw [if_neg hamount] at h
    simp only [bind_eq_ok, called, okOr_eq_ok] at h
    obtain ⟨ledger, htransfer, hs'⟩ := h
    cases hs'
    exact hT.currency.issuance_transfer hne htransfer

/-- A transfer of what an account can do without: it is debited, the member credited, and
nothing burned. -/
theorem transferPayout_kept (hT : T.Lawful) (hne : source ≠ who)
    (hkept : amount ≤ (T.currency.account s.ledger source).reducible
      T.currency.existentialDeposit true)
    (h : transferPayout T source who amount event s = .ok s') :
    T.currency.account s'.ledger = update
        (update (T.currency.account s.ledger) source
          ((T.currency.account s.ledger source).debit amount))
        who ((T.currency.account s.ledger who).credit amount) ∧
      T.currency.totalIssuance s'.ledger = T.currency.totalIssuance s.ledger := by
  have haccount := transferPayout_ok hT hne h
  have hissuance := transferPayout_issuance hT hne h
  obtain ⟨hdebit, hdust⟩ := AccountData.withdraw_of_le_reducible hkept
  rw [hdebit] at haccount
  rw [hdust, Nat.sub_zero] at hissuance
  exact ⟨haccount, hissuance⟩

/-! ## A payout -/

/-- An account that paid `v`: its balance is smaller by that, what is locked or reserved of it
is not touched, and it lives if it did. -/
structure Paid (ed v : Nat) (before after : AccountData) : Prop where
  free : after.free + v = before.free
  reserved : after.reserved = before.reserved
  frozen : after.frozen = before.frozen
  unlocked : before.frozen ≤ before.free → after.frozen ≤ after.free
  alive : ed ≤ before.total → ed ≤ after.total

theorem paid_debit {ed v : Nat} {a : AccountData} (h : v ≤ a.reducible ed true) :
    Paid ed v a (a.debit v) := by
  have hfree := h.trans (a.reducible_le_free ed true)
  cases Nat.eq_zero_or_pos v with
  | inl hzero =>
    subst hzero
    exact ⟨rfl, rfl, rfl, id, id⟩
  | inr hpos =>
    obtain ⟨hunlocked, halive⟩ := AccountData.kept_of_le_reducible hpos h
    refine ⟨Nat.sub_add_cancel hfree, rfl, rfl, fun _ => ?_, fun _ => halive⟩
    show a.frozen ≤ a.free - v
    omega

/-- From `s` to `s'` the member is paid `fromCustody` and `fromReserve`, and nothing is lost. -/
structure Conserved (T : Config A σ) (who : A) (info : CustodyInfo A)
    (fromCustody fromReserve : Nat) (s s' : State A σ) : Prop where
  custody : Paid T.currency.existentialDeposit fromCustody
    (T.currency.account s.ledger info.custody) (T.currency.account s'.ledger info.custody)
  reserve : Paid T.currency.existentialDeposit fromReserve
    (T.currency.account s.ledger info.reserve) (T.currency.account s'.ledger info.reserve)
  received : T.currency.account s'.ledger who =
    (T.currency.account s.ledger who).credit (fromCustody + fromReserve)
  others : ∀ a, a ≠ info.custody → a ≠ info.reserve → a ≠ who →
    T.currency.account s'.ledger a = T.currency.account s.ledger a
  issuance : T.currency.totalIssuance s'.ledger = T.currency.totalIssuance s.ledger
  positive : 0 < fromCustody + fromReserve
  le_due : fromCustody + fromReserve ≤ amountDue T s.block info
  custody_first : 0 < fromReserve →
    fromCustody = T.currency.reducibleBalance s.ledger info.custody true
  vested : s'.teamAccounts =
    s.teamAccounts.insert who (info.increaseVested (fromCustody + fromReserve))
  totalCustody : s'.totalCustody = s.totalCustody - (fromCustody + fromReserve)

omit [DecidableEq A] in
theorem amountDue_lt (T : Config A σ) (block : Nat) (info : CustodyInfo A) :
    amountDue T block info < balanceLimit :=
  Nat.mod_lt _ (by decide)

/-- What a payout takes of each account, and in which order. -/
theorem withdrawals_keepAlive (hT : T.Lawful) (amount : Nat) (info : CustodyInfo A)
    (ledger : σ) :
    let amounts := withdrawals T amount info true ledger
    amounts.1 ≤ (T.currency.account ledger info.custody).reducible
        T.currency.existentialDeposit true ∧
      amounts.2 ≤ (T.currency.account ledger info.reserve).reducible
        T.currency.existentialDeposit true ∧
      amounts.1 + amounts.2 ≤ amount ∧
      (0 < amounts.2 → amounts.1 = T.currency.reducibleBalance ledger info.custody true) := by
  simp only [withdrawals, if_true, ← hT.currency.reducibleBalance_eq]
  omega

theorem doPayout_conserved (hT : T.Lawful) (hcustody : who ≠ info.custody)
    (hreserve : who ≠ info.reserve) (hne : info.custody ≠ info.reserve)
    (h : doPayout T who (amountDue T s.block info) info true s = .ok s') :
    ∃ fromCustody fromReserve, Conserved T who info fromCustody fromReserve s s' ∧
      fromCustody + fromReserve =
        withdrawn T (amountDue T s.block info) info true s.ledger := by
  obtain ⟨hfirst, hsecond, hdue, horder⟩ :=
    withdrawals_keepAlive hT (amountDue T s.block info) info s.ledger
  have hpositive := withdrawn_pos h
  obtain ⟨⟨s₁, s₂, _, _, htransfer₁, htransfer₂, hledger⟩, _, htotal, hteam⟩ := doPayout_ok h
  have hwithdrawn : withdrawn T (amountDue T s.block info) info true s.ledger =
      (withdrawals T (amountDue T s.block info) info true s.ledger).1 +
        (withdrawals T (amountDue T s.block info) info true s.ledger).2 :=
    Nat.mod_eq_of_lt (hdue.trans_lt (amountDue_lt T s.block info))
  have hdeducted : deducted T (amountDue T s.block info) info true s.ledger =
      withdrawn T (amountDue T s.block info) info true s.ledger := rfl
  rw [hdeducted, hwithdrawn] at htotal
  rw [if_pos rfl, hwithdrawn] at hteam
  rw [hwithdrawn] at hpositive
  generalize (withdrawals T (amountDue T s.block info) info true s.ledger).1 = fromCustody at *
  generalize (withdrawals T (amountDue T s.block info) info true s.ledger).2 = fromReserve at *
  -- the custody account pays first, and leaves the reserve account alone
  obtain ⟨haccount₁, hissuance₁⟩ := transferPayout_kept hT (Ne.symm hcustody) hfirst htransfer₁
  have hreserve₁ : T.currency.account s₁.ledger info.reserve =
      T.currency.account s.ledger info.reserve := by
    rw [haccount₁, update_of_ne (Ne.symm hreserve), update_of_ne (Ne.symm hne)]
  rw [← hreserve₁] at hsecond
  obtain ⟨haccount₂, hissuance₂⟩ := transferPayout_kept hT (Ne.symm hreserve) hsecond htransfer₂
  refine ⟨fromCustody, fromReserve, ?_, hwithdrawn.symm⟩
  constructor
  case custody =>
    rw [hledger, haccount₂, update_of_ne (Ne.symm hcustody), update_of_ne hne, haccount₁,
      update_of_ne (Ne.symm hcustody), update_self]
    exact paid_debit hfirst
  case reserve =>
    rw [hledger, haccount₂, update_of_ne (Ne.symm hreserve), update_self, ← hreserve₁]
    exact paid_debit hsecond
  case received =>
    rw [hledger, haccount₂, update_self, haccount₁, update_self]
    simp only [AccountData.credit, Nat.add_assoc]
  case others =>
    intro a ha ha' hwho
    rw [hledger, haccount₂, update_of_ne hwho, update_of_ne ha', haccount₁, update_of_ne hwho,
      update_of_ne ha]
  case issuance => rw [hledger, hissuance₂, hissuance₁]
  case positive => exact hpositive
  case le_due => exact hdue
  case custody_first => exact horder
  case vested => exact hteam
  case totalCustody => exact htotal

/-! ## The books -/

/-- No step goes back to an earlier block. -/
theorem block_le_next (T : Config A σ) (s : State A σ) (a : Action A σ) :
    s.block ≤ (next T s a).block := by
  cases a with
  | outside blocks ledger => exact Nat.le_add_right _ _
  | call origin call =>
    show s.block ≤ (applyCall T s origin call).block
    cases applyCall_cases T s origin call with
    | inl hsame => rw [hsame]
    | inr hok =>
      rcases dispatch_cases hok with hbooks | ⟨who, _, hpay⟩ | ⟨who, new, _, hreplace⟩
      · exact Nat.le_of_eq hbooks.block.symm
      · obtain ⟨info, _, ⟨_, hlast⟩ | ⟨_, hdue⟩⟩ := payout_cases hpay
        · exact Nat.le_of_eq (lastPayout_books hlast).1.symm
        · exact Nat.le_of_eq (doPayout_ok hdue).2.1.symm
      · obtain ⟨_, _, _, _, hblock, _⟩ := replaceTeamMember_ok hreplace
        exact Nat.le_of_eq hblock.symm

/-- A state of a run from a genesis with distinct members and large enough allocations, under
the constants of the xxnetwork runtime. -/
def FromGenesis (T : Config A σ) (s : State A σ) : Prop :=
  T.XXNetwork ∧ ∃ (config : GenesisConfig A) (ledger : σ) (actions : List (Action A σ)),
    config.Valid ∧ s = actions.foldl (next T) (genesisBuild T config ledger)

/-- Only last payouts can put the total out of order, and there are none before the end. -/
theorem squared_before_end (hT : T.Lawful) (hs : FromGenesis T s) :
    Scheduled T s ∧ (s.block ≤ T.custodyDuration → Squared s) := by
  obtain ⟨hX, config, ledger, actions, hconfig, rfl⟩ := hs
  obtain ⟨hscheduled, hsquared⟩ := genesisBuild_ok hX hconfig ledger
  replace hsquared : (genesisBuild T config ledger).block ≤ T.custodyDuration →
      Squared (genesisBuild T config ledger) := fun _ => hsquared
  generalize genesisBuild T config ledger = s at hscheduled hsquared
  induction actions generalizing s with
  | nil => exact ⟨hscheduled, hsquared⟩
  | cons a actions ih =>
    refine ih (next T s a) (scheduled_next hX hscheduled a) fun hbefore => ?_
    have hblock := (block_le_next T s a).trans hbefore
    have hfits : LastPayoutFits T s a := by
      cases a with
      | outside blocks ledger => trivial
      | call origin call =>
        cases call with
        | payout who => exact fun _ _ _ hdone _ => absurd hdone (Nat.not_lt_of_le hblock)
        | _ => trivial
    exact ((squared_next_iff hT hX a (hsquared hblock) hscheduled).mpr hfits).1

/-- The books are changed by exactly what is paid. -/
structure BooksExact (who : A) (info : CustodyInfo A) (paid : Nat) (s s' : State A σ) :
    Prop where
  vested : s'.teamAccounts = s.teamAccounts.insert who { info with vested := info.vested + paid }
  totalCustody : s'.totalCustody + paid = s.totalCustody

theorem booksExact_of_fromGenesis (hT : T.Lawful) (hs : FromGenesis T s)
    (hinfo : s.teamAccounts.lookup who = some info) (hbefore : s.block ≤ T.custodyDuration)
    (h : doPayout T who (amountDue T s.block info) info true s = .ok s') :
    BooksExact who info (withdrawn T (amountDue T s.block info) info true s.ledger) s s' := by
  obtain ⟨hscheduled, hsquared⟩ := squared_before_end hT hs
  have hsquared := hsquared hbefore
  obtain ⟨paid, hpaid, hdeducted, _, htotal, hteam⟩ :=
    payout_due hs.1 (hscheduled.each who info hinfo) (hscheduled.allocation_lt hinfo) hbefore h
  have hwithdrawn : withdrawn T (amountDue T s.block info) info true s.ledger = paid := hdeducted
  -- what is paid is within what the member has left to vest
  obtain ⟨_, hpart⟩ := unvested_le hsquared hinfo
  have hdue := due_le hs.1 (hscheduled.each who info hinfo).minAllocation_le hbefore
  unfold CustodyInfo.unvested at hpart
  rw [hwithdrawn]
  exact ⟨hteam, by omega⟩

/-- A payout to a member before the end of the custody conserves what there is: what the two
accounts pay, the member receives, and nothing else changes; the vested amount and the total
under custody change by what is paid, as far as they go, and by exactly that in every state of
a run from genesis. A payout that fails changes nothing. -/
theorem payout_conserves (hT : T.Lawful) (origin : Origin A) (who : A) (s : State A σ)
    (hbefore : s.block ≤ T.custodyDuration) :
    (∀ s', payout T origin who s = .ok s' → ∃ info, s.teamAccounts.lookup who = some info ∧
      (who ≠ info.custody → who ≠ info.reserve → info.custody ≠ info.reserve →
        ∃ fromCustody fromReserve, Conserved T who info fromCustody fromReserve s s' ∧
          (FromGenesis T s → BooksExact who info (fromCustody + fromReserve) s s'))) ∧
    (∀ e, payout T origin who s = .error e → applyCall T s origin (.payout who) = s) := by
  constructor
  · intro s' h
    obtain ⟨info, hinfo, ⟨hdone, _⟩ | ⟨_, hpay⟩⟩ := payout_cases h
    · omega
    · refine ⟨info, hinfo, fun hcustody hreserve hne => ?_⟩
      obtain ⟨fromCustody, fromReserve, hconserved, hsum⟩ :=
        doPayout_conserved hT hcustody hreserve hne hpay
      refine ⟨fromCustody, fromReserve, hconserved, fun hs => ?_⟩
      rw [hsum]
      exact booksExact_of_fromGenesis hT hs hinfo hbefore hpay
  · intro e h
    have hdispatch : dispatch T origin (.payout who) s = .error e := h
    unfold applyCall
    rw [hdispatch]

/-- One member at the last payout before the end, from a genesis with its `allocation`. The
custody account has `free` coins, and `frozen` of them are locked. -/
def mockBefore (allocation free frozen : Nat) : State Nat (Books Nat) :=
  next mockConfig
    (genesisBuild mockConfig { custodians := [7], teamAllocations := [(1, allocation)] }
      (mockBooks []))
    (.outside 15724800 (mockBooks
      [(1, ⟨1000000000, 0, 0, true⟩), (10, ⟨free, 0, frozen, false⟩),
        (11, ⟨50000000000, 0, 0, true⟩)]))

/-- Half of the coins in custody are staked, and the reserve pays the rest as far as it may. -/
theorem payout_conserves_mock :
    ∃ s' fromCustody fromReserve,
      payout mockConfig (.signed 9) 1 (mockBefore 1000000000000 950000000000 475000000000) =
        .ok s' ∧
      Conserved mockConfig 1 (newMember mockConfig 1 1000000000000) fromCustody fromReserve
        (mockBefore 1000000000000 950000000000 475000000000) s' ∧
      BooksExact 1 (newMember mockConfig 1 1000000000000) (fromCustody + fromReserve)
        (mockBefore 1000000000000 950000000000 475000000000) s' := by
  have hok := @dispatch_of_isOk _ _ _ mockConfig
    (mockBefore 1000000000000 950000000000 475000000000) (.signed 9) (.payout 1)
    (by decide +kernel)
  obtain ⟨info, hinfo, hpaid⟩ := (payout_conserves (Books.config_lawful (by decide) 2 _)
    (.signed 9) 1 (mockBefore 1000000000000 950000000000 475000000000) (by decide)).1 _ hok
  have hmember : info = newMember mockConfig 1 1000000000000 := (Option.some.inj hinfo).symm
  subst hmember
  obtain ⟨fromCustody, fromReserve, hconserved, hexact⟩ :=
    hpaid (by decide) (by decide) (by decide)
  exact ⟨_, fromCustody, fromReserve, hok, hconserved,
    hexact ⟨⟨rfl, rfl⟩, _, _, [.outside 15724800 _],
      ⟨by decide, by decide, by decide⟩, rfl⟩⟩

/-- Of an allocation of `100`, rounding makes `156` due. A custody account that somebody else
filled pays them, and the total under custody had no more than `100` to decrease by. -/
theorem tiny_allocation_overdraws :
    ∃ s', payout mockConfig (.signed 9) 1 (mockBefore 100 2000000000 0) = .ok s' ∧
      mockConfig.currency.freeBalance s'.ledger 1 =
        mockConfig.currency.freeBalance (mockBefore 100 2000000000 0).ledger 1 + 156 ∧
      mockConfig.currency.freeBalance s'.ledger 10 + 156 =
        mockConfig.currency.freeBalance (mockBefore 100 2000000000 0).ledger 10 ∧
      mockConfig.currency.freeBalance s'.ledger 11 =
        mockConfig.currency.freeBalance (mockBefore 100 2000000000 0).ledger 11 ∧
      (mockBefore 100 2000000000 0).totalCustody = 100 ∧ s'.totalCustody = 0 :=
  ⟨_, @dispatch_of_isOk _ _ _ mockConfig (mockBefore 100 2000000000 0) (.signed 9) (.payout 1)
      (by decide +kernel), by decide +kernel,
    by decide +kernel, by decide +kernel, by decide +kernel, by decide +kernel⟩

end XXChain.Custody
