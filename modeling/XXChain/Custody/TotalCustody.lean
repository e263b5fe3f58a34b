import XXChain.Custody.Books
import XXChain.Custody.Schedule
import XXChain.Lib.Run

/-!
# XXChain — the total under custody

`TotalCustody` is meant to be what is left of all allocations to vest. A payout before the end
takes out of it what it pays. The last payout takes out what the member has left to vest,
whatever it pays, as long as what it pays and what was vested add up to a balance; when the
sum wraps, it takes out everything there is.

* **`squared_next_iff`** — one step keeps the total exactly when no last payout wraps;
* **`total_custody_eq_unvested`** — over a run from genesis, the total is what is left to vest
  in every state, and no subtraction from it saturates, when no last payout wraps, and only
  then.
-/

namespace XXChain.Custody

open StorageMap

variable {A σ : Type}

/-- What a member has left to vest. -/
def CustodyInfo.unvested (info : CustodyInfo A) : Nat :=
  info.allocation - info.vested

variable [DecidableEq A] {T : Config A σ} {s s' : State A σ} {origin : Origin A} {who : A}
  {info : CustodyInfo A}

/-- The total is what is left to vest, of members that have vested no more than allocated; so
it is zero when nobody that is left has anything to vest. -/
structure Squared (s : State A σ) : Prop where
  total : s.totalCustody = sumBy CustodyInfo.unvested s.teamAccounts
  vested_le : ∀ who info, s.teamAccounts.lookup who = some info → info.vested ≤ info.allocation
  zero_iff : s.totalCustody = 0 ↔
    ∀ who info, s.teamAccounts.lookup who = some info → info.vested = info.allocation

theorem Squared.of_scheduled (hT : T.XXNetwork) (hs : Scheduled T s)
    (htotal : s.totalCustody = sumBy CustodyInfo.unvested s.teamAccounts) : Squared s := by
  have hle : ∀ who info, s.teamAccounts.lookup who = some info →
      info.vested ≤ info.allocation :=
    fun who info hinfo => (hs.each who info hinfo).vested_le hT
  refine ⟨htotal, hle, ?_⟩
  rw [htotal, sumBy_eq_zero_iff]
  unfold CustodyInfo.unvested
  constructor
  · intro hzero who info hinfo
    have := hle who info hinfo
    have := hzero who info hinfo
    omega
  · intro hall who info hinfo
    have := hall who info hinfo
    omega

/-! ## What a payout deducts -/

/-- What the last payout pays, wrapped to a balance. -/
def amountAtEnd (T : Config A σ) (ledger : σ) (info : CustodyInfo A) : Nat :=
  (takenAtEnd T ledger info info.custody + takenAtEnd T ledger info info.reserve) % balanceLimit

/-- What a payout that goes through takes out of the total. -/
def payoutDeduct (T : Config A σ) (s : State A σ) (who : A) : Nat :=
  match s.teamAccounts.lookup who with
  | none => 0
  | some info =>
    if isCustodyDone T s.block then
      custodyDeduct false (info.increaseVested (amountAtEnd T s.ledger info))
        (amountAtEnd T s.ledger info)
    else deducted T (amountDue T s.block info) info true s.ledger

/-- The last payout pays what the state before it tells. -/
theorem withdrawn_last {ledger : σ} (hT : T.Lawful)
    (haccount : T.currency.account ledger = accountsAtEnd T s.ledger info.custody) :
    withdrawn T 0 info false ledger = amountAtEnd T s.ledger info := by
  have htaken : ∀ a, T.currency.reducibleBalance ledger a false =
      takenAtEnd T s.ledger info a := by
    intro a
    rw [hT.currency.reducibleBalance_eq, haccount]
    rfl
  unfold withdrawn amountAtEnd
  rw [← htaken, ← htaken]
  rfl

/-- A payout takes out of the total what `payoutDeduct` says. -/
theorem payout_totalCustody (hT : T.Lawful) (h : payout T origin who s = .ok s') :
    s'.totalCustody = s.totalCustody - payoutDeduct T s who := by
  obtain ⟨info, hinfo, ⟨hdone, hlast⟩ | ⟨hbefore, hdue⟩⟩ := payout_cases h
  · obtain ⟨ledger, s₁, haccount, hpay, rfl⟩ := lastPayout_ok hT hlast
    obtain ⟨_, _, htotal, _⟩ := doPayout_ok hpay
    show s₁.totalCustody = _
    unfold payoutDeduct
    rw [hinfo, htotal]
    unfold deducted
    rw [withdrawn_last hT haccount]
    simp only [isCustodyDone, decide_eq_true hdone, if_true]
  · obtain ⟨_, _, htotal, _⟩ := doPayout_ok hdue
    rw [htotal, payoutDeduct, hinfo]
    simp only [isCustodyDone, decide_eq_false (Nat.not_lt.mpr hbefore), Bool.false_eq_true,
      if_false]

omit [DecidableEq A] in
/-- When nothing wraps, the last payout takes out what is left to vest, whatever it pays. -/
theorem custodyDeduct_last {withdraw : Nat} (hle : info.vested ≤ info.allocation)
    (hlt : info.allocation < balanceLimit) (hfits : info.vested + withdraw < balanceLimit) :
    custodyDeduct false (info.increaseVested withdraw) withdraw = info.unvested := by
  unfold custodyDeduct CustodyInfo.increaseVested CustodyInfo.unvested
  rw [Nat.mod_eq_of_lt hfits]
  simp only [Bool.false_eq_true, if_false]
  split
  · omega
  · split <;> omega

omit [DecidableEq A] in
/-- When the vested amount wraps, the last payout takes out as much as a balance can be. -/
theorem custodyDeduct_wrapped {withdraw : Nat} (hle : info.vested ≤ info.allocation)
    (hlt : info.allocation < balanceLimit) (hwithdraw : withdraw < balanceLimit)
    (hwraps : balanceLimit ≤ info.vested + withdraw) :
    custodyDeduct false (info.increaseVested withdraw) withdraw = balanceLimit - 1 := by
  have hmod : (info.vested + withdraw) % balanceLimit =
      info.vested + withdraw - balanceLimit := by
    rw [Nat.mod_eq_sub_mod hwraps, Nat.mod_eq_of_lt (by omega)]
  unfold custodyDeduct CustodyInfo.increaseVested
  rw [hmod]
  simp only [Bool.false_eq_true, if_false]
  rw [if_neg (by omega), if_pos (by omega)]
  omega

/-! ## One step -/

/-- In a payout that goes through, the subtraction from the total does not saturate. -/
def Exact (T : Config A σ) (s : State A σ) : Action A σ → Prop
  | .call origin (.payout who) => ∀ s', payout T origin who s = .ok s' →
      s'.totalCustody + payoutDeduct T s who = s.totalCustody
  | _ => True

/-- In a last payout that goes through, what was vested and what can be taken out of the two
accounts add up to a balance. -/
def LastPayoutFits (T : Config A σ) (s : State A σ) : Action A σ → Prop
  | .call origin (.payout who) => ∀ info s', s.teamAccounts.lookup who = some info →
      T.custodyDuration < s.block → payout T origin who s = .ok s' →
      info.vested + amountAtEnd T s.ledger info < balanceLimit
  | _ => True

/-- What a member has left to vest is a part of the total, and less than a balance when
something was vested. -/
theorem unvested_le (hs : Squared s) (hinfo : s.teamAccounts.lookup who = some info) :
    s.totalCustody + info.vested ≤ sumBy CustodyInfo.allocation s.teamAccounts ∧
      sumBy CustodyInfo.unvested (s.teamAccounts.erase who) + info.unvested =
        s.totalCustody := by
  have hrest := sumBy_mono (f := CustodyInfo.unvested) (g := CustodyInfo.allocation)
    (fun info => Nat.sub_le _ _) (s.teamAccounts.erase who)
  have hunvested := sumBy_erase CustodyInfo.unvested s.teamAccounts who
  have hallocation := sumBy_erase CustodyInfo.allocation s.teamAccounts who
  rw [valueAt_of_some hinfo] at hunvested hallocation
  have htotal := hs.total
  have hle := hs.vested_le who info hinfo
  unfold CustodyInfo.unvested at *
  constructor <;> omega

/-- The last payout keeps the total exactly when it does not wrap. -/
theorem squared_last_iff (hT : T.Lawful) (hX : T.XXNetwork) (hs : Scheduled T s)
    (hsquared : Squared s) (hinfo : s.teamAccounts.lookup who = some info)
    (hdone : T.custodyDuration < s.block) (hlast : lastPayout T who info s = .ok s')
    (hpay : payout T origin who s = .ok s') :
    Squared s' ∧ s'.totalCustody + payoutDeduct T s who = s.totalCustody ↔
      info.vested + amountAtEnd T s.ledger info < balanceLimit := by
  obtain ⟨hblock, hteam⟩ := lastPayout_books hlast
  obtain ⟨hsum, hpart⟩ := unvested_le hsquared hinfo
  have htotal := payout_totalCustody hT hpay
  have hfits := hs.fits
  have hle := hsquared.vested_le who info hinfo
  have hlt := hs.allocation_lt hinfo
  have hdeduct : payoutDeduct T s who = custodyDeduct false
      (info.increaseVested (amountAtEnd T s.ledger info)) (amountAtEnd T s.ledger info) := by
    unfold payoutDeduct
    rw [hinfo]
    simp only [isCustodyDone, decide_eq_true hdone, if_true]
  have hamount : amountAtEnd T s.ledger info < balanceLimit := Nat.mod_lt _ (by decide)
  rw [hdeduct] at htotal ⊢
  constructor
  · rintro ⟨_, hexact⟩
    by_contra hwraps
    rw [custodyDeduct_wrapped hle hlt hamount (Nat.le_of_not_lt hwraps)] at hexact
    -- only a total of nothing but this allocation, none of it vested, could take that
    omega
  · intro hlastFits
    rw [custodyDeduct_last hle hlt hlastFits] at htotal ⊢
    refine ⟨Squared.of_scheduled hX (hs.erase hblock hteam) ?_, by omega⟩
    rw [hteam]
    omega

/-- A payout before the end keeps the total. -/
theorem squared_due (hX : T.XXNetwork) (hs : Scheduled T s)
    (hsquared : Squared s) (hinfo : s.teamAccounts.lookup who = some info)
    (hbefore : s.block ≤ T.custodyDuration)
    (hdue : doPayout T who (amountDue T s.block info) info true s = .ok s') :
    Squared s' ∧ s'.totalCustody + payoutDeduct T s who = s.totalCustody := by
  obtain ⟨paid, hpaid, hdeducted, _, htotal, hteam⟩ :=
    payout_due hX (hs.each who info hinfo) (hs.allocation_lt hinfo) hbefore hdue
  have hdeduct : payoutDeduct T s who = paid := by
    unfold payoutDeduct
    rw [hinfo]
    simp only [isCustodyDone, decide_eq_false (Nat.not_lt.mpr hbefore), Bool.false_eq_true,
      if_false, hdeducted]
  -- what is paid is within what the member has left to vest
  obtain ⟨_, hpart⟩ := unvested_le hsquared hinfo
  have hledue := due_le hX (hs.each who info hinfo).minAllocation_le hbefore
  have hinsert := sumBy_insert CustodyInfo.unvested s.teamAccounts who
    { info with vested := info.vested + paid }
  have hsum := hsquared.total
  rw [valueAt_of_some hinfo] at hinsert
  rw [hdeduct]
  unfold CustodyInfo.unvested at *
  simp only at hinsert
  refine ⟨Squared.of_scheduled hX (hs.payout_due hX hinfo hbefore hdue) ?_, by omega⟩
  rw [hteam, htotal]
  unfold CustodyInfo.unvested
  omega

theorem Squared.books (hs : Squared s) (h : SameBooks s s') : Squared s' := by
  constructor
  · rw [h.totalCustody, h.teamAccounts]
    exact hs.total
  · rw [h.teamAccounts]
    exact hs.vested_le
  · rw [h.totalCustody, h.teamAccounts]
    exact hs.zero_iff

/-- A call that is no payout keeps the total. -/
theorem squared_applyCall {call : Call A} (hX : T.XXNetwork) (hs : Squared s)
    (hscheduled : Scheduled T s) (hcall : ∀ who, call ≠ .payout who) :
    Squared (applyCall T s origin call) := by
  rcases applyCall_cases T s origin call with hsame | hok
  · rw [hsame]
    exact hs
  · rcases dispatch_cases hok with hbooks | ⟨who, hwho, _⟩ | ⟨who, new, _, hreplace⟩
    · exact hs.books hbooks
    · exact absurd hwho (hcall who)
    · have hnext := scheduled_next hX hscheduled (.call origin call)
      obtain ⟨info, hinfo, hnew, hteam, _, htotal⟩ := replaceTeamMember_ok hreplace
      apply Squared.of_scheduled hX hnext
      show (applyCall T s origin call).totalCustody =
        sumBy CustodyInfo.unvested (applyCall T s origin call).teamAccounts
      rw [htotal, hteam, sumBy_replace _ hinfo hnew]
      exact hs.total

/-- One step keeps the total exactly when it is not a last payout that wraps. -/
theorem squared_next_iff (hT : T.Lawful) (hX : T.XXNetwork) (a : Action A σ) (hs : Squared s)
    (hscheduled : Scheduled T s) :
    Squared (next T s a) ∧ Exact T s a ↔ LastPayoutFits T s a := by
  cases a with
  | outside blocks ledger =>
    exact iff_of_true ⟨⟨hs.total, hs.vested_le, hs.zero_iff⟩, trivial⟩ trivial
  | call origin call =>
    cases call with
    | payout who =>
      cases hpay : payout T origin who s with
      | error e =>
        -- nothing goes through, and nothing changes
        have hnext : next T s (.call origin (.payout who)) = s := by
          simp only [next, applyCall, dispatch, hpay]
        have hnone : ∀ s', payout T origin who s ≠ .ok s' := by
          intro s' hok
          rw [hpay] at hok
          cases hok
        rw [hnext]
        exact iff_of_true ⟨hs, fun s' h => absurd h (hnone s')⟩
          fun _ s' _ _ h => absurd h (hnone s')
      | ok s' =>
        have hnext : next T s (.call origin (.payout who)) = s' := by
          simp only [next, applyCall, dispatch, hpay]
        have hexact : Exact T s (.call origin (.payout who)) ↔
            s'.totalCustody + payoutDeduct T s who = s.totalCustody := by
          show (∀ s', payout T origin who s = .ok s' → _) ↔ _
          simp only [hpay, Except.ok.injEq, forall_eq']
        rw [hnext, hexact]
        obtain ⟨info, hinfo, ⟨hdone, hlast⟩ | ⟨hbefore, hdue⟩⟩ := payout_cases hpay
        · rw [squared_last_iff hT hX hscheduled hs hinfo hdone hlast hpay]
          constructor
          · intro hfits info' _ hinfo' _ _
            rw [hinfo] at hinfo'
            cases hinfo'
            exact hfits
          · intro hfits
            exact hfits info s' hinfo hdone hpay
        · apply iff_of_true (squared_due hX hscheduled hs hinfo hbefore hdue)
          intro _ _ _ hdone _
          omega
    | _ => exact iff_of_true ⟨squared_applyCall hX hs hscheduled (by simp), trivial⟩ trivial

/-! ## Genesis -/

/-- What is recorded of a new member. -/
def newMember (T : Config A σ) (who : A) (amount : Nat) : CustodyInfo A where
  allocation := amount
  vested := 0
  custody := T.proxies.pureAccount who T.custodyProxy 0
  reserve := T.proxies.pureAccount who T.custodyProxy 1

theorem initializeCustody_teamAccounts (amount : Nat) :
    (initializeCustody T who amount s).teamAccounts =
      s.teamAccounts.insert who (newMember T who amount) :=
  rfl

/-- The two parts of an allocation are added to the total one after the other. -/
theorem initializeCustody_totalCustody {amount : Nat}
    (hfits : s.totalCustody + amount < balanceLimit) :
    (initializeCustody T who amount s).totalCustody = s.totalCustody + amount := by
  have hsplit := reserveRatio.of_le amount
  show ((s.totalCustody + (amount - reserveRatio.of amount)) % balanceLimit +
    reserveRatio.of amount) % balanceLimit = s.totalCustody + amount
  have hfirst : (s.totalCustody + (amount - reserveRatio.of amount)) % balanceLimit =
      s.totalCustody + (amount - reserveRatio.of amount) := Nat.mod_eq_of_lt (by omega)
  rw [hfirst, Nat.mod_eq_of_lt (by omega)]
  omega

/-- Opening the custody of a new member adds the allocation to the total. -/
theorem initializeCustody_ok {amount : Nat} (hX : T.XXNetwork) (hs : Scheduled T s)
    (hsquared : Squared s) (hfresh : s.teamAccounts.lookup who = none)
    (hmin : minAllocation ≤ amount)
    (hfits : sumBy CustodyInfo.allocation s.teamAccounts + amount < balanceLimit) :
    Scheduled T (initializeCustody T who amount s) ∧ Squared (initializeCustody T who amount s) ∧
      sumBy CustodyInfo.allocation (initializeCustody T who amount s).teamAccounts =
        sumBy CustodyInfo.allocation s.teamAccounts + amount := by
  have hinsert : ∀ f : CustodyInfo A → Nat,
      sumBy f (initializeCustody T who amount s).teamAccounts =
        sumBy f s.teamAccounts + f (newMember T who amount) := by
    intro f
    have hsum := sumBy_insert f s.teamAccounts who (newMember T who amount)
    rw [valueAt_of_none hfresh] at hsum
    rw [initializeCustody_teamAccounts]
    omega
  have hle := sumBy_mono (f := CustodyInfo.unvested) (g := CustodyInfo.allocation)
    (fun info => Nat.sub_le _ _) s.teamAccounts
  have htotal := hsquared.total
  have hscheduled : Scheduled T (initializeCustody T who amount s) := by
    constructor
    · exact hs.each.insert who ⟨hmin, Nat.zero_le _⟩
    · rw [hinsert]
      exact hfits
  refine ⟨hscheduled, Squared.of_scheduled hX hscheduled ?_, hinsert _⟩
  rw [hinsert, initializeCustody_totalCustody (by omega), htotal]
  rfl

/-- The custody of a list of distinct new members opens with the sum of their allocations. -/
theorem foldl_initializeCustody (hX : T.XXNetwork) {l : List (A × Nat)}
    (hdistinct : (l.map Prod.fst).Nodup) (hfresh : ∀ e ∈ l, s.teamAccounts.lookup e.1 = none)
    (hmin : ∀ e ∈ l, minAllocation ≤ e.2)
    (hfits : sumBy CustodyInfo.allocation s.teamAccounts + (l.map Prod.snd).sum < balanceLimit)
    (hs : Scheduled T s) (hsquared : Squared s) :
    Scheduled T (l.foldl (fun s e => initializeCustody T e.1 e.2 s) s) ∧
      Squared (l.foldl (fun s e => initializeCustody T e.1 e.2 s) s) := by
  induction l generalizing s with
  | nil => exact ⟨hs, hsquared⟩
  | cons e l ih =>
    rw [List.map_cons, List.nodup_cons] at hdistinct
    rw [List.map_cons, List.sum_cons] at hfits
    obtain ⟨hscheduled, hnext, hsum⟩ := initializeCustody_ok hX hs hsquared
      (hfresh e List.mem_cons_self) (hmin e List.mem_cons_self) (by omega)
    apply ih hdistinct.2 _ (fun e' he' => hmin e' (List.mem_cons_of_mem _ he')) (by omega)
      hscheduled hnext
    intro e' he'
    -- the members are distinct, so the rest of the list is still new
    have hne : e'.1 ≠ e.1 := by
      intro heq
      exact hdistinct.1 (heq ▸ List.mem_map_of_mem he')
    show (s.teamAccounts.insert e.1 _).lookup e'.1 = none
    rw [Finmap.lookup_insert_of_ne _ hne]
    exact hfresh e' (List.mem_cons_of_mem _ he')

/-- A genesis of distinct members with large enough allocations that fit into a balance. -/
structure GenesisConfig.Valid (config : GenesisConfig A) : Prop where
  distinct : (config.teamAllocations.map Prod.fst).Nodup
  minAllocation_le : ∀ e ∈ config.teamAllocations, minAllocation ≤ e.2
  fits : (config.teamAllocations.map Prod.snd).sum < balanceLimit

theorem genesisBuild_ok {config : GenesisConfig A} (hX : T.XXNetwork) (hconfig : config.Valid)
    (ledger : σ) :
    Scheduled T (genesisBuild T config ledger) ∧ Squared (genesisBuild T config ledger) := by
  have hempty : Scheduled T (genesisCustodians config ledger) := by
    refine ⟨each_empty _, ?_⟩
    show 0 < balanceLimit
    decide
  apply foldl_initializeCustody hX hconfig.distinct (fun _ _ => Finmap.lookup_empty _)
    hconfig.minAllocation_le _ hempty (Squared.of_scheduled hX hempty rfl)
  show 0 + _ < balanceLimit
  rw [Nat.zero_add]
  exact hconfig.fits

/-! ## Runs -/

/-- From genesis, over any calls with anything happening in between: in every state the total
is what is left to vest, and no payout saturates it, exactly when no last payout wraps. -/
theorem total_custody_eq_unvested (T : Config A σ) (hT : T.Lawful) (hX : T.XXNetwork)
    (config : GenesisConfig A) (hconfig : config.Valid) (ledger : σ)
    (actions : List (Action A σ)) :
    Always (next T) Squared (genesisBuild T config ledger) actions ∧
        Along (next T) (Exact T) (genesisBuild T config ledger) actions ↔
      Along (next T) (LastPayoutFits T) (genesisBuild T config ledger) actions := by
  obtain ⟨hscheduled, hsquared⟩ := genesisBuild_ok hX hconfig ledger
  have hrun : Along (next T) (fun s _ => Scheduled T s) (genesisBuild T config ledger) actions :=
    along_of_invariant (fun s a hs => scheduled_next hX hs a) hscheduled
  exact always_iff_along (fun s a hs hscheduled => squared_next_iff hT hX a hs hscheduled)
    hsquared hrun

/-- Two members, the first with `allocation`. -/
def mockGenesis (allocation : Nat) : GenesisConfig Nat where
  custodians := [7]
  teamAllocations := [(1, allocation), (2, 1000000000)]

def mockBooks (accounts : List (Nat × AccountData)) : Books Nat where
  ledger := .ofList accounts
  stakes := ∅
  votes := ∅
  proxies := ∅

/-- The first member is paid all that is due before the end, gives `returned` of it back to the
custody account, and is paid for the last time. -/
def mockActions (allocation returned : Nat) : List (Action Nat (Books Nat)) :=
  [.outside 15724800 (genesisBuild mockConfig (mockGenesis allocation) (mockBooks [])).ledger,
    .call (.signed 9) (.payout 1),
    .outside 54001 (mockBooks
      [(1, ⟨allocation - returned, 0, 0, true⟩), (10, ⟨returned, 0, 0, true⟩)]),
    .call (.signed 9) (.payout 1)]

theorem total_custody_mock :
    Always (next mockConfig) Squared
        (genesisBuild mockConfig (mockGenesis 1000000000000) (mockBooks []))
        (mockActions 1000000000000 100000000000) ∧
      Along (next mockConfig) (Exact mockConfig)
        (genesisBuild mockConfig (mockGenesis 1000000000000) (mockBooks []))
        (mockActions 1000000000000 100000000000) := by
  apply (total_custody_eq_unvested mockConfig (Books.config_lawful (by decide) 2 _) ⟨rfl, rfl⟩
    (mockGenesis 1000000000000) ⟨by decide, by decide, by decide⟩ (mockBooks [])
    (mockActions 1000000000000 100000000000)).mpr
  refine ⟨trivial, ?_, trivial, ?_, trivial⟩
  · intro info s' hinfo hdone
    exact absurd hdone (by decide)
  · intro info s' hinfo _ _
    cases hinfo
    decide

/-- Three quarters of what a balance can be are vested, and half of it is given back: the last
payout wraps, and takes what the second member has left to vest out of the total. -/
theorem total_custody_lost :
    ¬ Always (next mockConfig) Squared
      (genesisBuild mockConfig (mockGenesis 255211775190703847597530955574826158592)
        (mockBooks []))
      (mockActions 255211775190703847597530955574826158592
        170141183460469231731687303715884105728) := by
  intro h
  have hlast : (0 : Nat) = 1000000000 := h.2.2.2.2.total
  exact absurd hlast (by decide)

end XXChain.Custody
