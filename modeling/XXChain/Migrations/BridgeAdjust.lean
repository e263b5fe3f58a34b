import XXChain.Economics.EraPayout

/-!
# XXChain — the migration of the bridge account

`migrations/src/bridge_adjust.rs`, which the runtime runs on its upgrade: it moves coins from the
bridge account to the rewards pool and sets the liquidity rewards, and the checks around it say
that what can be staked is unchanged.

* **`onRuntimeUpgrade_ok_iff`** — when the upgrade goes through, and what it leaves;
* **`tryRuntimeUpgrade_ok_iff`** — when its checks pass too.
-/

namespace XXChain.Migrations

open Economics (Panic addBalance computeTotalStakeable rewardsBalance subtract unstakeable)

/-! ## The migration -/

def balanceTransfer : Nat := 40_000_000_000_000_000
def balanceLiquidityRewards : Nat := 10_000_000_000_000_000

/-- How the migration or its checks end a block: a panic of the pallets, an `unwrap` of an error
or an assertion with its message. -/
inductive Fault where
  | panic (cause : Panic)
  | unwrapError
  | assertion (message : String)
  deriving DecidableEq, Repr

variable {A σ α : Type}

def orPanic : Except Panic α → Except Fault α
  | .ok a => .ok a
  | .error cause => .error (.panic cause)

def assert (condition : Bool) (message : String) : Except Fault Unit :=
  if condition then .ok () else .error (.assertion message)

variable [DecidableEq A]

/-- A transfer with `ExistenceRequirement::KeepAlive`: the source has to survive it. -/
def transferKeepAlive (c : Currency A σ) (l : σ) (source dest : A) (v : Nat) : Option σ :=
  if v = 0 ∨ source = dest ∨ c.existentialDeposit ≤ c.totalBalance l source - v then
    c.transfer l source dest v
  else none

def onRuntimeUpgrade (T : Economics.Config A σ) (bridgeAccount : A) (s : Economics.State σ) :
    Except Fault (Economics.State σ) :=
  match transferKeepAlive T.currency s.ledger bridgeAccount T.rewardsAccountId balanceTransfer with
  | none => .error .unwrapError
  | some ledger =>
    match Economics.setLiquidityRewardsBalance T .root balanceLiquidityRewards
        { s with ledger } with
    | .ok s' => .ok s'
    | .error _ => .error .unwrapError

/-- What `pre_upgrade` hands to `post_upgrade`. -/
structure Before where
  bridgeBalance : Nat
  rewardsBalance : Nat
  totalStakeable : Nat
  deriving DecidableEq, Repr

def preUpgrade (T : Economics.Config A σ) (bridgeAccount : A) (s : Economics.State σ) :
    Except Fault Before := do
  let totalStakeable ← orPanic
    (computeTotalStakeable T (T.currency.totalIssuance s.ledger) s)
  .ok
    { bridgeBalance := T.currency.freeBalance s.ledger bridgeAccount
      rewardsBalance := rewardsBalance T s
      totalStakeable }

def postUpgrade (T : Economics.Config A σ) (bridgeAccount : A) (before : Before)
    (s : Economics.State σ) : Except Fault Unit := do
  let totalStakeable ← orPanic
    (computeTotalStakeable T (T.currency.totalIssuance s.ledger) s)
  let bridgeBalance ← orPanic (subtract before.bridgeBalance balanceTransfer)
  assert (decide (bridgeBalance = T.currency.freeBalance s.ledger bridgeAccount))
    "Bridge balance mismatch after bridge transfer"
  let rewards ← orPanic (addBalance before.rewardsBalance balanceTransfer)
  assert (decide (rewards = rewardsBalance T s))
    "Rewards balance mismatch after bridge transfer"
  assert (decide (before.totalStakeable = totalStakeable))
    "Total stakeable is not the same after bridge transfer"
  assert (decide (s.liquidityRewards = balanceLiquidityRewards))
    "Liquidity rewards balance mismatch after bridge transfer"

/-- The upgrade with its checks, as `try-runtime` runs it. -/
def tryRuntimeUpgrade (T : Economics.Config A σ) (bridgeAccount : A) (s : Economics.State σ) :
    Except Fault (Economics.State σ) := do
  let before ← preUpgrade T bridgeAccount s
  let s' ← onRuntimeUpgrade T bridgeAccount s
  postUpgrade T bridgeAccount before s'
  .ok s'

theorem orPanic_eq_ok {x : Except Panic α} {a : α} : orPanic x = .ok a ↔ x = .ok a := by
  cases x with
  | ok b => exact ⟨fun h => by cases h; rfl, fun h => by cases h; rfl⟩
  | error cause => exact ⟨nofun, nofun⟩

theorem addBalance_eq_ok {a b x : Nat} :
    addBalance a b = .ok x ↔ a + b < balanceLimit ∧ a + b = x := by
  unfold addBalance
  split
  next h => exact ⟨fun hx => by cases hx; exact ⟨h, rfl⟩, fun hx => by rw [hx.2]⟩
  next h => exact ⟨nofun, fun hx => absurd hx.1 h⟩

theorem subtract_eq_ok_iff {a b x : Nat} : subtract a b = .ok x ↔ b ≤ a ∧ a - b = x := by
  unfold subtract
  split
  next h => exact ⟨fun hx => by cases hx; exact ⟨h, rfl⟩, fun hx => by rw [hx.2]⟩
  next h => exact ⟨nofun, fun hx => absurd hx.1 h⟩

theorem assert_eq_ok {condition : Bool} {message : String} {done : Unit} :
    assert condition message = .ok done ↔ condition = true := by
  unfold assert
  split
  next h => exact ⟨fun _ => h, fun _ => rfl⟩
  next h => exact ⟨nofun, fun htrue => absurd htrue h⟩

/-! ## When it goes through -/

variable {T : Economics.Config A σ} {bridgeAccount : A} {s s' : Economics.State σ}

/-- The bridge account can pay and survive, and the pool exists after it. -/
def Payable (T : Economics.Config A σ) (bridgeAccount : A) (s : Economics.State σ) : Prop :=
  balanceTransfer + (T.currency.account s.ledger bridgeAccount).frozen ≤
      T.currency.freeBalance s.ledger bridgeAccount ∧
    T.currency.existentialDeposit ≤
      T.currency.totalBalance s.ledger bridgeAccount - balanceTransfer ∧
    T.currency.existentialDeposit ≤
      T.currency.totalBalance s.ledger T.rewardsAccountId + balanceTransfer

/-- What the upgrade leaves: the coins have moved, nothing was issued or burned, and of the
economics pallet only the liquidity rewards are new. -/
structure Upgraded (T : Economics.Config A σ) (bridgeAccount : A) (s s' : Economics.State σ) :
    Prop where
  account : T.currency.account s'.ledger = Function.update
    (Function.update (T.currency.account s.ledger) bridgeAccount
      ((T.currency.account s.ledger bridgeAccount).debit balanceTransfer))
    T.rewardsAccountId ((T.currency.account s.ledger T.rewardsAccountId).credit balanceTransfer)
  issuance : T.currency.totalIssuance s'.ledger = T.currency.totalIssuance s.ledger
  frame : s' = { s with
    liquidityRewards := balanceLiquidityRewards
    ledger := s'.ledger
    events := s.events ++ [.liquidityRewardsBalanceChanged] }

theorem Upgraded.bridgeBalance (h : Upgraded T bridgeAccount s s')
    (hne : bridgeAccount ≠ T.rewardsAccountId) (hpayable : Payable T bridgeAccount s) :
    T.currency.freeBalance s.ledger bridgeAccount =
      T.currency.freeBalance s'.ledger bridgeAccount + balanceTransfer := by
  have haccount := congrArg AccountData.free (congrFun h.account bridgeAccount)
  rw [Function.update_of_ne hne, Function.update_self] at haccount
  have hdebit : ((T.currency.account s.ledger bridgeAccount).debit balanceTransfer).free =
      (T.currency.account s.ledger bridgeAccount).free - balanceTransfer := rfl
  have hfree := hpayable.1
  unfold Currency.freeBalance at hfree ⊢
  omega

theorem Upgraded.rewardsBalance (h : Upgraded T bridgeAccount s s') :
    rewardsBalance T s' = rewardsBalance T s + balanceTransfer := by
  have haccount := congrArg AccountData.free (congrFun h.account T.rewardsAccountId)
  rw [Function.update_self] at haccount
  exact haccount

theorem balanceTransfer_pos : 0 < balanceTransfer := by
  decide

omit [DecidableEq A] in
/-- The root may set the liquidity rewards. -/
theorem setLiquidityRewards_root (s : Economics.State σ) :
    Economics.setLiquidityRewardsBalance T .root balanceLiquidityRewards s =
      .ok ({ s with liquidityRewards := balanceLiquidityRewards }.depositEvent
        .liquidityRewardsBalanceChanged) := by
  have hroot : Economics.ensureAdmin T .root = .ok () := by
    unfold Economics.ensureAdmin
    split <;> rfl
  unfold Economics.setLiquidityRewardsBalance
  rw [hroot]
  rfl

theorem onRuntimeUpgrade_eq_ok :
    onRuntimeUpgrade T bridgeAccount s = .ok s' ↔
      ∃ ledger, transferKeepAlive T.currency s.ledger bridgeAccount T.rewardsAccountId
          balanceTransfer = some ledger ∧
        s' = { s with
          liquidityRewards := balanceLiquidityRewards
          ledger
          events := s.events ++ [.liquidityRewardsBalanceChanged] } := by
  unfold onRuntimeUpgrade
  simp only [setLiquidityRewards_root]
  cases transferKeepAlive T.currency s.ledger bridgeAccount T.rewardsAccountId balanceTransfer with
  | none => simp
  | some ledger =>
    constructor
    · intro h
      cases h
      exact ⟨ledger, rfl, rfl⟩
    · rintro ⟨_, hledger, rfl⟩
      cases hledger
      rfl

omit [DecidableEq A] in
theorem totalStakeable_eq_ok {stakeable : Nat} :
    computeTotalStakeable T (T.currency.totalIssuance s.ledger) s = .ok stakeable ↔
      unstakeable T s < balanceLimit ∧
        stakeable = T.currency.totalIssuance s.ledger - unstakeable T s := by
  rw [Economics.computeTotalStakeable_eq]
  split
  next hlimit => exact ⟨fun h => by cases h; exact ⟨hlimit, rfl⟩, fun h => by rw [h.2]⟩
  next hlimit => exact ⟨nofun, fun h => absurd h.1 hlimit⟩

omit [DecidableEq A] in
theorem preUpgrade_eq_ok {before : Before} :
    preUpgrade T bridgeAccount s = .ok before ↔ unstakeable T s < balanceLimit ∧
      before =
        { bridgeBalance := T.currency.freeBalance s.ledger bridgeAccount
          rewardsBalance := rewardsBalance T s
          totalStakeable := T.currency.totalIssuance s.ledger - unstakeable T s } := by
  simp only [preUpgrade, bind_eq_ok, orPanic_eq_ok, totalStakeable_eq_ok, Except.ok.injEq]
  constructor
  · rintro ⟨_, ⟨hlimit, rfl⟩, hbefore⟩
    exact ⟨hlimit, hbefore.symm⟩
  · rintro ⟨hlimit, rfl⟩
    exact ⟨_, ⟨hlimit, rfl⟩, rfl⟩

omit [DecidableEq A] in
/-- The checks after the upgrade, in a state that it left. -/
theorem postUpgrade_eq_ok {before : Before} :
    postUpgrade T bridgeAccount before s = .ok () ↔
      unstakeable T s < balanceLimit ∧
        before.bridgeBalance = T.currency.freeBalance s.ledger bridgeAccount + balanceTransfer ∧
        before.rewardsBalance + balanceTransfer < balanceLimit ∧
        before.rewardsBalance + balanceTransfer = rewardsBalance T s ∧
        before.totalStakeable = T.currency.totalIssuance s.ledger - unstakeable T s ∧
        s.liquidityRewards = balanceLiquidityRewards := by
  simp only [postUpgrade, bind_eq_ok, orPanic_eq_ok, totalStakeable_eq_ok, subtract_eq_ok_iff,
    addBalance_eq_ok, assert_eq_ok, decide_eq_true_eq]
  constructor
  · rintro ⟨_, ⟨hlimit, rfl⟩, _, ⟨hle, rfl⟩, _, hbridge, _, ⟨hsum, rfl⟩, _, hrewards, _,
      hstakeable, hliquidity⟩
    exact ⟨hlimit, by omega, hsum, hrewards, hstakeable, hliquidity⟩
  · rintro ⟨hlimit, hbridge, hsum, hrewards, hstakeable, hliquidity⟩
    exact ⟨_, ⟨hlimit, rfl⟩, _, ⟨by omega, rfl⟩, (), by omega, _, ⟨hsum, rfl⟩, (), hrewards, (),
      hstakeable, hliquidity⟩

section Checks

variable (hc : T.currency.Lawful) (hne : bridgeAccount ≠ T.rewardsAccountId)

include hc hne

theorem transferKeepAlive_isSome_iff :
    (transferKeepAlive T.currency s.ledger bridgeAccount T.rewardsAccountId
      balanceTransfer).isSome ↔ Payable T bridgeAccount s := by
  have hsome := hc.transfer_isSome s.ledger bridgeAccount T.rewardsAccountId balanceTransfer
    balanceTransfer_pos hne
  have hpos := balanceTransfer_pos
  unfold transferKeepAlive Payable
  by_cases halive : T.currency.existentialDeposit ≤
      T.currency.totalBalance s.ledger bridgeAccount - balanceTransfer
  · rw [if_pos (Or.inr (Or.inr halive)), hsome]
    unfold Currency.CanWithdraw
    exact ⟨fun ⟨⟨hfree, _⟩, hpool⟩ => ⟨hfree, halive, hpool⟩,
      fun ⟨hfree, _, hpool⟩ => ⟨⟨hfree, Or.inr halive⟩, hpool⟩⟩
  · rw [if_neg (by simp only [not_or]; exact ⟨by omega, hne, halive⟩)]
    exact ⟨fun h => absurd h Bool.false_ne_true, fun h => absurd h.2.1 halive⟩

/-- A transfer that keeps the bridge account alive leaves no dust. -/
theorem transferKeepAlive_some {ledger : σ}
    (h : transferKeepAlive T.currency s.ledger bridgeAccount T.rewardsAccountId
      balanceTransfer = some ledger) :
    T.currency.transfer s.ledger bridgeAccount T.rewardsAccountId balanceTransfer =
        some ledger ∧
      T.currency.account ledger = Function.update
        (Function.update (T.currency.account s.ledger) bridgeAccount
          ((T.currency.account s.ledger bridgeAccount).debit balanceTransfer))
        T.rewardsAccountId
        ((T.currency.account s.ledger T.rewardsAccountId).credit balanceTransfer) ∧
      T.currency.totalIssuance ledger = T.currency.totalIssuance s.ledger := by
  have hpayable : Payable T bridgeAccount s := by
    rw [← transferKeepAlive_isSome_iff hc hne, h]
    rfl
  obtain ⟨hfree, halive, _⟩ := hpayable
  have htransfer : T.currency.transfer s.ledger bridgeAccount T.rewardsAccountId
      balanceTransfer = some ledger := by
    rw [← h, transferKeepAlive, if_pos (Or.inr (Or.inr halive))]
  have hle : balanceTransfer ≤ (T.currency.account s.ledger bridgeAccount).free := by
    have : T.currency.freeBalance s.ledger bridgeAccount =
      (T.currency.account s.ledger bridgeAccount).free := rfl
    omega
  have htotal := AccountData.total_debit hle
  have hdust : ((T.currency.account s.ledger bridgeAccount).debit balanceTransfer).isDust
      T.currency.existentialDeposit = false := by
    refine decide_eq_false ?_
    unfold Currency.totalBalance at halive
    omega
  have haccount := hc.transfer_account _ _ _ _ _ balanceTransfer_pos hne htransfer
  have hissuance := hc.transfer_issuance _ _ _ _ _ balanceTransfer_pos hne htransfer
  rw [AccountData.reap, hdust] at haccount
  rw [AccountData.dust, hdust] at hissuance
  exact ⟨htransfer, haccount, hissuance⟩

/-- **The upgrade** goes through exactly when the bridge account can pay, and then moves the coins
and sets the liquidity rewards. -/
theorem onRuntimeUpgrade_ok_iff :
    ((∃ s', onRuntimeUpgrade T bridgeAccount s = .ok s') ↔ Payable T bridgeAccount s) ∧
      ∀ s', onRuntimeUpgrade T bridgeAccount s = .ok s' → Upgraded T bridgeAccount s s' := by
  rw [← transferKeepAlive_isSome_iff hc hne, Option.isSome_iff_exists]
  refine ⟨?_, ?_⟩
  · constructor
    · intro ⟨s', h⟩
      obtain ⟨ledger, hledger, _⟩ := onRuntimeUpgrade_eq_ok.mp h
      exact ⟨ledger, hledger⟩
    · intro ⟨ledger, hledger⟩
      exact ⟨_, onRuntimeUpgrade_eq_ok.mpr ⟨ledger, hledger, rfl⟩⟩
  · intro s' h
    obtain ⟨ledger, hledger, hs'⟩ := onRuntimeUpgrade_eq_ok.mp h
    obtain ⟨_, haccount, hissuance⟩ := transferKeepAlive_some hc hne hledger
    rw [hs']
    exact ⟨haccount, hissuance, rfl⟩

/-! ## When its checks pass -/

/-- The upgrade adds the transfer to what cannot be staked, and trades the liquidity rewards. -/
theorem unstakeable_upgraded (hcustody : T.currency.Leaves T.totalCustody)
    (hpublic : T.currency.Leaves T.publicAccounts)
    (hbridge : bridgeAccount ∉ T.publicAccounts s.ledger)
    (hpool : T.rewardsAccountId ∉ T.publicAccounts s.ledger)
    (h : onRuntimeUpgrade T bridgeAccount s = .ok s') :
    unstakeable T s' + s.liquidityRewards =
      unstakeable T s + balanceTransfer + balanceLiquidityRewards := by
  obtain ⟨ledger, hledger, hs'⟩ := onRuntimeUpgrade_eq_ok.mp h
  obtain ⟨htransfer, haccount, _⟩ := transferKeepAlive_some hc hne hledger
  have hrewards : T.currency.freeBalance ledger T.rewardsAccountId =
      T.currency.freeBalance s.ledger T.rewardsAccountId + balanceTransfer := by
    unfold Currency.freeBalance
    rw [haccount, Function.update_self]
    rfl
  have hfunds : (T.publicAccounts s.ledger).map (T.currency.freeBalance ledger) =
      (T.publicAccounts s.ledger).map (T.currency.freeBalance s.ledger) := by
    refine List.map_congr_left fun a ha => ?_
    unfold Currency.freeBalance
    rw [haccount, Function.update_of_ne (ne_of_mem_of_not_mem ha hpool),
      Function.update_of_ne (ne_of_mem_of_not_mem ha hbridge)]
  rw [hs']
  unfold unstakeable rewardsBalance
  dsimp only
  rw [hcustody.transfer _ _ _ _ _ htransfer, hpublic.transfer _ _ _ _ _ htransfer, hfunds,
    hrewards]
  omega

/-- **The upgrade with its checks** succeeds exactly when the bridge account can pay, the sums of
what cannot be staked do not overflow before or after, and the liquidity rewards were what is
moved and set together, or nothing can be staked at all. -/
theorem tryRuntimeUpgrade_ok_iff (hcustody : T.currency.Leaves T.totalCustody)
    (hpublic : T.currency.Leaves T.publicAccounts)
    (hbridge : bridgeAccount ∉ T.publicAccounts s.ledger)
    (hpool : T.rewardsAccountId ∉ T.publicAccounts s.ledger) :
    (∃ s', tryRuntimeUpgrade T bridgeAccount s = .ok s') ↔
      Payable T bridgeAccount s ∧ unstakeable T s < balanceLimit ∧
        unstakeable T s + balanceTransfer + balanceLiquidityRewards <
          balanceLimit + s.liquidityRewards ∧
        (s.liquidityRewards = balanceTransfer + balanceLiquidityRewards ∨
          (T.currency.totalIssuance s.ledger ≤ unstakeable T s ∧
            T.currency.totalIssuance s.ledger + s.liquidityRewards ≤
              unstakeable T s + balanceTransfer + balanceLiquidityRewards)) := by
  obtain ⟨hupgrade, hupgraded⟩ := onRuntimeUpgrade_ok_iff (s := s) hc hne
  rw [← hupgrade]
  constructor
  · intro ⟨s', h⟩
    simp only [tryRuntimeUpgrade, bind_eq_ok] at h
    obtain ⟨before, hbefore, s₁, hrun, _, hafter, hs'⟩ := h
    cases hs'
    obtain ⟨hlimit, rfl⟩ := preUpgrade_eq_ok.mp hbefore
    obtain ⟨hlimit', _, _, _, hstakeable, _⟩ := postUpgrade_eq_ok.mp hafter
    have hsum := unstakeable_upgraded hc hne hcustody hpublic hbridge hpool hrun
    rw [(hupgraded _ hrun).issuance] at hstakeable
    dsimp only at hstakeable
    exact ⟨⟨_, hrun⟩, hlimit, by omega, by omega⟩
  · rintro ⟨⟨s', hrun⟩, hlimit, hlimit', hstakeable⟩
    have hsum := unstakeable_upgraded hc hne hcustody hpublic hbridge hpool hrun
    have hleft := hupgraded _ hrun
    refine ⟨s', ?_⟩
    simp only [tryRuntimeUpgrade, bind_eq_ok]
    refine ⟨_, preUpgrade_eq_ok.mpr ⟨hlimit, rfl⟩, s', hrun, (), postUpgrade_eq_ok.mpr ?_, rfl⟩
    have hpayable := hupgrade.mp ⟨s', hrun⟩
    have hpaid := hleft.bridgeBalance hne hpayable
    have hgained := hleft.rewardsBalance
    have hpart : rewardsBalance T s' ≤ unstakeable T s' := by
      unfold unstakeable
      omega
    have hliquidity : s'.liquidityRewards = balanceLiquidityRewards := by
      rw [hleft.frame]
    have hfits : rewardsBalance T s + balanceTransfer < balanceLimit := by
      omega
    refine ⟨by omega, hpaid, hfits, hgained.symm, ?_, hliquidity⟩
    rw [hleft.issuance]
    dsimp only
    omega

end Checks

/-! ## On the mock runtime of the economics pallet -/

/-- The bridge account `7` has `100_000_000` coins with nine decimals, and the liquidity rewards
are `50_000_000`. -/
def mockBefore : Economics.State (Ledger Nat) :=
  { Economics.genesisBuild Economics.mockGenesis
      (Ledger.ofList [(0, { AccountData.absent with free := 1000 }),
        (7, { AccountData.absent with free := 100_000_000_000_000_000 })]) with
    liquidityRewards := 50_000_000_000_000_000 }

theorem mockRuntime_leaves {β : Type} (x : β) :
    (Economics.mockRuntime 1).currency.Leaves fun _ => x where
  transfer _ _ _ _ _ _ := rfl
  deposit _ _ _ := rfl
  settle _ _ _ _ _ := rfl
  burn _ _ := rfl
  issue _ _ := rfl
  dropPositive _ _ := rfl
  dropNegative _ _ := rfl
  unreserve _ _ _ := rfl

theorem tryRuntimeUpgrade_ok_iff_mock :
    ∃ s', tryRuntimeUpgrade (Economics.mockRuntime 1) 7 mockBefore = .ok s' :=
  (tryRuntimeUpgrade_ok_iff (Ledger.currency_lawful (by decide)) (by decide)
    (mockRuntime_leaves 1000) (mockRuntime_leaves [42, 43]) (by decide) (by decide)).mpr (by
      unfold Payable
      decide +kernel)

end XXChain.Migrations
