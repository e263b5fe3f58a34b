import XXChain.Claims.Preclaims
import XXChain.Lib.Holding

/-!
# XXChain — what a successful claim pays

`process_claim` deposits the claim, takes it out of `Total` and removes the entries of the
signer. It ignores what the deposit returns, and the currency refuses a deposit below the
existential deposit to an account that does not exist: such a claim is gone, and nobody has
it.

* **`spent_claim`** — a claim that was paid can be paid again only after it was minted or
  moved;
* **`claim_paid_exactly_iff`** — a successful claim pays exactly what was claimed, and a
  failing one changes nothing, when the claim is nothing, is at least the existential deposit,
  or goes to an account that exists, and not otherwise.
-/

namespace XXChain.Claims

open StorageMap

variable {A σ H : Type} [DecidableEq A] {T : Config A σ H} {s s' s₁ : State A σ H}
  {signer : EthereumAddress} {dest : A}

/-! ## Spent claims -/

/-- The action may give the address a claim: it mints one, or moves one to it. -/
def Gives (address : EthereumAddress) : Action A σ H → Prop
  | .call _ (.mintClaim who _ _ _) => who = address
  | .call _ (.moveClaim _ new _) => new = address
  | _ => False

/-- An action that gives no claim to an address without one leaves it without one. -/
theorem next_claims_none (a : Action A σ H) (hgives : ¬ Gives signer a)
    (hnone : s.claims.lookup signer = none) : (next T s a).claims.lookup signer = none := by
  cases a with
  | outside block ledger handler => exact hnone
  | call origin call =>
    have hpays : call.pays = true →
        (applyCall T s (origin, call)).claims.lookup signer = none := by
      intro hpays
      cases applyCall_pays T s origin hpays with
      | inr hsame => rw [hsame, hnone]
      | inl hpaid =>
        obtain ⟨other, dest, haddressed, hpayable, _⟩ := hpaid
        have hclaims := (haddressed.leaves hpayable hpays).1
        rw [hclaims]
        exact lookup_erase_of_none hnone _
    cases call with
    | claim dest signature => exact hpays rfl
    | claimAttest dest signature statement => exact hpays rfl
    | attest statement => exact hpays rfl
    | mintClaim who value vestingSchedules statement =>
      have hne : signer ≠ who := fun h => hgives h.symm
      show (applyCall T s (origin, _)).claims.lookup signer = none
      cases origin with
      | root => exact (Finmap.lookup_insert_of_ne _ hne).trans hnone
      | signed who => exact hnone
      | none => exact hnone
      | other n => exact hnone
    | moveClaim old new maybePreclaim =>
      have hne : signer ≠ new := fun h => hgives h.symm
      show (applyCall T s (origin, _)).claims.lookup signer = none
      unfold applyCall
      simp only [dispatch, moveClaim]
      cases ensureMove T origin with
      | error e => exact hnone
      | ok u =>
        show (moveEntry old new s.claims).lookup signer = none
        unfold moveEntry
        cases s.claims.lookup old with
        | none => exact hnone
        | some v =>
          rw [Finmap.lookup_insert_of_ne _ hne]
          exact lookup_erase_of_none hnone _

/-- Without a claim, no account can be paid, over any run that gives none. -/
theorem spent_claim (hnone : s.claims.lookup signer = none) {actions : List (Action A σ H)}
    (hgives : ∀ a ∈ actions, ¬ Gives signer a) (dest : A) :
    processClaim T signer dest (actions.foldl (next T) s) =
      .error (.module .signerHasNoClaim) := by
  induction actions generalizing s with
  | nil =>
    show (okOr (s.claims.lookup signer) _ >>= _) = _
    rw [hnone]
    rfl
  | cons a actions ih =>
    have hfirst := next_claims_none (T := T) a (hgives a List.mem_cons_self) hnone
    exact ih hfirst fun b hb => hgives b (List.mem_cons_of_mem a hb)

/-! ## What a claim pays -/

/-- What the storage has for an address. -/
structure Entries where
  claim : Option Nat
  vesting : Option (List Schedule)
  signing : Option StatementKind
  reward : Option Nat
  deriving DecidableEq

def Entries.none : Entries :=
  ⟨Option.none, Option.none, Option.none, Option.none⟩

def entries (s : State A σ H) (address : EthereumAddress) : Entries where
  claim := s.claims.lookup address
  vesting := s.vesting.lookup address
  signing := s.signing.lookup address
  reward := s.rewards.lookup address

/-- From `s` to `s'` exactly `v` is paid to the account, and the claim is spent. -/
structure PaidExactly (T : Config A σ H) (signer : EthereumAddress) (dest : A) (v : Nat)
    (s s' : State A σ H) : Prop where
  free : T.currency.freeBalance s'.ledger dest = T.currency.freeBalance s.ledger dest + v
  issuance : T.currency.totalIssuance s'.ledger = T.currency.totalIssuance s.ledger + v
  total : s'.total + v = s.total
  gone : entries s' signer = .none
  spent : ∀ actions : List (Action A σ H), (∀ a ∈ actions, ¬ Gives signer a) → ∀ dest,
    processClaim T signer dest (actions.foldl (next T) s') = .error (.module .signerHasNoClaim)
  others : ∀ address, address ≠ signer → entries s' address = entries s address

/-- A payment that succeeds pays exactly the claim, and a call whose payment fails changes
nothing. -/
structure ProcessExact (T : Config A σ H) (signer : EthereumAddress) (dest : A)
    (s : State A σ H) : Prop where
  paid : ∀ s', processClaim T signer dest s = .ok s' →
    ∃ v, s.claims.lookup signer = some v ∧ PaidExactly T signer dest v s s'
  unpaid : ∀ e call, processClaim T signer dest s = .error e → Addressed T s signer dest call →
    dispatch T call.1 call.2 s = .error e ∧ applyCall T s call = s

/-- The deposit of the claim is not refused. -/
def Deposited (T : Config A σ H) (signer : EthereumAddress) (dest : A) (s : State A σ H) :
    Prop :=
  let v := (s.claims.lookup signer).getD 0
  v = 0 ∨ T.currency.existentialDeposit ≤ v ∨ T.currency.totalBalance s.ledger dest ≠ 0

/-- A payment deposits the claim and adds its schedules, and nobody else's holding changes. -/
theorem holding_processClaim (hc : T.currency.Lawful) (ht : T.vestingSchedule.Lawful T.currency)
    (h : processClaim T signer dest s = .ok s₁) :
    holding T.currency T.vestingSchedule s₁.ledger =
      Function.update (holding T.currency T.vestingSchedule s.ledger) dest
        (((holding T.currency T.vestingSchedule s.ledger dest).deposit
          T.currency.existentialDeposit ((s.claims.lookup signer).getD 0)).vest
          T.vestingSchedule.maxSchedules s.block ((s.vesting.lookup signer).getD [])) := by
  obtain ⟨v, hclaim, _, _, rfl⟩ := processClaim_eq_ok.mp h
  show holding _ _ (addSchedules T s.block dest _ _) = _
  rw [addSchedules, holding_foldl_tryAdd ht, holding_dropPositive hc ht, holding_deposit hc ht,
    Function.update_self, Function.update_idem, hclaim]
  rfl

/-- The coins that a payment deposits and issues. -/
theorem processClaim_coins (hc : T.currency.Lawful) (ht : T.vestingSchedule.Lawful T.currency)
    (h : processClaim T signer dest s = .ok s₁) :
    let accepted := Currency.accepted T.currency.existentialDeposit
      ((s.claims.lookup signer).getD 0) (T.currency.totalBalance s.ledger dest)
    T.currency.freeBalance s₁.ledger dest = T.currency.freeBalance s.ledger dest + accepted ∧
      T.currency.totalIssuance s₁.ledger = T.currency.totalIssuance s.ledger + accepted := by
  have hheld := congrFun (holding_processClaim hc ht h) dest
  rw [Function.update_self] at hheld
  refine ⟨congrArg Holding.free hheld, ?_⟩
  obtain ⟨v, hclaim, _, _, rfl⟩ := processClaim_eq_ok.mp h
  rw [hclaim]
  show T.currency.totalIssuance (addSchedules T s.block dest _ _) = _
  rw [addSchedules, ht.foldl_tryAdd_issuance, hc.dropPositive_issuance, hc.deposit_issuance,
    hc.deposit_imbalance_accepted]
  rfl

/-- The claim is paid, as far as the currency accepts the deposit, and announced, and it is gone. -/
structure Pays (T : Config A σ H) (signer : EthereumAddress) (dest : A) (v : Nat)
    (s s' : State A σ H) : Prop where
  claimed : s.claims.lookup signer = some v
  claims : s'.claims = s.claims.erase signer
  events : ∃ reward, s'.events = s.events ++ [.claimed dest signer v reward]
  free : T.currency.freeBalance s'.ledger dest = T.currency.freeBalance s.ledger dest +
    Currency.accepted T.currency.existentialDeposit v (T.currency.totalBalance s.ledger dest)

/-- So does every call that pays. -/
theorem PaidBy.pays (hc : T.currency.Lawful) (ht : T.vestingSchedule.Lawful T.currency)
    (h : PaidBy T s s' signer dest) : ∃ v, Pays T signer dest v s s' := by
  obtain ⟨s₁, hprocess, hs'⟩ := h
  have hcoins := (processClaim_coins hc ht hprocess).1
  obtain ⟨v, hclaim, _, _, hs₁⟩ := processClaim_eq_ok.mp hprocess
  rw [hclaim, Option.getD_some] at hcoins
  have hledger : s'.ledger = s₁.ledger := by rw [hs']
  refine ⟨v, hclaim, ?_, ⟨(s.rewards.lookup signer).getD 0, ?_⟩, ?_⟩
  · rw [hs', hs₁]
    rfl
  · rw [hs', hs₁]
    rfl
  · rw [hledger]
    exact hcoins

/-- Whoever calls, no account holds less than before. -/
theorem free_le_dispatch (hc : T.currency.Lawful) (ht : T.vestingSchedule.Lawful T.currency)
    {origin : Origin A} {call : Call A} {s' : State A σ H}
    (h : dispatch T origin call s = .ok s') (a : A) :
    T.currency.freeBalance s.ledger a ≤ T.currency.freeBalance s'.ledger a := by
  have hpaid : ∀ {signer dest}, PaidBy T s s' signer dest →
      T.currency.freeBalance s.ledger a ≤ T.currency.freeBalance s'.ledger a := by
    rintro signer dest ⟨s₁, hprocess, hs'⟩
    have hheld := congrFun (holding_processClaim hc ht hprocess) a
    rw [hs']
    by_cases hdest : a = dest
    · rw [hdest, Function.update_self] at hheld
      have hfree := congrArg Holding.free hheld
      rw [hdest]
      exact (Nat.le_add_right _ _).trans hfree.ge
    · rw [Function.update_of_ne hdest] at hheld
      exact (congrArg Holding.free hheld).ge
  cases call with
  | claim | claimAttest | attest =>
    obtain ⟨signer, dest, _, hpaidBy⟩ := dispatch_pays rfl h
    exact hpaid hpaidBy
  | mintClaim | moveClaim =>
    obtain ⟨_, _, _, _, _, rfl⟩ := dispatch_frame rfl h
    exact le_rfl

omit [DecidableEq A] in
/-- What a payment leaves of the entries of an address. -/
theorem entries_processClaim (h : processClaim T signer dest s = .ok s₁)
    (address : EthereumAddress) :
    entries s₁ address = if address = signer then .none else entries s address := by
  obtain ⟨_, _, _, _, rfl⟩ := processClaim_eq_ok.mp h
  by_cases hsigner : address = signer
  · rw [if_pos hsigner, hsigner]
    show Entries.mk _ _ _ _ = .none
    simp only [payment, Finmap.lookup_erase]
    rfl
  · rw [if_neg hsigner]
    show Entries.mk _ _ _ _ = _
    simp only [payment, Finmap.lookup_erase_ne hsigner]
    rfl

omit [DecidableEq A] in
/-- A deposit is made whole exactly when it is not refused. -/
theorem accepted_eq_iff {v : Nat} (hclaim : s.claims.lookup signer = some v) :
    Currency.accepted T.currency.existentialDeposit v (T.currency.totalBalance s.ledger dest) = v ↔
      Deposited T signer dest s := by
  unfold Deposited Currency.accepted
  rw [hclaim, Option.getD_some]
  split <;> omega

omit [DecidableEq A] in
theorem total_processClaim (h : processClaim T signer dest s = .ok s₁) :
    s₁.total = s.total - (s.claims.lookup signer).getD 0 := by
  obtain ⟨v, hclaim, _, _, rfl⟩ := processClaim_eq_ok.mp h
  rw [hclaim]
  rfl

/-- A payment that is made, with a deposit that is not refused, pays the claim. -/
theorem paidExactly_of_deposited (hc : T.currency.Lawful)
    (ht : T.vestingSchedule.Lawful T.currency) {v : Nat}
    (hclaim : s.claims.lookup signer = some v) (hcovered : v ≤ s.total)
    (hdeposited : Deposited T signer dest s) (h : processClaim T signer dest s = .ok s₁) :
    PaidExactly T signer dest v s s₁ := by
  obtain ⟨hfree, hissuance⟩ := processClaim_coins hc ht h
  have htotal := total_processClaim h
  have hentries := entries_processClaim h
  have haccepted := (accepted_eq_iff hclaim).mpr hdeposited
  rw [hclaim, Option.getD_some, haccepted] at hfree hissuance
  rw [hclaim, Option.getD_some] at htotal
  have hgone : entries s₁ signer = .none := by rw [hentries, if_pos rfl]
  constructor
  case free => exact hfree
  case issuance => exact hissuance
  case total => omega
  case gone => exact hgone
  case spent =>
    intro actions hgives dest
    exact spent_claim (congrArg Entries.claim hgone) hgives dest
  case others =>
    intro address hne
    rw [hentries, if_neg hne]

/-- For every state, signer and destination: a payment that succeeds pays exactly what is
claimed, and one that fails changes nothing, exactly when the claim, if it can be paid, is
nothing, or at least the existential deposit, or its destination exists. -/
theorem claim_paid_exactly_iff (hc : T.currency.Lawful)
    (ht : T.vestingSchedule.Lawful T.currency) (signer : EthereumAddress) (dest : A)
    (s : State A σ H) :
    ProcessExact T signer dest s ↔
      (Payable T s signer dest → Deposited T signer dest s) := by
  constructor
  · intro h hpayable
    obtain ⟨s₁, hs₁⟩ := processClaim_ok_iff.mpr hpayable
    obtain ⟨v, hclaim, hpaid⟩ := h.paid s₁ hs₁
    have hfree := (processClaim_coins hc ht hs₁).1
    rw [hpaid.free, hclaim, Option.getD_some] at hfree
    exact (accepted_eq_iff hclaim).mp (Nat.add_left_cancel hfree).symm
  · intro h
    refine ⟨?_, ?_⟩
    · intro s₁ hs₁
      have hpayable : Payable T s signer dest := processClaim_ok_iff.mp ⟨s₁, hs₁⟩
      have hdeposited := h hpayable
      obtain ⟨v, hclaim, hcovered, _⟩ := hpayable
      exact ⟨v, hclaim, paidExactly_of_deposited hc ht hclaim hcovered hdeposited hs₁⟩
    · intro e call hfail haddressed
      have hdispatch : dispatch T call.1 call.2 s = .error e := haddressed.dispatch_error hfail
      refine ⟨hdispatch, ?_⟩
      unfold applyCall
      rw [hdispatch]

/-- The mock runtime with an existential deposit. -/
def mockDeposit (existentialDeposit : Nat) :
    Config Nat (VestedLedger Nat) (List (Nat × Nat × Nat)) :=
  mockConfig (VestedLedger.currency existentialDeposit) (VestedLedger.vesting 28) mockHandler

/-- The claim of `100` to a new account is paid in full under an existential deposit of `10`. -/
theorem claim_paid_exactly_mock :
    ProcessExact (mockDeposit 10) (mockAddress 1) 42 (genesisBuild mockGenesis mockLedger []) :=
  (claim_paid_exactly_iff ((Ledger.currency_lawful (by decide)).along VestedLedger.ledgerPart)
    (VestedLedger.vesting_lawful 28 10) (mockAddress 1) 42 _).mpr
      fun _ => Or.inr (Or.inl (by decide))

/-- Under one of `200` the claim succeeds, and its coins are gone. -/
theorem claim_is_burned :
    (∃ s', processClaim (mockDeposit 200) (mockAddress 1) 42
        (genesisBuild mockGenesis mockLedger []) = .ok s' ∧
      s'.claims.lookup (mockAddress 1) = none ∧ s'.total = 200 ∧
      (mockDeposit 200).currency.freeBalance s'.ledger 42 = 0 ∧
      (mockDeposit 200).currency.totalIssuance s'.ledger = 0) ∧
    ¬ ProcessExact (mockDeposit 200) (mockAddress 1) 42
      (genesisBuild mockGenesis mockLedger []) := by
  refine ⟨⟨_, rfl, rfl, rfl, rfl, rfl⟩, fun h => ?_⟩
  obtain ⟨v, hv, hpaid⟩ := h.paid _ rfl
  have hclaim : v = 100 := (Option.some.inj hv).symm
  have hfree : 0 = 0 + v := hpaid.free
  omega

end XXChain.Claims
