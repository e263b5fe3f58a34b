import Mathlib.Data.Nat.Pairing
import XXChain.Custody.TotalCustody

/-!
# XXChain — the registry of the custody accounts and their proxies

`CustodyAccounts` is an index of `TeamAccounts` by custody account (`Indexed`), and tells which
accounts may have a proxy. The proxy pallet keeps the proxies of an account and the deposit
for them, which the currency reserves.

* **`deposits_payout`** and **`deposits_setProxy`** — what the calls do to the proxies and the
  reserves of the custody accounts;
* **`registered_next`** — one step;
* **`registry_in_order`** — over any run from genesis: the two maps agree, each custody account
  has one proxy at most, for the purpose of the custody, with its deposit reserved, and an account
  that is no custody account any more has none.
-/

namespace XXChain.Custody

open Function StorageMap

variable {A σ : Type} [DecidableEq A] {T : Config A σ} {s s' : State A σ} {ledger ledger' : σ}
  {who source a b : A} {info : CustodyInfo A} {amount : Nat} {event : Event A}

/-! ## The accounts without a key -/

def custodyAccount (T : Config A σ) (owner : A) : A :=
  T.proxies.pureAccount owner T.custodyProxy 0

def reserveAccount (T : Config A σ) (owner : A) : A :=
  T.proxies.pureAccount owner T.custodyProxy 1

/-- The documented behaviour of the proxy pallet: the accounts that it derives are distinct, the
proxies of an account are removed at once, and adding one reserves the difference of the deposits.
The currency has no part in proxies. -/
structure Config.ProxiesLawful (T : Config A σ) : Prop where
  pureAccount_injective : ∀ owner owner' index index',
    T.proxies.pureAccount owner T.custodyProxy index =
      T.proxies.pureAccount owner' T.custodyProxy index' → owner = owner' ∧ index = index'
  leaves_proxies : T.currency.Leaves T.proxies.proxies
  remove_proxies : ∀ l a,
    T.proxies.proxies (T.proxies.remove l a) = update (T.proxies.proxies l) a ([], 0)
  add_proxies : ∀ l a delegate proxyType delay l',
    T.proxies.addProxyDelegate l a delegate proxyType delay = some l' →
    ∃ deposit, T.proxies.proxies l' = update (T.proxies.proxies l) a
        ((T.proxies.proxies l a).1 ++ [⟨delegate, proxyType, delay⟩], deposit) ∧
      (T.currency.account l' a).reserved + (T.proxies.proxies l a).2 =
        (T.currency.account l a).reserved + deposit ∧
      ∀ b, b ≠ a → T.currency.account l' b = T.currency.account l b

theorem custodyAccount_ne (hP : T.ProxiesLawful) (owner owner' : A) :
    custodyAccount T owner ≠ reserveAccount T owner' := by
  intro h
  have hindex := (hP.pureAccount_injective _ _ _ _ h).2
  omega

/-! ## Proxies and reserves -/

/-- The account has the same proxies, with the same deposit, and the same reserve. -/
structure SameDeposit (T : Config A σ) (ledger ledger' : σ) (a : A) : Prop where
  proxies : T.proxies.proxies ledger' a = T.proxies.proxies ledger a
  reserved : (T.currency.account ledger' a).reserved = (T.currency.account ledger a).reserved

omit [DecidableEq A] in
theorem SameDeposit.refl (T : Config A σ) (ledger : σ) (a : A) : SameDeposit T ledger ledger a :=
  ⟨rfl, rfl⟩

omit [DecidableEq A] in
theorem SameDeposit.trans {ledger₁ ledger₂ ledger₃ : σ} (h : SameDeposit T ledger₁ ledger₂ a)
    (h' : SameDeposit T ledger₂ ledger₃ a) : SameDeposit T ledger₁ ledger₃ a :=
  ⟨h'.proxies.trans h.proxies, h'.reserved.trans h.reserved⟩

/-- One proxy at most, for the purpose of the custody and without a delay, and its deposit is
what the account has reserved. -/
structure ProxyInOrder (T : Config A σ) (ledger : σ) (a : A) : Prop where
  proxies : (T.proxies.proxies ledger a).1 = [] ∨ ∃ delegate,
    (T.proxies.proxies ledger a).1 = [{ delegate, proxyType := T.custodyProxy, delay := 0 }]
  reserved : (T.currency.account ledger a).reserved = (T.proxies.proxies ledger a).2

/-- Neither a proxy nor a deposit for one. -/
structure NoProxy (T : Config A σ) (ledger : σ) (a : A) : Prop where
  proxies : T.proxies.proxies ledger a = ([], 0)
  reserved : (T.currency.account ledger a).reserved = 0

omit [DecidableEq A] in
theorem NoProxy.inOrder (h : NoProxy T ledger a) : ProxyInOrder T ledger a := by
  constructor
  · rw [h.proxies]
    exact Or.inl rfl
  · rw [h.proxies, h.reserved]

omit [DecidableEq A] in
theorem ProxyInOrder.same (h : ProxyInOrder T ledger a) (hsame : SameDeposit T ledger ledger' a) :
    ProxyInOrder T ledger' a := by
  constructor
  · rw [hsame.proxies]
    exact h.proxies
  · rw [hsame.proxies, hsame.reserved]
    exact h.reserved

omit [DecidableEq A] in
theorem NoProxy.same (h : NoProxy T ledger a) (hsame : SameDeposit T ledger ledger' a) :
    NoProxy T ledger' a :=
  ⟨hsame.proxies.trans h.proxies, hsame.reserved.trans h.reserved⟩

/-! ## Setting a proxy -/

theorem proxies_removeCustodyProxies (hP : T.ProxiesLawful) :
    T.proxies.proxies (removeCustodyProxies T a ledger) =
      update (T.proxies.proxies ledger) a ([], 0) := by
  show T.proxies.proxies (T.currency.unreserve _ a _) = _
  rw [hP.leaves_proxies.unreserve, hP.remove_proxies]

/-- Removing the proxies leaves none, and nothing of their deposit. -/
theorem noProxy_removeCustodyProxies (hT : T.Lawful) (hP : T.ProxiesLawful)
    (h : (T.currency.account ledger a).reserved = (T.proxies.proxies ledger a).2) :
    NoProxy T (removeCustodyProxies T a ledger) a := by
  constructor
  · rw [proxies_removeCustodyProxies hP, update_self]
  · rw [account_removeCustodyProxies hT, update_self, ← h]
    show _ - min _ _ = 0
    omega

theorem sameDeposit_removeCustodyProxies (hT : T.Lawful) (hP : T.ProxiesLawful) (hne : b ≠ a) :
    SameDeposit T ledger (removeCustodyProxies T a ledger) b := by
  constructor
  · rw [proxies_removeCustodyProxies hP, update_of_ne hne]
  · rw [account_removeCustodyProxies hT, update_of_ne hne]

/-- The account gets the one proxy that it is to have; all others keep theirs. -/
theorem deposits_setProxy {proxy : A} (hT : T.Lawful) (hP : T.ProxiesLawful)
    (h : (T.currency.account ledger a).reserved = (T.proxies.proxies ledger a).2)
    (hset : setCustodyGovernanceProxy T a proxy ledger = .ok ledger') :
    ProxyInOrder T ledger' a ∧ ∀ b, b ≠ a → SameDeposit T ledger ledger' b := by
  simp only [setCustodyGovernanceProxy, called, okOr_eq_ok] at hset
  have hnone := noProxy_removeCustodyProxies hT hP h
  obtain ⟨deposit, hproxies, hreserved, hothers⟩ := hP.add_proxies _ _ _ _ _ _ hset
  rw [hnone.proxies] at hproxies hreserved
  rw [hnone.reserved] at hreserved
  refine ⟨⟨Or.inr ⟨proxy, ?_⟩, ?_⟩, ?_⟩
  · rw [hproxies, update_self]
    rfl
  · rw [hproxies, update_self]
    show _ = deposit
    omega
  · intro b hb
    apply (sameDeposit_removeCustodyProxies hT hP hb).trans
    constructor
    · rw [hproxies, update_of_ne hb]
    · rw [hothers b hb]

/-! ## Payouts -/

/-- A transfer leaves the proxies and the reserves alone, unless what is left of the account that
pays is reaped with its reserve. -/
theorem transferPayout_deposit (hT : T.Lawful) (hP : T.ProxiesLawful)
    (h : transferPayout T source who amount event s = .ok s')
    (hsource : a = source → (T.currency.account s.ledger source).reserved = 0 ∨
      amount ≤ T.currency.reducibleBalance s.ledger source true) :
    SameDeposit T s.ledger s'.ledger a := by
  by_cases hself : source = who
  · have hledger : s'.ledger = s.ledger := by
      unfold transferPayout at h
      split at h
      · cases h
        rfl
      · rw [hT.currency.transfer_noop _ _ _ _ (Or.inr hself)] at h
        cases h
        rfl
    rw [hledger]
    exact .refl T _ a
  · constructor
    · unfold transferPayout at h
      split at h
      · cases h
        rfl
      · simp only [bind_eq_ok, called, okOr_eq_ok] at h
        obtain ⟨ledger, htransfer, hs'⟩ := h
        cases hs'
        show T.proxies.proxies ledger a = _
        rw [hP.leaves_proxies.transfer _ _ _ _ _ htransfer]
    · rw [transferPayout_ok hT hself h]
      by_cases hwho : a = who
      · rw [hwho, update_self]
        rfl
      · rw [update_of_ne hwho]
        by_cases ha : a = source
        · rw [ha, update_self]
          rcases hsource ha with hzero | hle
          · rw [hzero, AccountData.reserved_withdraw_of_zero hzero]
          · rw [hT.currency.reducibleBalance_eq] at hle
            exact AccountData.reserved_withdraw hle
        · rw [update_of_ne ha]

/-- A payout leaves the proxies and the reserves of all accounts but the reserve account alone. -/
theorem deposits_payout {keepAlive : Bool} (hT : T.Lawful) (hP : T.ProxiesLawful)
    (h : doPayout T who amount info keepAlive s = .ok s')
    (hcustody : keepAlive = true ∨ (T.currency.account s.ledger info.custody).reserved = 0)
    (hreserve : a ≠ info.reserve) : SameDeposit T s.ledger s'.ledger a := by
  obtain ⟨⟨s₁, s₂, _, _, h₁, h₂, hledger⟩, _⟩ := doPayout_ok h
  rw [hledger]
  apply (transferPayout_deposit hT hP h₁ _).trans
    (transferPayout_deposit hT hP h₂ fun heq => absurd heq hreserve)
  intro _
  rcases hcustody with rfl | hzero
  · right
    simp only [withdrawals, if_true]
    exact min_le_right _ _
  · exact Or.inl hzero

/-! ## The registry -/

/-- The index is right, the accounts of the members are derived from an owner each, and the
proxies of all custody accounts are in order. -/
structure Registered (T : Config A σ) (s : State A σ) : Prop where
  index : Indexed CustodyInfo.custody s.teamAccounts s.custodyAccounts
  derived : Each (fun info => ∃ owner, info.custody = custodyAccount T owner ∧
    info.reserve = reserveAccount T owner) s.teamAccounts
  proxies : ∀ owner, ProxyInOrder T s.ledger (custodyAccount T owner)
  departed : ∀ owner, s.custodyAccounts.lookup (custodyAccount T owner) = none →
    NoProxy T s.ledger (custodyAccount T owner)

/-- Nothing that the registry is about changes. -/
theorem Registered.of_same (hs : Registered T s)
    (hteam : s'.teamAccounts = s.teamAccounts) (hcustody : s'.custodyAccounts = s.custodyAccounts)
    (hsame : ∀ owner, SameDeposit T s.ledger s'.ledger (custodyAccount T owner)) :
    Registered T s' := by
  constructor
  · rw [hteam, hcustody]
    exact hs.index
  · rw [hteam]
    exact hs.derived
  · exact fun owner => (hs.proxies owner).same (hsame owner)
  · intro owner hnone
    rw [hcustody] at hnone
    exact (hs.departed owner hnone).same (hsame owner)

/-! ### The calls -/

/-- A custody account gets another proxy. -/
theorem Registered.setProxy {proxy : A} (hT : T.Lawful) (hP : T.ProxiesLawful)
    (hs : Registered T s) (ha : (s.custodyAccounts.lookup a).isSome)
    (hset : setCustodyGovernanceProxy T a proxy s.ledger = .ok ledger) :
    Registered T { s with ledger } := by
  have hdeposit : (T.currency.account s.ledger a).reserved = (T.proxies.proxies s.ledger a).2 := by
    obtain ⟨who, info, hinfo, rfl⟩ := (hs.index.keys a).mp ha
    obtain ⟨owner, hcustody, _⟩ := hs.derived who info hinfo
    rw [hcustody]
    exact (hs.proxies owner).reserved
  obtain ⟨hproxy, hothers⟩ := deposits_setProxy hT hP hdeposit hset
  refine ⟨hs.index, hs.derived, fun owner => ?_, fun owner hnone => ?_⟩
  · by_cases howner : custodyAccount T owner = a
    · rw [howner]
      exact hproxy
    · exact (hs.proxies owner).same (hothers _ howner)
  · have hne : custodyAccount T owner ≠ a := by
      rintro rfl
      rw [Option.isSome_iff_ne_none] at ha
      exact ha hnone
    exact (hs.departed owner hnone).same (hothers _ hne)

/-- A payout before the end writes the vested amount of a member. -/
theorem Registered.payout_due (hT : T.Lawful) (hP : T.ProxiesLawful) (hs : Registered T s)
    (hinfo : s.teamAccounts.lookup who = some info)
    (h : doPayout T who amount info true s = .ok s') : Registered T s' := by
  obtain ⟨owner₀, hcustody₀, hreserve₀⟩ := hs.derived who info hinfo
  have hcustody := doPayout_custodyAccounts h
  obtain ⟨_, _, _, hteam⟩ := doPayout_ok h
  rw [if_pos rfl] at hcustody hteam
  have hsame : ∀ owner, SameDeposit T s.ledger s'.ledger (custodyAccount T owner) := by
    intro owner
    apply deposits_payout hT hP h (Or.inl rfl)
    rw [hreserve₀]
    exact custodyAccount_ne hP owner owner₀
  constructor
  · rw [hteam, hcustody]
    exact hs.index.set hinfo rfl
  · rw [hteam]
    exact hs.derived.insert who ⟨owner₀, hcustody₀, hreserve₀⟩
  · exact fun owner => (hs.proxies owner).same (hsame owner)
  · intro owner hnone
    rw [hcustody] at hnone
    exact (hs.departed owner hnone).same (hsame owner)

/-- The last payout takes the member and the custody account out of the registry, and leaves the
account without a proxy. -/
theorem Registered.payout_last (hT : T.Lawful) (hP : T.ProxiesLawful) (hs : Registered T s)
    (hinfo : s.teamAccounts.lookup who = some info) (h : lastPayout T who info s = .ok s') :
    Registered T s' := by
  obtain ⟨owner₀, hcustody₀, hreserve₀⟩ := hs.derived who info hinfo
  obtain ⟨ledger, s₁, hledger, hpay, rfl⟩ := lastPayout_cases h
  have hunstaked : ∀ a, SameDeposit T s.ledger ledger a := by
    intro a
    rcases hledger with ⟨_, rfl⟩ | ⟨_, hunstake⟩
    · exact .refl T _ a
    · constructor
      · rw [hT.forceUnstake_proxies _ _ _ hunstake]
      · have haccount := hT.forceUnstake_account _ _ _ hunstake
        by_cases ha : a = info.custody
        · rw [ha, haccount.self]
        · rw [haccount.of_ne ha]
  have hdeposit := ((hs.proxies owner₀).same (hunstaked _)).reserved
  rw [← hcustody₀] at hdeposit
  have hremoved := noProxy_removeCustodyProxies hT hP hdeposit
  have hpaid : ∀ owner, SameDeposit T (removeCustodyProxies T info.custody ledger) s₁.ledger
      (custodyAccount T owner) := by
    intro owner
    apply deposits_payout hT hP hpay (Or.inr hremoved.reserved)
    rw [hreserve₀]
    exact custodyAccount_ne hP owner owner₀
  have hnone : ∀ owner, custodyAccount T owner = info.custody →
      NoProxy T s₁.ledger (custodyAccount T owner) := by
    intro owner howner
    have hsame := hpaid owner
    rw [howner] at hsame ⊢
    exact hremoved.same hsame
  have hothers : ∀ owner, custodyAccount T owner ≠ info.custody →
      SameDeposit T s.ledger s₁.ledger (custodyAccount T owner) := fun owner howner =>
    (hunstaked _).trans ((sameDeposit_removeCustodyProxies hT hP howner).trans (hpaid owner))
  have hcustody : s₁.custodyAccounts = s.custodyAccounts.erase info.custody :=
    doPayout_custodyAccounts hpay
  have hteam : s₁.teamAccounts = s.teamAccounts.erase who := (doPayout_ok hpay).2.2.2
  constructor
  · show Indexed _ s₁.teamAccounts s₁.custodyAccounts
    rw [hteam, hcustody]
    exact hs.index.erase hinfo
  · show Each _ s₁.teamAccounts
    rw [hteam]
    exact hs.derived.erase who
  · intro owner
    by_cases howner : custodyAccount T owner = info.custody
    · exact (hnone owner howner).inOrder
    · exact (hs.proxies owner).same (hothers owner howner)
  · intro owner hgone
    by_cases howner : custodyAccount T owner = info.custody
    · exact hnone owner howner
    · have hbefore : s₁.custodyAccounts.lookup (custodyAccount T owner) = none := hgone
      rw [hcustody, Finmap.lookup_erase_ne howner] at hbefore
      exact (hs.departed owner hbefore).same (hothers owner howner)

theorem Registered.payout {origin : Origin A} (hT : T.Lawful) (hP : T.ProxiesLawful)
    (hs : Registered T s) (h : payout T origin who s = .ok s') : Registered T s' := by
  obtain ⟨info, hinfo, ⟨_, hlast⟩ | ⟨_, hdue⟩⟩ := payout_cases h
  · exact hs.payout_last hT hP hinfo hlast
  · exact hs.payout_due hT hP hinfo hdue

/-- A member is replaced in one of the maps only. -/
theorem Registered.replace {origin : Origin A} {new : A} (hs : Registered T s)
    (h : replaceTeamMember T origin who new s = .ok s') : Registered T s' := by
  obtain ⟨info, hinfo, hnew, rfl⟩ := replaceTeamMember_eq h
  constructor
  · exact hs.index.rekey hinfo hnew
  · exact (hs.derived.erase who).insert new (hs.derived who info hinfo)
  · exact hs.proxies
  · exact hs.departed

/-! ### One step -/

/-- The calls that hand a custody account to the staking pallet. -/
def Call.bonds : Call A → Bool
  | .custodyBond _ _ _ => true
  | .custodyBondExtra _ _ => true
  | .custodySetController _ _ => true
  | _ => false

/-- The other pallets leave the proxies and the reserves of the custody accounts alone, both
between the calls and when a custodian bonds. -/
def Undisturbed (T : Config A σ) (s : State A σ) : Action A σ → Prop
  | .call origin call => call.bonds = true →
      ∀ owner, SameDeposit T s.ledger (applyCall T s origin call).ledger (custodyAccount T owner)
  | .outside _ ledger => ∀ owner, SameDeposit T s.ledger ledger (custodyAccount T owner)

theorem Registered.books (hs : Registered T s) (h : SameBooks s s')
    (hsame : ∀ owner, SameDeposit T s.ledger s'.ledger (custodyAccount T owner)) :
    Registered T s' :=
  hs.of_same h.teamAccounts h.custodyAccounts hsame

theorem Registered.dispatch {origin : Origin A} {call : Call A} (hT : T.Lawful)
    (hP : T.ProxiesLawful) (hs : Registered T s) (h : dispatch T origin call s = .ok s')
    (hbonds : call.bonds = true →
      ∀ owner, SameDeposit T s.ledger s'.ledger (custodyAccount T owner)) :
    Registered T s' := by
  cases call with
  | payout who =>
    exact hs.payout hT hP h
  | custodyBond custody controller value =>
    unfold Custody.dispatch custodyBond at h
    exact hs.books (asCustodian_books h) (hbonds rfl)
  | custodyBondExtra custody value =>
    unfold Custody.dispatch custodyBondExtra at h
    exact hs.books (asCustodian_books h) (hbonds rfl)
  | custodySetController custody controller =>
    unfold Custody.dispatch custodySetController at h
    exact hs.books (asCustodian_books h) (hbonds rfl)
  | custodySetProxy custody proxy =>
    obtain ⟨hcustody, ledger, hset, rfl⟩ := asCustodian_ok h
    exact hs.setProxy hT hP hcustody hset
  | teamCustodySetProxy proxy =>
    obtain ⟨_, info, ledger, hinfo, hset, rfl⟩ := teamCustodySetProxy_ok h
    exact hs.setProxy hT hP (hs.index.mem hinfo) hset
  | addCustodian custodian =>
    rw [addCustodian_ok h]
    exact hs.of_same rfl rfl fun owner => .refl T _ _
  | removeCustodian custodian =>
    rw [removeCustodian_ok h]
    exact hs.of_same rfl rfl fun owner => .refl T _ _
  | replaceTeamMember who new =>
    exact hs.replace h

theorem registered_next (hT : T.Lawful) (hP : T.ProxiesLawful) (s : State A σ) (a : Action A σ)
    (hs : Registered T s) (hquiet : Undisturbed T s a) : Registered T (next T s a) := by
  cases a with
  | outside blocks ledger =>
    exact hs.of_same rfl rfl hquiet
  | call origin call =>
    show Registered T (applyCall T s origin call)
    rcases applyCall_cases T s origin call with hsame | hok
    · rw [hsame]
      exact hs
    · exact hs.dispatch hT hP hok hquiet

/-! ## Genesis -/

/-- A deposit changes no proxy, and only what is free of the account. -/
theorem sameDeposit_depositIssued (hT : T.Lawful) (hP : T.ProxiesLawful) (ledger : σ) (a : A)
    (amount : Nat) (b : A) : SameDeposit T ledger (depositIssued T ledger a amount) b := by
  constructor
  · show T.proxies.proxies (T.currency.dropPositive _ _) b = _
    rw [hP.leaves_proxies.dropPositive, hP.leaves_proxies.deposit]
  · show (T.currency.account (T.currency.dropPositive _ _) b).reserved = _
    rw [hT.currency.dropPositive_account]
    rcases hT.currency.deposit_cases ledger a amount with hnone | ⟨_, hsets⟩
    · rw [hnone]
    · by_cases hb : b = a
      · rw [hb, hsets.self]
        rfl
      · rw [hsets.of_ne hb]

/-- The registry while the genesis is built: each member has the accounts that are derived from
it, and no account has a proxy yet. -/
structure Opened (T : Config A σ) (s : State A σ) : Prop where
  index : Indexed CustodyInfo.custody s.teamAccounts s.custodyAccounts
  derived : ∀ who info, s.teamAccounts.lookup who = some info →
    info.custody = custodyAccount T who ∧ info.reserve = reserveAccount T who
  proxies : ∀ owner, NoProxy T s.ledger (custodyAccount T owner)

theorem Opened.registered (h : Opened T s) : Registered T s where
  index := h.index
  derived who info hinfo := ⟨who, h.derived who info hinfo⟩
  proxies owner := (h.proxies owner).inOrder
  departed owner _ := h.proxies owner

/-- A member that the list names twice keeps its accounts. -/
theorem Opened.initializeCustody (hT : T.Lawful) (hP : T.ProxiesLawful) (hs : Opened T s)
    (who : A) (amount : Nat) : Opened T (initializeCustody T who amount s) := by
  constructor
  · show Indexed _ (s.teamAccounts.insert who (newMember T who amount))
      (s.custodyAccounts.insert (custodyAccount T who) ())
    cases hwho : s.teamAccounts.lookup who with
    | some info =>
      have hcustody := (hs.derived who info hwho).1
      have hmem := hs.index.mem hwho
      rw [hcustody] at hmem
      obtain ⟨u, hu⟩ := Option.isSome_iff_exists.mp hmem
      rw [insert_of_lookup hu]
      exact hs.index.set hwho hcustody.symm
    | none =>
      apply hs.index.insert hwho
      -- the account of another member is derived from another owner
      rw [← Option.not_isSome_iff_eq_none, hs.index.keys]
      rintro ⟨who', info, hinfo, hsame⟩
      rw [(hs.derived who' info hinfo).1] at hsame
      have howner : who' = who := (hP.pureAccount_injective _ _ _ _ hsame).1
      rw [howner, hwho] at hinfo
      cases hinfo
  · intro who' info hinfo
    rw [initializeCustody_teamAccounts] at hinfo
    by_cases howner : who' = who
    · rw [howner, Finmap.lookup_insert] at hinfo
      cases hinfo
      rw [howner]
      exact ⟨rfl, rfl⟩
    · rw [Finmap.lookup_insert_of_ne _ howner] at hinfo
      exact hs.derived who' info hinfo
  · intro owner
    show NoProxy T (depositIssued T (depositIssued T s.ledger _ _) _ _) _
    exact ((hs.proxies owner).same (sameDeposit_depositIssued hT hP _ _ _ _)).same
      (sameDeposit_depositIssued hT hP _ _ _ _)

theorem registered_genesis (hT : T.Lawful) (hP : T.ProxiesLawful) (config : GenesisConfig A)
    (hfresh : ∀ owner, NoProxy T ledger (custodyAccount T owner)) :
    Registered T (genesisBuild T config ledger) := by
  have hfold : ∀ (l : List (A × Nat)) (s : State A σ), Opened T s →
      Opened T (l.foldl (fun s e => Custody.initializeCustody T e.1 e.2 s) s) := by
    intro l
    induction l with
    | nil => exact fun s hs => hs
    | cons e l ih => exact fun s hs => ih _ (hs.initializeCustody hT hP e.1 e.2)
  have hopened : Opened T (genesisCustodians config ledger) := by
    refine ⟨indexed_empty _, fun who info hinfo => ?_, hfresh⟩
    exact absurd hinfo (by simp [genesisCustodians])
  exact (hfold config.teamAllocations _ hopened).registered

/-! ## Runs -/

/-- The registry of the custody accounts and their proxies. -/
structure RegistryInOrder (T : Config A σ) (s : State A σ) : Prop where
  keys : ∀ a, isCustody a s = true ↔
    ∃ who info, s.teamAccounts.lookup who = some info ∧ info.custody = a
  distinct : ∀ who who' info info', s.teamAccounts.lookup who = some info →
    s.teamAccounts.lookup who' = some info' →
    info.custody = info'.custody ∨ info.reserve = info'.reserve → who = who'
  derived : ∀ a, isCustody a s = true → ∃ owner, a = custodyAccount T owner
  proxies : ∀ a, isCustody a s = true → ProxyInOrder T s.ledger a
  departed : ∀ owner, isCustody (custodyAccount T owner) s = false →
    NoProxy T s.ledger (custodyAccount T owner)

theorem Registered.inOrder (hP : T.ProxiesLawful) (hs : Registered T s) :
    RegistryInOrder T s := by
  have hderived : ∀ a, isCustody a s = true → ∃ owner, a = custodyAccount T owner := by
    intro a ha
    obtain ⟨who, info, hinfo, rfl⟩ := (hs.index.keys a).mp ha
    obtain ⟨owner, hcustody, _⟩ := hs.derived who info hinfo
    exact ⟨owner, hcustody⟩
  constructor
  · exact hs.index.keys
  · intro who who' info info' hinfo hinfo' hsame
    obtain ⟨owner, hcustody, hreserve⟩ := hs.derived who info hinfo
    obtain ⟨owner', hcustody', hreserve'⟩ := hs.derived who' info' hinfo'
    apply hs.index.unique who who' info info' hinfo hinfo'
    rcases hsame with hsame | hsame
    · exact hsame
    · rw [hreserve, hreserve'] at hsame
      have howner : owner = owner' := (hP.pureAccount_injective _ _ _ _ hsame).1
      rw [hcustody, hcustody', howner]
  · exact hderived
  · intro a ha
    obtain ⟨owner, rfl⟩ := hderived a ha
    exact hs.proxies owner
  · intro owner hgone
    apply hs.departed owner
    exact Option.not_isSome_iff_eq_none.mp (Bool.eq_false_iff.mp hgone)

/-- From any genesis before which the accounts to be derived have no proxy and no reserve, over
any calls and any blocks, as long as the other pallets leave the proxies and the reserves of these
accounts alone: the registry is in order in every state. -/
theorem registry_in_order (T : Config A σ) (hT : T.Lawful) (hP : T.ProxiesLawful)
    (config : GenesisConfig A) (ledger : σ)
    (hfresh : ∀ owner, NoProxy T ledger (custodyAccount T owner)) (actions : List (Action A σ))
    (hquiet : Along (next T) (Undisturbed T) (genesisBuild T config ledger) actions) :
    Always (next T) (RegistryInOrder T) (genesisBuild T config ledger) actions := by
  have hrun : Always (next T) (Registered T) (genesisBuild T config ledger) actions :=
    always_of_invariant (registered_next hT hP) (registered_genesis hT hP config hfresh) hquiet
  exact hrun.imp fun s hs => hs.inOrder hP

/-- The accounts of the owner `n` are the pairs of it with `0` and `1`. -/
def pairConfig : Config Nat (Books Nat) :=
  Books.config 1 2 Nat.pair

theorem pairConfig_proxiesLawful : pairConfig.ProxiesLawful where
  pureAccount_injective := by
    intro owner owner' index index' h
    exact Nat.pair_eq_pair.mp h
  leaves_proxies := (Ledger.currency 1).along_leaves Books.ledgerPart fun _ _ => rfl
  remove_proxies := by
    intro b a
    funext x
    show ((b.proxies.erase a).lookup x).getD ([], 0) = _
    by_cases hx : x = a
    · rw [hx, Finmap.lookup_erase, update_self]
      rfl
    · rw [Finmap.lookup_erase_ne hx, update_of_ne hx]
      rfl
  add_proxies := by
    intro b a delegate proxyType delay b' h
    simp only [pairConfig, Books.config, Books.proxyPallet, Option.ite_none_left_eq_some,
      not_or, Option.some.injEq] at h
    obtain ⟨⟨hnone, _⟩, rfl⟩ := h
    rw [Option.not_isSome_iff_eq_none] at hnone
    have hempty : pairConfig.proxies.proxies b a = ([], 0) := by
      show (b.proxies.lookup a).getD ([], 0) = _
      rw [hnone]
      rfl
    refine ⟨2, ?_, ?_, ?_⟩
    · funext x
      show ((b.proxies.insert a _).lookup x).getD ([], 0) = _
      by_cases hx : x = a
      · rw [hx, Finmap.lookup_insert, update_self, hempty]
        rfl
      · rw [Finmap.lookup_insert_of_ne _ hx, update_of_ne hx]
        rfl
    · rw [hempty]
      show ((b.ledger.set a _).account a).reserved + 0 = _
      rw [Ledger.account_set, update_self]
      rfl
    · intro x hx
      show (b.ledger.set a _).account x = _
      rw [Ledger.account_set, update_of_ne hx]
      rfl

/-- The proxy is set by the custodian, and goes with the last payout. -/
def pairActions : List (Action Nat (Books Nat)) :=
  let genesis := genesisBuild pairConfig ⟨[7], [(1, 1000)]⟩ (mockBooks [])
  let setProxy := Action.call (.signed 7) (.custodySetProxy 2 5)
  [setProxy, .outside 15778801 (next pairConfig genesis setProxy).ledger,
    .call (.signed 9) (.payout 1)]

theorem registry_in_order_mock :
    Always (next pairConfig) (RegistryInOrder pairConfig)
      (genesisBuild pairConfig ⟨[7], [(1, 1000)]⟩ (mockBooks [])) pairActions := by
  apply registry_in_order pairConfig (Books.config_lawful (by decide) 2 _) pairConfig_proxiesLawful
  · intro owner
    constructor
    · rfl
    · rfl
  · refine ⟨?_, ?_, ?_, trivial⟩
    · intro hbonds
      cases hbonds
    · exact fun owner => .refl _ _ _
    · intro hbonds
      cases hbonds

/-- In that run the proxy is there, and then neither the proxy nor the record is. -/
example :
    let s := genesisBuild pairConfig ⟨[7], [(1, 1000)]⟩ (mockBooks [])
    let s₁ := next pairConfig s (.call (.signed 7) (.custodySetProxy 2 5))
    let s₂ := pairActions.foldl (next pairConfig) s
    isCustody 2 s₁ = true ∧ pairConfig.proxies.proxies s₁.ledger 2 = ([⟨5, .voting, 0⟩], 2) ∧
      isCustody 2 s₂ = false ∧ pairConfig.proxies.proxies s₂.ledger 2 = ([], 0) := by
  decide

end XXChain.Custody
