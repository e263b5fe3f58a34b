import XXChain.Custody.Runs

/-!
# XXChain — accounts that the custody does not take from

The calls of the custody move coins out of the custody and the reserve accounts of the team
only. Any other account is a bystander: whoever calls, and whatever fails or succeeds, it can
only gain.

* **`Bystander.dispatch`** — no call makes a bystander anything else;
* **`free_le_dispatch`** — no call lowers the free balance of a bystander.
-/

namespace XXChain.Custody

open Function

variable {A σ : Type} [DecidableEq A] {T : Config A σ} {s s' : State A σ} {origin : Origin A}
  {call : Call A} {who a source custody : A} {info : CustodyInfo A} {amount : Nat}
  {event : Event A} {keepAlive : Bool}

/-- The account holds nothing for a team member. -/
structure Bystander (s : State A σ) (a : A) : Prop where
  team : ∀ who info, s.teamAccounts.lookup who = some info → a ≠ info.custody ∧ a ≠ info.reserve
  custody : s.custodyAccounts.lookup a = none

/-- The documented behaviour of the staking and the proxy pallet: what they do for an account
leaves the balances of the others alone. -/
structure Config.LeavesOthers (T : Config A σ) : Prop where
  bond : ∀ l a controller v l' b, T.staking.bond l a controller v = some l' → b ≠ a →
    T.currency.freeBalance l' b = T.currency.freeBalance l b
  bondExtra : ∀ l a v l' b, T.staking.bondExtra l a v = some l' → b ≠ a →
    T.currency.freeBalance l' b = T.currency.freeBalance l b
  setController : ∀ l a controller l' b, T.staking.setController l a controller = some l' →
    b ≠ a → T.currency.freeBalance l' b = T.currency.freeBalance l b
  addProxyDelegate : ∀ l a delegate proxyType delay l' b,
    T.proxies.addProxyDelegate l a delegate proxyType delay = some l' → b ≠ a →
    T.currency.freeBalance l' b = T.currency.freeBalance l b

/-! ## The books -/

/-- Books that name no other accounts have the same bystanders. -/
theorem Bystander.of_books (ha : Bystander s a)
    (hteam : ∀ who info, s'.teamAccounts.lookup who = some info →
      ∃ who₀ info₀, s.teamAccounts.lookup who₀ = some info₀ ∧ info.custody = info₀.custody ∧
        info.reserve = info₀.reserve)
    (hcustody : s'.custodyAccounts.lookup a = none) : Bystander s' a where
  team who info hinfo := by
    obtain ⟨who₀, info₀, hinfo₀, hsame, hsame'⟩ := hteam who info hinfo
    rw [hsame, hsame']
    exact ha.team who₀ info₀ hinfo₀
  custody := hcustody

theorem Bystander.doPayout (ha : Bystander s a) (hinfo : s.teamAccounts.lookup who = some info)
    (h : doPayout T who amount info keepAlive s = .ok s') : Bystander s' a := by
  obtain ⟨_, _, _, hteam⟩ := doPayout_ok h
  have hcustody := doPayout_custodyAccounts h
  cases keepAlive with
  | true =>
    refine ha.of_books (fun who' info' hinfo' => ?_) (by rw [hcustody]; exact ha.custody)
    rw [hteam, if_pos rfl] at hinfo'
    by_cases hsame : who' = who
    · rw [hsame, Finmap.lookup_insert] at hinfo'
      cases hinfo'
      exact ⟨who, info, hinfo, rfl, rfl⟩
    · rw [Finmap.lookup_insert_of_ne _ hsame] at hinfo'
      exact ⟨who', info', hinfo', rfl, rfl⟩
  | false =>
    have hnone : s'.custodyAccounts.lookup a = none := by
      rw [hcustody]
      by_cases hsame : a = info.custody
      · exact absurd hsame (ha.team who info hinfo).1
      · exact (Finmap.lookup_erase_ne hsame).trans ha.custody
    refine ha.of_books (fun who' info' hinfo' => ?_) hnone
    rw [hteam, if_neg Bool.false_ne_true] at hinfo'
    by_cases hsame : who' = who
    · rw [hsame, Finmap.lookup_erase] at hinfo'
      cases hinfo'
    · rw [Finmap.lookup_erase_ne hsame] at hinfo'
      exact ⟨who', info', hinfo', rfl, rfl⟩

theorem Bystander.payout (ha : Bystander s a) (h : payout T origin who s = .ok s') :
    Bystander s' a := by
  obtain ⟨info, hinfo, ⟨_, hlast⟩ | ⟨_, hpay⟩⟩ := payout_cases h
  · obtain ⟨ledger, s₁, _, hpay, hs'⟩ := lastPayout_cases hlast
    have hbefore : Bystander
        { s with ledger := removeCustodyProxies T info.custody ledger } a :=
      ⟨ha.team, ha.custody⟩
    have hafter := hbefore.doPayout hinfo hpay
    rw [hs']
    exact ⟨hafter.team, hafter.custody⟩
  · exact ha.doPayout hinfo hpay

theorem Bystander.dispatch (ha : Bystander s a) (h : dispatch T origin call s = .ok s') :
    Bystander s' a := by
  rcases dispatch_cases h with hbooks | ⟨who, _, hpay⟩ | ⟨who, new, _, hreplace⟩
  · refine ⟨?_, ?_⟩
    · rw [hbooks.teamAccounts]
      exact ha.team
    · rw [hbooks.custodyAccounts]
      exact ha.custody
  · exact ha.payout hpay
  · obtain ⟨info, hinfo, hnew, hs'⟩ := replaceTeamMember_eq hreplace
    rw [hs']
    refine ha.of_books (fun who' info' hinfo' => ?_) ha.custody
    have hlookup : ((s.teamAccounts.erase who).insert new info).lookup who' = some info' := hinfo'
    by_cases hsame : who' = new
    · rw [hsame, Finmap.lookup_insert] at hlookup
      cases hlookup
      exact ⟨who, info, hinfo, rfl, rfl⟩
    · rw [Finmap.lookup_insert_of_ne _ hsame] at hlookup
      by_cases hgone : who' = who
      · rw [hgone, Finmap.lookup_erase] at hlookup
        cases hlookup
      · rw [Finmap.lookup_erase_ne hgone] at hlookup
        exact ⟨who', info', hlookup, rfl, rfl⟩

/-! ## The balances -/

theorem free_le_transferPayout (hT : T.Lawful) (hne : a ≠ source)
    (h : transferPayout T source who amount event s = .ok s') :
    T.currency.freeBalance s.ledger a ≤ T.currency.freeBalance s'.ledger a := by
  unfold transferPayout at h
  split at h
  · cases h
    exact le_rfl
  · simp only [bind_eq_ok, called, okOr_eq_ok] at h
    obtain ⟨ledger, htransfer, hs'⟩ := h
    cases hs'
    unfold Currency.freeBalance
    show _ ≤ (T.currency.account ledger a).free
    rw [(hT.currency.paidOut_transfer htransfer).2 a hne]
    exact Nat.le_add_right _ _

theorem free_le_doPayout (hT : T.Lawful) (hcustody : a ≠ info.custody)
    (hreserve : a ≠ info.reserve) (h : doPayout T who amount info keepAlive s = .ok s') :
    T.currency.freeBalance s.ledger a ≤ T.currency.freeBalance s'.ledger a := by
  obtain ⟨⟨s₁, s₂, _, _, hfirst, hsecond, hledger⟩, _⟩ := doPayout_ok h
  rw [hledger]
  exact (free_le_transferPayout hT hcustody hfirst).trans
    (free_le_transferPayout hT hreserve hsecond)

theorem free_le_payout (hT : T.Lawful) (ha : Bystander s a) (h : payout T origin who s = .ok s') :
    T.currency.freeBalance s.ledger a ≤ T.currency.freeBalance s'.ledger a := by
  obtain ⟨info, hinfo, hcases⟩ := payout_cases h
  obtain ⟨hcustody, hreserve⟩ := ha.team who info hinfo
  rcases hcases with ⟨_, hlast⟩ | ⟨_, hpay⟩
  · obtain ⟨ledger, s₁, haccount, hpay, hs'⟩ := lastPayout_ok hT hlast
    have hpaid := free_le_doPayout hT hcustody hreserve hpay
    -- the unstaking and the proxies' deposit are the custody account's
    have hsame : T.currency.freeBalance ledger a = T.currency.freeBalance s.ledger a := by
      unfold Currency.freeBalance
      rw [haccount, accountsAtEnd, update_of_ne hcustody]
    rw [hs', ← hsame]
    exact hpaid
  · exact free_le_doPayout hT hcustody hreserve hpay

theorem free_setCustodyGovernanceProxy {proxy : A} {ledger ledger' : σ} (hT : T.Lawful)
    (hL : T.LeavesOthers) (hne : a ≠ custody)
    (h : setCustodyGovernanceProxy T custody proxy ledger = .ok ledger') :
    T.currency.freeBalance ledger' a = T.currency.freeBalance ledger a := by
  simp only [setCustodyGovernanceProxy, called, okOr_eq_ok] at h
  rw [hL.addProxyDelegate _ _ _ _ _ _ a h hne]
  unfold Currency.freeBalance
  rw [account_removeCustodyProxies hT, update_of_ne hne]

/-- What a custodian does for a custody account leaves a bystander alone if the call does. -/
theorem free_asCustodian {done : Bool} {error : Error} {f : σ → DispatchResult σ}
    (ha : Bystander s a) (h : asCustodian origin custody done error s f = .ok s')
    (hf : ∀ ledger, f s.ledger = .ok ledger → a ≠ custody →
      T.currency.freeBalance ledger a = T.currency.freeBalance s.ledger a) :
    T.currency.freeBalance s.ledger a ≤ T.currency.freeBalance s'.ledger a := by
  obtain ⟨hcustody, ledger, hcall, hs'⟩ := asCustodian_ok h
  have hne : a ≠ custody := by
    intro hsame
    rw [← hsame, ha.custody] at hcustody
    cases hcustody
  rw [hs']
  exact (hf ledger hcall hne).ge

theorem free_le_dispatch (hT : T.Lawful) (hL : T.LeavesOthers) (ha : Bystander s a)
    (h : dispatch T origin call s = .ok s') :
    T.currency.freeBalance s.ledger a ≤ T.currency.freeBalance s'.ledger a := by
  cases call with
  | payout who => exact free_le_payout hT ha h
  | custodyBond custody controller value =>
    unfold dispatch custodyBond at h
    refine free_asCustodian ha h fun ledger hcall hne => ?_
    simp only [called, okOr_eq_ok] at hcall
    exact hL.bond _ _ _ _ _ a hcall hne
  | custodyBondExtra custody value =>
    unfold dispatch custodyBondExtra at h
    refine free_asCustodian ha h fun ledger hcall hne => ?_
    simp only [called, okOr_eq_ok] at hcall
    exact hL.bondExtra _ _ _ _ a hcall hne
  | custodySetController custody controller =>
    unfold dispatch custodySetController at h
    refine free_asCustodian ha h fun ledger hcall hne => ?_
    simp only [called, okOr_eq_ok] at hcall
    exact hL.setController _ _ _ _ a hcall hne
  | custodySetProxy custody proxy =>
    unfold dispatch custodySetProxy at h
    refine free_asCustodian ha h fun ledger hcall hne => ?_
    exact free_setCustodyGovernanceProxy hT hL hne hcall
  | teamCustodySetProxy proxy =>
    obtain ⟨who, info, ledger, hinfo, hset, hs'⟩ := teamCustodySetProxy_ok h
    rw [hs']
    exact (free_setCustodyGovernanceProxy hT hL (ha.team who info hinfo).1 hset).ge
  | addCustodian custodian =>
    rw [addCustodian_ok h]
    exact le_rfl
  | removeCustodian custodian =>
    rw [removeCustodian_ok h]
    exact le_rfl
  | replaceTeamMember who new =>
    obtain ⟨_, _, _, hs'⟩ := replaceTeamMember_eq h
    rw [hs']
    exact le_rfl

end XXChain.Custody
