import XXChain.Custody.Payout

/-!
# XXChain — the runs of the custody pallet

A run is a list of calls, with blocks and changes of the other pallets in between that the
custody has no part in.

* **`asCustodian_ok`** to **`replaceTeamMember_eq`** — what each call does when it goes through;
* **`dispatch_cases`** — the only calls that write the books of the team are payouts and the
  replacement of a member.
-/

namespace XXChain.Custody

variable {A σ : Type} [DecidableEq A]

/-- A call, or what happens outside of the pallet: `blocks` pass, and the other pallets are
left with any `ledger`. -/
inductive Action (A σ : Type) where
  | call (origin : Origin A) (call : Call A)
  | outside (blocks : Nat) (ledger : σ)

def next (T : Config A σ) (s : State A σ) : Action A σ → State A σ
  | .call origin call => applyCall T s origin call
  | .outside blocks ledger => { s with block := s.block + blocks, ledger := ledger }

variable {T : Config A σ} {s s' : State A σ} {origin : Origin A} {call : Call A} {who new : A}

/-- The books of the team are the same, at the same block. -/
structure SameBooks (s s' : State A σ) : Prop where
  block : s'.block = s.block
  teamAccounts : s'.teamAccounts = s.teamAccounts
  custodyAccounts : s'.custodyAccounts = s.custodyAccounts
  totalCustody : s'.totalCustody = s.totalCustody

/-! ## The calls that go through -/

theorem asCustodian_ok {custody : A} {done : Bool} {error : Error} {f : σ → DispatchResult σ}
    (h : asCustodian origin custody done error s f = .ok s') :
    (s.custodyAccounts.lookup custody).isSome ∧
      ∃ ledger, f s.ledger = .ok ledger ∧ s' = { s with ledger } := by
  simp only [asCustodian, bind_eq_ok, ensure_eq_ok] at h
  obtain ⟨_, _, _, _, _, hcustody, _, _, ledger, hcall, hs'⟩ := h
  exact ⟨hcustody, ledger, hcall, (Except.ok.inj hs').symm⟩

theorem teamCustodySetProxy_ok {proxy : A} (h : teamCustodySetProxy T origin proxy s = .ok s') :
    ∃ who info ledger, s.teamAccounts.lookup who = some info ∧
      setCustodyGovernanceProxy T info.custody proxy s.ledger = .ok ledger ∧
      s' = { s with ledger } := by
  simp only [teamCustodySetProxy, bind_eq_ok, okOr_eq_ok] at h
  obtain ⟨who, _, _, _, _, _, info, hinfo, ledger, hset, hs'⟩ := h
  exact ⟨who, info, ledger, hinfo, hset, (Except.ok.inj hs').symm⟩

theorem addCustodian_ok {custodian : A} (h : addCustodian T origin custodian s = .ok s') :
    s' = { s with custodians := s.custodians.insert custodian () }.depositEvent
      (.custodianAdded custodian) := by
  simp only [addCustodian, bind_eq_ok] at h
  obtain ⟨_, _, hs'⟩ := h
  exact (Except.ok.inj hs').symm

theorem removeCustodian_ok {custodian : A} (h : removeCustodian T origin custodian s = .ok s') :
    s' = { s with custodians := s.custodians.erase custodian }.depositEvent
      (.custodianRemoved custodian) := by
  simp only [removeCustodian, bind_eq_ok] at h
  obtain ⟨_, _, hs'⟩ := h
  exact (Except.ok.inj hs').symm

/-- Replacing a member moves what is recorded to a name that has nothing recorded. -/
theorem replaceTeamMember_eq (h : replaceTeamMember T origin who new s = .ok s') :
    ∃ info, s.teamAccounts.lookup who = some info ∧ s.teamAccounts.lookup new = none ∧
      s' = { s with teamAccounts := (s.teamAccounts.erase who).insert new info }.depositEvent
        (.teamMemberUpdated who new) := by
  simp only [replaceTeamMember, bind_eq_ok, ensure_eq_ok, okOr_eq_ok] at h
  obtain ⟨_, _, _, _, _, hnew, info, hinfo, hs'⟩ := h
  have hfresh : s.teamAccounts.lookup new = none := by
    simpa [isTeamMember] using hnew
  exact ⟨info, hinfo, hfresh, (Except.ok.inj hs').symm⟩

/-! ## The books -/

theorem asCustodian_books {custody : A} {done : Bool} {error : Error} {f : σ → DispatchResult σ}
    (h : asCustodian origin custody done error s f = .ok s') : SameBooks s s' := by
  obtain ⟨_, _, _, rfl⟩ := asCustodian_ok h
  exact ⟨rfl, rfl, rfl, rfl⟩

theorem teamCustodySetProxy_books {proxy : A}
    (h : teamCustodySetProxy T origin proxy s = .ok s') : SameBooks s s' := by
  obtain ⟨_, _, _, _, _, rfl⟩ := teamCustodySetProxy_ok h
  exact ⟨rfl, rfl, rfl, rfl⟩

theorem addCustodian_books {custodian : A}
    (h : addCustodian T origin custodian s = .ok s') : SameBooks s s' := by
  rw [addCustodian_ok h]
  exact ⟨rfl, rfl, rfl, rfl⟩

theorem removeCustodian_books {custodian : A}
    (h : removeCustodian T origin custodian s = .ok s') : SameBooks s s' := by
  rw [removeCustodian_ok h]
  exact ⟨rfl, rfl, rfl, rfl⟩

theorem replaceTeamMember_ok (h : replaceTeamMember T origin who new s = .ok s') :
    ∃ info, s.teamAccounts.lookup who = some info ∧ s.teamAccounts.lookup new = none ∧
      s'.teamAccounts = (s.teamAccounts.erase who).insert new info ∧
      s'.block = s.block ∧ s'.totalCustody = s.totalCustody := by
  obtain ⟨info, hinfo, hnew, rfl⟩ := replaceTeamMember_eq h
  exact ⟨info, hinfo, hnew, rfl, rfl, rfl⟩

/-- What a call that goes through does to the books of the team. -/
theorem dispatch_cases (h : dispatch T origin call s = .ok s') :
    SameBooks s s' ∨ (∃ who, call = .payout who ∧ payout T origin who s = .ok s') ∨
      ∃ who new, call = .replaceTeamMember who new ∧
        replaceTeamMember T origin who new s = .ok s' := by
  cases call with
  | payout who =>
    exact Or.inr (Or.inl ⟨who, rfl, h⟩)
  | custodyBond custody controller value =>
    unfold dispatch custodyBond at h
    exact Or.inl (asCustodian_books h)
  | custodyBondExtra custody value =>
    unfold dispatch custodyBondExtra at h
    exact Or.inl (asCustodian_books h)
  | custodySetController custody controller =>
    unfold dispatch custodySetController at h
    exact Or.inl (asCustodian_books h)
  | custodySetProxy custody proxy =>
    unfold dispatch custodySetProxy at h
    exact Or.inl (asCustodian_books h)
  | teamCustodySetProxy proxy =>
    exact Or.inl (teamCustodySetProxy_books h)
  | addCustodian custodian =>
    exact Or.inl (addCustodian_books h)
  | removeCustodian custodian =>
    exact Or.inl (removeCustodian_books h)
  | replaceTeamMember who new =>
    exact Or.inr (Or.inr ⟨who, new, rfl, h⟩)

/-- A call changes nothing when it fails, and else does what it does. -/
theorem applyCall_cases (T : Config A σ) (s : State A σ) (origin : Origin A) (call : Call A) :
    applyCall T s origin call = s ∨
      dispatch T origin call s = .ok (applyCall T s origin call) := by
  unfold applyCall
  cases dispatch T origin call s with
  | error e => exact Or.inl rfl
  | ok s' => exact Or.inr rfl

theorem dispatch_of_isOk (h : (dispatch T origin call s).isOk = true) :
    dispatch T origin call s = .ok (applyCall T s origin call) := by
  unfold applyCall
  cases hdispatch : dispatch T origin call s with
  | error e =>
    rw [hdispatch] at h
    cases h
  | ok s' => rfl

end XXChain.Custody
