import XXChain.Claims.Model

/-!
# XXChain — the calls that pay a claim

`claim`, `claim_attest` and `attest` end in `process_claim`. Each first finds the address whose
claim it is about, and the account to pay (`Addressed`); `process_claim` then pays what is
`Payable`.

* **`processClaim_eq_ok`** — all that `process_claim` checks, and the state that it leaves;
* **`processClaim_ok_iff`** — a claim is paid when it is payable;
* **`Addressed.dispatch`** and **`dispatch_pays`** — what a call that pays does, and that it
  does nothing else;
* **`applyCall_frame`** — `mint_claim` and `move_claim` write the storage of the claims only.
-/

namespace XXChain.Claims

variable {A σ H : Type} [DecidableEq A] {T : Config A σ H} {s s' s₁ : State A σ H}
  {origin : Origin A} {call : Call A} {signer : EthereumAddress} {dest : A}

/-! ## `process_claim` -/

/-- The claim of the address can be paid to the account. -/
def Payable (T : Config A σ H) (s : State A σ H) (signer : EthereumAddress) (dest : A) : Prop :=
  ∃ balanceDue, s.claims.lookup signer = some balanceDue ∧ balanceDue ≤ s.total ∧
    (s.vesting.lookup signer = none ∨
      T.vestingSchedule.vestingBalance s.block s.ledger dest = none)

/-- The state in which the claim of `signer`, of the amount, is paid to `dest`. -/
def payment (T : Config A σ H) (signer : EthereumAddress) (dest : A) (balanceDue : Nat)
    (s : State A σ H) : State A σ H :=
  { s with
    ledger := addSchedules T s.block dest ((s.vesting.lookup signer).getD [])
      (T.currency.dropPositive (T.currency.depositCreating s.ledger dest balanceDue).1
        (T.currency.depositCreating s.ledger dest balanceDue).2)
    handler := match s.rewards.lookup signer with
      | some rw => T.addClaimed s.block s.handler dest balanceDue rw
      | none => s.handler
    rewards := s.rewards.erase signer
    total := s.total - balanceDue
    claims := s.claims.erase signer
    vesting := s.vesting.erase signer
    signing := s.signing.erase signer
    events := s.events ++
      [.claimed dest signer balanceDue ((s.rewards.lookup signer).getD 0)] }

omit [DecidableEq A] in
theorem payment_handler_none {v : Nat} (h : s.rewards.lookup signer = none) :
    (payment T signer dest v s).handler = s.handler := by
  simp only [payment, h]

omit [DecidableEq A] in
theorem payment_handler_some {v reward : Nat} (h : s.rewards.lookup signer = some reward) :
    (payment T signer dest v s).handler = T.addClaimed s.block s.handler dest v reward := by
  simp only [payment, h]

omit [DecidableEq A] in
/-- **What `process_claim` can do.** It pays a claim that the total covers, to an account that
does not vest yet if the claim does. -/
theorem processClaim_eq_ok :
    processClaim T signer dest s = .ok s₁ ↔
      ∃ balanceDue, s.claims.lookup signer = some balanceDue ∧ balanceDue ≤ s.total ∧
        (s.vesting.lookup signer = none ∨
          T.vestingSchedule.vestingBalance s.block s.ledger dest = none) ∧
        s₁ = payment T signer dest balanceDue s := by
  have hvesting : (!((s.vesting.lookup signer).isSome &&
        (T.vestingSchedule.vestingBalance s.block s.ledger dest).isSome)) = true ↔
      s.vesting.lookup signer = none ∨
        T.vestingSchedule.vestingBalance s.block s.ledger dest = none := by
    cases s.vesting.lookup signer <;>
      cases T.vestingSchedule.vestingBalance s.block s.ledger dest <;> simp
  simp only [processClaim, bind_eq_ok, okOr_eq_ok, ensure_eq_ok, decide_eq_true_eq, hvesting]
  constructor
  · rintro ⟨v, hclaim, _, hle, _, hvest, hs₁⟩
    exact ⟨v, hclaim, hle, hvest, (Except.ok.inj hs₁).symm⟩
  · rintro ⟨v, hclaim, hle, hvest, rfl⟩
    exact ⟨v, hclaim, (), hle, (), hvest, rfl⟩

omit [DecidableEq A] in
theorem processClaim_ok_iff :
    (∃ s₁, processClaim T signer dest s = .ok s₁) ↔ Payable T s signer dest := by
  simp only [processClaim_eq_ok]
  constructor
  · rintro ⟨_, v, hclaim, hle, hvest, _⟩
    exact ⟨v, hclaim, hle, hvest⟩
  · rintro ⟨v, hclaim, hle, hvest⟩
    exact ⟨_, v, hclaim, hle, hvest, rfl⟩

omit [DecidableEq A] in
/-- A payment takes the reward of its own signer only. -/
theorem processClaim_rewards (h : processClaim T signer dest s = .ok s₁) :
    s₁.rewards = s.rewards.erase signer := by
  obtain ⟨_, _, _, _, rfl⟩ := processClaim_eq_ok.mp h
  rfl

omit [DecidableEq A] in
/-- It hands the reward, if there is one, to the handler. -/
theorem processClaim_handler (h : processClaim T signer dest s = .ok s₁) :
    ∃ balanceDue, s.claims.lookup signer = some balanceDue ∧
      s₁.handler = match s.rewards.lookup signer with
        | some rw => T.addClaimed s.block s.handler dest balanceDue rw
        | none => s.handler := by
  obtain ⟨v, hclaim, _, _, rfl⟩ := processClaim_eq_ok.mp h
  exact ⟨v, hclaim, rfl⟩

/-! ## The calls -/

/-- The calls that pay a claim when they succeed. -/
def Call.pays : Call A → Bool
  | .claim .. => true
  | .claimAttest .. => true
  | .attest .. => true
  | .mintClaim .. => false
  | .moveClaim .. => false

/-- The call passes its own checks, and is about the claim of `signer`, to be paid to `dest`. -/
def Addressed (T : Config A σ H) (s : State A σ H) (signer : EthereumAddress) (dest : A) :
    Origin A × Call A → Prop
  | (origin, .claim who signature) =>
    origin = .none ∧ who = dest ∧
      ethRecover T signature (toAsciiHex (T.encode who)) [] = some signer ∧
      s.signing.lookup signer = none
  | (origin, .claimAttest who signature statement) =>
    origin = .none ∧ who = dest ∧
      ethRecover T signature (toAsciiHex (T.encode who)) statement = some signer ∧
      ensureStatement signer statement s = .ok ()
  | (origin, .attest statement) =>
    origin = .signed dest ∧ s.preclaims.lookup dest = some signer ∧
      ensureStatement signer statement s = .ok ()
  | _ => False

/-- A payment, whose call may then remove a preclaim. -/
def PaidBy (T : Config A σ H) (s s' : State A σ H) (signer : EthereumAddress) (dest : A) :
    Prop :=
  ∃ s₁, processClaim T signer dest s = .ok s₁ ∧ s' = { s₁ with preclaims := s'.preclaims }

/-- The checks look at the statements and the preclaims only. -/
theorem Addressed.congr {call : Origin A × Call A}
    (h : Addressed T s signer dest call) (hsigning : s'.signing = s.signing)
    (hpreclaims : s'.preclaims = s.preclaims) : Addressed T s' signer dest call := by
  have hstatement : ∀ statement, ensureStatement signer statement s' =
      ensureStatement signer statement s := by
    intro statement
    unfold ensureStatement
    rw [hsigning]
  obtain ⟨origin, call⟩ := call
  cases call with
  | claim who signature =>
    obtain ⟨horigin, hwho, hrecover, hsigned⟩ := h
    rw [← hsigning] at hsigned
    exact ⟨horigin, hwho, hrecover, hsigned⟩
  | claimAttest who signature statement =>
    obtain ⟨horigin, hwho, hrecover, hstated⟩ := h
    exact ⟨horigin, hwho, hrecover, (hstatement statement).trans hstated⟩
  | attest statement =>
    obtain ⟨horigin, hpreclaim, hstated⟩ := h
    rw [← hpreclaims] at hpreclaim
    exact ⟨horigin, hpreclaim, (hstatement statement).trans hstated⟩
  | mintClaim => exact h.elim
  | moveClaim => exact h.elim

/-- A call that passes its checks succeeds and fails as `process_claim` does. -/
theorem Addressed.dispatch_error (h : Addressed T s signer dest (origin, call))
    {e : DispatchError Error} (hfail : processClaim T signer dest s = .error e) :
    dispatch T origin call s = .error e := by
  cases call with
  | claim who signature =>
    obtain ⟨rfl, rfl, hrecover, hsigning⟩ := h
    show claim T .none who signature s = _
    simp only [claim, ensureNone, bind, Except.bind, hrecover, okOr, hsigning, ensure,
      Option.isNone_none, if_true, hfail]
  | claimAttest who signature statement =>
    obtain ⟨rfl, rfl, hrecover, hstatement⟩ := h
    show claimAttest T .none who signature statement s = _
    simp only [claimAttest, ensureNone, bind, Except.bind, hrecover, okOr, hstatement, hfail]
  | attest statement =>
    obtain ⟨rfl, hpreclaim, hstatement⟩ := h
    show attest T (.signed dest) statement s = _
    simp only [attest, ensureSigned, bind, Except.bind, hpreclaim, okOr, hstatement, hfail]
  | mintClaim => exact h.elim
  | moveClaim => exact h.elim

/-- A call that passes its checks pays the claim if it is payable. -/
theorem Addressed.dispatch (h : Addressed T s signer dest (origin, call))
    (hpayable : Payable T s signer dest) :
    ∃ s', dispatch T origin call s = .ok s' ∧ PaidBy T s s' signer dest := by
  obtain ⟨s₁, hs₁⟩ := processClaim_ok_iff.mpr hpayable
  cases call with
  | claim who signature =>
    obtain ⟨rfl, rfl, hrecover, hsigning⟩ := h
    refine ⟨s₁, ?_, s₁, hs₁, rfl⟩
    simp only [Claims.dispatch, claim, bind_eq_ok, ensureNone_eq_ok, okOr_eq_ok, ensure_eq_ok]
    exact ⟨(), trivial, signer, hrecover, (), by rw [hsigning]; rfl, hs₁⟩
  | claimAttest who signature statement =>
    obtain ⟨rfl, rfl, hrecover, hstatement⟩ := h
    refine ⟨s₁, ?_, s₁, hs₁, rfl⟩
    simp only [Claims.dispatch, claimAttest, bind_eq_ok, ensureNone_eq_ok, okOr_eq_ok]
    exact ⟨(), trivial, signer, hrecover, (), hstatement, hs₁⟩
  | attest statement =>
    obtain ⟨rfl, hpreclaim, hstatement⟩ := h
    refine ⟨{ s₁ with preclaims := s₁.preclaims.erase dest }, ?_, s₁, hs₁, rfl⟩
    simp only [Claims.dispatch, attest, bind_eq_ok, ensureSigned_eq_ok, okOr_eq_ok]
    exact ⟨dest, rfl, signer, hpreclaim, (), hstatement, s₁, hs₁, rfl⟩
  | mintClaim => exact h.elim
  | moveClaim => exact h.elim

/-- A call that pays has passed its checks. -/
theorem dispatch_pays (hpays : call.pays = true) (h : dispatch T origin call s = .ok s') :
    ∃ signer dest, Addressed T s signer dest (origin, call) ∧ PaidBy T s s' signer dest := by
  cases call with
  | claim who signature =>
    simp only [dispatch, claim, bind_eq_ok, ensureNone_eq_ok, okOr_eq_ok, ensure_eq_ok] at h
    obtain ⟨_, rfl, signer, hrecover, _, hsigning, hpaid⟩ := h
    exact ⟨signer, who, ⟨rfl, rfl, hrecover, Option.isNone_iff_eq_none.mp hsigning⟩,
      s', hpaid, rfl⟩
  | claimAttest who signature statement =>
    simp only [dispatch, claimAttest, bind_eq_ok, ensureNone_eq_ok, okOr_eq_ok] at h
    obtain ⟨_, rfl, signer, hrecover, _, hstatement, hpaid⟩ := h
    exact ⟨signer, who, ⟨rfl, rfl, hrecover, hstatement⟩, s', hpaid, rfl⟩
  | attest statement =>
    simp only [dispatch, attest, bind_eq_ok, ensureSigned_eq_ok, okOr_eq_ok] at h
    obtain ⟨who, rfl, signer, hpreclaim, _, hstatement, s₁, hpaid, hs'⟩ := h
    cases hs'
    exact ⟨signer, who, ⟨rfl, hpreclaim, hstatement⟩, s₁, hpaid, rfl⟩
  | mintClaim => cases hpays
  | moveClaim => cases hpays

/-- A call that pays does so, or leaves the state alone. -/
theorem applyCall_pays (T : Config A σ H) (s : State A σ H) (origin : Origin A)
    (hpays : call.pays = true) :
    (∃ signer dest, Addressed T s signer dest (origin, call) ∧ Payable T s signer dest ∧
      PaidBy T s (applyCall T s (origin, call)) signer dest) ∨
      applyCall T s (origin, call) = s := by
  unfold applyCall
  split
  case h_1 s' hok =>
    obtain ⟨signer, dest, haddressed, hpaid⟩ := dispatch_pays hpays hok
    have hpayable : Payable T s signer dest := by
      obtain ⟨s₁, hs₁, _⟩ := hpaid
      exact processClaim_ok_iff.mp ⟨s₁, hs₁⟩
    exact Or.inl ⟨signer, dest, haddressed, hpayable, hpaid⟩
  case h_2 => exact Or.inr rfl

theorem Addressed.applyCall (h : Addressed T s signer dest (origin, call))
    (hpayable : Payable T s signer dest) :
    PaidBy T s (applyCall T s (origin, call)) signer dest := by
  obtain ⟨s', hs', hpaid⟩ := h.dispatch hpayable
  unfold Claims.applyCall
  rw [hs']
  exact hpaid

/-! ## The administrative calls -/

/-- `mint_claim` and `move_claim` leave the ledger, the rewards, the handler and the events. -/
theorem dispatch_frame (hpays : call.pays = false) (h : dispatch T origin call s = .ok s') :
    ∃ claims total vesting signing preclaims,
      s' = { s with claims, total, vesting, signing, preclaims } := by
  cases call with
  | mintClaim who value vestingSchedules statement =>
    simp only [dispatch, mintClaim, bind_eq_ok] at h
    obtain ⟨_, _, hs'⟩ := h
    cases hs'
    exact ⟨_, _, _, _, _, rfl⟩
  | moveClaim old new maybePreclaim =>
    simp only [dispatch, moveClaim, bind_eq_ok] at h
    obtain ⟨_, _, hs'⟩ := h
    cases hs'
    exact ⟨_, _, _, _, _, rfl⟩
  | claim => cases hpays
  | claimAttest => cases hpays
  | attest => cases hpays

theorem applyCall_frame (T : Config A σ H) (s : State A σ H) (origin : Origin A)
    (hpays : call.pays = false) :
    ∃ claims total vesting signing preclaims,
      applyCall T s (origin, call) = { s with claims, total, vesting, signing, preclaims } := by
  unfold applyCall
  split
  case h_1 s' hok => exact dispatch_frame hpays hok
  case h_2 => exact ⟨_, _, _, _, _, rfl⟩

end XXChain.Claims
