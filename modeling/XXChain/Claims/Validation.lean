import XXChain.Claims.Accounting

/-!
# XXChain — validating claims before they are dispatched

Claims by signature come without a fee, and attests pay none, so both are checked before they
get into a block: unsigned calls by `validate_unsigned`, attests by the signed extension
`PrevalidateAttests`. The checks are written apart from those of the dispatchables.

* **`solvent_run`** — the total covers the sum of the claims in every state of a run, whatever
  is written over;
* **`accepted_claim_succeeds`** — an unsigned call that is accepted pays its claim, unless the
  destination already vests.
-/

namespace XXChain.Claims

open StorageMap

variable {A σ H : Type} [DecidableEq A] {T : Config A σ H} {s : State A σ H}

/-! ## Validity of transactions -/

inductive ValidityError where
  | invalidEthereumSignature
  | signerHasNoClaim
  | noPermission
  | invalidStatement
  deriving DecidableEq, Repr

def ValidityError.toCode : ValidityError → UInt8
  | .invalidEthereumSignature => 0
  | .signerHasNoClaim => 1
  | .noPermission => 2
  | .invalidStatement => 3

inductive InvalidTransaction where
  | call
  | custom (code : UInt8)
  deriving DecidableEq, Repr

structure ValidTransaction where
  priority : UInt64
  requires : List (List UInt8)
  provides : List (List UInt8)
  longevity : UInt64
  propagate : Bool
  deriving DecidableEq, Repr

def ValidTransaction.default : ValidTransaction where
  priority := 0
  requires := []
  provides := []
  longevity := UInt64.ofNat (2 ^ 64 - 1)
  propagate := true

/-- The encoding of `("claims", signer)`: the length of the text, the text and the address. -/
def claimTag (signer : EthereumAddress) : List UInt8 :=
  24 :: ascii "claims" ++ signer.toList

/-- The signer and the statement of a call that may come unsigned: a claim by signature. -/
def unsignedParts (T : Config A σ H) :
    Call A → Except InvalidTransaction (Option EthereumAddress × Option (List UInt8))
  | .claim account signature =>
    let data := toAsciiHex (T.encode account)
    .ok (ethRecover T signature data [], none)
  | .claimAttest account signature statement =>
    let data := toAsciiHex (T.encode account)
    .ok (ethRecover T signature data statement, some statement)
  | _ => .error .call

/-- The call makes the statement that the signer has to make, if any. -/
def statementMatches (kind : Option StatementKind) (maybeStatement : Option (List UInt8)) : Bool :=
  match kind with
  | none => maybeStatement.isNone
  | some kind => some kind.toText = maybeStatement

def validateUnsigned (T : Config A σ H) (call : Call A) (s : State A σ H) :
    Except InvalidTransaction ValidTransaction := do
  let (maybeSigner, maybeStatement) ← unsignedParts T call
  let signer ← okOr maybeSigner (.custom ValidityError.invalidEthereumSignature.toCode)
  ensure (s.claims.lookup signer).isSome (.custom ValidityError.signerHasNoClaim.toCode)
  ensure (statementMatches (s.signing.lookup signer) maybeStatement)
    (.custom ValidityError.invalidStatement.toCode)
  .ok {
    priority := 100
    requires := []
    provides := [claimTag signer]
    longevity := UInt64.ofNat (2 ^ 64 - 1)
    propagate := true }

/-- The checks of an attest by `who`. -/
def prevalidateAttest (who : A) (attestedStatement : List UInt8) (s : State A σ H) :
    Except InvalidTransaction Unit := do
  let signer ← okOr (s.preclaims.lookup who) (.custom ValidityError.signerHasNoClaim.toCode)
  match s.signing.lookup signer with
  | none => .ok ()
  | some kind =>
    ensure (attestedStatement = kind.toText) (.custom ValidityError.invalidStatement.toCode)

/-- `PrevalidateAttests::validate`, which lets every other call pass. -/
def prevalidateAttests (who : A) (call : Call A) (s : State A σ H) :
    Except InvalidTransaction ValidTransaction :=
  match call with
  | .attest attestedStatement => do
    prevalidateAttest who attestedStatement s
    .ok .default
  | _ => .ok .default

/-! ## The total covers the claims -/

/-- The claims can all be paid out of the total. -/
def Solvent (s : State A σ H) : Prop :=
  claimsSum s ≤ s.total

omit [DecidableEq A] in
/-- One claim is at most the sum of all, and so at most the total. -/
theorem Solvent.covers {signer : EthereumAddress} {balanceDue : Nat} (hs : Solvent s)
    (hclaim : s.claims.lookup signer = some balanceDue) : balanceDue ≤ s.total := by
  have hone := valueAt_le_sumBy id s.claims signer
  rw [valueAt_of_some hclaim] at hone
  exact hone.trans hs

theorem solvent_next (a : Action A σ H) (hs : Solvent s) (hfits : ActionFits s a) :
    Solvent (next T s a) := by
  cases a with
  | call origin call =>
    have hcall := applyCall_total (T := T) (origin, call) hfits
    unfold Solvent at hs
    show claimsSum (applyCall T s (origin, call)) ≤ (applyCall T s (origin, call)).total
    omega
  | outside block ledger handler => exact hs

theorem solvent_genesis {config : GenesisConfig A} (ledger : σ) (handler : H)
    (hfits : (config.claims.map GenesisClaim.amount).sum < balanceLimit) :
    Solvent (genesisBuild config ledger handler) := by
  have hsum := sumBy_ofList_le id (config.claims.map fun c => (c.address, c.amount))
  rw [List.map_map] at hsum
  show sumBy id _ ≤ config.claims.foldl (fun acc c => (acc + c.amount) % balanceLimit) 0
  rw [foldl_amounts (by omega), Nat.zero_add]
  exact hsum

/-- Over any calls whose sums fit, the total covers the claims in every state. -/
theorem solvent_run {actions : List (Action A σ H)} (hs : Solvent s)
    (hfits : Along (next T) ActionFits s actions) : Solvent (actions.foldl (next T) s) := by
  induction actions generalizing s with
  | nil => exact hs
  | cons a actions ih => exact ih (solvent_next a hs hfits.1) hfits.2

/-! ## Unsigned claims -/

/-- An accepted call is one by a signer with a claim, and passes the checks that it makes when
it is dispatched. -/
theorem addressed_of_accepted {call : Call A} {valid : ValidTransaction}
    (h : validateUnsigned T call s = .ok valid) :
    ∃ dest signer, Addressed T s signer dest (.none, call) ∧ (s.claims.lookup signer).isSome := by
  simp only [validateUnsigned, bind_eq_ok, okOr_eq_ok, ensure_eq_ok] at h
  obtain ⟨⟨maybeSigner, maybeStatement⟩, hparts, signer, hsigner, _, hclaim, _, hstatement, _⟩ := h
  cases call with
  | claim dest signature =>
    cases hparts
    refine ⟨dest, signer, ⟨rfl, rfl, hsigner, ?_⟩, hclaim⟩
    -- without a statement, none may be asked for
    cases hkind : s.signing.lookup signer with
    | none => rfl
    | some kind =>
      rw [hkind] at hstatement
      cases hstatement
  | claimAttest dest signature statement =>
    cases hparts
    refine ⟨dest, signer, ⟨rfl, rfl, hsigner, ?_⟩, hclaim⟩
    unfold ensureStatement
    cases hkind : s.signing.lookup signer with
    | none => rfl
    | some kind =>
      rw [hkind] at hstatement
      have htext : some kind.toText = some statement := of_decide_eq_true hstatement
      exact ensure_eq_ok.mpr (decide_eq_true (Option.some.inj htext))
  | attest statement => cases hparts
  | mintClaim => cases hparts
  | moveClaim => cases hparts

/-- The conflict that keeps a claim with schedules from being paid. -/
def VestingConflict (T : Config A σ H) (s : State A σ H) (signer : EthereumAddress) (dest : A) :
    Prop :=
  (s.vesting.lookup signer).isSome ∧
    (T.vestingSchedule.vestingBalance s.block s.ledger dest).isSome

instance (T : Config A σ H) (s : State A σ H) (signer : EthereumAddress) (dest : A) :
    Decidable (VestingConflict T s signer dest) := by
  unfold VestingConflict
  infer_instance

omit [DecidableEq A] in
/-- A claim that the total covers is paid, or refused for the conflict. -/
theorem processClaim_of_covered {signer : EthereumAddress} {balanceDue : Nat} (dest : A)
    (hclaim : s.claims.lookup signer = some balanceDue) (hle : balanceDue ≤ s.total) :
    if VestingConflict T s signer dest then
      processClaim T signer dest s = .error (.module .vestedBalanceExists)
    else ∃ s', processClaim T signer dest s = .ok s' := by
  split
  next hconflict =>
    have hcheck : (!((s.vesting.lookup signer).isSome &&
        (T.vestingSchedule.vestingBalance s.block s.ledger dest).isSome)) = false := by
      rw [hconflict.1, hconflict.2]
      rfl
    simp only [processClaim, hclaim, hcheck, okOr, bind, Except.bind, ensure, hle, decide_true,
      if_true, Bool.false_eq_true, if_false]
  next hconflict =>
    apply processClaim_ok_iff.mpr
    refine ⟨balanceDue, hclaim, hle, ?_⟩
    cases hvesting : s.vesting.lookup signer with
    | none => exact Or.inl rfl
    | some schedules =>
      cases hbalance : T.vestingSchedule.vestingBalance s.block s.ledger dest with
      | none => exact Or.inr rfl
      | some balance =>
        exact absurd ⟨by rw [hvesting]; rfl, by rw [hbalance]; rfl⟩ hconflict

/-- In every state that calls, whose sums fit, lead to from a genesis: an unsigned call that is
accepted passes its checks when it is dispatched, and pays the claim, except that it fails with
`VestedBalanceExists`, and changes nothing, exactly when the claim has schedules and the
destination vests already. -/
theorem accepted_claim_succeeds (T : Config A σ H) (config : GenesisConfig A) (ledger : σ)
    (handler : H) (actions : List (Action A σ H))
    (hgenesis : (config.claims.map GenesisClaim.amount).sum < balanceLimit)
    (hfits : Along (next T) ActionFits (genesisBuild config ledger handler) actions)
    (s : State A σ H) (hs : s = actions.foldl (next T) (genesisBuild config ledger handler))
    (call : Call A) (valid : ValidTransaction) (haccepted : validateUnsigned T call s = .ok valid) :
    ∃ dest signer, Addressed T s signer dest (.none, call) ∧
      (VestingConflict T s signer dest →
        dispatch T .none call s = .error (.module .vestedBalanceExists) ∧
          applyCall T s (.none, call) = s) ∧
      (¬VestingConflict T s signer dest → ∃ s', dispatch T .none call s = .ok s') := by
  have hsolvent : Solvent s := hs ▸ solvent_run (solvent_genesis ledger handler hgenesis) hfits
  obtain ⟨dest, signer, haddressed, hclaim⟩ := addressed_of_accepted haccepted
  obtain ⟨balanceDue, hclaim⟩ := Option.isSome_iff_exists.mp hclaim
  have hprocess := processClaim_of_covered (T := T) dest hclaim (hsolvent.covers hclaim)
  refine ⟨dest, signer, haddressed, fun hconflict => ?_, fun hconflict => ?_⟩
  · rw [if_pos hconflict] at hprocess
    have hdispatch := haddressed.dispatch_error hprocess
    refine ⟨hdispatch, ?_⟩
    rw [applyCall, hdispatch]
  · rw [if_neg hconflict] at hprocess
    obtain ⟨s', hs', _⟩ := haddressed.dispatch (processClaim_ok_iff.mp hprocess)
    exact ⟨s', hs'⟩

/-- A runtime in which every signature is valid, and by the address `mockAddress 0`. -/
def mockSigned : Config Nat (VestedLedger Nat) (List (Nat × Nat × Nat)) :=
  { mockRuntime with secp256k1EcdsaRecover := fun _ _ => some [] }

/-- One claim, minted over with a greater one before it is claimed. -/
theorem accepted_claim_succeeds_mock :
    let config : GenesisConfig Nat := ⟨[⟨mockAddress 0, 100, none, none, none⟩], []⟩
    let s := [Action.call .root (.mintClaim (mockAddress 0) 150 none none)].foldl (next mockSigned)
      (genesisBuild config mockLedger [])
    ∃ dest signer, Addressed mockSigned s signer dest
        (.none, .claim 7 (Vector.replicate 65 0)) ∧
      (VestingConflict mockSigned s signer dest →
        dispatch mockSigned .none (.claim 7 (Vector.replicate 65 0)) s =
          .error (.module .vestedBalanceExists) ∧
          applyCall mockSigned s (.none, .claim 7 (Vector.replicate 65 0)) = s) ∧
      (¬VestingConflict mockSigned s signer dest →
        ∃ s', dispatch mockSigned .none (.claim 7 (Vector.replicate 65 0)) s = .ok s') := by
  intro config s
  exact accepted_claim_succeeds mockSigned config mockLedger []
    [.call .root (.mintClaim (mockAddress 0) 150 none none)] (by decide)
    ⟨fun _ => by decide, trivial⟩ s rfl _ _ rfl

end XXChain.Claims
