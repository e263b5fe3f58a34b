import XXChain.Claims.Payment
import XXChain.Lib.Run

/-!
# XXChain — the total of the claims

`Total` is meant to be the sum of all claims. Claiming keeps it so, but `mint_claim` and
`move_claim` write over a claim that the address already has, and leave its amount in the
total.

* **`applyCall_total`** — a call changes the total and the sum alike, but for the amount that
  it writes over;
* **`total_eq_sum_iff`** — over a run of any calls the total is the sum of the claims in every
  state exactly when no claim with an amount is ever written over.
-/

namespace XXChain.Claims

open StorageMap

variable {A σ H : Type} [DecidableEq A] {T : Config A σ H} {s s' : State A σ H}

/-- The sum of all claims. -/
def claimsSum (s : State A σ H) : Nat :=
  sumBy id s.claims

/-! ## What a call loses -/

/-- The amount of the claim that a call writes over: `mint_claim` the one its address has,
`move_claim` the one at its target. A call that fails writes nothing. -/
def overwritten (T : Config A σ H) (s : State A σ H) : Origin A × Call A → Nat
  | (origin, .mintClaim who _ _ _) =>
    match (ensureRoot origin : DispatchResult Unit) with
    | .ok _ => valueAt id s.claims who
    | .error _ => 0
  | (origin, .moveClaim old new _) =>
    match ensureMove T origin with
    | .ok _ => if (s.claims.lookup old).isSome ∧ old ≠ new then valueAt id s.claims new else 0
    | .error _ => 0
  | _ => 0

/-- The total that `mint_claim` computes fits in a balance. -/
def Fits (s : State A σ H) : Origin A × Call A → Prop
  | (origin, .mintClaim _ value _ _) => origin = .root → s.total + value < balanceLimit
  | _ => True

/-! ## One call -/

omit [DecidableEq A] in
/-- A claim that is paid leaves the sum and the total together. -/
theorem processClaim_total {signer : EthereumAddress} {dest : A}
    (h : processClaim T signer dest s = .ok s') :
    s'.total + claimsSum s = s.total + claimsSum s' := by
  obtain ⟨v, hclaim, hle, _, rfl⟩ := processClaim_eq_ok.mp h
  have herase := sumBy_erase id s.claims signer
  rw [valueAt_of_some hclaim] at herase
  show s.total - v + claimsSum s = s.total + sumBy id (s.claims.erase signer)
  unfold claimsSum
  simp only [id_eq] at herase
  omega

/-- Moving an entry keeps the sum but for the entry it is written over. -/
theorem sumBy_moveEntry {V : Type} (f : V → Nat) (m : StorageMap EthereumAddress V)
    (old new : EthereumAddress) :
    sumBy f (moveEntry old new m) +
        (if (m.lookup old).isSome ∧ old ≠ new then valueAt f m new else 0) = sumBy f m := by
  unfold moveEntry
  cases hold : m.lookup old with
  | none => simp
  | some v =>
    have herase := sumBy_erase f m old
    have hinsert := sumBy_insert f (m.erase old) new v
    rw [valueAt_of_some hold] at herase
    by_cases hne : old = new
    · -- the entry is taken out and put back
      subst hne
      rw [valueAt_of_none (Finmap.lookup_erase _ _)] at hinsert
      simp only [Option.isSome_some, ne_eq, not_true_eq_false, and_false, if_false]
      omega
    · have hnew : valueAt f (m.erase old) new = valueAt f m new := by
        rw [valueAt, valueAt, Finmap.lookup_erase_ne (Ne.symm hne)]
      rw [hnew] at hinsert
      simp only [Option.isSome_some, ne_eq, hne, not_false_eq_true, and_self, if_true]
      omega

/-- A call that pays a claim, or fails, keeps the total next to the sum. -/
theorem applyCall_total_of_pays {origin : Origin A} {call : Call A} (hpays : call.pays = true) :
    (applyCall T s (origin, call)).total + claimsSum s =
      s.total + claimsSum (applyCall T s (origin, call)) := by
  rcases applyCall_pays T s origin hpays with
    ⟨_, _, _, _, s₁, hpaid, hs₁⟩ | hsame
  · have htotal := processClaim_total hpaid
    rw [hs₁]
    exact htotal
  · rw [hsame]

/-- One call: the total and the sum change alike, but for what is written over. -/
theorem applyCall_total (call : Origin A × Call A) (hfits : Fits s call) :
    (applyCall T s call).total + claimsSum s =
      s.total + claimsSum (applyCall T s call) + overwritten T s call := by
  obtain ⟨origin, call⟩ := call
  cases call with
  | claim dest signature =>
    exact applyCall_total_of_pays rfl
  | claimAttest dest signature statement =>
    exact applyCall_total_of_pays rfl
  | attest statement =>
    exact applyCall_total_of_pays rfl
  | mintClaim who value vesting statement =>
    cases origin with
    | root =>
      -- the new amount is added to the total, the one it is written over stays in it
      have hinsert := sumBy_insert id s.claims who value
      have hwrap : (s.total + value) % balanceLimit = s.total + value :=
        Nat.mod_eq_of_lt (hfits rfl)
      show (s.total + value) % balanceLimit + sumBy id s.claims =
        s.total + sumBy id (s.claims.insert who value) + valueAt id s.claims who
      rw [hwrap]
      simp only [id_eq] at hinsert
      omega
    | signed _ => rfl
    | none => rfl
    | other _ => rfl
  | moveClaim old new preclaim =>
    cases hmove : ensureMove T origin with
    | error e =>
      have hfails : dispatch T origin (.moveClaim old new preclaim) s = .error e := by
        simp only [dispatch, moveClaim, hmove]
        rfl
      simp only [applyCall, hfails, overwritten, hmove, Nat.add_zero]
    | ok u =>
      have hsum := sumBy_moveEntry id s.claims old new
      simp only [applyCall, dispatch, moveClaim, overwritten, hmove]
      show s.total + sumBy id s.claims = s.total + sumBy id (moveEntry old new s.claims) + _
      omega

/-! ## Whole runs -/

/-- What happens to the pallet: a call, or the chain around it moving on. -/
inductive Action (A σ H : Type) where
  | call (origin : Origin A) (call : Call A)
  | outside (block : Nat) (ledger : σ) (handler : H)

def next (T : Config A σ H) (s : State A σ H) : Action A σ H → State A σ H
  | .call origin call => applyCall T s (origin, call)
  | .outside block ledger handler =>
    { s with block := block, ledger := ledger, handler := handler }

def TotalIsSum (s : State A σ H) : Prop :=
  s.total = claimsSum s

/-- No sum that the action computes exceeds a balance. -/
def ActionFits (s : State A σ H) : Action A σ H → Prop
  | .call origin call => Fits s (origin, call)
  | .outside .. => True

/-- The action writes over no claim, or over one without an amount. -/
def Keeps (T : Config A σ H) (s : State A σ H) : Action A σ H → Prop
  | .call origin call => overwritten T s (origin, call) = 0
  | .outside .. => True

/-- One step keeps the total the sum exactly when it keeps every claim. -/
theorem totalIsSum_next_iff (a : Action A σ H) (hs : TotalIsSum s) (hfits : ActionFits s a) :
    TotalIsSum (next T s a) ↔ Keeps T s a := by
  cases a with
  | call origin call =>
    have hcall := applyCall_total (T := T) (origin, call) hfits
    unfold TotalIsSum at hs
    show (applyCall T s (origin, call)).total = claimsSum (applyCall T s (origin, call)) ↔
      overwritten T s (origin, call) = 0
    omega
  | outside block ledger handler => exact ⟨fun _ => trivial, fun _ => hs⟩

omit [DecidableEq A] in
/-- The fold of the genesis build adds up the amounts, when they fit. -/
theorem foldl_amounts {l : List (GenesisClaim A)} {start : Nat}
    (h : start + (l.map GenesisClaim.amount).sum < balanceLimit) :
    l.foldl (fun acc c => (acc + c.amount) % balanceLimit) start =
      start + (l.map GenesisClaim.amount).sum := by
  induction l generalizing start with
  | nil => rfl
  | cons c l ih =>
    rw [List.map_cons, List.sum_cons] at h ⊢
    have hwrap : (start + c.amount) % balanceLimit = start + c.amount :=
      Nat.mod_eq_of_lt (by omega)
    rw [List.foldl_cons, hwrap, ih (by omega)]
    omega

theorem totalIsSum_genesis {config : GenesisConfig A} (ledger : σ) (handler : H)
    (hdistinct : (config.claims.map GenesisClaim.address).Nodup)
    (hfits : (config.claims.map GenesisClaim.amount).sum < balanceLimit) :
    TotalIsSum (genesisBuild config ledger handler) := by
  have hkeys : ((config.claims.map fun c => (c.address, c.amount)).map Prod.fst).Nodup := by
    rw [List.map_map]
    exact hdistinct
  have hsum := sumBy_ofList id hkeys
  rw [List.map_map] at hsum
  show config.claims.foldl (fun acc c => (acc + c.amount) % balanceLimit) 0 = _
  rw [foldl_amounts (by omega), Nat.zero_add]
  exact hsum.symm

/-- From a genesis of distinct addresses, over any calls whose sums fit: the total is the sum
of the claims in every state of the run exactly when no call writes over a claim with an
amount. -/
theorem total_eq_sum_iff (T : Config A σ H) (config : GenesisConfig A) (ledger : σ)
    (handler : H) (actions : List (Action A σ H))
    (hdistinct : (config.claims.map GenesisClaim.address).Nodup)
    (hgenesis : (config.claims.map GenesisClaim.amount).sum < balanceLimit)
    (hfits : Along (next T) ActionFits (genesisBuild config ledger handler) actions) :
    Always (next T) TotalIsSum (genesisBuild config ledger handler) actions ↔
      Along (next T) (Keeps T) (genesisBuild config ledger handler) actions := by
  have hstep : ∀ (s : State A σ H) (a : Action A σ H), TotalIsSum s → ActionFits s a →
      (TotalIsSum (next T s a) ∧ True ↔ Keeps T s a) := by
    intro s a hs ha
    rw [and_true]
    exact totalIsSum_next_iff a hs ha
  have hiff := always_iff_along hstep (totalIsSum_genesis ledger handler hdistinct hgenesis) hfits
  rw [← hiff]
  exact ⟨fun h => ⟨h, Along.imp (fun _ _ _ => trivial) hfits⟩, fun h => h.1⟩

/-- A claim is minted, moved and paid, and one is minted for the address it was moved from. -/
def mockActions : List (Action Nat (VestedLedger Nat) (List (Nat × Nat × Nat))) :=
  [.call .root (.mintClaim (mockAddress 3) 50 none none),
    .call (.signed 99) (.moveClaim (mockAddress 1) (mockAddress 4) (some 42)),
    .call (.signed 42) (.attest []),
    .call .root (.mintClaim (mockAddress 1) 30 none none)]

theorem total_eq_sum_iff_mock :
    Always (next mockRuntime) TotalIsSum (genesisBuild mockGenesis mockLedger []) mockActions :=
  (total_eq_sum_iff mockRuntime mockGenesis mockLedger [] mockActions (by decide) (by decide)
    ⟨fun _ => by decide, trivial, trivial, fun _ => by decide, trivial⟩).mpr
    ⟨by rfl, by rfl, by rfl, by rfl, trivial⟩

/-- A claim is minted over one of `100`: the total keeps the `100`. -/
theorem total_exceeds_sum_after_mint :
    ¬ Always (next mockRuntime) TotalIsSum (genesisBuild mockGenesis mockLedger [])
      [.call .root (.mintClaim (mockAddress 1) 50 none none)] := by
  intro h
  have hlast : (350 : Nat) = 250 := h.2
  exact absurd hlast (by decide)

end XXChain.Claims
