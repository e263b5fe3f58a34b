import XXChain.Economics.Model

/-!
# XXChain — when the era payout returns

`era_payout` runs inside block initialisation, where a panic halts the chain, and reads a
configuration that the admin calls and the genesis store unchecked.

* **`eraPayout_returns_iff`** — after any run it returns exactly when the interest points
  given last are not the empty list and the balances that cannot be staked add up to a
  balance. Nothing else in it can go wrong.
-/

namespace XXChain.Economics

variable {A σ : Type} {T : Config A σ} {s : State σ}

/-! ## The interest curve -/

theorem index_isOk {α : Type} {l : List α} {i : Nat} (h : i < l.length) :
    index l i = .ok (l[i]) := by
  simp [index, h]

theorem subtract_eq_ok {a b : Nat} (h : b ≤ a) : subtract a b = .ok (a - b) :=
  if_pos h

/-- Between a point below the block and one at or above it nothing underflows: the midpoint
of an era is never more than an era away. -/
theorem computeIdealInterest_returns {block : Nat} {start stop : IdealInterestPoint}
    (hstart : start.block < block) (hstop : block ≤ stop.block) :
    ∃ interest, computeIdealInterest T block start stop = .ok interest := by
  unfold computeIdealInterest
  have hblocks : start.block ≤ stop.block := (Nat.le_of_lt hstart).trans hstop
  have hhalf := Perbill.of_le (Perbill.fromRational 1 2) T.eraDuration
  have hcalc : ∃ calcBlock,
      (if T.eraDuration ≤ block then
        subtract block ((Perbill.fromRational 1 2).of T.eraDuration)
      else .ok block : Except Panic Nat) = .ok calcBlock := by
    split
    · exact ⟨_, subtract_eq_ok (hhalf.trans ‹_›)⟩
    · exact ⟨_, rfl⟩
  obtain ⟨calcBlock, hcalc⟩ := hcalc
  dsimp only
  rw [subtract_eq_ok hblocks, hcalc]
  split <;> split <;> exact ⟨_, rfl⟩

/-- A point to read is found in every list but the empty one. -/
theorem getIdealInterest_returns_iff {block : Nat} {points : List IdealInterestPoint} :
    (∃ interest, getIdealInterest T block points = .ok interest) ↔ points ≠ [] := by
  constructor
  · rintro ⟨interest, h⟩ rfl
    simp [getIdealInterest, unwrap, bind, Except.bind] at h
  · intro hne
    unfold getIdealInterest
    cases hfind : points.findIdx? (fun p => decide (block ≤ p.block)) with
    | none =>
      obtain ⟨last, hlast⟩ := Option.ne_none_iff_exists'.mp (List.getLast?_eq_none_iff.not.mpr hne)
      rw [hlast]
      exact ⟨last.interest, rfl⟩
    | some i =>
      -- the point at `i` is the first at or above the block, so the one before it is below
      obtain ⟨hlt, hat, hbefore⟩ := List.findIdx?_eq_some_iff_getElem.mp hfind
      dsimp only
      split
      · rw [index_isOk (by omega)]
        exact ⟨_, rfl⟩
      · next hi =>
        have hprev : i - 1 < points.length := by omega
        rw [index_isOk hprev, index_isOk hlt]
        apply computeIdealInterest_returns
        · simpa using hbefore (i - 1) (by omega)
        · simpa using hat

/-! ## The balances that cannot be staked -/

/-- The sum of the balances that `compute_total_stakeable` subtracts. -/
def unstakeable (T : Config A σ) (s : State σ) : Nat :=
  rewardsBalance T s + T.totalCustody s.ledger + s.liquidityRewards +
    ((T.publicAccounts s.ledger).map (T.currency.freeBalance s.ledger)).sum

theorem addBalance_bind {α : Type} (a b : Nat) (f : Nat → Except Panic α) :
    (addBalance a b >>= f) = if a + b < balanceLimit then f (a + b) else .error .addOverflow := by
  unfold addBalance
  split <;> rfl

/-- A loop that adds balances adds their sum. -/
theorem foldlM_addBalance (f : A → Nat) (l : List A) (acc : Nat) (hacc : acc < balanceLimit) :
    l.foldlM (fun acc x => addBalance acc (f x)) acc = addBalance acc (l.map f).sum := by
  induction l generalizing acc with
  | nil =>
    rw [List.map_nil, List.sum_nil, addBalance, Nat.add_zero, if_pos hacc]
    rfl
  | cons x l ih =>
    rw [List.foldlM_cons, addBalance_bind, List.map_cons, List.sum_cons]
    split
    · next hx => rw [ih _ hx, addBalance, addBalance, Nat.add_assoc]
    · next hx => rw [addBalance, if_neg (by omega)]

theorem computeTotalStakeable_eq (T : Config A σ) (issuance : Nat) (s : State σ) :
    computeTotalStakeable T issuance s =
      if unstakeable T s < balanceLimit then .ok (issuance - unstakeable T s)
      else .error .addOverflow := by
  unfold computeTotalStakeable unstakeable
  rw [foldlM_addBalance _ _ 0 (by decide)]
  simp only [addBalance_bind, Nat.zero_add]
  -- each sum of the chain is at most the whole
  split_ifs <;> first | rfl | omega

/-- In any state, the payout returns exactly when there is a point to read and the balances
that cannot be staked add up. -/
theorem eraPayout_isOk_iff {totalStaked totalIssuance millis : Nat} :
    (∃ result, eraPayout T totalStaked totalIssuance millis s = .ok result) ↔
      s.interestPoints ≠ [] ∧ unstakeable T s < balanceLimit := by
  have hpoints : (∃ interest, getIdealInterest T s.block s.interestPoints = .ok interest) ↔
      s.interestPoints ≠ [] := getIdealInterest_returns_iff
  rw [← hpoints]
  unfold eraPayout
  rw [computeTotalStakeable_eq]
  cases hinterest : getIdealInterest T s.block s.interestPoints with
  | error e => simp [bind, Except.bind]
  | ok interest =>
    by_cases hsum : unstakeable T s < balanceLimit <;> simp [hsum, bind, Except.bind]

/-! ## Runs -/

/-- What happens between two eras: admin calls, era ends, and anything at all in the block
number and in the storage of the other pallets. -/
inductive Action (A σ : Type) where
  | admin (origin : Origin A) (call : Call)
  | era (totalStaked totalIssuance eraDurationMillis : Nat)
  | environment (block : Nat) (ledger : σ)

/-- One action; a failing call changes nothing, and a panic ends the chain as it is. -/
def perform (T : Config A σ) (s : State σ) : Action A σ → State σ
  | .admin origin call =>
    match dispatch T origin call s with
    | .ok s' => s'
    | .error _ => s
  | .era totalStaked totalIssuance millis =>
    match eraPayout T totalStaked totalIssuance millis s with
    | .ok (s', _) => s'
    | .error _ => s
  | .environment block ledger => { s with block, ledger }

def run (T : Config A σ) (config : GenesisConfig) (ledger : σ) (actions : List (Action A σ)) :
    State σ :=
  actions.foldl (perform T) (genesisBuild config ledger)

/-- The interest points an action gives, or those given before it. -/
def givenPoints (T : Config A σ) (points : List IdealInterestPoint) :
    Action A σ → List IdealInterestPoint
  | .admin origin (.setInterestPoints new) =>
    match ensureAdmin T origin with
    | .ok _ => new
    | .error _ => points
  | _ => points

/-- The interest points given last: by the genesis, or by the last `set_interest_points` from
an admin. -/
def lastPoints (T : Config A σ) (config : GenesisConfig) (actions : List (Action A σ)) :
    List IdealInterestPoint :=
  actions.foldl (givenPoints T) config.interestPoints

theorem eraPayout_interestPoints {totalStaked totalIssuance millis : Nat} {s' : State σ}
    {payout : Nat × Nat} (h : eraPayout T totalStaked totalIssuance millis s = .ok (s', payout)) :
    s'.interestPoints = s.interestPoints := by
  simp only [eraPayout, bind_eq_ok] at h
  obtain ⟨_, _, _, _, hs'⟩ := h
  cases hs'
  rfl

/-- One action stores the sorted form of the points it gives, if it gives any. -/
theorem perform_interestPoints {points : List IdealInterestPoint}
    (h : s.interestPoints = sortPoints points) (action : Action A σ) :
    (perform T s action).interestPoints = sortPoints (givenPoints T points action) := by
  cases action with
  | environment block ledger => exact h
  | era totalStaked totalIssuance millis =>
    cases hera : eraPayout T totalStaked totalIssuance millis s with
    | error e =>
      simp only [perform, hera]
      exact h
    | ok result =>
      simp only [perform, hera]
      exact (eraPayout_interestPoints hera).trans h
  | admin origin call =>
    cases hadmin : ensureAdmin T origin with
    | error e =>
      -- not an admin: nothing is given and nothing is stored
      cases call <;>
        simp [perform, dispatch, setInflationParams, setInterestPoints, setLiquidityRewardsStake,
          setLiquidityRewardsBalance, givenPoints, hadmin, h, bind, Except.bind]
    | ok u =>
      cases call <;>
        simp [perform, dispatch, setInflationParams, setInterestPoints, setLiquidityRewardsStake,
          setLiquidityRewardsBalance, givenPoints, hadmin, h, bind, Except.bind,
          State.depositEvent]

/-- After any run the storage holds the points given last, sorted. -/
theorem run_interestPoints (T : Config A σ) (config : GenesisConfig) (ledger : σ)
    (actions : List (Action A σ)) :
    (run T config ledger actions).interestPoints = sortPoints (lastPoints T config actions) := by
  unfold run lastPoints
  have hgenesis : (genesisBuild config ledger).interestPoints =
      sortPoints config.interestPoints := rfl
  generalize genesisBuild config ledger = s at hgenesis
  generalize config.interestPoints = points at hgenesis
  induction actions generalizing s points with
  | nil => exact hgenesis
  | cons action actions ih => exact ih _ _ (perform_interestPoints hgenesis action)

theorem sortPoints_ne_nil {points : List IdealInterestPoint} :
    sortPoints points ≠ [] ↔ points ≠ [] := by
  have hperm := List.perm_insertionSort (fun a b : IdealInterestPoint => a.block ≤ b.block) points
  rw [ne_eq, ne_eq, not_iff_not, sortPoints]
  constructor
  · intro h
    rw [h] at hperm
    exact List.nil_perm.mp hperm
  · rintro rfl
    rfl

/-- After any run from any genesis configuration, the era payout returns a value exactly
when the interest points given last are not empty and the balances that cannot be staked add
up to a balance, whatever the stake, the issuance and the duration of the era. -/
theorem eraPayout_returns_iff (T : Config A σ) (config : GenesisConfig) (ledger : σ)
    (actions : List (Action A σ)) (totalStaked totalIssuance millis : Nat) :
    (∃ result, eraPayout T totalStaked totalIssuance millis (run T config ledger actions) =
      .ok result) ↔
    lastPoints T config actions ≠ [] ∧
      unstakeable T (run T config ledger actions) < balanceLimit := by
  rw [eraPayout_isOk_iff, run_interestPoints, sortPoints_ne_nil]

/-- An admin call that empties the list of points succeeds, and the next era end panics; so
does one after the liquidity rewards are set to the largest balance. -/
theorem eraPayout_panics :
    (∃ s, dispatch (mockRuntime 1) (.signed 99) (.setInterestPoints [])
        (genesisBuild mockGenesis (mockLedger 300)) = .ok s ∧
      eraPayout (mockRuntime 1) 500 1300 86400000 s = .error .unwrapNone) ∧
    (∃ s, dispatch (mockRuntime 1) (.signed 99) (.setLiquidityRewardsBalance (2 ^ 128 - 1))
        (genesisBuild mockGenesis (mockLedger 300)) = .ok s ∧
      eraPayout (mockRuntime 1) 500 1300 86400000 s = .error .addOverflow) :=
  ⟨⟨_, rfl, rfl⟩, ⟨_, rfl, rfl⟩⟩

end XXChain.Economics
