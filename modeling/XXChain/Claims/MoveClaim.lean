import XXChain.Claims.Payment

/-!
# XXChain — moving a claim

`move_claim` hands the claim of one address over to another. The new address has it as the
old one did, except for the betanet reward: `Rewards` is not among the maps that are moved,
so a claim that has one is paid without it, and the entry of the old address stays behind.

* **`processClaim_moved`** — a moved claim is paid, or refused, as it was before the move;
* **`moveClaim_transparent_iff`** — the move is transparent to the claimant exactly when the
  claim has no reward, or no account can be paid.
-/

namespace XXChain.Claims

open StorageMap

variable {A σ H : Type} [DecidableEq A] {T : Config A σ H} {s s' s₁ s₁' : State A σ H}
  {old new : EthereumAddress} {origin : Origin A} {preclaim : Option A}

/-! ## Transparency -/

/-- `s₁` is `s` after the claim of `old` is paid, and `s₁'` is `s'` after the one of `new` is:
the same coins and schedules, the same reward and event, and nothing left of `old`. -/
structure SamePayout (old new : EthereumAddress) (s s' s₁ s₁' : State A σ H) : Prop where
  ledger : s₁'.ledger = s₁.ledger
  handler : s₁'.handler = s₁.handler
  total : s₁'.total = s₁.total
  event : ∃ dest amount reward, s₁.events = s.events ++ [.claimed dest old amount reward] ∧
    s₁'.events = s'.events ++ [.claimed dest new amount reward]
  claims : s₁'.claims.lookup old = none
  vesting : s₁'.vesting.lookup old = none
  signing : s₁'.signing.lookup old = none
  rewards : s₁'.rewards.lookup old = none

/-- What the move from `s` to `s'` has to keep for the claimant. -/
structure Transparent (T : Config A σ H) (old new : EthereumAddress) (preclaim : Option A)
    (s s' : State A σ H) : Prop where
  statement : s'.signing.lookup new = s.signing.lookup old
  process : ∀ dest, Alike (SamePayout old new s s') (processClaim T old dest s)
    (processClaim T new dest s')
  attest : ∀ who, preclaim = some who → s.preclaims.lookup who = some old →
    s'.preclaims.lookup who = some new ∧
    ∀ text, Alike (SamePayout old new s s') (attest T (.signed who) text s)
      (attest T (.signed who) text s')

/-! ## The entries of the moved claim -/

section Moved

variable {V : Type} {m : StorageMap EthereumAddress V}

/-- The new address has the entry that the old one had. -/
theorem lookup_moveEntry_dest (hnew : m.lookup new = none) :
    (moveEntry old new m).lookup new = m.lookup old := by
  unfold moveEntry
  cases hold : m.lookup old with
  | none => exact hnew
  | some v => exact Finmap.lookup_insert _

/-- The old address has none. -/
theorem lookup_moveEntry_source (hne : old ≠ new) : (moveEntry old new m).lookup old = none := by
  unfold moveEntry
  cases hold : m.lookup old with
  | none => exact hold
  | some v => rw [Finmap.lookup_insert_of_ne _ hne, Finmap.lookup_erase]

end Moved

/-- `s'` is `s` with the entries of `old` moved to `new`. -/
structure Moved (old new : EthereumAddress) (preclaim : Option A) (s s' : State A σ H) :
    Prop where
  ne : old ≠ new
  claims : s'.claims.lookup new = s.claims.lookup old
  claims_old : s'.claims.lookup old = none
  vesting : s'.vesting.lookup new = s.vesting.lookup old
  vesting_old : s'.vesting.lookup old = none
  signing : s'.signing.lookup new = s.signing.lookup old
  signing_old : s'.signing.lookup old = none
  rewards : s'.rewards = s.rewards
  rewards_new : s.rewards.lookup new = none
  preclaims : s'.preclaims = movePreclaim old new preclaim s.preclaims
  block : s'.block = s.block
  total : s'.total = s.total
  ledger : s'.ledger = s.ledger
  handler : s'.handler = s.handler

theorem moveClaim_moved (hne : old ≠ new) (hclaims : s.claims.lookup new = none)
    (hvesting : s.vesting.lookup new = none) (hsigning : s.signing.lookup new = none)
    (hrewards : s.rewards.lookup new = none)
    (hmove : moveClaim T origin old new preclaim s = .ok s') :
    Moved old new preclaim s s' := by
  simp only [moveClaim, bind_eq_ok] at hmove
  obtain ⟨_, _, hs'⟩ := hmove
  cases hs'
  exact
    { ne := hne
      claims := lookup_moveEntry_dest hclaims
      claims_old := lookup_moveEntry_source hne
      vesting := lookup_moveEntry_dest hvesting
      vesting_old := lookup_moveEntry_source hne
      signing := lookup_moveEntry_dest hsigning
      signing_old := lookup_moveEntry_source hne
      rewards := rfl
      rewards_new := hrewards
      preclaims := rfl
      block := rfl
      total := rfl
      ledger := rfl
      handler := rfl }

/-! ## Paying it -/

/-- The moved claim is refused when the claim was, and with the same error. -/
theorem processClaim_moved (h : Moved old new preclaim s s') (dest : A) :
    Alike (fun _ _ => True) (processClaim T old dest s) (processClaim T new dest s') := by
  unfold processClaim
  -- the checks of the two read the same values
  rw [h.claims, h.vesting, h.total, h.block, h.ledger]
  refine (Alike.refl _).bind ?_
  rintro balanceDue _ rfl
  refine (Alike.refl _).bind ?_
  rintro _ _ rfl
  refine (Alike.refl _).bind ?_
  rintro _ _ rfl
  trivial

/-- Without a reward, it is paid as it would have been. -/
theorem samePayout_of_no_reward (h : Moved old new preclaim s s')
    (hreward : s.rewards.lookup old = none) {dest : A}
    (hold : processClaim T old dest s = .ok s₁) (hnew : processClaim T new dest s' = .ok s₁') :
    SamePayout old new s s' s₁ s₁' := by
  obtain ⟨v, hv, _, _, hs₁⟩ := processClaim_eq_ok.mp hold
  obtain ⟨v', hv', _, _, hs₁'⟩ := processClaim_eq_ok.mp hnew
  -- the same claim, since the new address has the one of the old
  have hsame : v' = v := by
    rw [h.claims, hv] at hv'
    exact (Option.some.inj hv').symm
  have hreward' : s'.rewards.lookup new = none := by rw [h.rewards, h.rewards_new]
  cases hs₁
  cases hs₁'
  subst hsame
  refine ⟨?_, ?_, ?_, ⟨dest, v', 0, ?_, ?_⟩, ?_, ?_, ?_, ?_⟩
  · simp only [payment, h.vesting, h.block, h.ledger]
  · rw [payment_handler_none hreward, payment_handler_none hreward', h.handler]
  · simp only [payment, h.total]
  · simp only [payment, hreward, Option.getD_none]
  · simp only [payment, hreward', Option.getD_none]
  · exact (Finmap.lookup_erase_ne h.ne).trans h.claims_old
  · exact (Finmap.lookup_erase_ne h.ne).trans h.vesting_old
  · exact (Finmap.lookup_erase_ne h.ne).trans h.signing_old
  · show (s'.rewards.erase new).lookup old = none
    rw [Finmap.lookup_erase_ne h.ne, h.rewards, hreward]

/-- What `move_claim` keeps of a claim that has no reward, or cannot be paid. -/
theorem process_alike (h : Moved old new preclaim s s')
    (hcond : s.rewards.lookup old = none ∨ ∀ dest, ¬ Payable T s old dest) (dest : A) :
    Alike (SamePayout old new s s') (processClaim T old dest s) (processClaim T new dest s') := by
  -- the two fail alike, and when both succeed they do the same
  refine (processClaim_moved h dest).imp ?_
  intro s₁ s₁' hold hnew _
  rcases hcond with hreward | hunpaid
  · exact samePayout_of_no_reward h hreward hold hnew
  · exact absurd (processClaim_ok_iff.mp ⟨s₁, hold⟩) (hunpaid dest)

theorem attest_eq {who : A} {signer : EthereumAddress} {text : List UInt8}
    (h : s.preclaims.lookup who = some signer) :
    attest T (.signed who) text s =
      ensureStatement signer text s >>= fun _ => processClaim T signer who s >>= fun s =>
        .ok { s with preclaims := s.preclaims.erase who } := by
  show (okOr (s.preclaims.lookup who) (DispatchError.module Error.senderHasNoClaim) >>= _) = _
  rw [h]
  rfl

/-- The account of a moved preclaim attests the moved claim. -/
theorem attest_alike (h : Moved old new preclaim s s')
    (hcond : s.rewards.lookup old = none ∨ ∀ dest, ¬ Payable T s old dest) {who : A}
    (hwho : preclaim = some who) (hold : s.preclaims.lookup who = some old) :
    s'.preclaims.lookup who = some new ∧
    ∀ text, Alike (SamePayout old new s s') (attest T (.signed who) text s)
      (attest T (.signed who) text s') := by
  have hnew : s'.preclaims.lookup who = some new := by
    rw [h.preclaims, hwho]
    -- the account names the old address, so the move points it to the new one
    simp only [movePreclaim, hold, if_true]
    exact Finmap.lookup_insert _
  refine ⟨hnew, fun text => ?_⟩
  have hstatement : ensureStatement new text s' = ensureStatement old text s := by
    simp only [ensureStatement, h.signing]
  rw [attest_eq hold, attest_eq hnew, hstatement]
  refine (Alike.refl _).bind ?_
  rintro _ _ rfl
  refine (process_alike h hcond who).bind ?_
  intro s₁ s₁' hpaid
  exact ⟨hpaid.ledger, hpaid.handler, hpaid.total, hpaid.event, hpaid.claims, hpaid.vesting,
    hpaid.signing, hpaid.rewards⟩

/-- A move to an address without entries is transparent to the claimant exactly when the claim
has no betanet reward, or can be paid to no account. -/
theorem moveClaim_transparent_iff (T : Config A σ H) (origin : Origin A)
    (old new : EthereumAddress) (preclaim : Option A) (s s' : State A σ H) (hne : old ≠ new)
    (hclaims : s.claims.lookup new = none) (hvesting : s.vesting.lookup new = none)
    (hsigning : s.signing.lookup new = none) (hrewards : s.rewards.lookup new = none)
    (hmove : moveClaim T origin old new preclaim s = .ok s') :
    Transparent T old new preclaim s s' ↔
      s.rewards.lookup old = none ∨ ∀ dest, ¬ Payable T s old dest := by
  have h := moveClaim_moved hne hclaims hvesting hsigning hrewards hmove
  constructor
  · intro htransparent
    refine or_iff_not_imp_right.mpr fun hpayable => ?_
    obtain ⟨dest, hdest⟩ := not_forall_not.mp hpayable
    obtain ⟨s₁, hs₁⟩ := processClaim_ok_iff.mpr hdest
    have hprocess := htransparent.process dest
    rw [hs₁] at hprocess
    obtain ⟨s₁', hs₁', hsame⟩ := hprocess.ok
    -- the payment took the reward of `new`, so that of `old` was not there before
    have hgone := hsame.rewards
    rw [processClaim_rewards hs₁', Finmap.lookup_erase_ne h.ne, h.rewards] at hgone
    exact hgone
  · intro hcond
    exact ⟨h.signing, process_alike h hcond, fun _ => attest_alike h hcond⟩

/-- The claim of `mockAddress 2`, without a reward, moved to a fresh address. -/
theorem moveClaim_transparent_iff_mock :
    let s := genesisBuild mockGenesis mockLedger []
    let s' := applyCall mockRuntime s
      (.signed 99, .moveClaim (mockAddress 2) (mockAddress 5) (some 42))
    Transparent mockRuntime (mockAddress 2) (mockAddress 5) (some 42) s s' :=
  (moveClaim_transparent_iff mockRuntime (.signed 99) (mockAddress 2) (mockAddress 5) (some 42) _
    _ (by decide) (by rfl) (by rfl) (by rfl) (by rfl) (by rfl)).mpr (Or.inl (by rfl))

/-- The claim of `mockAddress 1` has a reward of `7`, which does not move with it. -/
theorem moved_reward_is_left_behind :
    let s := genesisBuild mockGenesis mockLedger []
    let s' := applyCall mockRuntime s
      (.signed 99, .moveClaim (mockAddress 1) (mockAddress 5) (some 42))
    ¬ Transparent mockRuntime (mockAddress 1) (mockAddress 5) (some 42) s s' := by
  intro s s' h
  have hprocess := h.process 42
  obtain ⟨s₁', hs₁', hsame⟩ := Alike.ok hprocess
  have hleft : s₁'.rewards.lookup (mockAddress 1) = some 7 := by
    cases hs₁'
    rfl
  rw [hsame.rewards] at hleft
  cases hleft

end XXChain.Claims
