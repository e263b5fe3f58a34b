import XXChain.Claims.ExactPayment

/-!
# XXChain — the schedules of a claim are installed

`process_claim` adds the schedules of a claim one by one and ignores what the vesting pallet
returns, since only more schedules than it allows could be refused. But it refuses a schedule
that unlocks nothing per block as well, and neither genesis, `mint_claim` nor
`process_leftover_claim` keeps one from being recorded.

* **`acceptedAt_eq_iff`** — when a schedule is accepted for all that it still locks;
* **`schedules_installed_iff`** — when none of the schedules of a claim is dropped.
-/

namespace XXChain.Claims

variable {A σ H : Type} [DecidableEq A] {T : Config A σ H} {s s₁ : State A σ H}
  {signer : EthereumAddress} {dest : A}

/-- What the schedule still locks at a block. -/
def stillLocks (block : Nat) (v : Schedule) : Nat :=
  v.1 - v.2.1 * (block - v.2.2)

/-- The schedules that are listed for the claim of the signer. -/
def listed (s : State A σ H) (signer : EthereumAddress) : List Schedule :=
  (s.vesting.lookup signer).getD []

/-- A schedule that locks nothing, or unlocks something per block. -/
def Installable (v : Schedule) : Prop :=
  v.1 = 0 ∨ v.2.1 ≠ 0

instance : DecidablePred Installable :=
  fun v => inferInstanceAs (Decidable (v.1 = 0 ∨ v.2.1 ≠ 0))

theorem acceptedAt_of_installable {block : Nat} {v : Schedule} (hbalance : v.1 < balanceLimit)
    (h : Installable v) : acceptedAt block v = stillLocks block v := by
  by_cases hzero : v.1 = 0
  · have hnothing : stillLocks block v = 0 := by
      unfold stillLocks
      rw [hzero, Nat.zero_sub]
    rw [hnothing]
    exact if_pos (Or.inl hzero)
  · have hvalid : ValidSchedule v := ⟨hzero, h.resolve_left hzero⟩
    rw [acceptedAt_of_valid block hvalid]
    exact lockedAt_of_valid hvalid hbalance

/-- A schedule that is refused adds nothing of what it locks, which is all of it. -/
theorem acceptedAt_of_not_installable (block : Nat) {v : Schedule} (h : ¬ Installable v) :
    acceptedAt block v = 0 ∧ stillLocks block v = v.1 ∧ 0 < v.1 := by
  unfold Installable at h
  have hper : v.2.1 = 0 := by omega
  refine ⟨if_pos (Or.inr hper), ?_, by omega⟩
  unfold stillLocks
  rw [hper, Nat.zero_mul, Nat.sub_zero]

theorem acceptedAt_le {block : Nat} {v : Schedule} (hbalance : v.1 < balanceLimit) :
    acceptedAt block v ≤ stillLocks block v := by
  by_cases h : Installable v
  · exact (acceptedAt_of_installable hbalance h).le
  · rw [(acceptedAt_of_not_installable block h).1]
    exact Nat.zero_le _

theorem acceptedAt_eq_iff {block : Nat} {v : Schedule} (hbalance : v.1 < balanceLimit) :
    acceptedAt block v = stillLocks block v ↔ Installable v := by
  constructor
  · intro heq
    by_contra hnot
    obtain ⟨hnone, hall, hpos⟩ := acceptedAt_of_not_installable block hnot
    omega
  · exact acceptedAt_of_installable hbalance

/-- What a payment to a destination without vesting leaves locked. -/
theorem lockedTotal_processClaim (hc : T.currency.Lawful)
    (ht : T.vestingSchedule.Lawful T.currency)
    (hfresh : T.vestingSchedule.vestingBalance s.block s.ledger dest = none)
    (hroom : (listed s signer).length ≤ T.vestingSchedule.maxSchedules)
    (h : processClaim T signer dest s = .ok s₁) :
    lockedTotal s.block (T.vestingSchedule.schedules s₁.ledger dest) =
      ((listed s signer).map (acceptedAt s.block)).sum := by
  have hnone : T.vestingSchedule.schedules s.ledger dest = [] := by
    rw [ht.vestingBalance_eq] at hfresh
    by_contra hsome
    rw [if_neg hsome] at hfresh
    cases hfresh
  have hheld := congrFun (holding_processClaim hc ht h) dest
  rw [Function.update_self] at hheld
  have hschedules : T.vestingSchedule.schedules s₁.ledger dest =
      (listed s signer).foldl (addSchedule T.vestingSchedule.maxSchedules s.block)
        (T.vestingSchedule.schedules s.ledger dest) :=
    congrArg Holding.schedules hheld
  rw [hschedules, hnone, lockedTotal_foldl_of_room le_rfl (by simpa using hroom),
    lockedTotal_nil, Nat.zero_add]

/-- For every state, signer with at most as many schedules as an account may have, and
destination without vesting: after a payment that succeeds, the vesting of the destination locks
what the listed schedules still lock, exactly when each of them locks nothing or unlocks
something per block. -/
theorem schedules_installed_iff (hc : T.currency.Lawful)
    (ht : T.vestingSchedule.Lawful T.currency) (signer : EthereumAddress) (dest : A)
    (s s₁ : State A σ H)
    (hfresh : T.vestingSchedule.vestingBalance s.block s.ledger dest = none)
    (hroom : (listed s signer).length ≤ T.vestingSchedule.maxSchedules)
    (hbalances : ∀ v ∈ listed s signer, v.1 < balanceLimit)
    (h : processClaim T signer dest s = .ok s₁) :
    lockedTotal s.block (T.vestingSchedule.schedules s₁.ledger dest) =
        ((listed s signer).map (stillLocks s.block)).sum ↔
      ∀ v ∈ listed s signer, Installable v := by
  rw [lockedTotal_processClaim hc ht hfresh hroom h,
    sum_map_eq_iff_of_le fun v hv => acceptedAt_le (hbalances v hv)]
  exact forall₂_congr fun v hv => acceptedAt_eq_iff (hbalances v hv)

/-- The mock state with a claim that is minted with the schedule. -/
def mintedWith (v : Schedule) : State Nat (VestedLedger Nat) (List (Nat × Nat × Nat)) :=
  applyCall (mockDeposit 10) (genesisBuild mockGenesis mockLedger [])
    (.root, .mintClaim (mockAddress 3) 200 (some [v]) none)

/-- With `50` that unlock `10` per block nothing is dropped. -/
theorem schedules_installed_mock :
    ∃ s₁, processClaim (mockDeposit 10) (mockAddress 3) 42 (mintedWith (50, 10, 1)) = .ok s₁ ∧
      lockedTotal 0 ((mockDeposit 10).vestingSchedule.schedules s₁.ledger 42) = 50 := by
  refine ⟨_, rfl, ?_⟩
  exact (schedules_installed_iff ((Ledger.currency_lawful (by decide)).along
    VestedLedger.ledgerPart) (VestedLedger.vesting_lawful 28 10) (mockAddress 3) 42
    (mintedWith (50, 10, 1)) _ rfl (by decide) (by decide) rfl).mpr (by decide)

/-- `50` that unlock nothing per block, the only schedule of a claim to an account without
vesting, are dropped, and the coins of the claim are free. -/
theorem schedule_is_dropped :
    (mockDeposit 10).vestingSchedule.vestingBalance 0 (mintedWith (50, 0, 1)).ledger 42 = none ∧
    listed (mintedWith (50, 0, 1)) (mockAddress 3) = [(50, 0, 1)] ∧
    ∃ s₁, processClaim (mockDeposit 10) (mockAddress 3) 42 (mintedWith (50, 0, 1)) = .ok s₁ ∧
      (mockDeposit 10).currency.freeBalance s₁.ledger 42 = 200 ∧
      lockedTotal 0 ((mockDeposit 10).vestingSchedule.schedules s₁.ledger 42) = 0 ∧
      ((listed (mintedWith (50, 0, 1)) (mockAddress 3)).map (stillLocks 0)).sum = 50 :=
  ⟨by decide, by decide, _, rfl, by decide, by decide, by decide⟩

end XXChain.Claims
