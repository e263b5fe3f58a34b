import XXChain.Betanet.Entitlement
import XXChain.Claims.InstalledSchedules

/-!
# XXChain — the lock computed for a claim

`compute_claims_vesting_lock` takes from the desired lock what each schedule of a claim locks at
the enactment block, with the formula of the vesting pallet written out again. A schedule that
unlocks nothing per block stays locked in it, where the vesting pallet unlocks one unit with
each block; and its product is not checked.

* **`countedAt_eq_iff`** and **`countedTotal_eq_iff`** — when the two formulas agree on a
  schedule and on a list of them;
* **`claims_vesting_lock_agrees_iff`** — when the lock that is computed is the one that the
  schedules leave to be locked;
* **`installable_processLeftoverClaim_iff`** — when the schedule that is recorded with the lock
  can be installed.
-/

namespace XXChain.Betanet

open Claims

variable {A σ : Type} {enactmentBlock desired : Nat} {v : Schedule} {schedules : List Schedule}

/-- A schedule of which something is unlocked with each block, or nothing is by then. -/
def Unlocks (enactmentBlock : Nat) (v : Schedule) : Prop :=
  v.2.1 ≠ 0 ∨ v.1 = 0 ∨ enactmentBlock ≤ v.2.2

/-- The vesting pallet never locks more. -/
theorem lockedAt_le_countedAt (hfits : unlockedBy enactmentBlock v < balanceLimit) :
    lockedAt enactmentBlock v ≤ countedAt enactmentBlock v := by
  have hle : v.2.1 * (enactmentBlock - v.2.2) ≤
      (enactmentBlock - v.2.2) * max v.2.1 1 := by
    rw [Nat.mul_comm]
    exact Nat.mul_le_mul_left _ (Nat.le_max_left _ _)
  rw [countedAt_of_fits hfits]
  unfold lockedAt unlockedBy
  dsimp only
  split <;> omega

theorem countedAt_eq_iff (hfits : unlockedBy enactmentBlock v < balanceLimit) :
    countedAt enactmentBlock v = lockedAt enactmentBlock v ↔ Unlocks enactmentBlock v := by
  rw [countedAt_of_fits hfits]
  unfold Unlocks
  by_cases hper : v.2.1 = 0
  · -- nothing is unlocked in the one, a unit per block in the other
    have hcounted : v.1 - unlockedBy enactmentBlock v = v.1 := by
      unfold unlockedBy
      rw [hper, Nat.zero_mul, Nat.sub_zero]
    rw [hcounted]
    unfold lockedAt
    rw [hper, Nat.max_eq_right (Nat.zero_le 1), Nat.mul_one]
    dsimp only
    have hlimit : 0 < balanceLimit := by decide
    split <;> omega
  · have hsame : (enactmentBlock - v.2.2) * max v.2.1 1 = unlockedBy enactmentBlock v := by
      unfold unlockedBy
      rw [Nat.max_eq_left (by omega), Nat.mul_comm]
    have hlocked : lockedAt enactmentBlock v = v.1 - unlockedBy enactmentBlock v := by
      unfold lockedAt
      rw [hsame]
      exact if_pos hfits
    rw [hlocked]
    exact iff_of_true rfl (Or.inl hper)

theorem lockedTotal_le_countedTotal (hfits : ProductsFit enactmentBlock schedules) :
    lockedTotal enactmentBlock schedules ≤ countedTotal enactmentBlock schedules :=
  List.sum_le_sum fun v hv => lockedAt_le_countedAt (hfits v hv)

theorem countedTotal_eq_iff (hfits : ProductsFit enactmentBlock schedules) :
    countedTotal enactmentBlock schedules = lockedTotal enactmentBlock schedules ↔
      ∀ v ∈ schedules, Unlocks enactmentBlock v := by
  have hsums := sum_map_eq_iff_of_le fun v hv => lockedAt_le_countedAt (hfits v hv)
  rw [eq_comm]
  refine hsums.trans (forall₂_congr fun v hv => ?_)
  rw [eq_comm, countedAt_eq_iff (hfits v hv)]

/-! ## The lock -/

/-- The computed lock is what the schedules of the claim, as the vesting pallet reads them, leave
of the desired one; no product wraps; and with it at least the desired lock is locked. -/
structure LockAgrees (T : Config A σ) (address : EthereumAddress) (desired : Nat)
    (s : State A σ) : Prop where
  agrees : computeClaimsVestingLock T address desired s =
    desired - lockedTotal T.enactmentBlock (listed s address)
  fits : ProductsFit T.enactmentBlock (listed s address)
  covered : desired ≤ lockedTotal T.enactmentBlock (listed s address) +
    computeClaimsVestingLock T address desired s

/-- For every state, address, list of schedules recorded of it, desired amount and enactment
block: the lock is the one of the vesting pallet's formula exactly when no product wraps and
the schedules lock the desired amount already, or each of them unlocks something per block or
nothing up to the enactment block. -/
theorem claims_vesting_lock_agrees_iff (T : Config A σ) (address : EthereumAddress)
    (desired : Nat) (s : State A σ) :
    LockAgrees T address desired s ↔
      ProductsFit T.enactmentBlock (listed s address) ∧
        (desired ≤ lockedTotal T.enactmentBlock (listed s address) ∨
          ∀ v ∈ listed s address, Unlocks T.enactmentBlock v) := by
  have hlock : computeClaimsVestingLock T address desired s =
      desired - countedTotal T.enactmentBlock (listed s address) :=
    computeClaimsVestingLock_eq T address desired s
  constructor
  · intro h
    have hle := lockedTotal_le_countedTotal h.fits
    have hagrees := h.agrees
    rw [hlock] at hagrees
    refine ⟨h.fits, ?_⟩
    rw [← countedTotal_eq_iff h.fits]
    omega
  · rintro ⟨hfits, hcase⟩
    have hle := lockedTotal_le_countedTotal hfits
    rw [← countedTotal_eq_iff hfits] at hcase
    have hagrees : computeClaimsVestingLock T address desired s =
        desired - lockedTotal T.enactmentBlock (listed s address) := by
      omega
    exact ⟨hagrees, hfits, by omega⟩

/-- The schedule that `mint_claim` is given for an address of the mock state. -/
def mockMinted (v : Schedule) : State Nat (Economics.State (VestedLedger Nat)) :=
  { mockState 500 5 with
    total := 200
    claims := (mockState 500 5).claims.insert (mockAddress 2) 100
    vesting := (mockState 500 5).vesting.insert (mockAddress 2) [v] }

/-- At block 100, a schedule of 100 that unlocks nothing per block from block 0 on counts in
full, where the vesting pallet locks nothing of it any more; and `2 ^ 127` per block over two
blocks count as nothing unlocked. -/
theorem minted_lock_disagrees :
    (∀ v : Schedule, mintClaim .root (mockAddress 2) 100 (some [v]) none (mockState 500 5) =
      .ok (mockMinted v)) ∧
    (computeClaimsVestingLock mockEnactment (mockAddress 2) 100 (mockMinted (100, 0, 0)) = 0 ∧
      lockedTotal 100 [((100, 0, 0) : Schedule)] = 0 ∧
      ¬ LockAgrees mockEnactment (mockAddress 2) 100 (mockMinted (100, 0, 0))) ∧
    (computeClaimsVestingLock mockEnactment (mockAddress 2) 100
        (mockMinted (100, 2 ^ 127, 98)) = 0 ∧
      lockedTotal 100 [((100, 2 ^ 127, 98) : Schedule)] = 0 ∧
      ¬ LockAgrees mockEnactment (mockAddress 2) 100 (mockMinted (100, 2 ^ 127, 98))) := by
  have hdropped : computeClaimsVestingLock mockEnactment (mockAddress 2) 100
      (mockMinted (100, 0, 0)) = 0 := by decide
  have hwrapped : computeClaimsVestingLock mockEnactment (mockAddress 2) 100
      (mockMinted (100, 2 ^ 127, 98)) = 0 := by decide
  refine ⟨fun v => rfl, ⟨hdropped, by decide, fun h => ?_⟩, ⟨hwrapped, by decide, fun h => ?_⟩⟩
  · have hcovered := h.covered
    rw [hdropped] at hcovered
    exact absurd hcovered (by decide)
  · have hcovered := h.covered
    rw [hwrapped] at hcovered
    exact absurd hcovered (by decide)

/-! ## What is recorded of a claim can be installed

The schedule that is recorded with the computed lock has a rate by an integer division. -/

theorem listed_processLeftoverClaim (T : Config A σ) (address : EthereumAddress) (reward : Nat)
    (s : State A σ) :
    listed (processLeftoverClaim T address reward s) address =
      listed s address ++ lockSchedules T.enactmentBlock (leftoverLock T address reward s) := by
  unfold listed lockSchedules
  rw [processLeftoverClaim_vesting]
  dsimp only
  split
  · rw [List.append_nil]
  · rw [Finmap.lookup_insert]
    rfl

theorem installable_lockSchedules_iff (enactmentBlock lock : Nat) :
    (∀ v ∈ lockSchedules enactmentBlock lock, Installable v) ↔ Lockable lock := by
  have hrate : lock / (default : RewardOption).vestingPeriod ≠ 0 ↔
      (default : RewardOption).vestingPeriod ≤ lock := by
    rw [ne_eq, Nat.div_eq_zero_iff_lt (by decide), Nat.not_lt]
  unfold lockSchedules Lockable
  split
  case isTrue hzero => simp [hzero]
  case isFalse hpos =>
    rw [List.forall_mem_singleton, ← hrate]
    rfl

/-- A leftover claim of which every schedule can be installed stays one exactly when the lock
that is added is at least one unit for each block of the vesting period. -/
theorem installable_processLeftoverClaim_iff (T : Config A σ) (address : EthereumAddress)
    (reward : Nat) (s : State A σ) :
    (∀ v ∈ listed (processLeftoverClaim T address reward s) address, Installable v) ↔
      (∀ v ∈ listed s address, Installable v) ∧ Lockable (leftoverLock T address reward s) := by
  rw [listed_processLeftoverClaim, List.forall_mem_append, installable_lockSchedules_iff]

end XXChain.Betanet
