import XXChain.Betanet.Claimant

/-!
# XXChain — claiming before or after the enactment

An account may claim the coins of an address below the enactment block, and be paid the reward by
`process_account` under the default option, or leave the claim to `process_leftover_claim` and
claim at the enactment block. `process_leftover_claim` reads the principal after it has added
the reward to the claim, and counts what the schedules of the claim lock with a product that
wraps.

* **`free_eq_iff`** and **`locked_eq_iff`** — when the two paths pay and lock the same;
* **`agrees_iff`** — that condition when no product wraps and the account is opened;
* **`claim_time_irrelevant_iff`** — on the chain, for any state, claim and order of the drains.
-/

namespace XXChain.Betanet

open StorageMap Claims

variable {A σ : Type} [DecidableEq A] {T : Config A σ} {pool dest : A} {s : State A σ}
  {address : EthereumAddress} {principal reward : Nat} {added : List Schedule}

/-! ## The default option -/

/-- The default option pays all of the reward. -/
theorem rewardAmount_default (principal reward : Nat) :
    rewardAmount { principal, reward, option := default } = reward :=
  Perbill.one_of reward

/-- A lock that unlocks something per block over the vesting period, or nothing to lock. -/
def Lockable (lock : Nat) : Prop :=
  lock = 0 ∨ (default : RewardOption).vestingPeriod ≤ lock

/-- The schedules that a lock from a block on is made of. -/
def lockSchedules (enactmentBlock lock : Nat) : List Schedule :=
  if lock = 0 then []
  else [(lock, lock / (default : RewardOption).vestingPeriod, enactmentBlock)]

theorem lockedTotal_lockSchedules (enactmentBlock lock : Nat) :
    lockedTotal enactmentBlock (lockSchedules enactmentBlock lock) = lock := by
  unfold lockSchedules
  split
  next hzero => exact hzero.symm
  next => rw [lockedTotal_cons, lockedAt_start, lockedTotal_nil, Nat.add_zero]

theorem length_lockSchedules_le (enactmentBlock lock : Nat) :
    (lockSchedules enactmentBlock lock).length ≤ 1 := by
  unfold lockSchedules
  split
  · exact Nat.zero_le 1
  · exact le_rfl

theorem Lockable.valid {enactmentBlock lock : Nat} (h : Lockable lock) :
    ∀ v ∈ lockSchedules enactmentBlock lock, ValidSchedule v := by
  unfold lockSchedules
  split
  · simp
  next hpos =>
    intro v hv
    rw [List.mem_singleton.mp hv]
    have hle : (default : RewardOption).vestingPeriod ≤ lock := h.resolve_left hpos
    exact ⟨hpos, Nat.ne_of_gt (Nat.div_pos hle (by decide))⟩

theorem rewardLock_default (principal reward : Nat) (currentLocked : Option Nat) :
    rewardLock { principal, reward, option := default } currentLocked =
      desiredLock principal reward - currentLocked.getD 0 := by
  unfold rewardLock desiredLock
  rw [rewardAmount_default]
  cases currentLocked <;> rfl

omit [DecidableEq A] in
/-- `process_account` under the default option. -/
theorem rewardHeld_default (T : Config A σ) (block principal reward : Nat) (h : Holding) :
    rewardHeld T block { principal, reward, option := default } h =
      let paid := h.deposit T.claims.currency.existentialDeposit reward
      paid.vest T.claims.vestingSchedule.maxSchedules block
        (lockSchedules T.enactmentBlock (desiredLock principal reward -
          min paid.free (lockedTotal block paid.schedules))) := by
  unfold rewardHeld
  rw [rewardAmount_default]
  generalize h.deposit T.claims.currency.existentialDeposit reward = paid
  show (if rewardLock _ _ = 0 then paid else paid.vest _ block [(rewardLock _ _, _, _)]) = _
  rw [rewardLock_default, Holding.getD_vestingBalance]
  unfold lockSchedules
  dsimp only
  split
  · rfl
  · rfl

/-- What `process_leftover_claim` makes of the schedules of a claim. -/
theorem topUp_vesting (enactmentBlock reward : Nat) (e : Entry) :
    ((topUp enactmentBlock reward e).vesting.getD []) =
      e.vesting.getD [] ++ lockSchedules enactmentBlock
        (desiredLock ((topUp enactmentBlock reward e).claim.getD 0) reward -
          countedTotal enactmentBlock (e.vesting.getD [])) := by
  unfold topUp lockSchedules
  dsimp only
  split
  · rw [List.append_nil]
  · rfl

/-! ## The two paths -/

/-- Two deposits and one of their sum credit the same, unless the first is refused and does not
count with the second. -/
theorem free_eq_iff {ed : Nat} (principal reward : Nat) (h : Holding) :
    ((h.deposit ed principal).deposit ed reward).free = (h.deposit ed (principal + reward)).free ↔
      h.total ≠ 0 ∨ ed ≤ principal ∨ principal = 0 ∨ principal + reward < ed := by
  unfold Holding.deposit Holding.total Currency.accepted
  dsimp only
  split_ifs <;> omega

omit [DecidableEq A] in
theorem free_before (block : Nat) (h : Holding) :
    (rewardHeld T T.enactmentBlock { principal, reward, option := default }
        (claimHeld T block principal added h)).free =
      ((h.deposit T.claims.currency.existentialDeposit principal).deposit
        T.claims.currency.existentialDeposit reward).free := by
  rw [rewardHeld_default, claimHeld, Holding.deposit_vest]
  rfl

omit [DecidableEq A] in
/-- What a claim below the enactment block and then the reward leave locked. -/
theorem lockedTotal_before {block : Nat} {h : Holding} (hfresh : h.schedules = [])
    (hblock : block ≤ T.enactmentBlock) (hvalid : ∀ v ∈ added, ValidSchedule v)
    (hroom : added.length < T.claims.vestingSchedule.maxSchedules)
    {free : Nat} (hfree : ((h.deposit T.claims.currency.existentialDeposit principal).deposit
      T.claims.currency.existentialDeposit reward).free = free)
    (hlock : Lockable (desiredLock principal reward -
      min free (lockedTotal T.enactmentBlock added))) :
    lockedTotal T.enactmentBlock (rewardHeld T T.enactmentBlock
        { principal, reward, option := default } (claimHeld T block principal added h)).schedules =
      lockedTotal T.enactmentBlock added +
        (desiredLock principal reward - min free (lockedTotal T.enactmentBlock added)) := by
  have hnew := length_lockSchedules_le T.enactmentBlock
    (desiredLock principal reward - min free (lockedTotal T.enactmentBlock added))
  have hpaid : ((h.deposit T.claims.currency.existentialDeposit principal).deposit
      T.claims.currency.existentialDeposit reward).schedules = [] := hfresh
  rw [rewardHeld_default, claimHeld, Holding.deposit_vest]
  generalize (h.deposit T.claims.currency.existentialDeposit principal).deposit
    T.claims.currency.existentialDeposit reward = paid at hfree hpaid ⊢
  -- the schedules of the claim are there when the reward is locked
  have hroom' : paid.schedules.length + added.length ≤
      T.claims.vestingSchedule.maxSchedules := by
    rw [hpaid, List.length_nil]
    omega
  have hlength := Holding.length_vest_le T.claims.vestingSchedule.maxSchedules block added paid
  have hlocked : lockedTotal T.enactmentBlock
      (paid.vest T.claims.vestingSchedule.maxSchedules block added).schedules =
        lockedTotal T.enactmentBlock added := by
    rw [Holding.lockedTotal_vest hblock hvalid hroom', hpaid, lockedTotal_nil, Nat.zero_add]
  rw [hpaid, List.length_nil] at hlength
  dsimp only
  rw [Holding.vest_free, hfree, hlocked,
    Holding.lockedTotal_vest le_rfl hlock.valid (by omega), hlocked, lockedTotal_lockSchedules]

omit [DecidableEq A] in
/-- What a claim that was topped up leaves locked at the enactment block. -/
theorem lockedTotal_after {h : Holding} (hfresh : h.schedules = []) (amount lock : Nat)
    (hvalid : ∀ v ∈ added, ValidSchedule v)
    (hroom : added.length < T.claims.vestingSchedule.maxSchedules) (hlock : Lockable lock) :
    lockedTotal T.enactmentBlock (claimHeld T T.enactmentBlock amount
        (added ++ lockSchedules T.enactmentBlock lock) h).schedules =
      lockedTotal T.enactmentBlock added + lock := by
  have hnew := length_lockSchedules_le T.enactmentBlock lock
  have hall : ∀ v ∈ added ++ lockSchedules T.enactmentBlock lock, ValidSchedule v := by
    intro v hv
    rcases List.mem_append.mp hv with hv | hv
    · exact hvalid v hv
    · exact hlock.valid v hv
  have hfits : (h.deposit T.claims.currency.existentialDeposit amount).schedules.length +
      (added ++ lockSchedules T.enactmentBlock lock).length ≤
        T.claims.vestingSchedule.maxSchedules := by
    rw [Holding.deposit_schedules, hfresh, List.length_nil, List.length_append]
    omega
  rw [claimHeld, Holding.lockedTotal_vest le_rfl hall hfits, Holding.deposit_schedules, hfresh,
    lockedTotal_nil, Nat.zero_add, lockedTotal_append, lockedTotal_lockSchedules]

/-! ## The condition

Of the claim, the reward and the schedules of the claim: how much the default option locks of the
claim and of the claim with the reward, how much the schedules lock at the enactment block, and
how much more they lock where a product wraps. -/

/-- What the schedule unlocks up to the enactment block, as an integer. -/
def unlockedBy (enactmentBlock : Nat) (v : Schedule) : Nat :=
  v.2.1 * (enactmentBlock - v.2.2)

/-- No product of a schedule wraps. -/
def ProductsFit (enactmentBlock : Nat) (schedules : List Schedule) : Prop :=
  ∀ v ∈ schedules, unlockedBy enactmentBlock v < balanceLimit

/-- What a product that wraps leaves of a schedule that has unlocked everything. -/
def revivedAt (enactmentBlock : Nat) (v : Schedule) : Nat :=
  if unlockedBy enactmentBlock v < balanceLimit then 0
  else v.1 - unlockedBy enactmentBlock v % balanceLimit

def revivedTotal (enactmentBlock : Nat) (schedules : List Schedule) : Nat :=
  (schedules.map (revivedAt enactmentBlock)).sum

/-- For a destination with the balance `total`: the claim opens the account if the reward does;
and the parts of the claim and of the claim with the reward that are to be locked differ by what
is revived, or the schedules lock all that is to be locked. An account that is not opened has
nothing that could be locked already, and a lock that is no balance wraps, to less than the
reward. -/
structure Agrees (T : Config A σ) (total principal reward : Nat) (added : List Schedule) :
    Prop where
  free : total ≠ 0 ∨ T.claims.currency.existentialDeposit ≤ principal ∨ principal = 0 ∨
    principal + reward < T.claims.currency.existentialDeposit
  locked :
    let lock := (default : RewardOption).principalLock.of principal
    let lockWithReward := (default : RewardOption).principalLock.of (principal + reward)
    let locked := lockedTotal T.enactmentBlock added
    let revived := revivedTotal T.enactmentBlock added
    if total = 0 ∧ principal + reward < T.claims.currency.existentialDeposit then
      lockWithReward + reward < balanceLimit ∧
        (lock + reward = 0 ∨ lockWithReward = lock + locked + revived)
    else if lockWithReward + reward < balanceLimit then
      lockWithReward = lock + revived ∨
        lock + reward ≤ locked ∧ lockWithReward + reward ≤ locked + revived
    else lock + reward ≤ locked

/-- No product and no sum wraps. -/
structure NoWrap (T : Config A σ) (principal reward : Nat) (added : List Schedule) : Prop where
  products : ProductsFit T.enactmentBlock added
  lock : (default : RewardOption).principalLock.of (principal + reward) + reward < balanceLimit

theorem countedAt_of_fits {enactmentBlock : Nat} {v : Schedule}
    (hfits : unlockedBy enactmentBlock v < balanceLimit) :
    countedAt enactmentBlock v = v.1 - unlockedBy enactmentBlock v := by
  unfold countedAt
  show v.1 - unlockedBy enactmentBlock v % balanceLimit = _
  rw [Nat.mod_eq_of_lt hfits]

/-- The formula of the pallet counts what is locked, and what is revived. -/
theorem countedAt_eq {enactmentBlock : Nat} {v : Schedule} (hv : ValidSchedule v)
    (hamount : v.1 < balanceLimit) :
    countedAt enactmentBlock v = lockedAt enactmentBlock v + revivedAt enactmentBlock v := by
  have hlocked : lockedAt enactmentBlock v = v.1 - unlockedBy enactmentBlock v :=
    lockedAt_of_valid hv hamount
  unfold revivedAt
  split
  case isTrue hfits => rw [countedAt_of_fits hfits, hlocked, Nat.add_zero]
  case isFalse hwraps =>
    have hfinished : v.1 - unlockedBy enactmentBlock v = 0 := by omega
    rw [hlocked, hfinished, Nat.zero_add]
    rfl

theorem countedTotal_eq {enactmentBlock : Nat} (hvalid : ∀ v ∈ added, ValidSchedule v)
    (hamounts : ∀ v ∈ added, v.1 < balanceLimit) :
    countedTotal enactmentBlock added =
      lockedTotal enactmentBlock added + revivedTotal enactmentBlock added := by
  have hmap : added.map (countedAt enactmentBlock) =
      added.map fun v => lockedAt enactmentBlock v + revivedAt enactmentBlock v :=
    List.map_congr_left fun v hv => countedAt_eq (hvalid v hv) (hamounts v hv)
  unfold countedTotal lockedTotal revivedTotal
  rw [hmap, List.sum_map_add]

theorem revivedTotal_of_fits {enactmentBlock : Nat} (hfits : ProductsFit enactmentBlock added) :
    revivedTotal enactmentBlock added = 0 := by
  unfold revivedTotal
  rw [List.sum_eq_zero_iff]
  intro n hn
  obtain ⟨v, hv, rfl⟩ := List.mem_map.mp hn
  exact if_pos (hfits v hv)

omit [DecidableEq A] in
/-- The two paths lock the same, if they pay the same. -/
theorem locked_eq_iff {h : Holding} (hbalance : principal + reward < balanceLimit)
    (hvalid : ∀ v ∈ added, ValidSchedule v) (hamounts : ∀ v ∈ added, v.1 < balanceLimit)
    (hfree : h.total ≠ 0 ∨ T.claims.currency.existentialDeposit ≤ principal ∨ principal = 0 ∨
      principal + reward < T.claims.currency.existentialDeposit) :
    desiredLock principal reward -
        min ((h.deposit T.claims.currency.existentialDeposit principal).deposit
          T.claims.currency.existentialDeposit reward).free
          (lockedTotal T.enactmentBlock added) =
      desiredLock (principal + reward) reward - countedTotal T.enactmentBlock added ↔
      Agrees T h.total principal reward added := by
  have hlock := (default : RewardOption).principalLock.of_le principal
  have hlock' := (default : RewardOption).principalLock.of_le (principal + reward)
  have hmono := (default : RewardOption).principalLock.of_mono (Nat.le_add_right principal reward)
  have hdesired : desiredLock principal reward =
      (default : RewardOption).principalLock.of principal + reward :=
    Nat.mod_eq_of_lt (by omega)
  have hagrees : Agrees T h.total principal reward added ↔ _ :=
    ⟨fun hagrees => hagrees.locked, fun hlocked => ⟨hfree, hlocked⟩⟩
  rw [hagrees, hdesired, countedTotal_eq hvalid hamounts,
    (free_eq_iff principal reward h).mpr hfree]
  -- without a reward the two locks are of the same amount
  have hnone : reward = 0 → (default : RewardOption).principalLock.of (principal + reward) =
      (default : RewardOption).principalLock.of principal := by
    intro hzero
    rw [hzero, Nat.add_zero]
  unfold desiredLock Holding.deposit Holding.total Currency.accepted
  generalize (default : RewardOption).principalLock.of (principal + reward) = lock' at *
  generalize (default : RewardOption).principalLock.of principal = lock at *
  generalize lockedTotal T.enactmentBlock added = locked
  generalize revivedTotal T.enactmentBlock added = revived
  by_cases hfits : lock' + reward < balanceLimit
  · rw [Nat.mod_eq_of_lt hfits]
    dsimp only
    rw [if_pos hfits]
    split_ifs <;> omega
  · have hwrapped : (lock' + reward) % balanceLimit = lock' + reward - balanceLimit := by
      rw [Nat.mod_eq_sub_mod (by omega), Nat.mod_eq_of_lt (by omega)]
    rw [hwrapped]
    dsimp only
    rw [if_neg hfits]
    split_ifs <;> omega

omit [DecidableEq A] in
/-- The paths agree when the part of the principal that is locked is that of the principal with
the reward, or the schedules of the claim lock all of that and the reward. -/
theorem agrees_iff {total : Nat}
    (hopened : total ≠ 0 ∨ T.claims.currency.existentialDeposit ≤ principal)
    (hwrap : NoWrap T principal reward added) :
    Agrees T total principal reward added ↔
      (default : RewardOption).principalLock.of (principal + reward) =
          (default : RewardOption).principalLock.of principal ∨
        (default : RewardOption).principalLock.of (principal + reward) + reward ≤
          lockedTotal T.enactmentBlock added := by
  have hmono := (default : RewardOption).principalLock.of_mono (Nat.le_add_right principal reward)
  have hwhole : ¬(total = 0 ∧ principal + reward < T.claims.currency.existentialDeposit) := by
    omega
  have hrevived := revivedTotal_of_fits hwrap.products
  constructor
  · intro h
    have hlocked := h.locked
    simp only [if_neg hwhole, if_pos hwrap.lock, hrevived] at hlocked
    omega
  · intro h
    refine ⟨hopened.imp_right Or.inl, ?_⟩
    simp only [if_neg hwhole, if_pos hwrap.lock, hrevived]
    omega

/-! ## On the chain -/

/-- The address has a claim, a reward and the schedules `added`, in a state in which the program
is approved and no amount exceeds a balance; the destination is not listed, has no schedule
and is not the pool. -/
structure Entitled (T : Config A σ) (pool : A) (s : State A σ) (address : EthereumAddress)
    (dest : A) (principal reward : Nat) (added : List Schedule) : Prop where
  approved : s.handler.approved = true
  claim : s.claims.lookup address = some principal
  reward : s.rewards.lookup address = some reward
  vesting : (s.vesting.lookup address).getD [] = added
  covered : principal ≤ s.total
  fits : s.total + sumBy id s.rewards < balanceLimit
  amounts : ∀ v ∈ added, v.1 < balanceLimit
  fresh : schedules T s dest = []
  unlisted : s.handler.accounts.lookup dest = none
  ne_pool : dest ≠ pool

/-- All schedules are valid, those that the two paths add included, and there is room for them. -/
structure AllAccepted (T : Config A σ) (h : Holding) (principal reward : Nat)
    (added : List Schedule) : Prop where
  valid : ∀ v ∈ added, ValidSchedule v
  room : added.length < T.claims.vestingSchedule.maxSchedules
  before : Lockable (desiredLock principal reward -
    min ((h.deposit T.claims.currency.existentialDeposit principal).deposit
      T.claims.currency.existentialDeposit reward).free (lockedTotal T.enactmentBlock added))
  after : Lockable (desiredLock (principal + reward) reward -
    countedTotal T.enactmentBlock added)

/-- The account has the same free balance in the two states, and the same amount locked at the
enactment block. -/
structure SameEntitlement (T : Config A σ) (s s' : State A σ) (a : A) : Prop where
  free : (account T s a).free = (account T s' a).free
  locked : lockedTotal T.enactmentBlock (schedules T s a) =
    lockedTotal T.enactmentBlock (schedules T s' a)

namespace Entitled

variable {origin : Origin A} {call : Call A} {accounts : List (A × UserInfo)}
  {rewards : List (EthereumAddress × Nat)}

theorem reward_le (h : Entitled T pool s address dest principal reward added) :
    reward ≤ sumBy id s.rewards := by
  have hle := valueAt_le_sumBy id s.rewards address
  rw [valueAt_of_some h.reward] at hle
  exact hle

/-- No amount exceeds a balance, so that the claim with its reward is one. -/
theorem principal_add_reward_lt (h : Entitled T pool s address dest principal reward added) :
    principal + reward < balanceLimit := by
  have hreward := h.reward_le
  have hcovered := h.covered
  have hfits := h.fits
  omega

/-- A claim to an account without a schedule can be paid, if the total covers it. -/
theorem payable_of_fresh (hT : T.PaysFrom pool) {amount : Nat}
    (hclaim : s.claims.lookup address = some amount) (hcovered : amount ≤ s.total)
    (hfresh : (held T s dest).schedules = []) : Payable T.wired s address dest := by
  have hbalance : T.claims.vestingSchedule.vestingBalance s.block s.ledger dest = none := by
    rw [vestingBalance_holding hT.vesting]
    exact if_pos hfresh
  exact ⟨amount, hclaim, hcovered, Or.inr hbalance⟩

/-- Claiming and then enacting, on what the destination holds. -/
theorem held_before (hT : T.PaysFrom pool)
    (h : Entitled T pool s address dest principal reward added)
    (haddressed : Addressed T.wired s address dest (origin, call))
    (hearly : s.block < T.enactmentBlock)
    (hproper : Proper (advance T s (.within (.claims origin call))) (enact T accounts rewards)) :
    held T (stateAfter T s [.within (.claims origin call), enact T accounts rewards]) dest =
      rewardHeld T T.enactmentBlock { principal, reward, option := default }
        (claimHeld T s.block principal added (held T s dest)) := by
  have hpaid : PaidBy T.wired s (advance T s (.within (.claims origin call))) address dest :=
    haddressed.applyCall (payable_of_fresh hT h.claim h.covered h.fresh)
  show held T (advance T (advance T s (.within (.claims origin call))) (enact T accounts rewards))
    dest = _
  generalize advance T s (.within (.claims origin call)) = s₁ at hpaid hproper ⊢
  obtain ⟨hhandler, _⟩ := accounts_paidBy hpaid h.claim h.reward hearly
  have happroved : s₁.handler.approved = true := by
    rw [hhandler]
    exact h.approved
  -- the claim lists the destination with the default option
  have hlisted : s₁.handler.accounts.lookup dest =
      some { principal, reward, option := default } := by
    rw [hhandler]
    exact Finmap.lookup_insert _
  rw [held_enact hT h.ne_pool happroved hproper, hlisted, held_paidBy hT hpaid h.claim, h.vesting]
  rfl

/-- Enacting and then claiming. -/
theorem held_after (hT : T.PaysFrom pool)
    (h : Entitled T pool s address dest principal reward added)
    (haddressed : Addressed T.wired s address dest (origin, call))
    (hproper : Proper s (enact T accounts rewards)) :
    held T (stateAfter T s [enact T accounts rewards, .within (.claims origin call)]) dest =
      claimHeld T T.enactmentBlock (principal + reward)
        (added ++ lockSchedules T.enactmentBlock (desiredLock (principal + reward) reward -
          countedTotal T.enactmentBlock added)) (held T s dest) := by
  have hreward := h.reward_le
  have hcovered := h.covered
  have hheld := held_enact hT h.ne_pool h.approved hproper
  have hentry := entry_enact h.approved hproper address
  have htotal := total_enact h.approved hproper h.fits
  obtain ⟨hblock, hsigning, hpreclaims⟩ := frame_enact h.approved hproper
  show held T (advance T (advance T s (enact T accounts rewards)) (.within (.claims origin call)))
    dest = _
  generalize advance T s (enact T accounts rewards) = s₁
    at hheld hentry htotal hblock hsigning hpreclaims ⊢
  rw [h.unlisted] at hheld
  rw [h.reward] at hentry
  -- the claim and its schedules after the reward is added
  have hclaim : s₁.claims.lookup address = some (principal + reward) := by
    have hclaim := congrArg Entry.claim hentry
    show (entry s₁ address).claim = _
    rw [hclaim]
    show (s.claims.lookup address).map _ = _
    rw [h.claim, Option.map_some, Nat.mod_eq_of_lt h.principal_add_reward_lt]
  have hvesting : (s₁.vesting.lookup address).getD [] =
      added ++ lockSchedules T.enactmentBlock (desiredLock (principal + reward) reward -
        countedTotal T.enactmentBlock added) := by
    have htopped := topUp_vesting T.enactmentBlock reward (entry s address)
    have htoppedClaim : (topUp T.enactmentBlock reward (entry s address)).claim =
        some (principal + reward) := (congrArg Entry.claim hentry).symm.trans hclaim
    show (entry s₁ address).vesting.getD [] = _
    rw [hentry]
    show (topUp T.enactmentBlock reward (entry s address)).vesting.getD [] = _
    rw [htopped, htoppedClaim]
    show (s.vesting.lookup address).getD [] ++ lockSchedules _ (desiredLock _ _ -
      countedTotal _ ((s.vesting.lookup address).getD [])) = _
    rw [h.vesting]
    rfl
  have hfresh : (held T s₁ dest).schedules = [] := by
    rw [hheld]
    exact h.fresh
  have hpaid : PaidBy T.wired s₁ (advance T s₁ (.within (.claims origin call))) address dest :=
    (haddressed.congr hsigning hpreclaims).applyCall
      (payable_of_fresh hT hclaim (by omega) hfresh)
  rw [held_paidBy hT hpaid hclaim, hblock, hvesting, hheld]
  rfl

/-- The two paths have the same outcome when the claim, the reward and the schedules of the claim
agree. -/
theorem sameEntitlement_iff (hT : T.PaysFrom pool)
    (h : Entitled T pool s address dest principal reward added)
    (haccepted : AllAccepted T (held T s dest) principal reward added)
    (haddressed : Addressed T.wired s address dest (origin, call))
    {accounts' : List (A × UserInfo)} {rewards' : List (EthereumAddress × Nat)}
    (hproper : Proper (advance T s (.within (.claims origin call))) (enact T accounts rewards))
    (hproper' : Proper s (enact T accounts' rewards')) :
    SameEntitlement T
        (stateAfter T s [.within (.claims origin call), enact T accounts rewards])
        (stateAfter T s [enact T accounts' rewards', .within (.claims origin call)]) dest ↔
      Agrees T (account T s dest).total principal reward added := by
  have hearly : s.block < T.enactmentBlock := hproper'.1
  have hheld := h.held_before hT haddressed hearly hproper
  have hheld' := h.held_after hT haddressed hproper'
  generalize stateAfter T s [.within (.claims origin call), enact T accounts rewards] = s₁
    at hheld ⊢
  generalize stateAfter T s [enact T accounts' rewards', .within (.claims origin call)] = s₂
    at hheld' ⊢
  have hfree : (account T s₁ dest).free =
      (((held T s dest).deposit T.claims.currency.existentialDeposit principal).deposit
        T.claims.currency.existentialDeposit reward).free :=
    (congrArg Holding.free hheld).trans (free_before s.block (held T s dest))
  have hfree' : (account T s₂ dest).free = ((held T s dest).deposit
      T.claims.currency.existentialDeposit (principal + reward)).free :=
    congrArg Holding.free hheld'
  have hlocked := (congrArg (lockedTotal T.enactmentBlock ·.schedules) hheld).trans
    (lockedTotal_before h.fresh hearly.le haccepted.valid haccepted.room rfl haccepted.before)
  have hlocked' := (congrArg (lockedTotal T.enactmentBlock ·.schedules) hheld').trans
    (lockedTotal_after h.fresh _ _ haccepted.valid haccepted.room haccepted.after)
  have hiff := @locked_eq_iff A σ T principal reward added (held T s dest)
    h.principal_add_reward_lt haccepted.valid h.amounts
  constructor
  · intro hsame
    have hpaid := hsame.free
    rw [hfree, hfree', free_eq_iff] at hpaid
    have hlock := hlocked.symm.trans (hsame.locked.trans hlocked')
    exact (hiff hpaid).mp (Nat.add_left_cancel hlock)
  · intro hagrees
    constructor
    · rw [hfree, hfree', free_eq_iff]
      exact hagrees.free
    · have hlock := (hiff hagrees.free).mpr hagrees
      exact hlocked.trans ((congrArg _ hlock).trans hlocked'.symm)

end Entitled

/-- Claiming below the enactment block and claiming at it, after the enactment, give the
destination the same free balance and lock the same amount if and only if the claim, the reward
and the schedules of the claim agree: for any state, any call that pays the claim, and any orders
of the drains. When the account is opened and nothing wraps, that is when the default option
locks as much of the claim with the reward as of the claim, or the schedules lock all of that and
the reward. -/
theorem claim_time_irrelevant_iff (T : Config A σ) (pool : A) (hT : T.PaysFrom pool)
    (s : State A σ) (address : EthereumAddress) (dest : A) (principal reward : Nat)
    (added : List Schedule) (h : Entitled T pool s address dest principal reward added)
    (haccepted : AllAccepted T (held T s dest) principal reward added)
    (origin : Origin A) (call : Call A)
    (haddressed : Addressed T.wired s address dest (origin, call))
    (accounts accounts' : List (A × UserInfo)) (rewards rewards' : List (EthereumAddress × Nat))
    (hbefore : Along (advance T) Proper s
      [.within (.claims origin call), enact T accounts rewards])
    (hafter : Along (advance T) Proper s
      [enact T accounts' rewards', .within (.claims origin call)]) :
    let claimed := stateAfter T s [.within (.claims origin call), enact T accounts rewards]
    let leftOver := stateAfter T s [enact T accounts' rewards', .within (.claims origin call)]
    (SameEntitlement T claimed leftOver dest ↔
      Agrees T (account T s dest).total principal reward added) ∧
    ((account T s dest).total ≠ 0 ∨ T.claims.currency.existentialDeposit ≤ principal →
      NoWrap T principal reward added →
      (SameEntitlement T claimed leftOver dest ↔
        (default : RewardOption).principalLock.of (principal + reward) =
            (default : RewardOption).principalLock.of principal ∨
          (default : RewardOption).principalLock.of (principal + reward) + reward ≤
            lockedTotal T.enactmentBlock added)) := by
  have hiff := h.sameEntitlement_iff hT haccepted haddressed hbefore.2.1 hafter.1
  exact ⟨hiff, fun hopened hwrap => hiff.trans (agrees_iff hopened hwrap)⟩

/-! ## A mock claim

Over the mock enactment, one block below the enactment block: the account `42` has the preclaim
of an address. -/

def mockClaim (principal reward : Nat) (added : List Schedule) :
    State Nat (Economics.State (VestedLedger Nat)) :=
  { mockState 500 5 with
    block := 99
    claims := .ofList [(mockAddress 1, principal)]
    total := principal
    vesting := .ofList [(mockAddress 1, added)]
    preclaims := .ofList [(42, mockAddress 1)]
    rewards := .ofList [(mockAddress 1, reward)]
    handler := { accounts := ∅, approved := true, events := [] } }

theorem mockClaim_entitled {principal reward : Nat} {added : List Schedule}
    (hfits : principal + reward < balanceLimit) (hamounts : ∀ v ∈ added, v.1 < balanceLimit) :
    Entitled mockEnactment 0 (mockClaim principal reward added) (mockAddress 1) 42 principal reward
      added where
  approved := rfl
  claim := rfl
  reward := rfl
  vesting := rfl
  covered := le_rfl
  fits := hfits
  amounts := hamounts
  fresh := rfl
  unlisted := rfl
  ne_pool := by decide

def attestThenEnact (principal reward : Nat) :
    List (Step Nat (Economics.State (VestedLedger Nat))) :=
  [.within (.claims (.signed 42) (.attest [])),
    enact mockEnactment [(42, { principal, reward, option := default })] []]

def enactThenAttest (reward : Nat) : List (Step Nat (Economics.State (VestedLedger Nat))) :=
  [enact mockEnactment [] [(mockAddress 1, reward)], .within (.claims (.signed 42) (.attest []))]

/-- With a schedule that locks more than the default option wants to be locked, there is no
difference. -/
theorem claim_time_irrelevant_mock :
    SameEntitlement mockEnactment
      (stateAfter mockEnactment (mockClaim 10000000000 1000000000 [(9900000000, 1000, 100)])
        (attestThenEnact 10000000000 1000000000))
      (stateAfter mockEnactment (mockClaim 10000000000 1000000000 [(9900000000, 1000, 100)])
        (enactThenAttest 1000000000)) 42 := by
  have hlarge : ∀ v ∈ [((9900000000, 1000, 100) : Schedule)], ValidSchedule v ∧
      v.1 < balanceLimit ∧ unlockedBy 100 v < balanceLimit := by
    intro v hv
    rw [List.mem_singleton.mp hv]
    exact ⟨⟨by decide, by decide⟩, by decide, by decide⟩
  exact ((claim_time_irrelevant_iff mockEnactment 0
    (onEconomics_paysFrom ((Ledger.currency_lawful (by decide)).along VestedLedger.ledgerPart)
      (VestedLedger.vesting_lawful 28 10) 100)
    (mockClaim 10000000000 1000000000 [(9900000000, 1000, 100)]) (mockAddress 1) 42
    10000000000 1000000000 [(9900000000, 1000, 100)]
    (mockClaim_entitled (by decide) fun v hv => (hlarge v hv).2.1)
    ⟨fun v hv => (hlarge v hv).1, by decide, by unfold Lockable; decide,
      by unfold Lockable; decide⟩ (.signed 42) (.attest []) ⟨rfl, rfl, rfl⟩ _ _ _ _
    ⟨trivial, ⟨by decide, by decide, by decide⟩, trivial⟩
    ⟨⟨by decide, by decide, by decide⟩, trivial, trivial⟩).2 (.inr (by decide))
    ⟨fun v hv => (hlarge v hv).2.2, by decide⟩).mpr (.inr (by decide))

/-- Of a claim of one coin with a reward of one coin, `1.8` coins are locked if it is claimed
before, and `2.6` coins, more than there are, if it is claimed after. -/
theorem leftover_claim_locks_more :
    Entitled mockEnactment 0 (mockClaim 1000000000 1000000000 []) (mockAddress 1) 42 1000000000
        1000000000 [] ∧
      AllAccepted mockEnactment (held mockEnactment (mockClaim 1000000000 1000000000 []) 42)
        1000000000 1000000000 [] ∧
      ¬SameEntitlement mockEnactment
        (stateAfter mockEnactment (mockClaim 1000000000 1000000000 [])
          (attestThenEnact 1000000000 1000000000))
        (stateAfter mockEnactment (mockClaim 1000000000 1000000000 [])
          (enactThenAttest 1000000000)) 42 := by
  refine ⟨mockClaim_entitled (by decide) (by simp),
    ⟨by simp, by decide, by unfold Lockable; decide, by unfold Lockable; decide⟩, ?_⟩
  intro h
  have hlocked : (1800000000 : Nat) = 2600000000 := h.locked
  exact absurd hlocked (by decide)

end XXChain.Betanet
