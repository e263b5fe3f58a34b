import XXChain.Betanet.Entry

/-!
# XXChain — enacting the betanet program

`enact_program` drains the accounts and then the leftover rewards. Both runs are inductions on
the drain, whose step is the spec of one entry (`Entry.lean`); what a run does to an entry is
decided by the state it starts in, and so does not depend on the order.

* **`processRewards_spec`** and **`processClaims_spec`** — the two runs;
* **`enactProgram_enacted`** — the whole program, for any handler that draws on a pool;
* **`enact_program_conserves`** — the program on the economics pallet, in any order.
-/

namespace XXChain.Betanet

open StorageMap Claims

variable {A σ : Type} [DecidableEq A] {T : Config A σ} {pool : A} {s s' s'' : State A σ}

/-! ## The accounts -/

/-- `s'` is `s` with all rewards of the accounts paid. -/
structure Rewarded (T : Config A σ) (pool : A) (s s' : State A σ) : Prop where
  pays : Pays T pool (sumBy rewardAmount s.handler.accounts) s s'
  gained : ∀ a info, s.handler.accounts.lookup a = some info →
    (account T s' a).free = (account T s a).free + rewardAmount info ∧
    (account T s' a).reserved = (account T s a).reserved ∧
    schedules T s' a =
      rewardSchedules T s.block info ((account T s a).free + rewardAmount info) (schedules T s a)
  others : ∀ a, s.handler.accounts.lookup a = none → a ≠ pool → account T s' a = account T s a
  schedules_others : ∀ a, s.handler.accounts.lookup a = none →
    schedules T s' a = schedules T s a
  frame : s' = { s with ledger := s'.ledger, handler := { s.handler with accounts := ∅ } }

/-- A drain of nothing. -/
theorem rewarded_refl (h : InOrder T pool s) (hempty : s.handler.accounts = ∅) :
    Rewarded T pool s s := by
  obtain ⟨block, claims, total, vesting, signing, preclaims, rewards, ledger,
    ⟨accounts, approved, programEvents⟩, events⟩ := s
  subst hempty
  exact
    { pays := Pays.refl h
      gained := fun a info hinfo => by cases hinfo
      others := fun _ _ _ => rfl
      schedules_others := fun _ _ => rfl
      frame := rfl }

/-- `s'` is `s` with the account `k` taken out of the map and paid. -/
structure FirstRewarded (T : Config A σ) (pool k : A) (info : UserInfo) (s s' : State A σ) :
    Prop where
  pays : Pays T pool (rewardAmount info) s s'
  credited : Credited T pool k info s s'
  frame : s' = { s with
    ledger := s'.ledger, handler := { s.handler with accounts := s.handler.accounts.erase k } }

theorem processAccount_first (hT : T.Lawful pool) (h : InOrder T pool s) {k : A} (info : UserInfo)
    (hne : k ≠ pool) (hexists : (account T s k).total ≠ 0) :
    FirstRewarded T pool k info s
      (processAccount T k info (setAccounts (s.handler.accounts.erase k) s)) := by
  obtain ⟨hpays, hcredited⟩ := processAccount_spec
    (s := setAccounts (s.handler.accounts.erase k) s) hT ⟨h.balanced, h.pool_unencumbered⟩
    hne hexists info
  -- the map of the accounts is not read by a payment
  exact ⟨⟨hpays.inOrder, hpays.pool_eq, hpays.issuance⟩,
    ⟨hcredited.free, hcredited.reserved, hcredited.schedules, hcredited.others⟩, rfl⟩

namespace FirstRewarded

variable {k : A} {info : UserInfo}

theorem accounts (h : FirstRewarded T pool k info s s') :
    s'.handler.accounts = s.handler.accounts.erase k := by
  rw [h.frame]

theorem lookup_of_ne (h : FirstRewarded T pool k info s s') {a : A} (ha : a ≠ k) :
    s'.handler.accounts.lookup a = s.handler.accounts.lookup a := by
  rw [h.accounts, Finmap.lookup_erase_ne ha]

theorem lookup_self (h : FirstRewarded T pool k info s s') :
    s'.handler.accounts.lookup k = none := by
  rw [h.accounts, Finmap.lookup_erase]

/-- The first account of a drain apart, an account that is listed was listed before. -/
theorem lookup_of_some (h : FirstRewarded T pool k info s s') {a : A} {v : UserInfo}
    (ha : s'.handler.accounts.lookup a = some v) :
    a ≠ k ∧ s.handler.accounts.lookup a = some v := by
  have hne := ne_of_lookup ha h.lookup_self
  rw [h.lookup_of_ne hne] at ha
  exact ⟨hne, ha⟩

theorem schedules_of_ne (h : FirstRewarded T pool k info s s') {a : A} (ha : a ≠ k) :
    schedules T s' a = schedules T s a := by
  rw [h.credited.schedules, Function.update_of_ne ha]

/-- The first account and then the rest are all accounts. -/
theorem rest (hT : T.Lawful pool) (h : InOrder T pool s)
    (hfirst : FirstRewarded T pool k info s s')
    (hk : s.handler.accounts.lookup k = some info)
    (hpool : s.handler.accounts.lookup pool = none) (hrest : Rewarded T pool s' s'') :
    Rewarded T pool s s'' := by
  have hblock : s'.block = s.block := by rw [hfirst.frame]
  refine ⟨?_, ?_, ?_, ?_, ?_⟩
  · have hsum := sumBy_erase rewardAmount s.handler.accounts k
    rw [valueAt_of_some hk] at hsum
    have hboth := hfirst.pays.trans hT h hrest.pays
    rw [hfirst.accounts] at hboth
    rw [← hsum, Nat.add_comm]
    exact hboth
  · intro a v hv
    have hne := ne_of_lookup hv hpool
    by_cases ha : a = k
    · -- the rest leaves the first account alone
      subst ha
      rw [hk] at hv
      cases hv
      rw [hrest.others a hfirst.lookup_self hne, hrest.schedules_others a hfirst.lookup_self]
      refine ⟨hfirst.credited.free, hfirst.credited.reserved, ?_⟩
      rw [hfirst.credited.schedules, Function.update_self]
    · rw [← hfirst.lookup_of_ne ha] at hv
      obtain ⟨hfree, hreserved, hadded⟩ := hrest.gained a v hv
      rw [hfirst.credited.others a hne ha] at hfree hreserved hadded
      rw [hfirst.schedules_of_ne ha, hblock] at hadded
      exact ⟨hfree, hreserved, hadded⟩
  · intro a hnone ha
    have hne := (ne_of_lookup hk hnone).symm
    rw [← hfirst.lookup_of_ne hne] at hnone
    rw [hrest.others a hnone ha, hfirst.credited.others a ha hne]
  · intro a hnone
    have hne := (ne_of_lookup hk hnone).symm
    rw [← hfirst.lookup_of_ne hne] at hnone
    rw [hrest.schedules_others a hnone, hfirst.schedules_of_ne hne]
  · rw [hrest.frame]
    rw [hfirst.frame]

end FirstRewarded

/-- All accounts are paid, in any order that they are drained in. -/
theorem processRewards_spec (hT : T.Lawful pool) {order : List (A × UserInfo)}
    (hdrains : Drains order s.handler.accounts) (h : InOrder T pool s)
    (hpool : s.handler.accounts.lookup pool = none)
    (hexists : ∀ a info, s.handler.accounts.lookup a = some info → (account T s a).total ≠ 0) :
    Rewarded T pool s (processRewards T order s) := by
  induction order generalizing s with
  | nil => exact rewarded_refl h hdrains.eq_empty
  | cons entry order ih =>
    obtain ⟨k, v⟩ := entry
    obtain ⟨hk, hrest⟩ := hdrains.cons
    have hne := ne_of_lookup hk hpool
    have hfirst := processAccount_first hT h v hne (hexists k v hk)
    show Rewarded T pool s (processRewards T order
      (processAccount T k v (setAccounts (s.handler.accounts.erase k) s)))
    generalize processAccount T k v (setAccounts (s.handler.accounts.erase k) s) = s₁
      at hfirst ⊢
    apply hfirst.rest hT h hk hpool
    apply ih
    · rw [hfirst.accounts]
      exact hrest
    · exact hfirst.pays.inOrder
    · rw [hfirst.lookup_of_ne hne.symm]
      exact hpool
    · intro a info hinfo
      obtain ⟨ha, hinfo⟩ := hfirst.lookup_of_some hinfo
      rw [hfirst.credited.others a (ne_of_lookup hinfo hpool) ha]
      exact hexists a info hinfo

/-! ## The leftover claims -/

/-- `s'` is `s` with all leftover rewards added to their claims. -/
structure ToppedUp (T : Config A σ) (pool : A) (s s' : State A σ) : Prop where
  pays : Pays T pool (sumBy id s.rewards) s s'
  claims : ∀ address, s'.claims.lookup address =
    (s.claims.lookup address).map (· + valueAt id s.rewards address)
  vesting : ∀ address, s'.vesting.lookup address =
    match s.rewards.lookup address with
    | some reward => (processLeftoverClaim T address reward s).vesting.lookup address
    | none => s.vesting.lookup address
  total : s'.total = s.total + sumBy id s.rewards
  accounts : ∀ a, a ≠ pool → account T s' a = account T s a
  schedules : schedules T s' = schedules T s
  frame : s' = { s with
    ledger := s'.ledger, claims := s'.claims, total := s'.total, vesting := s'.vesting,
    rewards := ∅ }

/-- No claim and no total exceeds a balance. -/
structure Fits (s : State A σ) : Prop where
  claims : ∀ address claim, s.claims.lookup address = some claim →
    claim + valueAt id s.rewards address < balanceLimit
  total : s.total + sumBy id s.rewards < balanceLimit

omit [DecidableEq A] in
/-- A drain of nothing. -/
theorem toppedUp_refl (h : InOrder T pool s) (hempty : s.rewards = ∅) : ToppedUp T pool s s := by
  obtain ⟨block, claims, total, vesting, signing, preclaims, rewards, ledger, handler, events⟩ := s
  subst hempty
  exact
    { pays := Pays.refl h
      claims := fun address => by
        show claims.lookup address = (claims.lookup address).map (· + 0)
        cases claims.lookup address <;> rfl
      vesting := fun _ => rfl
      total := rfl
      accounts := fun _ _ => rfl
      schedules := rfl
      frame := rfl }

/-- `s'` is `s` with the reward of the claim `k` taken out of the map and added to it. -/
structure FirstToppedUp (T : Config A σ) (pool : A) (k : EthereumAddress) (reward : Nat)
    (s s' : State A σ) : Prop where
  pays : Pays T pool reward s s'
  added : Added T pool k reward s s'
  vesting : s'.vesting.lookup k = (processLeftoverClaim T k reward s).vesting.lookup k
  frame : s' = { s with
    ledger := s'.ledger, claims := s'.claims, total := s'.total, vesting := s'.vesting,
    rewards := s.rewards.erase k }

theorem processLeftoverClaim_first (hT : T.Lawful pool) (h : InOrder T pool s) (hfits : Fits s)
    {k : EthereumAddress} {reward : Nat} (hk : s.rewards.lookup k = some reward) :
    FirstToppedUp T pool k reward s
      (processLeftoverClaim T k reward { s with rewards := s.rewards.erase k }) := by
  have hclaim : ∀ claim, s.claims.lookup k = some claim → claim + reward < balanceLimit := by
    intro claim hclaim
    have hfit := hfits.claims k claim hclaim
    rw [valueAt_of_some hk] at hfit
    exact hfit
  have htotal : s.total + reward < balanceLimit := by
    have hfit := hfits.total
    have hle := valueAt_le_sumBy id s.rewards k
    rw [valueAt_of_some hk, id_eq] at hle
    omega
  obtain ⟨hpays, hadded⟩ := processLeftoverClaim_spec
    (s := { s with rewards := s.rewards.erase k }) hT ⟨h.balanced, h.pool_unencumbered⟩ k reward
    hclaim htotal
  -- the map of the rewards is not read by an addition
  exact ⟨⟨hpays.inOrder, hpays.pool_eq, hpays.issuance⟩,
    ⟨hadded.claims, hadded.claims_others, hadded.vesting_others, hadded.total, hadded.accounts,
      hadded.schedules⟩, lookup_vesting_congr reward rfl rfl, rfl⟩

namespace FirstToppedUp

variable {k : EthereumAddress} {reward : Nat}

omit [DecidableEq A] in
theorem rewards (h : FirstToppedUp T pool k reward s s') :
    s'.rewards = s.rewards.erase k := by
  rw [h.frame]

omit [DecidableEq A] in
theorem lookup_of_ne (h : FirstToppedUp T pool k reward s s') {a : EthereumAddress}
    (ha : a ≠ k) : s'.rewards.lookup a = s.rewards.lookup a := by
  rw [h.rewards, Finmap.lookup_erase_ne ha]

omit [DecidableEq A] in
theorem lookup_self (h : FirstToppedUp T pool k reward s s') : s'.rewards.lookup k = none := by
  rw [h.rewards, Finmap.lookup_erase]

omit [DecidableEq A] in
theorem valueAt_of_ne (h : FirstToppedUp T pool k reward s s') {a : EthereumAddress}
    (ha : a ≠ k) : valueAt id s'.rewards a = valueAt id s.rewards a := by
  rw [valueAt, valueAt, h.lookup_of_ne ha]

omit [DecidableEq A] in
/-- What is left to add still fits. -/
theorem fits (h : FirstToppedUp T pool k reward s s') (hk : s.rewards.lookup k = some reward)
    (hfits : Fits s) : Fits s' := by
  constructor
  · intro a claim hclaim
    by_cases ha : a = k
    · subst ha
      rw [h.added.claims] at hclaim
      obtain ⟨claim₀, hclaim₀, rfl⟩ := Option.map_eq_some_iff.mp hclaim
      have hfit := hfits.claims a claim₀ hclaim₀
      rw [valueAt_of_some hk] at hfit
      rw [valueAt_of_none h.lookup_self]
      exact hfit
    · rw [h.added.claims_others a ha] at hclaim
      rw [h.valueAt_of_ne ha]
      exact hfits.claims a claim hclaim
  · have hsum := sumBy_erase id s.rewards k
    have htotal := hfits.total
    rw [valueAt_of_some hk, id_eq] at hsum
    rw [h.added.total, h.rewards]
    omega

/-- The first claim and then the rest are all claims. -/
theorem rest (hT : T.Lawful pool) (h : InOrder T pool s)
    (hfirst : FirstToppedUp T pool k reward s s') (hk : s.rewards.lookup k = some reward)
    (hrest : ToppedUp T pool s' s'') : ToppedUp T pool s s'' := by
  have hsum := sumBy_erase id s.rewards k
  rw [valueAt_of_some hk, id_eq] at hsum
  refine ⟨?_, ?_, ?_, ?_, ?_, ?_, ?_⟩
  · have hboth := hfirst.pays.trans hT h hrest.pays
    rw [hfirst.rewards] at hboth
    rw [← hsum, Nat.add_comm]
    exact hboth
  · intro a
    rw [hrest.claims a]
    by_cases ha : a = k
    · rw [ha, hfirst.added.claims, valueAt_of_none hfirst.lookup_self, valueAt_of_some hk]
      cases s.claims.lookup k <;> rfl
    · rw [hfirst.added.claims_others a ha, hfirst.valueAt_of_ne ha]
  · intro a
    rw [hrest.vesting a]
    by_cases ha : a = k
    · rw [ha, hfirst.lookup_self, hk]
      exact hfirst.vesting
    · rw [hfirst.lookup_of_ne ha]
      cases s.rewards.lookup a with
      | none => exact hfirst.added.vesting_others a ha
      | some reward' =>
        exact lookup_vesting_congr reward' (hfirst.added.claims_others a ha)
          (hfirst.added.vesting_others a ha)
  · rw [hrest.total, hfirst.added.total, hfirst.rewards]
    omega
  · intro a ha
    rw [hrest.accounts a ha, hfirst.added.accounts a ha]
  · rw [hrest.schedules, hfirst.added.schedules]
  · rw [hrest.frame]
    rw [hfirst.frame]

end FirstToppedUp

/-- All leftover rewards are added, in any order that they are drained in. -/
theorem processClaims_spec (hT : T.Lawful pool) {order : List (EthereumAddress × Nat)}
    (hdrains : Drains order s.rewards) (h : InOrder T pool s) (hfits : Fits s) :
    ToppedUp T pool s (processClaims T order s) := by
  induction order generalizing s with
  | nil => exact toppedUp_refl h hdrains.eq_empty
  | cons entry order ih =>
    obtain ⟨k, v⟩ := entry
    obtain ⟨hk, hrest⟩ := hdrains.cons
    have hfirst := processLeftoverClaim_first hT h hfits hk
    show ToppedUp T pool s (processClaims T order
      (processLeftoverClaim T k v { s with rewards := s.rewards.erase k }))
    generalize processLeftoverClaim T k v { s with rewards := s.rewards.erase k } = s₁
      at hfirst ⊢
    apply hfirst.rest hT h hk
    apply ih
    · rw [hfirst.rewards]
      exact hrest
    · exact hfirst.pays.inOrder
    · exact hfirst.fits hk hfits

/-! ## The program -/

/-- The reward that the option of the account promises. -/
def promised (info : UserInfo) : Nat :=
  info.option.rewards.of info.reward + info.option.extraRewards.of info.reward

/-- It is what is paid, if it is a balance. -/
theorem rewardAmount_eq {info : UserInfo} (h : promised info < balanceLimit) :
    rewardAmount info = promised info := by
  unfold promised at h ⊢
  unfold rewardAmount
  dsimp only
  split
  case isTrue hzero =>
    have hparts : info.option.extraRewards.parts = 0 := beq_iff_eq.mp hzero
    have hextra : info.option.extraRewards.of info.reward = 0 := by
      simp [Perbill.of, hparts]
    rw [hextra, Nat.add_zero]
  case isFalse => exact Nat.mod_eq_of_lt h

/-- All rewards that the program pays: those promised to the accounts and the leftover ones. -/
def allRewards (s : State A σ) : Nat :=
  sumBy promised s.handler.accounts + sumBy id s.rewards

/-- What is left of a pool of `free` that pays `amount`, when it is too little to stay in the
account and is burned. -/
def poolDust (ed amount free : Nat) : Nat :=
  if amount ≠ 0 ∧ free < amount + ed then free - amount else 0

/-- A pool loses what it pays and the dust it leaves. -/
theorem draw_free (ed amount : Nat) {a : AccountData} (h : a.Unencumbered) :
    (a.draw ed amount).free + min amount a.free + poolDust ed amount a.free = a.free := by
  obtain ⟨free, reserved, frozen, canDecProvider⟩ := a
  obtain ⟨rfl, rfl, rfl⟩ := h
  rw [AccountData.draw_plain]
  simp only [poolDust]
  split_ifs <;> omega

/-- What enacting the program in the state `s` has to do, for `s'` the state after it. -/
structure Enacted (T : Config A σ) (pool : A) (s s' : State A σ) : Prop where
  accounts_empty : s'.handler.accounts = ∅
  rewards_empty : s'.rewards = ∅
  pool_free : (account T s' pool).free + min (allRewards s) (account T s pool).free +
      poolDust T.claims.currency.existentialDeposit (allRewards s) (account T s pool).free =
    (account T s pool).free
  pool_reserved : (account T s' pool).reserved = (account T s pool).reserved
  gained : ∀ a info, s.handler.accounts.lookup a = some info →
    (account T s' a).free = (account T s a).free + promised info ∧
      (account T s' a).reserved = (account T s a).reserved
  others : ∀ a, s.handler.accounts.lookup a = none → a ≠ pool → account T s' a = account T s a
  claims : ∀ address, s'.claims.lookup address =
    (s.claims.lookup address).map (· + valueAt id s.rewards address)
  total : s'.total = s.total + sumBy id s.rewards
  issuance : totalIssuance T s' + s'.total + min (allRewards s) (account T s pool).free +
      poolDust T.claims.currency.existentialDeposit (allRewards s) (account T s pool).free =
    totalIssuance T s + s.total + allRewards s
  balanced : totalIssuance T s' = T.claims.currency.sumBalances s'.ledger
  schedules : ∀ a, schedules T s' a =
    match s.handler.accounts.lookup a with
    | some info =>
      rewardSchedules T s.block info ((account T s a).free + rewardAmount info) (schedules T s a)
    | none => schedules T s a
  vesting : ∀ address, s'.vesting.lookup address =
    match s.rewards.lookup address with
    | some reward => (processLeftoverClaim T address reward s).vesting.lookup address
    | none => s.vesting.lookup address
  frame : s' = { s with
    ledger := s'.ledger, claims := s'.claims, total := s'.total, vesting := s'.vesting,
    rewards := ∅, handler := { s.handler with accounts := ∅ } }

/-- The state the program is enacted in: the books are in order, the pool is not listed and
the accounts that are exist, and no amount exceeds a balance. -/
structure Ready (T : Config A σ) (pool : A) (s : State A σ) : Prop where
  inOrder : InOrder T pool s
  pool_unlisted : s.handler.accounts.lookup pool = none
  exist : ∀ a info, s.handler.accounts.lookup a = some info → (account T s a).total ≠ 0
  fits_accounts : ∀ a info, s.handler.accounts.lookup a = some info → promised info < balanceLimit
  fits : Fits s

namespace Rewarded

theorem rewards (h : Rewarded T pool s s') : s'.rewards = s.rewards := by
  rw [h.frame]

theorem claims (h : Rewarded T pool s s') : s'.claims = s.claims := by
  rw [h.frame]

theorem vesting (h : Rewarded T pool s s') : s'.vesting = s.vesting := by
  rw [h.frame]

theorem total (h : Rewarded T pool s s') : s'.total = s.total := by
  rw [h.frame]

theorem fits (h : Rewarded T pool s s') (hfits : Fits s) : Fits s' := by
  constructor
  · rw [h.claims, h.rewards]
    exact hfits.claims
  · rw [h.total, h.rewards]
    exact hfits.total

end Rewarded

theorem Ready.rewardAmount_eq (h : Ready T pool s) {a : A} {info : UserInfo}
    (hinfo : s.handler.accounts.lookup a = some info) : rewardAmount info = promised info :=
  Betanet.rewardAmount_eq (h.fits_accounts a info hinfo)

/-- The two runs are one payment of all rewards. -/
theorem Ready.pays_all (hT : T.Lawful pool) (h : Ready T pool s) (hrewarded : Rewarded T pool s s')
    (htopped : ToppedUp T pool s' s'') : Pays T pool (allRewards s) s s'' := by
  have hpays := hrewarded.pays.trans hT h.inOrder htopped.pays
  rw [hrewarded.rewards, sumBy_congr fun a info hinfo => h.rewardAmount_eq hinfo] at hpays
  exact hpays

/-- The program does what it has to do, in any orders that the two maps are drained in. -/
theorem enactProgram_enacted (hT : T.Lawful pool) (h : Ready T pool s)
    {accounts : List (A × UserInfo)} {rewards : List (EthereumAddress × Nat)}
    (haccounts : Drains accounts s.handler.accounts) (hrewards : Drains rewards s.rewards) :
    Enacted T pool s (enactProgram T accounts rewards s) := by
  have hrewarded := processRewards_spec hT haccounts h.inOrder h.pool_unlisted h.exist
  unfold enactProgram
  generalize processRewards T accounts s = s₁ at hrewarded ⊢
  rw [← hrewarded.rewards] at hrewards
  have htopped := processClaims_spec hT hrewards hrewarded.pays.inOrder (hrewarded.fits h.fits)
  generalize processClaims T rewards s₁ = s₂ at htopped ⊢
  have hframe₁ := hrewarded.frame
  have hframe₂ := htopped.frame
  have hpays := h.pays_all hT hrewarded htopped
  have hbefore := h.inOrder.pool_unencumbered
  have hafter := hpays.inOrder.pool_unencumbered
  have hdraw := draw_free T.claims.currency.existentialDeposit (allRewards s) hbefore
  rw [← hpays.pool_eq] at hdraw
  refine ⟨?_, ?_, hdraw, ?_, ?_, ?_, ?_, ?_, ?_, hpays.inOrder.balanced, ?_, ?_, ?_⟩
  · -- the second run does not touch the accounts that the first one drained
    rw [hframe₂]
    show s₁.handler.accounts = ∅
    rw [hframe₁]
  · rw [hframe₂]
  · rw [hbefore.1, hafter.1]
  · intro a info hinfo
    have hne := ne_of_lookup hinfo h.pool_unlisted
    obtain ⟨hfree, hreserved, _⟩ := hrewarded.gained a info hinfo
    rw [htopped.accounts a hne, hfree, hreserved, h.rewardAmount_eq hinfo]
    exact ⟨rfl, rfl⟩
  · intro a hnone hne
    rw [htopped.accounts a hne, hrewarded.others a hnone hne]
  · intro address
    rw [htopped.claims, hrewarded.claims, hrewarded.rewards]
  · rw [htopped.total, hrewarded.total, hrewarded.rewards]
  · have hissuance := hpays.issuance
    rw [hbefore.total_eq, hafter.total_eq] at hissuance
    omega
  · intro a
    rw [htopped.schedules]
    cases hlookup : s.handler.accounts.lookup a with
    | none => exact hrewarded.schedules_others a hlookup
    | some info => exact (hrewarded.gained a info hlookup).2.2
  · intro address
    rw [htopped.vesting, hrewarded.rewards]
    cases s.rewards.lookup address with
    | none => rw [hrewarded.vesting]
    | some reward =>
      exact lookup_vesting_congr reward (by rw [hrewarded.claims]) (by rw [hrewarded.vesting])
  · rw [hframe₂]
    simp only
    rw [hframe₁]

/-! ## The order of the drains -/

/-- Two states that differ in nothing that the pallets can tell, but for the events of the
handler of the rewards: the storage is the same, and all accounts have the same balances and
schedules. -/
structure SameResult (T : Config A σ) (s' s'' : State A σ) : Prop where
  storage : s'' = { s' with ledger := s''.ledger }
  balances : ∀ a, (account T s'' a).free = (account T s' a).free ∧
    (account T s'' a).reserved = (account T s' a).reserved
  schedules : schedules T s'' = schedules T s'
  issuance : totalIssuance T s'' = totalIssuance T s'

/-- What enacting does is decided by the state it is done in. -/
theorem Enacted.same (h' : Enacted T pool s s') (h'' : Enacted T pool s s'') :
    SameResult T s' s'' := by
  have hclaims : s''.claims = s'.claims :=
    Finmap.ext_lookup fun address => (h''.claims address).trans (h'.claims address).symm
  have hvesting : s''.vesting = s'.vesting :=
    Finmap.ext_lookup fun address => (h''.vesting address).trans (h'.vesting address).symm
  have htotal : s''.total = s'.total := h''.total.trans h'.total.symm
  refine ⟨?_, ?_, ?_, ?_⟩
  · have hframe' := h'.frame
    have hframe'' := h''.frame
    rw [hclaims, hvesting, htotal] at hframe''
    rw [hframe'', hframe']
  · intro a
    by_cases ha : a = pool
    · -- both have lost the same amount
      have hpool' := h'.pool_free
      have hpool'' := h''.pool_free
      subst ha
      exact ⟨by omega, h''.pool_reserved.trans h'.pool_reserved.symm⟩
    · cases hlookup : s.handler.accounts.lookup a with
      | none => rw [h'.others a hlookup ha, h''.others a hlookup ha]; exact ⟨rfl, rfl⟩
      | some info =>
        obtain ⟨hfree', hreserved'⟩ := h'.gained a info hlookup
        obtain ⟨hfree'', hreserved''⟩ := h''.gained a info hlookup
        exact ⟨hfree''.trans hfree'.symm, hreserved''.trans hreserved'.symm⟩
  · funext a
    exact (h''.schedules a).trans (h'.schedules a).symm
  · have hissuance' := h'.issuance
    have hissuance'' := h''.issuance
    rw [htotal] at hissuance''
    omega

/-! ## On the economics pallet -/

/-- The runtime, with the rewards handled by the economics pallet. -/
def onEconomics (E : Economics.Config A σ) (claims : Claims.Config A σ (Storage A))
    (enactmentBlock : Nat) : Config A (Economics.State σ) where
  claims := { claims with currency := E.currency }.along Economics.ledgerPart
  enactmentBlock := enactmentBlock
  reward s amount := Economics.onUnbalanced E amount s

theorem onEconomics_lawful {E : Economics.Config A σ} {claims : Claims.Config A σ (Storage A)}
    (hE : E.currency.Lawful) (hvesting : claims.vestingSchedule.Lawful E.currency)
    (enactmentBlock : Nat) :
    (onEconomics E claims enactmentBlock).Lawful E.rewardsAccountId where
  currency := hE.along Economics.ledgerPart
  vesting := hvesting.along Economics.ledgerPart
  reward :=
    { sets := by
        intro ledger amount negative hpool hbacked
        obtain ⟨hsets, _⟩ := Economics.onUnbalanced_spec (s := ledger) hE hpool hbacked
        exact hsets
      backed := by
        intro ledger amount negative hpool hbacked
        obtain ⟨_, _, _, hafter⟩ := Economics.onUnbalanced_spec (s := ledger) hE hpool hbacked
        exact hafter
      schedules := fun ledger amount =>
        Economics.onUnbalanced_leaves hvesting.leaves_schedules amount ledger }

/-- On the economics pallet, whatever the orders of the two drains: the pool loses what it can
pay of all rewards, and what this leaves of it if that is too little to stay; each account gains
its own reward and each leftover claim its own, and nobody else's balance changes; the issuance
and the total of the claims together grow by what the pool does not lose, and the issuance is
the sum of all balances. The orders make no difference. -/
theorem enact_program_conserves (E : Economics.Config A σ)
    (claims : Claims.Config A σ (Storage A)) (enactmentBlock : Nat) (hE : E.currency.Lawful)
    (hvesting : claims.vestingSchedule.Lawful E.currency) (s : State A (Economics.State σ))
    (h : Ready (onEconomics E claims enactmentBlock) E.rewardsAccountId s)
    (accounts : List (A × UserInfo)) (rewards : List (EthereumAddress × Nat))
    (haccounts : Drains accounts s.handler.accounts) (hrewards : Drains rewards s.rewards) :
    let T := onEconomics E claims enactmentBlock
    Enacted T E.rewardsAccountId s (enactProgram T accounts rewards s) ∧
      ∀ accounts' rewards', Drains accounts' s.handler.accounts → Drains rewards' s.rewards →
        SameResult T (enactProgram T accounts rewards s) (enactProgram T accounts' rewards' s) := by
  have hT := onEconomics_lawful hE hvesting enactmentBlock
  have henacted := enactProgram_enacted hT h haccounts hrewards
  refine ⟨henacted, ?_⟩
  intro accounts' rewards' haccounts' hrewards'
  exact henacted.same (enactProgram_enacted hT h haccounts' hrewards')

/-! ## A mock enactment

Over the mock runtime of the economics pallet, whose pool is the account `0`, with the
existential deposit `10`. One account has a reward of `10` and one claim a reward of `7`. -/

def mockEconomics : Economics.Config Nat (VestedLedger Nat) :=
  (Economics.mockRuntime 10).along VestedLedger.ledgerPart

def mockEnactment : Config Nat (Economics.State (VestedLedger Nat)) :=
  onEconomics mockEconomics mockRuntime.claims 100

/-- The state at the enactment block, with the balance of the pool and the account that has a
reward. -/
def mockState (pool account : Nat) : State Nat (Economics.State (VestedLedger Nat)) where
  block := 100
  claims := .ofList [(mockAddress 1, 100)]
  total := 100
  vesting := ∅
  signing := ∅
  preclaims := ∅
  rewards := .ofList [(mockAddress 1, 7)]
  ledger := Economics.genesisBuild Economics.mockGenesis
    { ledger := .ofList [(0, { AccountData.absent with free := pool }),
        (5, { AccountData.absent with free := 1000 })]
      schedules := ∅ }
  handler :=
    { accounts := .ofList [(account, { principal := 50, reward := 10, option := default })]
      approved := true
      events := [] }
  events := []

theorem enact_program_conserves_mock :
    Enacted mockEnactment 0 (mockState 500 5) (enactProgram mockEnactment
      [(5, { principal := 50, reward := 10, option := default })] [(mockAddress 1, 7)]
      (mockState 500 5)) := by
  have hlisted : ∀ a info, (mockState 500 5).handler.accounts.lookup a = some info →
      a = 5 ∧ info = { principal := 50, reward := 10, option := default } := by
    intro a info hinfo
    by_cases ha : a = 5
    · rw [ha] at hinfo
      exact ⟨ha, (Option.some.inj hinfo).symm⟩
    · have hnone : (mockState 500 5).handler.accounts.lookup a = none :=
        lookup_ofList_eq_none (by simpa using ha)
      rw [hnone] at hinfo
      cases hinfo
  refine (enact_program_conserves mockEconomics mockRuntime.claims 100
    ((Ledger.currency_lawful (by decide)).along VestedLedger.ledgerPart)
    (VestedLedger.vesting_lawful 28 10) (mockState 500 5)
    ⟨⟨by rfl, by decide⟩, by rfl, ?_, ?_, ?_, by decide⟩ _ _ (by decide) (by decide)).1
  · intro a info hinfo
    rw [(hlisted a info hinfo).1]
    decide
  · intro a info hinfo
    rw [(hlisted a info hinfo).2]
    decide
  · intro address claim hclaim
    by_cases haddress : address = mockAddress 1
    · rw [haddress] at hclaim ⊢
      cases Option.some.inj hclaim
      decide
    · have hnone : (mockState 500 5).claims.lookup address = none :=
        lookup_ofList_eq_none (by simpa using haddress)
      rw [hnone] at hclaim
      cases hclaim

/-- A pool of `20` pays `17` and loses all, since `3` are too little to stay. And a pool that is
listed itself, with a reward of `10`, gains what it pays for it. -/
theorem pool_loses_more_or_less :
    ((account mockEnactment (enactProgram mockEnactment
        [(5, { principal := 50, reward := 10, option := default })] [(mockAddress 1, 7)]
        (mockState 20 5)) 0).free + min (allRewards (mockState 20 5)) 20 ≠ 20) ∧
      ((account mockEnactment (enactProgram mockEnactment
        [(0, { principal := 50, reward := 10, option := default })] [(mockAddress 1, 7)]
        (mockState 500 0)) 0).free + min (allRewards (mockState 500 0)) 500 ≠ 500) :=
  ⟨by decide, by decide⟩

end XXChain.Betanet
