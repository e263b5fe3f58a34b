import XXChain.Betanet.Model
import XXChain.Claims.Payment
import XXChain.Lib.Run

/-!
# XXChain — the betanet rewards on record

Before the enactment block a reward is on record with the claim it belongs to or, once that
is claimed, with the account it was claimed to. `add_claimed` inserts a new entry for that
account, over the one it may have already: that reward is lost, and so is the option.

* **`applyCall_recorded`** — what a call of the claims pallet does to the records;
* **`rewards_kept_iff`** — over a run before the enactment block no reward is lost, and no record
  changed by a claim, exactly when no claim with a reward goes to an account that is listed.
-/

namespace XXChain.Betanet

open StorageMap Claims

variable {A σ : Type} [DecidableEq A] {T : Config A σ} {s s' : State A σ}
  {signer : EthereumAddress} {dest : A}

/-- All rewards on record. -/
def rewardsSum (s : State A σ) : Nat :=
  sumBy UserInfo.reward s.handler.accounts + sumBy id s.rewards

/-! ## Actions -/

/-- What happens to the two pallets before the enactment: the calls of either, or the chain
around them moving on. -/
inductive Action (A σ : Type) where
  | claims (origin : Origin A) (call : Call A)
  | selectOption (origin : Origin A) (option : RewardOption)
  | approve (origin : Origin A)
  | outside (block : Nat) (ledger : σ)

/-- A call that fails changes nothing. -/
def next (T : Config A σ) (s : State A σ) : Action A σ → State A σ
  | .claims origin call => applyCall T.wired s (origin, call)
  | .selectOption origin option =>
    match selectOption T origin option s with
    | .ok s' => s'
    | .error _ => s
  | .approve origin =>
    match approve T origin s with
    | .ok s' => s'
    | .error _ => s
  | .outside block ledger => { s with block := block, ledger := ledger }

/-- Calls are made below the enactment block. -/
def Early (T : Config A σ) (s : State A σ) : Action A σ → Prop
  | .outside .. => True
  | _ => s.block < T.enactmentBlock

/-- Every account that is listed keeps its reward and its option. -/
def RecordsKept (s s' : State A σ) : Prop :=
  ∀ a info, s.handler.accounts.lookup a = some info →
    ∃ info', s'.handler.accounts.lookup a = some info' ∧ info'.reward = info.reward ∧
      info'.option = info.option

/-- A claim keeps the records of all others. -/
def ClaimKeeps (T : Config A σ) (s : State A σ) : Action A σ → Prop
  | .claims origin call => RecordsKept s (applyCall T.wired s (origin, call))
  | _ => True

/-- The claim of `signer` has a reward and `dest` is listed, with an entry that differs in the
reward or the option from the one that `add_claimed` would write, or has a reward. -/
def Clash (s : State A σ) (signer : EthereumAddress) (dest : A) : Prop :=
  ∃ reward info, s.rewards.lookup signer = some reward ∧
    s.handler.accounts.lookup dest = some info ∧
    ¬(info.reward = 0 ∧ reward = 0 ∧ info.option = default)

/-- The call pays a claim whose record clashes with that of the account. -/
def Overwrites (T : Config A σ) (s : State A σ) : Action A σ → Prop
  | .claims origin call => ∃ signer dest, Addressed T.wired s signer dest (origin, call) ∧
      Payable T.wired s signer dest ∧ Clash s signer dest
  | _ => False

/-! ## One claim -/

/-- The records after a claim before the enactment block: as they were when it has no reward,
and else with the reward moved from the claim to the account. -/
theorem paidBy_records (h : PaidBy T.wired s s' signer dest)
    (hearly : s.block < T.enactmentBlock) :
    (s.rewards.lookup signer = none ∧ s'.handler = s.handler ∧ s'.rewards = s.rewards) ∨
      ∃ info : UserInfo, s.rewards.lookup signer = some info.reward ∧ info.option = default ∧
        s'.handler.accounts = s.handler.accounts.insert dest info ∧
        s'.rewards = s.rewards.erase signer := by
  obtain ⟨s₁, hpaid, hs'⟩ := h
  obtain ⟨balanceDue, _, hhandler⟩ := processClaim_handler hpaid
  have hrewards := processClaim_rewards hpaid
  rw [hs']
  cases hreward : s.rewards.lookup signer with
  | none =>
    rw [hreward] at hhandler
    exact Or.inl ⟨rfl, hhandler, hrewards.trans (erase_of_lookup_none hreward)⟩
  | some reward =>
    rw [hreward] at hhandler
    refine Or.inr ⟨{ principal := balanceDue, reward := reward, option := default }, rfl, rfl, ?_,
      hrewards⟩
    show s₁.handler.accounts = _
    rw [hhandler]
    -- before the enactment block a claim is always recorded
    show (addClaimed T.enactmentBlock s.block s.handler dest balanceDue reward).accounts = _
    rw [addClaimed, if_neg (by omega)]

/-- A new record keeps the others, and the one it is written over if it is the same. -/
theorem recordsKept_insert_iff {info : UserInfo}
    (h : s'.handler.accounts = s.handler.accounts.insert dest info) :
    RecordsKept s s' ↔ ∀ listed, s.handler.accounts.lookup dest = some listed →
      info.reward = listed.reward ∧ info.option = listed.option := by
  constructor
  · intro hkept listed hlisted
    obtain ⟨info', hinfo', hsame⟩ := hkept dest listed hlisted
    rw [h, Finmap.lookup_insert] at hinfo'
    cases hinfo'
    exact hsame
  · intro hsame a listed hlisted
    rw [h]
    by_cases ha : a = dest
    · rw [ha] at hlisted ⊢
      exact ⟨info, Finmap.lookup_insert _, hsame listed hlisted⟩
    · exact ⟨listed, by rw [Finmap.lookup_insert_of_ne _ ha]; exact hlisted, rfl, rfl⟩

/-- A paid claim keeps the sum and the records exactly when they do not clash. -/
theorem paidBy_kept_iff (h : PaidBy T.wired s s' signer dest)
    (hearly : s.block < T.enactmentBlock) :
    rewardsSum s' = rewardsSum s ∧ RecordsKept s s' ↔ ¬ Clash s signer dest := by
  unfold rewardsSum Clash
  rcases paidBy_records h hearly with ⟨hreward, hhandler, hrewards⟩ |
    ⟨info, hreward, hdefault, haccounts, hrewards⟩
  · -- nothing was recorded for the claim, so nothing moves
    rw [hhandler, hrewards, hreward]
    refine iff_of_true ⟨rfl, ?_⟩ (by simp)
    intro a listed hlisted
    exact ⟨listed, by rw [hhandler]; exact hlisted, rfl, rfl⟩
  · have herase := sumBy_erase id s.rewards signer
    have hinsert := sumBy_insert UserInfo.reward s.handler.accounts dest info
    rw [valueAt_of_some hreward, id_eq] at herase
    rw [recordsKept_insert_iff haccounts, haccounts, hrewards, hreward]
    cases hlisted : s.handler.accounts.lookup dest with
    | none =>
      rw [valueAt_of_none hlisted] at hinsert
      exact iff_of_true ⟨by omega, by simp⟩ (by simp)
    | some listed =>
      -- the reward that was listed is the one that goes
      rw [valueAt_of_some hlisted] at hinsert
      constructor
      · rintro ⟨hsum, hsame⟩ ⟨_, _, hreward', hlisted', hdiffer⟩
        cases hreward'
        cases hlisted'
        obtain ⟨hrecord, hoption⟩ := hsame listed rfl
        exact hdiffer ⟨by omega, by omega, hoption.symm.trans hdefault⟩
      · intro hclash
        have hnone : listed.reward = 0 ∧ info.reward = 0 ∧ listed.option = default := by
          by_contra hdiffer
          exact hclash ⟨info.reward, listed, rfl, rfl, hdiffer⟩
        refine ⟨by omega, ?_⟩
        intro listed' hlisted'
        cases hlisted'
        exact ⟨by omega, hdefault.trans hnone.2.2.symm⟩

/-- The calls that pay no claim leave the records alone. -/
theorem applyCall_handler (T : Config A σ) (s : State A σ) (origin : Origin A) {call : Call A}
    (hpays : call.pays = false) :
    (applyCall T.wired s (origin, call)).handler = s.handler ∧
      (applyCall T.wired s (origin, call)).rewards = s.rewards := by
  obtain ⟨_, _, _, _, _, hs'⟩ := applyCall_frame T.wired s origin hpays
  rw [hs']
  exact ⟨rfl, rfl⟩

/-- A call of the claims pallet keeps the sum and the records exactly when it does not write
one over another. -/
theorem applyCall_recorded (origin : Origin A) (call : Call A)
    (hearly : s.block < T.enactmentBlock) :
    rewardsSum (applyCall T.wired s (origin, call)) = rewardsSum s ∧
        RecordsKept s (applyCall T.wired s (origin, call)) ↔
      ¬ Overwrites T s (.claims origin call) := by
  constructor
  · rintro hkept ⟨signer, dest, haddressed, hpayable, hclash⟩
    exact (paidBy_kept_iff (haddressed.applyCall hpayable) hearly).mp hkept hclash
  · intro hkeeps
    -- a call that pays nothing leaves everything on record as it is
    have hunchanged : ∀ s', s'.handler = s.handler → s'.rewards = s.rewards →
        rewardsSum s' = rewardsSum s ∧ RecordsKept s s' := by
      intro s' hhandler hrewards
      unfold rewardsSum RecordsKept
      rw [hhandler, hrewards]
      exact ⟨rfl, fun a info ha => ⟨info, ha, rfl, rfl⟩⟩
    cases hpays : call.pays with
    | false =>
      obtain ⟨hhandler, hrewards⟩ := applyCall_handler T s origin hpays
      exact hunchanged _ hhandler hrewards
    | true =>
      rcases applyCall_pays T.wired s origin hpays with
        ⟨signer, dest, haddressed, hpayable, hpaid⟩ | hsame
      · refine (paidBy_kept_iff hpaid hearly).mpr ?_
        intro hclash
        exact hkeeps ⟨signer, dest, haddressed, hpayable, hclash⟩
      · rw [hsame]
        exact hunchanged s rfl rfl

/-! ## Whole runs -/

/-- Selecting an option keeps the rewards. -/
theorem selectOption_rewardsSum {origin : Origin A} {option : RewardOption}
    (h : selectOption T origin option s = .ok s') : rewardsSum s' = rewardsSum s := by
  simp only [selectOption, bind_eq_ok, ensure_eq_ok] at h
  obtain ⟨who, _, _, hlisted, _, _, hs'⟩ := h
  cases hs'
  obtain ⟨info, hinfo⟩ := Option.isSome_iff_exists.mp hlisted
  -- the entry is written back with another option and the same reward
  have hinsert := sumBy_insert UserInfo.reward s.handler.accounts who { info with option }
  rw [valueAt_of_some hinfo] at hinsert
  show sumBy UserInfo.reward (s.handler.accounts.insert who
    { (s.handler.accounts.lookup who).getD default with option }) + sumBy id s.rewards = _
  rw [hinfo]
  unfold rewardsSum
  simp only [Option.getD_some] at hinsert ⊢
  omega

omit [DecidableEq A] in
theorem approve_rewardsSum {origin : Origin A} (h : approve T origin s = .ok s') :
    rewardsSum s' = rewardsSum s := by
  simp only [approve, bind_eq_ok] at h
  obtain ⟨_, _, _, _, hs'⟩ := h
  cases hs'
  rfl

/-- One action keeps the sum, and the records if it is a claim, exactly when it does not write
one over another. -/
theorem next_kept_iff (a : Action A σ) (hearly : Early T s a) :
    rewardsSum (next T s a) = rewardsSum s ∧ ClaimKeeps T s a ↔ ¬ Overwrites T s a := by
  cases a with
  | claims origin call => exact applyCall_recorded origin call hearly
  | selectOption origin option =>
    refine iff_of_true ⟨?_, trivial⟩ id
    show rewardsSum (match selectOption T origin option s with
      | .ok s' => s'
      | .error _ => s) = rewardsSum s
    split
    case h_1 s' hok => exact selectOption_rewardsSum hok
    case h_2 => rfl
  | approve origin =>
    refine iff_of_true ⟨?_, trivial⟩ id
    show rewardsSum (match approve T origin s with
      | .ok s' => s'
      | .error _ => s) = rewardsSum s
    split
    case h_1 s' hok => exact approve_rewardsSum hok
    case h_2 => rfl
  | outside block ledger => exact iff_of_true ⟨rfl, trivial⟩ id

/-- From any genesis, over any calls below the enactment block: the rewards on record add up
to those of the genesis in every state, and no claim changes the record of another, exactly
when no claim with a reward goes to an account that is listed, unless the two records are the
same and have no reward. -/
theorem rewards_kept_iff (T : Config A σ) (config : GenesisConfig A)
    (accounts : List (A × UserInfo)) (ledger : σ) (actions : List (Action A σ))
    (hearly : Along (next T) (Early T)
      (Claims.genesisBuild config ledger (genesisBuild accounts)) actions) :
    let genesis : State A σ := Claims.genesisBuild config ledger (genesisBuild accounts)
    Always (next T) (fun s => rewardsSum s = rewardsSum genesis) genesis actions ∧
        Along (next T) (ClaimKeeps T) genesis actions ↔
      Along (next T) (fun s a => ¬ Overwrites T s a) genesis actions := by
  intro genesis
  have hstep : ∀ (s : State A σ) (a : Action A σ), rewardsSum s = rewardsSum genesis →
      Early T s a →
      (rewardsSum (next T s a) = rewardsSum genesis ∧ ClaimKeeps T s a ↔ ¬ Overwrites T s a) := by
    intro s a hs ha
    rw [← hs]
    exact next_kept_iff a ha
  exact always_iff_along hstep rfl hearly

/-- An account claims coins with a reward and selects an option. -/
def mockActions : List (Action Nat (VestedLedger Nat)) :=
  [.claims (.signed 42) (.attest []), .selectOption (.signed 42) .vesting1Month,
    .approve .root]

theorem rewards_kept_iff_mock :
    let genesis := Claims.genesisBuild mockGenesis mockLedger (genesisBuild [])
    Always (next mockRuntime) (fun s => rewardsSum s = rewardsSum genesis) genesis mockActions ∧
      Along (next mockRuntime) (ClaimKeeps mockRuntime) genesis mockActions := by
  have hearly : Along (next mockRuntime) (Early mockRuntime)
      (Claims.genesisBuild mockGenesis mockLedger (genesisBuild [])) mockActions := by
    refine ⟨?_, ?_, ?_, trivial⟩ <;> unfold Early <;> decide
  refine (rewards_kept_iff mockRuntime mockGenesis [] mockLedger mockActions hearly).mpr
    ⟨?_, id, id, trivial⟩
  -- no account is listed at the genesis
  rintro ⟨_, dest, _, _, _, _, _, hlisted, _⟩
  cases hlisted

/-- The account `42` is listed with a reward of `9`, and claims coins with one of `7`: of the
`16`, only `7` is left. -/
theorem listed_reward_is_lost :
    let genesis := Claims.genesisBuild mockGenesis mockLedger
      (genesisBuild [(42, { principal := 50, reward := 9, option := .vesting1Month })])
    ¬(Always (next mockRuntime) (fun s => rewardsSum s = rewardsSum genesis) genesis
        [.claims (.signed 42) (.attest [])] ∧
      Along (next mockRuntime) (ClaimKeeps mockRuntime) genesis
        [.claims (.signed 42) (.attest [])]) := by
  intro genesis h
  have hsum : (7 : Nat) = 16 := h.1.2
  exact absurd hsum (by decide)

end XXChain.Betanet
