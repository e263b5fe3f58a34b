import XXChain.Betanet.Entry
import XXChain.Runtime.Blocks
import XXChain.Runtime.Moves
import XXChain.Runtime.NonTransfer

/-!
# XXChain — where coins come from

The supply is what is issued together with what the claims promise. Over any run of the runtime
it grows only by the sources that `created` lists, each with its amount: a claim that the root
mints, the rewards of the betanet when the program is enacted, the rewards and the remainder of
an era, and what the pallets that are not of this repository issue by themselves.

* **`palletDispatch_supply`** — a call of a pallet creates what it is charged with;
* **`happens_supply`** — so does every entry of a record;
* **`run_supply_le`** — and so does every run.
-/

namespace XXChain.Runtime

variable {A F σ : Type} [DecidableEq A] {T : Config A F σ} {origin : Origin A}
  {s s' : State A F σ} {w w' : World A σ}

/-- What is issued. -/
def issuance (T : Config A F σ) (ledger : σ) : Nat :=
  T.currency.totalIssuance ledger

/-- What is issued, and what the claims promise. -/
def supply (T : Config A F σ) (w : World A σ) : Nat :=
  issuance T w.ledger + w.claims.total

/-- The rewards of the betanet are handled by the economics pallet. -/
def Config.RewardedByEconomics (T : Config A F σ) : Prop :=
  ∀ l amount, ∃ part : Economics.State σ, part.ledger = l ∧
    T.betanet.reward l amount = (Economics.onUnbalanced T.economics amount part).ledger

/-- The documented behaviour of the pallets that are not of this repository: what the pallets of
this repository call of them issues nothing, and the treasury only takes what was issued. The
rewards of the betanet are the economics pallet's. -/
structure Config.IssuesNothing (T : Config A F σ) : Prop where
  forceUnstake : ∀ l a l', T.custody.staking.forceUnstake l a = some l' →
    issuance T l' = issuance T l
  bond : ∀ l a controller v l', T.custody.staking.bond l a controller v = some l' →
    issuance T l' = issuance T l
  bondExtra : ∀ l a v l', T.custody.staking.bondExtra l a v = some l' →
    issuance T l' = issuance T l
  setController : ∀ l a controller l', T.custody.staking.setController l a controller = some l' →
    issuance T l' = issuance T l
  remove : ∀ l a, issuance T (T.custody.proxies.remove l a) = issuance T l
  addProxyDelegate : ∀ l a delegate proxyType delay l',
    T.custody.proxies.addProxyDelegate l a delegate proxyType delay = some l' →
    issuance T l' = issuance T l
  rewardByIds : ∀ l data, issuance T (T.cmix.rewardByIds l data) = issuance T l
  deductByIds : ∀ l data, issuance T (T.cmix.deductByIds l data) = issuance T l
  rewardRemainder : ∀ l amount, issuance T (T.economics.rewardRemainder l amount) ≤ issuance T l
  reward : T.RewardedByEconomics

/-! ## The economics pallet

It turns an imbalance into a withdrawal from the rewards pool and issues what the pool does not
have, so it never issues more than the imbalance. -/

theorem economics_currency_lawful (hT : T.Lawful) : T.economics.currency.Lawful :=
  T.economics_currency ▸ hT.currency

omit [DecidableEq A] in
theorem issuance_economics (l : σ) : T.economics.currency.totalIssuance l = issuance T l := by
  rw [T.economics_currency]
  rfl

/-- What the pool pays leaves the issuance as the imbalance is settled, or is issued if it cannot
be. -/
theorem withdraw_issuance (hT : T.Lawful) (amount : Nat) (part : Economics.State σ) :
    issuance T (Economics.withdraw T.economics amount part).ledger ≤
      issuance T part.ledger + amount := by
  have hc := economics_currency_lawful hT
  unfold Economics.withdraw
  split
  · exact Nat.le_add_right _ _
  next hne =>
    rw [← issuance_economics, ← issuance_economics]
    show T.economics.currency.totalIssuance (match _ with | some ledger => ledger | none => _) ≤ _
    split
    next ledger hsettle =>
      have hle := hc.issuance_settle_le (Nat.pos_of_ne_zero hne) hsettle
      omega
    -- the imbalance that could not be settled is issued as it is dropped
    next => exact (hc.dropPositive_issuance _ _).le

/-- The pool pays what it has, and only the rest is issued. -/
theorem onUnbalanced_issuance (hT : T.Lawful) (amount : Nat) (part : Economics.State σ) :
    issuance T (Economics.onUnbalanced T.economics amount part).ledger ≤
      issuance T part.ledger + amount := by
  have hc := economics_currency_lawful hT
  unfold Economics.onUnbalanced
  split
  · exact Nat.le_add_right _ _
  · rw [← issuance_economics]
    show T.economics.currency.totalIssuance (T.economics.currency.dropPositive
      (Economics.mintEvent _ (Economics.withdraw T.economics
        (min amount (Economics.rewardsBalance T.economics part)) part)).ledger
      (amount - min amount (Economics.rewardsBalance T.economics part))) ≤ _
    have hle := withdraw_issuance hT (min amount (Economics.rewardsBalance T.economics part)) part
    have hpool := Nat.min_le_left amount (Economics.rewardsBalance T.economics part)
    -- what the pool did not pay is issued as it is dropped
    rw [hc.dropPositive_issuance, Economics.mintEvent_ledger, issuance_economics]
    omega

/-- The deposits of a payout issue nothing, and are outstanding up to what they were of. -/
theorem depositAll_issuance {c : Currency A σ} (hc : c.Lawful) (l : σ)
    (receivers : List (A × Nat)) :
    c.totalIssuance (Economics.depositAll c l receivers).1 = c.totalIssuance l ∧
      Economics.totalCredited (Economics.depositAll c l receivers).2 ≤
        (receivers.map Prod.snd).sum := by
  induction receivers generalizing l with
  | nil => exact ⟨rfl, le_rfl⟩
  | cons receiver receivers ih =>
    obtain ⟨hissuance, hcredited⟩ := ih (c.depositCreating l receiver.1 receiver.2).1
    have hfirst := hc.deposit_imbalance_le l receiver.1 receiver.2
    refine ⟨hissuance.trans (hc.deposit_issuance l receiver.1 receiver.2), ?_⟩
    show (c.depositCreating l receiver.1 receiver.2).2 + Economics.totalCredited _ ≤
      receiver.2 + (receivers.map Prod.snd).sum
    exact Nat.add_le_add hfirst hcredited

/-- A payout of an era creates at most what its receivers are due. -/
theorem payRewards_issuance (hT : T.Lawful) (receivers : List (A × Nat))
    (part : Economics.State σ) :
    issuance T (Economics.payRewards T.economics receivers part).ledger ≤
      issuance T part.ledger + (receivers.map Prod.snd).sum := by
  obtain ⟨hissuance, hcredited⟩ :=
    depositAll_issuance (economics_currency_lawful hT) part.ledger receivers
  rw [issuance_economics, issuance_economics] at hissuance
  have hpaid := onUnbalanced_issuance hT
    (Economics.totalCredited (Economics.depositAll T.economics.currency part.ledger receivers).2)
    { part with
      ledger := (Economics.depositAll T.economics.currency part.ledger receivers).1 }
  rw [hissuance] at hpaid
  exact hpaid.trans (Nat.add_le_add_left hcredited _)

/-- What the pool pays of a remainder is burned before, and the rest is newly issued. -/
theorem payRemainder_issuance (hT : T.Lawful) (hI : T.IssuesNothing) (amount : Nat)
    (part : Economics.State σ) :
    issuance T (Economics.payRemainder T.economics amount part).ledger ≤
      issuance T part.ledger + amount := by
  have hc := economics_currency_lawful hT
  have hissued := hc.issue_issuance part.ledger amount
  rw [issuance_economics, issuance_economics] at hissued
  show issuance T (Economics.remainderOnUnbalanced T.economics
    (T.economics.currency.issue part.ledger amount).2
    { part with ledger := (T.economics.currency.issue part.ledger amount).1 }).ledger ≤ _
  rw [hc.issue_imbalance, ← hissued]
  generalize hl : (T.economics.currency.issue part.ledger amount).1 = l
  unfold Economics.remainderOnUnbalanced
  split
  · exact le_rfl
  · show issuance T (T.economics.rewardRemainder _ amount) ≤ _
    refine (hI.rewardRemainder _ amount).trans ?_
    rw [Economics.mintEvent_ledger]
    refine (withdraw_issuance hT _ _).trans ?_
    show issuance T (T.economics.currency.burn l _).1 + (T.economics.currency.burn l _).2 ≤ _
    rw [hc.burn_imbalance, ← issuance_economics, ← issuance_economics, hc.burn_issuance]
    omega

/-! ## The claims and the betanet rewards

A promise that is kept is issued, and no promise any more. What the root mints and what the program
adds to the claims is promised first. -/

/-- What is issued and what the claims promise, as the claims pallet sees it. -/
def claimsSupply (T : Config A F σ) (part : Betanet.State A σ) : Nat :=
  issuance T part.ledger + part.total

omit [DecidableEq A] in
theorem issuance_claims (l : σ) : T.betanet.claims.currency.totalIssuance l = issuance T l := by
  rw [T.claims_currency]
  rfl

theorem claims_currency_lawful (hT : T.Lawful) : T.betanet.claims.currency.Lawful :=
  T.claims_currency ▸ hT.currency

/-- What a call of the claims pallet promises: only the root mints claims. -/
def mintedBy : Origin A → Claims.Call A → Nat
  | .root, .mintClaim _ value _ _ => value
  | _, _ => 0

/-- A claim that is paid leaves the promises as it is issued. -/
theorem claims_supply_le (hT : T.Lawful) {call : Claims.Call A} {part part' : Betanet.State A σ}
    (h : Claims.dispatch T.betanet.wired origin call part = .ok part') :
    claimsSupply T part' ≤ claimsSupply T part + mintedBy origin call := by
  have hc := claims_currency_lawful hT
  have hpays : ∀ {signer dest}, Claims.PaidBy T.betanet.wired part part' signer dest →
      claimsSupply T part' ≤ claimsSupply T part := by
    rintro signer dest ⟨part₁, hprocess, hpart'⟩
    obtain ⟨_, hissued⟩ := Claims.processClaim_coins (T := T.betanet.wired) hc hT.claims hprocess
    obtain ⟨v, hclaim, hle, _, hpart₁⟩ := Claims.processClaim_eq_ok.mp hprocess
    -- the promise of `v` is taken back, and at most `v` is issued
    have htotal : part₁.total = part.total - v := by rw [hpart₁]; rfl
    have haccepted := hc.deposit_imbalance_le part.ledger dest v
    rw [hc.deposit_imbalance_accepted] at haccepted
    rw [hclaim, Option.getD_some] at hissued
    have hledger : issuance T part₁.ledger = issuance T part.ledger +
        Currency.accepted T.betanet.claims.currency.existentialDeposit v
          (T.betanet.claims.currency.totalBalance part.ledger dest) := by
      rw [← issuance_claims, ← issuance_claims]
      exact hissued
    rw [hpart']
    show issuance T part₁.ledger + part₁.total ≤ issuance T part.ledger + part.total
    omega
  cases call with
  | claim | claimAttest | attest =>
    obtain ⟨signer, dest, _, hpaidBy⟩ := Claims.dispatch_pays rfl h
    exact (hpays hpaidBy).trans (Nat.le_add_right _ _)
  | mintClaim who value vestingSchedules statement =>
    simp only [Claims.dispatch, Claims.mintClaim, bind_eq_ok, ensureRoot_eq_ok] at h
    obtain ⟨_, hroot, hpart'⟩ := h
    cases hpart'
    rw [hroot]
    -- the total wraps, as it does in `mint_claim`
    have hwrapped := Nat.mod_le (part.total + value) balanceLimit
    show issuance T part.ledger + (part.total + value) % balanceLimit ≤
      issuance T part.ledger + part.total + value
    omega
  | moveClaim old new maybePreclaim =>
    simp only [Claims.dispatch, Claims.moveClaim, bind_eq_ok] at h
    obtain ⟨_, _, hpart'⟩ := h
    cases hpart'
    exact Nat.le_add_right _ _

/-- A reward of the betanet is handled by the economics pallet. -/
theorem reward_issuance (hT : T.Lawful) (hI : T.IssuesNothing) (l : σ) (amount : Nat) :
    issuance T (T.betanet.reward l amount) ≤ issuance T l + amount := by
  obtain ⟨part, rfl, hreward⟩ := hI.reward l amount
  rw [hreward]
  exact onUnbalanced_issuance hT amount part

/-- A reward that is paid is issued, and the schedules that lock it issue nothing. -/
theorem processAccount_supply (hT : T.Lawful) (hI : T.IssuesNothing) (account : A)
    (info : Betanet.UserInfo) (part : Betanet.State A σ) :
    claimsSupply T (Betanet.processAccount T.betanet account info part) ≤
      claimsSupply T part + Betanet.rewardAmount info := by
  have hc := claims_currency_lawful hT
  have hdeposit := hc.deposit_issuance part.ledger account (Betanet.rewardAmount info)
  have himbalance := hc.deposit_imbalance_le part.ledger account (Betanet.rewardAmount info)
  rw [issuance_claims, issuance_claims] at hdeposit
  have hreward := reward_issuance hT hI
    (T.betanet.claims.currency.depositCreating part.ledger account
      (Betanet.rewardAmount info)).1
    (T.betanet.claims.currency.depositCreating part.ledger account
      (Betanet.rewardAmount info)).2
  have hledger : issuance T (Betanet.processAccount T.betanet account info part).ledger =
      issuance T (T.betanet.reward
        (T.betanet.claims.currency.depositCreating part.ledger account
          (Betanet.rewardAmount info)).1
        (T.betanet.claims.currency.depositCreating part.ledger account
          (Betanet.rewardAmount info)).2) := by
    rcases Betanet.processAccount_ledger T.betanet account info part with hpaid | ⟨v, hlocked⟩
    · rw [hpaid]
    · rw [hlocked, ← issuance_claims, hT.claims.tryAdd_issuance, issuance_claims]
  show issuance T (Betanet.processAccount T.betanet account info part).ledger + part.total ≤
    issuance T part.ledger + part.total + Betanet.rewardAmount info
  omega

/-- A reward that is added to a claim is promised, and what the handler of the rewards issues for
it is taken out of the issuance. -/
theorem processLeftoverClaim_supply (hT : T.Lawful) (hI : T.IssuesNothing)
    (address : Claims.EthereumAddress) (reward : Nat) (part : Betanet.State A σ) :
    claimsSupply T (Betanet.processLeftoverClaim T.betanet address reward part) ≤
      claimsSupply T part + reward := by
  have hc := claims_currency_lawful hT
  have hburn := hc.burn_issuance part.ledger reward
  have hdebit := hc.burn_imbalance part.ledger reward
  have hissue := hc.issue_issuance (T.betanet.claims.currency.burn part.ledger reward).1 reward
  have hcredit := hc.issue_imbalance (T.betanet.claims.currency.burn part.ledger reward).1 reward
  have hreward := reward_issuance hT hI
    (T.betanet.claims.currency.issue
      (T.betanet.claims.currency.burn part.ledger reward).1 reward).1
    (T.betanet.claims.currency.burn part.ledger reward).2
  have hdropped := hc.dropNegative_issuance (T.betanet.reward
    (T.betanet.claims.currency.issue
      (T.betanet.claims.currency.burn part.ledger reward).1 reward).1
    (T.betanet.claims.currency.burn part.ledger reward).2) reward
  simp only [issuance_claims] at hburn hdebit hissue hdropped
  -- the handler may issue the reward, and the negative imbalance takes it out again
  have htotal := Nat.mod_le (part.total + reward) balanceLimit
  show issuance T (T.betanet.claims.currency.dropNegative (T.betanet.reward
      (T.betanet.claims.currency.issue
        (T.betanet.claims.currency.burn part.ledger reward).1 reward).1
      (T.betanet.claims.currency.burn part.ledger reward).2)
      (T.betanet.claims.currency.issue
        (T.betanet.claims.currency.burn part.ledger reward).1 reward).2) +
    (part.total + reward) % balanceLimit ≤ issuance T part.ledger + part.total + reward
  rw [hcredit]
  omega

/-- What enacting the program pays and promises, if the two maps are drained as the lists say. -/
def enactmentRewards (accounts : List (A × Betanet.UserInfo))
    (rewards : List (Claims.EthereumAddress × Nat)) : Nat :=
  (accounts.map fun entry => Betanet.rewardAmount entry.2).sum + (rewards.map Prod.snd).sum

/-- All accounts are paid. The induction is on the list that the map is drained as. -/
theorem processRewards_supply (hT : T.Lawful) (hI : T.IssuesNothing)
    (accounts : List (A × Betanet.UserInfo)) (part : Betanet.State A σ) :
    claimsSupply T (Betanet.processRewards T.betanet accounts part) ≤
      claimsSupply T part + (accounts.map fun entry => Betanet.rewardAmount entry.2).sum := by
  induction accounts generalizing part with
  | nil => exact le_rfl
  | cons entry accounts ih =>
    have hfirst := processAccount_supply hT hI entry.1 entry.2
      (Betanet.setAccounts (part.handler.accounts.erase entry.1) part)
    have hsame : claimsSupply T
        (Betanet.setAccounts (part.handler.accounts.erase entry.1) part) = claimsSupply T part :=
      rfl
    have hrest := ih (Betanet.processAccount T.betanet entry.1 entry.2
      (Betanet.setAccounts (part.handler.accounts.erase entry.1) part))
    rw [List.map_cons, List.sum_cons]
    unfold Betanet.processRewards at hrest ⊢
    rw [List.foldl_cons]
    omega

/-- All rewards that are left are promised. -/
theorem processClaims_supply (hT : T.Lawful) (hI : T.IssuesNothing)
    (rewards : List (Claims.EthereumAddress × Nat)) (part : Betanet.State A σ) :
    claimsSupply T (Betanet.processClaims T.betanet rewards part) ≤
      claimsSupply T part + (rewards.map Prod.snd).sum := by
  induction rewards generalizing part with
  | nil => exact le_rfl
  | cons entry rewards ih =>
    have hfirst := processLeftoverClaim_supply hT hI entry.1 entry.2
      { part with rewards := part.rewards.erase entry.1 }
    have hsame : claimsSupply T { part with rewards := part.rewards.erase entry.1 } =
      claimsSupply T part := rfl
    have hrest := ih (Betanet.processLeftoverClaim T.betanet entry.1 entry.2
      { part with rewards := part.rewards.erase entry.1 })
    rw [List.map_cons, List.sum_cons]
    unfold Betanet.processClaims at hrest ⊢
    rw [List.foldl_cons]
    omega

/-- The hook of a block enacts the program, or does nothing. -/
theorem betanet_onInitialize_supply (hT : T.Lawful) (hI : T.IssuesNothing) (block : Nat)
    (accounts : List (A × Betanet.UserInfo)) (rewards : List (Claims.EthereumAddress × Nat))
    (part : Betanet.State A σ) :
    claimsSupply T (Betanet.onInitialize T.betanet block accounts rewards part) ≤
      claimsSupply T part +
        if block = T.betanet.enactmentBlock ∧ part.handler.approved = true then
          enactmentRewards accounts rewards
        else 0 := by
  unfold Betanet.onInitialize
  by_cases hblock : block = T.betanet.enactmentBlock
  · by_cases happroved : part.handler.approved = true
    · rw [if_pos hblock, if_pos happroved, if_pos ⟨hblock, happroved⟩]
      have hpaid := processRewards_supply hT hI accounts part
      have hpromised := processClaims_supply hT hI rewards
        (Betanet.processRewards T.betanet accounts part)
      show claimsSupply T (Betanet.processClaims T.betanet rewards
        (Betanet.processRewards T.betanet accounts part)) ≤ _
      unfold enactmentRewards
      omega
    · rw [if_pos hblock, if_neg happroved]
      exact Nat.le_add_right _ _
  · rw [if_neg hblock]
    exact Nat.le_add_right _ _

/-! ## The pallets that move coins

What the custody, the public funds, the swap and the cmix pallet do to the ledger leaves the
issuance below any bound it was below: only the dust of a transfer leaves it. -/

theorem movesKeep_issuance (hT : T.Lawful) (hI : T.IssuesNothing) (bound : Nat) :
    T.MovesKeep fun l => issuance T l ≤ bound where
  transfer _ _ _ _ _ h hl := (hT.currency.issuance_transfer_le h).trans hl
  unreserve l a v hl := (hT.currency.unreserve_issuance l a v).le.trans hl
  tryAdd block l a v hl := by
    have hadded := hT.publicFunds.tryAdd_issuance block l a v
    rw [T.public_currency] at hadded
    exact hadded.le.trans hl
  forceUnstake l a l' h hl := (hI.forceUnstake l a l' h).le.trans hl
  bond l a controller v l' h hl := (hI.bond l a controller v l' h).le.trans hl
  bondExtra l a v l' h hl := (hI.bondExtra l a v l' h).le.trans hl
  setController l a controller l' h hl := (hI.setController l a controller l' h).le.trans hl
  remove l a hl := (hI.remove l a).le.trans hl
  addProxyDelegate l a delegate proxyType delay l' h hl :=
    (hI.addProxyDelegate l a delegate proxyType delay l' h).le.trans hl
  rewardByIds l data hl := (hI.rewardByIds l data).le.trans hl
  deductByIds l data hl := (hI.deductByIds l data).le.trans hl

/-! ## Every step

`created` charges each entry of a record with the source it is. The calls that only move coins, the
votes and the end of an era are charged with nothing. -/

/-- What a call of another pallet creates: claims that are minted, and whatever the pallets that
are not of this repository do. -/
def createdBy (T : Config A F σ) (call : PalletCall A F) (origin : Origin A)
    (s : State A F σ) : Nat :=
  match call with
  | .claims call => mintedBy origin call
  | .foreign call =>
    match T.foreign call origin s with
    | .ok s' => supply T s'.world - supply T s.world
    | .error _ => 0
  | _ => 0

/-- The sources of the supply. -/
def created (T : Config A F σ) (s : State A F σ) : Action A F σ → Nat
  | .extrinsic origin (.other call) => createdBy T call origin s
  | .extrinsic _ _ => 0
  | .onInitialize block accounts rewards =>
    if block = T.betanet.enactmentBlock ∧ s.world.claims.handler.approved = true then
      enactmentRewards accounts rewards
    else 0
  | .endEra => 0
  | .eraPayout .. => 0
  | .payRewards receivers => (receivers.map Prod.snd).sum
  | .payRemainder amount => amount
  | .elsewhere ledger => issuance T ledger - issuance T s.world.ledger

omit [DecidableEq A] in
theorem supply_le_add {amount : Nat}
    (hissuance : issuance T w'.ledger ≤ issuance T w.ledger + amount)
    (htotal : w'.claims.total = w.claims.total) : supply T w' ≤ supply T w + amount := by
  unfold supply
  omega

omit [DecidableEq A] in
theorem supply_le_of_issuance (hissuance : issuance T w'.ledger ≤ issuance T w.ledger)
    (htotal : w'.claims.total = w.claims.total) : supply T w' ≤ supply T w := by
  unfold supply
  omega

/-- An option and the approval of the program promise nothing. -/
theorem betanetDispatch_total {C : Betanet.Config A σ} {call : BetanetCall}
    {part part' : Betanet.State A σ} (h : betanetDispatch C call origin part = .ok part') :
    part'.total = part.total := by
  obtain ⟨_, rfl⟩ := betanetDispatch_frame h
  rfl

/-- A call of another pallet creates what it is charged with. -/
theorem palletDispatch_supply (hT : T.Lawful) (hI : T.IssuesNothing) {call : PalletCall A F}
    (h : palletDispatch T call origin s = .ok s') :
    supply T s'.world ≤ supply T s.world + createdBy T call origin s := by
  cases call with
  | claims call =>
    obtain ⟨part, hrun, hs'⟩ := through_ok h
    rw [hs']
    exact claims_supply_le hT hrun
  | swap call =>
    obtain ⟨s₁, hrun, hs'⟩ := swapDispatch_ok h
    rw [hs']
    exact supply_le_of_issuance (swap_kept (movesKeep_issuance hT hI _) hrun le_rfl) rfl
  | xxCmix call =>
    obtain ⟨part, hrun, hs'⟩ := through_ok h
    rw [hs']
    exact supply_le_of_issuance (cmix_kept (movesKeep_issuance hT hI _) hrun le_rfl) rfl
  | xxEconomics call =>
    obtain ⟨part, hrun, hs'⟩ := through_ok h
    have hledger : part.ledger = s.world.ledger := Economics.dispatch_ledger hrun
    rw [hs']
    exact supply_le_of_issuance (congrArg (issuance T) hledger).le rfl
  | xxCustody call =>
    obtain ⟨part, hrun, hs'⟩ := through_ok h
    rw [hs']
    exact supply_le_of_issuance (custody_kept (movesKeep_issuance hT hI _) hrun le_rfl) rfl
  | xxBetanetRewards call =>
    obtain ⟨part, hrun, hs'⟩ := through_ok h
    have hledger : part.ledger = s.world.ledger := betanetDispatch_ledger hrun
    have htotal : part.total = s.world.claims.total := betanetDispatch_total hrun
    rw [hs']
    exact supply_le_of_issuance (congrArg (issuance T) hledger).le htotal
  | xxPublic call =>
    obtain ⟨part, hrun, hs'⟩ := through_ok h
    rw [hs']
    exact supply_le_of_issuance (public_kept (movesKeep_issuance hT hI _) hrun le_rfl) rfl
  | foreign call =>
    have hforeign : T.foreign call origin s = .ok s' := h
    simp only [createdBy, hforeign]
    omega

variable [DecidableEq F]

/-- Every entry of a record creates at most what it is charged with. -/
theorem happens_supply (hT : T.Lawful) (hI : T.IssuesNothing) {action : Action A F σ}
    (h : Happens T s action s') : supply T s'.world ≤ supply T s.world + created T s action := by
  cases action with
  | extrinsic origin call =>
    rcases Chainbridge.executes_cases h with ⟨pallet, hcall, hrun⟩ | hadmin
    · subst hcall
      exact palletDispatch_supply hT hI hrun
    · rw [hadmin.world]
      exact Nat.le_add_right _ _
  | onInitialize block accounts rewards =>
    rw [show s' = _ from h]
    exact betanet_onInitialize_supply hT hI block accounts rewards
      (claimsPart.get (s.world.setBlock block))
  | endEra =>
    obtain ⟨_, hera⟩ := endEra_frame s
    rw [show s' = _ from Eq.trans h hera]
    exact supply_le_of_issuance le_rfl rfl
  | eraPayout totalStaked totalIssuance eraDurationMillis =>
    obtain ⟨_, hera⟩ := eraPayout_frame T totalStaked totalIssuance eraDurationMillis s
    rw [show s' = _ from Eq.trans h hera]
    exact supply_le_of_issuance le_rfl rfl
  | payRewards receivers =>
    have hpaid := payRewards_issuance hT receivers (economicsPart.get s.world)
    rw [show s' = _ from h]
    exact supply_le_add hpaid rfl
  | payRemainder amount =>
    have hpaid := payRemainder_issuance hT hI amount (economicsPart.get s.world)
    rw [show s' = _ from h]
    exact supply_le_add hpaid rfl
  | elsewhere ledger =>
    rw [show s' = _ from h]
    show issuance T ledger + s.world.claims.total ≤ issuance T s.world.ledger +
      s.world.claims.total + (issuance T ledger - issuance T s.world.ledger)
    omega

/-- **Where coins come from.** From any state and over any run, with any calls nested in batches,
proposals of the bridge and calls under other origins, what is issued and promised grows at most
by what its record creates. -/
theorem run_supply_le (T : Config A F σ) (hT : T.Lawful) (hI : T.IssuesNothing)
    (s : State A F σ) (actions : List (Action A F σ)) :
    supply T (run T s actions).world ≤
      supply T s.world + ((record T s actions).map fun e => created T e.1 e.2).sum :=
  (run_trace T s actions).potential_le (fun s => supply T s.world) (created T)
    (fun _ _ hquiet => by rw [hquiet.world]) fun _ _ _ hstep => happens_supply hT hI hstep

/-! ## On the mock runtime -/

theorem wiredRuntime_lawful : wiredRuntime.Lawful where
  currency := mockRuntime_lawful.currency
  claims := mockRuntime_lawful.claims
  publicFunds := mockRuntime_lawful.publicFunds
  custody := { mockRuntime_lawful.custody with }
  leavesOthers := { mockRuntime_lawful.leavesOthers with }
  rewardByIds := mockRuntime_lawful.rewardByIds
  deductByIds := mockRuntime_lawful.deductByIds

/-- The currency under the schedules of the mock runtime. -/
theorem mockCurrency_lawful : (Ledger.currency 1 : Currency Nat (Ledger Nat)).Lawful :=
  Ledger.currency_lawful (by decide)

/-- The treasury takes what it can of the remainder, and the rest is burned. -/
theorem mockTreasury_issuance (l : VestedLedger Nat) (amount : Nat) :
    issuance wiredRuntime (wiredRuntime.economics.rewardRemainder l amount) ≤
      issuance wiredRuntime l := by
  have hdeposit := mockCurrency_lawful.deposit_issuance l.ledger 1337 amount
  show ((Ledger.currency 1).depositCreating l.ledger 1337 amount).1.issuance -
    (amount - ((Ledger.currency 1).depositCreating l.ledger 1337 amount).2) ≤ l.ledger.issuance
  exact (Nat.sub_le _ _).trans hdeposit.le

theorem wiredRuntime_issuesNothing : wiredRuntime.IssuesNothing where
  forceUnstake := nofun
  bond := nofun
  bondExtra := nofun
  setController := nofun
  remove _ _ := rfl
  addProxyDelegate := nofun
  rewardByIds _ _ := rfl
  deductByIds _ _ := rfl
  rewardRemainder := mockTreasury_issuance
  reward l _ := ⟨Economics.genesisBuild Economics.mockGenesis l, rfl, rfl⟩

/-- The root mints a claim of `200` in a batch, the account `4` gets a reward of `50`, and `30`
remain for the treasury. -/
def mockActions : List (Action Nat Unit (VestedLedger Nat)) :=
  [.extrinsic .root (.batch (.other (.claims (.mintClaim (Claims.mockAddress 1) 200 none none)))
      (.other (.foreign ()))),
    .payRewards [(4, 50)], .payRemainder 30]

theorem run_supply_le_mock :
    supply wiredRuntime (run wiredRuntime (mockState 1000) mockActions).world ≤ 1000 + 280 :=
  (run_supply_le wiredRuntime wiredRuntime_lawful wiredRuntime_issuesNothing (mockState 1000)
    mockActions).trans (by decide +kernel)

end XXChain.Runtime
