import XXChain.Lib.Books
import XXChain.Runtime.Outflow

/-!
# XXChain — the books of the runtime

The pallets credit, issue and burn coins in separate steps, and hand imbalances to each other.
Between the steps of a run there is none outstanding: what is issued is what the accounts hold.

* **`palletDispatch_balanced`** and **`happens_balanced`** — a call, and every entry of a record,
  leaves the books balanced;
* **`run_books`** — so does every run.
-/

namespace XXChain.Runtime

variable {A F σ : Type} [DecidableEq A] {T : Config A F σ} {origin : Origin A}
  {s s' : State A F σ} {l : σ} {positive negative : Nat}

/-- The books are balanced but for the imbalances. The rewards pool has nothing reserved. -/
def Balanced (T : Config A F σ) (l : σ) (positive negative : Nat) : Prop :=
  T.currency.Balanced T.economics.rewardsAccountId l positive negative

/-- No imbalance is outstanding. -/
def InBalance (T : Config A F σ) (l : σ) : Prop :=
  Balanced T l 0 0

/-- The documented behaviour of the pallets that are not of this repository: they leave the books
balanced, and reserve nothing of the rewards pool; the treasury resolves the remainder of a reward.
The rewards of the betanet are handled by the economics pallet. -/
structure Config.KeepsBooks (T : Config A F σ) : Prop where
  forceUnstake : ∀ l a l', T.custody.staking.forceUnstake l a = some l' → InBalance T l →
    InBalance T l'
  bond : ∀ l a controller v l', T.custody.staking.bond l a controller v = some l' →
    InBalance T l → InBalance T l'
  bondExtra : ∀ l a v l', T.custody.staking.bondExtra l a v = some l' → InBalance T l →
    InBalance T l'
  setController : ∀ l a controller l', T.custody.staking.setController l a controller = some l' →
    InBalance T l → InBalance T l'
  remove : ∀ l a, InBalance T l → InBalance T (T.custody.proxies.remove l a)
  addProxyDelegate : ∀ l a delegate proxyType delay l',
    T.custody.proxies.addProxyDelegate l a delegate proxyType delay = some l' → InBalance T l →
    InBalance T l'
  rewardByIds : ∀ l data, InBalance T l → InBalance T (T.cmix.rewardByIds l data)
  deductByIds : ∀ l data, InBalance T l → InBalance T (T.cmix.deductByIds l data)
  rewardRemainder : ∀ l amount, Balanced T l 0 amount →
    InBalance T (T.economics.rewardRemainder l amount)
  reward : T.RewardedByEconomics
  foreign : ∀ call o s s', T.foreign call o s = .ok s' → InBalance T s.world.ledger →
    InBalance T s'.world.ledger

omit [DecidableEq A] in
/-- The currency of a pallet is the one of the runtime. -/
theorem balanced_iff_of_currency {c : Currency A σ} (hc : c = T.currency) :
    c.Balanced T.economics.rewardsAccountId l positive negative ↔
      Balanced T l positive negative := by
  rw [hc]
  rfl

/-! ## The rewards pool

Every imbalance that the pallets leave ends up here. The pool pays what it can, which takes a
positive imbalance out of its balance, and what it cannot pay is minted as the rest is dropped. -/

/-- The pool pays `v` of a positive imbalance, all of it or all that it has, or else the imbalance
is dropped. -/
theorem withdraw_balanced (hT : T.Lawful) {v : Nat} {part : Economics.State σ}
    (hle : v ≤ Economics.rewardsBalance T.economics part)
    (hall : positive = 0 ∨ v = Economics.rewardsBalance T.economics part)
    (h : Balanced T part.ledger (positive + v) negative) :
    Balanced T (Economics.withdraw T.economics v part).ledger positive negative := by
  have hc := economics_currency_lawful hT
  rw [← balanced_iff_of_currency T.economics_currency] at h ⊢
  unfold Economics.withdraw
  split
  next hzero =>
    rw [hzero, Nat.add_zero] at h
    exact h
  next hne =>
    show T.economics.currency.Balanced _ (match _ with | some ledger => ledger | none => _) _ _
    split
    next ledger hsettle => exact h.settle hc hle hall (Nat.pos_of_ne_zero hne) hsettle
    next => exact h.dropPositive hc

/-- The pallet squares up a positive imbalance, whatever negative one is outstanding. -/
theorem onUnbalanced_balanced (hT : T.Lawful) {amount : Nat} (part : Economics.State σ)
    (h : Balanced T part.ledger amount negative) :
    Balanced T (Economics.onUnbalanced T.economics amount part).ledger 0 negative := by
  have hc := economics_currency_lawful hT
  unfold Economics.onUnbalanced
  split
  next hzero =>
    rw [hzero] at h
    exact h
  next =>
    have hpool := Nat.min_le_right amount (Economics.rewardsBalance T.economics part)
    have hamount := Nat.min_le_left amount (Economics.rewardsBalance T.economics part)
    have hsplit : amount - min amount (Economics.rewardsBalance T.economics part) +
        min amount (Economics.rewardsBalance T.economics part) = amount := by omega
    rw [← hsplit] at h
    -- if the pool does not pay everything it pays all it has
    have hpaid := withdraw_balanced hT hpool (by omega) h
    rw [← Nat.zero_add (amount - _)] at hpaid
    rw [← balanced_iff_of_currency T.economics_currency] at hpaid ⊢
    show T.economics.currency.Balanced _ (T.economics.currency.dropPositive
      (Economics.mintEvent _ (Economics.withdraw T.economics
        (min amount (Economics.rewardsBalance T.economics part)) part)).ledger
      (amount - min amount (Economics.rewardsBalance T.economics part))) 0 negative
    rw [Economics.mintEvent_ledger]
    exact hpaid.dropPositive hc

/-- The deposits of a payout leave a positive imbalance of what they credited. -/
theorem depositAll_balanced {c : Currency A σ} (hc : c.Lawful) {pool : A}
    (receivers : List (A × Nat)) (h : c.Balanced pool l positive negative) :
    c.Balanced pool (Economics.depositAll c l receivers).1
      (positive + Economics.totalCredited (Economics.depositAll c l receivers).2) negative := by
  induction receivers generalizing l positive with
  | nil => exact h
  | cons receiver receivers ih =>
    have hfirst := ih (h.deposit hc receiver.1 receiver.2)
    rw [Nat.add_assoc] at hfirst
    exact hfirst

/-- It is handed to the rewards pool as a whole. -/
theorem payRewards_balanced (hT : T.Lawful) (receivers : List (A × Nat))
    (part : Economics.State σ) (h : InBalance T part.ledger) :
    InBalance T (Economics.payRewards T.economics receivers part).ledger := by
  have hc := economics_currency_lawful hT
  have hcredited := depositAll_balanced hc receivers
    ((balanced_iff_of_currency T.economics_currency).mpr h)
  rw [Nat.zero_add, balanced_iff_of_currency T.economics_currency] at hcredited
  exact onUnbalanced_balanced hT
    { part with
      ledger := (Economics.depositAll T.economics.currency part.ledger receivers).1 } hcredited

/-- What the pool pays of a remainder is burned before, and the treasury gets the whole of it. -/
theorem payRemainder_balanced (hT : T.Lawful) (hB : T.KeepsBooks) (amount : Nat)
    (part : Economics.State σ) (h : InBalance T part.ledger) :
    InBalance T (Economics.payRemainder T.economics amount part).ledger := by
  have hc := economics_currency_lawful hT
  have hissued := ((balanced_iff_of_currency T.economics_currency).mpr h).issue hc amount
  show InBalance T (Economics.remainderOnUnbalanced T.economics
    (T.economics.currency.issue part.ledger amount).2
    { part with ledger := (T.economics.currency.issue part.ledger amount).1 }).ledger
  rw [hc.issue_imbalance, Nat.zero_add] at hissued
  rw [hc.issue_imbalance]
  generalize (T.economics.currency.issue part.ledger amount).1 = l at hissued
  unfold Economics.remainderOnUnbalanced
  split
  next hzero =>
    rw [hzero, balanced_iff_of_currency T.economics_currency] at hissued
    exact hissued
  next =>
    show InBalance T (T.economics.rewardRemainder _ amount)
    apply hB.rewardRemainder
    rw [Economics.mintEvent_ledger]
    -- what the pool pays it pays for what was burned, and not for the remainder
    have hburned := hissued.burn hc
      (min amount (Economics.rewardsBalance T.economics { part with ledger := l }))
    rw [balanced_iff_of_currency T.economics_currency] at hburned
    refine withdraw_balanced hT ?_ (Or.inl rfl) hburned
    show (T.economics.currency.burn l _).2 ≤ (T.economics.currency.account
      (T.economics.currency.burn l _).1 T.economics.rewardsAccountId).free
    rw [hc.burn_account, hc.burn_imbalance]
    exact (Nat.min_le_left _ _).trans (Nat.min_le_right _ _)

/-! ## The claims and the betanet rewards

A claim mints what it deposits. A betanet reward is deposited, or promised to a claim, and handed to
the rewards pool either way. -/

/-- A claim is issued as the positive imbalance of its deposit is dropped; the schedules lock it. -/
theorem claims_balanced (hT : T.Lawful) {call : Claims.Call A} {part part' : Betanet.State A σ}
    (h : Claims.dispatch T.betanet.wired origin call part = .ok part')
    (hbooks : InBalance T part.ledger) : InBalance T part'.ledger := by
  have hc := claims_currency_lawful hT
  have hpays : ∀ {signer dest}, Claims.PaidBy T.betanet.wired part part' signer dest →
      InBalance T part'.ledger := by
    rintro signer dest ⟨part₁, hprocess, hpart'⟩
    obtain ⟨v, _, _, _, hpart₁⟩ := Claims.processClaim_eq_ok.mp hprocess
    have hdeposited := ((balanced_iff_of_currency T.claims_currency).mpr hbooks).deposit hc dest v
    -- `process_claim` drops the imbalance of its deposit
    have hissued := hdeposited.dropPositive hc
    have hadded := hissued.foldl_tryAdd hc hT.claims part.block dest
      ((part.vesting.lookup signer).getD [])
    rw [hpart', hpart₁]
    exact (balanced_iff_of_currency T.claims_currency).mp hadded
  cases call with
  | claim | claimAttest | attest =>
    obtain ⟨signer, dest, _, hpaidBy⟩ := Claims.dispatch_pays rfl h
    exact hpays hpaidBy
  | mintClaim | moveClaim =>
    obtain ⟨_, _, _, _, _, hpart'⟩ := Claims.dispatch_frame rfl h
    rw [hpart']
    exact hbooks

/-- The economics pallet squares up the imbalance of a reward. -/
theorem reward_balanced (hT : T.Lawful) (hB : T.KeepsBooks) {amount : Nat}
    (h : Balanced T l amount negative) : Balanced T (T.betanet.reward l amount) 0 negative := by
  obtain ⟨part, rfl, hreward⟩ := hB.reward l amount
  rw [hreward]
  exact onUnbalanced_balanced hT part h

/-- A reward is deposited and squared up, and then locked, which moves no coins. -/
theorem processAccount_balanced (hT : T.Lawful) (hB : T.KeepsBooks) (account : A)
    (info : Betanet.UserInfo) (part : Betanet.State A σ) (h : InBalance T part.ledger) :
    InBalance T (Betanet.processAccount T.betanet account info part).ledger := by
  have hc := claims_currency_lawful hT
  have hdeposited := ((balanced_iff_of_currency T.claims_currency).mpr h).deposit hc account
    (Betanet.rewardAmount info)
  rw [Nat.zero_add, balanced_iff_of_currency T.claims_currency] at hdeposited
  have hrewarded := reward_balanced hT hB hdeposited
  rcases Betanet.processAccount_ledger T.betanet account info part with hpaid | ⟨v, hlocked⟩
  · rw [hpaid]
    exact hrewarded
  · rw [← balanced_iff_of_currency T.claims_currency] at hrewarded
    have hadded := hrewarded.tryAdd hc hT.claims part.block account v
    rw [hlocked]
    exact (balanced_iff_of_currency T.claims_currency).mp hadded

/-- The pair of imbalances of a leftover claim: the positive one is handled as a reward while the
negative one is outstanding, which is then dropped. -/
theorem processLeftoverClaim_balanced (hT : T.Lawful) (hB : T.KeepsBooks)
    (address : Claims.EthereumAddress) (reward : Nat) (part : Betanet.State A σ)
    (h : InBalance T part.ledger) :
    InBalance T (Betanet.processLeftoverClaim T.betanet address reward part).ledger := by
  have hc := claims_currency_lawful hT
  have hpair := (((balanced_iff_of_currency T.claims_currency).mpr h).burn hc reward).issue hc
    reward
  rw [Nat.zero_add, balanced_iff_of_currency T.claims_currency] at hpair
  have hrewarded := reward_balanced hT hB hpair
  rw [← balanced_iff_of_currency T.claims_currency] at hrewarded
  exact (balanced_iff_of_currency T.claims_currency).mp (hrewarded.dropNegative hc)

/-- The enactment is that for every account and then for every claim. -/
theorem betanet_onInitialize_balanced (hT : T.Lawful) (hB : T.KeepsBooks) (block : Nat)
    (accounts : List (A × Betanet.UserInfo)) (rewards : List (Claims.EthereumAddress × Nat))
    (part : Betanet.State A σ) (h : InBalance T part.ledger) :
    InBalance T (Betanet.onInitialize T.betanet block accounts rewards part).ledger := by
  refine Betanet.onInitialize_keeps (I := fun part : Betanet.State A σ => InBalance T part.ledger)
    ?_ ?_ (fun _ hpart => hpart) h
  · intro part account info hpart
    exact processAccount_balanced hT hB account info
      (Betanet.setAccounts (part.handler.accounts.erase account) part) hpart
  · intro part entry _ hpart
    exact processLeftoverClaim_balanced hT hB entry.1 entry.2
      { part with rewards := part.rewards.erase entry.1 } hpart

/-! ## The pallets that move coins

A transfer takes its dust out of the issuance with the account, and what the other operations do is
assumed to keep the books. -/

theorem movesKeep_inBalance (hT : T.Lawful) (hB : T.KeepsBooks) : T.MovesKeep (InBalance T) where
  transfer _ _ _ _ _ h hl := Currency.Balanced.transfer hT.currency hl h
  unreserve _ a v hl := Currency.Balanced.unreserve hT.currency hl a v
  tryAdd block _ a v hl := by
    have hadded := Currency.Balanced.tryAdd (T.public_currency ▸ hT.currency) hT.publicFunds
      ((balanced_iff_of_currency T.public_currency).mpr hl) block a v
    exact (balanced_iff_of_currency T.public_currency).mp hadded
  forceUnstake := hB.forceUnstake
  bond := hB.bond
  bondExtra := hB.bondExtra
  setController := hB.setController
  remove := hB.remove
  addProxyDelegate := hB.addProxyDelegate
  rewardByIds := hB.rewardByIds
  deductByIds := hB.deductByIds

/-! ## Every step

Between the entries of a record no imbalance is outstanding: the calls, the hooks and the payments
of an era each start and end with balanced books. -/

/-- A call of another pallet leaves the books balanced. -/
theorem palletDispatch_balanced (hT : T.Lawful) (hB : T.KeepsBooks) {call : PalletCall A F}
    (h : palletDispatch T call origin s = .ok s') (hbooks : InBalance T s.world.ledger) :
    InBalance T s'.world.ledger := by
  cases call with
  | claims call =>
    obtain ⟨part, hrun, hs'⟩ := through_ok h
    rw [hs']
    exact claims_balanced hT hrun hbooks
  | swap call =>
    obtain ⟨s₁, hrun, hs'⟩ := swapDispatch_ok h
    rw [hs']
    exact swap_kept (movesKeep_inBalance hT hB) hrun hbooks
  | xxCmix call =>
    obtain ⟨part, hrun, hs'⟩ := through_ok h
    rw [hs']
    exact cmix_kept (movesKeep_inBalance hT hB) hrun hbooks
  | xxEconomics call =>
    obtain ⟨part, hrun, hs'⟩ := through_ok h
    have hledger : part.ledger = s.world.ledger := Economics.dispatch_ledger hrun
    rw [hs']
    show InBalance T part.ledger
    rw [hledger]
    exact hbooks
  | xxCustody call =>
    obtain ⟨part, hrun, hs'⟩ := through_ok h
    rw [hs']
    exact custody_kept (movesKeep_inBalance hT hB) hrun hbooks
  | xxBetanetRewards call =>
    obtain ⟨part, hrun, hs'⟩ := through_ok h
    have hledger : part.ledger = s.world.ledger := betanetDispatch_ledger hrun
    rw [hs']
    show InBalance T part.ledger
    rw [hledger]
    exact hbooks
  | xxPublic call =>
    obtain ⟨part, hrun, hs'⟩ := through_ok h
    rw [hs']
    exact public_kept (movesKeep_inBalance hT hB) hrun hbooks
  | foreign call => exact hB.foreign call origin s s' h hbooks

variable [DecidableEq F]

/-- Every entry of a record leaves the books balanced, if what the other pallets do of their own
accord does. -/
theorem happens_balanced (hT : T.Lawful) (hB : T.KeepsBooks) {action : Action A F σ}
    (helsewhere : ∀ ledger, action = .elsewhere ledger → InBalance T ledger)
    (h : Happens T s action s') (hbooks : InBalance T s.world.ledger) :
    InBalance T s'.world.ledger := by
  cases action with
  | extrinsic origin call =>
    rcases Chainbridge.executes_cases h with ⟨pallet, hcall, hrun⟩ | hadmin
    · exact palletDispatch_balanced hT hB hrun hbooks
    · rw [hadmin.world]
      exact hbooks
  | onInitialize block accounts rewards =>
    rw [show s' = _ from h]
    exact betanet_onInitialize_balanced hT hB block accounts rewards
      (claimsPart.get (s.world.setBlock block)) hbooks
  | endEra =>
    obtain ⟨_, hera⟩ := endEra_frame s
    rw [show s' = _ from Eq.trans h hera]
    exact hbooks
  | eraPayout totalStaked totalIssuance eraDurationMillis =>
    obtain ⟨_, hera⟩ := eraPayout_frame T totalStaked totalIssuance eraDurationMillis s
    rw [show s' = _ from Eq.trans h hera]
    exact hbooks
  | payRewards receivers =>
    rw [show s' = _ from h]
    exact payRewards_balanced hT receivers (economicsPart.get s.world) hbooks
  | payRemainder amount =>
    rw [show s' = _ from h]
    exact payRemainder_balanced hT hB amount (economicsPart.get s.world) hbooks
  | elsewhere ledger =>
    rw [show s' = _ from h]
    exact helsewhere ledger rfl

/-- **The books stay balanced.** If what is issued is what the accounts hold, and nothing of the
rewards pool is reserved, that is so after any run, with any calls nested in batches, proposals of
the bridge and calls under other origins, if whatever the other pallets do of their own accord
leaves it so. -/
theorem run_books (T : Config A F σ) (hT : T.Lawful) (hB : T.KeepsBooks) (s : State A F σ)
    (hbooks : T.currency.totalIssuance s.world.ledger = T.currency.sumBalances s.world.ledger)
    (hpool : (T.currency.account s.world.ledger T.economics.rewardsAccountId).reserved = 0)
    (actions : List (Action A F σ))
    (helsewhere : ∀ ledger, .elsewhere ledger ∈ actions → InBalance T ledger) :
    T.currency.totalIssuance (run T s actions).world.ledger =
        T.currency.sumBalances (run T s actions).world.ledger ∧
      (T.currency.account (run T s actions).world.ledger
        T.economics.rewardsAccountId).reserved = 0 := by
  have hkeeps : InBalance T s.world.ledger → InBalance T (run T s actions).world.ledger := by
    refine Trace.keeps (R := fun s s' => InBalance T s.world.ledger → InBalance T s'.world.ledger)
      (P := fun _ action => ∀ ledger, action = .elsewhere ledger → InBalance T ledger)
      ?_ ?_ ?_ ?_ (run_trace T s actions) ?_
    · exact fun _ h => h
    · exact fun _ _ _ h h' hs => h' (h hs)
    · intro s s' hquiet hs
      rw [hquiet.world]
      exact hs
    · exact fun _ _ _ hP hstep hs => happens_balanced hT hB hP hstep hs
    -- an entry of the record that is no call is one of the actions
    · intro e he ledger hledger
      rcases record_mem he with ⟨origin, call, hcall⟩ | hmem
      · rw [hcall] at hledger
        cases hledger
      · exact helsewhere ledger (hledger ▸ hmem)
  have hafter := hkeeps ⟨hbooks, hpool⟩
  exact ⟨hafter.backed, hafter.unreserved⟩

/-! ## On the mock runtime -/

/-- The treasury of the mock runtime deposits the remainder. -/
theorem mockTreasury_balanced (l : VestedLedger Nat) (amount : Nat)
    (h : Balanced wiredRuntime l 0 amount) :
    InBalance wiredRuntime (wiredRuntime.economics.rewardRemainder l amount) := by
  have hresolved := Currency.Balanced.resolveCreating wiredRuntime_lawful.currency
    (by rw [Nat.zero_add]; exact h) 1337
  exact hresolved

theorem wiredRuntime_keepsBooks : wiredRuntime.KeepsBooks where
  forceUnstake := nofun
  bond := nofun
  bondExtra := nofun
  setController := nofun
  remove _ _ h := h
  addProxyDelegate := nofun
  rewardByIds _ _ h := h
  deductByIds _ _ h := h
  rewardRemainder := mockTreasury_balanced
  reward l _ := ⟨Economics.genesisBuild Economics.mockGenesis l, rfl, rfl⟩
  foreign := by
    intro _ _ s s' h hbooks
    cases h
    exact hbooks

/-- A reward of `50` is minted and `30` go to the treasury, between native transfers. -/
def mockBooks : List (Action Nat Unit (VestedLedger Nat)) :=
  [.extrinsic (.signed 4) mockSend, .payRewards [(4, 50), (6, 0)], .payRemainder 30,
    .extrinsic (.signed 4) (.batch mockSend (.other (.foreign ())))]

theorem run_books_mock :
    issuance wiredRuntime (run wiredRuntime (mockState 1000) mockBooks).world.ledger = 1080 ∧
      wiredRuntime.currency.sumBalances
        (run wiredRuntime (mockState 1000) mockBooks).world.ledger = 1080 := by
  have hissued : issuance wiredRuntime
      (run wiredRuntime (mockState 1000) mockBooks).world.ledger = 1080 := by decide +kernel
  have hbooks := run_books wiredRuntime wiredRuntime_lawful wiredRuntime_keepsBooks
    (mockState 1000) (by decide +kernel) (by decide +kernel) mockBooks (by
      intro ledger h
      simp [mockBooks] at h)
  exact ⟨hissued, hbooks.1.symm.trans hissued⟩

end XXChain.Runtime
