import XXChain.Swap.Model

/-!
# XXChain — what a native transfer out of the chain moves

`transfer_native` checks one sum, which wraps, and then makes two transfers that may reap the
signer. The other chain pays out what the event says, so the event must not exceed what the
bridge account received.

* **`payFee_ok`**, **`currencyTransfer_ok`** — what the two transfers do to every account,
  whoever the fee destination is;
* **`transferNative_exact`** — the event, the nonce and all balances after a transfer that
  succeeds, and that one that fails changes nothing;
* **`transferNative_ok_iff`** — when a transfer succeeds.
-/

namespace XXChain.Swap

open Chainbridge (ChainId chainWhitelisted)

variable {A O σ : Type} [DecidableEq A] {P : Config A σ} {bridgeId source dest : A}
  {amount fee : Nat} {recipient : List UInt8} {destId : ChainId} {s s' : State A O σ}

/-! ## The two transfers -/

/-- The account as the currency sees it. -/
abbrev account (P : Config A σ) (s : State A O σ) (a : A) : AccountData :=
  P.currency.account s.world.ledger a

/-- What the signer pays as a fee: nothing to no one, and nothing to itself. -/
def feePaid (source : A) (storage : Storage A σ) : Nat :=
  match storage.feeDestination with
  | some dest => if dest = source then 0 else storage.swapFee
  | none => 0

/-- What an account other than the signer gets of the fee. -/
def feeReceived (a : A) (storage : Storage A σ) : Nat :=
  if storage.feeDestination = some a then storage.swapFee else 0

/-- From `s` to `s'` the signer paid `paid`, and every other account received what `received`
says. -/
structure Moved (P : Config A σ) (source : A) (paid : Nat) (received : A → Nat)
    (s s' : State A O σ) : Prop where
  signer : (account P s source).PaidOut P.currency.existentialDeposit paid (account P s' source)
  others : ∀ a, a ≠ source → account P s' a = (account P s a).credit (received a)

omit [DecidableEq A] in
theorem Moved.refl (P : Config A σ) (source : A) (s : State A O σ) :
    Moved P source 0 (fun _ => 0) s s :=
  ⟨AccountData.PaidOut.refl _ _, fun _ _ => rfl⟩

omit [DecidableEq A] in
/-- Two movements are one of the sums. -/
theorem Moved.trans {paid paid' : Nat} {received received' : A → Nat} {s₁ : State A O σ}
    (h : Moved P source paid received s s₁) (h' : Moved P source paid' received' s₁ s') :
    Moved P source (paid + paid') (fun a => received a + received' a) s s' := by
  refine ⟨h.signer.trans h'.signer, fun a ha => ?_⟩
  rw [h'.others a ha, h.others a ha, AccountData.credit_credit]

theorem currencyTransfer_ok (hc : P.currency.Lawful)
    (h : currencyTransfer P source dest amount s = .ok s') :
    Moved P source (if dest = source then 0 else amount) (fun a => if a = dest then amount else 0)
      s s' := by
  unfold currencyTransfer at h
  split at h
  next ledger htransfer =>
    cases h
    obtain ⟨hsigner, hothers⟩ := hc.paidOut_transfer htransfer
    exact ⟨hsigner, hothers⟩
  next => cases h

/-- The fee in all four cases of its destination. -/
theorem payFee_ok (hc : P.currency.Lawful) (h : payFee P source s.world.swapFee s = .ok s') :
    Moved P source (feePaid source s.world) (fun a => feeReceived a s.world) s s' := by
  unfold payFee at h
  unfold feePaid feeReceived
  split at h
  next dest hdest =>
    have hmoved := currencyTransfer_ok hc h
    simp only [hdest, Option.some.injEq, eq_comm (a := dest)]
    simpa only [eq_comm (a := source)] using hmoved
  next hnone =>
    cases h
    simpa only [hnone, reduceCtorEq, if_false] using Moved.refl P source s

/-! ## The whole call -/

/-- A native transfer from `s` to `s'` that did all of what it says: one event with the exact
amount and the next nonce, backed by what the bridge account received. -/
structure ExactTransfer (P : Config A σ) (bridgeId source : A) (amount : Nat)
    (recipient : List UInt8) (destId : ChainId) (s s' : State A O σ) : Prop where
  whitelisted : chainWhitelisted destId s = true
  event : ∃ nonce sent, s'.events = s.events ++
      [.fungibleTransfer destId nonce P.nativeTokenId sent recipient] ∧
    nonce = (s.chainNonces.lookup destId).getD 0 + 1 ∧ sent.toNat = amount ∧
    s'.chainNonces = s.chainNonces.insert destId nonce
  moved : Moved P source (amount + feePaid source s.world)
    (fun a => (if a = bridgeId then amount else 0) + feeReceived a s.world) s s'
  settings : s'.world = { s.world with ledger := s'.world.ledger }

omit [DecidableEq A] in
theorem currencyTransfer_world (h : currencyTransfer P source dest amount s = .ok s') :
    s'.world = { s.world with ledger := s'.world.ledger } := by
  unfold currencyTransfer at h
  split at h
  · cases h
    rfl
  · cases h

omit [DecidableEq A] in
theorem payFee_world (h : payFee P source fee s = .ok s') :
    s'.world = { s.world with ledger := s'.world.ledger } := by
  unfold payFee at h
  split at h
  · exact currencyTransfer_world h
  · cases h
    rfl

/-- A balance as the bridge sends it, in 256 bits. -/
theorem toNat_sent (h : amount < balanceLimit) :
    (BitVec.ofNat 256 (min amount (balanceLimit - 1))).toNat = amount := by
  have hmin : min amount (balanceLimit - 1) = amount := Nat.min_eq_left (by omega)
  have hbits : balanceLimit < 2 ^ 256 := by decide
  rw [hmin, BitVec.toNat_ofNat, Nat.mod_eq_of_lt (by omega)]

/-- The balances after a transfer of any amount, in the order of its two parts. -/
theorem transferNative_moved (hc : P.currency.Lawful)
    (h : transferNative P bridgeId (.signed source) amount recipient destId s = .ok s') :
    Moved P source (feePaid source s.world + if bridgeId = source then 0 else amount)
      (fun a => feeReceived a s.world + if a = bridgeId then amount else 0) s s' := by
  obtain ⟨_, s₁, s₂, horigin, _, hfee, hmove, _, hsent⟩ := transferNative_steps h
  cases horigin
  have hmoved := (payFee_ok hc hfee).trans (currencyTransfer_ok hc hmove)
  simp only [Chainbridge.transferFungible, bind_eq_ok] at hsent
  obtain ⟨_, _, hs'⟩ := hsent
  cases hs'
  exact ⟨hmoved.signer, hmoved.others⟩

theorem transferNative_ok (hc : P.currency.Lawful) (hsource : source ≠ bridgeId)
    (hamount : amount < balanceLimit)
    (h : transferNative P bridgeId (.signed source) amount recipient destId s = .ok s') :
    ExactTransfer P bridgeId source amount recipient destId s s' := by
  have hmoved := transferNative_moved hc h
  rw [if_neg (Ne.symm hsource), Nat.add_comm] at hmoved
  have hreceived : (fun a => feeReceived a s.world + if a = bridgeId then amount else 0) =
      fun a => (if a = bridgeId then amount else 0) + feeReceived a s.world :=
    funext fun a => Nat.add_comm _ _
  rw [hreceived] at hmoved
  obtain ⟨_, s₁, s₂, _, hchain, hfee, hmove, hframe, hsent⟩ := transferNative_steps h
  have hworld : s₂.world = { s.world with ledger := s₂.world.ledger } := by
    rw [currencyTransfer_world hmove, payFee_world hfee]
  simp only [Chainbridge.transferFungible, bind_eq_ok] at hsent
  obtain ⟨_, _, hs'⟩ := hsent
  -- the nonces and events are still those of `s` when the bridge is called
  rw [hframe] at hs'
  cases hs'
  exact ⟨hchain, ⟨_, _, rfl, rfl, toNat_sent hamount, rfl⟩, hmoved, hworld⟩

/-- For every signer but the bridge account, every amount of 128 bits and every fee and fee
destination: a native transfer that succeeds is exact, and one that fails changes nothing. -/
theorem transferNative_exact (P : Config A σ) (hc : P.currency.Lawful)
    (bridgeId : A) (chainId : ChainId) (proposalLifetime : Nat) (adminOrigin : Origin A → Bool)
    (mayDispatchAs : Origin A → Origin A → Bool) (source : A) (hsource : source ≠ bridgeId)
    (amount : Nat) (hamount : amount < balanceLimit) (recipient : List UInt8) (destId : ChainId)
    (s : State A (Call A) σ) :
    (∀ s', transferNative P bridgeId (.signed source) amount recipient destId s = .ok s' →
      ExactTransfer P bridgeId source amount recipient destId s s') ∧
    (∀ e, transferNative P bridgeId (.signed source) amount recipient destId s = .error e →
      Chainbridge.applyExtrinsic
        (runtime P bridgeId chainId proposalLifetime adminOrigin mayDispatchAs) (.signed source)
        (.other (.transferNative amount recipient destId)) s = s) := by
  refine ⟨fun s' h => transferNative_ok hc hsource hamount h, fun e h => ?_⟩
  simp only [Chainbridge.applyExtrinsic, Chainbridge.dispatch, runtime, dispatch, h]

/-- The tests' runtime with a whitelisted chain. -/
def mockWhitelisted : State Nat (Call Nat) (Ledger Nat) :=
  Chainbridge.replay mockRuntime [(.root, .whitelistChain 1)] (.default (mockStorage 1000))

theorem transferNative_exact_mock :
    (transferNative mockSwap 0 (.signed 2) 500 [7] 1 mockWhitelisted).toOption.isSome = true ∧
      ∀ s', transferNative mockSwap 0 (.signed 2) 500 [7] 1 mockWhitelisted = .ok s' →
        ExactTransfer mockSwap 0 2 500 [7] 1 mockWhitelisted s' := by
  refine ⟨by decide +kernel, ?_⟩
  exact (transferNative_exact mockSwap (Ledger.currency_lawful (by decide)) 0 5 100
    (fun o => decide (o = .root)) (fun _ _ => false) 2 (by decide) 500 (by decide) [7] 1
    mockWhitelisted).1

/-! ## When it goes through -/

/-- The accounts once the fee is paid. -/
def accountsAfterFee (P : Config A σ) (source : A) (storage : Storage A σ) : A → AccountData :=
  match storage.feeDestination with
  | some dest =>
    P.currency.afterTransfer (P.currency.account storage.ledger) source dest storage.swapFee
  | none => P.currency.account storage.ledger

/-- The checks of a native transfer: its own, and those of its two transfers. -/
structure Sendable (P : Config A σ) (bridgeId source : A) (amount : Nat) (destId : ChainId)
    (s : State A O σ) : Prop where
  whitelisted : chainWhitelisted destId s = true
  covered : (amount + s.world.swapFee) % balanceLimit ≤
    P.currency.freeBalance s.world.ledger source
  fee : ∀ dest, s.world.feeDestination = some dest →
    P.currency.CanTransfer (account P s) source dest s.world.swapFee
  amount : P.currency.CanTransfer (accountsAfterFee P source s.world) source bridgeId amount

theorem currencyTransfer_ok_iff (hc : P.currency.Lawful) :
    (∃ s', currencyTransfer P source dest amount s = .ok s') ↔
      P.currency.CanTransfer (account P s) source dest amount := by
  rw [← hc.transfer_isSome_iff]
  unfold currencyTransfer
  cases P.currency.transfer s.world.ledger source dest amount with
  | none => simp
  | some ledger => simp

theorem currencyTransfer_accounts (hc : P.currency.Lawful)
    (h : currencyTransfer P source dest amount s = .ok s') :
    account P s' = P.currency.afterTransfer (account P s) source dest amount := by
  unfold currencyTransfer at h
  cases htransfer : P.currency.transfer s.world.ledger source dest amount with
  | none =>
    rw [htransfer] at h
    cases h
  | some ledger =>
    rw [htransfer] at h
    cases h
    exact hc.account_afterTransfer htransfer

theorem payFee_accounts (hc : P.currency.Lawful)
    (h : payFee P source s.world.swapFee s = .ok s') :
    account P s' = accountsAfterFee P source s.world := by
  unfold payFee at h
  unfold accountsAfterFee
  cases hdest : s.world.feeDestination with
  | none =>
    rw [hdest] at h
    cases h
    rfl
  | some dest =>
    rw [hdest] at h
    exact currencyTransfer_accounts hc h

theorem payFee_ok_iff (hc : P.currency.Lawful) :
    (∃ s', payFee P source s.world.swapFee s = .ok s') ↔
      ∀ dest, s.world.feeDestination = some dest →
        P.currency.CanTransfer (account P s) source dest s.world.swapFee := by
  unfold payFee
  cases s.world.feeDestination with
  | none => simp
  | some dest =>
    show (∃ s', currencyTransfer P source dest s.world.swapFee s = .ok s') ↔ _
    rw [currencyTransfer_ok_iff hc]
    constructor
    · intro hcan dest' hdest'
      cases hdest'
      exact hcan
    · intro hcan
      exact hcan dest rfl

/-- Once its checks pass, nothing stops a native transfer. -/
theorem transferNative_ok_iff (hc : P.currency.Lawful) :
    (∃ s', transferNative P bridgeId (.signed source) amount recipient destId s = .ok s') ↔
      Sendable P bridgeId source amount destId s := by
  constructor
  · rintro ⟨s', h⟩
    simp only [transferNative, bind_eq_ok, ensure_eq_ok, ensureSigned_eq_ok,
      decide_eq_true_eq] at h
    obtain ⟨_, horigin, _, hchain, _, hcovered, s₁, hfee, s₂, hmove, _⟩ := h
    cases horigin
    refine ⟨hchain, hcovered, (payFee_ok_iff hc).mp ⟨s₁, hfee⟩, ?_⟩
    rw [← payFee_accounts hc hfee]
    exact (currencyTransfer_ok_iff hc).mp ⟨s₂, hmove⟩
  · intro h
    obtain ⟨s₁, hfee⟩ := (payFee_ok_iff hc).mpr h.fee
    have hcan := h.amount
    rw [← payFee_accounts hc hfee] at hcan
    obtain ⟨s₂, hmove⟩ := (currencyTransfer_ok_iff hc).mpr hcan
    -- the bridge finds the chain whitelisted as the call did
    have hframe : s₂ = { s with world := s₂.world } := by
      rw [currencyTransfer_frame hmove, payFee_frame hfee]
    have hchain : chainWhitelisted destId s₂ = true := by
      rw [hframe]
      exact h.whitelisted
    have hbridge : ∀ sent, ∃ s', Chainbridge.transferFungible destId P.nativeTokenId recipient
        sent s₂ = .ok s' := by
      intro sent
      rw [Chainbridge.transferFungible, hchain]
      exact ⟨_, rfl⟩
    obtain ⟨s', hs'⟩ := hbridge (.ofNat 256 (min amount (balanceLimit - 1)))
    refine ⟨s', ?_⟩
    simp only [transferNative, bind_eq_ok, ensure_eq_ok, ensureSigned_eq_ok, decide_eq_true_eq]
    exact ⟨source, rfl, (), h.whitelisted, (), h.covered, s₁, hfee, s₂, hmove, by rw [hs']⟩

end XXChain.Swap
