import XXChain.Claims.Owners
import XXChain.Runtime.Blocks
import XXChain.Runtime.NonTransfer

/-!
# XXChain — the owners of claims

Whatever the users, the admins and the root of the runtime do, an owner who has only ever named one
account for a claim is paid there, once, or not at all.

* **`happens_settles`** — every entry of a record leaves the claim, or pays it to that account;
* **`happens_announces`** — only a call that pays a claim announces a payment;
* **`run_claim_owner`** — over a run the claim is announced as paid once at most, to that account,
  and then one entry of the record deposits it there.
-/

namespace XXChain.Runtime

open Claims (EthereumAddress Settles Fate)

variable {A F σ : Type} [DecidableEq A] {T : Config A F σ} {origin : Origin A}
  {s s' : State A F σ} {owner : EthereumAddress} {dest : A} {fixed : Prop}
  {signed : List UInt8 → Prop}

/-- The pallets that are not of this repository do not write to the storage of the claims. -/
def Config.SparesClaims (T : Config A F σ) : Prop :=
  ∀ call o s s', T.foreign call o s = .ok s' → s'.world.claims = s.world.claims

/-- What is recovered to the owner in the signatures of an action, the owner signed. -/
def Action.Unforged (T : Config A F σ) (owner : EthereumAddress) (signed : List UInt8 → Prop) :
    Action A F σ → Prop
  | .extrinsic _ (.other (.claims call)) => call.Unforged T.betanet.wired owner signed
  | _ => True

instance (T : Config A F σ) (owner : EthereumAddress) (signed : List UInt8 → Prop)
    [DecidablePred signed] (action : Action A F σ) :
    Decidable (action.Unforged T owner signed) := by
  unfold Action.Unforged
  split <;> infer_instance

/-- The claim is not minted or moved by the action. -/
def Action.sparesClaim (owner : EthereumAddress) : Action A F σ → Bool
  | .extrinsic _ (.other (.claims call)) => call.spares owner
  | _ => true

/-- The claim is not among those that the action may add a reward to. -/
def Action.NoReward (owner : EthereumAddress) : Action A F σ → Prop
  | .onInitialize _ _ rewards => ∀ entry ∈ rewards, entry.1 ≠ owner
  | _ => True

instance (owner : EthereumAddress) (action : Action A F σ) :
    Decidable (action.NoReward owner) := by
  unfold Action.NoReward
  split <;> infer_instance

/-- From `s` to `s'` the claim is taken off the record and paid to the account, as far as the
currency accepts the deposit. -/
structure PaysClaim (T : Config A F σ) (owner : EthereumAddress) (dest : A) (v : Nat)
    (s s' : State A F σ) : Prop where
  claimed : s.world.claims.claims.lookup owner = some v
  gone : s'.world.claims.claims.lookup owner = none
  paid : free T dest s'.world = free T dest s.world +
    Currency.accepted T.currency.existentialDeposit v (T.currency.totalBalance s.world.ledger dest)

/-! ## The betanet rewards -/

/-- A leftover reward is added to a claim, and pays none. -/
theorem processLeftoverClaim_settles (C : Betanet.Config A σ) {address : EthereumAddress}
    (hfixed : fixed → address ≠ owner) (reward : Nat) (part : Betanet.State A σ) :
    Settles owner dest fixed part (Betanet.processLeftoverClaim C address reward part) := by
  intro hnamed
  refine ⟨hnamed, [], (List.append_nil _).symm, ?_⟩
  unfold Betanet.processLeftoverClaim
  dsimp only
  split
  next claim hclaim =>
    by_cases howner : address = owner
    · subst howner
      rw [hclaim, Finmap.lookup_insert]
      exact .held _ _ fun h => absurd rfl (hfixed h)
    · rw [Finmap.lookup_insert_of_ne _ (Ne.symm howner)]
      exact Fate.refl _
  next => exact Fate.refl _

variable (dest) in
/-- The accounts that are paid have no claims any more; the claims that are left may grow. -/
theorem betanet_onInitialize_settles (C : Betanet.Config A σ) (block : Nat)
    (accounts : List (A × Betanet.UserInfo)) {rewards : List (EthereumAddress × Nat)}
    (hfixed : fixed → ∀ entry ∈ rewards, entry.1 ≠ owner) (part : Betanet.State A σ) :
    Settles owner dest fixed part (Betanet.onInitialize C block accounts rewards part) := by
  refine Betanet.onInitialize_keeps (I := fun after : Betanet.State A σ =>
    Settles owner dest fixed part after) ?_ ?_ ?_ (.of_same rfl rfl rfl)
  · intro after account info hsettles
    exact hsettles.trans (.of_same rfl rfl rfl)
  · intro after entry hentry hsettles
    let taken : Betanet.State A σ := { after with rewards := after.rewards.erase entry.1 }
    have htopped : Settles owner dest fixed taken
        (Betanet.processLeftoverClaim C entry.1 entry.2 taken) :=
      processLeftoverClaim_settles C (fun h => hfixed h entry hentry) entry.2 taken
    exact hsettles.trans htopped
  · intro after hsettles
    exact hsettles.trans (.of_same rfl rfl rfl)

/-! ## Every step -/

theorem palletDispatch_settles (hS : T.SparesClaims) (hencode : T.betanet.wired.Encodes dest)
    (hnames : Claims.Names T.betanet.wired dest signed) {call : PalletCall A F}
    (hunforged : (Action.extrinsic origin (.other call) : Action A F σ).Unforged T owner signed)
    (hspares : (Action.extrinsic origin (.other call) : Action A F σ).sparesClaim owner = true)
    (h : palletDispatch T call origin s = .ok s') :
    Settles owner dest fixed s.world.claims s'.world.claims := by
  cases call with
  | claims call =>
    obtain ⟨part, hrun, hs'⟩ := through_ok h
    have hsettles := Claims.dispatch_settles fixed hencode hnames hunforged hspares hrun
    rw [hs']
    exact hsettles
  | xxBetanetRewards call =>
    obtain ⟨part, hrun, hs'⟩ := through_ok h
    obtain ⟨_, hpart⟩ := betanetDispatch_frame hrun
    rw [hs', hpart]
    exact .of_same rfl rfl rfl
  | swap call =>
    obtain ⟨s₁, _, hs'⟩ := swapDispatch_ok h
    rw [hs']
    exact .of_same rfl rfl rfl
  | xxCmix | xxEconomics | xxCustody | xxPublic =>
    obtain ⟨part, _, hs'⟩ := through_ok h
    rw [hs']
    exact .of_same rfl rfl rfl
  | foreign call =>
    rw [hS call origin s s' h]
    exact .of_same rfl rfl rfl

variable [DecidableEq F]

/-- Every entry of a record leaves the claim, or pays it to the account that the owner names. -/
theorem happens_settles (hS : T.SparesClaims) (hencode : T.betanet.wired.Encodes dest)
    (hnames : Claims.Names T.betanet.wired dest signed) {action : Action A F σ}
    (hunforged : action.Unforged T owner signed) (hspares : action.sparesClaim owner = true)
    (hfixed : fixed → action.NoReward owner) (h : Happens T s action s') :
    Settles owner dest fixed s.world.claims s'.world.claims := by
  cases action with
  | extrinsic origin call =>
    rcases Chainbridge.executes_cases h with ⟨pallet, hcall, hrun⟩ | hadmin
    · cases hcall
      exact palletDispatch_settles hS hencode hnames hunforged hspares hrun
    · rw [hadmin.world]
      exact .of_same rfl rfl rfl
  | onInitialize block accounts rewards =>
    have hsettles := betanet_onInitialize_settles dest T.betanet block accounts hfixed
      (claimsPart.get (s.world.setBlock block))
    rw [show s' = _ from h]
    exact hsettles
  | eraPayout totalStaked totalIssuance eraDurationMillis =>
    obtain ⟨_, hera⟩ := eraPayout_frame T totalStaked totalIssuance eraDurationMillis s
    rw [show s' = _ from Eq.trans h hera]
    exact .of_same rfl rfl rfl
  | endEra | payRewards | payRemainder | elsewhere =>
    rw [show s' = _ from h]
    exact .of_same rfl rfl rfl

/-! ## What is announced -/

omit [DecidableEq F] in
/-- The enactment announces no payment of a claim. -/
theorem events_onInitialize (C : Betanet.Config A σ) (block : Nat)
    (accounts : List (A × Betanet.UserInfo)) (rewards : List (EthereumAddress × Nat))
    (part : Betanet.State A σ) :
    (Betanet.onInitialize C block accounts rewards part).events = part.events :=
  Betanet.onInitialize_keeps (I := fun after : Betanet.State A σ => after.events = part.events)
    (fun _ _ _ h => h) (fun _ _ _ h => h) (fun _ h => h) rfl

omit [DecidableEq F] in
theorem palletDispatch_announces (hS : T.SparesClaims) {call : PalletCall A F}
    (h : palletDispatch T call origin s = .ok s') :
    s'.world.claims.events = s.world.claims.events ∨
      ∃ inner part, call = .claims inner ∧ inner.pays = true ∧
        Claims.dispatch T.betanet.wired origin inner (claimsPart.get s.world) = .ok part ∧
        s' = { s with world := claimsPart.put s.world part } := by
  cases call with
  | claims call =>
    obtain ⟨part, hrun, hs'⟩ := through_ok h
    cases hpays : call.pays with
    | true => exact Or.inr ⟨call, part, rfl, hpays, hrun, hs'⟩
    | false =>
      obtain ⟨_, _, _, _, _, hpart⟩ := Claims.dispatch_frame hpays hrun
      rw [hs', hpart]
      exact Or.inl rfl
  | xxBetanetRewards call =>
    obtain ⟨part, hrun, hs'⟩ := through_ok h
    obtain ⟨_, hpart⟩ := betanetDispatch_frame hrun
    rw [hs', hpart]
    exact Or.inl rfl
  | swap call =>
    obtain ⟨s₁, _, hs'⟩ := swapDispatch_ok h
    rw [hs']
    exact Or.inl rfl
  | xxCmix | xxEconomics | xxCustody | xxPublic =>
    obtain ⟨part, _, hs'⟩ := through_ok h
    rw [hs']
    exact Or.inl rfl
  | foreign call =>
    rw [hS call origin s s' h]
    exact Or.inl rfl

/-- An entry of a record announces the payment of a claim only as a call that pays one. -/
theorem happens_announces (hS : T.SparesClaims) {action : Action A F σ}
    (h : Happens T s action s') :
    s'.world.claims.events = s.world.claims.events ∨
      ∃ origin inner part, action = .extrinsic origin (.other (.claims inner)) ∧
        inner.pays = true ∧
        Claims.dispatch T.betanet.wired origin inner (claimsPart.get s.world) = .ok part ∧
        s' = { s with world := claimsPart.put s.world part } := by
  cases action with
  | extrinsic origin call =>
    rcases Chainbridge.executes_cases h with ⟨pallet, hcall, hrun⟩ | hadmin
    · cases hcall
      rcases palletDispatch_announces hS hrun with hsame | ⟨inner, part, rfl, hpaid⟩
      · exact Or.inl hsame
      · exact Or.inr ⟨origin, inner, part, rfl, hpaid⟩
    · rw [hadmin.world]
      exact Or.inl rfl
  | onInitialize block accounts rewards =>
    rw [show s' = _ from h]
    exact Or.inl (events_onInitialize T.betanet block accounts rewards
      (claimsPart.get (s.world.setBlock block)))
  | eraPayout totalStaked totalIssuance eraDurationMillis =>
    obtain ⟨_, hera⟩ := eraPayout_frame T totalStaked totalIssuance eraDurationMillis s
    rw [show s' = _ from Eq.trans h hera]
    exact Or.inl rfl
  | endEra | payRewards | payRemainder | elsewhere =>
    rw [show s' = _ from h]
    exact Or.inl rfl

omit [DecidableEq F] in
/-- The payment of a claim, in the runtime. -/
theorem pays_paysClaim {signer : EthereumAddress} {v : Nat} {part : Betanet.State A σ}
    (h : Claims.Pays T.betanet.wired signer dest v (claimsPart.get s.world) part) :
    PaysClaim T signer dest v s { s with world := claimsPart.put s.world part } where
  claimed := h.claimed
  gone := by
    show part.claims.lookup signer = none
    rw [h.claims]
    exact Finmap.lookup_erase _ _
  paid := by
    have hpaid := h.free
    have hcurrency : T.betanet.wired.currency = T.currency := T.claims_currency
    rw [hcurrency] at hpaid
    exact hpaid

/-- An entry that loses the claim pays it to the account that the owner names, and announces
that. -/
theorem happens_paysClaim (hT : T.Lawful) (hS : T.SparesClaims)
    (hencode : T.betanet.wired.Encodes dest) (hnames : Claims.Names T.betanet.wired dest signed)
    {action : Action A F σ} (hunforged : action.Unforged T owner signed)
    (hspares : action.sparesClaim owner = true) (h : Happens T s action s')
    (hnamed : ∀ who, s.world.claims.preclaims.lookup who = some owner → who = dest)
    (hclaim : s.world.claims.claims.lookup owner ≠ none)
    (hlost : s'.world.claims.claims.lookup owner = none) :
    ∃ v reward, PaysClaim T owner dest v s s' ∧
      s'.world.claims.events = s.world.claims.events ++ [.claimed dest owner v reward] := by
  rcases happens_announces hS h with hsame | ⟨origin, inner, part, rfl, hpays, hrun, rfl⟩
  · -- without an event the claim is held
    obtain ⟨_, new, hnew, hfate⟩ := happens_settles hS hencode hnames hunforged
      hspares (fun hfalse : False => hfalse.elim) h hnamed
    rw [hsame, List.self_eq_append_right] at hnew
    rw [hnew, hlost] at hfate
    generalize s.world.claims.claims.lookup owner = claim at hclaim hfate
    cases hfate
    exact absurd rfl hclaim
  · obtain ⟨signer, who, haddressed, hpaid⟩ := Claims.dispatch_pays hpays hrun
    have hlaws : T.betanet.wired.currency.Lawful := by
      show T.betanet.claims.currency.Lawful
      rw [T.claims_currency]
      exact hT.currency
    obtain ⟨v, hpaid⟩ := hpaid.pays hlaws hT.claims
    have hsigner : signer = owner := by
      by_contra hne
      refine hclaim ?_
      have hkept : part.claims.lookup owner = (claimsPart.get s.world).claims.lookup owner := by
        rw [hpaid.claims, Finmap.lookup_erase_ne (Ne.symm hne)]
      exact hkept.symm.trans hlost
    subst hsigner
    have hwho : who = dest := haddressed.names hencode hnames hunforged hnamed
    subst hwho
    obtain ⟨reward, hevents⟩ := hpaid.events
    exact ⟨v, reward, pays_paysClaim hpaid, hevents⟩

/-! ## Runs -/

/-- Over any part of a run in which nothing is forged and the claim is not minted or moved, the
claim is held or paid. -/
theorem trace_settles (hS : T.SparesClaims) (hencode : T.betanet.wired.Encodes dest)
    (hnames : Claims.Names T.betanet.wired dest signed)
    {trace : List (State A F σ × Action A F σ)} (hrun : Recorded T trace s s')
    (hunforged : ∀ e ∈ trace, e.2.Unforged T owner signed)
    (hspares : ∀ e ∈ trace, e.2.sparesClaim owner = true)
    (hfixed : fixed → ∀ e ∈ trace, e.2.NoReward owner) :
    Settles owner dest fixed s.world.claims s'.world.claims := by
  refine Trace.keeps
    (R := fun s s' : State A F σ => Settles owner dest fixed s.world.claims s'.world.claims)
    (P := fun _ action => action.Unforged T owner signed ∧ action.sparesClaim owner = true ∧
      (fixed → action.NoReward owner)) ?_ ?_ ?_ ?_ hrun ?_
  · exact fun _ => .of_same rfl rfl rfl
  · exact fun _ _ _ hfirst hsecond => hfirst.trans hsecond
  · intro s s' hquiet
    rw [hquiet.world]
    exact .of_same rfl rfl rfl
  · rintro s action s' ⟨hunforged, hspares, hnoReward⟩ hstep
    exact happens_settles hS hencode hnames hunforged hspares hnoReward hstep
  · exact fun e he => ⟨hunforged e he, hspares e he, fun h => hfixed h e he⟩

/-- A claim that is gone after a run was paid by one of its entries, and announced as that. -/
theorem trace_paysClaim (hT : T.Lawful) (hS : T.SparesClaims)
    (hencode : T.betanet.wired.Encodes dest) (hnames : Claims.Names T.betanet.wired dest signed)
    {trace : List (State A F σ × Action A F σ)} (hrun : Recorded T trace s s')
    (hunforged : ∀ e ∈ trace, e.2.Unforged T owner signed)
    (hspares : ∀ e ∈ trace, e.2.sparesClaim owner = true)
    (hnamed : ∀ who, s.world.claims.preclaims.lookup who = some owner → who = dest)
    (hclaim : s.world.claims.claims.lookup owner ≠ none)
    (hlost : s'.world.claims.claims.lookup owner = none) :
    ∃ e ∈ trace, ∃ s₂ v new, Happens T e.1 e.2 s₂ ∧ PaysClaim T owner dest v e.1 s₂ ∧
      s'.world.claims.events = s.world.claims.events ++ new ∧
      Claims.paymentsOf owner new = [(dest, v)] := by
  obtain ⟨before, _, after, s₁, s₂, rfl, hbefore, ⟨action, rfl, hstep, hheld, hgone⟩, hafter⟩ :=
    hrun.loses (Q := fun s => s.world.claims.claims.lookup owner ≠ none)
      (fun _ _ hquiet hs => by rw [hquiet.world]; exact hs) hclaim (not_not.mpr hlost)
  have hmem : (s₁, action) ∈ before ++ [(s₁, action)] ++ after :=
    List.mem_append_left _ (List.mem_append_right _ (List.mem_singleton_self _))
  -- the claim is held up to the payment, and gone after it
  obtain ⟨hnamed₁, new₁, hnew₁, hfate₁⟩ := trace_settles hS hencode hnames
    hbefore (fun e he => hunforged e (List.mem_append_left _ (List.mem_append_left _ he)))
    (fun e he => hspares e (List.mem_append_left _ (List.mem_append_left _ he)))
    (fun hfalse : False => hfalse.elim) hnamed
  obtain ⟨v, reward, hpaid, hevents⟩ := happens_paysClaim hT hS hencode hnames
    (hunforged _ hmem) (hspares _ hmem) hstep hnamed₁ hheld (not_not.mp hgone)
  obtain ⟨hnamed₂, _⟩ := happens_settles hS hencode hnames (hunforged _ hmem)
    (hspares _ hmem) (fun hfalse : False => hfalse.elim) hstep hnamed₁
  obtain ⟨_, new₂, hnew₂, hfate₂⟩ := trace_settles hS hencode hnames hafter
    (fun e he => hunforged e (List.mem_append_right _ he))
    (fun e he => hspares e (List.mem_append_right _ he)) (fun hfalse : False => hfalse.elim) hnamed₂
  have hnone₁ : Claims.paymentsOf owner new₁ = [] := by
    rw [hpaid.claimed] at hfate₁
    generalize s.world.claims.claims.lookup owner = claim at hfate₁
    generalize Claims.paymentsOf owner new₁ = payments at hfate₁ ⊢
    cases hfate₁
    rfl
  have hnone₂ : Claims.paymentsOf owner new₂ = [] := by
    rw [hpaid.gone, hlost] at hfate₂
    generalize Claims.paymentsOf owner new₂ = payments at hfate₂ ⊢
    cases hfate₂
    rfl
  refine ⟨(s₁, action), hmem, s₂, v, new₁ ++ ([.claimed dest owner v reward] ++ new₂), hstep, hpaid,
    ?_, ?_⟩
  · rw [hnew₂, hevents, hnew₁, List.append_assoc, List.append_assoc]
  · rw [Claims.paymentsOf_append, Claims.paymentsOf_append, hnone₁, hnone₂]
    simp [Claims.paymentsOf]

/-- **The owner of a claim.** As long as an owner signs for one account only, and only that account
was named for the claim before, no run pays the claim to anybody else, or twice, whatever others
sign and submit, in batches, proposals of the bridge and calls under other origins, if the admins
mint and move no claim of this owner. It is paid the amount that was promised, unless the betanet
adds a reward; and what is announced as paid is deposited by one of the calls of the run, as far as
the currency accepts it. -/
theorem run_claim_owner (T : Config A F σ) (hT : T.Lawful) (hS : T.SparesClaims)
    (owner : EthereumAddress) (dest : A) (hencode : T.betanet.wired.Encodes dest)
    (signed : List UInt8 → Prop) (hnames : Claims.Names T.betanet.wired dest signed)
    (s : State A F σ)
    (hnamed : ∀ who, s.world.claims.preclaims.lookup who = some owner → who = dest)
    (actions : List (Action A F σ))
    (hunforged : ∀ e ∈ record T s actions, e.2.Unforged T owner signed)
    (hspares : ∀ e ∈ record T s actions, e.2.sparesClaim owner = true) :
    ∃ new, (run T s actions).world.claims.events = s.world.claims.events ++ new ∧
      Fate dest (∀ e ∈ record T s actions, e.2.NoReward owner)
        (s.world.claims.claims.lookup owner) (Claims.paymentsOf owner new)
        ((run T s actions).world.claims.claims.lookup owner) ∧
      ∀ who v, (who, v) ∈ Claims.paymentsOf owner new →
        ∃ e ∈ record T s actions, ∃ s', Happens T e.1 e.2 s' ∧ PaysClaim T owner who v e.1 s' := by
  have hrun := run_trace T s actions
  obtain ⟨_, new, hnew, hfate⟩ := trace_settles hS hencode hnames hrun hunforged hspares id hnamed
  refine ⟨new, hnew, hfate, ?_⟩
  intro who v hpaid
  have hspent : s.world.claims.claims.lookup owner ≠ none ∧
      (run T s actions).world.claims.claims.lookup owner = none := by
    generalize Claims.paymentsOf owner new = payments at hfate hpaid
    generalize s.world.claims.claims.lookup owner = claim at hfate ⊢
    generalize (run T s actions).world.claims.claims.lookup owner = claim' at hfate ⊢
    cases hfate with
    | gone | held => cases hpaid
    | paid => exact ⟨Option.some_ne_none _, rfl⟩
  obtain ⟨e, he, s', amount, new', hstep, hpays, hnew', hpayments⟩ := trace_paysClaim hT hS hencode
    hnames hrun hunforged hspares hnamed hspent.1 hspent.2
  have hsame : new = new' := List.append_cancel_left (hnew.symm.trans hnew')
  rw [hsame, hpayments, List.mem_singleton] at hpaid
  cases hpaid
  exact ⟨e, he, s', hstep, hpays⟩

/-! ## On the mock runtime -/

/-- A checksum in place of the hash, and accounts in one byte. -/
def mockHash (data : List UInt8) : Vector UInt8 32 :=
  Vector.replicate 32 (data.foldl (fun h b => 31 * h + b) 7)

/-- The signature of the message for `42`, with nothing stated. -/
def mockSignature : Claims.EcdsaSignature :=
  Vector.replicate 65 1

/-- The wired mock runtime, with one valid signature, of the key `[1]`. -/
def signingRuntime : Config Nat Unit (VestedLedger Nat) :=
  { wiredRuntime with
    betanet := { wiredRuntime.betanet with
      claims := { wiredRuntime.betanet.claims with
        encode := fun who => [UInt8.ofNat (min who 255)]
        keccak256 := mockHash
        secp256k1EcdsaRecover := fun signature hash =>
          if signature = mockSignature ∧ hash = mockHash (Claims.ethereumSignableMessage
            wiredRuntime.betanet.claims (Claims.toAsciiHex [42]) []) then some [1] else none } }
    claims_currency := rfl
    economics_currency := rfl
    custody_currency := rfl
    public_currency := rfl }

/-- The address of the key. -/
def mockOwner : EthereumAddress :=
  (mockHash [1]).drop 12

def signedByOwner (message : List UInt8) : Prop :=
  message = Claims.ethereumSignableMessage wiredRuntime.betanet.claims (Claims.toAsciiHex [42]) []

instance : DecidablePred signedByOwner :=
  fun _ => decEq _ _

/-- A claim of `100` of the owner. -/
def mockClaimed : State Nat Unit (VestedLedger Nat) :=
  { mockState 1000 with
    world := { (mockState 1000).world with
      claims := Claims.genesisBuild
        { claims := [⟨mockOwner, 100, none, none, none⟩], vesting := [] }
        () (Betanet.genesisBuild []) } }

/-- The signature is tried for another account first, and once too often. -/
def mockClaiming : List (Action Nat Unit (VestedLedger Nat)) :=
  [.extrinsic .none (.other (.claims (.claim 43 mockSignature))),
    .extrinsic .none (.other (.claims (.claim 42 mockSignature))), .onInitialize 2 [] [],
    .extrinsic .none (.other (.claims (.claimAttest 42 mockSignature [])))]

theorem signingRuntime_lawful : signingRuntime.Lawful where
  currency := mockRuntime_lawful.currency
  claims := mockRuntime_lawful.claims
  publicFunds := mockRuntime_lawful.publicFunds
  custody := { mockRuntime_lawful.custody with }
  leavesOthers := { mockRuntime_lawful.leavesOthers with }
  rewardByIds := mockRuntime_lawful.rewardByIds
  deductByIds := mockRuntime_lawful.deductByIds

theorem run_claim_owner_mock :
    Claims.paymentsOf mockOwner (run signingRuntime mockClaimed mockClaiming).world.claims.events =
        [(42, 100)] ∧
      ∃ e ∈ record signingRuntime mockClaimed mockClaiming, ∃ s',
        Happens signingRuntime e.1 e.2 s' ∧ PaysClaim signingRuntime mockOwner 42 100 e.1 s' := by
  obtain ⟨new, hnew, hfate, hdeposited⟩ := run_claim_owner signingRuntime signingRuntime_lawful
    (fun _ _ s s' h => by cases h; rfl) mockOwner 42
    ⟨fun _ => rfl, fun who h => by
      have hbyte : min who 255 % 256 = 42 % 256 := congrArg (fun l => (l.headD 0).toNat) h
      omega⟩
    signedByOwner (fun message h => ⟨[], h⟩) mockClaimed
    (fun who h => by
      have hnone : mockClaimed.world.claims.preclaims = ∅ := rfl
      rw [hnone] at h
      cases h)
    mockClaiming (by decide +kernel) (by decide +kernel)
  have hbefore : mockClaimed.world.claims.claims.lookup mockOwner = some 100 := by decide +kernel
  have hafter : (run signingRuntime mockClaimed mockClaiming).world.claims.claims.lookup mockOwner =
      none := by decide +kernel
  have hnoReward : ∀ e ∈ record signingRuntime mockClaimed mockClaiming,
      e.2.NoReward mockOwner := by decide +kernel
  have hnone : mockClaimed.world.claims.events = [] := rfl
  rw [hnew, hnone, List.nil_append]
  rw [hbefore, hafter] at hfate
  have hpayments : Claims.paymentsOf mockOwner new = [(42, 100)] := by
    generalize Claims.paymentsOf mockOwner new = payments at hfate ⊢
    cases hfate with
    | paid v amount hfixed => rw [hfixed hnoReward]
  refine ⟨hpayments, hdeposited 42 100 ?_⟩
  rw [hpayments]
  exact List.mem_singleton_self _

end XXChain.Runtime
