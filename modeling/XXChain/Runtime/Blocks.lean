import XXChain.Chainbridge.Journal
import XXChain.Economics.RewardsPool
import XXChain.Runtime.Model

/-!
# XXChain — runs of the runtime

What happens to the state of the whole runtime, from block to block: extrinsics, the hook of a
block that begins, the handlers that the staking pallet calls at the end of an era and when it
pays its rewards, and what the other pallets do of their own accord.

* **`record`** — what a list of these comes down to, with each extrinsic replaced by the calls
  inside it that dispatch no other (`Chainbridge.journal`);
* **`run_trace`** — a run is a run of its record, with the bookkeeping of the votes in between.
-/

namespace XXChain.Runtime

open Chainbridge (Bookkeeping Executes)

variable {A F σ : Type}

/-- A block begins with the maps of the betanet rewards drained in given orders, should it enact
the program; `elsewhere` leaves the currency and the other pallets in the state `ledger`. -/
inductive Action (A F σ : Type) where
  | extrinsic (origin : Origin A) (call : Call A F)
  | onInitialize (block : Nat) (accounts : List (A × Betanet.UserInfo))
      (rewards : List (Claims.EthereumAddress × Nat))
  | endEra
  | eraPayout (totalStaked totalIssuance eraDurationMillis : Nat)
  | payRewards (receivers : List (A × Nat))
  | payRemainder (amount : Nat)
  | elsewhere (ledger : σ)

/-- The pallets that read the block number. -/
def World.setBlock (block : Nat) (w : World A σ) : World A σ :=
  { w with
    claims := { w.claims with block }
    xxCmix := { w.xxCmix with block }
    xxEconomics := { w.xxEconomics with block }
    xxCustody := { w.xxCustody with block }
    xxPublic := { w.xxPublic with block } }

variable [DecidableEq A] [DecidableEq F]

/-- A change of a pallet's part of the world. -/
def onPart {S : Type} (p : Part (World A σ) S) (f : S → S) (s : State A F σ) : State A F σ :=
  { s with world := p.put s.world (f (p.get s.world)) }

/-- A block begins. -/
def onInitialize (T : Config A F σ) (block : Nat) (accounts : List (A × Betanet.UserInfo))
    (rewards : List (Claims.EthereumAddress × Nat)) (s : State A F σ) : State A F σ :=
  onPart claimsPart (Betanet.onInitialize T.betanet block accounts rewards)
    { s with block, world := s.world.setBlock block }

/-- The payout of an era; a block in which it panics is not imported. -/
def eraPayout (T : Config A F σ) (totalStaked totalIssuance eraDurationMillis : Nat)
    (s : State A F σ) : State A F σ :=
  match Economics.eraPayout T.economics totalStaked totalIssuance eraDurationMillis
      (economicsPart.get s.world) with
  | .ok (part, _, _) => { s with world := economicsPart.put s.world part }
  | .error _ => s

def next (T : Config A F σ) (s : State A F σ) : Action A F σ → State A F σ
  | .extrinsic origin call => applyExtrinsic T origin call s
  | .onInitialize block accounts rewards => onInitialize T block accounts rewards s
  | .endEra => onPart cmixPart Cmix.endEra s
  | .eraPayout totalStaked totalIssuance eraDurationMillis =>
    eraPayout T totalStaked totalIssuance eraDurationMillis s
  | .payRewards receivers => onPart economicsPart (Economics.payRewards T.economics receivers) s
  | .payRemainder amount => onPart economicsPart (Economics.payRemainder T.economics amount) s
  | .elsewhere ledger => { s with world := { s.world with ledger } }

def run (T : Config A F σ) (s : State A F σ) (actions : List (Action A F σ)) : State A F σ :=
  actions.foldl (next T) s

omit [DecidableEq A] [DecidableEq F] in
/-- The end of an era is the mix network's, and takes its variables into force. -/
theorem endEra_frame (s : State A F σ) :
    ∃ events, onPart cmixPart Cmix.endEra s =
      { s with world := { s.world with xxCmix := { s.world.xxCmix with
        nextCmixVariables := none
        cmixVariables := s.world.xxCmix.nextCmixVariables.getD s.world.xxCmix.cmixVariables
        events } } } := by
  obtain ⟨events, hera⟩ := Cmix.endEra_eq (cmixPart.get s.world)
  refine ⟨events, ?_⟩
  unfold onPart
  rw [hera]
  rfl

omit [DecidableEq A] [DecidableEq F] in
/-- The payout of an era counts the liquidity rewards down. It pays nothing by itself. -/
theorem eraPayout_frame (T : Config A F σ) (totalStaked totalIssuance eraDurationMillis : Nat)
    (s : State A F σ) :
    ∃ liquidityRewards, eraPayout T totalStaked totalIssuance eraDurationMillis s =
      { s with world := { s.world with
        xxEconomics := { s.world.xxEconomics with liquidityRewards } } } := by
  unfold eraPayout
  split
  next part _ _ hrun =>
    simp only [Economics.eraPayout, bind_eq_ok] at hrun
    obtain ⟨_, _, _, _, hpart⟩ := hrun
    cases hpart
    exact ⟨_, rfl⟩
  -- it panics
  next => exact ⟨s.world.xxEconomics.liquidityRewards, rfl⟩

/-! ## What a run comes down to -/

/-- A call of a journal as an extrinsic. -/
def Action.ofCall (call : Origin A × Call A F) : Action A F σ :=
  .extrinsic call.1 call.2

/-- An extrinsic comes down to the calls inside it, and to nothing when it fails. -/
def entries (T : Config A F σ) (s : State A F σ) :
    Action A F σ → List (State A F σ × Action A F σ)
  | .extrinsic origin call =>
    match Chainbridge.dispatch T.bridge call origin s with
    | .ok _ => (Chainbridge.journal T.bridge call origin s).map fun e => (e.1, .ofCall e.2)
    | .error _ => []
  | action => [(s, action)]

def record (T : Config A F σ) :
    State A F σ → List (Action A F σ) → List (State A F σ × Action A F σ)
  | _, [] => []
  | s, action :: actions => entries T s action ++ record T (next T s action) actions

/-- What one entry of a record does. -/
def Happens (T : Config A F σ) (s : State A F σ) (action : Action A F σ) (s' : State A F σ) :
    Prop :=
  match action with
  | .extrinsic origin call => Executes T.bridge s (origin, call) s'
  | action => s' = next T s action

/-- A run of the entries of a record. -/
abbrev Recorded (T : Config A F σ) :
    List (State A F σ × Action A F σ) → State A F σ → State A F σ → Prop :=
  Trace Bookkeeping (Happens T)

theorem next_trace (T : Config A F σ) (s : State A F σ) (action : Action A F σ) :
    Recorded T (entries T s action) s (next T s action) := by
  cases action with
  | extrinsic origin call =>
    show Recorded T (entries T s (.extrinsic origin call)) s
      (Chainbridge.applyExtrinsic T.bridge origin call s)
    dsimp only [entries, Chainbridge.applyExtrinsic]
    cases h : Chainbridge.dispatch T.bridge call origin s with
    | error e => exact .refl s
    | ok s' =>
      have htrace := Chainbridge.dispatch_trace T.bridge call origin s s' h
      exact htrace.mapLabels Action.ofCall fun _ _ _ hcall => hcall
  | onInitialize | endEra | eraPayout | payRewards | payRemainder | elsewhere => exact .single rfl

theorem run_trace (T : Config A F σ) (s : State A F σ) (actions : List (Action A F σ)) :
    Recorded T (record T s actions) s (run T s actions) := by
  induction actions generalizing s with
  | nil => exact .refl s
  | cons action actions ih => exact (next_trace T s action).append (ih (next T s action))

/-- If each action pays for what happens in it, the actions pay for the record. -/
theorem record_sum_le {T : Config A F σ} (φ : State A F σ → Nat)
    (cost : State A F σ × Action A F σ → Nat) (charge : Action A F σ → Nat)
    (hnext : ∀ s action, ((entries T s action).map cost).sum + φ s ≤
      φ (next T s action) + charge action) (s : State A F σ) (actions : List (Action A F σ)) :
    ((record T s actions).map cost).sum + φ s ≤
      φ (run T s actions) + (actions.map charge).sum := by
  induction actions generalizing s with
  | nil =>
    show 0 + φ s ≤ φ s + 0
    omega
  | cons action actions ih =>
    have hfirst := hnext s action
    have hrest := ih (next T s action)
    rw [record, List.map_append, List.sum_append, List.map_cons, List.sum_cons]
    show _ ≤ φ (run T (next T s action) actions) + _
    omega

/-- The entries of a record are calls, and the actions that are no extrinsics. -/
theorem record_mem {T : Config A F σ} {s : State A F σ} {actions : List (Action A F σ)}
    {e : State A F σ × Action A F σ} (h : e ∈ record T s actions) :
    (∃ origin call, e.2 = .extrinsic origin call) ∨ e.2 ∈ actions := by
  induction actions generalizing s with
  | nil => cases h
  | cons action actions ih =>
    rcases List.mem_append.mp h with hfirst | hrest
    · cases action with
      | extrinsic origin call =>
        dsimp only [entries] at hfirst
        split at hfirst
        · obtain ⟨inner, _, rfl⟩ := List.mem_map.mp hfirst
          exact Or.inl ⟨inner.2.1, inner.2.2, rfl⟩
        · cases hfirst
      | onInitialize | endEra | eraPayout | payRewards | payRemainder | elsewhere =>
        rw [List.mem_singleton.mp hfirst]
        exact Or.inr (List.mem_cons_self ..)
    · exact (ih hrest).imp_right (List.mem_cons_of_mem _)

/-! ## Whose extrinsics they are -/

omit [DecidableEq A] [DecidableEq F] in
/-- The origin of an extrinsic that anybody may submit. -/
def isUser : Origin A → Bool
  | .signed _ | .none => true
  | .root | .other _ => false

omit [DecidableEq A] [DecidableEq F] in
/-- A hook, or an extrinsic with one of these origins. -/
def Action.origins (P : Origin A → Bool) : Action A F σ → Bool
  | .extrinsic origin _ => P origin
  | _ => true

omit [DecidableEq A] [DecidableEq F] in
/-- A hook, or an extrinsic that a user submits. -/
def Action.byUser (action : Action A F σ) : Bool :=
  action.origins isUser

variable {T : Config A F σ} {P : Origin A → Bool}

/-- What an extrinsic executes it executes for its signer, or for the bridge account. Only the root
dispatches under another origin. -/
theorem entries_origins (hroot : P .root = false) (hbridge : P (.signed T.bridgeId) = true)
    {s : State A F σ} {action : Action A F σ} (h : action.origins P = true) :
    ∀ e ∈ entries T s action, e.2.origins P = true := by
  have hcommands : ∀ {origin o : Origin A}, P origin = true →
      Chainbridge.Commands T.bridge origin o → P o = true := by
    intro origin o horigin hcommands
    induction hcommands with
    | self => exact horigin
    | bridge => exact hbridge
    | dispatchAs _ hmay ih =>
      rw [of_decide_eq_true hmay, hroot] at ih
      cases ih
  intro e he
  cases action with
  | extrinsic origin call =>
    dsimp only [entries] at he
    split at he
    · obtain ⟨inner, hinner, rfl⟩ := List.mem_map.mp he
      exact hcommands h (Chainbridge.journal_commanded T.bridge call origin s inner hinner)
    · cases he
  | onInitialize | endEra | eraPayout | payRewards | payRemainder | elsewhere =>
    rw [List.mem_singleton.mp he]
    rfl

theorem record_origins (hroot : P .root = false) (hbridge : P (.signed T.bridgeId) = true)
    {s : State A F σ} {actions : List (Action A F σ)}
    (h : ∀ action ∈ actions, action.origins P = true) :
    ∀ e ∈ record T s actions, e.2.origins P = true := by
  induction actions generalizing s with
  | nil => exact fun e he => nomatch he
  | cons action actions ih =>
    intro e he
    rcases List.mem_append.mp he with hfirst | hrest
    · exact entries_origins hroot hbridge (h action (List.mem_cons_self ..)) e hfirst
    · exact ih (fun a ha => h a (List.mem_cons_of_mem _ ha)) e hrest

/-! ## A wired mock runtime -/

/-- The mock runtime as `runtime/xxnetwork` wires its pallets: the rewards of the betanet are
handled by the economics pallet, and the admins are shares of a collective. -/
def wiredRuntime : Config Nat Unit (VestedLedger Nat) :=
  { mockRuntime with
    twoThirdsTechnical := fun o => decide (o = .other 0)
    betanet := { Betanet.mockRuntime with
      reward := fun ledger amount => (Economics.onUnbalanced mockRuntime.economics amount
        (Economics.genesisBuild Economics.mockGenesis ledger)).ledger }
    cmix := { mockRuntime.cmix with
      adminOrigin := fun o => decide (o = .other 0)
      cmixVariablesOrigin := fun o => decide (o = .other 1) }
    economics := { mockRuntime.economics with adminOrigin := fun o => decide (o = .other 2) }
    custody := { mockRuntime.custody with adminOrigin := fun o => decide (o = .other 2) }
    publicFunds := { mockRuntime.publicFunds with adminOrigin := fun o => decide (o = .other 2) }
    claims_currency := rfl
    economics_currency := rfl
    custody_currency := rfl
    public_currency := rfl }

end XXChain.Runtime
