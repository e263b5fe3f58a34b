import XXChain.Custody.LockUp
import XXChain.Runtime.Outflow

/-!
# XXChain — the lock-up of the team

The coins of a team member lie in two accounts that nobody has a key of. Up to the end of the
custody they leave them by payouts, in time with the schedule, whatever is called in the runtime.

* **`happens_held`** — an entry of a record takes from the two accounts what it vests, and what it
  is charged with;
* **`run_held`** — so does a run;
* **`run_lockup`** — users get no more than what is due, if the other pallets take nothing.
-/

namespace XXChain.Runtime

open Custody (Keeps due)

variable {A F σ : Type} [DecidableEq A] {T : Config A F σ} {origin : Origin A}
  {s s' : State A F σ} {a custody reserve who : A} {info : Custody.CustodyInfo A}
  {allocation last : Nat}

/-- The pallets that are not of this repository do not write to the books of the custody. -/
def Config.SparesCustody (T : Config A F σ) : Prop :=
  ∀ call o s s', T.foreign call o s = .ok s' → s'.world.xxCustody = s.world.xxCustody

/-- What both accounts hold. -/
def heldBy (T : Config A F σ) (custody reserve : A) (w : World A σ) : Nat :=
  free T custody w + free T reserve w

omit [DecidableEq A] in
theorem held_eq (custody reserve : A) (w : World A σ) :
    Custody.held T.custody custody reserve w.ledger = heldBy T custody reserve w := by
  unfold Custody.held
  rw [T.custody_currency]
  rfl

/-! ## What is taken -/

/-- What the staking and the proxy pallet take from an account, for a call of the custody. -/
def takenByCustody (T : Config A F σ) (a : A) (call : Custody.Call A) (origin : Origin A)
    (s : State A F σ) : Nat :=
  match call with
  | .payout _ => 0
  | call =>
    match Custody.dispatch T.custody origin call (custodyPart.get s.world) with
    | .ok part => free T a s.world - T.currency.freeBalance part.ledger a
    | .error _ => 0

/-- What an entry of a record takes from the account besides payouts. -/
def taken (T : Config A F σ) (a : A) (s : State A F σ) : Action A F σ → Nat
  | .extrinsic origin (.other (.xxCustody call)) => takenByCustody T a call origin s
  | action => outflow T a s action

/-- No block begins before the one that it follows, or after the last one. -/
def inOrder (last : Nat) : State A F σ × Action A F σ → Bool
  | (s, .onInitialize block _ _) => decide (s.world.xxCustody.block ≤ block ∧ block ≤ last)
  | _ => true

/-- The accounts are the member's, at a block not after the last one. -/
structure InCustody (T : Config A F σ) (custody reserve : A) (allocation last : Nat)
    (s : State A F σ) (who : A) (info : Custody.CustodyInfo A) : Prop where
  keeps : Keeps T.custody custody reserve allocation (custodyPart.get s.world) who info
  block_le : s.world.xxCustody.block ≤ last

/-- From one state to another, the accounts lose at most `cost` besides what is vested. -/
def Loses (T : Config A F σ) (custody reserve : A) (allocation last cost : Nat)
    (s s' : State A F σ) : Prop :=
  ∀ who info, InCustody T custody reserve allocation last s who info →
    ∃ who' info', InCustody T custody reserve allocation last s' who' info' ∧
      heldBy T custody reserve s.world + info.vested ≤
        heldBy T custody reserve s'.world + info'.vested + cost

theorem Loses.trans {m n : Nat} {s₁ : State A F σ}
    (h : Loses T custody reserve allocation last m s s₁)
    (h' : Loses T custody reserve allocation last n s₁ s') :
    Loses T custody reserve allocation last (m + n) s s' := by
  intro who info hkept
  obtain ⟨who₁, info₁, hkept₁, hle⟩ := h who info hkept
  obtain ⟨who', info', hkept', hle'⟩ := h' who₁ info₁ hkept₁
  exact ⟨who', info', hkept', by omega⟩

/-- The team is the same, at a later block perhaps. -/
theorem Loses.of_books {cost : Nat}
    (hteam : s'.world.xxCustody.teamAccounts = s.world.xxCustody.teamAccounts)
    (hblock : s.world.xxCustody.block ≤ s'.world.xxCustody.block)
    (hlast : s.world.xxCustody.block ≤ last → s'.world.xxCustody.block ≤ last)
    (hheld : heldBy T custody reserve s.world ≤ heldBy T custody reserve s'.world + cost) :
    Loses T custody reserve allocation last cost s s' :=
  fun who info hkept => ⟨who, info, ⟨hkept.keeps.of_books hteam hblock, hlast hkept.block_le⟩,
    by omega⟩

/-! ## Every step -/

theorem custody_loses (hT : T.Lawful) (hne : custody ≠ reserve)
    (hlast : last ≤ T.custody.custodyDuration)
    (hfits : Custody.ProductsFit T.custody allocation) {call : Custody.Call A}
    (h : palletDispatch T (.xxCustody call) origin s = .ok s') :
    Loses T custody reserve allocation last
      (takenByCustody T custody call origin s + takenByCustody T reserve call origin s) s s' := by
  obtain ⟨part, hrun, hs'⟩ := through_ok h
  have hblock : part.block = s.world.xxCustody.block := by
    rcases Custody.dispatch_cases hrun with hbooks | ⟨x, _, hpay⟩ | ⟨old, new, _, hreplace⟩
    · exact hbooks.block
    · obtain ⟨_, _, ⟨_, hdone⟩ | ⟨_, hdue⟩⟩ := Custody.payout_cases hpay
      · exact (Custody.lastPayout_books hdone).1
      · exact (Custody.doPayout_ok hdue).2.1
    · obtain ⟨_, _, _, _, hsame, _⟩ := Custody.replaceTeamMember_ok hreplace
      exact hsame
  intro who info hkept
  have hbefore := hkept.block_le.trans hlast
  have hbooks : ∀ {who' info'}, Keeps T.custody custody reserve allocation part who' info' →
      InCustody T custody reserve allocation last s' who' info' := by
    intro who' info' hkeeps
    rw [hs']
    exact ⟨hkeeps.of_books rfl le_rfl, hblock.le.trans hkept.block_le⟩
  have hafter : heldBy T custody reserve s'.world =
      Custody.held T.custody custody reserve part.ledger := by
    rw [hs', ← held_eq]
    rfl
  rw [hafter, ← held_eq]
  cases call with
  | payout x =>
    obtain ⟨info', hkeeps, hle⟩ :=
      Custody.payout_keeps hT.custody hne hbefore hfits hkept.keeps hrun
    have hle' : Custody.held T.custody custody reserve s.world.ledger + info.vested ≤
      Custody.held T.custody custody reserve part.ledger + info'.vested := hle
    exact ⟨who, info', hbooks hkeeps, by omega⟩
  | custodyBond | custodyBondExtra | custodySetController | custodySetProxy | teamCustodySetProxy
  | addCustodian | removeCustodian | replaceTeamMember =>
    obtain ⟨who', hkeeps⟩ := Custody.dispatch_keeps nofun hkept.keeps hrun
    refine ⟨who', info, hbooks hkeeps, ?_⟩
    simp only [takenByCustody, hrun]
    rw [held_eq, heldBy, Custody.held, T.custody_currency]
    omega

theorem palletDispatch_team (hS : T.SparesCustody) {call : PalletCall A F}
    (hcustody : call.isCustody = false) (h : palletDispatch T call origin s = .ok s') :
    s'.world.xxCustody = s.world.xxCustody := by
  cases call with
  | xxCustody => cases hcustody
  | foreign call => exact hS call origin s s' h
  | claims | swap | xxCmix | xxEconomics | xxBetanetRewards | xxPublic =>
    exact palletDispatch_books rfl h

variable [DecidableEq F]

/-- Every entry of a record takes from the two accounts what it vests, and what it is charged
with. -/
theorem happens_held (hT : T.Lawful) (hS : T.SparesCustody) (hne : custody ≠ reserve)
    (hcustody : T.Respects custody) (hreserve : T.Respects reserve)
    (hlast : last ≤ T.custody.custodyDuration)
    (hfits : Custody.ProductsFit T.custody allocation) {action : Action A F σ}
    (horder : inOrder last (s, action) = true) (h : Happens T s action s') :
    Loses T custody reserve allocation last (taken T custody s action + taken T reserve s action)
      s s' := by
  have hheld : action.isCustody = false → taken T custody s action = outflow T custody s action →
      taken T reserve s action = outflow T reserve s action →
      heldBy T custody reserve s.world ≤ heldBy T custody reserve s'.world +
        (taken T custody s action + taken T reserve s action) := by
    intro hother htaken htaken'
    have hfree := happens_free_le hT hcustody hother h
    have hfree' := happens_free_le hT hreserve hother h
    unfold heldBy
    omega
  cases action with
  | extrinsic origin call =>
    rcases Chainbridge.executes_cases h with ⟨pallet, hcall, hrun⟩ | hadmin
    · subst hcall
      have hpallet : palletDispatch T pallet origin s = .ok s' := hrun
      cases pallet with
      | xxCustody call => exact custody_loses hT hne hlast hfits hpallet
      | claims | swap | xxCmix | xxEconomics | xxBetanetRewards | xxPublic | foreign =>
        have hbooks := palletDispatch_team hS rfl hpallet
        exact .of_books (by rw [hbooks]) (by rw [hbooks]) (by rw [hbooks]; exact id)
          (hheld rfl rfl rfl)
    · have hworld := hadmin.world
      refine .of_books (by rw [hworld]) (by rw [hworld]) (by rw [hworld]; exact id) ?_
      rw [hworld]
      exact Nat.le_add_right _ _
  | onInitialize block accounts rewards =>
    obtain ⟨hforward, hend⟩ : s.world.xxCustody.block ≤ block ∧ block ≤ last :=
      of_decide_eq_true horder
    have hbooks : s'.world.xxCustody = { s.world.xxCustody with block } := by
      rw [show s' = _ from h]
      rfl
    exact .of_books (by rw [hbooks]) (by rw [hbooks]; exact hforward)
      (fun _ => by rw [hbooks]; exact hend) (hheld rfl rfl rfl)
  | endEra | eraPayout | payRewards | payRemainder | elsewhere =>
    obtain ⟨block, hbooks, ⟨_, _, hother⟩ | hsame⟩ := hook_books rfl h
    · cases hother
    · subst hsame
      exact .of_books (by rw [hbooks]) (by rw [hbooks]) (by rw [hbooks]; exact id)
        (hheld rfl rfl rfl)

/-- Over any run up to the end of the custody, with any calls nested in batches, proposals of the
bridge and calls under other origins, the two accounts of a member lose at most what is vested and
what the entries of the record take. -/
theorem run_held (T : Config A F σ) (hT : T.Lawful) (hS : T.SparesCustody)
    (hne : custody ≠ reserve) (hcustody : T.Respects custody) (hreserve : T.Respects reserve)
    (hlast : last ≤ T.custody.custodyDuration)
    (hfits : Custody.ProductsFit T.custody allocation) (s : State A F σ)
    (actions : List (Action A F σ)) (horder : ∀ e ∈ record T s actions, inOrder last e = true) :
    Loses T custody reserve allocation last
      ((record T s actions).map fun e => taken T custody e.1 e.2 + taken T reserve e.1 e.2).sum
      s (run T s actions) :=
  Trace.costs (R := Loses T custody reserve allocation last)
    (P := fun s action => inOrder last (s, action) = true)
    (fun s action => taken T custody s action + taken T reserve s action)
    (fun s who info hkept => ⟨who, info, hkept, Nat.le_add_right _ _⟩)
    (fun _ _ _ _ _ h h' => h.trans h')
    (fun s s' hquiet => by
      have hworld := hquiet.world
      exact .of_books (by rw [hworld]) (by rw [hworld]) (by rw [hworld]; exact id)
        (by rw [hworld]; exact le_rfl))
    (fun _ _ _ horder hstep =>
      happens_held hT hS hne hcustody hreserve hlast hfits horder hstep)
    (run_trace T s actions) horder

/-! ## Users -/

/-- What the pallets that are not of this repository take from the account, of their own accord or
for a call of the custody. -/
def takenOutside (T : Config A F σ) (a : A) (s : State A F σ) : Action A F σ → Nat
  | .extrinsic origin (.other (.xxCustody call)) => takenByCustody T a call origin s
  | .extrinsic origin (.other (.foreign call)) => outflowBy T a (.foreign call) origin s
  | .elsewhere ledger => outflow T a s (.elsewhere ledger)
  | _ => 0

omit [DecidableEq F] in
/-- Without the account's signature, and if it is no public pot, nothing else takes from it. -/
theorem taken_of_other (htestnet : a ≠ T.publicFunds.testnetAccountId)
    (hsale : a ≠ T.publicFunds.saleAccountId) {e : State A F σ × Action A F σ}
    (horigin : e.2.origins (isOther a) = true) :
    taken T a e.1 e.2 = takenOutside T a e.1 e.2 := by
  obtain ⟨s, action⟩ := e
  cases action with
  | extrinsic origin call =>
    cases call with
    | other call =>
      cases call with
      | swap call =>
        have hne : origin ≠ .signed a := of_decide_eq_true (Bool.and_eq_true_iff.mp horigin).2
        exact if_neg hne
      | xxPublic call =>
        cases call with
        | testnetDistribute data => exact if_neg htestnet
        | saleDistribute data => exact if_neg hsale
        | setTestnetManagerAccount | setSaleManagerAccount => rfl
      | claims | xxCmix | xxEconomics | xxCustody | xxBetanetRewards | foreign => rfl
    | setThreshold | setResource | removeResource | whitelistChain | addRelayer | removeRelayer
    | acknowledgeProposal | rejectProposal | evalVoteState | batchAll | batch | dispatchAs => rfl
  | onInitialize | endEra | eraPayout | payRewards | payRemainder | elsewhere => rfl

/-- None of the accounts that the pallets pay out of. -/
structure Config.NoPot (T : Config A F σ) (a : A) : Prop where
  bridge : a ≠ T.bridgeId
  testnet : a ≠ T.publicFunds.testnetAccountId
  sale : a ≠ T.publicFunds.saleAccountId

/-- What an account loses in the entries of users' extrinsics that it does not sign itself. -/
theorem record_taken (hpot : T.NoPot a) {actions : List (Action A F σ)}
    (hothers : ∀ action ∈ actions, action.origins (isOther a) = true) :
    ∀ e ∈ record T s actions, taken T a e.1 e.2 = takenOutside T a e.1 e.2 := by
  have hbridge : isOther a (.signed T.bridgeId) = true :=
    decide_eq_true fun hsame => hpot.bridge (Origin.signed.inj hsame).symm
  have hrecord : ∀ e ∈ record T s actions, e.2.origins (isOther a) = true :=
    record_origins rfl hbridge hothers
  exact fun e he => taken_of_other hpot.testnet hpot.sale (hrecord e he)

/-- **The lock-up.** Over any run of extrinsics of users, none of them signed by the custody or the
reserve account of a team member, up to a block before the end of the custody: the two accounts
hold what they held, less what is due to the member at that block and not vested yet, and what the
pallets take that are not of this repository. -/
theorem run_lockup (T : Config A F σ) (hT : T.Lawful) (hS : T.SparesCustody) (s : State A F σ)
    (who : A) (info : Custody.CustodyInfo A) (last : Nat)
    (hmember : InCustody T info.custody info.reserve info.allocation last s who info)
    (hne : info.custody ≠ info.reserve) (hcustody : T.Respects info.custody)
    (hreserve : T.Respects info.reserve) (hcustodyPot : T.NoPot info.custody)
    (hreservePot : T.NoPot info.reserve) (hlast : last ≤ T.custody.custodyDuration)
    (hfits : Custody.ProductsFit T.custody info.allocation) (actions : List (Action A F σ))
    (horder : ∀ e ∈ record T s actions, inOrder last e = true)
    (hothers : ∀ action ∈ actions, action.origins (isOther info.custody) = true)
    (hothers' : ∀ action ∈ actions, action.origins (isOther info.reserve) = true) :
    heldBy T info.custody info.reserve s.world + info.vested ≤
      heldBy T info.custody info.reserve (run T s actions).world +
        due T.custody info.allocation last +
        ((record T s actions).map fun e =>
          takenOutside T info.custody e.1 e.2 + takenOutside T info.reserve e.1 e.2).sum := by
  obtain ⟨who', info', hmember', hle⟩ :=
    run_held T hT hS hne hcustody hreserve hlast hfits s actions horder who info hmember
  have hoverall : (record T s actions).map (fun e =>
        taken T info.custody e.1 e.2 + taken T info.reserve e.1 e.2) =
      (record T s actions).map fun e =>
        takenOutside T info.custody e.1 e.2 + takenOutside T info.reserve e.1 e.2 := by
    apply List.map_congr_left
    intro e he
    rw [record_taken hcustodyPot hothers e he, record_taken hreservePot hothers' e he]
  rw [hoverall] at hle
  -- what is vested by then is due
  have hdue : info'.vested ≤ due T.custody info.allocation last :=
    hmember'.keeps.vested_le.trans (Custody.due_mono hmember'.block_le)
  omega

/-! ## On the mock runtime -/

theorem wiredRuntime_sparesCustody : wiredRuntime.SparesCustody := by
  intro _ _ s s' h
  cases h
  rfl

/-- The account `8` has an allocation of `10000`, in the accounts `800` and `801`. -/
def mockTeam : State Nat Unit (VestedLedger Nat) :=
  onPart custodyPart (fun part => Custody.genesisBuild wiredRuntime.custody
    { custodians := [7], teamAllocations := [(8, 10000)] } part.ledger) (mockState 1000)

def mockMember : Custody.CustodyInfo Nat :=
  { allocation := 10000, vested := 0, custody := 800, reserve := 801 }

/-- Anybody may ask for the payouts, also too soon. -/
def mockPayouts : List (Action Nat Unit (VestedLedger Nat)) :=
  [.onInitialize 250 [] [], .extrinsic (.signed 4) (.other (.xxCustody (.payout 8))),
    .extrinsic (.signed 8) (.other (.xxCustody (.payout 8))), .onInitialize 310 [] [],
    .extrinsic (.signed 6) (.batch (.other (.xxCustody (.payout 8))) (.other (.foreign ())))]

theorem mockTeam_inCustody :
    InCustody wiredRuntime 800 801 10000 310 mockTeam 8 mockMember := by
  refine ⟨⟨by decide +kernel, rfl, rfl, rfl, Nat.zero_le _, fun x infoₓ hinfoₓ hx => ?_⟩,
    by decide +kernel⟩
  have hteam : (custodyPart.get mockTeam.world).teamAccounts =
      (∅ : StorageMap Nat (Custody.CustodyInfo Nat)).insert 8 mockMember := by decide +kernel
  rw [hteam, Finmap.lookup_insert_of_ne _ hx] at hinfoₓ
  cases hinfoₓ

theorem run_lockup_mock :
    heldBy wiredRuntime 800 801 mockTeam.world = 10000 ∧
      10000 ≤ heldBy wiredRuntime 800 801 (run wiredRuntime mockTeam mockPayouts).world + 3000 := by
  have hheld : heldBy wiredRuntime 800 801 mockTeam.world = 10000 := by decide +kernel
  have hle := run_lockup wiredRuntime wiredRuntime_lawful wiredRuntime_sparesCustody mockTeam 8
    mockMember 310 mockTeam_inCustody (by decide) (wiredRuntime_respects 800 (by decide))
    (wiredRuntime_respects 801 (by decide)) ⟨by decide, by decide, by decide⟩
    ⟨by decide, by decide, by decide⟩ (by decide) (by unfold Custody.ProductsFit; decide +kernel)
    mockPayouts (by decide +kernel) (by decide) (by decide)
  have hnothing : ((record wiredRuntime mockTeam mockPayouts).map fun e =>
      takenOutside wiredRuntime mockMember.custody e.1 e.2 +
        takenOutside wiredRuntime mockMember.reserve e.1 e.2).sum = 0 := by
    decide +kernel
  have hdue : due wiredRuntime.custody mockMember.allocation 310 = 3000 := by decide +kernel
  have hstart : mockMember.vested = 0 := rfl
  rw [hnothing, hdue, hstart] at hle
  have hle' : heldBy wiredRuntime 800 801 mockTeam.world ≤
    heldBy wiredRuntime 800 801 (run wiredRuntime mockTeam mockPayouts).world + 3000 := hle
  exact ⟨hheld, by omega⟩

end XXChain.Runtime
