import XXChain.Claims.Validation
import XXChain.Runtime.ClaimOwners
import XXChain.Runtime.Supply

/-!
# XXChain — claims stay payable

`process_claim` refuses a claim that the total does not cover, which is meant never to happen. The
calls of the claims pallet keep the total above the sum of the claims (`Claims.Solvent`). In the
runtime the betanet rewards pallet writes to both as well, when it is enacted, and any call may be
nested in others.

* **`happens_solvent`** — every entry of a record keeps the total above the claims, as long as it
  does not wrap;
* **`run_claims_payable`** — so does every run, and whoever may claim after it is paid.
-/

namespace XXChain.Runtime

open StorageMap
open Claims (EthereumAddress Solvent Addressed PaidBy VestingConflict)

variable {A F σ : Type} [DecidableEq A] {T : Config A F σ} {origin : Origin A}
  {s s' : State A F σ} {part part' : Betanet.State A σ}

/-- The rewards that a block leaves to the claims, which are drained as the list says. -/
def leftOver (enactmentBlock block : Nat) (approved : Bool)
    (rewards : List (EthereumAddress × Nat)) : Nat :=
  if block = enactmentBlock ∧ approved = true then (rewards.map Prod.snd).sum else 0

/-- What an entry of a record adds to the total of the claims. -/
def promisedBy (T : Config A F σ) (s : State A F σ) : Action A F σ → Nat
  | .extrinsic origin (.other (.claims call)) => mintedBy origin call
  | .onInitialize block _ rewards =>
    leftOver T.betanet.enactmentBlock block s.world.claims.handler.approved rewards
  | _ => 0

/-! ## The claims pallet -/

theorem claims_dispatch_total_le {call : Claims.Call A}
    (h : Claims.dispatch T.betanet.wired origin call part = .ok part') :
    part'.total ≤ part.total + mintedBy origin call := by
  have hpays : ∀ {signer dest}, PaidBy T.betanet.wired part part' signer dest →
      part'.total ≤ part.total := by
    rintro signer dest ⟨part₁, hprocess, hpart'⟩
    obtain ⟨v, _, _, _, hpart₁⟩ := Claims.processClaim_eq_ok.mp hprocess
    rw [hpart', hpart₁]
    exact Nat.sub_le part.total v
  cases call with
  | claim | claimAttest | attest =>
    obtain ⟨signer, dest, _, hpaidBy⟩ := Claims.dispatch_pays rfl h
    exact (hpays hpaidBy).trans (Nat.le_add_right _ _)
  | mintClaim who value vestingSchedules statement =>
    simp only [Claims.dispatch, Claims.mintClaim, bind_eq_ok, ensureRoot_eq_ok] at h
    obtain ⟨_, hroot, hpart'⟩ := h
    cases hpart'
    rw [hroot]
    exact Nat.mod_le (part.total + value) balanceLimit
  | moveClaim old new maybePreclaim =>
    simp only [Claims.dispatch, Claims.moveClaim, bind_eq_ok] at h
    obtain ⟨_, _, hpart'⟩ := h
    cases hpart'
    exact Nat.le_add_right _ _

theorem claims_dispatch_solvent {call : Claims.Call A} (hs : Solvent part)
    (hroom : part.total + mintedBy origin call < balanceLimit)
    (h : Claims.dispatch T.betanet.wired origin call part = .ok part') : Solvent part' := by
  -- only a claim that the root mints needs room
  have hfits : Claims.Fits part (origin, call) := by
    cases call with
    | mintClaim who value vestingSchedules statement =>
      rintro rfl
      exact hroom
    | claim | claimAttest | attest | moveClaim => trivial
  have hnext := Claims.solvent_next (T := T.betanet.wired) (.call origin call) hs hfits
  have happly : Claims.applyCall T.betanet.wired part (origin, call) = part' := by
    simp only [Claims.applyCall, h]
  rw [← happly]
  exact hnext

/-! ## The betanet rewards -/

omit [DecidableEq A] in
/-- A reward is added to the total, and to a claim if there is one. -/
theorem processLeftoverClaim_solvent (C : Betanet.Config A σ) (address : EthereumAddress)
    {reward : Nat} (hs : Solvent part) (hroom : part.total + reward < balanceLimit) :
    Solvent (Betanet.processLeftoverClaim C address reward part) ∧
      (Betanet.processLeftoverClaim C address reward part).total = part.total + reward := by
  have htotal : (Betanet.processLeftoverClaim C address reward part).total =
      part.total + reward :=
    Nat.mod_eq_of_lt hroom
  refine ⟨?_, htotal⟩
  unfold Solvent Claims.claimsSum at hs ⊢
  rw [htotal]
  unfold Betanet.processLeftoverClaim
  dsimp only
  split
  next claim hclaim =>
    -- the claim may wrap, the total does not, so it still covers the sum
    have hinsert := sumBy_insert id part.claims address ((claim + reward) % balanceLimit)
    have hwrapped := Nat.mod_le (claim + reward) balanceLimit
    rw [valueAt_of_some hclaim] at hinsert
    simp only [id_eq] at hinsert
    omega
  next => omega

omit [DecidableEq A] in
theorem processClaims_solvent (C : Betanet.Config A σ) {rewards : List (EthereumAddress × Nat)}
    (hs : Solvent part) (hroom : part.total + (rewards.map Prod.snd).sum < balanceLimit) :
    Solvent (Betanet.processClaims C rewards part) ∧
      (Betanet.processClaims C rewards part).total =
        part.total + (rewards.map Prod.snd).sum := by
  induction rewards generalizing part with
  | nil => exact ⟨hs, rfl⟩
  | cons entry rewards ih =>
    rw [List.map_cons, List.sum_cons] at hroom ⊢
    let taken : Betanet.State A σ := { part with rewards := part.rewards.erase entry.1 }
    have hfirstRoom : taken.total + entry.2 < balanceLimit := by
      show part.total + entry.2 < balanceLimit
      omega
    obtain ⟨hfirst, htotal⟩ := processLeftoverClaim_solvent C entry.1 (show Solvent taken from hs)
      hfirstRoom
    have hrestRoom : (Betanet.processLeftoverClaim C entry.1 entry.2 taken).total +
        (rewards.map Prod.snd).sum < balanceLimit := by
      rw [htotal, Nat.add_assoc]
      exact hroom
    obtain ⟨hrest, htotal'⟩ := ih hfirst hrestRoom
    refine ⟨hrest, ?_⟩
    rw [htotal, Nat.add_assoc] at htotal'
    exact htotal'

theorem processRewards_claims (C : Betanet.Config A σ) (accounts : List (A × Betanet.UserInfo))
    (part : Betanet.State A σ) :
    (Betanet.processRewards C accounts part).claims = part.claims ∧
      (Betanet.processRewards C accounts part).total = part.total := by
  induction accounts generalizing part with
  | nil => exact ⟨rfl, rfl⟩
  | cons entry accounts ih =>
    exact ih (Betanet.processAccount C entry.1 entry.2
      (Betanet.setAccounts (part.handler.accounts.erase entry.1) part))

/-- The hook of a block promises what is left over, or nothing. -/
theorem betanet_onInitialize_solvent (C : Betanet.Config A σ) (block : Nat)
    (accounts : List (A × Betanet.UserInfo)) {rewards : List (EthereumAddress × Nat)}
    (hs : Solvent part)
    (hroom : part.total +
      leftOver C.enactmentBlock block part.handler.approved rewards < balanceLimit) :
    Solvent (Betanet.onInitialize C block accounts rewards part) ∧
      (Betanet.onInitialize C block accounts rewards part).total ≤
        part.total + leftOver C.enactmentBlock block part.handler.approved rewards := by
  unfold Betanet.onInitialize
  split
  next hblock =>
    split
    next happroved =>
      have hleft : leftOver C.enactmentBlock block part.handler.approved rewards =
          (rewards.map Prod.snd).sum :=
        if_pos ⟨hblock, happroved⟩
      rw [hleft] at hroom ⊢
      obtain ⟨hclaims, htotal⟩ := processRewards_claims C accounts part
      have hpaid : Solvent (Betanet.processRewards C accounts part) := by
        unfold Solvent Claims.claimsSum
        rw [hclaims, htotal]
        exact hs
      rw [← htotal] at hroom ⊢
      obtain ⟨htopped, htotal'⟩ := processClaims_solvent C hpaid hroom
      exact ⟨htopped, htotal'.le⟩
    next => exact ⟨hs, Nat.le_add_right _ _⟩
  next => exact ⟨hs, Nat.le_add_right _ _⟩

/-! ## Every step -/

/-- An option and the approval of the program leave the claims. -/
theorem betanetDispatch_claims {C : Betanet.Config A σ} {call : BetanetCall}
    (h : betanetDispatch C call origin part = .ok part') : part'.claims = part.claims := by
  obtain ⟨_, rfl⟩ := betanetDispatch_frame h
  rfl

theorem palletDispatch_solvent (hS : T.SparesClaims) {call : PalletCall A F}
    (hs : Solvent s.world.claims)
    (hroom : s.world.claims.total +
      promisedBy T s (.extrinsic origin (.other call)) < balanceLimit)
    (h : palletDispatch T call origin s = .ok s') :
    Solvent s'.world.claims ∧ s'.world.claims.total ≤
      s.world.claims.total + promisedBy T s (.extrinsic origin (.other call)) := by
  cases call with
  | claims call =>
    obtain ⟨part, hrun, hs'⟩ := through_ok h
    have hpart : Solvent (claimsPart.get s.world) := hs
    have hsolvent := claims_dispatch_solvent hpart hroom hrun
    have htotal := claims_dispatch_total_le hrun
    rw [hs']
    exact ⟨hsolvent, htotal⟩
  | xxBetanetRewards call =>
    obtain ⟨part, hrun, hs'⟩ := through_ok h
    have htotal := betanetDispatch_total hrun
    have hclaims := betanetDispatch_claims hrun
    rw [hs']
    refine ⟨?_, htotal.le⟩
    show sumBy id part.claims ≤ part.total
    rw [hclaims, htotal]
    exact hs
  | swap call =>
    obtain ⟨s₁, _, hs'⟩ := swapDispatch_ok h
    rw [hs']
    exact ⟨hs, Nat.le_add_right _ _⟩
  | xxCmix | xxEconomics | xxCustody | xxPublic =>
    obtain ⟨part, _, hs'⟩ := through_ok h
    rw [hs']
    exact ⟨hs, Nat.le_add_right _ _⟩
  | foreign call =>
    have hsame : s'.world.claims = s.world.claims := hS call origin s s' h
    rw [hsame]
    exact ⟨hs, Nat.le_add_right _ _⟩

variable [DecidableEq F]

/-- Every entry of a record keeps the claims covered, as long as there is room in the total. -/
theorem happens_solvent (hS : T.SparesClaims) {action : Action A F σ}
    (hs : Solvent s.world.claims)
    (hroom : s.world.claims.total + promisedBy T s action < balanceLimit)
    (h : Happens T s action s') :
    Solvent s'.world.claims ∧
      s'.world.claims.total ≤ s.world.claims.total + promisedBy T s action := by
  cases action with
  | extrinsic origin call =>
    rcases Chainbridge.executes_cases h with ⟨pallet, hcall, hrun⟩ | hadmin
    · subst hcall
      exact palletDispatch_solvent hS hs hroom hrun
    · rw [hadmin.world]
      exact ⟨hs, Nat.le_add_right _ _⟩
  | onInitialize block accounts rewards =>
    rw [show s' = _ from h]
    have hpart : Solvent (claimsPart.get (s.world.setBlock block)) := hs
    exact betanet_onInitialize_solvent T.betanet block accounts hpart hroom
  | eraPayout totalStaked totalIssuance eraDurationMillis =>
    obtain ⟨_, hera⟩ := eraPayout_frame T totalStaked totalIssuance eraDurationMillis s
    rw [show s' = _ from Eq.trans h hera]
    exact ⟨hs, Nat.le_add_right _ _⟩
  | endEra | payRewards | payRemainder | elsewhere =>
    rw [show s' = _ from h]
    exact ⟨hs, Nat.le_add_right _ _⟩

/-- Over any run whose promises fit, the total covers the claims. -/
theorem run_covered (hS : T.SparesClaims) (hs : Solvent s.world.claims)
    {actions : List (Action A F σ)}
    (hroom : s.world.claims.total +
      ((record T s actions).map fun e => promisedBy T e.1 e.2).sum < balanceLimit) :
    Solvent (run T s actions).world.claims := by
  have hrun := Trace.within (I := fun s : State A F σ => Solvent s.world.claims)
    (fun s => s.world.claims.total) (promisedBy T)
    (fun s s' hs hquiet => by
      rw [hquiet.world]
      exact ⟨hs, Nat.le_refl _⟩)
    (fun s action s' hs hroom hstep => happens_solvent hS hs hroom hstep)
    hs (run_trace T s actions) hroom
  exact hrun.1

/-- **Claims stay payable.** If the total covers the claims at the start of a run and what the run
promises fits, then after it a call by which somebody may claim pays the claim, whatever has
happened, as far as the currency accepts the deposit: in full, unless the account is not there and
the claim is below the existential deposit. The call only fails if the claim has schedules and the
account vests already, and then it changes nothing. -/
theorem run_claims_payable (T : Config A F σ) (hT : T.Lawful) (hS : T.SparesClaims)
    (s : State A F σ) (hsolvent : Solvent s.world.claims) (actions : List (Action A F σ))
    (hroom : s.world.claims.total +
      ((record T s actions).map fun e => promisedBy T e.1 e.2).sum < balanceLimit)
    (s' : State A F σ) (hs' : s' = run T s actions) (origin : Origin A) (call : Claims.Call A)
    (signer : EthereumAddress) (dest : A)
    (haddressed : Addressed T.betanet.wired (claimsPart.get s'.world) signer dest (origin, call))
    (hclaim : (s'.world.claims.claims.lookup signer).isSome) :
    if VestingConflict T.betanet.wired (claimsPart.get s'.world) signer dest then
      next T s' (.extrinsic origin (.other (.claims call))) = s'
    else
      ∃ part v, PaidBy T.betanet.wired (claimsPart.get s'.world) part signer dest ∧
        next T s' (.extrinsic origin (.other (.claims call))) =
          { s' with world := claimsPart.put s'.world part } ∧
        PaysClaim T signer dest v s' (next T s' (.extrinsic origin (.other (.claims call)))) := by
  have hcovered : Solvent (claimsPart.get s'.world) := by
    rw [hs']
    exact run_covered hS hsolvent hroom
  obtain ⟨balanceDue, hclaim⟩ := Option.isSome_iff_exists.mp hclaim
  have hprocess := Claims.processClaim_of_covered (T := T.betanet.wired) dest hclaim
    (hcovered.covers hclaim)
  -- the extrinsic is the call on the part of the claims
  have hdispatch : Chainbridge.dispatch T.bridge (.other (.claims call)) origin s' =
      through claimsPart (Claims.dispatch T.betanet.wired origin call) s' := rfl
  have hnext : next T s' (.extrinsic origin (.other (.claims call))) =
      Chainbridge.applyExtrinsic T.bridge origin (.other (.claims call)) s' := rfl
  rw [hnext, Chainbridge.applyExtrinsic, hdispatch, through]
  split
  next hconflict =>
    rw [if_pos hconflict] at hprocess
    rw [haddressed.dispatch_error hprocess]
  next hconflict =>
    rw [if_neg hconflict] at hprocess
    obtain ⟨part, hpart, hpaid⟩ := haddressed.dispatch (Claims.processClaim_ok_iff.mp hprocess)
    obtain ⟨v, hpays⟩ := hpaid.pays (T := T.betanet.wired) (claims_currency_lawful hT) hT.claims
    rw [hpart]
    exact ⟨part, v, hpaid, rfl, pays_paysClaim hpays⟩

/-- The owner has a claim of `100`, with a reward of `20`. -/
def mockEntitled : State Nat Unit (VestedLedger Nat) :=
  { mockState 1000 with
    world := { (mockState 1000).world with
      claims := Claims.genesisBuild
        { claims := [⟨mockOwner, 100, some 20, none, none⟩], vesting := [] } ()
        (Betanet.genesisBuild []) } }

/-- The root mints a claim of another address and approves the program, in one batch; then the
program is enacted. -/
def mockPromises : List (Action Nat Unit (VestedLedger Nat)) :=
  [.extrinsic .root (.batch
      (.other (.claims (.mintClaim (Claims.mockAddress 1) 200 none none)))
      (.other (.xxBetanetRewards .approve))),
    .onInitialize 100 [] [(mockOwner, 20)]]

theorem run_claims_payable_mock :
    let s' := run signingRuntime mockEntitled mockPromises
    ∃ v, PaysClaim signingRuntime mockOwner 42 v s'
      (next signingRuntime s' (.extrinsic .none (.other (.claims (.claim 42 mockSignature))))) := by
  intro s'
  have hsolvent : Solvent mockEntitled.world.claims := by
    show Claims.claimsSum mockEntitled.world.claims ≤ 100
    decide +kernel
  have hpaid := run_claims_payable signingRuntime signingRuntime_lawful
    (fun _ _ s s' h => by cases h; rfl) mockEntitled hsolvent mockPromises (by decide +kernel)
    s' rfl .none (.claim 42 mockSignature) mockOwner 42
    ⟨rfl, rfl, by decide +kernel, by decide +kernel⟩ (by decide +kernel)
  have hfree : ¬VestingConflict signingRuntime.betanet.wired (claimsPart.get s'.world) mockOwner
      42 := by decide +kernel
  rw [if_neg hfree] at hpaid
  obtain ⟨_, v, _, _, hpays⟩ := hpaid
  exact ⟨v, hpays⟩

end XXChain.Runtime
