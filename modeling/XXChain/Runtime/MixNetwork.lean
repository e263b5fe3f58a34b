import XXChain.Lib.Buffered
import XXChain.Runtime.Blocks

/-!
# XXChain — the mix network's settings over the eras

The servers of the mix network read their software hashes and their variables from the chain. Over
any run of the runtime:

* **`run_cmixVariables`** — the variables in force are those that were set last before the end of
  an era;
* **`run_hashes_frozen`** — once the admin's permission has expired the hashes stay as they are,
  until the root extends it.
-/

namespace XXChain.Runtime

variable {A F σ : Type} [DecidableEq A] {T : Config A F σ} {origin : Origin A}
  {s s' : State A F σ}

/-- The pallets that are not of this repository do not write to the storage of the cmix pallet. -/
def Config.SparesCmix (T : Config A F σ) : Prop :=
  ∀ call o s s', T.foreign call o s = .ok s' → s'.world.xxCmix = s.world.xxCmix

/-! ## What happens to the pallet -/

/-- What a call of the pallet does once it is allowed. -/
def performed (C : Cmix.Config A σ) (call : Cmix.Call A) (part : Cmix.State A σ) :
    Cmix.State A σ :=
  match call with
  | .setCmixHashes hashes => { part with cmixHashes := hashes }.depositEvent .cmixHashesUpdated
  | .setSchedulingAccount who =>
    { part with schedulingAccount := some who }.depositEvent .schedulingAccountUpdated
  | .setNextCmixVariables vars => { part with nextCmixVariables := some vars }
  | .submitCmixPoints data => (Cmix.rewardCmixPoints C data part).depositEvent .cmixPointsAdded
  | .submitCmixDeductions data =>
    (Cmix.deductCmixPoints C data part).depositEvent .cmixPointsDeducted
  | .setCmixAddressSpace size =>
    { part with cmixAddressSpace := size }.depositEvent .cmixAddressSpaceUpdated
  | .setAdminPermission permission =>
    { part with adminPermission := permission }.depositEvent (.adminPermissionUpdated permission)

theorem dispatch_performed {C : Cmix.Config A σ} {call : Cmix.Call A}
    {part part' : Cmix.State A σ} (h : Cmix.dispatch C call origin part = .ok part') :
    part' = performed C call part := by
  cases call with
  | setCmixHashes =>
    simp only [Cmix.dispatch, Cmix.setCmixHashes, bind_eq_ok] at h
    obtain ⟨_, _, _, _, hpart⟩ := h
    exact (Except.ok.inj hpart).symm
  | setSchedulingAccount =>
    simp only [Cmix.dispatch, Cmix.setSchedulingAccount, bind_eq_ok] at h
    obtain ⟨_, _, hpart⟩ := h
    exact (Except.ok.inj hpart).symm
  | setNextCmixVariables =>
    simp only [Cmix.dispatch, Cmix.setNextCmixVariables, bind_eq_ok] at h
    obtain ⟨_, _, hpart⟩ := h
    exact (Except.ok.inj hpart).symm
  | submitCmixPoints =>
    simp only [Cmix.dispatch, Cmix.submitCmixPoints, bind_eq_ok] at h
    obtain ⟨_, _, _, _, hpart⟩ := h
    exact (Except.ok.inj hpart).symm
  | submitCmixDeductions =>
    simp only [Cmix.dispatch, Cmix.submitCmixDeductions, bind_eq_ok] at h
    obtain ⟨_, _, _, _, hpart⟩ := h
    exact (Except.ok.inj hpart).symm
  | setCmixAddressSpace =>
    simp only [Cmix.dispatch, Cmix.setCmixAddressSpace, bind_eq_ok] at h
    obtain ⟨_, _, _, _, hpart⟩ := h
    exact (Except.ok.inj hpart).symm
  | setAdminPermission =>
    simp only [Cmix.dispatch, Cmix.setAdminPermission, bind_eq_ok] at h
    obtain ⟨_, _, hpart⟩ := h
    exact (Except.ok.inj hpart).symm

/-- The hashes are set within the admin's permission. -/
theorem setCmixHashes_allowed {C : Cmix.Config A σ} {hashes : Cmix.SoftwareHashes}
    {part part' : Cmix.State A σ}
    (h : Cmix.dispatch C (.setCmixHashes hashes) origin part = .ok part') :
    part.block ≤ part.adminPermission := by
  simp only [Cmix.dispatch, Cmix.setCmixHashes, bind_eq_ok] at h
  obtain ⟨_, _, _, hallowed, _⟩ := h
  simpa only [Cmix.ensureAdminAllowedCmixHashes, ensure_eq_ok, decide_eq_true_eq] using hallowed

omit [DecidableEq A] in
/-- What an action does to the variables. -/
def variablesOp : Action A F σ → Option (BufferOp Cmix.Variables)
  | .extrinsic _ (.other (.xxCmix (.setNextCmixVariables vars))) => some (.write vars)
  | .endEra => some .commit
  | _ => none

/-- What an entry of a record may do to the storage of the pallet. -/
inductive CmixChange (T : Config A F σ) (s s' : State A F σ) : Action A F σ → Prop where
  | call {call : Cmix.Call A} {origin : Origin A} {part : Cmix.State A σ}
      (hrun : Cmix.dispatch T.cmix call origin (cmixPart.get s.world) = .ok part)
      (hs' : s'.world = cmixPart.put s.world part) :
      CmixChange T s s' (.extrinsic origin (.other (.xxCmix call)))
  | endEra (hs' : s'.world = cmixPart.put s.world (Cmix.endEra (cmixPart.get s.world))) :
      CmixChange T s s' .endEra
  | block {n : Nat} {accounts : List (A × Betanet.UserInfo)}
      {rewards : List (Claims.EthereumAddress × Nat)}
      (hs' : s'.world.xxCmix = { s.world.xxCmix with block := n }) :
      CmixChange T s s' (.onInitialize n accounts rewards)
  | quiet {action : Action A F σ} (hop : variablesOp action = none)
      (hs' : s'.world.xxCmix = s.world.xxCmix) : CmixChange T s s' action

theorem palletDispatch_cmix (hS : T.SparesCmix) {call : PalletCall A F}
    (h : palletDispatch T call origin s = .ok s') :
    CmixChange T s s' (.extrinsic origin (.other call)) := by
  cases call with
  | xxCmix call =>
    obtain ⟨part, hrun, hs'⟩ := through_ok h
    exact .call hrun (by rw [hs'])
  | swap call =>
    obtain ⟨s₁, _, hs'⟩ := swapDispatch_ok h
    exact .quiet rfl (by rw [hs']; rfl)
  | claims | xxEconomics | xxCustody | xxBetanetRewards | xxPublic =>
    obtain ⟨part, _, hs'⟩ := through_ok h
    exact .quiet rfl (by rw [hs']; rfl)
  | foreign call => exact .quiet rfl (hS call origin s s' h)

variable [DecidableEq F]

theorem happens_cmix (hS : T.SparesCmix) {action : Action A F σ} (h : Happens T s action s') :
    CmixChange T s s' action := by
  cases action with
  | extrinsic origin call =>
    cases call with
    | other pallet => exact palletDispatch_cmix hS h.2
    | setThreshold | setResource | removeResource | whitelistChain | addRelayer | removeRelayer
    | acknowledgeProposal | rejectProposal | evalVoteState | batchAll | batch | dispatchAs =>
      rcases Chainbridge.executes_cases h with ⟨pallet, hcall, _⟩ | hadmin
      · cases hcall
      · exact .quiet rfl (by rw [hadmin.world])
  | onInitialize n accounts rewards =>
    rw [show s' = _ from h]
    exact .block rfl
  | endEra =>
    rw [show s' = _ from h]
    exact .endEra rfl
  | eraPayout totalStaked totalIssuance eraDurationMillis =>
    obtain ⟨_, hera⟩ := eraPayout_frame T totalStaked totalIssuance eraDurationMillis s
    rw [show s' = _ from Eq.trans h hera]
    exact .quiet rfl rfl
  | payRewards | payRemainder | elsewhere =>
    rw [show s' = _ from h]
    exact .quiet rfl rfl

/-! ## The variables -/

/-- The variables in force, and those set for the next era. -/
def variablesOf (s : State A F σ) : Buffered Cmix.Variables where
  current := s.world.xxCmix.cmixVariables
  next := s.world.xxCmix.nextCmixVariables

/-- The writes and commits of the variables in a record. -/
def variablesOps (entries : List (State A F σ × Action A F σ)) :
    List (BufferOp Cmix.Variables) :=
  entries.filterMap fun e => variablesOp e.2

omit [DecidableEq F] in
/-- The variables do what the entry says. -/
theorem CmixChange.variables {action : Action A F σ} (h : CmixChange T s s' action) :
    variablesOf s' = ((variablesOp action).map (variablesOf s).apply).getD (variablesOf s) := by
  cases h with
  | @call call origin part hrun hs' =>
    unfold variablesOf
    rw [hs', dispatch_performed hrun]
    cases call <;> rfl
  | endEra hs' =>
    obtain ⟨_, hera⟩ := Cmix.endEra_eq (cmixPart.get s.world)
    rw [hera] at hs'
    unfold variablesOf
    rw [hs']
    rfl
  | block hs' =>
    unfold variablesOf
    rw [hs']
    rfl
  | quiet hop hs' =>
    unfold variablesOf
    rw [hs', hop]
    rfl

/-- **The variables in force** are those that were set last before the end of an era, over any run
with its proposals, batches and calls under other origins; what was pending at first counts as
set. -/
theorem run_cmixVariables (T : Config A F σ) (hS : T.SparesCmix) (s : State A F σ)
    (actions : List (Action A F σ)) :
    (run T s actions).world.xxCmix.cmixVariables =
      ((variablesOf s).pending (variablesOps (record T s actions)) ++
          BufferOp.committed (variablesOps (record T s actions))).getLast?.getD
        s.world.xxCmix.cmixVariables := by
  have hview := (run_trace T s actions).view_eq variablesOf
    (fun b e => ((variablesOp e.2).map b.apply).getD b)
    (fun s s' hquiet => by unfold variablesOf; rw [hquiet.world])
    (fun s action s' hstep => (happens_cmix hS hstep).variables)
  have hrun : (record T s actions).foldl
      (fun b e => ((variablesOp e.2).map b.apply).getD b) (variablesOf s) =
        (variablesOf s).run (variablesOps (record T s actions)) := by
    unfold Buffered.run variablesOps
    rw [List.foldl_filterMap]
    congr 1
    funext b e
    cases variablesOp e.2 <;> rfl
  rw [hrun] at hview
  exact (congrArg Buffered.current hview).trans
    (Buffered.run_current (variablesOf s) (variablesOps (record T s actions)))

/-! ## The hashes -/

omit [DecidableEq A] [DecidableEq F] in
/-- The admin may not change the hashes any more. -/
def Expired (s : State A F σ) : Prop :=
  s.world.xxCmix.adminPermission < s.world.xxCmix.block

instance (s : State A F σ) : Decidable (Expired s) :=
  Nat.decLt _ _

omit [DecidableEq A] [DecidableEq F] in
/-- The permission is not extended, and no block is before the one that it follows. -/
def keepsExpired : State A F σ × Action A F σ → Bool
  | (_, .extrinsic _ (.other (.xxCmix (.setAdminPermission _)))) => false
  | (s, .onInitialize block _ _) => decide (s.world.xxCmix.block ≤ block)
  | _ => true

omit [DecidableEq A] [DecidableEq F] in
/-- The hashes are the same, and stay so. -/
def Frozen (s s' : State A F σ) : Prop :=
  Expired s → Expired s' ∧ s'.world.xxCmix.cmixHashes = s.world.xxCmix.cmixHashes

omit [DecidableEq A] [DecidableEq F] in
theorem Frozen.of_same (hpermission : s'.world.xxCmix.adminPermission =
      s.world.xxCmix.adminPermission)
    (hblock : s.world.xxCmix.block ≤ s'.world.xxCmix.block)
    (hhashes : s'.world.xxCmix.cmixHashes = s.world.xxCmix.cmixHashes) : Frozen s s' := by
  intro hexpired
  refine ⟨?_, hhashes⟩
  unfold Expired at hexpired ⊢
  omega

omit [DecidableEq F] in
theorem CmixChange.frozen {action : Action A F σ} (h : CmixChange T s s' action)
    (hkeeps : keepsExpired (s, action) = true) : Frozen s s' := by
  cases h with
  | @call call origin part hrun hs' =>
    have hworld : s'.world.xxCmix =
        { performed T.cmix call (cmixPart.get s.world) with ledger := () } := by
      rw [hs', dispatch_performed hrun]
      rfl
    cases call with
    | setCmixHashes hashes =>
      have hallowed := setCmixHashes_allowed hrun
      have hle : s.world.xxCmix.block ≤ s.world.xxCmix.adminPermission := hallowed
      intro hexpired
      unfold Expired at hexpired
      omega
    | setAdminPermission permission => exact absurd hkeeps Bool.false_ne_true
    | setNextCmixVariables | setSchedulingAccount | submitCmixPoints | submitCmixDeductions
    | setCmixAddressSpace =>
      exact .of_same (by rw [hworld]; rfl) (by rw [hworld]; exact le_rfl) (by rw [hworld]; rfl)
  | endEra hs' =>
    obtain ⟨_, hera⟩ := Cmix.endEra_eq (cmixPart.get s.world)
    rw [hera] at hs'
    exact .of_same (by rw [hs']; rfl) (by rw [hs']; exact le_rfl) (by rw [hs']; rfl)
  | @block n accounts rewards hs' =>
    have hle : s.world.xxCmix.block ≤ n := of_decide_eq_true hkeeps
    exact .of_same (by rw [hs']) (by rw [hs']; exact hle) (by rw [hs'])
  | quiet _ hs' => exact .of_same (by rw [hs']) (by rw [hs']) (by rw [hs'])

/-- **Expired hashes.** From a block on that the admin's permission does not reach, no run changes
the hashes, whatever the admins sign, until the root extends the permission. -/
theorem run_hashes_frozen (T : Config A F σ) (hS : T.SparesCmix) (s : State A F σ)
    (hexpired : Expired s) (actions : List (Action A F σ))
    (hkeeps : ∀ e ∈ record T s actions, keepsExpired e = true) :
    (run T s actions).world.xxCmix.cmixHashes = s.world.xxCmix.cmixHashes := by
  have hfrozen : Frozen s (run T s actions) :=
    (run_trace T s actions).keeps (P := fun s action => keepsExpired (s, action) = true)
      (fun _ hexpired => ⟨hexpired, rfl⟩)
      (fun _ _ _ hfirst hsecond hexpired =>
        ⟨(hsecond (hfirst hexpired).1).1,
          (hsecond (hfirst hexpired).1).2.trans (hfirst hexpired).2⟩)
      (fun _ _ hquiet => .of_same (by rw [hquiet.world]) (by rw [hquiet.world])
        (by rw [hquiet.world]))
      (fun _ _ _ hkept hstep => (happens_cmix hS hstep).frozen hkept) hkeeps
  exact (hfrozen hexpired).2

/-! ## On the mock runtime -/

theorem wiredRuntime_sparesCmix : wiredRuntime.SparesCmix := by
  intro _ _ s s' h
  cases h
  rfl

/-- Variables with teams of `n`. -/
def mockVariables (n : UInt8) : Cmix.Variables :=
  { (default : Cmix.Variables) with
    scheduling := { (default : Cmix.Scheduling) with teamSize := n } }

/-- The variables are set twice in an era and once after it, and the admin comes too late with new
hashes. -/
def mockEras : List (Action Nat Unit (VestedLedger Nat)) :=
  [.extrinsic (.other 1) (.other (.xxCmix (.setNextCmixVariables (mockVariables 4)))),
    .extrinsic (.other 1) (.other (.xxCmix (.setNextCmixVariables (mockVariables 5)))),
    .extrinsic (.other 0) (.other (.xxCmix (.setCmixHashes default))), .endEra,
    .onInitialize 2 [] [],
    .extrinsic .root (.batch (.other (.xxCmix (.setNextCmixVariables (mockVariables 6))))
      (.other (.foreign ())))]

theorem run_cmixVariables_mock :
    (run wiredRuntime (mockState 1000) mockEras).world.xxCmix.cmixVariables = mockVariables 5 :=
  (run_cmixVariables wiredRuntime wiredRuntime_sparesCmix (mockState 1000) mockEras).trans
    (by decide +kernel)

theorem run_hashes_frozen_mock :
    (run wiredRuntime (mockState 1000) mockEras).world.xxCmix.cmixHashes =
      (mockState 1000).world.xxCmix.cmixHashes :=
  run_hashes_frozen wiredRuntime wiredRuntime_sparesCmix (mockState 1000) (by decide) mockEras
    (by decide +kernel)

end XXChain.Runtime
