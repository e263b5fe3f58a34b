import XXChain.Frame

/-!
# XXChain — the cmix pallet

`xx-cmix/src`: the hashes and variables of the mix network (`cmix.rs`), the calls that set them
and the points that the scheduling server submits (`lib.rs`). The points go to the staking
pallet, which with the currency is the state `ledger`.
-/

namespace XXChain.Cmix

/-! ## Hashes and variables -/

abbrev Hash := Vector UInt8 32

structure SoftwareHashes where
  server : Hash
  fatbin : Hash
  libpow : Hash
  gateway : Hash
  scheduling : Hash
  wrapper : Hash
  udb : Hash
  notifications : Hash
  extra : Option (List Hash)
  deriving DecidableEq, Inhabited

/-- Points for rounds that succeed, for rounds that fail, and for a block produced. -/
structure RewardPoints where
  success : UInt32
  failure : UInt32
  block : UInt32
  deriving DecidableEq, Repr, Inhabited

/-- Countries have two letters, and are in geographic bins that multiply the points. -/
structure Performance where
  period : UInt64
  points : RewardPoints
  countries : List ((UInt8 × UInt8) × UInt8)
  multipliers : List (UInt8 × UInt16)
  deriving DecidableEq, Repr, Inhabited

structure Timeouts where
  precomputation : UInt64
  realtime : UInt64
  advertisement : UInt64
  deriving DecidableEq, Repr, Inhabited

/-- The threshold of the pool is in parts per million. -/
structure Scheduling where
  teamSize : UInt8
  batchSize : UInt32
  minDelay : UInt64
  poolThreshold : UInt32
  deriving DecidableEq, Repr, Inhabited

structure UserRegistration where
  max : UInt32
  period : UInt64
  deriving DecidableEq, Repr, Inhabited

structure Variables where
  performance : Performance
  timeouts : Timeouts
  scheduling : Scheduling
  registration : UserRegistration
  deriving DecidableEq, Repr, Inhabited

def Variables.getBlockPoints (v : Variables) : UInt32 :=
  v.performance.points.block

/-! ## Configuration and storage -/

inductive Call (A : Type) where
  | setCmixHashes (hashes : SoftwareHashes)
  | setSchedulingAccount (who : A)
  | setNextCmixVariables (vars : Variables)
  | submitCmixPoints (data : List (A × UInt32))
  | submitCmixDeductions (data : List (A × UInt32))
  | setCmixAddressSpace (size : UInt8)
  | setAdminPermission (permission : Nat)
  deriving DecidableEq

inductive Event where
  | cmixHashesUpdated
  | adminPermissionUpdated (permission : Nat)
  | schedulingAccountUpdated
  | cmixVariablesUpdated
  | cmixAddressSpaceUpdated
  | cmixPointsAdded
  | cmixPointsDeducted
  deriving DecidableEq, Repr

inductive Error where
  | adminPermissionExpired
  | mustBeScheduling
  deriving DecidableEq, Repr

/-- `rewardByIds` and `deductByIds` are the staking pallet's. -/
structure Config (A σ : Type) where
  adminOrigin : Origin A → Bool
  cmixVariablesOrigin : Origin A → Bool
  rewardByIds : σ → List (A × UInt32) → σ
  deductByIds : σ → List (A × UInt32) → σ

/-- The storage of the pallet, the block number and the events. -/
structure State (A σ : Type) where
  block : Nat
  cmixHashes : SoftwareHashes
  adminPermission : Nat
  schedulingAccount : Option A
  cmixAddressSpace : UInt8
  nextCmixVariables : Option Variables
  cmixVariables : Variables
  ledger : σ
  events : List Event

abbrev DispatchResult : Type → Type := Except (DispatchError Error)

variable {A σ : Type}

def State.depositEvent (s : State A σ) (event : Event) : State A σ :=
  { s with events := s.events ++ [event] }

/-! ## Utility methods -/

def ensureAdmin (T : Config A σ) (o : Origin A) : DispatchResult Unit :=
  if T.adminOrigin o then .ok () else ensureRoot o

/-- Checks if the admin is still allowed to modify the hashes. -/
def ensureAdminAllowedCmixHashes (s : State A σ) : DispatchResult Unit :=
  ensure (decide (s.block ≤ s.adminPermission)) (.module .adminPermissionExpired)

def isScheduling [DecidableEq A] (who : A) (s : State A σ) : Bool :=
  match s.schedulingAccount with
  | some sched => decide (who = sched)
  | none => false

def ensureCmixVariables (T : Config A σ) (o : Origin A) : DispatchResult Unit :=
  if T.cmixVariablesOrigin o then .ok () else ensureRoot o

def rewardCmixPoints (T : Config A σ) (data : List (A × UInt32)) (s : State A σ) : State A σ :=
  { s with ledger := T.rewardByIds s.ledger data }

def deductCmixPoints (T : Config A σ) (data : List (A × UInt32)) (s : State A σ) : State A σ :=
  { s with ledger := T.deductByIds s.ledger data }

/-! ## Dispatchables -/

def setCmixHashes (T : Config A σ) (origin : Origin A) (hashes : SoftwareHashes)
    (s : State A σ) : DispatchResult (State A σ) := do
  ensureAdmin T origin
  ensureAdminAllowedCmixHashes s
  .ok ({ s with cmixHashes := hashes }.depositEvent .cmixHashesUpdated)

def setSchedulingAccount (T : Config A σ) (origin : Origin A) (who : A) (s : State A σ) :
    DispatchResult (State A σ) := do
  ensureAdmin T origin
  .ok ({ s with schedulingAccount := some who }.depositEvent .schedulingAccountUpdated)

/-- The new variables are written at the end of the era. -/
def setNextCmixVariables (T : Config A σ) (origin : Origin A) (vars : Variables)
    (s : State A σ) : DispatchResult (State A σ) := do
  ensureCmixVariables T origin
  .ok { s with nextCmixVariables := some vars }

def submitCmixPoints [DecidableEq A] (T : Config A σ) (origin : Origin A)
    (data : List (A × UInt32)) (s : State A σ) : DispatchResult (State A σ) := do
  let who ← ensureSigned origin
  ensure (isScheduling who s) (.module .mustBeScheduling)
  .ok ((rewardCmixPoints T data s).depositEvent .cmixPointsAdded)

def submitCmixDeductions [DecidableEq A] (T : Config A σ) (origin : Origin A)
    (data : List (A × UInt32)) (s : State A σ) : DispatchResult (State A σ) := do
  let who ← ensureSigned origin
  ensure (isScheduling who s) (.module .mustBeScheduling)
  .ok ((deductCmixPoints T data s).depositEvent .cmixPointsDeducted)

def setCmixAddressSpace [DecidableEq A] (origin : Origin A) (size : UInt8) (s : State A σ) :
    DispatchResult (State A σ) := do
  let who ← ensureSigned origin
  ensure (isScheduling who s) (.module .mustBeScheduling)
  .ok ({ s with cmixAddressSpace := size }.depositEvent .cmixAddressSpaceUpdated)

def setAdminPermission (origin : Origin A) (permission : Nat) (s : State A σ) :
    DispatchResult (State A σ) := do
  ensureRoot origin
  .ok ({ s with adminPermission := permission }.depositEvent (.adminPermissionUpdated permission))

def dispatch [DecidableEq A] (T : Config A σ) (call : Call A) (origin : Origin A)
    (s : State A σ) : DispatchResult (State A σ) :=
  match call with
  | .setCmixHashes hashes => setCmixHashes T origin hashes s
  | .setSchedulingAccount who => setSchedulingAccount T origin who s
  | .setNextCmixVariables vars => setNextCmixVariables T origin vars s
  | .submitCmixPoints data => submitCmixPoints T origin data s
  | .submitCmixDeductions data => submitCmixDeductions T origin data s
  | .setCmixAddressSpace size => setCmixAddressSpace origin size s
  | .setAdminPermission permission => setAdminPermission origin permission s

/-- The calls reach the staking pallet by their points only. -/
theorem dispatch_ledger [DecidableEq A] {T : Config A σ} {call : Call A} {origin : Origin A}
    {s s' : State A σ} (h : dispatch T call origin s = .ok s') :
    s'.ledger = s.ledger ∨ (∃ data, s'.ledger = T.rewardByIds s.ledger data) ∨
      ∃ data, s'.ledger = T.deductByIds s.ledger data := by
  cases call with
  | setCmixHashes hashes =>
    simp only [dispatch, setCmixHashes, bind_eq_ok] at h
    obtain ⟨_, _, _, _, hs'⟩ := h
    cases hs'
    exact Or.inl rfl
  | setSchedulingAccount who =>
    simp only [dispatch, setSchedulingAccount, bind_eq_ok] at h
    obtain ⟨_, _, hs'⟩ := h
    cases hs'
    exact Or.inl rfl
  | setNextCmixVariables vars =>
    simp only [dispatch, setNextCmixVariables, bind_eq_ok] at h
    obtain ⟨_, _, hs'⟩ := h
    cases hs'
    exact Or.inl rfl
  | submitCmixPoints data =>
    simp only [dispatch, submitCmixPoints, bind_eq_ok] at h
    obtain ⟨_, _, _, _, hs'⟩ := h
    cases hs'
    exact Or.inr (Or.inl ⟨data, rfl⟩)
  | submitCmixDeductions data =>
    simp only [dispatch, submitCmixDeductions, bind_eq_ok] at h
    obtain ⟨_, _, _, _, hs'⟩ := h
    cases hs'
    exact Or.inr (Or.inr ⟨data, rfl⟩)
  | setCmixAddressSpace size =>
    simp only [dispatch, setCmixAddressSpace, bind_eq_ok] at h
    obtain ⟨_, _, _, _, hs'⟩ := h
    cases hs'
    exact Or.inl rfl
  | setAdminPermission permission =>
    simp only [dispatch, setAdminPermission, bind_eq_ok] at h
    obtain ⟨_, _, hs'⟩ := h
    cases hs'
    exact Or.inl rfl

/-! ## The handler of the staking pallet -/

def getBlockPoints (s : State A σ) : UInt32 :=
  s.cmixVariables.getBlockPoints

/-- The variables set for the next era come into force. -/
def endEra (s : State A σ) : State A σ :=
  match s.nextCmixVariables with
  | some next =>
    { s with nextCmixVariables := none, cmixVariables := next }.depositEvent .cmixVariablesUpdated
  | none => s

/-- What was set for the next era is in force, and the rest is as it was. -/
theorem endEra_eq (s : State A σ) :
    ∃ events, endEra s =
      { s with
        nextCmixVariables := none
        cmixVariables := s.nextCmixVariables.getD s.cmixVariables
        events } := by
  cases s with
  | mk block cmixHashes adminPermission schedulingAccount cmixAddressSpace nextCmixVariables =>
    cases nextCmixVariables with
    | some next => exact ⟨_, rfl⟩
    | none => exact ⟨_, rfl⟩

end XXChain.Cmix
