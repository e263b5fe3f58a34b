import XXChain.Claims.Model

/-!
# XXChain — the claims pallet without its reward handler

The handler is told of claims with a reward and asked for nothing, so what it is makes no
difference to the rest of the pallet. `Config.alone` is the pallet with a handler that does
nothing, and `State.alone` what it has of a state.

* **`dispatch_alone`** — a call does the same to it, whatever the handler.
-/

namespace XXChain.Claims

variable {A σ H : Type}

/-- The pallet with a handler that does nothing. -/
def Config.alone (T : Config A σ H) : Config A σ Unit :=
  { T with addClaimed := fun _ _ _ _ _ => () }

/-- The state without the one of the handler. -/
def State.alone (s : State A σ H) : State A σ Unit :=
  { s with handler := () }

variable [DecidableEq A] {T : Config A σ H} {s : State A σ H}

omit [DecidableEq A] in
/-- A payment is the same on its own. -/
theorem processClaim_alone (signer : EthereumAddress) (dest : A) :
    processClaim T.alone signer dest s.alone = State.alone <$> processClaim T signer dest s := by
  simp only [processClaim, map_bind]
  rfl

omit [DecidableEq A] in
theorem ensureStatement_alone (signer : EthereumAddress) (statement : List UInt8) :
    ensureStatement signer statement s.alone = ensureStatement signer statement s :=
  rfl

theorem dispatch_alone (origin : Origin A) (call : Call A) :
    dispatch T.alone origin call s.alone = State.alone <$> dispatch T origin call s := by
  cases call with
  | claim dest signature =>
    simp only [dispatch, claim, processClaim_alone, map_bind]
    rfl
  | mintClaim who value vestingSchedules statement =>
    simp only [dispatch, mintClaim, map_bind]
    rfl
  | claimAttest dest signature statement =>
    simp only [dispatch, claimAttest, ensureStatement_alone, processClaim_alone, map_bind]
    rfl
  | attest statement =>
    simp only [dispatch, attest, ensureStatement_alone, processClaim_alone, map_bind, bind_map_left]
    rfl
  | moveClaim old new maybePreclaim =>
    simp only [dispatch, moveClaim, map_bind]
    rfl

theorem applyCall_alone (call : Origin A × Call A) :
    applyCall T.alone s.alone call = (applyCall T s call).alone := by
  unfold applyCall
  rw [dispatch_alone]
  cases dispatch T call.1 call.2 s with
  | error e => rfl
  | ok s' => rfl

end XXChain.Claims
