import XXChain.Runtime.Outflow

/-!
# XXChain — the bridge account backs what was sent

Each native transfer leaves an event that another chain pays out against, and the coins of it in
the bridge account. Over any run of the runtime the events never get ahead of the coins, but for
what the bridge account itself releases: the transfers and native transfers that it signs, which
it does only for the proposals that the relayers approve.

* **`swapDispatch_backed`** — a native transfer brings what it announces;
* **`happens_backed`** — every entry of a record releases at most what it is charged with;
* **`run_backed`** — so does every run.
-/

namespace XXChain.Runtime

open Chainbridge (outbound)

variable {A F σ : Type} [DecidableEq A] {T : Config A F σ} {origin : Origin A}
  {s s' : State A F σ}

/-! ## What was sent, and what backs it -/

omit [DecidableEq A] in
/-- The amount of the native token in an event. -/
def sentBy (T : Config A F σ) : Chainbridge.Event A → Nat
  | .fungibleTransfer _ _ resourceId amount _ =>
    if resourceId = T.tokenId then amount.toNat else 0
  | _ => 0

omit [DecidableEq A] in
/-- All that was sent of the native token. -/
def sent (T : Config A F σ) (s : State A F σ) : Nat :=
  ((outbound s).map (sentBy T)).sum

omit [DecidableEq A] in
/-- The coins of the bridge account. -/
def backing (T : Config A F σ) (s : State A F σ) : Nat :=
  free T T.bridgeId s.world

omit [DecidableEq A] in
/-- From `s` to `s'` no more was sent than came in, but for `released`. -/
def Backed (T : Config A F σ) (released : Nat) (s s' : State A F σ) : Prop :=
  sent T s' + backing T s ≤ sent T s + backing T s' + released

omit [DecidableEq A] in
/-- A step that leaves the outbound events alone releases what it takes. -/
theorem backed_of_outflow {taken : Nat} (houtbound : outbound s' = outbound s)
    (hfree : backing T s ≤ backing T s' + taken) : Backed T taken s s' := by
  unfold Backed sent
  rw [houtbound]
  omega

/-! ## The swap pallet -/

/-- What the bridge account releases with a call of the swap pallet that it signs: it moves the
amount of a native transfer to itself. -/
def swapReleased (T : Config A F σ) (call : Swap.Call A) (s : State A F σ) : Nat :=
  match call with
  | .transferNative amount _ _ =>
    amount + lost T T.bridgeId (Swap.feePaid T.bridgeId s.world.swap) s
  | call => swapOutflow T T.bridgeId call s

/-- What the bridge account releases with an entry of a record. -/
def released (T : Config A F σ) (s : State A F σ) : Action A F σ → Nat
  | .extrinsic origin (.other (.swap call)) =>
    if origin = .signed T.bridgeId then swapReleased T call s else 0
  | .extrinsic origin (.other (.foreign call)) =>
    match T.foreign call origin s with
    | .ok s' => (sent T s' - sent T s) + (backing T s - backing T s')
    | .error _ => 0
  | action => outflow T T.bridgeId s action

/-- A native transfer announces at most its amount. -/
theorem sent_transferNative {amount : Nat} {recipient : List UInt8}
    {destId : Chainbridge.ChainId} {st st' : Swap.State A (PalletCall A F) σ}
    (h : Swap.transferNative T.swap T.bridgeId origin amount recipient destId st = .ok st') :
    ∃ e, st'.events = st.events ++ [e] ∧ e.sent.isSome = true ∧ sentBy T e ≤ amount := by
  obtain ⟨_, st₁, st₂, _, _, _, _, hframe, hsent⟩ := Swap.transferNative_steps h
  obtain ⟨nonce, _, hst'⟩ := Chainbridge.Transfer.run_ok
    (t := .fungible destId T.swap.nativeTokenId recipient
      (.ofNat 256 (min amount (balanceLimit - 1)))) hsent
  have hevents : st₂.events = st.events := by rw [hframe]
  refine ⟨.fungibleTransfer destId (nonce + 1) T.swap.nativeTokenId
    (.ofNat 256 (min amount (balanceLimit - 1))) recipient, ?_, rfl, ?_⟩
  · rw [hst', ← hevents]
    rfl
  · show (if T.tokenId = T.tokenId then _ else _) ≤ amount
    rw [if_pos rfl, BitVec.toNat_ofNat]
    have hwrapped := Nat.mod_le (min amount (balanceLimit - 1)) (2 ^ 256)
    omega

omit [DecidableEq A] in
theorem sent_of_event {amount : Nat} {e : Chainbridge.Event A}
    (hevents : s'.events = s.events ++ [e]) (hsome : e.sent.isSome = true)
    (hle : sentBy T e ≤ amount) : sent T s' ≤ sent T s + amount := by
  have hout : outbound s' = outbound s ++ [e] := by
    simp only [outbound, hevents, List.filter_append, List.filter_cons, hsome, if_true,
      List.filter_nil]
  unfold sent
  rw [hout, List.map_append, List.sum_append, List.map_singleton, List.sum_singleton]
  omega

theorem swapDispatch_backed (hT : T.Lawful) {call : Swap.Call A}
    (h : swapDispatch T call origin s = .ok s') :
    Backed T (if origin = .signed T.bridgeId then swapReleased T call s else 0) s s' := by
  obtain ⟨s₁, hrun, hs'⟩ := swapDispatch_ok h
  have hafter : backing T s' = (Swap.account T.swap s₁ T.bridgeId).free := by
    rw [hs']
    rfl
  have hbefore : backing T s = (Swap.account T.swap (swapState s) T.bridgeId).free := rfl
  cases call with
  | transferNative amount recipient destId =>
    obtain ⟨e, hevents, hsome, hle⟩ := sent_transferNative hrun
    have hevents' : s'.events = s.events ++ [e] := by rw [hs']; exact hevents
    have hsent := sent_of_event (T := T) hevents' hsome hle
    obtain ⟨source, _, _, hsource, _⟩ := Swap.transferNative_steps hrun
    rw [hsource] at hrun ⊢
    have hmoved := Swap.transferNative_moved hT.currency hrun
    unfold Backed
    by_cases hbridge : source = T.bridgeId
    · -- the bridge account moves the amount to itself, and pays the fee
      rw [hbridge] at hmoved ⊢
      have hpaid := hmoved.signer
      rw [if_pos rfl, Nat.add_zero] at hpaid
      have hlost : backing T s ≤ backing T s' +
          lost T T.bridgeId (Swap.feePaid T.bridgeId s.world.swap) s := by
        rw [hafter]
        exact hpaid.free_le_add
      rw [if_pos rfl]
      show _ ≤ sent T s + backing T s' +
        (amount + lost T T.bridgeId (Swap.feePaid T.bridgeId s.world.swap) s)
      omega
    · have hreceived := hmoved.others T.bridgeId (Ne.symm hbridge)
      have hfree := congrArg AccountData.free hreceived
      simp only [AccountData.credit, if_true] at hfree
      omega
  | transfer dest amount =>
    simp only [Swap.dispatch, Swap.transfer] at hrun
    split at hrun
    next source _ =>
      have hframe := Swap.currencyTransfer_frame hrun
      exact backed_of_outflow (by rw [hs', hframe]; rfl) (swapDispatch_outflow hT h)
    next => cases hrun
  | setSwapFee fee =>
    simp only [Swap.dispatch, Swap.setSwapFee, bind_eq_ok] at hrun
    obtain ⟨_, _, hs₁⟩ := hrun
    cases hs₁
    exact backed_of_outflow (by rw [hs']; rfl) (swapDispatch_outflow hT h)
  | setFeeDestination dest =>
    simp only [Swap.dispatch, Swap.setFeeDestination, bind_eq_ok] at hrun
    obtain ⟨_, _, hs₁⟩ := hrun
    cases hs₁
    exact backed_of_outflow (by rw [hs']; rfl) (swapDispatch_outflow hT h)

/-! ## Every step -/

/-- The calls of the other pallets of this repository announce nothing. -/
theorem palletDispatch_backed (hT : T.Lawful) (hR : T.Respects T.bridgeId)
    {call : PalletCall A F} (hapart : Apart T.bridgeId s)
    (h : palletDispatch T call origin s = .ok s') :
    Backed T (released T s (.extrinsic origin (.other call))) s s' := by
  obtain ⟨_, houtflow⟩ := palletDispatch_outflow hT hR hapart h
  cases call with
  | swap call => exact swapDispatch_backed hT h
  | foreign call =>
    have hforeign : T.foreign call origin s = .ok s' := h
    unfold Backed
    simp only [released, hforeign]
    omega
  | claims | xxCmix | xxEconomics | xxCustody | xxBetanetRewards | xxPublic =>
    obtain ⟨part, _, hs'⟩ := through_ok h
    exact backed_of_outflow (by rw [hs']; rfl) houtflow

variable [DecidableEq F]

/-- Every entry of a record releases at most what it is charged with. -/
theorem happens_backed (hT : T.Lawful) (hR : T.Respects T.bridgeId) {action : Action A F σ}
    (hapart : Apart T.bridgeId s) (h : Happens T s action s') :
    Backed T (released T s action) s s' := by
  obtain ⟨_, houtflow⟩ := happens_outflow hT hR hapart h
  cases action with
  | extrinsic origin call =>
    cases call with
    | other call => exact palletDispatch_backed hT hR hapart h.2
    | setThreshold | setResource | removeResource | whitelistChain | addRelayer | removeRelayer
    | acknowledgeProposal | rejectProposal | evalVoteState | batchAll | batch | dispatchAs =>
      rcases Chainbridge.executes_cases h with ⟨pallet, hcall, _⟩ | hadmin
      · cases hcall
      · exact backed_of_outflow hadmin.outbound houtflow
  | eraPayout totalStaked totalIssuance eraDurationMillis =>
    obtain ⟨_, hera⟩ := eraPayout_frame T totalStaked totalIssuance eraDurationMillis s
    rw [show s' = _ from Eq.trans h hera] at houtflow ⊢
    exact backed_of_outflow rfl houtflow
  | onInitialize | endEra | payRewards | payRemainder | elsewhere =>
    rw [show s' = _ from h] at houtflow ⊢
    exact backed_of_outflow rfl houtflow

/-- So does a record. -/
theorem recorded_backed (hT : T.Lawful) (hR : T.Respects T.bridgeId)
    {entries : List (State A F σ × Action A F σ)} (hapart : Apart T.bridgeId s)
    (h : Recorded T entries s s') :
    Backed T (entries.map fun e => released T e.1 e.2).sum s s' := by
  have hquiet : ∀ s s' : State A F σ, Apart T.bridgeId s → Chainbridge.Bookkeeping s s' →
      Apart T.bridgeId s' ∧ sent T s' + backing T s ≤ sent T s + backing T s' := by
    intro s s' hapart hstep
    have hworld := hstep.world
    refine ⟨hapart.of_books (by rw [hworld]), ?_⟩
    unfold sent backing
    rw [hstep.outbound, hworld]
  exact (h.flow_le (Apart T.bridgeId) (sent T) (backing T) (released T)
    hquiet (fun _ _ _ hapart hstep => ⟨(happens_outflow hT hR hapart hstep).1,
      happens_backed hT hR hapart hstep⟩) hapart).2

/-- **The bridge account backs what was sent.** From any state in which the bridge account has no
part in the custody, and over any run, with any calls nested in batches, proposals of the bridge
and calls under other origins, what is announced to the other chains grows at most by what comes
into the bridge account and what it releases. -/
theorem run_backed (T : Config A F σ) (hT : T.Lawful) (hR : T.Respects T.bridgeId)
    (s : State A F σ) (hapart : Apart T.bridgeId s) (actions : List (Action A F σ)) :
    Backed T ((record T s actions).map fun e => released T e.1 e.2).sum s (run T s actions) :=
  recorded_backed hT hR hapart (run_trace T s actions)

/-! ## On the mock runtime -/

/-- The account `4` sends `500` with a fee of `100`, a reward is paid to it, and the bridge account
pays out `200`. -/
def mockCrossings : List (Action Nat Unit (VestedLedger Nat)) :=
  [.extrinsic (.signed 4) mockSend, .payRewards [(4, 50)],
    .extrinsic (.signed 0) (.other (.swap (.transfer 7 200)))]

theorem run_backed_mock :
    Backed wiredRuntime
        ((record wiredRuntime (mockState 1000) mockCrossings).map
          fun e => released wiredRuntime e.1 e.2).sum
        (mockState 1000) (run wiredRuntime (mockState 1000) mockCrossings) ∧
      sent wiredRuntime (run wiredRuntime (mockState 1000) mockCrossings) = 500 ∧
      backing wiredRuntime (run wiredRuntime (mockState 1000) mockCrossings) = 300 :=
  ⟨run_backed wiredRuntime wiredRuntime_lawful (wiredRuntime_respects 0 (by decide))
      (mockState 1000) (mockState_apart 1000 0) mockCrossings,
    by decide +kernel, by decide +kernel⟩

end XXChain.Runtime
