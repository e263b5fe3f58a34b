import XXChain.Chainbridge.SmallStep

/-!
# XXChain — the ChainBridge pallet as a threshold vote

`ballot` reads the threshold vote off the storage of the pallet: relayers are the roster,
proposals the motions. `Refines` says that one state of the pallet comes from another by
writes to that ballot. Every small step is at most one of them (`SmallStep.writes`), so every
dispatchable refines (`dispatch_refines`), a re-entrant one included.

What the pallet adds to the ballot is `RelayerCount`, which `Counted` ties to the roster.
-/

namespace XXChain.Chainbridge

open ThresholdVote Relation

variable {A O W : Type} [DecidableEq A] [DecidableEq O] {T : Config A O W}
  {s s' s₁ s₂ s₃ : State A O W}

/-- The vote the storage holds. -/
def ballot (s : State A O W) : Ballot (ProposalKey A O) A where
  now := s.block
  threshold := s.relayerThreshold.toNat
  roster := relayerSet s
  tallies key := (s.votes.lookup key).map ProposalVotes.tally
  log := s.history

/-- `RelayerCount` counts the relayers, as far as 32 bits go. -/
def Counted (s : State A O W) : Prop :=
  s.relayerCount = UInt32.ofNat (relayerSet s).card

/-- The pallet's writes to its ballot. -/
abbrev BallotWrite (T : Config A O W) :
    Ballot (ProposalKey A O) A → Ballot (ProposalKey A O) A → Prop :=
  Write T.proposalLifetime (2 ^ 32)

/-- `s'` comes from `s` by writes to the ballot, and keeps the relayer count right. -/
def Refines (T : Config A O W) (s s' : State A O W) : Prop :=
  Counted s → Counted s' ∧ ReflTransGen (BallotWrite T) (ballot s) (ballot s')

theorem Refines.refl (s : State A O W) : Refines T s s :=
  fun hc => ⟨hc, .refl⟩

theorem Refines.trans (h₁ : Refines T s₁ s₂) (h₂ : Refines T s₂ s₃) : Refines T s₁ s₃ := by
  intro hc
  obtain ⟨hc₂, hrun₁⟩ := h₁ hc
  obtain ⟨hc₃, hrun₂⟩ := h₂ hc₂
  exact ⟨hc₃, hrun₁.trans hrun₂⟩

/-- `s'` comes from `s` by one write to the ballot at most. -/
def Writes (T : Config A O W) (s s' : State A O W) : Prop :=
  Counted s → Counted s' ∧ ReflGen (BallotWrite T) (ballot s) (ballot s')

theorem Writes.refl (s : State A O W) : Writes T s s :=
  fun hc => ⟨hc, .refl⟩

/-- A single write, to the ballot `b`. -/
theorem Writes.single {b : Ballot (ProposalKey A O) A} (hcounted : Counted s → Counted s')
    (hwrite : Counted s → BallotWrite T (ballot s) b) (hballot : ballot s' = b) :
    Writes T s s' := by
  intro hc
  refine ⟨hcounted hc, .single ?_⟩
  rw [hballot]
  exact hwrite hc

theorem Writes.refines (h : Writes T s s') : Refines T s s' := by
  intro hc
  obtain ⟨hc', hwrite⟩ := h hc
  exact ⟨hc', hwrite.to_reflTransGen⟩

/-! ## The roster -/

omit [DecidableEq O] in
theorem mem_relayerSet {who : A} : who ∈ relayerSet s ↔ isRelayer who s = true := by
  rw [relayerSet, Finset.mem_filter, and_iff_right_iff_imp]
  intro h
  cases hlook : s.relayers.lookup who with
  | none => simp [isRelayer, hlook] at h
  | some b => exact Finmap.mem_keys.mpr (Finmap.lookup_isSome.mp (by simp [hlook]))

omit [DecidableEq O] in
theorem relayerSet_insert {v : A} (h : s'.relayers = s.relayers.insert v true) :
    relayerSet s' = insert v (relayerSet s) := by
  ext who
  rw [Finset.mem_insert, mem_relayerSet, mem_relayerSet, isRelayer, isRelayer, h]
  by_cases hwho : who = v
  · subst hwho
    simp
  · simp [hwho, Finmap.lookup_insert_of_ne]

omit [DecidableEq O] in
theorem relayerSet_erase {v : A} (h : s'.relayers = s.relayers.erase v) :
    relayerSet s' = (relayerSet s).erase v := by
  ext who
  rw [Finset.mem_erase, mem_relayerSet, mem_relayerSet, isRelayer, isRelayer, h]
  by_cases hwho : who = v
  · subst hwho
    simp
  · simp [hwho, Finmap.lookup_erase_ne]

omit [DecidableEq O] in
/-- Below its capacity the relayer count is the number of relayers. -/
theorem Counted.toNat (h : Counted s) (hfits : (relayerSet s).card < 2 ^ 32) :
    s.relayerCount.toNat = (relayerSet s).card := by
  rw [h, UInt32.toNat_ofNat', Nat.mod_eq_of_lt hfits]

/-! ## Voting and execution -/

omit [DecidableEq A] [DecidableEq O] in
@[simp]
theorem tally_outcome_eq_pending {votes : ProposalVotes A} :
    votes.tally.outcome = .pending ↔ votes.isComplete = false := by
  cases h : votes.status <;>
    simp [ProposalVotes.tally, ProposalStatus.outcome, ProposalVotes.isComplete, h]

/-- Writing one proposal writes its tally. -/
theorem tallies_insert {votesMap : StorageMap (ProposalKey A O) (ProposalVotes A)}
    {key : ProposalKey A O} {votes : ProposalVotes A} :
    (fun k => ((votesMap.insert key votes).lookup k).map ProposalVotes.tally) =
      Function.update (fun k => (votesMap.lookup k).map ProposalVotes.tally) key
        (some votes.tally) := by
  funext k
  by_cases hk : k = key
  · subst hk
    simp
  · simp [hk, Finmap.lookup_insert_of_ne]

omit [DecidableEq A] [DecidableEq O] in
/-- A proposal that passes the two checks is open. -/
theorem not_isClosed {votes : ProposalVotes A} {now : Nat} (hcomplete : votes.isComplete = false)
    (hexpired : votes.isExpired now = false) : ¬votes.tally.IsClosed now := by
  rintro (hne | hle)
  · exact hne (tally_outcome_eq_pending.mpr hcomplete)
  · simp only [ProposalVotes.isExpired, decide_eq_false_iff_not] at hexpired
    exact hexpired hle

omit [DecidableEq A] [DecidableEq O] in
theorem tally_add (votes : ProposalVotes A) (who : A) (inFavour : Bool) :
    (votes.add who inFavour).tally = votes.tally.cast who inFavour := by
  cases inFavour <;> rfl

/-- The tally that the ballot finds, or opens, is that of the stored votes. -/
theorem getD_tallies (nonce : DepositNonce) (srcId : ChainId) (prop : RuntimeCall A O)
    (s : State A O W) :
    ((ballot s).tallies (srcId, nonce, prop)).getD
        (.opened ((ballot s).now + T.proposalLifetime)) =
      (storedVotes T nonce srcId prop s).tally := by
  unfold storedVotes
  show ((s.votes.lookup _).map _).getD _ = _
  cases s.votes.lookup (srcId, nonce, prop) with
  | none => rfl
  | some stored => rfl

omit [DecidableEq A] in
/-- The comparison that rejects a proposal, in numbers. -/
theorem ProposalVotes.Hopeless.lt {votes : ProposalVotes A} {threshold total : UInt32}
    (h : votes.Hopeless threshold total) :
    total.toNat < votes.votesAgainst.length + threshold.toNat := by
  have hlt := UInt32.lt_iff_toNat_lt.mp h.2
  -- the sum of the source is of machine words and may have wrapped
  have hwrap := Nat.mod_le ((UInt32.ofNat votes.votesAgainst.length).toNat + threshold.toNat)
    (2 ^ 32)
  have hlen := Nat.mod_le votes.votesAgainst.length (2 ^ 32)
  rw [UInt32.toNat_add] at hlt
  rw [UInt32.toNat_ofNat'] at hlt hwrap
  omega

/-! ## Dispatch -/

/-- Every small step is one write to the ballot, or none. -/
theorem SmallStep.writes (h : SmallStep T s s') : Writes T s s' := by
  cases h with
  | setResource | removeResource | whitelistChain | succeed => exact Writes.refl s
  | other call origin h =>
    rw [T.otherFrame call origin s s' h]
    exact Writes.refl s
  | setThreshold threshold hpos =>
    exact .single id (fun _ => Write.setThreshold (ballot s) threshold.toNat hpos) rfl
  | addRelayer v hnew =>
    have hnew' : v ∉ relayerSet s := by simp [mem_relayerSet, hnew]
    refine .single (fun hc => ?_) (fun _ => Write.enrol (ballot s) v hnew')
      (Ballot.ext rfl rfl (relayerSet_insert rfl) rfl rfl)
    rw [Counted, relayerSet_insert (s := s) rfl, Finset.card_insert_of_notMem hnew',
      UInt32.ofNat_add, ← hc]
    rfl
  | removeRelayer v hold =>
    have hold' : v ∈ relayerSet s := mem_relayerSet.mpr hold
    refine .single (fun hc => ?_) (fun _ => Write.strike (ballot s) v hold')
      (Ballot.ext rfl rfl (relayerSet_erase rfl) rfl rfl)
    -- the roster is not empty, so the decrement does not wrap
    have hcard := Finset.card_erase_add_one hold'
    rw [Counted, relayerSet_erase (s := s) rfl]
    show s.relayerCount - 1 = _
    rw [show s.relayerCount = _ from hc, ← hcard, UInt32.ofNat_add]
    exact UInt32.add_sub_cancel _ _
  | vote who nonce srcId rId prop inFavour votes hwho _ _ hstored hcomplete hexpired hfresh =>
    have hfresh' : who ∉ votes.tally.inFavour ++ votes.tally.against := by
      simpa [ProposalVotes.hasVoted, ProposalVotes.tally] using hfresh
    have hcast : BallotWrite T (ballot s) _ :=
      Write.cast (ballot s) (srcId, nonce, prop) who inFavour votes.tally
        (hstored ▸ getD_tallies nonce srcId prop s) (not_isClosed hcomplete hexpired)
        (mem_relayerSet.mpr hwho) hfresh'
    refine .single id (fun _ => hcast) (Ballot.ext rfl rfl rfl ?_ ?_)
    · exact tallies_insert.trans (by rw [tally_add]; rfl)
    · show .cast _ _ _ (isRelayer who s) :: s.history = _
      rw [hwho]
      rfl
  | approve nonce srcId prop votes hlook hcomplete hexpired hcount =>
    have hget : (ballot s).tallies (srcId, nonce, prop) = some votes.tally := by
      simp [ballot, hlook]
    have happrove : BallotWrite T (ballot s) _ :=
      Write.approve (ballot s) (srcId, nonce, prop) votes.tally hget
        (not_isClosed hcomplete hexpired) hcount
    exact .single id (fun _ => happrove) (Ballot.ext rfl rfl rfl tallies_insert rfl)
  | reject nonce srcId prop votes hlook hcomplete hexpired hcount =>
    have hget : (ballot s).tallies (srcId, nonce, prop) = some votes.tally := by
      simp [ballot, hlook]
    refine .single id (fun hc => Write.reject (ballot s) (srcId, nonce, prop) votes.tally hget
      (not_isClosed hcomplete hexpired) ?_) (Ballot.ext rfl rfl rfl tallies_insert rfl)
    have hlt := hcount.lt
    rwa [show s.relayerCount = _ from hc, UInt32.toNat_ofNat'] at hlt
  | advance block world hlater =>
    exact .single id (fun _ => Write.tick (ballot s) block (Nat.le_of_lt hlater)) rfl

theorem smallSteps_refine (h : ReflTransGen (SmallStep T) s s') : Refines T s s' := by
  induction h with
  | refl => exact Refines.refl s
  | tail _ hlast ih => exact ih.trans hlast.writes.refines

/-- Every call refines the ballot, whatever it dispatches in turn. -/
theorem dispatch_refines {call : RuntimeCall A O} {origin : Origin A}
    (h : dispatch T call origin s = .ok s') : Refines T s s' :=
  smallSteps_refine (dispatch_smallSteps h)

/-! ## Runs -/

/-- The ballot of a genesis state has no motions; its roster may already be filled. -/
theorem genesis_refines (h : Genesis T s) :
    ∃ world, Refines T (State.default world) s := by
  obtain ⟨world, hrun⟩ := genesis_smallSteps h
  exact ⟨world, smallSteps_refine hrun⟩

theorem run_refines (h : ReflTransGen (Step T) s s') : Refines T s s' :=
  smallSteps_refine (run_smallSteps h)

/-- A reachable state has a right relayer count, and its ballot the ballot's invariant. -/
theorem reachable_inv (h : ReachableState T s) :
    Counted s ∧ ThresholdVote.Inv (2 ^ 32) (ballot s) := by
  obtain ⟨s₀, hgenesis, hrun⟩ := h
  obtain ⟨world, hs₀⟩ := genesis_refines hgenesis
  have hdefault : Counted (State.default world : State A O W) := rfl
  obtain ⟨hcounted, hwrites⟩ := hs₀.trans (run_refines hrun) hdefault
  have hempty : ThresholdVote.Inv (2 ^ 32) (ballot (State.default world : State A O W)) :=
    Inv.empty (by show 0 < defaultRelayerThreshold.toNat; decide) (by funext key; rfl) rfl
  exact ⟨hcounted, run_invariant (fun _ _ hinv hwrite => hwrite.inv hinv) hempty hwrites⟩

end XXChain.Chainbridge
