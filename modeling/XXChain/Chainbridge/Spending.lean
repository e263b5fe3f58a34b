import XXChain.Chainbridge.Journal

/-!
# XXChain — what the bridge account spends

The bridge account signs nothing by itself: its calls are those of the proposals that the
relayers approve. Whatever a call of another pallet is said to cost when the bridge account signs
it, what it spends is covered by what the stored proposals were approved for, each counted once.

* **`dispatch_spends`** — a call that succeeds, with all that it executes, spends at most what it
  is charged itself and what is newly approved in it.
-/

namespace XXChain.Chainbridge

variable {A O W : Type} [DecidableEq A] {T : Config A O W} {c : O → Nat}
  {s s' : State A O W} {nonce : DepositNonce} {srcId : ChainId} {prop : RuntimeCall A O}
  {votes : ProposalVotes A}

/-! ## Charges -/

/-- What the bridge account is charged with for a call under an origin: the costs of the calls in
it that are dispatched as its own. The proposals that the call may execute are not among them. -/
def charge (T : Config A O W) (c : O → Nat) : RuntimeCall A O → Origin A → Nat
  | .other call, origin => if origin = .signed T.accountId then c call else 0
  | .batchAll first second, origin => charge T c first origin + charge T c second origin
  | .batch first second, origin => charge T c first origin + charge T c second origin
  | .dispatchAs asOrigin call, origin =>
    if T.mayDispatchAs origin asOrigin then charge T c call asOrigin else 0
  | .setThreshold .., _ | .setResource .., _ | .removeResource .., _ | .whitelistChain .., _ => 0
  | .addRelayer .., _ | .removeRelayer .., _ => 0
  | .acknowledgeProposal .., _ | .rejectProposal .., _ | .evalVoteState .., _ => 0

/-- What the calls of a journal spend. -/
def spent (T : Config A O W) (c : O → Nat) (calls : Journal A O W) : Nat :=
  (calls.map fun e => charge T c e.2.2 e.2.1).sum

/-- What a proposal lets the bridge account spend. -/
def authorised (T : Config A O W) (c : O → Nat) (key : ProposalKey A O)
    (votes : ProposalVotes A) : Nat :=
  if votes.status = .approved then charge T c key.2.2 (.signed T.accountId) else 0

/-- What the proposals approved so far let it spend. -/
def approvedSpending (T : Config A O W) (c : O → Nat) (s : State A O W) : Nat :=
  StorageMap.sumEntries (authorised T c) s.votes

@[simp]
theorem spent_nil : spent T c [] = 0 := rfl

@[simp]
theorem spent_append (calls calls' : Journal A O W) :
    spent T c (calls ++ calls') = spent T c calls + spent T c calls' := by
  rw [spent, List.map_append, List.sum_append]
  rfl

@[simp]
theorem spent_singleton (e : State A O W × Origin A × RuntimeCall A O) :
    spent T c [e] = charge T c e.2.2 e.2.1 :=
  List.sum_singleton

/-! ## What a vote changes -/

omit [DecidableEq A] in
theorem isInitiated (h : votes.isComplete = false) : votes.status = .initiated := by
  unfold ProposalVotes.isComplete at h
  cases hstatus : votes.status with
  | initiated => rfl
  | approved | rejected =>
    rw [hstatus] at h
    cases h

theorem authorised_of_open (key : ProposalKey A O) (h : votes.isComplete = false) :
    authorised T c key votes = 0 := by
  unfold authorised
  rw [isInitiated h, if_neg nofun]

variable [DecidableEq O]

/-- A vote approves nothing before the proposal is resolved. -/
theorem commitVote_approved {who : A} {inFavour : Bool}
    (h : commitVote T who nonce srcId prop inFavour s = .ok s') :
    approvedSpending T c s' = approvedSpending T c s := by
  obtain ⟨hcomplete, _, _, hs'⟩ := commitVote_ok h
  have hopen : ∀ votes' : ProposalVotes A,
      votes'.status = (storedVotes T nonce srcId prop s).status →
      authorised T c (srcId, nonce, prop) votes' = 0 := by
    intro votes' hstatus
    unfold authorised
    rw [hstatus, isInitiated hcomplete, if_neg nofun]
  have hinsert : ∀ votes' : ProposalVotes A,
      votes'.status = (storedVotes T nonce srcId prop s).status →
      StorageMap.sumEntries (authorised T c) (s.votes.insert (srcId, nonce, prop) votes') =
        StorageMap.sumEntries (authorised T c) s.votes := by
    intro votes' hstatus
    have hnew := hopen votes' hstatus
    cases hlook : s.votes.lookup (srcId, nonce, prop) with
    | none => rw [StorageMap.sumEntries_insert_of_none votes' hlook, hnew, Nat.add_zero]
    | some votes₀ =>
      have hstored : storedVotes T nonce srcId prop s = votes₀ := by
        rw [storedVotes, hlook, Option.getD_some]
      have hold := hopen votes₀ (by rw [hstored])
      have hsum := StorageMap.sumEntries_insert_of_some (f := authorised T c) votes' hlook
      omega
  rw [hs']
  cases inFavour with
  | true => exact hinsert _ rfl
  | false => exact hinsert _ rfl

/-- A decision on an open proposal is worth what it authorises. -/
theorem decision_approved (status : ProposalStatus)
    (hlook : s.votes.lookup (srcId, nonce, prop) = some votes)
    (hcomplete : votes.isComplete = false) :
    approvedSpending T c (storeDecision nonce srcId prop { votes with status } s) =
      approvedSpending T c s + authorised T c (srcId, nonce, prop) { votes with status } := by
  have hold := authorised_of_open (T := T) (c := c) (srcId, nonce, prop) hcomplete
  have hsum := StorageMap.sumEntries_insert_of_some (f := authorised T c)
    { votes with status } hlook
  show StorageMap.sumEntries _ (s.votes.insert (srcId, nonce, prop) { votes with status }) = _
  unfold approvedSpending
  omega

/-! ## A call spends what is approved -/

/-- A dispatch spends at most what it is charged itself and what is newly approved in it. -/
def Spends (T : Config A O W) (c : O → Nat) (exec : Dispatch A O W)
    (inner : Origin A → State A O W → Journal A O W) (charged : Origin A → Nat) : Prop :=
  ∀ origin s s', exec origin s = .ok s' →
    spent T c (inner origin s) + approvedSpending T c s ≤
      approvedSpending T c s' + charged origin

/-- An execution is paid by the approval that starts it. -/
theorem resolution_spends {exec : Dispatch A O W}
    {inner : Origin A → State A O W → Journal A O W}
    (hinner : Spends T c exec inner (charge T c prop))
    (h : tryResolveProposal T exec nonce srcId prop s = .ok s') :
    spent T c (resolutionJournal T inner nonce srcId prop s) + approvedSpending T c s ≤
      approvedSpending T c s' := by
  obtain ⟨votes, hlook, hcomplete, hexpired, _⟩ := tryResolveProposal_ok h
  rw [tryResolveProposal_open hlook hcomplete hexpired] at h
  unfold resolutionJournal
  rw [hlook]
  dsimp only
  by_cases hfor : s.relayerThreshold.toNat ≤ votes.votesFor.length
  · rw [if_pos hfor, bind_eq_ok] at h
    obtain ⟨s₁, hrun, hs'⟩ := h
    cases hs'
    rw [if_pos hfor]
    have hcall := hinner _ _ _ hrun
    have happroved := decision_approved (T := T) (c := c) .approved hlook hcomplete
    have hworth : authorised T c (srcId, nonce, prop) { votes with status := .approved } =
        charge T c prop (.signed T.accountId) := if_pos rfl
    have hstart : approvedSpending T c (startExecution nonce srcId prop votes s) =
        approvedSpending T c s + charge T c prop (.signed T.accountId) := by
      rw [← hworth, ← happroved]
      rfl
    show _ ≤ approvedSpending T c s₁
    omega
  · rw [if_neg hfor] at h ⊢
    rw [spent_nil, Nat.zero_add]
    by_cases hagainst : votes.Hopeless s.relayerThreshold s.relayerCount
    · rw [if_pos hagainst] at h
      cases h
      have hrejected := decision_approved (T := T) (c := c) .rejected hlook hcomplete
      show _ ≤ approvedSpending T c
        (storeDecision nonce srcId prop { votes with status := .rejected } s)
      omega
    · rw [if_neg hagainst] at h
      cases h
      exact le_rfl

theorem vote_spends {exec : Dispatch A O W} {inner : Origin A → State A O W → Journal A O W}
    (hinner : Spends T c exec inner (charge T c prop)) {origin : Origin A} {who : A}
    (horigin : (ensureSigned origin : DispatchResult A) = .ok who) {inFavour : Bool}
    {s₁ : State A O W}
    (hcommit : commitVote T who nonce srcId prop inFavour s = .ok s₁)
    (hresolve : tryResolveProposal T exec nonce srcId prop s₁ = .ok s') :
    spent T c (voteJournal T inner origin nonce srcId prop inFavour s) +
      approvedSpending T c s ≤ approvedSpending T c s' := by
  rw [voteJournal_of_commit inner horigin hcommit, ← commitVote_approved (c := c) hcommit]
  exact resolution_spends hinner hresolve

/-- A call that dispatches no other leaves the votes alone, and spends what it is charged. -/
theorem basic_spends {origin : Origin A} {call : RuntimeCall A O}
    (h : Executes T s (origin, call) s') :
    spent T c [(s, origin, call)] + approvedSpending T c s ≤
      approvedSpending T c s' + charge T c call origin := by
  have hvotes : s'.votes = s.votes := by
    rcases executes_cases h with ⟨pallet, _, hrun⟩ | hadmin
    · rw [T.otherFrame pallet origin s s' hrun]
    · rw [hadmin.frame]
  unfold approvedSpending
  rw [spent_singleton, hvotes, Nat.add_comm]

/-- **What the bridge account spends is approved.** A call that succeeds spends at most what it is
charged itself and what is newly approved in it. The induction is on the call. -/
theorem dispatch_spends (T : Config A O W) (c : O → Nat) (call : RuntimeCall A O) :
    Spends T c (dispatch T call) (journal T call) (charge T c call) := by
  induction call with
  | setThreshold | setResource | removeResource | whitelistChain | addRelayer | removeRelayer
  | other =>
    intro origin s s' h
    exact basic_spends ⟨rfl, h⟩
  | acknowledgeProposal nonce srcId rId call ih =>
    intro origin s s' h
    simp only [dispatch, acknowledgeProposal, voteFor, bind_eq_ok] at h
    obtain ⟨who, horigin, _, _, _, _, _, _, s₁, hcommit, hresolve⟩ := h
    exact vote_spends ih horigin hcommit hresolve
  | rejectProposal nonce srcId rId call ih =>
    intro origin s s' h
    simp only [dispatch, rejectProposal, voteAgainst, bind_eq_ok] at h
    obtain ⟨who, horigin, _, _, _, _, _, _, s₁, hcommit, hresolve⟩ := h
    exact vote_spends ih horigin hcommit hresolve
  | evalVoteState nonce srcId prop ih =>
    intro origin s s' h
    simp only [dispatch, evalVoteState, bind_eq_ok] at h
    obtain ⟨_, _, hresolve⟩ := h
    exact resolution_spends ih hresolve
  | batchAll first second ih₁ ih₂ =>
    intro origin s s' h
    simp only [dispatch, bind_eq_ok] at h
    obtain ⟨s₁, hfirst, hsecond⟩ := h
    have hspent₁ := ih₁ _ _ _ hfirst
    have hspent₂ := ih₂ _ _ _ hsecond
    unfold journal charge
    rw [hfirst]
    dsimp only
    rw [spent_append]
    omega
  | batch first second ih₁ ih₂ =>
    intro origin s s' h
    unfold journal charge
    simp only [dispatch] at h
    cases hfirst : dispatch T first origin s with
    | error e =>
      simp only [hfirst] at h ⊢
      cases h
      rw [spent_nil]
      omega
    | ok s₁ =>
      have hspent₁ := ih₁ _ _ _ hfirst
      cases hsecond : dispatch T second origin s₁ with
      | error e =>
        simp only [hfirst, hsecond] at h ⊢
        cases h
        omega
      | ok s₂ =>
        have hspent₂ := ih₂ _ _ _ hsecond
        simp only [hfirst, hsecond] at h ⊢
        cases h
        rw [spent_append]
        omega
  | dispatchAs asOrigin call ih =>
    intro origin s s' h
    unfold journal charge
    simp only [dispatch] at h
    cases hmay : T.mayDispatchAs origin asOrigin with
    | false => simp [hmay] at h
    | true =>
      rw [if_pos rfl, if_pos rfl]
      cases hrun : dispatch T call asOrigin s with
      | error e =>
        simp only [hmay, hrun, if_true] at h ⊢
        cases h
        rw [spent_nil]
        omega
      | ok s₁ =>
        simp only [hmay, hrun, if_true] at h ⊢
        cases h
        exact ih _ _ _ hrun

end XXChain.Chainbridge
