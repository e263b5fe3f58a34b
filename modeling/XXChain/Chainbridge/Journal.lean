import XXChain.Chainbridge.OutboundNonces
import XXChain.Lib.Trace

/-!
# XXChain — the calls inside a call

A runtime call may be a batch, a call under another origin or a vote that executes a proposal,
and so a nest of calls. `journal` lists what such a call comes down to when it succeeds: the
calls that dispatch no other and are kept, each with the origin and the state it ran with.

* **`dispatch_trace`** — a call that succeeds is a run of the calls of its journal, with nothing
  but the bookkeeping of the votes in between;
* **`journal_commanded`** — its calls have the origin of the whole call, that of the bridge
  account, or one that these may dispatch under.
-/

namespace XXChain.Chainbridge

variable {A O W : Type}

/-- A call that dispatches no other: of the administration, or of another pallet. -/
def RuntimeCall.isBasic : RuntimeCall A O → Bool
  | .setThreshold .. | .setResource .. | .removeResource .. | .whitelistChain .. => true
  | .addRelayer .. | .removeRelayer .. | .other .. => true
  | .acknowledgeProposal .. | .rejectProposal .. | .evalVoteState .. => false
  | .batchAll .. | .batch .. | .dispatchAs .. => false

/-- Calls, each with its origin and the state before it. -/
abbrev Journal (A O W : Type) := List (State A O W × Origin A × RuntimeCall A O)

/-- The events of the transfers out of the chain. -/
def outbound (s : State A O W) : List (Event A) :=
  s.events.filter fun e => e.sent.isSome

/-- A write to the votes, to the history and to the events that are none of a transfer. -/
structure Bookkeeping (s s' : State A O W) : Prop where
  frame : s' = { s with votes := s'.votes, events := s'.events, history := s'.history }
  outbound : outbound s' = outbound s

theorem Bookkeeping.world {s s' : State A O W} (h : Bookkeeping s s') : s'.world = s.world := by
  rw [h.frame]

theorem outbound_depositEvent {s : State A O W} {e : Event A} (h : e.sent = none) :
    outbound (s.depositEvent e) = outbound s := by
  unfold outbound State.depositEvent
  rw [List.filter_append, List.filter_cons_of_neg (by simp [h]), List.filter_nil, List.append_nil]

variable [DecidableEq A] [DecidableEq O] {T : Config A O W} {s s' : State A O W}
  {nonce : DepositNonce} {srcId : ChainId} {prop : RuntimeCall A O} {votes : ProposalVotes A}

/-! ## The journal of a call -/

/-- What a proposal executes when resolving it succeeds; `inner` is the journal of its call. -/
def resolutionJournal (T : Config A O W) (inner : Origin A → State A O W → Journal A O W)
    (nonce : DepositNonce) (srcId : ChainId) (prop : RuntimeCall A O) (s : State A O W) :
    Journal A O W :=
  match s.votes.lookup (srcId, nonce, prop) with
  | some votes =>
    if s.relayerThreshold.toNat ≤ votes.votesFor.length then
      inner (.signed T.accountId) (startExecution nonce srcId prop votes s)
    else []
  | none => []

def voteJournal (T : Config A O W) (inner : Origin A → State A O W → Journal A O W)
    (origin : Origin A) (nonce : DepositNonce) (srcId : ChainId) (prop : RuntimeCall A O)
    (inFavour : Bool) (s : State A O W) : Journal A O W :=
  match ensureSigned origin >>= fun who => commitVote T who nonce srcId prop inFavour s with
  | .ok s₁ => resolutionJournal T inner nonce srcId prop s₁
  | .error _ => []

/-- The journal of a call that succeeds. As in `dispatch`, a batch keeps what succeeded. -/
def journal (T : Config A O W) : RuntimeCall A O → Origin A → State A O W → Journal A O W
  | .acknowledgeProposal nonce srcId _ call, origin, s =>
    voteJournal T (journal T call) origin nonce srcId call true s
  | .rejectProposal nonce srcId _ call, origin, s =>
    voteJournal T (journal T call) origin nonce srcId call false s
  | .evalVoteState nonce srcId prop, _, s =>
    resolutionJournal T (journal T prop) nonce srcId prop s
  | .batchAll first second, origin, s =>
    match dispatch T first origin s with
    | .ok s₁ => journal T first origin s ++ journal T second origin s₁
    | .error _ => []
  | .batch first second, origin, s =>
    match dispatch T first origin s with
    | .ok s₁ =>
      match dispatch T second origin s₁ with
      | .ok _ => journal T first origin s ++ journal T second origin s₁
      | .error _ => journal T first origin s
    | .error _ => []
  | .dispatchAs asOrigin call, origin, s =>
    if T.mayDispatchAs origin asOrigin then
      match dispatch T call asOrigin s with
      | .ok _ => journal T call asOrigin s
      | .error _ => []
    else []
  | .setThreshold threshold, origin, s => [(s, origin, .setThreshold threshold)]
  | .setResource id method, origin, s => [(s, origin, .setResource id method)]
  | .removeResource id, origin, s => [(s, origin, .removeResource id)]
  | .whitelistChain id, origin, s => [(s, origin, .whitelistChain id)]
  | .addRelayer v, origin, s => [(s, origin, .addRelayer v)]
  | .removeRelayer v, origin, s => [(s, origin, .removeRelayer v)]
  | .other call, origin, s => [(s, origin, .other call)]

/-- A call that dispatches no other is executed. -/
def Executes (T : Config A O W) (s : State A O W) (call : Origin A × RuntimeCall A O)
    (s' : State A O W) : Prop :=
  call.2.isBasic = true ∧ dispatch T call.2 call.1 s = .ok s'

/-- A dispatch is a run of the calls of its journal. -/
def Traced (T : Config A O W) (exec : Dispatch A O W)
    (inner : Origin A → State A O W → Journal A O W) : Prop :=
  ∀ origin s s', exec origin s = .ok s' → Trace Bookkeeping (Executes T) (inner origin s) s s'

/-! ## The bookkeeping of a vote -/

theorem commitVote_bookkeeping {who : A} {inFavour : Bool}
    (h : commitVote T who nonce srcId prop inFavour s = .ok s') : Bookkeeping s s' := by
  obtain ⟨_, _, _, hs'⟩ := commitVote_ok h
  have hquiet : (if inFavour = true then Event.voteFor srcId nonce who
      else Event.voteAgainst srcId nonce who).sent = none := by
    cases inFavour <;> rfl
  rw [hs']
  exact ⟨rfl, outbound_depositEvent (s := { s with votes := _ }) hquiet⟩

theorem startExecution_bookkeeping :
    Bookkeeping s (startExecution nonce srcId prop votes s) :=
  ⟨rfl, outbound_depositEvent
    (s := storeDecision nonce srcId prop { votes with status := .approved } s) rfl⟩

theorem rejection_bookkeeping : Bookkeeping s (rejection nonce srcId prop votes s) :=
  ⟨rfl, outbound_depositEvent
    (s := storeDecision nonce srcId prop { votes with status := .rejected } s) rfl⟩

omit [DecidableEq A] [DecidableEq O] in
theorem succeeded_bookkeeping : Bookkeeping s (s.depositEvent (.proposalSucceeded srcId nonce)) :=
  ⟨rfl, outbound_depositEvent rfl⟩

/-! ## A call is a run of its journal -/

theorem resolution_trace {exec : Dispatch A O W}
    {inner : Origin A → State A O W → Journal A O W} (hinner : Traced T exec inner)
    (h : tryResolveProposal T exec nonce srcId prop s = .ok s') :
    Trace Bookkeeping (Executes T) (resolutionJournal T inner nonce srcId prop s) s s' := by
  obtain ⟨votes, hlook, hcomplete, hexpired, _⟩ := tryResolveProposal_ok h
  rw [tryResolveProposal_open hlook hcomplete hexpired] at h
  unfold resolutionJournal
  rw [hlook]
  dsimp only
  by_cases hfor : s.relayerThreshold.toNat ≤ votes.votesFor.length
  · rw [if_pos hfor, bind_eq_ok] at h
    obtain ⟨s₁, hrun, hs'⟩ := h
    cases hs'
    rw [if_pos hfor]
    have hcall := hinner _ _ _ hrun
    exact .silent ((Trace.ofSilent startExecution_bookkeeping).append hcall) succeeded_bookkeeping
  · rw [if_neg hfor] at h ⊢
    by_cases hagainst : votes.Hopeless s.relayerThreshold s.relayerCount
    · rw [if_pos hagainst] at h
      cases h
      exact .ofSilent rejection_bookkeeping
    · rw [if_neg hagainst] at h
      cases h
      exact .refl s

/-- The journal of a vote that is committed. -/
theorem voteJournal_of_commit (inner : Origin A → State A O W → Journal A O W)
    {origin : Origin A} {who : A}
    (horigin : (ensureSigned origin : DispatchResult A) = .ok who) {inFavour : Bool}
    {s₁ : State A O W} (hcommit : commitVote T who nonce srcId prop inFavour s = .ok s₁) :
    voteJournal T inner origin nonce srcId prop inFavour s =
      resolutionJournal T inner nonce srcId prop s₁ := by
  unfold voteJournal
  rw [horigin]
  show (match commitVote T who nonce srcId prop inFavour s with
    | .ok s₁ => resolutionJournal T inner nonce srcId prop s₁
    | .error _ => []) = _
  rw [hcommit]

theorem vote_trace {exec : Dispatch A O W} {inner : Origin A → State A O W → Journal A O W}
    (hinner : Traced T exec inner) {origin : Origin A} {who : A}
    (horigin : (ensureSigned origin : DispatchResult A) = .ok who) {inFavour : Bool}
    {s₁ : State A O W}
    (hcommit : commitVote T who nonce srcId prop inFavour s = .ok s₁)
    (hresolve : tryResolveProposal T exec nonce srcId prop s₁ = .ok s') :
    Trace Bookkeeping (Executes T) (voteJournal T inner origin nonce srcId prop inFavour s)
      s s' := by
  rw [voteJournal_of_commit inner horigin hcommit]
  exact (Trace.ofSilent (commitVote_bookkeeping hcommit)).append (resolution_trace hinner hresolve)

/-- A call that succeeds is a run of the calls of its journal. The induction is on the call. -/
theorem dispatch_trace (T : Config A O W) (call : RuntimeCall A O) :
    Traced T (dispatch T call) (journal T call) := by
  induction call with
  | setThreshold | setResource | removeResource | whitelistChain | addRelayer | removeRelayer
  | other =>
    intro origin s s' h
    exact .single ⟨rfl, h⟩
  | acknowledgeProposal nonce srcId rId call ih =>
    intro origin s s' h
    simp only [dispatch, acknowledgeProposal, voteFor, bind_eq_ok] at h
    obtain ⟨who, horigin, _, _, _, _, _, _, s₁, hcommit, hresolve⟩ := h
    exact vote_trace ih horigin hcommit hresolve
  | rejectProposal nonce srcId rId call ih =>
    intro origin s s' h
    simp only [dispatch, rejectProposal, voteAgainst, bind_eq_ok] at h
    obtain ⟨who, horigin, _, _, _, _, _, _, s₁, hcommit, hresolve⟩ := h
    exact vote_trace ih horigin hcommit hresolve
  | evalVoteState nonce srcId prop ih =>
    intro origin s s' h
    simp only [dispatch, evalVoteState, bind_eq_ok] at h
    obtain ⟨_, _, hresolve⟩ := h
    exact resolution_trace ih hresolve
  | batchAll first second ih₁ ih₂ =>
    intro origin s s' h
    simp only [dispatch, bind_eq_ok] at h
    obtain ⟨s₁, hfirst, hsecond⟩ := h
    unfold journal
    rw [hfirst]
    exact (ih₁ _ _ _ hfirst).append (ih₂ _ _ _ hsecond)
  | batch first second ih₁ ih₂ =>
    intro origin s s' h
    unfold journal
    simp only [dispatch] at h
    cases hfirst : dispatch T first origin s with
    | error e =>
      simp only [hfirst] at h ⊢
      cases h
      exact .refl s
    | ok s₁ =>
      cases hsecond : dispatch T second origin s₁ with
      | error e =>
        simp only [hfirst, hsecond] at h ⊢
        cases h
        exact ih₁ _ _ _ hfirst
      | ok s₂ =>
        simp only [hfirst, hsecond] at h ⊢
        cases h
        exact (ih₁ _ _ _ hfirst).append (ih₂ _ _ _ hsecond)
  | dispatchAs asOrigin call ih =>
    intro origin s s' h
    unfold journal
    simp only [dispatch] at h
    cases hmay : T.mayDispatchAs origin asOrigin with
    | false => simp [hmay] at h
    | true =>
      cases hrun : dispatch T call asOrigin s with
      | error e =>
        simp only [hmay, hrun, if_true] at h ⊢
        cases h
        exact .refl s
      | ok s₁ =>
        simp only [hmay, hrun, if_true] at h ⊢
        cases h
        exact ih _ _ _ hrun

/-! ## What the calls of a journal do -/

/-- The admin changed the settings of the bridge, and nothing else. -/
structure Administered (T : Config A O W) (origin : Origin A) (s s' : State A O W) : Prop where
  admin : ensureAdmin T origin = .ok ()
  frame : s' = { s with
    relayerThreshold := s'.relayerThreshold
    relayers := s'.relayers
    relayerCount := s'.relayerCount
    chainNonces := s'.chainNonces
    resources := s'.resources
    events := s'.events }
  outbound : outbound s' = outbound s

omit [DecidableEq A] [DecidableEq O] in
theorem Administered.world {origin : Origin A} (h : Administered T origin s s') :
    s'.world = s.world := by
  rw [h.frame]

/-- A call that dispatches no other is one of another pallet, or of the admin. -/
theorem executes_cases {origin : Origin A} {call : RuntimeCall A O}
    (h : Executes T s (origin, call) s') :
    (∃ pallet, call = .other pallet ∧ T.other pallet origin s = .ok s') ∨
      Administered T origin s s' := by
  obtain ⟨hbasic, h⟩ := h
  cases call with
  | acknowledgeProposal | rejectProposal | evalVoteState | batchAll | batch | dispatchAs =>
    cases hbasic
  | other pallet => exact Or.inl ⟨pallet, rfl, h⟩
  | setThreshold threshold =>
    simp only [dispatch, setThreshold, setRelayerThreshold, bind_eq_ok] at h
    obtain ⟨_, hadmin, _, _, hs'⟩ := h
    cases hs'
    exact Or.inr ⟨hadmin, rfl, outbound_depositEvent rfl⟩
  | setResource id method =>
    simp only [dispatch, setResource, registerResource, bind_eq_ok] at h
    obtain ⟨_, hadmin, hs'⟩ := h
    cases hs'
    exact Or.inr ⟨hadmin, rfl, rfl⟩
  | removeResource id =>
    simp only [dispatch, removeResource, unregisterResource, bind_eq_ok] at h
    obtain ⟨_, hadmin, hs'⟩ := h
    cases hs'
    exact Or.inr ⟨hadmin, rfl, rfl⟩
  | whitelistChain id =>
    simp only [dispatch, whitelistChain, whitelist, bind_eq_ok] at h
    obtain ⟨_, hadmin, _, _, _, _, hs'⟩ := h
    cases hs'
    exact Or.inr ⟨hadmin, rfl, outbound_depositEvent rfl⟩
  | addRelayer v =>
    simp only [dispatch, addRelayer, registerRelayer, bind_eq_ok] at h
    obtain ⟨_, hadmin, _, _, hs'⟩ := h
    cases hs'
    exact Or.inr ⟨hadmin, rfl, outbound_depositEvent rfl⟩
  | removeRelayer v =>
    simp only [dispatch, removeRelayer, unregisterRelayer, bind_eq_ok] at h
    obtain ⟨_, hadmin, _, _, hs'⟩ := h
    cases hs'
    exact Or.inr ⟨hadmin, rfl, outbound_depositEvent rfl⟩

/-! ## Whose calls they are -/

/-- The origins that `origin` can have calls dispatched with: its own, that of the bridge
account, and those that these may dispatch under in turn. -/
inductive Commands (T : Config A O W) (origin : Origin A) : Origin A → Prop where
  | self : Commands T origin origin
  | bridge : Commands T origin (.signed T.accountId)
  | dispatchAs {o asOrigin : Origin A} (h : Commands T origin o)
      (hmay : T.mayDispatchAs o asOrigin = true) : Commands T origin asOrigin

omit [DecidableEq A] [DecidableEq O] in
theorem Commands.trans {o o₁ o' : Origin A} (h : Commands T o o₁) (h' : Commands T o₁ o') :
    Commands T o o' := by
  induction h' with
  | self => exact h
  | bridge => exact .bridge
  | dispatchAs _ hmay ih => exact .dispatchAs ih hmay

/-- The calls of a journal have origins that its own commands. -/
def Commanded (T : Config A O W) (inner : Origin A → State A O W → Journal A O W) : Prop :=
  ∀ origin s, ∀ e ∈ inner origin s, Commands T origin e.2.1

theorem resolution_commanded {inner : Origin A → State A O W → Journal A O W}
    (hinner : Commanded T inner) (origin : Origin A) :
    ∀ e ∈ resolutionJournal T inner nonce srcId prop s, Commands T origin e.2.1 := by
  intro e he
  unfold resolutionJournal at he
  split at he
  · split at he
    · exact Commands.bridge.trans (hinner _ _ e he)
    · cases he
  · cases he

theorem vote_commanded {inner : Origin A → State A O W → Journal A O W}
    (hinner : Commanded T inner) {inFavour : Bool} :
    Commanded T fun origin s => voteJournal T inner origin nonce srcId prop inFavour s := by
  intro origin s e he
  simp only [voteJournal] at he
  split at he
  · exact resolution_commanded hinner origin e he
  · cases he

theorem journal_commanded (T : Config A O W) (call : RuntimeCall A O) :
    Commanded T (journal T call) := by
  induction call with
  | setThreshold | setResource | removeResource | whitelistChain | addRelayer | removeRelayer
  | other =>
    intro origin s e he
    rw [List.mem_singleton.mp he]
    exact .self
  | acknowledgeProposal nonce srcId rId call ih => exact vote_commanded ih
  | rejectProposal nonce srcId rId call ih => exact vote_commanded ih
  | evalVoteState nonce srcId prop ih =>
    intro origin s
    exact resolution_commanded ih origin
  | batchAll first second ih₁ ih₂ =>
    intro origin s e he
    unfold journal at he
    split at he
    · rcases List.mem_append.mp he with he | he
      · exact ih₁ _ _ e he
      · exact ih₂ _ _ e he
    · cases he
  | batch first second ih₁ ih₂ =>
    intro origin s e he
    unfold journal at he
    split at he
    · split at he
      · rcases List.mem_append.mp he with he | he
        · exact ih₁ _ _ e he
        · exact ih₂ _ _ e he
      · exact ih₁ _ _ e he
    · cases he
  | dispatchAs asOrigin call ih =>
    intro origin s e he
    unfold journal at he
    split at he
    next hmay =>
      split at he
      · exact (Commands.dispatchAs .self hmay).trans (ih _ _ e he)
      · cases he
    next => cases he

end XXChain.Chainbridge
