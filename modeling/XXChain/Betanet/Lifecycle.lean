import XXChain.Betanet.Recorded
import XXChain.Claims.Handler

/-!
# XXChain — the life of the betanet program

Blocks are initialised one after the other; within a block the calls of the two pallets come in
any order. Four places compare the block with the enactment block: `on_initialize` (equal),
`select_option` and `approve` (below) and `add_claimed` (not below).

* **`advance_change`** — what one step does to the records of the program;
* **`advance_alone`** — but for the enactment, a step does what it does without the program;
* **`acts_in_time`** and **`acts_once`** — over a run, the program acts once at most, at its block
  and if it was approved before; **`over_after`** — it leaves nothing to be paid again.
-/

namespace XXChain.Betanet

open StorageMap Claims

variable {A σ : Type} [DecidableEq A] {T : Config A σ} {s s' : State A σ}

/-! ## Blocks -/

/-- The chain initialises a block, with the orders of the drains, or something happens in it. -/
inductive Step (A σ : Type) where
  | onInitialize (n : Nat) (accounts : List (A × UserInfo)) (rewards : List (EthereumAddress × Nat))
  | within (action : Action A σ)

def advance (T : Config A σ) (s : State A σ) : Step A σ → State A σ
  | .onInitialize n accounts rewards => onInitialize T n accounts rewards { s with block := n }
  | .within action => next T s action

/-- Each block is initialised once, after all before it. -/
def Proper (s : State A σ) : Step A σ → Prop
  | .onInitialize n accounts rewards =>
    s.block < n ∧ Drains accounts s.handler.accounts ∧ Drains rewards s.rewards
  | .within (.outside block _) => block = s.block
  | .within _ => True

/-- The step without the program. -/
def advanceAlone (T : Config A σ) (s : Claims.State A σ Unit) : Step A σ → Claims.State A σ Unit
  | .onInitialize n _ _ => { s with block := n }
  | .within (.claims origin call) => applyCall T.claims.alone s (origin, call)
  | .within (.outside block ledger) => { s with block := block, ledger := ledger }
  | .within (.selectOption ..) => s
  | .within (.approve ..) => s

/-- The program changes something outside of its own storage: the ledger, a claim, a schedule,
the total, a reward. -/
def ProgramActs (T : Config A σ) (s : State A σ) (step : Step A σ) : Prop :=
  (advance T s step).alone ≠ advanceAlone T s.alone step

/-- In one of the steps, below the enactment block, the program was approved. -/
def ApprovedIn (T : Config A σ) (genesis : State A σ) (steps : List (Step A σ)) : Prop :=
  ∃ before origin after s', steps = before ++ .within (.approve origin) :: after ∧
    (before.foldl (advance T) genesis).block < T.enactmentBlock ∧
    approve T origin (before.foldl (advance T) genesis) = .ok s'

/-- The state is one in which the block enacts the program. -/
def Enacting (T : Config A σ) (s : State A σ) : Step A σ → Prop
  | .onInitialize n _ _ => n = T.enactmentBlock ∧ s.handler.approved = true
  | .within _ => False

/-! ## The enactment -/

/-- All that paying the accounts changes besides the ledger is that none is left. -/
theorem processRewards_frame {order : List (A × UserInfo)}
    (hdrains : Drains order s.handler.accounts) :
    ∃ ledger, processRewards T order s =
      { s with ledger, handler := { s.handler with accounts := ∅ } } := by
  induction order generalizing s with
  | nil =>
    obtain ⟨block, claims, total, vesting, signing, preclaims, rewards, ledger,
      ⟨accounts, approved, programEvents⟩, events⟩ := s
    cases hdrains.eq_empty
    exact ⟨ledger, rfl⟩
  | cons entry order ih =>
    obtain ⟨k, v⟩ := entry
    exact ih (s := processAccount T k v (setAccounts (s.handler.accounts.erase k) s))
      hdrains.cons.2

omit [DecidableEq A] in
/-- All that topping up the claims leaves of the rewards is nothing. -/
theorem processClaims_frame {order : List (EthereumAddress × Nat)}
    (hdrains : Drains order s.rewards) :
    ∃ ledger claims total vesting, processClaims T order s =
      { s with ledger, claims, total, vesting, rewards := ∅ } := by
  induction order generalizing s with
  | nil =>
    obtain ⟨block, claims, total, vesting, signing, preclaims, rewards, ledger, handler, events⟩ :=
      s
    cases hdrains.eq_empty
    exact ⟨ledger, claims, total, vesting, rfl⟩
  | cons entry order ih =>
    obtain ⟨k, v⟩ := entry
    exact ih (s := processLeftoverClaim T k v { s with rewards := s.rewards.erase k })
      hdrains.cons.2

/-! ## What a step does to the records -/

/-- What the program has on record, of its own and of the claims pallet. -/
structure Records (A : Type) where
  block : Nat
  rewards : StorageMap EthereumAddress Nat
  handler : Storage A
  events : List (Claims.Event A)

def records (s : State A σ) : Records A :=
  ⟨s.block, s.rewards, s.handler, s.events⟩

inductive Change (T : Config A σ) (s : State A σ) : Step A σ → Records A → Prop
  | same (action : Action A σ) : Change T s (.within action) (records s)
  | initialized (n : Nat) (accounts : List (A × UserInfo))
      (rewards : List (EthereumAddress × Nat)) (hblock : s.block < n)
      (hquiet : ¬(n = T.enactmentBlock ∧ s.handler.approved = true)) :
      Change T s (.onInitialize n accounts rewards) { records s with block := n }
  | enacted (accounts : List (A × UserInfo)) (rewards : List (EthereumAddress × Nat))
      (hblock : s.block < T.enactmentBlock) (happroved : s.handler.approved = true) :
      Change T s (.onInitialize T.enactmentBlock accounts rewards)
        { records s with
          block := T.enactmentBlock
          rewards := ∅
          handler := { s.handler with
            accounts := ∅
            events := s.handler.events ++ [.programEnacted] } }
  | claimed (origin : Origin A) (call : Call A) (signer : EthereumAddress) (dest : A)
      (amount reward : Nat) (handler : Storage A)
      (hhandler : handler = s.handler ∨ s.block < T.enactmentBlock ∧
        s.rewards.lookup signer = some reward ∧ handler = { s.handler with
          accounts := s.handler.accounts.insert dest
            { principal := amount, reward := reward, option := default } }) :
      Change T s (.within (.claims origin call))
        { records s with
          rewards := s.rewards.erase signer
          handler := handler
          events := s.events ++ [.claimed dest signer amount reward] }
  | selected (origin : Origin A) (option : RewardOption) (who : A) (info : UserInfo)
      (hblock : s.block < T.enactmentBlock)
      (hlisted : s.handler.accounts.lookup who = some info) :
      Change T s (.within (.selectOption origin option))
        { records s with
          handler := { s.handler with
            accounts := s.handler.accounts.insert who { info with option }
            events := s.handler.events ++ [.optionSelected who option] } }
  | approved (origin : Origin A) (s' : State A σ) (hblock : s.block < T.enactmentBlock)
      (hok : approve T origin s = .ok s') :
      Change T s (.within (.approve origin))
        { records s with
          handler := { s.handler with
            approved := true
            events := s.handler.events ++ [.programApproved] } }

theorem onInitialize_of_not_enacting {n : Nat} {accounts : List (A × UserInfo)}
    {rewards : List (EthereumAddress × Nat)}
    (h : ¬Enacting T s (.onInitialize n accounts rewards)) :
    advance T s (.onInitialize n accounts rewards) = { s with block := n } := by
  show (if n = T.enactmentBlock then if s.handler.approved = true then _ else _ else _) = _
  split
  next hn => rw [if_neg fun happroved => h ⟨hn, happroved⟩]
  next => rfl

theorem selectOption_ok {origin : Origin A} {option : RewardOption}
    (h : selectOption T origin option s = .ok s') :
    ∃ who info, s.block < T.enactmentBlock ∧ s.handler.accounts.lookup who = some info ∧
      s' = { s with handler := { s.handler with
        accounts := s.handler.accounts.insert who { info with option }
        events := s.handler.events ++ [.optionSelected who option] } } := by
  simp only [selectOption, bind_eq_ok, ensure_eq_ok, decide_eq_true_eq] at h
  obtain ⟨who, _, _, hlisted, _, hblock, hs'⟩ := h
  obtain ⟨info, hinfo⟩ := Option.isSome_iff_exists.mp hlisted
  refine ⟨who, info, hblock, hinfo, ?_⟩
  rw [hinfo] at hs'
  exact (Except.ok.inj hs').symm

omit [DecidableEq A] in
theorem approve_ok {origin : Origin A} (h : approve T origin s = .ok s') :
    s.block < T.enactmentBlock ∧
      s' = { s with handler := { s.handler with
        approved := true
        events := s.handler.events ++ [.programApproved] } } := by
  simp only [approve, bind_eq_ok, ensure_eq_ok, decide_eq_true_eq] at h
  obtain ⟨_, _, _, hblock, hs'⟩ := h
  exact ⟨hblock, (Except.ok.inj hs').symm⟩

/-- A claim that is paid, on the records. -/
theorem paidBy_change {origin : Origin A} {call : Call A} {signer : EthereumAddress} {dest : A}
    (h : PaidBy T.wired s s' signer dest) :
    Change T s (.within (.claims origin call)) (records s') := by
  obtain ⟨s₁, hpaid, hs'⟩ := h
  have hrecords : records s' = records s₁ := by rw [hs']; rfl
  rw [hrecords]
  obtain ⟨amount, _, _, _, rfl⟩ := processClaim_eq_ok.mp hpaid
  refine Change.claimed origin call signer dest amount ((s.rewards.lookup signer).getD 0) _ ?_
  cases hreward : s.rewards.lookup signer with
  | none => exact Or.inl (payment_handler_none hreward)
  | some reward =>
    have hhandler : (payment T.wired signer dest amount s).handler =
        addClaimed T.enactmentBlock s.block s.handler dest amount reward :=
      payment_handler_some hreward
    by_cases hpassed : T.enactmentBlock ≤ s.block
    · exact Or.inl (hhandler.trans (if_pos hpassed))
    · exact Or.inr ⟨Nat.lt_of_not_le hpassed, rfl, hhandler.trans (if_neg hpassed)⟩

/-- The calls that pay no claim change no records. -/
theorem applyCall_records (T : Config A σ) (s : State A σ) (origin : Origin A) {call : Call A}
    (hpays : call.pays = false) : records (applyCall T.wired s (origin, call)) = records s := by
  obtain ⟨_, _, _, _, _, hs'⟩ := applyCall_frame T.wired s origin hpays
  rw [hs']
  rfl

theorem advance_change {step : Step A σ} (h : Proper s step) :
    Change T s step (records (advance T s step)) := by
  cases step with
  | onInitialize n accounts rewards =>
    obtain ⟨hblock, haccounts, hrewards⟩ := h
    by_cases henacting : n = T.enactmentBlock ∧ s.handler.approved = true
    · obtain ⟨rfl, happroved⟩ := henacting
      have henacted := Change.enacted (T := T) accounts rewards hblock happroved
      have hrun : advance T s (.onInitialize T.enactmentBlock accounts rewards) =
          depositEvent .programEnacted
            (enactProgram T accounts rewards { s with block := T.enactmentBlock }) := by
        show (if _ then if s.handler.approved = true then _ else _ else _) = _
        rw [if_pos rfl, if_pos happroved]
      obtain ⟨ledger, hfirst⟩ := processRewards_frame (T := T)
        (s := { s with block := T.enactmentBlock }) haccounts
      rw [hrun, enactProgram, hfirst]
      obtain ⟨_, _, _, _, hsecond⟩ := processClaims_frame (T := T)
        (s := { s with
          block := T.enactmentBlock, ledger, handler := { s.handler with accounts := ∅ } }) hrewards
      rw [hsecond]
      exact henacted
    · rw [onInitialize_of_not_enacting henacting]
      exact .initialized n accounts rewards hblock henacting
  | within action =>
    cases action with
    | claims origin call =>
      show Change T s _ (records (applyCall T.wired s (origin, call)))
      cases hpays : call.pays with
      | false =>
        rw [applyCall_records T s origin hpays]
        exact .same _
      | true =>
        rcases applyCall_pays T.wired s origin hpays with ⟨_, _, _, _, hpaid⟩ | hsame
        · exact paidBy_change hpaid
        · rw [hsame]
          exact .same _
    | selectOption origin option =>
      simp only [advance, next]
      split
      case h_1 s' hok =>
        obtain ⟨who, info, hblock, hlisted, rfl⟩ := selectOption_ok hok
        exact .selected origin option who info hblock hlisted
      case h_2 => exact .same _
    | approve origin =>
      simp only [advance, next]
      split
      case h_1 s' hok =>
        have happroved := Change.approved origin s' (approve_ok hok).1 hok
        obtain ⟨_, rfl⟩ := approve_ok hok
        exact happroved
      case h_2 => exact .same _
    | outside block ledger =>
      have hblock : block = s.block := h
      subst hblock
      exact .same _

/-! ## Without the program -/

/-- But for the enactment, a step does what it does without the program. -/
theorem advance_alone {step : Step A σ} (h : ¬Enacting T s step) :
    (advance T s step).alone = advanceAlone T s.alone step := by
  cases step with
  | onInitialize n accounts rewards =>
    rw [onInitialize_of_not_enacting h]
    rfl
  | within action =>
    cases action with
    | claims origin call => exact (applyCall_alone (T := T.wired) (origin, call)).symm
    | selectOption origin option =>
      simp only [advance, next]
      split
      case h_1 s' hok =>
        obtain ⟨_, _, _, _, rfl⟩ := selectOption_ok hok
        rfl
      case h_2 => rfl
    | approve origin =>
      simp only [advance, next]
      split
      case h_1 s' hok =>
        obtain ⟨_, rfl⟩ := approve_ok hok
        rfl
      case h_2 => rfl
    | outside block ledger => rfl

/-! ## What a run keeps -/

def Records.sum (r : Records A) : Nat :=
  sumBy UserInfo.reward r.handler.accounts + sumBy id r.rewards

/-- No reward is on record for an address whose claim was paid, and all rewards together are not
more than the genesis had. -/
structure Records.Kept (bound : Nat) (r : Records A) : Prop where
  claimed : ∀ who address amount reward, .claimed who address amount reward ∈ r.events →
    r.rewards.lookup address = none
  sum_le : r.sum ≤ bound

/-- The enactment block has begun, and no reward is left to be paid. -/
structure Records.Over (T : Config A σ) (r : Records A) : Prop where
  block : T.enactmentBlock ≤ r.block
  accounts : r.handler.accounts = ∅
  rewards : r.rewards = ∅

theorem Change.kept {step : Step A σ} {r : Records A} {bound : Nat} (h : Change T s step r)
    (hs : (records s).Kept bound) : r.Kept bound := by
  have hsum := hs.sum_le
  cases h with
  | same action => exact hs
  | initialized => exact ⟨hs.claimed, hsum⟩
  | enacted accounts rewards hblock happroved =>
    exact ⟨fun _ _ _ _ _ => rfl, Nat.zero_le _⟩
  | claimed origin call signer dest amount reward handler hhandler =>
    have herase := sumBy_erase id s.rewards signer
    constructor
    · intro who address v w hmem
      show (s.rewards.erase signer).lookup address = none
      by_cases haddress : address = signer
      · rw [haddress, Finmap.lookup_erase]
      · rw [Finmap.lookup_erase_ne haddress]
        rcases List.mem_append.mp hmem with hbefore | hnow
        · exact hs.claimed who address v w hbefore
        · cases List.mem_singleton.mp hnow
          exact absurd rfl haddress
    · show sumBy UserInfo.reward handler.accounts + sumBy id (s.rewards.erase signer) ≤ bound
      have hbefore : sumBy UserInfo.reward s.handler.accounts + sumBy id s.rewards ≤ bound := hsum
      rcases hhandler with rfl | ⟨_, hreward, rfl⟩
      · omega
      · -- the reward moves to the account, over the one that is listed there
        have hinsert := sumBy_insert UserInfo.reward s.handler.accounts dest
          { principal := amount, reward := reward, option := default }
        rw [valueAt_of_some hreward, id_eq] at herase
        simp only at hinsert ⊢
        omega
  | selected origin option who info hblock hlisted =>
    refine ⟨hs.claimed, ?_⟩
    have hinsert := sumBy_insert UserInfo.reward s.handler.accounts who { info with option }
    have hbefore : sumBy UserInfo.reward s.handler.accounts + sumBy id s.rewards ≤ bound := hsum
    rw [valueAt_of_some hlisted] at hinsert
    show sumBy UserInfo.reward (s.handler.accounts.insert who _) + sumBy id s.rewards ≤ bound
    simp only at hinsert ⊢
    omega
  | approved origin s' hblock hok => exact ⟨hs.claimed, hsum⟩

/-- From the enactment block on, entries of the accounts only go. -/
theorem Change.accounts_late {step : Step A σ} {r : Records A} (h : Change T s step r)
    (hlate : T.enactmentBlock ≤ r.block) :
    r.handler.accounts = s.handler.accounts ∨ r.handler.accounts = ∅ := by
  cases h with
  | same action => exact Or.inl rfl
  | initialized => exact Or.inl rfl
  | enacted => exact Or.inr rfl
  | claimed origin call signer dest amount reward handler hhandler =>
    rcases hhandler with rfl | ⟨hblock, _⟩
    · exact Or.inl rfl
    · exact absurd hblock (Nat.not_lt.mpr hlate)
  | selected origin option who info hblock hlisted => exact absurd hblock (Nat.not_lt.mpr hlate)
  | approved origin s' hblock hok => exact absurd hblock (Nat.not_lt.mpr hlate)

theorem Change.block_le {step : Step A σ} {r : Records A} (h : Change T s step r) :
    s.block ≤ r.block := by
  cases h with
  | initialized n accounts rewards hblock => exact hblock.le
  | enacted accounts rewards hblock => exact hblock.le
  | same | claimed | selected | approved => exact Nat.le_refl _

theorem Change.over {step : Step A σ} {r : Records A} (h : Change T s step r)
    (hs : (records s).Over T) : r.Over T := by
  have hlate := hs.block.trans h.block_le
  refine ⟨hlate, ?_, ?_⟩
  · rcases h.accounts_late hlate with hsame | hempty
    · exact hsame.trans hs.accounts
    · exact hempty
  · cases h with
    | same | initialized | selected | approved => exact hs.rewards
    | enacted => rfl
    | claimed origin call signer =>
      show s.rewards.erase signer = ∅
      have hempty : s.rewards = ∅ := hs.rewards
      rw [hempty]
      rfl

/-! ## The approval -/

/-- The approval is given by `approve`, and never taken back. -/
theorem Change.approved_cases {step : Step A σ} {r : Records A} (h : Change T s step r) :
    r.handler.approved = s.handler.approved ∨ r.handler.approved = true ∧
      ∃ origin s', step = .within (.approve origin) ∧ s.block < T.enactmentBlock ∧
        approve T origin s = .ok s' := by
  cases h with
  | same | initialized | enacted | selected => exact Or.inl rfl
  | claimed origin call signer dest amount reward handler hhandler =>
    rcases hhandler with rfl | ⟨_, _, rfl⟩
    · exact Or.inl rfl
    · exact Or.inl rfl
  | approved origin s' hblock hok => exact Or.inr ⟨rfl, origin, s', rfl, hblock, hok⟩

theorem approved_advance_iff {step : Step A σ} (h : Proper s step) :
    (advance T s step).handler.approved = true ↔
      s.handler.approved = true ∨ ∃ origin s', step = .within (.approve origin) ∧
        s.block < T.enactmentBlock ∧ approve T origin s = .ok s' := by
  have hcases := (advance_change (T := T) h).approved_cases
  have hflag : (records (advance T s step)).handler.approved =
    (advance T s step).handler.approved := rfl
  rw [hflag] at hcases
  constructor
  · intro happroved
    rcases hcases with hsame | ⟨_, hnow⟩
    · exact Or.inl (hsame.symm.trans happroved)
    · exact Or.inr hnow
  · rintro (hbefore | ⟨origin, s', rfl, _, hok⟩)
    · rcases hcases with hsame | ⟨happroved, _⟩
      · exact hsame.trans hbefore
      · exact happroved
    · simp only [advance, next, hok]
      obtain ⟨_, rfl⟩ := approve_ok hok
      rfl

/-! ## Whole runs -/

section Runs

variable {genesis : State A σ} {steps : List (Step A σ)}

/-- The state after the steps of a run. -/
def stateAfter (T : Config A σ) (genesis : State A σ) (steps : List (Step A σ)) : State A σ :=
  steps.foldl (advance T) genesis

theorem stateAfter_append (steps after : List (Step A σ)) :
    stateAfter T genesis (steps ++ after) = stateAfter T (stateAfter T genesis steps) after :=
  List.foldl_append

theorem stateAfter_concat (steps : List (Step A σ)) (step : Step A σ) :
    stateAfter T genesis (steps ++ [step]) = advance T (stateAfter T genesis steps) step :=
  stateAfter_append steps [step]

theorem kept_run {bound : Nat} (hs : (records genesis).Kept bound)
    (hproper : Along (advance T) Proper genesis steps) :
    (records (stateAfter T genesis steps)).Kept bound := by
  induction steps generalizing genesis with
  | nil => exact hs
  | cons step steps ih => exact ih ((advance_change hproper.1).kept hs) hproper.2

theorem over_run (hs : (records genesis).Over T)
    (hproper : Along (advance T) Proper genesis steps) :
    (records (stateAfter T genesis steps)).Over T := by
  induction steps generalizing genesis with
  | nil => exact hs
  | cons step steps ih => exact ih ((advance_change hproper.1).over hs) hproper.2

/-- The program was approved in the last step or in one before it. -/
theorem approvedIn_concat {step : Step A σ} :
    ApprovedIn T genesis (steps ++ [step]) ↔ ApprovedIn T genesis steps ∨
      ∃ origin s', step = .within (.approve origin) ∧
        (stateAfter T genesis steps).block < T.enactmentBlock ∧
        approve T origin (stateAfter T genesis steps) = .ok s' := by
  constructor
  · rintro ⟨before, origin, after, s', heq, hblock, hok⟩
    rcases List.eq_nil_or_concat after with rfl | ⟨after, last, rfl⟩
    · obtain ⟨rfl, hlast⟩ := List.append_inj' heq rfl
      cases hlast
      exact Or.inr ⟨origin, s', rfl, hblock, hok⟩
    · rw [List.concat_eq_append, ← List.cons_append, ← List.append_assoc] at heq
      obtain ⟨rfl, _⟩ := List.append_inj' heq rfl
      exact Or.inl ⟨before, origin, after, s', rfl, hblock, hok⟩
  · rintro (⟨before, origin, after, s', rfl, hblock, hok⟩ | ⟨origin, s', rfl, hblock, hok⟩)
    · exact ⟨before, origin, after ++ [step], s', by simp, hblock, hok⟩
    · exact ⟨steps, origin, [], s', rfl, hblock, hok⟩

/-- The flag in the storage says whether the program was approved. -/
theorem approved_iff (hgenesis : genesis.handler.approved = false)
    (hproper : Along (advance T) Proper genesis steps) :
    (stateAfter T genesis steps).handler.approved = true ↔ ApprovedIn T genesis steps := by
  induction steps using List.reverseRecOn with
  | nil =>
    refine iff_of_false ?_ ?_
    · show ¬genesis.handler.approved = true
      rw [hgenesis]
      decide
    · rintro ⟨before, origin, after, s', heq, _⟩
      cases before <;> cases heq
  | append_singleton steps step ih =>
    obtain ⟨hsteps, hstep, _⟩ := Along.append.mp hproper
    have hflag := approved_advance_iff (T := T) (s := stateAfter T genesis steps) hstep
    rw [stateAfter_concat, hflag, approvedIn_concat, ih hsteps]

/-- A run without an approval is one without the program. -/
theorem alone_of_not_approved (hgenesis : genesis.handler.approved = false)
    (hproper : Along (advance T) Proper genesis steps) (hnot : ¬ApprovedIn T genesis steps) :
    (stateAfter T genesis steps).alone = steps.foldl (advanceAlone T) genesis.alone := by
  induction steps using List.reverseRecOn with
  | nil => rfl
  | append_singleton steps step ih =>
    obtain ⟨hsteps, _⟩ := Along.append.mp hproper
    have hnever : ¬ApprovedIn T genesis steps := fun h => hnot (approvedIn_concat.mpr (Or.inl h))
    have hquiet : ¬Enacting T (stateAfter T genesis steps) step := by
      intro henacting
      cases step with
      | onInitialize n accounts rewards =>
        exact hnever ((approved_iff hgenesis hsteps).mp henacting.2)
      | within action => exact henacting
    rw [stateAfter_concat, advance_alone hquiet, ih hsteps hnever, List.foldl_append]
    rfl

/-- A step in which the program acts is its enactment. -/
theorem enacting_of_acts {step : Step A σ} (h : ProgramActs T s step) : Enacting T s step := by
  by_contra hquiet
  exact h (advance_alone hquiet)

theorem over_of_enacting {step : Step A σ} (h : Enacting T s step) (hproper : Proper s step) :
    (records (advance T s step)).Over T := by
  have hchange := advance_change (T := T) hproper
  cases step with
  | onInitialize n accounts rewards =>
    generalize records (advance T s (.onInitialize n accounts rewards)) = r at hchange
    cases hchange with
    | initialized _ _ _ _ hquiet => exact absurd h hquiet
    | enacted => exact ⟨Nat.le_refl _, rfl, rfl⟩
  | within action => exact h.elim

/-- Once it is enacted, the program is over for the rest of the run. -/
theorem over_after {step : Step A σ} {after : List (Step A σ)}
    (henacting : Enacting T (stateAfter T genesis steps) step)
    (hproper : Along (advance T) Proper genesis (steps ++ step :: after)) :
    (records (stateAfter T genesis (steps ++ step :: after))).Over T := by
  obtain ⟨_, hstep, hafter⟩ := Along.append.mp hproper
  rw [stateAfter_append]
  show (records (stateAfter T (advance T (stateAfter T genesis steps) step) after)).Over T
  exact over_run (over_of_enacting henacting hstep) hafter

/-- The program acts in its block only, and if it was approved. -/
theorem acts_in_time {step : Step A σ} (hgenesis : genesis.handler.approved = false)
    (hproper : Along (advance T) Proper genesis steps)
    (hacts : ProgramActs T (stateAfter T genesis steps) step) :
    ApprovedIn T genesis steps ∧
      ∃ accounts rewards, step = .onInitialize T.enactmentBlock accounts rewards := by
  have henacting := enacting_of_acts hacts
  cases step with
  | onInitialize n accounts rewards =>
    obtain ⟨rfl, happroved⟩ := henacting
    exact ⟨(approved_iff hgenesis hproper).mp happroved, accounts, rewards, rfl⟩
  | within action => exact henacting.elim

/-- It does not act again, since the enactment block has begun already. -/
theorem acts_once {step step' : Step A σ} {between : List (Step A σ)}
    (hproper : Along (advance T) Proper genesis (steps ++ step :: between ++ [step']))
    (hacts : ProgramActs T (stateAfter T genesis steps) step) :
    ¬ProgramActs T (stateAfter T genesis (steps ++ step :: between)) step' := by
  intro hacts'
  obtain ⟨hbefore, hstep', _⟩ := Along.append.mp hproper
  have hlate := (over_after (enacting_of_acts hacts) hbefore).block
  have henacting := enacting_of_acts hacts'
  cases step' with
  | onInitialize n accounts rewards =>
    obtain ⟨rfl, _⟩ := henacting
    exact absurd hstep'.1 (Nat.not_lt.mpr hlate)
  | within action => exact henacting.elim

/-- A step that ends in the enactment block or after it leaves the accounts alone, or empties
them. -/
theorem lookup_late {step : Step A σ} (hproper : Proper s step)
    (hlate : T.enactmentBlock ≤ (advance T s step).block) {a : A} {info : UserInfo}
    (hinfo : (advance T s step).handler.accounts.lookup a = some info) :
    s.handler.accounts.lookup a = some info := by
  rcases (advance_change (T := T) hproper).accounts_late hlate with hsame | hempty
  · exact hsame ▸ hinfo
  · have hnone : (advance T s step).handler.accounts = ∅ := hempty
    rw [hnone] at hinfo
    cases hinfo

end Runs

end XXChain.Betanet
