import XXChain.Custody.TotalCustody

/-!
# XXChain — payouts do not depend on the path

Up to the end of the custody, `due` says what a member is to have been paid by a block. The
member is followed through a run, by name, since a replacement hands everything recorded to
another name (`follow`).

* **`follow_onTrack`** — no step pays a member more than what is due, and every step records
  what it pays;
* **`payouts_path_independent`** — over any run, whatever the earlier payouts were, a payout that
  the two accounts can cover brings the member to what is due.
-/

namespace XXChain.Custody

open StorageMap

variable {A σ : Type} [DecidableEq A] {T : Config A σ} {s s' : State A σ} {who x : A}
  {info : CustodyInfo A} {amount : Nat}

/-! ## What is paid -/

/-- What the event says was paid to the account. -/
def Event.paid (who : A) : Event A → Nat
  | .payoutFromCustody a amount => if a = who then amount else 0
  | .payoutFromReserve a amount => if a = who then amount else 0
  | _ => 0

def paidTo (who : A) (events : List (Event A)) : Nat :=
  (events.map (Event.paid who)).sum

theorem paidTo_concat (events : List (Event A)) (event : Event A) :
    paidTo x (events ++ [event]) = paidTo x events + event.paid x := by
  simp [paidTo]

theorem transferPayout_paid {source : A} {event : Event A}
    (hevent : event.paid x = if who = x then amount else 0)
    (h : transferPayout T source who amount event s = .ok s') :
    paidTo x s'.events = paidTo x s.events + if who = x then amount else 0 := by
  unfold transferPayout at h
  split at h
  next hzero =>
    cases h
    simp [hzero]
  next =>
    simp only [bind_eq_ok] at h
    obtain ⟨ledger, _, hs'⟩ := h
    cases hs'
    rw [← hevent]
    exact paidTo_concat _ _

/-- The events of a payout before the end tell what is taken out of the two accounts. -/
theorem doPayout_paid (h : doPayout T who amount info true s = .ok s') :
    paidTo x s'.events = paidTo x s.events + if who = x then
      (withdrawals T amount info true s.ledger).1 + (withdrawals T amount info true s.ledger).2
    else 0 := by
  simp only [doPayout, bind_eq_ok] at h
  obtain ⟨s₁, hcustody, s₂, hreserve, _, _, hs'⟩ := h
  cases hs'
  have hfirst := transferPayout_paid (x := x) rfl hcustody
  have hsecond := transferPayout_paid (x := x) rfl hreserve
  show paidTo x s₂.events = _
  rw [hsecond, hfirst]
  split <;> omega

omit [DecidableEq A] in
/-- Together they take out the amount, or all that there is. -/
theorem withdrawals_sum (T : Config A σ) (amount : Nat) (info : CustodyInfo A) (ledger : σ) :
    (withdrawals T amount info true ledger).1 + (withdrawals T amount info true ledger).2 =
      min amount (T.currency.reducibleBalance ledger info.custody true +
        T.currency.reducibleBalance ledger info.reserve true) := by
  simp only [withdrawals, if_true]
  omega

/-- The other calls pay nothing. -/
theorem dispatch_paid {origin : Origin A} {call : Call A} (hcall : ∀ who, call ≠ .payout who)
    (h : dispatch T origin call s = .ok s') : paidTo x s'.events = paidTo x s.events := by
  have hcustodian : ∀ {custody done error} {f : σ → DispatchResult σ},
      asCustodian origin custody done error s f = .ok s' → s'.events = s.events := by
    intro custody done error f hok
    obtain ⟨_, _, _, rfl⟩ := asCustodian_ok hok
    rfl
  cases call with
  | payout who => exact absurd rfl (hcall who)
  | custodyBond custody controller value =>
    unfold dispatch custodyBond at h
    rw [hcustodian h]
  | custodyBondExtra custody value =>
    unfold dispatch custodyBondExtra at h
    rw [hcustodian h]
  | custodySetController custody controller =>
    unfold dispatch custodySetController at h
    rw [hcustodian h]
  | custodySetProxy custody proxy =>
    unfold dispatch custodySetProxy at h
    rw [hcustodian h]
  | teamCustodySetProxy proxy =>
    obtain ⟨_, _, _, _, _, rfl⟩ := teamCustodySetProxy_ok h
    rfl
  | addCustodian custodian =>
    rw [addCustodian_ok h]
    exact paidTo_concat _ _
  | removeCustodian custodian =>
    rw [removeCustodian_ok h]
    exact paidTo_concat _ _
  | replaceTeamMember who new =>
    obtain ⟨_, _, _, rfl⟩ := replaceTeamMember_eq h
    exact paidTo_concat _ _

/-! ## Attempts before the end -/

/-- Before the end a payout pays what is due, if anything is. -/
theorem payout_before {account : A} (hinfo : s.teamAccounts.lookup who = some info)
    (hbefore : s.block ≤ T.custodyDuration) :
    payout T (.signed account) who s = if amountDue T s.block info = 0 then
        .error (.module .payoutNotAvailable)
      else doPayout T who (amountDue T s.block info) info true s := by
  have hopen : isCustodyDone T s.block = false := decide_eq_false (Nat.not_lt.mpr hbefore)
  have hmember : isTeamMember who s = true := by
    rw [isTeamMember, hinfo]
    rfl
  show (do
    ensure (isTeamMember who s) (.module .invalidTeamMember)
    tryPayout T who s : DispatchResult (State A σ)) = _
  rw [hmember]
  show tryPayout T who s = _
  simp only [tryPayout, hinfo, hopen]
  show (if amountDue T s.block info ≠ 0 then
    doPayout T who (amountDue T s.block info) info true s else _) = _
  rw [ite_not]

/-- A payout that has something to pay does not fail for having nothing. -/
theorem doPayout_ne_notAvailable :
    doPayout T who amount info true s ≠ .error (.module .payoutNotAvailable) := by
  have htransfer : ∀ source a event (s : State A σ),
      transferPayout T source who a event s ≠ .error (.module .payoutNotAvailable) := by
    intro source a event s
    unfold transferPayout
    split
    · simp
    · apply bind_ne_error
      · cases T.currency.transfer s.ledger source who a <;> simp [called, okOr]
      · simp
  apply bind_ne_error (htransfer _ _ _ _)
  intro s₁
  apply bind_ne_error (htransfer _ _ _ _)
  intro s₂
  apply bind_ne_error
  · unfold ensure
    split <;> simp
  · simp

/-- So that error tells that nothing is due. -/
theorem payout_notAvailable_iff {account : A} (hinfo : s.teamAccounts.lookup who = some info)
    (hbefore : s.block ≤ T.custodyDuration) :
    payout T (.signed account) who s = .error (.module .payoutNotAvailable) ↔
      amountDue T s.block info = 0 := by
  rw [payout_before hinfo hbefore]
  split
  next hnone => exact iff_of_true rfl hnone
  next hsome => exact iff_of_false doPayout_ne_notAvailable hsome

/-! ## Following a member -/

/-- The name that the member has after the action. -/
def renamed (T : Config A σ) (s : State A σ) (who : A) : Action A σ → A
  | .call origin (.replaceTeamMember old new) =>
    if old = who ∧ (replaceTeamMember T origin old new s).isOk then new else who
  | _ => who

/-- A member in a run: the name, and all that was paid to it so far under any name. -/
structure Followed (A σ : Type) where
  state : State A σ
  who : A
  paid : Nat

def follow (T : Config A σ) (m : Followed A σ) (a : Action A σ) : Followed A σ where
  state := next T m.state a
  who := renamed T m.state m.who a
  paid := m.paid + (paidTo m.who (next T m.state a).events - paidTo m.who m.state.events)

/-- The member has been paid what is recorded, and not more than what is due. -/
structure OnTrack (T : Config A σ) (m : Followed A σ) (info : CustodyInfo A) : Prop where
  lookup : m.state.teamAccounts.lookup m.who = some info
  vested_eq : info.vested = m.paid
  vested_le : info.vested ≤ due T info.allocation m.state.block

/-- The products of the payouts up to the end fit into a balance. -/
def ProductsFit (T : Config A σ) (allocation : Nat) : Prop :=
  due T allocation T.custodyDuration < balanceLimit

variable {m : Followed A σ}

/-- What is due does not wrap, and neither does what it exceeds the vested amount by. -/
theorem OnTrack.amountDue_eq (h : OnTrack T m info) (hbefore : m.state.block ≤ T.custodyDuration)
    (hfits : ProductsFit T info.allocation) :
    amountDue T m.state.block info = due T info.allocation m.state.block - info.vested := by
  have hlt : due T info.allocation m.state.block < balanceLimit :=
    lt_of_le_of_lt (due_mono hbefore) hfits
  unfold amountDue
  rw [Nat.mod_eq_of_lt hlt, wrappingSub_eq h.vested_le hlt]

/-- A payout pays what the two accounts can cover of what is due, and records it. -/
theorem OnTrack.doPayout_ok (h : OnTrack T m info) (hbefore : m.state.block ≤ T.custodyDuration)
    (hfits : ProductsFit T info.allocation)
    (hpay : doPayout T m.who (amountDue T m.state.block info) info true m.state = .ok s') :
    ∃ paid, paid = min (due T info.allocation m.state.block - info.vested)
        (T.currency.reducibleBalance m.state.ledger info.custody true +
          T.currency.reducibleBalance m.state.ledger info.reserve true) ∧
      paidTo m.who s'.events = paidTo m.who m.state.events + paid ∧
      s'.block = m.state.block ∧
      s'.teamAccounts =
        m.state.teamAccounts.insert m.who { info with vested := info.vested + paid } := by
  have hdue := h.amountDue_eq hbefore hfits
  have hlt : due T info.allocation m.state.block < balanceLimit :=
    lt_of_le_of_lt (due_mono hbefore) hfits
  have hsum := withdrawals_sum T (amountDue T m.state.block info) info m.state.ledger
  have hpaid := doPayout_paid (x := m.who) hpay
  obtain ⟨_, hblock, _, hteam⟩ := Custody.doPayout_ok hpay
  have hle := h.vested_le
  rw [hdue] at hsum hteam
  rw [if_pos rfl, hdue, hsum] at hpaid
  refine ⟨_, rfl, hpaid, hblock, ?_⟩
  rw [hteam, if_pos rfl]
  unfold CustodyInfo.increaseVested withdrawn
  rw [hsum]
  have hmin := min_le_left (due T info.allocation m.state.block - info.vested)
    (T.currency.reducibleBalance m.state.ledger info.custody true +
      T.currency.reducibleBalance m.state.ledger info.reserve true)
  generalize min (due T info.allocation m.state.block - info.vested) _ = paid at hmin ⊢
  rw [Nat.mod_eq_of_lt (a := paid) (by omega), Nat.mod_eq_of_lt (by omega)]

theorem next_block_le (T : Config A σ) (s : State A σ) (a : Action A σ) :
    s.block ≤ (next T s a).block := by
  cases a with
  | outside blocks ledger => exact Nat.le_add_right _ _
  | call origin call =>
    rcases applyCall_cases T s origin call with hsame | hok
    · exact (congrArg State.block hsame).ge
    · rcases dispatch_cases hok with hbooks | ⟨who, _, hpay⟩ | ⟨who, new, _, hreplace⟩
      · exact hbooks.block.ge
      · obtain ⟨info, _, ⟨_, hlast⟩ | ⟨_, hdue⟩⟩ := payout_cases hpay
        · exact (lastPayout_books hlast).1.ge
        · obtain ⟨_, hblock, _⟩ := doPayout_ok hdue
          exact hblock.ge
      · obtain ⟨_, _, _, _, hblock, _⟩ := replaceTeamMember_ok hreplace
        exact hblock.ge

/-- What a step has to do to keep a member on track. -/
theorem OnTrack.follow_of {a : Action A σ} {info' : CustodyInfo A} (paid : Nat)
    (h : OnTrack T m info)
    (hlookup : (next T m.state a).teamAccounts.lookup (renamed T m.state m.who a) = some info')
    (hpaid : paidTo m.who (next T m.state a).events = paidTo m.who m.state.events + paid)
    (hvested : info'.vested = info.vested + paid)
    (hle : info'.vested ≤ due T info'.allocation (next T m.state a).block) :
    OnTrack T (follow T m a) info' := by
  refine ⟨hlookup, ?_, hle⟩
  show info'.vested = m.paid + (paidTo m.who _ - paidTo m.who m.state.events)
  rw [hpaid, hvested, h.vested_eq]
  omega

/-- A step that leaves the member's entry alone, at the same block or a later one. -/
theorem OnTrack.follow_same {a : Action A σ} (h : OnTrack T m info)
    (hlookup : (next T m.state a).teamAccounts.lookup (renamed T m.state m.who a) = some info)
    (hpaid : paidTo m.who (next T m.state a).events = paidTo m.who m.state.events) :
    OnTrack T (follow T m a) info :=
  h.follow_of 0 hlookup hpaid rfl
    (h.vested_le.trans (due_mono (next_block_le T m.state a)))

theorem OnTrack.follow_payout {origin : Origin A} (h : OnTrack T m info)
    (hbefore : m.state.block ≤ T.custodyDuration) (hfits : ProductsFit T info.allocation)
    (hpay : payout T origin x m.state = .ok s') :
    ∃ info', OnTrack T (follow T m (.call origin (.payout x))) info' ∧
      info'.allocation = info.allocation ∧ info.vested ≤ info'.vested := by
  have hnext : next T m.state (.call origin (.payout x)) = s' := by
    simp only [next, applyCall, dispatch, hpay]
  obtain ⟨infoₓ, hinfoₓ, ⟨hdone, _⟩ | ⟨_, hdo⟩⟩ := payout_cases hpay
  · exact absurd hdone (Nat.not_lt.mpr hbefore)
  · by_cases hx : x = m.who
    · subst hx
      have hsame : infoₓ = info := Option.some.inj (hinfoₓ.symm.trans h.lookup)
      subst hsame
      obtain ⟨paid, hpaid, hevents, hblock, hteam⟩ := h.doPayout_ok hbefore hfits hdo
      refine ⟨{ infoₓ with vested := infoₓ.vested + paid }, h.follow_of paid ?_ ?_ rfl ?_,
        rfl, Nat.le_add_right _ _⟩
      · rw [hnext, hteam]
        exact Finmap.lookup_insert _
      · rw [hnext, hevents]
      · have hle := h.vested_le
        rw [hnext, hblock]
        show infoₓ.vested + paid ≤ due T infoₓ.allocation m.state.block
        omega
    · -- the payout of another member
      have hpaid := doPayout_paid (x := m.who) hdo
      obtain ⟨_, _, _, hteam⟩ := Custody.doPayout_ok hdo
      rw [if_neg hx] at hpaid
      refine ⟨info, h.follow_same ?_ ?_, rfl, Nat.le_refl _⟩
      · rw [hnext, hteam, if_pos rfl]
        exact (Finmap.lookup_insert_of_ne _ (Ne.symm hx)).trans h.lookup
      · rw [hnext, hpaid, Nat.add_zero]

theorem OnTrack.follow_replace {origin : Origin A} {old new : A} (h : OnTrack T m info)
    (hreplace : replaceTeamMember T origin old new m.state = .ok s') :
    OnTrack T (follow T m (.call origin (.replaceTeamMember old new))) info := by
  have hnext : next T m.state (.call origin (.replaceTeamMember old new)) = s' := by
    simp only [next, applyCall, dispatch, hreplace]
  have hrenamed : renamed T m.state m.who (.call origin (.replaceTeamMember old new)) =
      if old = m.who then new else m.who := by
    simp only [renamed, hreplace, Except.isOk, Except.toBool, and_true]
  have hdispatch : dispatch T origin (.replaceTeamMember old new) m.state = .ok s' := hreplace
  have hpaid : paidTo m.who s'.events = paidTo m.who m.state.events :=
    dispatch_paid (by simp) hdispatch
  obtain ⟨info₀, hinfo₀, hfresh, hteam, _, _⟩ := replaceTeamMember_ok hreplace
  apply h.follow_same
  · rw [hnext, hteam, hrenamed]
    by_cases hold : old = m.who
    · subst hold
      rw [if_pos rfl, Finmap.lookup_insert, ← hinfo₀, h.lookup]
    · have hne := ne_of_lookup h.lookup hfresh
      rw [if_neg hold, Finmap.lookup_insert_of_ne _ hne, Finmap.lookup_erase_ne (Ne.symm hold),
        h.lookup]
  · rw [hnext, hpaid]

/-- No step pays a member more than is due, and every step records what it pays. -/
theorem follow_onTrack (h : OnTrack T m info) (hbefore : m.state.block ≤ T.custodyDuration)
    (hfits : ProductsFit T info.allocation) (a : Action A σ) :
    ∃ info', OnTrack T (follow T m a) info' ∧ info'.allocation = info.allocation ∧
      info.vested ≤ info'.vested := by
  cases a with
  | outside blocks ledger => exact ⟨info, h.follow_same h.lookup rfl, rfl, Nat.le_refl _⟩
  | call origin call =>
    cases hrun : dispatch T origin call m.state with
    | error e =>
      have hnext : next T m.state (.call origin call) = m.state := by
        simp only [next, applyCall, hrun]
      have hname : renamed T m.state m.who (.call origin call) = m.who := by
        cases call with
        | replaceTeamMember old new =>
          have hfails : replaceTeamMember T origin old new m.state = .error e := hrun
          simp only [renamed, hfails, Except.isOk, Except.toBool, Bool.false_eq_true, and_false,
            if_false]
        | _ => rfl
      refine ⟨info, h.follow_same ?_ ?_, rfl, Nat.le_refl _⟩
      · rw [hnext, hname, h.lookup]
      · rw [hnext]
    | ok s' =>
      have hnext : next T m.state (.call origin call) = s' := by
        simp only [next, applyCall, hrun]
      cases call with
      | payout x => exact h.follow_payout hbefore hfits hrun
      | replaceTeamMember old new =>
        exact ⟨info, h.follow_replace hrun, rfl, Nat.le_refl _⟩
      | _ =>
        -- the books of the team stay as they are
        rcases dispatch_cases hrun with hbooks | ⟨_, hcall, _⟩ | ⟨_, _, hcall, _⟩
        · refine ⟨info, h.follow_same ?_ ?_, rfl, Nat.le_refl _⟩
          · rw [hnext, hbooks.teamAccounts]
            exact h.lookup
          · rw [hnext]
            exact dispatch_paid (by simp) hrun
        · cases hcall
        · cases hcall

/-! ## Whole runs -/

/-- What holds of a member before the end of the custody. -/
structure PathIndependent (T : Config A σ) (m : Followed A σ) (info : CustodyInfo A) : Prop where
  vested_le : info.vested ≤ due T info.allocation m.state.block
  /-- The subtraction does not underflow. -/
  amountDue_eq : amountDue T m.state.block info =
    due T info.allocation m.state.block - info.vested
  /-- All that was paid is recorded. -/
  vested_eq : info.vested = m.paid
  /-- No step takes anything back. -/
  vested_mono : ∀ a, ∃ info',
    (next T m.state a).teamAccounts.lookup (renamed T m.state m.who a) = some info' ∧
      info.vested ≤ info'.vested
  /-- An attempt tells that nothing is available when nothing is due. -/
  notAvailable_iff : ∀ account,
    payout T (.signed account) m.who m.state = .error (.module .payoutNotAvailable) ↔
      info.vested = due T info.allocation m.state.block
  /-- A payout that can be covered pays all that is due. -/
  covered : ∀ origin s', payout T origin m.who m.state = .ok s' →
    due T info.allocation m.state.block - info.vested ≤
        T.currency.reducibleBalance m.state.ledger info.custody true +
          T.currency.reducibleBalance m.state.ledger info.reserve true →
    ∃ info', s'.teamAccounts.lookup m.who = some info' ∧
      info'.vested = due T info.allocation m.state.block

theorem OnTrack.pathIndependent (h : OnTrack T m info)
    (hbefore : m.state.block ≤ T.custodyDuration) (hfits : ProductsFit T info.allocation) :
    PathIndependent T m info where
  vested_le := h.vested_le
  amountDue_eq := h.amountDue_eq hbefore hfits
  vested_eq := h.vested_eq
  vested_mono := by
    intro a
    obtain ⟨info', hinfo', _, hle⟩ := follow_onTrack h hbefore hfits a
    exact ⟨info', hinfo'.lookup, hle⟩
  notAvailable_iff := by
    intro account
    have hle := h.vested_le
    rw [payout_notAvailable_iff h.lookup hbefore, h.amountDue_eq hbefore hfits]
    omega
  covered := by
    intro origin s' hpay hcovered
    obtain ⟨info₁, hinfo₁, ⟨hdone, _⟩ | ⟨_, hdo⟩⟩ := payout_cases hpay
    · exact absurd hdone (Nat.not_lt.mpr hbefore)
    · have hsame : info₁ = info := Option.some.inj (hinfo₁.symm.trans h.lookup)
      subst hsame
      obtain ⟨paid, hpaid, _, _, hteam⟩ := h.doPayout_ok hbefore hfits hdo
      have hle := h.vested_le
      rw [min_eq_left hcovered] at hpaid
      refine ⟨_, by rw [hteam]; exact Finmap.lookup_insert _, ?_⟩
      show info₁.vested + paid = _
      omega

/-- Along a run that does not pass the end, the member stays on track. -/
theorem follow_run {actions : List (Action A σ)} (h : OnTrack T m info)
    (hfits : ProductsFit T info.allocation)
    (hbefore : (actions.foldl (follow T) m).state.block ≤ T.custodyDuration) :
    ∃ info', OnTrack T (actions.foldl (follow T) m) info' ∧
      info'.allocation = info.allocation := by
  induction actions using List.reverseRecOn with
  | nil => exact ⟨info, h, rfl⟩
  | append_singleton actions a ih =>
    rw [List.foldl_append] at hbefore ⊢
    have hblock := (next_block_le T (actions.foldl (follow T) m).state a).trans hbefore
    obtain ⟨info₁, hinfo₁, hallocation₁⟩ := ih hblock
    rw [← hallocation₁] at hfits
    obtain ⟨info', hinfo', hallocation', _⟩ := follow_onTrack hinfo₁ hblock hfits a
    exact ⟨info', hinfo', hallocation'.trans hallocation₁⟩

/-- A member of the genesis has vested nothing. -/
theorem genesisBuild_vested (T : Config A σ) (config : GenesisConfig A) (ledger : σ) :
    Each (fun info => info.vested = 0) (genesisBuild T config ledger).teamAccounts := by
  have hfold : ∀ (l : List (A × Nat)) (s : State A σ),
      Each (fun info => info.vested = 0) s.teamAccounts →
      Each (fun info => info.vested = 0)
        (l.foldl (fun s e => initializeCustody T e.1 e.2 s) s).teamAccounts := by
    intro l
    induction l with
    | nil => exact fun s hs => hs
    | cons e l ih => exact fun s hs => ih _ (hs.insert e.1 rfl)
  exact hfold _ _ (each_empty _)

/-- From any genesis, over any calls and any changes of the other pallets in between, up to the
end of the custody: each member's vested amount is what was paid to it, is never ahead of what
is due and never decreases; an attempt finds nothing available exactly when all that is due is
vested; and one that the two accounts can cover vests all that is due, whatever was before. What was
paid is read off the events; each stands after a transfer that went through, and
`doPayout_conserved` says what the balances change by. -/
theorem payouts_path_independent (T : Config A σ) (config : GenesisConfig A) (ledger : σ)
    (who : A) (info : CustodyInfo A)
    (hinfo : (genesisBuild T config ledger).teamAccounts.lookup who = some info)
    (hfits : ProductsFit T info.allocation) (actions : List (Action A σ)) (m : Followed A σ)
    (hm : m = actions.foldl (follow T) ⟨genesisBuild T config ledger, who, 0⟩)
    (hbefore : m.state.block ≤ T.custodyDuration) :
    ∃ info', m.state.teamAccounts.lookup m.who = some info' ∧
      info'.allocation = info.allocation ∧ PathIndependent T m info' := by
  subst hm
  have hzero := genesisBuild_vested T config ledger who info hinfo
  have hstart : OnTrack T ⟨genesisBuild T config ledger, who, 0⟩ info :=
    ⟨hinfo, hzero, hzero.le.trans (Nat.zero_le _)⟩
  obtain ⟨info', hinfo', hallocation⟩ := follow_run hstart hfits hbefore
  rw [← hallocation] at hfits
  exact ⟨info', hinfo'.lookup, hallocation, hinfo'.pathIndependent hbefore hfits⟩

/-- A member is paid, replaced by the account `3`, and paid under the new name. -/
theorem payouts_path_independent_mock :
    let m := [Action.outside 201600
          (genesisBuild mockConfig (mockGenesis 1000000000000) (mockBooks [])).ledger,
        .call (.signed 9) (.payout 1), .call .root (.replaceTeamMember 1 3),
        .call (.signed 9) (.payout 3)].foldl (follow mockConfig)
      ⟨genesisBuild mockConfig (mockGenesis 1000000000000) (mockBooks []), 1, 0⟩
    ∃ info, m.state.teamAccounts.lookup m.who = some info ∧ info.allocation = 1000000000000 ∧
      PathIndependent mockConfig m info := by
  intro m
  exact payouts_path_independent mockConfig (mockGenesis 1000000000000) (mockBooks []) 1
    (newMember mockConfig 1 1000000000000) rfl (by unfold ProductsFit; decide) _ m rfl (by decide)

end XXChain.Custody
