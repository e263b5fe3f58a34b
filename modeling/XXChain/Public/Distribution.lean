import XXChain.Lib.Holding
import XXChain.Public.Model

/-!
# XXChain — what a distribution pays

A distribution checks one sum, which wraps, and then transfers entry by entry out of the pot,
which may be reaped on the way; destinations may repeat, and the pot may be one of them.

* **`distribute_ok`** — one entry, and **`Distributed.trans`** — two lists one after the other;
* **`doDistribution_exact`** — what every account has after a distribution that succeeds, and
  that a call that fails changes nothing.
-/

namespace XXChain.Public

variable {A σ : Type} [DecidableEq A] {T : Config A σ} {pot a : A} {d : TransferData A}
  {data data' : List (TransferData A)} {s s' : State A σ}

/-- The documented behaviour of the pallets this one calls. -/
structure Config.Lawful (T : Config A σ) : Prop where
  currency : T.currency.Lawful
  vesting : T.vestingSchedule.Lawful T.currency

/-! ## What a list says -/

/-- The sum of the amounts to an account. -/
def amountTo (a : A) (data : List (TransferData A)) : Nat :=
  (data.map fun d => if d.destination = a then d.amount else 0).sum

/-- The sum of the amounts to accounts other than the pot. -/
def amountOut (pot : A) (data : List (TransferData A)) : Nat :=
  (data.map fun d => if d.destination = pot then 0 else d.amount).sum

/-- The schedules for an account, in the order of the list. -/
def schedulesTo (a : A) (data : List (TransferData A)) : List Schedule :=
  data.flatMap fun d => if d.destination = a then d.schedules.getD [] else []

theorem amountTo_append (a : A) (data data' : List (TransferData A)) :
    amountTo a (data ++ data') = amountTo a data + amountTo a data' := by
  unfold amountTo
  rw [List.map_append, List.sum_append]

theorem amountOut_append (pot : A) (data data' : List (TransferData A)) :
    amountOut pot (data ++ data') = amountOut pot data + amountOut pot data' := by
  unfold amountOut
  rw [List.map_append, List.sum_append]

theorem schedulesTo_append (a : A) (data data' : List (TransferData A)) :
    schedulesTo a (data ++ data') = schedulesTo a data ++ schedulesTo a data' :=
  List.flatMap_append

/-- An account the list does not name gets nothing. -/
theorem amountTo_of_unnamed (h : ∀ d ∈ data, d.destination ≠ a) : amountTo a data = 0 := by
  unfold amountTo
  apply List.sum_eq_zero
  intro x hx
  obtain ⟨d, hd, hx⟩ := List.mem_map.mp hx
  rw [← hx, if_neg (h d hd)]

/-! ## What a list does -/

/-- From `s` to `s'` the pot paid what the list sends to others, each of which received the sum
of its amounts and its schedules, as far as these are not refused. -/
structure Distributed (T : Config A σ) (pot : A) (data : List (TransferData A))
    (s s' : State A σ) : Prop where
  source : (T.currency.account s.ledger pot).PaidOut T.currency.existentialDeposit
    (amountOut pot data) (T.currency.account s'.ledger pot)
  free : ∀ a, a ≠ pot → (T.currency.account s'.ledger a).free =
    (T.currency.account s.ledger a).free + amountTo a data
  reserved : ∀ a, a ≠ pot → (T.currency.account s'.ledger a).reserved =
    (T.currency.account s.ledger a).reserved
  schedules : ∀ a, T.vestingSchedule.schedules s'.ledger a =
    (schedulesTo a data).foldl (addSchedule T.vestingSchedule.maxSchedules s.block)
      (T.vestingSchedule.schedules s.ledger a)
  settings : s' = { s with ledger := s'.ledger }

theorem Distributed.refl (T : Config A σ) (pot : A) (s : State A σ) :
    Distributed T pot [] s s where
  source := AccountData.PaidOut.refl _ _
  free _ _ := rfl
  reserved _ _ := rfl
  schedules _ := rfl
  settings := rfl

/-- What two lists do is what the one list of both does. -/
theorem Distributed.trans {s₁ : State A σ} (h : Distributed T pot data s s₁)
    (h' : Distributed T pot data' s₁ s') : Distributed T pot (data ++ data') s s' where
  source := by
    rw [amountOut_append]
    exact h.source.trans h'.source
  free a ha := by
    rw [h'.free a ha, h.free a ha, amountTo_append, Nat.add_assoc]
  reserved a ha := (h'.reserved a ha).trans (h.reserved a ha)
  schedules a := by
    have hblock : s₁.block = s.block := by rw [h.settings]
    rw [h'.schedules a, h.schedules a, schedulesTo_append, List.foldl_append, hblock]
  settings := by rw [h'.settings, h.settings]

/-- Schedules change nothing of the account they are for but its schedules and its locks. -/
theorem holding_addSchedules (hT : T.Lawful) (now : Nat) (destination : A)
    (schedules : Option (List Schedule)) (ledger : σ) (a : A) :
    holding T.currency T.vestingSchedule (addSchedules T now destination schedules ledger) a =
      (holding T.currency T.vestingSchedule ledger a).vest T.vestingSchedule.maxSchedules now
        (if destination = a then schedules.getD [] else []) := by
  have hfold : addSchedules T now destination schedules ledger = (schedules.getD []).foldl
      (fun ledger v => T.vestingSchedule.tryAdd now ledger destination v) ledger := by
    cases schedules with
    | none => rfl
    | some vs => rfl
  rw [hfold, holding_foldl_tryAdd hT.vesting]
  by_cases ha : destination = a
  · rw [ha, Function.update_self, if_pos rfl]
  · rw [Function.update_of_ne (Ne.symm ha), if_neg ha]
    rfl

theorem distribute_ok (hT : T.Lawful) (h : distribute T pot s d = .ok s') :
    Distributed T pot [d] s s' := by
  unfold distribute at h
  split at h
  next ledger htransfer =>
    cases h
    obtain ⟨hpaid, hothers⟩ := hT.currency.paidOut_transfer htransfer
    have hschedules := hT.vesting.leaves_schedules.transfer _ _ _ _ _ htransfer
    -- after the transfer the schedules touch no balance
    have hold := holding_addSchedules hT s.block d.destination d.schedules ledger
    have hfree := fun a => congrArg Holding.free (hold a)
    have hreserved := fun a => congrArg Holding.reserved (hold a)
    simp only [holding, Holding.vest] at hfree hreserved
    refine ⟨?_, fun a ha => ?_, fun a ha => ?_, fun a => ?_, rfl⟩
    · unfold AccountData.PaidOut AccountData.total at hpaid ⊢
      rw [hfree, hreserved]
      simpa [amountOut] using hpaid
    · rw [hfree, hothers a ha]
      simp [AccountData.credit, amountTo, eq_comm]
    · rw [hreserved, hothers a ha]
      rfl
    · have hadded := congrArg Holding.schedules (hold a)
      simp only [holding, Holding.vest, hschedules] at hadded
      simpa [schedulesTo] using hadded
  next => cases h

theorem foldlM_distribute_ok (hT : T.Lawful) (h : data.foldlM (distribute T pot) s = .ok s') :
    Distributed T pot data s s' := by
  induction data generalizing s with
  | nil =>
    cases h
    exact Distributed.refl T pot _
  | cons d data ih =>
    rw [List.foldlM_cons, bind_eq_ok] at h
    obtain ⟨s₁, hfirst, hrest⟩ := h
    exact (distribute_ok hT hfirst).trans (ih hrest)

/-! ## The whole distribution -/

theorem doDistribution_ok (hT : T.Lawful) (h : doDistribution T pot data s = .ok s') :
    Distributed T pot data s s' := by
  simp only [doDistribution, bind_eq_ok] at h
  obtain ⟨_, _, hrun⟩ := h
  exact foldlM_distribute_ok hT hrun

theorem applyCall_of_ne_ok {origin : Origin A} {call : Call A}
    (h : ∀ s', dispatch T call origin s ≠ .ok s') : applyCall T origin call s = s := by
  unfold applyCall
  split
  next s' hrun => exact absurd hrun (h s')
  next => rfl

/-- The call of a distribution that fails does nothing, whoever signs it. -/
theorem applyCall_of_error {e : DispatchError Error} (origin : Origin A)
    (h : doDistribution T pot data s = .error e) :
    (pot = T.testnetAccountId → applyCall T origin (.testnetDistribute data) s = s) ∧
      (pot = T.saleAccountId → applyCall T origin (.saleDistribute data) s = s) := by
  constructor
  · intro hpot
    apply applyCall_of_ne_ok
    intro s' hrun
    simp only [dispatch, testnetDistribute, doTestnetDistribution, ← hpot, bind_eq_ok, h] at hrun
    obtain ⟨_, _, _, _, hrun⟩ := hrun
    cases hrun
  · intro hpot
    apply applyCall_of_ne_ok
    intro s' hrun
    simp only [dispatch, saleDistribute, doSaleDistribution, ← hpot, bind_eq_ok, h] at hrun
    obtain ⟨_, _, _, _, hrun⟩ := hrun
    cases hrun

/-- For every balance of the pot and every list: a distribution that succeeds pays each
destination the sum of its amounts, out of a pot that had as much, and no one else; a call whose
distribution fails changes nothing. -/
theorem doDistribution_exact (T : Config A σ) (hT : T.Lawful) (pot : A)
    (data : List (TransferData A)) (s : State A σ) :
    (∀ s', doDistribution T pot data s = .ok s' →
      Distributed T pot data s s' ∧
      amountOut pot data ≤ T.currency.freeBalance s.ledger pot ∧
      ∀ a, a ≠ pot → (∀ d ∈ data, d.destination ≠ a) →
        (T.currency.account s'.ledger a).free = (T.currency.account s.ledger a).free) ∧
    (∀ e, doDistribution T pot data s = .error e → ∀ origin,
      (pot = T.testnetAccountId → applyCall T origin (.testnetDistribute data) s = s) ∧
      (pot = T.saleAccountId → applyCall T origin (.saleDistribute data) s = s)) := by
  constructor
  · intro s' h
    have hdone := doDistribution_ok hT h
    refine ⟨hdone, hdone.source.le_free, fun a ha hunnamed => ?_⟩
    rw [hdone.free a ha, amountTo_of_unnamed hunnamed, Nat.add_zero]
  · intro e h origin
    exact applyCall_of_error origin h

/-- The list sends to one account twice, and to the pot itself. -/
def mockData : List (TransferData Nat) :=
  [⟨10, 300, some [(100, 1, 0)]⟩, ⟨1, 100, none⟩, ⟨11, 200, none⟩, ⟨10, 400, some [(100, 0, 0)]⟩]

theorem mockConfig_lawful : mockConfig.Lawful where
  currency := (Ledger.currency_lawful (by decide)).along VestedLedger.ledgerPart
  vesting := VestedLedger.vesting_lawful 2 1

theorem doDistribution_exact_mock :
    (doDistribution mockConfig 1 mockData (mockGenesis 1000 0)).toOption.isSome = true ∧
      ∀ s', doDistribution mockConfig 1 mockData (mockGenesis 1000 0) = .ok s' →
        Distributed mockConfig 1 mockData (mockGenesis 1000 0) s' := by
  have hexact := (doDistribution_exact mockConfig mockConfig_lawful 1 mockData
    (mockGenesis 1000 0)).1
  exact ⟨by decide +kernel, fun s' h => (hexact s' h).1⟩

end XXChain.Public
