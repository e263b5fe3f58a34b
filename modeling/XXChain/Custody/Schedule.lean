import XXChain.Custody.Runs

/-!
# XXChain — the payout schedule of the xxnetwork runtime

With the constants of the xxnetwork runtime there are 156 payouts before the end of the
custody, and 156 times a payout is within the allocation, rounding included. So a member is
never ahead of the schedule, and what is due never wraps.

* **`due_le`** — what is due before the end is within the allocation;
* **`payout_due`** — a payout before the end pays a part of what is due, and writes that into
  the books;
* **`scheduled_next`** — no step of a run gets a member ahead of the schedule.
-/

namespace XXChain.Custody

open StorageMap

variable {A σ : Type} {T : Config A σ} {s s' : State A σ} {who : A} {info : CustodyInfo A}

/-- The constants of the xxnetwork runtime. -/
structure Config.XXNetwork (T : Config A σ) : Prop where
  payoutFrequency : T.payoutFrequency = 100800
  custodyDuration : T.custodyDuration = 15778800

/-- The smallest allocation: the existential deposit of the xxnetwork runtime. -/
def minAllocation : Nat := 1000000000

/-! ## What is due -/

theorem due_mono {allocation block block' : Nat} (h : block ≤ block') :
    due T allocation block ≤ due T allocation block' :=
  Nat.mul_le_mul_left _ (Nat.div_le_div_right h)

/-- The ratio of the payout frequency to the custody duration, rounded down. -/
theorem payoutRatio_parts : (Perbill.fromRational 100800 15778800).parts = 6388318 := by
  decide

/-- 156 payouts are within an allocation, since the ratio is rounded down by more than
what rounding each payout can add. -/
theorem due_le {allocation block : Nat} (hT : T.XXNetwork) (hmin : minAllocation ≤ allocation)
    (hblock : block ≤ T.custodyDuration) : due T allocation block ≤ allocation := by
  have hchunks : block / T.payoutFrequency ≤ 156 := by
    rw [hT.payoutFrequency]
    rw [hT.custodyDuration] at hblock
    omega
  have hpayout : 156 * computePayout T allocation ≤ allocation := by
    have hbound := (Perbill.of_bounds (Perbill.fromRational 100800 15778800) allocation).2
    rw [payoutRatio_parts] at hbound
    unfold computePayout minAllocation at *
    rw [hT.payoutFrequency, hT.custodyDuration]
    omega
  calc due T allocation block
      ≤ computePayout T allocation * 156 := Nat.mul_le_mul_left _ hchunks
    _ = 156 * computePayout T allocation := Nat.mul_comm _ _
    _ ≤ allocation := hpayout

/-! ## Being on schedule -/

/-- A member has at most what is due at the block, and the allocation is large enough for the
schedule. -/
structure OnSchedule (T : Config A σ) (block : Nat) (info : CustodyInfo A) : Prop where
  minAllocation_le : minAllocation ≤ info.allocation
  vested_le_due : info.vested ≤ due T info.allocation (min block T.custodyDuration)

theorem OnSchedule.vested_le {block : Nat} (hT : T.XXNetwork) (h : OnSchedule T block info) :
    info.vested ≤ info.allocation :=
  h.vested_le_due.trans (due_le hT h.minAllocation_le (Nat.min_le_right _ _))

theorem OnSchedule.mono {block block' : Nat} (hle : block ≤ block')
    (h : OnSchedule T block info) : OnSchedule T block' info where
  minAllocation_le := h.minAllocation_le
  vested_le_due := h.vested_le_due.trans (due_mono (min_le_min_right _ hle))

variable [DecidableEq A]

/-- Every member is on schedule, and the allocations fit into a balance. -/
structure Scheduled (T : Config A σ) (s : State A σ) : Prop where
  each : Each (OnSchedule T s.block) s.teamAccounts
  fits : sumBy CustodyInfo.allocation s.teamAccounts < balanceLimit

theorem Scheduled.allocation_lt (h : Scheduled T s)
    (hinfo : s.teamAccounts.lookup who = some info) : info.allocation < balanceLimit := by
  have hle := valueAt_le_sumBy CustodyInfo.allocation s.teamAccounts who
  rw [valueAt_of_some hinfo] at hle
  exact lt_of_le_of_lt hle h.fits

/-! ## The payouts before the end -/

omit [DecidableEq A] in
theorem withdrawn_le (T : Config A σ) (amount : Nat) (info : CustodyInfo A) (ledger : σ) :
    withdrawn T amount info true ledger ≤ amount := by
  apply (Nat.mod_le _ _).trans
  simp only [withdrawals, if_true]
  omega

/-- A payout on schedule pays a part of what is due. -/
theorem payout_due (hT : T.XXNetwork) (hinfo : OnSchedule T s.block info)
    (hfits : info.allocation < balanceLimit) (hbefore : s.block ≤ T.custodyDuration)
    (h : doPayout T who (amountDue T s.block info) info true s = .ok s') :
    ∃ paid, info.vested + paid ≤ due T info.allocation s.block ∧
      deducted T (amountDue T s.block info) info true s.ledger = paid ∧
      s'.block = s.block ∧ s'.totalCustody = s.totalCustody - paid ∧
      s'.teamAccounts = s.teamAccounts.insert who { info with vested := info.vested + paid } := by
  have hdue : due T info.allocation s.block ≤ info.allocation :=
    due_le hT hinfo.minAllocation_le hbefore
  have hvested : info.vested ≤ due T info.allocation s.block := by
    have hle := hinfo.vested_le_due
    rw [min_eq_left hbefore] at hle
    exact hle
  -- the member is not ahead, so the difference does not wrap
  have hamount : amountDue T s.block info = due T info.allocation s.block - info.vested := by
    unfold amountDue
    rw [Nat.mod_eq_of_lt (by omega), wrappingSub_eq hvested (by omega)]
  have hpaid := withdrawn_le T (amountDue T s.block info) info s.ledger
  obtain ⟨_, hblock, htotal, hteam⟩ := doPayout_ok h
  refine ⟨withdrawn T (amountDue T s.block info) info true s.ledger, by omega, rfl, hblock,
    htotal, ?_⟩
  rw [hteam, if_pos rfl]
  unfold CustodyInfo.increaseVested
  rw [Nat.mod_eq_of_lt (by omega)]

/-! ## Runs -/

theorem Scheduled.payout_due (hT : T.XXNetwork) (hs : Scheduled T s)
    (hinfo : s.teamAccounts.lookup who = some info) (hbefore : s.block ≤ T.custodyDuration)
    (h : doPayout T who (amountDue T s.block info) info true s = .ok s') : Scheduled T s' := by
  obtain ⟨paid, hpaid, _, hblock, _, hteam⟩ :=
    Custody.payout_due hT (hs.each who info hinfo) (hs.allocation_lt hinfo) hbefore h
  constructor
  · rw [hblock, hteam]
    apply hs.each.insert
    constructor
    · exact (hs.each who info hinfo).minAllocation_le
    · rw [min_eq_left hbefore]
      exact hpaid
  · have hinsert := sumBy_insert CustodyInfo.allocation s.teamAccounts who
      { info with vested := info.vested + paid }
    rw [valueAt_of_some hinfo] at hinsert
    have hfits := hs.fits
    rw [hteam]
    simp only at hinsert
    omega

theorem lastPayout_books (h : lastPayout T who info s = .ok s') :
    s'.block = s.block ∧ s'.teamAccounts = s.teamAccounts.erase who := by
  simp only [lastPayout, bind_eq_ok] at h
  obtain ⟨_, _, s₁, hpay, hs'⟩ := h
  cases hs'
  obtain ⟨_, hblock, _, hteam⟩ := doPayout_ok hpay
  exact ⟨hblock, hteam⟩

theorem Scheduled.erase (hs : Scheduled T s) (hblock : s'.block = s.block)
    (hteam : s'.teamAccounts = s.teamAccounts.erase who) : Scheduled T s' := by
  constructor
  · rw [hblock, hteam]
    exact hs.each.erase who
  · have herase := sumBy_erase CustodyInfo.allocation s.teamAccounts who
    have hfits := hs.fits
    rw [hteam]
    omega

/-- Moving what is recorded to a name that has nothing recorded keeps every total. -/
theorem sumBy_replace (f : CustodyInfo A → Nat) {new : A}
    (hinfo : s.teamAccounts.lookup who = some info) (hnew : s.teamAccounts.lookup new = none) :
    sumBy f ((s.teamAccounts.erase who).insert new info) = sumBy f s.teamAccounts := by
  have hne := (ne_of_lookup hinfo hnew).symm
  have herase := sumBy_erase f s.teamAccounts who
  have hinsert := sumBy_insert f (s.teamAccounts.erase who) new info
  rw [valueAt_of_some hinfo] at herase
  rw [valueAt_of_none ((Finmap.lookup_erase_ne hne).trans hnew)] at hinsert
  omega

theorem Scheduled.books (hs : Scheduled T s) (h : SameBooks s s') : Scheduled T s' := by
  constructor
  · rw [h.block, h.teamAccounts]
    exact hs.each
  · rw [h.teamAccounts]
    exact hs.fits

/-- No step gets a member ahead of the schedule. -/
theorem scheduled_next (hT : T.XXNetwork) (hs : Scheduled T s) (a : Action A σ) :
    Scheduled T (next T s a) := by
  cases a with
  | outside blocks ledger =>
    exact ⟨hs.each.imp fun info hinfo => hinfo.mono (Nat.le_add_right _ _), hs.fits⟩
  | call origin call =>
    rcases applyCall_cases T s origin call with hsame | hok
    · show Scheduled T (applyCall T s origin call)
      rw [hsame]
      exact hs
    · rcases dispatch_cases hok with hbooks | ⟨who, _, hpay⟩ | ⟨who, new, _, hreplace⟩
      · exact hs.books hbooks
      · obtain ⟨info, hinfo, ⟨_, hlast⟩ | ⟨hbefore, hdue⟩⟩ := payout_cases hpay
        · obtain ⟨hblock, hteam⟩ := lastPayout_books hlast
          exact hs.erase hblock hteam
        · exact hs.payout_due hT hinfo hbefore hdue
      · obtain ⟨info, hinfo, hnew, hteam, hblock, _⟩ := replaceTeamMember_ok hreplace
        show Scheduled T (applyCall T s origin call)
        constructor
        · rw [hblock, hteam]
          exact (hs.each.erase who).insert new (hs.each who info hinfo)
        · rw [hteam, sumBy_replace _ hinfo hnew]
          exact hs.fits

end XXChain.Custody
