import XXChain.Custody.Bystanders
import XXChain.Custody.Conservation
import XXChain.Custody.PathIndependence

/-!
# XXChain — the coins of a member under custody

What a member's custody and reserve account lose in a payout is recorded as vested, and what is
vested is never ahead of the schedule. The two accounts are followed, whoever the member is.

* **`doPayout_held`** — a payout takes from the two accounts at most what it pays;
* **`payout_keeps`** — so they hold what is not vested, less what others take;
* **`dispatch_keeps`** — no other call of the pallet makes them anybody else's.
-/

namespace XXChain.Custody

open StorageMap

variable {A σ : Type} [DecidableEq A] {T : Config A σ} {s s' : State A σ} {origin : Origin A}
  {call : Call A} {who x source custody reserve : A} {info infoₓ : CustodyInfo A}
  {allocation amount : Nat} {event : Event A}

/-- The two accounts are the member's, and of nobody else. No more is vested than is due. -/
structure Keeps (T : Config A σ) (custody reserve : A) (allocation : Nat) (s : State A σ) (who : A)
    (info : CustodyInfo A) : Prop where
  lookup : s.teamAccounts.lookup who = some info
  custody_eq : info.custody = custody
  reserve_eq : info.reserve = reserve
  allocation_eq : info.allocation = allocation
  vested_le : info.vested ≤ due T allocation s.block
  others : ∀ x infoₓ, s.teamAccounts.lookup x = some infoₓ → x ≠ who →
    (custody ≠ infoₓ.custody ∧ custody ≠ infoₓ.reserve) ∧
      (reserve ≠ infoₓ.custody ∧ reserve ≠ infoₓ.reserve)

/-- What the two accounts hold, reserved deposits apart. -/
def held (T : Config A σ) (custody reserve : A) (ledger : σ) : Nat :=
  T.currency.freeBalance ledger custody + T.currency.freeBalance ledger reserve

/-! ## A payout -/

/-- An account that may go on pays the amount and no dust. -/
theorem transferPayout_free_le (hT : T.Lawful)
    (hle : amount ≤ (T.currency.account s.ledger source).reducible
      T.currency.existentialDeposit true)
    (h : transferPayout T source who amount event s = .ok s') :
    T.currency.freeBalance s.ledger source ≤ T.currency.freeBalance s'.ledger source + amount := by
  unfold transferPayout at h
  split at h
  next hzero =>
    cases h
    exact Nat.le_add_right _ _
  next =>
    simp only [bind_eq_ok, called, okOr_eq_ok] at h
    obtain ⟨ledger, htransfer, hs'⟩ := h
    cases hs'
    have hpaid := (hT.currency.paidOut_transfer htransfer).1.free_le_add
    show _ ≤ T.currency.freeBalance ledger source + amount
    unfold Currency.freeBalance
    -- what a member pays to himself is nothing
    by_cases hself : who = source
    · rw [if_pos hself] at hpaid
      have hnodust : (T.currency.account s.ledger source).withdrawDust
          T.currency.existentialDeposit 0 = 0 := if_pos rfl
      omega
    · rw [if_neg hself, (AccountData.withdraw_of_le_reducible hle).2] at hpaid
      exact hpaid

/-- Whom the first transfer credits can pay the second one all the same. -/
theorem reducible_le_transferPayout (hT : T.Lawful) (hne : reserve ≠ source)
    (h : transferPayout T source who amount event s = .ok s') :
    (T.currency.account s.ledger reserve).reducible T.currency.existentialDeposit true ≤
      (T.currency.account s'.ledger reserve).reducible T.currency.existentialDeposit true := by
  unfold transferPayout at h
  split at h
  · cases h
    exact le_rfl
  · simp only [bind_eq_ok, called, okOr_eq_ok] at h
    obtain ⟨ledger, htransfer, hs'⟩ := h
    cases hs'
    show _ ≤ (T.currency.account ledger reserve).reducible T.currency.existentialDeposit true
    rw [(hT.currency.paidOut_transfer htransfer).2 reserve hne]
    exact AccountData.reducible_le_credit _ _ _ _

theorem doPayout_held (hT : T.Lawful) (hne : info.custody ≠ info.reserve)
    (h : doPayout T who amount info true s = .ok s') :
    held T info.custody info.reserve s.ledger ≤ held T info.custody info.reserve s'.ledger +
      min amount (T.currency.reducibleBalance s.ledger info.custody true +
        T.currency.reducibleBalance s.ledger info.reserve true) := by
  obtain ⟨hfirst, hsecond, _, _⟩ := withdrawals_keepAlive hT amount info s.ledger
  have hsum := withdrawals_sum T amount info s.ledger
  obtain ⟨⟨s₁, s₂, _, _, htransfer₁, htransfer₂, hledger⟩, _⟩ := doPayout_ok h
  rw [← hsum]
  unfold held
  rw [hledger]
  have hcustody₁ := transferPayout_free_le hT hfirst htransfer₁
  have hreserve₁ := free_le_transferPayout hT (Ne.symm hne) htransfer₁
  have hcovered := hsecond.trans (reducible_le_transferPayout hT (Ne.symm hne) htransfer₁)
  have hreserve₂ := transferPayout_free_le hT hcovered htransfer₂
  have hcustody₂ := free_le_transferPayout hT hne htransfer₂
  omega

theorem payout_keeps (hT : T.Lawful) (hne : custody ≠ reserve)
    (hbefore : s.block ≤ T.custodyDuration) (hfits : ProductsFit T allocation)
    (hkeeps : Keeps T custody reserve allocation s who info)
    (h : payout T origin x s = .ok s') :
    ∃ info', Keeps T custody reserve allocation s' who info' ∧
      held T custody reserve s.ledger + info.vested ≤
        held T custody reserve s'.ledger + info'.vested := by
  obtain ⟨infoₓ, hinfoₓ, ⟨hdone, _⟩ | ⟨_, hpay⟩⟩ := payout_cases h
  · omega
  by_cases hwho : x = who
  · subst hwho
    have hsame : infoₓ = info := Option.some.inj (hinfoₓ.symm.trans hkeeps.lookup)
    subst hsame
    obtain ⟨rfl, rfl, rfl⟩ :=
      And.intro hkeeps.custody_eq (And.intro hkeeps.reserve_eq hkeeps.allocation_eq)
    have htrack : OnTrack T ⟨s, x, infoₓ.vested⟩ infoₓ :=
      ⟨hkeeps.lookup, rfl, hkeeps.vested_le⟩
    obtain ⟨paid, hpaid, _, hblock, hteam⟩ := htrack.doPayout_ok hbefore hfits hpay
    have hheld := doPayout_held hT hne hpay
    rw [htrack.amountDue_eq hbefore hfits, ← hpaid] at hheld
    have hvested := hkeeps.vested_le
    have hdue : paid ≤ due T infoₓ.allocation s.block - infoₓ.vested := by
      rw [hpaid]
      exact min_le_left _ _
    refine ⟨{ infoₓ with vested := infoₓ.vested + paid },
      ⟨by rw [hteam]; exact Finmap.lookup_insert _, rfl, rfl, rfl, ?_, ?_⟩, ?_⟩
    · rw [hblock]
      show infoₓ.vested + paid ≤ due T infoₓ.allocation s.block
      omega
    · intro y infoᵧ hinfoᵧ hy
      rw [hteam, Finmap.lookup_insert_of_ne _ hy] at hinfoᵧ
      exact hkeeps.others y infoᵧ hinfoᵧ hy
    · show _ ≤ held T infoₓ.custody infoₓ.reserve s'.ledger + (infoₓ.vested + paid)
      omega
  · -- another member is paid from other accounts
    obtain ⟨hcustody, hreserve⟩ := hkeeps.others x infoₓ hinfoₓ hwho
    have hfree := free_le_doPayout hT hcustody.1 hcustody.2 hpay
    have hfree' := free_le_doPayout hT hreserve.1 hreserve.2 hpay
    obtain ⟨_, hblock, _, hteam⟩ := doPayout_ok hpay
    rw [if_pos rfl] at hteam
    refine ⟨info, ⟨?_, hkeeps.custody_eq, hkeeps.reserve_eq, hkeeps.allocation_eq, ?_, ?_⟩, ?_⟩
    · rw [hteam, Finmap.lookup_insert_of_ne _ (Ne.symm hwho)]
      exact hkeeps.lookup
    · rw [hblock]
      exact hkeeps.vested_le
    · intro y infoᵧ hinfoᵧ hy
      rw [hteam] at hinfoᵧ
      by_cases hxy : y = x
      · rw [hxy, Finmap.lookup_insert] at hinfoᵧ
        cases hinfoᵧ
        exact ⟨hcustody, hreserve⟩
      · rw [Finmap.lookup_insert_of_ne _ hxy] at hinfoᵧ
        exact hkeeps.others y infoᵧ hinfoᵧ hy
    · unfold held
      omega

/-! ## The other calls -/

/-- The books of the team are the same, at a later block perhaps. -/
theorem Keeps.of_books (hkeeps : Keeps T custody reserve allocation s who info)
    (hteam : s'.teamAccounts = s.teamAccounts) (hblock : s.block ≤ s'.block) :
    Keeps T custody reserve allocation s' who info where
  lookup := hteam ▸ hkeeps.lookup
  custody_eq := hkeeps.custody_eq
  reserve_eq := hkeeps.reserve_eq
  allocation_eq := hkeeps.allocation_eq
  vested_le := hkeeps.vested_le.trans (due_mono hblock)
  others := hteam ▸ hkeeps.others

/-- A member that is replaced leaves the two accounts to the new one. -/
theorem replaceTeamMember_keeps {old new : A}
    (hkeeps : Keeps T custody reserve allocation s who info)
    (h : replaceTeamMember T origin old new s = .ok s') :
    ∃ who', Keeps T custody reserve allocation s' who' info := by
  obtain ⟨info₀, hinfo₀, hfresh, hteam, hblock, _⟩ := replaceTeamMember_ok h
  have hvested := hblock ▸ hkeeps.vested_le
  by_cases hold : old = who
  · subst hold
    have hsame : info₀ = info := Option.some.inj (hinfo₀.symm.trans hkeeps.lookup)
    subst hsame
    refine ⟨new, ?_, hkeeps.custody_eq, hkeeps.reserve_eq, hkeeps.allocation_eq, hvested, ?_⟩
    · rw [hteam, Finmap.lookup_insert]
    · intro y infoᵧ hinfoᵧ hy
      rw [hteam, Finmap.lookup_insert_of_ne _ hy] at hinfoᵧ
      by_cases hyold : y = old
      · rw [hyold, Finmap.lookup_erase] at hinfoᵧ
        cases hinfoᵧ
      · rw [Finmap.lookup_erase_ne hyold] at hinfoᵧ
        exact hkeeps.others y infoᵧ hinfoᵧ hyold
  · have hnew : who ≠ new := ne_of_lookup hkeeps.lookup hfresh
    refine ⟨who, ?_, hkeeps.custody_eq, hkeeps.reserve_eq, hkeeps.allocation_eq, hvested, ?_⟩
    · rw [hteam, Finmap.lookup_insert_of_ne _ hnew, Finmap.lookup_erase_ne (Ne.symm hold)]
      exact hkeeps.lookup
    · intro y infoᵧ hinfoᵧ hy
      rw [hteam] at hinfoᵧ
      by_cases hynew : y = new
      · rw [hynew, Finmap.lookup_insert] at hinfoᵧ
        cases hinfoᵧ
        exact hkeeps.others old info₀ hinfo₀ hold
      · rw [Finmap.lookup_insert_of_ne _ hynew] at hinfoᵧ
        by_cases hyold : y = old
        · rw [hyold, Finmap.lookup_erase] at hinfoᵧ
          cases hinfoᵧ
        · rw [Finmap.lookup_erase_ne hyold] at hinfoᵧ
          exact hkeeps.others y infoᵧ hinfoᵧ hy

/-- A call of the pallet that is no payout, which may reserve or bond coins of the accounts. -/
theorem dispatch_keeps (hcall : ∀ x, call ≠ .payout x)
    (hkeeps : Keeps T custody reserve allocation s who info)
    (h : dispatch T origin call s = .ok s') :
    ∃ who', Keeps T custody reserve allocation s' who' info := by
  rcases dispatch_cases h with hbooks | ⟨x, hpayout, _⟩ | ⟨old, new, _, hreplace⟩
  · exact ⟨who, hkeeps.of_books hbooks.teamAccounts hbooks.block.ge⟩
  · exact absurd hpayout (hcall x)
  · exact replaceTeamMember_keeps hkeeps hreplace

end XXChain.Custody
