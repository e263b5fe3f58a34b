import XXChain.Runtime.Books

/-!
# XXChain — the fees of a block

`runtime/common/src/impls.rs`: the transaction payment pallet hands the fees and the tips of a
transaction to `DealWithFees` as negative imbalances, in this order. The treasury gets 80 percent of
the fees, rounded down, and the author of the block the rest, and the tips.

* **`dealWithFees_exact`** — to the coin: who is credited what, what leaves the issuance, and that
  the books are balanced afterwards. The share of an author without an account may be too little
  to open one, and is burned then.
-/

namespace XXChain.Runtime

variable {A F σ : Type} [DecidableEq A] {T : Config A F σ} {l : σ}

/-! ## Imbalances -/

/-- Splits an imbalance in the ratio of two parts, not both zero. The product saturates, and the
second part gets what the first does not. -/
def ration (amount first second : Nat) : Nat × Nat :=
  let total := min (first + second) (2 ^ 32 - 1)
  let amount1 := min (amount * first) (balanceLimit - 1) / total
  (min amount amount1, amount - min amount amount1)

/-- Merges an imbalance into another one. The sum saturates. -/
def mergeInto (source dest : Nat) : Nat :=
  min (dest + source) (balanceLimit - 1)

/-- The handler of the treasury, which an imbalance of zero never reaches. -/
def treasuryOnUnbalanced (T : Config A F σ) (amount : Nat) (l : σ) : σ :=
  if amount = 0 then l else T.economics.rewardRemainder l amount

/-- The share of the author, which is dropped if the block has none. -/
def creditAuthor (T : Config A F σ) (author : Option A) (amount : Nat) (l : σ) : σ :=
  match author with
  | some author => T.currency.resolveCreating l author amount
  | none => T.currency.dropNegative l amount

/-- `DealWithFees::on_unbalanceds`. -/
def dealWithFees (T : Config A F σ) (author : Option A) (feesThenTips : List Nat) (l : σ) : σ :=
  match feesThenTips with
  | [] => l
  | fees :: rest =>
    -- for fees, 80% to treasury, 20% to author
    let split := ration fees 80 20
    -- for tips, if any, 100% to author
    let toAuthor := rest.head?.elim split.2 fun tips => mergeInto tips split.2
    let l := creditAuthor T author toAuthor (treasuryOnUnbalanced T split.1 l)
    -- what the iterator still has goes with it
    (rest.drop 1).foldl T.currency.dropNegative l

/-! ## The shares -/

/-- What the treasury gets of the fees. -/
def treasuryShare (fees : Nat) : Nat :=
  min (fees * 80) (balanceLimit - 1) / 100

/-- What the author gets: the rest of the fees, and the tips. -/
def authorShare (fees : Nat) (rest : List Nat) : Nat :=
  fees - treasuryShare fees + rest.headD 0

theorem treasuryShare_le (fees : Nat) : treasuryShare fees ≤ fees := by
  unfold treasuryShare
  omega

theorem ration_fees (fees : Nat) :
    ration fees 80 20 = (treasuryShare fees, fees - treasuryShare fees) := by
  have hle := treasuryShare_le fees
  show (min fees (treasuryShare fees), fees - min fees (treasuryShare fees)) = _
  rw [Nat.min_eq_right hle]

/-- The fees and the tips are issued, so their sum does not saturate. -/
theorem toAuthor_eq {fees : Nat} {rest : List Nat} (hlimit : (fees :: rest).sum < balanceLimit) :
    (rest.head?.elim (ration fees 80 20).2 fun tips => mergeInto tips (ration fees 80 20).2) =
      authorShare fees rest := by
  rw [ration_fees, authorShare]
  cases rest with
  | nil => rfl
  | cons tips rest =>
    simp only [List.sum_cons] at hlimit
    show min (fees - treasuryShare fees + tips) (balanceLimit - 1) = _ + tips
    omega

/-- Nothing is left over. -/
theorem shares_sum (fees : Nat) (rest : List Nat) :
    treasuryShare fees + authorShare fees rest + (rest.drop 1).sum = (fees :: rest).sum := by
  have hle := treasuryShare_le fees
  unfold authorShare
  cases rest with
  | nil =>
    simp only [List.headD_nil, List.drop_nil, List.sum_nil, List.sum_cons]
    omega
  | cons tips rest =>
    simp only [List.headD_cons, List.drop_one, List.tail_cons, List.sum_cons]
    omega

/-! ## Who gets them -/

theorem treasuryOnUnbalanced_spec {treasury : A}
    (hhandler : Economics.ResolvesInto T.economics treasury)
    (hexists : T.currency.totalBalance l treasury ≠ 0) (v : Nat) :
    T.currency.Sets l (treasuryOnUnbalanced T v l) treasury
        ((T.currency.account l treasury).credit v) ∧
      T.currency.totalIssuance (treasuryOnUnbalanced T v l) = T.currency.totalIssuance l := by
  unfold treasuryOnUnbalanced
  split
  next hzero =>
    rw [hzero, AccountData.credit_zero]
    exact ⟨(Function.update_eq_self _ _).symm, rfl⟩
  next hpos =>
    rw [← T.economics_currency] at hexists ⊢
    exact hhandler l v (Nat.pos_of_ne_zero hpos) hexists

/-- What the author is credited of his share: nothing, if it is too little to open his account. -/
def authorCredit (T : Config A F σ) (author : Option A) (fees : Nat) (rest : List Nat) (l : σ) :
    Nat :=
  author.elim 0 fun a =>
    Currency.accepted T.currency.existentialDeposit (authorShare fees rest)
      (T.currency.totalBalance l a)

/-- A payment to the treasury, which exists, opens no account. -/
theorem accepted_after_treasury {l₁ : σ} {treasury a : A} {v : Nat}
    (hsets : T.currency.Sets l l₁ treasury ((T.currency.account l treasury).credit v))
    (hexists : T.currency.totalBalance l treasury ≠ 0) (ed share : Nat) :
    Currency.accepted ed share (T.currency.totalBalance l₁ a) =
      Currency.accepted ed share (T.currency.totalBalance l a) := by
  have hcredited := hsets.credited a
  have htotal : T.currency.totalBalance l₁ a = T.currency.totalBalance l a +
      if a = treasury then v else 0 := by
    unfold Currency.totalBalance
    rw [hcredited, AccountData.total_credit]
  have hsame : T.currency.totalBalance l₁ a = 0 ↔ T.currency.totalBalance l a = 0 := by
    by_cases ha : a = treasury
    · rw [ha] at htotal ⊢
      omega
    · rw [htotal, if_neg ha, Nat.add_zero]
  unfold Currency.accepted
  simp only [hsame]

/-- The author gets what he accepts of his share, and the rest of it leaves the issuance. -/
theorem creditAuthor_spec (hc : T.currency.Lawful) (author : Option A) {share negative : Nat}
    (h : T.currency.Backed l 0 (negative + share)) :
    let credited := author.elim 0 fun a =>
      Currency.accepted T.currency.existentialDeposit share (T.currency.totalBalance l a)
    let l' := creditAuthor T author share l
    (∀ x, T.currency.account l' x = (T.currency.account l x).credit
        (if author = some x then credited else 0)) ∧
      T.currency.Backed l' 0 negative ∧
      T.currency.totalIssuance l' + (share - credited) = T.currency.totalIssuance l := by
  cases author with
  | none =>
    obtain ⟨hbacked, hissuance⟩ := h.dropNegative hc
    refine ⟨fun x => ?_, hbacked, hissuance⟩
    have hnobody : ¬ (none : Option A) = some x := nofun
    show T.currency.account (T.currency.dropNegative l share) x = _
    rw [hc.dropNegative_account, if_neg hnobody, AccountData.credit_zero]
  | some a =>
    obtain ⟨hsets, hbacked, hissuance⟩ := hc.resolveCreating_accepted a h
    refine ⟨fun x => ?_, hbacked, hissuance⟩
    show T.currency.account (T.currency.resolveCreating l a share) x = _
    rw [hsets.credited]
    simp only [Option.some.injEq, eq_comm]
    rfl

/-- **Fees and tips to the coin.** The treasury, which has a balance, is credited its share, the
author his, and nobody else anything. What the author does not accept, as his share is too little
to open his account, leaves the issuance; so does the share of no author, and what comes after
the tips. What was issued for the fees and the tips is then held or gone. -/
theorem dealWithFees_exact (T : Config A F σ) (hT : T.Lawful) {treasury : A}
    (hhandler : Economics.ResolvesInto T.economics treasury) (author : Option A) (fees : Nat)
    (rest : List Nat) (l : σ) (hlimit : T.currency.totalIssuance l < balanceLimit)
    (hbacked : T.currency.Backed l 0 (fees :: rest).sum)
    (htreasury : T.currency.totalBalance l treasury ≠ 0) :
    let l' := dealWithFees T author (fees :: rest) l
    (∀ x, T.currency.account l' x = (T.currency.account l x).credit
        ((if x = treasury then treasuryShare fees else 0) +
          if author = some x then authorCredit T author fees rest l else 0)) ∧
      T.currency.totalIssuance l' + (authorShare fees rest - authorCredit T author fees rest l) +
        (rest.drop 1).sum = T.currency.totalIssuance l ∧
      T.currency.Backed l' 0 0 := by
  have hc := hT.currency
  have hsum := shares_sum fees rest
  have hsaturated : (fees :: rest).sum < balanceLimit := by
    unfold Currency.Backed at hbacked
    omega
  have htoAuthor := toAuthor_eq hsaturated
  -- the treasury
  obtain ⟨hsets₁, hissuance₁⟩ := treasuryOnUnbalanced_spec hhandler htreasury (treasuryShare fees)
  have hsplit : (fees :: rest).sum =
      0 + (rest.drop 1).sum + authorShare fees rest + treasuryShare fees := by omega
  rw [hsplit] at hbacked
  have hbacked₁ := hbacked.credit hc hsets₁ hissuance₁
  have hcredited₁ := hsets₁.credited
  dsimp only [dealWithFees]
  rw [htoAuthor, ration_fees]
  generalize treasuryOnUnbalanced T (treasuryShare fees) l = l₁ at *
  -- the author, who accepts what he would have accepted before
  obtain ⟨hcredited₂, hbacked₂, hissuance₂⟩ := creditAuthor_spec hc author hbacked₁
  have haccepts : (author.elim 0 fun a => Currency.accepted T.currency.existentialDeposit
      (authorShare fees rest) (T.currency.totalBalance l₁ a)) =
        authorCredit T author fees rest l := by
    cases author with
    | none => rfl
    | some a => exact accepted_after_treasury hsets₁ htreasury _ _
  rw [haccepts] at hcredited₂ hissuance₂
  generalize creditAuthor T author (authorShare fees rest) l₁ = l₂ at *
  -- the rest
  obtain ⟨hbacked₃, hissuance₃, haccount⟩ := hbacked₂.foldl_dropNegative hc (rest.drop 1)
  refine ⟨fun x => ?_, by omega, hbacked₃⟩
  rw [haccount, hcredited₂, hcredited₁, AccountData.credit_credit]

/-! ## On the mock runtime -/

theorem wiredRuntime_resolves : Economics.ResolvesInto wiredRuntime.economics 1337 :=
  fun l v hpos hexists => Economics.mockRuntime_resolves (by decide) l.ledger v hpos hexists

/-- The treasury has `100` and `4` has `200`; another `61` are issued. -/
def mockFees : VestedLedger Nat :=
  (wiredRuntime.currency.issue
    { ledger := Ledger.ofList [(1337, ⟨100, 0, 0, true⟩), (4, ⟨200, 0, 0, true⟩)],
      schedules := ∅ } 61).1

/-- Of fees of `51` the treasury gets `40`, and the author, `4`, gets `11` and a tip of `7`; the `3`
after the tip are gone. -/
theorem dealWithFees_exact_mock :
    let l' := dealWithFees wiredRuntime (some 4) [51, 7, 3] mockFees
    (∀ x, wiredRuntime.currency.account l' x = (wiredRuntime.currency.account mockFees x).credit
        ((if x = 1337 then 40 else 0) + if some 4 = some x then 18 else 0)) ∧
      wiredRuntime.currency.totalIssuance l' + 0 + 3 = 361 ∧
      wiredRuntime.currency.Backed l' 0 0 := by
  have hcredit : authorCredit wiredRuntime (some 4) 51 [7, 3] mockFees = 18 := by decide +kernel
  have hexact := dealWithFees_exact wiredRuntime wiredRuntime_lawful wiredRuntime_resolves (some 4)
    51 [7, 3] mockFees (by decide +kernel) (by unfold Currency.Backed; decide +kernel)
    (by decide +kernel)
  rw [hcredit] at hexact
  exact hexact

end XXChain.Runtime
