import XXChain.Lib.Ledger

/-!
# XXChain — vesting schedules

A vesting pallet as its callers see it: each account has a list of schedules, and what they
still hold is locked. `VestingSchedule` is the interface, over any state `σ`, and
`VestingSchedule.Lawful` the documented behaviour next to a currency of that state: a
schedule is refused when it unlocks nothing per block or there are too many, and adding one
drops those that are finished and touches nothing of an account but its locks.

* **`VestingSchedule.tryAdd`** — adding a schedule where a refusal is ignored;
* **`VestedLedger.vesting_lawful`** — the laws hold of a reference ledger with schedules.
-/

namespace XXChain

open Function

variable {A σ ρ : Type} [DecidableEq A]

/-! ## Schedules -/

/-- The locked amount, the amount unlocked per block and the starting block. -/
abbrev Schedule := Nat × Nat × Nat

/-- What the schedule still locks at a block. A product that exceeds a balance has unlocked
everything. -/
def lockedAt (block : Nat) (v : Schedule) : Nat :=
  let toUnlock := (block - v.2.2) * max v.2.1 1
  if toUnlock < balanceLimit then v.1 - toUnlock else 0

def lockedTotal (block : Nat) (schedules : List Schedule) : Nat :=
  (schedules.map (lockedAt block)).sum

/-- The schedules that still lock something. -/
def unfinished (block : Nat) (schedules : List Schedule) : List Schedule :=
  schedules.filter fun v => lockedAt block v ≠ 0

/-- The schedules of an account that at most `limit` are kept of, after one more is added at
a block, or refused. -/
def addSchedule (limit block : Nat) (schedules : List Schedule) (v : Schedule) :
    List Schedule :=
  if v.1 = 0 ∨ v.2.1 = 0 ∨ limit ≤ schedules.length then schedules
  else unfinished block (schedules ++ [v])

/-- A schedule that is not refused for what it says. -/
def ValidSchedule (v : Schedule) : Prop :=
  v.1 ≠ 0 ∧ v.2.1 ≠ 0

theorem lockedAt_le_of_le {block block' : Nat} (h : block ≤ block') (v : Schedule) :
    lockedAt block' v ≤ lockedAt block v := by
  have hunlocked : (block - v.2.2) * max v.2.1 1 ≤ (block' - v.2.2) * max v.2.1 1 :=
    Nat.mul_le_mul_right _ (Nat.sub_le_sub_right h _)
  unfold lockedAt
  dsimp only
  split_ifs <;> omega

/-- Of a balance that unlocks something per block, what is locked falls by that amount with each
block from the start. -/
theorem lockedAt_of_valid {block : Nat} {v : Schedule} (hv : ValidSchedule v)
    (hbalance : v.1 < balanceLimit) : lockedAt block v = v.1 - v.2.1 * (block - v.2.2) := by
  have hper := hv.2
  unfold lockedAt
  rw [Nat.max_eq_left (by omega), Nat.mul_comm]
  dsimp only
  split <;> omega

/-- At its start a schedule locks the whole amount. -/
theorem lockedAt_start (locked perBlock start : Nat) :
    lockedAt start (locked, perBlock, start) = locked := by
  unfold lockedAt
  rw [Nat.sub_self, Nat.zero_mul, if_pos (by decide), Nat.sub_zero]

@[simp]
theorem lockedTotal_nil (block : Nat) : lockedTotal block [] = 0 := rfl

@[simp]
theorem lockedTotal_cons (block : Nat) (v : Schedule) (schedules : List Schedule) :
    lockedTotal block (v :: schedules) = lockedAt block v + lockedTotal block schedules := rfl

theorem lockedTotal_append (block : Nat) (schedules added : List Schedule) :
    lockedTotal block (schedules ++ added) =
      lockedTotal block schedules + lockedTotal block added := by
  unfold lockedTotal
  rw [List.map_append, List.sum_append]

/-- The schedules that are finished lock nothing later either. -/
theorem lockedTotal_unfinished {now block : Nat} (h : now ≤ block) (schedules : List Schedule) :
    lockedTotal block (unfinished now schedules) = lockedTotal block schedules := by
  induction schedules with
  | nil => rfl
  | cons v schedules ih =>
    have hle := lockedAt_le_of_le h v
    unfold unfinished at ih ⊢
    by_cases hv : lockedAt now v = 0
    · rw [List.filter_cons_of_neg (by simpa using hv), ih, lockedTotal_cons]
      omega
    · rw [List.filter_cons_of_pos (by simpa using hv), lockedTotal_cons, lockedTotal_cons, ih]

theorem length_addSchedule_le (limit now : Nat) (schedules : List Schedule) (v : Schedule) :
    (addSchedule limit now schedules v).length ≤ schedules.length + 1 := by
  unfold addSchedule
  split
  · omega
  · have hle := List.length_filter_le (fun v => decide (lockedAt now v ≠ 0)) (schedules ++ [v])
    rw [List.length_append] at hle
    exact hle

/-- A schedule that is accepted adds what it locks. -/
theorem lockedTotal_addSchedule {limit now block : Nat} (h : now ≤ block)
    {schedules : List Schedule} {v : Schedule} (hv : ValidSchedule v)
    (hroom : schedules.length < limit) :
    lockedTotal block (addSchedule limit now schedules v) =
      lockedTotal block schedules + lockedAt block v := by
  have haccepted : ¬(v.1 = 0 ∨ v.2.1 = 0 ∨ limit ≤ schedules.length) := by
    have hlocked := hv.1
    have hper := hv.2
    omega
  unfold addSchedule
  rw [if_neg haccepted, lockedTotal_unfinished h, lockedTotal_append, lockedTotal_cons,
    lockedTotal_nil, Nat.add_zero]

/-- What a schedule adds where there is room for it: nothing, if it is refused for what it says. -/
def acceptedAt (block : Nat) (v : Schedule) : Nat :=
  if v.1 = 0 ∨ v.2.1 = 0 then 0 else lockedAt block v

theorem acceptedAt_of_valid (block : Nat) {v : Schedule} (hv : ValidSchedule v) :
    acceptedAt block v = lockedAt block v :=
  if_neg (not_or.mpr hv)

theorem lockedTotal_addSchedule_of_room {limit now block : Nat} (h : now ≤ block)
    {schedules : List Schedule} (v : Schedule) (hroom : schedules.length < limit) :
    lockedTotal block (addSchedule limit now schedules v) =
      lockedTotal block schedules + acceptedAt block v := by
  by_cases hv : v.1 = 0 ∨ v.2.1 = 0
  · have hrefused : v.1 = 0 ∨ v.2.1 = 0 ∨ limit ≤ schedules.length := by omega
    unfold addSchedule acceptedAt
    rw [if_pos hrefused, if_pos hv, Nat.add_zero]
  · have hvalid : ValidSchedule v := not_or.mp hv
    rw [acceptedAt_of_valid block hvalid, lockedTotal_addSchedule h hvalid hroom]

/-- Many add theirs, one after the other. -/
theorem lockedTotal_foldl_of_room {limit now block : Nat} (h : now ≤ block)
    {schedules added : List Schedule} (hroom : schedules.length + added.length ≤ limit) :
    lockedTotal block (added.foldl (addSchedule limit now) schedules) =
      lockedTotal block schedules + (added.map (acceptedAt block)).sum := by
  induction added generalizing schedules with
  | nil => rfl
  | cons v added ih =>
    rw [List.length_cons] at hroom
    have hlength := length_addSchedule_le limit now schedules v
    have hadded := lockedTotal_addSchedule_of_room h v (by omega : schedules.length < limit)
    rw [List.foldl_cons, ih (by omega), hadded, List.map_cons, List.sum_cons]
    omega

theorem lockedTotal_foldl_addSchedule {limit now block : Nat} (h : now ≤ block)
    {schedules added : List Schedule} (hvalid : ∀ v ∈ added, ValidSchedule v)
    (hroom : schedules.length + added.length ≤ limit) :
    lockedTotal block (added.foldl (addSchedule limit now) schedules) =
      lockedTotal block schedules + lockedTotal block added := by
  have haccepted : added.map (acceptedAt block) = added.map (lockedAt block) :=
    List.map_congr_left fun v hv => acceptedAt_of_valid block (hvalid v hv)
  rw [lockedTotal_foldl_of_room h hroom, haccepted]
  rfl

theorem length_foldl_addSchedule_le (limit now : Nat) (schedules added : List Schedule) :
    (added.foldl (addSchedule limit now) schedules).length ≤
      schedules.length + added.length := by
  induction added generalizing schedules with
  | nil => exact le_rfl
  | cons v added ih =>
    have hfirst := length_addSchedule_le limit now schedules v
    have hrest := ih (addSchedule limit now schedules v)
    rw [List.length_cons, List.foldl_cons]
    omega

/-- Two sums of which one is term by term at most the other are equal when all their terms are. -/
theorem sum_map_eq_iff_of_le {ι : Type} {l : List ι} {f g : ι → Nat} (hle : ∀ i ∈ l, f i ≤ g i) :
    (l.map f).sum = (l.map g).sum ↔ ∀ i ∈ l, f i = g i := by
  constructor
  · intro hsum i hi
    by_contra hne
    have hlt := List.sum_lt_sum f g hle ⟨i, hi, lt_of_le_of_ne (hle i hi) hne⟩
    omega
  · exact fun h => congrArg List.sum (List.map_congr_left h)

/-! ## The interface -/

/-- The vesting pallet at a block: the balance it locks of an account, and a schedule added,
or refused. -/
structure VestingSchedule (A σ : Type) where
  maxSchedules : Nat
  schedules : σ → A → List Schedule
  vestingBalance : Nat → σ → A → Option Nat
  addVestingSchedule : Nat → σ → A → Schedule → Option σ

namespace VestingSchedule

/-- The documented behaviour of the vesting pallet on a currency. -/
structure Lawful (t : VestingSchedule A σ) (c : Currency A σ) : Prop where
  vestingBalance_eq : ∀ block s a, t.vestingBalance block s a =
    if t.schedules s a = [] then none
    else some (min (c.freeBalance s a) (lockedTotal block (t.schedules s a)))
  add_zero : ∀ block s a v, v.1 = 0 → t.addVestingSchedule block s a v = some s
  add_isSome : ∀ block s a v, v.1 ≠ 0 → ((t.addVestingSchedule block s a v).isSome ↔
    v.2.1 ≠ 0 ∧ (t.schedules s a).length < t.maxSchedules)
  add_schedules : ∀ block s a v s', v.1 ≠ 0 → t.addVestingSchedule block s a v = some s' →
    t.schedules s' = update (t.schedules s) a (unfinished block (t.schedules s a ++ [v]))
  add_free : ∀ block s a v s', t.addVestingSchedule block s a v = some s' →
    (c.account s' a).free = (c.account s a).free
  add_reserved : ∀ block s a v s', t.addVestingSchedule block s a v = some s' →
    (c.account s' a).reserved = (c.account s a).reserved
  add_account_of_ne : ∀ block s a v s' b, t.addVestingSchedule block s a v = some s' → b ≠ a →
    c.account s' b = c.account s b
  add_issuance : ∀ block s a v s', t.addVestingSchedule block s a v = some s' →
    c.totalIssuance s' = c.totalIssuance s
  leaves_schedules : c.Leaves t.schedules

/-- Adds a schedule, and ignores it when the pallet refuses it. -/
def tryAdd (t : VestingSchedule A σ) (block : Nat) (s : σ) (a : A) (v : Schedule) : σ :=
  (t.addVestingSchedule block s a v).getD s

section TryAdd

variable {t : VestingSchedule A σ} {c : Currency A σ}

theorem Lawful.tryAdd_schedules (ht : t.Lawful c) (block : Nat) (s : σ) (a : A)
    (v : Schedule) :
    t.schedules (t.tryAdd block s a v) =
      update (t.schedules s) a (addSchedule t.maxSchedules block (t.schedules s a) v) := by
  unfold tryAdd addSchedule
  by_cases hzero : v.1 = 0
  · rw [ht.add_zero block s a v hzero, if_pos (Or.inl hzero), update_eq_self]
    rfl
  · have hsome := ht.add_isSome block s a v hzero
    cases hadd : t.addVestingSchedule block s a v with
    | none =>
      -- refused, for one of the two reasons
      have hrefused : v.2.1 = 0 ∨ t.maxSchedules ≤ (t.schedules s a).length := by
        rw [hadd] at hsome
        simp only [Option.isSome_none, Bool.false_eq_true, false_iff] at hsome
        omega
      rw [if_pos (Or.inr hrefused), update_eq_self]
      rfl
    | some s' =>
      rw [hadd] at hsome
      obtain ⟨hper, hlen⟩ := hsome.mp rfl
      rw [if_neg (by omega)]
      exact ht.add_schedules block s a v s' hzero hadd

theorem Lawful.tryAdd_free (ht : t.Lawful c) (block : Nat) (s : σ) (a : A) (v : Schedule) :
    (c.account (t.tryAdd block s a v) a).free = (c.account s a).free := by
  unfold tryAdd
  cases hadd : t.addVestingSchedule block s a v with
  | none => rfl
  | some s' => exact ht.add_free block s a v s' hadd

theorem Lawful.tryAdd_reserved (ht : t.Lawful c) (block : Nat) (s : σ) (a : A)
    (v : Schedule) :
    (c.account (t.tryAdd block s a v) a).reserved = (c.account s a).reserved := by
  unfold tryAdd
  cases hadd : t.addVestingSchedule block s a v with
  | none => rfl
  | some s' => exact ht.add_reserved block s a v s' hadd

theorem Lawful.tryAdd_account_of_ne (ht : t.Lawful c) (block : Nat) (s : σ) {a b : A}
    (v : Schedule) (hne : b ≠ a) :
    c.account (t.tryAdd block s a v) b = c.account s b := by
  unfold tryAdd
  cases hadd : t.addVestingSchedule block s a v with
  | none => rfl
  | some s' => exact ht.add_account_of_ne block s a v s' b hadd hne

theorem Lawful.tryAdd_issuance (ht : t.Lawful c) (block : Nat) (s : σ) (a : A)
    (v : Schedule) :
    c.totalIssuance (t.tryAdd block s a v) = c.totalIssuance s := by
  unfold tryAdd
  cases hadd : t.addVestingSchedule block s a v with
  | none => rfl
  | some s' => exact ht.add_issuance block s a v s' hadd

/-- Adding many leaves the issuance alone. -/
theorem Lawful.foldl_tryAdd_issuance (ht : t.Lawful c) (block : Nat) (s : σ) (a : A)
    (added : List Schedule) :
    c.totalIssuance (added.foldl (fun s v => t.tryAdd block s a v) s) = c.totalIssuance s := by
  induction added generalizing s with
  | nil => rfl
  | cons v added ih => rw [List.foldl_cons, ih, ht.tryAdd_issuance]

end TryAdd

/-- The vesting pallet of a part of the state. -/
def along (t : VestingSchedule A σ) (p : Part ρ σ) : VestingSchedule A ρ where
  maxSchedules := t.maxSchedules
  schedules r := t.schedules (p.get r)
  vestingBalance block r := t.vestingBalance block (p.get r)
  addVestingSchedule block r a v := (t.addVestingSchedule block (p.get r) a v).map (p.put r)

end VestingSchedule

theorem VestingSchedule.Lawful.along {t : VestingSchedule A σ} {c : Currency A σ}
    (ht : t.Lawful c) (p : Part ρ σ) : (t.along p).Lawful (c.along p) where
  vestingBalance_eq block r := ht.vestingBalance_eq block (p.get r)
  add_zero := by
    intro block r a v h
    show (t.addVestingSchedule block (p.get r) a v).map (p.put r) = some r
    rw [ht.add_zero block (p.get r) a v h, Option.map_some, p.put_get]
  add_isSome := by
    intro block r a v h
    show ((t.addVestingSchedule block (p.get r) a v).map (p.put r)).isSome ↔ _
    rw [Option.isSome_map]
    exact ht.add_isSome block (p.get r) a v h
  add_schedules := by
    intro block r a v r' hv hr
    obtain ⟨s, hs, rfl⟩ := Option.map_eq_some_iff.mp hr
    exact (congrArg t.schedules (p.get_put r s)).trans
      (ht.add_schedules block (p.get r) a v s hv hs)
  add_free := by
    intro block r a v r' hr
    obtain ⟨s, hs, rfl⟩ := Option.map_eq_some_iff.mp hr
    rw [c.along_account_put]
    exact ht.add_free block (p.get r) a v s hs
  add_reserved := by
    intro block r a v r' hr
    obtain ⟨s, hs, rfl⟩ := Option.map_eq_some_iff.mp hr
    rw [c.along_account_put]
    exact ht.add_reserved block (p.get r) a v s hs
  add_account_of_ne := by
    intro block r a v r' b hr hne
    obtain ⟨s, hs, rfl⟩ := Option.map_eq_some_iff.mp hr
    rw [c.along_account_put]
    exact ht.add_account_of_ne block (p.get r) a v s b hs hne
  add_issuance := by
    intro block r a v r' hr
    obtain ⟨s, hs, rfl⟩ := Option.map_eq_some_iff.mp hr
    exact (c.along_issuance_put p r s).trans (ht.add_issuance block (p.get r) a v s hs)
  leaves_schedules := ht.leaves_schedules.along p

/-! ## A reference ledger with schedules -/

structure VestedLedger (A : Type) where
  ledger : Ledger A
  schedules : StorageMap A (List Schedule)

namespace VestedLedger

def ledgerPart : Part (VestedLedger A) (Ledger A) where
  get s := s.ledger
  put s ledger := { s with ledger }
  get_put _ _ := rfl
  put_get _ := rfl

def currency (ed : Nat) : Currency A (VestedLedger A) :=
  (Ledger.currency ed).along ledgerPart

/-- The account with its lock set to what its schedules lock. -/
def relock (locked : Nat) (a : AccountData) : AccountData :=
  { a with frozen := locked, canDecProvider := locked == 0 }

/-- The reference vesting pallet, whose locks are the only ones. -/
def vesting (limit : Nat) : VestingSchedule A (VestedLedger A) where
  maxSchedules := limit
  schedules s a := (s.schedules.lookup a).getD []
  vestingBalance block s a :=
    let schedules := (s.schedules.lookup a).getD []
    if schedules = [] then none
    else some (min (s.ledger.account a).free (lockedTotal block schedules))
  addVestingSchedule block s a v :=
    let schedules := (s.schedules.lookup a).getD []
    if v.1 = 0 then some s
    else if v.2.1 ≠ 0 ∧ schedules.length < limit then
      let schedules := unfinished block (schedules ++ [v])
      some
        { ledger := s.ledger.set a (relock (lockedTotal block schedules) (s.ledger.account a))
          schedules := s.schedules.insert a schedules }
    else none

/-- A schedule that was added. -/
theorem add_eq_some {limit block : Nat} {s s' : VestedLedger A} {a : A} {v : Schedule}
    (h : (vesting limit).addVestingSchedule block s a v = some s') (hv : v.1 ≠ 0) :
    let schedules := unfinished block ((s.schedules.lookup a).getD [] ++ [v])
    s' =
      { ledger := s.ledger.set a (relock (lockedTotal block schedules) (s.ledger.account a))
        schedules := s.schedules.insert a schedules } := by
  simp only [vesting, if_neg hv, Option.ite_none_right_eq_some, Option.some.injEq] at h
  exact h.2.symm

/-- Adding one leaves the account of `b` as it is, or relocks it if it is that of `a`. -/
theorem account_add {limit block : Nat} {s s' : VestedLedger A} {a : A} {v : Schedule}
    (h : (vesting limit).addVestingSchedule block s a v = some s') :
    s' = s ∨ s'.ledger.issuance = s.ledger.issuance ∧
      ∃ locked, s'.ledger.account = update s.ledger.account a (relock locked (s.ledger.account a))
    := by
  by_cases hv : v.1 = 0
  · simp only [vesting, if_pos hv, Option.some.injEq] at h
    exact Or.inl h.symm
  · rw [add_eq_some h hv]
    exact Or.inr ⟨rfl, _, Ledger.account_set _ _ _⟩

/-- The reference vesting pallet is lawful. -/
theorem vesting_lawful (limit ed : Nat) :
    (vesting limit : VestingSchedule A (VestedLedger A)).Lawful (currency ed) where
  vestingBalance_eq _ _ _ := rfl
  add_zero _ _ _ _ hv := if_pos hv
  add_isSome := by
    intro block s a v hv
    simp only [vesting, if_neg hv, Option.isSome_ite]
  add_schedules := by
    intro block s a v s' hv h
    rw [add_eq_some h hv]
    funext x
    by_cases hx : x = a
    · subst hx
      simp [vesting]
    · simp [vesting, hx, Finmap.lookup_insert_of_ne]
  add_free := by
    intro block s a v s' h
    rcases account_add h with rfl | ⟨_, locked, haccount⟩
    · rfl
    · show (s'.ledger.account a).free = (s.ledger.account a).free
      rw [haccount, update_self]
      rfl
  add_reserved := by
    intro block s a v s' h
    rcases account_add h with rfl | ⟨_, locked, haccount⟩
    · rfl
    · show (s'.ledger.account a).reserved = (s.ledger.account a).reserved
      rw [haccount, update_self]
      rfl
  add_account_of_ne := by
    intro block s a v s' b h hne
    rcases account_add h with rfl | ⟨_, locked, haccount⟩
    · rfl
    · show s'.ledger.account b = s.ledger.account b
      rw [haccount, update_of_ne hne]
  add_issuance := by
    intro block s a v s' h
    rcases account_add h with rfl | ⟨hissuance, _⟩
    · rfl
    · exact hissuance
  leaves_schedules := Currency.along_leaves _ _ fun _ _ => rfl

end VestedLedger

end XXChain
