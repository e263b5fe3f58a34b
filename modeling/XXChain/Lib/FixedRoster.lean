import Mathlib.Algebra.Order.Group.Nat
import Mathlib.Data.Finset.Card
import XXChain.Lib.ThresholdVote

/-!
# XXChain — threshold voting while the roster stays the same

Two facts about a threshold vote whose roster `R` and threshold `q` do not change:

* **the verdict does not depend on the order** — a tally that holds the votes of the voters
  who have voted so far (`Tally.Collects`) can only be approved when `q` members of `R` are
  assigned a vote in favour, can only be rejected when they are not, and is one of the two
  once everybody has voted;
* **quorums intersect** — of two motions approved with more than half of `R` each, some voter
  is in favour of both (`Quorate.common_voter`).
-/

namespace XXChain.ThresholdVote

open Relation

variable {K A : Type}

/-! ## Votes that are settled in advance -/

/-- The members of `R` whose vote is `inFavour`. -/
def camp (side : A → Bool) (inFavour : Bool) (R : Finset A) : Finset A :=
  R.filter fun a => side a = inFavour

@[simp]
theorem mem_camp {side : A → Bool} {inFavour : Bool} {R : Finset A} {a : A} :
    a ∈ camp side inFavour R ↔ a ∈ R ∧ side a = inFavour := by
  simp [camp]

theorem camp_subset {side : A → Bool} {inFavour : Bool} {R R' : Finset A} (h : R ⊆ R') :
    camp side inFavour R ⊆ camp side inFavour R' :=
  Finset.filter_subset_filter _ h

theorem camp_card (side : A → Bool) (R : Finset A) :
    (camp side true R).card + (camp side false R).card = R.card := by
  have hsplit := Finset.card_filter_add_card_filter_not (s := R) fun a => side a = true
  simpa [camp] using hsplit

variable [DecidableEq A]

/-- The tally holds the votes of `voters`, each as assigned by `side`, and no others. -/
structure Tally.Collects (t : Tally A) (side : A → Bool) (voters : Finset A) : Prop where
  nodup_inFavour : t.inFavour.Nodup
  nodup_against : t.against.Nodup
  inFavour : t.inFavour.toFinset = camp side true voters
  against : t.against.toFinset = camp side false voters

namespace Tally.Collects

variable {t : Tally A} {side : A → Bool} {voters R : Finset A} {q : Nat}

theorem opened (side : A → Bool) (deadline : Nat) :
    (Tally.opened deadline : Tally A).Collects side ∅ := by
  constructor <;> simp [Tally.opened, camp]

theorem length_inFavour (h : t.Collects side voters) :
    t.inFavour.length = (camp side true voters).card := by
  rw [← h.inFavour, List.toFinset_card_of_nodup h.nodup_inFavour]

theorem length_against (h : t.Collects side voters) :
    t.against.length = (camp side false voters).card := by
  rw [← h.against, List.toFinset_card_of_nodup h.nodup_against]

theorem mem_iff (h : t.Collects side voters) {a : A} :
    a ∈ t.inFavour ++ t.against ↔ a ∈ voters := by
  rw [List.mem_append, ← List.mem_toFinset, ← List.mem_toFinset, h.inFavour, h.against,
    mem_camp, mem_camp]
  cases side a <;> simp

/-- One more voter casts the vote it is assigned. -/
theorem cast (h : t.Collects side voters) {a : A} (hfresh : a ∉ voters) :
    (t.cast a (side a)).Collects side (insert a voters) := by
  have hnew : a ∉ t.inFavour ∧ a ∉ t.against := by
    rwa [← h.mem_iff, List.mem_append, not_or] at hfresh
  cases hside : side a with
  | true =>
    refine ⟨?_, h.nodup_against, ?_, ?_⟩
    · exact List.nodup_append.mpr ⟨h.nodup_inFavour, List.nodup_singleton a, by
        rintro x hx y hy rfl
        exact hnew.1 (List.mem_singleton.mp hy ▸ hx)⟩
    · show (t.inFavour ++ [a]).toFinset = _
      rw [List.toFinset_append, h.inFavour, camp, camp, Finset.filter_insert, if_pos hside,
        Finset.union_comm]
      rfl
    · show t.against.toFinset = _
      rw [h.against, camp, camp, Finset.filter_insert, if_neg (by simp [hside])]
  | false =>
    refine ⟨h.nodup_inFavour, ?_, ?_, ?_⟩
    · exact List.nodup_append.mpr ⟨h.nodup_against, List.nodup_singleton a, by
        rintro x hx y hy rfl
        exact hnew.2 (List.mem_singleton.mp hy ▸ hx)⟩
    · show t.inFavour.toFinset = _
      rw [h.inFavour, camp, camp, Finset.filter_insert, if_neg (by simp [hside])]
    · show (t.against ++ [a]).toFinset = _
      rw [List.toFinset_append, h.against, camp, camp, Finset.filter_insert, if_pos hside,
        Finset.union_comm]
      rfl

/-- A count that approves has found `q` members in favour. -/
theorem le_of_approved (h : t.Collects side voters) (hsub : voters ⊆ R)
    (hcount : q ≤ t.inFavour.length) : q ≤ (camp side true R).card := by
  rw [h.length_inFavour] at hcount
  exact hcount.trans (Finset.card_le_card (camp_subset hsub))

/-- A count that rejects leaves fewer than `q` members in favour. -/
theorem lt_of_rejected (h : t.Collects side voters) (hsub : voters ⊆ R)
    (hcount : R.card < t.against.length + q) : (camp side true R).card < q := by
  rw [h.length_against] at hcount
  have hagainst : (camp side false voters).card ≤ (camp side false R).card :=
    Finset.card_le_card (camp_subset hsub)
  have hsplit := camp_card side R
  omega

/-- Once everybody has voted, the tally is approved or rejected. -/
theorem decided_of_all (h : t.Collects side R) (hfor : ¬q ≤ t.inFavour.length) :
    R.card < t.against.length + q := by
  rw [h.length_inFavour] at hfor
  rw [h.length_against]
  have hsplit := camp_card side R
  omega

end Tally.Collects

/-! ## Quorums -/

/-- The motions in `motions` are voted on by members of `R` alone and approved with `q` votes
in favour. -/
structure Quorate (R : Finset A) (q : Nat) (motions : Set K) (b : Ballot K A) : Prop where
  members : ∀ key ∈ motions, ∀ t, b.tallies key = some t → ∀ a ∈ t.inFavour, a ∈ R
  quorum : ∀ key ∈ motions, ∀ t, b.tallies key = some t → t.outcome = .approved →
    q ≤ t.inFavour.length

namespace Quorate

variable {R : Finset A} {q : Nat} {motions : Set K} {b b' : Ballot K A}

omit [DecidableEq A] in
theorem of_no_motions (h : ∀ key ∈ motions, b.tallies key = none) : Quorate R q motions b := by
  constructor <;> intro key hkey t hget <;> rw [h key hkey] at hget <;> cases hget

variable [DecidableEq K] {lifetime capacity : Nat}

omit [DecidableEq A] in
/-- A tally that is written needs its members, and its quorum when it is approved. -/
theorem record (h : Quorate R q motions b) {key : K} {t : Tally A}
    {entries : List (Entry K A)} (hmembers : key ∈ motions → ∀ a ∈ t.inFavour, a ∈ R)
    (hquorum : key ∈ motions → t.outcome = .approved → q ≤ t.inFavour.length) :
    Quorate R q motions (b.record key t entries) := by
  constructor
  · intro k hk t' hget
    by_cases hkey : k = key
    · subst hkey
      rw [Ballot.record_tallies_self, Option.some.injEq] at hget
      exact hget ▸ hmembers hk
    · rw [Ballot.record_tallies_of_ne b hkey] at hget
      exact h.members k hk t' hget
  · intro k hk t' hget
    by_cases hkey : k = key
    · subst hkey
      rw [Ballot.record_tallies_self, Option.some.injEq] at hget
      exact hget ▸ hquorum hk
    · rw [Ballot.record_tallies_of_ne b hkey] at hget
      exact h.quorum k hk t' hget

/-- A write under the roster `R` and the threshold `q` keeps the motions quorate. -/
theorem write (h : Quorate R q motions b) (hroster : b.roster = R) (hthreshold : b.threshold = q)
    (hwrite : Write lifetime capacity b b') : Quorate R q motions b' := by
  cases hwrite with
  | setThreshold | enrol | strike | tick => exact ⟨h.members, h.quorum⟩
  | cast key a inFavour t hget hopen hmem hfresh =>
    -- a tally that was not there before has no votes
    have hold : key ∈ motions → ∀ x ∈ t.inFavour, x ∈ R := by
      intro hkey
      cases hk : b.tallies key with
      | none =>
        rw [hk] at hget
        subst hget
        simp [Tally.opened]
      | some t' =>
        rw [hk, Option.getD_some] at hget
        exact hget ▸ h.members key hkey t' hk
    refine h.record (fun hkey x hx => ?_) ?_
    · cases inFavour with
      | true =>
        rcases List.mem_append.mp hx with hx | hx
        · exact hold hkey x hx
        · rw [List.mem_singleton.mp hx]
          exact hroster ▸ hmem
      | false => exact hold hkey x hx
    · intro _ happroved
      rw [Tally.cast_outcome, Tally.pending_of_open hopen] at happroved
      cases happroved
  | approve key t hget hopen hcount =>
    exact h.record (fun hkey => h.members key hkey t hget) fun _ _ => hthreshold ▸ hcount
  | reject key t hget hopen hcount =>
    refine h.record (fun hkey => h.members key hkey t hget) ?_
    rintro _ ⟨⟩

/-- Two executed motions have a voter in common when two quorums are more than the roster. -/
theorem common_voter (h : Quorate R q motions b) (hinv : Inv capacity b)
    (hmajority : R.card < 2 * q) {key key' : K} (hkey : key ∈ motions) (hkey' : key' ∈ motions)
    (hexec : 0 < executions key b.log) (hexec' : 0 < executions key' b.log) :
    ∃ a, .cast key a true true ∈ b.log ∧ .cast key' a true true ∈ b.log := by
  have happroved : ∀ k, 0 < executions k b.log →
      ∃ t, b.tallies k = some t ∧ t.outcome = .approved := by
    intro k hk
    rw [hinv.executions_eq] at hk
    by_contra hnone
    rw [if_neg hnone] at hk
    exact Nat.lt_irrefl 0 hk
  obtain ⟨t, hget, hout⟩ := happroved key hexec
  obtain ⟨t', hget', hout'⟩ := happroved key' hexec'
  have hrec := hinv.recorded key t hget
  have hrec' := hinv.recorded key' t' hget'
  -- the two sets of voters lie in the roster, and together outnumber it
  have hcard := List.toFinset_card_of_nodup (List.nodup_append.mp hrec.distinct).1
  have hcard' := List.toFinset_card_of_nodup (List.nodup_append.mp hrec'.distinct).1
  have hq := h.quorum key hkey t hget hout
  have hq' := h.quorum key' hkey' t' hget' hout'
  obtain ⟨a, ha⟩ := Finset.inter_nonempty_of_card_lt_card_add_card
    (fun a ha => h.members key hkey t hget a (List.mem_toFinset.mp ha))
    (fun a ha => h.members key' hkey' t' hget' a (List.mem_toFinset.mp ha))
    (show R.card < t.inFavour.toFinset.card + t'.inFavour.toFinset.card by omega)
  obtain ⟨ha₁, ha₂⟩ := Finset.mem_inter.mp ha
  exact ⟨a, hrec.inFavour a (List.mem_toFinset.mp ha₁),
    hrec'.inFavour a (List.mem_toFinset.mp ha₂)⟩

end Quorate

end XXChain.ThresholdVote
