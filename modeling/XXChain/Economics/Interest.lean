import Mathlib.Algebra.Order.Field.Basic
import Mathlib.Data.Rat.Cast.Order
import Mathlib.Tactic.FieldSimp
import Mathlib.Tactic.Ring
import XXChain.Economics.EraPayout

/-!
# XXChain — the shape of the interest curve

`get_ideal_interest` finds the segment of the curve a block falls into and moves along it
from the interest of its start towards that of its end. How far it moves is the ratio of
the block, counted from the genesis and not from the start of the segment, to the length of
the segment.

* **`idealInterest_follows`** — the interest still stays between the two points around the
  block, and where the stored interests only fall (only rise) in block order, so does the
  ideal interest from the end of the first era on, over any number of segments.
* **`idealInterest_linear_iff`** — it is the linear interpolation of the segment, up to two
  billionths, on the segment that starts at the genesis, and on a later one where the blocks
  before it that the ratio counts are worth no more than that. Where they are worth four or more
  it is not; between the two the rounding of the ratio decides.
-/

namespace XXChain.Economics

variable {A σ : Type} {T : Config A σ}

/-! ## One segment -/

/-- The block the interest of a block is read at: from the end of the first era on, the
midpoint of the era. -/
def calcBlock (T : Config A σ) (block : Nat) : Nat :=
  if T.eraDuration ≤ block then block - T.eraDuration / 2 else block

theorem calcBlock_le (T : Config A σ) (block : Nat) : calcBlock T block ≤ block := by
  unfold calcBlock
  split <;> omega

theorem calcBlock_mono {block block' : Nat} (hera : T.eraDuration ≤ block)
    (h : block ≤ block') : calcBlock T block ≤ calcBlock T block' := by
  unfold calcBlock
  rw [if_pos hera, if_pos (hera.trans h)]
  omega

theorem half_of (n : Nat) : (Perbill.fromRational 1 2).of n = n / 2 := by
  have hparts : (Perbill.fromRational 1 2).parts = 500000000 := rfl
  rw [Perbill.of_eq, hparts]
  omega

/-- The difference of the interests of a segment's two ends. -/
def interestDiff (start stop : IdealInterestPoint) : Perbill :=
  if stop.interest < start.interest then start.interest.saturatingSub stop.interest
  else stop.interest.saturatingSub start.interest

/-- How far the interest moves along a segment, for the block it is read at. -/
def interestChange (start stop : IdealInterestPoint) (x : Nat) : Perbill :=
  Perbill.fromRational x (stop.block - start.block) * interestDiff start stop

/-- The interest of a segment, for the block it is read at. -/
def segmentInterest (start stop : IdealInterestPoint) (x : Nat) : Perbill :=
  if stop.interest < start.interest then
    start.interest.saturatingSub (interestChange start stop x)
  else start.interest.saturatingAdd (interestChange start stop x)

theorem interestDiff_parts (start stop : IdealInterestPoint) :
    (interestDiff start stop).parts =
      max start.interest.parts stop.interest.parts -
        min start.interest.parts stop.interest.parts := by
  unfold interestDiff
  split
  · next h =>
    have h' : stop.interest.parts < start.interest.parts := h
    show start.interest.parts - stop.interest.parts = _
    omega
  · next h =>
    have h' : ¬ stop.interest.parts < start.interest.parts := h
    show stop.interest.parts - start.interest.parts = _
    omega

theorem interestChange_le (start stop : IdealInterestPoint) (x : Nat) :
    (interestChange start stop x).parts ≤ (interestDiff start stop).parts :=
  Perbill.mul_le_right _ _

theorem interestChange_mono (start stop : IdealInterestPoint) {x x' : Nat} (h : x ≤ x') :
    (interestChange start stop x).parts ≤ (interestChange start stop x').parts :=
  Perbill.mul_mono_left (Perbill.fromRational_mono h _) _

variable {start stop : IdealInterestPoint}

/-- Nothing saturates: the interest never moves by more than the difference. -/
theorem segmentInterest_parts (x : Nat) :
    (segmentInterest start stop x).parts =
      if stop.interest.parts < start.interest.parts then
        start.interest.parts - (interestChange start stop x).parts
      else start.interest.parts + (interestChange start stop x).parts := by
  have hchange := interestChange_le start stop x
  rw [interestDiff_parts] at hchange
  unfold segmentInterest
  by_cases h : stop.interest < start.interest
  · have h' : stop.interest.parts < start.interest.parts := h
    rw [if_pos h, if_pos h']
    rfl
  · have h' : ¬ stop.interest.parts < start.interest.parts := h
    have hone := stop.interest.le_accuracy
    rw [if_neg h, if_neg h']
    show min 1000000000 _ = _
    omega

theorem segmentInterest_between (start stop : IdealInterestPoint) (x : Nat) :
    min start.interest.parts stop.interest.parts ≤ (segmentInterest start stop x).parts ∧
      (segmentInterest start stop x).parts ≤
        max start.interest.parts stop.interest.parts := by
  have hchange := interestChange_le start stop x
  rw [interestDiff_parts] at hchange
  rw [segmentInterest_parts]
  split <;> omega

theorem computeIdealInterest_eq {block : Nat} (hstart : start.block < block)
    (hstop : block ≤ stop.block) :
    computeIdealInterest T block start stop =
      .ok (segmentInterest start stop (calcBlock T block)) := by
  have hblocks : start.block ≤ stop.block := (Nat.le_of_lt hstart).trans hstop
  have hcalc : (if T.eraDuration ≤ block then
        subtract block ((Perbill.fromRational 1 2).of T.eraDuration)
      else .ok block : Except Panic Nat) = .ok (calcBlock T block) := by
    unfold calcBlock
    rw [half_of]
    split
    · exact subtract_eq_ok (by omega)
    · rfl
  unfold computeIdealInterest
  dsimp only
  rw [subtract_eq_ok hblocks, hcalc]
  simp only [decide_eq_true_eq]
  by_cases hzero : (interestDiff start stop).isZero
  · -- a constant segment: the change is a ratio of nothing
    refine (if_pos hzero).trans ?_
    have hdiff : (interestDiff start stop).parts = 0 := by
      simpa [Perbill.isZero] using hzero
    have hchange := interestChange_le start stop (calcBlock T block)
    have hends := interestDiff_parts start stop
    congr 1
    ext
    rw [segmentInterest_parts]
    split <;> omega
  · exact if_neg hzero

/-! ## The place of a block on the curve -/

/-- The points below a block and those from it on. -/
structure Split (points : List IdealInterestPoint) (block : Nat)
    (below above : List IdealInterestPoint) : Prop where
  eq_append : points = below ++ above
  below_lt : ∀ p ∈ below, p.block < block
  le_above : ∀ p ∈ above, block ≤ p.block

/-- Sorted points have the points below a block in front. -/
theorem exists_split {points : List IdealInterestPoint}
    (hsorted : points.Pairwise fun p q => p.block ≤ q.block) (block : Nat) :
    ∃ below above, Split points block below above := by
  induction points with
  | nil => exact ⟨[], [], rfl, by simp, by simp⟩
  | cons p points ih =>
    rw [List.pairwise_cons] at hsorted
    by_cases hp : p.block < block
    · obtain ⟨below, above, hsplit⟩ := ih hsorted.2
      refine ⟨p :: below, above, ?_, ?_, hsplit.le_above⟩
      · rw [hsplit.eq_append, List.cons_append]
      · intro q hq
        cases List.mem_cons.mp hq with
        | inl h => exact h ▸ hp
        | inr h => exact hsplit.below_lt q h
    · refine ⟨[], p :: points, rfl, by simp, ?_⟩
      intro q hq
      cases List.mem_cons.mp hq with
      | inl h => exact h ▸ Nat.le_of_not_lt hp
      | inr h => exact (Nat.le_of_not_lt hp).trans (hsorted.1 q h)

/-- The interest at a block, from the last point below it and the first one from it on. -/
def interestBetween (T : Config A σ) (block : Nat) :
    Option IdealInterestPoint → Option IdealInterestPoint → Perbill
  | some start, some stop => segmentInterest start stop (calcBlock T block)
  | none, some first => first.interest
  | some last, none => last.interest
  | none, none => .zero

namespace Split

variable {points below above : List IdealInterestPoint} {block : Nat}

/-- The search skips the points below the block. -/
theorem findIdx? (h : Split points block below above) :
    points.findIdx? (fun p => decide (block ≤ p.block)) =
      if above = [] then none else some below.length := by
  have hbelow : below.findIdx? (fun p => decide (block ≤ p.block)) = none := by
    rw [List.findIdx?_eq_none_iff]
    intro p hp
    exact decide_eq_false (Nat.not_le_of_lt (h.below_lt p hp))
  rw [h.eq_append, List.findIdx?_append, hbelow]
  cases above with
  | nil => rfl
  | cons p above =>
    have hp : block ≤ p.block := h.le_above p (by simp)
    simp [List.findIdx?_cons, hp]

/-- A curve is read at the two points around the block. -/
theorem getIdealInterest (h : Split points block below above) (hne : points ≠ []) :
    getIdealInterest T block points =
      .ok (interestBetween T block below.getLast? above.head?) := by
  have hfind := h.findIdx?
  have hpoints := h.eq_append
  rcases List.eq_nil_or_concat below with rfl | ⟨init, start, rfl⟩
  · -- no point is below the block
    cases above with
    | nil => exact absurd hpoints hne
    | cons first rest =>
      rw [Economics.getIdealInterest, hfind, hpoints]
      rfl
  · rw [List.concat_eq_append] at h hpoints hfind ⊢
    cases above with
    | nil =>
      rw [Economics.getIdealInterest, hfind, hpoints, List.append_nil]
      show (unwrap (init ++ [start]).getLast? >>= _) = _
      rw [List.getLast?_concat]
      rfl
    | cons stop rest =>
      rw [List.append_assoc, List.singleton_append] at hpoints
      have hindex : points.findIdx? (fun p => decide (block ≤ p.block)) =
          some (init.length + 1) := by
        rw [hfind]
        simp
      have hstart : index points init.length = .ok start := by
        rw [hpoints, index_isOk (by simp)]
        simp
      have hstop : index points (init.length + 1) = .ok stop := by
        rw [hpoints, index_isOk (by simp)]
        simp
      rw [Economics.getIdealInterest, hindex]
      show (index points init.length >>= fun start =>
        index points (init.length + 1) >>= fun stop => _) = _
      rw [hstart, hstop, List.getLast?_concat]
      exact computeIdealInterest_eq (h.below_lt start (by simp)) (h.le_above stop (by simp))

/-- A list splits at a block in one way. -/
theorem below_eq (h : Split points block below above) :
    below = points.filter fun p => decide (p.block < block) := by
  rw [h.eq_append, List.filter_append]
  have hbelow : below.filter (fun p => decide (p.block < block)) = below :=
    List.filter_eq_self.mpr fun p hp => decide_eq_true (h.below_lt p hp)
  have habove : above.filter (fun p => decide (p.block < block)) = [] :=
    List.filter_eq_nil_iff.mpr fun p hp => by
      simpa using h.le_above p hp
  rw [hbelow, habove, List.append_nil]

/-- Where no point lies between two blocks, the list splits at both in the same place. -/
theorem congr {block' : Nat} {below' above' : List IdealInterestPoint}
    (h : Split points block below above) (h' : Split points block' below' above')
    (hnone : ∀ p ∈ points, p.block < block' → p.block < block) (hblock : block ≤ block') :
    below = below' ∧ above = above' := by
  have hbelow : below = below' := by
    rw [h.below_eq, h'.below_eq]
    apply List.filter_congr
    intro p hp
    exact decide_eq_decide.mpr ⟨fun hlt => hlt.trans_le hblock, hnone p hp⟩
  have happend := h.eq_append.symm.trans h'.eq_append
  rw [hbelow] at happend
  exact ⟨hbelow, List.append_cancel_left happend⟩

end Split

/-! ## The direction of the curve -/

/-- The interest of a block on the curve: between those of the points around the block, or
that of the first or the last point where the block is not between two. -/
inductive Bracketed (points : List IdealInterestPoint) (block : Nat) (interest : Perbill) :
    Prop where
  | before (first : IdealInterestPoint) (rest : List IdealInterestPoint)
      (hpoints : points = first :: rest) (hfirst : block ≤ first.block)
      (heq : interest = first.interest)
  | after (init : List IdealInterestPoint) (last : IdealInterestPoint)
      (hpoints : points = init ++ [last]) (hlast : last.block < block)
      (heq : interest = last.interest)
  | within (init : List IdealInterestPoint) (start stop : IdealInterestPoint)
      (rest : List IdealInterestPoint) (hpoints : points = init ++ start :: stop :: rest)
      (hstart : start.block < block) (hstop : block ≤ stop.block)
      (hmin : min start.interest.parts stop.interest.parts ≤ interest.parts)
      (hmax : interest.parts ≤ max start.interest.parts stop.interest.parts)

theorem Split.bracketed {points below above : List IdealInterestPoint} {block : Nat}
    (h : Split points block below above) (hne : points ≠ []) :
    Bracketed points block (interestBetween T block below.getLast? above.head?) := by
  have hpoints := h.eq_append
  rcases List.eq_nil_or_concat below with rfl | ⟨init, start, rfl⟩
  · cases above with
    | nil => exact absurd hpoints hne
    | cons first rest => exact .before first rest hpoints (h.le_above first (by simp)) rfl
  · rw [List.concat_eq_append] at h hpoints ⊢
    have hstart : start.block < block := h.below_lt start (by simp)
    rw [List.getLast?_concat]
    cases above with
    | nil =>
      rw [List.append_nil] at hpoints
      exact .after init start hpoints hstart rfl
    | cons stop rest =>
      rw [List.append_assoc, List.singleton_append] at hpoints
      have hbetween := segmentInterest_between start stop (calcBlock T block)
      exact .within init start stop rest hpoints hstart (h.le_above stop (by simp))
        hbetween.1 hbetween.2

/-- The two directions of a curve. -/
inductive Direction where
  | falling
  | rising
  deriving DecidableEq, Repr

/-- `q` is as far as `p` or further in a direction. -/
def Direction.Along : Direction → Perbill → Perbill → Prop
  | .falling, p, q => q ≤ p
  | .rising, p, q => p ≤ q

namespace Direction

variable {d : Direction} {p q r : Perbill}

theorem Along.refl (d : Direction) (p : Perbill) : d.Along p p := by
  cases d <;> exact Nat.le_refl p.parts

theorem Along.trans (h : d.Along p q) (h' : d.Along q r) : d.Along p r := by
  cases d with
  | falling => exact Nat.le_trans h' h
  | rising => exact Nat.le_trans h h'

/-- A curve whose interests only go in one direction. -/
def Monotone (d : Direction) (points : List IdealInterestPoint) : Prop :=
  points.Pairwise fun p q => d.Along p.interest q.interest

/-- On a segment that goes in a direction, so does the interest. -/
theorem segmentInterest_along (h : d.Along start.interest stop.interest) (x : Nat) :
    d.Along start.interest (segmentInterest start stop x) ∧
      d.Along (segmentInterest start stop x) stop.interest := by
  have hbetween := segmentInterest_between start stop x
  cases d with
  | falling =>
    have h' : stop.interest.parts ≤ start.interest.parts := h
    rw [Nat.min_eq_right h', Nat.max_eq_left h'] at hbetween
    exact ⟨hbetween.2, hbetween.1⟩
  | rising =>
    have h' : start.interest.parts ≤ stop.interest.parts := h
    rw [Nat.min_eq_left h', Nat.max_eq_right h'] at hbetween
    exact ⟨hbetween.1, hbetween.2⟩

theorem segmentInterest_mono (h : d.Along start.interest stop.interest) {x x' : Nat}
    (hx : x ≤ x') : d.Along (segmentInterest start stop x) (segmentInterest start stop x') := by
  have hchange := interestChange_mono start stop hx
  have hle := interestChange_le start stop x'
  rw [interestDiff_parts] at hle
  cases d with
  | falling =>
    have h' : stop.interest.parts ≤ start.interest.parts := h
    show (segmentInterest start stop x').parts ≤ (segmentInterest start stop x).parts
    rw [segmentInterest_parts, segmentInterest_parts]
    split <;> omega
  | rising =>
    have h' : start.interest.parts ≤ stop.interest.parts := h
    show (segmentInterest start stop x).parts ≤ (segmentInterest start stop x').parts
    rw [segmentInterest_parts, segmentInterest_parts, if_neg (by omega), if_neg (by omega)]
    omega

/-- The interest at a block is further along than every point below the block, and no further
than any point from it on. -/
theorem interestBetween_along {below above : List IdealInterestPoint} (block : Nat)
    (h : d.Monotone (below ++ above)) :
    (∀ p ∈ below,
      d.Along p.interest (interestBetween T block below.getLast? above.head?)) ∧
    (∀ q ∈ above,
      d.Along (interestBetween T block below.getLast? above.head?) q.interest) := by
  obtain ⟨hbelow, habove, hcross⟩ := List.pairwise_append.mp h
  rcases List.eq_nil_or_concat below with rfl | ⟨init, start, rfl⟩
  · cases above with
    | nil => exact ⟨by simp, by simp⟩
    | cons first rest =>
      refine ⟨by simp, ?_⟩
      intro q hq
      cases List.mem_cons.mp hq with
      | inl hfirst => exact hfirst ▸ Along.refl d _
      | inr hrest => exact (List.pairwise_cons.mp habove).1 q hrest
  · rw [List.concat_eq_append] at hbelow hcross ⊢
    rw [List.getLast?_concat]
    -- the points below the block are no further along than the last of them
    have hinit : ∀ p ∈ init ++ [start], d.Along p.interest start.interest := by
      intro p hp
      cases List.mem_append.mp hp with
      | inl hinit => exact (List.pairwise_append.mp hbelow).2.2 p hinit start (by simp)
      | inr hlast => exact List.mem_singleton.mp hlast ▸ Along.refl d _
    cases above with
    | nil => exact ⟨hinit, by simp⟩
    | cons stop rest =>
      have hsegment := segmentInterest_along (hcross start (by simp) stop (by simp))
        (calcBlock T block)
      refine ⟨fun p hp => (hinit p hp).trans hsegment.1, ?_⟩
      intro q hq
      cases List.mem_cons.mp hq with
      | inl hstop => exact hstop ▸ hsegment.2
      | inr hrest => exact hsegment.2.trans ((List.pairwise_cons.mp habove).1 q hrest)

/-- Between the same two points, a later block is read further along. -/
theorem interestBetween_mono {below above : List IdealInterestPoint} {block block' : Nat}
    (h : d.Monotone (below ++ above)) (hera : T.eraDuration ≤ block) (hblock : block ≤ block') :
    d.Along (interestBetween T block below.getLast? above.head?)
      (interestBetween T block' below.getLast? above.head?) := by
  have hcross := (List.pairwise_append.mp h).2.2
  cases hlast : below.getLast? with
  | none =>
    cases above.head? with
    | none => exact Along.refl d _
    | some first => exact Along.refl d _
  | some start =>
    cases hfirst : above.head? with
    | none => exact Along.refl d _
    | some stop =>
      have hstart : start ∈ below := List.mem_of_getLast? hlast
      have hstop : stop ∈ above := List.mem_of_head? hfirst
      exact segmentInterest_mono (hcross start hstart stop hstop) (calcBlock_mono hera hblock)

/-- Along a curve in one direction a later block has an interest further along: either a
point lies between the two blocks, or both are on one segment. -/
theorem idealInterest_along {points : List IdealInterestPoint} (hne : points ≠ [])
    (hsorted : points.Pairwise fun p q => p.block ≤ q.block) (h : d.Monotone points)
    {block block' : Nat} (hera : T.eraDuration ≤ block) (hblock : block ≤ block')
    {interest interest' : Perbill}
    (hinterest : getIdealInterest T block points = .ok interest)
    (hinterest' : getIdealInterest T block' points = .ok interest') :
    d.Along interest interest' := by
  obtain ⟨below, above, hsplit⟩ := exists_split hsorted block
  obtain ⟨below', above', hsplit'⟩ := exists_split hsorted block'
  rw [hsplit.getIdealInterest hne] at hinterest
  rw [hsplit'.getIdealInterest hne] at hinterest'
  cases hinterest
  cases hinterest'
  have halong := interestBetween_along (T := T) block (hsplit.eq_append ▸ h)
  have halong' := interestBetween_along (T := T) block' (hsplit'.eq_append ▸ h)
  by_cases hbetween : ∃ p ∈ points, block ≤ p.block ∧ p.block < block'
  · obtain ⟨p, hp, hge, hlt⟩ := hbetween
    have habove : p ∈ above := by
      rw [hsplit.eq_append] at hp
      cases List.mem_append.mp hp with
      | inl hbelow => exact absurd (hsplit.below_lt p hbelow) (Nat.not_lt_of_le hge)
      | inr habove => exact habove
    have hbelow : p ∈ below' := by
      rw [hsplit'.eq_append] at hp
      cases List.mem_append.mp hp with
      | inl hbelow => exact hbelow
      | inr habove => exact absurd hlt (Nat.not_lt_of_le (hsplit'.le_above p habove))
    exact (halong.2 p habove).trans (halong'.1 p hbelow)
  · have hnone : ∀ p ∈ points, p.block < block' → p.block < block := by
      intro p hp hlt
      by_contra hge
      exact hbetween ⟨p, hp, Nat.le_of_not_lt hge, hlt⟩
    obtain ⟨rfl, rfl⟩ := hsplit.congr hsplit' hnone hblock
    exact interestBetween_mono (hsplit.eq_append ▸ h) hera hblock

end Direction

/-! ## Every stored curve -/

theorem sortPoints_sorted (points : List IdealInterestPoint) :
    (sortPoints points).Pairwise fun p q => p.block ≤ q.block := by
  have htotal : Std.Total fun a b : IdealInterestPoint => a.block ≤ b.block :=
    ⟨fun a b => Nat.le_total a.block b.block⟩
  have htrans : IsTrans IdealInterestPoint fun a b => a.block ≤ b.block :=
    ⟨fun _ _ _ => Nat.le_trans⟩
  exact List.pairwise_insertionSort _ points

/-- After any run in which the interest points given last are not the empty list, the ideal
interest of every block lies between the interests of the points around it, or is that of
the first or the last point. If the stored interests only fall in block order, then from
the end of the first era on the ideal interest only falls, and the same for rising. -/
theorem idealInterest_follows (T : Config A σ) (config : GenesisConfig) (ledger : σ)
    (actions : List (Action A σ)) (hne : lastPoints T config actions ≠ []) :
    let points := (run T config ledger actions).interestPoints
    (∀ block, ∃ interest, getIdealInterest T block points = .ok interest ∧
      Bracketed points block interest) ∧
    (points.Pairwise (fun p q => q.interest ≤ p.interest) →
      ∀ block block', T.eraDuration ≤ block → block ≤ block' →
      ∀ interest interest', getIdealInterest T block points = .ok interest →
        getIdealInterest T block' points = .ok interest' → interest' ≤ interest) ∧
    (points.Pairwise (fun p q => p.interest ≤ q.interest) →
      ∀ block block', T.eraDuration ≤ block → block ≤ block' →
      ∀ interest interest', getIdealInterest T block points = .ok interest →
        getIdealInterest T block' points = .ok interest' → interest ≤ interest') := by
  intro points
  have hpoints : points = sortPoints (lastPoints T config actions) :=
    run_interestPoints T config ledger actions
  have hsorted : points.Pairwise fun p q => p.block ≤ q.block := hpoints ▸ sortPoints_sorted _
  have hne' : points ≠ [] := hpoints ▸ sortPoints_ne_nil.mpr hne
  refine ⟨?_, ?_, ?_⟩
  · intro block
    obtain ⟨below, above, hsplit⟩ := exists_split hsorted block
    exact ⟨_, hsplit.getIdealInterest hne', hsplit.bracketed hne'⟩
  · intro hfalling block block' hera hblock interest interest' h h'
    exact Direction.idealInterest_along (d := .falling) hne' hsorted hfalling hera hblock h h'
  · intro hrising block block' hera hblock interest interest' h h'
    exact Direction.idealInterest_along (d := .rising) hne' hsorted hrising hera hblock h h'

/-- The points of a curve with a slope to the block 100 and a lower slope after it. -/
def firstPoint : IdealInterestPoint := { block := 0, interest := .one }

def kneePoint : IdealInterestPoint := { block := 100, interest := Perbill.fromRational 20 100 }

def lastPoint : IdealInterestPoint := { block := 200, interest := Perbill.fromRational 15 100 }

/-- A genesis configuration with the points in another order. -/
def slopesGenesis : GenesisConfig :=
  { mockGenesis with interestPoints := [lastPoint, firstPoint, kneePoint] }

theorem idealInterest_follows_slopes :
    ∃ interest interest',
      getIdealInterest (mockRuntime 1) 60
        (run (mockRuntime 1) slopesGenesis (mockLedger 300) []).interestPoints = .ok interest ∧
      getIdealInterest (mockRuntime 1) 150
        (run (mockRuntime 1) slopesGenesis (mockLedger 300) []).interestPoints = .ok interest' ∧
      interest' ≤ interest :=
  ⟨_, _, rfl, rfl,
    (idealInterest_follows (mockRuntime 1) slopesGenesis (mockLedger 300) [] (by decide)).2.1
      (by decide) 60 150 (by decide) (by decide) _ _ rfl rfl⟩

/-! ## Linear interpolation -/

/-- The straight line through two points of the curve, in billionths. -/
def interpolate (start stop : IdealInterestPoint) (x : Nat) : ℚ :=
  start.interest.parts + ((stop.interest.parts : ℚ) - start.interest.parts) *
    ((x : ℚ) - start.block) / ((stop.block : ℚ) - start.block)

/-- The ideal interest of a block is the linear interpolation of the segment at the block it
is read at, clamped to the segment, up to two billionths. -/
def Interpolates (T : Config A σ) (points : List IdealInterestPoint)
    (start stop : IdealInterestPoint) (block : Nat) : Prop :=
  ∃ interest, getIdealInterest T block points = .ok interest ∧
    |(interest.parts : ℚ) -
      interpolate start stop (max start.block (min stop.block (calcBlock T block)))| ≤ 2

/-- The blocks the ratio counts for a segment, for the block it is read at. -/
def countedBlocks (start stop : IdealInterestPoint) (x : Nat) : Nat :=
  min x (stop.block - start.block)

/-- Those among them that are not blocks of the segment up to the one it is read at. -/
def foreignBlocks (start stop : IdealInterestPoint) (x : Nat) : Nat :=
  countedBlocks start stop x - (x - start.block)

/-- A segment from the genesis on has no blocks before it to count. -/
theorem foreignBlocks_of_first (hfirst : start.block = 0) (x : Nat) :
    foreignBlocks start stop x = 0 := by
  unfold foreignBlocks countedBlocks
  omega

/-- The difference of a segment's two ends, in billionths. -/
def interestGap (start stop : IdealInterestPoint) : Nat :=
  max start.interest.parts stop.interest.parts - min start.interest.parts stop.interest.parts

/-- The first ratio, in billionths, that takes the change of a segment three billionths above the
line after `w` of `n` blocks, rounded down. -/
def excessRatio (gap w n : Nat) : Nat :=
  (gap * w / n + 3) * 1000000000 ⌈/⌉ gap

/-- An integer is within two of a fraction when it is, scaled by the denominator. -/
theorem abs_sub_div_le_two {n : Nat} (hn : 0 < n) (a b : Nat) :
    |(a : ℚ) - b / n| ≤ 2 ↔ n * a ≤ b + 2 * n ∧ b ≤ n * a + 2 * n := by
  have hn' : (0 : ℚ) < n := by exact_mod_cast hn
  have hfraction : (a : ℚ) - b / n = (n * a - b) / n := by
    field_simp
  rw [hfraction, abs_div, abs_of_pos hn', div_le_iff₀ hn', abs_le]
  constructor
  · intro h
    have hle : (n : ℚ) * a ≤ b + 2 * n := by linarith [h.2]
    have hge : (b : ℚ) ≤ n * a + 2 * n := by linarith [h.1]
    exact ⟨by exact_mod_cast hle, by exact_mod_cast hge⟩
  · intro h
    have hle : (n : ℚ) * a ≤ b + 2 * n := by exact_mod_cast h.1
    have hge : (b : ℚ) ≤ n * a + 2 * n := by exact_mod_cast h.2
    constructor <;> linarith

/-- The line at a block of the segment, from its start in the direction of its end. -/
theorem interpolate_eq {n : Nat} (hn : stop.block = start.block + n) (w : Nat) :
    interpolate start stop (start.block + w) =
      if stop.interest.parts < start.interest.parts then
        start.interest.parts - ((interestGap start stop * w : Nat) : ℚ) / n
      else start.interest.parts + ((interestGap start stop * w : Nat) : ℚ) / n := by
  unfold interpolate interestGap
  rw [hn]
  split
  · next h =>
    rw [Nat.max_eq_left h.le, Nat.min_eq_right h.le]
    push_cast [h.le]
    ring
  · next h =>
    have hle : start.interest.parts ≤ stop.interest.parts := Nat.le_of_not_lt h
    rw [Nat.max_eq_right hle, Nat.min_eq_left hle]
    push_cast [hle]
    ring

/-- The blocks that are counted are those of the segment up to `x`, and the foreign ones. -/
theorem gap_mul_counted {x : Nat} (hblocks : start.block < stop.block) (hx : x ≤ stop.block)
    (gap : Nat) :
    gap * min x (stop.block - start.block) =
      gap * foreignBlocks start stop x + gap * (x - start.block) := by
  have hcounted : min x (stop.block - start.block) =
      foreignBlocks start stop x + (x - start.block) := by
    unfold foreignBlocks countedBlocks
    omega
  rw [hcounted, Nat.mul_add]

/-- The change over the foreign blocks, less what the two roundings take off, is what the
interest read at `x` is off the straight line. -/
theorem interestChange_bounds (hblocks : start.block < stop.block) {x : Nat}
    (hx : x ≤ stop.block) :
    let n := stop.block - start.block
    let gap := interestGap start stop
    n * (interestChange start stop x).parts ≤
        gap * foreignBlocks start stop x + gap * (x - start.block) ∧
      gap * foreignBlocks start stop x + gap * (x - start.block) <
        n * (interestChange start stop x).parts + 2 * n := by
  have hpos : 0 < stop.block - start.block := by omega
  have hgap : (interestDiff start stop).parts = interestGap start stop :=
    interestDiff_parts start stop
  have hbounds := Perbill.fromRational_mul_bounds hpos x (interestDiff start stop)
  rw [hgap, gap_mul_counted hblocks hx] at hbounds
  exact hbounds

/-- Since the rounding is downwards and by less than two billionths, only a change that is too
large is off the line. -/
theorem segmentInterest_near_iff (hblocks : start.block < stop.block) {x : Nat}
    (hx : x ≤ stop.block) :
    |((segmentInterest start stop x).parts : ℚ) -
        interpolate start stop (max start.block (min stop.block x))| ≤ 2 ↔
      (stop.block - start.block) * (interestChange start stop x).parts ≤
        interestGap start stop * (x - start.block) + 2 * (stop.block - start.block) := by
  have hbounds := interestChange_bounds hblocks hx
  obtain ⟨n, hn⟩ : ∃ n, stop.block = start.block + n := ⟨_, (Nat.add_sub_of_le hblocks.le).symm⟩
  have hpos : 0 < n := by omega
  have hsub : stop.block - start.block = n := by omega
  have hclamp : max start.block (min stop.block x) = start.block + (x - start.block) := by omega
  have hle := interestChange_le start stop x
  rw [interestDiff_parts] at hle
  -- both directions are off by the same amount
  have hoff : |((segmentInterest start stop x).parts : ℚ) -
        interpolate start stop (start.block + (x - start.block))| =
      |((interestChange start stop x).parts : ℚ) -
        ((interestGap start stop * (x - start.block) : Nat) : ℚ) / n| := by
    rw [interpolate_eq hn, segmentInterest_parts]
    split
    · next h =>
      have hstart : (interestChange start stop x).parts ≤ start.interest.parts := by omega
      rw [Nat.cast_sub hstart, ← abs_neg]
      congr 1
      ring
    · rw [Nat.cast_add]
      congr 1
      ring
  rw [hclamp, hoff, abs_sub_div_le_two hpos]
  dsimp only at hbounds
  rw [hsub] at hbounds ⊢
  omega

/-- A segment is interpolated wherever the change over its foreign blocks is at most two
billionths of it. -/
theorem segmentInterest_near (hblocks : start.block < stop.block) {x : Nat} (hx : x ≤ stop.block)
    (hforeign : interestGap start stop * foreignBlocks start stop x ≤
      2 * (stop.block - start.block)) :
    |((segmentInterest start stop x).parts : ℚ) -
      interpolate start stop (max start.block (min stop.block x))| ≤ 2 := by
  have hbounds := (interestChange_bounds hblocks hx).1
  rw [segmentInterest_near_iff hblocks hx]
  omega

/-- The segment from the genesis on is interpolated. -/
theorem segmentInterest_near_of_first (hfirst : start.block = 0)
    (hblocks : start.block < stop.block) {x : Nat} (hx : x ≤ stop.block) :
    |((segmentInterest start stop x).parts : ℚ) -
      interpolate start stop (max start.block (min stop.block x))| ≤ 2 := by
  apply segmentInterest_near hblocks hx
  rw [foreignBlocks_of_first hfirst, Nat.mul_zero]
  exact Nat.zero_le _

/-- A later one is off the line wherever the change over its foreign blocks is four billionths
or more, since less than two are rounded off. -/
theorem segmentInterest_off (hblocks : start.block < stop.block) {x : Nat} (hx : x ≤ stop.block)
    (hforeign : 4 * (stop.block - start.block) ≤
      interestGap start stop * foreignBlocks start stop x) :
    ¬ |((segmentInterest start stop x).parts : ℚ) -
      interpolate start stop (max start.block (min stop.block x))| ≤ 2 := by
  have hbounds := (interestChange_bounds hblocks hx).2
  have hpos : 0 < stop.block - start.block := by omega
  rw [segmentInterest_near_iff hblocks hx]
  omega

/-- Between the two it depends on how the ratio of the counted blocks is rounded. -/
theorem segmentInterest_near_iff_ratio (hblocks : start.block < stop.block) {x : Nat}
    (hx : x ≤ stop.block) (hgap : 0 < interestGap start stop) :
    |((segmentInterest start stop x).parts : ℚ) -
        interpolate start stop (max start.block (min stop.block x))| ≤ 2 ↔
      countedBlocks start stop x * 1000000000 <
        excessRatio (interestGap start stop) (x - start.block) (stop.block - start.block) *
          (stop.block - start.block) := by
  have hpos : 0 < stop.block - start.block := by omega
  have hparts : (interestDiff start stop).parts = interestGap start stop :=
    interestDiff_parts start stop
  -- the change is an integer, so that the line may be rounded down
  have hinteger : (stop.block - start.block) * (interestChange start stop x).parts ≤
        interestGap start stop * (x - start.block) + 2 * (stop.block - start.block) ↔
      (interestChange start stop x).parts <
        interestGap start stop * (x - start.block) / (stop.block - start.block) + 3 := by
    rw [Nat.mul_comm, ← Nat.le_div_iff_mul_le hpos, Nat.add_mul_div_right _ _ hpos]
    omega
  rw [segmentInterest_near_iff hblocks hx, hinteger]
  unfold interestChange
  rw [Perbill.fromRational_mul_lt_iff hpos (hparts.symm ▸ hgap), hparts]
  rfl

/-- A block within a segment of strictly sorted points is read on that segment. -/
theorem getIdealInterest_segment {init rest : List IdealInterestPoint} {block : Nat}
    (hsorted : (init ++ start :: stop :: rest).Pairwise fun p q => p.block < q.block)
    (hstart : start.block < block) (hstop : block ≤ stop.block) :
    getIdealInterest T block (init ++ start :: stop :: rest) =
      .ok (segmentInterest start stop (calcBlock T block)) := by
  obtain ⟨-, hafter, hcross⟩ := List.pairwise_append.mp hsorted
  have hrest := (List.pairwise_cons.mp (List.pairwise_cons.mp hafter).2).1
  have hsplit : Split (init ++ start :: stop :: rest) block (init ++ [start]) (stop :: rest) := by
    refine ⟨by simp, ?_, ?_⟩
    · intro p hp
      cases List.mem_append.mp hp with
      | inl hinit => exact (hcross p hinit start (by simp)).trans hstart
      | inr hlast => exact List.mem_singleton.mp hlast ▸ hstart
    · intro p hp
      cases List.mem_cons.mp hp with
      | inl hfirst => exact hfirst ▸ hstop
      | inr hp => exact hstop.trans (hrest p hp).le
  rw [hsplit.getIdealInterest (by simp), List.getLast?_concat]
  rfl

/-- On every segment of strictly sorted points, the ideal interest is the linear interpolation up
to two billionths exactly when the segment starts at the genesis, or the change over the blocks
that the ratio counts and that are not blocks of the segment is at most two billionths of it, or
it is less than four and the ratio is rounded down to one that is not in excess. -/
theorem idealInterest_linear_iff (T : Config A σ) (init rest : List IdealInterestPoint)
    (start stop : IdealInterestPoint) (block : Nat)
    (hsorted : (init ++ start :: stop :: rest).Pairwise fun p q => p.block < q.block)
    (hstart : start.block < block) (hstop : block ≤ stop.block) :
    let x := calcBlock T block
    let n := stop.block - start.block
    let gap := interestGap start stop
    let foreign := foreignBlocks start stop x
    Interpolates T (init ++ start :: stop :: rest) start stop block ↔
      start.block = 0 ∨ gap * foreign ≤ 2 * n ∨
        gap * foreign < 4 * n ∧
          countedBlocks start stop x * 1000000000 < excessRatio gap (x - start.block) n * n := by
  intro x n gap foreign
  have hblocks : start.block < stop.block := hstart.trans_le hstop
  have hx : x ≤ stop.block := (calcBlock_le T block).trans hstop
  have hread : Interpolates T (init ++ start :: stop :: rest) start stop block ↔
      |((segmentInterest start stop x).parts : ℚ) -
        interpolate start stop (max start.block (min stop.block x))| ≤ 2 := by
    rw [Interpolates, getIdealInterest_segment hsorted hstart hstop]
    simp [x]
  rw [hread]
  constructor
  · intro hnear
    by_cases hfew : gap * foreign ≤ 2 * n
    · exact Or.inr (Or.inl hfew)
    · have hgap : 0 < interestGap start stop :=
        Nat.pos_of_ne_zero fun hzero => hfew (by simp [gap, hzero])
      refine Or.inr (Or.inr ⟨?_, (segmentInterest_near_iff_ratio hblocks hx hgap).mp hnear⟩)
      by_contra hmany
      exact segmentInterest_off hblocks hx (Nat.le_of_not_lt hmany) hnear
  · rintro (hfirst | hfew | ⟨_, hratio⟩)
    · exact segmentInterest_near_of_first hfirst hblocks hx
    · exact segmentInterest_near hblocks hx hfew
    · by_cases hgap : interestGap start stop = 0
      · apply segmentInterest_near hblocks hx
        rw [hgap, Nat.zero_mul]
        exact Nat.zero_le _
      · exact (segmentInterest_near_iff_ratio hblocks hx (Nat.pos_of_ne_zero hgap)).mpr hratio

/-- The slope of the example curve that starts at the genesis is interpolated. -/
theorem idealInterest_linear_firstSlope :
    Interpolates (mockRuntime 1) [firstPoint, kneePoint, lastPoint] firstPoint kneePoint 60 :=
  (idealInterest_linear_iff (mockRuntime 1) [] [lastPoint] firstPoint kneePoint 60 (by decide)
    (by decide) (by decide)).mpr (Or.inl rfl)

/-- In the middle of the slope after it, the interest is already that of the end. -/
theorem idealInterest_not_linear :
    ¬ Interpolates (mockRuntime 1) [firstPoint, kneePoint, lastPoint] kneePoint lastPoint 150 := by
  rintro ⟨interest, hinterest, hnear⟩
  have hparts : interest.parts = 150000000 := by
    have hread : getIdealInterest (mockRuntime 1) 150 [firstPoint, kneePoint, lastPoint] =
        .ok ⟨150000000, by decide⟩ := rfl
    rw [hread] at hinterest
    injection hinterest with hinterest
    rw [← hinterest]
  have hblock : max kneePoint.block (min lastPoint.block (calcBlock (mockRuntime 1) 150)) = 145 :=
    rfl
  have hline : interpolate kneePoint lastPoint 145 = 177500000 := by
    norm_num [interpolate, kneePoint, lastPoint, Perbill.fromRational]
  rw [hparts, hblock, hline] at hnear
  norm_num at hnear

end XXChain.Economics
