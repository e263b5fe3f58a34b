import Mathlib.Algebra.Order.Floor.Div
import Mathlib.Order.Basic
import Mathlib.Tactic.Linarith

/-!
# XXChain — parts per billion

The fixed-point ratios of the runtime: a `Perbill` is a number of billionths between zero
and one. Building one from a rational rounds down and clamps at one, multiplying two
rounds down, and multiplying an integer rounds to the nearest integer, ties down.
-/

namespace XXChain

/-- A ratio in `[0, 1]`, kept as its number of billionths. -/
structure Perbill where
  parts : Nat
  le_accuracy : parts ≤ 1000000000
  deriving DecidableEq, Repr

namespace Perbill

@[ext]
theorem ext {p q : Perbill} (h : p.parts = q.parts) : p = q := by
  cases p
  cases q
  simpa using h

def zero : Perbill := ⟨0, by decide⟩

def one : Perbill := ⟨1000000000, le_rfl⟩

instance : Inhabited Perbill := ⟨zero⟩

instance : LE Perbill := ⟨fun p q => p.parts ≤ q.parts⟩

instance : LT Perbill := ⟨fun p q => p.parts < q.parts⟩

instance (p q : Perbill) : Decidable (p ≤ q) := inferInstanceAs (Decidable (p.parts ≤ q.parts))

instance (p q : Perbill) : Decidable (p < q) := inferInstanceAs (Decidable (p.parts < q.parts))

def isZero (p : Perbill) : Bool := p.parts == 0

/-- `p / q` rounded down, and one when `p` is at least `q` or `q` is zero. -/
def fromRational (p q : Nat) : Perbill :=
  if h : p < q then
    ⟨p * 1000000000 / q,
      Nat.div_le_of_le_mul (by rw [Nat.mul_comm q]; nlinarith)⟩
  else one

def saturatingAdd (p q : Perbill) : Perbill :=
  ⟨min 1000000000 (p.parts + q.parts), Nat.min_le_left _ _⟩

def saturatingSub (p q : Perbill) : Perbill :=
  ⟨p.parts - q.parts, (Nat.sub_le _ _).trans p.le_accuracy⟩

/-- The product of two ratios, rounded down. -/
def mul (p q : Perbill) : Perbill :=
  ⟨p.parts * q.parts / 1000000000,
    Nat.div_le_of_le_mul (Nat.mul_le_mul p.le_accuracy q.le_accuracy)⟩

instance : Mul Perbill := ⟨mul⟩

/-- The part `p` of the integer `n` (the product `p * n`), rounded to the nearest integer,
ties down. -/
def of (p : Perbill) (n : Nat) : Nat :=
  let product := p.parts * n
  if 1000000000 < 2 * (product % 1000000000) then product / 1000000000 + 1
  else product / 1000000000

/-- Rounding to the nearest integer is off by at most half of one. -/
theorem of_bounds (p : Perbill) (n : Nat) :
    2 * (p.parts * n) ≤ 2 * 1000000000 * p.of n + 1000000000 ∧
      2 * 1000000000 * p.of n ≤ 2 * (p.parts * n) + 1000000000 := by
  unfold of
  generalize p.parts * n = product
  dsimp only
  split <;> omega

/-- A ratio of `n` never rounds above `n`. -/
theorem of_le (p : Perbill) (n : Nat) : p.of n ≤ n := by
  have hbound := (of_bounds p n).2
  have hparts : p.parts * n ≤ 1000000000 * n := Nat.mul_le_mul_right n p.le_accuracy
  omega

/-- Rounding to the nearest integer, ties down, is adding a little less than a half. -/
theorem of_eq (p : Perbill) (n : Nat) : p.of n = (p.parts * n + 499999999) / 1000000000 := by
  unfold of
  generalize p.parts * n = product
  dsimp only
  split <;> omega

theorem of_mono (p : Perbill) {m n : Nat} (h : m ≤ n) : p.of m ≤ p.of n := by
  have hproduct : p.parts * m ≤ p.parts * n := Nat.mul_le_mul_left _ h
  rw [of_eq, of_eq]
  omega

/-- A larger ratio takes a larger part. -/
theorem of_mono_ratio {p q : Perbill} (h : p ≤ q) (n : Nat) : p.of n ≤ q.of n := by
  have hproduct : p.parts * n ≤ q.parts * n := Nat.mul_le_mul_right n h
  rw [of_eq, of_eq]
  omega

theorem mul_parts (p q : Perbill) : (p * q).parts = p.parts * q.parts / 1000000000 := rfl

theorem mul_le_right (p q : Perbill) : p * q ≤ q := by
  show p.parts * q.parts / 1000000000 ≤ q.parts
  exact Nat.div_le_of_le_mul (Nat.mul_le_mul_right q.parts p.le_accuracy)

theorem mul_mono_left {p q : Perbill} (h : p ≤ q) (r : Perbill) : p * r ≤ q * r :=
  Nat.div_le_div_right (Nat.mul_le_mul_right r.parts h)

/-- Clamped at one, a rational with a denominator is a quotient. -/
theorem fromRational_parts {n : Nat} (hn : 0 < n) (m : Nat) :
    (fromRational m n).parts = min m n * 1000000000 / n := by
  unfold fromRational
  split
  · next h => rw [Nat.min_eq_left (Nat.le_of_lt h)]
  · next h =>
    rw [Nat.min_eq_right (by omega), Nat.mul_div_cancel_left _ hn]
    rfl

theorem fromRational_mono {m m' : Nat} (h : m ≤ m') (n : Nat) :
    fromRational m n ≤ fromRational m' n := by
  cases n with
  | zero =>
    have hone : ∀ k, fromRational k 0 = one := fun k => dif_neg (Nat.not_lt_zero k)
    rw [hone, hone]
    exact Nat.le_refl _
  | succ n =>
    have hmin : min m (n + 1) ≤ min m' (n + 1) := by omega
    show (fromRational m (n + 1)).parts ≤ (fromRational m' (n + 1)).parts
    rw [fromRational_parts n.succ_pos, fromRational_parts n.succ_pos]
    exact Nat.div_le_div_right (Nat.mul_le_mul_right _ hmin)

/-- Taking `m` of `n` steps along `r` loses less than two parts: one when the quotient is
rounded, one when it is multiplied. -/
theorem fromRational_mul_bounds {n : Nat} (hn : 0 < n) (m : Nat) (r : Perbill) :
    n * (fromRational m n * r).parts ≤ r.parts * min m n ∧
      r.parts * min m n < n * (fromRational m n * r).parts + 2 * n := by
  rw [mul_parts, fromRational_parts hn]
  generalize min m n = k
  have hquotient := Nat.div_add_mod (k * 1000000000) n
  have hrest := Nat.mod_lt (k * 1000000000) hn
  generalize k * 1000000000 / n = q at hquotient ⊢
  generalize k * 1000000000 % n = u at hquotient hrest
  have hproduct := Nat.div_add_mod (q * r.parts) 1000000000
  have hrest' := Nat.mod_lt (q * r.parts) (show 0 < 1000000000 by decide)
  generalize q * r.parts / 1000000000 = w at hproduct ⊢
  generalize q * r.parts % 1000000000 = v at hproduct hrest'
  -- `k * r` billionths of `n` are `n * w`, and what the two divisions leave over
  have hsum : 1000000000 * (r.parts * k) = 1000000000 * (n * w) + n * v + u * r.parts := by
    have hscaled : n * (q * r.parts) + u * r.parts = k * 1000000000 * r.parts := by
      rw [← hquotient, Nat.add_mul, Nat.mul_assoc]
    rw [← hproduct] at hscaled
    linarith
  have hv : n * v < n * 1000000000 := Nat.mul_lt_mul_of_pos_left hrest' hn
  have hu : u * r.parts ≤ n * 1000000000 :=
    Nat.mul_le_mul (Nat.le_of_lt hrest) r.le_accuracy
  constructor <;> omega

/-- The part of `r` stays below `m` exactly as long as the ratio is below the first one whose part
reaches it. -/
theorem fromRational_mul_lt_iff {n : Nat} (hn : 0 < n) {r : Perbill} (hr : 0 < r.parts)
    (k m : Nat) :
    (fromRational k n * r).parts < m ↔
      min k n * 1000000000 < (m * 1000000000 ⌈/⌉ r.parts) * n := by
  rw [mul_parts, fromRational_parts hn, Nat.div_lt_iff_lt_mul (by decide),
    ← Nat.div_lt_iff_lt_mul hn, ← not_le, ← not_le, ceilDiv_le_iff_le_mul hr, Nat.mul_comm r.parts]

/-- A ratio of the way from `p` up to `q` ends at most at `q`. -/
theorem saturatingAdd_mul_saturatingSub_le (ratio : Perbill) {p q : Perbill} (h : p ≤ q) :
    p.saturatingAdd (ratio * q.saturatingSub p) ≤ q := by
  have hway : (ratio * q.saturatingSub p).parts ≤ q.parts - p.parts := mul_le_right ratio _
  have hpq : p.parts ≤ q.parts := h
  show min 1000000000 (p.parts + (ratio * q.saturatingSub p).parts) ≤ q.parts
  omega

/-- All of an integer. -/
theorem one_of (n : Nat) : one.of n = n := by
  have hbounds := of_bounds one n
  have hparts : one.parts = 1000000000 := rfl
  rw [hparts] at hbounds
  omega

end Perbill

end XXChain
