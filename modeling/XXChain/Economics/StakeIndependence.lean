import XXChain.Economics.EraPayout

/-!
# XXChain — what is staked does not change what an era pays in all

The era payout is the part that goes to the validators and the rest up to a cap; the cap is
the portion of the year of the largest inflation of what can be staked.

* **`eraPayout_total`** — where there is a payout at all, the two parts add up to the cap, or to
  the validators' part where that is larger, and it is not when the least inflation is at most
  the largest one. What is staked and the falloff only move the boundary between the two parts.
-/

namespace XXChain.Economics

variable {A σ : Type} {T : Config A σ} {s : State σ}

/-- The part of a year that an era is. -/
def portion (millis : Nat) : Perbill :=
  Perbill.fromRational millis millisecondsPerYear

/-- The largest inflation: that of an ideal stake. -/
def maxInflation (interest : Perbill) (params : InflationFixedParams) : Perbill :=
  interest * params.idealStake

/-- What an era pays at most, of what can be staked. -/
def payoutCap (millis : Nat) (interest : Perbill) (params : InflationFixedParams)
    (totalStakeable : Nat) : Nat :=
  (portion millis).of ((maxInflation interest params).of totalStakeable)

/-- The inflation at a stake, for any ratio the staking library may compute. -/
def inflationAt (ratio interest : Perbill) (params : InflationFixedParams) : Perbill :=
  params.minInflation.saturatingAdd
    (ratio * (maxInflation interest params).saturatingSub params.minInflation)

def validatorPayout (millis : Nat) (ratio interest : Perbill) (params : InflationFixedParams)
    (totalStakeable : Nat) : Nat :=
  (portion millis).of ((inflationAt ratio interest params).of totalStakeable)

/-- Whatever ratio is computed, the validators get at most the cap: each of the roundings on
the way is monotone. -/
theorem validatorPayout_le {params : InflationFixedParams} {interest : Perbill}
    (hmin : params.minInflation ≤ maxInflation interest params)
    (millis : Nat) (ratio : Perbill) (totalStakeable : Nat) :
    validatorPayout millis ratio interest params totalStakeable ≤
      payoutCap millis interest params totalStakeable := by
  have hinflation : inflationAt ratio interest params ≤ maxInflation interest params :=
    Perbill.saturatingAdd_mul_saturatingSub_le ratio hmin
  have hyear : (inflationAt ratio interest params).of totalStakeable ≤
      (maxInflation interest params).of totalStakeable :=
    Perbill.of_mono_ratio hinflation totalStakeable
  exact Perbill.of_mono (portion millis) hyear

/-- The era payout, once the interest and what can be staked are known. -/
theorem eraPayout_eq {interest : Perbill} {totalIssuance totalStakeable : Nat}
    (hinterest : getIdealInterest T s.block s.interestPoints = .ok interest)
    (hstakeable : computeTotalStakeable T totalIssuance s = .ok totalStakeable)
    (totalStaked millis : Nat) :
    ∃ ratio, eraPayout T totalStaked totalIssuance millis s =
      .ok (updateLiquidityRewards (portion millis) interest s,
        validatorPayout millis ratio interest s.inflationParams totalStakeable,
        payoutCap millis interest s.inflationParams totalStakeable -
          validatorPayout millis ratio interest s.inflationParams totalStakeable) := by
  unfold eraPayout
  rw [hinterest, hstakeable]
  exact ⟨_, rfl⟩

/-- The state with another falloff. -/
def State.withFalloff (s : State σ) (falloff : Perbill) : State σ :=
  { s with inflationParams := { s.inflationParams with falloff } }

/-- The stake and the falloff have no say in whether the payout returns. -/
theorem eraPayout_error {e : Panic} {totalIssuance : Nat}
    (h : getIdealInterest T s.block s.interestPoints = .error e ∨
      (∃ interest, getIdealInterest T s.block s.interestPoints = .ok interest) ∧
        computeTotalStakeable T totalIssuance s = .error e)
    (totalStaked millis : Nat) (falloff : Perbill) :
    eraPayout T totalStaked totalIssuance millis (s.withFalloff falloff) = .error e := by
  have hstakeable : computeTotalStakeable T totalIssuance (s.withFalloff falloff) =
      computeTotalStakeable T totalIssuance s := rfl
  show (getIdealInterest T s.block s.interestPoints >>= _) = _
  cases h with
  | inl h => rw [h]; rfl
  | inr h =>
    obtain ⟨⟨interest, hinterest⟩, h⟩ := h
    rw [hinterest]
    show (computeTotalStakeable T totalIssuance (s.withFalloff falloff) >>= _) = _
    rw [hstakeable, h]
    rfl

/-- Without a point to read, or where the balances that cannot be staked do not add up, it is
one panic for all of them. -/
theorem eraPayout_panics_alike {totalIssuance : Nat}
    (h : s.interestPoints = [] ∨ balanceLimit ≤ unstakeable T s) (millis : Nat) :
    ∃ e, ∀ totalStaked falloff,
      eraPayout T totalStaked totalIssuance millis (s.withFalloff falloff) = .error e := by
  cases hinterest : getIdealInterest T s.block s.interestPoints with
  | error e => exact ⟨e, fun _ _ => eraPayout_error (.inl hinterest) _ _ _⟩
  | ok interest =>
    have hpoints : s.interestPoints ≠ [] := getIdealInterest_returns_iff.mp ⟨_, hinterest⟩
    have hover := h.resolve_left hpoints
    have hstakeable : computeTotalStakeable T totalIssuance s = .error .addOverflow := by
      rw [computeTotalStakeable_eq, if_neg (Nat.not_lt_of_le hover)]
    exact ⟨_, fun _ _ => eraPayout_error (.inr ⟨⟨_, hinterest⟩, hstakeable⟩) _ _ _⟩

/-- What an era pays for every stake and every falloff, once the interest and what can be staked
are known. -/
theorem eraPayout_parts {interest : Perbill} {totalIssuance totalStakeable : Nat}
    (hinterest : getIdealInterest T s.block s.interestPoints = .ok interest)
    (hstakeable : computeTotalStakeable T totalIssuance s = .ok totalStakeable)
    (totalStaked millis : Nat) (falloff : Perbill) :
    ∃ validators rest,
      eraPayout T totalStaked totalIssuance millis (s.withFalloff falloff) =
        .ok ((updateLiquidityRewards (portion millis) interest s).withFalloff falloff,
          validators, rest) ∧
      validators + rest = max validators
        (payoutCap millis interest s.inflationParams totalStakeable) ∧
      (s.inflationParams.minInflation ≤ maxInflation interest s.inflationParams →
        validators ≤ payoutCap millis interest s.inflationParams totalStakeable ∧
        validators + rest = payoutCap millis interest s.inflationParams totalStakeable) := by
  obtain ⟨ratio, hpayout⟩ := eraPayout_eq (s := s.withFalloff falloff) hinterest hstakeable
    totalStaked millis
  refine ⟨_, _, hpayout, ?_, ?_⟩
  · show _ + (payoutCap millis interest s.inflationParams totalStakeable - _) =
      max _ (payoutCap millis interest s.inflationParams totalStakeable)
    omega
  · intro hmin
    -- the parameters but the falloff are those of `s`
    have hle : validatorPayout millis ratio interest (s.withFalloff falloff).inflationParams
        totalStakeable ≤ payoutCap millis interest s.inflationParams totalStakeable :=
      validatorPayout_le hmin millis ratio totalStakeable
    exact ⟨hle, Nat.add_sub_of_le hle⟩

/-- In any state with a point to read and in which the balances that cannot be staked add up, an
era pays in all the larger of the cap and the validators' part. When the least inflation is at
most the largest one that is the cap, for every stake and every falloff, and the liquidity
rewards are updated the same for all of them. In any other state the payout panics, and does so
whatever is staked. -/
theorem eraPayout_total (T : Config A σ) (s : State σ) (totalIssuance millis : Nat) :
    (s.interestPoints ≠ [] ∧ unstakeable T s < balanceLimit →
      ∃ interest, getIdealInterest T s.block s.interestPoints = .ok interest ∧
        computeTotalStakeable T totalIssuance s = .ok (totalIssuance - unstakeable T s) ∧
        ∀ totalStaked falloff, ∃ validators rest,
          let largest := interest * s.inflationParams.idealStake
          let cap := (portion millis).of (largest.of (totalIssuance - unstakeable T s))
          eraPayout T totalStaked totalIssuance millis (s.withFalloff falloff) =
            .ok ((updateLiquidityRewards (portion millis) interest s).withFalloff falloff,
              validators, rest) ∧
          validators + rest = max validators cap ∧
          (s.inflationParams.minInflation ≤ largest →
            validators ≤ cap ∧ validators + rest = cap)) ∧
    (s.interestPoints = [] ∨ balanceLimit ≤ unstakeable T s →
      ∃ e, ∀ totalStaked falloff,
        eraPayout T totalStaked totalIssuance millis (s.withFalloff falloff) = .error e) := by
  refine ⟨?_, fun h => eraPayout_panics_alike h millis⟩
  rintro ⟨hpoints, hsum⟩
  obtain ⟨interest, hinterest⟩ : ∃ interest, getIdealInterest T s.block s.interestPoints =
      .ok interest := getIdealInterest_returns_iff.mpr hpoints
  have hstakeable : computeTotalStakeable T totalIssuance s =
      .ok (totalIssuance - unstakeable T s) := by
    rw [computeTotalStakeable_eq, if_pos hsum]
  exact ⟨interest, hinterest, hstakeable, fun totalStaked falloff =>
    eraPayout_parts hinterest hstakeable totalStaked millis falloff⟩

/-- In the runtime of the tests an era of a day pays the same of 1300 coins, whatever is staked
of them. -/
theorem eraPayout_total_mock :
    ∃ interest, getIdealInterest (mockRuntime 1) 0 mockGenesis.interestPoints = .ok interest ∧
      ∀ totalStaked falloff, ∃ s' validators rest,
        eraPayout (mockRuntime 1) totalStaked 1300000000 86400000
          ((genesisBuild mockGenesis (mockLedger 300)).withFalloff falloff) =
            .ok (s', validators, rest) ∧
        validators + rest = (portion 86400000).of
          ((interest * mockGenesis.inflationParams.idealStake).of (1300000000 - 1300)) := by
  obtain ⟨interest, hinterest, _, hpays⟩ := (eraPayout_total (mockRuntime 1)
    (genesisBuild mockGenesis (mockLedger 300)) 1300000000 86400000).1 ⟨by decide, by decide⟩
  refine ⟨interest, hinterest, ?_⟩
  intro totalStaked falloff
  obtain ⟨validators, rest, hpayout, _, hcap⟩ := hpays totalStaked falloff
  have hread : interest = Perbill.fromRational 1 6 := (Except.ok.inj hinterest).symm
  exact ⟨_, validators, rest, hpayout, (hcap (by rw [hread]; decide)).2⟩

end XXChain.Economics
