import BitPark.FeeMonotone

namespace BitPark.Discount

open BitPark.TimePeriod BitPark.Tariff BitPark.DivideTime BitPark.ChargeByTime BitPark.RuleTable

/-- The periods a stay is charged by: 24 hours each, or the dates in pattern 1. -/
def chargedPeriods (offset enter exit chargePattern : ℤ) : List Period :=
  if chargePattern = 1 then divideTimeByDay1 (utcToLocal offset enter) (utcToLocal offset exit)
  else divideTimeByDay0 (utcToLocal offset enter) (utcToLocal offset exit)

section

variable (src : RuleSource) (offset enter exit mode v pos : ℤ) (d : ℚ) (bill : Bill)

theorem chargeByTime0_discount
    (h : (divideTimeByDay0 (utcToLocal offset enter) (utcToLocal offset exit)).length ≤ 30) :
    (chargeByTime0 src offset enter exit mode v pos d bill).1 =
      d * (chargeByTime0 src offset enter exit mode v pos 1 bill).1 := by
  rw [chargeByTime0, chargeByTime0]
  cases hp : divideTimeByDay0 (utcToLocal offset enter) (utcToLocal offset exit) with
  | nil => simp
  | cons first others =>
    rw [hp] at h
    dsimp only
    rw [if_neg (by omega), if_neg (by omega)]
    cases src.queryChargeRule (.localTime (utcToLocal offset enter)) pos with
    | none => exact (mul_zero d).symm
    | some rule =>
      dsimp only
      ring

theorem chargeByTime1_discount
    (h : (divideTimeByDay1 (utcToLocal offset enter) (utcToLocal offset exit)).length ≤ 30) :
    (chargeByTime1 src offset enter exit mode v pos d bill).1 =
      d * (chargeByTime1 src offset enter exit mode v pos 1 bill).1 := by
  rw [chargeByTime1, chargeByTime1]
  dsimp only
  rw [if_neg (by omega), if_neg (by omega)]
  ring

theorem chargeByTime0_too_days
    (h : 30 < (divideTimeByDay0 (utcToLocal offset enter) (utcToLocal offset exit)).length) :
    chargeByTime0 src offset enter exit mode v pos d bill = calChargeTooDays src offset enter exit
      (divideTimeByDay0 (utcToLocal offset enter) (utcToLocal offset exit)).length v pos bill := by
  rw [chargeByTime0]
  cases hp : divideTimeByDay0 (utcToLocal offset enter) (utcToLocal offset exit) with
  | nil => simp [hp] at h
  | cons first others =>
    rw [hp] at h
    dsimp only
    rw [if_pos h]

theorem chargeByTime1_too_days
    (h : 30 < (divideTimeByDay1 (utcToLocal offset enter) (utcToLocal offset exit)).length) :
    chargeByTime1 src offset enter exit mode v pos d bill = calChargeTooDays src offset enter exit
      (divideTimeByDay1 (utcToLocal offset enter) (utcToLocal offset exit)).length v pos bill := by
  rw [chargeByTime1]
  dsimp only
  rw [if_pos h]

variable (pattern : ℤ)

theorem chargeByPattern_discount (h : (chargedPeriods offset enter exit pattern).length ≤ 30) :
    (chargeByPattern src offset enter exit pattern mode v pos d bill).1 =
      d * (chargeByPattern src offset enter exit pattern mode v pos 1 bill).1 := by
  rw [chargedPeriods] at h
  rw [chargeByPattern, chargeByPattern]
  by_cases hp : pattern = 1
  · rw [if_pos hp] at h ⊢
    rw [if_pos hp]
    exact chargeByTime1_discount src offset enter exit mode v pos d bill h
  · rw [if_neg hp] at h ⊢
    rw [if_neg hp]
    exact chargeByTime0_discount src offset enter exit mode v pos d bill h

theorem chargeByPattern_too_days (h : 30 < (chargedPeriods offset enter exit pattern).length) :
    chargeByPattern src offset enter exit pattern mode v pos d bill = calChargeTooDays src offset enter exit
      (chargedPeriods offset enter exit pattern).length v pos bill := by
  rw [chargedPeriods] at *
  rw [chargeByPattern]
  by_cases hp : pattern = 1
  · rw [if_pos hp] at h
    rw [if_pos hp, if_pos hp]
    exact chargeByTime1_too_days src offset enter exit mode v pos d bill h
  · rw [if_neg hp] at h
    rw [if_neg hp, if_neg hp]
    exact chargeByTime0_too_days src offset enter exit mode v pos d bill h

/-- The discount is a factor of the fee up to 30 periods. Beyond them neither
the fee nor the bill depends on it, and the bill says that there is none. -/
theorem chargeByTime_discount :
    ((chargedPeriods offset enter exit pattern).length ≤ 30 →
        (chargeByTime src offset enter exit pattern mode v pos d bill).1 =
          d * (chargeByTime src offset enter exit pattern mode v pos 1 bill).1) ∧
      (30 < (chargedPeriods offset enter exit pattern).length →
        chargeByTime src offset enter exit pattern mode v pos d bill =
            chargeByTime src offset enter exit pattern mode v pos 1 bill ∧
          (chargeByTime src offset enter exit pattern mode v pos d bill).2.discount = 1) := by
  have hfactor := chargeByPattern_discount src offset enter exit mode v pos d bill pattern
  have htoo := fun d => chargeByPattern_too_days src offset enter exit mode v pos d bill pattern
  rw [chargeByTime, chargeByTime]
  cases src.queryChargeRule (.localTime (utcToLocal offset enter)) pos with
  | none =>
    refine ⟨hfactor, fun h => ?_⟩
    dsimp only
    rw [htoo d h, htoo 1 h]
    exact ⟨rfl, rfl⟩
  | some rule =>
    dsimp only
    by_cases hf : exit - enter < rule.freeTimeLength * 60
    · rw [if_pos hf, if_pos hf]
      exact ⟨fun _ => (mul_zero d).symm, fun _ => ⟨rfl, rfl⟩⟩
    · rw [if_neg hf, if_neg hf]
      refine ⟨hfactor, fun h => ?_⟩
      rw [htoo d h, htoo 1 h]
      exact ⟨rfl, rfl⟩

end

/-- One month and half the price: 31 times the daily maximum, as without a discount. -/
theorem chargeByTime_long_full_price :
    (chargeByTime (tableSource [hourlyRow []]) 0 0 2678400 0 0 0 0 (1 / 2) {}).1 = 310 ∧
      (chargeByTime (tableSource [hourlyRow []]) 0 0 2678400 0 0 0 0 1 {}).1 = 310 ∧
      ¬ (chargeByTime (tableSource [hourlyRow []]) 0 0 2678400 0 0 0 0 (1 / 2) {}).1 =
        1 / 2 * (chargeByTime (tableSource [hourlyRow []]) 0 0 2678400 0 0 0 0 1 {}).1 := by
  decide +kernel

end BitPark.Discount
