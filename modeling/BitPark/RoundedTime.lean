import BitPark.DayFee
import BitPark.ExactTime

namespace BitPark.RoundedTime

open BitPark.TimePeriod BitPark.Rounding BitPark.Tariff BitPark.ParkingTimes BitPark.ChargeByTime
  BitPark.EffectiveTime BitPark.RuleTable BitPark.BillingTime BitPark.DayFee BitPark.ExactTime

/-- So many units of each kind cover so many minutes, and none of them is superfluous. -/
def Covers (u w : ℤ) (kd kn : ℕ) (time : ℤ) : Prop :=
  time ≤ kd * u + kn * w ∧ kd * u + kn * w < time + max u w

theorem borrowFee_covers (rule : ChargeRule) (v : ℤ) (night : Bool) (time : ParkingTime)
    (hu : 0 < rule.dayUnit v) (hw : 0 < rule.nightUnit v) (hd : 0 ≤ time.daylightTime) (hn : 0 ≤ time.nightTime) :
    ∃ kd kn : ℕ, borrowFee rule v night time = kd * rule.dayRate v + kn * rule.nightRate v ∧
      Covers (rule.dayUnit v) (rule.nightUnit v) kd kn
        (totalMinutes time.daylightTime + totalMinutes time.nightTime) := by
  have hmd := totalMinutes_nonneg _ hd
  have hmn := totalMinutes_nonneg _ hn
  cases night with
  | true =>
    obtain ⟨h1, h2, hlo, hhi⟩ := twoUnits_bounds _ _ _ _ hw hu hmn hmd
    obtain ⟨kn, hkn⟩ := Int.eq_ofNat_of_zero_le h1
    obtain ⟨kd, hkd⟩ := Int.eq_ofNat_of_zero_le h2
    rw [hkn, hkd] at hlo hhi
    refine ⟨kd, kn, ?_, ?_, ?_⟩
    · rw [borrowFee, if_pos rfl, twoRate, hkn, hkd, add_comm]
      norm_cast
    · linarith only [hlo]
    · rw [max_comm] at hhi
      linarith only [hhi]
  | false =>
    obtain ⟨h1, h2, hlo, hhi⟩ := twoUnits_bounds _ _ _ _ hu hw hmd hmn
    obtain ⟨kd, hkd⟩ := Int.eq_ofNat_of_zero_le h1
    obtain ⟨kn, hkn⟩ := Int.eq_ofNat_of_zero_le h2
    rw [hkn, hkd] at hlo hhi
    refine ⟨kd, kn, ?_, hlo, hhi⟩
    rw [borrowFee, if_neg (by decide), twoRate, hkn, hkd]
    norm_cast

/-- The fee of a period is the daily maximum or pays for whole units that
cover its effective time, and by less than one unit more. -/
theorem calChargeByTime_covers (rule : ChargeRule) (v mode : ℤ) (firstDay : Bool) (period : Period) (bill : Bill)
    (hr : DayOrdered rule) (hs : SectionsInDay rule) (ha : SectionsApart rule) (hu : 0 < rule.dayUnit v)
    (hw : 0 < rule.nightUnit v) (begin : ℤ) (hb : begin = billedBegin rule mode firstDay period.begin)
    (h : begin < period.stop) :
    ∃ kd kn : ℕ,
      (calChargeByTime rule period mode v firstDay bill).1 =
          min (rule.cap v) (kd * rule.dayRate v + kn * rule.nightRate v) ∧
        Covers (rule.dayUnit v) (rule.nightUnit v) kd kn
          (totalMinutes (calInvalidParkingTime ⟨begin, period.stop⟩ (dateOf begin) (dateOf begin + 1) rule).daylightTime +
            totalMinutes (calInvalidParkingTime ⟨begin, period.stop⟩ (dateOf begin) (dateOf begin + 1) rule).nightTime) := by
  obtain ⟨⟨hd, -⟩, hn, -⟩ := within0 rule hr (disjoint_of_inDay rule hs ha) ⟨begin, period.stop⟩ h.le (dateOf begin)
  have hfee : (calChargeByTime rule period mode v firstDay bill).1 = periodFee0 rule ⟨begin, period.stop⟩ v := by
    rw [calChargeByTime_fst, dayFee0]
    rw [billedBegin] at hb
    split_ifs at hb ⊢ with h1 h2
    · omega
    · rw [hb]
    · rw [hb]
  obtain ⟨kd, kn, hprice, hcov⟩ := borrowFee_covers rule v (nightStart rule (timeOfDay begin)) _ hu hw hd hn
  refine ⟨kd, kn, ?_, hcov⟩
  rw [hfee, periodFee0]
  dsimp only
  rw [calOneDay_borrowTime rule v _ hd hn hu hw, hprice, min_comm]

/-- From 19:30 to 21:10: half an hour of daylight completes its unit from the
night, and what is left of that takes one more. -/
theorem calChargeByTime_covers_evening :
    (calChargeByTime (handleQueryRule (hourlyRow [morning])) ⟨minutes 1170, minutes 1270⟩ 0 0 true {}).1 = 2 ∧
      ∃ kd kn : ℕ,
        (calChargeByTime (handleQueryRule (hourlyRow [morning])) ⟨minutes 1170, minutes 1270⟩ 0 0 true {}).1 =
            min ((handleQueryRule (hourlyRow [morning])).cap 0)
              (kd * (handleQueryRule (hourlyRow [morning])).dayRate 0 +
                kn * (handleQueryRule (hourlyRow [morning])).nightRate 0) ∧
          Covers 60 60 kd kn 100 :=
  ⟨by decide +kernel, calChargeByTime_covers (handleQueryRule (hourlyRow [morning])) 0 0 true
    ⟨minutes 1170, minutes 1270⟩ {} (by decide) (by decide) (by decide) (by decide) (by decide) (minutes 1170) rfl
    (by decide)⟩

end BitPark.RoundedTime
