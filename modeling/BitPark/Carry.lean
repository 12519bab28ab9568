import BitPark.FeeMonotone

namespace BitPark.Carry

open BitPark.TimePeriod BitPark.Tariff BitPark.DivideTime BitPark.ParkingTimes BitPark.ChargeByTime
  BitPark.RuleTable

/-- What an iteration of pattern 1 bills: the rule of the date, the date, and
what is left of the period after the borrowed and the free time. -/
def billedDay (src : RuleSource) (freeTimeMode parkPosition : ℤ) (s : Day1State) (period : Period) :
    Option (ChargeRule × ℤ × Period) :=
  let begin := period.begin + s.borrowedTime
  if period.stop ≤ begin then none
  else match src.queryChargeRule (.date (dateOf begin)) parkPosition with
    | none => none
    | some rule =>
      let begin' := billedBegin rule freeTimeMode s.firstDay begin
      if period.stop ≤ begin' then none else some (rule, dateOf begin, ⟨begin', period.stop⟩)

/-- The night time of a date after the daylight has completed its last unit from it. -/
def nightLeft (rule : ChargeRule) (vehicleType : ℤ) (time : ParkingTime) : ℤ :=
  time.nightTime - minutes (completeTime (totalMinutes time.daylightTime) (rule.dayUnit vehicleType))

theorem completeDay1_used_up (rule : ChargeRule) (v : ℤ) (time : ParkingTime) (borrowed : ℤ)
    (h : nightLeft rule v time < 0) : completeDay1 rule v time borrowed = (⟨time.daylightTime +
      minutes (completeTime (totalMinutes time.daylightTime) (rule.dayUnit v)), minutes 0⟩, borrowed) := by
  rw [nightLeft] at h
  rw [completeDay1]
  exact if_pos h

theorem completeDay1_left (rule : ChargeRule) (v : ℤ) (time : ParkingTime) (borrowed : ℤ)
    (h : 0 ≤ nightLeft rule v time) : completeDay1 rule v time borrowed = (⟨time.daylightTime +
        minutes (completeTime (totalMinutes time.daylightTime) (rule.dayUnit v)),
      nightLeft rule v time + minutes (completeTime (totalMinutes (nightLeft rule v time)) (rule.nightUnit v))⟩,
      minutes (completeTime (totalMinutes (nightLeft rule v time)) (rule.nightUnit v))) := by
  rw [nightLeft] at *
  rw [completeDay1]
  exact if_neg (not_lt.mpr h)

section

variable (src : RuleSource) (mode v pos : ℤ) (s : Day1State) (period : Period)

/-- An iteration that bills nothing leaves the fee and the borrowed time
alone, any other adds its fee and decides on the borrowed time anew. -/
theorem chargeDay1_billedDay :
    ((chargeDay1 src mode v pos s period).totalFee, (chargeDay1 src mode v pos s period).borrowedTime) =
      match billedDay src mode pos s period with
      | none => (s.totalFee, s.borrowedTime)
      | some (rule, date, park) => (s.totalFee + periodFee1 rule v date park,
          (completeDay1 rule v (parkingTime1 park date rule) s.borrowedTime).2) := by
  rw [chargeDay1, billedDay]
  dsimp only
  have hskip : ∀ (t : Day1State) (d : Detail), t.totalFee = s.totalFee → t.borrowedTime = s.borrowedTime →
      d.fee = 0 → ((t.charge d).totalFee, (t.charge d).borrowedTime) = (s.totalFee, s.borrowedTime) := by
    intro t d ht hb hd
    rw [Day1State.charge, ht, hb, hd, add_zero]
  have hbill : ∀ (t : Day1State) (d : Detail) (rule : ChargeRule) (date : ℤ) (park : Period),
      t.totalFee = s.totalFee → t.borrowedTime = s.borrowedTime →
      ((billDay1 rule v date park d t).totalFee, (billDay1 rule v date park d t).borrowedTime) =
        (s.totalFee + periodFee1 rule v date park,
          (completeDay1 rule v (parkingTime1 park date rule) s.borrowedTime).2) := by
    intro t d rule date park ht hb
    rw [billDay1_totalFee, ht, ← hb]
    rfl
  by_cases h1 : period.stop ≤ period.begin + s.borrowedTime
  · rw [if_pos h1, if_pos h1]
    exact hskip s _ rfl rfl rfl
  · rw [if_neg h1, if_neg h1]
    cases src.queryChargeRule (.date (dateOf (period.begin + s.borrowedTime))) pos with
    | none => exact hskip s _ rfl rfl rfl
    | some rule =>
      dsimp only
      by_cases hf : s.firstDay = true
      · by_cases hm : mode = freeTimeNoChargeMode
        · have hb : billedBegin rule mode s.firstDay (period.begin + s.borrowedTime) =
              period.begin + s.borrowedTime + minutes rule.freeTimeLength := if_pos ⟨hf, hm⟩
          rw [hb, if_pos hf, if_pos hm]
          by_cases h2 : period.stop ≤ period.begin + s.borrowedTime + minutes rule.freeTimeLength
          · rw [if_pos h2, if_pos h2]
            exact hskip _ _ rfl rfl rfl
          · rw [if_neg h2, if_neg h2]
            exact hbill _ _ _ _ _ rfl rfl
        · have hb : billedBegin rule mode s.firstDay (period.begin + s.borrowedTime) =
              period.begin + s.borrowedTime := if_neg fun hc => hm hc.2
          rw [hb, if_pos hf, if_neg hm, if_neg h1]
          exact hbill _ _ _ _ _ rfl rfl
      · have hb : billedBegin rule mode s.firstDay (period.begin + s.borrowedTime) =
            period.begin + s.borrowedTime := if_neg fun hc => hf hc.1
        rw [hb, if_neg hf, if_neg h1]
        exact hbill _ _ _ _ _ rfl rfl

/-- What completing the night unit adds to the night time billed on a day. -/
def nightAdded : ℤ :=
  match billedDay src mode pos s period with
  | none => 0
  | some (rule, date, park) =>
    let time := parkingTime1 park date rule
    (completeDay1 rule v time s.borrowedTime).1.nightTime - clampNegative (nightLeft rule v time)

/-- The day is billed, and the daylight has not used up its night. -/
def LeavesNight : Prop :=
  ∃ rule date park, billedDay src mode pos s period = some (rule, date, park) ∧
    0 ≤ nightLeft rule v (parkingTime1 park date rule)

/-- A day passes on what its night was completed by if it leaves some night,
or has nothing to pass on from before. -/
theorem chargeDay1_carries_iff :
    (chargeDay1 src mode v pos s period).borrowedTime = nightAdded src mode v pos s period ↔
      s.borrowedTime = 0 ∨ LeavesNight src mode v pos s period := by
  have hday := congrArg Prod.snd (chargeDay1_billedDay src mode v pos s period)
  dsimp only at hday
  rw [hday, nightAdded, LeavesNight]
  cases hb : billedDay src mode pos s period with
  | none => simp
  | some day =>
    obtain ⟨rule, date, park⟩ := day
    dsimp only
    have hleaves : (∃ r d p, some (rule, date, park) = some (r, d, p) ∧
        0 ≤ nightLeft r v (parkingTime1 p d r)) ↔ 0 ≤ nightLeft rule v (parkingTime1 park date rule) := by
      constructor
      · rintro ⟨r, d, p, he, h⟩
        cases he
        exact h
      · exact fun h => ⟨rule, date, park, rfl, h⟩
    rw [hleaves]
    by_cases hn : nightLeft rule v (parkingTime1 park date rule) < 0
    · rw [completeDay1_used_up _ _ _ _ hn, clampNegative, if_pos hn]
      simp [hn]
    · have hn' := not_lt.mp hn
      rw [completeDay1_left _ _ _ _ hn', clampNegative, if_neg hn]
      simp [hn']

end

section

variable (src : RuleSource) (mode v pos : ℤ) (bill : Bill) (periods : List Period)

/-- The loop of `ChargeByTime1` before its iteration `i`. -/
def stateBefore (i : ℕ) : Day1State := (periods.take i).foldl (chargeDay1 src mode v pos) { bill }

theorem stateBefore_succ (i : ℕ) (h : i < periods.length) :
    stateBefore src mode v pos bill periods (i + 1) =
      chargeDay1 src mode v pos (stateBefore src mode v pos bill periods i) periods[i] := by
  rw [stateBefore, List.take_add_one, List.getElem?_eq_getElem h, List.foldl_append]
  rfl

/-- Every day but the first begins later by what the night of the day before was completed by. -/
def DeductsOnce : Prop :=
  ∀ (i : ℕ) (h : i + 1 < periods.length), (stateBefore src mode v pos bill periods (i + 1)).borrowedTime =
    nightAdded src mode v pos (stateBefore src mode v pos bill periods i) periods[i]

theorem chargeByTime1_run (offset enter exit : ℤ) (discount : ℚ)
    (hp : divideTimeByDay1 (utcToLocal offset enter) (utcToLocal offset exit) = periods)
    (h30 : periods.length ≤ 30) : (chargeByTime1 src offset enter exit mode v pos discount bill).1 =
      (stateBefore src mode v pos bill periods periods.length).totalFee * discount := by
  rw [chargeByTime1, hp, stateBefore, List.take_length]
  dsimp only
  rw [if_neg (by omega)]

/-- Along a whole stay every borrowed minute is deducted once exactly if each
day but the last leaves some night, or begins with nothing borrowed. -/
theorem deductsOnce_iff : DeductsOnce src mode v pos bill periods ↔
    ∀ (i : ℕ) (h : i + 1 < periods.length), (stateBefore src mode v pos bill periods i).borrowedTime = 0 ∨
      LeavesNight src mode v pos (stateBefore src mode v pos bill periods i) periods[i] := by
  apply forall_congr'
  intro i
  apply forall_congr'
  intro h
  rw [stateBefore_succ src mode v pos bill periods i (by omega)]
  exact chargeDay1_carries_iff src mode v pos _ _

end

/-- A day unit of a whole day, which takes more than the night has. -/
def wholeDayRow : RuleRow := { hourlyRow [] with dayFeeSpan := 1440 }

/-- From 23:30 on: half an hour is borrowed from the second day, whose own
night is used up, and then once more from the third. -/
theorem deducts_twice :
    (stateBefore (tableSource [wholeDayRow]) 0 0 0 {}
        (divideTimeByDay1 (utcToLocal 0 84600) (utcToLocal 0 176400)) 1).borrowedTime = minutes 30 ∧
      nightAdded (tableSource [wholeDayRow]) 0 0 0 (stateBefore (tableSource [wholeDayRow]) 0 0 0 {}
        (divideTimeByDay1 (utcToLocal 0 84600) (utcToLocal 0 176400)) 1)
        ⟨ptime 1 0, ptime 2 0⟩ = 0 ∧
      (stateBefore (tableSource [wholeDayRow]) 0 0 0 {}
        (divideTimeByDay1 (utcToLocal 0 84600) (utcToLocal 0 176400)) 2).borrowedTime = minutes 30 ∧
      ¬ DeductsOnce (tableSource [wholeDayRow]) 0 0 0 {}
        (divideTimeByDay1 (utcToLocal 0 84600) (utcToLocal 0 176400)) := by
  have hperiods : divideTimeByDay1 (utcToLocal 0 84600) (utcToLocal 0 176400) =
      [⟨seconds 84600, ptime 1 0⟩, ⟨ptime 1 0, ptime 2 0⟩, ⟨ptime 2 0, seconds 176400⟩] := by
    decide
  rw [hperiods]
  refine ⟨by decide, by decide, by rfl, fun h => ?_⟩
  exact absurd (h 1 (by decide)) (by decide)

end BitPark.Carry
