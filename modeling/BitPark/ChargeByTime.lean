import BitPark.DivideTime
import BitPark.ParkingTimes

namespace BitPark.ChargeByTime

open BitPark.TimePeriod BitPark.Tariff BitPark.DivideTime BitPark.ParkingTimes

/-- A detail for a whole stay, given by its two UTC times. -/
def stayDetail (offset enter exit : ℤ) (ruleId : String) (fee : ℚ) : Detail :=
  { beginTime := utcToLocal offset enter, endTime := utcToLocal offset exit, ruleId,
    duration := (exit - enter).tdiv 60, fee }

def periodDetail (period : Period) (ruleId : String) (fee : ℚ) : Detail :=
  { beginTime := period.begin, endTime := period.stop, ruleId,
    duration := totalMinutes (period.stop - period.begin), fee }

def calChargeTooDays (src : RuleSource) (offset enter exit days vehicleType parkPosition : ℤ)
    (bill : Bill) : ℚ × Bill :=
  let found := src.queryMinPriorityRule parkPosition
  let rule := found.getD {}
  let total : ℚ := match found with
    | none => 0
    | some rule => if vehicleType = 1 then rule.maxFeeBig * days else rule.maxFee * days
  let bill := { bill.push (stayDetail offset enter exit rule.id total) with discount := 1 }
  (total, bill.settle total total)

/-- What `CalChargeByTime` computes behind its free-time test. -/
def periodFee0 (rule : ChargeRule) (period : Period) (vehicleType : ℤ) : ℚ :=
  let date := dateOf period.begin
  let time := calInvalidParkingTime period date (date + 1) rule
  let time := borrowTime time vehicleType (timeOfDay period.begin) rule
  calOneDayChargeByVehicleType (totalMinutes time.daylightTime) (totalMinutes time.nightTime)
    vehicleType rule

def calChargeByTime (rule : ChargeRule) (period : Period) (freeTimeMode vehicleType : ℤ)
    (firstDay : Bool) (bill : Bill) : ℚ × Bill :=
  let bill := if firstDay then { bill with freeDuration := rule.freeTimeLength } else bill
  if firstDay ∧ freeTimeMode = freeTimeNoChargeMode then
    let begin := period.begin + minutes rule.freeTimeLength
    if period.stop ≤ begin then
      (0, bill.push (periodDetail period rule.id 0))
    else
      let fee := periodFee0 rule ⟨begin, period.stop⟩ vehicleType
      (fee, bill.push (periodDetail period rule.id fee))
  else
    let fee := periodFee0 rule period vehicleType
    (fee, bill.push (periodDetail period rule.id fee))

def noChargeBill (offset enter exit : ℤ) (bill : Bill) : Bill :=
  { bill.push (stayDetail offset enter exit "" 0) with discount := 1 }.settle 0 0

/-- The loop over the middle days, which repeats the fee of the first day. -/
def middleDays (ruleId : String) (fee : ℚ) (periods : List Period) (total : ℚ) (bill : Bill) :
    ℚ × Bill :=
  periods.foldl (fun s p => (s.1 + fee, s.2.push (periodDetail p ruleId fee))) (total, bill)

/-- All days of a stay in pattern 0, under the rule found for its begin. -/
def chargePeriods0 (rule : ChargeRule) (freeTimeMode vehicleType : ℤ) (first : Period)
    (others : List Period) (bill : Bill) : ℚ × Bill :=
  let day1 := calChargeByTime rule first freeTimeMode vehicleType true bill
  match others.getLast? with
  | none => day1
  | some last =>
    let middle := middleDays rule.id day1.1 others.dropLast day1.1 day1.2
    let day := calChargeByTime rule last freeTimeMode vehicleType false middle.2
    (middle.1 + day.1, day.2)

def chargeByTime0 (src : RuleSource) (offset enter exit freeTimeMode vehicleType parkPosition : ℤ)
    (discount : ℚ) (bill : Bill) : ℚ × Bill :=
  match divideTimeByDay0 (utcToLocal offset enter) (utcToLocal offset exit) with
  | [] => (0, noChargeBill offset enter exit bill)
  | first :: others =>
    if (first :: others).length > 30 then
      calChargeTooDays src offset enter exit (first :: others).length vehicleType parkPosition bill
    else match src.queryChargeRule (.localTime (utcToLocal offset enter)) parkPosition with
      | none => (0, noChargeBill offset enter exit bill)
      | some rule =>
        let days := chargePeriods0 rule freeTimeMode vehicleType first others
          { bill with freeDuration := rule.freeTimeLength }
        let actual := days.1 * discount
        (actual, days.2.settle days.1 actual)

/-- The borrowing of pattern 1: daylight completes its last unit from the
night, the night completes its own from the next day. The second component is
the new value of `borrowed_time`, which keeps its old value when the night is used up. -/
def completeDay1 (rule : ChargeRule) (vehicleType : ℤ) (time : ParkingTime) (borrowed : ℤ) :
    ParkingTime × ℤ :=
  let borrow := minutes (completeTime (totalMinutes time.daylightTime) (rule.dayUnit vehicleType))
  let daylight := time.daylightTime + borrow
  let night := time.nightTime - borrow
  if night < 0 then (⟨daylight, minutes 0⟩, borrowed)
  else
    let carry := minutes (completeTime (totalMinutes night) (rule.nightUnit vehicleType))
    (⟨daylight, night + carry⟩, carry)

/-- The local variables of the loop over the dates of a stay. -/
structure Day1State where
  borrowedTime : ℤ := 0
  firstDay : Bool := true
  totalFee : ℚ := 0
  bill : Bill

/-- The end of an iteration: one detail is appended and its fee added. -/
def Day1State.charge (s : Day1State) (d : Detail) : Day1State :=
  { s with totalFee := s.totalFee + d.fee, bill := s.bill.push d }

/-- The billed part of an iteration: times, borrowing and fee of a date. -/
def billDay1 (rule : ChargeRule) (vehicleType date : ℤ) (park : Period) (d : Detail)
    (s : Day1State) : Day1State :=
  let day := completeDay1 rule vehicleType (parkingTime1 park date rule) s.borrowedTime
  let fee := calOneDayChargeByVehicleType (totalMinutes day.1.daylightTime)
    (totalMinutes day.1.nightTime) vehicleType rule
  { s with borrowedTime := day.2 }.charge { d with fee }

def chargeDay1 (src : RuleSource) (freeTimeMode vehicleType parkPosition : ℤ) (s : Day1State)
    (period : Period) : Day1State :=
  let d : Detail := { periodDetail period "" 0 with unbilledDuration := some (totalMinutes s.borrowedTime) }
  let begin := period.begin + s.borrowedTime
  if period.stop ≤ begin then s.charge d
  else match src.queryChargeRule (.date (dateOf begin)) parkPosition with
    | none => s.charge d
    | some rule =>
      let d := { d with ruleId := rule.id }
      if s.firstDay then
        let s := { s with firstDay := false, bill := { s.bill with freeDuration := rule.freeTimeLength } }
        if freeTimeMode = freeTimeNoChargeMode then
          let begin' := begin + minutes rule.freeTimeLength
          if period.stop ≤ begin' then s.charge d
          else billDay1 rule vehicleType (dateOf begin) ⟨begin', period.stop⟩ d s
        else billDay1 rule vehicleType (dateOf begin) ⟨begin, period.stop⟩ d s
      else billDay1 rule vehicleType (dateOf begin) ⟨begin, period.stop⟩ d s

def chargeByTime1 (src : RuleSource) (offset enter exit freeTimeMode vehicleType parkPosition : ℤ)
    (discount : ℚ) (bill : Bill) : ℚ × Bill :=
  let periods := divideTimeByDay1 (utcToLocal offset enter) (utcToLocal offset exit)
  if periods.length > 30 then
    calChargeTooDays src offset enter exit periods.length vehicleType parkPosition bill
  else
    let s := periods.foldl (chargeDay1 src freeTimeMode vehicleType parkPosition) { bill }
    let actual := s.totalFee * discount
    (actual, s.bill.settle s.totalFee actual)

def chargeByPattern (src : RuleSource) (offset enter exit chargePattern freeTimeMode vehicleType
    parkPosition : ℤ) (discount : ℚ) (bill : Bill) : ℚ × Bill :=
  if chargePattern = 1 then
    chargeByTime1 src offset enter exit freeTimeMode vehicleType parkPosition discount bill
  else
    chargeByTime0 src offset enter exit freeTimeMode vehicleType parkPosition discount bill

def chargeByTime (src : RuleSource) (offset enter exit chargePattern freeTimeMode vehicleType
    parkPosition : ℤ) (discount : ℚ) (bill : Bill) : ℚ × Bill :=
  match src.queryChargeRule (.localTime (utcToLocal offset enter)) parkPosition with
  | none => chargeByPattern src offset enter exit chargePattern freeTimeMode vehicleType parkPosition
      discount bill
  | some rule =>
    if exit - enter < rule.freeTimeLength * 60 then
      let bill := { bill.push (stayDetail offset enter exit rule.id 0) with
        freeDuration := rule.freeTimeLength, discount := 1 }
      (0, bill.settle 0 0)
    else
      chargeByPattern src offset enter exit chargePattern freeTimeMode vehicleType parkPosition
        discount bill

/-- A stay is charged by its pattern, or it ends within the free time of the
rule in force at its start, and its bill is one free position. -/
theorem chargeByTime_cases (src : RuleSource) (offset enter exit pattern mode vehicleType pos : ℤ)
    (discount : ℚ) (bill : Bill) :
    chargeByTime src offset enter exit pattern mode vehicleType pos discount bill =
        chargeByPattern src offset enter exit pattern mode vehicleType pos discount bill ∨
      ∃ rule, src.queryChargeRule (.localTime (utcToLocal offset enter)) pos = some rule ∧
        exit - enter < rule.freeTimeLength * 60 ∧
        chargeByTime src offset enter exit pattern mode vehicleType pos discount bill =
          (0, { bill.push (stayDetail offset enter exit rule.id 0) with
            freeDuration := rule.freeTimeLength, discount := 1 }.settle 0 0) := by
  rw [chargeByTime]
  cases src.queryChargeRule (.localTime (utcToLocal offset enter)) pos with
  | none => exact .inl rfl
  | some rule =>
    dsimp only
    split_ifs with hfree
    · exact .inr ⟨rule, rfl, hfree, rfl⟩
    · exact .inl rfl

/-! The amounts of the two patterns by themselves. -/

/-- The fee of one day of pattern 0. -/
def dayFee0 (rule : ChargeRule) (freeTimeMode vehicleType : ℤ) (firstDay : Bool) (period : Period) : ℚ :=
  if firstDay ∧ freeTimeMode = freeTimeNoChargeMode then
    if period.stop ≤ period.begin + minutes rule.freeTimeLength then 0
    else periodFee0 rule ⟨period.begin + minutes rule.freeTimeLength, period.stop⟩ vehicleType
  else periodFee0 rule period vehicleType

theorem calChargeByTime_fst (rule : ChargeRule) (period : Period) (mode vehicleType : ℤ) (firstDay : Bool)
    (bill : Bill) :
    (calChargeByTime rule period mode vehicleType firstDay bill).1 =
      dayFee0 rule mode vehicleType firstDay period := by
  rw [calChargeByTime, dayFee0]
  dsimp only
  by_cases h : firstDay ∧ mode = freeTimeNoChargeMode
  · rw [if_pos h, if_pos h]
    split_ifs <;> rfl
  · rw [if_neg h, if_neg h]

theorem middleDays_fst (ruleId : String) (fee : ℚ) (ps : List Period) (total : ℚ) (bill : Bill) :
    (middleDays ruleId fee ps total bill).1 = total + ps.length * fee := by
  induction ps generalizing total bill with
  | nil => simp [middleDays]
  | cons p ps ih =>
    have hs := ih (total + fee) (bill.push (periodDetail p ruleId fee))
    rw [List.length_cons, Nat.cast_add, Nat.cast_one, add_mul, one_mul, add_comm _ fee, ← add_assoc, ← hs]
    rfl

theorem chargePeriods0_fst (rule : ChargeRule) (mode vehicleType : ℤ) (first : Period)
    (others : List Period) (bill : Bill) :
    (chargePeriods0 rule mode vehicleType first others bill).1 = match others.getLast? with
      | none => dayFee0 rule mode vehicleType true first
      | some last => dayFee0 rule mode vehicleType true first +
          others.dropLast.length * dayFee0 rule mode vehicleType true first +
          dayFee0 rule mode vehicleType false last := by
  rw [chargePeriods0]
  cases others.getLast? with
  | none => exact calChargeByTime_fst rule first mode vehicleType true bill
  | some last =>
    dsimp only
    rw [middleDays_fst, calChargeByTime_fst, calChargeByTime_fst]

/-- The fee of the billed part of one date of pattern 1. -/
def periodFee1 (rule : ChargeRule) (vehicleType date : ℤ) (park : Period) : ℚ :=
  let day := (completeDay1 rule vehicleType (parkingTime1 park date rule) 0).1
  calOneDayChargeByVehicleType (totalMinutes day.daylightTime) (totalMinutes day.nightTime) vehicleType rule

/-- Where the billed part of a date begins. -/
def billedBegin (rule : ChargeRule) (freeTimeMode : ℤ) (firstDay : Bool) (begin : ℤ) : ℤ :=
  if firstDay ∧ freeTimeMode = freeTimeNoChargeMode then begin + minutes rule.freeTimeLength else begin

/-- The fee of one date of pattern 1 when so much of it was borrowed before. -/
def dayFee1 (rule : ChargeRule) (freeTimeMode vehicleType borrowed : ℤ) (firstDay : Bool)
    (period : Period) : ℚ :=
  let begin := period.begin + borrowed
  let begin' := billedBegin rule freeTimeMode firstDay begin
  if period.stop ≤ begin ∨ period.stop ≤ begin' then 0
  else periodFee1 rule vehicleType (dateOf begin) ⟨begin', period.stop⟩

theorem completeDay1_fst (rule : ChargeRule) (vehicleType : ℤ) (time : ParkingTime) (borrowed : ℤ) :
    (completeDay1 rule vehicleType time borrowed).1 = (completeDay1 rule vehicleType time 0).1 := by
  unfold completeDay1
  dsimp only
  split_ifs <;> rfl

theorem billDay1_totalFee (rule : ChargeRule) (vehicleType date : ℤ) (park : Period) (d : Detail)
    (s : Day1State) :
    (billDay1 rule vehicleType date park d s).totalFee = s.totalFee + periodFee1 rule vehicleType date park := by
  rw [periodFee1]
  rw [← completeDay1_fst rule vehicleType (parkingTime1 park date rule) s.borrowedTime]
  rfl

theorem chargeDay1_totalFee (src : RuleSource) (mode vehicleType pos : ℤ) (s : Day1State) (period : Period)
    (rule : ChargeRule) (hq : ∀ q, src.queryChargeRule q pos = some rule) :
    (chargeDay1 src mode vehicleType pos s period).totalFee =
      s.totalFee + dayFee1 rule mode vehicleType s.borrowedTime s.firstDay period := by
  rw [chargeDay1, dayFee1, billedBegin]
  dsimp only
  rw [hq]
  by_cases h : period.stop ≤ period.begin + s.borrowedTime
  · rw [if_pos h, if_pos (Or.inl h)]
    rfl
  · rw [if_neg h]
    simp only [h, false_or]
    cases hf : s.firstDay with
    | false =>
      simp only [Bool.false_eq_true, false_and, if_false, h]
      exact billDay1_totalFee rule vehicleType _ _ _ _
    | true =>
      by_cases hm : mode = freeTimeNoChargeMode
      · simp only [hm, and_self, if_true]
        split_ifs
        · rfl
        · exact billDay1_totalFee rule vehicleType _ _ _ _
      · simp only [hm, and_false, if_true, if_false, h]
        exact billDay1_totalFee rule vehicleType _ _ _ _

/-! No amount depends on what a bill already holds. -/

theorem chargeDay1_bill (src : RuleSource) (mode vehicleType pos : ℤ) (s : Day1State) (period : Period)
    (bill : Bill) : ∃ bill', chargeDay1 src mode vehicleType pos { s with bill } period =
      { chargeDay1 src mode vehicleType pos s period with bill := bill' } := by
  rw [chargeDay1, chargeDay1]
  dsimp only
  by_cases h : period.stop ≤ period.begin + s.borrowedTime
  · rw [if_pos h, if_pos h]
    exact ⟨_, rfl⟩
  · rw [if_neg h, if_neg h]
    cases src.queryChargeRule (.date (dateOf (period.begin + s.borrowedTime))) pos with
    | none => exact ⟨_, rfl⟩
    | some rule =>
      dsimp only
      by_cases hf : s.firstDay = true
      · rw [if_pos hf, if_pos hf]
        by_cases hm : mode = freeTimeNoChargeMode
        · rw [if_pos hm, if_pos hm]
          by_cases h2 : period.stop ≤ period.begin + s.borrowedTime + minutes rule.freeTimeLength
          · rw [if_pos h2, if_pos h2]
            exact ⟨_, rfl⟩
          · rw [if_neg h2, if_neg h2]
            exact ⟨_, rfl⟩
        · rw [if_neg hm, if_neg hm]
          exact ⟨_, rfl⟩
      · rw [if_neg hf, if_neg hf]
        exact ⟨_, rfl⟩

theorem chargeDays1_bill (src : RuleSource) (mode vehicleType pos : ℤ) (ps : List Period) (s : Day1State)
    (bill : Bill) : ∃ bill', ps.foldl (chargeDay1 src mode vehicleType pos) { s with bill } =
      { ps.foldl (chargeDay1 src mode vehicleType pos) s with bill := bill' } := by
  induction ps generalizing s bill with
  | nil => exact ⟨bill, rfl⟩
  | cons p ps ih =>
    obtain ⟨bill', h⟩ := chargeDay1_bill src mode vehicleType pos s p bill
    rw [List.foldl_cons, List.foldl_cons, h]
    exact ih _ bill'

theorem chargeByPattern_bill (src : RuleSource) (offset enter exit pattern mode vehicleType pos : ℤ)
    (discount : ℚ) (bill bill' : Bill) :
    (chargeByPattern src offset enter exit pattern mode vehicleType pos discount bill).1 =
      (chargeByPattern src offset enter exit pattern mode vehicleType pos discount bill').1 := by
  rw [chargeByPattern, chargeByPattern]
  by_cases hp : pattern = 1
  · rw [if_pos hp, if_pos hp, chargeByTime1, chargeByTime1]
    dsimp only
    split_ifs
    · rfl
    · obtain ⟨_, h⟩ := chargeDays1_bill src mode vehicleType pos
        (divideTimeByDay1 (utcToLocal offset enter) (utcToLocal offset exit)) { bill := bill' } bill
      rw [h]
  · rw [if_neg hp, if_neg hp, chargeByTime0, chargeByTime0]
    cases divideTimeByDay0 (utcToLocal offset enter) (utcToLocal offset exit) with
    | nil => rfl
    | cons first others =>
      dsimp only
      split_ifs
      · rfl
      · cases src.queryChargeRule (.localTime (utcToLocal offset enter)) pos with
        | none => rfl
        | some rule =>
          dsimp only
          rw [chargePeriods0_fst, chargePeriods0_fst]

theorem chargeByTime_bill (src : RuleSource) (offset enter exit pattern mode vehicleType pos : ℤ) (discount : ℚ)
    (bill bill' : Bill) :
    (chargeByTime src offset enter exit pattern mode vehicleType pos discount bill).1 =
      (chargeByTime src offset enter exit pattern mode vehicleType pos discount bill').1 := by
  have h := chargeByPattern_bill src offset enter exit pattern mode vehicleType pos discount bill bill'
  rw [chargeByTime, chargeByTime]
  cases src.queryChargeRule (.localTime (utcToLocal offset enter)) pos with
  | none => exact h
  | some rule =>
    dsimp only
    split_ifs
    · rfl
    · exact h

/-- A stay without any time costs nothing. -/
theorem chargeByTime_empty (src : RuleSource) (offset t pattern mode vehicleType pos : ℤ) (discount : ℚ)
    (bill : Bill) : (chargeByTime src offset t t pattern mode vehicleType pos discount bill).1 = 0 := by
  have h0 : (chargeByPattern src offset t t pattern mode vehicleType pos discount bill).1 = 0 := by
    rw [chargeByPattern]
    split_ifs
    · rw [chargeByTime1, divideTimeByDay1_short _ _ le_rfl (nextMidnight_bounds _).1.le, if_neg (by simp)]
      simp [chargeDay1, Day1State.charge, periodDetail]
    · rw [chargeByTime0, divideTimeByDay0_empty]
  obtain h | ⟨_, -, -, h⟩ := chargeByTime_cases src offset t t pattern mode vehicleType pos discount bill
  · rw [h, h0]
  · rw [h]

end BitPark.ChargeByTime
