import BitPark.TimePeriod

namespace BitPark.Tariff

open BitPark.TimePeriod

/-! Durations and local times are counted in ticks of one microsecond, the
resolution of `boost::posix_time`. A date is the number of its day. -/

def dayTicks : ℤ := 86400000000
def minuteTicks : ℤ := 60000000
def secondTicks : ℤ := 1000000

def minutes (n : ℤ) : ℤ := n * minuteTicks
def seconds (n : ℤ) : ℤ := n * secondTicks

/-- `total_seconds() / 60`, both divisions truncating. -/
def totalMinutes (d : ℤ) : ℤ := (d.tdiv secondTicks).tdiv 60

def dateOf (t : ℤ) : ℤ := t / dayTicks
def timeOfDay (t : ℤ) : ℤ := t % dayTicks
def ptime (date td : ℤ) : ℤ := date * dayTicks + td

/-- `local_adj::utc_to_local(from_time_t(t))` in a zone `offset` seconds from UTC. -/
def utcToLocal (offset t : ℤ) : ℤ := seconds (t + offset)

structure TimeSection where
  begin : ℤ
  stop : ℤ
deriving DecidableEq, Repr

/-- The columns of `park_rule_config` that a computation reads. Free sections
are offsets into a day, exactly as the text of the column lists them. -/
structure ChargeRule where
  id : String := ""
  priority : ℤ := 0
  daylightBegin : ℤ := 0
  nightBegin : ℤ := 0
  freeTimeLength : ℤ := 0
  dayFeeUnit : ℤ := 1
  dayFeeRate : ℚ := 0
  dayFeeUnitBig : ℤ := 1
  dayFeeRateBig : ℚ := 0
  nightFeeUnit : ℤ := 1
  nightFeeRate : ℚ := 0
  nightFeeUnitBig : ℤ := 1
  nightFeeRateBig : ℚ := 0
  maxFee : ℚ := 0
  maxFeeBig : ℚ := 0
  freeTimeSections : List TimeSection := []
  parkPosition : ℤ := 0
  invalidFlag : Option ℤ := none

namespace ChargeRule

/-! The fields that belong to a vehicle type; type 1 is the large vehicle. -/

def dayUnit (rule : ChargeRule) (vehicleType : ℤ) : ℤ :=
  if vehicleType = 1 then rule.dayFeeUnitBig else rule.dayFeeUnit

def nightUnit (rule : ChargeRule) (vehicleType : ℤ) : ℤ :=
  if vehicleType = 1 then rule.nightFeeUnitBig else rule.nightFeeUnit

def dayRate (rule : ChargeRule) (vehicleType : ℤ) : ℚ :=
  if vehicleType = 1 then rule.dayFeeRateBig else rule.dayFeeRate

def nightRate (rule : ChargeRule) (vehicleType : ℤ) : ℚ :=
  if vehicleType = 1 then rule.nightFeeRateBig else rule.nightFeeRate

def cap (rule : ChargeRule) (vehicleType : ℤ) : ℚ :=
  if vehicleType = 1 then rule.maxFeeBig else rule.maxFee

end ChargeRule

/-- The date argument of a rule query: the text of a full local time, or of a
date alone. Days are integers; where the bounds of the calendar matter they are stated. -/
inductive QueryDate where
  | localTime (t : ℤ)
  | date (d : ℤ)

/-- What the two rule queries answer while a fee is computed. -/
structure RuleSource where
  queryChargeRule : QueryDate → ℤ → Option ChargeRule
  queryMinPriorityRule : ℤ → Option ChargeRule

/-- One line of a bill. The source keeps the rendered texts of the two times. -/
structure Detail where
  beginTime : ℤ
  endTime : ℤ
  ruleId : String := ""
  duration : ℤ
  unbilledDuration : Option ℤ := none
  fee : ℚ

structure Bill where
  details : List Detail := []
  enterTime : ℤ := 0
  exitTime : ℤ := 0
  duration : ℤ := 0
  freeDuration : ℤ := 0
  totalFee : ℚ := 0
  beforeDiscountedFee : ℚ := 0
  discount : ℚ := 1
  feeExemption : ℚ := 0

def Bill.push (bill : Bill) (d : Detail) : Bill := { bill with details := bill.details ++ [d] }

/-- The two amounts set at the end of every computation. -/
def Bill.settle (bill : Bill) (before total : ℚ) : Bill :=
  { bill with beforeDiscountedFee := before, totalFee := total }

def freeTimeNoChargeMode : ℤ := 1

structure ParkingTime where
  daylightTime : ℤ
  nightTime : ℤ
deriving DecidableEq, Repr

def completeTime (time unit : ℤ) : ℤ :=
  let mod := time.tmod unit
  if mod = 0 then 0 else unit - mod

def clampNegative (d : ℤ) : ℤ := if d < 0 then minutes 0 else d

def borrowTime (time : ParkingTime) (vehicleType timeOfDay : ℤ) (rule : ChargeRule) : ParkingTime :=
  if timeOfDay < rule.daylightBegin ∨ rule.nightBegin ≤ timeOfDay then
    let borrow := completeTime (totalMinutes time.nightTime) (rule.nightUnit vehicleType)
    ⟨clampNegative (time.daylightTime - minutes borrow), time.nightTime + minutes borrow⟩
  else
    let borrow := completeTime (totalMinutes time.daylightTime) (rule.dayUnit vehicleType)
    ⟨time.daylightTime + minutes borrow, clampNegative (time.nightTime - minutes borrow)⟩

def calOneDayCharge (daylight night dayUnit : ℤ) (dayRate : ℚ) (nightUnit : ℤ)
    (nightRate maxFee : ℚ) : ℚ :=
  let daylightFee : ℚ := ⌈(daylight : ℚ) / dayUnit⌉ * dayRate
  let nightFee : ℚ := ⌈(night : ℚ) / nightUnit⌉ * nightRate
  let today := daylightFee + nightFee
  if today > maxFee then maxFee else today

def calOneDayChargeByVehicleType (daylight night vehicleType : ℤ) (rule : ChargeRule) : ℚ :=
  if vehicleType = 1 then
    calOneDayCharge daylight night rule.dayFeeUnitBig rule.dayFeeRateBig
      rule.nightFeeUnitBig rule.nightFeeRateBig rule.maxFeeBig
  else
    calOneDayCharge daylight night rule.dayFeeUnit rule.dayFeeRate
      rule.nightFeeUnit rule.nightFeeRate rule.maxFee

theorem calOneDayChargeByVehicleType_eq (daylight night vehicleType : ℤ) (rule : ChargeRule) :
    calOneDayChargeByVehicleType daylight night vehicleType rule =
      calOneDayCharge daylight night (rule.dayUnit vehicleType) (rule.dayRate vehicleType)
        (rule.nightUnit vehicleType) (rule.nightRate vehicleType) (rule.cap vehicleType) := by
  unfold calOneDayChargeByVehicleType ChargeRule.dayUnit ChargeRule.dayRate ChargeRule.nightUnit
    ChargeRule.nightRate ChargeRule.cap
  by_cases h : vehicleType = 1
  · simp only [if_pos h]
  · simp only [if_neg h]

theorem calOneDayCharge_eq_min (daylight night dayUnit : ℤ) (dayRate : ℚ) (nightUnit : ℤ)
    (nightRate maxFee : ℚ) :
    calOneDayCharge daylight night dayUnit dayRate nightUnit nightRate maxFee =
      min (⌈(daylight : ℚ) / dayUnit⌉ * dayRate + ⌈(night : ℚ) / nightUnit⌉ * nightRate) maxFee := by
  unfold calOneDayCharge
  dsimp only
  split_ifs with h
  · exact (min_eq_right (le_of_lt h)).symm
  · exact (min_eq_left (not_lt.mp h)).symm

theorem totalMinutes_eq_ediv (d : ℤ) (hd : 0 ≤ d) : totalMinutes d = d / minuteTicks := by
  unfold totalMinutes secondTicks minuteTicks
  rw [Int.tdiv_eq_ediv_of_nonneg hd, Int.tdiv_eq_ediv_of_nonneg (by omega)]
  omega

theorem utcToLocal_le_iff (offset t t' : ℤ) : utcToLocal offset t ≤ utcToLocal offset t' ↔ t ≤ t' := by
  unfold utcToLocal seconds secondTicks
  omega

theorem utcToLocal_lt_iff (offset t t' : ℤ) : utcToLocal offset t < utcToLocal offset t' ↔ t < t' := by
  unfold utcToLocal seconds secondTicks
  omega

end BitPark.Tariff
