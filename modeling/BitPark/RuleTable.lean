import BitPark.Tariff

namespace BitPark.RuleTable

open BitPark.Tariff

/-- A row of `park_rule_config`. Texts of durations and of free sections are
given by the durations that `duration_from_string` reads in them. -/
structure RuleRow where
  nid : String := ""
  rulePriority : ℤ := 0
  festivalBeginTime : Option ℤ := none
  festivalEndTime : Option ℤ := none
  dayBegin : ℤ
  nightBegin : ℤ
  freeTimeLength : Option ℤ := none
  dayFeeSpan : ℤ
  dayFeeRate : ℚ
  dayFeeSpanBig : ℤ
  dayFeeRateBig : ℚ
  nightFeeSpan : ℤ
  nightFeeRate : ℚ
  nightFeeSpanBig : ℤ
  nightFeeRateBig : ℚ
  maxFee : ℚ
  maxFeeBig : ℚ
  parkPosition : ℤ := 0
  freeTimeSections : Option (List TimeSection) := none
  weekDay : Option ℤ := none
  invalidFlag : Option ℤ := none

def feeUnit (span : ℤ) : ℤ := if span = 0 then 1 else span

def handleQueryRule (row : RuleRow) : ChargeRule where
  id := row.nid
  priority := row.rulePriority
  daylightBegin := row.dayBegin
  nightBegin := row.nightBegin
  freeTimeLength := row.freeTimeLength.getD 0
  dayFeeUnit := feeUnit row.dayFeeSpan
  dayFeeRate := row.dayFeeRate
  dayFeeUnitBig := feeUnit row.dayFeeSpanBig
  dayFeeRateBig := row.dayFeeRateBig
  nightFeeUnit := feeUnit row.nightFeeSpan
  nightFeeRate := row.nightFeeRate
  nightFeeUnitBig := feeUnit row.nightFeeSpanBig
  nightFeeRateBig := row.nightFeeRateBig
  maxFee := row.maxFee
  maxFeeBig := row.maxFeeBig
  freeTimeSections := row.freeTimeSections.getD []
  parkPosition := row.parkPosition
  invalidFlag := row.invalidFlag

/-- The point in time that a query date denotes in a comparison. -/
def queryTime : QueryDate → ℤ
  | .localTime t => t
  | .date d => ptime d 0

/-- `dayofweek`, with 1 for Sunday. Day 0 is 1970-01-01, a Thursday. -/
def dayOfWeek (q : QueryDate) : ℤ := (dateOf (queryTime q) + 4) % 7 + 1

def minPriority (rows : List RuleRow) : Option ℤ := (rows.map (·.rulePriority)).min?

def usable (pos : ℤ) (row : RuleRow) : Bool :=
  row.parkPosition = pos && (row.invalidFlag.isNone || row.invalidFlag = some 1)

def inFestival (q : QueryDate) (row : RuleRow) : Bool :=
  match row.festivalBeginTime, row.festivalEndTime with
  | some b, some e => b ≤ queryTime q && queryTime q ≤ e
  | _, _ => false

def applies (rows : List RuleRow) (q : QueryDate) (row : RuleRow) : Bool :=
  minPriority rows = some row.rulePriority || row.weekDay = some (dayOfWeek q) ||
    dayOfWeek q = 1 || dayOfWeek q = 7 || inFestival q row

/-- `order by rule_priority desc limit 1`. Among rows of one priority the first stands. -/
def highestPriority : List RuleRow → Option RuleRow
  | [] => none
  | row :: rows => match highestPriority rows with
    | none => some row
    | some best => if best.rulePriority ≤ row.rulePriority then some row else some best

def queryChargeRule (rows : List RuleRow) (q : QueryDate) (pos : ℤ) : Option ChargeRule :=
  (highestPriority (rows.filter fun row => applies rows q row && usable pos row)).map handleQueryRule

/-- Only a result of exactly one row is read as a rule. -/
def queryMinPriorityRule (rows : List RuleRow) (pos : ℤ) : Option ChargeRule :=
  match rows.filter fun row => minPriority rows = some row.rulePriority && usable pos row with
  | [row] => some (handleQueryRule row)
  | _ => none

def tableSource (rows : List RuleRow) : RuleSource :=
  ⟨queryChargeRule rows, queryMinPriorityRule rows⟩

theorem queryChargeRule_singleton (row : RuleRow) (q : QueryDate) (pos : ℤ) :
    (tableSource [row]).queryChargeRule q pos = if usable pos row then some (handleQueryRule row) else none := by
  have ha : applies [row] q row = true := by simp [applies, minPriority]
  show queryChargeRule [row] q pos = _
  rw [queryChargeRule]
  by_cases hu : usable pos row = true
  · simp [ha, hu, highestPriority]
  · simp [hu, highestPriority]

theorem queryMinPriorityRule_singleton (row : RuleRow) (pos : ℤ) :
    (tableSource [row]).queryMinPriorityRule pos = if usable pos row then some (handleQueryRule row) else none := by
  show queryMinPriorityRule [row] pos = _
  rw [queryMinPriorityRule]
  by_cases hu : usable pos row = true
  · simp [hu, minPriority]
  · simp [hu]

/-- A price list of one unit an hour by day and night, with the given free sections. -/
def hourlyRow (sections : List TimeSection) : RuleRow where
  dayBegin := minutes 480
  nightBegin := minutes 1200
  dayFeeSpan := 60
  dayFeeRate := 1
  dayFeeSpanBig := 60
  dayFeeRateBig := 1
  nightFeeSpan := 60
  nightFeeRate := 1
  nightFeeSpanBig := 60
  nightFeeRateBig := 1
  maxFee := 10
  maxFeeBig := 10
  freeTimeSections := some sections

end BitPark.RuleTable
