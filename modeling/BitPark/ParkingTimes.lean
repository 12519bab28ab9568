import BitPark.Tariff

namespace BitPark.ParkingTimes

open BitPark.TimePeriod BitPark.Tariff

def sectionOn (date : ℤ) (s : TimeSection) : Period := ⟨ptime date s.begin, ptime date s.stop⟩

/-- Subtract one free period from the time spent in a list of periods. The
source follows each subtraction with `x.is_negative() ? minutes(0) : x;`, a
statement that assigns nothing. -/
def substrctFreePeriod (time : ℤ) (parts : List Period) (free : Period) : ℤ :=
  parts.foldl (fun t p => if p.intersects free then t - (p.intersection free).length else t) time

def substrctFreeTimeSection (time : ParkingTime) (date : ℤ) (daylight night : List Period)
    (rule : ChargeRule) : ParkingTime :=
  rule.freeTimeSections.foldl (fun time s =>
    ⟨substrctFreePeriod time.daylightTime daylight (sectionOn date s),
      substrctFreePeriod time.nightTime night (sectionOn date s)⟩) time

def nightPeriods (rule : ChargeRule) (today tomorrow : ℤ) : List Period :=
  [⟨ptime today 0, ptime today rule.daylightBegin⟩,
    ⟨ptime today rule.nightBegin, ptime tomorrow rule.daylightBegin⟩,
    ⟨ptime tomorrow rule.nightBegin, ptime tomorrow dayTicks⟩]

def daylightPeriods (rule : ChargeRule) (today tomorrow : ℤ) : List Period :=
  [⟨ptime today rule.daylightBegin, ptime today rule.nightBegin⟩,
    ⟨ptime tomorrow rule.daylightBegin, ptime tomorrow rule.nightBegin⟩]

/-- The sections of a stay that fall into given windows. -/
def parkPeriods (park : Period) (windows : List Period) : List Period :=
  (windows.filter (park.intersects ·)).map (park.intersection ·)

def totalLength (ps : List Period) : ℤ := (ps.map Period.length).sum

/-- Day and night time of a period of pattern 0 before free sections are taken off. -/
def grossParkingTime0 (park : Period) (today tomorrow : ℤ) (rule : ChargeRule) : ParkingTime :=
  ⟨totalLength (parkPeriods park (daylightPeriods rule today tomorrow)),
    totalLength (parkPeriods park (nightPeriods rule today tomorrow))⟩

def calInvalidParkingTime (park : Period) (today tomorrow : ℤ) (rule : ChargeRule) : ParkingTime :=
  let night := parkPeriods park (nightPeriods rule today tomorrow)
  let daylight := parkPeriods park (daylightPeriods rule today tomorrow)
  let time := grossParkingTime0 park today tomorrow rule
  let time := substrctFreeTimeSection time today daylight night rule
  substrctFreeTimeSection time tomorrow daylight night rule

/-! In pattern 1 a period lies in one date, and the source splits each free
section at the day and night boundaries by cases on where it lies. -/

def grossParkingTime1 (park : Period) (date : ℤ) (rule : ChargeRule) : ParkingTime :=
  ⟨park.overlap ⟨ptime date rule.daylightBegin, ptime date rule.nightBegin⟩,
    park.overlap ⟨ptime date 0, ptime date rule.daylightBegin⟩ +
      park.overlap ⟨ptime date rule.nightBegin, ptime date dayTicks⟩⟩

def addFreeSection (park : Period) (date : ℤ) (rule : ChargeRule) (free : ParkingTime)
    (s : TimeSection) : ParkingTime :=
  let calFreeTime (b e : ℤ) := park.overlap ⟨ptime date b, ptime date e⟩
  if s.begin < rule.daylightBegin then
    if s.stop ≤ rule.daylightBegin then
      ⟨free.daylightTime, free.nightTime + calFreeTime s.begin s.stop⟩
    else if rule.nightBegin < s.stop then
      ⟨free.daylightTime + calFreeTime rule.daylightBegin rule.nightBegin,
        free.nightTime + calFreeTime s.begin rule.daylightBegin + calFreeTime rule.nightBegin s.stop⟩
    else
      ⟨free.daylightTime + calFreeTime rule.daylightBegin s.stop,
        free.nightTime + calFreeTime s.begin rule.daylightBegin⟩
  else if s.begin < rule.nightBegin then
    if s.stop ≤ rule.nightBegin then
      ⟨free.daylightTime + calFreeTime s.begin s.stop, free.nightTime⟩
    else
      ⟨free.daylightTime + calFreeTime s.begin rule.nightBegin,
        free.nightTime + calFreeTime rule.nightBegin s.stop⟩
  else
    ⟨free.daylightTime, free.nightTime + calFreeTime s.begin s.stop⟩

/-- Day and night time of a period of pattern 1 after free sections are taken
off and before anything is borrowed. -/
def parkingTime1 (park : Period) (date : ℤ) (rule : ChargeRule) : ParkingTime :=
  let gross := grossParkingTime1 park date rule
  let free := rule.freeTimeSections.foldl (addFreeSection park date rule) ⟨0, 0⟩
  ⟨gross.daylightTime - free.daylightTime, gross.nightTime - free.nightTime⟩

end BitPark.ParkingTimes
