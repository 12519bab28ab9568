import BitPark.DetectRow
import BitPark.MatchScore
import BitPark.StableSort

namespace BitPark.ParkingVehicles

open BitPark.DetectRow BitPark.MatchScore BitPark.StableSort BitPark.Fallible
open BitPark.PictureFiles (cString)
open BitPark.Members (bytes)

/-! The answer to a search for parked vehicles, from the rows of its statement. -/

/-- A column that holds valid UTF-8. -/
def utf8Text (column : List UInt8) : Option String := String.fromUTF8? ⟨column.toArray⟩

section Search

variable {Time : Type} [LinearOrder Time] (towupper : Char → Char) (dateTime : List UInt8 → Time)

/-- The score of a plate with a text of a column. -/
def score (plate : String) (carno : List UInt8) : ℕ := matchscore towupper plate ((utf8Text carno).getD "")

theorem utf8Text_bytes (text : String) : utf8Text (bytes text) = some text := by
  rw [utf8Text, bytes, Array.toArray_toList]
  exact dif_pos text.isValidUTF8

theorem score_bytes (plate text : String) : score towupper plate (bytes text) = matchscore towupper plate text := by
  rw [score, utf8Text_bytes, Option.getD_some]

/-- The body of the loop over the rows. -/
def scoredRecord (plateNumber : Json.Value) (row : Row) : Except String (ℕ × ParkingRecord) := do
  let record ← readParkingVehicle row
  if plateNumber.isNull then pure (0, record)
  else
    let plate ← plateNumber.asString
    pure (score towupper plate (cString row.carno), record)

def later (a b : ℕ × ParkingRecord) : Bool := dateTime a.2.passTime > dateTime b.2.passTime

def nearer (a b : ℕ × ParkingRecord) : Bool := a.1 < b.1

/-- The entries of the answer, from the first record to the end iterator. -/
def queryParkingVehicle (plateNumber : Json.Value) (rows : List Row) : Except String (List ParkingRecord) := do
  let records ← rows.mapM (scoredRecord towupper plateNumber)
  let records := sortBy (later dateTime) records
  if plateNumber.isNull then pure ((records.take records.length).map (·.2))
  else
    let removed := removeIf (fun v => v.1 > 2) (sortBy nearer records)
    pure ((removed.1.take removed.2).map (·.2))

/-- The columns can be read, and the plate is text. -/
structure WellFormed (row : Row) : Prop where
  read : ∃ record, readParkingVehicle row = .ok record
  carno : ∃ text, cString row.carno = bytes text

/-- From the latest to the earliest. -/
def LatestFirst (answer : List ParkingRecord) : Prop :=
  answer.Pairwise fun a b => dateTime b.passTime ≤ dateTime a.passTime

/-- From the lowest score to the highest, and from the latest to the earliest for each. -/
def NearestFirst (plate : String) (answer : List ParkingRecord) : Prop :=
  answer.Pairwise fun a b => score towupper plate a.plateNumber1 < score towupper plate b.plateNumber1 ∨
    score towupper plate a.plateNumber1 = score towupper plate b.plateNumber1 ∧
      dateTime b.passTime ≤ dateTime a.passTime

theorem plateNumber1_of_read (row : Row) (record : ParkingRecord) (h : readParkingVehicle row = .ok record) :
    record.plateNumber1 = cString row.carno := by
  rw [readParkingVehicle] at h
  obtain ⟨plateType, -, h⟩ := bind_ok h
  obtain ⟨passDirection, -, h⟩ := bind_ok h
  obtain ⟨plateColor, -, h⟩ := bind_ok h
  obtain ⟨platePosition, -, h⟩ := bind_ok h
  obtain ⟨vehicleType, -, h⟩ := bind_ok h
  obtain ⟨vehicleSubType, -, h⟩ := bind_ok h
  cases h
  rfl

/-- Without a plate every record has the score zero. -/
theorem scoredRecord_null (plateNumber : Json.Value) (hnull : plateNumber.isNull = true) (row : Row) :
    scoredRecord towupper plateNumber row = (readParkingVehicle row).map fun record => (0, record) := by
  rw [scoredRecord]
  cases readParkingVehicle row with
  | error e => rfl
  | ok record => exact if_pos hnull

theorem scoredRecord_plate (plateNumber : Json.Value) (plate : String) (hnull : plateNumber.isNull = false)
    (hplate : plateNumber.asString = .ok plate) (row : Row) :
    scoredRecord towupper plateNumber row =
      (readParkingVehicle row).map fun record => (score towupper plate record.plateNumber1, record) := by
  rw [scoredRecord, hplate]
  cases hread : readParkingVehicle row with
  | error e => rfl
  | ok record =>
    change (if plateNumber.isNull = true then _ else _) = _
    rw [if_neg (by simp [hnull]), ← plateNumber1_of_read row record hread]
    rfl

theorem later_iff (a b : ℕ × ParkingRecord) : later dateTime a b = true ↔
    OrderDual.toDual (dateTime a.2.passTime) < OrderDual.toDual (dateTime b.2.passTime) := by
  rw [later, decide_eq_true_iff, OrderDual.toDual_lt_toDual]

theorem nearer_iff (a b : ℕ × ParkingRecord) : nearer a b = true ↔ a.1 < b.1 := decide_eq_true_iff

theorem sorted_later (records : List (ℕ × ParkingRecord)) :
    (sortBy (later dateTime) records).Pairwise fun a b => dateTime b.2.passTime ≤ dateTime a.2.passTime :=
  sortBy_pairwise (fun a : ℕ × ParkingRecord => OrderDual.toDual (dateTime a.2.passTime)) _ (later_iff dateTime)
    records

/-- The two sorts one after the other. -/
theorem sorted_nearer (records : List (ℕ × ParkingRecord)) :
    (sortBy nearer (sortBy (later dateTime) records)).Pairwise fun a b =>
      a.1 < b.1 ∨ a.1 = b.1 ∧ dateTime b.2.passTime ≤ dateTime a.2.passTime :=
  sortBy_lex (fun a => a.1) nearer nearer_iff _ _ (sorted_later dateTime records)

theorem query_null (plateNumber : Json.Value) (hnull : plateNumber.isNull = true) (rows : List Row)
    (records : List ParkingRecord) (hrecords : readParkingVehicles rows = .ok records) :
    ∃ answer, queryParkingVehicle towupper dateTime plateNumber rows = .ok answer ∧ answer.Perm records ∧
      LatestFirst dateTime answer := by
  let scored := records.map fun record => (0, record)
  have hmapM : rows.mapM (scoredRecord towupper plateNumber) = .ok scored := by
    rw [funext (scoredRecord_null towupper plateNumber hnull), mapM_map, ← readParkingVehicles, hrecords]
    rfl
  refine ⟨(sortBy (later dateTime) scored).map (·.2), ?_, ?_, ?_⟩
  · rw [queryParkingVehicle, hmapM]
    change (if plateNumber.isNull = true then _ else _) = _
    rw [if_pos hnull, List.take_length]
    rfl
  · have hperm := (sortBy_perm (later dateTime) scored).map fun v : ℕ × ParkingRecord => v.2
    rwa [show scored.map (fun v => v.2) = records by simp [scored]] at hperm
  · rw [LatestFirst, List.pairwise_map]
    exact sorted_later dateTime scored

theorem query_plate (plateNumber : Json.Value) (plate : String) (hnull : plateNumber.isNull = false)
    (hplate : plateNumber.asString = .ok plate) (rows : List Row) (records : List ParkingRecord)
    (hrecords : readParkingVehicles rows = .ok records) :
    ∃ answer, queryParkingVehicle towupper dateTime plateNumber rows = .ok answer ∧
      answer.Perm (records.filter fun r => score towupper plate r.plateNumber1 ≤ 2) ∧
      NearestFirst towupper dateTime plate answer := by
  let scored := records.map fun record => (score towupper plate record.plateNumber1, record)
  let sorted := sortBy nearer (sortBy (later dateTime) scored)
  have hmapM : rows.mapM (scoredRecord towupper plateNumber) = .ok scored := by
    rw [funext (scoredRecord_plate towupper plateNumber plate hnull hplate), mapM_map, ← readParkingVehicles, hrecords]
    rfl
  have hperm : sorted.Perm scored := (sortBy_perm nearer _).trans (sortBy_perm (later dateTime) scored)
  refine ⟨(sorted.filter fun v => !decide (v.1 > 2)).map (·.2), ?_, ?_, ?_⟩
  · rw [queryParkingVehicle, hmapM]
    change (if plateNumber.isNull = true then _ else _) = _
    rw [if_neg (by simp [hnull]), take_removeIf]
    rfl
  · have hkept := (hperm.filter fun v => !decide (v.1 > 2)).map fun v : ℕ × ParkingRecord => v.2
    have hscored : (scored.filter fun v => !decide (v.1 > 2)).map (fun v => v.2) =
        records.filter fun r => score towupper plate r.plateNumber1 ≤ 2 := by
      have hkeeps : ∀ n : ℕ, (!decide (n > 2)) = decide (n ≤ 2) := fun n => Bool.eq_iff_iff.mpr (by simp)
      rw [List.filter_map, List.map_map]
      simp only [Function.comp_def, hkeeps, List.map_id']
    rwa [hscored] at hkept
  · -- every pair of the list has the score of its record
    have hscore : ∀ v ∈ sorted, v.1 = score towupper plate v.2.plateNumber1 := by
      intro v hv
      obtain ⟨record, -, rfl⟩ := List.mem_map.mp (hperm.mem_iff.mp hv)
      rfl
    rw [NearestFirst, List.pairwise_map]
    apply List.Pairwise.filter
    apply List.Pairwise.imp_of_mem _ (sorted_nearer dateTime scored)
    intro a b ha hb h
    rwa [hscore a ha, hscore b hb] at h

end Search

/-- Without a plate the answer has all rows, from the latest to the earliest.
With one it has the rows whose score is at most two, by their score and then
from the latest to the earliest. -/
theorem queryParkingVehicle_ordered {Time : Type} [LinearOrder Time] (towupper : Char → Char)
    (dateTime : List UInt8 → Time) (rows : List Row) (h : ∀ row ∈ rows, WellFormed row) :
    ∃ records, readParkingVehicles rows = .ok records ∧
      (∀ plateNumber : Json.Value, plateNumber.isNull = true →
        ∃ answer, queryParkingVehicle towupper dateTime plateNumber rows = .ok answer ∧ answer.Perm records ∧
          LatestFirst dateTime answer) ∧
      ∀ (plateNumber : Json.Value) (plate : String), plateNumber.isNull = false → plateNumber.asString = .ok plate →
        ∃ answer, queryParkingVehicle towupper dateTime plateNumber rows = .ok answer ∧
          answer.Perm (records.filter fun r => score towupper plate r.plateNumber1 ≤ 2) ∧
          NearestFirst towupper dateTime plate answer := by
  obtain ⟨records, hrecords⟩ := (mapM_ok_iff readParkingVehicle rows).mpr fun row hrow => (h row hrow).read
  refine ⟨records, hrecords, fun plateNumber hnull => ?_, fun plateNumber plate hnull hplate => ?_⟩
  · exact query_null towupper dateTime plateNumber hnull rows records hrecords
  · exact query_plate towupper dateTime plateNumber plate hnull hplate rows records hrecords

/-- A parked vehicle, with its plate and its time. -/
def parked (nid carno collectiondate : String) : Row where
  nid := Multipart.ascii nid
  licensetype := [50]
  carno := Multipart.ascii carno
  carnosecond := []
  devicecode := [49]
  direction := [57]
  cpic1path := []
  cpic2path := []
  platecolor := [50]
  platePosition := none
  carcolor := none
  carbrand := none
  carversion := none
  collectiondate := Multipart.ascii collectiondate

def twoParked : List Row := [parked "a" "B88888" "2015-08-19 10:00:00", parked "b" "C66666" "2015-08-19 10:00:30"]

theorem wellFormed_twoParked : ∀ row ∈ twoParked, WellFormed row := by
  rw [twoParked]
  simp only [List.forall_mem_cons]
  exact ⟨⟨⟨_, rfl⟩, "B88888", by decide⟩, ⟨⟨_, rfl⟩, "C66666", by decide⟩, List.forall_mem_nil _⟩

/-- The time of a text as its digits. -/
def digits (text : List UInt8) : ℕ := Decimal.digitsValue (text.filter Decimal.isDigit)

theorem queryParkingVehicle_twoParked : ∃ records, readParkingVehicles twoParked = .ok records ∧
    (∃ answer, queryParkingVehicle Char.toUpper digits .null twoParked = .ok answer ∧ answer.Perm records ∧
      LatestFirst digits answer) ∧
    ∃ answer, queryParkingVehicle Char.toUpper digits (.string "B88887") twoParked = .ok answer ∧
      answer.Perm (records.filter fun r => score Char.toUpper "B88887" r.plateNumber1 ≤ 2) ∧
      NearestFirst Char.toUpper digits "B88887" answer := by
  obtain ⟨records, hrecords, hall, hnear⟩ := queryParkingVehicle_ordered Char.toUpper digits twoParked
    wellFormed_twoParked
  exact ⟨records, hrecords, hall .null rfl, hnear (.string "B88887") "B88887" rfl rfl⟩

end BitPark.ParkingVehicles
