import BitPark.Passage

namespace BitPark.StatementRecords

open BitPark.Effect BitPark.Server BitPark.Decimal BitPark.FloatText BitPark.Members BitPark.Passage
open BitPark.RemainMoney hiding updateStoredValue
open BitPark.Database (debited updateStoredValue)
open BitPark.Statements (Number Call)

/-! The records of the server as the arguments of their statements. -/

/-- A `float` as it is printed into a statement. -/
def number (x : ℚ) : Number := ⟨general (toFloat x), general_unquoted _⟩

/-- What the server puts into the table for a number. -/
theorem readNumber_number (x : ℚ) : readNumber (number x).text = some (written x) := readNumber_general (toFloat x)

/-- The record of a charge; the detail is the text of the JSON writer. -/
def chargeRecord (write : Tariff.Bill ⊕ Json.Value → Bytes) (record : ChargeRecord) : Statements.ChargeRecord where
  exitId := bytes record.exitId
  enterId := bytes record.enterId
  charge := number record.charge
  actualCharge := number record.actualCharge
  discount := number record.discount
  payType := record.payType
  user := bytes record.user
  parkingType := record.parkingType
  exitType := record.exitType
  exitComment := bytes record.exitComment
  chargeDetail := (record.chargeDetail.map write).getD []
  remainMoney := record.remainMoney.map number

/-- The four numbers of a charge arrive with six digits; a balance that is not there as zero. -/
theorem chargeRecord_numbers (write : Tariff.Bill ⊕ Json.Value → Bytes) (record : ChargeRecord) :
    readNumber (chargeRecord write record).charge.text = some (written record.charge) ∧
    readNumber (chargeRecord write record).actualCharge.text = some (written record.actualCharge) ∧
    readNumber (chargeRecord write record).discount.text = some (written record.discount) ∧
    readNumber ((chargeRecord write record).remainMoney.getD Statements.zero).text =
      some (written (record.remainMoney.getD 0)) := by
  refine ⟨readNumber_number _, readNumber_number _, readNumber_number _, ?_⟩
  cases hr : record.remainMoney with
  | some money =>
    rw [chargeRecord, hr]
    exact readNumber_number money
  | none =>
    have hzero : readNumber Statements.zero.text = some 0 := by decide +kernel
    rw [chargeRecord, hr, Option.getD_none, written_zero]
    exact hzero

/-- The record of a passage. -/
def passVehicle (info : PassRecord) : Statements.PassVehicle where
  plateType := info.plateType
  plateNumber1 := bytes info.plateNumber1
  plateNumber2 := bytes info.plateNumber2
  plateColor := info.plateColor
  passDirection := info.passDirection
  pictureUrl1 := info.pictureUrl1
  pictureUrl2 := info.pictureUrl2
  vehicleColor := bytes info.vehicleColor
  vehicleType := info.vehicleType
  vehicleSubtype := info.vehicleSubtype
  deviceId := bytes info.deviceId
  platePosition := info.platePosition

/-- The texts that the insertion of a passage is known by are strings of its statement. -/
theorem texts_quoted (info : PassRecord) (nid t : Bytes) (parkingType : ℤ) :
    ∀ s ∈ info.texts, bytes s ∈ (Call.insertPassVehicleInfo nid (passVehicle info) t parkingType).strings := by
  simp [PassRecord.texts, Call.strings, passVehicle]

/-- The balance that an update leaves is the one that is read in its text. -/
theorem updateStoredValue_text (env : Env) (vipId : String) (money : ℚ) (w w' : World) (a : Unit)
    (h : run (updateStoredValue env vipId money) w = (.ok a, w')) :
    ∃ set, writtenMoney (SqlText.render (RemainMoney.updateStoredValue (bytes vipId) money)) = some set ∧
      w' = debited vipId set w :=
  ⟨written money, writtenMoney_updateStoredValue (bytes vipId) money, execute_returned _ _ _ _ _ _ h⟩

end BitPark.StatementRecords
