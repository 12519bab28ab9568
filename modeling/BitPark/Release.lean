import BitPark.Members
import BitPark.MaxElement

namespace BitPark.Release

open BitPark.Effect BitPark.Tariff BitPark.Server BitPark.Database BitPark.Devices BitPark.Charging BitPark.Members
  BitPark.MaxElement

def autoRelease : ℤ := 1
def manualRelease : ℤ := 2

def isEmptyPlate (plate : String) : Bool := plate = "" || plate = "无车牌"

def Session.hasBindDevice (s : Session) (deviceId : String) : Bool :=
  s.bindIn = deviceId || s.bindOut = deviceId

/-- The clients that are told before the first of them cannot be reached. -/
def reached (env : Env) (w : World) (deviceId : String) : List Handle :=
  ((w.sessions.filter fun s => Session.hasBindDevice s.2 deviceId).map (·.1)).takeWhile (!env.unreachable ·)

def notifyPassVehicle (env : Env) (notice : ExitNotice) (deviceId : String) : Proc Bool := do
  let w ← state
  update fun w => { w with notices := w.notices ++ (reached env w deviceId).map fun h => (h, notice) }
  pure !(reached env w deviceId).isEmpty

def insertCharge (env : Env) (enterId exitId : String) (parkingType : ℤ) (charge : ℚ) (payType exitType : ℤ)
    (exitComment : String) (bill : Option Bill) : Proc Unit := do
  let nid ← generateUUID env
  insertChargeRecord env nid { exitId, enterId, charge, actualCharge := 0, payType, user := "0", parkingType,
                               exitType, exitComment, discount := 1, chargeDetail := bill.map .inl }
  deleteTemporaryPassrecord env enterId

def clientOffline : String := "客户端不在线"

/-- An exit without an entry. -/
def releaseUnmatched (env : Env) (device : Device) (pass : PassVehicle) : Proc Unit := do
  let parkingType ← getParkingType env pass
  if ← notifyPassVehicle env { exitVehicle := pass, parkingType } device.deviceId then pure ()
  else
    autoOpenExitGateway env device.ip
    insertCharge env "" pass.passId temporaryVehicleParking 0 otherPay autoRelease clientOffline none

/-- What follows the settlement of an exit. -/
def finishRelease (env : Env) (device : Device) (enter pass : PassVehicle) (json : ChargeJson) : Proc Unit := do
  let charge := json.requireCharge
  if ← notifyPassVehicle env { exitVehicle := pass, enterVehicle := some enter, charge := some json,
                               parkingType := json.parkingType,
                               openGate := some (if charge = 0 then 1 else 0) } device.deviceId then pure ()
  else if charge = 0 then autoOpenExitGateway env device.ip
  else
    tolerate (ledShowCharge env device.ip charge (some 30))
    insertCharge env enter.passId pass.passId temporaryVehicleParking charge cashPay manualRelease
      clientOffline json.bill

def releaseMatched (env : Env) (device : Device) (enter pass : PassVehicle) : Proc Unit := do
  let c ← handleCharge env enter pass
  finishRelease env device enter pass c.json

/-- `std::max_element` by the time of passage: the first of the latest. -/
def latest : List PassVehicle → Option PassVehicle
  | [] => none
  | v :: vs => some (vs.foldl (fun best v => if best.passTime < v.passTime then v else best) v)

theorem latest_eq_maxElement (vehicles : List PassVehicle) : latest vehicles = maxElement (·.passTime) vehicles := by
  cases vehicles with
  | nil => rfl
  | cons v vs => rfl

def matchedEntry (env : Env) (pass : PassVehicle) : Proc (Option PassVehicle) :=
  if isEmptyPlate pass.plateNumber1 then pure none
  else do
    let enters ← queryEnterVehicle env pass.plateNumber1
    pure (latest enters)

/-- `ChargeRelease::Release` -/
def release (env : Env) (device : Device) (pass : PassVehicle) : Proc Unit :=
  if pass.passDirection = parkExit then do
    match ← matchedEntry env pass with
    | none => releaseUnmatched env device pass
    | some enter => releaseMatched env device enter pass
  else pure ()

section Frame

variable {R : World → World → Prop} [IsPreorder World R] (env : Env)

theorem steps_matchedEntry (pass : PassVehicle) : Steps R (matchedEntry env pass) :=
  steps_ite _ (steps_pure _) (steps_bind (steps_query env _ _) fun _ => steps_pure _)

variable (hb : Bookkeeping R)
include hb

theorem steps_notifyPassVehicle (notice : ExitNotice) (deviceId : String) :
    Steps R (notifyPassVehicle env notice deviceId) :=
  steps_bind steps_state fun _ => steps_bind (steps_update _ fun w => hb.notices w _) fun _ => steps_pure _

theorem steps_insertCharge (enterId exitId : String) (parkingType : ℤ) (charge : ℚ) (payType exitType : ℤ)
    (comment : String) (bill : Option Bill) :
    Steps R (insertCharge env enterId exitId parkingType charge payType exitType comment bill) :=
  steps_bind (steps_generateUUID env hb.ids) fun _ =>
    steps_bind (steps_insertChargeRecord hb env _ _) fun _ => steps_deleteTemporaryPassrecord hb env _

theorem steps_releaseUnmatched (device : Device) (pass : PassVehicle) :
    Steps R (releaseUnmatched env device pass) :=
  steps_bind (steps_getParkingType env pass) fun _ =>
    steps_bind (steps_notifyPassVehicle env hb _ _) fun _ => steps_ite _ (steps_pure _)
      (steps_bind (steps_autoOpenExitGateway hb.sent env _) fun _ => steps_insertCharge env hb _ _ _ _ _ _ _ _)

theorem steps_finishRelease (device : Device) (enter pass : PassVehicle) (json : ChargeJson) :
    Steps R (finishRelease env device enter pass json) :=
  steps_bind (steps_notifyPassVehicle env hb _ _) fun _ => steps_ite _ (steps_pure _) <|
    steps_ite _ (steps_autoOpenExitGateway hb.sent env _)
      (steps_bind (steps_tolerate (steps_dtsOperate hb.sent env _ _)) fun _ =>
        steps_insertCharge env hb _ _ _ _ _ _ _ _)

end Frame

end BitPark.Release
