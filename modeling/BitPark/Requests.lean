import BitPark.Release

namespace BitPark.Requests

open BitPark.Effect BitPark.Server BitPark.Database BitPark.Devices BitPark.Charging BitPark.Members

/-! The connection table. -/

def findUser (hdl : Handle) : Proc User := do
  let w ← state
  match w.sessions.lookup hdl with
  | some s => pure s.user
  | none => raise (.other "Do Not Find User")

def sendResponse (r : Response) : Proc Unit := update fun w => { w with responses := w.responses ++ [r] }

def respond (hdl : Handle) (cmdType : String) (body : List (String × Json.Value)) : Proc Unit :=
  sendResponse { handle := hdl, cmdType, ok := true, body }

def addConnectionUser (env : Env) (hdl : Handle) (user : User) : Proc Unit := do
  let ip ← ofExcept (env.remoteIp hdl)
  update fun w => { w with sessions := (hdl, { user, ip }) :: w.sessions.filter (·.1 ≠ hdl) }

def eraseConnection (hdl : Handle) : Proc Unit :=
  update fun w => { w with sessions := w.sessions.filter (·.1 ≠ hdl) }

def closeConnection (hdl : Handle) : Proc Unit := eraseConnection hdl

def Session.bindDevice (s : Session) (direction : ℤ) (deviceId : String) : Session :=
  if direction = passIn then { s with bindIn := deviceId }
  else if direction = passOut then { s with bindOut := deviceId }
  else s

def bindDevice (hdl : Handle) (direction : ℤ) (deviceId : String) : Proc Unit :=
  update fun w => { w with sessions := w.sessions.map fun s =>
    if s.1 = hdl then (s.1, Session.bindDevice s.2 direction deviceId) else s }

def getClientAddress (hdl : Handle) : Proc String := do
  let w ← state
  pure ((w.sessions.lookup hdl).elim "" (·.ip))

/-! Reading a request. -/

def readMember (json : Json.Value) (key : String) : Proc Json.Value := ofExcept (json.member key)

def readString (json : Json.Value) (key : String) : Proc String := do
  let v ← readMember json key
  ofExcept v.asString

def readInt (json : Json.Value) (key : String) : Proc ℤ := do
  let v ← readMember json key
  ofExcept v.asInt

def readDouble (json : Json.Value) (key : String) : Proc ℚ := do
  let v ← readMember json key
  ofExcept v.asDouble

def readFloat (json : Json.Value) (key : String) : Proc ℚ := do
  let v ← readMember json key
  ofExcept v.asFloat

/-- Two texts of a request against two expected ones; the second is only read
if the first agrees. -/
def bothAgree (json : Json.Value) (key1 expected1 key2 expected2 : String) : Proc Bool := do
  let text1 ← readString json key1
  if text1 = expected1 then
    let text2 ← readString json key2
    pure (text2 = expected2)
  else pure false

def listJson (rows : List Json.Value) : Json.Value := if rows = [] then .null else .array rows

/-! The handlers of the commands. -/

def queryUser (env : Env) (id : String) : Proc (Option User) :=
  query env ⟨.select, .userInfo, id⟩ fun w => onlyRow ((w.users.filter (·.user = id)).map some) none

def userJson (u : User) : List (String × Json.Value) :=
  [("User", .string u.user), ("Name", .string u.name)] ++ u.phone.toList.map (fun s => ("Phone", .string s)) ++
    u.description.toList.map (fun s => ("Description", .string s)) ++
    u.authority.toList.map fun s => ("Authority", .string s)

def refuseLogin (hdl : Handle) : Proc Unit := do
  sendResponse { handle := hdl, cmdType := "LoginResponse", ok := false,
                 errorCode := some ErrorCode.invalidUserPassword.value,
                 errorInfo := some ErrorCode.invalidUserPassword.message }
  closeConnection hdl

def acceptLogin (env : Env) (hdl : Handle) (user : User) : Proc Unit := do
  addConnectionUser env hdl user
  respond hdl "LoginResponse" (userJson user)

def onLogin (env : Env) (hdl : Handle) (json : Json.Value) : Proc Unit := do
  let id ← readString json "User"
  let found ← queryUser env id
  match found with
  | none => refuseLogin hdl
  | some user =>
    if ← bothAgree json "User" user.user "Password" user.password then acceptLogin env hdl user
    else refuseLogin hdl

def onLogout (hdl : Handle) : Proc Unit := do
  let _ ← findUser hdl
  respond hdl "LogoutResponse" []
  closeConnection hdl
  eraseConnection hdl

def insertShiftLog (env : Env) (json : Json.Value) : Proc Unit := do
  let _ ← generateUUID env
  let current ← readString json "CurrentUser"
  let _ ← readString json "NextUser"
  statement env ⟨.insert, .dutyInfo, current⟩

def shiftTo (env : Env) (hdl : Handle) (json : Json.Value) (user : User) : Proc Unit := do
  addConnectionUser env hdl user
  insertShiftLog env json
  respond hdl "ShiftResponse" (userJson user)

def onShift (env : Env) (hdl : Handle) (json : Json.Value) : Proc Unit := do
  let user ← findUser hdl
  let _ ← readMember json "NextUser"
  if ← bothAgree json "CurrentUser" user.user "CurrentPassword" user.password then
    let nextId ← readString json "NextUser"
    let found ← queryUser env nextId
    match found with
    | none => throwErr .invalidUserPassword
    | some next =>
      if ← bothAgree json "NextUser" next.user "NextPassword" next.password then shiftTo env hdl json next
      else throwErr .invalidUserPassword
  else throwErr .invalidUserPassword

def gatewayJson (g : Gateway) : Json.Value :=
  .object [("ID", .string g.id), ("Name", .string g.name), ("Type", .int g.type), ("Park", .string g.park)]

def onQueryGateway (env : Env) (hdl : Handle) : Proc Unit := do
  let _ ← findUser hdl
  let gateways ← query env ⟨.select, .gateInfo, ""⟩ (·.gateways)
  respond hdl "QueryGatewayResponse" [("List", listJson (gateways.map gatewayJson))]

def deviceJson (d : Device) : Json.Value :=
  .object [("ID", .string d.deviceId), ("Name", .string d.deviceName), ("Gateway", .string d.gatewayId),
           ("Type", .int d.type), ("IP", .string d.ip), ("Port", .int d.port)]

def devicesFor (env : Env) (address : String) : Proc (List Device) := do
  let bound ← query env ⟨.select, .equipInfo, address⟩ fun w => w.equips.filter (·.bindIp = address)
  if bound = [] then query env ⟨.select, .equipInfo, ""⟩ (·.equips) else pure bound

def onQueryDevice (env : Env) (hdl : Handle) : Proc Unit := do
  let _ ← findUser hdl
  let address ← getClientAddress hdl
  let devices ← devicesFor env address
  respond hdl "QueryDeviceResponse" [("List", listJson (devices.map deviceJson))]

/-- A condition of the search that is only read where it is given. -/
def optionalText (json : Json.Value) (key : String) : Proc (Option String) := do
  let v ← readMember json key
  if v.isNull then pure none
  else
    let s ← ofExcept v.asString
    pure (some s)

def queryParkingVehicle (env : Env) (json : Json.Value) : Proc Json.Value := do
  let _ ← readMember json "PlateNumber"
  let _ ← optionalText json "StartTime"
  let _ ← optionalText json "EndTime"
  let _ ← optionalText json "VehicleColor"
  let rows ← query env ⟨.select, .innerCars, "QueryParkingVehicle"⟩ fun w => env.parkingVehicles w json
  ofExcept rows

def onQueryParkingvehicle (env : Env) (hdl : Handle) (json : Json.Value) : Proc Unit := do
  let _ ← findUser hdl
  let vehicles ← queryParkingVehicle env json
  respond hdl "QueryParkingVehicleResponse" [("EnterVehicleList", vehicles)]

def modifyPlateNumber (env : Env) (passId plate : String) : Proc Unit :=
  execute env ⟨.update, .detectInfo, passId⟩ fun w =>
    { w with detects := w.detects.map fun d => if d.passId = passId then { d with plateNumber1 := plate } else d }

def onRevisePlate (env : Env) (hdl : Handle) (json : Json.Value) : Proc Unit := do
  let _ ← findUser hdl
  let passId ← readString json "PassID"
  let plate ← readString json "PlateNumber"
  modifyPlateNumber env passId plate
  respond hdl "RevisePlateResponse" []

def showCharge (env : Env) (deviceIp : String) (charge : ℚ) : Proc Unit := tolerate do
  if charge = 0 then
    ledShowCharge env deviceIp charge (some ledShowChargeTime)
    operateGateway env deviceIp bgcOpen bgmAuto
  else ledShowCharge env deviceIp charge none

def matchPlates (env : Env) (hdl : Handle) (enter exit : PassVehicle) : Proc Unit := do
  let dev ← queryDeviceByID env exit.deviceId
  let c ← handleCharge env enter exit
  showCharge env dev.ip c.json.requireCharge
  sendResponse { handle := hdl, cmdType := "MatchPlateResponse", ok := true, charge := some c.json }

def onMatchPlate (env : Env) (hdl : Handle) (json : Json.Value) : Proc Unit := do
  let _ ← findUser hdl
  let enterId ← readString json "EnterID"
  let exitId ← readString json "ExitID"
  if enterId = "" ∨ exitId = "" then throwErr .matchPlatenumber
  else
    let enter ← queryPassVehicleByID env enterId
    let exit ← queryPassVehicleByID env exitId
    if enter.passTime = 0 ∨ exit.passTime = 0 then throwErr .invalidPassvehicleRecord
    else matchPlates env hdl enter exit

def insertGatewayOperationLog (env : Env) (deviceId : String) : Proc Unit := do
  let _ ← generateUUID env
  statement env ⟨.insert, .gateOperateInfo, deviceId⟩

def onOperateGateway (env : Env) (hdl : Handle) (json : Json.Value) : Proc Unit := do
  let _ ← findUser hdl
  let deviceId ← readString json "DeviceID"
  let dev ← queryDeviceByID env deviceId
  if dev.deviceId = "" then throwErr .notFindGatewayDevice
  else
    let action ← readInt json "ActionType"
    operateGateway env dev.ip action bgmManual
    let _ ← readString json "PassID"
    insertGatewayOperationLog env deviceId
    respond hdl "OperateGatewayResponse" []

/-- The bill of a request and the discount it states. -/
def readBill (json : Json.Value) : Proc (Option Json.Value × ℚ) := do
  let bill ← readMember json "Bill"
  if bill.isNull then pure (none, 1)
  else
    let discount ← readFloat bill "Discount"
    pure (some bill, discount)

def storedMoney (env : Env) (parkingType : ℤ) (plate : String) : Proc (Option ℚ) := do
  if parkingType = storedValueParking then
    let vip ← queryVIPVehicle env plate
    pure (some (vip.getD {}).remainMoney)
  else pure none

def checkoutRecord (env : Env) (json : Json.Value) (user : User) (enterId exitId : String)
    (exit : PassVehicle) : Proc ChargeRecord := do
  let bill ← readBill json
  let charge ← readFloat json "Charge"
  let actualCharge ← readFloat json "ActualCharge"
  let payType ← readInt json "PayType"
  let parkingType ← readInt json "ParkingType"
  let exitType ← readInt json "ExitType"
  let exitComment ← readString json "ExitComment"
  let remainMoney ← storedMoney env parkingType exit.plateNumber1
  pure { exitId, enterId, charge, actualCharge, payType, user := user.user, parkingType, exitType, exitComment,
         chargeDetail := bill.1.map .inr, discount := bill.2, remainMoney }

def chargeIdOf (env : Env) (json : Json.Value) : Proc String := do
  let id ← readString json "ChargeID"
  if id = "" then generateUUID env else pure id

def noEntry : String := "无入场记录"

def deleteUnlessNoEntry (env : Env) (exitComment enterId : String) : Proc Unit :=
  if exitComment ≠ noEntry then deleteTemporaryPassrecord env enterId else pure ()

/-- What follows the deletion: the gate of the exit is opened. -/
def openExit (env : Env) (exitId : String) : Proc Unit := do
  let dev ← queryDeviceByPassID env exitId
  if dev.deviceId = "" then throwErr .notFindGatewayDevice
  else
    operateGateway env dev.ip bgcOpen bgmAuto
    showLedAfterCharge env dev.ip

/-- The first part of a checkout, up to the insertion of its record. -/
def recordCheckout (env : Env) (hdl : Handle) (json : Json.Value) : Proc ChargeRecord := do
  let user ← findUser hdl
  let enterId ← readString json "EnterID"
  let exitId ← readString json "ExitID"
  let exit ← queryPassVehicleByID env exitId
  let record ← checkoutRecord env json user enterId exitId exit
  let chargeId ← chargeIdOf env json
  insertChargeRecord env chargeId record
  pure record

def finishCheckout (env : Env) (record : ChargeRecord) : Proc Unit := do
  deleteUnlessNoEntry env record.exitComment record.enterId
  openExit env record.exitId

def onCheckout (env : Env) (hdl : Handle) (json : Json.Value) : Proc Unit := do
  let record ← recordCheckout env hdl json
  finishCheckout env record
  respond hdl "CheckoutResponse" []

def onQueryParkingnumber (env : Env) (hdl : Handle) : Proc Unit := do
  let _ ← findUser hdl
  let number ← queryParkingNumber env
  respond hdl "QueryParkingNumberResponse"
    [("TotalParkingNumber", .int number.totalParking), ("RemainParkingNumber", .int number.remainParking)]

def greetingOf (env : Env) (device : Device) : Proc String :=
  if device.type = parkEntrance then queryEntranceGreeting env
  else if device.type = parkExit then queryExitGreeting env
  else pure ""

def unlockAndGreet (env : Env) (deviceId : String) : Proc Unit := tolerate do
  let device ← queryDeviceByID env deviceId
  unlockDevice env device.ip
  let greeting ← greetingOf env device
  if greeting ≠ "" then ledShowGreeting env device.ip greeting else pure ()

def onBindDevice (env : Env) (hdl : Handle) (json : Json.Value) : Proc Unit := do
  let _ ← findUser hdl
  let deviceId ← readString json "DeviceID"
  let direction ← readInt json "PassDirection"
  bindDevice hdl direction deviceId
  unlockAndGreet env deviceId
  respond hdl "BindDeviceResponse" []

/-- The display of the vehicle that passes. -/
def showPassing (env : Env) (json : Json.Value) (deviceIp plate : String) (direction : ℤ) : Proc Unit := do
  if direction = passIn then ledShowPlateNumber env deviceIp plate
  else if direction = passOut then
    let charge ← readDouble json "Charge"
    ledShowCharge env deviceIp charge (if charge = 0 then some ledShowChargeTime else none)
  else throwErr .invalidDirection

def openIfAsked (env : Env) (json : Json.Value) (deviceIp : String) : Proc Unit := do
  let openGate ← readInt json "OpenGate"
  if openGate = 1 then operateGateway env deviceIp bgcOpen bgmAuto else pure ()

def onOperateDevice (env : Env) (hdl : Handle) (json : Json.Value) : Proc Unit := do
  let _ ← findUser hdl
  let deviceId ← readString json "DeviceID"
  let deviceIp ← queryDeviceIPByID env deviceId
  if deviceIp = "" then throwErr .notFindGatewayDevice
  else
    let direction ← readInt json "PassDirection"
    let plate ← readString json "PlateNumber"
    showPassing env json deviceIp plate direction
    openIfAsked env json deviceIp
    respond hdl "OperateDeviceResponse" []

def onLockDevice (env : Env) (hdl : Handle) (json : Json.Value) : Proc Unit := do
  let _ ← findUser hdl
  let deviceId ← readString json "DeviceID"
  let deviceIp ← queryDeviceIPByID env deviceId
  if deviceIp = "" then throwErr .notFindGatewayDevice
  else
    lockDevice env deviceIp
    respond hdl "LockDeviceResponse" []

/-- The items are read one after the other. -/
def matchNids (nids : Json.Value) : Proc Unit :=
  forEach (List.range nids.size) fun i => do
    let v ← ofExcept (nids.item i)
    let _ ← ofExcept v.asString

def onEscRecord (env : Env) (hdl : Handle) (json : Json.Value) : Proc Unit := do
  let user ← findUser hdl
  let _ ← readString json "Time"
  let _ ← readString json "LeaveNid"
  let nids ← readMember json "MatchNids"
  matchNids nids
  let _ ← readDouble json "CaclFee"
  let _ ← generateUUID env
  statement env ⟨.insert, .unusualRecord, user.user⟩
  respond hdl "EscRecordResponse" []

theorem findUser_returned (hdl : Handle) (w t : World) (user : User) (h : run (findUser hdl) w = (.ok user, t)) :
    (∃ s, w.sessions.lookup hdl = some s) ∧ t = w := by
  have hrun : run (findUser hdl) w = run (match w.sessions.lookup hdl with
    | some s => (pure s.user : Proc User)
    | none => raise (.other "Do Not Find User")) w := rfl
  rw [hrun] at h
  cases hl : w.sessions.lookup hdl with
  | some s =>
    rw [hl] at h
    cases h
    exact ⟨⟨s, rfl⟩, rfl⟩
  | none =>
    rw [hl] at h
    cases h

theorem run_findUser (hdl : Handle) (w : World) (s : Session) (h : w.sessions.lookup hdl = some s) :
    run (findUser hdl) w = (.ok s.user, w) := by
  have hrun : run (findUser hdl) w = run (match w.sessions.lookup hdl with
    | some s => (pure s.user : Proc User)
    | none => raise (.other "Do Not Find User")) w := rfl
  rw [hrun, h]
  rfl

/-! What a request says under a key. -/

def text (json : Json.Value) (key : String) : Except String String := json.member key >>= Json.Value.asString
def integer (json : Json.Value) (key : String) : Except String ℤ := json.member key >>= Json.Value.asInt
def number (json : Json.Value) (key : String) : Except String ℚ := json.member key >>= Json.Value.asFloat

theorem readString_eq (json : Json.Value) (key : String) : readString json key = ofExcept (text json key) :=
  ofExcept_bind _ _

theorem readInt_eq (json : Json.Value) (key : String) : readInt json key = ofExcept (integer json key) :=
  ofExcept_bind _ _

theorem readFloat_eq (json : Json.Value) (key : String) : readFloat json key = ofExcept (number json key) :=
  ofExcept_bind _ _

section Frame

variable {R : World → World → Prop} [IsPreorder World R]

theorem steps_findUser (hdl : Handle) : Steps R (findUser hdl) := by
  refine steps_bind steps_state fun w => ?_
  cases w.sessions.lookup hdl with
  | some s => exact steps_pure _
  | none => exact steps_raise _

variable (json : Json.Value)

theorem steps_readMember (key : String) : Steps R (readMember json key) := steps_ofExcept _

theorem steps_readString (key : String) : Steps R (readString json key) :=
  steps_bind (steps_readMember json key) fun _ => steps_ofExcept _

theorem steps_readInt (key : String) : Steps R (readInt json key) :=
  steps_bind (steps_readMember json key) fun _ => steps_ofExcept _

theorem steps_readDouble (key : String) : Steps R (readDouble json key) :=
  steps_bind (steps_readMember json key) fun _ => steps_ofExcept _

theorem steps_readFloat (key : String) : Steps R (readFloat json key) :=
  steps_bind (steps_readMember json key) fun _ => steps_ofExcept _

theorem steps_bothAgree (key1 expected1 key2 expected2 : String) :
    Steps R (bothAgree json key1 expected1 key2 expected2) :=
  steps_bind (steps_readString json key1) fun _ => steps_ite _
    (steps_bind (steps_readString json key2) fun _ => steps_pure _) (steps_pure _)

theorem steps_optionalText (key : String) : Steps R (optionalText json key) :=
  steps_bind (steps_readMember json key) fun _ => steps_ite _ (steps_pure _)
    (steps_bind (steps_ofExcept _) fun _ => steps_pure _)

theorem steps_matchNids (nids : Json.Value) : Steps R (matchNids nids) :=
  steps_forEach _ _ fun _ _ => steps_bind (steps_ofExcept _) fun _ => steps_bind (steps_ofExcept _) fun _ =>
    steps_pure _

theorem steps_queryParkingVehicle (env : Env) : Steps R (queryParkingVehicle env json) :=
  steps_bind (steps_readMember json _) fun _ => steps_bind (steps_optionalText json _) fun _ =>
    steps_bind (steps_optionalText json _) fun _ => steps_bind (steps_optionalText json _) fun _ =>
      steps_bind (steps_query env _ _) fun _ => steps_ofExcept _

theorem steps_devicesFor (env : Env) (address : String) : Steps R (devicesFor env address) :=
  steps_bind (steps_query env _ _) fun _ => steps_ite _ (steps_query env _ _) (steps_pure _)

theorem steps_checkoutRecord (env : Env) (user : User) (enterId exitId : String) (exit : PassVehicle) :
    Steps R (checkoutRecord env json user enterId exitId exit) := by
  have hbill : Steps R (readBill json) :=
    steps_bind (steps_readMember json _) fun bill => steps_ite _ (steps_pure _)
      (steps_bind (steps_readFloat bill _) fun _ => steps_pure _)
  refine steps_bind hbill fun _ => steps_bind (steps_readFloat json _) fun _ =>
    steps_bind (steps_readFloat json _) fun _ => steps_bind (steps_readInt json _) fun _ =>
      steps_bind (steps_readInt json _) fun _ => steps_bind (steps_readInt json _) fun _ =>
        steps_bind (steps_readString json _) fun _ => steps_bind ?_ fun _ => steps_pure _
  exact steps_ite _ (steps_bind (steps_query env _ _) fun _ => steps_pure _) (steps_pure _)

theorem steps_chargeIdOf (env : Env) (h : ∀ w n, R w { w with ids := n }) : Steps R (chargeIdOf env json) :=
  steps_bind (steps_readString json _) fun _ => steps_ite _ (steps_generateUUID env h) (steps_pure _)

variable (hs : ∀ w c, R w { w with sent := w.sent ++ [c] }) (env : Env)
include hs

theorem steps_showCharge (ip : String) (charge : ℚ) : Steps R (showCharge env ip charge) :=
  steps_tolerate (steps_ite _ (steps_bind (steps_dtsOperate hs env ip _) fun _ => steps_dtsOperate hs env ip _)
    (steps_dtsOperate hs env ip _))

theorem steps_openExit (exitId : String) : Steps R (openExit env exitId) :=
  steps_bind (steps_query env _ _) fun _ => steps_ite _ (steps_raise _)
    (steps_bind (steps_dtsOperate hs env _ _) fun _ => steps_showLedAfterCharge hs env _)

theorem steps_finishCheckout (hb : ∀ w l, R w { w with innerCars := l }) (record : ChargeRecord) :
    Steps R (finishCheckout env record) := by
  have hdelete : Steps R (deleteUnlessNoEntry env record.exitComment record.enterId) :=
    steps_ite _ (steps_ite _ (steps_bind (steps_execute env _ _ fun w => hb w _) fun _ =>
      steps_refreshEntranceLeds hs env) (steps_pure ())) (steps_pure ())
  exact steps_bind hdelete fun _ => steps_openExit hs env _

theorem steps_unlockAndGreet (deviceId : String) : Steps R (unlockAndGreet env deviceId) :=
  steps_tolerate <| steps_bind (steps_query env _ _) fun _ => steps_bind (steps_dtsOperate hs env _ _) fun _ =>
    steps_bind (steps_ite _ (steps_query env _ _) (steps_ite _ (steps_query env _ _) (steps_pure _))) fun _ =>
      steps_ite _ (steps_dtsOperate hs env _ _) (steps_pure _)

theorem steps_showPassing (ip plate : String) (direction : ℤ) :
    Steps R (showPassing env json ip plate direction) :=
  steps_ite _ (steps_dtsOperate hs env ip _) <| steps_ite _
    (steps_bind (steps_readDouble json _) fun _ => steps_dtsOperate hs env ip _) (steps_raise _)

theorem steps_openIfAsked (ip : String) : Steps R (openIfAsked env json ip) :=
  steps_bind (steps_readInt json _) fun _ => steps_ite _ (steps_dtsOperate hs env ip _) (steps_pure _)

end Frame

end BitPark.Requests
