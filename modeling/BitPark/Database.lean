import BitPark.RemainMoney
import BitPark.Server

namespace BitPark.Database

open BitPark.Effect BitPark.Server
open BitPark.RemainMoney (toFloat written)

/-! The queries and updates of `database.cpp`, each one statement on the tables. -/

def queryConfig {α : Type} (env : Env) (key : String) (f : SysConfig → α) : Proc α :=
  query env ⟨.select, .sysConfig, key⟩ fun w => f w.config

def queryChargePattern (env : Env) : Proc ℤ := queryConfig env "charge_pattern" (·.chargePattern)
def queryFreeTimeMode (env : Env) : Proc ℤ := queryConfig env "freetime_mode" (·.freeTimeMode)
def queryEntranceGreeting (env : Env) : Proc String := queryConfig env "enter_greeting" (·.enterGreeting)
def queryExitGreeting (env : Env) : Proc String := queryConfig env "exit_greeting" (·.exitGreeting)
def queryLimitPlateType (env : Env) : Proc String := queryConfig env "limit_platetype" (·.limitPlateType)

def queryJudgeRemainParkingNumber (env : Env) : Proc ℤ :=
  queryConfig env "judge_remain_parking_number" (·.judgeRemainParkingNumber)

def queryWhitelistMatchMode (env : Env) : Proc ℤ :=
  queryConfig env "whitelist_match_mode" (·.whitelistMatchMode)

/-- A result of exactly one row is read; anything else is an empty object. -/
def onlyRow {α : Type} (rows : List α) (default : α) : α :=
  match rows with
  | [row] => row
  | _ => default

def parkEntrance : ℤ := 9
def parkExit : ℤ := 10

def queryEntranceDeviceList (env : Env) : Proc (List Device) :=
  query env ⟨.select, .equipInfo, "videofunc"⟩ fun w => w.equips.filter (·.type = parkEntrance)

def queryDeviceByID (env : Env) (id : String) : Proc Device :=
  query env ⟨.select, .equipInfo, id⟩ fun w => onlyRow (w.equips.filter (·.deviceId = id)) {}

def queryDeviceIPByID (env : Env) (id : String) : Proc String :=
  query env ⟨.select, .equipInfo, id⟩ fun w => ((w.equips.find? (·.deviceId = id)).map (·.ip)).getD ""

/-- The devices that reported the passage. -/
def devicesOfPass (w : World) (passId : String) : List Device :=
  (w.detects.filter (·.passId = passId)).flatMap fun d => w.equips.filter (·.deviceId = d.deviceId)

def queryDeviceByPassID (env : Env) (passId : String) : Proc Device :=
  query env ⟨.select, .equipInfo, passId⟩ fun w => onlyRow (devicesOfPass w passId) {}

def queryPassVehicleByID (env : Env) (passId : String) : Proc PassVehicle :=
  query env ⟨.select, .detectInfo, passId⟩ fun w => onlyRow (w.detects.filter (·.passId = passId)) {}

def passIn : ℤ := 9
def passOut : ℤ := 10

/-- The recorded entries of a plate whose vehicle is inside. -/
def enterVehicles (w : World) (plate : String) : List PassVehicle :=
  w.detects.flatMap fun d => if d.plateNumber1 = plate ∧ d.passDirection = passIn then
    (w.innerCars.filter (·.nid = d.passId)).map fun _ => d else []

def queryEnterVehicle (env : Env) (plate : String) : Proc (List PassVehicle) :=
  query env ⟨.select, .detectInfo, plate⟩ fun w => enterVehicles w plate

/-- A row as it is read: the balance comes as a `float`. -/
def handleQueryVipVehicle (row : VIPVehicle) : VIPVehicle := { row with remainMoney := toFloat row.remainMoney }

def vipOf (w : World) (plate : String) : Option VIPVehicle :=
  (w.vips.find? (·.plateNumber = plate)).map handleQueryVipVehicle

def queryVIPVehicle (env : Env) (plate : String) : Proc (Option VIPVehicle) :=
  query env ⟨.select, .vipInfo, plate⟩ fun w => vipOf w plate

def positionsOf (w : World) (deviceId : String) : List ℤ :=
  (w.equips.filter (·.deviceId = deviceId)).flatMap fun d =>
    (w.gateways.filter (·.id = d.gatewayId)).map (·.position)

def queryParkPosition (env : Env) (deviceId : String) : Proc ℤ :=
  query env ⟨.select, .gateInfo, deviceId⟩ fun w => onlyRow (positionsOf w deviceId) 0

structure ParkingNumber where
  totalParking : ℤ := 0
  remainParking : ℤ := 0
  realRemainParking : ℤ := 0
  realTemporaryParking : ℤ := 0
  rectifyCount : ℤ := 0
deriving DecidableEq, Repr

/-- The numbers in the order in which `QueryParkingNumber` computes them. -/
def parkingNumber (w : World) : ParkingNumber :=
  let totalParking := onlyRow (w.parkInfo.map (·.berthCount)) 0
  let rectifyCount := onlyRow (w.parkInfo.map (·.rectifyCount)) 0
  let realTemporaryParking := totalParking - w.vips.length + rectifyCount
  let realTemporaryParking :=
    realTemporaryParking - (w.innerCars.filter (·.parkingType = 9)).length + rectifyCount
  let count := totalParking - w.innerCars.length + rectifyCount
  if w.config.judgeRemainParkingNumber = 2 then
    { totalParking, rectifyCount, realTemporaryParking, realRemainParking := count }
  else
    { totalParking, rectifyCount, realTemporaryParking, realRemainParking := count,
      remainParking := if count < 0 then 0 else count }

def parkingStatements : List Statement :=
  [⟨.select, .parkInfo, "berth_count"⟩, ⟨.select, .parkInfo, "rectify_count"⟩, ⟨.select, .vipInfo, "count"⟩,
    ⟨.select, .innerCars, "parking_type"⟩, ⟨.select, .innerCars, "count"⟩,
    ⟨.select, .sysConfig, "judge_remain_parking_number"⟩]

def queryParkingNumber (env : Env) : Proc ParkingNumber := do
  forEach parkingStatements (statement env)
  let w ← state
  pure (parkingNumber w)

def insertWaitVehicleInfo (env : Env) (info : WaitVehicleInfo) : Proc Unit :=
  execute env ⟨.insert, .waitInfo, info.deviceIp⟩ fun w => { w with waits := w.waits ++ [info] }

def queryWaitVehicleInfo (env : Env) : Proc (List WaitVehicleInfo) :=
  query env ⟨.select, .waitInfo, ""⟩ (·.waits)

def queryWaitVehicleByDeviceIp (env : Env) (ip : String) : Proc (Option WaitVehicleInfo) :=
  query env ⟨.select, .waitInfo, ip⟩ fun w => w.waits.find? (·.deviceIp = ip)

def deleteWaitVehicleByDeviceIp (env : Env) (ip : String) : Proc Unit :=
  execute env ⟨.delete, .waitInfo, ip⟩ fun w => { w with waits := w.waits.filter (·.deviceIp ≠ ip) }

def insertChargeRecord (env : Env) (nid : String) (record : ChargeRecord) : Proc Unit := do
  statement env ⟨.insert, .chargeInfo, nid⟩
  let w ← state
  if env.uniqueNid ∧ nid ∈ w.charges.map (·.1) then throwErr .sqlExecuteException
  else update fun w => { w with charges := w.charges ++ [(nid, record)] }

def deleteTemporaryPassRecord (env : Env) (passId : String) : Proc Unit :=
  execute env ⟨.delete, .innerCars, passId⟩ fun w => { w with innerCars := w.innerCars.filter (·.nid ≠ passId) }

def setRemainMoney (vipId : String) (remainMoney : ℚ) (v : VIPVehicle) : VIPVehicle :=
  if v.id = vipId then { v with remainMoney } else v

@[simp] theorem setRemainMoney_plateNumber (vipId : String) (remainMoney : ℚ) (v : VIPVehicle) :
    (setRemainMoney vipId remainMoney v).plateNumber = v.plateNumber := by
  rw [setRemainMoney]
  split_ifs <;> rfl

@[simp] theorem setRemainMoney_type (vipId : String) (remainMoney : ℚ) (v : VIPVehicle) :
    (setRemainMoney vipId remainMoney v).type = v.type := by
  rw [setRemainMoney]
  split_ifs <;> rfl

/-- The balance of a member is replaced. -/
def debited (vipId : String) (remainMoney : ℚ) (w : World) : World :=
  { w with vips := w.vips.map (setRemainMoney vipId remainMoney) }

def updateStoredValue (env : Env) (vipId : String) (remainMoney : ℚ) : Proc Unit :=
  execute env ⟨.update, .vipInfo, vipId⟩ (debited vipId (written remainMoney))

theorem steps_queryParkingNumber {R : World → World → Prop} [IsPreorder World R] (env : Env) :
    Steps R (queryParkingNumber env) :=
  steps_bind (steps_forEach _ _ fun s _ => steps_statement env s) fun _ =>
    steps_bind steps_state fun _ => steps_pure _

theorem run_statements (env : Env) (statements : List Statement) (w : World)
    (h : ∀ s ∈ statements, env.fails s = none) : run (forEach statements (statement env)) w = (.ok (), w) := by
  induction statements with
  | nil => rfl
  | cons s rest ih =>
    obtain ⟨hs, hrest⟩ := List.forall_mem_cons.mp h
    have h1 : run (statement env s) w = (.ok (), w) := by
      rw [statement]
      rw [hs]
      rfl
    exact (run_bind_ok _ _ _ _ _ h1).trans (ih hrest)

theorem returns_statements (env : Env) (w : World) (statements : List Statement) :
    Returns (forEach statements (statement env)) w ↔ ∀ s ∈ statements, env.fails s = none := by
  constructor
  · intro h
    induction statements with
    | nil => simp
    | cons s rest ih =>
      obtain ⟨a, t, hs, hrest⟩ := (returns_bind _ _ _).mp h
      rw [statement_returned env s w t a hs] at hrest
      exact List.forall_mem_cons.mpr ⟨statement_done env s w t a hs, ih hrest⟩
  · intro h
    exact ⟨(), w, run_statements env statements w h⟩

theorem run_queryParkingNumber (env : Env) (w : World) (h : ∀ s ∈ parkingStatements, env.fails s = none) :
    run (queryParkingNumber env) w = (.ok (parkingNumber w), w) :=
  run_bind_ok _ _ _ _ _ (run_statements env _ w h)

end BitPark.Database
