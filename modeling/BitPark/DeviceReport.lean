import BitPark.Gate
import BitPark.Release
import BitPark.Storage
import BitPark.Passage

namespace BitPark.DeviceReport

open BitPark.Effect BitPark.Server BitPark.Database BitPark.Devices BitPark.Charging BitPark.Decimal BitPark.Multipart
open BitPark.Members BitPark.Release BitPark.PictureFiles BitPark.Storage BitPark.DeviceMessage BitPark.Passage

/-! `on_device_data`: a device reports a passage. -/

def deviceAt (w : World) (ip : String) : Device := onlyRow (w.equips.filter (·.ip = ip)) {}

def queryDeviceByIP (env : Env) (ip : String) : Proc Device :=
  query env ⟨.select, .equipInfo, ip⟩ fun w => deviceAt w ip

/-! The pictures. -/

def makeDirectory (out : Outside) (path : Bytes) : Job Unit :=
  if out.disk.isDirectory path then pure ()
  else if out.disk.createsDirectory path then touch (.makeDirectory path)
  else pure ()

/-- `PictureDirectory`, which creates the directory of a day when it is needed. -/
def openDirectory (out : Outside) (parent : Directory) (t : LocalTime) : Job Bytes := do
  let path := parent.path ++ t.date
  makeDirectory out path
  pure (pictureDirectory parent (out.disk.isDirectory path || out.disk.createsDirectory path) t)

/-- `PictureDirectory` of a report, which formats the time outside of its `try`. -/
def openPassDirectory (out : Outside) (passTime : ℤ) : Job Bytes := do
  let _ ← inWorld (formatLocalTime out.env passTime)
  openDirectory out out.opts.picPath (out.localTime passTime)

def backslash : UInt8 := 92

def getPictureDirectoryName (directory : Bytes) : Bytes :=
  (directory.reverse.takeWhile fun b => b ≠ slash ∧ b ≠ backslash).reverse

def pictureNames : List Bytes :=
  [ascii "vehiclepic1", ascii "vehiclepic2", ascii "vehiclepic3", ascii "platepic", ascii "combinedpic"]

/-- The array of names is indexed without a check. -/
def pictureName (deviceId : String) (t : LocalTime) (index : ℤ) : Except String Bytes :=
  if 1 ≤ index ∧ index ≤ 5 then
    .ok (bytes deviceId ++ ascii "_" ++ t.stamp ++ ascii "_" ++ pictureNames.getD (index - 1).toNat [])
  else .error "undefined"

def writeFile (out : Outside) (path : Bytes) : Job Unit :=
  if out.disk.opens path then touch (.write path) else pure ()

def pictureUrl (opts : ServerOptions) (kind directory name : Bytes) : Bytes :=
  ascii "http://" ++ opts.serverIp ++ ascii ":" ++ opts.httpPort ++ kind ++ getPictureDirectoryName directory ++
    [slash] ++ name

def raiseError {α : Type} : Except String α → Job α
  | .ok a => pure a
  | .error what => raise (.other what)

/-- The loop over the pictures, each with its type; it returns their urls. -/
def savePictures (out : Outside) (directory : Bytes) (deviceId : String) (t : LocalTime) :
    List Bytes → List ℤ → Job (List Bytes)
  | [], _ => pure []
  | _ :: _, [] => raise (.other "undefined")
  | _ :: pics, type :: types => do
    let name ← raiseError (pictureName deviceId t type)
    writeFile out (directory ++ [slash] ++ (name ++ ascii ".jpg"))
    let urls ← savePictures out directory deviceId t pics types
    pure (pictureUrl out.opts (ascii "/PassVehicle/") directory (name ++ ascii ".jpg") :: urls)

/-- The picture columns of the new row. -/
def withPictures (info : PassRecord) (passId : String) (s : Site) : Site :=
  { s with urls := fun c n =>
      if n = passId ∧ c = .pic1 then info.pictureUrl1
      else if n = passId ∧ c = .pic2 then info.pictureUrl2
      else s.urls c n }

/-- The first part: the pictures and the row of the passage. -/
def recordPassage (out : Outside) (source : String) (data : DeviceData) (pics : List Bytes) :
    Job (Device × PassRecord × String) := do
  let device ← inWorld (queryDeviceByIP out.env source)
  pictureStorageManage out .passVehicle
  let directory ← openPassDirectory out data.passTime
  let urls ← savePictures out directory device.deviceId (out.localTime data.passTime) pics data.picType
  let info := reportRecord data device.deviceId (urls.getD 0 []) (urls.getD 1 [])
  let passId ← inWorld (insertPassVehicleInfo out.env info)
  update (withPictures info passId)
  pure (device, info, passId)

/-! A vehicle that turns back at the exit. -/

def deleteInnerVehicle (env : Env) (nid : String) : Proc Unit :=
  execute env ⟨.delete, .innerCars, nid⟩ fun w => { w with innerCars := w.innerCars.filter (·.nid ≠ nid) }

structure SimpleChargeRecord where
  chargeId : String := ""
  enterId : String := ""
  recordTime : String := ""

/-- A row of a result, by the names of its columns. -/
abbrev ResultRow := List (String × String)

/-- `Row::operator[](const char*)` -/
def field (row : ResultRow) (name : String) : Proc String :=
  match row.lookup name with
  | some value => pure value
  | none => raise (.system .sqlExecuteException)

/-- The result of the query: two columns of the charges of the plate, the latest first. -/
def lastestCharges (out : Outside) (w : World) (plate : String) : List ResultRow :=
  (w.charges.mergeSort fun a b => out.recordTime b.1 ≤ out.recordTime a.1).flatMap fun c =>
    (w.detects.filter fun d => d.passId = c.2.exitId ∧ d.plateNumber1 = plate).map fun _ =>
      [("nid", c.1), ("enter_nid", c.2.enterId)]

def queryLastestChargeByPlateNumber (out : Outside) (plate : String) : Proc SimpleChargeRecord := do
  let rows ← query out.env ⟨.select, .chargeInfo, plate⟩ fun w => lastestCharges out w plate
  match rows with
  | [] => pure {}
  | row :: _ =>
    let chargeId ← field row "nid"
    let enterId ← field row "enter_nid"
    let recordTime ← field row "record_time"
    pure { chargeId, enterId, recordTime }

def string2time (out : Outside) (text : String) : ℤ := if text = "" then -1 else out.readTime text

def deleteChargeRecord (env : Env) (chargeId : String) : Proc Unit :=
  execute env ⟨.delete, .chargeInfo, chargeId⟩ fun w => { w with charges := w.charges.filter (·.1 ≠ chargeId) }

/-- Only the key of the row is restored. -/
def insertInnerVehicle (env : Env) (nid : String) : Proc Unit :=
  execute env ⟨.insert, .innerCars, nid⟩ fun w => { w with innerCars := w.innerCars ++ [{ nid }] }

def undoCharge (env : Env) (record : SimpleChargeRecord) : Proc Unit := do
  if record.chargeId ≠ "" then deleteChargeRecord env record.chargeId else pure ()
  if record.enterId ≠ "" then insertInnerVehicle env record.enterId else pure ()

def turnBack (out : Outside) (info : PassRecord) (passId : String) : Proc Unit := do
  deleteInnerVehicle out.env passId
  let record ← queryLastestChargeByPlateNumber out info.plateNumber1
  if (info.passTime - string2time out record.recordTime).tdiv 60 > 10 then refreshEntranceLeds out.env
  else
    undoCharge out.env record
    refreshEntranceLeds out.env

/-! A vehicle that leaves by the entrance. -/

def queryWaitVehicleByPlateNum (env : Env) (plate : String) : Proc (Option WaitVehicleInfo) :=
  query env ⟨.select, .waitInfo, plate⟩ fun w => w.waits.find? (·.plateNumber = plate)

def deleteWaitVehicleByPlateNum (env : Env) (plate : String) : Proc Unit :=
  execute env ⟨.delete, .waitInfo, plate⟩ fun w => { w with waits := w.waits.filter (·.plateNumber ≠ plate) }

def deleteInnerVehicleByPlateNumber (env : Env) (plate : String) : Proc Unit :=
  execute env ⟨.delete, .innerCars, plate⟩ fun w =>
    { w with innerCars := w.innerCars.filter fun c => ¬ ∃ d ∈ w.detects, d.passId = c.nid ∧ d.plateNumber1 = plate }

def leaveByEntrance (env : Env) (device : Device) (info : PassRecord) : Proc Unit := do
  let waiting ← queryWaitVehicleByPlateNum env info.plateNumber1
  if waiting.isSome then deleteWaitVehicleByPlateNum env info.plateNumber1 else pure ()
  deleteInnerVehicleByPlateNumber env info.plateNumber1
  ledShowPlateNumber env device.ip info.plateNumber1

/-! The releases. -/

def taxiParking : ℤ := 8
def whiteListParking : ℤ := 1

def notifyEnter (out : Outside) (device : Device) (pass : PassVehicle) (openGate : Option ℤ) : Job Bool := do
  let s ← state
  let clients := reached out.env s.world device.deviceId
  update fun s => { s with enterNotices := s.enterNotices ++ clients.map fun h => (h, pass, openGate) }
  pure !clients.isEmpty

def openEntrance (out : Outside) (device : Device) (pass : PassVehicle) : Job Unit :=
  inWorld (Gate.autoOpenEntranceGateway out.env device.ip pass.plateNumber1 pass.plateType)

def handleExitPassVehicle (env : Env) (device : Device) (pass : PassVehicle) (parkingType : ℤ)
    (isAutoRelease : Bool) : Proc Unit := do
  let enter ← matchedEntry env pass
  insertCharge env ((enter.map (·.passId)).getD "") pass.passId parkingType 0 otherPay autoRelease "" none
  let sent ← notifyPassVehicle env
    { exitVehicle := pass, enterVehicle := enter, parkingType, charge := some { parkingType },
      openGate := some (if isAutoRelease then 1 else 0) } device.deviceId
  if !sent && isAutoRelease then autoOpenExitGateway env device.ip else pure ()

def unconditionalRelease (out : Outside) (device : Device) (pass : PassVehicle) : Job Unit := do
  if pass.passDirection = parkEntrance then
    let _ ← notifyEnter out device pass none
    openEntrance out device pass
  else if pass.passDirection = parkExit then
    let parkingType ← inWorld (getParkingType out.env pass)
    inWorld (handleExitPassVehicle out.env device pass parkingType true)
  else pure ()

/-- Without a client to decide, the display is all that is left. -/
def refuseEntrance (out : Outside) (device : Device) (pass : PassVehicle) : Job Unit := do
  if ← notifyEnter out device pass (some 0) then pure ()
  else inWorld (ledShowPlateNumber out.env device.ip pass.plateNumber1)

def whiteListRelease (out : Outside) (device : Device) (pass : PassVehicle) : Job Unit := do
  let parkingType ← inWorld (getParkingType out.env pass)
  if pass.passDirection = parkEntrance then
    if parkingType = whiteListParking then
      let _ ← notifyEnter out device pass none
      openEntrance out device pass
    else refuseEntrance out device pass
  else if pass.passDirection = parkExit then
    inWorld (handleExitPassVehicle out.env device pass parkingType (parkingType = whiteListParking))
  else pure ()

def taxiRelease (out : Outside) (device : Device) (pass : PassVehicle) : Job Unit := do
  if pass.passDirection = parkEntrance then
    let _ ← notifyEnter out device pass (some 1)
    openEntrance out device pass
  else if pass.passDirection = parkExit then
    inWorld (handleExitPassVehicle out.env device pass taxiParking true)
  else pure ()

inductive ReleaseMode where
  | taxi | unconditional | whiteList | charge
deriving DecidableEq, Repr

def isTaxiVehicle (out : Outside) (info : PassRecord) : Job Bool := do
  inWorld (statement out.env ⟨.select, .taxiList, ""⟩)
  raiseError (out.isTaxi info.plateNumber1 info.plateColor)

/-- The modes by their numbers: charge, unconditional, white list, black list. -/
def releaseModeOf (device : Device) : Option ReleaseMode :=
  if device.type = parkEntrance then
    if device.releaseMode = 1 then none
    else if device.releaseMode = 2 then some .unconditional
    else if device.releaseMode = 3 then some .whiteList
    else if device.releaseMode = 4 then none
    else some .unconditional
  else if device.type = parkExit then
    if device.releaseMode = 1 then some .charge
    else if device.releaseMode = 2 then some .unconditional
    else if device.releaseMode = 3 then some .whiteList
    else if device.releaseMode = 4 then none
    else some .charge
  else none

/-- `ReleaseFactory::Create` -/
def createRelease (out : Outside) (device : Device) (info : PassRecord) : Job (Option ReleaseMode) := do
  if ← isTaxiVehicle out info then pure (some .taxi) else pure (releaseModeOf device)

def releaseBy (out : Outside) (device : Device) (pass : PassVehicle) : Option ReleaseMode → Job Unit
  | none => pure ()
  | some .taxi => taxiRelease out device pass
  | some .unconditional => unconditionalRelease out device pass
  | some .whiteList => whiteListRelease out device pass
  | some .charge => inWorld (release out.env device pass)

/-- A waiting vehicle gets the space; the last space closes the entrances behind it. -/
def admitWaiting (env : Env) (vehicle : WaitVehicleInfo) (remainNum : ℤ) : Proc Unit := do
  operateGateway env vehicle.deviceIp bgcCancleClose bgmManual
  operateGateway env vehicle.deviceIp bgcOpen bgmManual
  if remainNum + 1 = 0 then
    let devices ← queryEntranceDeviceList env
    forEach devices fun dev => tolerate (operateGateway env dev.ip bgcKeepClose bgmManual)
    deleteWaitVehicleByDeviceIp env vehicle.deviceIp
  else deleteWaitVehicleByDeviceIp env vehicle.deviceIp

def admitLongest (out : Outside) (remainNum : ℤ) : Proc Unit := do
  let waits ← queryWaitVehicleInfo out.env
  match out.longestWaiting waits with
  | none => pure ()
  | some vehicle => if 0 ≤ remainNum + 1 then admitWaiting out.env vehicle remainNum else pure ()

def waitVehicleRelease (out : Outside) (plate : String) (remainNum bindType : ℤ) : Proc Unit := do
  if bindType = 2 then
    let vip ← queryVIPVehicle out.env plate
    if vip.isSome then pure () else admitLongest out remainNum
  else admitLongest out remainNum

/-- What an exit means to the vehicles that wait. -/
def afterExit (out : Outside) (pass : PassVehicle) : Proc Unit := do
  let judge ← queryJudgeRemainParkingNumber out.env
  if judge = 0 then pure ()
  else
    let number ← queryParkingNumber out.env
    if judge = 1 then waitVehicleRelease out pass.plateNumber1 number.realRemainParking judge
    else if judge = 2 then waitVehicleRelease out pass.plateNumber1 number.realTemporaryParking judge
    else pure ()

def releaseVehicle (out : Outside) (device : Device) (info : PassRecord) (passId : String) : Job Unit := do
  let pass := { info.toPassVehicle with passId }
  let mode ← createRelease out device info
  releaseBy out device pass mode
  if pass.passDirection = passOut then inWorld (afterExit out pass) else pure ()

def isNoMotorVehicle (plate : String) : Bool := plate = "非机动车"

/-- The second part: what to do about the vehicle. -/
def decideRelease (out : Outside) (device : Device) (info : PassRecord) (passId : String) : Job Unit :=
  if isNoMotorVehicle info.plateNumber1 then
    if info.passDirection = passIn then inWorld (deleteInnerVehicle out.env passId) else pure ()
  else if device.type = parkExit ∧ info.passDirection = passIn then inWorld (turnBack out info passId)
  else if device.type = parkEntrance ∧ info.passDirection = passOut then
    inWorld (leaveByEntrance out.env device info)
  else releaseVehicle out device info passId

def swallow (p : Job Unit) : Job Unit := handle p fun _ => pure ()

def onDeviceData (out : Outside) (source : String) (data : DeviceData) (pics : List Bytes) : Job Unit :=
  swallow do
    let r ← recordPassage out source data pics
    decideRelease out r.1 r.2.1 r.2.2

section Frame

variable {R : Site → Site → Prop} [IsPreorder Site R]

theorem steps_raiseError {α : Type} (x : Except String α) : Steps R (raiseError x) := by
  cases x with
  | ok a => exact steps_pure a
  | error what => exact steps_raise _

variable (hf : ∀ s op, R s { s with files := s.files ++ [op] }) (out : Outside)
include hf

theorem steps_openDirectory (parent : Directory) (t : LocalTime) : Steps R (openDirectory out parent t) :=
  steps_bind (steps_ite _ (steps_pure ()) (steps_ite _ (steps_touch hf _) (steps_pure ()))) fun _ => steps_pure _

theorem steps_openPassDirectory (passTime : ℤ) : Steps R (openPassDirectory out passTime) := by
  refine steps_bind (fun s => ?_) fun _ => steps_openDirectory hf out _ _
  have hworld : (run (formatLocalTime out.env passTime) s.world).2 = s.world :=
    steps_formatLocalTime (R := SameAt id) out.env passTime s.world
  change R s { s with world := (run (formatLocalTime out.env passTime) s.world).2 }
  rw [hworld]
  exact refl_of R s

theorem steps_savePictures (directory : Bytes) (deviceId : String) (t : LocalTime) (pics : List Bytes)
    (types : List ℤ) : Steps R (savePictures out directory deviceId t pics types) := by
  induction pics generalizing types with
  | nil => exact steps_pure []
  | cons pic pics ih =>
    cases types with
    | nil => exact steps_raise _
    | cons type types =>
      exact steps_bind (steps_raiseError _) fun _ => steps_bind (steps_ite _ (steps_touch hf _) (steps_pure ()))
        fun _ => steps_bind (ih types) fun _ => steps_pure _

end Frame

theorem run_makeDirectory (out : Outside) (path : Bytes) (s : Site) :
    ∃ ops, run (makeDirectory out path) s = (.ok (), { s with files := s.files ++ ops }) := by
  by_cases hd : out.disk.isDirectory path = true
  · exact ⟨[], by simp [makeDirectory, hd]⟩
  · by_cases hc : out.disk.createsDirectory path = true
    · exact ⟨[.makeDirectory path], by simp [makeDirectory, hd, hc, touch]⟩
    · exact ⟨[], by simp [makeDirectory, hd, hc]⟩

theorem run_openDirectory (out : Outside) (parent : Directory) (t : LocalTime) (s : Site) :
    ∃ created ops, run (openDirectory out parent t) s =
      (.ok (pictureDirectory parent created t), { s with files := s.files ++ ops }) := by
  obtain ⟨ops, hops⟩ := run_makeDirectory out (parent.path ++ t.date) s
  exact ⟨_, ops, run_bind_ok _ _ _ _ _ hops⟩

theorem run_openPassDirectory (out : Outside) (passTime : ℤ) (s : Site) (h : 0 ≤ passTime) :
    ∃ created ops, run (openPassDirectory out passTime) s =
      (.ok (pictureDirectory out.opts.picPath created (out.localTime passTime)), { s with files := s.files ++ ops }) := by
  obtain ⟨created, ops, hopen⟩ := run_openDirectory out out.opts.picPath (out.localTime passTime) s
  have hformat : run (inWorld (formatLocalTime out.env passTime)) s =
      (.ok (Tariff.utcToLocal out.env.utcOffset passTime), s) := by
    have hrun : run (inWorld (formatLocalTime out.env passTime)) s =
        ((run (formatLocalTime out.env passTime) s.world).1,
          { s with world := (run (formatLocalTime out.env passTime) s.world).2 }) := rfl
    rw [hrun, run_formatLocalTime out.env passTime s.world h]
  exact ⟨created, ops, (run_bind_ok _ _ _ _ _ hformat).trans hopen⟩

/-- The directory of a report before 1970 raises. -/
theorem openPassDirectory_returned (out : Outside) (passTime : ℤ) (s : Site)
    (h : Returns (openPassDirectory out passTime) s) : 0 ≤ passTime := by
  by_contra hneg
  obtain ⟨_, _, h⟩ := h
  rw [openPassDirectory, formatLocalTime, if_pos (not_le.mp hneg)] at h
  cases h

theorem run_writeFile (out : Outside) (path : Bytes) (s : Site) :
    run (writeFile out path) s =
      (.ok (), { s with files := s.files ++ if out.disk.opens path then [.write path] else [] }) := by
  by_cases ho : out.disk.opens path = true
  · simp [writeFile, ho, touch]
  · simp [writeFile, ho]

theorem writeFile_returned (out : Outside) (path : Bytes) (s t : Site) (a : Unit)
    (h : run (writeFile out path) s = (.ok a, t)) (hopens : out.disk.opens path = true) :
    t.files = s.files ++ [.write path] := by
  rw [run_writeFile, if_pos hopens] at h
  cases h
  rfl

theorem run_raiseError_ok {α : Type} (x : Except String α) (a : α) (s : Site) (h : x = .ok a) :
    run (raiseError x) s = (.ok a, s) := by
  rw [h]
  rfl

theorem raiseError_returned {α : Type} (x : Except String α) (s t : Site) (a : α)
    (h : run (raiseError x) s = (.ok a, t)) : x = .ok a ∧ t = s := by
  cases x with
  | ok b =>
    cases h
    exact ⟨rfl, rfl⟩
  | error what => cases h

/-! The charges of the past, and the passages. -/

def KeepsPast (w t : World) : Prop := t.charges = w.charges ∧ w.detects <+: t.detects

instance : IsPreorder World KeepsPast where
  refl _ := ⟨rfl, List.prefix_rfl⟩
  trans _ _ _ h1 h2 := ⟨h2.1.trans h1.1, h1.2.trans h2.2⟩

theorem steps_recordPassage (out : Outside) (source : String) (data : DeviceData) (pics : List Bytes) :
    Steps (OnWorld KeepsPast) (recordPassage out source data pics) := by
  have hinsert : ∀ info, Steps KeepsPast (insertPassVehicleInfo out.env info) := by
    intro info
    refine steps_bind (steps_generateUUID out.env fun w n => refl_of KeepsPast w) fun nid =>
      steps_bind (steps_getParkingType out.env _) fun _ => steps_bind (steps_execute out.env _ _ ?_) fun _ =>
        steps_pure _
    exact fun w => ⟨rfl, List.prefix_append _ _⟩
  have hkeep : ∀ s : Site, KeepsPast s.world s.world := fun s => refl_of KeepsPast s.world
  refine steps_bind (steps_inWorld (steps_query _ _ _)) fun _ =>
    steps_bind (steps_pictureStorageManage (fun s _ => hkeep s) (fun s _ => hkeep s) out _) fun _ =>
      steps_bind (steps_openPassDirectory (fun s _ => hkeep s) out _) fun _ =>
        steps_bind (steps_savePictures (fun s _ => hkeep s) out _ _ _ _ _) fun _ =>
          steps_bind (steps_inWorld (hinsert _)) fun _ => steps_bind (steps_update _ fun s => hkeep s) fun _ =>
            steps_pure _

end BitPark.DeviceReport
