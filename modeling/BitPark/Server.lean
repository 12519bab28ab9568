import BitPark.Effect
import BitPark.Json
import BitPark.RuleTable

namespace BitPark.Server

open BitPark.Effect BitPark.Tariff BitPark.RuleTable

/-- `error::value` -/
inductive ErrorCode where
  | general | invalidJson | invalidUserPassword | invalidCmdtype | matchPlatenumber | sqlExecuteException
  | databaseConnectionError | invalidPassvehicleRecord | notFindGatewayDevice | gatewayDeviceNotConnected
  | invalidOperateGateway | noSpaceToSavePic | operateGatewayError | invalidDirection
deriving DecidableEq, Repr

def ErrorCode.value : ErrorCode → ℤ
  | general => 1
  | invalidJson => 2
  | invalidUserPassword => 3
  | invalidCmdtype => 4
  | matchPlatenumber => 5
  | sqlExecuteException => 6
  | databaseConnectionError => 7
  | invalidPassvehicleRecord => 8
  | notFindGatewayDevice => 9
  | gatewayDeviceNotConnected => 10
  | invalidOperateGateway => 11
  | noSpaceToSavePic => 12
  | operateGatewayError => 13
  | invalidDirection => 14

def ErrorCode.message : ErrorCode → String
  | general => "Generic Error"
  | invalidJson => "Invalid JSON"
  | invalidUserPassword => "Invalid Name OR Password"
  | invalidCmdtype => "Invalid Command Type"
  | matchPlatenumber => "Not Match PlateNumber"
  | sqlExecuteException => "Execute SQL Exception"
  | databaseConnectionError => "Database Connection Error"
  | invalidPassvehicleRecord => "Invalid Pass Vehicle Record"
  | notFindGatewayDevice => "Not Find Gateway Device"
  | gatewayDeviceNotConnected => "Not Connect Gateway Device"
  | invalidOperateGateway => "Invalid operate gateway"
  | noSpaceToSavePic => "No Space To Save Picture"
  | operateGatewayError => "Operate Gateway Error"
  | invalidDirection => "Invalid Pass Vehicle Direction"

/-- A `std::system_error` of the server's own category, or any other `std::exception`. -/
inductive Exn where
  | system (code : ErrorCode)
  | other (what : String)
deriving DecidableEq, Repr

structure WaitVehicleInfo where
  deviceIp : String
  plateNumber : String
  plateType : ℤ := 0
deriving DecidableEq, Repr

structure VIPVehicle where
  id : String := ""
  plateNumber : String := ""
  type : ℤ := 0
  expiryDate : ℤ := 0
  remainMoney : ℚ := 0
  deleteStatus : String := ""
  validBegintime : ℤ := 0
  discount : ℚ := 1
deriving DecidableEq

structure PassVehicle where
  passId : String := ""
  plateType : ℤ := 2
  plateNumber1 : String := ""
  passDirection : ℤ := 9
  deviceId : String := ""
  passTime : ℤ := 0
deriving DecidableEq, Repr

structure Device where
  deviceId : String := ""
  deviceName : String := ""
  gatewayId : String := ""
  ip : String := ""
  port : ℤ := 0
  type : ℤ := 0
  releaseMode : ℤ := 0
  bindIp : String := ""
deriving DecidableEq, Repr

/-- A row of `gate_info`. -/
structure Gateway where
  id : String
  name : String := ""
  type : ℤ := 0
  park : String := ""
  position : ℤ := 0
deriving DecidableEq, Repr

/-- A row of `park_inner_cars`: a passage whose vehicle is still inside. -/
structure InnerCar where
  nid : String
  parkingType : ℤ := 9
deriving DecidableEq, Repr

/-- A charge with the numbers of the program; its statement prints six digits of them. -/
structure ChargeRecord where
  exitId : String := ""
  enterId : String := ""
  charge : ℚ := 0
  actualCharge : ℚ := 0
  discount : ℚ := 1
  payType : ℤ := 1
  user : String := ""
  parkingType : ℤ := 0
  exitType : ℤ := 1
  exitComment : String := ""
  chargeDetail : Option (Bill ⊕ Json.Value) := none
  remainMoney : Option ℚ := none

structure ParkInfo where
  berthCount : ℤ
  rectifyCount : ℤ := 0
deriving DecidableEq, Repr

structure User where
  user : String
  password : String
  name : String := ""
  phone : Option String := none
  authority : Option String := none
  description : Option String := none
deriving DecidableEq, Repr

/-- A logged-in connection, with the devices it is bound to for either direction. -/
structure Session where
  user : User
  ip : String := ""
  bindIn : String := ""
  bindOut : String := ""
deriving DecidableEq, Repr

/-- The members of a message that a settlement fills in. -/
structure ChargeJson where
  chargeId : String := ""
  parkingType : ℤ := 0
  totalCharge : ℚ := 0
  requireCharge : ℚ := 0
  bill : Option Bill := none

/-- The values that the configuration queries answer, with their defaults
where a row is missing or switched off. -/
structure SysConfig where
  chargePattern : ℤ := 0
  freeTimeMode : ℤ := 0
  enterGreeting : String := ""
  exitGreeting : String := ""
  judgeRemainParkingNumber : ℤ := 0
  limitPlateType : String := ""
  whitelistMatchMode : ℤ := 0

/-! The commands a device understands. -/

def bgcOpen : ℤ := 1
def bgcKeepClose : ℤ := 5
def bgcCancleClose : ℤ := 6
def bgmAuto : ℤ := 1
def bgmManual : ℤ := 2

/-- What an LED is asked to show. The source renders amounts into the text. -/
inductive LedContent where
  | plate (number : String)
  | charge (amount : ℚ)
  | remainParking (number : ℤ)
  | greeting (text : String)
  | clear
deriving DecidableEq

inductive Command where
  | gate (action mode : ℤ)
  | led (content : LedContent) (duration : Option ℤ)
  | lock
  | unlock
deriving DecidableEq

/-- What becomes of a command: the device's connection is not in the table,
the lookup itself raises, the exchange fails and the connection is dropped, or it is carried out. -/
inductive DeviceOutcome where
  | notConnected
  | lookupError
  | lost
  | done
deriving DecidableEq, Repr

inductive Verb where
  | select | insert | update | delete
deriving DecidableEq, Repr

inductive Table where
  | sysConfig | parkInfo | vipInfo | innerCars | chargeInfo | detectInfo | equipInfo | gateInfo | waitInfo
  | ruleConfig | userInfo | dutyInfo | gateOperateInfo | unusualRecord | taxiList
deriving DecidableEq, Repr

/-- An SQL statement, as far as its success may depend on it. -/
structure Statement where
  verb : Verb
  table : Table
  key : String := ""
deriving DecidableEq, Repr

abbrev Handle := ℕ

/-- A message to a client. -/
structure Response where
  handle : Handle
  cmdType : String
  ok : Bool
  errorCode : Option ℤ := none
  errorInfo : Option String := none
  charge : Option ChargeJson := none
  body : List (String × Json.Value) := []

/-- `ExitVehicleNotify` -/
structure ExitNotice where
  exitVehicle : PassVehicle
  enterVehicle : Option PassVehicle := none
  parkingType : ℤ
  charge : Option ChargeJson := none
  openGate : Option ℤ := none

structure World where
  rules : List RuleRow := []
  config : SysConfig := {}
  parkInfo : List ParkInfo := []
  vips : List VIPVehicle := []
  innerCars : List InnerCar := []
  detects : List PassVehicle := []
  charges : List (String × ChargeRecord) := []
  equips : List Device := []
  gateways : List Gateway := []
  waits : List WaitVehicleInfo := []
  users : List User := []
  sessions : List (Handle × Session) := []
  ids : ℕ := 0
  sent : List (String × Command) := []
  notices : List (Handle × ExitNotice) := []
  responses : List Response := []

/-- What `Reader::parse` returns, or throws, with the root it leaves behind. -/
inductive Parsed where
  | accepted (root : Json.Value)
  | rejected (root : Json.Value)
  | thrown (what : String) (root : Json.Value)

def Parsed.root : Parsed → Json.Value
  | accepted root => root
  | rejected root => root
  | thrown _ root => root

/-- The answers of everything around the server while it serves one request. -/
structure Env where
  fails : Statement → Option ErrorCode
  device : String → Command → DeviceOutcome
  uuid : ℕ → String
  utcOffset : ℤ := 0
  /-- What the database makes of `like` with these bytes between the quotes. -/
  like : List UInt8 → String → Bool := fun _ _ => false
  /-- What `Reader::parse` makes of a message. -/
  parse : List UInt8 → Parsed := fun _ => .rejected .null
  /-- The address of a peer, or the exception of a connection that is gone. -/
  remoteIp : Handle → Except String String := fun _ => .ok ""
  /-- The answer of `QueryParkingVehicle`, or the exception of a row that cannot be read. -/
  parkingVehicles : World → Json.Value → Except String Json.Value := fun _ _ => .ok .null
  /-- Whether sending to a client throws. -/
  unreachable : Handle → Bool := fun _ => false
  /-- Whether `nid` is a key of `park_charge_info`; the schema is not in the repository. -/
  uniqueNid : Bool := false

/-- Every statement and every command succeeds. -/
def quietEnv : Env where
  fails _ := none
  device _ _ := .done
  uuid n := toString n

abbrev Proc (α : Type) : Type := Program World Exn α

def throwErr (code : ErrorCode) : Proc Unit := raise (.system code)

/-- A value read by a library call that may throw. -/
def ofExcept {α : Type} : Except String α → Proc α
  | .ok a => pure a
  | .error what => raise (.other what)

/-! `UniveralOperateDB` either carries a statement out or raises, and then
the tables are as they were. -/

def statement (env : Env) (s : Statement) : Proc Unit :=
  match env.fails s with
  | some code => raise (.system code)
  | none => pure ()

def query {α : Type} (env : Env) (s : Statement) (f : World → α) : Proc α := do
  statement env s
  let w ← state
  pure (f w)

def execute (env : Env) (s : Statement) (g : World → World) : Proc Unit := do
  statement env s
  update g

def generateUUID (env : Env) : Proc String := do
  let w ← state
  update fun w => { w with ids := w.ids + 1 }
  pure (env.uuid w.ids)

section Frame

variable {R : World → World → Prop} [IsPreorder World R]

theorem steps_ofExcept {α : Type} (x : Except String α) : Steps R (ofExcept x) := by
  cases x with
  | ok a => exact steps_pure a
  | error what => exact steps_raise _

theorem steps_statement (env : Env) (s : Statement) : Steps R (statement env s) := by
  rw [statement]
  cases env.fails s with
  | none => exact steps_pure ()
  | some code => exact steps_raise _

theorem steps_query {α : Type} (env : Env) (s : Statement) (g : World → α) : Steps R (query env s g) :=
  steps_bind (steps_statement env s) fun _ => steps_bind steps_state fun w => steps_pure (g w)

theorem steps_execute (env : Env) (s : Statement) (g : World → World) (h : ∀ w, R w (g w)) :
    Steps R (execute env s g) :=
  steps_bind (steps_statement env s) fun _ => steps_update g h

theorem steps_generateUUID (env : Env) (h : ∀ w n, R w { w with ids := n }) : Steps R (generateUUID env) :=
  steps_bind steps_state fun _ => steps_bind (steps_update _ fun w => h w _) fun _ => steps_pure _

end Frame

/-- A relation that does not look at what a settlement writes besides the balance. -/
structure Bookkeeping (R : World → World → Prop) : Prop where
  sent : ∀ w c, R w { w with sent := w.sent ++ [c] }
  ids : ∀ w n, R w { w with ids := n }
  charges : ∀ w l, R w { w with charges := l }
  innerCars : ∀ w l, R w { w with innerCars := l }
  notices : ∀ w l, R w { w with notices := l }

theorem fails_execute {R : World → World → Prop} [IsPreorder World R] (env : Env) (s : Statement)
    (g : World → World) : Fails R (execute env s g) :=
  fails_bind (steps_statement env s) fun _ w e t h => by cases h

theorem ofExcept_returned {α : Type} (x : Except String α) (w t : World) (a : α)
    (h : run (ofExcept x) w = (.ok a, t)) : x = .ok a ∧ t = w := by
  cases x with
  | ok b =>
    cases h
    exact ⟨rfl, rfl⟩
  | error what => cases h

theorem ofExcept_bind {α β : Type} (x : Except String α) (f : α → Except String β) :
    (do let a ← ofExcept x; ofExcept (f a)) = ofExcept (x >>= f) := by
  cases x with
  | ok a => rfl
  | error what => rfl

theorem run_ofExcept_ok {α : Type} (x : Except String α) (a : α) (w : World) (h : x = .ok a) :
    run (ofExcept x) w = (.ok a, w) := by
  rw [h]
  rfl

theorem run_query {α : Type} (env : Env) (s : Statement) (f : World → α) (w : World)
    (h : env.fails s = none) : run (query env s f) w = (.ok (f w), w) := by
  rw [query, statement]
  rw [h]
  rfl

theorem run_execute (env : Env) (s : Statement) (g : World → World) (w : World) (h : env.fails s = none) :
    run (execute env s g) w = (.ok (), g w) := by
  rw [execute, statement]
  rw [h]
  rfl

theorem statement_returned (env : Env) (s : Statement) (w t : World) (a : Unit)
    (h : run (statement env s) w = (.ok a, t)) : t = w := by
  unfold statement at h
  cases hf : env.fails s with
  | none =>
    rw [hf] at h
    exact (congrArg Prod.snd h).symm
  | some code =>
    rw [hf] at h
    cases h

theorem statement_done (env : Env) (s : Statement) (w t : World) (a : Unit)
    (h : run (statement env s) w = (.ok a, t)) : env.fails s = none := by
  unfold statement at h
  cases hf : env.fails s with
  | none => rfl
  | some code =>
    rw [hf] at h
    cases h

theorem query_done {α : Type} (env : Env) (s : Statement) (f : World → α) (w t : World) (a : α)
    (h : run (query env s f) w = (.ok a, t)) : env.fails s = none := by
  obtain ⟨b, u, hs, -⟩ := bind_returned _ _ _ _ _ h
  exact statement_done env s w u b hs

theorem execute_done (env : Env) (s : Statement) (g : World → World) (w t : World) (a : Unit)
    (h : run (execute env s g) w = (.ok a, t)) : env.fails s = none := by
  obtain ⟨b, u, hs, -⟩ := bind_returned _ _ _ _ _ h
  exact statement_done env s w u b hs

theorem query_returned {α : Type} (env : Env) (s : Statement) (f : World → α) (w t : World) (a : α)
    (h : run (query env s f) w = (.ok a, t)) : a = f w ∧ t = w := by
  obtain ⟨b, u, hs, hr⟩ := bind_returned _ _ _ _ _ h
  obtain rfl := statement_returned env s w u b hs
  cases hr
  exact ⟨rfl, rfl⟩

theorem execute_returned (env : Env) (s : Statement) (g : World → World) (w t : World) (a : Unit)
    (h : run (execute env s g) w = (.ok a, t)) : t = g w := by
  obtain ⟨b, u, hs, hr⟩ := bind_returned _ _ _ _ _ h
  obtain rfl := statement_returned env s w u b hs
  cases hr
  rfl

/-- What follows a query that was answered starts from the answer, in the same state. -/
theorem query_bind_returned {α β : Type} (env : Env) (s : Statement) (f : World → α) (q : α → Proc β) (w t : World)
    (b : β) (h : run (query env s f >>= q) w = (.ok b, t)) : env.fails s = none ∧ run (q (f w)) w = (.ok b, t) := by
  obtain ⟨a, u, hq, hr⟩ := bind_returned _ _ _ _ _ h
  obtain ⟨rfl, rfl⟩ := query_returned _ _ _ _ _ _ hq
  exact ⟨query_done _ _ _ _ _ _ hq, hr⟩

theorem returns_query {α β : Type} (env : Env) (w : World) (s : Statement) (f : World → α) (q : α → Proc β) :
    Returns (query env s f >>= q) w ↔ env.fails s = none ∧ Returns (q (f w)) w := by
  rw [returns_bind]
  constructor
  · rintro ⟨a, t, h, hq⟩
    obtain ⟨rfl, rfl⟩ := query_returned _ _ _ _ _ _ h
    exact ⟨query_done _ _ _ _ _ _ h, hq⟩
  · rintro ⟨hf, hq⟩
    exact ⟨f w, w, run_query env s f w hf, hq⟩

end BitPark.Server
