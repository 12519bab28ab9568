import BitPark.Database

namespace BitPark.Devices

open BitPark.Effect BitPark.Server BitPark.Database

/-! What `Transaction` asks of the devices. The timers that restore a display
after some seconds run on their own and are not part of an operation. -/

def dtsOperate (env : Env) (deviceIp : String) (cmd : Command) : Proc Unit :=
  match env.device deviceIp cmd with
  | .notConnected => throwErr .gatewayDeviceNotConnected
  | .lookupError => raise (.other "remote_endpoint: Transport endpoint is not connected")
  | .lost => throwErr .operateGatewayError
  | .done => update fun w => { w with sent := w.sent ++ [(deviceIp, cmd)] }

def operateGateway (env : Env) (deviceIp : String) (action mode : ℤ) : Proc Unit :=
  dtsOperate env deviceIp (.gate action mode)

def operateLed (env : Env) (deviceIp : String) (content : LedContent) (duration : Option ℤ) : Proc Unit :=
  dtsOperate env deviceIp (.led content duration)

def lockDevice (env : Env) (deviceIp : String) : Proc Unit := dtsOperate env deviceIp .lock
def unlockDevice (env : Env) (deviceIp : String) : Proc Unit := dtsOperate env deviceIp .unlock

def ledShowChargeTime : ℤ := 5
def ledShowPlatenumberTime : ℤ := 5

def ledShowCharge (env : Env) (deviceIp : String) (charge : ℚ) (duration : Option ℤ) : Proc Unit :=
  operateLed env deviceIp (.charge charge) duration

def ledShowRemainParkingNumber (env : Env) (deviceIp : String) (number : ℤ) : Proc Unit :=
  operateLed env deviceIp (.remainParking number) none

def ledShowPlateNumber (env : Env) (deviceIp plate : String) : Proc Unit :=
  operateLed env deviceIp (.plate plate) (some ledShowPlatenumberTime)

def ledShowGreeting (env : Env) (deviceIp greeting : String) : Proc Unit :=
  operateLed env deviceIp (.greeting greeting) none

def showLedAfterCharge (env : Env) (deviceIp : String) : Proc Unit := do
  let greeting ← queryExitGreeting env
  if greeting ≠ "" then ledShowGreeting env deviceIp greeting
  else operateLed env deviceIp .clear (some 0)

/-- A step whose exceptions are logged and forgotten. -/
def tolerate (p : Proc Unit) : Proc Unit := handle p fun _ => pure ()

def notifyRemainParkingToAllDevice (env : Env) : Proc Unit := do
  let number ← queryParkingNumber env
  let devices ← queryEntranceDeviceList env
  forEach devices fun dev => tolerate (ledShowRemainParkingNumber env dev.ip number.remainParking)

/-- Without a greeting to show, the entrances show the remaining spaces. -/
def refreshEntranceLeds (env : Env) : Proc Unit := do
  let greeting ← queryEntranceGreeting env
  if greeting = "" then notifyRemainParkingToAllDevice env else pure ()

def deleteTemporaryPassrecord (env : Env) (passId : String) : Proc Unit := do
  if passId ≠ "" then
    deleteTemporaryPassRecord env passId
    refreshEntranceLeds env
  else pure ()

def autoOpenExitGateway (env : Env) (deviceIp : String) : Proc Unit := tolerate do
  ledShowCharge env deviceIp 0 (some ledShowChargeTime)
  operateGateway env deviceIp bgcOpen bgmAuto

section Frame

variable {R : World → World → Prop} [IsPreorder World R]

theorem steps_tolerate {p : Proc Unit} (hp : Steps R p) : Steps R (tolerate p) :=
  steps_handle hp fun _ => steps_pure ()

theorem steps_send (env : Env) (ip : String) (cmd : Command) (h : ∀ w, R w { w with sent := w.sent ++ [(ip, cmd)] }) :
    Steps R (dtsOperate env ip cmd) := by
  rw [dtsOperate]
  cases env.device ip cmd with
  | notConnected => exact steps_raise _
  | lookupError => exact steps_raise _
  | lost => exact steps_raise _
  | done => exact steps_update _ h

variable (hs : ∀ w c, R w { w with sent := w.sent ++ [c] }) (env : Env)
include hs

theorem steps_dtsOperate (ip : String) (cmd : Command) : Steps R (dtsOperate env ip cmd) :=
  steps_send env ip cmd fun w => hs w _

theorem steps_showLedAfterCharge (ip : String) : Steps R (showLedAfterCharge env ip) :=
  steps_bind (steps_query env _ _) fun _ =>
    steps_ite _ (steps_dtsOperate hs env ip _) (steps_dtsOperate hs env ip _)

theorem steps_notifyRemainParking : Steps R (notifyRemainParkingToAllDevice env) :=
  steps_bind (steps_queryParkingNumber env) fun _ =>
    steps_bind (steps_query env _ _) fun devices =>
      steps_forEach devices _ fun dev _ => steps_tolerate (steps_dtsOperate hs env dev.ip _)

theorem steps_refreshEntranceLeds : Steps R (refreshEntranceLeds env) :=
  steps_bind (steps_query env _ _) fun _ => steps_ite _ (steps_notifyRemainParking hs env) (steps_pure ())

theorem steps_autoOpenExitGateway (ip : String) : Steps R (autoOpenExitGateway env ip) :=
  steps_tolerate (steps_bind (steps_dtsOperate hs env ip _) fun _ => steps_dtsOperate hs env ip _)

end Frame

theorem run_tolerate (p : Proc Unit) (w : World) : run (tolerate p) w = (.ok (), (run p w).2) := by
  rw [tolerate, run_handle]
  match run p w with
  | (.ok (), t) => rfl
  | (.error e, t) => rfl

theorem run_tolerate_state (p : Proc Unit) (w : World) : (run (tolerate p) w).2 = (run p w).2 := by
  rw [run_tolerate]

theorem run_forEach_tolerate {α : Type} (xs : List α) (p : α → Proc Unit) (w : World) :
    ∃ t, run (forEach xs fun x => tolerate (p x)) w = (.ok (), t) := by
  induction xs generalizing w with
  | nil => exact ⟨w, rfl⟩
  | cons x xs ih =>
    obtain ⟨u, hu⟩ := ih (run (p x) w).2
    exact ⟨u, (run_bind_ok _ _ _ _ _ (run_tolerate (p x) w)).trans hu⟩

/-- Everything but the commands that were sent. -/
def quiet (w : World) : World := { w with sent := [] }

theorem eq_of_quiet (w w' : World) (h : SameAt quiet w w') : w' = { w with sent := w'.sent } := by
  have h' : { w' with sent := [] } = { w with sent := [] } := h
  rw [World.mk.injEq] at h' ⊢
  tauto

/-- A passage whose vehicle has left is taken out of the table. -/
def cleared (cars : List InnerCar) (passId : String) : List InnerCar :=
  if passId = "" then cars else cars.filter (·.nid ≠ passId)

theorem deleteTemporaryPassrecord_returned (env : Env) (passId : String) (w t : World) (a : Unit)
    (h : run (deleteTemporaryPassrecord env passId) w = (.ok a, t)) :
    t = { w with innerCars := cleared w.innerCars passId, sent := t.sent } := by
  unfold deleteTemporaryPassrecord at h
  unfold cleared
  by_cases hp : passId = ""
  · rw [if_neg (not_not.mpr hp)] at h
    rw [if_pos hp]
    cases h
    rfl
  · rw [if_pos hp] at h
    rw [if_neg hp]
    obtain ⟨_, u, hd, hr⟩ := bind_returned _ _ _ _ _ h
    have hu := execute_returned _ _ _ _ _ _ hd
    have hn : SameAt quiet u t :=
      steps_returned (steps_refreshEntranceLeds (fun _ _ => rfl) env) u t (.ok a) hr
    rw [eq_of_quiet u t hn, hu]

theorem dtsOperate_returned (env : Env) (ip : String) (cmd : Command) (w t : World) (a : Unit)
    (h : run (dtsOperate env ip cmd) w = (.ok a, t)) :
    env.device ip cmd = .done ∧ t = { w with sent := w.sent ++ [(ip, cmd)] } := by
  unfold dtsOperate at h
  cases hd : env.device ip cmd with
  | notConnected =>
    rw [hd] at h
    cases h
  | lookupError =>
    rw [hd] at h
    cases h
  | lost =>
    rw [hd] at h
    cases h
  | done =>
    rw [hd] at h
    cases h
    exact ⟨rfl, rfl⟩

theorem run_dtsOperate (env : Env) (ip : String) (cmd : Command) (w : World)
    (h : env.device ip cmd = .done) :
    run (dtsOperate env ip cmd) w = (.ok (), { w with sent := w.sent ++ [(ip, cmd)] }) := by
  rw [dtsOperate]
  rw [h]
  rfl

theorem returns_dtsOperate (env : Env) (w : World) (ip : String) (cmd : Command) :
    Returns (dtsOperate env ip cmd) w ↔ env.device ip cmd = .done := by
  constructor
  · rintro ⟨a, t, h⟩
    exact (dtsOperate_returned env ip cmd w t a h).1
  · intro h
    exact ⟨(), _, run_dtsOperate env ip cmd w h⟩

end BitPark.Devices
