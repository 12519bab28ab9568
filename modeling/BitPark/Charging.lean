import BitPark.ChargeByTime
import BitPark.Devices

namespace BitPark.Charging

open BitPark.Effect BitPark.Tariff BitPark.TimePeriod BitPark.RuleTable BitPark.ChargeByTime
open BitPark.Server BitPark.Database BitPark.Devices

def storedValueParking : ℤ := 2
def temporaryVehicleParking : ℤ := 9

def cashPay : ℤ := 1
def storedValuePay : ℤ := 5
def otherPay : ℤ := 6

/-- The subclasses of `Charge` that the factory creates. -/
inductive ChargeKind where
  | whiteList | storedValue | monthly | temporaryVIP | temporaryVehicle
deriving DecidableEq, Repr

structure Charge where
  kind : ChargeKind
  enterVehicle : PassVehicle
  exitVehicle : PassVehicle
  vip : VIPVehicle
  parkPosition : ℤ
  chargeId : String
  parkingType : ℤ
  freeTimeMode : ℤ
  chargePattern : ℤ
  bill : Bill
  json : ChargeJson

/-- The constructor, and the setters called right after it. -/
def Charge.construct (kind : ChargeKind) (enter exit : PassVehicle) (vip : VIPVehicle)
    (offset parkPosition : ℤ) (chargeId : String) (freeTimeMode chargePattern : ℤ) : Charge where
  kind := kind
  enterVehicle := enter
  exitVehicle := exit
  vip := vip
  parkPosition := parkPosition
  chargeId := chargeId
  parkingType := if kind = .temporaryVehicle then temporaryVehicleParking else vip.type
  freeTimeMode := freeTimeMode
  chargePattern := chargePattern
  bill := { enterTime := utcToLocal offset enter.passTime, exitTime := utcToLocal offset exit.passTime,
            duration := (exit.passTime - enter.passTime).tdiv 60, discount := vip.discount }
  json := { chargeId, parkingType := vip.type }

/-- `ChargeByTime` on the times and the vehicle type given, with the rest from the object. -/
def Charge.fee (c : Charge) (rules : List RuleRow) (offset enter exit vehicleType : ℤ) : ℚ × Bill :=
  chargeByTime (tableSource rules) offset enter exit c.chargePattern c.freeTimeMode vehicleType
    c.parkPosition c.vip.discount c.bill

/-- The rule table is read by one statement, however often the computation asks for it. -/
def Charge.billStay (env : Env) (c : Charge) (enter exit vehicleType : ℤ) : Proc (ℚ × Charge) := do
  let rules ← query env ⟨.select, .ruleConfig, ""⟩ (·.rules)
  let r := c.fee rules env.utcOffset enter exit vehicleType
  pure (r.1, { c with bill := r.2 })

namespace Charge

def autoRecord (c : Charge) (charge : ℚ) (payType : ℤ) (remainMoney : ℚ) : ChargeRecord where
  exitId := c.exitVehicle.passId
  enterId := c.enterVehicle.passId
  charge := charge
  actualCharge := 0
  payType := payType
  user := "0"
  parkingType := c.parkingType
  exitType := 1
  exitComment := ""
  chargeDetail := some (.inl c.bill)
  remainMoney := some remainMoney
  discount := c.vip.discount

def recordAutoCharge (env : Env) (c : Charge) (charge : ℚ) (payType : ℤ) (remainMoney : ℚ) : Proc Unit := do
  insertChargeRecord env c.chargeId (c.autoRecord charge payType remainMoney)
  deleteTemporaryPassrecord env c.enterVehicle.passId

def chargeAutoInsertDB (env : Env) (c : Charge) : Proc Unit := c.recordAutoCharge env 0 otherPay 0

def buildChargeJson (env : Env) (c : Charge) (charge requireCharge : ℚ) : Proc Charge :=
  let c := { c with json := { c.json with totalCharge := charge, requireCharge, bill := some c.bill } }
  if charge = 0 then do
    c.chargeAutoInsertDB env
    pure c
  else pure c

def chargeByTimeDuration (env : Env) (c : Charge) (enter exit : ℤ) : Proc Charge := do
  let r ← c.billStay env enter exit c.exitVehicle.plateType
  let c := { r.2 with json := { r.2.json with parkingType := temporaryVehicleParking } }
  c.buildChargeJson env r.1 r.1

def chargeByAccessTime (env : Env) (c : Charge) : Proc Charge :=
  c.chargeByTimeDuration env c.enterVehicle.passTime c.exitVehicle.passTime

def buildAutoChargeBill (c : Charge) : Charge :=
  let bill := { c.bill with freeDuration := c.bill.duration, totalFee := 0, beforeDiscountedFee := 0 }
  { c with bill, json := { c.json with bill := some bill } }

def freeDurationBill (env : Env) (c : Charge) (beginTime endTime : ℤ) : Charge :=
  { c with bill := c.bill.push (stayDetail env.utcOffset beginTime endTime "" 0) }

/-- The six positions of a stay against the time a membership is valid. -/
def calTimeBasedVIPCharge (env : Env) (c : Charge) : Proc Charge := do
  let enter := c.enterVehicle.passTime
  let exit := c.exitVehicle.passTime
  let validBegin := c.vip.validBegintime
  let expiry := c.vip.expiryDate
  if c.vip.deleteStatus ≠ "1" then c.chargeByAccessTime env
  else if expiry = 0 then c.chargeByAccessTime env
  else if exit ≤ validBegin then c.chargeByAccessTime env
  else if exit ≤ expiry then
    if enter < validBegin then (c.freeDurationBill env validBegin exit).chargeByTimeDuration env enter validBegin
    else
      let c := c.buildAutoChargeBill
      c.chargeAutoInsertDB env
      pure c
  else if enter < validBegin then
    let r1 ← c.billStay env enter validBegin c.exitVehicle.plateType
    let r2 ← (r1.2.freeDurationBill env validBegin expiry).billStay env expiry exit c.exitVehicle.plateType
    r2.2.buildChargeJson env (r1.1 + r2.1) (r1.1 + r2.1)
  else if enter < expiry then (c.freeDurationBill env enter expiry).chargeByTimeDuration env expiry exit
  else c.chargeByAccessTime env

def exempt (c : Charge) (amount : ℚ) : Charge := { c with bill := { c.bill with feeExemption := amount } }

/-- The stored value is enough. -/
def payStored (env : Env) (c : Charge) (charge leftMoney : ℚ) : Proc Charge := do
  let c ← (c.exempt charge).buildChargeJson env charge 0
  c.recordAutoCharge env charge storedValuePay leftMoney
  updateStoredValue env c.vip.id leftMoney
  pure c

/-- The stored value is used up. -/
def payPart (env : Env) (c : Charge) (charge leftMoney : ℚ) : Proc Charge := do
  let c ← (c.exempt c.vip.remainMoney).buildChargeJson env charge (-leftMoney)
  updateStoredValue env c.vip.id 0
  pure { c with json := { c.json with parkingType := temporaryVehicleParking } }

def settleStoredValue (env : Env) (c : Charge) : Proc Charge := do
  let r ← c.billStay env c.enterVehicle.passTime c.exitVehicle.passTime c.enterVehicle.plateType
  if 0 ≤ c.vip.remainMoney - r.1 then r.2.payStored env r.1 (c.vip.remainMoney - r.1)
  else r.2.payPart env r.1 (c.vip.remainMoney - r.1)

def calCharge (env : Env) (c : Charge) : Proc Charge :=
  match c.kind with
  | .whiteList => c.calTimeBasedVIPCharge env
  | .monthly => c.calTimeBasedVIPCharge env
  | .temporaryVIP => c.calTimeBasedVIPCharge env
  | .temporaryVehicle => c.chargeByAccessTime env
  | .storedValue => if c.vip.deleteStatus = "1" then c.settleStoredValue env else c.chargeByAccessTime env

end Charge

section Frame

variable {R : World → World → Prop} [IsPreorder World R] (hb : Bookkeeping R) (env : Env) (c : Charge)
include hb

theorem steps_insertChargeRecord (nid : String) (record : ChargeRecord) :
    Steps R (insertChargeRecord env nid record) :=
  steps_bind (steps_statement env _) fun _ => steps_bind steps_state fun _ =>
    steps_ite _ (steps_raise _) (steps_update _ fun w => hb.charges w _)

theorem steps_deleteTemporaryPassrecord (passId : String) : Steps R (deleteTemporaryPassrecord env passId) :=
  steps_ite _ (steps_bind (steps_execute env _ _ fun w => hb.innerCars w _) fun _ =>
    steps_refreshEntranceLeds hb.sent env) (steps_pure ())

namespace Charge

theorem steps_recordAutoCharge (charge remainMoney : ℚ) (payType : ℤ) :
    Steps R (c.recordAutoCharge env charge payType remainMoney) :=
  steps_bind (steps_insertChargeRecord hb env _ _) fun _ => steps_deleteTemporaryPassrecord hb env _

omit hb in
theorem steps_billStay (enter exit vehicleType : ℤ) : Steps R (c.billStay env enter exit vehicleType) :=
  steps_bind (steps_query env _ _) fun _ => steps_pure _

theorem steps_buildChargeJson (charge requireCharge : ℚ) :
    Steps R (c.buildChargeJson env charge requireCharge) :=
  steps_ite _ (steps_bind (steps_recordAutoCharge hb env _ _ _ _) fun _ => steps_pure _) (steps_pure _)

theorem steps_chargeByTimeDuration (enter exit : ℤ) : Steps R (c.chargeByTimeDuration env enter exit) :=
  steps_bind (steps_billStay env c _ _ _) fun _ => steps_buildChargeJson hb env _ _ _

theorem steps_calTimeBasedVIPCharge : Steps R (c.calTimeBasedVIPCharge env) := by
  have htime := fun (c : Charge) enter exit => steps_chargeByTimeDuration hb env c enter exit
  exact steps_ite _ (htime c _ _) <| steps_ite _ (htime c _ _) <| steps_ite _ (htime c _ _) <| steps_ite _
    (steps_ite _ (htime _ _ _) (steps_bind (steps_recordAutoCharge hb env _ _ _ _) fun _ => steps_pure _)) <|
    steps_ite _ (steps_bind (steps_billStay env _ _ _ _) fun _ => steps_bind (steps_billStay env _ _ _ _) fun _ =>
      steps_buildChargeJson hb env _ _ _) <| steps_ite _ (htime _ _ _) (htime c _ _)

/-- A settlement changes nothing but its books and, last of all, the balance. -/
theorem steps_calCharge (hv : ∀ w l, R w { w with vips := l }) : Steps R (c.calCharge env) := by
  rw [calCharge]
  have hupdate : ∀ id money, Steps R (updateStoredValue env id money) :=
    fun id money => steps_execute env _ _ fun w => hv w _
  cases c.kind with
  | whiteList => exact steps_calTimeBasedVIPCharge hb env c
  | monthly => exact steps_calTimeBasedVIPCharge hb env c
  | temporaryVIP => exact steps_calTimeBasedVIPCharge hb env c
  | temporaryVehicle => exact steps_chargeByTimeDuration hb env c _ _
  | storedValue =>
    refine steps_ite _ (steps_bind (steps_billStay env c _ _ _) fun r => steps_ite _ ?_ ?_)
      (steps_chargeByTimeDuration hb env c _ _)
    · exact steps_bind (steps_buildChargeJson hb env _ _ _) fun _ =>
        steps_bind (steps_recordAutoCharge hb env _ _ _ _) fun _ =>
          steps_bind (hupdate _ _) fun _ => steps_pure _
    · exact steps_bind (steps_buildChargeJson hb env _ _ _) fun _ =>
        steps_bind (hupdate _ _) fun _ => steps_pure _

/-- A settlement that raises has not touched the balance. -/
theorem fails_calCharge : Fails R (c.calCharge env) := by
  rw [calCharge]
  have hlast : ∀ (id : String) (money : ℚ) (c : Charge), Fails R (do updateStoredValue env id money; pure c) :=
    fun id money c => fails_bind_total (fails_execute env _ _) fun _ _ => rfl
  cases c.kind with
  | whiteList => exact fails_of_steps (steps_calTimeBasedVIPCharge hb env c)
  | monthly => exact fails_of_steps (steps_calTimeBasedVIPCharge hb env c)
  | temporaryVIP => exact fails_of_steps (steps_calTimeBasedVIPCharge hb env c)
  | temporaryVehicle => exact fails_of_steps (steps_chargeByTimeDuration hb env c _ _)
  | storedValue =>
    refine fails_ite _ (fails_bind (steps_billStay env c _ _ _) fun r => fails_ite _ ?_ ?_)
      (fails_of_steps (steps_chargeByTimeDuration hb env c _ _))
    · exact fails_bind (steps_buildChargeJson hb env _ _ _) fun c' =>
        fails_bind (steps_recordAutoCharge hb env _ _ _ _) fun _ => hlast _ _ c'
    · exact fails_bind (steps_buildChargeJson hb env _ _ _) fun c' => hlast _ _ _

end Charge

end Frame

/-- So many records were inserted under the id, the row of the entry went with
the first of them and commands were sent; nothing else has changed. -/
def Recorded (id passId : String) (n : ℕ) (w w' : World) : Prop :=
  ∃ (new : List (String × ChargeRecord)) (sent : List (String × Command)),
    new.length = n ∧ (∀ r ∈ new, r.1 = id) ∧ w' = { w with
      charges := w.charges ++ new, sent
      innerCars := if n = 0 then w.innerCars else cleared w.innerCars passId }

theorem recorded_refl (id passId : String) (w : World) : Recorded id passId 0 w w :=
  ⟨[], w.sent, rfl, by simp, by simp⟩

theorem cleared_cleared (cars : List InnerCar) (passId : String) :
    cleared (cleared cars passId) passId = cleared cars passId := by
  unfold cleared
  split_ifs
  · rfl
  · simp [List.filter_filter]

theorem recorded_trans (id passId : String) (n m : ℕ) (w u w' : World) (h1 : Recorded id passId n w u)
    (h2 : Recorded id passId m u w') : Recorded id passId (n + m) w w' := by
  obtain ⟨new1, sent1, hl1, hid1, rfl⟩ := h1
  obtain ⟨new2, sent2, hl2, hid2, rfl⟩ := h2
  refine ⟨new1 ++ new2, sent2, by simp [hl1, hl2], ?_, ?_⟩
  · intro r hr
    exact (List.mem_append.mp hr).elim (hid1 r) (hid2 r)
  · rw [World.mk.injEq]
    refine ⟨rfl, rfl, rfl, rfl, ?_, rfl, List.append_assoc _ _ _, rfl, rfl, rfl, rfl, rfl, rfl, rfl, rfl, rfl⟩
    by_cases hn : n = 0
    · simp [hn]
    · by_cases hm : m = 0
      · simp [hm]
      · simp [hn, hm, cleared_cleared]

theorem insertChargeRecord_returned (env : Env) (nid : String) (record : ChargeRecord) (w t : World) (a : Unit)
    (h : run (insertChargeRecord env nid record) w = (.ok a, t)) :
    t = { w with charges := w.charges ++ [(nid, record)] } := by
  obtain ⟨b, u, hs, hr⟩ := bind_returned _ _ _ _ _ h
  obtain rfl := statement_returned env _ w u b hs
  rw [run_bind_ok _ _ _ _ _ (run_state u)] at hr
  split_ifs at hr with hc
  · cases hr
  · cases hr
    rfl

namespace Charge

variable (env : Env) (c : Charge) (w w' : World)

theorem recordAutoCharge_returned (charge remainMoney : ℚ) (payType : ℤ) (a : Unit)
    (h : run (c.recordAutoCharge env charge payType remainMoney) w = (.ok a, w')) :
    Recorded c.chargeId c.enterVehicle.passId 1 w w' := by
  obtain ⟨b, u, hi, hd⟩ := bind_returned _ _ _ _ _ h
  have hu := insertChargeRecord_returned _ _ _ _ _ _ hi
  have hw := deleteTemporaryPassrecord_returned _ _ _ _ _ hd
  refine ⟨[(c.chargeId, c.autoRecord charge payType remainMoney)], w'.sent, rfl, by simp, ?_⟩
  rw [hw, hu]
  rfl

theorem billStay_returned (enter exit vehicleType : ℤ) (r : ℚ × Charge)
    (h : run (c.billStay env enter exit vehicleType) w = (.ok r, w')) :
    r.1 = (c.fee w.rules env.utcOffset enter exit vehicleType).1 ∧
      r.2 = { c with bill := (c.fee w.rules env.utcOffset enter exit vehicleType).2 } ∧ w' = w := by
  cases (query_bind_returned _ _ _ _ _ _ _ h).2
  exact ⟨rfl, rfl, rfl⟩

theorem buildChargeJson_returned (charge requireCharge : ℚ) (c' : Charge)
    (h : run (c.buildChargeJson env charge requireCharge) w = (.ok c', w')) :
    c' = { c with json := { c.json with totalCharge := charge, requireCharge, bill := some c.bill } } ∧
      Recorded c.chargeId c.enterVehicle.passId (if charge = 0 then 1 else 0) w w' := by
  unfold buildChargeJson at h
  split_ifs at h ⊢ with h0
  · obtain ⟨a, u, hr, hp⟩ := bind_returned _ _ _ _ _ h
    have hrec := recordAutoCharge_returned _ _ _ _ _ _ _ _ hr
    cases hp
    exact ⟨rfl, hrec⟩
  · cases h
    exact ⟨rfl, recorded_refl _ _ _⟩

end Charge

end BitPark.Charging
