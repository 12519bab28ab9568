import BitPark.Stepwise
import BitPark.TurnBack
import BitPark.WaitingTime
import BitPark.Shift

namespace BitPark.Changes

open BitPark.Effect BitPark.Stepwise BitPark.Server BitPark.Database BitPark.Devices BitPark.Charging BitPark.Members
open BitPark.Release BitPark.Requests BitPark.Gate BitPark.Passage BitPark.DeviceMessage BitPark.Storage
open BitPark.DeviceReport BitPark.WaitingTime Relation
open BitPark.RemainMoney (written_nonneg)

/-! What the server changes, one small step at a time. Everything it does, on
behalf of a client, a device or a timer, is a sequence of these steps. -/

/-- The user in the records that no operator is responsible for. -/
def automatic : String := "0"

/-- On whose behalf a step is taken: the user of a session, who answers for
what is recorded, the devices whose gates may be opened, those at which a
vehicle may have to wait, and the users who may get the session of a connection. -/
structure Origin where
  user : Option String
  opens : String → Prop
  delays : String → Prop
  logsIn : Handle → User → Prop

/-- The origin may decide about a vehicle at the device. -/
structure Origin.Admits (o : Origin) (ip : String) : Prop where
  opens : o.opens ip
  delays : o.delays ip

/-- Whoever has a session had it before, or may get it. -/
def Origin.Seats (o : Origin) (sessions l : List (Handle × Session)) : Prop :=
  ∀ c ∈ l, (∃ d ∈ sessions, d.1 = c.1 ∧ d.2.user = c.2.user) ∨ o.logsIn c.1 c.2.user

/-- A step with its origin. -/
inductive Change (env : Env) (o : Origin) (w : World) : World → Prop where
  | sent (c : String × Command) (h : isOpen c.2 = true → o.opens c.1) :
      Change env o w { w with sent := w.sent ++ [c] }
  | minted : Change env o w { w with ids := w.ids + 1 }
  | passed (info : PassRecord) (parkingType : ℤ) :
      Change env o w (recorded info (env.uuid w.ids) parkingType { w with ids := w.ids + 1 })
  | revised (passId plate : String) (h : o.user ≠ none) : Change env o w { w with
      detects := w.detects.map fun d => if d.passId = passId then { d with plateNumber1 := plate } else d }
  | left (stays : InnerCar → Bool) : Change env o w { w with innerCars := w.innerCars.filter stays }
  | charged (nid : String) (record : ChargeRecord) (h : record.user = automatic ∨ o.user = some record.user) :
      Change env o w { w with charges := w.charges ++ [(nid, record)] }
  | debited (vip : VIPVehicle) (money : ℚ) (hv : vip ∈ w.vips) (ht : vip.type = storedValueParking)
      (ha : vip.deleteStatus = "1") (h0 : 0 ≤ money) : Change env o w (debited vip.id money w)
  | waits (row : WaitVehicleInfo) (h : row.deviceIp ∉ w.waits.map (·.deviceIp)) (ho : o.Admits row.deviceIp) :
      Change env o w { w with waits := w.waits ++ [row] }
  | admitted (stays : WaitVehicleInfo → Bool) : Change env o w { w with waits := w.waits.filter stays }
  | notified (l : List (Handle × ExitNotice)) : Change env o w { w with notices := w.notices ++ l }
  | answered (r : Response) : Change env o w { w with responses := w.responses ++ [r] }
  | connected (l : List (Handle × Session)) (h : o.Seats w.sessions l) : Change env o w { w with sessions := l }

/-- Any number of such steps. -/
abbrev Served (env : Env) (o : Origin) : World → World → Prop := ReflTransGen (Change env o)

section Steps

variable (env : Env) (o : Origin)

theorem served_quiet (ip : String) (cmd : Command) (h : isOpen cmd = false) :
    Steps (Served env o) (dtsOperate env ip cmd) :=
  steps_send env ip cmd fun _ => .single (.sent _ fun ho => by rw [h] at ho; cases ho)

theorem served_gate (ip : String) (h : o.opens ip) (cmd : Command) : Steps (Served env o) (dtsOperate env ip cmd) :=
  steps_send env ip cmd fun _ => .single (.sent _ fun _ => h)

theorem served_notifyRemainParking : Steps (Served env o) (notifyRemainParkingToAllDevice env) :=
  steps_bind (steps_queryParkingNumber env) fun _ => steps_bind (steps_query env _ _) fun devices =>
    steps_forEach devices _ fun dev _ => steps_tolerate (served_quiet env o dev.ip _ rfl)

theorem served_refreshEntranceLeds : Steps (Served env o) (refreshEntranceLeds env) :=
  steps_bind (steps_query env _ _) fun _ => steps_ite _ (served_notifyRemainParking env o) (steps_pure ())

theorem served_showLedAfterCharge (ip : String) : Steps (Served env o) (showLedAfterCharge env ip) :=
  steps_bind (steps_query env _ _) fun _ => steps_ite _ (served_quiet env o _ _ rfl) (served_quiet env o _ _ rfl)

theorem served_generateUUID : Steps (Served env o) (generateUUID env) := fun _ => .single .minted

theorem served_sendResponse (r : Response) : Steps (Served env o) (sendResponse r) :=
  steps_update _ fun _ => .single (.answered r)

theorem served_respond (hdl : Handle) (cmdType : String) (body : List (String × Json.Value)) :
    Steps (Served env o) (respond hdl cmdType body) := served_sendResponse env o _

theorem served_left (s : Statement) (stays : World → InnerCar → Bool) :
    Steps (Served env o) (execute env s fun w => { w with innerCars := w.innerCars.filter (stays w) }) :=
  steps_execute env _ _ fun w => .single (.left (stays w))

theorem served_deleteTemporaryPassrecord (passId : String) :
    Steps (Served env o) (deleteTemporaryPassrecord env passId) :=
  steps_ite _ (steps_bind (served_left env o _ fun _ c => c.nid ≠ passId) fun _ =>
    served_refreshEntranceLeds env o) (steps_pure ())

/-- A record of the server itself, or one that the o is responsible for. -/
theorem served_insertChargeRecord (nid : String) (record : ChargeRecord)
    (h : record.user = automatic ∨ o.user = some record.user) :
    Steps (Served env o) (insertChargeRecord env nid record) :=
  steps_bind (steps_statement env _) fun _ => steps_bind steps_state fun _ =>
    steps_ite _ (steps_raise _) (steps_update _ fun _ => .single (.charged nid record h))

/-! Settlements. -/

namespace Charge

open BitPark.Charging.Charge

variable (c : Charge)

theorem served_recordAutoCharge (charge remainMoney : ℚ) (payType : ℤ) :
    Steps (Served env o) (c.recordAutoCharge env charge payType remainMoney) :=
  steps_bind (served_insertChargeRecord env o _ _ (.inl rfl)) fun _ =>
    served_deleteTemporaryPassrecord env o _

theorem served_buildChargeJson (charge requireCharge : ℚ) :
    Steps (Served env o) (c.buildChargeJson env charge requireCharge) :=
  steps_ite _ (steps_bind (served_recordAutoCharge env o _ _ _ _) fun _ => steps_pure _) (steps_pure _)

theorem served_chargeByTimeDuration (enter exit : ℤ) :
    Steps (Served env o) (c.chargeByTimeDuration env enter exit) :=
  steps_bind (steps_billStay env c _ _ _) fun _ => served_buildChargeJson env o _ _ _

theorem served_calTimeBasedVIPCharge : Steps (Served env o) (c.calTimeBasedVIPCharge env) := by
  have htime := fun (c : Charging.Charge) enter exit => served_chargeByTimeDuration env o c enter exit
  exact steps_ite _ (htime c _ _) <| steps_ite _ (htime c _ _) <| steps_ite _ (htime c _ _) <| steps_ite _
    (steps_ite _ (htime _ _ _) (steps_bind (served_recordAutoCharge env o _ _ _ _) fun _ => steps_pure _)) <|
    steps_ite _ (steps_bind (steps_billStay env _ _ _ _) fun _ => steps_bind (steps_billStay env _ _ _ _) fun _ =>
      served_buildChargeJson env o _ _ _) <| steps_ite _ (htime _ _ _) (htime c _ _)

theorem vipsBooks : Bookkeeping (SameAt World.vips) :=
  ⟨fun _ _ => rfl, fun _ _ => rfl, fun _ _ => rfl, fun _ _ => rfl, fun _ _ => rfl⟩

/-- A balance is only written for an active stored-value member of the table. -/
structure Active (vip : VIPVehicle) (w : World) : Prop where
  listed : vip ∈ w.vips.map handleQueryVipVehicle
  type : vip.type = storedValueParking
  valid : vip.deleteStatus = "1"

theorem served_updateStoredValue (vip : VIPVehicle) (money : ℚ) (w : World) (h : Active vip w) (h0 : 0 ≤ money) :
    Served env o w (run (updateStoredValue env vip.id money) w).2 := by
  refine bind_related _ _ w (steps_statement env _ w) fun a t ht => ?_
  obtain rfl := statement_returned _ _ _ _ _ ht
  obtain ⟨hlisted, htype, hvalid⟩ := h
  obtain ⟨row, hrow, rfl⟩ := List.mem_map.mp hlisted
  exact .single (.debited row _ hrow htype hvalid (written_nonneg money h0))

theorem served_payStored (charge leftMoney : ℚ) (w : World) (h : Active c.vip w) (h0 : 0 ≤ leftMoney) :
    Served env o w (run (c.payStored env charge leftMoney) w).2 := by
  refine bind_related _ _ w (served_buildChargeJson env o _ _ _ w) fun c' t ht => ?_
  have hc' : c'.vip = c.vip := by rw [(buildChargeJson_returned _ _ _ _ _ _ _ ht).1]; rfl
  have hvips := steps_returned (steps_buildChargeJson vipsBooks env _ _ _) w t _ ht
  refine bind_related _ _ t (served_recordAutoCharge env o _ _ _ _ t) fun _ u hu => ?_
  have hvips' := steps_returned (steps_recordAutoCharge vipsBooks env _ _ _ _) t u _ hu
  have hu : Active c.vip u := ⟨by rw [hvips', hvips]; exact h.listed, h.type, h.valid⟩
  rw [hc']
  exact bind_related _ _ u (served_updateStoredValue env o _ _ u hu h0) fun _ _ _ => .refl

theorem served_payPart (charge leftMoney : ℚ) (w : World) (h : Active c.vip w) :
    Served env o w (run (c.payPart env charge leftMoney) w).2 := by
  refine bind_related _ _ w (served_buildChargeJson env o _ _ _ w) fun c' t ht => ?_
  have hc' : c'.vip = c.vip := by rw [(buildChargeJson_returned _ _ _ _ _ _ _ ht).1]; rfl
  have hvips := steps_returned (steps_buildChargeJson vipsBooks env _ _ _) w t _ ht
  have ht : Active c.vip t := ⟨by rw [hvips]; exact h.listed, h.type, h.valid⟩
  rw [hc']
  exact bind_related _ _ t (served_updateStoredValue env o _ _ t ht le_rfl) fun _ _ _ => .refl

theorem served_settleStoredValue (w : World) (h : Active c.vip w) :
    Served env o w (run (c.settleStoredValue env) w).2 := by
  refine bind_related _ _ w (steps_billStay env c _ _ _ w) fun r t ht => ?_
  obtain ⟨-, hr, rfl⟩ := billStay_returned _ _ _ _ _ _ _ _ ht
  have hvip : r.2.vip = c.vip := by rw [hr]
  split_ifs with hl
  · exact served_payStored env o r.2 _ _ t (by rw [hvip]; exact h) hl
  · exact served_payPart env o r.2 _ _ t (by rw [hvip]; exact h)

theorem served_calCharge (w : World)
    (h : c.kind = .storedValue → c.vip ∈ w.vips.map handleQueryVipVehicle ∧ c.vip.type = storedValueParking) :
    Served env o w (run (c.calCharge env) w).2 := by
  rw [calCharge]
  cases hk : c.kind with
  | whiteList => exact served_calTimeBasedVIPCharge env o c w
  | monthly => exact served_calTimeBasedVIPCharge env o c w
  | temporaryVIP => exact served_calTimeBasedVIPCharge env o c w
  | temporaryVehicle => exact served_chargeByTimeDuration env o c _ _ w
  | storedValue =>
    obtain ⟨hv, ht⟩ := h hk
    dsimp only
    split_ifs with ha
    · exact served_settleStoredValue env o c w ⟨hv, ht, ha⟩
    · exact served_chargeByTimeDuration env o c _ _ w

end Charge

theorem kindOf_storedValue (type : ℤ) (h : kindOf type = .storedValue) : type = storedValueParking := by
  unfold kindOf at h
  split_ifs at h with h1 h2
  exact h2

theorem chargeOfList_storedValue (vips : List VIPVehicle) (vip : VIPVehicle)
    (h : chargeOfList vips = (.storedValue, vip)) : vip ∈ vips ∧ vip.type = storedValueParking := by
  unfold chargeOfList at h
  cases hf : vips.find? fun v => decide (v.type = 1 ∨ v.type = 3 ∨ v.type = 4) with
  | some v =>
    rw [hf] at h
    obtain ⟨hk, rfl⟩ := Prod.mk.inj h
    exact ⟨List.mem_of_find?_eq_some hf, kindOf_storedValue _ hk⟩
  | none =>
    rw [hf] at h
    cases vips with
    | nil => cases h
    | cons v rest =>
      obtain ⟨hk, rfl⟩ := Prod.mk.inj h
      split_ifs at hk with h2
      exact ⟨List.mem_cons_self, h2⟩

/-- The stored-value member of a settlement is one of the table, as it was read. -/
theorem choiceOf_storedValue (like : List UInt8 → String → Bool) (w : World) (plate : String) (vip : VIPVehicle)
    (h : choiceOf like w plate = .ok (.storedValue, vip)) :
    vip ∈ w.vips.map handleQueryVipVehicle ∧ vip.type = storedValueParking := by
  have hmatch : ∀ patterns, chargeOfList (matching like w.vips patterns) = (.storedValue, vip) →
      vip ∈ w.vips.map handleQueryVipVehicle ∧ vip.type = storedValueParking := fun patterns hc => by
    obtain ⟨hm, ht⟩ := chargeOfList_storedValue _ _ hc
    exact ⟨List.map_subset _ (List.filter_subset_self _) hm, ht⟩
  unfold choiceOf at h
  split_ifs at h
  · obtain ⟨p, -, hc⟩ := map_ok _ _ _ h
    exact hmatch [p] hc
  · obtain ⟨ps, -, hc⟩ := map_ok _ _ _ h
    exact hmatch ps hc
  · have hc := Except.ok.inj h
    cases hv : vipOf w plate with
    | none =>
      rw [hv] at hc
      cases hc
    | some v =>
      rw [hv] at hc
      obtain ⟨hk, rfl⟩ := Prod.mk.inj hc
      obtain ⟨row, hrow, rfl⟩ := Option.map_eq_some_iff.mp hv
      exact ⟨List.mem_map_of_mem (List.mem_of_find?_eq_some hrow), kindOf_storedValue _ hk⟩

theorem served_create (enter exit : PassVehicle) : Steps (Served env o) (create env enter exit) :=
  steps_bind (steps_chooseCharge env _) fun _ => steps_bind (steps_query env _ _) fun _ =>
    steps_bind (steps_formatLocalTime env _) fun _ => steps_bind (steps_formatLocalTime env _) fun _ =>
      steps_bind (served_generateUUID env o) fun _ => steps_pure _

theorem served_handleCharge (enter exit : PassVehicle) : Steps (Served env o) (handleCharge env enter exit) := by
  intro w
  refine bind_related _ _ w (served_create env o enter exit w) fun c t ht => ?_
  obtain ⟨choice, hchoice, rfl, rfl⟩ := create_returned _ _ _ _ _ _ ht
  refine bind_related _ _ _ (steps_query env _ _ _) fun mode v hv => ?_
  obtain ⟨-, rfl⟩ := query_returned _ _ _ _ _ _ hv
  refine bind_related _ _ _ (steps_query env _ _ _) fun pattern v hv => ?_
  obtain ⟨-, rfl⟩ := query_returned _ _ _ _ _ _ hv
  refine Charge.served_calCharge env o _ _ fun hk => ?_
  refine choiceOf_storedValue env.like w exit.plateNumber1 choice.2 ?_
  rw [hchoice]
  exact congrArg Except.ok (Prod.ext hk rfl)

/-! Exits. -/

section Exits

theorem served_notifyPassVehicle (notice : ExitNotice) (deviceId : String) :
    Steps (Served env o) (notifyPassVehicle env notice deviceId) :=
  steps_bind steps_state fun _ => steps_bind (steps_update _ fun _ => .single (.notified _)) fun _ => steps_pure _

theorem served_autoOpenExitGateway (ip : String) (h : o.opens ip) :
    Steps (Served env o) (autoOpenExitGateway env ip) :=
  steps_tolerate (steps_bind (served_gate env o ip h _) fun _ => served_gate env o ip h _)

theorem served_insertCharge (enterId exitId : String) (parkingType : ℤ) (charge : ℚ) (payType exitType : ℤ)
    (comment : String) (bill : Option Tariff.Bill) :
    Steps (Served env o) (insertCharge env enterId exitId parkingType charge payType exitType comment bill) :=
  steps_bind (served_generateUUID env o) fun _ =>
    steps_bind (served_insertChargeRecord env o _ _ (.inl rfl)) fun _ =>
      served_deleteTemporaryPassrecord env o _

variable (device : Device) (hd : o.opens device.ip)
include hd

theorem served_releaseUnmatched (pass : PassVehicle) :
    Steps (Served env o) (releaseUnmatched env device pass) :=
  steps_bind (steps_getParkingType env pass) fun _ =>
    steps_bind (served_notifyPassVehicle env o _ _) fun _ => steps_ite _ (steps_pure _)
      (steps_bind (served_autoOpenExitGateway env o _ hd) fun _ => served_insertCharge env o _ _ _ _ _ _ _ _)

theorem served_finishRelease (enter pass : PassVehicle) (json : ChargeJson) :
    Steps (Served env o) (finishRelease env device enter pass json) :=
  steps_bind (served_notifyPassVehicle env o _ _) fun _ => steps_ite _ (steps_pure _) <|
    steps_ite _ (served_autoOpenExitGateway env o _ hd)
      (steps_bind (steps_tolerate (served_quiet env o _ _ rfl)) fun _ =>
        served_insertCharge env o _ _ _ _ _ _ _ _)

theorem served_release (pass : PassVehicle) : Steps (Served env o) (release env device pass) := by
  refine steps_ite _ (steps_bind (steps_matchedEntry env pass) fun entry => ?_) (steps_pure _)
  cases entry with
  | none => exact served_releaseUnmatched env o device hd pass
  | some enter =>
    exact steps_bind (served_handleCharge env o enter pass) fun _ =>
      served_finishRelease env o device hd enter pass _

theorem served_handleExitPassVehicle (pass : PassVehicle) (parkingType : ℤ) (isAutoRelease : Bool) :
    Steps (Served env o) (handleExitPassVehicle env device pass parkingType isAutoRelease) :=
  steps_bind (steps_matchedEntry env pass) fun _ =>
    steps_bind (served_insertCharge env o _ _ _ _ _ _ _ _) fun _ =>
      steps_bind (served_notifyPassVehicle env o _ _) fun _ =>
        steps_ite _ (served_autoOpenExitGateway env o _ hd) (steps_pure _)

end Exits

/-! Entrances. -/

theorem served_admitted (s : Statement) (stays : WaitVehicleInfo → Bool) :
    Steps (Served env o) (execute env s fun w => { w with waits := w.waits.filter stays }) :=
  steps_execute env _ _ fun _ => .single (.admitted stays)

theorem clearWaiting_returned (ip : String) (w t : World) (a : Unit) (h : run (clearWaiting env ip) w = (.ok a, t)) :
    ip ∉ t.waits.map (·.deviceIp) := by
  obtain ⟨found, u, hq, hr⟩ := bind_returned _ _ _ _ _ h
  obtain ⟨rfl, rfl⟩ := query_returned _ _ _ _ _ _ hq
  cases hf : u.waits.find? (fun row => decide (row.deviceIp = ip)) with
  | none =>
    rw [hf] at hr
    cases hr
    intro hm
    obtain ⟨row, hrow, hip⟩ := List.mem_map.mp hm
    have hno := List.find?_eq_none.mp hf row hrow
    exact hno (decide_eq_true hip)
  | some row =>
    rw [hf] at hr
    obtain rfl := execute_returned _ _ _ _ _ _ hr
    intro hm
    obtain ⟨row, hrow, hip⟩ := List.mem_map.mp hm
    exact of_decide_eq_true (List.mem_filter.mp hrow).2 hip

section Entrances

variable (ip : String) (hip : o.Admits ip)
include hip

/-- Whoever has to wait is the only one at its device. -/
theorem served_bindRemainNum (plate : String) (n : ℤ) : Steps (Served env o) (bindRemainNum env ip plate n) := by
  have hop : ∀ action mode, Steps (Served env o) (operateGateway env ip action mode) := fun action mode =>
    served_gate env o ip hip.opens _
  have hres : Steps (Served env o) (queryWaitVehicleInfoRes env) :=
    steps_bind (steps_query env _ _) fun _ => steps_pure _
  have hlast : Steps (Served env o) (openLast env ip n) :=
    steps_bind (steps_bind hres fun _ => steps_ite _ (hop _ _) (steps_pure ())) fun _ =>
      steps_bind (hop _ _) fun _ => steps_bind (steps_query env _ _) fun devices =>
        steps_forEach devices _ fun dev _ => steps_tolerate
          (steps_bind (served_quiet env o dev.ip _ rfl) fun _ => served_quiet env o dev.ip _ rfl)
  have hclear : Steps (Served env o) (clearWaiting env ip) :=
    steps_bind (steps_query env _ _) fun _ => steps_ite _ (served_admitted env o _ _) (steps_pure ())
  have hwait : Steps (Served env o) (do
      clearWaiting env ip
      insertWaitVehicleInfo env { deviceIp := ip, plateNumber := plate }) := by
    intro w
    refine bind_related _ _ w (hclear w) fun a t ht => ?_
    refine bind_related _ _ t (steps_statement env _ t) fun _ u hu => ?_
    obtain rfl := statement_returned _ _ _ _ _ hu
    exact .single (.waits _ (clearWaiting_returned env ip w u a ht) hip)
  exact steps_ite _ hlast (steps_ite _ hwait
    (steps_bind hres fun _ => steps_ite _ (steps_bind (hop _ _) fun _ => hop _ _) (steps_pure ())))

theorem served_autoOpenEntranceGateway (plate : String) (plateType : ℤ) :
    Steps (Served env o) (autoOpenEntranceGateway env ip plate plateType) := by
  have hop : ∀ action mode, Steps (Served env o) (operateGateway env ip action mode) := fun action mode =>
    served_gate env o ip hip.opens _
  have hmember : ∀ n, Steps (Served env o) (openForMember env ip n) := fun n =>
    steps_bind (hop _ _) fun _ => steps_bind (hop _ _) fun _ => steps_ite _ (steps_pure ()) (hop _ _)
  have hbind : ∀ n bindType, Steps (Served env o) (remainParkingNumberBind env ip plate n bindType) :=
    fun n bindType => steps_ite _ (steps_bind (steps_query env _ _) fun _ =>
      steps_ite _ (hmember n) (served_bindRemainNum env o ip hip plate n)) (served_bindRemainNum env o ip hip plate n)
  exact steps_tolerate <| steps_bind (served_quiet env o _ _ rfl) fun _ => steps_bind (steps_query env _ _) fun _ =>
    steps_ite _ (steps_pure ()) <| steps_bind (steps_query env _ _) fun _ => steps_ite _ (hop _ _) <|
      steps_bind (steps_queryParkingNumber env) fun _ =>
        steps_ite _ (hbind _ _) (steps_ite _ (hbind _ _) (steps_pure ()))

end Entrances

/-- Whoever waits at an entrance may have it opened. -/
def WaitsOpen (o : Origin) (w : World) : Prop := ∀ row ∈ w.waits, o.Admits row.deviceIp

theorem waitsOpen_change (w t : World) (h : Change env o w t) (hw : WaitsOpen o w) : WaitsOpen o t := by
  cases h with
  | waits row hrow ho =>
    intro x hx
    rcases List.mem_append.mp hx with hx | hx
    · exact hw x hx
    · rw [List.mem_singleton.mp hx]
      exact ho
  | admitted stays => exact fun x hx => hw x (List.mem_of_mem_filter hx)
  | _ => exact hw

theorem waitsOpen_served (w t : World) (h : Served env o w t) (hw : WaitsOpen o w) : WaitsOpen o t :=
  invariant_of_steps (WaitsOpen o) (waitsOpen_change env o) w t h hw

/-- The call of `max_element` ends at one of the rows. -/
def ChoosesRow (out : Outside) : Prop := ∀ waits row, out.longestWaiting waits = some row → row ∈ waits

section Waiting

variable (out : Outside) (hout : ChoosesRow out)

theorem served_admitWaiting (vehicle : WaitVehicleInfo) (hv : o.Admits vehicle.deviceIp) (n : ℤ) :
    Steps (Served env o) (admitWaiting env vehicle n) := by
  have hdelete : Steps (Served env o) (deleteWaitVehicleByDeviceIp env vehicle.deviceIp) :=
    served_admitted env o _ _
  exact steps_bind (served_gate env o _ hv.opens _) fun _ => steps_bind (served_gate env o _ hv.opens _) fun _ => steps_ite _
    (steps_bind (steps_query env _ _) fun devices =>
      steps_bind (steps_forEach devices _ fun dev _ => steps_tolerate (served_quiet env o dev.ip _ rfl))
        fun _ => hdelete) hdelete

include hout

theorem served_admitLongest (n : ℤ) (w : World) (hw : WaitsOpen o w) :
    Served out.env o w (run (admitLongest out n) w).2 := by
  refine bind_related _ _ w (steps_query _ _ _ w) fun waits t ht => ?_
  obtain ⟨rfl, rfl⟩ := query_returned _ _ _ _ _ _ ht
  cases hl : out.longestWaiting t.waits with
  | none => exact .refl
  | some vehicle =>
    have hv := hw vehicle (hout _ _ hl)
    exact steps_ite _ (served_admitWaiting out.env o vehicle hv n) (steps_pure ()) t

theorem served_waitVehicleRelease (plate : String) (n bindType : ℤ) (w : World) (hw : WaitsOpen o w) :
    Served out.env o w (run (waitVehicleRelease out plate n bindType) w).2 := by
  rw [waitVehicleRelease]
  split_ifs with hb
  · refine bind_related _ _ w (steps_query _ _ _ w) fun vip t ht => ?_
    obtain ⟨-, rfl⟩ := query_returned _ _ _ _ _ _ ht
    split_ifs
    · exact .refl
    · exact served_admitLongest o out hout n t hw
  · exact served_admitLongest o out hout n w hw

theorem served_afterExit (pass : PassVehicle) (w : World) (hw : WaitsOpen o w) :
    Served out.env o w (run (afterExit out pass) w).2 := by
  refine bind_related _ _ w (steps_query _ _ _ w) fun judge t ht => ?_
  obtain ⟨-, rfl⟩ := query_returned _ _ _ _ _ _ ht
  by_cases h0 : judge = 0
  · rw [if_pos h0]
    exact .refl
  · rw [if_neg h0]
    refine bind_related _ _ t (steps_queryParkingNumber _ t) fun number u hu => ?_
    have hsame := steps_returned (R := SameAt id) (steps_queryParkingNumber out.env) t u _ hu
    obtain rfl : u = t := hsame
    split_ifs
    · exact served_waitVehicleRelease o out hout _ _ _ u hw
    · exact served_waitVehicleRelease o out hout _ _ _ u hw
    · exact .refl

theorem served_admitOrClose (ip : String) (n : ℤ) (w : World) (hw : WaitsOpen o w) :
    Served out.env o w (run (admitOrClose out ip n) w).2 := by
  refine bind_related _ _ w (steps_query _ _ _ w) fun waits t ht => ?_
  obtain ⟨rfl, rfl⟩ := query_returned _ _ _ _ _ _ ht
  split_ifs
  · exact served_quiet out.env o _ _ rfl t
  · exact served_quiet out.env o _ _ rfl t
  · cases hl : out.longestWaiting t.waits with
    | none => exact .refl
    | some vehicle =>
      have hv := hw vehicle (hout _ _ hl)
      exact steps_bind (served_autoOpenEntranceGateway out.env o _ hv _ _)
        (fun _ => served_admitted out.env o _ _) t
  · exact .refl

theorem served_ledShowNewClient (ip : String) (w : World) (hw : WaitsOpen o w) :
    Served out.env o w (run (ledShowNewClient out ip) w).2 := by
  have hgreet : Steps (Served out.env o) (greetClient out.env ip) :=
    steps_bind (steps_query _ _ _) fun _ => steps_bind (served_quiet out.env o _ _ rfl) fun _ =>
      steps_bind (steps_ite _ (steps_query _ _ _) (steps_ite _ (steps_query _ _ _) (steps_pure _))) fun _ =>
        steps_ite _ (served_quiet out.env o _ _ rfl) (served_notifyRemainParking out.env o)
  refine handle_related _ _ w ?_ fun _ => steps_pure ()
  refine bind_related _ _ w (hgreet w) fun _ t ht => ?_
  have hwt := waitsOpen_served _ o w t (steps_returned hgreet w t _ ht) hw
  refine bind_related _ _ t (steps_queryParkingNumber _ t) fun number u hu => ?_
  have hsame := steps_returned (R := SameAt id) (steps_queryParkingNumber out.env) t u _ hu
  obtain rfl : u = t := hsame
  exact served_admitOrClose o out hout ip _ u hwt

end Waiting

variable (out : Outside)

/-! Reports. -/

theorem served_insertPassVehicleInfo (info : PassRecord) :
    Steps (Served env o) (insertPassVehicleInfo env info) := by
  intro w
  rw [insertPassVehicleInfo, run_bind_ok _ _ _ _ _ (show run (generateUUID env) w =
    (.ok (env.uuid w.ids), { w with ids := w.ids + 1 }) from rfl), run_bind]
  have hminted : Served env o w { w with ids := w.ids + 1 } := .single .minted
  cases hp : run (getParkingType env info.toPassVehicle) { w with ids := w.ids + 1 } with
  | mk result t =>
    have ht : SameAt id { w with ids := w.ids + 1 } t :=
      steps_returned (steps_getParkingType env _) _ t result hp
    obtain rfl : t = { w with ids := w.ids + 1 } := ht
    cases result with
    | error e => exact hminted
    | ok parkingType =>
      cases hf : env.fails (insertion info) with
      | some code =>
        have hrun : run (execute env (insertion info) (recorded info (env.uuid w.ids) parkingType))
            { w with ids := w.ids + 1 } = (.error (.system code), { w with ids := w.ids + 1 }) := by
          simp only [execute, statement, hf]
          rfl
        dsimp only
        rw [run_bind_error _ _ _ _ _ hrun]
        exact hminted
      | none =>
        dsimp only
        rw [run_bind_ok _ _ _ _ _ (run_execute env _ _ _ hf)]
        exact .single (.passed info parkingType)

/-- The query of the latest charge names two columns and reads three: what it
returns is the record of a plate without charges. -/
theorem queryLastestCharge_returned (plate : String) (w t : World) (record : SimpleChargeRecord)
    (h : run (queryLastestChargeByPlateNumber out plate) w = (.ok record, t)) : record = {} := by
  obtain ⟨rows, u, hq, hr⟩ := bind_returned _ _ _ _ _ h
  obtain ⟨rfl, rfl⟩ := query_returned _ _ _ _ _ _ hq
  cases hrows : lastestCharges out u plate with
  | nil =>
    rw [hrows] at hr
    cases hr
    rfl
  | cons row rows =>
    rw [hrows] at hr
    obtain ⟨nid, enterNid, rfl⟩ := TurnBack.lastestCharges_columns out u plate row (by simp [hrows])
    cases hr

theorem served_turnBack (info : PassRecord) (passId : String) :
    Steps (Served out.env o) (turnBack out info passId) := by
  intro w
  refine bind_related _ _ w (served_left out.env o _ (fun _ c => c.nid ≠ passId) w) fun _ t _ => ?_
  have hquery : Steps (Served out.env o) (queryLastestChargeByPlateNumber out info.plateNumber1) := by
    refine steps_bind (steps_query _ _ _) fun rows => ?_
    cases rows with
    | nil => exact steps_pure _
    | cons row rows =>
      have hfield : ∀ name, Steps (Served out.env o) (field row name) := fun name => by
        rw [field]
        cases row.lookup name with
        | some value => exact steps_pure _
        | none => exact steps_raise _
      exact steps_bind (hfield _) fun _ => steps_bind (hfield _) fun _ => steps_bind (hfield _) fun _ => steps_pure _
  refine bind_related _ _ t (hquery t) fun record u hu => ?_
  obtain rfl := queryLastestCharge_returned out _ _ _ _ hu
  have hleds : Steps (Served out.env o) (refreshEntranceLeds out.env) :=
    served_refreshEntranceLeds out.env o
  have hundo : Steps (Served out.env o) (undoCharge out.env {}) :=
    steps_bind (steps_pure ()) fun _ => steps_pure ()
  exact steps_ite _ hleds (steps_bind hundo fun _ => hleds) u

theorem served_leaveByEntrance (device : Device) (info : PassRecord) :
    Steps (Served env o) (leaveByEntrance env device info) := by
  have hdelete : Steps (Served env o) (deleteInnerVehicleByPlateNumber env info.plateNumber1) :=
    served_left env o _ _
  have hrest : Steps (Served env o) (do
      deleteInnerVehicleByPlateNumber env info.plateNumber1
      ledShowPlateNumber env device.ip info.plateNumber1) :=
    steps_bind hdelete fun _ => served_quiet env o _ _ rfl
  exact steps_bind (steps_query _ _ _) fun _ =>
    steps_ite _ (steps_bind (served_admitted env o _ _) fun _ => hrest) hrest

theorem served_notifyEnter (device : Device) (pass : PassVehicle) (openGate : Option ℤ) :
    Steps (OnWorld (Served out.env o)) (notifyEnter out device pass openGate) :=
  steps_bind steps_state fun _ => steps_bind (steps_update _ fun _ => .refl) fun _ => steps_pure _

section Device

variable (device : Device) (hd : o.Admits device.ip)
include hd

theorem served_releaseBy (pass : PassVehicle) (mode : Option ReleaseMode) :
    Steps (OnWorld (Served out.env o)) (releaseBy out device pass mode) := by
  have hopen : Steps (OnWorld (Served out.env o)) (openEntrance out device pass) :=
    steps_inWorld (served_autoOpenEntranceGateway out.env o _ hd _ _)
  have hexit : ∀ parkingType isAutoRelease, Steps (OnWorld (Served out.env o))
      (inWorld (handleExitPassVehicle out.env device pass parkingType isAutoRelease)) := fun parkingType isAutoRelease =>
    steps_inWorld (served_handleExitPassVehicle out.env o device hd.opens pass parkingType isAutoRelease)
  have hnotify := served_notifyEnter o out device pass
  have hopens : ∀ openGate, Steps (OnWorld (Served out.env o)) (do
      let _ ← notifyEnter out device pass openGate
      openEntrance out device pass) := fun openGate => steps_bind (hnotify openGate) fun _ => hopen
  have htype : Steps (OnWorld (Served out.env o)) (inWorld (getParkingType out.env pass)) :=
    steps_inWorld (steps_getParkingType out.env pass)
  have hrefuse : Steps (OnWorld (Served out.env o)) (refuseEntrance out device pass) :=
    steps_bind (hnotify _) fun _ => steps_ite _ (steps_pure ()) (steps_inWorld (served_quiet out.env o _ _ rfl))
  cases mode with
  | none => exact steps_pure ()
  | some mode =>
    cases mode with
    | taxi => exact steps_ite _ (hopens _) (steps_ite _ (hexit _ _) (steps_pure ()))
    | unconditional =>
      exact steps_ite _ (hopens _) (steps_ite _ (steps_bind htype fun _ => hexit _ _) (steps_pure ()))
    | whiteList =>
      exact steps_bind htype fun _ =>
        steps_ite _ (steps_ite _ (hopens _) hrefuse) (steps_ite _ (hexit _ _) (steps_pure ()))
    | charge => exact steps_inWorld (served_release out.env o device hd.opens pass)

variable (hout : ChoosesRow out)
include hout

theorem served_releaseVehicle (info : PassRecord) (passId : String) (s : Site) (hw : WaitsOpen o s.world) :
    OnWorld (Served out.env o) s (run (releaseVehicle out device info passId) s).2 := by
  have hmode : Steps (OnWorld (Served out.env o)) (createRelease out device info) :=
    steps_bind (steps_bind (steps_siteStatement _ _) fun _ => steps_raiseError _) fun _ =>
      steps_ite _ (steps_pure _) (steps_pure _)
  refine bind_related _ _ s (hmode s) fun mode t ht => ?_
  have hwt := waitsOpen_served _ o _ _ (steps_returned hmode s t _ ht) hw
  have hrelease := served_releaseBy o out device hd { info.toPassVehicle with passId } mode
  refine bind_related _ _ t (hrelease t) fun _ u hu => ?_
  have hwu := waitsOpen_served _ o _ _ (steps_returned hrelease t u _ hu) hwt
  dsimp only
  split_ifs
  · exact served_afterExit o out hout _ u.world hwu
  · exact .refl

theorem served_decideRelease (info : PassRecord) (passId : String) (s : Site) (hw : WaitsOpen o s.world) :
    OnWorld (Served out.env o) s (run (decideRelease out device info passId) s).2 := by
  rw [decideRelease]
  split_ifs
  · exact served_left out.env o _ (fun _ c => c.nid ≠ passId) s.world
  · exact .refl
  · exact served_turnBack o out info passId s.world
  · exact served_leaveByEntrance out.env o device info s.world
  · exact served_releaseVehicle o out device hd hout info passId s hw

end Device

theorem served_recordPassage (source : String) (data : DeviceData) (pics : List Decimal.Bytes) :
    Steps (OnWorld (Served out.env o)) (recordPassage out source data pics) := by
  have hkeep : ∀ s t : Site, t.world = s.world → OnWorld (Served out.env o) s t := fun s t h => by
    rw [OnWorld, h]
  exact steps_bind (steps_inWorld (steps_query _ _ _)) fun _ =>
    steps_bind (steps_pictureStorageManage (fun s _ => hkeep s _ rfl) (fun s _ => hkeep s _ rfl) out _) fun _ =>
      steps_bind (steps_openPassDirectory (fun s _ => hkeep s _ rfl) out _) fun _ =>
        steps_bind (steps_savePictures (fun s _ => hkeep s _ rfl) out _ _ _ _ _) fun _ =>
          steps_bind (steps_inWorld (served_insertPassVehicleInfo out.env o _)) fun _ =>
            steps_bind (steps_update _ fun s => hkeep s _ rfl) fun _ => steps_pure _

/-- A report is handled on behalf of the device it came from. -/
theorem served_onDeviceData (hout : ChoosesRow out) (source : String) (data : DeviceData) (pics : List Decimal.Bytes)
    (s : Site) (hd : o.Admits (deviceAt s.world source).ip) (hw : WaitsOpen o s.world) :
    OnWorld (Served out.env o) s (run (onDeviceData out source data pics) s).2 := by
  have hrecord := served_recordPassage o out source data pics
  refine handle_related _ _ s ?_ fun _ => steps_pure ()
  refine bind_related _ _ s (hrecord s) fun r t ht => ?_
  have hdevice := (TurnBack.recordPassage_returned out source data pics s t r ht).1
  have hwt := waitsOpen_served _ o _ _ (steps_returned hrecord s t _ ht) hw
  exact served_decideRelease o out r.1 (by rw [hdevice]; exact hd) hout _ _ t hwt

/-! Requests. -/

/-- An operator answers for what is recorded, and may open every gate. -/
def Origin.operator (user : String) (logsIn : Handle → User → Prop) : Origin :=
  ⟨some user, fun _ => True, fun _ => False, logsIn⟩

/-- Nobody answers, and no gate is opened. -/
def Origin.stranger (logsIn : Handle → User → Prop) : Origin := ⟨none, fun _ => False, fun _ => False, logsIn⟩

def Origin.nobody : Origin := .stranger fun _ _ => False

/-- A device answers for itself and for the vehicles that wait. -/
def Origin.devices (ips : String → Prop) : Origin := ⟨none, ips, ips, fun _ _ => False⟩

section Requests

variable (hdl : Handle) (json : Json.Value) (user : String) (logsIn : Handle → User → Prop)

theorem served_sent (w : World) (c : String × Command) :
    Served env (.operator user logsIn) w { w with sent := w.sent ++ [c] } := .single (.sent c fun _ => trivial)

theorem served_dtsOperate (ip : String) (cmd : Command) : Steps (Served env (.operator user logsIn)) (dtsOperate env ip cmd) :=
  served_gate env _ ip trivial cmd

theorem seats_filter (l : List (Handle × Session)) (stays : Handle × Session → Bool) : o.Seats l (l.filter stays) :=
  fun c hc => .inl ⟨c, List.mem_of_mem_filter hc, rfl, rfl⟩

theorem served_sessions (f : List (Handle × Session) → List (Handle × Session)) (h : ∀ l, o.Seats l (f l)) :
    Steps (Served env o) (update fun w => { w with sessions := f w.sessions } : Proc Unit) :=
  steps_update _ fun w => .single (.connected _ (h w.sessions))

theorem served_eraseConnection : Steps (Served env o) (eraseConnection hdl) :=
  served_sessions env o (·.filter (·.1 ≠ hdl)) fun l => seats_filter o l _

theorem served_addConnectionUser (user : User) (h : o.logsIn hdl user) :
    Steps (Served env o) (addConnectionUser env hdl user) :=
  steps_bind (steps_ofExcept _) fun ip =>
    served_sessions env o (fun l => (hdl, { user, ip }) :: l.filter (·.1 ≠ hdl)) fun l c hc => by
      obtain rfl | hc := List.mem_cons.mp hc
      · exact .inr h
      · exact seats_filter o l _ c hc

theorem bindDevice_user (s : Session) (direction : ℤ) (deviceId : String) :
    (Session.bindDevice s direction deviceId).user = s.user := by
  rw [Session.bindDevice]
  split_ifs <;> rfl

theorem served_bindDevice (direction : ℤ) (deviceId : String) :
    Steps (Served env o) (bindDevice hdl direction deviceId) :=
  steps_update _ fun w => .single (.connected _ fun c hc => by
    obtain ⟨d, hd, rfl⟩ := List.mem_map.mp hc
    refine .inl ⟨d, hd, ?_⟩
    split_ifs
    · exact ⟨rfl, (bindDevice_user d.2 direction deviceId).symm⟩
    · exact ⟨rfl, rfl⟩)

/-- Only the user whose password is in the request gets the session. -/
theorem served_onLogin (w : World) (h : ∀ user, Connections.Authentic w json user → o.logsIn hdl user) :
    Served env o w (run (onLogin env hdl json) w).2 := by
  have hrefuse : Steps (Served env o) (refuseLogin hdl) :=
    steps_bind (served_sendResponse env o _) fun _ => served_eraseConnection env o hdl
  rw [onLogin, readString_eq]
  cases hid : text json "User" with
  | error what => exact .refl
  | ok id =>
    rw [Connections.run_read]
    obtain ⟨-, hquery⟩ | ⟨-, e, he⟩ := Shift.queryUser_cases env id w
    · rw [run_bind_ok _ _ _ _ _ hquery]
      cases hfound : onlyRow ((w.users.filter (·.user = id)).map some) none with
      | none => exact hrefuse w
      | some user =>
        obtain ⟨e, he⟩ | ⟨b, hb, hagree⟩ := Connections.run_bothAgree json w "User" user.user "Password" user.password
        · rw [run_bind_error _ _ _ _ _ he]
        · rw [run_bind_ok _ _ _ _ _ hb]
          cases b with
          | false => exact hrefuse w
          | true =>
            obtain ⟨hname, hpassword⟩ := hagree rfl
            obtain rfl : id = user.user := Except.ok.inj (hid.symm.trans hname)
            have huser := h user ⟨hname, hpassword, Connections.onlyRow_some _ _ hfound⟩
            exact steps_bind (served_addConnectionUser env o hdl user huser)
              (fun _ => served_respond env o _ _ _) w
    · rw [run_bind_error _ _ _ _ _ he]

theorem served_onLogout : Steps (Served env o) (onLogout hdl) :=
  steps_bind (steps_findUser hdl) fun _ => steps_bind (served_respond env o _ _ _) fun _ =>
    steps_bind (served_eraseConnection env o hdl) fun _ => served_eraseConnection env o hdl

/-- Only a user who is named with his password, by the user of the session with his, takes the session over. -/
theorem served_onShift (w : World) (before : Session) (hs : w.sessions.lookup hdl = some before)
    (h : ∀ next, Shift.Chosen env w json before.user next → o.logsIn hdl next) :
    Served env o w (run (onShift env hdl json) w).2 := by
  have hlog : Steps (Served env o) (insertShiftLog env json) :=
    steps_bind (served_generateUUID env o) fun _ => steps_bind (steps_readString json _) fun _ =>
      steps_bind (steps_readString json _) fun _ => steps_statement env _
  rw [Shift.onShift_eq]
  obtain ⟨next, hchosen, hrun⟩ | ⟨-, e, he⟩ := Shift.nextUser_cases env hdl json before w hs
  · rw [run_bind_ok _ _ _ _ _ hrun]
    exact steps_bind (served_addConnectionUser env o hdl next (h next hchosen))
      (fun _ => steps_bind hlog fun _ => served_respond env o _ _ _) w
  · rw [run_bind_error _ _ _ _ _ he]

theorem served_onRevisePlate (h : o.user ≠ none) : Steps (Served env o) (onRevisePlate env hdl json) :=
  steps_bind (steps_findUser hdl) fun _ => steps_bind (steps_readString json _) fun passId =>
    steps_bind (steps_readString json _) fun plate =>
      steps_bind (steps_execute env _ _ fun _ => .single (.revised passId plate h)) fun _ =>
        served_respond env o _ _ _

theorem served_onMatchPlate : Steps (Served env (.operator user logsIn)) (onMatchPlate env hdl json) :=
  steps_bind (steps_findUser hdl) fun _ => steps_bind (steps_readString json _) fun _ =>
    steps_bind (steps_readString json _) fun _ => steps_ite _ (steps_raise _) <|
      steps_bind (steps_query _ _ _) fun enter => steps_bind (steps_query _ _ _) fun exit =>
        steps_ite _ (steps_raise _) <| steps_bind (steps_query _ _ _) fun _ =>
          steps_bind (served_handleCharge env (.operator user logsIn) enter exit) fun _ =>
            steps_bind (steps_showCharge (served_sent env user logsIn) env _ _) fun _ => served_sendResponse env (.operator user logsIn) _

theorem served_onOperateGateway : Steps (Served env (.operator user logsIn)) (onOperateGateway env hdl json) :=
  steps_bind (steps_findUser hdl) fun _ => steps_bind (steps_readString json _) fun _ =>
    steps_bind (steps_query _ _ _) fun _ => steps_ite _ (steps_raise _) <|
      steps_bind (steps_readInt json _) fun _ => steps_bind (served_dtsOperate env user logsIn _ _) fun _ =>
        steps_bind (steps_readString json _) fun _ =>
          steps_bind (steps_bind (served_generateUUID env (.operator user logsIn)) fun _ => steps_statement env _) fun _ =>
            served_respond env (.operator user logsIn) _ _ _

theorem served_onBindDevice : Steps (Served env (.operator user logsIn)) (onBindDevice env hdl json) :=
  steps_bind (steps_findUser hdl) fun _ => steps_bind (steps_readString json _) fun _ =>
    steps_bind (steps_readInt json _) fun _ => steps_bind (served_bindDevice env _ hdl _ _) fun _ =>
      steps_bind (steps_unlockAndGreet (served_sent env user logsIn) env _) fun _ => served_respond env (.operator user logsIn) _ _ _

theorem served_onOperateDevice : Steps (Served env (.operator user logsIn)) (onOperateDevice env hdl json) :=
  steps_bind (steps_findUser hdl) fun _ => steps_bind (steps_readString json _) fun _ =>
    steps_bind (steps_query _ _ _) fun _ => steps_ite _ (steps_raise _) <|
      steps_bind (steps_readInt json _) fun _ => steps_bind (steps_readString json _) fun _ =>
        steps_bind (steps_showPassing json (served_sent env user logsIn) env _ _ _) fun _ =>
          steps_bind (steps_openIfAsked json (served_sent env user logsIn) env _) fun _ => served_respond env (.operator user logsIn) _ _ _

theorem served_onLockDevice : Steps (Served env (.operator user logsIn)) (onLockDevice env hdl json) :=
  steps_bind (steps_findUser hdl) fun _ => steps_bind (steps_readString json _) fun _ =>
    steps_bind (steps_query _ _ _) fun _ => steps_ite _ (steps_raise _) <|
      steps_bind (served_dtsOperate env user logsIn _ _) fun _ => served_respond env (.operator user logsIn) _ _ _

theorem served_onEscRecord : Steps (Served env o) (onEscRecord env hdl json) :=
  steps_bind (steps_findUser hdl) fun _ => steps_bind (steps_readString json _) fun _ =>
    steps_bind (steps_readString json _) fun _ => steps_bind (steps_readMember json _) fun nids =>
      steps_bind (steps_matchNids nids) fun _ => steps_bind (steps_readDouble json _) fun _ =>
        steps_bind (served_generateUUID env o) fun _ => steps_bind (steps_statement env _) fun _ =>
          served_respond env o _ _ _

theorem served_chargeIdOf : Steps (Served env o) (chargeIdOf env json) :=
  steps_bind (steps_readString json _) fun _ => steps_ite _ (served_generateUUID env o) (steps_pure _)

theorem served_finishCheckout (record : ChargeRecord) : Steps (Served env (.operator user logsIn)) (finishCheckout env record) :=
  steps_bind (steps_ite _ (served_deleteTemporaryPassrecord env (.operator user logsIn) _) (steps_pure ())) fun _ =>
    steps_openExit (served_sent env user logsIn) env _

theorem checkoutRecord_returned (user : User) (enterId exitId : String) (exit : PassVehicle) (w t : World)
    (record : ChargeRecord) (h : run (checkoutRecord env json user enterId exitId exit) w = (.ok record, t)) :
    record.user = user.user := by
  obtain ⟨_, _, -, h⟩ := bind_returned _ _ _ _ _ h
  obtain ⟨_, _, -, h⟩ := bind_returned _ _ _ _ _ h
  obtain ⟨_, _, -, h⟩ := bind_returned _ _ _ _ _ h
  obtain ⟨_, _, -, h⟩ := bind_returned _ _ _ _ _ h
  obtain ⟨_, _, -, h⟩ := bind_returned _ _ _ _ _ h
  obtain ⟨_, _, -, h⟩ := bind_returned _ _ _ _ _ h
  obtain ⟨_, _, -, h⟩ := bind_returned _ _ _ _ _ h
  obtain ⟨_, _, -, h⟩ := bind_returned _ _ _ _ _ h
  cases h
  rfl

variable (w : World) (s : Session) (hs : w.sessions.lookup hdl = some s)
include hs

/-- The record of a checkout names the user of the session. -/
theorem served_onCheckout : Served env (.operator s.user.user logsIn) w (run (onCheckout env hdl json) w).2 := by
  have hrecord : Served env (.operator s.user.user logsIn) w (run (recordCheckout env hdl json) w).2 := by
    rw [recordCheckout, run_bind_ok _ _ _ _ _ (run_findUser hdl w s hs)]
    refine steps_bind (R := Served env (.operator s.user.user logsIn)) (steps_readString json _) (fun enterId => ?_) w
    refine steps_bind (steps_readString json _) fun exitId => ?_
    refine steps_bind (steps_query _ _ _) fun exit => ?_
    intro w
    refine bind_related _ _ w (steps_checkoutRecord json env s.user enterId exitId exit w) fun record t ht => ?_
    have huser := checkoutRecord_returned env json _ _ _ _ _ _ _ ht
    refine steps_bind (served_chargeIdOf env _ json) (fun chargeId => ?_) t
    refine steps_bind (served_insertChargeRecord env _ _ _ (.inr ?_)) fun _ => steps_pure _
    exact congrArg some huser.symm
  refine bind_related _ _ w hrecord fun record t _ => ?_
  exact steps_bind (served_finishCheckout env _ _ record) (fun _ => served_respond env _ _ _ _) t

theorem served_perform (cmd : ClientRequest.Cmd)
    (hlogin : cmd = .login → ∀ user, Connections.Authentic w json user → logsIn hdl user)
    (hshift : cmd = .shift → ∀ next, Shift.Chosen env w json s.user next → logsIn hdl next) :
    Served env (.operator s.user.user logsIn) w (run (ClientRequest.perform env hdl json cmd) w).2 := by
  have hactor : some s.user.user ≠ none := Option.some_ne_none _
  have hrespond := fun cmdType body => served_respond env (.operator s.user.user logsIn) hdl cmdType body
  cases cmd with
  | login => exact served_onLogin env _ hdl json w (hlogin rfl)
  | logout => exact served_onLogout env _ hdl w
  | shift => exact served_onShift env _ hdl json w s hs (hshift rfl)
  | queryGateway =>
    exact steps_bind (steps_findUser hdl) (fun _ => steps_bind (steps_query _ _ _) fun _ => hrespond _ _) w
  | queryDevice =>
    exact steps_bind (steps_findUser hdl) (fun _ => steps_bind (steps_bind steps_state fun _ => steps_pure _) fun _ =>
      steps_bind (steps_devicesFor env _) fun _ => hrespond _ _) w
  | queryParkingVehicle =>
    exact steps_bind (steps_findUser hdl) (fun _ => steps_bind (steps_queryParkingVehicle json env) fun _ =>
      hrespond _ _) w
  | revisePlate => exact served_onRevisePlate env _ hdl json hactor w
  | matchPlate => exact served_onMatchPlate env hdl json _ _ w
  | operateGateway => exact served_onOperateGateway env hdl json _ _ w
  | checkout => exact served_onCheckout env hdl json _ w s hs
  | queryParkingNumber =>
    exact steps_bind (steps_findUser hdl) (fun _ => steps_bind (steps_queryParkingNumber env) fun _ => hrespond _ _) w
  | bindDevice => exact served_onBindDevice env hdl json _ _ w
  | operateDevice => exact served_onOperateDevice env hdl json _ _ w
  | lockDevice => exact served_onLockDevice env hdl json _ _ w
  | escRecord => exact served_onEscRecord env _ hdl json w

end Requests

/-- The message names the user of the session and a next user, each with his password. -/
def CorrectShift (w : World) (hdl : Handle) (msg : Decimal.Bytes) (next : User) : Prop :=
  ∃ root before, env.parse msg = .accepted root ∧ text root "CmdType" = .ok "Shift" ∧
    w.sessions.lookup hdl = some before ∧ Shift.Chosen env w root before.user next

/-- Who may get a session by the message. -/
def LogsIn (w : World) (hdl : Handle) (msg : Decimal.Bytes) (c : Handle) (user : User) : Prop :=
  c = hdl ∧ (Connections.CorrectLogin env w msg user ∨ CorrectShift env w hdl msg user)

/-- On whose behalf a message is served. -/
def originOf (w : World) (hdl : Handle) (msg : Decimal.Bytes) : Origin :=
  match w.sessions.lookup hdl with
  | some s => .operator s.user.user (LogsIn env w hdl msg)
  | none => .stranger (LogsIn env w hdl msg)

theorem readCmdType_named (root after : Json.Value) (w t : World) (cmd : String)
    (h : run (ClientRequest.readCmdType root) w = (.ok (cmd, after), t)) (hne : cmd ≠ "") :
    t = w ∧ after = root ∧ text root "CmdType" = .ok cmd := by
  by_cases hroot : root.HasText "CmdType"
  · obtain ⟨found, after', cmd', hr, ht⟩ := root.text_of_hasText "CmdType" hroot
    rw [ClientRequest.run_readCmdType root found after' cmd' w hr ht] at h
    cases h
    have hnull : found.isNull = false := by
      cases found with
      | null =>
        cases ht
        exact absurd rfl hne
      | _ => rfl
    obtain ⟨hafter, hmember⟩ := root.resolveReference_found found after "CmdType" hr hnull
    refine ⟨rfl, hafter, ?_⟩
    rw [text, hmember]
    exact ht
  · obtain ⟨e, he⟩ := ClientRequest.run_readCmdType_raises root w hroot
    rw [he] at h
    cases h

theorem ofString_shift (cmd : String) (h : ClientRequest.Cmd.ofString cmd = some .shift) : cmd = "Shift" := by
  obtain ⟨l1, l2, hl, -⟩ := List.lookup_eq_some_iff.mp h
  have hmem : (cmd, ClientRequest.Cmd.shift) ∈ l1 ++ (cmd, ClientRequest.Cmd.shift) :: l2 := by simp
  rw [← hl] at hmem
  simpa using hmem

theorem served_clientRequest (hdl : Handle) (msg : Decimal.Bytes) (w : World) :
    Served env (originOf env w hdl msg) w (run (ClientRequest.clientRequest env hdl msg) w).2 := by
  cases hs : w.sessions.lookup hdl with
  | none =>
    rw [originOf, hs]
    have hanswered := Connections.answered_clientRequest env hdl msg w hs
    generalize run (ClientRequest.clientRequest env hdl msg) w = result at hanswered
    cases hanswered with
    | raised e => exact .refl
    | refused r hr => exact .single (.answered r)
    | loggedIn r user ip hr hu =>
      refine .tail (.single (.answered r)) (.connected _ fun c hc => ?_)
      obtain rfl | hc := List.mem_cons.mp hc
      · exact .inr ⟨rfl, .inl hu⟩
      · exact .inl ⟨c, hc, rfl, rfl⟩
  | some s =>
    rw [originOf, hs]
    have hread : ∀ root, Steps (Served env (.operator s.user.user (LogsIn env w hdl msg)))
        (ClientRequest.readCmdType root) := fun root =>
      steps_bind (steps_ofExcept _) fun _ => steps_bind (steps_ofExcept _) fun _ => steps_pure _
    have hreport : ∀ root e, Steps (Served env (.operator s.user.user (LogsIn env w hdl msg)))
        (ClientRequest.reportError hdl root e) := fun root e =>
      steps_bind (hread root) fun _ => served_sendResponse env _ _
    refine handle_related _ _ w ?_ fun e => hreport _ e
    cases hp : env.parse msg with
    | thrown what root => exact .refl
    | rejected root => exact .refl
    | accepted root =>
      refine bind_related _ _ w (hread root w) fun r t ht => ?_
      obtain ⟨cmd, after⟩ := r
      cases hc : ClientRequest.Cmd.ofString cmd with
      | none => exact .refl
      | some c =>
        have hne : cmd ≠ "" := by
          rintro rfl
          cases hc
        obtain ⟨rfl, rfl, htext⟩ := readCmdType_named root after w t cmd ht hne
        refine served_perform env hdl after _ t s hs c (fun hlogin user huser => ?_) fun hshift next hnext => ?_
        · subst hlogin
          rw [Connections.ofString_login cmd hc] at htext
          exact ⟨rfl, .inl ⟨after, hp, htext, huser⟩⟩
        · subst hshift
          rw [ofString_shift cmd hc] at htext
          exact ⟨rfl, .inr ⟨after, s, hp, htext, hs, hnext⟩⟩

end Steps

end BitPark.Changes
