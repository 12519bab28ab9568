import BitPark.DeviceReport

namespace BitPark.TurnBack

open BitPark.Effect BitPark.Server BitPark.Database BitPark.Decimal BitPark.PictureFiles BitPark.Storage
open BitPark.DeviceMessage BitPark.Passage BitPark.DeviceReport

/-! A vehicle that left turns back at the exit. -/

/-- A passage of the plate was charged. -/
def ChargedAt (w : World) (plate : String) (c : String × ChargeRecord) : Prop :=
  c ∈ w.charges ∧ ∃ x ∈ w.detects, x.passId = c.2.exitId ∧ x.plateNumber1 = plate

/-- The plate left with its latest charge at most ten minutes ago, the row of
its entry is gone from the vehicles inside, and the exit reports it driving in. -/
structure TurnsBack (out : Outside) (source : String) (data : DeviceData) (s : Site) (chargeId : String)
    (record : ChargeRecord) (car : InnerCar) : Prop where
  atExit : (deviceAt s.world source).type = parkExit
  direction : data.direction = passIn
  charged : ChargedAt s.world data.plateInfo1 (chargeId, record)
  latest : ∀ c, ChargedAt s.world data.plateInfo1 c → out.recordTime c.1 ≤ out.recordTime chargeId
  recent : out.recordTime chargeId ≤ data.passTime ∧ data.passTime ≤ out.recordTime chargeId + 600
  entered : ∃ e ∈ s.world.detects, e.passId = car.nid ∧ e.plateNumber1 = data.plateInfo1 ∧ e.passDirection = passIn
  entry : record.enterId = car.nid
  gone : car.nid ∉ s.world.innerCars.map (·.nid)

/-- The exit is undone: no charge, the row of the entry as it was, and nothing
of the passage that turned back. -/
structure Undone (chargeId : String) (car : InnerCar) (s t : Site) : Prop where
  uncharged : chargeId ∉ t.world.charges.map (·.1)
  inside : t.world.innerCars.filter (·.nid = car.nid) = [car]
  dropped : ∀ d ∈ t.world.detects.drop s.world.detects.length, d.passId ∉ t.world.innerCars.map (·.nid)

theorem inWorld_returned {α : Type} (p : Proc α) (s t : Site) (a : α) (h : run (inWorld p) s = (.ok a, t)) :
    ∃ w, run p s.world = (.ok a, w) ∧ t = { s with world := w } := by
  have h1 : (run p s.world).1 = .ok a := congrArg Prod.fst h
  have h2 : { s with world := (run p s.world).2 } = t := congrArg Prod.snd h
  exact ⟨(run p s.world).2, Prod.ext h1 rfl, h2.symm⟩

theorem recordPassage_returned (out : Outside) (source : String) (data : DeviceData) (pics : List Bytes)
    (s t : Site) (r : Device × PassRecord × String) (h : run (recordPassage out source data pics) s = (.ok r, t)) :
    r.1 = deviceAt s.world source ∧ ∃ url1 url2, r.2.1 = reportRecord data r.1.deviceId url1 url2 := by
  obtain ⟨device, u, hdevice, h⟩ := bind_returned _ _ _ _ _ h
  obtain ⟨w, hquery, -⟩ := inWorld_returned _ _ _ _ hdevice
  obtain ⟨hat, -⟩ := query_returned _ _ _ _ _ _ hquery
  obtain ⟨_, _, -, h⟩ := bind_returned _ _ _ _ _ h
  obtain ⟨_, _, -, h⟩ := bind_returned _ _ _ _ _ h
  obtain ⟨urls, _, -, h⟩ := bind_returned _ _ _ _ _ h
  obtain ⟨_, _, -, h⟩ := bind_returned _ _ _ _ _ h
  obtain ⟨_, _, -, h⟩ := bind_returned _ _ _ _ _ h
  cases h
  exact ⟨hat, _, _, rfl⟩

theorem lastestCharges_columns (out : Outside) (w : World) (plate : String) (row : ResultRow)
    (h : row ∈ lastestCharges out w plate) : ∃ nid enterNid, row = [("nid", nid), ("enter_nid", enterNid)] := by
  simp only [lastestCharges, List.mem_flatMap, List.mem_map] at h
  obtain ⟨c, -, d, -, rfl⟩ := h
  exact ⟨_, _, rfl⟩

theorem lastestCharges_ne_nil (out : Outside) (w : World) (plate : String) (c : String × ChargeRecord)
    (hc : ChargedAt w plate c) : lastestCharges out w plate ≠ [] := by
  obtain ⟨hmem, x, hx, hexit, hplate⟩ := hc
  apply List.ne_nil_of_mem (a := [("nid", c.1), ("enter_nid", c.2.enterId)])
  simp only [lastestCharges, List.mem_flatMap, List.mem_mergeSort, List.mem_map, List.mem_filter]
  exact ⟨c, hmem, x, ⟨hx, by simp [hexit, hplate]⟩, rfl⟩

/-- The query names two columns, and a third is read. -/
theorem queryLastestCharge_raises (out : Outside) (plate : String) (w : World) (c : String × ChargeRecord)
    (hc : ChargedAt w plate c) :
    ∃ e, run (queryLastestChargeByPlateNumber out plate) w = (.error e, w) := by
  cases hf : out.env.fails ⟨.select, .chargeInfo, plate⟩ with
  | some code =>
    have hq : run (query out.env ⟨.select, .chargeInfo, plate⟩ fun w => lastestCharges out w plate) w =
        (.error (.system code), w) := by
      simp only [query, statement, hf]
      rfl
    exact ⟨_, run_bind_error _ _ _ _ _ hq⟩
  | none =>
    have hq := run_query out.env ⟨.select, .chargeInfo, plate⟩ (fun w => lastestCharges out w plate) w hf
    rw [queryLastestChargeByPlateNumber, run_bind_ok _ _ _ _ _ hq]
    cases hrows : lastestCharges out w plate with
    | nil => exact absurd hrows (lastestCharges_ne_nil out w plate c hc)
    | cons row rows =>
      obtain ⟨nid, enterNid, rfl⟩ := lastestCharges_columns out w plate row (by simp [hrows])
      exact ⟨.system .sqlExecuteException, rfl⟩

theorem turnBack_charges (out : Outside) (info : PassRecord) (passId : String) (w : World)
    (c : String × ChargeRecord) (hc : ChargedAt w info.plateNumber1 c) :
    (run (turnBack out info passId) w).2.charges = w.charges := by
  have hdelete : Unchanged (fun w : World => (w.charges, w.detects)) (deleteInnerVehicle out.env passId) :=
    steps_execute out.env _ _ fun _ => rfl
  have hsame := hdelete w
  match hd : run (deleteInnerVehicle out.env passId) w with
  | (.error e, t) =>
    rw [hd] at hsame
    rw [turnBack, run_bind_error _ _ _ _ _ hd]
    exact congrArg Prod.fst hsame
  | (.ok a, t) =>
    rw [hd] at hsame
    obtain ⟨hcharges, hdetects⟩ := Prod.mk.inj hsame
    have hct : ChargedAt t info.plateNumber1 c := by
      rw [ChargedAt, hcharges, hdetects]
      exact hc
    obtain ⟨e, he⟩ := queryLastestCharge_raises out info.plateNumber1 t c hct
    rw [turnBack, run_bind_ok _ _ _ _ _ hd, run_bind_error _ _ _ _ _ he]
    exact hcharges

theorem decideRelease_charges (out : Outside) (device : Device) (info : PassRecord) (passId : String) (s : Site)
    (c : String × ChargeRecord) (hc : ChargedAt s.world info.plateNumber1 c) (ht : device.type = parkExit)
    (hd : info.passDirection = passIn) :
    (run (decideRelease out device info passId) s).2.world.charges = s.world.charges := by
  have hdelete : Unchanged World.charges (deleteInnerVehicle out.env passId) :=
    steps_execute out.env _ _ fun _ => rfl
  by_cases hm : isNoMotorVehicle info.plateNumber1 = true
  · rw [decideRelease, if_pos hm, if_pos hd]
    exact hdelete s.world
  · rw [decideRelease, if_neg hm, if_pos ⟨ht, hd⟩]
    exact turnBack_charges out info passId s.world c hc

/-- Whatever happens on the way, the charge stays. -/
theorem onDeviceData_charges (out : Outside) (source : String) (data : DeviceData) (pics : List Bytes) (s : Site)
    (c : String × ChargeRecord) (hc : ChargedAt s.world data.plateInfo1 c)
    (ht : (deviceAt s.world source).type = parkExit) (hd : data.direction = passIn) :
    (run (onDeviceData out source data pics) s).2.world.charges = s.world.charges := by
  have hkeep := steps_recordPassage out source data pics s
  rw [onDeviceData, swallow, run_handle]
  match hr : run (recordPassage out source data pics) s with
  | (.error e, t) =>
    rw [hr] at hkeep
    rw [run_bind_error _ _ _ _ _ hr]
    exact hkeep.1
  | (.ok r, t) =>
    rw [hr] at hkeep
    obtain ⟨hcharges, hdetects⟩ := hkeep
    obtain ⟨hdevice, url1, url2, hinfo⟩ := recordPassage_returned out source data pics s t r hr
    have hct : ChargedAt t.world r.2.1.plateNumber1 c := by
      obtain ⟨hmem, x, hx, hexit, hplate⟩ := hc
      rw [hinfo]
      exact ⟨by rw [hcharges]; exact hmem, x, hdetects.subset hx, hexit, hplate⟩
    have hsame := decideRelease_charges out r.1 r.2.1 r.2.2 t c hct (by rw [hdevice]; exact ht)
      (by rw [hinfo]; exact hd)
    rw [run_bind_ok _ _ _ _ _ hr]
    match hdec : run (decideRelease out r.1 r.2.1 r.2.2) t with
    | (.ok a, u) =>
      rw [hdec] at hsame
      exact hsame.trans hcharges
    | (.error e, u) =>
      rw [hdec] at hsame
      exact hsame.trans hcharges

/-- In no state does a vehicle that turns back have its exit undone. -/
theorem turning_back_never_undone (out : Outside) (source : String) (data : DeviceData) (pics : List Bytes)
    (s : Site) (chargeId : String) (record : ChargeRecord) (car : InnerCar)
    (h : TurnsBack out source data s chargeId record car) :
    ¬ Undone chargeId car s (run (onDeviceData out source data pics) s).2 := by
  intro hu
  have hcharges := onDeviceData_charges out source data pics s _ h.charged h.atExit h.direction
  apply hu.uncharged
  rw [hcharges]
  exact List.mem_map_of_mem h.charged.1

def chargedExit : ChargeRecord := { exitId := "x1", enterId := "e1", charge := 5, actualCharge := 5 }

/-- A vehicle left five minutes ago. -/
def lotAfterExit : Site where
  world := {
    detects := [{ passId := "e1", plateNumber1 := "京A12345", passDirection := 9 },
                { passId := "x1", plateNumber1 := "京A12345", passDirection := 10 }]
    charges := [("c1", chargedExit)]
    equips := [{ deviceId := "d2", ip := "10.0.0.2", type := 10 }] }

theorem localPath_slashed : ([46, slash] : Bytes).getLast? = some slash := rfl

theorem localPath_named : 0 ∉ ([46, slash] : Bytes) := by decide

def localDirectory : Directory := ⟨[46, slash], localPath_slashed, localPath_named⟩

def quietOutside : Outside where
  env := quietEnv
  opts := { picPath := localDirectory, voucherPicPath := localDirectory, serverIp := [], httpPort := [] }
  disk := { space := fun _ => none, isFile := fun _ => false, removes := fun _ => true }
  localTime _ := ⟨2016, 5, 1, 8, 0, 0⟩
  recordTime _ := 1462060500

theorem lotAfterExit_turnsBack :
    TurnsBack quietOutside "10.0.0.2" (reportData "京A12345") lotAfterExit "c1" chargedExit ⟨"e1", 9⟩ where
  atExit := by decide
  direction := rfl
  charged := ⟨List.mem_singleton_self _, _, List.mem_cons_of_mem _ (List.mem_singleton_self _), rfl, rfl⟩
  latest := fun _ _ => le_refl _
  recent := by decide
  entered := ⟨_, List.mem_cons_self, rfl, rfl, rfl⟩
  entry := rfl
  gone := by decide

theorem turning_back_once :
    ¬ Undone "c1" ⟨"e1", 9⟩ lotAfterExit
      (run (onDeviceData quietOutside "10.0.0.2" (reportData "京A12345") []) lotAfterExit).2 :=
  turning_back_never_undone quietOutside "10.0.0.2" (reportData "京A12345") [] lotAfterExit "c1" chargedExit _
    lotAfterExit_turnsBack

/-- Every statement succeeds, and the charge is still there. -/
theorem charge_kept_after_turning_back :
    TurnsBack quietOutside "10.0.0.2" (reportData "京A12345") lotAfterExit "c1" chargedExit ⟨"e1", 9⟩ ∧
      ¬ Undone "c1" ⟨"e1", 9⟩ lotAfterExit
        (run (onDeviceData quietOutside "10.0.0.2" (reportData "京A12345") []) lotAfterExit).2 := by
  refine ⟨lotAfterExit_turnsBack, fun hu => hu.uncharged ?_⟩
  rw [onDeviceData_charges quietOutside "10.0.0.2" (reportData "京A12345") [] lotAfterExit ("c1", chargedExit)
    lotAfterExit_turnsBack.charged lotAfterExit_turnsBack.atExit rfl]
  exact List.mem_singleton_self _

end BitPark.TurnBack
