import BitPark.Pairing

namespace BitPark.Waiting

open BitPark.Effect BitPark.Server BitPark.Database BitPark.Devices BitPark.Gate BitPark.Release BitPark.PictureFiles
  BitPark.Storage BitPark.DeviceMessage BitPark.Passage BitPark.DeviceReport BitPark.MaxElement
open BitPark.TurnBack (quietOutside)

/-! The vehicles that wait at the entrances, and the exit that lets one of them in. -/

/-- The row at which `max_element` ends. The query fills in no waiting time, so
that the times compared are what the memory of the vector holds. -/
def longestBy (memory : ℕ → ℤ) (waits : List WaitVehicleInfo) : Option WaitVehicleInfo :=
  (maxElement (fun row => memory row.2) waits.zipIdx).map (·.1)

theorem longestBy_mem (memory : ℕ → ℤ) (waits : List WaitVehicleInfo) (v : WaitVehicleInfo)
    (h : longestBy memory waits = some v) : v ∈ waits := by
  obtain ⟨⟨row, i⟩, hrow, rfl⟩ := Option.map_eq_some_iff.mp h
  exact List.fst_mem_of_mem_zipIdx (maxElement_mem _ _ _ hrow)

/-- The entrances that a list of commands opens. -/
def opened (cmds : List (String × Command)) : List String := (cmds.filter fun c => isOpen c.2).map (·.1)

theorem opened_append (cmds cmds' : List (String × Command)) : opened (cmds ++ cmds') = opened cmds ++ opened cmds' := by
  rw [opened, opened, opened, List.filter_append, List.map_append]

/-- The entrances opened between two states. -/
def openings (w w' : World) : List String := opened (w'.sent.drop w.sent.length)

theorem openings_append (w w' : World) (cmds : List (String × Command)) (h : w'.sent = w.sent ++ cmds) :
    openings w w' = opened cmds := by
  rw [openings, h, List.drop_left]

/-- Commands were sent that open nothing, and that is all. -/
def Quietly (w w' : World) : Prop := ∃ cmds, w' = { w with sent := w.sent ++ cmds } ∧ opened cmds = []

instance : IsPreorder World Quietly where
  refl w := ⟨[], by rw [List.append_nil], rfl⟩
  trans := by
    rintro w _ _ ⟨cmds, rfl, h⟩ ⟨cmds', rfl, h'⟩
    exact ⟨cmds ++ cmds', by rw [List.append_assoc], by rw [opened_append, h, h']; rfl⟩

theorem quietly_send (w : World) (ip : String) (cmd : Command) (h : isOpen cmd = false) :
    Quietly w { w with sent := w.sent ++ [(ip, cmd)] } :=
  ⟨[(ip, cmd)], rfl, by simp [opened, h]⟩

/-! One vehicle is let in. -/

/-- The entrance takes both commands, and what is asked of the database is done. -/
structure Admissible (env : Env) (ip : String) (remainNum : ℤ) : Prop where
  cancels : env.device ip (.gate bgcCancleClose bgmManual) = .done
  opens : env.device ip (.gate bgcOpen bgmManual) = .done
  entrances : remainNum + 1 = 0 → env.fails ⟨.select, .equipInfo, "videofunc"⟩ = none
  deletes : env.fails ⟨.delete, .waitInfo, ip⟩ = none

/-- The state once the entrance was told to open. -/
def letIn (w : World) (ip : String) : World :=
  { w with sent := w.sent ++ [(ip, .gate bgcCancleClose bgmManual), (ip, .gate bgcOpen bgmManual)] }

theorem run_openCommands {α : Type} (env : Env) (ip : String) (w : World) (p : Proc α)
    (hc : env.device ip (.gate bgcCancleClose bgmManual) = .done)
    (ho : env.device ip (.gate bgcOpen bgmManual) = .done) :
    run (do
      operateGateway env ip bgcCancleClose bgmManual
      operateGateway env ip bgcOpen bgmManual
      p) w = run p (letIn w ip) := by
  rw [operateGateway, operateGateway, run_bind_ok _ _ _ _ _ (run_dtsOperate env ip _ w hc),
    run_bind_ok _ _ _ _ _ (run_dtsOperate env ip _ _ ho), letIn, List.append_assoc]
  rfl

theorem steps_closeEntrances (env : Env) (devices : List Device) : Steps Quietly
    (forEach devices fun dev => tolerate (operateGateway env dev.ip bgcKeepClose bgmManual)) :=
  steps_forEach devices _ fun dev _ =>
    steps_tolerate (steps_send env dev.ip _ fun w => quietly_send w dev.ip _ rfl)

theorem run_admitWaiting (env : Env) (vehicle : WaitVehicleInfo) (remainNum : ℤ) (w : World)
    (h : Admissible env vehicle.deviceIp remainNum) : ∃ u, Quietly (letIn w vehicle.deviceIp) u ∧
      run (admitWaiting env vehicle remainNum) w =
        (.ok (), { u with waits := u.waits.filter (·.deviceIp ≠ vehicle.deviceIp) }) := by
  have hdelete : ∀ u, run (deleteWaitVehicleByDeviceIp env vehicle.deviceIp) u =
      (.ok (), { u with waits := u.waits.filter (·.deviceIp ≠ vehicle.deviceIp) }) := fun u =>
    run_execute env _ _ u h.deletes
  rw [admitWaiting, run_openCommands env _ w _ h.cancels h.opens]
  by_cases hn : remainNum + 1 = 0
  · rw [if_pos hn, queryEntranceDeviceList, run_bind_ok _ _ _ _ _ (run_query env _ _ _ (h.entrances hn))]
    obtain ⟨u, hu⟩ := run_forEach_tolerate ((letIn w vehicle.deviceIp).equips.filter (·.type = parkEntrance))
      (fun dev => operateGateway env dev.ip bgcKeepClose bgmManual) (letIn w vehicle.deviceIp)
    refine ⟨u, steps_returned (steps_closeEntrances env _) _ u _ hu, ?_⟩
    rw [run_bind_ok _ _ _ _ _ hu]
    exact hdelete u
  · rw [if_neg hn]
    exact ⟨letIn w vehicle.deviceIp, refl_of Quietly _, hdelete _⟩

theorem admissible_of_returned (env : Env) (vehicle : WaitVehicleInfo) (remainNum : ℤ) (w t : World) (a : Unit)
    (h : run (admitWaiting env vehicle remainNum) w = (.ok a, t)) : Admissible env vehicle.deviceIp remainNum := by
  rw [admitWaiting] at h
  obtain ⟨_, u, h1, h⟩ := bind_returned _ _ _ _ _ h
  obtain ⟨_, v, h2, h⟩ := bind_returned _ _ _ _ _ h
  have hcancels := (dtsOperate_returned _ _ _ _ _ _ h1).1
  have hopens := (dtsOperate_returned _ _ _ _ _ _ h2).1
  split_ifs at h with hn
  · obtain ⟨devices, _, h3, h⟩ := bind_returned _ _ _ _ _ h
    obtain ⟨_, _, -, h4⟩ := bind_returned _ _ _ _ _ h
    exact ⟨hcancels, hopens, fun _ => query_done _ _ _ _ _ _ h3, execute_done _ _ _ _ _ _ h4⟩
  · exact ⟨hcancels, hopens, fun h0 => absurd h0 hn, execute_done _ _ _ _ _ _ h⟩

/-- Nothing is taken out of the waiting table by a call that raises. -/
theorem fails_admitWaiting (env : Env) (vehicle : WaitVehicleInfo) (remainNum : ℤ) :
    Fails (SameAt World.waits) (admitWaiting env vehicle remainNum) := by
  have hsend : ∀ ip cmd, Unchanged World.waits (dtsOperate env ip cmd) := fun ip cmd =>
    steps_dtsOperate (fun _ _ => rfl) env ip cmd
  exact fails_bind (hsend _ _) fun _ => fails_bind (hsend _ _) fun _ => fails_ite _
    (fails_bind (steps_query env _ _) fun devices =>
      fails_bind (steps_forEach devices _ fun _ _ => steps_tolerate (hsend _ _)) fun _ => fails_execute env _ _)
    (fails_execute env _ _)

/-! The exit. -/

/-- Exactly one of the vehicles that waited was let in, and its row alone is gone. -/
def Admitted (w w' : World) : Prop :=
  ∃ v ∈ w.waits, openings w w' = [v.deviceIp] ∧ w'.waits = w.waits.filter (· ≠ v)

theorem not_admitted_of_waits (w w' : World) (h : w'.waits = w.waits) : ¬ Admitted w w' := by
  rintro ⟨v, hv, -, hwaits⟩
  rw [h] at hwaits
  rw [hwaits] at hv
  exact of_decide_eq_true (List.mem_filter.mp hv).2 rfl

/-- What the choice is made from can be read. -/
def Readable (env : Env) : Prop :=
  (∀ s ∈ parkingStatements, env.fails s = none) ∧ env.fails ⟨.select, .waitInfo, ""⟩ = none

section AfterExit

variable (out : Outside) (pass : PassVehicle) (w : World) (vehicle : WaitVehicleInfo)
variable (hlongest : out.longestWaiting w.waits = some vehicle) (hjudge : w.config.judgeRemainParkingNumber = 1)
include hlongest hjudge

theorem run_afterExit (h : Readable out.env) : run (afterExit out pass) w =
    run (if 0 ≤ (parkingNumber w).realRemainParking + 1 then
      admitWaiting out.env vehicle (parkingNumber w).realRemainParking else pure ()) w := by
  have hjudged : run (queryJudgeRemainParkingNumber out.env) w = (.ok 1, w) := by
    rw [← hjudge]
    exact run_query out.env _ _ w (h.1 _ (by decide))
  have hwaits : run (queryWaitVehicleInfo out.env) w = (.ok w.waits, w) := run_query out.env _ _ w h.2
  rw [afterExit, run_bind_ok _ _ _ _ _ hjudged, if_neg (by decide),
    run_bind_ok _ _ _ _ _ (run_queryParkingNumber out.env w h.1), if_pos rfl, waitVehicleRelease,
    if_neg (by decide), admitLongest, run_bind_ok _ _ _ _ _ hwaits, hlongest]

omit hlongest in
theorem readable_of_returned (t : World) (a : Unit) (h : run (afterExit out pass) w = (.ok a, t)) :
    Readable out.env := by
  rw [afterExit] at h
  obtain ⟨judge, u, h1, hrest⟩ := bind_returned _ _ _ _ _ h
  obtain ⟨hj, hu⟩ := query_returned _ _ _ _ _ _ h1
  rw [show judge = 1 from hj.trans hjudge, if_neg (by decide)] at hrest
  obtain ⟨number, v, h2, hrest⟩ := bind_returned _ _ _ _ _ hrest
  obtain ⟨_, _, hs, -⟩ := bind_returned _ _ _ _ _ h2
  rw [if_pos rfl, waitVehicleRelease, if_neg (by decide), admitLongest] at hrest
  exact ⟨(returns_statements out.env u _).mp ⟨_, _, hs⟩, (query_bind_returned _ _ _ _ _ _ _ hrest).1⟩

end AfterExit

theorem fails_afterExit (out : Outside) (pass : PassVehicle) : Fails (SameAt World.waits) (afterExit out pass) := by
  have hpure : Fails (SameAt World.waits) (pure () : Proc Unit) := fails_of_steps (steps_pure ())
  have hlongest : ∀ n, Fails (SameAt World.waits) (admitLongest out n) := by
    intro n
    refine fails_bind (steps_query out.env _ _) fun waits => ?_
    cases out.longestWaiting waits with
    | none => exact hpure
    | some vehicle => exact fails_ite _ (fails_admitWaiting out.env vehicle n) hpure
  have hwait : ∀ n bindType, Fails (SameAt World.waits) (waitVehicleRelease out pass.plateNumber1 n bindType) :=
    fun n bindType => fails_ite _
      (fails_bind (steps_query out.env _ _) fun _ => fails_ite _ hpure (hlongest n)) (hlongest n)
  exact fails_bind (steps_query out.env _ _) fun _ => fails_ite _ hpure <|
    fails_bind (steps_queryParkingNumber out.env) fun _ =>
      fails_ite _ (hwait _ _) (fails_ite _ (hwait _ _) hpure)

theorem openings_letIn (w u : World) (ip : String) (h : Quietly (letIn w ip) u) : openings w u = [ip] := by
  obtain ⟨cmds, rfl, hc⟩ := h
  rw [openings_append w _ _ (List.append_assoc _ _ _), opened_append, hc]
  rfl

theorem filter_deviceIp (waits : List WaitVehicleInfo) (v : WaitVehicleInfo) (hv : v ∈ waits)
    (hd : (waits.map (·.deviceIp)).Nodup) : waits.filter (·.deviceIp ≠ v.deviceIp) = waits.filter (· ≠ v) := by
  apply List.filter_congr
  intro x hx
  rw [decide_eq_decide, not_iff_not]
  exact ⟨List.inj_on_of_nodup_map hd hx hv, congrArg _⟩

/-- A vehicle is let in exactly if the number that was read, corrected by one,
is not negative, and everything that is asked for is done. -/
theorem afterExit_admits (out : Outside) (pass : PassVehicle) (w : World) (vehicle : WaitVehicleInfo)
    (hlongest : out.longestWaiting w.waits = some vehicle) (hv : vehicle ∈ w.waits)
    (hd : (w.waits.map (·.deviceIp)).Nodup) (hjudge : w.config.judgeRemainParkingNumber = 1) :
    Admitted w (run (afterExit out pass) w).2 ↔ 0 ≤ (parkingNumber w).realRemainParking + 1 ∧ Readable out.env ∧
      Admissible out.env vehicle.deviceIp (parkingNumber w).realRemainParking := by
  constructor
  · intro h
    match hr : run (afterExit out pass) w with
    | (.error e, t) =>
      rw [hr] at h
      exact absurd h (not_admitted_of_waits w t (fails_afterExit out pass w e t hr))
    | (.ok a, t) =>
      have hread := readable_of_returned out pass w hjudge t a hr
      rw [run_afterExit out pass w vehicle hlongest hjudge hread] at h hr
      by_cases hn : 0 ≤ (parkingNumber w).realRemainParking + 1
      · rw [if_pos hn] at hr
        exact ⟨hn, hread, admissible_of_returned _ _ _ _ _ _ hr⟩
      · rw [if_neg hn] at h
        exact absurd h (not_admitted_of_waits w w rfl)
  · rintro ⟨hn, hread, hadm⟩
    obtain ⟨u, hu, hrun⟩ := run_admitWaiting out.env vehicle _ w hadm
    rw [run_afterExit out pass w vehicle hlongest hjudge hread, if_pos hn, hrun]
    have hwaits : u.waits = w.waits := by
      obtain ⟨cmds, rfl, -⟩ := hu
      rfl
    refine ⟨vehicle, hv, openings_letIn w u vehicle.deviceIp hu, ?_⟩
    show u.waits.filter _ = _
    rw [hwaits, filter_deviceIp w.waits vehicle hv hd]

/-- A release up to the point at which the vehicles that wait come in. -/
def settle (out : Outside) (device : Device) (info : PassRecord) (passId : String) : Job Unit := do
  let mode ← createRelease out device info
  releaseBy out device { info.toPassVehicle with passId } mode

/-- A vehicle leaves: its release ends with one vehicle fewer inside. -/
structure Leaves (out : Outside) (device : Device) (info : PassRecord) (passId : String) (s t : Site) : Prop where
  direction : info.passDirection = passOut
  released : run (settle out device info passId) s = (.ok (), t)
  removed : t.world.innerCars.length + 1 = s.world.innerCars.length

theorem run_releaseVehicle (out : Outside) (device : Device) (info : PassRecord) (passId : String) (s t : Site)
    (h : Leaves out device info passId s t) : (run (releaseVehicle out device info passId) s).2.world =
      (run (afterExit out { info.toPassVehicle with passId }) t.world).2 := by
  obtain ⟨mode, u, hmode, hrest⟩ := bind_returned _ _ _ _ _ h.released
  rw [releaseVehicle]
  dsimp only
  rw [run_bind_ok _ _ _ _ _ hmode, run_bind_ok _ _ _ _ _ hrest, if_pos h.direction]
  rfl

/-- With `capacity` spaces, no correction, and `parked` vehicles inside besides
the ones that wait, an exit lets a waiting vehicle in exactly if at most two
more wait than there are free spaces, and everything asked for is done. -/
theorem exit_admits_iff (out : Outside) (memory : ℕ → ℤ) (device : Device) (info : PassRecord) (passId : String)
    (s t : Site) (capacity : ℤ) (parked : ℕ) (vehicle : WaitVehicleInfo)
    (hmemory : out.longestWaiting = longestBy memory) (hleaves : Leaves out device info passId s t)
    (hsetting : t.world.config.judgeRemainParkingNumber = 1) (hcapacity : t.world.parkInfo = [⟨capacity, 0⟩])
    (hinside : s.world.innerCars.length = parked + t.world.waits.length)
    (hdistinct : (t.world.waits.map (·.deviceIp)).Nodup)
    (hvehicle : longestBy memory t.world.waits = some vehicle) :
    Admitted t.world (run (releaseVehicle out device info passId) s).2.world ↔
      (t.world.waits.length : ℤ) ≤ capacity - parked + 2 ∧ Readable out.env ∧
        Admissible out.env vehicle.deviceIp (capacity - parked - t.world.waits.length + 1) := by
  have hremoved := hleaves.removed
  have hnumber : (parkingNumber t.world).realRemainParking = capacity - parked - t.world.waits.length + 1 := by
    have hreal : (parkingNumber t.world).realRemainParking = capacity - t.world.innerCars.length + 0 := by
      rw [parkingNumber, hsetting, hcapacity]
      rfl
    omega
  rw [run_releaseVehicle out device info passId s t hleaves,
    afterExit_admits out _ t.world vehicle (by rw [hmemory, hvehicle])
      (longestBy_mem memory _ _ hvehicle) hdistinct hsetting, hnumber]
  refine and_congr_left fun _ => ?_
  constructor <;> intro h <;> omega

def unsetTimes : Outside := { quietOutside with longestWaiting := longestBy fun _ => 0 }

/-- A park of one space. Its vehicle and those that wait have rows inside. -/
def fullLot (waits : List WaitVehicleInfo) : Site where
  world := {
    rules := [RuleTable.hourlyRow []], equips := [Pairing.entranceCamera, Pairing.exitCamera]
    config := { judgeRemainParkingNumber := 1 }
    parkInfo := [⟨1, 0⟩]
    detects := [{ passId := "0", plateNumber1 := "京A12345", passTime := 36000 }]
    innerCars := { nid := "0" } :: waits.map fun v => { nid := v.plateNumber }
    waits }

def exitReport : PassRecord :=
  reportRecord { reportData "京A12345" with direction := 10, passTime := 36000 } "d2" [] []

def waitingRow (entrance : ℕ) : WaitVehicleInfo := ⟨"10.0.1." ++ toString entrance, "W" ++ toString entrance, 2⟩

/-- The state when the exit has been settled. -/
def settledExit (waits : List WaitVehicleInfo) : Site :=
  (run (settle unsetTimes Pairing.exitCamera exitReport "x") (fullLot waits)).2

theorem exit_admits_two : Leaves unsetTimes Pairing.exitCamera exitReport "x" (fullLot [waitingRow 1, waitingRow 2])
      (settledExit [waitingRow 1, waitingRow 2]) ∧
    (Admitted (settledExit [waitingRow 1, waitingRow 2]).world
      (run (releaseVehicle unsetTimes Pairing.exitCamera exitReport "x") (fullLot [waitingRow 1, waitingRow 2])).2.world ↔
      (((settledExit [waitingRow 1, waitingRow 2]).world.waits.length : ℕ) : ℤ) ≤ 1 - (1 : ℕ) + 2 ∧
        Readable unsetTimes.env ∧ Admissible unsetTimes.env (waitingRow 1).deviceIp
          (1 - (1 : ℕ) - ((settledExit [waitingRow 1, waitingRow 2]).world.waits.length : ℕ) + 1)) := by
  have hfacts : (run (settle unsetTimes Pairing.exitCamera exitReport "x")
        (fullLot [waitingRow 1, waitingRow 2])).1.isOk = true ∧
      (settledExit [waitingRow 1, waitingRow 2]).world.innerCars.length = 2 ∧
      (settledExit [waitingRow 1, waitingRow 2]).world.waits = [waitingRow 1, waitingRow 2] ∧
      (settledExit [waitingRow 1, waitingRow 2]).world.config.judgeRemainParkingNumber = 1 ∧
      (settledExit [waitingRow 1, waitingRow 2]).world.parkInfo = [⟨1, 0⟩] := by decide +kernel
  obtain ⟨hok, hinner, hwaits, hsetting, hinfo⟩ := hfacts
  have hleaves : Leaves unsetTimes Pairing.exitCamera exitReport "x" (fullLot [waitingRow 1, waitingRow 2])
      (settledExit [waitingRow 1, waitingRow 2]) := by
    obtain ⟨a, t, ht⟩ := returned_of_isOk _ _ hok
    exact ⟨rfl, by rw [settledExit, ht], by rw [hinner]; rfl⟩
  refine ⟨hleaves, exit_admits_iff unsetTimes (fun _ => 0) Pairing.exitCamera exitReport "x" _ _ 1 1 (waitingRow 1) rfl
    hleaves hsetting hinfo (by rw [hwaits]; rfl) (by rw [hwaits]; decide) (by rw [hwaits]; rfl)⟩

/-- The space of the vehicle that left is free, and none of the three that wait is let in. -/
theorem three_waiting_none_admitted :
    (settledExit [waitingRow 1, waitingRow 2, waitingRow 3]).world.innerCars.map (·.nid) = ["W1", "W2", "W3"] ∧
    openings (settledExit [waitingRow 1, waitingRow 2, waitingRow 3]).world
      (run (releaseVehicle unsetTimes Pairing.exitCamera exitReport "x")
        (fullLot [waitingRow 1, waitingRow 2, waitingRow 3])).2.world = [] ∧
    ¬ Admitted (settledExit [waitingRow 1, waitingRow 2, waitingRow 3]).world
      (run (releaseVehicle unsetTimes Pairing.exitCamera exitReport "x")
        (fullLot [waitingRow 1, waitingRow 2, waitingRow 3])).2.world := by
  have hfacts : (settledExit [waitingRow 1, waitingRow 2, waitingRow 3]).world.innerCars.map (·.nid) =
        ["W1", "W2", "W3"] ∧
      openings (settledExit [waitingRow 1, waitingRow 2, waitingRow 3]).world
        (run (releaseVehicle unsetTimes Pairing.exitCamera exitReport "x")
          (fullLot [waitingRow 1, waitingRow 2, waitingRow 3])).2.world = [] := by decide +kernel
  refine ⟨hfacts.1, hfacts.2, ?_⟩
  rintro ⟨v, -, hopened, -⟩
  rw [hfacts.2] at hopened
  cases hopened

end BitPark.Waiting
