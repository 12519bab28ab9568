import BitPark.Waiting

namespace BitPark.WaitingTime

open BitPark.Effect BitPark.Server BitPark.Database BitPark.Devices BitPark.Gate BitPark.Storage BitPark.DeviceReport
  BitPark.MaxElement BitPark.Waiting
open BitPark.TurnBack (quietOutside)

/-! Which of the waiting vehicles is let in. -/

/-- A row of `park_wait_info`. Its date is never read. -/
structure WaitRow extends WaitVehicleInfo where
  actionDate : ℤ
deriving DecidableEq

/-! A device that connects. -/

def greetingOf (env : Env) (device : Device) : Proc String :=
  if device.type = parkEntrance then queryEntranceGreeting env
  else if device.type = parkExit then queryExitGreeting env
  else pure ""

def greetClient (env : Env) (deviceIp : String) : Proc Unit := do
  let device ← queryDeviceByIP env deviceIp
  unlockDevice env device.ip
  let greeting ← greetingOf env device
  if greeting ≠ "" then ledShowGreeting env device.ip greeting else notifyRemainParkingToAllDevice env

def admitOrClose (out : Outside) (deviceIp : String) (remainNum : ℤ) : Proc Unit := do
  let waits ← queryWaitVehicleInfo out.env
  if waits.isEmpty then
    if remainNum ≤ 0 then operateGateway out.env deviceIp bgcKeepClose bgmManual
    else operateGateway out.env deviceIp bgcCancleClose bgmManual
  else if 0 ≤ remainNum then
    match out.longestWaiting waits with
    | none => pure ()
    | some vehicle =>
      autoOpenEntranceGateway out.env vehicle.deviceIp vehicle.plateNumber vehicle.plateType
      deleteWaitVehicleByDeviceIp out.env vehicle.deviceIp
  else pure ()

def ledShowNewClient (out : Outside) (deviceIp : String) : Proc Unit := tolerate do
  greetClient out.env deviceIp
  let number ← queryParkingNumber out.env
  admitOrClose out deviceIp number.realRemainParking

/-! Which entrances may be opened. -/

/-- Of all entrances only one may have been opened. -/
def OpensOnly (ip : String) (w w' : World) : Prop :=
  ∃ cmds, w'.sent = w.sent ++ cmds ∧ ∀ x ∈ opened cmds, x = ip

instance (ip : String) : IsPreorder World (OpensOnly ip) where
  refl w := ⟨[], (List.append_nil _).symm, fun x hx => by cases hx⟩
  trans := by
    rintro w u v ⟨cmds, h, hc⟩ ⟨cmds', h', hc'⟩
    refine ⟨cmds ++ cmds', by rw [h', h, List.append_assoc], fun x hx => ?_⟩
    rw [opened_append] at hx
    exact (List.mem_append.mp hx).elim (hc x) (hc' x)

theorem opensOnly_of_quietly (ip : String) (w w' : World) (h : Quietly w w') : OpensOnly ip w w' := by
  obtain ⟨cmds, rfl, hc⟩ := h
  exact ⟨cmds, rfl, fun x hx => by rw [hc] at hx; cases hx⟩

theorem opensOnly_self (ip : String) (w : World) (cmd : Command) :
    OpensOnly ip w { w with sent := w.sent ++ [(ip, cmd)] } := by
  refine ⟨[(ip, cmd)], rfl, fun x hx => ?_⟩
  obtain ⟨c, hc, rfl⟩ := List.mem_map.mp hx
  rw [List.mem_singleton.mp (List.mem_filter.mp hc).1]

theorem opensOnly_other (ip : String) (w : World) (ip' : String) (cmd : Command) (h : isOpen cmd = false) :
    OpensOnly ip w { w with sent := w.sent ++ [(ip', cmd)] } :=
  opensOnly_of_quietly ip w _ (quietly_send w ip' cmd h)

theorem opensOnly_waits (ip : String) (w : World) (l : List WaitVehicleInfo) : OpensOnly ip w { w with waits := l } :=
  ⟨[], (List.append_nil _).symm, fun x hx => by cases hx⟩

theorem eq_of_openings (ip : String) (w w' : World) (h : OpensOnly ip w w') (x : String) (hx : x ∈ openings w w') :
    x = ip := by
  obtain ⟨cmds, hs, hc⟩ := h
  rw [openings_append w w' cmds hs] at hx
  exact hc x hx

/-- What follows a first part that opens nothing starts from the state it left. -/
theorem opensOnly_bind {α : Type} (ip : String) (p : Proc α) (q : α → Proc Unit) (w : World) (hp : Steps Quietly p)
    (hq : ∀ a u, run p w = (.ok a, u) → OpensOnly ip u (run (q a) u).2) : OpensOnly ip w (run (p >>= q) w).2 := by
  have hquiet := hp w
  rw [run_bind]
  match hr : run p w with
  | (.ok a, u) =>
    rw [hr] at hquiet
    exact trans_of (OpensOnly ip) (opensOnly_of_quietly ip w u hquiet) (hq a u hr)
  | (.error e, u) =>
    rw [hr] at hquiet
    exact opensOnly_of_quietly ip w u hquiet

theorem steps_admitWaiting (env : Env) (vehicle : WaitVehicleInfo) (n : ℤ) :
    Steps (OpensOnly vehicle.deviceIp) (admitWaiting env vehicle n) := by
  have hself : ∀ cmd, Steps (OpensOnly vehicle.deviceIp) (dtsOperate env vehicle.deviceIp cmd) := fun cmd =>
    steps_send env _ cmd fun w => opensOnly_self _ w cmd
  have hclose : ∀ devices : List Device, Steps (OpensOnly vehicle.deviceIp)
      (forEach devices fun dev => tolerate (operateGateway env dev.ip bgcKeepClose bgmManual)) := fun devices w =>
    opensOnly_of_quietly _ w _ (steps_closeEntrances env devices w)
  have hdelete : Steps (OpensOnly vehicle.deviceIp) (deleteWaitVehicleByDeviceIp env vehicle.deviceIp) :=
    steps_execute env _ _ fun w => opensOnly_waits _ w _
  exact steps_bind (hself _) fun _ => steps_bind (hself _) fun _ => steps_ite _
    (steps_bind (steps_query env _ _) fun devices => steps_bind (hclose devices) fun _ => hdelete) hdelete

theorem steps_autoOpenThenDelete (env : Env) (vehicle : WaitVehicleInfo) : Steps (OpensOnly vehicle.deviceIp) (do
    autoOpenEntranceGateway env vehicle.deviceIp vehicle.plateNumber vehicle.plateType
    deleteWaitVehicleByDeviceIp env vehicle.deviceIp) :=
  steps_bind (steps_autoOpenEntranceGateway env _ _ (opensOnly_self _) (opensOnly_other _) (opensOnly_waits _) _)
    fun _ => steps_execute env _ _ fun w => opensOnly_waits _ w _

theorem steps_greetClient (env : Env) (deviceIp : String) : Steps Quietly (greetClient env deviceIp) := by
  have hsend : ∀ ip cmd, isOpen cmd = false → Steps Quietly (dtsOperate env ip cmd) := fun ip cmd h =>
    steps_send env ip cmd fun w => quietly_send w ip cmd h
  have hgreeting : ∀ device, Steps Quietly (greetingOf env device) := fun device =>
    steps_ite _ (steps_query env _ _) (steps_ite _ (steps_query env _ _) (steps_pure ""))
  have hnotify : Steps Quietly (notifyRemainParkingToAllDevice env) :=
    steps_bind (steps_queryParkingNumber env) fun _ => steps_bind (steps_query env _ _) fun devices =>
      steps_forEach devices _ fun dev _ => steps_tolerate (hsend dev.ip _ rfl)
  exact steps_bind (steps_query env _ _) fun device => steps_bind (hsend _ _ rfl) fun _ =>
    steps_bind (hgreeting device) fun _ => steps_ite _ (hsend _ _ rfl) hnotify

section Chosen

variable (out : Outside) (memory : ℕ → ℤ) (w : World) (ip : String)
variable (hmemory : out.longestWaiting = longestBy memory) (hall : ∀ v ∈ w.waits, v.deviceIp = ip)
include hmemory hall

theorem opensOnly_admitLongest (n : ℤ) : OpensOnly ip w (run (admitLongest out n) w).2 := by
  refine opensOnly_bind ip _ _ w (steps_query out.env _ _) fun waits u hq => ?_
  obtain ⟨hwaits, hu⟩ := query_returned _ _ _ _ _ _ hq
  rw [hu]
  cases hv : out.longestWaiting waits with
  | none => exact refl_of (OpensOnly ip) w
  | some vehicle =>
    rw [hmemory, hwaits] at hv
    rw [← hall vehicle (longestBy_mem memory w.waits vehicle hv)]
    exact steps_ite _ (steps_admitWaiting out.env vehicle n) (steps_pure ()) w

theorem opensOnly_waitVehicleRelease (plate : String) (n bindType : ℤ) :
    OpensOnly ip w (run (waitVehicleRelease out plate n bindType) w).2 := by
  have hlongest := opensOnly_admitLongest out memory w ip hmemory hall n
  rw [waitVehicleRelease]
  by_cases hb : bindType = 2
  · rw [if_pos hb]
    refine opensOnly_bind ip _ _ w (steps_query out.env _ _) fun vip u hq => ?_
    rw [(query_returned _ _ _ _ _ _ hq).2]
    split_ifs
    · exact refl_of (OpensOnly ip) w
    · exact hlongest
  · rw [if_neg hb]
    exact hlongest

theorem opensOnly_admitOrClose (deviceIp : String) (n : ℤ) : OpensOnly ip w (run (admitOrClose out deviceIp n) w).2 := by
  have hclose : ∀ action, isOpen (.gate action bgmManual) = false →
      OpensOnly ip w (run (operateGateway out.env deviceIp action bgmManual) w).2 := fun action h =>
    steps_send out.env deviceIp _ (fun w => opensOnly_other ip w deviceIp _ h) w
  refine opensOnly_bind ip _ _ w (steps_query out.env _ _) fun waits u hq => ?_
  obtain ⟨hwaits, hu⟩ := query_returned _ _ _ _ _ _ hq
  rw [hu]
  split_ifs with hempty hn
  · exact hclose bgcKeepClose rfl
  · exact hclose bgcCancleClose rfl
  · cases hv : out.longestWaiting waits with
    | none => exact refl_of (OpensOnly ip) w
    | some vehicle =>
      rw [hmemory, hwaits] at hv
      rw [← hall vehicle (longestBy_mem memory w.waits vehicle hv)]
      exact steps_autoOpenThenDelete out.env vehicle w
  · exact refl_of (OpensOnly ip) w

theorem opensOnly_ledShowNewClient (deviceIp : String) : OpensOnly ip w (run (ledShowNewClient out deviceIp) w).2 := by
  rw [ledShowNewClient, run_tolerate_state]
  refine opensOnly_bind ip _ _ w (steps_greetClient out.env deviceIp) fun _ u hgreet => ?_
  refine opensOnly_bind ip _ _ u (steps_queryParkingNumber out.env) fun number v hnumber => ?_
  have hquiet : Quietly w v := trans_of Quietly (steps_returned (steps_greetClient out.env deviceIp) w u _ hgreet)
    (steps_returned (steps_queryParkingNumber out.env) u v _ hnumber)
  have hwaits : v.waits = w.waits := by
    obtain ⟨cmds, rfl, -⟩ := hquiet
    rfl
  exact opensOnly_admitOrClose out memory v ip hmemory (by rwa [hwaits]) deviceIp _

end Chosen

/-- The entrance of a row with the greatest date. -/
def MostRecent (rows : List WaitRow) (ip : String) : Prop :=
  ∃ row ∈ rows, row.deviceIp = ip ∧ ∀ other ∈ rows, other.actionDate ≤ row.actionDate

/-- A call opens only the entrance of the row with the greatest date, in
whatever order the rows come and whatever the memory holds. -/
def ReleasedByTime (rows : List WaitRow) (call : Outside → Proc Unit) : Prop :=
  ∃ ip, (rows ≠ [] → MostRecent rows ip) ∧ ∀ (out : Outside) (memory : ℕ → ℤ) (order : List WaitRow) (w : World),
    out.longestWaiting = longestBy memory → order.Perm rows → w.waits = order.map (·.toWaitVehicleInfo) →
      ∀ x ∈ openings w (run (call out) w).2, x = ip

/-- All waiting vehicles are at one entrance. -/
def OneEntrance (rows : List WaitRow) : Prop := ∀ row ∈ rows, ∀ other ∈ rows, row.deviceIp = other.deviceIp

theorem mostRecent_of_oneEntrance (rows : List WaitRow) (h : OneEntrance rows) (row : WaitRow) (hrow : row ∈ rows) :
    MostRecent rows row.deviceIp := by
  obtain ⟨last, hlast⟩ := maxElement_isSome WaitRow.actionDate rows (List.ne_nil_of_mem hrow)
  have hmem := maxElement_mem WaitRow.actionDate rows last hlast
  exact ⟨last, hmem, h last hmem row hrow, le_maxElement WaitRow.actionDate rows last hlast⟩

theorem releasedByTime_of_oneEntrance (rows : List WaitRow) (call : Outside → Proc Unit) (h : OneEntrance rows)
    (hcall : ∀ (out : Outside) (memory : ℕ → ℤ) (w : World) (ip : String), out.longestWaiting = longestBy memory →
      (∀ v ∈ w.waits, v.deviceIp = ip) → OpensOnly ip w (run (call out) w).2) : ReleasedByTime rows call := by
  obtain ⟨ip, hlongest, hall⟩ : ∃ ip, (rows ≠ [] → MostRecent rows ip) ∧ ∀ row ∈ rows, row.deviceIp = ip := by
    cases rows with
    | nil => exact ⟨"", fun hn => absurd rfl hn, fun row hrow => by cases hrow⟩
    | cons row rest =>
      exact ⟨row.deviceIp, fun _ => mostRecent_of_oneEntrance _ h row List.mem_cons_self,
        fun other hother => h other hother row List.mem_cons_self⟩
  refine ⟨ip, hlongest, fun out memory order w hmemory horder hwaits => ?_⟩
  refine eq_of_openings ip w _ (hcall out memory w ip hmemory fun v hv => ?_)
  rw [hwaits] at hv
  obtain ⟨row, hrow, rfl⟩ := List.mem_map.mp hv
  exact hall row (horder.subset hrow)

/-- Some memory makes any of the rows the one that is chosen. -/
theorem longestBy_chooses (waits : List WaitVehicleInfo) (v : WaitVehicleInfo) (hv : v ∈ waits) :
    ∃ memory, longestBy memory waits = some v := by
  obtain ⟨i, hi⟩ := List.mem_iff_getElem?.mp hv
  refine ⟨fun j => if j = i then 1 else 0, ?_⟩
  rw [longestBy, maxElement_eq _ _ (v, i) (List.mk_mem_zipIdx_iff_getElem?.mpr hi)]
  · rfl
  · rintro ⟨u, j⟩ hj hne
    have hji : j ≠ i := by
      rintro rfl
      rw [List.mk_mem_zipIdx_iff_getElem?, hi] at hj
      exact hne (by rw [Option.some.inj hj])
    simp [hji]

/-- A call that may open the entrance of each row is bound to the dates only if there is just one. -/
theorem oneEntrance_of_released (rows : List WaitRow) (call : Outside → Proc Unit) (h : ReleasedByTime rows call)
    (hcall : ∀ (out : Outside) (v : WaitVehicleInfo) (waits : List WaitVehicleInfo), out.env = quietEnv →
      out.longestWaiting waits = some v → v ∈ waits →
      v.deviceIp ∈ openings { waits } (run (call out) { waits }).2) : OneEntrance rows := by
  obtain ⟨ip, -, hopen⟩ := h
  have hrow : ∀ row ∈ rows, row.deviceIp = ip := by
    intro row hrow
    have hmem : row.toWaitVehicleInfo ∈ rows.map (·.toWaitVehicleInfo) := List.mem_map_of_mem hrow
    obtain ⟨memory, hmemory⟩ := longestBy_chooses _ _ hmem
    exact hopen { quietOutside with longestWaiting := longestBy memory } memory rows
      { waits := rows.map (·.toWaitVehicleInfo) } rfl (List.Perm.refl rows) rfl _ (hcall _ _ _ rfl hmemory hmem)
  intro row h1 other h2
  rw [hrow row h1, hrow other h2]

/-- The state once a device that is not registered was greeted in an empty park. -/
def greeted (waits : List WaitVehicleInfo) : World := { waits, sent := [("", .unlock)] }

section Opens

variable (out : Outside) (v : WaitVehicleInfo) (waits : List WaitVehicleInfo)
variable (henv : out.env = quietEnv) (hv : out.longestWaiting waits = some v)
include henv hv

theorem waitVehicleRelease_opens (plate : String) :
    v.deviceIp ∈ openings { waits } (run (waitVehicleRelease out plate 0 1) { waits }).2 := by
  have hadmits : Admissible out.env v.deviceIp 0 := by
    rw [henv]
    exact ⟨rfl, rfl, fun _ => rfl, rfl⟩
  obtain ⟨u, hu, hrun⟩ := run_admitWaiting out.env v 0 { waits } hadmits
  have hwaits : run (queryWaitVehicleInfo out.env) { waits } = (.ok waits, { waits }) :=
    run_query out.env _ _ _ (by rw [henv]; rfl)
  rw [waitVehicleRelease, if_neg (by decide), admitLongest, run_bind_ok _ _ _ _ _ hwaits, hv]
  dsimp only
  rw [if_pos (by decide), hrun]
  show v.deviceIp ∈ openings { waits } u
  rw [openings_letIn _ u v.deviceIp hu]
  exact List.mem_singleton_self _

theorem ledShowNewClient_opens (deviceIp : String) (hne : waits ≠ []) :
    v.deviceIp ∈ openings { waits } (run (ledShowNewClient out deviceIp) { waits }).2 := by
  have hgreet : run (greetClient out.env deviceIp) { waits } = (.ok (), greeted waits) := by
    rw [henv]
    rfl
  have hnumber := run_queryParkingNumber out.env (greeted waits) fun s _ => by rw [henv]; rfl
  have hwaits : run (queryWaitVehicleInfo out.env) (greeted waits) = (.ok waits, greeted waits) :=
    run_query out.env _ _ _ (by rw [henv]; rfl)
  have hopen := run_autoOpen_uncounted out.env (fun s => by rw [henv]; rfl) v.deviceIp v.plateNumber
    (fun cmd => by rw [henv]; rfl) (greeted waits) v.plateType List.not_mem_nil rfl
  have hok : (run (autoOpenEntranceGateway out.env v.deviceIp v.plateNumber v.plateType) (greeted waits)).1 =
      .ok () := by rw [autoOpenEntranceGateway, run_tolerate]
  have hauto : run (autoOpenEntranceGateway out.env v.deviceIp v.plateNumber v.plateType) (greeted waits) =
      (.ok (), { waits, sent := [("", .unlock), (v.deviceIp, .led (.plate v.plateNumber) (some ledShowPlatenumberTime)),
        (v.deviceIp, .gate bgcOpen bgmAuto)] }) := Prod.ext hok hopen
  have hfree : 0 ≤ (parkingNumber (greeted waits)).realRemainParking := le_of_eq rfl
  rw [ledShowNewClient, run_tolerate_state, run_bind_ok _ _ _ _ _ hgreet, run_bind_ok _ _ _ _ _ hnumber, admitOrClose,
    run_bind_ok _ _ _ _ _ hwaits, if_neg (by simpa using hne), if_pos hfree, hv]
  dsimp only
  rw [run_bind_ok _ _ _ _ _ hauto, deleteWaitVehicleByDeviceIp, run_execute out.env _ _ _ (by rw [henv]; rfl)]
  exact List.mem_singleton_self _

end Opens

/-- Either call lets in the vehicle that its date selects exactly if there is
only one entrance to choose from. -/
theorem released_by_time_iff (rows : List WaitRow) :
    ((∀ plate n bindType, ReleasedByTime rows fun out => waitVehicleRelease out plate n bindType) ↔
      OneEntrance rows) ∧
    ((∀ deviceIp, ReleasedByTime rows fun out => ledShowNewClient out deviceIp) ↔ OneEntrance rows) := by
  constructor
  · constructor
    · intro h
      exact oneEntrance_of_released rows _ (h "" 0 1) fun out v waits henv hv _ =>
        waitVehicleRelease_opens out v waits henv hv ""
    · intro h plate n bindType
      exact releasedByTime_of_oneEntrance rows _ h fun out memory w ip hmemory hall =>
        opensOnly_waitVehicleRelease out memory w ip hmemory hall plate n bindType
  · constructor
    · intro h
      exact oneEntrance_of_released rows _ (h "") fun out v waits henv hv hmem =>
        ledShowNewClient_opens out v waits henv hv "" (List.ne_nil_of_mem hmem)
    · intro h deviceIp
      exact releasedByTime_of_oneEntrance rows _ h fun out memory w ip hmemory hall =>
        opensOnly_ledShowNewClient out memory w ip hmemory hall deviceIp

/-- The second vehicle came a hundred seconds after the first. -/
def twoWaiting : List WaitRow := [⟨waitingRow 1, 100⟩, ⟨waitingRow 2, 200⟩]

def waitingLot : World := { waits := twoWaiting.map (·.toWaitVehicleInfo) }

/-- With equal values in the memory the first row is let in, whatever the dates say. -/
theorem first_row_let_in :
    openings waitingLot (run (waitVehicleRelease unsetTimes "京A12345" 0 1) waitingLot).2 = ["10.0.1.1"] ∧
    openings waitingLot (run (ledShowNewClient unsetTimes "10.0.1.3") waitingLot).2 = ["10.0.1.1"] ∧
    ¬ MostRecent twoWaiting "10.0.1.1" ∧
    ¬ ReleasedByTime twoWaiting (fun out => waitVehicleRelease out "京A12345" 0 1) ∧
    ¬ ReleasedByTime twoWaiting (fun out => ledShowNewClient out "10.0.1.3") := by
  have hrelease : openings waitingLot (run (waitVehicleRelease unsetTimes "京A12345" 0 1) waitingLot).2 =
      ["10.0.1.1"] := by decide
  have hshow : openings waitingLot (run (ledShowNewClient unsetTimes "10.0.1.3") waitingLot).2 =
      ["10.0.1.1"] := by decide
  have hrecent : ¬ MostRecent twoWaiting "10.0.1.1" := by
    rw [MostRecent]
    decide
  have hnot : ∀ call : Outside → Proc Unit,
      openings waitingLot (run (call unsetTimes) waitingLot).2 = ["10.0.1.1"] → ¬ ReleasedByTime twoWaiting call := by
    rintro call hcall ⟨ip, hip, hopen⟩
    have heq := hopen unsetTimes (fun _ => 0) twoWaiting waitingLot rfl (List.Perm.refl _) rfl "10.0.1.1"
      (by rw [hcall]; exact List.mem_singleton_self _)
    rw [← heq] at hip
    exact hrecent (hip (by decide))
  exact ⟨hrelease, hshow, hrecent, hnot _ hrelease, hnot _ hshow⟩

end BitPark.WaitingTime
