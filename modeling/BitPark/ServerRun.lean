import BitPark.Changes
import BitPark.Retention

namespace BitPark.ServerRun

open BitPark.Effect BitPark.Stepwise BitPark.Server BitPark.Database BitPark.Devices BitPark.Charging BitPark.Storage
open BitPark.DeviceMessage BitPark.Passage BitPark.DeviceReport BitPark.WaitingTime BitPark.Retention BitPark.Changes
open BitPark.Decimal (Bytes)
open BitPark.TurnBack (quietOutside)
open Relation

/-! Whole runs of the server: messages of clients, reports of devices, devices
that connect, and timers, each handled before the next. -/

inductive Event where
  | client (event : Connections.Event)
  | connected (deviceIp : String)
  | entranceTimer (deviceIp : String)
  | exitTimer (deviceIp : String)
  | night (pictureExpiry : ℤ)

/-- `handle_entrance_led_show_timer` -/
def handleEntranceLedShowTimer (env : Env) (deviceIp : String) : Proc Unit := tolerate do
  let greeting ← queryEntranceGreeting env
  if greeting = "" then notifyRemainParkingToAllDevice env else ledShowGreeting env deviceIp greeting

/-- `handle_exit_led_show_timer` -/
def handleExitLedShowTimer (env : Env) (deviceIp : String) : Proc Unit := tolerate (showLedAfterCharge env deviceIp)

def Event.serve (now : ℤ) (out : Outside) : Event → Job Unit
  | client event => event.serve now out
  | connected ip => inWorld (ledShowNewClient out ip)
  | entranceTimer ip => inWorld (handleEntranceLedShowTimer out.env ip)
  | exitTimer ip => inWorld (handleExitLedShowTimer out.env ip)
  | night pictureExpiry => clearPic out now pictureExpiry

/-- An event, its time, and what the surroundings answer meanwhile. -/
structure Moment where
  out : Outside
  now : ℤ
  event : Event

def Moment.next (s : Site) (m : Moment) : Site := (run (m.event.serve m.now m.out) s).2

/-- The state after a run. -/
abbrev after (s : Site) (ms : List Moment) : Site := ms.foldl Moment.next s

/-- On whose behalf an event is served: a report may open the gate of its own
device, and the gates where a vehicle waits. -/
def origin (env : Env) (w : World) : Event → Origin
  | .client (.text hdl msg) => originOf env w hdl msg
  | .client (.passage source _ _) => .devices fun ip => ip = (deviceAt w source).ip ∨ ip ∈ w.waits.map (·.deviceIp)
  | .connected _ => .devices fun ip => ip ∈ w.waits.map (·.deviceIp)
  | _ => .nobody

theorem served_night (out : Outside) (o : Origin) (now pictureExpiry : ℤ) :
    Steps (OnWorld (Served out.env o)) (clearPic out now pictureExpiry) := by
  have hkeep : ∀ s t : Site, t.world = s.world → OnWorld (Served out.env o) s t := fun s t h => by
    rw [OnWorld, h]
  have hexpired : ∀ type expiry, Steps (OnWorld (Served out.env o)) (clearExpiredPic out type now expiry) :=
    fun type expiry => steps_bind (steps_ask _ _ _) fun slots => steps_forEach slots _ fun slot _ =>
      steps_deletePic (fun s _ => hkeep s _ rfl) (fun s _ => hkeep s _ rfl) out slot
  exact steps_bind (steps_ask _ _ _) fun _ => steps_ite _
    (steps_bind (hexpired _ _) fun _ => hexpired _ _) (steps_pure ())

theorem served_submitPicture (out : Outside) (o : Origin) (now : ℤ) (payload : Bytes) :
    Steps (OnWorld (Served out.env o)) (Voucher.clientSubmitPicture out now payload) := by
  have hkeep : ∀ s t : Site, t.world = s.world → OnWorld (Served out.env o) s t := fun s t h => by
    rw [OnWorld, h]
  have hsave : Steps (OnWorld (Served out.env o)) (Voucher.saveVoucher out (out.localTime now) payload) :=
    steps_bind (steps_raiseError _) fun _ =>
      steps_bind (steps_openDirectory (fun s _ => hkeep s _ rfl) out _ _) fun _ =>
        steps_bind (steps_ite _ (steps_touch (fun s _ => hkeep s _ rfl) _) (steps_pure ())) fun _ =>
          steps_ite _ (steps_raise _) (steps_amend _ _ _ fun s => hkeep s _ rfl)
  exact steps_handle (steps_bind
    (steps_pictureStorageManage (fun s _ => hkeep s _ rfl) (fun s _ => hkeep s _ rfl) out _) fun _ => hsave)
    fun _ => steps_pure ()

/-- Whatever happens, the tables change by steps on behalf of the origin of the event. -/
theorem served_next (s : Site) (m : Moment) (hout : ChoosesRow m.out) :
    Served m.out.env (origin m.out.env s.world m.event) s.world (m.next s).world := by
  obtain ⟨out, now, event⟩ := m
  cases event with
  | client event =>
    cases event with
    | text hdl msg => exact served_clientRequest out.env hdl msg s.world
    | binary hdl payload => exact served_submitPicture out .nobody now payload s
    | closed hdl => exact .single (.connected _ (seats_filter _ _ _))
    | expired overTime => exact .single (.connected _ (seats_filter _ _ _))
    | passage source data pics =>
      exact served_onDeviceData _ out hout source data pics s ⟨.inl rfl, .inl rfl⟩ fun row hrow =>
        ⟨.inr (List.mem_map_of_mem hrow), .inr (List.mem_map_of_mem hrow)⟩
  | connected ip =>
    exact served_ledShowNewClient _ out hout ip s.world fun row hrow =>
      ⟨List.mem_map_of_mem hrow, List.mem_map_of_mem hrow⟩
  | entranceTimer ip =>
    exact steps_tolerate (R := Served out.env .nobody) (steps_bind (steps_query _ _ _) fun _ => steps_ite _
      (served_notifyRemainParking out.env _) (served_quiet out.env _ _ _ rfl)) s.world
  | exitTimer ip =>
    exact steps_tolerate (R := Served out.env .nobody) (served_showLedAfterCharge out.env _ ip) s.world
  | night pictureExpiry => exact served_night out .nobody now pictureExpiry s

/-! A day at a small car park. -/

theorem choosesRow_quiet : ChoosesRow quietOutside := fun _ _ h => List.mem_of_head? h

def report (ip : String) (direction passTime : ℤ) : Moment :=
  ⟨quietOutside, passTime, .client (.passage ip { reportData "京A12345" with direction, passTime } [])⟩

/-- The vehicle enters at eight and leaves at ten. -/
def visit : List Moment := [report "10.0.0.1" passIn 28800, report "10.0.0.2" passOut 36000]

theorem choosesRow_visit : ∀ m ∈ visit, ChoosesRow m.out := by
  intro m hm
  simp only [visit, List.mem_cons, List.not_mem_nil, or_false] at hm
  rcases hm with rfl | rfl
  · exact choosesRow_quiet
  · exact choosesRow_quiet

end BitPark.ServerRun
