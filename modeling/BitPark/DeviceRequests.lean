import BitPark.ReportText
import BitPark.ServerRun

namespace BitPark.DeviceRequests

open BitPark.Effect BitPark.Server BitPark.Storage BitPark.DeviceMessage BitPark.DeviceReport BitPark.ServerRun
open BitPark.Decimal (Bytes)
open BitPark.Members (bytes)
open BitPark.Multipart (ascii)
open BitPark.PictureFiles (LocalTime)
open BitPark.Indexing (Stop Inside inside_bind)
open BitPark.IndexSafety (NeverOutside datas httpServerHandler neverOutside_of_ok)
open BitPark.JsonWire BitPark.ReportText
open BitPark.TurnBack (quietOutside)

/-! The requests of the devices: signs of life, states, and passages. -/

structure DeviceStatus where
  faultState : ℤ
  senseCoilState : ℤ
  flashLightState : ℤ
  indicatoLightState : ℤ
deriving DecidableEq

def jsonParseDeviceStatus : Parsed → Except String DeviceStatus
  | .thrown what _ => .error what
  | .rejected _ => .error "parse error"
  | .accepted root => do
    let faultState ← getInt root "FaultState" 0
    let senseCoilState ← getInt root "SenseCoilState" 0
    let flashLightState ← getInt root "FlashLightState" 0
    let indicatoLightState ← getInt root "IndicatoLightState" 0
    pure { faultState, senseCoilState, flashLightState, indicatoLightState }

/-- `json_encode_device_status`, up to the writer. -/
def jsonEncodeDeviceStatus (st : DeviceStatus) : List (String × Json.Value) :=
  [("FaultState", .int st.faultState), ("SenseCoilState", .int st.senseCoilState),
    ("FlashLightState", .int st.flashLightState), ("IndicatoLightState", .int st.indicatoLightState)]

def jsonParseKeepalive (mktime : LocalTime → ℤ) : Parsed → Except String ℤ
  | .thrown what _ => .error what
  | .rejected _ => .error "parse_keepalive error"
  | .accepted root => do
    let time ← getText root "Time"
    parseTime mktime time

/-- A device of `device_list_`, with what it has said of itself. -/
structure Listed where
  device : Device
  status : Option DeviceStatus := none
  aliveTime : Option ℤ := none
deriving DecidableEq

def deviceKeepalive (dev : Listed) (t : ℤ) : Listed := { dev with aliveTime := some t }
def deviceUpdateStatus (dev : Listed) (status : DeviceStatus) : Listed := { dev with status := some status }

def onDeviceKeepalive (source : String) (t : ℤ) (devices : List Listed) : List Listed :=
  devices.map fun dev => if dev.device.ip = source then deviceKeepalive dev t else dev

def onDeviceStatus (source : String) (status : DeviceStatus) (devices : List Listed) : List Listed :=
  devices.map fun dev => if dev.device.ip = source then deviceUpdateStatus dev status else dev

/-- A request, its time, and what the surroundings answer meanwhile. -/
structure Request where
  out : Outside
  now : ℤ
  source : String
  method : String
  contentType : Option Bytes
  content : Bytes

structure Lot where
  site : Site
  devices : List Listed

section Serving

variable (mktime : LocalTime → ℤ) (parse : Bytes → Parsed)

/-- `http_server_handler`. A request that is refused changes nothing, nor does
one with another method; there is no result where a read is outside its array. -/
def serve (s : Lot) (r : Request) : Option Lot :=
  if r.method = "Keepalive" then
    match jsonParseKeepalive mktime (parse r.content) with
    | .ok t => some { s with devices := onDeviceKeepalive r.source t s.devices }
    | .error _ => some s
  else if r.method = "Datas" then
    match httpServerHandler mktime parse r.contentType r.content with
    | .ok (data, pics) => some { s with site := (run (onDeviceData r.out r.source data pics) s.site).2 }
    | .error (.failed _) => some s
    | .error .outOfRange => none
  else if r.method = "DeviceStatus" then
    match jsonParseDeviceStatus (parse r.content) with
    | .ok status => some { s with devices := onDeviceStatus r.source status s.devices }
    | .error _ => some s
  else some s

/-! What a run of requests comes to. -/

/-- The passage that is reported. -/
def passageOf (r : Request) : Option Moment :=
  if r.method = "Datas" then
    match httpServerHandler mktime parse r.contentType r.content with
    | .ok (data, pics) => some ⟨r.out, r.now, .client (.passage r.source data pics)⟩
    | .error _ => none
  else none

/-- The time of the sign of life of a device at the address. -/
def aliveOf (ip : String) (r : Request) : Option ℤ :=
  if r.method = "Keepalive" ∧ r.source = ip then (jsonParseKeepalive mktime (parse r.content)).toOption else none

def statusOf (ip : String) (r : Request) : Option DeviceStatus :=
  if r.method = "DeviceStatus" ∧ r.source = ip then (jsonParseDeviceStatus (parse r.content)).toOption else none

/-- The last word of the device about itself. -/
def told (rs : List Request) (dev : Listed) : Listed where
  device := dev.device
  status := (rs.filterMap (statusOf parse dev.device.ip)).getLast?.or dev.status
  aliveTime := (rs.filterMap (aliveOf mktime parse dev.device.ip)).getLast?.or dev.aliveTime

theorem last_cons {α β : Type} (f : α → Option β) (a : α) (l : List α) (before : Option β) :
    ((a :: l).filterMap f).getLast?.or before = (l.filterMap f).getLast?.or ((f a).or before) := by
  cases ha : f a with
  | none => rw [List.filterMap_cons_none ha, Option.none_or]
  | some b =>
    rw [List.filterMap_cons_some ha, List.getLast?_cons]
    cases (l.filterMap f).getLast? <;> rfl

theorem told_cons (r : Request) (rs : List Request) (dev : Listed) :
    told mktime parse (r :: rs) dev = told mktime parse rs (told mktime parse [r] dev) := by
  simp only [told, last_cons, List.filterMap_nil, List.getLast?_nil, Option.none_or]

theorem told_one (r : Request) (dev : Listed) : told mktime parse [r] dev =
    { dev with
      status := (statusOf parse dev.device.ip r).or dev.status
      aliveTime := (aliveOf mktime parse dev.device.ip r).or dev.aliveTime } := by
  simp only [told, last_cons, List.filterMap_nil, List.getLast?_nil, Option.none_or]

/-- A request that says nothing about a device. -/
theorem told_silent (r : Request) (halive : ∀ ip, aliveOf mktime parse ip r = none)
    (hstatus : ∀ ip, statusOf parse ip r = none) (devices : List Listed) :
    devices.map (told mktime parse [r]) = devices := by
  refine (List.map_congr_left fun dev _ => ?_).trans (List.map_id devices)
  rw [told_one, halive, hstatus]
  rfl

theorem serve_keepalive (s : Lot) (r : Request) (hr : r.method = "Keepalive") :
    serve mktime parse s r = some { s with devices := s.devices.map (told mktime parse [r]) } := by
  have hstatus : ∀ ip, statusOf parse ip r = none := fun ip => by simp [statusOf, hr]
  rw [serve, if_pos hr]
  cases hp : jsonParseKeepalive mktime (parse r.content) with
  | error what =>
    have halive : ∀ ip, aliveOf mktime parse ip r = none := fun ip => by
      rw [aliveOf, hp]
      exact ite_self none
    rw [told_silent mktime parse r halive hstatus]
  | ok t =>
    dsimp only
    refine congrArg (fun l => some { s with devices := l }) (List.map_congr_left fun dev _ => ?_)
    rw [told_one, hstatus, aliveOf, hp]
    by_cases hip : dev.device.ip = r.source
    · rw [if_pos hip, if_pos ⟨hr, hip.symm⟩]
      rfl
    · rw [if_neg hip, if_neg fun h => hip h.2.symm]
      rfl

theorem serve_deviceStatus (s : Lot) (r : Request) (hr : r.method = "DeviceStatus") :
    serve mktime parse s r = some { s with devices := s.devices.map (told mktime parse [r]) } := by
  have halive : ∀ ip, aliveOf mktime parse ip r = none := fun ip => by simp [aliveOf, hr]
  rw [serve, if_neg (by simp [hr]), if_neg (by simp [hr]), if_pos hr]
  cases hp : jsonParseDeviceStatus (parse r.content) with
  | error what =>
    have hstatus : ∀ ip, statusOf parse ip r = none := fun ip => by
      rw [statusOf, hp]
      exact ite_self none
    rw [told_silent mktime parse r halive hstatus]
  | ok status =>
    dsimp only
    refine congrArg (fun l => some { s with devices := l }) (List.map_congr_left fun dev _ => ?_)
    rw [told_one, halive, statusOf, hp]
    by_cases hip : dev.device.ip = r.source
    · rw [if_pos hip, if_pos ⟨hr, hip.symm⟩]
      rfl
    · rw [if_neg hip, if_neg fun h => hip h.2.symm]
      rfl

theorem serve_datas (s : Lot) (r : Request) (hr : r.method = "Datas")
    (h : NeverOutside mktime parse r.contentType r.content) :
    serve mktime parse s r = some { s with site := after s.site (passageOf mktime parse r).toList } := by
  have hin : Inside (httpServerHandler mktime parse r.contentType r.content) := ((inside_bind _ _).mp (h true)).1
  rw [serve, if_neg (by simp [hr]), if_pos hr, passageOf, if_pos hr]
  cases hp : httpServerHandler mktime parse r.contentType r.content with
  | error stop =>
    cases stop with
    | failed what => rfl
    | outOfRange => exact absurd hp hin
  | ok report => rfl

/-- What one request comes to. -/
theorem serve_eq (s : Lot) (r : Request)
    (h : r.method = "Datas" → NeverOutside mktime parse r.contentType r.content) :
    serve mktime parse s r = some {
      site := after s.site (passageOf mktime parse r).toList
      devices := s.devices.map (told mktime parse [r]) } := by
  by_cases hdatas : r.method = "Datas"
  · have halive : ∀ ip, aliveOf mktime parse ip r = none := fun ip => by simp [aliveOf, hdatas]
    have hstatus : ∀ ip, statusOf parse ip r = none := fun ip => by simp [statusOf, hdatas]
    rw [serve_datas mktime parse s r hdatas (h hdatas), told_silent mktime parse r halive hstatus]
  · have hpassage : passageOf mktime parse r = none := if_neg hdatas
    rw [hpassage]
    by_cases hkeep : r.method = "Keepalive"
    · exact serve_keepalive mktime parse s r hkeep
    · by_cases hstate : r.method = "DeviceStatus"
      · exact serve_deviceStatus mktime parse s r hstate
      · have halive : ∀ ip, aliveOf mktime parse ip r = none := fun ip => by simp [aliveOf, hkeep]
        have hstatus : ∀ ip, statusOf parse ip r = none := fun ip => by simp [statusOf, hstate]
        rw [told_silent mktime parse r halive hstatus, serve, if_neg hkeep, if_neg hdatas, if_neg hstate]
        rfl

/-- A run of requests is the run of the passages that were reported well, in
their order, and leaves of each device the last that it said about itself. -/
theorem requests_run (s : Lot) (rs : List Request)
    (h : ∀ r ∈ rs, r.method = "Datas" → NeverOutside mktime parse r.contentType r.content) :
    rs.foldlM (serve mktime parse) s = some {
      site := after s.site (rs.filterMap (passageOf mktime parse))
      devices := s.devices.map (told mktime parse rs) } := by
  induction rs generalizing s with
  | nil => exact congrArg (fun l => some { s with devices := l }) (List.map_id s.devices).symm
  | cons r rs ih =>
    obtain ⟨hr, hrs⟩ := List.forall_mem_cons.mp h
    have hdevices : (s.devices.map (told mktime parse [r])).map (told mktime parse rs) =
        s.devices.map (told mktime parse (r :: rs)) := by
      rw [List.map_map]
      exact List.map_congr_left fun dev _ => (told_cons mktime parse r rs dev).symm
    have hsite : after (after s.site (passageOf mktime parse r).toList) (rs.filterMap (passageOf mktime parse)) =
        after s.site ((r :: rs).filterMap (passageOf mktime parse)) := by
      cases hp : passageOf mktime parse r with
      | none => rw [List.filterMap_cons_none hp]; rfl
      | some m => rw [List.filterMap_cons_some hp]; rfl
    rw [List.foldlM_cons, serve_eq mktime parse s r hr, Option.bind_eq_bind, Option.bind_some, ih _ hrs, hdevices, hsite]

end Serving

/-- The text of a state is read as it was written. -/
theorem parse_statusText (scan : Bytes → Option ℚ) (valueToString : ℚ → String) (parse : Bytes → Parsed)
    (hparse : TakesTexts scan valueToString parse) (st : DeviceStatus)
    (h : IsInt st.faultState ∧ IsInt st.senseCoilState ∧ IsInt st.flashLightState ∧ IsInt st.indicatoLightState) :
    jsonParseDeviceStatus (parse (reportText valueToString (.object (jsonEncodeDeviceStatus st)))) = .ok st := by
  obtain ⟨hfault, hcoil, hflash, hlight⟩ := h
  have hnames : ∀ key ∈ ["FaultState", "SenseCoilState", "FlashLightState", "IndicatoLightState"], 0 ∉ bytes key := by
    decide +kernel
  simp only [List.forall_mem_cons] at hnames
  have hplain : ∀ m ∈ jsonEncodeDeviceStatus st, 0 ∉ bytes m.1 ∧ Plain scan valueToString m.2 := by
    simp only [jsonEncodeDeviceStatus, List.forall_mem_cons, hnames, not_false_eq_true, true_and, List.not_mem_nil,
      false_implies, implies_true, and_true]
    exact ⟨.int _ hfault, .int _ hcoil, .int _ hflash, .int _ hlight⟩
  obtain ⟨v, read, htext, hvalue, hread⟩ := parse_plain scan valueToString _ hplain
  have hint : ∀ (key : String) (n : ℤ), (jsonEncodeDeviceStatus st).lookup key = some (.int n) → IsInt n →
      getInt (.object read) key 0 = .ok n := fun key n hlookup hn => by
    apply DeviceCodec.getInt_written read key 0 n _ hn
    rw [hread, hlookup, Option.bind_some, reread_int scan valueToString n hn]
  rw [reportText, hparse _ v _ _ htext hvalue]
  simp only [jsonParseDeviceStatus, hint "FaultState" st.faultState rfl hfault,
    hint "SenseCoilState" st.senseCoilState rfl hcoil, hint "FlashLightState" st.flashLightState rfl hflash,
    hint "IndicatoLightState" st.indicatoLightState rfl hlight, Fallible.ok_bind]
  rfl

/-- After any requests, the state that a device wrote is kept for every device
of its address until another one follows. -/
theorem status_shown (mktime : LocalTime → ℤ) (scan : Bytes → Option ℚ) (valueToString : ℚ → String)
    (parse : Bytes → Parsed) (hparse : TakesTexts scan valueToString parse) (st : DeviceStatus)
    (h : IsInt st.faultState ∧ IsInt st.senseCoilState ∧ IsInt st.flashLightState ∧ IsInt st.indicatoLightState)
    (s : Lot) (before rest : List Request) (r : Request) (hmethod : r.method = "DeviceStatus")
    (hcontent : r.content = reportText valueToString (.object (jsonEncodeDeviceStatus st)))
    (hinside : ∀ n ∈ before ++ r :: rest, n.method = "Datas" → NeverOutside mktime parse n.contentType n.content)
    (hrest : ∀ n ∈ rest, statusOf parse r.source n = none) :
    ∃ t, (before ++ r :: rest).foldlM (serve mktime parse) s = some t ∧
      t.devices.map (·.device) = s.devices.map (·.device) ∧
      ∀ dev ∈ t.devices, dev.device.ip = r.source → dev.status = some st := by
  refine ⟨_, requests_run mktime parse s (before ++ r :: rest) hinside, by rw [List.map_map]; rfl, ?_⟩
  intro dev hdev hip
  obtain ⟨first, -, rfl⟩ := List.mem_map.mp hdev
  have hsome : statusOf parse r.source r = some st := by
    rw [statusOf, if_pos ⟨hmethod, rfl⟩, hcontent, parse_statusText scan valueToString parse hparse st h]
    rfl
  change first.device.ip = r.source at hip
  simp only [told, hip, List.filterMap_append, List.filterMap_cons_some hsome, List.filterMap_eq_nil_iff.mpr hrest,
    List.getLast?_append, List.getLast?_singleton, Option.some_or]

def coilFault : DeviceStatus := ⟨2, 1, 0, 2⟩

def entrance : Listed := ⟨Pairing.entranceCamera, none, none⟩
def exit : Listed := ⟨Pairing.exitCamera, none, none⟩

/-- A state, a sign of life, the report of an entry, and a sign of life at no time. -/
def upkeep : List Request :=
  [⟨quietOutside, 0, "10.0.0.1", "DeviceStatus", none, reportText speedText (.object (jsonEncodeDeviceStatus coilFault))⟩,
    ⟨quietOutside, 1, "10.0.0.1", "Keepalive", none, reportText speedText (.object [("Time", .string "2016-05-01 08:00:00")])⟩,
    ⟨quietOutside, 2, "10.0.0.1", "Datas", some (ascii "multipart/form-data; boundary=x"), picturedBody⟩,
    ⟨quietOutside, 3, "10.0.0.1", "Keepalive", none, reportText speedText (.object [])⟩]

theorem picturedBody_read :
    httpServerHandler (PassTime.mktime 28800) readText (some (ascii "multipart/form-data; boundary=x")) picturedBody =
      .ok (picturedData, [[255, 216, 255]]) := by
  have hread := parse_reportText scanSpeed speedText 28800 picturedData readText readText_takes pictured
    picturedData_read.1 picturedData_read.2 printed_pictured picturedRoot rfl
  exact httpServerHandler_multipartBody _ readText _ (ascii "x") (by decide +kernel) _ _ hread _ separated_pictured.1
    separated_pictured.2 fun _ => rfl

theorem upkeep_inside : ∀ r ∈ upkeep, r.method = "Datas" →
    NeverOutside (PassTime.mktime 28800) readText r.contentType r.content := by
  have hnamed : Housekeeping.Named [[255, 216, 255]] picturedData.picType := ⟨by decide, by decide⟩
  have hdatas := neverOutside_of_ok _ readText _ _ _ _ picturedBody_read hnamed
  simp only [upkeep, List.forall_mem_cons, List.not_mem_nil, false_implies, implies_true, and_true]
  exact ⟨by simp, by simp, fun _ => hdatas, by simp⟩

/-- The vehicle of the report is recorded and inside. -/
theorem requests_run_upkeep : ∃ t,
    upkeep.foldlM (serve (PassTime.mktime 28800) readText) ⟨Pairing.hourlyLot, [entrance, exit]⟩ = some t ∧
    t.site.world.detects.map (·.plateNumber1) = ["A12345"] ∧ t.site.world.innerCars.length = 1 ∧
    t.devices = [{ entrance with status := some coilFault, aliveTime := some 1462060800 }, exit] := by
  refine ⟨_, requests_run _ _ _ upkeep upkeep_inside, ?_⟩
  have hpassage : upkeep.filterMap (passageOf (PassTime.mktime 28800) readText) =
      [⟨quietOutside, 2, .client (.passage "10.0.0.1" picturedData [[255, 216, 255]])⟩] := by
    simp only [upkeep, List.filterMap_cons, List.filterMap_nil, passageOf, picturedBody_read, if_true]
    rfl
  rw [hpassage]
  decide +kernel

theorem status_shown_upkeep : ∃ t,
    upkeep.foldlM (serve (PassTime.mktime 28800) readText) ⟨Pairing.hourlyLot, [entrance, exit]⟩ = some t ∧
    ∀ dev ∈ t.devices, dev.device.ip = "10.0.0.1" → dev.status = some coilFault := by
  obtain ⟨t, ht, -, hshown⟩ := status_shown _ scanSpeed speedText readText readText_takes coilFault
    (by simp only [IsInt]; decide) ⟨Pairing.hourlyLot, [entrance, exit]⟩ [] upkeep.tail (upkeep.head (by decide))
    rfl rfl upkeep_inside (by decide +kernel)
  exact ⟨t, ht, hshown⟩

end BitPark.DeviceRequests
