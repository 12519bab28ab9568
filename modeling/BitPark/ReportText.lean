import BitPark.JsonWire

namespace BitPark.ReportText

open BitPark.Decimal (Bytes)
open BitPark.Members (bytes)
open BitPark.Server (Parsed)
open BitPark.PictureFiles (LocalTime)
open BitPark.DeviceMessage BitPark.DeviceCodec BitPark.Multipart BitPark.IndexSafety BitPark.PassTime
open BitPark.JsonText BitPark.JsonWriters BitPark.JsonTokens BitPark.JsonRoundTrip BitPark.JsonWire

/-! A report on its way from a device: the text that is written for it, in the
body of a request, and what the server makes of it. -/

section Congr

variable (ms ms' : List (String × Json.Value)) (key : String) (h : ms'.lookup key = ms.lookup key)
include h

theorem get_congr (default : Json.Value) :
    (Json.Value.object ms').get key default = (Json.Value.object ms).get key default := by
  simp only [Json.Value.get, h]

theorem getInt_congr (default : ℤ) : getInt (.object ms') key default = getInt (.object ms) key default := by
  rw [getInt, getInt, get_congr ms ms' key h]

theorem getText_congr : getText (.object ms') key = getText (.object ms) key := by
  rw [getText, getText, get_congr ms ms' key h]

theorem getPresent_congr (default : ℤ) (error : String) :
    getPresent (.object ms') key default error = getPresent (.object ms) key default error := by
  rw [getPresent, getPresent, getInt_congr ms ms' key h]

theorem getWithin_congr (default low high : ℤ) (error : String) :
    getWithin (.object ms') key default low high error = getWithin (.object ms) key default low high error := by
  rw [getWithin, getWithin, getInt_congr ms ms' key h]

theorem getIfWithin_congr (low high : ℤ) :
    getIfWithin (.object ms') key low high = getIfWithin (.object ms) key low high := by
  rw [getIfWithin, getIfWithin, getInt_congr ms ms' key h]

end Congr

/-- The members that are real numbers. -/
def reals (valueToString : ℚ → String) (d : DeviceData) : List (String × Json.Value) :=
  [("Longitude", .real d.longitude (valueToString d.longitude)),
    ("Latitude", .real d.latitude (valueToString d.latitude)),
    ("VehicleSpeed", .real d.vehicleSpeed (valueToString d.vehicleSpeed)),
    ("LaneMiniSpeed", .real d.laneMinSpeed (valueToString d.laneMinSpeed)),
    ("LaneMaxSpeed", .real d.laneMaxSpeed (valueToString d.laneMaxSpeed))]

/-- The others come back as they were. -/
inductive Steady : Json.Value → Prop where
  | int (n : ℤ) (hn : IsInt n) : Steady (.int n)
  | string (s : String) : Steady (.string s)
  | ints (ns : List ℤ) (hns : ∀ n ∈ ns, IsInt n) : Steady (.array (ns.map .int))

theorem forall_optional (P : String × Json.Value → Prop) (key : String) (value : Option Json.Value) :
    (∀ m ∈ DeviceCodec.optional key value, P m) ↔ ∀ v, value = some v → P (key, v) := by
  cases value with
  | none => simp [DeviceCodec.optional]
  | some v => simp [DeviceCodec.optional]

/-- No name of a member has a null byte. -/
theorem named_members (valueToString : ℚ → String) (offset : ℤ) (d : DeviceData) (picType : List Json.Value) :
    ∀ m ∈ members valueToString offset d picType, 0 ∉ bytes m.1 := by
  have hnames : ∀ key ∈ ["Longitude", "Latitude", "VehicleInfoState", "IsPicUrl", "LaneIndex", "position", "direction",
      "PlateInfo1", "PlateInfo2", "PlateColor", "PlateType", "PassTime", "VehicleSpeed", "LaneMiniSpeed",
      "LaneMaxSpeed", "VehicleType", "VehicleSubType", "VehicleColor", "VehicleColorDepth", "vehicleLength",
      "VehicleState", "PicCount", "PicType", "PlatePicUrl", "VehiclePic1Url", "VehiclePic2Url", "VehiclePic3Url",
      "CombinePicUrl", "AlarmAction"], 0 ∉ bytes key := by
    decide +kernel
  simp only [List.forall_mem_cons] at hnames
  simp only [members, List.flatten_cons, List.flatten_nil, List.append_nil, List.forall_mem_append,
    List.forall_mem_cons, forall_optional, hnames, not_false_eq_true, implies_true, List.not_mem_nil, false_implies,
    and_self]

section Fields

variable {root : Json.Value}

theorem getPresent_isInt (key error : String) (default n : ℤ) (h : getPresent root key default error = .ok n) :
    IsInt n := by
  obtain ⟨m, hm, h⟩ := Fallible.bind_ok h
  split_ifs at h
  cases h
  exact getInt_isInt root key default n hm

theorem getWithin_isInt (key error : String) (default low high n : ℤ)
    (h : getWithin root key default low high error = .ok n) : IsInt n := by
  obtain ⟨m, hm, h⟩ := Fallible.bind_ok h
  split_ifs at h
  cases h
  exact getInt_isInt root key default n hm

theorem getIfWithin_isInt (key : String) (low high n : ℤ) (h : getIfWithin root key low high = .ok (some n)) :
    IsInt n := by
  obtain ⟨m, hm, h⟩ := Fallible.bind_ok h
  split_ifs at h
  · cases h
    exact getInt_isInt root key (-1) n hm
  · cases h

/-- What a report that was read has in its members. -/
theorem members_fields (mktime : LocalTime → ℤ) (valueToString : ℚ → String) (offset : ℤ) (d : DeviceData)
    (h : ReadsAs mktime root d) : ∀ m ∈ members valueToString offset d (d.picType.map .int),
      Steady m.2 ∨ m ∈ reals valueToString d := by
  have hreal : ∀ m ∈ reals valueToString d, Steady m.2 ∨ m ∈ reals valueToString d := fun m hm => .inr hm
  obtain ⟨hlongitude, hlatitude, hspeed, hminSpeed, hmaxSpeed, -⟩ :=
    (by simpa only [reals, List.forall_mem_cons] using hreal :)
  have hnumber : ∀ (key : String) (n : ℤ), IsInt n →
      Steady (key, Json.Value.int n).2 ∨ (key, Json.Value.int n) ∈ reals valueToString d :=
    fun key n hn => .inl (.int n hn)
  have htext : ∀ key text : String,
      Steady (key, Json.Value.string text).2 ∨ (key, Json.Value.string text) ∈ reals valueToString d :=
    fun key text => .inl (.string text)
  have hsome : ∀ (key : String) (value : Option ℤ), (∀ n, value = some n → IsInt n) →
      ∀ v, value.map Json.Value.int = some v → Steady (key, v).2 ∨ (key, v) ∈ reals valueToString d := by
    rintro key value hvalue v hv
    obtain ⟨n, hn, rfl⟩ := Option.map_eq_some_iff.mp hv
    exact hnumber key n (hvalue n hn)
  have hlist : ∀ (key : String) (ns : List ℤ), (∀ n ∈ ns, IsInt n) →
      Steady (key, Json.Value.array (ns.map .int)).2 ∨ (key, Json.Value.array (ns.map .int)) ∈ reals valueToString d :=
    fun key ns hns => .inl (.ints ns hns)
  simp only [members, List.flatten_cons, List.flatten_nil, List.append_nil, List.forall_mem_append,
    List.forall_mem_cons, forall_optional, List.not_mem_nil, false_implies, implies_true, and_true]
  refine ⟨⟨hlongitude, hlatitude, hnumber _ _ (getPresent_isInt _ _ _ _ h.vehicleInfoState),
    hnumber _ _ (getPresent_isInt _ _ _ _ h.isPicUrl), hnumber _ _ (getPresent_isInt _ _ _ _ h.laneIndex)⟩, ?_,
    ⟨hnumber _ _ (getWithin_isInt _ _ _ _ _ _ h.direction), htext _ _, htext _ _,
      hnumber _ _ (getWithin_isInt _ _ _ _ _ _ h.plateColor), hnumber _ _ (getWithin_isInt _ _ _ _ _ _ h.plateType),
      htext _ _, hspeed, hminSpeed, hmaxSpeed⟩, ?_, ?_, ?_, ?_,
    ⟨hnumber _ _ (getInt_isInt _ _ _ _ h.vehicleLength), hnumber _ _ (getWithin_isInt _ _ _ _ _ _ h.vehicleState),
      hnumber _ _ (getInt_isInt _ _ _ _ h.picCount)⟩, ?_, htext _ _, htext _ _, htext _ _, htext _ _, htext _ _,
    hnumber _ _ (getWithin_isInt _ _ _ _ _ _ h.alarmAction)⟩
  · intro v hv
    obtain ⟨p, hp, rfl⟩ := Option.map_eq_some_iff.mp hv
    exact hlist _ _ (parsePosition_isInt root p (by rw [h.position, hp]))
  · exact hsome _ _ fun n hn => getIfWithin_isInt _ _ _ n (by rw [h.vehicleType, hn])
  · obtain ⟨n, hn, hsub⟩ := h.vehicleSubType
    refine hsome _ _ fun m hm => ?_
    obtain rfl := Option.some.inj (hsub.symm.trans hm)
    exact getInt_isInt root _ _ n hn
  · intro v hv
    split_ifs at hv
    cases hv
    exact htext _ _
  · exact hsome _ _ fun n hn => getIfWithin_isInt _ _ _ n (by rw [h.vehicleColorDepth, hn])
  · intro v hv
    split_ifs at hv
    cases hv
    exact hlist _ _ (parsePicType_isInt root _ _ h.picType)

end Fields

/-! The members after they were written and read. -/

section Transport

variable (scan : Bytes → Option ℚ) (valueToString : ℚ → String)

theorem plain_steady (v : Json.Value) (h : Steady v) : Plain scan valueToString v := by
  cases h with
  | int n hn => exact .int n hn
  | string s => exact .string s
  | ints ns hns => exact .ints ns hns

theorem reread_steady (v : Json.Value) (h : Steady v) : reread scan valueToString v = some v := by
  cases h with
  | int n hn => exact reread_int scan valueToString n hn
  | string s => exact reread_string scan valueToString s
  | ints ns hns => exact reread_ints scan valueToString ns hns

/-- The real numbers of a report are printed with all their digits. -/
structure Printed (d : DeviceData) : Prop where
  longitude : Printable scan valueToString d.longitude
  latitude : Printable scan valueToString d.latitude
  vehicleSpeed : Printable scan valueToString d.vehicleSpeed
  laneMinSpeed : Printable scan valueToString d.laneMinSpeed
  laneMaxSpeed : Printable scan valueToString d.laneMaxSpeed

theorem plain_reals (d : DeviceData) (h : Printed scan valueToString d) :
    ∀ m ∈ reals valueToString d, Plain scan valueToString m.2 := by
  simp only [reals, List.forall_mem_cons, List.not_mem_nil, false_implies, implies_true, and_true]
  exact ⟨.real _ _ h.longitude, .real _ _ h.latitude, .real _ _ h.vehicleSpeed, .real _ _ h.laneMinSpeed,
    .real _ _ h.laneMaxSpeed⟩

theorem lookup_mem (ms : List (String × Json.Value)) (key : String) (v : Json.Value) (h : ms.lookup key = some v) :
    (key, v) ∈ ms := by
  induction ms with
  | nil => cases h
  | cons m ms ih =>
    obtain ⟨name, w⟩ := m
    rw [lookup_cons_ite] at h
    split_ifs at h with heq
    · cases h
      rw [heq]
      exact List.mem_cons_self
    · exact List.mem_cons_of_mem _ (ih h)

variable (ms read : List (String × Json.Value)) (reals : List (String × Json.Value))
  (hread : ∀ key, read.lookup key = (ms.lookup key).bind (reread scan valueToString))
include hread

/-- What is not a real number is found as it was written. -/
theorem lookup_steady (key : String) (hkey : key ∉ reals.map Prod.fst) (hms : ∀ m ∈ ms, Steady m.2 ∨ m ∈ reals) :
    read.lookup key = ms.lookup key := by
  rw [hread]
  cases hv : ms.lookup key with
  | none => rfl
  | some v =>
    obtain h | h := hms (key, v) (lookup_mem ms key v hv)
    · exact reread_steady scan valueToString v h
    · exact absurd (List.mem_map_of_mem h) hkey

theorem getDouble_reread (key : String) (q : ℚ) (text : String) (h : ms.lookup key = some (.real q text))
    (hq : Printable scan valueToString q) : getDouble (.object read) key = .ok q := by
  obtain ⟨v, hv, hdouble⟩ := reread_real scan valueToString q text hq
  have hlookup : read.lookup key = some v := by rw [hread, h, Option.bind_some, hv]
  rw [getDouble, Json.Value.get, hlookup]
  exact hdouble

end Transport

def realKeys : List String := ["Longitude", "Latitude", "VehicleSpeed", "LaneMiniSpeed", "LaneMaxSpeed"]

/-- Two objects that agree on the members of a report are the same report. -/
theorem readsAs_congr (mktime : LocalTime → ℤ) (ms ms' : List (String × Json.Value)) (d : DeviceData)
    (hkeep : ∀ key, key ∉ realKeys → ms'.lookup key = ms.lookup key)
    (hdouble : ∀ key ∈ realKeys, getDouble (.object ms') key = getDouble (.object ms) key)
    (h : ReadsAs mktime (.object ms) d) : ReadsAs mktime (.object ms') d where
  longitude := (hdouble _ (by decide)).trans h.longitude
  latitude := (hdouble _ (by decide)).trans h.latitude
  vehicleInfoState := (getPresent_congr ms ms' _ (hkeep _ (by decide)) _ _).trans h.vehicleInfoState
  isPicUrl := (getPresent_congr ms ms' _ (hkeep _ (by decide)) _ _).trans h.isPicUrl
  laneIndex := (getPresent_congr ms ms' _ (hkeep _ (by decide)) _ _).trans h.laneIndex
  position := by
    rw [parsePosition, get_congr ms ms' _ (hkeep _ (by decide))]
    exact h.position
  direction := (getWithin_congr ms ms' _ (hkeep _ (by decide)) _ _ _ _).trans h.direction
  plateInfo1 := (getText_congr ms ms' _ (hkeep _ (by decide))).trans h.plateInfo1
  plate := h.plate
  plateInfo2 := (getText_congr ms ms' _ (hkeep _ (by decide))).trans h.plateInfo2
  plateColor := (getWithin_congr ms ms' _ (hkeep _ (by decide)) _ _ _ _).trans h.plateColor
  plateType := (getWithin_congr ms ms' _ (hkeep _ (by decide)) _ _ _ _).trans h.plateType
  passTime := by
    obtain ⟨time, htime, hparse⟩ := h.passTime
    exact ⟨time, (getText_congr ms ms' _ (hkeep _ (by decide))).trans htime, hparse⟩
  vehicleSpeed := (hdouble _ (by decide)).trans h.vehicleSpeed
  laneMinSpeed := (hdouble _ (by decide)).trans h.laneMinSpeed
  laneMaxSpeed := (hdouble _ (by decide)).trans h.laneMaxSpeed
  vehicleType := (getIfWithin_congr ms ms' _ (hkeep _ (by decide)) _ _).trans h.vehicleType
  vehicleSubType := by
    obtain ⟨n, hn, hsome⟩ := h.vehicleSubType
    exact ⟨n, (getInt_congr ms ms' _ (hkeep _ (by decide)) _).trans hn, hsome⟩
  vehicleColor := (getText_congr ms ms' _ (hkeep _ (by decide))).trans h.vehicleColor
  vehicleColorDepth := (getIfWithin_congr ms ms' _ (hkeep _ (by decide)) _ _).trans h.vehicleColorDepth
  vehicleLength := (getInt_congr ms ms' _ (hkeep _ (by decide)) _).trans h.vehicleLength
  vehicleState := (getWithin_congr ms ms' _ (hkeep _ (by decide)) _ _ _ _).trans h.vehicleState
  picCount := (getInt_congr ms ms' _ (hkeep _ (by decide)) _).trans h.picCount
  counted := h.counted
  picType := by
    rw [parsePicType, get_congr ms ms' _ (hkeep _ (by decide))]
    exact h.picType
  platePicUrl := (getText_congr ms ms' _ (hkeep _ (by decide))).trans h.platePicUrl
  vehiclePic1Url := (getText_congr ms ms' _ (hkeep _ (by decide))).trans h.vehiclePic1Url
  vehiclePic2Url := (getText_congr ms ms' _ (hkeep _ (by decide))).trans h.vehiclePic2Url
  vehiclePic3Url := (getText_congr ms ms' _ (hkeep _ (by decide))).trans h.vehiclePic3Url
  combinePicUrl := (getText_congr ms ms' _ (hkeep _ (by decide))).trans h.combinePicUrl
  alarmAction := (getWithin_congr ms ms' _ (hkeep _ (by decide)) _ _ _ _).trans h.alarmAction

section Arrival

variable (scan : Bytes → Option ℚ) (valueToString : ℚ → String) (offset : ℤ) (d : DeviceData)

theorem getDouble_members (h : Printed scan valueToString d) (read : List (String × Json.Value))
    (hread : ∀ key, read.lookup key =
      ((members valueToString offset d (d.picType.map .int)).lookup key).bind (reread scan valueToString)) :
    ∀ key ∈ realKeys, getDouble (.object read) key =
      getDouble (.object (members valueToString offset d (d.picType.map .int))) key := by
  have hagain : ∀ (key : String) (q : ℚ),
      (members valueToString offset d (d.picType.map .int)).lookup key = some (.real q (valueToString q)) →
      Printable scan valueToString q → getDouble (.object read) key =
        getDouble (.object (members valueToString offset d (d.picType.map .int))) key := fun key q hq hp =>
    (getDouble_reread scan valueToString _ read hread key q _ hq hp).trans (getDouble_written _ key q _ hq).symm
  simp only [realKeys, List.forall_mem_cons, List.not_mem_nil, false_implies, implies_true, and_true]
  refine ⟨hagain _ d.longitude ?_ h.longitude, hagain _ d.latitude ?_ h.latitude,
    hagain _ d.vehicleSpeed ?_ h.vehicleSpeed, hagain _ d.laneMinSpeed ?_ h.laneMinSpeed,
    hagain _ d.laneMaxSpeed ?_ h.laneMaxSpeed⟩ <;> simp [members, List.lookup_append, List.lookup_cons]

/-- What the server has for a reader takes a text as the library does. -/
def TakesTexts (parse : Bytes → Parsed) : Prop :=
  ∀ text v rest root, JsonText.parse scan text = .done v rest → valueOf valueToString v = some root →
    parse text = .accepted root

/-- The text that `json_encode_device_data` returns for a root. -/
def reportText (root : Json.Value) : Bytes := styledWrite (print valueToString) (docOf root)

/-- The text of a report that was read is read again. -/
theorem parse_reportText (parse : Bytes → Parsed) (hparse : TakesTexts scan valueToString parse) (parsed : Parsed)
    (h : jsonParseDeviceData (mktime offset) parsed = .ok d)
    (hy : 1970 ≤ (localtime offset d.passTime).year ∧ (localtime offset d.passTime).year ≤ 9999)
    (hd : Printed scan valueToString d) (root : Json.Value)
    (hroot : jsonEncodeDeviceData valueToString offset d = .ok root) :
    jsonParseDeviceData (mktime offset) (parse (reportText valueToString root)) =
      .ok { d with vehicleLength := 0, combinePicUrl := "" } := by
  obtain ⟨root', -, hreads⟩ := (jsonParseDeviceData_eq_ok _ _ _).mp h
  obtain rfl : .object (members valueToString offset d (d.picType.map .int)) = root := by
    rw [jsonEncodeDeviceData, encodePicType_eq d (parsePicType_length root' _ _ hreads.picType)] at hroot
    exact Except.ok.inj hroot
  have hfields := members_fields (mktime offset) valueToString offset d hreads
  have hplain : ∀ m ∈ members valueToString offset d (d.picType.map .int),
      0 ∉ bytes m.1 ∧ Plain scan valueToString m.2 := fun m hm => by
    refine ⟨named_members valueToString offset d _ m hm, ?_⟩
    obtain hsteady | hreal := hfields m hm
    · exact plain_steady scan valueToString m.2 hsteady
    · exact plain_reals scan valueToString d hd m hreal
  obtain ⟨v, read, htext, hvalue, hread⟩ := parse_plain scan valueToString _ hplain
  rw [reportText, hparse _ v _ _ htext hvalue]
  apply ok_of_readsAs
  apply readsAs_congr _ (members valueToString offset d (d.picType.map .int))
  · exact fun key hkey => lookup_steady scan valueToString _ read (reals valueToString d) hread key hkey hfields
  · exact getDouble_members scan valueToString offset d hd read hread
  · exact members_readsAs valueToString offset root' d hreads (year_nonneg offset _ hy.1) (Nat.lt_succ_of_le hy.2)

end Arrival

/-- What the handler makes of a body with a report that can be read. -/
theorem httpServerHandler_multipartBody (mktime : LocalTime → ℤ) (parse : Bytes → Parsed) (contentType bound : Bytes)
    (hbound : contentTypeGetBoundary contentType = .ok bound) (text : Bytes) (d : DeviceData)
    (hread : jsonParseDeviceData mktime (parse text) = .ok d) (pics : List Bytes)
    (htext : Separated (dashes ++ bound) text) (hpics : ∀ p ∈ pics, Separated (dashes ++ bound) p)
    (hcount : d.isPicUrl = 0 → (pics.length : ℤ) = d.picCount) :
    httpServerHandler mktime parse (some contentType) (multipartBody bound text pics) =
      .ok (d, if d.isPicUrl = 0 then pics else []) := by
  have hfound : (pics.map fun p => crlf ++ jpegHeader ++ p).filterMap (stripHeader jpegHeader) = pics := by
    have hsome : (stripHeader jpegHeader ∘ fun p => crlf ++ jpegHeader ++ p) = some := by
      funext p
      exact stripHeader_part jpegHeader p rfl
    rw [List.filterMap_map, hsome, List.filterMap_some]
  refine (httpServerHandler_eq_ok _ _ (some contentType) _ bound _ _ hbound).mpr
    ⟨_, _, _, _, split_body bound _ pics htext hpics, stripHeader_part jsonHeader _ rfl, hread, ?_⟩
  rw [List.filterMap_append, hfound, filterMap_dashes, List.append_nil]
  split_ifs with hurl
  · exact ⟨rfl, hcount hurl⟩
  · rfl

/-- A report arrives as it was written, and its pictures one by one, if none of
them has the boundary in it. -/
theorem report_arrives (scan : Bytes → Option ℚ) (valueToString : ℚ → String) (offset : ℤ) (d : DeviceData)
    (parse : Bytes → Parsed) (hparse : TakesTexts scan valueToString parse) (parsed : Parsed)
    (h : jsonParseDeviceData (mktime offset) parsed = .ok d)
    (hy : 1970 ≤ (localtime offset d.passTime).year ∧ (localtime offset d.passTime).year ≤ 9999)
    (hd : Printed scan valueToString d) (root : Json.Value)
    (hroot : jsonEncodeDeviceData valueToString offset d = .ok root) (contentType bound : Bytes)
    (hbound : contentTypeGetBoundary contentType = .ok bound) (pics : List Bytes)
    (htext : Separated (dashes ++ bound) (reportText valueToString root))
    (hpics : ∀ p ∈ pics, Separated (dashes ++ bound) p) (hcount : d.isPicUrl = 0 → (pics.length : ℤ) = d.picCount) :
    httpServerHandler (mktime offset) parse (some contentType) (multipartBody bound (reportText valueToString root) pics) =
      .ok ({ d with vehicleLength := 0, combinePicUrl := "" }, if d.isPicUrl = 0 then pics else []) := by
  have hread := parse_reportText scan valueToString offset d parse hparse parsed h hy hd root hroot
  exact httpServerHandler_multipartBody (mktime offset) parse contentType bound hbound _ _ hread pics htext hpics hcount

/-- A reader that knows two real numbers. -/
def scanSpeed (text : Bytes) : Option ℚ :=
  if text = ascii "0" then some 0 else if text = ascii "42.5" then some (85 / 2) else none

def speedText (q : ℚ) : String := if q = 0 then "0" else "42.5"

def readText (text : Bytes) : Parsed :=
  match JsonText.parse scanSpeed text with
  | .done v _ => ((valueOf speedText v).map Parsed.accepted).getD (.rejected .null)
  | _ => .rejected .null

theorem readText_takes : TakesTexts scanSpeed speedText readText := fun text v rest root htext hvalue => by
  rw [readText, htext]
  dsimp only
  rw [hvalue, Option.map_some, Option.getD_some]

/-- A number without a point is read as an integer. -/
theorem printable_zero : Printable scanSpeed speedText 0 where
  held := ⟨⟨⟨48, [], by decide +kernel, .inl rfl⟩, by decide +kernel⟩, by decide +kernel⟩
  integral n hn := by
    have htext : print speedText 0 = [48] := by decide +kernel
    have hread : decodeNumber scanSpeed [48] = some (.int 0) := rfl
    rw [htext, hread, readInt] at hn
    split_ifs at hn
    · cases hn
      rfl
    · cases hn

theorem printable_speed : Printable scanSpeed speedText (85 / 2) where
  held := ⟨⟨⟨52, [50, 46, 53], by decide +kernel, .inl rfl⟩, by decide +kernel⟩, by decide +kernel⟩
  integral n hn := by
    have htext : print speedText (85 / 2) = [52, 50, 46, 53] := by decide +kernel
    have hpoint : integerValue maxLargestUInt [52, 50, 46, 53] 0 = none := by decide
    have hscan : scanSpeed [52, 50, 46, 53] = some (85 / 2) := by decide +kernel
    rw [htext, decodeNumber, if_neg (by decide), hpoint, decodeDouble, hscan, readInt] at hn
    split_ifs at hn <;> cases hn

/-- A report of an entry at 42.5, with one picture. -/
def pictured : Parsed :=
  .accepted (.object ([("IsPicUrl", .int 0), ("direction", .int 9), ("VehicleSpeed", .real (85 / 2) "42.5"),
    ("PicCount", .int 1), ("PicType", .array [.int 2])] ++ required))

def picturedData : DeviceData :=
  { reported with isPicUrl := 0, direction := 9, vehicleSpeed := 85 / 2, picCount := 1, picType := [2] }

theorem printed_pictured : Printed scanSpeed speedText picturedData :=
  ⟨printable_zero, printable_zero, printable_speed, printable_zero, printable_zero⟩

theorem picturedData_read : jsonParseDeviceData (mktime 28800) pictured = .ok picturedData ∧
    1970 ≤ (localtime 28800 picturedData.passTime).year ∧ (localtime 28800 picturedData.passTime).year ≤ 9999 := by
  decide +kernel

def picturedRoot : Json.Value := .object (members speedText 28800 picturedData [.int 2])

def picturedBody : Bytes := multipartBody (ascii "x") (reportText speedText picturedRoot) [[255, 216, 255]]

theorem separated_pictured : Separated (dashes ++ ascii "x") (reportText speedText picturedRoot) ∧
    ∀ p ∈ [[255, 216, 255]], Separated (dashes ++ ascii "x") p := by
  simp only [Separated]
  decide +kernel

theorem report_arrives_pictured :
    httpServerHandler (mktime 28800) readText (some (ascii "multipart/form-data; boundary=x")) picturedBody =
      .ok (picturedData, [[255, 216, 255]]) :=
  report_arrives scanSpeed speedText 28800 picturedData readText readText_takes pictured picturedData_read.1
    picturedData_read.2 printed_pictured picturedRoot rfl _ (ascii "x") (by decide +kernel) [[255, 216, 255]]
    separated_pictured.1 separated_pictured.2 fun _ => rfl

end BitPark.ReportText
