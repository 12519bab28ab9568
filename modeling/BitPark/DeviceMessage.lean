import BitPark.Fallible
import BitPark.Members
import BitPark.PictureFiles

namespace BitPark.DeviceMessage

open BitPark.Server BitPark.Decimal BitPark.Members BitPark.PictureFiles BitPark.Fallible

/-! The text in which a device reports a passage. -/

structure Position where
  left : ℤ
  top : ℤ
  right : ℤ
  bottom : ℤ
deriving DecidableEq, Repr

def Position.toList (p : Position) : List ℤ := [p.left, p.top, p.right, p.bottom]

structure DeviceData where
  longitude : ℚ := 0
  latitude : ℚ := 0
  vehicleInfoState : ℤ := 0
  isPicUrl : ℤ := 0
  laneIndex : ℤ := 1
  position : Option Position := none
  direction : ℤ
  plateInfo1 : String
  plateInfo2 : String := ""
  plateColor : ℤ
  plateType : ℤ
  passTime : ℤ
  vehicleSpeed : ℚ := 0
  laneMinSpeed : ℚ := 0
  laneMaxSpeed : ℚ := 0
  vehicleType : Option ℤ := none
  vehicleSubType : Option ℤ := none
  vehicleColor : String := ""
  vehicleColorDepth : Option ℤ := none
  vehicleLength : ℤ := 0
  vehicleState : ℤ := 1
  picCount : ℤ := 0
  picType : List ℤ := []
  platePicUrl : String := ""
  vehiclePic1Url : String := ""
  vehiclePic2Url : String := ""
  vehiclePic3Url : String := ""
  combinePicUrl : String := ""
  alarmAction : ℤ := 1
deriving DecidableEq

def getInt (root : Json.Value) (key : String) (default : ℤ) : Except String ℤ := do
  let v ← root.get key (.int default)
  v.asInt

def getDouble (root : Json.Value) (key : String) : Except String ℚ := do
  let v ← root.get key (.int 0)
  v.asDouble

def getText (root : Json.Value) (key : String) : Except String String := do
  let v ← root.get key (.string "")
  v.asString

/-- A number other than the default. -/
def getPresent (root : Json.Value) (key : String) (default : ℤ) (error : String) : Except String ℤ := do
  let n ← getInt root key default
  if n = default then .error error else .ok n

/-- A number within bounds. -/
def getWithin (root : Json.Value) (key : String) (default low high : ℤ) (error : String) : Except String ℤ := do
  let n ← getInt root key default
  if n < low ∨ high < n then .error error else .ok n

/-- A number that is dropped if it is out of bounds. -/
def getIfWithin (root : Json.Value) (key : String) (low high : ℤ) : Except String (Option ℤ) := do
  let n ← getInt root key (-1)
  if low ≤ n ∧ n ≤ high then .ok (some n) else .ok none

/-! `parse_time`. No separator is a digit, so the expression matches in at most one way. -/

def takeDigits (low high : ℕ) (s : Bytes) : Option (ℕ × Bytes) :=
  let ds := (s.takeWhile isDigit).take high
  if ds.length < low then none else some (digitsValue ds, s.drop ds.length)

def literal (b : UInt8) : Bytes → Option Bytes
  | [] => none
  | c :: rest => if c = b then some rest else none

def matchTime (s : Bytes) : Option LocalTime := do
  let (year, s) ← takeDigits 4 4 s
  let s ← literal 45 s
  let (month, s) ← takeDigits 1 2 s
  let s ← literal 45 s
  let (day, s) ← takeDigits 1 2 s
  let s ← literal 32 s
  let (hour, s) ← takeDigits 1 2 s
  let s ← literal 58 s
  let (minute, s) ← takeDigits 1 2 s
  let s ← literal 58 s
  let (second, _) ← takeDigits 1 2 s
  pure { year, month, day, hour, minute, second }

def parseTime (mktime : LocalTime → ℤ) (text : String) : Except String ℤ :=
  if text = "" then .error "time string null"
  else match matchTime (bytes text) with
    | none => .error "time parse error"
    | some t =>
      if t.month < 1 ∨ 12 < t.month then .error "time parse month error"
      else if t.day < 1 ∨ 31 < t.day then .error "time parse day error"
      else if 23 < t.hour then .error "time parse hour error"
      else if 59 < t.minute then .error "time parse min error"
      else if 61 < t.second then .error "time parse sec error"
      else .ok (mktime t)

/-- Only an array of four is a position; anything else counts as none. -/
def parsePosition (root : Json.Value) : Except String (Option Position) := do
  match ← root.get "position" .null with
  | .array [a, b, c, d] =>
    let left ← a.asInt
    let top ← b.asInt
    let right ← c.asInt
    let bottom ← d.asInt
    pure (some { left, top, right, bottom })
  | _ => pure none

def parsePicType (root : Json.Value) (picCount : ℤ) : Except String (List ℤ) := do
  match ← root.get "PicType" .null with
  | .array values =>
    if picCount = 0 then pure []
    else if values.isEmpty then .error "parse pic type error"
    else if (values.length : ℤ) ≠ picCount then .error "parse pic type size not match"
    else values.mapM Json.Value.asInt
  | _ => if picCount = 0 then pure [] else .error "parse pic type error"

/-- `json_parse_device_data`, on what the reader makes of the text. -/
def jsonParseDeviceData (mktime : LocalTime → ℤ) : Parsed → Except String DeviceData
  | .thrown what _ => .error what
  | .rejected _ => .error "parse device data error"
  | .accepted root => do
    let longitude ← getDouble root "Longitude"
    let latitude ← getDouble root "Latitude"
    let vehicleInfoState ← getPresent root "VehicleInfoState" (-1) "parse VehicleInfoState error"
    let isPicUrl ← getPresent root "IsPicUrl" (-1) "parse IsPicUrl error"
    let laneIndex ← getPresent root "LaneIndex" 0 "parse LaneIndex error"
    let position ← parsePosition root
    let direction ← getWithin root "direction" 0 1 14 "direction error"
    let plateInfo1 ← getText root "PlateInfo1"
    if plateInfo1 = "" then .error "plate info 1 empty"
    let plateInfo2 ← getText root "PlateInfo2"
    let plateColor ← getWithin root "PlateColor" (-1) 0 9 "parse palte_color error"
    let plateType ← getWithin root "PlateType" 0 1 99 "parse palte_type error"
    let time ← getText root "PassTime"
    let passTime ← parseTime mktime time
    let vehicleSpeed ← getDouble root "VehicleSpeed"
    let laneMinSpeed ← getDouble root "LaneMiniSpeed"
    let laneMaxSpeed ← getDouble root "LaneMaxSpeed"
    let vehicleType ← getIfWithin root "VehicleType" 0 15
    let vehicleSubType ← getInt root "VehicleSubType" 0
    let vehicleColor ← getText root "VehicleColor"
    let vehicleColorDepth ← getIfWithin root "VehicleColorDepth" 0 2
    let vehicleLength ← getInt root "VehicleLength" 0
    let vehicleState ← getWithin root "VehicleState" 0 1 4 "parse vehicle state error"
    let picCount ← getInt root "PicCount" 0
    if picCount < 0 then .error "parse pic count error"
    let picType ← parsePicType root picCount
    let platePicUrl ← getText root "PlatePicUrl"
    let vehiclePic1Url ← getText root "VehiclePic1Url"
    let vehiclePic2Url ← getText root "VehiclePic2Url"
    let vehiclePic3Url ← getText root "VehiclePic3Url"
    let combinePicUrl ← getText root "CombinedPicUrl"
    let alarmAction ← getWithin root "AlarmAction" 0 1 99 "parse alarm action error"
    pure { longitude, latitude, vehicleInfoState, isPicUrl, laneIndex, position, direction, plateInfo1, plateInfo2,
           plateColor, plateType, passTime, vehicleSpeed, laneMinSpeed, laneMaxSpeed, vehicleType,
           vehicleSubType := some vehicleSubType, vehicleColor, vehicleColorDepth, vehicleLength, vehicleState,
           picCount, picType, platePicUrl, vehiclePic1Url, vehiclePic2Url, vehiclePic3Url, combinePicUrl,
           alarmAction }

/-! What the parser guarantees. -/

def IsInt (n : ℤ) : Prop := Json.Value.minInt ≤ n ∧ n ≤ Json.Value.maxInt

theorem truncated_isInt (q : ℚ) (hl : (Json.Value.minInt : ℚ) ≤ q) (hu : q ≤ (Json.Value.maxInt : ℚ)) :
    IsInt (q.num.tdiv q.den) := by
  have hden : (0 : ℤ) < q.den := by exact_mod_cast q.den_pos
  have hq : (q.num : ℚ) = q * q.den := (Rat.mul_den_eq_num q).symm
  have hden' : (0 : ℚ) ≤ q.den := by positivity
  have hlow : Json.Value.minInt * q.den ≤ q.num := by
    have h := mul_le_mul_of_nonneg_right hl hden'
    rw [← hq] at h
    exact_mod_cast h
  have hhigh : q.num ≤ Json.Value.maxInt * q.den := by
    have h := mul_le_mul_of_nonneg_right hu hden'
    rw [← hq] at h
    exact_mod_cast h
  by_cases hn : 0 ≤ q.num
  · rw [Int.tdiv_eq_ediv_of_nonneg hn]
    have h0 : 0 ≤ q.num / (q.den : ℤ) := Int.ediv_nonneg hn hden.le
    refine ⟨le_trans (by decide) h0, Int.ediv_le_of_le_mul hden hhigh⟩
  · have hneg : q.num.tdiv q.den = -((-q.num) / (q.den : ℤ)) := by
      rw [← Int.tdiv_eq_ediv_of_nonneg (by omega), Int.neg_tdiv, neg_neg]
    have h0 : 0 ≤ (-q.num) / (q.den : ℤ) := Int.ediv_nonneg (by omega) hden.le
    have h1 : (-q.num) / (q.den : ℤ) ≤ -Json.Value.minInt := by
      apply Int.ediv_le_of_le_mul hden
      rw [neg_mul]
      exact neg_le_neg hlow
    rw [hneg]
    exact ⟨by omega, le_trans (neg_nonpos.mpr h0) (by decide)⟩

theorem asInt_isInt (v : Json.Value) (n : ℤ) (h : v.asInt = .ok n) : IsInt n := by
  cases v with
  | null =>
    cases h
    exact ⟨by decide, by decide⟩
  | boolean b =>
    cases h
    cases b <;> exact ⟨by decide, by decide⟩
  | int m =>
    by_cases hm : Json.Value.minInt ≤ m ∧ m ≤ Json.Value.maxInt
    · rw [Json.Value.asInt, if_pos hm] at h
      cases h
      exact hm
    · rw [Json.Value.asInt, if_neg hm] at h
      cases h
  | uint m =>
    by_cases hm : (m : ℤ) ≤ Json.Value.maxInt
    · rw [Json.Value.asInt, if_pos hm] at h
      cases h
      exact ⟨le_trans (by decide) (Int.natCast_nonneg m), hm⟩
    · rw [Json.Value.asInt, if_neg hm] at h
      cases h
  | real q text =>
    by_cases hq : (Json.Value.minInt : ℚ) ≤ q ∧ q ≤ (Json.Value.maxInt : ℚ)
    · rw [Json.Value.asInt, if_pos hq] at h
      cases h
      exact truncated_isInt q hq.1 hq.2
    · rw [Json.Value.asInt, if_neg hq] at h
      cases h
  | string s => cases h
  | array values => cases h
  | object members => cases h

theorem getInt_isInt (root : Json.Value) (key : String) (default n : ℤ) (h : getInt root key default = .ok n) :
    IsInt n := by
  obtain ⟨v, -, hv⟩ := bind_ok h
  exact asInt_isInt v n hv

theorem getWithin_bounds (root : Json.Value) (key error : String) (default low high n : ℤ)
    (h : getWithin root key default low high error = .ok n) : low ≤ n ∧ n ≤ high := by
  obtain ⟨m, -, hm⟩ := bind_ok h
  split_ifs at hm with hb
  cases hm
  omega

theorem getIfWithin_bounds (root : Json.Value) (key : String) (low high n : ℤ)
    (h : getIfWithin root key low high = .ok (some n)) : low ≤ n ∧ n ≤ high := by
  obtain ⟨m, -, hm⟩ := bind_ok h
  split_ifs at hm with hb
  · cases hm
    exact hb
  · cases hm

theorem parsePosition_isInt (root : Json.Value) (p : Position) (h : parsePosition root = .ok (some p)) :
    ∀ n ∈ p.toList, IsInt n := by
  obtain ⟨v, -, hv⟩ := bind_ok h
  split at hv
  · next a b c d =>
    obtain ⟨left, hl, hv⟩ := bind_ok hv
    obtain ⟨top, ht, hv⟩ := bind_ok hv
    obtain ⟨right, hr, hv⟩ := bind_ok hv
    obtain ⟨bottom, hb, hv⟩ := bind_ok hv
    cases hv
    simp only [Position.toList, List.forall_mem_cons]
    exact ⟨asInt_isInt _ _ hl, asInt_isInt _ _ ht, asInt_isInt _ _ hr, asInt_isInt _ _ hb, by simp⟩
  · cases hv

structure Valid (d : DeviceData) : Prop where
  direction : 1 ≤ d.direction ∧ d.direction ≤ 14
  plate : d.plateInfo1 ≠ ""
  plateColor : 0 ≤ d.plateColor ∧ d.plateColor ≤ 9
  plateType : 1 ≤ d.plateType ∧ d.plateType ≤ 99
  position : ∀ p, d.position = some p → ∀ n ∈ p.toList, IsInt n
  vehicleType : ∀ n, d.vehicleType = some n → 0 ≤ n ∧ n ≤ 15
  vehicleSubType : ∃ n, d.vehicleSubType = some n ∧ IsInt n

/-- What a report that was accepted has from its text, as far as it is checked. -/
structure ReadFrom (root : Json.Value) (d : DeviceData) : Prop where
  position : parsePosition root = .ok d.position
  direction : getWithin root "direction" 0 1 14 "direction error" = .ok d.direction
  plate : d.plateInfo1 ≠ ""
  plateColor : getWithin root "PlateColor" (-1) 0 9 "parse palte_color error" = .ok d.plateColor
  plateType : getWithin root "PlateType" 0 1 99 "parse palte_type error" = .ok d.plateType
  vehicleType : getIfWithin root "VehicleType" 0 15 = .ok d.vehicleType
  vehicleSubType : ∃ n, getInt root "VehicleSubType" 0 = .ok n ∧ d.vehicleSubType = some n
  picCount : 0 ≤ d.picCount
  picType : parsePicType root d.picCount = .ok d.picType

/-- A report field by field, each as it is read from the text. -/
structure ReadsAs (mktime : LocalTime → ℤ) (root : Json.Value) (d : DeviceData) : Prop where
  longitude : getDouble root "Longitude" = .ok d.longitude
  latitude : getDouble root "Latitude" = .ok d.latitude
  vehicleInfoState :
    getPresent root "VehicleInfoState" (-1) "parse VehicleInfoState error" = .ok d.vehicleInfoState
  isPicUrl : getPresent root "IsPicUrl" (-1) "parse IsPicUrl error" = .ok d.isPicUrl
  laneIndex : getPresent root "LaneIndex" 0 "parse LaneIndex error" = .ok d.laneIndex
  position : parsePosition root = .ok d.position
  direction : getWithin root "direction" 0 1 14 "direction error" = .ok d.direction
  plateInfo1 : getText root "PlateInfo1" = .ok d.plateInfo1
  plate : d.plateInfo1 ≠ ""
  plateInfo2 : getText root "PlateInfo2" = .ok d.plateInfo2
  plateColor : getWithin root "PlateColor" (-1) 0 9 "parse palte_color error" = .ok d.plateColor
  plateType : getWithin root "PlateType" 0 1 99 "parse palte_type error" = .ok d.plateType
  passTime : ∃ time, getText root "PassTime" = .ok time ∧ parseTime mktime time = .ok d.passTime
  vehicleSpeed : getDouble root "VehicleSpeed" = .ok d.vehicleSpeed
  laneMinSpeed : getDouble root "LaneMiniSpeed" = .ok d.laneMinSpeed
  laneMaxSpeed : getDouble root "LaneMaxSpeed" = .ok d.laneMaxSpeed
  vehicleType : getIfWithin root "VehicleType" 0 15 = .ok d.vehicleType
  vehicleSubType : ∃ n, getInt root "VehicleSubType" 0 = .ok n ∧ d.vehicleSubType = some n
  vehicleColor : getText root "VehicleColor" = .ok d.vehicleColor
  vehicleColorDepth : getIfWithin root "VehicleColorDepth" 0 2 = .ok d.vehicleColorDepth
  vehicleLength : getInt root "VehicleLength" 0 = .ok d.vehicleLength
  vehicleState : getWithin root "VehicleState" 0 1 4 "parse vehicle state error" = .ok d.vehicleState
  picCount : getInt root "PicCount" 0 = .ok d.picCount
  counted : 0 ≤ d.picCount
  picType : parsePicType root d.picCount = .ok d.picType
  platePicUrl : getText root "PlatePicUrl" = .ok d.platePicUrl
  vehiclePic1Url : getText root "VehiclePic1Url" = .ok d.vehiclePic1Url
  vehiclePic2Url : getText root "VehiclePic2Url" = .ok d.vehiclePic2Url
  vehiclePic3Url : getText root "VehiclePic3Url" = .ok d.vehiclePic3Url
  combinePicUrl : getText root "CombinedPicUrl" = .ok d.combinePicUrl
  alarmAction : getWithin root "AlarmAction" 0 1 99 "parse alarm action error" = .ok d.alarmAction

theorem readsAs_of_ok (mktime : LocalTime → ℤ) (root : Json.Value) (d : DeviceData)
    (h : jsonParseDeviceData mktime (.accepted root) = .ok d) : ReadsAs mktime root d := by
  obtain ⟨longitude, hlongitude, h⟩ := bind_ok h
  obtain ⟨latitude, hlatitude, h⟩ := bind_ok h
  obtain ⟨infoState, hinfoState, h⟩ := bind_ok h
  obtain ⟨isPicUrl, hisPicUrl, h⟩ := bind_ok h
  obtain ⟨laneIndex, hlaneIndex, h⟩ := bind_ok h
  obtain ⟨position, hposition, h⟩ := bind_ok h
  obtain ⟨direction, hdirection, h⟩ := bind_ok h
  obtain ⟨plate1, hplate1, h⟩ := bind_ok h
  by_cases hplate : plate1 = ""
  · rw [if_pos hplate] at h
    cases h
  · rw [if_neg hplate] at h
    obtain ⟨plate2, hplate2, h⟩ := bind_ok h
    obtain ⟨color, hcolor, h⟩ := bind_ok h
    obtain ⟨type, htype, h⟩ := bind_ok h
    obtain ⟨time, htime, h⟩ := bind_ok h
    obtain ⟨passTime, hpassTime, h⟩ := bind_ok h
    obtain ⟨speed, hspeed, h⟩ := bind_ok h
    obtain ⟨minSpeed, hminSpeed, h⟩ := bind_ok h
    obtain ⟨maxSpeed, hmaxSpeed, h⟩ := bind_ok h
    obtain ⟨vehicle, hvehicle, h⟩ := bind_ok h
    obtain ⟨subType, hsub, h⟩ := bind_ok h
    obtain ⟨vehicleColor, hvehicleColor, h⟩ := bind_ok h
    obtain ⟨depth, hdepth, h⟩ := bind_ok h
    obtain ⟨length, hlength, h⟩ := bind_ok h
    obtain ⟨state, hstate, h⟩ := bind_ok h
    obtain ⟨count, hpicCount, h⟩ := bind_ok h
    by_cases hcount : count < 0
    · rw [if_pos hcount] at h
      cases h
    · rw [if_neg hcount] at h
      obtain ⟨types, htypes, h⟩ := bind_ok h
      obtain ⟨plateUrl, hplateUrl, h⟩ := bind_ok h
      obtain ⟨url1, hurl1, h⟩ := bind_ok h
      obtain ⟨url2, hurl2, h⟩ := bind_ok h
      obtain ⟨url3, hurl3, h⟩ := bind_ok h
      obtain ⟨combined, hcombined, h⟩ := bind_ok h
      obtain ⟨alarm, halarm, h⟩ := bind_ok h
      cases h
      exact ⟨hlongitude, hlatitude, hinfoState, hisPicUrl, hlaneIndex, hposition, hdirection, hplate1, hplate,
        hplate2, hcolor, htype, ⟨time, htime, hpassTime⟩, hspeed, hminSpeed, hmaxSpeed, hvehicle, ⟨subType, hsub, rfl⟩,
        hvehicleColor, hdepth, hlength, hstate, hpicCount, not_lt.mp hcount, htypes, hplateUrl, hurl1, hurl2, hurl3,
        hcombined, halarm⟩

theorem ok_of_readsAs (mktime : LocalTime → ℤ) (root : Json.Value) (d : DeviceData) (h : ReadsAs mktime root d) :
    jsonParseDeviceData mktime (.accepted root) = .ok d := by
  obtain ⟨time, htime, hpassTime⟩ := h.passTime
  obtain ⟨subType, hsub, hsome⟩ := h.vehicleSubType
  have hcount : ¬ d.picCount < 0 := not_lt.mpr h.counted
  rw [jsonParseDeviceData]
  simp only [ok_bind, h.longitude, h.latitude, h.vehicleInfoState, h.isPicUrl, h.laneIndex, h.position, h.direction,
    h.plateInfo1, h.plate, h.plateInfo2, h.plateColor, h.plateType, htime, hpassTime, h.vehicleSpeed, h.laneMinSpeed,
    h.laneMaxSpeed, h.vehicleType, hsub, h.vehicleColor, h.vehicleColorDepth, h.vehicleLength, h.vehicleState,
    h.picCount, hcount, h.picType, h.platePicUrl, h.vehiclePic1Url, h.vehiclePic2Url, h.vehiclePic3Url,
    h.combinePicUrl, h.alarmAction, if_false]
  rw [← hsome]
  rfl

theorem jsonParseDeviceData_eq_ok (mktime : LocalTime → ℤ) (parsed : Parsed) (d : DeviceData) :
    jsonParseDeviceData mktime parsed = .ok d ↔ ∃ root, parsed = .accepted root ∧ ReadsAs mktime root d := by
  constructor
  · intro h
    cases parsed with
    | thrown what root => cases h
    | rejected root => cases h
    | accepted root => exact ⟨root, rfl, readsAs_of_ok mktime root d h⟩
  · rintro ⟨root, rfl, h⟩
    exact ok_of_readsAs mktime root d h

theorem jsonParseDeviceData_read (mktime : LocalTime → ℤ) (parsed : Parsed) (d : DeviceData)
    (h : jsonParseDeviceData mktime parsed = .ok d) : ∃ root, ReadFrom root d := by
  obtain ⟨root, -, hr⟩ := (jsonParseDeviceData_eq_ok mktime parsed d).mp h
  exact ⟨root, {
    position := hr.position
    direction := hr.direction
    plate := hr.plate
    plateColor := hr.plateColor
    plateType := hr.plateType
    vehicleType := hr.vehicleType
    vehicleSubType := hr.vehicleSubType
    picCount := hr.counted
    picType := hr.picType }⟩

theorem jsonParseDeviceData_valid (mktime : LocalTime → ℤ) (parsed : Parsed) (d : DeviceData)
    (h : jsonParseDeviceData mktime parsed = .ok d) : Valid d := by
  obtain ⟨root, hread⟩ := jsonParseDeviceData_read mktime parsed d h
  obtain ⟨subType, hsub, hsome⟩ := hread.vehicleSubType
  exact {
    direction := getWithin_bounds _ _ _ _ _ _ _ hread.direction
    plate := hread.plate
    plateColor := getWithin_bounds _ _ _ _ _ _ _ hread.plateColor
    plateType := getWithin_bounds _ _ _ _ _ _ _ hread.plateType
    position := fun p hp => parsePosition_isInt root p (by rw [hread.position, hp])
    vehicleType := fun n hn => getIfWithin_bounds _ _ _ _ n (by rw [hread.vehicleType, hn])
    vehicleSubType := ⟨subType, hsome, getInt_isInt _ _ _ _ hsub⟩ }

theorem parsePicType_length (root : Json.Value) (picCount : ℤ) (types : List ℤ)
    (h : parsePicType root picCount = .ok types) : (types.length : ℤ) = picCount := by
  obtain ⟨v, -, h⟩ := bind_ok h
  split at h
  · next values =>
    split_ifs at h with hzero hempty hlength
    · cases h
      exact hzero.symm
    · rw [mapM_length _ _ _ h]
      exact not_not.mp hlength
  · split_ifs at h with hzero
    cases h
    exact hzero.symm

/-- Every picture that is announced has a type. -/
theorem jsonParseDeviceData_picType (mktime : LocalTime → ℤ) (parsed : Parsed) (d : DeviceData)
    (h : jsonParseDeviceData mktime parsed = .ok d) : (d.picType.length : ℤ) = d.picCount := by
  obtain ⟨root, hread⟩ := jsonParseDeviceData_read mktime parsed d h
  exact parsePicType_length root _ _ hread.picType

end BitPark.DeviceMessage
