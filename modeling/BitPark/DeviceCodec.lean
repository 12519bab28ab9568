import BitPark.Indexing
import BitPark.PassTime

namespace BitPark.DeviceCodec

open BitPark.Server BitPark.PictureFiles BitPark.DeviceMessage BitPark.Fallible BitPark.Indexing BitPark.PassTime

/-! The text of a report that the server writes itself, and what the parser makes of it. -/

/-- A member that is only written when there is a value. -/
def optional (key : String) (value : Option Json.Value) : List (String × Json.Value) := (value.map (key, ·)).toList

/-- The loop over the pictures, which reads their types by index. -/
def encodePicType (d : DeviceData) : Except (Stop String) (List Json.Value) :=
  (List.range d.picCount.toNat).mapM fun (i : ℕ) => do
    let type ← indexed d.picType i
    pure (.int type)

/-- The members of the root, in the order in which they are written. -/
def members (valueToString : ℚ → String) (offset : ℤ) (d : DeviceData) (picType : List Json.Value) :
    List (String × Json.Value) :=
  List.flatten [
    [("Longitude", .real d.longitude (valueToString d.longitude)),
      ("Latitude", .real d.latitude (valueToString d.latitude)), ("VehicleInfoState", .int d.vehicleInfoState),
      ("IsPicUrl", .int d.isPicUrl), ("LaneIndex", .int d.laneIndex)],
    optional "position" (d.position.map fun p => .array (p.toList.map .int)),
    [("direction", .int d.direction), ("PlateInfo1", .string d.plateInfo1), ("PlateInfo2", .string d.plateInfo2),
      ("PlateColor", .int d.plateColor), ("PlateType", .int d.plateType),
      ("PassTime", .string (encodeTime offset d.passTime)),
      ("VehicleSpeed", .real d.vehicleSpeed (valueToString d.vehicleSpeed)),
      ("LaneMiniSpeed", .real d.laneMinSpeed (valueToString d.laneMinSpeed)),
      ("LaneMaxSpeed", .real d.laneMaxSpeed (valueToString d.laneMaxSpeed))],
    optional "VehicleType" (d.vehicleType.map .int),
    optional "VehicleSubType" (d.vehicleSubType.map .int),
    optional "VehicleColor" (if d.vehicleColor = "" then none else some (.string d.vehicleColor)),
    optional "VehicleColorDepth" (d.vehicleColorDepth.map .int),
    [("vehicleLength", .int d.vehicleLength), ("VehicleState", .int d.vehicleState), ("PicCount", .int d.picCount)],
    optional "PicType" (if picType = [] then none else some (.array picType)),
    [("PlatePicUrl", .string d.platePicUrl), ("VehiclePic1Url", .string d.vehiclePic1Url),
      ("VehiclePic2Url", .string d.vehiclePic2Url), ("VehiclePic3Url", .string d.vehiclePic3Url),
      ("CombinePicUrl", .string d.combinePicUrl), ("AlarmAction", .int d.alarmAction)]]

/-- `json_encode_device_data`, up to the writer; `valueToString` is its text of a real number. -/
def jsonEncodeDeviceData (valueToString : ℚ → String) (offset : ℤ) (d : DeviceData) :
    Except (Stop String) Json.Value := do
  let picType ← encodePicType d
  pure (.object (members valueToString offset d picType))

@[simp] theorem lookup_optional (key : String) (value : Option Json.Value) : (optional key value).lookup key = value := by
  cases value with
  | none => rfl
  | some v => simp [optional]

@[simp] theorem lookup_optional_ne (key other : String) (value : Option Json.Value) (h : other ≠ key) :
    (optional key value).lookup other = none := by
  cases value with
  | none => rfl
  | some v => simp [optional, h]

/-! A member that was written is read as it was. -/

theorem asInt_int (n : ℤ) (h : IsInt n) : (Json.Value.int n).asInt = .ok n := if_pos h

section Reading

variable (ms : List (String × Json.Value)) (key : String)

theorem getInt_written (default n : ℤ) (h : ms.lookup key = some (.int n)) (hn : IsInt n) :
    getInt (.object ms) key default = .ok n := by
  rw [getInt, Json.Value.get, h, ok_bind, Option.getD_some, asInt_int n hn]

theorem getInt_missing (default : ℤ) (h : ms.lookup key = none) (hn : IsInt default) :
    getInt (.object ms) key default = .ok default := by
  rw [getInt, Json.Value.get, h, ok_bind, Option.getD_none, asInt_int default hn]

theorem getPresent_again (root : Json.Value) (default n : ℤ) (error : String)
    (hr : getPresent root key default error = .ok n) (h : ms.lookup key = some (.int n)) :
    getPresent (.object ms) key default error = .ok n := by
  obtain ⟨m, hm, hr⟩ := bind_ok hr
  split_ifs at hr with hdefault
  cases hr
  rw [getPresent, getInt_written ms key default n h (getInt_isInt root key default n hm), ok_bind, if_neg hdefault]

theorem getWithin_again (root : Json.Value) (default low high n : ℤ) (error : String)
    (hr : getWithin root key default low high error = .ok n) (h : ms.lookup key = some (.int n)) :
    getWithin (.object ms) key default low high error = .ok n := by
  obtain ⟨m, hm, hr⟩ := bind_ok hr
  split_ifs at hr with hb
  cases hr
  rw [getWithin, getInt_written ms key default n h (getInt_isInt root key default n hm), ok_bind, if_neg hb]

/-- A number that is left out when it was dropped. The default of -1 is dropped as well. -/
theorem getIfWithin_again (root : Json.Value) (low high : ℤ) (value : Option ℤ)
    (hr : getIfWithin root key low high = .ok value) (h : ms.lookup key = value.map .int) (hlow : 0 ≤ low) :
    getIfWithin (.object ms) key low high = .ok value := by
  cases value with
  | none =>
    rw [getIfWithin, getInt_missing ms key (-1) h ⟨by decide, by decide⟩, ok_bind, if_neg (by omega)]
  | some n =>
    obtain ⟨m, hm, hr⟩ := bind_ok hr
    split_ifs at hr with hb
    · cases hr
      rw [getIfWithin, getInt_written ms key (-1) n h (getInt_isInt root key (-1) n hm), ok_bind, if_pos hb]
    · cases hr

theorem getDouble_written (q : ℚ) (text : String) (h : ms.lookup key = some (.real q text)) :
    getDouble (.object ms) key = .ok q := by
  rw [getDouble, Json.Value.get, h]
  rfl

theorem getText_written (text : String) (h : ms.lookup key = some (.string text)) :
    getText (.object ms) key = .ok text := by
  rw [getText, Json.Value.get, h]
  rfl

theorem getText_missing (h : ms.lookup key = none) : getText (.object ms) key = .ok "" := by
  rw [getText, Json.Value.get, h]
  rfl

/-- A text that is left out when it is empty. -/
theorem getText_optional (text : String) (h : ms.lookup key = if text = "" then none else some (.string text)) :
    getText (.object ms) key = .ok text := by
  split_ifs at h with hempty
  · rw [getText_missing ms key h, hempty]
  · exact getText_written ms key text h

theorem mapM_asInt (ns : List ℤ) (h : ∀ n ∈ ns, IsInt n) : (ns.map Json.Value.int).mapM Json.Value.asInt = .ok ns := by
  induction ns with
  | nil => rfl
  | cons n ns ih =>
    obtain ⟨hn, hns⟩ := List.forall_mem_cons.mp h
    rw [List.map_cons, List.mapM_cons, asInt_int n hn, ih hns]
    rfl

theorem parsePicType_written (types : List ℤ) (picCount : ℤ)
    (h : ms.lookup "PicType" = if types.map Json.Value.int = [] then none else some (.array (types.map .int)))
    (hlen : (types.length : ℤ) = picCount) (ht : ∀ n ∈ types, IsInt n) :
    parsePicType (.object ms) picCount = .ok types := by
  rw [parsePicType, Json.Value.get, h, ok_bind]
  cases types with
  | nil =>
    have hzero : picCount = 0 := hlen.symm
    simp only [List.map_nil, if_true, Option.getD_none, hzero]
    rfl
  | cons n ns =>
    have hne : ¬ picCount = 0 := by
      rw [List.length_cons] at hlen
      omega
    have hcount : ((Json.Value.int n :: ns.map Json.Value.int).length : ℤ) = picCount := by
      rw [← hlen, List.length_cons, List.length_map, List.length_cons]
    have hread := mapM_asInt (n :: ns) ht
    rw [List.map_cons] at hread
    simp only [List.map_cons, reduceCtorEq, if_false, Option.getD_some, hne, List.isEmpty_cons, hcount, hread,
      Bool.false_eq_true, ne_eq, not_true_eq_false]

theorem parsePosition_written (position : Option Position)
    (h : ms.lookup "position" = position.map fun p => .array (p.toList.map .int))
    (hp : ∀ p, position = some p → ∀ n ∈ p.toList, IsInt n) : parsePosition (.object ms) = .ok position := by
  rw [parsePosition, Json.Value.get, h]
  cases position with
  | none => rfl
  | some p =>
    have hall := hp p rfl
    simp only [Position.toList, List.forall_mem_cons] at hall
    obtain ⟨hleft, htop, hright, hbottom, -⟩ := hall
    simp only [ok_bind, Option.map_some, Option.getD_some, Position.toList, List.map_cons, List.map_nil,
      asInt_int _ hleft, asInt_int _ htop, asInt_int _ hright, asInt_int _ hbottom]
    rfl

end Reading

/-! What is written for a report that was read. -/

theorem parsePicType_isInt (root : Json.Value) (picCount : ℤ) (types : List ℤ)
    (h : parsePicType root picCount = .ok types) : ∀ n ∈ types, IsInt n := by
  obtain ⟨v, -, h⟩ := bind_ok h
  split at h
  · next values =>
    split_ifs at h
    · cases h
      exact fun n hn => absurd hn List.not_mem_nil
    · intro n hn
      obtain ⟨value, -, hvalue⟩ := mapM_mem _ _ _ h n hn
      exact asInt_isInt value n hvalue
  · split_ifs at h
    cases h
    exact fun n hn => absurd hn List.not_mem_nil

theorem encodePicType_eq (d : DeviceData) (h : (d.picType.length : ℤ) = d.picCount) :
    encodePicType d = .ok (d.picType.map .int) := by
  have hcount : d.picCount.toNat = d.picType.length := by omega
  have hread : ∀ i ∈ List.range d.picCount.toNat, (do
      let type ← (indexed d.picType (i : ℕ) : Except (Stop String) ℤ)
      pure (Json.Value.int type)) = .ok (.int (d.picType.getD i 0)) := by
    intro i hi
    have hlt : i < d.picType.length := by
      rw [← hcount]
      exact List.mem_range.mp hi
    rw [indexed_of_lt d.picType i hlt, List.getD_eq_getElem _ _ hlt]
    rfl
  rw [encodePicType, mapM_eq_ok _ _ _ hread, hcount]
  congr 1
  apply List.ext_getElem
  · simp
  · intro i h1 h2
    simp at h1
    simp [h1]

section Written

attribute [local simp] members List.lookup_append List.lookup_cons

/-- A report that is written and read again. Neither the length of the vehicle
nor the url of the combined picture is written under the key that is read. -/
theorem members_readsAs (valueToString : ℚ → String) (offset : ℤ) (root : Json.Value) (d : DeviceData)
    (h : ReadsAs (mktime offset) root d) (hl : 0 ≤ (localDate offset d.passTime).year)
    (hu : (localtime offset d.passTime).year < 10000) :
    ReadsAs (mktime offset) (.object (members valueToString offset d (d.picType.map .int)))
      { d with vehicleLength := 0, combinePicUrl := "" } where
  longitude := by
    apply getDouble_written _ _ _ (valueToString d.longitude)
    simp
  latitude := by
    apply getDouble_written _ _ _ (valueToString d.latitude)
    simp
  vehicleInfoState := by
    apply getPresent_again _ _ root _ _ _ h.vehicleInfoState
    simp
  isPicUrl := by
    apply getPresent_again _ _ root _ _ _ h.isPicUrl
    simp
  laneIndex := by
    apply getPresent_again _ _ root _ _ _ h.laneIndex
    simp
  position := by
    refine parsePosition_written _ _ ?_ fun p hp => parsePosition_isInt root p (by rw [h.position, hp])
    simp
  direction := by
    apply getWithin_again _ _ root _ _ _ _ _ h.direction
    simp
  plateInfo1 := by
    apply getText_written
    simp
  plate := h.plate
  plateInfo2 := by
    apply getText_written
    simp
  plateColor := by
    apply getWithin_again _ _ root _ _ _ _ _ h.plateColor
    simp
  plateType := by
    apply getWithin_again _ _ root _ _ _ _ _ h.plateType
    simp
  passTime := by
    refine ⟨encodeTime offset d.passTime, getText_written _ _ _ ?_, parseTime_encodeTime offset d.passTime hl hu⟩
    simp
  vehicleSpeed := by
    apply getDouble_written _ _ _ (valueToString d.vehicleSpeed)
    simp
  laneMinSpeed := by
    apply getDouble_written _ _ _ (valueToString d.laneMinSpeed)
    simp
  laneMaxSpeed := by
    apply getDouble_written _ _ _ (valueToString d.laneMaxSpeed)
    simp
  vehicleType := by
    refine getIfWithin_again _ _ root _ _ _ h.vehicleType ?_ le_rfl
    simp
  vehicleSubType := by
    obtain ⟨n, hn, hsome⟩ := h.vehicleSubType
    refine ⟨n, getInt_written _ _ _ _ ?_ (getInt_isInt root _ _ n hn), hsome⟩
    simp [hsome]
  vehicleColor := by
    apply getText_optional
    simp
  vehicleColorDepth := by
    refine getIfWithin_again _ _ root _ _ _ h.vehicleColorDepth ?_ le_rfl
    simp
  vehicleLength := by
    refine getInt_missing _ _ _ ?_ ⟨by decide, by decide⟩
    simp
  vehicleState := by
    apply getWithin_again _ _ root _ _ _ _ _ h.vehicleState
    simp
  picCount := by
    refine getInt_written _ _ _ _ ?_ (getInt_isInt root _ _ _ h.picCount)
    simp
  counted := h.counted
  picType := by
    refine parsePicType_written _ _ _ ?_ (parsePicType_length root _ _ h.picType) (parsePicType_isInt root _ _ h.picType)
    simp
  platePicUrl := by
    apply getText_written
    simp
  vehiclePic1Url := by
    apply getText_written
    simp
  vehiclePic2Url := by
    apply getText_written
    simp
  vehiclePic3Url := by
    apply getText_written
    simp
  combinePicUrl := by
    apply getText_missing
    simp
  alarmAction := by
    apply getWithin_again _ _ root _ _ _ _ _ h.alarmAction
    simp

end Written

theorem year_nonneg (offset time : ℤ) (h : 1970 ≤ (localtime offset time).year) : 0 ≤ (localDate offset time).year := by
  by_contra hneg
  rw [localtime] at h
  dsimp only at h
  omega

theorem jsonParse_jsonEncode (valueToString : ℚ → String) (offset : ℤ) (parsed : Parsed) (d : DeviceData)
    (h : jsonParseDeviceData (mktime offset) parsed = .ok d)
    (hy : 1970 ≤ (localtime offset d.passTime).year ∧ (localtime offset d.passTime).year ≤ 9999) :
    ∃ root, jsonEncodeDeviceData valueToString offset d = .ok root ∧
      jsonParseDeviceData (mktime offset) (.accepted root) = .ok { d with vehicleLength := 0, combinePicUrl := "" } := by
  obtain ⟨root, -, hread⟩ := (jsonParseDeviceData_eq_ok _ _ _).mp h
  have hpics := encodePicType_eq d (parsePicType_length root _ _ hread.picType)
  refine ⟨.object (members valueToString offset d (d.picType.map .int)), ?_, ?_⟩
  · rw [jsonEncodeDeviceData, hpics]
    rfl
  · apply ok_of_readsAs
    exact members_readsAs valueToString offset root d hread (year_nonneg offset _ hy.1) (Nat.lt_succ_of_le hy.2)

/-- A report that was read survives being written and read again just when it
has neither a vehicle length nor the url of a combined picture. -/
theorem jsonRoundTrip_iff (valueToString : ℚ → String) (offset : ℤ) (parsed : Parsed) (d : DeviceData)
    (h : jsonParseDeviceData (mktime offset) parsed = .ok d)
    (hy : 1970 ≤ (localtime offset d.passTime).year ∧ (localtime offset d.passTime).year ≤ 9999) :
    (∃ root, jsonEncodeDeviceData valueToString offset d = .ok root ∧
      jsonParseDeviceData (mktime offset) (.accepted root) = .ok d) ↔ d.vehicleLength = 0 ∧ d.combinePicUrl = "" := by
  obtain ⟨root, hencode, hparse⟩ := jsonParse_jsonEncode valueToString offset parsed d h hy
  constructor
  · rintro ⟨root', hencode', hparse'⟩
    obtain rfl : root = root' := Except.ok.inj (hencode.symm.trans hencode')
    have heq := Except.ok.inj (hparse.symm.trans hparse')
    exact ⟨(congrArg DeviceData.vehicleLength heq).symm, (congrArg DeviceData.combinePicUrl heq).symm⟩
  · rintro ⟨hlength, hurl⟩
    refine ⟨root, hencode, hparse.trans ?_⟩
    rw [← hlength, ← hurl]

/-- The members that a report has to have. -/
def required : List (String × Json.Value) :=
  [("VehicleInfoState", .int 0), ("IsPicUrl", .int 1), ("LaneIndex", .int 1), ("direction", .int 1),
    ("PlateInfo1", .string "A12345"), ("PlateColor", .int 2), ("PlateType", .int 1),
    ("PassTime", .string "2016-05-01 08:00:00"), ("VehicleState", .int 1), ("AlarmAction", .int 1)]

def report (others : List (String × Json.Value)) : Parsed := .accepted (.object (required ++ others))

def reported : DeviceData :=
  { isPicUrl := 1, direction := 1, plateInfo1 := "A12345", plateColor := 2, plateType := 1, passTime := 1462060800,
    vehicleSubType := some 0 }

theorem plain_report_survives : jsonParseDeviceData (mktime 28800) (report []) = .ok reported ∧
    ∃ root, jsonEncodeDeviceData (fun _ => "0.0") 28800 reported = .ok root ∧
      jsonParseDeviceData (mktime 28800) (.accepted root) = .ok reported := by
  have h : jsonParseDeviceData (mktime 28800) (report []) = .ok reported := by decide
  exact ⟨h, (jsonRoundTrip_iff _ 28800 _ reported h (by decide)).mpr ⟨rfl, rfl⟩⟩

theorem vehicleLength_lost :
    jsonParseDeviceData (mktime 28800) (report [("VehicleLength", .int 5)]) = .ok { reported with vehicleLength := 5 } ∧
      (localtime 28800 reported.passTime).year = 2016 ∧
      ¬ ∃ root, jsonEncodeDeviceData (fun _ => "0.0") 28800 { reported with vehicleLength := 5 } = .ok root ∧
        jsonParseDeviceData (mktime 28800) (.accepted root) = .ok { reported with vehicleLength := 5 } := by
  have h : jsonParseDeviceData (mktime 28800) (report [("VehicleLength", .int 5)]) =
      .ok { reported with vehicleLength := 5 } := by decide
  refine ⟨h, by decide, ?_⟩
  obtain ⟨root, hencode, hparse⟩ := jsonParse_jsonEncode (fun _ => "0.0") 28800 _ _ h (by decide)
  rintro ⟨root', hencode', hparse'⟩
  obtain rfl : root = root' := Except.ok.inj (hencode.symm.trans hencode')
  have heq := Except.ok.inj (hparse.symm.trans hparse')
  exact absurd (congrArg DeviceData.vehicleLength heq) (by decide)

end BitPark.DeviceCodec
