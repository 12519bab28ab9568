import BitPark.Passage

namespace BitPark.DetectRow

open BitPark.Server BitPark.Decimal BitPark.Members BitPark.PictureFiles BitPark.DeviceMessage BitPark.Passage
open BitPark.Fallible

/-! A row of `park_detect_info` as text, and the two functions that read it. -/

/-- The columns that a reader tests for null are optional. -/
structure Row where
  nid : Bytes
  licensetype : Bytes
  carno : Bytes
  carnosecond : Bytes
  devicecode : Bytes
  direction : Bytes
  cpic1path : Bytes
  cpic2path : Bytes
  platecolor : Bytes
  platePosition : Option Bytes
  carcolor : Option Bytes
  carbrand : Option Bytes
  carversion : Option Bytes
  collectiondate : Bytes
deriving DecidableEq, Repr

/-- `mysqlpp::DateTime`: a time as text and back. -/
structure DateTimes where
  str : ℤ → Bytes
  time : Bytes → ℤ

def optionText (n : Option ℤ) : Bytes := (n.map decimal).getD []

/-- The row that `InsertPassVehicleInfo` writes. An absent number is an empty text. -/
def insertedRow (dt : DateTimes) (nid : String) (info : PassRecord) : Row where
  nid := bytes nid
  licensetype := decimal info.plateType
  carno := bytes info.plateNumber1
  carnosecond := bytes info.plateNumber2
  devicecode := bytes info.deviceId
  direction := decimal info.passDirection
  cpic1path := info.pictureUrl1
  cpic2path := info.pictureUrl2
  platecolor := decimal info.plateColor
  platePosition := some info.platePosition
  carcolor := some (bytes info.vehicleColor)
  carbrand := some (optionText info.vehicleType)
  carversion := some (optionText info.vehicleSubtype)
  collectiondate := dt.str info.passTime

/-- An entry of the answer to `QueryParkingVehicle`. -/
structure ParkingRecord where
  passId : Bytes
  plateType : ℤ
  plateNumber1 : Bytes
  plateNumber2 : Bytes
  deviceId : Bytes
  passDirection : ℤ
  pictureUrl1 : Bytes
  pictureUrl2 : Bytes
  plateColor : ℤ
  platePosition : Option (List ℤ)
  vehicleColor : Option Bytes
  vehicleType : Option ℤ
  vehicleSubType : Option ℤ
  passTime : Bytes
deriving DecidableEq, Repr

def readInt (column : Bytes) : Except String ℤ := stoi (cString column)

/-- A column that is read unless it is null. -/
def readOption {α : Type} (read : Bytes → Except String α) : Option Bytes → Except String (Option α)
  | none => .ok none
  | some column => (read column).map some

def readPosition (column : Bytes) : Except String (List ℤ) := ((cString column).splitOn comma).mapM stoi

/-- The body of the loop of `QueryParkingVehicle`. -/
def readParkingVehicle (row : Row) : Except String ParkingRecord := do
  let plateType ← readInt row.licensetype
  let passDirection ← readInt row.direction
  let plateColor ← readInt row.platecolor
  let platePosition ← readOption readPosition row.platePosition
  let vehicleType ← readOption readInt row.carbrand
  let vehicleSubType ← readOption readInt row.carversion
  pure { passId := cString row.nid, plateType, plateNumber1 := cString row.carno,
         plateNumber2 := cString row.carnosecond, deviceId := cString row.devicecode, passDirection,
         pictureUrl1 := cString row.cpic1path, pictureUrl2 := cString row.cpic2path, plateColor, platePosition,
         vehicleColor := row.carcolor.map cString, vehicleType, vehicleSubType,
         passTime := cString row.collectiondate }

/-- The loop ends with the first row that cannot be read. -/
def readParkingVehicles (rows : List Row) : Except String (List ParkingRecord) := rows.mapM readParkingVehicle

/-- `int(mysqlpp::String)`: nothing to convert is zero, and behind the number
only blanks may follow, or a point and zeros. -/
def sqlInt (column : Bytes) : Except String ℤ :=
  let t := column.dropWhile isSpace
  let ds := (unsigned t).takeWhile isDigit
  let rest := (unsigned t).drop ds.length
  let v : ℤ := if t.head? = some 45 then -(digitsValue ds : ℤ) else digitsValue ds
  let long : ℤ := max (-2 ^ 63) (min v (2 ^ 63 - 1))
  if ds = [] then if unsigned t = [] then .ok 0 else .error "Bad type conversion"
  else if long ≠ v then if rest = [] then .ok (long.bmod (2 ^ 32)) else .error "Bad type conversion"
  else match rest.dropWhile isSpace with
    | [] => .ok (v.bmod (2 ^ 32))
    | c :: zeros =>
      if c = 46 ∧ ∀ z ∈ zeros, isSpace z ∨ z = 48 then .ok (v.bmod (2 ^ 32)) else .error "Bad type conversion"

/-- `PassVehicle` as it is filled from a row. -/
structure EnterVehicle where
  passId : Bytes
  plateType : ℤ
  plateNumber1 : Bytes
  plateNumber2 : Bytes
  plateColor : ℤ
  passDirection : ℤ
  pictureUrl1 : Bytes
  pictureUrl2 : Bytes
  vehicleColor : Bytes
  vehicleType : Option ℤ
  vehicleSubtype : Option ℤ
  deviceId : Bytes
  platePosition : Bytes
  passTime : ℤ
deriving DecidableEq, Repr

def readUnlessEmpty (column : Option Bytes) : Except String (Option ℤ) :=
  if column.getD [] = [] then .ok none else (sqlInt (column.getD [])).map some

def handleQueryEnterDeviceFunc (dt : DateTimes) (row : Row) : Except String EnterVehicle := do
  let plateType ← sqlInt row.licensetype
  let plateColor ← sqlInt row.platecolor
  let passDirection ← sqlInt row.direction
  let vehicleType ← readUnlessEmpty row.carbrand
  let vehicleSubtype ← readUnlessEmpty row.carversion
  pure { passId := cString row.nid, plateType, plateNumber1 := cString row.carno,
         plateNumber2 := cString row.carnosecond, plateColor, passDirection,
         pictureUrl1 := cString row.cpic1path, pictureUrl2 := cString row.cpic2path,
         vehicleColor := cString (row.carcolor.getD []), vehicleType, vehicleSubtype,
         deviceId := cString row.devicecode, platePosition := cString (row.platePosition.getD []),
         passTime := dt.time (cString row.collectiondate) }

/-! What becomes of a report that was stored. -/

structure Stored where
  nid : String
  data : DeviceData
  deviceId : String
  url1 : Bytes := []
  url2 : Bytes := []

def Stored.info (p : Stored) : PassRecord := reportRecord p.data p.deviceId p.url1 p.url2

def Stored.row (dt : DateTimes) (p : Stored) : Row := insertedRow dt p.nid p.info

/-- The entry of a passage in the answer about the vehicles inside; `text` is
what the reader makes of a text. -/
def Stored.listed (dt : DateTimes) (text : Bytes → Bytes) (p : Stored) : ParkingRecord where
  passId := text (bytes p.nid)
  plateType := p.data.plateType
  plateNumber1 := text (bytes p.data.plateInfo1)
  plateNumber2 := text (bytes p.data.plateInfo2)
  deviceId := text (bytes p.deviceId)
  passDirection := p.data.direction
  pictureUrl1 := text p.url1
  pictureUrl2 := text p.url2
  plateColor := p.data.plateColor
  platePosition := p.data.position.map (·.toList)
  vehicleColor := some (text (bytes p.data.vehicleColor))
  vehicleType := p.data.vehicleType
  vehicleSubType := p.data.vehicleSubType
  passTime := dt.str p.data.passTime

/-- The passage itself. -/
def Stored.vehicle (text : Bytes → Bytes) (p : Stored) : EnterVehicle where
  passId := text (bytes p.nid)
  plateType := p.data.plateType
  plateNumber1 := text (bytes p.data.plateInfo1)
  plateNumber2 := text (bytes p.data.plateInfo2)
  plateColor := p.data.plateColor
  passDirection := p.data.direction
  pictureUrl1 := text p.url1
  pictureUrl2 := text p.url2
  vehicleColor := text (bytes p.data.vehicleColor)
  vehicleType := p.data.vehicleType
  vehicleSubtype := p.data.vehicleSubType
  deviceId := text (bytes p.deviceId)
  platePosition := (p.data.position.map positionText).getD []
  passTime := p.data.passTime

/-- Both readers recover the passage. -/
def ReadBack (dt : DateTimes) (p : Stored) : Prop :=
  readParkingVehicle (p.row dt) = .ok (p.listed dt id) ∧
    handleQueryEnterDeviceFunc dt (p.row dt) = .ok (p.vehicle id)

def Stored.texts (p : Stored) : List Bytes :=
  [bytes p.nid, bytes p.data.plateInfo1, bytes p.data.plateInfo2, bytes p.deviceId, p.url1, p.url2,
    bytes p.data.vehicleColor]

/-- The report names the type of the vehicle and the position of the plate. -/
def Stored.Complete (p : Stored) : Prop := p.data.vehicleType ≠ none ∧ p.data.position ≠ none

theorem cString_eq_self (s : Bytes) : cString s = s ↔ 0 ∉ s := by
  rw [cString, List.takeWhile_eq_self_iff]
  constructor
  · intro h h0
    exact absurd (h 0 h0) (by decide)
  · intro h b hb
    simp only [decide_eq_true_eq]
    rintro rfl
    exact h hb

theorem not_mem_decimal (n : ℤ) (b : UInt8) (hd : isDigit b = false) (hb : b ≠ 45) : b ∉ decimal n := by
  intro h
  obtain h1 | h1 := decimal_chars n b h
  · rw [hd] at h1
    cases h1
  · exact hb h1

theorem not_mem_positionText (p : Position) : 0 ∉ positionText p := by
  simp [positionText, comma, not_mem_decimal _ 0 rfl (by decide)]

theorem stoi_isInt (n : ℤ) (h : IsInt n) : stoi (decimal n) = .ok n := by
  obtain ⟨hl, hu⟩ := h
  simp only [Json.Value.minInt, Json.Value.maxInt] at hl hu
  exact stoi_decimal n (by omega) (by omega)

theorem readInt_decimal (n : ℤ) (h : IsInt n) : readInt (decimal n) = .ok n := by
  rw [readInt, (cString_eq_self _).mpr (not_mem_decimal n 0 rfl (by decide))]
  exact stoi_isInt n h

theorem sqlInt_decimal (n : ℤ) (h : IsInt n) : sqlInt (decimal n) = .ok n := by
  obtain ⟨hl, hu⟩ := h
  obtain ⟨hdrop, hunsigned, hvalue⟩ := decimal_parts n
  simp only [Json.Value.minInt, Json.Value.maxInt] at hl hu
  have hlong : max (-2 ^ 63) (min n (2 ^ 63 - 1)) = n := by omega
  have hmod : n.bmod (2 ^ 32) = n := Int.bmod_eq_of_le (by omega) (by omega)
  simp only [sqlInt, hdrop, hunsigned, takeWhile_decimalNat, digitsValue_decimalNat, hvalue, decimalNat_ne_nil,
    if_false, hlong, ne_eq, not_true, List.drop_length, List.dropWhile_nil, hmod]

theorem readPosition_text (p : Position) (h : ∀ n ∈ p.toList, IsInt n) :
    readPosition (positionText p) = .ok p.toList := by
  have hc : ∀ n, comma ∉ decimal n := fun n => not_mem_decimal n comma rfl (by decide)
  have hsplit : (positionText p).splitOn comma = p.toList.map decimal := by
    rw [positionText, List.splitOn_append_cons_self_of_not_mem (hc _), List.splitOn_append_cons_self_of_not_mem (hc _),
      List.splitOn_append_cons_self_of_not_mem (hc _), List.splitOn_eq_singleton (hc _)]
    rfl
  have hread : ∀ n ∈ p.toList, stoi (decimal n) = .ok n := fun n hn => stoi_isInt n (h n hn)
  rw [readPosition, (cString_eq_self _).mpr (not_mem_positionText p), hsplit]
  simp only [Position.toList, List.forall_mem_cons] at hread
  obtain ⟨h1, h2, h3, h4, -⟩ := hread
  simp only [Position.toList, List.map_cons, List.map_nil, List.mapM_cons, List.mapM_nil, h1, h2, h3, h4]
  rfl

/-- An absent number cannot be read as one, and an absent position cannot either. -/
theorem readInt_nil : readInt [] = .error "stoi: invalid argument" := rfl

theorem readPosition_nil : readPosition [] = .error "stoi: invalid argument" := rfl

theorem isInt_of_bounds (n low high : ℤ) (h : low ≤ n ∧ n ≤ high) (hl : Json.Value.minInt ≤ low)
    (hu : high ≤ Json.Value.maxInt) : IsInt n := ⟨hl.trans h.1, h.2.trans hu⟩

/-- What is read of the numbers that every row has. -/
structure Numbers (p : Stored) : Prop where
  plateType : IsInt p.data.plateType
  direction : IsInt p.data.direction
  plateColor : IsInt p.data.plateColor

theorem numbers_of_valid (p : Stored) (h : Valid p.data) : Numbers p where
  plateType := isInt_of_bounds _ 1 99 h.plateType (by decide) (by decide)
  direction := isInt_of_bounds _ 1 14 h.direction (by decide) (by decide)
  plateColor := isInt_of_bounds _ 0 9 h.plateColor (by decide) (by decide)

/-- The library writes the time of the passage as a C string and reads it back. -/
def DateTimes.RoundTrips (dt : DateTimes) (t : ℤ) : Prop := dt.time (dt.str t) = t ∧ 0 ∉ dt.str t

theorem readParkingVehicle_complete (dt : DateTimes) (p : Stored) (hv : Valid p.data)
    (hdt : dt.RoundTrips p.data.passTime) (hc : p.Complete) :
    readParkingVehicle (p.row dt) = .ok (p.listed dt cString) := by
  obtain ⟨type, htype⟩ := Option.ne_none_iff_exists'.mp hc.1
  obtain ⟨position, hposition⟩ := Option.ne_none_iff_exists'.mp hc.2
  obtain ⟨sub, hsub, hsubInt⟩ := hv.vehicleSubType
  have hn := numbers_of_valid p hv
  have htypeInt : IsInt type := isInt_of_bounds _ 0 15 (hv.vehicleType type htype) (by decide) (by decide)
  have htime := (cString_eq_self _).mpr hdt.2
  simp only [readParkingVehicle, Stored.row, insertedRow, Stored.info, reportRecord, PassRecord.ofData, htype,
    hposition, hsub, optionText, Option.map_some, Option.getD_some, readOption, readInt_decimal _ hn.plateType,
    readInt_decimal _ hn.direction, readInt_decimal _ hn.plateColor, readInt_decimal _ htypeInt,
    readInt_decimal _ hsubInt, readPosition_text position (hv.position position hposition), Stored.listed, htime]
  rfl

theorem complete_of_read (dt : DateTimes) (p : Stored) (r : ParkingRecord)
    (h : readParkingVehicle (p.row dt) = .ok r) : p.Complete := by
  obtain ⟨_, -, h⟩ := bind_ok h
  obtain ⟨_, -, h⟩ := bind_ok h
  obtain ⟨_, -, h⟩ := bind_ok h
  obtain ⟨position, hposition, h⟩ := bind_ok h
  obtain ⟨type, htype, -⟩ := bind_ok h
  constructor
  · intro hnone
    have hcolumn : (p.row dt).carbrand = some [] := by
      simp [Stored.row, insertedRow, Stored.info, reportRecord, PassRecord.ofData, optionText, hnone]
    rw [hcolumn, readOption, readInt_nil] at htype
    cases htype
  · intro hnone
    have hcolumn : (p.row dt).platePosition = some [] := by
      simp [Stored.row, insertedRow, Stored.info, reportRecord, PassRecord.ofData, hnone]
    rw [hcolumn, readOption, readPosition_nil] at hposition
    cases hposition

theorem decimal_ne_nil (n : ℤ) : decimal n ≠ [] := by
  by_cases hn : n < 0 <;> simp [decimal, hn, decimalNat_ne_nil]

theorem readUnlessEmpty_optionText (n : Option ℤ) (h : ∀ m, n = some m → IsInt m) :
    readUnlessEmpty (some (optionText n)) = .ok n := by
  cases n with
  | none => rfl
  | some m =>
    simp only [readUnlessEmpty, optionText, Option.map_some, Option.getD_some, decimal_ne_nil, if_false,
      sqlInt_decimal m (h m rfl)]
    rfl

theorem cString_position (d : DeviceData) :
    cString ((d.position.map positionText).getD []) = (d.position.map positionText).getD [] := by
  cases d.position with
  | none => rfl
  | some p => exact (cString_eq_self _).mpr (not_mem_positionText p)

/-- The reader of a single passage copes with what is absent. -/
theorem handleQueryEnterDeviceFunc_row (dt : DateTimes) (p : Stored) (hv : Valid p.data)
    (hdt : dt.RoundTrips p.data.passTime) :
    handleQueryEnterDeviceFunc dt (p.row dt) = .ok (p.vehicle cString) := by
  obtain ⟨sub, hsub, hsubInt⟩ := hv.vehicleSubType
  have hn := numbers_of_valid p hv
  have htime := (cString_eq_self _).mpr hdt.2
  have htype := readUnlessEmpty_optionText p.data.vehicleType fun m hm =>
    isInt_of_bounds _ 0 15 (hv.vehicleType m hm) (by decide) (by decide)
  have hsubtype := readUnlessEmpty_optionText p.data.vehicleSubType fun m hm => by
    rw [hsub] at hm
    cases hm
    exact hsubInt
  simp only [handleQueryEnterDeviceFunc, Stored.row, insertedRow, Stored.info, reportRecord, PassRecord.ofData,
    sqlInt_decimal _ hn.plateType, sqlInt_decimal _ hn.direction, sqlInt_decimal _ hn.plateColor, htype, hsubtype,
    Option.getD_some, cString_position, htime, hdt.1, Stored.vehicle]
  rfl

theorem listed_cut_iff (dt : DateTimes) (p : Stored) :
    p.listed dt cString = p.listed dt id ↔ ∀ t ∈ p.texts, 0 ∉ t := by
  simp [Stored.listed, Stored.texts, cString_eq_self]

theorem vehicle_cut (p : Stored) (h : ∀ t ∈ p.texts, 0 ∉ t) : p.vehicle cString = p.vehicle id := by
  simp [Stored.texts] at h
  simp [Stored.vehicle, cString_eq_self]
  tauto

theorem readBack_iff (dt : DateTimes) (p : Stored) (hv : Valid p.data) (hdt : dt.RoundTrips p.data.passTime) :
    ReadBack dt p ↔ p.Complete ∧ ∀ t ∈ p.texts, 0 ∉ t := by
  constructor
  · rintro ⟨hlist, -⟩
    have hc := complete_of_read dt p _ hlist
    have hcut := readParkingVehicle_complete dt p hv hdt hc
    exact ⟨hc, (listed_cut_iff dt p).mp (Except.ok.inj (hcut.symm.trans hlist))⟩
  · rintro ⟨hc, htexts⟩
    refine ⟨?_, ?_⟩
    · rw [readParkingVehicle_complete dt p hv hdt hc, (listed_cut_iff dt p).mpr htexts]
    · rw [handleQueryEnterDeviceFunc_row dt p hv hdt, vehicle_cut p htexts]

/-- The stored reports of a lot are read back exactly when each names its
vehicle type and its plate position and no text holds a NUL; and one report
without a type or a position is enough to make the query over the lot fail. -/
theorem lot_read_back_iff (dt : DateTimes) (lot : List Stored)
    (hacc : ∀ p ∈ lot, ∃ mktime parsed, jsonParseDeviceData mktime parsed = .ok p.data)
    (hdt : ∀ p ∈ lot, dt.RoundTrips p.data.passTime) :
    ((∀ p ∈ lot, ReadBack dt p) ↔ ∀ p ∈ lot, p.Complete ∧ ∀ t ∈ p.texts, 0 ∉ t) ∧
    ((∃ records, readParkingVehicles (lot.map (·.row dt)) = .ok records) ↔ ∀ p ∈ lot, p.Complete) := by
  have hvalid : ∀ p ∈ lot, Valid p.data := by
    intro p hp
    obtain ⟨mktime, parsed, hparse⟩ := hacc p hp
    exact jsonParseDeviceData_valid mktime parsed p.data hparse
  constructor
  · exact forall₂_congr fun p hp => readBack_iff dt p (hvalid p hp) (hdt p hp)
  · rw [readParkingVehicles, mapM_ok_iff, List.forall_mem_map]
    refine forall₂_congr fun p hp => ⟨?_, fun hc => ?_⟩
    · rintro ⟨r, hr⟩
      exact complete_of_read dt p r hr
    · exact ⟨_, readParkingVehicle_complete dt p (hvalid p hp) (hdt p hp) hc⟩

def completeMembers : List (String × Json.Value) :=
  reportMembers "京A12345" ++ [("VehicleType", .int 1), ("position", .array [.int 10, .int 20, .int 110, .int 50])]

def completeReport : Stored where
  nid := "p1"
  data := { reportData "京A12345" with vehicleType := some 1, position := some ⟨10, 20, 110, 50⟩ }
  deviceId := "d1"

def mayDay : DateTimes where
  str _ := Multipart.ascii "2016-05-01 08:00:00"
  time _ := 1462060800

theorem complete_lot_read_back :
    jsonParseDeviceData (fun _ => 1462060800) (.accepted (.object completeMembers)) = .ok completeReport.data ∧
      ∀ p ∈ [completeReport], ReadBack mayDay p := by
  have hparse : jsonParseDeviceData (fun _ => 1462060800) (.accepted (.object completeMembers)) =
      .ok completeReport.data := rfl
  refine ⟨hparse, (lot_read_back_iff mayDay [completeReport] ?_ ?_).1.mpr ?_⟩
  · simp only [List.mem_singleton, forall_eq]
    exact ⟨_, _, hparse⟩
  · simp only [List.mem_singleton, forall_eq]
    exact ⟨rfl, by decide⟩
  · simp only [List.mem_singleton, forall_eq]
    exact ⟨⟨by decide, by decide⟩, by decide⟩

/-- A report may leave out the type and the position. Its row is then in the
way of everyone who asks for the vehicles inside. -/
theorem bare_report_not_read :
    let bare : Stored := { nid := "p2", data := reportData "京A67890", deviceId := "d1" }
    jsonParseDeviceData (fun _ => 1462060800) (.accepted (.object (reportMembers "京A67890"))) = .ok bare.data ∧
      ¬ ReadBack mayDay bare ∧
      readParkingVehicles ([completeReport, bare].map (·.row mayDay)) = .error "stoi: invalid argument" := by
  refine ⟨rfl, fun h => ?_, by decide⟩
  exact (complete_of_read mayDay _ _ h.1).1 rfl

end BitPark.DetectRow
