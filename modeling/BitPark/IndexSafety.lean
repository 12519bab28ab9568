import BitPark.Indexing
import BitPark.Housekeeping

namespace BitPark.IndexSafety

open BitPark.Effect BitPark.Decimal BitPark.Search BitPark.Multipart BitPark.PictureFiles BitPark.Storage
open BitPark.DeviceMessage BitPark.Members BitPark.Fallible BitPark.Indexing
open BitPark.DeviceReport (pictureNames savePictures)
open BitPark.Server (Parsed)
open BitPark.Housekeeping (Named)

/-! The reads from arrays between a request of a device and the names of its
pictures. -/

/-- An exception, or a read outside an array. -/
abbrev Reads (α : Type) := Except (Stop String) α

/-- The pictures among the parts, from the third part on. -/
def jpegPictures (strvec : List Bytes) : Reads (List Bytes) := do
  let found ← (List.range' 2 (strvec.length - 2)).mapM fun (i : ℕ) => do
    let part ← indexed strvec i
    pure (stripHeader jpegHeader part)
  pure found.reduceOption

def boundaryOf : Option Bytes → Except String Bytes
  | none => .error "not find content type"
  | some contentType => contentTypeGetBoundary contentType

/-- `Datas` of `http_server_handler`, up to the call of `on_device_data`. -/
def httpServerHandler (mktime : LocalTime → ℤ) (parse : Bytes → Parsed) (contentType : Option Bytes)
    (content : Bytes) : Reads (DeviceData × List Bytes) := do
  let bound ← fromResult (boundaryOf contentType)
  let strvec := stringSplit content (dashes ++ bound)
  if strvec.length < 1 then .error (.failed "parse body error")
  let json ← indexed strvec 1
  match stripHeader jsonHeader json with
  | none => .error (.failed "json msg no header")
  | some text => do
    let data ← fromResult (jsonParseDeviceData mktime (parse text))
    if data.isPicUrl = 0 then
      let pics ← jpegPictures strvec
      if (pics.length : ℤ) ≠ data.picCount then .error (.failed "pic size != pic_count")
      pure (data, pics)
    else pure (data, [])

/-- The loop over the pictures: the type of each, and what `PictureName` makes of it. -/
def pictureReads (data : DeviceData) (pics : List Bytes) : Reads (List Bytes) :=
  (List.range pics.length).mapM fun (i : ℕ) => do
    let type ← indexed data.picType i
    indexed pictureNames (type - 1)

/-- The statements before the loop may raise; then no picture is named. -/
def onDeviceData (reached : Bool) (data : DeviceData) (pics : List Bytes) : Reads (List Bytes) :=
  if reached then pictureReads data pics else pure []

def datas (mktime : LocalTime → ℤ) (parse : Bytes → Parsed) (contentType : Option Bytes) (content : Bytes)
    (reached : Bool) : Reads (List Bytes) := do
  let r ← httpServerHandler mktime parse contentType content
  onDeviceData reached r.1 r.2

/-- No path of the request reads outside an array. -/
def NeverOutside (mktime : LocalTime → ℤ) (parse : Bytes → Parsed) (contentType : Option Bytes)
    (content : Bytes) : Prop :=
  ∀ reached, Inside (datas mktime parse contentType content reached)

/-- The body does not end at its first delimiter, and no picture that comes
with a report is of a type beyond the five. -/
def Sound (mktime : LocalTime → ℤ) (parse : Bytes → Parsed) (contentType : Option Bytes) (content : Bytes) : Prop :=
  ∀ bound, boundaryOf contentType = .ok bound →
    (stringSplit content (dashes ++ bound)).length ≠ 1 ∧
    ∀ first json parts text data, stringSplit content (dashes ++ bound) = first :: json :: parts →
      stripHeader jsonHeader json = some text → jsonParseDeviceData mktime (parse text) = .ok data →
      data.isPicUrl = 0 → ((parts.filterMap (stripHeader jpegHeader)).length : ℤ) = data.picCount →
      ∀ type ∈ data.picType, 1 ≤ type ∧ type ≤ 5

/-! The reads of the handler. -/

theorem jpegPictures_eq (first json : Bytes) (parts : List Bytes) :
    jpegPictures (first :: json :: parts) = .ok (parts.filterMap (stripHeader jpegHeader)) := by
  have hread : ∀ i ∈ List.range' 2 parts.length,
      (do
        let part ← indexed (first :: json :: parts) (i : ℕ)
        pure (stripHeader jpegHeader part) : Reads (Option Bytes)) =
        .ok (stripHeader jpegHeader ((first :: json :: parts).getD i [])) := by
    intro i hi
    have hlt : i < (first :: json :: parts).length := by
      have h := List.mem_range'_1.mp hi
      simp only [List.length_cons]
      omega
    rw [indexed_of_lt _ _ hlt, List.getD_eq_getElem _ _ hlt]
    rfl
  have hmap : (List.range' 2 parts.length).map
      (fun i => stripHeader jpegHeader ((first :: json :: parts).getD i [])) = parts.map (stripHeader jpegHeader) := by
    apply List.ext_getElem
    · simp
    · intro i h1 h2
      have hlt : i < parts.length := by simpa using h2
      simp [Nat.add_comm 2 i, hlt]
  rw [jpegPictures, show (first :: json :: parts).length - 2 = parts.length from rfl, mapM_eq_ok _ _ _ hread, hmap]
  simp [List.reduceOption, List.filterMap_map, bind, Except.bind, pure, Except.pure]

section Handler

variable (mktime : LocalTime → ℤ) (parse : Bytes → Parsed) (contentType : Option Bytes) (content bound : Bytes)

theorem httpServerHandler_empty (hb : boundaryOf contentType = .ok bound)
    (hs : stringSplit content (dashes ++ bound) = []) :
    httpServerHandler mktime parse contentType content = .error (.failed "parse body error") := by
  rw [httpServerHandler, hb]
  simp [fromResult, hs, bind, Except.bind]

theorem httpServerHandler_one (first : Bytes) (hb : boundaryOf contentType = .ok bound)
    (hs : stringSplit content (dashes ++ bound) = [first]) :
    httpServerHandler mktime parse contentType content = .error .outOfRange := by
  rw [httpServerHandler, hb]
  simp [fromResult, hs, indexed, bind, Except.bind]

theorem httpServerHandler_parts (first json : Bytes) (parts : List Bytes) (hb : boundaryOf contentType = .ok bound)
    (hs : stringSplit content (dashes ++ bound) = first :: json :: parts) :
    httpServerHandler mktime parse contentType content =
      match stripHeader jsonHeader json with
      | none => .error (.failed "json msg no header")
      | some text => (fromResult (jsonParseDeviceData mktime (parse text)) : Reads DeviceData) >>= fun data =>
        if data.isPicUrl = 0 then
          if ((parts.filterMap (stripHeader jpegHeader)).length : ℤ) ≠ data.picCount then
            .error (.failed "pic size != pic_count")
          else .ok (data, parts.filterMap (stripHeader jpegHeader))
        else .ok (data, []) := by
  have hjson : (indexed (first :: json :: parts) 1 : Reads Bytes) = .ok json := rfl
  rw [httpServerHandler, hb]
  simp only [fromResult, hs, jpegPictures_eq, hjson, bind, Except.bind, pure, Except.pure, List.length_cons]
  exact if_neg (by omega)

theorem inside_httpServerHandler (hb : boundaryOf contentType = .ok bound) :
    Inside (httpServerHandler mktime parse contentType content) ↔ (stringSplit content (dashes ++ bound)).length ≠ 1 := by
  match hs : stringSplit content (dashes ++ bound) with
  | [] =>
    rw [httpServerHandler_empty mktime parse contentType content bound hb hs]
    exact iff_of_true (inside_failed _) (by simp)
  | [first] =>
    rw [httpServerHandler_one mktime parse contentType content bound first hb hs]
    exact iff_of_false not_inside_outOfRange (by simp)
  | first :: json :: parts =>
    rw [httpServerHandler_parts mktime parse contentType content bound first json parts hb hs]
    refine iff_of_true ?_ (by simp)
    cases stripHeader jsonHeader json with
    | none => exact inside_failed _
    | some text =>
      refine (inside_bind _ _).mpr ⟨inside_fromResult _, fun data _ => ?_⟩
      split_ifs
      · exact inside_failed _
      · exact inside_ok _
      · exact inside_ok _

/-- What the handler passes on: the report, and the pictures that come with it. -/
theorem httpServerHandler_eq_ok (data : DeviceData) (pics : List Bytes) (hb : boundaryOf contentType = .ok bound) :
    httpServerHandler mktime parse contentType content = .ok (data, pics) ↔
      ∃ first json parts text, stringSplit content (dashes ++ bound) = first :: json :: parts ∧
        stripHeader jsonHeader json = some text ∧ jsonParseDeviceData mktime (parse text) = .ok data ∧
        if data.isPicUrl = 0 then pics = parts.filterMap (stripHeader jpegHeader) ∧ (pics.length : ℤ) = data.picCount
        else pics = [] := by
  match hs : stringSplit content (dashes ++ bound) with
  | [] =>
    rw [httpServerHandler_empty mktime parse contentType content bound hb hs]
    simp
  | [first] =>
    rw [httpServerHandler_one mktime parse contentType content bound first hb hs]
    simp
  | first :: json :: parts =>
    rw [httpServerHandler_parts mktime parse contentType content bound first json parts hb hs]
    constructor
    · intro h
      cases htext : stripHeader jsonHeader json with
      | none =>
        rw [htext] at h
        cases h
      | some text =>
        rw [htext] at h
        obtain ⟨d, hd, h⟩ := bind_ok h
        refine ⟨first, json, parts, text, rfl, htext, ?_⟩
        split_ifs at h with hurl hcount
        · cases h
          rw [if_pos hurl]
          exact ⟨(fromResult_eq_ok _ _).mp hd, rfl, not_not.mp hcount⟩
        · cases h
          rw [if_neg hurl]
          exact ⟨(fromResult_eq_ok _ _).mp hd, rfl⟩
    · rintro ⟨_, json, parts, text, hshape, htext, hd, hpics⟩
      cases hshape
      rw [htext]
      dsimp only
      rw [(fromResult_eq_ok _ _).mpr hd]
      by_cases hurl : data.isPicUrl = 0
      · rw [if_pos hurl] at hpics
        obtain ⟨rfl, hcount⟩ := hpics
        exact (if_pos hurl).trans (if_neg (not_not.mpr hcount))
      · rw [if_neg hurl] at hpics
        rw [hpics]
        exact if_neg hurl

end Handler

/-! The reads of the loop over the pictures. -/

theorem inside_pictureRead (types : List ℤ) (i : ℕ) :
    Inside (do
      let type ← indexed types i
      indexed pictureNames (type - 1) : Reads Bytes) ↔ ∃ type, types[i]? = some type ∧ 1 ≤ type ∧ type ≤ 5 := by
  have hnames : (pictureNames.length : ℤ) = 5 := rfl
  rw [inside_bind]
  by_cases hi : i < types.length
  · rw [indexed_of_lt types i hi, List.getElem?_eq_getElem hi]
    simp only [Except.ok.injEq, forall_eq', Option.some.injEq, exists_eq_left', inside_indexed, hnames]
    refine (and_iff_right (inside_ok _)).trans ?_
    omega
  · rw [List.getElem?_eq_none (by omega), inside_indexed]
    simp
    omega

theorem inside_pictureReads (data : DeviceData) (pics : List Bytes) :
    Inside (pictureReads data pics) ↔ Named pics data.picType := by
  have hloop : ∀ (i : ℕ) (what : String), (do
      let type ← indexed data.picType i
      indexed pictureNames (type - 1) : Reads Bytes) ≠ .error (.failed what) := by
    intro i what
    cases ht : (indexed data.picType i : Reads ℤ) with
    | ok type => exact indexed_ne_failed _ _ what
    | error stop =>
      rintro ⟨⟩
      exact indexed_ne_failed _ _ what ht
  rw [pictureReads, inside_mapM _ _ hloop]
  simp only [List.mem_range, inside_pictureRead]
  constructor
  · intro h
    have hlen : pics.length ≤ data.picType.length := by
      by_contra hlong
      obtain ⟨type, htype, -⟩ := h data.picType.length (by omega)
      rw [List.getElem?_eq_none le_rfl] at htype
      cases htype
    refine ⟨hlen, fun type htype => ?_⟩
    obtain ⟨i, hi, rfl⟩ := List.getElem_of_mem htype
    rw [List.length_take] at hi
    obtain ⟨type, heq, hbounds⟩ := h i (by omega)
    rw [List.getElem?_eq_getElem (by omega)] at heq
    rw [List.getElem_take, Option.some.inj heq]
    exact hbounds
  · rintro ⟨hlen, hall⟩ i hi
    have hlt : i < data.picType.length := by omega
    refine ⟨data.picType[i], List.getElem?_eq_getElem hlt, hall _ ?_⟩
    exact List.mem_take_iff_getElem.mpr ⟨i, by omega, rfl⟩

/-- The loop of the report that writes the pictures returns exactly when its
reads are inside their arrays. -/
theorem saved_iff_inside (out : Outside) (directory : Bytes) (deviceId : String) (t : LocalTime) (data : DeviceData)
    (pics : List Bytes) (s : Site) :
    Returns (savePictures out directory deviceId t pics data.picType) s ↔ Inside (pictureReads data pics) := by
  rw [inside_pictureReads]
  constructor
  · exact Housekeeping.named_of_saved out directory deviceId t pics data.picType s
  · intro h
    obtain ⟨urls, u, hrun, -⟩ := Housekeeping.run_savePictures out directory deviceId t pics data.picType s h
    exact ⟨urls, u, hrun⟩

/-- The part of the request before the pictures reads outside exactly where the
decoding of the body has no result. -/
theorem decodeData_undefined_iff (mktime : LocalTime → ℤ) (parse : Bytes → Parsed) (contentType content : Bytes) :
    decodeData contentType content = .error "undefined" ↔
      ¬ Inside (httpServerHandler mktime parse (some contentType) content) := by
  cases hb : contentTypeGetBoundary contentType with
  | error what =>
    have hwhat : what = "no boundary" := by
      rw [contentTypeGetBoundary] at hb
      split at hb
      · cases hb
        rfl
      · split at hb <;> cases hb
    rw [decodeData, httpServerHandler, boundaryOf, hb, hwhat]
    refine iff_of_false ?_ (not_not.mpr (inside_failed _))
    simp [bind, Except.bind]
  | ok bound =>
    rw [inside_httpServerHandler mktime parse (some contentType) content bound hb, not_not, decodeData, hb]
    simp only [bind, Except.bind]
    obtain _ | ⟨first, _ | ⟨json, parts⟩⟩ := stringSplit content (dashes ++ bound)
    · simp
    · simp
    · cases hj : stripHeader jsonHeader json <;> simp [hj]

/-- A type for each picture: only the bounds of the types are left to ask for. -/
theorem named_iff (pics : List Bytes) (types : List ℤ) (h : pics.length = types.length) :
    Named pics types ↔ ∀ type ∈ types, 1 ≤ type ∧ type ≤ 5 := by
  rw [Named, h, List.take_length]
  exact and_iff_right le_rfl

/-- A request is sound exactly when the handler reads inside its arrays and
passes on pictures that have names. -/
theorem sound_iff (mktime : LocalTime → ℤ) (parse : Bytes → Parsed) (contentType : Option Bytes)
    (content bound : Bytes) (hb : boundaryOf contentType = .ok bound) :
    Sound mktime parse contentType content ↔ Inside (httpServerHandler mktime parse contentType content) ∧
      ∀ data pics, httpServerHandler mktime parse contentType content = .ok (data, pics) → Named pics data.picType := by
  rw [inside_httpServerHandler mktime parse contentType content bound hb]
  simp only [Sound, hb, Except.ok.injEq, forall_eq', httpServerHandler_eq_ok mktime parse contentType content bound
    _ _ hb]
  refine and_congr_right fun _ => ?_
  constructor
  · rintro h data pics ⟨first, json, parts, text, hs, htext, hd, hpics⟩
    by_cases hurl : data.isPicUrl = 0
    · rw [if_pos hurl] at hpics
      obtain ⟨rfl, hcount⟩ := hpics
      have hlen := hcount.trans (jsonParseDeviceData_picType mktime (parse text) data hd).symm
      exact (named_iff _ _ (by exact_mod_cast hlen)).mpr (h first json parts text data hs htext hd hurl hcount)
    · rw [if_neg hurl] at hpics
      rw [hpics]
      exact ⟨Nat.zero_le _, by simp⟩
  · intro h first json parts text data hs htext hd hurl hcount
    have hlen := hcount.trans (jsonParseDeviceData_picType mktime (parse text) data hd).symm
    refine (named_iff _ _ (by exact_mod_cast hlen)).mp (h data _ ⟨first, json, parts, text, hs, htext, hd, ?_⟩)
    rw [if_pos hurl]
    exact ⟨rfl, hcount⟩

/-- A request that is passed on with a name for each picture. -/
theorem neverOutside_of_ok (mktime : LocalTime → ℤ) (parse : Bytes → Parsed) (contentType : Option Bytes)
    (content : Bytes) (data : DeviceData) (pics : List Bytes)
    (h : httpServerHandler mktime parse contentType content = .ok (data, pics)) (hn : Named pics data.picType) :
    NeverOutside mktime parse contentType content := by
  intro reached
  rw [datas, inside_bind, h]
  refine ⟨inside_ok _, fun r hr => ?_⟩
  cases hr
  cases reached with
  | false => exact inside_ok []
  | true => exact (inside_pictureReads data pics).mpr hn

def formData : Bytes := ascii "multipart/form-data; boundary=x1"

/-- A report of one picture, of type nine. -/
def ninthText : Bytes :=
  ascii "\x7b\"VehicleInfoState\":0,\"IsPicUrl\":0,\"LaneIndex\":1,\"direction\":9,\"PlateInfo1\":\"A1\",\"PlateColor\":2," ++
  ascii "\"PlateType\":2,\"PassTime\":\"2016-05-01 08:00:00\",\"VehicleState\":1,\"PicCount\":1,\"PicType\":[9]," ++
  ascii "\"AlarmAction\":1\x7d"

def ninthRoot : Json.Value := .object
  [("VehicleInfoState", .int 0), ("IsPicUrl", .int 0), ("LaneIndex", .int 1), ("direction", .int 9),
    ("PlateInfo1", .string "A1"), ("PlateColor", .int 2), ("PlateType", .int 2),
    ("PassTime", .string "2016-05-01 08:00:00"), ("VehicleState", .int 1), ("PicCount", .int 1),
    ("PicType", .array [.int 9]), ("AlarmAction", .int 1)]

def ninthReport : DeviceData where
  isPicUrl := 0
  direction := 9
  plateInfo1 := "A1"
  plateColor := 2
  plateType := 2
  passTime := 0
  vehicleSubType := some 0
  picCount := 1
  picType := [9]

def readNinth (text : Bytes) : Parsed := if text = ninthText then .accepted ninthRoot else .rejected .null

set_option maxRecDepth 4000 in
theorem plain_ninthText : Plain ninthText := by
  rw [Plain]
  decide

theorem handler_ninth :
    httpServerHandler (fun _ => 0) readNinth (some formData) (multipartBody (ascii "x1") ninthText [[255]]) =
      .ok (ninthReport, [[255]]) := by
  have hsplit := split_body (ascii "x1") ninthText [[255]] (separated_of_plain _ _ plain_ninthText)
    fun p hp => by
      obtain rfl := List.mem_singleton.mp hp
      rfl
  have hread : jsonParseDeviceData (fun _ => 0) (readNinth ninthText) = .ok ninthReport := by
    rw [readNinth, if_pos rfl]
    rfl
  rw [httpServerHandler_parts _ _ _ _ (ascii "x1") _ _ _ (by decide) hsplit,
    stripHeader_part jsonHeader ninthText rfl]
  dsimp only
  rw [hread]
  rfl

end BitPark.IndexSafety
