import BitPark.Housekeeping
import BitPark.Voucher

namespace BitPark.PictureUrl

open BitPark.Effect BitPark.Server BitPark.Decimal BitPark.Multipart BitPark.Members BitPark.PictureFiles
open BitPark.Storage BitPark.DeviceMessage BitPark.Passage BitPark.DeviceReport BitPark.TurnBack BitPark.Voucher

/-! The url of a picture leads to its file, for the clients that show it and
for the clean-up that removes it. -/

/-- The server as the urls name it. -/
def host (opts : ServerOptions) : Bytes := ascii "http://" ++ opts.serverIp ++ ascii ":" ++ opts.httpPort

/-- What a client asks the server for. -/
def requestPath (opts : ServerOptions) (url : Bytes) : Bytes := url.drop (host opts).length

/-- The page and the clean-up of a column look for the url at one place. The
column is taken to hold the url as it was inserted. -/
structure Found (opts : ServerOptions) (column : Column) (url file : Bytes) : Prop where
  served : requestedFile opts.toOptions (requestPath opts url) = .ok file
  deleted : ∀ nid, Slot.path opts ⟨column, nid, url⟩ = file

def kindName : Column → Bytes
  | .pic1 => ascii "PassVehicle"
  | .pic2 => ascii "PassVehicle"
  | .proof => ascii "Voucher"

/-- The directory of the day, or nothing if the pictures went to its parent. -/
def segment (created : Bool) (t : LocalTime) : Bytes := if created then t.date else []

/-! None of the segments of a url holds a slash. -/

theorem date_chars (t : LocalTime) (b : UInt8) (h : b ∈ t.date) : isDigit b = true ∨ b = 45 := by
  simp only [LocalTime.date, List.mem_append, List.mem_cons] at h
  obtain (h | rfl | h) | rfl | h := h
  · exact .inl (pad_digits _ _ b h)
  · exact .inr rfl
  · exact .inl (pad_digits _ _ b h)
  · exact .inr rfl
  · exact .inl (pad_digits _ _ b h)

theorem not_mem_date (t : LocalTime) (b : UInt8) (hd : isDigit b = false) (hb : b ≠ 45) : b ∉ t.date := by
  intro h
  obtain h1 | h1 := date_chars t b h
  · rw [hd] at h1
    cases h1
  · exact hb h1

theorem not_mem_segment (created : Bool) (t : LocalTime) (b : UInt8) (hd : isDigit b = false) (hb : b ≠ 45) :
    b ∉ segment created t := by
  cases created with
  | false => exact List.not_mem_nil
  | true => exact not_mem_date t b hd hb

theorem slash_not_mem_stamp (t : LocalTime) : slash ∉ t.stamp := by
  intro h
  simp only [LocalTime.stamp, List.mem_append] at h
  obtain ((((h | h) | h) | h) | h) | h := h <;> exact absurd (pad_digits _ _ _ h) (by decide)

/-- No day is called as one of the two kinds of pictures. -/
theorem segment_ne_kind (created : Bool) (t : LocalTime) :
    segment created t ≠ ascii "PassVehicle" ∧ segment created t ≠ ascii "Voucher" := by
  constructor
  · intro h
    have hmem := not_mem_segment created t 115 (by decide) (by decide)
    rw [h] at hmem
    exact hmem (by decide)
  · intro h
    have hmem := not_mem_segment created t 86 (by decide) (by decide)
    rw [h] at hmem
    exact hmem (by decide)

theorem pictureDirectory_eq (parent : Directory) (created : Bool) (t : LocalTime) :
    pictureDirectory parent created t = parent.path ++ segment created t := by
  cases created with
  | false => exact (List.append_nil _).symm
  | true => rfl

theorem getPictureDirectoryName_eq (parent : Directory) (created : Bool) (t : LocalTime) :
    getPictureDirectoryName (pictureDirectory parent created t) = segment created t := by
  obtain ⟨init, hinit⟩ := List.getLast?_eq_some_iff.mp parent.slashed
  rw [pictureDirectory_eq, getPictureDirectoryName, hinit, List.reverse_append, List.reverse_append]
  have hpass : ∀ b ∈ (segment created t).reverse, decide (b ≠ slash ∧ b ≠ backslash) = true := by
    intro b hb
    rw [List.mem_reverse] at hb
    refine decide_eq_true ⟨?_, ?_⟩
    · rintro rfl
      exact not_mem_segment created t slash (by decide) (by decide) hb
    · rintro rfl
      exact not_mem_segment created t backslash (by decide) (by decide) hb
  rw [List.takeWhile_append_of_pos hpass]
  simp

theorem pictureUrl_eq (opts : ServerOptions) (column : Column) (created : Bool) (t : LocalTime) (name : Bytes) :
    pictureUrl opts (slash :: kindName column ++ [slash]) (pictureDirectory (column.directory opts) created t) name =
      host opts ++ (slash :: kindName column ++ slash :: segment created t ++ slash :: name) := by
  rw [pictureUrl, getPictureDirectoryName_eq, host]
  simp

section Url

variable (opts : ServerOptions) (column : Column) (created : Bool) (t : LocalTime) (name : Bytes)

theorem served_pictureUrl (h : slash ∉ name) :
    requestedFile opts.toOptions (requestPath opts (pictureUrl opts (slash :: kindName column ++ [slash])
      (pictureDirectory (column.directory opts) created t) name)) =
      .ok (pictureDirectory (column.directory opts) created t ++ [slash] ++ name) := by
  have hkind : slash ∉ kindName column := by cases column <;> decide
  have hseg := not_mem_segment created t slash (by decide) (by decide)
  rw [pictureUrl_eq, requestPath, List.drop_left, requestedFile, splitOn_request _ _ _ hkind hseg h,
    pictureDirectory_eq]
  cases column with
  | pic1 => exact if_pos rfl
  | pic2 => exact if_pos rfl
  | proof => exact (if_neg (by decide)).trans (if_pos rfl)

theorem deleted_pictureUrl (h : slash ∉ name) (nid : String) :
    Slot.path opts ⟨column, nid, pictureUrl opts (slash :: kindName column ++ [slash])
      (pictureDirectory (column.directory opts) created t) name⟩ =
      pictureDirectory (column.directory opts) created t ++ [slash] ++ name := by
  have hseg := not_mem_segment created t slash (by decide) (by decide)
  have hsplit : (host opts ++ (slash :: kindName column ++ slash :: segment created t ++ slash :: name)).splitOn slash =
      (host opts ++ slash :: kindName column).splitOn slash ++ [segment created t, name] := by
    rw [← splitOn_pair _ _ hseg h, ← List.splitOn_append_cons_self]
    simp
  have hname : (getPictureName (host opts ++
      (slash :: kindName column ++ slash :: segment created t ++ slash :: name))).2 =
      segment created t ++ [slash] ++ name := by
    rw [getPictureName, hsplit, List.reverse_append]
    simp [segment_ne_kind created t]
  rw [pictureUrl_eq, Slot.path, hname, pictureDirectory_eq]
  simp

theorem found_pictureUrl (h : slash ∉ name) :
    Found opts column (pictureUrl opts (slash :: kindName column ++ [slash])
      (pictureDirectory (column.directory opts) created t) name)
      (pictureDirectory (column.directory opts) created t ++ [slash] ++ name) :=
  ⟨served_pictureUrl opts column created t name h, deleted_pictureUrl opts column created t name h⟩

end Url

/-! The names of the pictures. -/

theorem slash_not_mem_pictureName (deviceId : String) (t : LocalTime) (index : ℤ) (name : Bytes)
    (hd : slash ∉ bytes deviceId) (h : pictureName deviceId t index = .ok name) : slash ∉ name ++ ascii ".jpg" := by
  have hkinds : ∀ kind ∈ pictureNames, slash ∉ kind := by decide
  have hkind : slash ∉ pictureNames.getD (index - 1).toNat [] := by
    rw [List.getD_eq_getElem?_getD]
    cases hk : pictureNames[(index - 1).toNat]? with
    | none => exact List.not_mem_nil
    | some kind => exact hkinds kind (List.mem_of_getElem? hk)
  rw [pictureName] at h
  split_ifs at h with hindex
  cases h
  simp only [List.mem_append, not_or]
  exact ⟨⟨⟨⟨⟨hd, by decide⟩, slash_not_mem_stamp t⟩, by decide⟩, hkind⟩, by decide⟩

theorem slash_not_mem_voucherName (payload : Bytes) (t : LocalTime) (name : Bytes) (hid : slash ∉ payload.take 32)
    (htype : slash ∉ (payload.drop 32).take 3) (h : voucherName payload t = .ok name) : slash ∉ name := by
  rw [voucherName] at h
  split_ifs at h with hlength
  cases h
  simp only [List.mem_append, not_or]
  exact ⟨⟨⟨⟨hid, by decide⟩, slash_not_mem_stamp t⟩, by decide⟩, htype⟩

/-! What stands on the disk stays there while the report is worked on. -/

def FilesGrow (s t : Site) : Prop := s.files <+: t.files

instance : IsPreorder Site FilesGrow where
  refl _ := List.prefix_rfl
  trans _ _ _ h1 h2 := h1.trans h2

theorem filesGrow_touch (s : Site) (op : FileOp) : FilesGrow s { s with files := s.files ++ [op] } :=
  List.prefix_append _ _

/-- The loop of the report, picture by picture. -/
theorem savePictures_found (out : Outside) (created : Bool) (deviceId : String) (t : LocalTime) (pics : List Bytes)
    (types : List ℤ) (s u : Site) (urls : List Bytes)
    (h : run (savePictures out (pictureDirectory out.opts.picPath created t) deviceId t pics types) s = (.ok urls, u))
    (i : ℕ) (hi : i < pics.length) :
    ∃ type name, types[i]? = some type ∧ pictureName deviceId t type = .ok name ∧
      urls[i]? = some (pictureUrl out.opts (ascii "/PassVehicle/") (pictureDirectory out.opts.picPath created t)
        (name ++ ascii ".jpg")) ∧
      (out.disk.opens (pictureDirectory out.opts.picPath created t ++ [slash] ++ (name ++ ascii ".jpg")) = true →
        .write (pictureDirectory out.opts.picPath created t ++ [slash] ++ (name ++ ascii ".jpg")) ∈ u.files) := by
  induction pics generalizing types s urls i with
  | nil => exact absurd hi (Nat.not_lt_zero i)
  | cons pic pics ih =>
    cases types with
    | nil => cases h
    | cons type types =>
      obtain ⟨name, v, hname, h⟩ := bind_returned _ _ _ _ _ h
      obtain ⟨_, w, hwrite, h⟩ := bind_returned _ _ _ _ _ h
      obtain ⟨rest, x, hrest, h⟩ := bind_returned _ _ _ _ _ h
      cases h
      cases i with
      | zero =>
        refine ⟨type, name, rfl, (raiseError_returned _ _ _ _ hname).1, rfl, fun hopens => ?_⟩
        have hfile := writeFile_returned out _ _ _ _ hwrite hopens
        have hgrow : w.files <+: u.files :=
          steps_returned (steps_savePictures filesGrow_touch out _ _ _ _ _) _ _ _ hrest
        apply hgrow.subset
        rw [hfile]
        simp
      | succ i =>
        obtain ⟨type', name', htype, hname', hurl, hfile⟩ := ih types w rest hrest i (by simpa using hi)
        exact ⟨type', name', htype, hname', hurl, hfile⟩

/-- The file of a picture of a report. -/
def passageFile (out : Outside) (created : Bool) (data : DeviceData) (name : Bytes) : Bytes :=
  pictureDirectory out.opts.picPath created (out.localTime data.passTime) ++ [slash] ++ (name ++ ascii ".jpg")

/-- The file is on the disk, unless it could not be opened. -/
def Written (out : Outside) (file : Bytes) (s : Site) : Prop := out.disk.opens file = true → .write file ∈ s.files

theorem passage_found (out : Outside) (source : String) (data : DeviceData) (pics : List Bytes) (s t : Site)
    (device : Device) (info : PassRecord) (passId : String)
    (h : run (recordPassage out source data pics) s = (.ok (device, info, passId), t))
    (hd : slash ∉ bytes device.deviceId) (i : ℕ) (column : Column)
    (hcolumn : (i, column) ∈ [(0, Column.pic1), (1, Column.pic2)]) (hi : i < pics.length) :
    ∃ created type name, data.picType[i]? = some type ∧
      pictureName device.deviceId (out.localTime data.passTime) type = .ok name ∧
      Written out (passageFile out created data name) t ∧
      Found out.opts column (t.urls column passId) (passageFile out created data name) := by
  obtain ⟨_, s0, -, h0⟩ := bind_returned _ _ _ _ _ h
  obtain ⟨_, s1, -, h1⟩ := bind_returned _ _ _ _ _ h0
  obtain ⟨directory, s2, hdirectory, h2⟩ := bind_returned _ _ _ _ _ h1
  obtain ⟨urls, s3, hurls, h3⟩ := bind_returned _ _ _ _ _ h2
  obtain ⟨nid, s4, hinsert, h4⟩ := bind_returned _ _ _ _ _ h3
  obtain ⟨_, s5, hupdate, h5⟩ := bind_returned _ _ _ _ _ h4
  obtain ⟨created, ops, hcreated⟩ := run_openPassDirectory out data.passTime s1
    (openPassDirectory_returned out data.passTime s1 ⟨directory, s2, hdirectory⟩)
  rw [hcreated] at hdirectory
  cases hdirectory
  cases h5
  cases hupdate
  obtain ⟨w, -, rfl⟩ := inWorld_returned _ _ _ _ hinsert
  obtain ⟨type, name, htype, hname, hurl, hfile⟩ := savePictures_found out created _ _ pics _ _ _ _ hurls i hi
  have hslash := slash_not_mem_pictureName _ _ _ _ hd hname
  have hget : urls.getD i [] = pictureUrl out.opts (ascii "/PassVehicle/")
      (pictureDirectory out.opts.picPath created (out.localTime data.passTime)) (name ++ ascii ".jpg") := by
    rw [List.getD_eq_getElem?_getD, hurl]
    rfl
  refine ⟨created, type, name, htype, hname, hfile, ?_⟩
  simp only [List.mem_cons, Prod.mk.injEq, List.not_mem_nil, or_false] at hcolumn
  obtain ⟨rfl, rfl⟩ | ⟨rfl, rfl⟩ := hcolumn
  · simp only [withPictures, reportRecord, and_self, if_true, hget]
    exact found_pictureUrl out.opts .pic1 created _ _ hslash
  · simp only [withPictures, reportRecord, and_self, if_true, hget, reduceCtorEq, and_false, if_false]
    exact found_pictureUrl out.opts .pic2 created _ _ hslash

theorem voucher_found (out : Outside) (t : LocalTime) (payload : Bytes) (s u : Site)
    (h : run (saveVoucher out t payload) s = (.ok (), u)) (hid : slash ∉ payload.take 32)
    (htype : slash ∉ (payload.drop 32).take 3) :
    ∃ created file, voucherFile out.opts.toOptions created t payload = .ok file ∧ Written out (cString file) u ∧
      ∀ chargeId, bytes chargeId = payload.take 32 → chargeId ∈ s.world.charges.map (·.1) →
        Found out.opts .proof (u.urls .proof chargeId) file := by
  obtain ⟨name, s0, hraise, h0⟩ := bind_returned _ _ _ _ _ h
  obtain ⟨directory, s1, hdirectory, h1⟩ := bind_returned _ _ _ _ _ h0
  obtain ⟨_, s2, hwrite, h2⟩ := bind_returned _ _ _ _ _ h1
  obtain ⟨hname, rfl⟩ := raiseError_returned _ _ _ _ hraise
  obtain ⟨created, ops, hcreated⟩ := run_openDirectory out out.opts.voucherPicPath t s0
  rw [hcreated] at hdirectory
  cases hdirectory
  by_cases hshort : payload.length < 37
  · rw [if_pos hshort] at h2
    cases h2
  · rw [if_neg hshort] at h2
    have hu := (amend_returned _ _ _ _ _ _ h2).2
    have hslash := slash_not_mem_voucherName payload t name hid htype hname
    have hworld : s2.world = s0.world := by
      rw [run_writeFile] at hwrite
      cases hwrite
      rfl
    refine ⟨created, pictureDirectory out.opts.voucherPicPath created t ++ [slash] ++ name, ?_, ?_, ?_⟩
    · rw [voucherFile, hname]
      rfl
    · intro hopens
      rw [hu, writeFile_returned out _ _ _ _ hwrite hopens]
      simp
    · intro chargeId hcharge hmem
      rw [hu]
      simp only [hcharge, hworld, hmem, and_self, if_true]
      exact found_pictureUrl out.opts .proof created t name hslash

/-- Whatever the disk does, the url that is stored for a picture leads the
clients and the clean-up to the file that was written. -/
theorem pictures_found_again (out : Outside) :
    (∀ source data pics s t device info passId,
      run (recordPassage out source data pics) s = (.ok (device, info, passId), t) → slash ∉ bytes device.deviceId →
      ∀ i column, (i, column) ∈ [(0, Column.pic1), (1, Column.pic2)] → i < pics.length →
        ∃ created type name, data.picType[i]? = some type ∧
          pictureName device.deviceId (out.localTime data.passTime) type = .ok name ∧
          Written out (passageFile out created data name) t ∧
          Found out.opts column (t.urls column passId) (passageFile out created data name)) ∧
    (∀ t payload s u, run (saveVoucher out t payload) s = (.ok (), u) →
      slash ∉ payload.take 32 → slash ∉ (payload.drop 32).take 3 →
      ∃ created file, voucherFile out.opts.toOptions created t payload = .ok file ∧ Written out (cString file) u ∧
        ∀ chargeId, bytes chargeId = payload.take 32 → chargeId ∈ s.world.charges.map (·.1) →
          Found out.opts .proof (u.urls .proof chargeId) file) := by
  constructor
  · intro source data pics s t device info passId h hd i column hcolumn hi
    exact passage_found out source data pics s t device info passId h hd i column hcolumn hi
  · intro t payload s u h hid htype
    exact voucher_found out t payload s u h hid htype

/-- No directory can be created for the day. -/
def fullOutside : Outside :=
  { quietOutside with
    disk := { quietOutside.disk with isDirectory := fun _ => false, createsDirectory := fun _ => false } }

def pictureReport : DeviceData := { reportData "A1" with isPicUrl := 0, picCount := 1, picType := [1] }

theorem pictures_found_again_full :
    ∃ device info passId t,
      run (recordPassage fullOutside "10.0.0.2" pictureReport [[255]]) lotAfterExit = (.ok (device, info, passId), t) ∧
      ∃ created type name, pictureReport.picType[0]? = some type ∧
        pictureName device.deviceId (fullOutside.localTime pictureReport.passTime) type = .ok name ∧
        Written fullOutside (passageFile fullOutside created pictureReport name) t ∧
        Found fullOutside.opts .pic1 (t.urls .pic1 passId) (passageFile fullOutside created pictureReport name) := by
  obtain ⟨device, info, passId, t, h⟩ : ∃ device info passId t,
      run (recordPassage fullOutside "10.0.0.2" pictureReport [[255]]) lotAfterExit =
        (.ok (device, info, passId), t) := ⟨_, _, _, _, rfl⟩
  have hdevice : device = deviceAt lotAfterExit.world "10.0.0.2" := (recordPassage_returned _ _ _ _ _ _ _ h).1
  have hslash : slash ∉ bytes device.deviceId := by
    rw [hdevice]
    decide
  exact ⟨device, info, passId, t, h, (pictures_found_again fullOutside).1 _ _ _ _ _ _ _ _ h hslash 0 .pic1
    (by simp) (by decide)⟩

end BitPark.PictureUrl
