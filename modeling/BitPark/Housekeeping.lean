import BitPark.TurnBack

namespace BitPark.Housekeeping

open BitPark.Effect BitPark.Server BitPark.Database BitPark.Decimal BitPark.PictureFiles BitPark.Storage
open BitPark.DeviceMessage BitPark.Passage BitPark.DeviceReport BitPark.TurnBack

/-! The pictures of a passage are kept before the passage is. -/

/-- Each picture has a type, and the type a name. -/
def Named (pics : List Bytes) (types : List ℤ) : Prop :=
  pics.length ≤ types.length ∧ ∀ type ∈ types.take pics.length, 1 ≤ type ∧ type ≤ 5

theorem pictureName_ok (deviceId : String) (t : LocalTime) (index : ℤ) :
    (∃ name, pictureName deviceId t index = .ok name) ↔ 1 ≤ index ∧ index ≤ 5 := by
  by_cases h : 1 ≤ index ∧ index ≤ 5
  · simp [pictureName, h]
  · rw [pictureName, if_neg h]
    simp [h]

theorem named_cons (pic : Bytes) (pics : List Bytes) (type : ℤ) (types : List ℤ) :
    Named (pic :: pics) (type :: types) ↔ (1 ≤ type ∧ type ≤ 5) ∧ Named pics types := by
  simp [Named]
  tauto

theorem run_savePictures (out : Outside) (directory : Bytes) (deviceId : String) (t : LocalTime) (pics : List Bytes)
    (types : List ℤ) (s : Site) (h : Named pics types) :
    ∃ urls u, run (savePictures out directory deviceId t pics types) s = (.ok urls, u) ∧ u.world = s.world := by
  induction pics generalizing types s with
  | nil => exact ⟨[], s, rfl, rfl⟩
  | cons pic pics ih =>
    cases types with
    | nil => exact absurd h.1 (by simp)
    | cons type types =>
      obtain ⟨htype, hrest⟩ := (named_cons pic pics type types).mp h
      obtain ⟨name, hname⟩ := (pictureName_ok deviceId t type).mpr htype
      have hraise := run_raiseError_ok _ name s hname
      have hwrite := run_writeFile out (directory ++ [slash] ++ (name ++ Multipart.ascii ".jpg")) s
      obtain ⟨urls, u, hurls, hu⟩ := ih types (run (writeFile out
        (directory ++ [slash] ++ (name ++ Multipart.ascii ".jpg"))) s).2 hrest
      rw [hwrite] at hurls hu
      refine ⟨pictureUrl out.opts (Multipart.ascii "/PassVehicle/") directory (name ++ Multipart.ascii ".jpg") :: urls, u,
        ?_, hu⟩
      rw [savePictures, run_bind_ok _ _ _ _ _ hraise, run_bind_ok _ _ _ _ _ hwrite, run_bind_ok _ _ _ _ _ hurls]
      rfl

theorem named_of_saved (out : Outside) (directory : Bytes) (deviceId : String) (t : LocalTime) (pics : List Bytes)
    (types : List ℤ) (s : Site) (h : Returns (savePictures out directory deviceId t pics types) s) :
    Named pics types := by
  induction pics generalizing types s with
  | nil => exact ⟨Nat.zero_le _, by simp⟩
  | cons pic pics ih =>
    cases types with
    | nil =>
      obtain ⟨_, _, h⟩ := h
      cases h
    | cons type types =>
      obtain ⟨name, _, hname, h⟩ := (returns_bind _ _ _).mp h
      obtain ⟨_, v, -, h⟩ := (returns_bind _ _ _).mp h
      obtain ⟨urls, u, hurls, -⟩ := (returns_bind _ _ _).mp h
      have htype := (pictureName_ok deviceId t type).mp ⟨name, (raiseError_returned _ _ _ _ hname).1⟩
      exact (named_cons pic pics type types).mpr ⟨htype, ih types v ⟨urls, u, hurls⟩⟩

/-- The passage is in the table, and what to do about the vehicle is decided next. -/
def Kept (out : Outside) (source : String) (data : DeviceData) (pics : List Bytes) (s : Site) : Prop :=
  ∃ info passId t,
    run (recordPassage out source data pics) s = (.ok (deviceAt s.world source, info, passId), t) ∧
    t.world.detects = s.world.detects ++ [{ info.toPassVehicle with passId }] ∧
    run (onDeviceData out source data pics) s =
      run (swallow (decideRelease out (deviceAt s.world source) info passId)) t

theorem onDeviceData_recorded (out : Outside) (source : String) (data : DeviceData) (pics : List Bytes) (s t : Site)
    (device : Device) (info : PassRecord) (passId : String)
    (h : run (recordPassage out source data pics) s = (.ok (device, info, passId), t)) :
    run (onDeviceData out source data pics) s = run (swallow (decideRelease out device info passId)) t := by
  rw [onDeviceData, swallow, run_handle, run_bind_ok _ _ _ _ _ h]
  rfl

/-- The statements about the passage itself are carried out. -/
structure Answers (env : Env) (w : World) (source : String) (data : DeviceData) : Prop where
  device : env.fails ⟨.select, .equipInfo, source⟩ = none
  mode : env.fails ⟨.select, .sysConfig, "whitelist_match_mode"⟩ = none
  member : env.fails ⟨.select, .vipInfo, data.plateInfo1⟩ = none
  insertion : env.fails (insertion (reportRecord data (deviceAt w source).deviceId [] [])) = none

theorem run_inWorld_ok {α : Type} (p : Proc α) (s : Site) (a : α) (w : World) (h : run p s.world = (.ok a, w)) :
    run (inWorld p) s = (.ok a, { s with world := w }) := by
  have hrun : run (inWorld p) s = ((run p s.world).1, { s with world := (run p s.world).2 }) := rfl
  rw [hrun, h]

theorem run_recordPassage (out : Outside) (source : String) (data : DeviceData) (pics : List Bytes)
    (s t1 t2 t3 : Site) (device : Device) (directory : Bytes) (urls : List Bytes) (passId : String) (w : World)
    (hd : run (inWorld (queryDeviceByIP out.env source)) s = (.ok device, s))
    (h1 : run (pictureStorageManage out .passVehicle) s = (.ok (), t1))
    (h2 : run (openPassDirectory out data.passTime) t1 = (.ok directory, t2))
    (h3 : run (savePictures out directory device.deviceId (out.localTime data.passTime) pics data.picType) t2 =
      (.ok urls, t3))
    (h4 : run (insertPassVehicleInfo out.env (reportRecord data device.deviceId (urls.getD 0 []) (urls.getD 1 [])))
      t3.world = (.ok passId, w)) :
    run (recordPassage out source data pics) s =
      (.ok (device, reportRecord data device.deviceId (urls.getD 0 []) (urls.getD 1 []), passId),
        withPictures (reportRecord data device.deviceId (urls.getD 0 []) (urls.getD 1 [])) passId
          { t3 with world := w }) := by
  rw [recordPassage, run_bind_ok _ _ _ _ _ hd, run_bind_ok _ _ _ _ _ h1, run_bind_ok _ _ _ _ _ h2,
    run_bind_ok _ _ _ _ _ h3, run_bind_ok _ _ _ _ _ (run_inWorld_ok _ _ _ _ h4)]
  rfl

theorem kept_of_housekeeps (out : Outside) (source : String) (data : DeviceData) (pics : List Bytes) (s : Site)
    (ha : Answers out.env s.world source data) (hs : Housekeeps out .passVehicle s) (hn : Named pics data.picType)
    (hp : PlateFits s.world.config.whitelistMatchMode data.plateInfo1) (ht : 0 ≤ data.passTime) :
    Kept out source data pics s := by
  have hdevice : run (inWorld (queryDeviceByIP out.env source)) s = (.ok (deviceAt s.world source), s) :=
    run_inWorld_ok _ s _ _ (run_query _ _ _ s.world ha.device)
  obtain ⟨t1, h1, hw1⟩ := run_pictureStorageManage out .passVehicle s hs
  obtain ⟨created, ops, h2⟩ := run_openPassDirectory out data.passTime t1 ht
  obtain ⟨urls, t3, h3, hw3⟩ := run_savePictures out
    (pictureDirectory out.opts.picPath created (out.localTime data.passTime)) (deviceAt s.world source).deviceId
    (out.localTime data.passTime) pics data.picType { t1 with files := t1.files ++ ops } hn
  have hw : t3.world = s.world := hw3.trans hw1
  obtain ⟨type, h4⟩ := run_insertPassVehicleInfo out.env
    (reportRecord data (deviceAt s.world source).deviceId (urls.getD 0 []) (urls.getD 1 [])) t3.world ha.mode
    ha.member ha.insertion (by rw [hw]; exact hp)
  have hrec := run_recordPassage out source data pics s t1 _ t3 _ _ urls _ _ hdevice h1 h2 h3 h4
  refine ⟨_, _, _, hrec, ?_, onDeviceData_recorded out source data pics s _ _ _ _ hrec⟩
  simp only [withPictures, recorded, hw]

theorem housekeeps_of_kept (out : Outside) (source : String) (data : DeviceData) (pics : List Bytes) (s : Site)
    (h : Returns (recordPassage out source data pics) s) :
    Housekeeps out .passVehicle s ∧ Named pics data.picType ∧
      PlateFits s.world.config.whitelistMatchMode data.plateInfo1 ∧ 0 ≤ data.passTime := by
  have hsame : ∀ (s : Site) (op : FileOp), SameAt Site.world s { s with files := s.files ++ [op] } := fun _ _ => rfl
  obtain ⟨device, s0, h0, h⟩ := (returns_bind _ _ _).mp h
  obtain ⟨w, hq, rfl⟩ := inWorld_returned _ _ _ _ h0
  obtain ⟨-, rfl⟩ := query_returned _ _ _ _ _ _ hq
  obtain ⟨a, t1, h1, h⟩ := (returns_bind _ _ _).mp h
  obtain ⟨directory, t2, h2, h⟩ := (returns_bind _ _ _).mp h
  obtain ⟨urls, t3, h3, h⟩ := (returns_bind _ _ _).mp h
  obtain ⟨passId, t4, h4, -⟩ := (returns_bind _ _ _).mp h
  have hw1 := steps_returned (steps_pictureStorageManage hsame (fun _ _ => rfl) out _) _ _ _ h1
  have hw2 := steps_returned (steps_openPassDirectory hsame out _) _ _ _ h2
  have hw3 := steps_returned (steps_savePictures hsame out _ _ _ _ _) _ _ _ h3
  have hw : t3.world = s.world := hw3.trans (hw2.trans hw1)
  obtain ⟨u, hinsert, -⟩ := inWorld_returned _ _ _ _ h4
  have hfits := plateFits_of_inserted _ _ _ _ _ hinsert
  rw [hw] at hfits
  exact ⟨(returns_pictureStorageManage out _ s).mp ⟨a, t1, h1⟩, named_of_saved out _ _ _ _ _ t2 ⟨urls, t3, h3⟩,
    hfits, openPassDirectory_returned out data.passTime t1 ⟨directory, t2, h2⟩⟩

/-- A passage is kept exactly when every statement of the housekeeping is
carried out, every picture has one of the five types, the plate is long enough
for the match mode and the time is not before 1970. -/
theorem passage_kept_iff (out : Outside) (source : String) (data : DeviceData) (pics : List Bytes) (s : Site)
    (ha : Answers out.env s.world source data) :
    Kept out source data pics s ↔ Housekeeps out .passVehicle s ∧ Named pics data.picType ∧
      PlateFits s.world.config.whitelistMatchMode data.plateInfo1 ∧ 0 ≤ data.passTime := by
  constructor
  · rintro ⟨info, passId, t, hrun, -⟩
    exact housekeeps_of_kept out source data pics s ⟨_, t, hrun⟩
  · rintro ⟨hs, hn, hp, ht⟩
    exact kept_of_housekeeps out source data pics s ha hs hn hp ht

/-- More is stored than is allowed. -/
def crowded : Outside where
  env := quietEnv
  opts := quietOutside.opts
  disk := { quietOutside.disk with space := fun _ => some ⟨20971520, 10485760⟩ }
  localTime := quietOutside.localTime

/-- A limit of one megabyte, and pictures of the passage that is in the table. -/
def limitedLot : Site :=
  { lotAfterExit with
    storeCapacity := 1
    urls := fun _ nid => if nid = "x1" then Multipart.ascii "http://h:80/PassVehicle/2016-05-01/a.jpg" else [] }

def picturedPass : DeviceData := { reportData "京A12345" with isPicUrl := 0, picCount := 2, picType := [1, 4] }

/-- The oldest pictures go and the two new ones come. -/
theorem passage_kept_crowded : earliestSlots crowded .passVehicle limitedLot ≠ [] ∧
    Answers crowded.env limitedLot.world "10.0.0.2" picturedPass ∧
    Kept crowded "10.0.0.2" picturedPass [[255], [254]] limitedLot := by
  have ha : Answers crowded.env limitedLot.world "10.0.0.2" picturedPass := ⟨rfl, rfl, rfl, rfl⟩
  refine ⟨by decide +kernel, ha, (passage_kept_iff crowded "10.0.0.2" picturedPass [[255], [254]] limitedLot ha).mpr
    ⟨?_, ?_, ?_, by decide⟩⟩
  · intro space hspace
    cases hspace
    exact ⟨rfl, fun _ => ⟨rfl, fun _ _ _ => rfl⟩, fun hfull => absurd hfull (by decide)⟩
  · exact ⟨by decide, by decide⟩
  · exact ⟨by decide, by decide⟩

/-- The query for the pictures of the first day fails. -/
def crowdedFailing : Outside :=
  { crowded with
    env := { quietEnv with fails := fun st =>
      if st = ⟨.select, .detectInfo, "earliest"⟩ then some .sqlExecuteException else none } }

theorem crowded_disk_loses_passage :
    Answers crowdedFailing.env limitedLot.world "10.0.0.2" (reportData "京A12345") ∧
      ¬ Kept crowdedFailing "10.0.0.2" (reportData "京A12345") [] limitedLot := by
  refine ⟨⟨by decide, by decide, by decide, by decide⟩, ?_⟩
  rintro ⟨info, passId, t, hrun, -⟩
  obtain ⟨hs, -⟩ := housekeeps_of_kept crowdedFailing "10.0.0.2" (reportData "京A12345") [] limitedLot ⟨_, t, hrun⟩
  obtain ⟨-, hday, -⟩ := hs ⟨20971520, 10485760⟩ rfl
  exact absurd (hday (by decide)).1 (by decide)

end BitPark.Housekeeping
