import BitPark.DeviceMessage

namespace BitPark.Passage

open BitPark.Effect BitPark.Server BitPark.Database BitPark.Charging BitPark.Decimal BitPark.Members
open BitPark.PictureFiles BitPark.DeviceMessage BitPark.Fallible

/-! A passage as it is put into `park_detect_info`. -/

/-- The members of `PassVehicle` that a report fills in besides those that a settlement reads. -/
structure PassRecord extends PassVehicle where
  plateNumber2 : String := ""
  plateColor : ℤ := 2
  pictureUrl1 : Bytes := []
  pictureUrl2 : Bytes := []
  vehicleColor : String := ""
  vehicleType : Option ℤ := none
  vehicleSubtype : Option ℤ := none
  platePosition : Bytes := []
deriving DecidableEq

def comma : UInt8 := 44

def positionText (p : Position) : Bytes :=
  decimal p.left ++ comma :: (decimal p.top ++ comma :: (decimal p.right ++ comma :: decimal p.bottom))

/-- The constructor from a report. -/
def PassRecord.ofData (d : DeviceData) : PassRecord where
  plateType := d.plateType
  plateNumber1 := d.plateInfo1
  plateNumber2 := d.plateInfo2
  plateColor := d.plateColor
  passDirection := d.direction
  vehicleColor := d.vehicleColor
  platePosition := (d.position.map positionText).getD []
  vehicleType := d.vehicleType
  vehicleSubtype := d.vehicleSubType
  passTime := d.passTime

/-- The texts from outside that the insertion puts between quotes. -/
def PassRecord.texts (info : PassRecord) : List String :=
  [info.plateNumber1, info.plateNumber2, info.vehicleColor, info.deviceId]

def insertion (info : PassRecord) : Statement := ⟨.insert, .detectInfo, String.join info.texts⟩

/-- The tables with the new row. For a vehicle that drives in, a trigger of
the database adds it to the vehicles inside. -/
def recorded (info : PassRecord) (nid : String) (parkingType : ℤ) (w : World) : World :=
  { w with
    detects := w.detects ++ [{ info.toPassVehicle with passId := nid }]
    innerCars := w.innerCars ++ if info.passDirection = passIn then [⟨nid, parkingType⟩] else [] }

def insertPassVehicleInfo (env : Env) (info : PassRecord) : Proc String := do
  let nid ← generateUUID env
  let parkingType ← getParkingType env info.toPassVehicle
  execute env (insertion info) (recorded info nid parkingType)
  pure nid

/-- The positions at which the queries of the match modes cut the plate are there. -/
def PlateFits (mode : ℤ) (plate : String) : Prop :=
  (mode = ignoreProvinceMatch → 3 ≤ (bytes plate).length) ∧ (mode = fuzzyMatch → 8 ≤ (bytes plate).length)

theorem ignoreProvincePattern_ok (plate : List UInt8) :
    (∃ p, ignoreProvincePattern plate = .ok p) ↔ 3 ≤ plate.length := by
  by_cases h : plate.length < 3
  · simp [ignoreProvincePattern, h]
  · simp [ignoreProvincePattern, h]
    omega

theorem maskAt_ok (plate : List UInt8) (pos : ℕ) : (∃ p, maskAt plate pos = .ok p) ↔ pos ≤ plate.length := by
  by_cases h : plate.length < pos
  · simp [maskAt, h]
  · simp [maskAt, h]
    omega

theorem fuzzyPatterns_ok (plate : List UInt8) : (∃ ps, fuzzyPatterns plate = .ok ps) ↔ 8 ≤ plate.length := by
  constructor
  · rintro ⟨ps, h⟩
    obtain ⟨_, -, h⟩ := bind_ok h
    obtain ⟨others, hothers, -⟩ := bind_ok h
    have hmask := (mapM_ok_iff (maskAt plate) _).mp ⟨others, hothers⟩
    exact (maskAt_ok plate 8).mp (hmask 8 (by simp))
  · intro h
    obtain ⟨p, hp⟩ := (ignoreProvincePattern_ok plate).mpr (by omega)
    obtain ⟨others, hothers⟩ := (mapM_ok_iff (maskAt plate) [3, 4, 5, 6, 7, 8]).mpr fun pos hpos =>
      (maskAt_ok plate pos).mpr (by simp at hpos; omega)
    refine ⟨p :: others, ?_⟩
    rw [fuzzyPatterns, hp, hothers]
    rfl

theorem run_getParkingType (env : Env) (pass : PassVehicle) (w : World)
    (hmode : env.fails ⟨.select, .sysConfig, "whitelist_match_mode"⟩ = none)
    (hvip : env.fails ⟨.select, .vipInfo, pass.plateNumber1⟩ = none)
    (h : PlateFits w.config.whitelistMatchMode pass.plateNumber1) :
    ∃ type, run (getParkingType env pass) w = (.ok type, w) := by
  have hm : run (queryWhitelistMatchMode env) w = (.ok w.config.whitelistMatchMode, w) := run_query _ _ _ w hmode
  rw [getParkingType, run_bind_ok _ _ _ _ _ hm]
  by_cases h0 : w.config.whitelistMatchMode = 0
  · rw [if_pos h0, queryVIPVehicle, run_bind_ok _ _ _ _ _ (run_query _ _ _ w hvip)]
    exact ⟨_, rfl⟩
  · rw [if_neg h0]
    by_cases h1 : w.config.whitelistMatchMode = ignoreProvinceMatch
    · obtain ⟨p, hp⟩ := (ignoreProvincePattern_ok _).mpr (h.1 h1)
      have hq : run (queryVIPVehicleIgnoreProvinceMatch env pass.plateNumber1) w =
          (.ok (matching env.like w.vips [p]), w) :=
        (run_bind_ok _ _ _ _ _ (run_ofExcept_ok _ _ w hp)).trans (run_query _ _ _ w hvip)
      rw [if_pos h1, run_bind_ok _ _ _ _ _ hq]
      exact ⟨_, rfl⟩
    · rw [if_neg h1]
      by_cases h2 : w.config.whitelistMatchMode = fuzzyMatch
      · obtain ⟨ps, hps⟩ := (fuzzyPatterns_ok _).mpr (h.2 h2)
        have hq : run (queryVIPVehicleFuzzyMatch env pass.plateNumber1) w =
            (.ok (matching env.like w.vips ps), w) :=
          (run_bind_ok _ _ _ _ _ (run_ofExcept_ok _ _ w hps)).trans (run_query _ _ _ w hvip)
        rw [if_pos h2, run_bind_ok _ _ _ _ _ hq]
        exact ⟨_, rfl⟩
      · rw [if_neg h2]
        exact ⟨_, rfl⟩

theorem plateFits_of_classified (env : Env) (pass : PassVehicle) (w t : World) (type : ℤ)
    (h : run (getParkingType env pass) w = (.ok type, t)) :
    PlateFits w.config.whitelistMatchMode pass.plateNumber1 := by
  have hr := (query_bind_returned _ _ _ _ _ _ _ h).2
  constructor
  · intro h1
    have h0 : w.config.whitelistMatchMode ≠ 0 := by
      rw [h1]
      decide
    rw [if_neg h0, if_pos h1] at hr
    obtain ⟨_, _, hq, -⟩ := bind_returned _ _ _ _ _ hr
    obtain ⟨p, hp, -⟩ := queryIgnoreProvince_returned _ _ _ _ _ hq
    exact (ignoreProvincePattern_ok _).mp ⟨p, hp⟩
  · intro h2
    have h0 : w.config.whitelistMatchMode ≠ 0 := by
      rw [h2]
      decide
    have h1 : w.config.whitelistMatchMode ≠ ignoreProvinceMatch := by
      rw [h2]
      decide
    rw [if_neg h0, if_neg h1, if_pos h2] at hr
    obtain ⟨_, _, hq, -⟩ := bind_returned _ _ _ _ _ hr
    obtain ⟨ps, hps, -⟩ := queryFuzzy_returned _ _ _ _ _ hq
    exact (fuzzyPatterns_ok _).mp ⟨ps, hps⟩

/-- Nothing in the text ends or escapes a quoted text of SQL. -/
def plain (text : String) : Bool := text.toList.all fun c => c.toNat ≠ 39 ∧ c.toNat ≠ 92

/-- The database carries out every statement whose texts are plain. -/
def Reachable (env : Env) : Prop := ∀ s : Statement, plain s.key = true → env.fails s = none

theorem plain_join (texts : List String) (h : ∀ t ∈ texts, plain t = true) : plain (String.join texts) = true := by
  simp only [plain, List.all_eq_true] at h ⊢
  intro c hc
  obtain ⟨t, ht, hct⟩ : ∃ t ∈ texts, c ∈ t.toList := by simpa using hc
  exact h t ht c hct

/-- No exception, and one row more. -/
def Recorded (env : Env) (info : PassRecord) (w : World) : Prop :=
  ∃ nid t, run (insertPassVehicleInfo env info) w = (.ok nid, t) ∧
    t.detects = w.detects ++ [{ info.toPassVehicle with passId := nid }]

/-- The record of a report from a device, with the pictures that were saved. -/
def reportRecord (d : DeviceData) (deviceId : String) (url1 url2 : Bytes) : PassRecord :=
  { PassRecord.ofData d with deviceId, pictureUrl1 := url1, pictureUrl2 := url2 }

theorem run_insertPassVehicleInfo (env : Env) (info : PassRecord) (w : World)
    (hmode : env.fails ⟨.select, .sysConfig, "whitelist_match_mode"⟩ = none)
    (hvip : env.fails ⟨.select, .vipInfo, info.plateNumber1⟩ = none) (hinsert : env.fails (insertion info) = none)
    (h : PlateFits w.config.whitelistMatchMode info.plateNumber1) :
    ∃ type, run (insertPassVehicleInfo env info) w =
      (.ok (env.uuid w.ids), recorded info (env.uuid w.ids) type { w with ids := w.ids + 1 }) := by
  have hid : run (generateUUID env) w = (.ok (env.uuid w.ids), { w with ids := w.ids + 1 }) := rfl
  obtain ⟨type, htype⟩ := run_getParkingType env info.toPassVehicle { w with ids := w.ids + 1 } hmode hvip h
  refine ⟨type, ?_⟩
  rw [insertPassVehicleInfo, run_bind_ok _ _ _ _ _ hid, run_bind_ok _ _ _ _ _ htype,
    run_bind_ok _ _ _ _ _ (run_execute _ _ _ _ hinsert)]
  rfl

theorem plateFits_of_inserted (env : Env) (info : PassRecord) (w t : World) (nid : String)
    (h : run (insertPassVehicleInfo env info) w = (.ok nid, t)) :
    PlateFits w.config.whitelistMatchMode info.plateNumber1 := by
  obtain ⟨_, u, hid, h⟩ := bind_returned _ _ _ _ _ h
  obtain ⟨type, v, htype, -⟩ := bind_returned _ _ _ _ _ h
  cases hid
  have hfits := plateFits_of_classified _ _ _ _ _ htype
  exact hfits

theorem recorded_of_fits (env : Env) (henv : Reachable env) (info : PassRecord) (w : World)
    (hplain : ∀ t ∈ info.texts, plain t = true) (h : PlateFits w.config.whitelistMatchMode info.plateNumber1) :
    Recorded env info w := by
  have hplate : plain info.plateNumber1 = true := hplain _ (by simp [PassRecord.texts])
  obtain ⟨type, hrun⟩ := run_insertPassVehicleInfo env info w (henv _ (by decide)) (henv _ hplate)
    (henv _ (plain_join _ hplain)) h
  exact ⟨_, _, hrun, rfl⟩

def reportMembers (plate : String) : List (String × Json.Value) :=
  [("VehicleInfoState", .int 0), ("IsPicUrl", .int 1), ("LaneIndex", .int 1), ("direction", .int 9),
    ("PlateInfo1", .string plate), ("PlateColor", .int 2), ("PlateType", .int 2),
    ("PassTime", .string "2016-05-01 08:00:00"), ("VehicleState", .int 1), ("AlarmAction", .int 1)]

def reportData (plate : String) : DeviceData where
  isPicUrl := 1
  direction := 9
  plateInfo1 := plate
  plateColor := 2
  plateType := 2
  passTime := 1462060800
  vehicleSubType := some 0

def matchModeTwo : World where
  config := { whitelistMatchMode := 2 }

theorem quietEnv_reachable : Reachable quietEnv := fun _ _ => rfl

end BitPark.Passage
