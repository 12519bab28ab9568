import BitPark.Charging

namespace BitPark.Members

open BitPark.Effect BitPark.Tariff BitPark.Server BitPark.Database BitPark.Charging

def ignoreProvinceMatch : ℤ := 1
def fuzzyMatch : ℤ := 2

def bytes (s : String) : List UInt8 := s.toUTF8.data.toList

def underscore : UInt8 := 95

/-! The patterns are cut out of the bytes of the plate, at fixed positions. -/

def ignoreProvincePattern (plate : List UInt8) : Except String (List UInt8) :=
  if plate.length < 3 then .error "basic_string::substr" else .ok (underscore :: plate.drop 3)

def maskAt (plate : List UInt8) (pos : ℕ) : Except String (List UInt8) :=
  if plate.length < pos then .error "basic_string::replace"
  else .ok (plate.take pos ++ underscore :: plate.drop (pos + 1))

def fuzzyPatterns (plate : List UInt8) : Except String (List (List UInt8)) := do
  let province ← ignoreProvincePattern plate
  let others ← [3, 4, 5, 6, 7, 8].mapM (maskAt plate)
  pure (province :: others)

def matching (like : List UInt8 → String → Bool) (vips : List VIPVehicle) (patterns : List (List UInt8)) :
    List VIPVehicle :=
  (vips.filter fun v => patterns.any fun p => like p v.plateNumber).map handleQueryVipVehicle

def queryVIPVehicleIgnoreProvinceMatch (env : Env) (plate : String) : Proc (List VIPVehicle) := do
  let pattern ← ofExcept (ignoreProvincePattern (bytes plate))
  query env ⟨.select, .vipInfo, plate⟩ fun w => matching env.like w.vips [pattern]

def queryVIPVehicleFuzzyMatch (env : Env) (plate : String) : Proc (List VIPVehicle) := do
  let patterns ← ofExcept (fuzzyPatterns (bytes plate))
  query env ⟨.select, .vipInfo, plate⟩ fun w => matching env.like w.vips patterns

def kindOf (type : ℤ) : ChargeKind :=
  if type = 1 then .whiteList
  else if type = 2 then .storedValue
  else if type = 3 then .monthly
  else if type = 4 then .temporaryVIP
  else .temporaryVehicle

def chargeOfExact : Option VIPVehicle → ChargeKind × VIPVehicle
  | some vip => (kindOf vip.type, vip)
  | none => (.temporaryVehicle, {})

/-- Members with a time of validity come first; without one only the first row counts. -/
def chargeOfList (vips : List VIPVehicle) : ChargeKind × VIPVehicle :=
  match vips.find? fun v => v.type = 1 ∨ v.type = 3 ∨ v.type = 4 with
  | some vip => (kindOf vip.type, vip)
  | none => match vips with
    | [] => (.temporaryVehicle, {})
    | vip :: _ => (if vip.type = 2 then .storedValue else .temporaryVehicle, vip)

/-- The subclass and the member that `ChargeFactory::Create` decides on. -/
def chooseCharge (env : Env) (plate : String) : Proc (ChargeKind × VIPVehicle) := do
  let mode ← queryWhitelistMatchMode env
  if mode = ignoreProvinceMatch then
    let vips ← queryVIPVehicleIgnoreProvinceMatch env plate
    pure (chargeOfList vips)
  else if mode = fuzzyMatch then
    let vips ← queryVIPVehicleFuzzyMatch env plate
    pure (chargeOfList vips)
  else
    let vip ← queryVIPVehicle env plate
    pure (chargeOfExact vip)

/-- `FormatLocalTime` of a time before 1970 raises, as Boost does; a later one is kept as a number. -/
def formatLocalTime (env : Env) (t : ℤ) : Proc ℤ :=
  if t < 0 then raise (.other "Cannot convert dates prior to Jan 1, 1970") else pure (utcToLocal env.utcOffset t)

/-- `ChargeFactory::Create` with the constructor of `Charge`. The two settings
have no value before their setters are called. -/
def create (env : Env) (enter exit : PassVehicle) : Proc Charge := do
  let choice ← chooseCharge env exit.plateNumber1
  let parkPosition ← queryParkPosition env enter.deviceId
  let _ ← formatLocalTime env enter.passTime
  let _ ← formatLocalTime env exit.passTime
  let chargeId ← generateUUID env
  pure (Charge.construct choice.1 enter exit choice.2 env.utcOffset parkPosition chargeId 0 0)

def handleCharge (env : Env) (enter exit : PassVehicle) : Proc Charge := do
  let charging ← create env enter exit
  let freeTimeMode ← queryFreeTimeMode env
  let chargePattern ← queryChargePattern env
  { charging with freeTimeMode, chargePattern }.calCharge env

def isValidVIP (vip : VIPVehicle) (pass : PassVehicle) : Bool :=
  vip.deleteStatus = "1" ∧ vip.validBegintime ≤ pass.passTime ∧ pass.passTime ≤ vip.expiryDate

/-- What a member counts as; the types of members and of parking have the same numbers. -/
def parkingTypeOf (vip : VIPVehicle) (pass : PassVehicle) : ℤ :=
  if 1 ≤ vip.type ∧ vip.type ≤ 4 ∧ isValidVIP vip pass then vip.type else temporaryVehicleParking

/-- The loop over the members ends at the first that counts as one. -/
def parkingTypeOfList (vips : List VIPVehicle) (pass : PassVehicle) : ℤ :=
  ((vips.map (parkingTypeOf · pass)).find? (· ≠ temporaryVehicleParking)).getD temporaryVehicleParking

def getParkingType (env : Env) (pass : PassVehicle) : Proc ℤ := do
  let mode ← queryWhitelistMatchMode env
  if mode = 0 then
    let vip ← queryVIPVehicle env pass.plateNumber1
    pure (parkingTypeOfList vip.toList pass)
  else if mode = ignoreProvinceMatch then
    let vips ← queryVIPVehicleIgnoreProvinceMatch env pass.plateNumber1
    pure (parkingTypeOfList vips pass)
  else if mode = fuzzyMatch then
    let vips ← queryVIPVehicleFuzzyMatch env pass.plateNumber1
    pure (parkingTypeOfList vips pass)
  else pure temporaryVehicleParking

/-- The choice that the tables determine. -/
def choiceOf (like : List UInt8 → String → Bool) (w : World) (plate : String) :
    Except String (ChargeKind × VIPVehicle) :=
  if w.config.whitelistMatchMode = ignoreProvinceMatch then
    (ignoreProvincePattern (bytes plate)).map fun p => chargeOfList (matching like w.vips [p])
  else if w.config.whitelistMatchMode = fuzzyMatch then
    (fuzzyPatterns (bytes plate)).map fun ps => chargeOfList (matching like w.vips ps)
  else .ok (chargeOfExact (vipOf w plate))

theorem map_ok {ε α β : Type} (x : Except ε α) (f : α → β) (b : β) (h : x.map f = .ok b) :
    ∃ a, x = .ok a ∧ f a = b := by
  cases x with
  | ok a => exact ⟨a, rfl, Except.ok.inj h⟩
  | error e => cases h

theorem queryIgnoreProvince_returned (env : Env) (plate : String) (w t : World) (vips : List VIPVehicle)
    (h : run (queryVIPVehicleIgnoreProvinceMatch env plate) w = (.ok vips, t)) :
    ∃ pattern, ignoreProvincePattern (bytes plate) = .ok pattern ∧ vips = matching env.like w.vips [pattern] ∧
      t = w := by
  obtain ⟨pattern, u, he, hq⟩ := bind_returned _ _ _ _ _ h
  obtain ⟨hp, rfl⟩ := ofExcept_returned _ _ _ _ he
  exact ⟨pattern, hp, query_returned _ _ _ _ _ _ hq⟩

theorem queryFuzzy_returned (env : Env) (plate : String) (w t : World) (vips : List VIPVehicle)
    (h : run (queryVIPVehicleFuzzyMatch env plate) w = (.ok vips, t)) :
    ∃ patterns, fuzzyPatterns (bytes plate) = .ok patterns ∧ vips = matching env.like w.vips patterns ∧ t = w := by
  obtain ⟨patterns, u, he, hq⟩ := bind_returned _ _ _ _ _ h
  obtain ⟨hp, rfl⟩ := ofExcept_returned _ _ _ _ he
  exact ⟨patterns, hp, query_returned _ _ _ _ _ _ hq⟩

theorem chooseCharge_returned (env : Env) (plate : String) (w t : World) (choice : ChargeKind × VIPVehicle)
    (h : run (chooseCharge env plate) w = (.ok choice, t)) : choiceOf env.like w plate = .ok choice ∧ t = w := by
  have hr := (query_bind_returned _ _ _ _ _ _ _ h).2
  rw [choiceOf]
  split_ifs at hr ⊢
  · obtain ⟨vips, v, hq, hp⟩ := bind_returned _ _ _ _ _ hr
    obtain ⟨pattern, hpat, rfl, rfl⟩ := queryIgnoreProvince_returned _ _ _ _ _ hq
    cases hp
    rw [hpat]
    exact ⟨rfl, rfl⟩
  · obtain ⟨vips, v, hq, hp⟩ := bind_returned _ _ _ _ _ hr
    obtain ⟨patterns, hpat, rfl, rfl⟩ := queryFuzzy_returned _ _ _ _ _ hq
    cases hp
    rw [hpat]
    exact ⟨rfl, rfl⟩
  · cases (query_bind_returned _ _ _ _ _ _ _ hr).2
    exact ⟨rfl, rfl⟩

theorem run_formatLocalTime (env : Env) (t : ℤ) (w : World) (h : 0 ≤ t) :
    run (formatLocalTime env t) w = (.ok (utcToLocal env.utcOffset t), w) := by
  rw [formatLocalTime, if_neg (not_lt.mpr h)]
  rfl

theorem formatLocalTime_returned (env : Env) (t a : ℤ) (w w' : World)
    (h : run (formatLocalTime env t) w = (.ok a, w')) : w = w' := by
  rw [formatLocalTime] at h
  split_ifs at h
  · cases h
  · cases h
    rfl

/-- What a charge is built from. -/
theorem create_returned (env : Env) (enter exit : PassVehicle) (w t : World) (c : Charge)
    (h : run (create env enter exit) w = (.ok c, t)) :
    ∃ choice, choiceOf env.like w exit.plateNumber1 = .ok choice ∧ t = { w with ids := w.ids + 1 } ∧
      c = Charge.construct choice.1 enter exit choice.2 env.utcOffset
        (onlyRow (positionsOf w enter.deviceId) 0) (env.uuid w.ids) 0 0 := by
  obtain ⟨choice, u1, h1, hr1⟩ := bind_returned _ _ _ _ _ h
  obtain ⟨hch, rfl⟩ := chooseCharge_returned _ _ _ _ _ h1
  have hr2 := (query_bind_returned _ _ _ _ _ _ _ hr1).2
  obtain ⟨enterTime, u2, h2, hr3⟩ := bind_returned _ _ _ _ _ hr2
  obtain ⟨exitTime, u3, h3, hr4⟩ := bind_returned _ _ _ _ _ hr3
  obtain rfl := formatLocalTime_returned _ _ _ _ _ h2
  obtain rfl := formatLocalTime_returned _ _ _ _ _ h3
  obtain ⟨id, u4, h4, hr5⟩ := bind_returned _ _ _ _ _ hr4
  cases h4
  cases hr5
  exact ⟨choice, hch, rfl, rfl⟩

section Frame

variable {R : World → World → Prop} [IsPreorder World R] (env : Env)

theorem steps_queryIgnoreProvince (plate : String) :
    Steps R (queryVIPVehicleIgnoreProvinceMatch env plate) :=
  steps_bind (steps_ofExcept _) fun _ => steps_query env _ _

theorem steps_queryFuzzy (plate : String) : Steps R (queryVIPVehicleFuzzyMatch env plate) :=
  steps_bind (steps_ofExcept _) fun _ => steps_query env _ _

theorem steps_chooseCharge (plate : String) : Steps R (chooseCharge env plate) :=
  steps_bind (steps_query env _ _) fun _ =>
    steps_ite _ (steps_bind (steps_queryIgnoreProvince env plate) fun _ => steps_pure _) <|
      steps_ite _ (steps_bind (steps_queryFuzzy env plate) fun _ => steps_pure _)
        (steps_bind (steps_query env _ _) fun _ => steps_pure _)

theorem steps_getParkingType (pass : PassVehicle) : Steps R (getParkingType env pass) :=
  steps_bind (steps_query env _ _) fun _ =>
    steps_ite _ (steps_bind (steps_query env _ _) fun _ => steps_pure _) <|
      steps_ite _ (steps_bind (steps_queryIgnoreProvince env _) fun _ => steps_pure _) <|
        steps_ite _ (steps_bind (steps_queryFuzzy env _) fun _ => steps_pure _) (steps_pure _)

theorem steps_formatLocalTime (t : ℤ) : Steps R (formatLocalTime env t) :=
  steps_ite _ (steps_raise _) (steps_pure _)

variable (hb : Bookkeeping R)
include hb

theorem steps_create (enter exit : PassVehicle) : Steps R (create env enter exit) :=
  steps_bind (steps_chooseCharge env _) fun _ => steps_bind (steps_query env _ _) fun _ =>
    steps_bind (steps_formatLocalTime env _) fun _ => steps_bind (steps_formatLocalTime env _) fun _ =>
      steps_bind (steps_generateUUID env hb.ids) fun _ => steps_pure _

theorem steps_handleCharge (hv : ∀ w l, R w { w with vips := l }) (enter exit : PassVehicle) :
    Steps R (handleCharge env enter exit) :=
  steps_bind (steps_create env hb enter exit) fun _ => steps_bind (steps_query env _ _) fun _ =>
    steps_bind (steps_query env _ _) fun _ => Charge.steps_calCharge hb env _ hv

theorem fails_handleCharge (enter exit : PassVehicle) : Fails R (handleCharge env enter exit) :=
  fails_bind (steps_create env hb enter exit) fun _ => fails_bind (steps_query env _ _) fun _ =>
    fails_bind (steps_query env _ _) fun _ => Charge.fails_calCharge hb env _

end Frame

end BitPark.Members
