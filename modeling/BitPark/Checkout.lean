import BitPark.ClientRequest

namespace BitPark.Checkout

open BitPark.Effect BitPark.Server BitPark.Database BitPark.Devices BitPark.Charging BitPark.Requests
open BitPark.ClientRequest

/-! When the parts of a checkout return, in terms of the request and of the state before it. -/

def billOf (json : Json.Value) : Except String (Option Json.Value × ℚ) := do
  let bill ← json.member "Bill"
  if bill.isNull then pure (none, 1)
  else
    let discount ← number bill "Discount"
    pure (some bill, discount)

theorem readBill_eq (json : Json.Value) : readBill json = ofExcept (billOf json) := by
  rw [readBill, billOf, readMember]
  cases json.member "Bill" with
  | error what => rfl
  | ok bill =>
    show (if bill.isNull then _ else _) = ofExcept (if bill.isNull then _ else _)
    split_ifs
    · rfl
    · rw [readFloat_eq]
      cases number bill "Discount" with
      | ok d => rfl
      | error what => rfl

/-- The request can be read in full. -/
structure Reads (json : Json.Value) (exitComment : String) (parkingType : ℤ) : Prop where
  bill : ∃ bill, billOf json = .ok bill
  charge : ∃ charge, number json "Charge" = .ok charge
  actualCharge : ∃ actual, number json "ActualCharge" = .ok actual
  payType : ∃ payType, integer json "PayType" = .ok payType
  parkingType : integer json "ParkingType" = .ok parkingType
  exitType : ∃ exitType, integer json "ExitType" = .ok exitType
  exitComment : text json "ExitComment" = .ok exitComment

/-- A member who pays from the stored value is looked up. -/
def MoneyRead (env : Env) (parkingType : ℤ) (plate : String) : Prop :=
  parkingType = storedValueParking → env.fails ⟨.select, .vipInfo, plate⟩ = none

section Record

variable (env : Env) (json : Json.Value) (user : User) (enterId exitId : String) (exit : PassVehicle) (w t : World)

theorem run_storedMoney (parkingType : ℤ) (plate : String) (h : MoneyRead env parkingType plate) :
    ∃ money, run (storedMoney env parkingType plate) w = (.ok money, w) := by
  rw [storedMoney]
  split_ifs with hp
  · exact ⟨_, run_bind_ok _ _ _ _ _ (run_query env _ _ _ (h hp))⟩
  · exact ⟨none, rfl⟩

theorem storedMoney_returned (parkingType : ℤ) (plate : String) (money : Option ℚ)
    (h : run (storedMoney env parkingType plate) w = (.ok money, t)) : MoneyRead env parkingType plate ∧ t = w := by
  unfold storedMoney at h
  split_ifs at h with hp
  · obtain ⟨vip, u, hq, hr⟩ := bind_returned _ _ _ _ _ h
    have hu := (query_returned _ _ _ _ _ _ hq).2
    cases hr
    exact ⟨fun _ => query_done _ _ _ _ _ _ hq, hu⟩
  · cases h
    exact ⟨fun hn => absurd hn hp, rfl⟩

theorem run_checkoutRecord (exitComment : String) (parkingType : ℤ) (h : Reads json exitComment parkingType)
    (hm : MoneyRead env parkingType exit.plateNumber1) :
    ∃ record, run (checkoutRecord env json user enterId exitId exit) w = (.ok record, w) ∧
      record.enterId = enterId ∧ record.exitId = exitId ∧ record.exitComment = exitComment := by
  obtain ⟨bill, hbill⟩ := h.bill
  obtain ⟨charge, hcharge⟩ := h.charge
  obtain ⟨actual, hactual⟩ := h.actualCharge
  obtain ⟨payType, hpay⟩ := h.payType
  obtain ⟨exitType, htype⟩ := h.exitType
  obtain ⟨money, hmoney⟩ := run_storedMoney env w parkingType exit.plateNumber1 hm
  rw [checkoutRecord]
  rw [readBill_eq, readFloat_eq, readFloat_eq, readInt_eq, readInt_eq, readInt_eq, readString_eq,
    run_bind_ok _ _ _ _ _ (run_ofExcept_ok _ _ w hbill), run_bind_ok _ _ _ _ _ (run_ofExcept_ok _ _ w hcharge),
    run_bind_ok _ _ _ _ _ (run_ofExcept_ok _ _ w hactual), run_bind_ok _ _ _ _ _ (run_ofExcept_ok _ _ w hpay),
    run_bind_ok _ _ _ _ _ (run_ofExcept_ok _ _ w h.parkingType),
    run_bind_ok _ _ _ _ _ (run_ofExcept_ok _ _ w htype),
    run_bind_ok _ _ _ _ _ (run_ofExcept_ok _ _ w h.exitComment), run_bind_ok _ _ _ _ _ hmoney]
  exact ⟨_, rfl, rfl, rfl, rfl⟩

theorem checkoutRecord_returned (record : ChargeRecord)
    (h : run (checkoutRecord env json user enterId exitId exit) w = (.ok record, t)) :
    t = w ∧ record.enterId = enterId ∧ record.exitId = exitId ∧ ∃ parkingType,
      Reads json record.exitComment parkingType ∧ MoneyRead env parkingType exit.plateNumber1 := by
  unfold checkoutRecord at h
  rw [readBill_eq, readFloat_eq, readFloat_eq, readInt_eq, readInt_eq, readInt_eq, readString_eq] at h
  obtain ⟨bill, u1, h1, hr1⟩ := bind_returned _ _ _ _ _ h
  obtain ⟨hbill, rfl⟩ := ofExcept_returned _ _ _ _ h1
  obtain ⟨charge, u2, h2, hr2⟩ := bind_returned _ _ _ _ _ hr1
  obtain ⟨hcharge, rfl⟩ := ofExcept_returned _ _ _ _ h2
  obtain ⟨actual, u3, h3, hr3⟩ := bind_returned _ _ _ _ _ hr2
  obtain ⟨hactual, rfl⟩ := ofExcept_returned _ _ _ _ h3
  obtain ⟨payType, u4, h4, hr4⟩ := bind_returned _ _ _ _ _ hr3
  obtain ⟨hpay, rfl⟩ := ofExcept_returned _ _ _ _ h4
  obtain ⟨parkingType, u5, h5, hr5⟩ := bind_returned _ _ _ _ _ hr4
  obtain ⟨hparking, rfl⟩ := ofExcept_returned _ _ _ _ h5
  obtain ⟨exitType, u6, h6, hr6⟩ := bind_returned _ _ _ _ _ hr5
  obtain ⟨htype, rfl⟩ := ofExcept_returned _ _ _ _ h6
  obtain ⟨comment, u7, h7, hr7⟩ := bind_returned _ _ _ _ _ hr6
  obtain ⟨hcomment, rfl⟩ := ofExcept_returned _ _ _ _ h7
  obtain ⟨money, u8, h8, hr8⟩ := bind_returned _ _ _ _ _ hr7
  obtain ⟨hmoney, rfl⟩ := storedMoney_returned _ _ _ _ _ _ h8
  cases hr8
  exact ⟨rfl, rfl, rfl, parkingType, ⟨⟨bill, hbill⟩, ⟨charge, hcharge⟩, ⟨actual, hactual⟩, ⟨payType, hpay⟩,
    hparking, ⟨exitType, htype⟩, hcomment⟩, hmoney⟩

end Record

/-- The request is that of a session, can be read and gets its record: so much
depends on the request, the session, the statements and the key of the table. -/
structure Accepted (env : Env) (hdl : Handle) (json : Json.Value) (w : World)
    (enterId exitId exitComment chargeId : String) : Prop where
  session : ∃ s, w.sessions.lookup hdl = some s
  enterText : text json "EnterID" = .ok enterId
  exitText : text json "ExitID" = .ok exitId
  exitRead : env.fails ⟨.select, .detectInfo, exitId⟩ = none
  reads : ∃ parkingType, Reads json exitComment parkingType ∧
    MoneyRead env parkingType (onlyRow (w.detects.filter (·.passId = exitId)) {}).plateNumber1
  idText : ∃ given, text json "ChargeID" = .ok given ∧ chargeId = if given = "" then env.uuid w.ids else given
  insert : env.fails ⟨.insert, .chargeInfo, chargeId⟩ = none
  key : ¬ (env.uniqueNid = true ∧ chargeId ∈ w.charges.map (·.1))

section First

variable (env : Env) (hdl : Handle) (json : Json.Value) (w t : World)

theorem run_chargeIdOf (given : String) (h : text json "ChargeID" = .ok given) :
    ∃ n, run (chargeIdOf env json) w =
      (.ok (if given = "" then env.uuid w.ids else given), { w with ids := n }) := by
  rw [chargeIdOf]
  rw [readString_eq, run_bind_ok _ _ _ _ _ (run_ofExcept_ok _ _ w h)]
  split_ifs
  · exact ⟨w.ids + 1, rfl⟩
  · exact ⟨w.ids, rfl⟩

theorem chargeIdOf_returned (chargeId : String) (h : run (chargeIdOf env json) w = (.ok chargeId, t)) :
    (∃ given, text json "ChargeID" = .ok given ∧ chargeId = if given = "" then env.uuid w.ids else given) ∧
      ∃ n, t = { w with ids := n } := by
  have hread : ∃ given, text json "ChargeID" = .ok given := by
    unfold chargeIdOf at h
    rw [readString_eq] at h
    obtain ⟨given, u, h1, -⟩ := bind_returned _ _ _ _ _ h
    exact ⟨given, (ofExcept_returned _ _ _ _ h1).1⟩
  obtain ⟨given, hg⟩ := hread
  obtain ⟨n, hn⟩ := run_chargeIdOf env json w given hg
  rw [hn] at h
  cases h
  exact ⟨⟨given, hg, rfl⟩, n, rfl⟩

theorem insertChargeRecord_key (nid : String) (record : ChargeRecord) (a : Unit)
    (h : run (insertChargeRecord env nid record) w = (.ok a, t)) :
    env.fails ⟨.insert, .chargeInfo, nid⟩ = none ∧ ¬ (env.uniqueNid = true ∧ nid ∈ w.charges.map (·.1)) := by
  obtain ⟨b, u, hs, hr⟩ := bind_returned _ _ _ _ _ h
  refine ⟨statement_done env _ w u b hs, fun hk => ?_⟩
  obtain rfl := statement_returned env _ w u b hs
  rw [run_bind_ok _ _ _ _ _ (run_state u), if_pos hk] at hr
  cases hr

theorem run_insertChargeRecord (nid : String) (record : ChargeRecord)
    (hf : env.fails ⟨.insert, .chargeInfo, nid⟩ = none)
    (hk : ¬ (env.uniqueNid = true ∧ nid ∈ w.charges.map (·.1))) :
    run (insertChargeRecord env nid record) w =
      (.ok (), { w with charges := w.charges ++ [(nid, record)] }) := by
  have hs : run (statement env ⟨.insert, .chargeInfo, nid⟩) w = (.ok (), w) := by
    rw [statement]
    rw [hf]
    rfl
  rw [insertChargeRecord]
  rw [run_bind_ok _ _ _ _ _ hs, run_bind_ok _ _ _ _ _ (run_state w), if_neg hk]
  rfl

theorem recordCheckout_returned (record : ChargeRecord)
    (h : run (recordCheckout env hdl json) w = (.ok record, t)) :
    ∃ chargeId n, Accepted env hdl json w record.enterId record.exitId record.exitComment chargeId ∧
      t = { w with ids := n, charges := w.charges ++ [(chargeId, record)] } := by
  unfold recordCheckout at h
  rw [readString_eq, readString_eq] at h
  obtain ⟨user, u1, h1, hr1⟩ := bind_returned _ _ _ _ _ h
  obtain ⟨hs, rfl⟩ := findUser_returned _ _ _ _ h1
  obtain ⟨enterId, u2, h2, hr2⟩ := bind_returned _ _ _ _ _ hr1
  obtain ⟨henter, rfl⟩ := ofExcept_returned _ _ _ _ h2
  obtain ⟨exitId, u3, h3, hr3⟩ := bind_returned _ _ _ _ _ hr2
  obtain ⟨hexit, rfl⟩ := ofExcept_returned _ _ _ _ h3
  obtain ⟨exit, u4, h4, hr4⟩ := bind_returned _ _ _ _ _ hr3
  have hq := query_done _ _ _ _ _ _ h4
  obtain ⟨rfl, rfl⟩ := query_returned _ _ _ _ _ _ h4
  obtain ⟨r, u5, h5, hr5⟩ := bind_returned _ _ _ _ _ hr4
  obtain ⟨rfl, rfl, rfl, hreads⟩ := checkoutRecord_returned _ _ _ _ _ _ _ _ _ h5
  obtain ⟨chargeId, u6, h6, hr6⟩ := bind_returned _ _ _ _ _ hr5
  obtain ⟨hid, n, rfl⟩ := chargeIdOf_returned _ _ _ _ _ h6
  obtain ⟨_, u7, h7, hr7⟩ := bind_returned _ _ _ _ _ hr6
  obtain ⟨hins, hkey⟩ := insertChargeRecord_key _ _ _ _ _ _ h7
  have hu7 := insertChargeRecord_returned _ _ _ _ _ _ h7
  cases hr7
  exact ⟨chargeId, n, ⟨hs, henter, hexit, hq, hreads, hid, hins, hkey⟩, hu7⟩

theorem run_recordCheckout (enterId exitId exitComment chargeId : String)
    (h : Accepted env hdl json w enterId exitId exitComment chargeId) :
    ∃ record t, run (recordCheckout env hdl json) w = (.ok record, t) ∧ record.enterId = enterId ∧
      record.exitId = exitId ∧ record.exitComment = exitComment := by
  obtain ⟨s, hs⟩ := h.session
  obtain ⟨parkingType, hreads, hmoney⟩ := h.reads
  obtain ⟨given, hgiven, hid⟩ := h.idText
  obtain ⟨record, hrecord, he, hx, hc⟩ := run_checkoutRecord env json s.user enterId exitId _ w exitComment
    parkingType hreads hmoney
  obtain ⟨n, hn⟩ := run_chargeIdOf env json w given hgiven
  rw [← hid] at hn
  have hins := run_insertChargeRecord env { w with ids := n } chargeId record h.insert h.key
  refine ⟨record, { w with ids := n, charges := w.charges ++ [(chargeId, record)] }, ?_, he, hx, hc⟩
  unfold recordCheckout queryPassVehicleByID
  rw [readString_eq, readString_eq, run_bind_ok _ _ _ _ _ (run_findUser hdl w s hs),
    run_bind_ok _ _ _ _ _ (run_ofExcept_ok _ _ w h.enterText),
    run_bind_ok _ _ _ _ _ (run_ofExcept_ok _ _ w h.exitText),
    run_bind_ok _ _ _ _ _ (run_query env _ _ _ h.exitRead), run_bind_ok _ _ _ _ _ hrecord,
    run_bind_ok _ _ _ _ _ hn, run_bind_ok _ _ _ _ _ hins]
  rfl

end First

/-- Deleting the row of the entry also lets the entrances show the spaces left. -/
def Deletes (env : Env) (w : World) (enterId : String) : Prop :=
  env.fails ⟨.delete, .innerCars, enterId⟩ = none ∧ env.fails ⟨.select, .sysConfig, "enter_greeting"⟩ = none ∧
    (w.config.enterGreeting = "" → (∀ s ∈ parkingStatements, env.fails s = none) ∧
      env.fails ⟨.select, .equipInfo, "videofunc"⟩ = none)

/-- What the display of the exit is asked to show when the gate is open. -/
def farewell (w : World) : Command :=
  if w.config.exitGreeting ≠ "" then .led (.greeting w.config.exitGreeting) none else .led .clear (some 0)

/-- The exit's device is found and carries out both commands. -/
def Opens (env : Env) (w : World) (exitId : String) : Prop :=
  env.fails ⟨.select, .equipInfo, exitId⟩ = none ∧ (onlyRow (devicesOfPass w exitId) {}).deviceId ≠ "" ∧
    env.device (onlyRow (devicesOfPass w exitId) {}).ip (.gate bgcOpen bgmAuto) = .done ∧
    env.fails ⟨.select, .sysConfig, "exit_greeting"⟩ = none ∧
    env.device (onlyRow (devicesOfPass w exitId) {}).ip (farewell w) = .done

/-- Nothing fails once the record is there. -/
def Completes (env : Env) (w : World) (enterId exitId exitComment : String) : Prop :=
  (exitComment ≠ noEntry → enterId ≠ "" → Deletes env w enterId) ∧ Opens env w exitId

section Second

variable (env : Env) (w : World)

theorem returns_showLedAfterCharge (ip : String) : Returns (showLedAfterCharge env ip) w ↔
    env.fails ⟨.select, .sysConfig, "exit_greeting"⟩ = none ∧ env.device ip (farewell w) = .done := by
  unfold showLedAfterCharge queryExitGreeting queryConfig
  rw [returns_query]
  unfold farewell ledShowGreeting operateLed
  split_ifs with hg
  · rw [returns_dtsOperate]
  · rw [returns_dtsOperate]

theorem returns_openExit (exitId : String) : Returns (openExit env exitId) w ↔ Opens env w exitId := by
  unfold openExit queryDeviceByPassID Opens
  rw [returns_query]
  refine and_congr_right fun _ => ?_
  split_ifs with hd
  · refine iff_of_false ?_ fun h => h.1 hd
    rintro ⟨a, t, h⟩
    cases h
  · rw [returns_bind]
    constructor
    · rintro ⟨a, t, h, hled⟩
      have hdone := (returns_dtsOperate env w _ _).mp ⟨a, t, h⟩
      unfold operateGateway at h
      rw [run_dtsOperate env _ _ w hdone] at h
      cases h
      have hshown := (returns_showLedAfterCharge env _ _).mp hled
      exact ⟨hd, hdone, hshown⟩
    · rintro ⟨-, hdone, hled⟩
      exact ⟨(), _, run_dtsOperate env _ _ w hdone, (returns_showLedAfterCharge env _ _).mpr hled⟩

theorem returns_notifyRemainParking : Returns (notifyRemainParkingToAllDevice env) w ↔
    (∀ s ∈ parkingStatements, env.fails s = none) ∧ env.fails ⟨.select, .equipInfo, "videofunc"⟩ = none := by
  rw [notifyRemainParkingToAllDevice, queryEntranceDeviceList]
  rw [returns_bind]
  constructor
  · rintro ⟨number, t, hn, hrest⟩
    obtain ⟨a, u, hs, hp⟩ := bind_returned _ _ _ _ _ hn
    exact ⟨(returns_statements env w _).mp ⟨a, u, hs⟩, ((returns_query env t _ _ _).mp hrest).1⟩
  · rintro ⟨hs, he⟩
    refine ⟨_, w, run_queryParkingNumber env w hs, (returns_query env w _ _ _).mpr ⟨he, ?_⟩⟩
    obtain ⟨t, ht⟩ := run_forEach_tolerate _ _ _
    exact ⟨(), t, ht⟩

theorem returns_refreshEntranceLeds : Returns (refreshEntranceLeds env) w ↔
    env.fails ⟨.select, .sysConfig, "enter_greeting"⟩ = none ∧
      (w.config.enterGreeting = "" → (∀ s ∈ parkingStatements, env.fails s = none) ∧
        env.fails ⟨.select, .equipInfo, "videofunc"⟩ = none) := by
  rw [refreshEntranceLeds, queryEntranceGreeting, queryConfig]
  rw [returns_query]
  refine and_congr_right fun _ => ?_
  split_ifs with hg
  · rw [returns_notifyRemainParking]
    exact ⟨fun h _ => h, fun h => h hg⟩
  · exact iff_of_true ⟨(), w, rfl⟩ fun h => absurd h hg

theorem returns_deleteTemporaryPassrecord (enterId : String) (hne : enterId ≠ "") :
    Returns (deleteTemporaryPassrecord env enterId) w ↔ Deletes env w enterId := by
  rw [deleteTemporaryPassrecord, Deletes]
  rw [if_pos hne, returns_bind]
  constructor
  · rintro ⟨a, t, hd, hrest⟩
    obtain rfl := execute_returned _ _ _ _ _ _ hd
    have hleds := (returns_refreshEntranceLeds env _).mp hrest
    exact ⟨execute_done _ _ _ _ _ _ hd, hleds⟩
  · rintro ⟨hd, hrest⟩
    exact ⟨(), _, run_execute env _ _ w hd, (returns_refreshEntranceLeds env _).mpr hrest⟩

theorem returns_deleteUnlessNoEntry (enterId exitComment : String) :
    Returns (deleteUnlessNoEntry env exitComment enterId) w ↔
      (exitComment ≠ noEntry → enterId ≠ "" → Deletes env w enterId) := by
  rw [deleteUnlessNoEntry]
  split_ifs with hc
  · by_cases he : enterId = ""
    · refine iff_of_true ⟨(), w, ?_⟩ fun _ hne => absurd he hne
      rw [deleteTemporaryPassrecord, if_neg (not_not.mpr he)]
      rfl
    · rw [returns_deleteTemporaryPassrecord env w enterId he]
      exact ⟨fun h _ _ => h, fun h => h hc he⟩
  · exact iff_of_true ⟨(), w, rfl⟩ fun h => absurd h hc

theorem deleteUnlessNoEntry_returned (enterId exitComment : String) (t : World) (a : Unit)
    (h : run (deleteUnlessNoEntry env exitComment enterId) w = (.ok a, t)) :
    ∃ cars sent, t = { w with innerCars := cars, sent } := by
  unfold deleteUnlessNoEntry at h
  split_ifs at h
  · exact ⟨_, _, deleteTemporaryPassrecord_returned env enterId w t a h⟩
  · cases h
    exact ⟨w.innerCars, w.sent, rfl⟩

theorem returns_finishCheckout (record : ChargeRecord) : Returns (finishCheckout env record) w ↔
    Completes env w record.enterId record.exitId record.exitComment := by
  have hopen : ∀ cars sent, Returns (openExit env record.exitId) { w with innerCars := cars, sent } ↔
      Opens env w record.exitId := fun cars sent => returns_openExit env _ _
  rw [finishCheckout, Completes]
  rw [returns_bind, ← returns_deleteUnlessNoEntry]
  constructor
  · rintro ⟨a, t, hd, ho⟩
    obtain ⟨cars, sent, rfl⟩ := deleteUnlessNoEntry_returned env w _ _ _ _ hd
    exact ⟨⟨a, _, hd⟩, (hopen cars sent).mp ho⟩
  · rintro ⟨⟨a, t, hd⟩, ho⟩
    obtain ⟨cars, sent, rfl⟩ := deleteUnlessNoEntry_returned env w _ _ _ _ hd
    exact ⟨a, _, hd, (hopen cars sent).mpr ho⟩

end Second

section Request

variable (env : Env) (hdl : Handle) (msg : List UInt8) (w : World) (members : List (String × Json.Value))
variable (hp : env.parse msg = .accepted (.object members))
variable (hc : members.lookup "CmdType" = some (.string "Checkout"))

/-- A client that has been told of an error. -/
def answeredError (hdl : Handle) (w w' : World) : Prop :=
  ∃ r ∈ w'.responses.drop w.responses.length, r.handle = hdl ∧ r.ok = false

def recordsOf (id : String) (w : World) : ℕ := (w.charges.filter (·.1 = id)).length

/-- An error leaves both tables alone, so that the request can be sent again:
the second attempt makes the first record of its id, and no key stands in its way. -/
structure AtomicOnError (env : Env) (hdl : Handle) (msg : List UInt8) (w w' : World) : Prop where
  unchanged : answeredError hdl w w' → w'.charges = w.charges ∧ w'.innerCars = w.innerCars
  resend : answeredError hdl w w' → ∀ env' : Env, env'.parse msg = env.parse msg → ∀ id,
    recordsOf id (run (clientRequest env' hdl msg) w').2 ≤ recordsOf id w + 1
  key : answeredError hdl w w' → ∀ id, id ∈ w'.charges.map (·.1) → id ∈ w.charges.map (·.1)

/-- The tables a checkout writes and the responses. -/
def books (w : World) : List (String × ChargeRecord) × List InnerCar × List Response :=
  (w.charges, w.innerCars, w.responses)

theorem fails_insertChargeRecord (nid : String) (record : ChargeRecord) :
    Fails (SameAt books) (insertChargeRecord env nid record) :=
  fails_bind (steps_statement env _) fun _ => fails_bind steps_state fun _ =>
    fails_ite _ (fails_of_steps (steps_raise _)) fun _ _ _ h => by cases h

theorem fails_recordCheckout (json : Json.Value) : Fails (SameAt books) (recordCheckout env hdl json) :=
  fails_bind (steps_findUser hdl) fun user => fails_bind (steps_readString json _) fun enterId =>
    fails_bind (steps_readString json _) fun exitId => fails_bind (steps_query env _ _) fun exit =>
      fails_bind (steps_checkoutRecord json env user enterId exitId exit) fun record =>
        fails_bind (steps_chargeIdOf json env fun _ _ => rfl) fun id =>
          fails_bind_total (fails_insertChargeRecord env id record) fun _ _ => rfl

/-- The three ways a checkout goes. -/
theorem onCheckout_cases (json : Json.Value) :
    (∃ e t, run (onCheckout env hdl json) w = (.error e, t) ∧ ¬ Returns (recordCheckout env hdl json) w ∧
      t.charges = w.charges ∧ t.innerCars = w.innerCars ∧ t.responses = w.responses) ∨
    (∃ e t record u id, run (onCheckout env hdl json) w = (.error e, t) ∧
      run (recordCheckout env hdl json) w = (.ok record, u) ∧ ¬ Returns (finishCheckout env record) u ∧
      t.charges = w.charges ++ [(id, record)] ∧ t.responses = w.responses) ∨
    (∃ t record u id r, run (onCheckout env hdl json) w = (.ok (), t) ∧
      run (recordCheckout env hdl json) w = (.ok record, u) ∧ Returns (finishCheckout env record) u ∧
      t.charges = w.charges ++ [(id, record)] ∧ t.responses = w.responses ++ [r] ∧ r.ok = true) := by
  rw [onCheckout]
  match hr : run (recordCheckout env hdl json) w with
  | (.error e, t) =>
    have hsame := fails_recordCheckout env hdl json w e t hr
    obtain ⟨hcharges, hinner, hresp⟩ : t.charges = w.charges ∧ t.innerCars = w.innerCars ∧
        t.responses = w.responses := by simpa [SameAt, books] using hsame
    refine .inl ⟨e, t, run_bind_error _ _ _ _ _ hr, ?_, hcharges, hinner, hresp⟩
    rintro ⟨a, u, h⟩
    rw [hr] at h
    cases h
  | (.ok record, u) =>
    obtain ⟨id, n, -, hu⟩ := recordCheckout_returned env hdl json w u record hr
    have hfin : Steps (SameAt fun w : World => (w.charges, w.responses)) (finishCheckout env record) :=
      steps_finishCheckout (fun _ _ => rfl) env (fun _ _ => rfl) record
    rw [run_bind_ok _ _ _ _ _ hr]
    match hf : run (finishCheckout env record) u with
    | (.error e, t) =>
      have hsame := steps_returned hfin u t (.error e) hf
      rw [hu] at hsame
      obtain ⟨hcharges, hresp⟩ : t.charges = w.charges ++ [(id, record)] ∧ t.responses = w.responses := by
        simpa [SameAt] using hsame
      refine .inr (.inl ⟨e, t, record, u, id, run_bind_error _ _ _ _ _ hf, rfl, ?_, hcharges, hresp⟩)
      rintro ⟨a, v, h⟩
      rw [hf] at h
      cases h
    | (.ok a, t) =>
      have hsame := steps_returned hfin u t (.ok a) hf
      rw [hu] at hsame
      obtain ⟨hcharges, hresp⟩ : t.charges = w.charges ++ [(id, record)] ∧ t.responses = w.responses := by
        simpa [SameAt] using hsame
      refine .inr (.inr ⟨_, record, u, id, { handle := hdl, cmdType := "CheckoutResponse", ok := true },
        run_bind_ok _ _ _ _ _ hf, rfl, ⟨a, t, hf⟩, hcharges, ?_, rfl⟩)
      rw [← hresp]

include hp hc

theorem run_clientRequest_checkout : (run (clientRequest env hdl msg) w).2 =
    match run (onCheckout env hdl (.object members)) w with
    | (.ok _, t) => t
    | (.error e, t) => { t with responses := t.responses ++ [errorResponse hdl "Checkout" e] } := by
  have href : (Json.Value.object members).resolveReference "CmdType" =
      .ok (.string "Checkout", .object members) := by simp only [Json.Value.resolveReference, hc]
  have hserve : run (serve env hdl (env.parse msg)) w = run (onCheckout env hdl (.object members)) w := by
    rw [hp, serve, run_bind_ok _ _ _ _ _ (run_readCmdType _ _ _ "Checkout" w href rfl)]
    rfl
  have hroot : rootAfter (env.parse msg) = .object members := by
    rw [hp]
    simp only [rootAfter, href]
  rw [clientRequest, run_handle, hserve, hroot]
  obtain ⟨e | a, t⟩ := run (onCheckout env hdl (.object members)) w
  · show (run (reportError hdl (.object members) e) t).2 = _
    rw [reportError, run_bind_ok _ _ _ _ _ (run_readCmdType _ _ _ "Checkout" t href rfl)]
    rfl
  · rfl

/-- A checkout adds at most one record. -/
theorem recordsOf_clientRequest (id : String) :
    recordsOf id (run (clientRequest env hdl msg) w).2 ≤ recordsOf id w + 1 := by
  have hone : ∀ t : World, (t.charges = w.charges ∨ ∃ r, t.charges = w.charges ++ [r]) →
      recordsOf id t ≤ recordsOf id w + 1 := by
    rintro t (h | ⟨r, h⟩)
    · rw [recordsOf]
      rw [h]
      exact Nat.le_succ _
    · rw [recordsOf]
      rw [h, List.filter_append, List.length_append]
      exact Nat.add_le_add_left (List.length_filter_le _ [r]) _
  rw [run_clientRequest_checkout env hdl msg w members hp hc]
  obtain ⟨e, t, ht, -, hch, -⟩ | ⟨e, t, r, u, i, ht, -, -, hch, -⟩ | ⟨t, r, u, i, s, ht, -, -, hch, -⟩ :=
    onCheckout_cases env hdl w (.object members)
  · rw [ht]
    exact hone _ (.inl hch)
  · rw [ht]
    exact hone _ (.inr ⟨_, hch⟩)
  · rw [ht]
    exact hone _ (.inr ⟨_, hch⟩)

/-- An error leaves the tables alone exactly when every request that gets its
record also gets its gate opened. -/
theorem checkout_atomic_iff : AtomicOnError env hdl msg w (run (clientRequest env hdl msg) w).2 ↔
    ∀ enterId exitId exitComment chargeId,
      Accepted env hdl (.object members) w enterId exitId exitComment chargeId →
      Completes env w enterId exitId exitComment := by
  have hresend := fun (env' : Env) (h' : env'.parse msg = env.parse msg) w' =>
    recordsOf_clientRequest env' hdl msg w' members (h'.trans hp) hc
  have hrun := run_clientRequest_checkout env hdl msg w members hp hc
  obtain ⟨e, t, ht, hno, hch, hin, hre⟩ | ⟨e, t, r, u, i, ht, hrec, hno, hch, hre⟩ |
    ⟨t, r, u, i, s, ht, hrec, hyes, hch, hre, hok⟩ := onCheckout_cases env hdl w (.object members)
  · rw [ht] at hrun
    dsimp only at hrun
    refine iff_of_true ⟨fun _ => ?_, fun _ env' h' id => ?_, fun _ id hid => ?_⟩ ?_
    · rw [hrun]
      exact ⟨hch, hin⟩
    · have h := hresend env' h' (run (clientRequest env hdl msg) w).2 id
      rwa [show recordsOf id (run (clientRequest env hdl msg) w).2 = recordsOf id w by
        rw [hrun, recordsOf, recordsOf, hch]] at h
    · rw [hrun] at hid
      rwa [← hch]
    · intro enterId exitId comment id hacc
      obtain ⟨record, v, hv, -⟩ := run_recordCheckout env hdl _ w _ _ _ _ hacc
      exact absurd ⟨record, v, hv⟩ hno
  · rw [ht] at hrun
    dsimp only at hrun
    refine iff_of_false ?_ ?_
    · intro ha
      have herr : answeredError hdl w (run (clientRequest env hdl msg) w).2 := by
        refine ⟨errorResponse hdl "Checkout" e, ?_, ?_⟩
        · rw [hrun, hre, List.drop_left]
          exact List.mem_singleton_self _
        · cases e <;> exact ⟨rfl, rfl⟩
      have hsame := (ha.unchanged herr).1
      rw [hrun, hch] at hsame
      simp at hsame
    · intro hall
      obtain ⟨id, n, hacc, hu⟩ := recordCheckout_returned env hdl _ w u r hrec
      have hcomp := hall _ _ _ _ hacc
      apply hno
      rw [returns_finishCheckout, hu]
      exact hcomp
  · rw [ht] at hrun
    dsimp only at hrun
    have herr : ¬ answeredError hdl w (run (clientRequest env hdl msg) w).2 := by
      rintro ⟨x, hx, -, hfalse⟩
      rw [hrun, hre, List.drop_left, List.mem_singleton] at hx
      rw [hx, hok] at hfalse
      cases hfalse
    refine iff_of_true ⟨fun h => absurd h herr, fun h => absurd h herr, fun h => absurd h herr⟩ ?_
    intro enterId exitId comment id hacc
    obtain ⟨record, v, hv, rfl, rfl, rfl⟩ := run_recordCheckout env hdl _ w _ _ _ _ hacc
    rw [hrec] at hv
    cases hv
    obtain ⟨id', n, -, hu⟩ := recordCheckout_returned env hdl _ w u r hrec
    rw [returns_finishCheckout, hu] at hyes
    exact hyes

end Request

def checkoutMessage : List UInt8 :=
  ("\x7b\"CmdType\":\"Checkout\",\"EnterID\":\"e1\",\"ExitID\":\"x1\",\"Charge\":5,\"ActualCharge\":5," ++
    "\"PayType\":1,\"ParkingType\":9,\"ExitType\":2,\"ChargeID\":\"c1\"\x7d").toUTF8.data.toList

def checkoutMembers : List (String × Json.Value) :=
  [("CmdType", .string "Checkout"), ("EnterID", .string "e1"), ("ExitID", .string "x1"), ("Charge", .int 5),
    ("ActualCharge", .int 5), ("PayType", .int 1), ("ParkingType", .int 9), ("ExitType", .int 2),
    ("ChargeID", .string "c1")]

/-- Everything works except, perhaps, the gate. -/
def gateEnv (outcome : DeviceOutcome) : Env :=
  { quietEnv with
    parse := fun _ => .accepted (.object checkoutMembers)
    device := fun _ cmd => if cmd = .gate bgcOpen bgmAuto then outcome else .done }

def exitWorld : World where
  sessions := [(1, { user := { user := "op", password := "" } })]
  innerCars := [{ nid := "e1" }]
  detects := [{ passId := "x1", passDirection := 10, deviceId := "d1", passTime := 43200 }]
  equips := [{ deviceId := "d1", ip := "10.0.0.9", type := 10 }]

theorem checkout_atomic_iff_gate : checkoutMembers.lookup "CmdType" = some (.string "Checkout") ∧
    (AtomicOnError (gateEnv .done) 1 checkoutMessage exitWorld
      (run (clientRequest (gateEnv .done) 1 checkoutMessage) exitWorld).2 ↔
      ∀ enterId exitId exitComment chargeId,
        Accepted (gateEnv .done) 1 (.object checkoutMembers) exitWorld enterId exitId exitComment chargeId →
        Completes (gateEnv .done) exitWorld enterId exitId exitComment) :=
  ⟨rfl, checkout_atomic_iff (gateEnv .done) 1 checkoutMessage exitWorld checkoutMembers rfl rfl⟩

/-- The exit's device is not connected: the client is told of an error, and the
payment is booked. -/
theorem disconnected_gate_keeps_record :
    (run (clientRequest (gateEnv .notConnected) 1 checkoutMessage) exitWorld).2.charges.length = 1 ∧
    (run (clientRequest (gateEnv .notConnected) 1 checkoutMessage) exitWorld).2.innerCars = [] ∧
    ¬ AtomicOnError (gateEnv .notConnected) 1 checkoutMessage exitWorld
      (run (clientRequest (gateEnv .notConnected) 1 checkoutMessage) exitWorld).2 := by
  have hinner : (run (clientRequest (gateEnv .notConnected) 1 checkoutMessage) exitWorld).2.innerCars = [] := by
    decide +kernel
  refine ⟨by decide, hinner, ?_⟩
  intro ha
  have herr : ((run (clientRequest (gateEnv .notConnected) 1 checkoutMessage) exitWorld).2.responses.drop
      exitWorld.responses.length).any (fun r => decide (r.handle = 1 ∧ r.ok = false)) = true := by
    decide
  obtain ⟨r, hr, hd⟩ := List.any_eq_true.mp herr
  have hsame := (ha.unchanged ⟨r, hr, of_decide_eq_true hd⟩).2
  rw [hinner] at hsame
  cases hsame

end BitPark.Checkout
