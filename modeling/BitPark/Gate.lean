import BitPark.Devices

namespace BitPark.Gate

open BitPark.Effect BitPark.Server BitPark.Database BitPark.Devices

/-- The loop of `StringSplit`. A separator at the very start is skipped, and
the last piece is only kept if the text does not end with a separator. -/
def splitLoop (sep : Char) : Bool → List Char → List Char → List (List Char)
  | _, _, [] => []
  | first, piece, c :: cs =>
    if c = sep ∧ first then splitLoop sep false piece cs
    else if c = sep then piece :: splitLoop sep false [] cs
    else if cs = [] then [piece ++ [c]]
    else splitLoop sep false (piece ++ [c]) cs

def stringSplit (s : String) (sep : Char) : List (List Char) := splitLoop sep true [] s.toList

def digitsValue (cs : List Char) : ℤ :=
  (cs.takeWhile Char.isDigit).foldl (fun n c => n * 10 + (c.toNat - '0'.toNat : ℕ)) 0

def isSpace (c : Char) : Bool := c = ' ' || (9 ≤ c.toNat && c.toNat ≤ 13)

def atoi (cs : List Char) : ℤ :=
  match cs.dropWhile isSpace with
  | '-' :: ds => -digitsValue ds
  | '+' :: ds => digitsValue ds
  | ds => digitsValue ds

def limitedTypes (limit : String) : List ℤ := (stringSplit limit ';').map atoi

def queryWaitVehicleInfoRes (env : Env) : Proc Bool := do
  let waits ← queryWaitVehicleInfo env
  pure !waits.isEmpty

def openForMember (env : Env) (deviceIp : String) (remainNum : ℤ) : Proc Unit := do
  operateGateway env deviceIp bgcCancleClose bgmManual
  operateGateway env deviceIp bgcOpen bgmAuto
  if remainNum > 0 then pure () else operateGateway env deviceIp bgcKeepClose bgmManual

def cancelCloseIfWaiting (env : Env) (deviceIp : String) : Proc Unit := do
  if ← queryWaitVehicleInfoRes env then operateGateway env deviceIp bgcCancleClose bgmManual else pure ()

def openLast (env : Env) (deviceIp : String) (remainNum : ℤ) : Proc Unit := do
  cancelCloseIfWaiting env deviceIp
  operateGateway env deviceIp bgcOpen bgmAuto
  let devices ← queryEntranceDeviceList env
  forEach devices fun dev => tolerate do
    ledShowRemainParkingNumber env dev.ip remainNum
    operateGateway env dev.ip bgcKeepClose bgmManual

def clearWaiting (env : Env) (deviceIp : String) : Proc Unit := do
  let found ← queryWaitVehicleByDeviceIp env deviceIp
  if found.isSome then deleteWaitVehicleByDeviceIp env deviceIp else pure ()

def bindRemainNum (env : Env) (deviceIp plate : String) (remainNum : ℤ) : Proc Unit := do
  if remainNum = 0 then openLast env deviceIp remainNum
  else if remainNum < 0 then
    clearWaiting env deviceIp
    insertWaitVehicleInfo env { deviceIp, plateNumber := plate }
  else if ← queryWaitVehicleInfoRes env then
    operateGateway env deviceIp bgcCancleClose bgmManual
    operateGateway env deviceIp bgcOpen bgmAuto
  else pure ()

def remainParkingNumberBind (env : Env) (deviceIp plate : String) (remainNum bindType : ℤ) : Proc Unit := do
  if bindType = 2 then
    let vip ← queryVIPVehicle env plate
    if vip.isSome then openForMember env deviceIp remainNum else bindRemainNum env deviceIp plate remainNum
  else bindRemainNum env deviceIp plate remainNum

def autoOpenEntranceGateway (env : Env) (deviceIp plate : String) (plateType : ℤ) : Proc Unit := tolerate do
  ledShowPlateNumber env deviceIp plate
  let limit ← queryLimitPlateType env
  if plateType ∈ limitedTypes limit then pure ()
  else
    let judge ← queryJudgeRemainParkingNumber env
    if judge = 0 then operateGateway env deviceIp bgcOpen bgmAuto
    else
      let number ← queryParkingNumber env
      if judge = 1 then remainParkingNumberBind env deviceIp plate number.realRemainParking judge
      else if judge = 2 then remainParkingNumberBind env deviceIp plate number.realTemporaryParking judge
      else pure ()

def isOpen : Command → Bool
  | .gate action _ => action = bgcOpen
  | _ => false

/-- Between two states the device was told to open its gate. -/
def Opened (w w' : World) (ip : String) : Prop :=
  ∃ c ∈ w'.sent.drop w.sent.length, c.1 = ip ∧ isOpen c.2 = true

/-- The remaining number a setting looks at, with the members exempted by it. -/
def exempt (w : World) (plate : String) : Bool :=
  w.config.judgeRemainParkingNumber = 2 && (vipOf w plate).isSome

def remaining (w : World) : ℤ :=
  if w.config.judgeRemainParkingNumber = 2 then (parkingNumber w).realTemporaryParking
  else (parkingNumber w).realRemainParking

/-- The setting makes the gate depend on the number of spaces. -/
def Counted (w : World) : Prop :=
  w.config.judgeRemainParkingNumber = 1 ∨ w.config.judgeRemainParkingNumber = 2

/-- Who is let in: everybody if spaces are not counted, members exempt from
counting, and everybody while no space is missing. Who is not waits at the device. -/
structure Admits (w w' : World) (ip plate : String) : Prop where
  uncounted : w.config.judgeRemainParkingNumber = 0 → Opened w w' ip
  admitted : Counted w → exempt w plate = true ∨ 0 ≤ remaining w → Opened w w' ip
  refused : Counted w → exempt w plate = false → remaining w < 0 →
    ¬ Opened w w' ip ∧ ∃ row, w'.waits.filter (·.deviceIp = ip) = [row] ∧ row.plateNumber = plate

theorem opened_extends (w w' : World) (ip : String) (cmds : List (String × Command))
    (h : w.sent ++ cmds <+: w'.sent) (mode : ℤ) (hc : (ip, Command.gate bgcOpen mode) ∈ cmds) :
    Opened w w' ip := by
  obtain ⟨rest, hr⟩ := h
  refine ⟨(ip, .gate bgcOpen mode), ?_, rfl, by simp [isOpen]⟩
  rw [← hr, List.append_assoc, List.drop_left]
  exact List.mem_append_left rest hc

theorem not_opened (w w' : World) (ip : String) (cmds : List (String × Command))
    (h : w'.sent = w.sent ++ cmds) (hc : ∀ c ∈ cmds, isOpen c.2 = false) : ¬ Opened w w' ip := by
  rintro ⟨c, hm, -, ho⟩
  rw [h, List.drop_left] at hm
  rw [hc c hm] at ho
  cases ho

/-- The state once the device shows the plate. -/
def shown (w : World) (ip plate : String) : World :=
  { w with sent := w.sent ++ [(ip, .led (.plate plate) (some ledShowPlatenumberTime))] }

/-- Nothing that was sent is taken back. -/
def SentGrows (w w' : World) : Prop := w.sent <+: w'.sent

instance : IsPreorder World SentGrows where
  refl _ := List.prefix_rfl
  trans _ _ _ := List.IsPrefix.trans

theorem sentGrows_send (w : World) (c : String × Command) : SentGrows w { w with sent := w.sent ++ [c] } :=
  List.prefix_append _ _

theorem opened_after (w u w' : World) (ip : String) (c : String × Command) (hu : u.sent = w.sent ++ [c])
    (hc : isOpen c.2 = false) (hg : SentGrows u w') : Opened w w' ip ↔ Opened u w' ip := by
  obtain ⟨rest, hr⟩ := hg
  have hw : w'.sent.drop w.sent.length = c :: rest := by
    rw [← hr, hu, List.append_assoc, List.drop_left]
    rfl
  have hu' : w'.sent.drop u.sent.length = rest := by rw [← hr, List.drop_left]
  unfold Opened
  rw [hw, hu']
  constructor
  · rintro ⟨x, hx, hip, ho⟩
    rcases List.mem_cons.mp hx with rfl | hx
    · rw [hc] at ho
      cases ho
    · exact ⟨x, hx, hip, ho⟩
  · rintro ⟨x, hx, h⟩
    exact ⟨x, List.mem_cons_of_mem c hx, h⟩

section Frame

variable {R : World → World → Prop} [IsPreorder World R] (env : Env) (ip plate : String)
variable (hself : ∀ w cmd, R w { w with sent := w.sent ++ [(ip, cmd)] })
variable (hothers : ∀ w ip' cmd, isOpen cmd = false → R w { w with sent := w.sent ++ [(ip', cmd)] })
variable (hwaits : ∀ w l, R w { w with waits := l })
include hself hothers hwaits

/-- The device itself is sent anything, the other entrances are only shown numbers and closed. -/
theorem steps_remainParkingNumberBind (n bindType : ℤ) : Steps R (remainParkingNumberBind env ip plate n bindType) := by
  have hop : ∀ cmd, Steps R (dtsOperate env ip cmd) := fun cmd => steps_send env ip cmd fun w => hself w cmd
  have hres : Steps R (queryWaitVehicleInfoRes env) := steps_bind (steps_query env _ _) fun _ => steps_pure _
  have hmember : Steps R (openForMember env ip n) :=
    steps_bind (hop _) fun _ => steps_bind (hop _) fun _ => steps_ite _ (steps_pure ()) (hop _)
  have hlast : Steps R (openLast env ip n) :=
    steps_bind (steps_bind hres fun _ => steps_ite _ (hop _) (steps_pure ())) fun _ =>
      steps_bind (hop _) fun _ => steps_bind (steps_query env _ _) fun devices =>
        steps_forEach devices _ fun dev _ => steps_tolerate
          (steps_bind (steps_send env dev.ip _ fun w => hothers w dev.ip _ rfl) fun _ =>
            steps_send env dev.ip _ fun w => hothers w dev.ip _ rfl)
  have hclear : Steps R (clearWaiting env ip) :=
    steps_bind (steps_query env _ _) fun _ =>
      steps_ite _ (steps_execute env _ _ fun w => hwaits w _) (steps_pure ())
  have hrest : Steps R (bindRemainNum env ip plate n) :=
    steps_ite _ hlast (steps_ite _
      (steps_bind hclear fun _ => steps_execute env _ _ fun w => hwaits w _)
      (steps_bind hres fun _ => steps_ite _ (steps_bind (hop _) fun _ => hop _) (steps_pure ())))
  exact steps_ite _ (steps_bind (steps_query env _ _) fun _ => steps_ite _ hmember hrest) hrest

theorem steps_autoOpenEntranceGateway (plateType : ℤ) : Steps R (autoOpenEntranceGateway env ip plate plateType) := by
  have hbind := fun n bindType => steps_remainParkingNumberBind env ip plate hself hothers hwaits n bindType
  have hop : ∀ cmd, Steps R (dtsOperate env ip cmd) := fun cmd => steps_send env ip cmd fun w => hself w cmd
  exact steps_tolerate <| steps_bind (hop _) fun _ => steps_bind (steps_query env _ _) fun _ =>
    steps_ite _ (steps_pure ()) <| steps_bind (steps_query env _ _) fun _ => steps_ite _ (hop _) <|
      steps_bind (steps_queryParkingNumber env) fun _ =>
        steps_ite _ (hbind _ _) (steps_ite _ (hbind _ _) (steps_pure ()))

end Frame

theorem sentGrows_bind (env : Env) (ip plate : String) (n bindType : ℤ) :
    Steps SentGrows (remainParkingNumberBind env ip plate n bindType) :=
  steps_remainParkingNumberBind env ip plate (fun w _ => sentGrows_send w _) (fun w _ _ _ => sentGrows_send w _)
    (fun _ _ => List.prefix_rfl) n bindType

section Run

variable (env : Env) (hdb : ∀ s, env.fails s = none) (ip plate : String)
variable (hdev : ∀ cmd, env.device ip cmd = .done) (w : World)

section

include hdev

theorem run_openForMember (n : ℤ) : ∃ t cmds, run (openForMember env ip n) w = (.ok (), t) ∧
    w.sent ++ cmds <+: t.sent ∧ (ip, Command.gate bgcOpen bgmAuto) ∈ cmds := by
  unfold openForMember operateGateway
  rw [run_bind_ok _ _ _ _ _ (run_dtsOperate env ip _ _ (hdev _)),
    run_bind_ok _ _ _ _ _ (run_dtsOperate env ip _ _ (hdev _))]
  split_ifs
  · exact ⟨_, [(ip, .gate bgcCancleClose bgmManual), (ip, .gate bgcOpen bgmAuto)], rfl, by simp, by simp⟩
  · exact ⟨_, [(ip, .gate bgcCancleClose bgmManual), (ip, .gate bgcOpen bgmAuto)],
      run_dtsOperate env ip _ _ (hdev _), by simp, by simp⟩

end

include hdb

theorem run_queryWaitVehicleInfoRes : run (queryWaitVehicleInfoRes env) w = (.ok !w.waits.isEmpty, w) := by
  rw [queryWaitVehicleInfoRes, queryWaitVehicleInfo]
  rw [run_bind_ok _ _ _ _ _ (run_query env _ _ _ (hdb _))]
  rfl

theorem run_clearWaiting :
    run (clearWaiting env ip) w = (.ok (), { w with waits := w.waits.filter (·.deviceIp ≠ ip) }) := by
  rw [clearWaiting, queryWaitVehicleByDeviceIp]
  rw [run_bind_ok _ _ _ _ _ (run_query env _ _ _ (hdb _))]
  split_ifs with hf
  · exact run_execute env _ _ _ (hdb _)
  · have hall : w.waits.filter (·.deviceIp ≠ ip) = w.waits := by
      rw [List.filter_eq_self]
      intro row hrow
      rw [Bool.not_eq_true, Option.isSome_eq_false_iff, Option.isNone_iff_eq_none, List.find?_eq_none] at hf
      simpa using hf row hrow
    rw [hall]
    rfl

/-- Whoever has to wait takes the device's only place in the waiting table. -/
theorem run_bindRemainNum_full (n : ℤ) (hn : n < 0) :
    run (bindRemainNum env ip plate n) w = (.ok (), { w with
      waits := w.waits.filter (·.deviceIp ≠ ip) ++ [{ deviceIp := ip, plateNumber := plate }] }) := by
  rw [bindRemainNum]
  rw [if_neg (by omega), if_pos hn, run_bind_ok _ _ _ _ _ (run_clearWaiting env hdb ip w)]
  exact run_execute env _ _ _ (hdb _)

include hdev

theorem run_bindRemainNum_free (n : ℤ) (hn : 0 < n) :
    run (bindRemainNum env ip plate n) w = (.ok (), if w.waits = [] then w else
      { w with sent := w.sent ++ [(ip, .gate bgcCancleClose bgmManual), (ip, .gate bgcOpen bgmAuto)] }) := by
  unfold bindRemainNum operateGateway
  rw [if_neg (by omega), if_neg (by omega),
    run_bind_ok _ _ _ _ _ (run_queryWaitVehicleInfoRes env hdb w)]
  by_cases hw : w.waits = []
  · rw [if_pos hw, if_neg (by simp [hw])]
    rfl
  · rw [if_neg hw, if_pos (by simp [hw]), run_bind_ok _ _ _ _ _ (run_dtsOperate env ip _ _ (hdev _)),
      run_dtsOperate env ip _ _ (hdev _)]
    simp

theorem run_cancelCloseIfWaiting : ∃ cmds, run (cancelCloseIfWaiting env ip) w =
    (.ok (), { w with sent := w.sent ++ cmds }) := by
  rw [cancelCloseIfWaiting]
  rw [run_bind_ok _ _ _ _ _ (run_queryWaitVehicleInfoRes env hdb w)]
  split_ifs
  · exact ⟨[(ip, .gate bgcCancleClose bgmManual)], run_dtsOperate env ip _ _ (hdev _)⟩
  · exact ⟨[], by rw [List.append_nil]; rfl⟩

theorem run_openLast (n : ℤ) : ∃ t cmds, run (openLast env ip n) w = (.ok (), t) ∧
    w.sent ++ cmds <+: t.sent ∧ (ip, Command.gate bgcOpen bgmAuto) ∈ cmds := by
  obtain ⟨cmds, hc⟩ := run_cancelCloseIfWaiting env hdb ip hdev w
  rw [openLast, operateGateway, queryEntranceDeviceList]
  rw [run_bind_ok _ _ _ _ _ hc, run_bind_ok _ _ _ _ _ (run_dtsOperate env ip _ _ (hdev _)),
    run_bind_ok _ _ _ _ _ (run_query env _ _ _ (hdb _))]
  obtain ⟨t, ht⟩ := run_forEach_tolerate (w.equips.filter (·.type = parkEntrance)) (fun dev => do
    ledShowRemainParkingNumber env dev.ip n
    dtsOperate env dev.ip (.gate bgcKeepClose bgmManual))
      { w with sent := w.sent ++ cmds ++ [(ip, .gate bgcOpen bgmAuto)] }
  refine ⟨t, cmds ++ [(ip, .gate bgcOpen bgmAuto)], ht, ?_, by simp⟩
  have hg := steps_forEach (R := SentGrows) (w.equips.filter (·.type = parkEntrance))
    (fun dev => tolerate do
      ledShowRemainParkingNumber env dev.ip n
      dtsOperate env dev.ip (.gate bgcKeepClose bgmManual))
    (fun dev _ => steps_tolerate (steps_bind (steps_dtsOperate sentGrows_send env dev.ip _)
      fun _ => steps_dtsOperate sentGrows_send env dev.ip _))
    { w with sent := w.sent ++ cmds ++ [(ip, .gate bgcOpen bgmAuto)] }
  rw [ht] at hg
  rw [← List.append_assoc]
  exact hg

omit hdev in
theorem run_remainParkingNumberBind (n bindType : ℤ) :
    run (remainParkingNumberBind env ip plate n bindType) w =
      if bindType = 2 ∧ (vipOf w plate).isSome = true then run (openForMember env ip n) w
      else run (bindRemainNum env ip plate n) w := by
  rw [remainParkingNumberBind, queryVIPVehicle]
  by_cases hb : bindType = 2
  · rw [if_pos hb, run_bind_ok _ _ _ _ _ (run_query env _ _ _ (hdb _))]
    by_cases hv : (vipOf w plate).isSome = true
    · rw [if_pos hv, if_pos ⟨hb, hv⟩]
    · rw [if_neg hv, if_neg fun h => hv h.2]
  · rw [if_neg hb, if_neg fun h => hb h.1]

/-- A vehicle that is not held back opens the gate, except where spaces are
free and nobody waits. -/
theorem bind_opened_iff (n bindType : ℤ) (h : bindType = 2 ∧ (vipOf w plate).isSome = true ∨ 0 ≤ n) :
    Opened w (run (remainParkingNumberBind env ip plate n bindType) w).2 ip ↔
      ¬ (¬ (bindType = 2 ∧ (vipOf w plate).isSome = true) ∧ 0 < n ∧ w.waits = []) := by
  rw [run_remainParkingNumberBind env hdb ip plate w]
  by_cases hm : bindType = 2 ∧ (vipOf w plate).isSome = true
  · obtain ⟨t, cmds, ht, hp, hc⟩ := run_openForMember env ip hdev w n
    rw [if_pos hm, ht]
    exact iff_of_true (opened_extends w t ip cmds hp bgmAuto hc) fun hn => hn.1 hm
  have hn := h.resolve_left hm
  rw [if_neg hm]
  rcases hn.eq_or_lt with rfl | hpos
  · obtain ⟨t, cmds, ht, hp, hc⟩ := run_openLast env hdb ip hdev w 0
    rw [bindRemainNum, if_pos rfl, ht]
    exact iff_of_true (opened_extends w t ip cmds hp bgmAuto hc) fun hn => lt_irrefl 0 hn.2.1
  · rw [run_bindRemainNum_free env hdb ip plate hdev w n hpos]
    by_cases hw : w.waits = []
    · rw [if_pos hw]
      exact iff_of_false (not_opened w w ip [] (by simp) (by simp)) fun hn => hn ⟨hm, hpos, hw⟩
    · rw [if_neg hw]
      refine iff_of_true (opened_extends w _ ip _ List.prefix_rfl bgmAuto (by simp)) fun hn => hw hn.2.2

theorem run_autoOpen_uncounted (plateType : ℤ) (hl : plateType ∉ limitedTypes w.config.limitPlateType)
    (h0 : w.config.judgeRemainParkingNumber = 0) :
    (run (autoOpenEntranceGateway env ip plate plateType) w).2 =
      { w with sent := (shown w ip plate).sent ++ [(ip, .gate bgcOpen bgmAuto)] } := by
  unfold autoOpenEntranceGateway ledShowPlateNumber operateLed queryLimitPlateType
    queryJudgeRemainParkingNumber queryConfig operateGateway
  rw [run_tolerate_state, run_bind_ok _ _ _ _ _ (run_dtsOperate env ip _ _ (hdev _)),
    run_bind_ok _ _ _ _ _ (run_query env _ _ _ (hdb _)), if_neg hl,
    run_bind_ok _ _ _ _ _ (run_query env _ _ _ (hdb _)), if_pos h0, run_dtsOperate env ip _ _ (hdev _)]
  rfl

theorem run_autoOpen_counted (plateType : ℤ) (hl : plateType ∉ limitedTypes w.config.limitPlateType)
    (hc : Counted w) : (run (autoOpenEntranceGateway env ip plate plateType) w).2 =
      (run (remainParkingNumberBind env ip plate (remaining w) w.config.judgeRemainParkingNumber)
        (shown w ip plate)).2 := by
  have h0 : w.config.judgeRemainParkingNumber ≠ 0 := by rcases hc with h | h <;> omega
  unfold autoOpenEntranceGateway ledShowPlateNumber operateLed queryLimitPlateType
    queryJudgeRemainParkingNumber queryConfig
  rw [run_tolerate_state, run_bind_ok _ _ _ _ _ (run_dtsOperate env ip _ _ (hdev _)),
    run_bind_ok _ _ _ _ _ (run_query env _ _ _ (hdb _)), if_neg hl,
    run_bind_ok _ _ _ _ _ (run_query env _ _ _ (hdb _)), if_neg h0,
    run_bind_ok _ _ _ _ _ (run_queryParkingNumber env _ fun s _ => hdb s)]
  rcases hc with h1 | h2
  · simp only [remaining, h1]
    rfl
  · simp only [remaining, h2]
    rfl

end Run

def freePark (waits : List WaitVehicleInfo) : World where
  config := { judgeRemainParkingNumber := 1, limitPlateType := "3;4" }
  parkInfo := [{ berthCount := 100 }]
  waits := waits

end BitPark.Gate
