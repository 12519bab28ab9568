import BitPark.TurnBack
import BitPark.MaxElement

namespace BitPark.Pairing

open BitPark.Effect BitPark.Server BitPark.Database BitPark.Devices BitPark.Charging BitPark.Decimal BitPark.Members
  BitPark.Release BitPark.PictureFiles BitPark.Storage BitPark.DeviceMessage BitPark.Passage BitPark.DeviceReport
  BitPark.MaxElement
open BitPark.TurnBack (quietOutside)

/-- The entry that an exit belongs to: the latest of those inside that are not later than it. -/
structure RightlyPaired (w : World) (exit enter : PassVehicle) : Prop where
  inside : enter ∈ enterVehicles w exit.plateNumber1
  before : enter.passTime ≤ exit.passTime
  latest : ∀ e ∈ enterVehicles w exit.plateNumber1, e.passTime ≤ exit.passTime → e.passTime ≤ enter.passTime

/-- No vehicle with the plate of the exit is inside by an entry later than the exit. -/
def NoneLater (w : World) (exit : PassVehicle) : Prop :=
  ∀ e ∈ enterVehicles w exit.plateNumber1, e.passTime ≤ exit.passTime

theorem matchedEntry_returned (env : Env) (exit : PassVehicle) (w t : World) (found : Option PassVehicle)
    (h : run (matchedEntry env exit) w = (.ok found, t)) : t = w ∧
      ∀ enter, found = some enter → maxElement (·.passTime) (enterVehicles w exit.plateNumber1) = some enter := by
  rw [matchedEntry] at h
  split_ifs at h
  · cases h
    exact ⟨rfl, fun _ h => by cases h⟩
  · cases (query_bind_returned _ _ _ _ _ _ _ h).2
    exact ⟨rfl, fun enter he => by rwa [← latest_eq_maxElement]⟩

theorem rightlyPaired_iff (w : World) (exit enter : PassVehicle)
    (h : maxElement (·.passTime) (enterVehicles w exit.plateNumber1) = some enter) :
    RightlyPaired w exit enter ↔ NoneLater w exit := by
  have hmem := maxElement_mem _ _ _ h
  have hmax := le_maxElement _ _ _ h
  constructor
  · intro hp e he
    exact (hmax e he).trans hp.before
  · intro hn
    exact ⟨hmem, hn enter hmem, fun e he _ => hmax e he⟩

/-! What a report comes to at the exit. -/

/-- The modes that ask for the type of parking before they look for the entry. -/
def parkingTypeFor (out : Outside) (pass : PassVehicle) : ReleaseMode → Job ℤ
  | .taxi => pure taxiParking
  | .unconditional => inWorld (getParkingType out.env pass)
  | .whiteList => inWorld (getParkingType out.env pass)
  | .charge => pure 0

/-- What happens up to the point at which an exit is paired with an entry. -/
def exitPairing (out : Outside) (device : Device) (info : PassRecord) (passId : String) :
    Job (Option (ReleaseMode × ℤ × PassVehicle)) :=
  if isNoMotorVehicle info.plateNumber1 ∨ device.type = parkEntrance ∨ info.passDirection ≠ parkExit then pure none
  else do
    let mode ← createRelease out device info
    match mode with
    | none => pure none
    | some mode => do
      let parkingType ← parkingTypeFor out { info.toPassVehicle with passId } mode
      let enter ← inWorld (matchedEntry out.env { info.toPassVehicle with passId })
      pure (enter.map fun enter => (mode, parkingType, enter))

/-- What a release without charge does once it knows the entry. -/
def releaseFree (env : Env) (device : Device) (pass : PassVehicle) (parkingType : ℤ) (isAutoRelease : Bool)
    (enter : Option PassVehicle) : Proc Unit := do
  insertCharge env ((enter.map (·.passId)).getD "") pass.passId parkingType 0 otherPay autoRelease "" none
  let sent ← notifyPassVehicle env
    { exitVehicle := pass, enterVehicle := enter, parkingType, charge := some { parkingType },
      openGate := some (if isAutoRelease then 1 else 0) } device.deviceId
  if !sent && isAutoRelease then autoOpenExitGateway env device.ip else pure ()

def releasePaired (env : Env) (device : Device) (pass : PassVehicle) (parkingType : ℤ) (enter : PassVehicle) :
    ReleaseMode → Proc Unit
  | .taxi => releaseFree env device pass parkingType true (some enter)
  | .unconditional => releaseFree env device pass parkingType true (some enter)
  | .whiteList => releaseFree env device pass parkingType (parkingType = whiteListParking) (some enter)
  | .charge => releaseMatched env device enter pass

theorem handleExitPassVehicle_eq (env : Env) (device : Device) (pass : PassVehicle) (parkingType : ℤ)
    (isAutoRelease : Bool) : handleExitPassVehicle env device pass parkingType isAutoRelease =
      matchedEntry env pass >>= releaseFree env device pass parkingType isAutoRelease := rfl

theorem steps_createRelease {R : Site → Site → Prop} [IsPreorder Site R] (out : Outside) (device : Device)
    (info : PassRecord) : Steps R (createRelease out device info) :=
  steps_bind (steps_bind (steps_siteStatement _ _) fun _ => steps_raiseError _) fun _ =>
    steps_ite _ (steps_pure _) (steps_pure _)

theorem inWorld_unchanged {α : Type} (p : Proc α) (hp : Steps (SameAt id) p) (s t : Site) (r : Except Exn α)
    (h : run (inWorld p) s = (r, t)) : t = s ∧ run p s.world = (r, s.world) := by
  have hsame : (run p s.world).2 = s.world := hp s.world
  have hrun : run (inWorld p) s = ((run p s.world).1, { s with world := (run p s.world).2 }) := rfl
  rw [hrun, hsame] at h
  obtain ⟨hr, rfl⟩ := Prod.mk.inj h
  exact ⟨rfl, Prod.ext hr hsame⟩

theorem parkingTypeFor_returned (out : Outside) (pass : PassVehicle) (mode : ReleaseMode) (s t : Site) (type : ℤ)
    (h : run (parkingTypeFor out pass mode) s = (.ok type, t)) : t = s := by
  cases mode with
  | taxi =>
    cases h
    rfl
  | charge =>
    cases h
    rfl
  | unconditional => exact (inWorld_unchanged _ (steps_getParkingType out.env pass) s t _ h).1
  | whiteList => exact (inWorld_unchanged _ (steps_getParkingType out.env pass) s t _ h).1

theorem releaseBy_paired (out : Outside) (device : Device) (pass enter : PassVehicle) (mode : ReleaseMode)
    (parkingType : ℤ) (s : Site) (hd : pass.passDirection = parkExit)
    (ht : run (parkingTypeFor out pass mode) s = (.ok parkingType, s))
    (hm : run (matchedEntry out.env pass) s.world = (.ok (some enter), s.world)) :
    run (releaseBy out device pass (some mode)) s =
      run (inWorld (releasePaired out.env device pass parkingType enter mode)) s := by
  have hne : pass.passDirection ≠ parkEntrance := by
    rw [hd]
    decide
  have hfree : ∀ type isAuto, run (inWorld (handleExitPassVehicle out.env device pass type isAuto)) s =
      run (inWorld (releaseFree out.env device pass type isAuto (some enter))) s := by
    intro type isAuto
    have hrun : run (handleExitPassVehicle out.env device pass type isAuto) s.world =
        run (releaseFree out.env device pass type isAuto (some enter)) s.world := by
      rw [handleExitPassVehicle_eq, run_bind_ok _ _ _ _ _ hm]
    show ((run (handleExitPassVehicle out.env device pass type isAuto) s.world).1, _) = _
    rw [hrun]
    rfl
  cases mode with
  | taxi =>
    cases ht
    show run (taxiRelease out device pass) s = _
    rw [taxiRelease, if_neg hne, if_pos hd]
    exact hfree _ _
  | unconditional =>
    show run (unconditionalRelease out device pass) s = _
    rw [unconditionalRelease, if_neg hne, if_pos hd]
    exact (run_bind_ok _ _ _ _ _ ht).trans (hfree _ _)
  | whiteList =>
    show run (whiteListRelease out device pass) s = _
    refine (run_bind_ok _ _ _ _ _ ht).trans ?_
    rw [if_neg hne, if_pos hd]
    exact hfree _ _
  | charge =>
    have hrun : run (release out.env device pass) s.world = run (releaseMatched out.env device enter pass) s.world := by
      rw [release, if_pos hd, run_bind_ok _ _ _ _ _ hm]
    show ((run (release out.env device pass) s.world).1, _) = _
    rw [hrun]
    rfl

/-- The release of an exit goes on with the entry that the pairing found. -/
theorem decideRelease_paired (out : Outside) (device : Device) (info : PassRecord) (passId : String) (s t : Site)
    (mode : ReleaseMode) (parkingType : ℤ) (enter : PassVehicle)
    (h : run (exitPairing out device info passId) s = (.ok (some (mode, parkingType, enter)), t)) :
    maxElement (·.passTime) (enterVehicles s.world info.plateNumber1) = some enter ∧
      run (decideRelease out device info passId) s = run (do
        inWorld (releasePaired out.env device { info.toPassVehicle with passId } parkingType enter mode)
        inWorld (afterExit out { info.toPassVehicle with passId })) s := by
  rw [exitPairing] at h
  split_ifs at h with hc
  · cases h
  obtain ⟨hmotor, htype, hdir⟩ := not_or.mp hc |>.imp_right not_or.mp
  rw [not_not] at hdir
  obtain ⟨mode', s1, h1, h⟩ := bind_returned _ _ _ _ _ h
  have hs1 : s1 = s := steps_returned (R := SameAt id) (steps_createRelease out device info) s s1 _ h1
  rw [hs1] at h1 h
  cases mode' with
  | none => cases h
  | some mode' =>
    obtain ⟨type, s2, h2, h⟩ := bind_returned _ _ _ _ _ h
    have hs2 := parkingTypeFor_returned out _ mode' s s2 type h2
    rw [hs2] at h2 h
    obtain ⟨found, s3, h3, h⟩ := bind_returned _ _ _ _ _ h
    obtain ⟨hs3, hm⟩ := inWorld_unchanged _ (steps_matchedEntry out.env _) s s3 _ h3
    obtain ⟨e, rfl, he⟩ : ∃ e, found = some e ∧ (mode', type, e) = (mode, parkingType, enter) := by
      simpa using (Prod.mk.inj h).1
    obtain ⟨rfl, rfl, rfl⟩ : mode' = mode ∧ type = parkingType ∧ e = enter := by simpa using he
    refine ⟨(matchedEntry_returned out.env _ _ _ _ hm).2 e rfl, ?_⟩
    have hexit : ¬ (device.type = parkExit ∧ info.passDirection = passIn) := by
      rw [hdir]
      exact fun hn => absurd hn.2 (by decide)
    rw [decideRelease, if_neg hmotor, if_neg hexit, if_neg fun hn => htype hn.1, releaseVehicle]
    dsimp only
    rw [run_bind_ok _ _ _ _ _ h1, run_bind,
      releaseBy_paired out device { info.toPassVehicle with passId } e mode' type s hdir h2 hm, ← run_bind]
    rw [if_pos (show info.passDirection = passOut from hdir)]

/-! Runs. The two halves of a report are steps of their own, so that the
halves of other reports and anything else may come between them. -/

inductive Step where
  | passage (out : Outside) (source : String) (data : DeviceData) (pics : List Bytes)
  | release (out : Outside) (device : Device) (info : PassRecord) (passId : String)
  | other (change : Site → Site)

def Step.perform : Step → Site → Site
  | .passage out source data pics, s => (run (recordPassage out source data pics) s).2
  | .release out device info passId, s => (run (decideRelease out device info passId) s).2
  | .other change, s => change s

/-- The exit and the entry that a step pairs. -/
def Step.pairing (s : Site) : Step → Option (PassVehicle × PassVehicle)
  | .release out device info passId =>
    match (run (exitPairing out device info passId) s).1 with
    | .ok (some (_, _, enter)) => some ({ info.toPassVehicle with passId }, enter)
    | _ => none
  | _ => none

/-- The pairings of a run, each with the tables at its time. -/
def pairings : List Step → Site → List (World × PassVehicle × PassVehicle)
  | [], _ => []
  | step :: rest, s => (step.pairing s).toList.map (s.world, ·) ++ pairings rest (step.perform s)

/-- A report is its two halves one after the other. -/
theorem onDeviceData_steps (out : Outside) (source : String) (data : DeviceData) (pics : List Bytes) (s t : Site)
    (r : Device × PassRecord × String) (h : run (recordPassage out source data pics) s = (.ok r, t)) :
    (run (onDeviceData out source data pics) s).2 = (Step.release out r.1 r.2.1 r.2.2).perform
      ((Step.passage out source data pics).perform s) := by
  have hrun : run (do
      let r ← recordPassage out source data pics
      decideRelease out r.1 r.2.1 r.2.2) s = run (decideRelease out r.1 r.2.1 r.2.2) t := run_bind_ok _ _ _ _ _ h
  rw [onDeviceData, swallow, run_handle, hrun]
  rw [Step.perform, Step.perform, h]
  obtain ⟨e | a, u⟩ := run (decideRelease out r.1 r.2.1 r.2.2) t
  · rfl
  · rfl

theorem pairing_maxElement (step : Step) (s : Site) (exit enter : PassVehicle)
    (h : step.pairing s = some (exit, enter)) :
    maxElement (·.passTime) (enterVehicles s.world exit.plateNumber1) = some enter := by
  cases step with
  | passage out source data pics => cases h
  | other change => cases h
  | release out device info passId =>
    rw [Step.pairing] at h
    match hp : run (exitPairing out device info passId) s with
    | (.ok (some (mode, type, e)), t) =>
      rw [hp] at h
      obtain ⟨rfl, rfl⟩ := Prod.mk.inj (Option.some.inj h)
      exact (decideRelease_paired out device info passId s t mode type e hp).1
    | (.ok none, t) =>
      rw [hp] at h
      cases h
    | (.error e, t) =>
      rw [hp] at h
      cases h

def entranceCamera : Device := { deviceId := "d1", ip := "10.0.0.1", type := 9 }
def exitCamera : Device := { deviceId := "d2", ip := "10.0.0.2", type := 10, releaseMode := 1 }

def hourlyLot : Site where
  world := { rules := [RuleTable.hourlyRow []], equips := [entranceCamera, exitCamera] }

/-- Both halves of a report without pictures. -/
def reportSteps (device : Device) (data : DeviceData) (passId : String) : List Step :=
  [.passage quietOutside device.ip data [], .release quietOutside device (reportRecord data device.deviceId [] []) passId]

/-- The vehicle enters at eight and, after an exit, again at ten. The exit of
nine is reported from the history of its device. -/
def delayedExit : List Step :=
  reportSteps entranceCamera { reportData "京A12345" with passTime := 28800 } "0" ++
  reportSteps entranceCamera { reportData "京A12345" with passTime := 36000 } "1" ++
  reportSteps exitCamera { reportData "京A12345" with direction := 10, passTime := 32400, vehicleInfoState := 1 } "2"

end BitPark.Pairing
