import BitPark.Charging

namespace BitPark.Settlement

open BitPark.TimePeriod BitPark.Tariff BitPark.ChargeByTime BitPark.Effect BitPark.Server BitPark.Database
  BitPark.Devices BitPark.Charging
open BitPark.RemainMoney (written)

/-- The number of records under an id between two states. -/
def inserted (id : String) (w w' : World) : ℕ :=
  ((w'.charges.drop w.charges.length).filter (·.1 = id)).length

/-- A free exit leaves one record, an exit still to be paid leaves none, and
the row of the entry is deleted exactly when there is a record. -/
structure RecordedOnce (id passId : String) (requireCharge : ℚ) (w w' : World) : Prop where
  free : requireCharge = 0 → inserted id w w' = 1
  due : 0 < requireCharge → inserted id w w' = 0
  inner : w'.innerCars =
    if inserted id w w' = 0 then w.innerCars else w.innerCars.filter (·.nid ≠ passId)

theorem inserted_of_recorded (id passId : String) (n : ℕ) (w u w' : World) (h : Recorded id passId n w u)
    (hc : w'.charges = u.charges) : inserted id w w' = n := by
  obtain ⟨new, sent, hl, hid, rfl⟩ := h
  have hall : new.filter (·.1 = id) = new := by
    rw [List.filter_eq_self]
    intro r hr
    simpa using hid r hr
  unfold inserted
  rw [hc, List.drop_left, hall, hl]

theorem recordedOnce_iff (id passId : String) (n : ℕ) (requireCharge : ℚ) (w u w' : World)
    (hnid : ∀ row ∈ w.innerCars, row.nid ≠ "") (h : Recorded id passId n w u)
    (hc : w'.charges = u.charges) (hi : w'.innerCars = u.innerCars) :
    RecordedOnce id passId requireCharge w w' ↔
      (requireCharge = 0 → n = 1) ∧ (0 < requireCharge → n = 0) := by
  have hn := inserted_of_recorded id passId n w u w' h hc
  have hclear : cleared w.innerCars passId = w.innerCars.filter (·.nid ≠ passId) := by
    unfold cleared
    split_ifs with hp
    · symm
      rw [List.filter_eq_self]
      intro row hrow
      simpa [hp] using hnid row hrow
    · rfl
  constructor
  · rintro ⟨hfree, hdue, -⟩
    rw [hn] at hfree hdue
    exact ⟨hfree, hdue⟩
  · rintro ⟨hfree, hdue⟩
    refine ⟨?_, ?_, ?_⟩
    · rwa [hn]
    · rwa [hn]
    · obtain ⟨new, sent, -, -, rfl⟩ := h
      rw [hn, hi, ← hclear]

section Cases

variable (env : Env) (c c' : Charge) (w w' : World)

theorem chargeByTimeDuration_returned (enter exit : ℤ)
    (h : run (c.chargeByTimeDuration env enter exit) w = (.ok c', w')) :
    let r := c.fee w.rules env.utcOffset enter exit c.exitVehicle.plateType
    c'.json = { c.json with
      parkingType := temporaryVehicleParking, totalCharge := r.1, requireCharge := r.1, bill := some r.2 } ∧
      Recorded c.chargeId c.enterVehicle.passId (if r.1 = 0 then 1 else 0) w w' := by
  obtain ⟨r, u, hb, hj⟩ := bind_returned _ _ _ _ _ h
  obtain ⟨hfee, hr, rfl⟩ := Charge.billStay_returned _ _ _ _ _ _ _ _ hb
  obtain ⟨rfl, hrec⟩ := Charge.buildChargeJson_returned _ _ _ _ _ _ _ hj
  rw [hr, hfee] at hrec ⊢
  exact ⟨rfl, hrec⟩

theorem chargeByTimeDuration_recorded (enter exit : ℤ)
    (h : run (c.chargeByTimeDuration env enter exit) w = (.ok c', w')) :
    Recorded c.chargeId c.enterVehicle.passId (if c'.json.requireCharge = 0 then 1 else 0) w w' := by
  obtain ⟨hjson, hrec⟩ := chargeByTimeDuration_returned env c c' w w' enter exit h
  rw [hjson]
  exact hrec

/-- The charge with some free parts on its bill. -/
def withFree (free : List Detail) : Charge := { c with bill := { c.bill with details := c.bill.details ++ free } }

/-- An active membership begins and ends within the stay. -/
def Straddles : Prop :=
  c.vip.deleteStatus = "1" ∧ c.vip.expiryDate ≠ 0 ∧ c.enterVehicle.passTime < c.vip.validBegintime ∧
    c.vip.validBegintime < c.exitVehicle.passTime ∧ c.vip.expiryDate < c.exitVehicle.passTime

instance : Decidable (Straddles c) := inferInstanceAs (Decidable (_ ∧ _ ∧ _ ∧ _ ∧ _))

/-- The part of the stay before a membership and the part after it, on one bill. -/
def chargeBothEnds : Proc Charge := do
  let r1 ← c.billStay env c.enterVehicle.passTime c.vip.validBegintime c.exitVehicle.plateType
  let r2 ← (r1.2.freeDurationBill env c.vip.validBegintime c.vip.expiryDate).billStay env c.vip.expiryDate
    c.exitVehicle.passTime c.exitVehicle.plateType
  r2.2.buildChargeJson env (r1.1 + r2.1) (r1.1 + r2.1)

/-- The two bills, the second on what the first has left, and the record of their sum. -/
theorem chargeBothEnds_ends (h : run (chargeBothEnds env c) w = (.ok c', w')) :
    ∃ before after : ℚ × Bill,
      before = c.fee w.rules env.utcOffset c.enterVehicle.passTime c.vip.validBegintime c.exitVehicle.plateType ∧
      after = ({ c with bill := before.2 }.freeDurationBill env c.vip.validBegintime c.vip.expiryDate).fee w.rules
        env.utcOffset c.vip.expiryDate c.exitVehicle.passTime c.exitVehicle.plateType ∧
      c'.json = { c.json with
        totalCharge := before.1 + after.1, requireCharge := before.1 + after.1, bill := some after.2 } ∧
      Recorded c.chargeId c.enterVehicle.passId (if before.1 + after.1 = 0 then 1 else 0) w w' := by
  obtain ⟨r1, u1, hb1, h1⟩ := bind_returned _ _ _ _ _ h
  obtain ⟨hfee1, hr1, rfl⟩ := Charge.billStay_returned _ _ _ _ _ _ _ _ hb1
  obtain ⟨r2, u2, hb2, h2⟩ := bind_returned _ _ _ _ _ h1
  obtain ⟨hfee2, hr2, rfl⟩ := Charge.billStay_returned _ _ _ _ _ _ _ _ hb2
  obtain ⟨rfl, hrec⟩ := Charge.buildChargeJson_returned _ _ _ _ _ _ _ h2
  rw [hr1] at hr2 hfee2
  rw [hr2, hfee2, hfee1] at hrec
  rw [hr2, hfee2, hfee1]
  exact ⟨_, _, rfl, rfl, rfl, hrec⟩

def passCovered : Proc Charge := do
  c.buildAutoChargeBill.chargeAutoInsertDB env
  pure c.buildAutoChargeBill

/-- A stay with a time of membership has both of its ends charged, or one part
of it, with at most one free part before that on the bill, or it is covered. -/
theorem calTimeBasedVIPCharge_cases (h : run (c.calTimeBasedVIPCharge env) w = (.ok c', w')) :
    (Straddles c ∧ run (chargeBothEnds env c) w = (.ok c', w')) ∨
      ¬ Straddles c ∧ ((∃ free enter exit, (∀ d ∈ free, d.fee = 0) ∧
          run ((withFree c free).chargeByTimeDuration env enter exit) w = (.ok c', w')) ∨
        run (passCovered env c) w = (.ok c', w')) := by
  have hone : ∀ enter exit, run (c.chargeByTimeDuration env enter exit) w = (.ok c', w') →
      ∃ free enter exit, (∀ d ∈ free, d.fee = 0) ∧
        run ((withFree c free).chargeByTimeDuration env enter exit) w = (.ok c', w') :=
    fun enter exit h => ⟨[], enter, exit, by simp, by simpa [withFree] using h⟩
  have hfree : ∀ s t enter exit,
      run ((c.freeDurationBill env s t).chargeByTimeDuration env enter exit) w = (.ok c', w') →
      ∃ free enter exit, (∀ d ∈ free, d.fee = 0) ∧
        run ((withFree c free).chargeByTimeDuration env enter exit) w = (.ok c', w') :=
    fun s t enter exit h => ⟨[stayDetail env.utcOffset s t "" 0], enter, exit, by simp [stayDetail], h⟩
  rw [Charge.calTimeBasedVIPCharge] at h
  dsimp only at h
  by_cases hs : Straddles c
  · obtain ⟨hd, hx, h1, h2, h3⟩ := hs
    rw [if_neg (not_not.mpr hd), if_neg hx, if_neg (not_le.mpr h2), if_neg (not_le.mpr h3), if_pos h1] at h
    exact .inl ⟨⟨hd, hx, h1, h2, h3⟩, h⟩
  · refine .inr ⟨hs, ?_⟩
    split_ifs at h with hd hx h2 h3 h1 h1 h4
    · exact .inl (hone _ _ h)
    · exact .inl (hone _ _ h)
    · exact .inl (hone _ _ h)
    · exact .inl (hfree _ _ _ _ h)
    · exact .inr h
    · exact absurd ⟨not_not.mp hd, hx, h1, not_le.mp h2, not_le.mp h3⟩ hs
    · exact .inl (hfree _ _ _ _ h)
    · exact .inl (hone _ _ h)

theorem calTimeBasedVIPCharge_recorded (h0 : c.json.requireCharge = 0)
    (h : run (c.calTimeBasedVIPCharge env) w = (.ok c', w')) :
    Recorded c.chargeId c.enterVehicle.passId (if c'.json.requireCharge = 0 then 1 else 0) w w' := by
  obtain ⟨-, h⟩ | ⟨-, ⟨free, enter, exit, -, h⟩ | h⟩ := calTimeBasedVIPCharge_cases env c c' w w' h
  · obtain ⟨before, after, -, -, hjson, hrec⟩ := chargeBothEnds_ends env c c' w w' h
    rw [hjson]
    exact hrec
  · exact chargeByTimeDuration_recorded env (withFree c free) c' w w' enter exit h
  · obtain ⟨a, u, hr, hp⟩ := bind_returned _ _ _ _ _ h
    have hrec := Charge.recordAutoCharge_returned _ _ _ _ _ _ _ _ hr
    cases hp
    rw [if_pos (by exact h0)]
    exact hrec

/-- The fee of the stay of a stored-value member. -/
def storedFee : ℚ :=
  (c.fee w.rules env.utcOffset c.enterVehicle.passTime c.exitVehicle.passTime c.enterVehicle.plateType).1

def storedBill : Bill :=
  (c.fee w.rules env.utcOffset c.enterVehicle.passTime c.exitVehicle.passTime c.enterVehicle.plateType).2

theorem payStored_returned (charge leftMoney : ℚ) (h : run (c.payStored env charge leftMoney) w = (.ok c', w')) :
    c'.json = { c.json with totalCharge := charge, requireCharge := 0, bill := some { c.bill with feeExemption := charge } } ∧
      ∃ u, Recorded c.chargeId c.enterVehicle.passId ((if charge = 0 then 1 else 0) + 1) w u ∧
        w' = debited c.vip.id (written leftMoney) u := by
  obtain ⟨c1, v, hj, h1⟩ := bind_returned _ _ _ _ _ h
  obtain ⟨rfl, hrec⟩ := Charge.buildChargeJson_returned _ _ _ _ _ _ _ hj
  obtain ⟨_, v1, hr1, h2⟩ := bind_returned _ _ _ _ _ h1
  have hrec1 := Charge.recordAutoCharge_returned _ _ _ _ _ _ _ _ hr1
  obtain ⟨_, v2, hup, h3⟩ := bind_returned _ _ _ _ _ h2
  have hv2 := execute_returned _ _ _ _ _ _ hup
  cases h3
  exact ⟨rfl, v1, recorded_trans _ _ _ _ _ _ _ hrec hrec1, hv2⟩

theorem payPart_returned (charge leftMoney : ℚ) (h : run (c.payPart env charge leftMoney) w = (.ok c', w')) :
    c'.json = { c.json with
      parkingType := temporaryVehicleParking, totalCharge := charge, requireCharge := -leftMoney
      bill := some { c.bill with feeExemption := c.vip.remainMoney } } ∧
      ∃ u, Recorded c.chargeId c.enterVehicle.passId (if charge = 0 then 1 else 0) w u ∧
        w' = debited c.vip.id (written 0) u := by
  obtain ⟨c1, v, hj, h1⟩ := bind_returned _ _ _ _ _ h
  obtain ⟨rfl, hrec⟩ := Charge.buildChargeJson_returned _ _ _ _ _ _ _ hj
  obtain ⟨_, v1, hup, h3⟩ := bind_returned _ _ _ _ _ h1
  have hv2 := execute_returned _ _ _ _ _ _ hup
  cases h3
  exact ⟨rfl, v, hrec, hv2⟩

/-- A settlement from the stored value goes one of two ways. -/
theorem settleStoredValue_returned (h : run (c.settleStoredValue env) w = (.ok c', w')) :
    (0 ≤ c.vip.remainMoney - storedFee env c w ∧
      c'.json = { c.json with
        totalCharge := storedFee env c w, requireCharge := 0
        bill := some { storedBill env c w with feeExemption := storedFee env c w } } ∧
      ∃ u, Recorded c.chargeId c.enterVehicle.passId ((if storedFee env c w = 0 then 1 else 0) + 1) w u ∧
        w' = debited c.vip.id (written (c.vip.remainMoney - storedFee env c w)) u) ∨
    (c.vip.remainMoney - storedFee env c w < 0 ∧
      c'.json = { c.json with
        parkingType := temporaryVehicleParking, totalCharge := storedFee env c w
        requireCharge := -(c.vip.remainMoney - storedFee env c w)
        bill := some { storedBill env c w with feeExemption := c.vip.remainMoney } } ∧
      ∃ u, Recorded c.chargeId c.enterVehicle.passId (if storedFee env c w = 0 then 1 else 0) w u ∧
        w' = debited c.vip.id (written 0) u) := by
  obtain ⟨r, u, hb, hs⟩ := bind_returned _ _ _ _ _ h
  obtain ⟨hfee, hr, rfl⟩ := Charge.billStay_returned _ _ _ _ _ _ _ _ hb
  change r.1 = storedFee env c u at hfee
  rw [hr, hfee] at hs
  split_ifs at hs with hl
  · have hpay := payStored_returned _ _ _ _ _ _ _ hs
    exact .inl ⟨hl, hpay⟩
  · have hpay := payPart_returned _ _ _ _ _ _ _ hs
    exact .inr ⟨not_le.mp hl, hpay⟩

end Cases

/-- A settlement that returns is recorded as intended unless it is that of an
active stored-value member whose stay costs nothing. -/
theorem calCharge_recordedOnce_iff (env : Env) (kind : ChargeKind) (enter exit : PassVehicle)
    (vip : VIPVehicle) (parkPosition freeTimeMode chargePattern : ℤ) (chargeId : String) (w w' : World)
    (c' : Charge) (hnid : ∀ row ∈ w.innerCars, row.nid ≠ "") :
    let c := Charge.construct kind enter exit vip env.utcOffset parkPosition chargeId freeTimeMode chargePattern
    run (c.calCharge env) w = (.ok c', w') →
    (RecordedOnce chargeId enter.passId c'.json.requireCharge w w' ↔
      ¬ (kind = .storedValue ∧ vip.deleteStatus = "1" ∧ storedFee env c w = 0)) := by
  intro c h
  have htimed : ∀ n, Recorded chargeId enter.passId n w w' →
      n = (if c'.json.requireCharge = 0 then 1 else 0) →
      RecordedOnce chargeId enter.passId c'.json.requireCharge w w' := by
    intro n hrec hn
    rw [recordedOnce_iff _ _ n _ w w' w' hnid hrec rfl rfl, hn]
    exact ⟨fun h0 => if_pos h0, fun hd => if_neg hd.ne'⟩
  cases kind with
  | whiteList => exact iff_of_true (htimed _ (calTimeBasedVIPCharge_recorded env c c' w w' rfl h) rfl) (by simp)
  | monthly => exact iff_of_true (htimed _ (calTimeBasedVIPCharge_recorded env c c' w w' rfl h) rfl) (by simp)
  | temporaryVIP =>
    exact iff_of_true (htimed _ (calTimeBasedVIPCharge_recorded env c c' w w' rfl h) rfl) (by simp)
  | temporaryVehicle =>
    exact iff_of_true (htimed _ (chargeByTimeDuration_recorded env c c' w w' _ _ h) rfl) (by simp)
  | storedValue =>
    change run (if vip.deleteStatus = "1" then c.settleStoredValue env else c.chargeByAccessTime env) w = _ at h
    split_ifs at h with hd
    · rcases settleStoredValue_returned env c c' w w' h with ⟨hl, hjson, u, hrec, hw⟩ | ⟨hl, hjson, u, hrec, hw⟩
      · refine (recordedOnce_iff chargeId enter.passId _ _ w u w' hnid hrec (by rw [hw]; rfl) (by rw [hw]; rfl)).trans ?_
        rw [hjson]
        split_ifs with h0 <;> simp [h0, hd]
      · refine (recordedOnce_iff chargeId enter.passId _ _ w u w' hnid hrec (by rw [hw]; rfl) (by rw [hw]; rfl)).trans ?_
        have hpos : 0 < -(c.vip.remainMoney - storedFee env c w) := neg_pos.mpr hl
        rw [hjson]
        split_ifs with h0
        · exact iff_of_false (fun hn => hn.2 hpos) fun hn => hn ⟨rfl, hd, h0⟩
        · exact iff_of_true ⟨fun hz => absurd hz hpos.ne', fun _ => rfl⟩ fun hn => h0 hn.2.2
    · exact iff_of_true (htimed _ (chargeByTimeDuration_recorded env c c' w w' _ _ h) rfl) fun hn => hd hn.2.1

def memberEntry : PassVehicle := { passId := "e1", plateNumber1 := "A1", passTime := 36000 }
def memberExit : PassVehicle := { passId := "x1", plateNumber1 := "A1", passDirection := 10, passTime := 43200 }
def storedMember : VIPVehicle := { id := "v1", plateNumber := "A1", type := 2, remainMoney := 50, deleteStatus := "1" }

def memberCharge : Charge :=
  Charge.construct .storedValue memberEntry memberExit storedMember 0 0 "c1" 0 0

def hourlyPark (sections : List TimeSection) : World where
  rules := [RuleTable.hourlyRow sections]
  vips := [storedMember]
  innerCars := [{ nid := "e1" }, { nid := "e2" }]

/-- Two hours paid from the stored value. -/
theorem recordedOnce_two_hours : (∀ row ∈ (hourlyPark []).innerCars, row.nid ≠ "") ∧ ∃ c' w',
    run (memberCharge.calCharge quietEnv) (hourlyPark []) = (.ok c', w') ∧
    (RecordedOnce "c1" "e1" c'.json.requireCharge (hourlyPark []) w' ↔
      ¬ (ChargeKind.storedValue = .storedValue ∧ storedMember.deleteStatus = "1" ∧
        storedFee quietEnv memberCharge (hourlyPark []) = 0)) := by
  obtain ⟨c', w', h⟩ := returned_of_isOk (memberCharge.calCharge quietEnv) (hourlyPark []) (by decide +kernel)
  exact ⟨by decide, c', w', h, calCharge_recordedOnce_iff quietEnv .storedValue memberEntry
    memberExit storedMember 0 0 0 "c1" (hourlyPark []) w' c' (by decide) h⟩

/-- The two hours are free. -/
def morningFree : World := hourlyPark [⟨minutes 600, minutes 720⟩]

/-- A free stay of a stored-value member is recorded twice. -/
theorem free_stay_recorded_twice : storedFee quietEnv memberCharge morningFree = 0 ∧ ∃ c' w',
    run (memberCharge.calCharge quietEnv) morningFree = (.ok c', w') ∧ c'.json.requireCharge = 0 ∧
    inserted "c1" morningFree w' = 2 ∧ ¬ RecordedOnce "c1" "e1" c'.json.requireCharge morningFree w' := by
  obtain ⟨c', w', h⟩ := returned_of_isOk (memberCharge.calCharge quietEnv) morningFree (by decide +kernel)
  have hreq : (run (memberCharge.calCharge quietEnv) morningFree).1.toOption.map
      (·.json.requireCharge) = some 0 := by decide +kernel
  have htwo : inserted "c1" morningFree (run (memberCharge.calCharge quietEnv) morningFree).2 = 2 := by
    decide +kernel
  rw [h] at hreq htwo
  refine ⟨by decide +kernel, c', w', h, Option.some.inj hreq, htwo, ?_⟩
  rintro ⟨hfree, -, -⟩
  have hone := hfree (Option.some.inj hreq)
  rw [htwo] at hone
  cases hone

end BitPark.Settlement
