import BitPark.BillSound
import BitPark.MemberCharge
import BitPark.Members

namespace BitPark.ReportedCharge

open BitPark.TimePeriod BitPark.Tariff BitPark.DivideTime BitPark.ChargeByTime BitPark.RuleTable BitPark.BillSound
  BitPark.Effect BitPark.Server BitPark.Database BitPark.Devices BitPark.Charging BitPark.Settlement
  BitPark.MemberCharge BitPark.Members

def sumFees (details : List Detail) : ℚ := (details.map Detail.fee).sum

/-- A computation adds details worth the amount before the discount that it
writes over the old one, and it returns the total that it writes. -/
structure Itemized (bill : Bill) (charged : ℚ × Bill) : Prop where
  fees : sumFees charged.2.details = sumFees bill.details + charged.2.beforeDiscountedFee
  total : charged.1 = charged.2.totalFee
  free : charged.2.beforeDiscountedFee = 0 → charged.1 = 0

theorem itemized_settle (bill bill' : Bill) (before total : ℚ) (h : sumFees bill'.details = sumFees bill.details + before)
    (h0 : before = 0 → total = 0) : Itemized bill (total, bill'.settle before total) := ⟨h, rfl, h0⟩

section

variable (src : RuleSource) (offset enter exit mode vehicleType pos : ℤ) (discount : ℚ) (bill : Bill)

theorem calChargeTooDays_itemized (days : ℤ) :
    Itemized bill (calChargeTooDays src offset enter exit days vehicleType pos bill) :=
  itemized_settle bill _ _ _ (by simp [sumFees, Bill.push, stayDetail]) id

theorem noChargeBill_itemized : Itemized bill (0, noChargeBill offset enter exit bill) :=
  itemized_settle bill _ _ _ (by simp [sumFees, Bill.push, stayDetail]) id

theorem chargeByTime0_itemized :
    Itemized bill (chargeByTime0 src offset enter exit mode vehicleType pos discount bill) := by
  rw [chargeByTime0]
  cases divideTimeByDay0 (utcToLocal offset enter) (utcToLocal offset exit) with
  | nil => exact noChargeBill_itemized offset enter exit bill
  | cons first others =>
    dsimp only
    split_ifs
    · exact calChargeTooDays_itemized src offset enter exit vehicleType pos bill _
    · cases src.queryChargeRule (.localTime (utcToLocal offset enter)) pos with
      | none => exact noChargeBill_itemized offset enter exit bill
      | some rule =>
        have ha := chargePeriods0_appends rule mode vehicleType first others
          { bill with freeDuration := rule.freeTimeLength }
        exact itemized_settle bill _ _ _ ha.fees fun h0 => by rw [h0, zero_mul]

theorem chargeByTime1_itemized :
    Itemized bill (chargeByTime1 src offset enter exit mode vehicleType pos discount bill) := by
  rw [chargeByTime1]
  dsimp only
  split_ifs
  · exact calChargeTooDays_itemized src offset enter exit vehicleType pos bill _
  · obtain ⟨fee, hf, ha⟩ := chargeDays1_appends src mode vehicleType pos
      (divideTimeByDay1 (utcToLocal offset enter) (utcToLocal offset exit)) { bill }
    rw [zero_add] at hf
    rw [hf]
    exact itemized_settle bill _ _ _ ha.fees fun h0 => by rw [h0, zero_mul]

/-- Whatever a bill holds before, `ChargeByTime` itemizes what it charges. -/
theorem chargeByTime_itemized (pattern : ℤ) :
    Itemized bill (chargeByTime src offset enter exit pattern mode vehicleType pos discount bill) := by
  have hp : Itemized bill (chargeByPattern src offset enter exit pattern mode vehicleType pos discount bill) := by
    rw [chargeByPattern]
    split_ifs
    · exact chargeByTime1_itemized src offset enter exit mode vehicleType pos discount bill
    · exact chargeByTime0_itemized src offset enter exit mode vehicleType pos discount bill
  obtain hq | ⟨rule, -, -, hq⟩ :=
    chargeByTime_cases src offset enter exit pattern mode vehicleType pos discount bill
  · rwa [hq]
  · rw [hq]
    exact itemized_settle bill _ _ _ (by simp [sumFees, Bill.push, stayDetail]) id

end

theorem fee_itemized (c : Charge) (rules : List RuleRow) (offset enter exit vehicleType : ℤ) :
    Itemized c.bill (c.fee rules offset enter exit vehicleType) := chargeByTime_itemized _ _ _ _ _ _ _ _ _ _

/-- The subclasses that charge by the time of a membership. -/
def Timed (kind : ChargeKind) : Prop := kind = .whiteList ∨ kind = .monthly ∨ kind = .temporaryVIP

instance (kind : ChargeKind) : Decidable (Timed kind) := inferInstanceAs (Decidable (_ ∨ _ ∨ _))

section

variable (env : Env) (c c' : Charge) (w w' : World)

theorem withFree_nil : withFree c [] = c := by
  rw [withFree, List.append_nil]

/-- A settlement that returns has charged both ends of the stay, one part of
it, nothing because it is covered, or the stored value. -/
theorem calCharge_cases (h : run (c.calCharge env) w = (.ok c', w')) :
    ((Timed c.kind ∧ Straddles c) ∧ run (chargeBothEnds env c) w = (.ok c', w')) ∨
      ¬ (Timed c.kind ∧ Straddles c) ∧ ((∃ free enter exit, (∀ d ∈ free, d.fee = 0) ∧
          run ((withFree c free).chargeByTimeDuration env enter exit) w = (.ok c', w')) ∨
        run (passCovered env c) w = (.ok c', w') ∨ run (c.settleStoredValue env) w = (.ok c', w')) := by
  have hall : run (c.chargeByAccessTime env) w = (.ok c', w') → ∃ free enter exit, (∀ d ∈ free, d.fee = 0) ∧
      run ((withFree c free).chargeByTimeDuration env enter exit) w = (.ok c', w') :=
    fun h => ⟨[], _, _, by simp, by rwa [withFree_nil]⟩
  rw [Charge.calCharge] at h
  by_cases ht : Timed c.kind
  · have hrun : run (c.calTimeBasedVIPCharge env) w = (.ok c', w') := by
      obtain hk | hk | hk := ht
      · simpa only [hk] using h
      · simpa only [hk] using h
      · simpa only [hk] using h
    obtain ⟨hs, hends⟩ | ⟨hs, hone | hcov⟩ := calTimeBasedVIPCharge_cases env c c' w w' hrun
    · exact .inl ⟨⟨ht, hs⟩, hends⟩
    · exact .inr ⟨fun h => hs h.2, .inl hone⟩
    · exact .inr ⟨fun h => hs h.2, .inr (.inl hcov)⟩
  · refine .inr ⟨fun h => ht h.1, ?_⟩
    cases hk : c.kind with
    | whiteList => exact absurd (.inl hk) ht
    | monthly => exact absurd (.inr (.inl hk)) ht
    | temporaryVIP => exact absurd (.inr (.inr hk)) ht
    | temporaryVehicle =>
      rw [hk] at h
      exact .inl (hall h)
    | storedValue =>
      rw [hk] at h
      dsimp only at h
      split_ifs at h
      · exact .inr (.inr h)
      · exact .inl (hall h)

/-- The bill for the part of the stay before a membership. -/
def billBefore : ℚ × Bill :=
  c.fee w.rules env.utcOffset c.enterVehicle.passTime c.vip.validBegintime c.exitVehicle.plateType

/-- The bill for the part after it, on the bill that the part before has left. -/
def billAfter : ℚ × Bill :=
  ({ c with bill := (billBefore env c w).2 }.freeDurationBill env c.vip.validBegintime c.vip.expiryDate).fee w.rules
    env.utcOffset c.vip.expiryDate c.exitVehicle.passTime c.exitVehicle.plateType

theorem chargeBothEnds_returned (h : run (chargeBothEnds env c) w = (.ok c', w')) :
    c'.json = { c.json with
      totalCharge := (billBefore env c w).1 + (billAfter env c w).1
      requireCharge := (billBefore env c w).1 + (billAfter env c w).1
      bill := some (billAfter env c w).2 } := by
  obtain ⟨before, after, rfl, rfl, hjson, -⟩ := chargeBothEnds_ends env c c' w w' h
  exact hjson

/-- The report of a settlement agrees with the bill in it. -/
def Agrees (json : ChargeJson) : Prop :=
  ∃ bill, json.bill = some bill ∧ json.totalCharge = bill.totalFee ∧ bill.beforeDiscountedFee = sumFees bill.details

theorem chargeByTimeDuration_agrees (free : List Detail) (enter exit : ℤ) (hfree : ∀ d ∈ free, d.fee = 0)
    (h0 : c.bill.details = []) (h : run ((withFree c free).chargeByTimeDuration env enter exit) w = (.ok c', w')) :
    Agrees c'.json := by
  obtain ⟨hjson, -⟩ := chargeByTimeDuration_returned env _ c' w w' enter exit h
  have hi := fee_itemized (withFree c free) w.rules env.utcOffset enter exit c.exitVehicle.plateType
  have hzero : sumFees (withFree c free).bill.details = 0 := by
    rw [withFree, h0, List.nil_append, sumFees]
    apply List.sum_eq_zero
    intro fee hfee
    obtain ⟨d, hd, rfl⟩ := List.mem_map.mp hfee
    exact hfree d hd
  refine ⟨_, by rw [hjson], ?_, ?_⟩
  · rw [hjson]
    exact hi.total
  · have hfees := hi.fees
    rw [hzero, zero_add] at hfees
    exact hfees.symm

theorem chargeBothEnds_agrees_iff (h0 : c.bill.details = []) (h : run (chargeBothEnds env c) w = (.ok c', w')) :
    Agrees c'.json ↔ (billBefore env c w).2.beforeDiscountedFee = 0 := by
  have h1 := fee_itemized c w.rules env.utcOffset c.enterVehicle.passTime c.vip.validBegintime c.exitVehicle.plateType
  have h2 := fee_itemized ({ c with bill := (billBefore env c w).2 }.freeDurationBill env c.vip.validBegintime
    c.vip.expiryDate) w.rules env.utcOffset c.vip.expiryDate c.exitVehicle.passTime c.exitVehicle.plateType
  change Itemized c.bill (billBefore env c w) at h1
  change Itemized _ (billAfter env c w) at h2
  have hsum : sumFees (billAfter env c w).2.details =
      (billBefore env c w).2.beforeDiscountedFee + (billAfter env c w).2.beforeDiscountedFee := by
    have hf1 := h1.fees
    have hf2 := h2.fees
    simp only [Charge.freeDurationBill, Bill.push, sumFees, stayDetail, List.map_append, List.sum_append, h0] at hf1 hf2
    simpa [sumFees, hf1] using hf2
  rw [Agrees, chargeBothEnds_returned env c c' w w' h]
  constructor
  · rintro ⟨bill, hb, -, hbefore⟩
    obtain rfl := Option.some.inj hb
    rw [hsum] at hbefore
    linarith
  · intro hz
    refine ⟨_, rfl, ?_, ?_⟩
    · show (billBefore env c w).1 + (billAfter env c w).1 = _
      rw [h1.free hz, zero_add, h2.total]
    · rw [hsum, hz, zero_add]

theorem passCovered_agrees (h0 : c.bill.details = []) (ht : c.json.totalCharge = 0)
    (h : run (passCovered env c) w = (.ok c', w')) : Agrees c'.json := by
  obtain ⟨a, u, -, hp⟩ := bind_returned _ _ _ _ _ h
  cases hp
  refine ⟨_, rfl, ht, ?_⟩
  show (0 : ℚ) = sumFees c.bill.details
  rw [h0]
  rfl

theorem settleStoredValue_agrees (h0 : c.bill.details = []) (h : run (c.settleStoredValue env) w = (.ok c', w')) :
    Agrees c'.json := by
  have hi : Itemized c.bill (storedFee env c w, storedBill env c w) := fee_itemized c _ _ _ _ _
  have hfees := hi.fees
  rw [h0, show sumFees [] = 0 from rfl, zero_add] at hfees
  obtain ⟨-, hjson, -⟩ | ⟨-, hjson, -⟩ := settleStoredValue_returned env c c' w w' h
  · rw [hjson]
    exact ⟨_, rfl, hi.total, hfees.symm⟩
  · rw [hjson]
    exact ⟨_, rfl, hi.total, hfees.symm⟩

def taxiParking : ℤ := 8

/-- `TaxiCharge`, which the factory does not create and whose computation does not read the kind. -/
def constructTaxi (enter exit : PassVehicle) (offset parkPosition : ℤ) (chargeId : String) : Charge :=
  { Charge.construct .temporaryVehicle enter exit {} offset parkPosition chargeId 0 0 with
    parkingType := taxiParking, json := { chargeId, parkingType := taxiParking } }

def calTaxiCharge : Proc Charge := passCovered env c

end

/-- The report of a settlement agrees with its bill, except where a membership
begins and ends within the stay and the part before it is not free. -/
theorem calCharge_agrees_iff (env : Env) (kind : ChargeKind) (enter exit : PassVehicle) (vip : VIPVehicle)
    (parkPosition freeTimeMode chargePattern : ℤ) (chargeId : String) (w w' : World) (c' : Charge) :
    let c := Charge.construct kind enter exit vip env.utcOffset parkPosition chargeId freeTimeMode chargePattern
    run (c.calCharge env) w = (.ok c', w') →
    (Agrees c'.json ↔
      ¬ ((Timed kind ∧ Straddles c) ∧ (billBefore env c w).2.beforeDiscountedFee ≠ 0)) ∧
    ∀ w' c', run (calTaxiCharge env (constructTaxi enter exit env.utcOffset parkPosition chargeId)) w = (.ok c', w') →
      Agrees c'.json := by
  intro c h
  refine ⟨?_, fun w' c' ht => passCovered_agrees env _ c' w w' rfl rfl ht⟩
  obtain ⟨hs, hends⟩ | ⟨hs, ⟨free, t, t', hfree, hone⟩ | hcov | hstored⟩ := calCharge_cases env c c' w w' h
  · rw [chargeBothEnds_agrees_iff env c c' w w' rfl hends]
    constructor
    · intro h0 hn
      exact hn.2 h0
    · intro hn
      by_contra h0
      exact hn ⟨hs, h0⟩
  · exact iff_of_true (chargeByTimeDuration_agrees env c c' w w' free t t' hfree rfl hone) fun hn => hs hn.1
  · exact iff_of_true (passCovered_agrees env c c' w w' rfl rfl hcov) fun hn => hs hn.1
  · exact iff_of_true (settleStoredValue_agrees env c c' w w' rfl hstored) fun hn => hs hn.1

/-- A monthly member of one late morning, and one until the afternoon. -/
def monthlyMember : VIPVehicle := { lateMorningMember with type := 3 }
def afternoonMember : VIPVehicle := { monthlyMember with expiryDate := 50400 }

def monthlyCharge (vip : VIPVehicle) : Charge := Charge.construct .monthly memberEntry memberExit vip 0 0 "c1" 0 0

/-- The amounts agree where the membership covers the end of the stay. -/
theorem calCharge_agrees_covered_end : ∃ c' w',
    run ((monthlyCharge afternoonMember).calCharge quietEnv) (hourlyPark []) = (.ok c', w') ∧
    (Agrees c'.json ↔ ¬ ((Timed .monthly ∧ Straddles (monthlyCharge afternoonMember)) ∧
      (billBefore quietEnv (monthlyCharge afternoonMember) (hourlyPark [])).2.beforeDiscountedFee ≠ 0)) ∧
    ∀ w' c', run (calTaxiCharge quietEnv (constructTaxi memberEntry memberExit 0 0 "c1")) (hourlyPark []) =
      (.ok c', w') → Agrees c'.json := by
  obtain ⟨c', w', h⟩ := returned_of_isOk ((monthlyCharge afternoonMember).calCharge quietEnv) (hourlyPark [])
    (by decide +kernel)
  exact ⟨c', w', h, calCharge_agrees_iff quietEnv .monthly memberEntry memberExit afternoonMember 0 0 0 "c1"
    (hourlyPark []) w' c' h⟩

/-- Two units are charged for the first hour and the last half of two; the bill
lists both and has the total of one. -/
theorem straddled_report_disagrees : ∃ c' w',
    run ((monthlyCharge monthlyMember).calCharge quietEnv) (hourlyPark []) = (.ok c', w') ∧
    c'.json.totalCharge = 2 ∧ c'.json.bill.map (fun b => (b.totalFee, b.beforeDiscountedFee, sumFees b.details)) =
      some (1, 1, 2) ∧ ¬ Agrees c'.json := by
  obtain ⟨c', w', h⟩ := returned_of_isOk ((monthlyCharge monthlyMember).calCharge quietEnv) (hourlyPark [])
    (by decide +kernel)
  have htotal : (run ((monthlyCharge monthlyMember).calCharge quietEnv) (hourlyPark [])).1.toOption.map
      (·.json.totalCharge) = some 2 := by decide +kernel
  have hbill : (run ((monthlyCharge monthlyMember).calCharge quietEnv) (hourlyPark [])).1.toOption.map
      (fun c => c.json.bill.map fun b => (b.totalFee, b.beforeDiscountedFee, sumFees b.details)) =
        some (some (1, 1, 2)) := by decide +kernel
  rw [h] at htotal hbill
  have hamounts : c'.json.bill.map (fun b => (b.totalFee, b.beforeDiscountedFee, sumFees b.details)) =
      some (1, 1, 2) := Option.some.inj hbill
  refine ⟨c', w', h, Option.some.inj htotal, hamounts, ?_⟩
  rintro ⟨bill, hb, heq, -⟩
  rw [hb, Option.map_some, Option.some.injEq, Prod.mk.injEq] at hamounts
  have htwo : c'.json.totalCharge = 2 := Option.some.inj htotal
  rw [htwo, hamounts.1] at heq
  norm_num at heq

/-- A charge that was created for a member, by the type of the membership. -/
def Matched (kind : ChargeKind) (vip : VIPVehicle) : Prop := kind ≠ .temporaryVehicle ∧ kind = kindOf vip.type

instance (kind : ChargeKind) (vip : VIPVehicle) : Decidable (Matched kind vip) := inferInstanceAs (Decidable (_ ∧ _))

theorem matched_chargeOfList (vips : List VIPVehicle) (h : (chargeOfList vips).1 ≠ .temporaryVehicle) :
    Matched (chargeOfList vips).1 (chargeOfList vips).2 := by
  unfold chargeOfList at h ⊢
  cases hf : vips.find? fun v => decide (v.type = 1 ∨ v.type = 3 ∨ v.type = 4) with
  | some vip =>
    rw [hf] at h
    exact ⟨h, rfl⟩
  | none =>
    rw [hf] at h
    cases vips with
    | nil => exact absurd rfl h
    | cons vip rest =>
      refine ⟨h, ?_⟩
      dsimp only at h ⊢
      by_cases h2 : vip.type = 2
      · rw [if_pos h2, h2]
        rfl
      · rw [if_neg h2] at h
        exact absurd rfl h

/-- Every charge that the factory does not create as one of a temporary vehicle is of this sort. -/
theorem matched_of_choiceOf (like : List UInt8 → String → Bool) (w : World) (plate : String)
    (choice : ChargeKind × VIPVehicle) (h : choiceOf like w plate = .ok choice) (hk : choice.1 ≠ .temporaryVehicle) :
    Matched choice.1 choice.2 := by
  rw [choiceOf] at h
  split_ifs at h
  · obtain ⟨p, -, rfl⟩ := map_ok _ _ _ h
    exact matched_chargeOfList _ hk
  · obtain ⟨ps, -, rfl⟩ := map_ok _ _ _ h
    exact matched_chargeOfList _ hk
  · obtain rfl := Except.ok.inj h
    cases hv : vipOf w plate with
    | none =>
      rw [hv] at hk
      exact absurd rfl hk
    | some vip =>
      rw [hv] at hk
      exact ⟨hk, rfl⟩

theorem matched_type (kind : ChargeKind) (vip : VIPVehicle) (h : Matched kind vip) :
    vip.type ≠ temporaryVehicleParking := by
  obtain ⟨hk, rfl⟩ := h
  intro ht
  rw [ht] at hk
  exact hk rfl

section

variable (env : Env) (c c' : Charge) (w w' : World)

theorem chargeBothEnds_reported (h : run (chargeBothEnds env c) w = (.ok c', w')) :
    c'.json.parkingType = c.json.parkingType ∧
      c'.json.requireCharge = partFee env c w c.enterVehicle.passTime c.vip.validBegintime +
        partFee env c w c.vip.expiryDate c.exitVehicle.passTime := by
  refine ⟨?_, (both_ends_reported env c c' w w' h).2⟩
  rw [chargeBothEnds_returned env c c' w w' h]

theorem passCovered_requireCharge (h0 : c.json.requireCharge = 0) (h : run (passCovered env c) w = (.ok c', w')) :
    c'.json.requireCharge = 0 := by
  obtain ⟨a, u, -, hp⟩ := bind_returned _ _ _ _ _ h
  cases hp
  exact h0

theorem settleStoredValue_temporary (h : run (c.settleStoredValue env) w = (.ok c', w'))
    (hr : c'.json.requireCharge ≠ 0) : c'.json.parkingType = temporaryVehicleParking := by
  obtain ⟨-, hjson, -⟩ | ⟨-, hjson, -⟩ := settleStoredValue_returned env c c' w w' h
  · rw [hjson] at hr
    exact absurd rfl hr
  · rw [hjson]

end

/-- A member who must pay is reported as a temporary vehicle, except where a
membership begins and ends within the stay and its ends are not free. -/
theorem calCharge_temporary_iff (env : Env) (kind : ChargeKind) (enter exit : PassVehicle) (vip : VIPVehicle)
    (parkPosition freeTimeMode chargePattern : ℤ) (chargeId : String) (w w' : World) (c' : Charge)
    (hm : Matched kind vip) :
    let c := Charge.construct kind enter exit vip env.utcOffset parkPosition chargeId freeTimeMode chargePattern
    run (c.calCharge env) w = (.ok c', w') →
    ((c'.json.requireCharge ≠ 0 → c'.json.parkingType = temporaryVehicleParking) ↔
      ¬ ((Timed kind ∧ Straddles c) ∧ partFee env c w enter.passTime vip.validBegintime +
        partFee env c w vip.expiryDate exit.passTime ≠ 0)) := by
  intro c h
  obtain ⟨hs, hends⟩ | ⟨hs, ⟨free, t, t', -, hone⟩ | hcov | hstored⟩ := calCharge_cases env c c' w w' h
  · obtain ⟨htype, hrequire⟩ := chargeBothEnds_reported env c c' w w' hends
    rw [hrequire, htype]
    constructor
    · intro ht hn
      exact matched_type kind vip hm (ht hn.2)
    · intro hn hr
      exact absurd ⟨hs, hr⟩ hn
  · obtain ⟨hjson, -⟩ := chargeByTimeDuration_returned env _ c' w w' t t' hone
    exact iff_of_true (fun _ => by rw [hjson]) fun hn => hs hn.1
  · exact iff_of_true (fun hr => absurd (passCovered_requireCharge env c c' w w' rfl hcov) hr) fun hn => hs hn.1
  · exact iff_of_true (settleStoredValue_temporary env c c' w w' hstored) fun hn => hs hn.1

theorem calCharge_temporary_covered_end : Matched .monthly afternoonMember ∧ ∃ c' w',
    run ((monthlyCharge afternoonMember).calCharge quietEnv) (hourlyPark []) = (.ok c', w') ∧
    ((c'.json.requireCharge ≠ 0 → c'.json.parkingType = temporaryVehicleParking) ↔
      ¬ ((Timed .monthly ∧ Straddles (monthlyCharge afternoonMember)) ∧
        partFee quietEnv (monthlyCharge afternoonMember) (hourlyPark []) 36000 39600 +
          partFee quietEnv (monthlyCharge afternoonMember) (hourlyPark []) 50400 43200 ≠ 0)) := by
  obtain ⟨c', w', h⟩ := returned_of_isOk ((monthlyCharge afternoonMember).calCharge quietEnv) (hourlyPark [])
    (by decide +kernel)
  exact ⟨by decide, c', w', h, calCharge_temporary_iff quietEnv .monthly memberEntry memberExit afternoonMember 0 0 0
    "c1" (hourlyPark []) w' c' (by decide) h⟩

/-- The monthly member who is to pay two units is reported as a monthly one. -/
theorem straddled_report_monthly : Matched .monthly monthlyMember ∧ ∃ c' w',
    run ((monthlyCharge monthlyMember).calCharge quietEnv) (hourlyPark []) = (.ok c', w') ∧
    c'.json.requireCharge = 2 ∧ c'.json.parkingType = 3 ∧
    ¬ (c'.json.requireCharge ≠ 0 → c'.json.parkingType = temporaryVehicleParking) := by
  obtain ⟨c', w', h⟩ := returned_of_isOk ((monthlyCharge monthlyMember).calCharge quietEnv) (hourlyPark [])
    (by decide +kernel)
  have hreport : (run ((monthlyCharge monthlyMember).calCharge quietEnv) (hourlyPark [])).1.toOption.map
      (fun c => (c.json.requireCharge, c.json.parkingType)) = some (2, 3) := by decide +kernel
  rw [h] at hreport
  obtain ⟨hrequire, htype⟩ := Prod.mk.inj (Option.some.inj hreport)
  refine ⟨by decide, c', w', h, hrequire, htype, ?_⟩
  rw [hrequire, htype]
  decide

end BitPark.ReportedCharge
