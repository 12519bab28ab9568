import BitPark.Settlement

namespace BitPark.VehicleType

open BitPark.TimePeriod BitPark.Tariff BitPark.DivideTime BitPark.ParkingTimes BitPark.ChargeByTime BitPark.RuleTable
  BitPark.Effect BitPark.Server BitPark.Database BitPark.Devices BitPark.Charging BitPark.Settlement

section

variable (src : RuleSource) (offset enter exit mode v v' pos : ℤ) (discount : ℚ) (bill : Bill)
variable (rule : ChargeRule) (hv : v = 1 ↔ v' = 1)
include hv

theorem dayUnit_type : rule.dayUnit v = rule.dayUnit v' := by
  simp only [ChargeRule.dayUnit, hv]

theorem nightUnit_type : rule.nightUnit v = rule.nightUnit v' := by
  simp only [ChargeRule.nightUnit, hv]

theorem calOneDayCharge_type (daylight night : ℤ) :
    calOneDayChargeByVehicleType daylight night v rule = calOneDayChargeByVehicleType daylight night v' rule := by
  simp only [calOneDayChargeByVehicleType, hv]

theorem periodFee0_type (period : Period) : periodFee0 rule period v = periodFee0 rule period v' := by
  simp only [periodFee0, borrowTime, dayUnit_type v v' rule hv, nightUnit_type v v' rule hv,
    calOneDayCharge_type v v' rule hv]

theorem calChargeByTime_type (period : Period) (firstDay : Bool) :
    calChargeByTime rule period mode v firstDay bill = calChargeByTime rule period mode v' firstDay bill := by
  simp only [calChargeByTime, periodFee0_type v v' rule hv]

theorem chargeByTime0_type : chargeByTime0 src offset enter exit mode v pos discount bill =
    chargeByTime0 src offset enter exit mode v' pos discount bill := by
  simp only [chargeByTime0, calChargeTooDays, chargePeriods0, calChargeByTime_type mode v v' _ _ hv, hv]

theorem billDay1_type (date : ℤ) (park : Period) (d : Detail) (s : Day1State) :
    billDay1 rule v date park d s = billDay1 rule v' date park d s := by
  simp only [billDay1, completeDay1, dayUnit_type v v' rule hv, nightUnit_type v v' rule hv,
    calOneDayCharge_type v v' rule hv]

theorem chargeDay1_type : chargeDay1 src mode v pos = chargeDay1 src mode v' pos := by
  funext s period
  simp only [chargeDay1, billDay1_type v v' _ hv]

theorem chargeByTime1_type : chargeByTime1 src offset enter exit mode v pos discount bill =
    chargeByTime1 src offset enter exit mode v' pos discount bill := by
  simp only [chargeByTime1, calChargeTooDays, chargeDay1_type src mode v v' pos hv, hv]

/-- A fee knows large vehicles and others, and no finer types. -/
theorem chargeByTime_type (pattern : ℤ) : chargeByTime src offset enter exit pattern mode v pos discount bill =
    chargeByTime src offset enter exit pattern mode v' pos discount bill := by
  simp only [chargeByTime, chargeByPattern, chargeByTime0_type src offset enter exit mode v v' pos discount _ hv,
    chargeByTime1_type src offset enter exit mode v v' pos discount _ hv]

end

/-- The cameras at entry and exit agree on whether the vehicle is a large one. -/
def SameClass (enter exit : PassVehicle) : Prop := enter.plateType = 1 ↔ exit.plateType = 1

section

variable (env : Env) (enter exit : PassVehicle) (parkPosition freeTimeMode chargePattern : ℤ) (discount : ℚ) (w : World)

/-- The price of a stay for a vehicle type. -/
def feeAs (vehicleType : ℤ) : ℚ :=
  (chargeByTime (tableSource w.rules) env.utcOffset enter.passTime exit.passTime chargePattern freeTimeMode vehicleType
    parkPosition discount {}).1

/-- The stay is priced alike for the two types recognised, and a vehicle of
either is not paid for staying. -/
def PricedAlike : Prop :=
  let atExit := feeAs env enter exit parkPosition freeTimeMode chargePattern discount w exit.plateType
  let atEntry := feeAs env enter exit parkPosition freeTimeMode chargePattern discount w enter.plateType
  0 ≤ atExit ∧ (SameClass enter exit ∨ atEntry = atExit ∨ atEntry < 0 ∧ atExit = 0)

theorem pricedAlike_iff : PricedAlike env enter exit parkPosition freeTimeMode chargePattern discount w ↔
    max 0 (feeAs env enter exit parkPosition freeTimeMode chargePattern discount w enter.plateType) =
      feeAs env enter exit parkPosition freeTimeMode chargePattern discount w exit.plateType := by
  have hsame : SameClass enter exit →
      feeAs env enter exit parkPosition freeTimeMode chargePattern discount w enter.plateType =
        feeAs env enter exit parkPosition freeTimeMode chargePattern discount w exit.plateType := by
    intro hv
    rw [feeAs, chargeByTime_type _ _ _ _ _ _ _ _ _ _ hv, feeAs]
  rw [PricedAlike]
  generalize feeAs env enter exit parkPosition freeTimeMode chargePattern discount w enter.plateType = a at *
  generalize feeAs env enter exit parkPosition freeTimeMode chargePattern discount w exit.plateType = b at *
  constructor
  · rintro ⟨hb, hv | rfl | ⟨ha, rfl⟩⟩
    · rw [hsame hv, max_eq_right hb]
    · exact max_eq_right hb
    · exact max_eq_left ha.le
  · intro h
    refine ⟨h ▸ le_max_left 0 a, ?_⟩
    rcases le_or_gt 0 a with ha | ha
    · rw [max_eq_right ha] at h
      exact .inr (.inl h)
    · rw [max_eq_left ha.le] at h
      exact .inr (.inr ⟨ha, h.symm⟩)

theorem storedValue_require (vip : VIPVehicle) (chargeId : String) (w' : World) (c' : Charge)
    (ha : vip.deleteStatus = "1") (h0 : vip.remainMoney = 0) :
    let c := Charge.construct .storedValue enter exit vip env.utcOffset parkPosition chargeId freeTimeMode chargePattern
    run (c.calCharge env) w = (.ok c', w') → c'.json.requireCharge =
      max 0 (feeAs env enter exit parkPosition freeTimeMode chargePattern vip.discount w enter.plateType) := by
  intro c h
  change run (if vip.deleteStatus = "1" then c.settleStoredValue env else c.chargeByAccessTime env) w = _ at h
  rw [if_pos ha] at h
  have hfee : storedFee env c w =
      feeAs env enter exit parkPosition freeTimeMode chargePattern vip.discount w enter.plateType :=
    chargeByTime_bill _ _ _ _ _ _ _ _ _ _ _
  obtain ⟨hl, hjson, -⟩ | ⟨hl, hjson, -⟩ := settleStoredValue_returned env c c' w w' h
  · rw [show c.vip.remainMoney = 0 from h0, hfee] at hl
    rw [hjson, max_eq_left (by linarith)]
  · rw [show c.vip.remainMoney = 0 from h0, hfee] at hl hjson
    rw [hjson, max_eq_right (by linarith), zero_sub, neg_neg]

theorem temporary_require (vip : VIPVehicle) (chargeId : String) (w' : World) (c' : Charge)
    (h : run ((Charge.construct .temporaryVehicle enter exit vip env.utcOffset parkPosition chargeId freeTimeMode
      chargePattern).calCharge env) w = (.ok c', w')) :
    c'.json.requireCharge =
      feeAs env enter exit parkPosition freeTimeMode chargePattern vip.discount w exit.plateType := by
  obtain ⟨hjson, -⟩ := chargeByTimeDuration_returned env _ c' w w' _ _ h
  rw [hjson]
  exact chargeByTime_bill _ _ _ _ _ _ _ _ _ _ _

end

/-- A stored-value member without a balance is asked for the same amount as a
temporary vehicle exactly where the stay is priced alike. -/
theorem storedValue_price_iff (env : Env) (enter exit : PassVehicle) (vip vip' : VIPVehicle)
    (parkPosition freeTimeMode chargePattern : ℤ) (chargeId chargeId' : String) (w w₁ w₂ : World) (c₁ c₂ : Charge)
    (ha : vip.deleteStatus = "1") (h0 : vip.remainMoney = 0) (hd : vip'.discount = vip.discount)
    (h₁ : run ((Charge.construct .storedValue enter exit vip env.utcOffset parkPosition chargeId freeTimeMode
      chargePattern).calCharge env) w = (.ok c₁, w₁))
    (h₂ : run ((Charge.construct .temporaryVehicle enter exit vip' env.utcOffset parkPosition chargeId' freeTimeMode
      chargePattern).calCharge env) w = (.ok c₂, w₂)) :
    c₁.json.requireCharge = c₂.json.requireCharge ↔
      PricedAlike env enter exit parkPosition freeTimeMode chargePattern vip.discount w := by
  rw [pricedAlike_iff, storedValue_require env enter exit parkPosition freeTimeMode chargePattern w vip chargeId w₁ c₁
    ha h0 h₁, temporary_require env enter exit parkPosition freeTimeMode chargePattern w vip' chargeId' w₂ c₂ h₂, hd]

/-- A member with an empty balance and half the price, and anyone with that discount. -/
def emptyMember : VIPVehicle := { storedMember with remainMoney := 0, discount := 1 / 2 }
def halfPrice : VIPVehicle := { discount := 1 / 2 }

def priceCharge (kind : ChargeKind) (enter : PassVehicle) (vip : VIPVehicle) : Charge :=
  Charge.construct kind enter memberExit vip 0 0 "c1" 0 0

theorem storedValue_price_two_hours : emptyMember.deleteStatus = "1" ∧ emptyMember.remainMoney = 0 ∧
    halfPrice.discount = emptyMember.discount ∧ ∃ c₁ w₁ c₂ w₂,
    run ((priceCharge .storedValue memberEntry emptyMember).calCharge quietEnv) (hourlyPark []) = (.ok c₁, w₁) ∧
    run ((priceCharge .temporaryVehicle memberEntry halfPrice).calCharge quietEnv) (hourlyPark []) = (.ok c₂, w₂) ∧
    (c₁.json.requireCharge = c₂.json.requireCharge ↔
      PricedAlike quietEnv memberEntry memberExit 0 0 0 (1 / 2) (hourlyPark [])) := by
  obtain ⟨c₁, w₁, h₁⟩ := returned_of_isOk ((priceCharge .storedValue memberEntry emptyMember).calCharge quietEnv)
    (hourlyPark []) (by decide +kernel)
  obtain ⟨c₂, w₂, h₂⟩ := returned_of_isOk ((priceCharge .temporaryVehicle memberEntry halfPrice).calCharge quietEnv)
    (hourlyPark []) (by decide +kernel)
  exact ⟨by decide, by decide, rfl, c₁, w₁, c₂, w₂, h₁, h₂, storedValue_price_iff quietEnv memberEntry memberExit
    emptyMember halfPrice 0 0 0 "c1" "c1" (hourlyPark []) w₁ w₂ c₁ c₂ (by decide) (by decide) rfl h₁ h₂⟩

/-- The entry camera takes the vehicle for a large one, whose hour costs two. -/
def largeEntry : PassVehicle := { memberEntry with plateType := 1 }
def twoPricePark : World := { hourlyPark [] with rules := [{ RuleTable.hourlyRow [] with dayFeeRateBig := 2 }] }

/-- The member pays two units for two hours at half the price, a temporary vehicle one. -/
theorem large_entry_priced_twice : ∃ c₁ w₁ c₂ w₂,
    run ((priceCharge .storedValue largeEntry emptyMember).calCharge quietEnv) twoPricePark = (.ok c₁, w₁) ∧
    run ((priceCharge .temporaryVehicle largeEntry halfPrice).calCharge quietEnv) twoPricePark = (.ok c₂, w₂) ∧
    c₁.json.requireCharge = 2 ∧ c₂.json.requireCharge = 1 ∧ ¬ c₁.json.requireCharge = c₂.json.requireCharge := by
  obtain ⟨c₁, w₁, h₁⟩ := returned_of_isOk ((priceCharge .storedValue largeEntry emptyMember).calCharge quietEnv)
    twoPricePark (by decide +kernel)
  obtain ⟨c₂, w₂, h₂⟩ := returned_of_isOk ((priceCharge .temporaryVehicle largeEntry halfPrice).calCharge quietEnv)
    twoPricePark (by decide +kernel)
  have htwo : (run ((priceCharge .storedValue largeEntry emptyMember).calCharge quietEnv) twoPricePark).1.toOption.map
      (·.json.requireCharge) = some 2 := by decide +kernel
  have hone : (run ((priceCharge .temporaryVehicle largeEntry halfPrice).calCharge quietEnv)
      twoPricePark).1.toOption.map (·.json.requireCharge) = some 1 := by decide +kernel
  rw [h₁] at htwo
  rw [h₂] at hone
  have heq : c₁.json.requireCharge = 2 := Option.some.inj htwo
  have heq' : c₂.json.requireCharge = 1 := Option.some.inj hone
  refine ⟨c₁, w₁, c₂, w₂, h₁, h₂, heq, heq', ?_⟩
  rw [heq, heq']
  norm_num

end BitPark.VehicleType
