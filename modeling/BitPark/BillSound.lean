import BitPark.ChargeByTime
import BitPark.RuleTable

namespace BitPark.BillSound

open BitPark.TimePeriod BitPark.Tariff BitPark.DivideTime BitPark.ChargeByTime BitPark.RuleTable

def span (d : Detail) : Period := ⟨d.beginTime, d.endTime⟩

/-- A computation that appends details for the given periods, with the given
fees in sum, and leaves the discount alone. -/
structure Appends (bill bill' : Bill) (ps : List Period) (fee : ℚ) : Prop where
  spans : bill'.details.map span = bill.details.map span ++ ps
  fees : (bill'.details.map Detail.fee).sum = (bill.details.map Detail.fee).sum + fee
  discount : bill'.discount = bill.discount

theorem appends_push (bill bill' : Bill) (d : Detail) (hd : bill'.details = bill.details ++ [d])
    (hc : bill'.discount = bill.discount) : Appends bill bill' [span d] d.fee where
  spans := by simp [hd]
  fees := by simp [hd]
  discount := hc

theorem appends_trans {a b c : Bill} {ps qs : List Period} {f g : ℚ} (hf : Appends a b ps f)
    (hg : Appends b c qs g) : Appends a c (ps ++ qs) (f + g) where
  spans := by rw [hg.spans, hf.spans, List.append_assoc]
  fees := by rw [hg.fees, hf.fees, add_assoc]
  discount := hg.discount.trans hf.discount

theorem calChargeByTime_appends (rule : ChargeRule) (period : Period) (mode vehicleType : ℤ)
    (firstDay : Bool) (bill : Bill) :
    Appends bill (calChargeByTime rule period mode vehicleType firstDay bill).2 [period]
      (calChargeByTime rule period mode vehicleType firstDay bill).1 := by
  have hp : ∀ (bill' : Bill) (fee : ℚ), bill'.details = bill.details → bill'.discount = bill.discount →
      Appends bill (bill'.push (periodDetail period rule.id fee)) [period] fee :=
    fun bill' fee hd hc => appends_push bill _ (periodDetail period rule.id fee)
      (by rw [Bill.push, hd]) hc
  rw [calChargeByTime]
  dsimp only
  split_ifs <;> exact hp _ _ rfl rfl

theorem middleDays_appends (ruleId : String) (fee : ℚ) (periods : List Period) (total : ℚ) (bill : Bill) :
    ∃ sum, (middleDays ruleId fee periods total bill).1 = total + sum ∧
      Appends bill (middleDays ruleId fee periods total bill).2 periods sum := by
  induction periods generalizing total bill with
  | nil => exact ⟨0, (add_zero total).symm, ⟨by simp [middleDays], by simp [middleDays], rfl⟩⟩
  | cons p ps ih =>
    obtain ⟨sum, ht, ha⟩ := ih (total + fee) (bill.push (periodDetail p ruleId fee))
    have hp := appends_push bill (bill.push (periodDetail p ruleId fee)) (periodDetail p ruleId fee) rfl rfl
    exact ⟨fee + sum, ht.trans (add_assoc total fee sum), appends_trans hp ha⟩

theorem chargePeriods0_appends (rule : ChargeRule) (mode vehicleType : ℤ) (first : Period)
    (others : List Period) (bill : Bill) :
    Appends bill (chargePeriods0 rule mode vehicleType first others bill).2 (first :: others)
      (chargePeriods0 rule mode vehicleType first others bill).1 := by
  have h1 := calChargeByTime_appends rule first mode vehicleType true bill
  rw [chargePeriods0]
  cases hl : others.getLast? with
  | none =>
    rw [List.getLast?_eq_none_iff] at hl
    subst hl
    exact h1
  | some last =>
    obtain ⟨sum, hs, hm⟩ := middleDays_appends rule.id
      (calChargeByTime rule first mode vehicleType true bill).1 others.dropLast
      (calChargeByTime rule first mode vehicleType true bill).1
      (calChargeByTime rule first mode vehicleType true bill).2
    have h3 := appends_trans (appends_trans h1 hm) (calChargeByTime_appends rule last mode vehicleType false _)
    have hd : [first] ++ others.dropLast ++ [last] = first :: others := by
      rw [List.singleton_append, List.cons_append, List.dropLast_append_getLast? last hl]
    rw [hd] at h3
    dsimp only
    rw [hs]
    exact h3

theorem charge_appends (s s' : Day1State) (d : Detail) (hd : s'.bill.details = s.bill.details)
    (hc : s'.bill.discount = s.bill.discount) :
    Appends s.bill (s'.charge d).bill [span d] d.fee :=
  appends_push s.bill _ d (by simp [Day1State.charge, Bill.push, hd]) hc

/-- Every way through an iteration of pattern 1 appends one detail, for the
whole period, and adds its fee to the total. -/
theorem chargeDay1_appends (src : RuleSource) (mode vehicleType pos : ℤ) (s : Day1State) (period : Period) :
    ∃ fee, (chargeDay1 src mode vehicleType pos s period).totalFee = s.totalFee + fee ∧
      Appends s.bill (chargeDay1 src mode vehicleType pos s period).bill [period] fee := by
  have hc : ∀ (s' : Day1State) (d : Detail), s'.totalFee = s.totalFee → span d = period →
      s'.bill.details = s.bill.details → s'.bill.discount = s.bill.discount →
      ∃ fee, (s'.charge d).totalFee = s.totalFee + fee ∧ Appends s.bill (s'.charge d).bill [period] fee := by
    intro s' d ht hs hd hb
    refine ⟨d.fee, by rw [Day1State.charge, ht], ?_⟩
    have ha := charge_appends s s' d hd hb
    rwa [hs] at ha
  rw [chargeDay1]
  dsimp only
  by_cases h : period.stop ≤ period.begin + s.borrowedTime
  · rw [if_pos h]
    exact hc s _ rfl rfl rfl rfl
  · rw [if_neg h]
    cases src.queryChargeRule (.date (dateOf (period.begin + s.borrowedTime))) pos with
    | none => exact hc s _ rfl rfl rfl rfl
    | some rule =>
      dsimp only [billDay1]
      split_ifs <;> exact hc _ _ rfl rfl rfl rfl

theorem chargeDays1_appends (src : RuleSource) (mode vehicleType pos : ℤ) (ps : List Period) (s : Day1State) :
    ∃ fee, (ps.foldl (chargeDay1 src mode vehicleType pos) s).totalFee = s.totalFee + fee ∧
      Appends s.bill (ps.foldl (chargeDay1 src mode vehicleType pos) s).bill ps fee := by
  induction ps generalizing s with
  | nil => exact ⟨0, (add_zero _).symm, ⟨by simp, by simp, rfl⟩⟩
  | cons p ps ih =>
    obtain ⟨f, hf, ha⟩ := chargeDay1_appends src mode vehicleType pos s p
    obtain ⟨g, hg, hb⟩ := ih (chargeDay1 src mode vehicleType pos s p)
    exact ⟨f + g, by rw [List.foldl_cons, hg, hf, add_assoc], appends_trans ha hb⟩

/-- A bill that accounts for a stay: its details tile the stay, and its
amounts and the returned fee agree. -/
structure Sound (bill : Bill) (enter exit : ℤ) (fee : ℚ) : Prop where
  ordered : ∀ d ∈ bill.details, d.beginTime ≤ d.endTime
  contiguous : bill.details.IsChain (fun d d' => d.endTime = d'.beginTime)
  union : ∀ t, (∃ d ∈ bill.details, d.beginTime ≤ t ∧ t < d.endTime) ↔ enter ≤ t ∧ t < exit
  before : bill.beforeDiscountedFee = (bill.details.map Detail.fee).sum
  total : fee = bill.totalFee
  discounted : fee = bill.beforeDiscountedFee * bill.discount

theorem sound_of_tiles (bill : Bill) (enter exit : ℤ) (fee : ℚ)
    (ht : Tiles (bill.details.map span) enter exit)
    (hb : bill.beforeDiscountedFee = (bill.details.map Detail.fee).sum) (hf : fee = bill.totalFee)
    (hd : fee = bill.beforeDiscountedFee * bill.discount) : Sound bill enter exit fee where
  ordered := fun d hd => tiles_wf _ _ _ ht (span d) (List.mem_map_of_mem hd)
  contiguous := by
    have h := tiles_contiguous _ _ _ ht
    rwa [List.isChain_map] at h
  union := fun t => by simpa [span] using tiles_union _ _ _ ht t
  before := hb
  total := hf
  discounted := hd

theorem sound_stay (bill : Bill) (offset enter exit : ℤ) (h : enter ≤ exit) (ruleId : String) (fee : ℚ)
    (hd : bill.details = [stayDetail offset enter exit ruleId fee]) (hb : bill.beforeDiscountedFee = fee)
    (ht : bill.totalFee = fee) (hc : bill.discount = 1) :
    Sound bill (utcToLocal offset enter) (utcToLocal offset exit) fee := by
  apply sound_of_tiles
  · rw [hd]
    exact ⟨rfl, (utcToLocal_le_iff offset enter exit).mpr h, rfl⟩
  · simp [hd, hb, stayDetail]
  · exact ht.symm
  · rw [hb, hc, mul_one]

theorem sound_settle (bill bill' : Bill) (enter exit : ℤ) (ps : List Period) (total discount : ℚ)
    (h0 : bill.details = []) (hc : bill.discount = discount) (ha : Appends bill bill' ps total)
    (ht : Tiles ps enter exit) :
    Sound (bill'.settle total (total * discount)) enter exit (total * discount) := by
  apply sound_of_tiles
  · have hs := ha.spans
    rw [h0, List.map_nil, List.nil_append] at hs
    simpa only [Bill.settle, hs] using ht
  · simpa [Bill.settle, h0] using ha.fees.symm
  · rfl
  · simp [Bill.settle, ha.discount, hc]

section

variable (src : RuleSource) (offset enter exit mode vehicleType pos : ℤ) (discount : ℚ) (bill : Bill)
variable (h : enter ≤ exit) (h0 : bill.details = []) (hc : bill.discount = discount)
include h h0

theorem calChargeTooDays_sound (days : ℤ) :
    Sound (calChargeTooDays src offset enter exit days vehicleType pos bill).2
      (utcToLocal offset enter) (utcToLocal offset exit)
      (calChargeTooDays src offset enter exit days vehicleType pos bill).1 :=
  sound_stay _ offset enter exit h _ _ (by simp [calChargeTooDays, Bill.settle, Bill.push, h0]; rfl) rfl rfl rfl

theorem noChargeBill_sound :
    Sound (noChargeBill offset enter exit bill) (utcToLocal offset enter) (utcToLocal offset exit) 0 :=
  sound_stay _ offset enter exit h "" 0 (by simp [noChargeBill, Bill.settle, Bill.push, h0]) rfl rfl rfl

include hc

theorem chargeByTime0_sound :
    Sound (chargeByTime0 src offset enter exit mode vehicleType pos discount bill).2
      (utcToLocal offset enter) (utcToLocal offset exit)
      (chargeByTime0 src offset enter exit mode vehicleType pos discount bill).1 := by
  rw [chargeByTime0]
  cases hp : divideTimeByDay0 (utcToLocal offset enter) (utcToLocal offset exit) with
  | nil => exact noChargeBill_sound offset enter exit bill h h0
  | cons first others =>
    have hlt : enter < exit := by
      refine lt_of_le_of_ne h fun he => ?_
      rw [he, divideTimeByDay0_empty] at hp
      cases hp
    have ht := splits_tiles divideTimeByDay0_splits _ _ ((utcToLocal_lt_iff offset enter exit).mpr hlt)
    rw [hp] at ht
    dsimp only
    split_ifs
    · exact calChargeTooDays_sound src offset enter exit vehicleType pos bill h h0 _
    · cases src.queryChargeRule (.localTime (utcToLocal offset enter)) pos with
      | none => exact noChargeBill_sound offset enter exit bill h h0
      | some rule =>
        exact sound_settle _ _ _ _ _ _ discount h0 hc
          (chargePeriods0_appends rule mode vehicleType first others _) ht

theorem chargeByTime1_sound :
    Sound (chargeByTime1 src offset enter exit mode vehicleType pos discount bill).2
      (utcToLocal offset enter) (utcToLocal offset exit)
      (chargeByTime1 src offset enter exit mode vehicleType pos discount bill).1 := by
  have ht : Tiles (divideTimeByDay1 (utcToLocal offset enter) (utcToLocal offset exit))
      (utcToLocal offset enter) (utcToLocal offset exit) := by
    rcases h.eq_or_lt with rfl | hlt
    · rw [divideTimeByDay1_short _ _ le_rfl (le_of_lt (nextMidnight_bounds _).1)]
      exact ⟨rfl, le_rfl, rfl⟩
    · exact splits_tiles divideTimeByDay1_splits _ _ ((utcToLocal_lt_iff offset enter exit).mpr hlt)
  rw [chargeByTime1]
  dsimp only
  split_ifs
  · exact calChargeTooDays_sound src offset enter exit vehicleType pos bill h h0 _
  · obtain ⟨fee, hf, ha⟩ := chargeDays1_appends src mode vehicleType pos
      (divideTimeByDay1 (utcToLocal offset enter) (utcToLocal offset exit)) { bill }
    rw [zero_add] at hf
    rw [hf]
    exact sound_settle _ _ _ _ _ _ discount h0 hc ha ht

end

/-- Every exit of `ChargeByTime` leaves a bill that accounts for the stay. -/
theorem chargeByTime_sound (src : RuleSource) (offset enter exit pattern mode vehicleType pos : ℤ)
    (discount : ℚ) (bill : Bill) (h : enter ≤ exit) (h0 : bill.details = [])
    (hc : bill.discount = discount) :
    Sound (chargeByTime src offset enter exit pattern mode vehicleType pos discount bill).2
      (utcToLocal offset enter) (utcToLocal offset exit)
      (chargeByTime src offset enter exit pattern mode vehicleType pos discount bill).1 := by
  have hp : Sound (chargeByPattern src offset enter exit pattern mode vehicleType pos discount bill).2
      (utcToLocal offset enter) (utcToLocal offset exit)
      (chargeByPattern src offset enter exit pattern mode vehicleType pos discount bill).1 := by
    rw [chargeByPattern]
    split_ifs
    · exact chargeByTime1_sound src offset enter exit mode vehicleType pos discount bill h h0 hc
    · exact chargeByTime0_sound src offset enter exit mode vehicleType pos discount bill h h0 hc
  obtain hq | ⟨rule, -, -, hq⟩ :=
    chargeByTime_cases src offset enter exit pattern mode vehicleType pos discount bill
  · rwa [hq]
  · rw [hq]
    exact sound_stay _ offset enter exit h rule.id 0 (by simp [Bill.settle, Bill.push, h0]) rfl rfl rfl

theorem chargeByTime_sound_overnight :
    Sound (chargeByTime (tableSource [hourlyRow []]) 0 68400 176400 1 0 0 0 (1 / 2) { discount := 1 / 2 }).2
      (seconds 68400) (seconds 176400) 8 := by
  have h := chargeByTime_sound (tableSource [hourlyRow []]) 0 68400 176400 1 0 0 0 (1 / 2)
    { discount := 1 / 2 } (by decide) rfl rfl
  have hf : (chargeByTime (tableSource [hourlyRow []]) 0 68400 176400 1 0 0 0 (1 / 2)
      { discount := 1 / 2 }).1 = 8 := by decide +kernel
  rwa [hf] at h

end BitPark.BillSound
