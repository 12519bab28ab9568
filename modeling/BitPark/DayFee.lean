import BitPark.BillingTime
import BitPark.Rounding

namespace BitPark.DayFee

open BitPark.TimePeriod BitPark.Rounding BitPark.Tariff BitPark.DivideTime BitPark.ParkingTimes
  BitPark.ChargeByTime BitPark.EffectiveTime BitPark.BillingTime

theorem completeTime_eq_missing (m u : ℤ) (hm : 0 ≤ m) (hu : 0 < u) : completeTime m u = missing m u := by
  have hdiv := Int.mul_ediv_add_emod m u
  have hlo := Int.emod_nonneg m hu.ne'
  have hhi := Int.emod_lt_of_pos m hu
  unfold completeTime missing
  rw [Int.tmod_eq_emod_of_nonneg hm]
  dsimp only
  split_ifs with h
  · rw [units_eq m u (m / u) hu (by rw [mul_sub]; omega) (by omega)]
    omega
  · rw [units_eq m u (m / u + 1) hu (by rw [add_sub_cancel_right]; omega) (by rw [mul_add]; omega), mul_add]
    omega

theorem totalMinutes_add (d c : ℤ) (hd : 0 ≤ d) (hc : 0 ≤ c) :
    totalMinutes (d + minutes c) = totalMinutes d + c := by
  rw [minutes]
  rw [totalMinutes_eq_ediv d hd, totalMinutes_eq_ediv _ (by unfold minuteTicks; omega)]
  rw [minuteTicks]
  omega

theorem totalMinutes_clamp (d c : ℤ) (hd : 0 ≤ d) :
    totalMinutes (clampNegative (d - minutes c)) = max 0 (totalMinutes d - c) := by
  rw [clampNegative]
  rw [totalMinutes_eq_ediv d hd]
  split_ifs with h
  · rw [minutes, minuteTicks] at *
    rw [max_eq_left (by omega)]
    rfl
  · rw [totalMinutes_eq_ediv _ (not_lt.mp h)]
    rw [minutes, minuteTicks] at *
    omega

theorem totalMinutes_mono (d d' : ℤ) (hd : 0 ≤ d) (h : d ≤ d') : totalMinutes d ≤ totalMinutes d' := by
  rw [totalMinutes_eq_ediv d hd, totalMinutes_eq_ediv d' (hd.trans h)]
  exact Int.ediv_le_ediv (by decide) h

/-- A stay that begins at this time of day completes its night units from the daylight. -/
def nightStart (rule : ChargeRule) (tod : ℤ) : Bool := tod < rule.daylightBegin ∨ rule.nightBegin ≤ tod

/-- The tariff of a stay by the kind of time it begins in, before the daily maximum. -/
def borrowFee (rule : ChargeRule) (v : ℤ) (night : Bool) (time : ParkingTime) : ℚ :=
  if night then
    twoRate (rule.nightUnit v) (rule.nightRate v) (rule.dayUnit v) (rule.dayRate v)
      (totalMinutes time.nightTime) (totalMinutes time.daylightTime)
  else
    twoRate (rule.dayUnit v) (rule.dayRate v) (rule.nightUnit v) (rule.nightRate v)
      (totalMinutes time.daylightTime) (totalMinutes time.nightTime)

/-- One unit of the time a stay begins in costs at least the time it may
take from the other kind. -/
def RatesBalanced (rule : ChargeRule) (v : ℤ) (night : Bool) : Prop :=
  if night then Balanced (rule.nightUnit v) (rule.nightRate v) (rule.dayUnit v) (rule.dayRate v)
  else Balanced (rule.dayUnit v) (rule.dayRate v) (rule.nightUnit v) (rule.nightRate v)

section

variable (rule : ChargeRule) (v : ℤ) (time : ParkingTime)
variable (hd : 0 ≤ time.daylightTime) (hn : 0 ≤ time.nightTime)
include hd hn

theorem calOneDay_borrowTime (hu : 0 < rule.dayUnit v) (hw : 0 < rule.nightUnit v) (tod : ℤ) :
    calOneDayChargeByVehicleType (totalMinutes (borrowTime time v tod rule).daylightTime)
      (totalMinutes (borrowTime time v tod rule).nightTime) v rule =
      min (borrowFee rule v (nightStart rule tod) time) (rule.cap v) := by
  have hmd := totalMinutes_nonneg _ hd
  have hmn := totalMinutes_nonneg _ hn
  have hcd := completeTime_nonneg (totalMinutes time.daylightTime) _ hu
  have hcn := completeTime_nonneg (totalMinutes time.nightTime) _ hw
  rw [calOneDayChargeByVehicleType_eq, calOneDayCharge_eq_min]
  congr 1
  simp only [borrowTime, borrowFee, nightStart, twoRate]
  simp only [decide_eq_true_eq]
  by_cases h : tod < rule.daylightBegin ∨ rule.nightBegin ≤ tod
  · simp only [if_pos h]
    rw [totalMinutes_add _ _ hn hcn, totalMinutes_clamp _ _ hd, completeTime_eq_missing _ _ hmn hw,
      ← units_completed (totalMinutes time.nightTime) _ hw, add_comm]
    rfl
  · simp only [if_neg h]
    rw [totalMinutes_add _ _ hd hcd, totalMinutes_clamp _ _ hn, completeTime_eq_missing _ _ hmd hu,
      ← units_completed (totalMinutes time.daylightTime) _ hu]
    rfl

variable (hv : ValidRule rule)
include hv

/-- In pattern 1 it is always the daylight that completes its units first.
What the night borrows from the next day adds no unit. -/
theorem calOneDay_completeDay1 (borrowed : ℤ) :
    calOneDayChargeByVehicleType (totalMinutes (completeDay1 rule v time borrowed).1.daylightTime)
      (totalMinutes (completeDay1 rule v time borrowed).1.nightTime) v rule =
      min (borrowFee rule v false time) (rule.cap v) := by
  have hmd := totalMinutes_nonneg _ hd
  have hcd := completeTime_nonneg (totalMinutes time.daylightTime) _ (hv.dayUnit v)
  have hcl := totalMinutes_clamp time.nightTime
    (completeTime (totalMinutes time.daylightTime) (rule.dayUnit v)) hn
  rw [calOneDayChargeByVehicleType_eq, calOneDayCharge_eq_min]
  congr 1
  unfold borrowFee twoRate
  rw [if_neg (by decide), ← completeTime_eq_missing _ _ hmd (hv.dayUnit v), ← hcl,
    ← units_completed (totalMinutes time.daylightTime) _ (hv.dayUnit v),
    ← completeTime_eq_missing _ _ hmd (hv.dayUnit v), ← totalMinutes_add _ _ hd hcd]
  unfold completeDay1 clampNegative
  dsimp only
  split_ifs with h
  · rfl
  · have hm := totalMinutes_nonneg _ (not_lt.mp h)
    have hc := completeTime_nonneg (totalMinutes (time.nightTime -
      minutes (completeTime (totalMinutes time.daylightTime) (rule.dayUnit v)))) _ (hv.nightUnit v)
    dsimp only
    rw [totalMinutes_add _ _ (not_lt.mp h) hc, completeTime_eq_missing _ _ hm (hv.nightUnit v),
      ← units_completed _ _ (hv.nightUnit v)]
    rfl

theorem borrowFee_mono (night : Bool) (hb : RatesBalanced rule v night) (time' : ParkingTime)
    (hdd : time.daylightTime ≤ time'.daylightTime) (hnn : time.nightTime ≤ time'.nightTime) :
    borrowFee rule v night time ≤ borrowFee rule v night time' := by
  have hmd := totalMinutes_mono _ _ hd hdd
  have hmn := totalMinutes_mono _ _ hn hnn
  cases night with
  | true =>
    exact twoRate_mono _ _ _ _ (hv.nightUnit v) (hv.dayUnit v) (hv.nightRate v) (hv.dayRate v) hb _ _ _ _ hmn hmd
  | false =>
    exact twoRate_mono _ _ _ _ (hv.dayUnit v) (hv.nightUnit v) (hv.dayRate v) (hv.nightRate v) hb _ _ _ _ hmd hmn

end

theorem sum_mono (b e e' : ℤ) (he : e ≤ e') (ws : List Period) (g : ℤ → ℤ) (hg : ∀ t, 0 ≤ g t) :
    ∑ t ∈ (Period.ticks ⟨b, e⟩) with covers ws t, g t ≤ ∑ t ∈ (Period.ticks ⟨b, e'⟩) with covers ws t, g t := by
  apply Finset.sum_le_sum_of_subset_of_nonneg
  · intro t ht
    rw [Finset.mem_filter, mem_ticks] at ht ⊢
    exact ⟨⟨ht.1.1, ht.1.2.trans_le he⟩, ht.2⟩
  · exact fun t _ _ => hg t

section Period

variable (rule : ChargeRule) (hv : ValidRule rule) (h : DisjointSections rule) (v : ℤ)
include hv h

/-- A later exit in one period never lowers its fee. -/
theorem periodFee0_mono (b e e' : ℤ) (hb : b ≤ e) (he : e ≤ e')
    (hr : RatesBalanced rule v (nightStart rule (timeOfDay b))) :
    periodFee0 rule ⟨b, e⟩ v ≤ periodFee0 rule ⟨b, e'⟩ v := by
  obtain ⟨⟨hd, -⟩, hn, -⟩ := within0 rule hv.ordered h ⟨b, e⟩ hb (dateOf b)
  obtain ⟨⟨hd', -⟩, hn', -⟩ := within0 rule hv.ordered h ⟨b, e'⟩ (hb.trans he) (dateOf b)
  unfold periodFee0
  dsimp only
  rw [calOneDay_borrowTime rule v _ hd hn (hv.dayUnit v) (hv.nightUnit v),
    calOneDay_borrowTime rule v _ hd' hn' (hv.dayUnit v) (hv.nightUnit v)]
  apply min_le_min_right
  apply borrowFee_mono rule v _ hd hn hv _ hr
  · rw [net0_daylight rule hv.ordered _ hb, net0_daylight rule hv.ordered _ (hb.trans he)]
    exact sum_mono b e e' he _ _ fun t => (billable_two rule h _ t).1
  · rw [net0_night rule hv.ordered _ hb, net0_night rule hv.ordered _ (hb.trans he)]
    exact sum_mono b e e' he _ _ fun t => (billable_two rule h _ t).1

variable (ha : AcceptedSections rule)
include ha

theorem periodFee1_eq (date b e : ℤ) (hb : b ≤ e) (hs : e ≤ ptime date dayTicks) :
    periodFee1 rule v date ⟨b, e⟩ =
      min (borrowFee rule v false (parkingTime1 ⟨b, e⟩ date rule)) (rule.cap v) := by
  obtain ⟨⟨hd, -⟩, hn, -⟩ := within1 rule hv.ordered ha h ⟨b, e⟩ hb date hs
  exact calOneDay_completeDay1 rule v _ hd hn hv 0

theorem periodFee1_mono (date b e e' : ℤ) (hb : b ≤ e) (he : e ≤ e') (hs : e' ≤ ptime date dayTicks)
    (hr : RatesBalanced rule v false) : periodFee1 rule v date ⟨b, e⟩ ≤ periodFee1 rule v date ⟨b, e'⟩ := by
  obtain ⟨⟨hd, -⟩, hn, -⟩ := within1 rule hv.ordered ha h ⟨b, e⟩ hb date (he.trans hs)
  rw [periodFee1_eq rule hv h v ha date b e hb (he.trans hs),
    periodFee1_eq rule hv h v ha date b e' (hb.trans he) hs]
  apply min_le_min_right
  have hbegin := fun s hm => (ha s hm).1
  apply borrowFee_mono rule v _ hd hn hv _ hr
  · rw [net1_eq rule hv.ordered ⟨b, e⟩ hb date (he.trans hs) hbegin,
      net1_eq rule hv.ordered ⟨b, e'⟩ (hb.trans he) date hs hbegin]
    exact sum_mono b e e' he _ _ fun t => (billable_one rule h _ t).1
  · rw [net1_eq rule hv.ordered ⟨b, e⟩ hb date (he.trans hs) hbegin,
      net1_eq rule hv.ordered ⟨b, e'⟩ (hb.trans he) date hs hbegin]
    exact sum_mono b e e' he _ _ fun t => (billable_one rule h _ t).1

theorem periodFee1_nonneg (date b e : ℤ) (hb : b ≤ e) (hs : e ≤ ptime date dayTicks) :
    0 ≤ periodFee1 rule v date ⟨b, e⟩ := by
  obtain ⟨⟨hd, -⟩, hn, -⟩ := within1 rule hv.ordered ha h ⟨b, e⟩ hb date hs
  obtain ⟨hd', hn', -⟩ := completeDay1_nonneg rule hv v _ 0 hd le_rfl
  exact oneDay_nonneg rule hv v _ hd' hn'

theorem dayFee1_mono (mode borrowed : ℤ) (firstDay : Bool) (hbo : 0 ≤ borrowed) (b e e' : ℤ) (he : e ≤ e')
    (hs : e' ≤ nextMidnight b) (hr : RatesBalanced rule v false) :
    dayFee1 rule mode v borrowed firstDay ⟨b, e⟩ ≤ dayFee1 rule mode v borrowed firstDay ⟨b, e'⟩ := by
  have hday : e' ≤ ptime (dateOf (b + borrowed)) dayTicks := by
    unfold nextMidnight ptime dateOf dayTicks at *
    omega
  unfold dayFee1
  dsimp only
  split_ifs with h1 h2 h2
  · exact le_rfl
  · exact periodFee1_nonneg rule hv h v ha _ _ _ (by omega) hday
  · omega
  · exact periodFee1_mono rule hv h v ha _ _ _ _ (by omega) he hday hr

end Period

theorem calOneDay_le_cap (rule : ChargeRule) (v d n : ℤ) :
    calOneDayChargeByVehicleType d n v rule ≤ rule.cap v := by
  rw [calOneDayChargeByVehicleType_eq, calOneDayCharge_eq_min]
  exact min_le_right _ _

section Cap

variable (rule : ChargeRule) (hv : ValidRule rule) (mode v : ℤ) (firstDay : Bool) (period : Period)
include hv

theorem dayFee0_le_cap : dayFee0 rule mode v firstDay period ≤ rule.cap v := by
  rw [dayFee0]
  split_ifs
  · exact hv.cap v
  · exact calOneDay_le_cap rule v _ _
  · exact calOneDay_le_cap rule v _ _

theorem dayFee1_le_cap (borrowed : ℤ) : dayFee1 rule mode v borrowed firstDay period ≤ rule.cap v := by
  unfold dayFee1
  dsimp only
  split_ifs
  · exact hv.cap v
  · exact calOneDay_le_cap rule v _ _

end Cap

/-! A stay of pattern 0 costs the same on every day. -/

theorem ptime_add (d k td : ℤ) : ptime (d + k) td = ptime d td + k * dayTicks := by
  simp only [ptime]
  ring

theorem nightPeriods_shift (rule : ChargeRule) (d k : ℤ) :
    nightPeriods rule (d + k) (d + k + 1) = (nightPeriods rule d (d + 1)).map (·.shift (k * dayTicks)) := by
  rw [add_right_comm d k 1]
  simp only [nightPeriods, List.map_cons, List.map_nil, Period.shift, ptime_add]

theorem daylightPeriods_shift (rule : ChargeRule) (d k : ℤ) :
    daylightPeriods rule (d + k) (d + k + 1) = (daylightPeriods rule d (d + 1)).map (·.shift (k * dayTicks)) := by
  rw [add_right_comm d k 1]
  simp only [daylightPeriods, List.map_cons, List.map_nil, Period.shift, ptime_add]

theorem parkPeriods_shift (park : Period) (ws : List Period) (c : ℤ) :
    parkPeriods (park.shift c) (ws.map (·.shift c)) = (parkPeriods park ws).map (·.shift c) := by
  simp only [parkPeriods]
  rw [List.filter_map, List.map_map, List.map_map]
  simp only [Function.comp_def, intersects_shift, intersection_shift]

theorem totalLength_shift (ps : List Period) (c : ℤ) : totalLength (ps.map (·.shift c)) = totalLength ps := by
  simp only [totalLength]
  rw [List.map_map]
  simp only [Function.comp_def, length_shift]

theorem substrctFreePeriod_shift (time : ℤ) (parts : List Period) (free : Period) (c : ℤ) :
    substrctFreePeriod time (parts.map (·.shift c)) (free.shift c) = substrctFreePeriod time parts free := by
  simp only [substrctFreePeriod]
  rw [List.foldl_map]
  simp only [intersects_shift, intersection_shift, length_shift]

theorem substrctFreeTimeSection_shift (time : ParkingTime) (d k : ℤ) (daylight night : List Period)
    (rule : ChargeRule) :
    substrctFreeTimeSection time (d + k) (daylight.map (·.shift (k * dayTicks)))
      (night.map (·.shift (k * dayTicks))) rule = substrctFreeTimeSection time d daylight night rule := by
  simp only [substrctFreeTimeSection]
  simp only [sectionOn_shift, substrctFreePeriod_shift]

theorem calInvalidParkingTime_shift (park : Period) (d k : ℤ) (rule : ChargeRule) :
    calInvalidParkingTime (park.shift (k * dayTicks)) (d + k) (d + k + 1) rule =
      calInvalidParkingTime park d (d + 1) rule := by
  simp only [calInvalidParkingTime, grossParkingTime0]
  rw [nightPeriods_shift, daylightPeriods_shift, parkPeriods_shift, parkPeriods_shift, add_right_comm d k 1]
  simp only [totalLength_shift, substrctFreeTimeSection_shift]

theorem periodFee0_shift (rule : ChargeRule) (period : Period) (v k : ℤ) :
    periodFee0 rule (period.shift (k * dayTicks)) v = periodFee0 rule period v := by
  have hdate : dateOf (period.begin + k * dayTicks) = dateOf period.begin + k := by
    unfold dateOf dayTicks
    omega
  have htod : timeOfDay (period.begin + k * dayTicks) = timeOfDay period.begin := by
    unfold timeOfDay dayTicks
    omega
  have hbegin : (period.shift (k * dayTicks)).begin = period.begin + k * dayTicks := rfl
  unfold periodFee0
  dsimp only
  rw [hbegin, hdate, htod, calInvalidParkingTime_shift]

theorem dayFee0_shift (rule : ChargeRule) (mode v : ℤ) (firstDay : Bool) (period : Period) (k : ℤ) :
    dayFee0 rule mode v firstDay (period.shift (k * dayTicks)) = dayFee0 rule mode v firstDay period := by
  have hfree : (⟨(period.shift (k * dayTicks)).begin + minutes rule.freeTimeLength,
      (period.shift (k * dayTicks)).stop⟩ : Period) =
        (⟨period.begin + minutes rule.freeTimeLength, period.stop⟩ : Period).shift (k * dayTicks) := by
    simp only [Period.shift, add_right_comm]
  have hdone : (period.shift (k * dayTicks)).stop ≤ (period.shift (k * dayTicks)).begin +
      minutes rule.freeTimeLength ↔ period.stop ≤ period.begin + minutes rule.freeTimeLength := by
    dsimp only [Period.shift]
    omega
  simp only [dayFee0, hfree, hdone, periodFee0_shift]

/-- The fee of a period is the same on every day, whatever bill it goes to. -/
theorem calChargeByTime_shift (rule : ChargeRule) (period : Period) (freeTimeMode vehicleType : ℤ)
    (firstDay : Bool) (bill bill' : Bill) (k : ℤ) :
    (calChargeByTime rule (period.shift (k * dayTicks)) freeTimeMode vehicleType firstDay bill).1 =
      (calChargeByTime rule period freeTimeMode vehicleType firstDay bill').1 := by
  rw [calChargeByTime_fst, calChargeByTime_fst, dayFee0_shift]

end BitPark.DayFee
