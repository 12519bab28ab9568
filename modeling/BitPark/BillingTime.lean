import BitPark.ChargeByTime
import BitPark.EffectiveTime
import BitPark.RuleTable

namespace BitPark.BillingTime

open BitPark.TimePeriod BitPark.Tariff BitPark.DivideTime BitPark.ParkingTimes BitPark.ChargeByTime
  BitPark.EffectiveTime BitPark.RuleTable

/-- The sanity conditions under which a rule is a price list at all. -/
structure ValidRule (rule : ChargeRule) : Prop where
  dayUnit : ∀ v, 0 < rule.dayUnit v
  nightUnit : ∀ v, 0 < rule.nightUnit v
  dayRate : ∀ v, 0 ≤ rule.dayRate v
  nightRate : ∀ v, 0 ≤ rule.nightRate v
  cap : ∀ v, 0 ≤ rule.cap v
  ordered : DayOrdered rule

theorem forall_vehicleType {α : Type} (P : α → Prop) (a b : α) :
    (∀ v : ℤ, P (if v = 1 then b else a)) ↔ P a ∧ P b := by
  refine ⟨fun h => ⟨by simpa using h 0, by simpa using h 1⟩, fun h v => ?_⟩
  split_ifs
  · exact h.2
  · exact h.1

theorem validRule_iff (rule : ChargeRule) :
    ValidRule rule ↔ ((0 < rule.dayFeeUnit ∧ 0 < rule.dayFeeUnitBig) ∧
      (0 < rule.nightFeeUnit ∧ 0 < rule.nightFeeUnitBig) ∧ (0 ≤ rule.dayFeeRate ∧ 0 ≤ rule.dayFeeRateBig) ∧
      (0 ≤ rule.nightFeeRate ∧ 0 ≤ rule.nightFeeRateBig) ∧ (0 ≤ rule.maxFee ∧ 0 ≤ rule.maxFeeBig) ∧
      DayOrdered rule) := by
  rw [← forall_vehicleType (0 < ·), ← forall_vehicleType (0 < ·), ← forall_vehicleType (0 ≤ ·),
    ← forall_vehicleType (0 ≤ ·), ← forall_vehicleType (0 ≤ ·)]
  exact ⟨fun h => ⟨h.dayUnit, h.nightUnit, h.dayRate, h.nightRate, h.cap, h.ordered⟩,
    fun ⟨h1, h2, h3, h4, h5, h6⟩ => ⟨h1, h2, h3, h4, h5, h6⟩⟩

instance (rule : ChargeRule) : Decidable (ValidRule rule) := decidable_of_iff' _ (validRule_iff rule)

/-- The only thing the text of the free sections guarantees: a duration is
read between two dashes, so it has no sign. -/
def AcceptedSections (rule : ChargeRule) : Prop := ∀ s ∈ rule.freeTimeSections, 0 ≤ s.begin ∧ 0 ≤ s.stop

instance (rule : ChargeRule) : Decidable (AcceptedSections rule) :=
  inferInstanceAs (Decidable (∀ s ∈ rule.freeTimeSections, _))

/-- Sections run forward, and laid out on two consecutive days no two share a tick. -/
def DisjointSections (rule : ChargeRule) : Prop :=
  (∀ s ∈ rule.freeTimeSections, s.begin ≤ s.stop) ∧ (freePeriods rule [0, 1]).Pairwise Period.Apart

instance (rule : ChargeRule) : Decidable (DisjointSections rule) := inferInstanceAs (Decidable (_ ∧ _))

/-- Times after free sections are taken off, against the times before. -/
def Within (net gross : ParkingTime) : Prop :=
  (0 ≤ net.daylightTime ∧ net.daylightTime ≤ gross.daylightTime) ∧
    (0 ≤ net.nightTime ∧ net.nightTime ≤ gross.nightTime)

instance (net gross : ParkingTime) : Decidable (Within net gross) := inferInstanceAs (Decidable (_ ∧ _))

theorem sectionOn_shift (d k : ℤ) (s : TimeSection) :
    sectionOn (d + k) s = (sectionOn d s).shift (k * dayTicks) := by
  simp only [sectionOn, Period.shift, ptime]
  congr 1 <;> ring

theorem freePeriods_shift (rule : ChargeRule) (d : ℤ) (dates : List ℤ) :
    freePeriods rule (dates.map (· + d)) = (freePeriods rule dates).map (·.shift (d * dayTicks)) := by
  induction dates with
  | nil => rfl
  | cons e es ih =>
    simp only [freePeriods] at ih ⊢
    rw [List.map_cons, List.flatMap_cons, ih, List.flatMap_cons, List.map_append, List.map_map]
    congr 1
    exact List.map_congr_left fun s _ => sectionOn_shift e d s

theorem freePeriods_disjoint (rule : ChargeRule) (h : DisjointSections rule) (d : ℤ) :
    (∀ p ∈ freePeriods rule [d, d + 1], p.begin ≤ p.stop) ∧
      (freePeriods rule [d, d + 1]).Pairwise Period.Apart := by
  obtain ⟨hf, hd⟩ := h
  constructor
  · intro p hp
    simp only [freePeriods, List.mem_flatMap, List.mem_map] at hp
    obtain ⟨e, -, s, hs, rfl⟩ := hp
    have hs' := hf s hs
    show ptime e s.begin ≤ ptime e s.stop
    simp only [ptime]
    omega
  · have hs := freePeriods_shift rule d [0, 1]
    rw [List.map_cons, List.map_cons, List.map_nil, zero_add, add_comm 1 d] at hs
    rw [hs, List.pairwise_map]
    exact hd.imp fun hpq => (apart_shift _ _ _).mpr hpq

theorem billable_two (rule : ChargeRule) (h : DisjointSections rule) (d t : ℤ) :
    0 ≤ billable (freePeriods rule [d, d + 1]) t ∧ billable (freePeriods rule [d, d + 1]) t ≤ 1 := by
  obtain ⟨hw, hd⟩ := freePeriods_disjoint rule h d
  have hs := sum_weight_le_one _ hw hd t
  rw [billable]
  omega

theorem billable_one (rule : ChargeRule) (h : DisjointSections rule) (d t : ℤ) :
    0 ≤ billable (freePeriods rule [d]) t ∧ billable (freePeriods rule [d]) t ≤ 1 := by
  obtain ⟨hw, hd⟩ := freePeriods_disjoint rule h d
  have hsub : (freePeriods rule [d]).Sublist (freePeriods rule [d, d + 1]) := by
    simp [freePeriods]
  have hs := sum_weight_le_one _ (fun p hp => hw p (hsub.subset hp)) (hd.sublist hsub) t
  rw [billable]
  omega

theorem sum_between (ts : Finset ℤ) (g : ℤ → ℤ) (h : ∀ t, 0 ≤ g t ∧ g t ≤ 1) :
    0 ≤ ∑ t ∈ ts, g t ∧ ∑ t ∈ ts, g t ≤ ∑ _t ∈ ts, (1 : ℤ) :=
  ⟨Finset.sum_nonneg fun t _ => (h t).1, Finset.sum_le_sum fun t _ => (h t).2⟩

theorem within0 (rule : ChargeRule) (hr : DayOrdered rule) (h : DisjointSections rule) (park : Period)
    (hp : park.begin ≤ park.stop) (d : ℤ) :
    Within (calInvalidParkingTime park d (d + 1) rule) (grossParkingTime0 park d (d + 1) rule) := by
  rw [Within]
  rw [net0_daylight rule hr park hp, net0_night rule hr park hp, gross0_daylight rule hr park hp,
    gross0_night rule hr park hp]
  exact ⟨sum_between _ _ (billable_two rule h d), sum_between _ _ (billable_two rule h d)⟩

theorem within1 (rule : ChargeRule) (hr : DayOrdered rule) (ha : AcceptedSections rule)
    (h : DisjointSections rule) (park : Period) (hp : park.begin ≤ park.stop) (d : ℤ)
    (hs : park.stop ≤ ptime d dayTicks) :
    Within (parkingTime1 park d rule) (grossParkingTime1 park d rule) := by
  rw [Within]
  rw [net1_eq rule hr park hp d hs fun s hm => (ha s hm).1, gross1_eq rule hr park hp]
  dsimp only
  exact ⟨sum_between _ _ (billable_one rule h d), sum_between _ _ (billable_one rule h d)⟩

theorem totalMinutes_nonneg (d : ℤ) (hd : 0 ≤ d) : 0 ≤ totalMinutes d := by
  rw [totalMinutes_eq_ediv d hd]
  exact Int.ediv_nonneg hd (by decide)

theorem completeTime_nonneg (time unit : ℤ) (hu : 0 < unit) : 0 ≤ completeTime time unit := by
  have hm := Int.tmod_lt_of_pos time hu
  unfold completeTime
  dsimp only
  split_ifs <;> omega

theorem ceil_mul_nonneg (n unit : ℤ) (rate : ℚ) (hn : 0 ≤ n) (hu : 0 < unit) (hr : 0 ≤ rate) :
    0 ≤ (⌈(n : ℚ) / unit⌉ : ℚ) * rate := by
  have hq : (0 : ℚ) ≤ (n : ℚ) / unit := div_nonneg (by exact_mod_cast hn) (by exact_mod_cast hu.le)
  exact mul_nonneg (by exact_mod_cast Int.ceil_nonneg hq) hr

section Fee

variable (rule : ChargeRule) (hv : ValidRule rule) (vehicleType : ℤ)
include hv

theorem oneDay_nonneg (time : ParkingTime) (hd : 0 ≤ time.daylightTime) (hn : 0 ≤ time.nightTime) :
    0 ≤ calOneDayChargeByVehicleType (totalMinutes time.daylightTime) (totalMinutes time.nightTime)
      vehicleType rule := by
  rw [calOneDayChargeByVehicleType_eq, calOneDayCharge_eq_min]
  have h1 := ceil_mul_nonneg _ _ _ (totalMinutes_nonneg _ hd) (hv.dayUnit vehicleType) (hv.dayRate vehicleType)
  have h2 := ceil_mul_nonneg _ _ _ (totalMinutes_nonneg _ hn) (hv.nightUnit vehicleType)
    (hv.nightRate vehicleType)
  exact le_min (add_nonneg h1 h2) (hv.cap vehicleType)

theorem borrowTime_nonneg (time : ParkingTime) (tod : ℤ) (hd : 0 ≤ time.daylightTime)
    (hn : 0 ≤ time.nightTime) :
    0 ≤ (borrowTime time vehicleType tod rule).daylightTime ∧
      0 ≤ (borrowTime time vehicleType tod rule).nightTime := by
  have h1 := completeTime_nonneg (totalMinutes time.daylightTime) _ (hv.dayUnit vehicleType)
  have h2 := completeTime_nonneg (totalMinutes time.nightTime) _ (hv.nightUnit vehicleType)
  unfold borrowTime clampNegative minutes minuteTicks
  dsimp only
  split_ifs <;> dsimp only <;> omega

theorem completeDay1_nonneg (time : ParkingTime) (borrowed : ℤ) (hd : 0 ≤ time.daylightTime)
    (hb : 0 ≤ borrowed) :
    0 ≤ (completeDay1 rule vehicleType time borrowed).1.daylightTime ∧
      0 ≤ (completeDay1 rule vehicleType time borrowed).1.nightTime ∧
      0 ≤ (completeDay1 rule vehicleType time borrowed).2 := by
  have h1 := completeTime_nonneg (totalMinutes time.daylightTime) _ (hv.dayUnit vehicleType)
  unfold completeDay1
  dsimp only
  have h2 := completeTime_nonneg (totalMinutes (time.nightTime -
    minutes (completeTime (totalMinutes time.daylightTime) (rule.dayUnit vehicleType)))) _
    (hv.nightUnit vehicleType)
  unfold minutes minuteTicks at *
  split_ifs <;> dsimp only <;> omega

variable (ha : AcceptedSections rule) (h : DisjointSections rule)
include h

theorem periodFee0_nonneg (period : Period) (hp : period.begin ≤ period.stop) :
    0 ≤ periodFee0 rule period vehicleType := by
  obtain ⟨⟨hd, -⟩, hn, -⟩ := within0 rule hv.ordered h period hp (dateOf period.begin)
  obtain ⟨hd', hn'⟩ := borrowTime_nonneg rule hv vehicleType _ (timeOfDay period.begin) hd hn
  exact oneDay_nonneg rule hv vehicleType _ hd' hn'

theorem dayFee0_nonneg (period : Period) (hp : period.begin ≤ period.stop) (mode : ℤ) (firstDay : Bool) :
    0 ≤ dayFee0 rule mode vehicleType firstDay period := by
  rw [dayFee0]
  split_ifs with h1 h2
  · exact le_rfl
  · exact periodFee0_nonneg rule hv vehicleType h _ (le_of_lt (not_le.mp h2))
  · exact periodFee0_nonneg rule hv vehicleType h _ hp

theorem chargePeriods0_nonneg (mode : ℤ) (first : Period) (others : List Period) (bill : Bill)
    (hp : ∀ p ∈ first :: others, p.begin ≤ p.stop) :
    0 ≤ (chargePeriods0 rule mode vehicleType first others bill).1 := by
  have hday := fun p hm => dayFee0_nonneg rule hv vehicleType h p (hp p hm) mode
  have h1 := hday first List.mem_cons_self true
  rw [chargePeriods0_fst]
  cases hl : others.getLast? with
  | none => exact h1
  | some last =>
    have h2 := hday last (List.mem_cons_of_mem first (List.mem_of_getLast? hl)) false
    dsimp only
    positivity

include ha

theorem billDay1_le (date : ℤ) (park : Period) (hp : park.begin ≤ park.stop)
    (hs : park.stop ≤ ptime date dayTicks) (d : Detail) (s : Day1State) (hb : 0 ≤ s.borrowedTime) :
    0 ≤ (billDay1 rule vehicleType date park d s).borrowedTime ∧
      s.totalFee ≤ (billDay1 rule vehicleType date park d s).totalFee := by
  obtain ⟨⟨hd, -⟩, hn, -⟩ := within1 rule hv.ordered ha h park hp date hs
  obtain ⟨hd', hn', hb'⟩ := completeDay1_nonneg rule hv vehicleType _ s.borrowedTime hd hb
  exact ⟨hb', le_add_of_nonneg_right (oneDay_nonneg rule hv vehicleType _ hd' hn')⟩

end Fee

/-- A source that knows no other rule than the given one. -/
def OnlyRule (src : RuleSource) (rule : ChargeRule) : Prop :=
  (∀ q pos r, src.queryChargeRule q pos = some r → r = rule) ∧
    ∀ pos r, src.queryMinPriorityRule pos = some r → r = rule

section Stay

variable (rule : ChargeRule) (hv : ValidRule rule) (ha : AcceptedSections rule) (h : DisjointSections rule)
variable (src : RuleSource) (ho : OnlyRule src rule)
include hv ha h ho

/-- One date of pattern 1 keeps the carry non-negative and never lowers the running total. -/
theorem chargeDay1_le (mode vehicleType pos : ℤ) (s : Day1State) (period : Period)
    (hs : period.stop ≤ nextMidnight period.begin) (hb : 0 ≤ s.borrowedTime) :
    0 ≤ (chargeDay1 src mode vehicleType pos s period).borrowedTime ∧
      s.totalFee ≤ (chargeDay1 src mode vehicleType pos s period).totalFee := by
  have hskip : ∀ d : Detail, d.fee = 0 →
      0 ≤ (s.charge d).borrowedTime ∧ s.totalFee ≤ (s.charge d).totalFee :=
    fun d hd => ⟨hb, by rw [Day1State.charge, hd, add_zero]⟩
  have hday : period.stop ≤ ptime (dateOf (period.begin + s.borrowedTime)) dayTicks := by
    rw [nextMidnight, ptime, dateOf, dayTicks] at *
    omega
  rw [chargeDay1]
  dsimp only
  by_cases he : period.stop ≤ period.begin + s.borrowedTime
  · rw [if_pos he]
    exact hskip _ rfl
  · rw [if_neg he]
    cases hq : src.queryChargeRule (.date (dateOf (period.begin + s.borrowedTime))) pos with
    | none => exact hskip _ rfl
    | some r =>
      obtain rfl := ho.1 _ _ _ hq
      have hbill := fun (begin : ℤ) (hp : begin ≤ period.stop) => billDay1_le r hv vehicleType ha h
        (dateOf (period.begin + s.borrowedTime)) ⟨begin, period.stop⟩ hp hday
      dsimp only
      split_ifs with h1 h2 h3
      · exact hskip _ rfl
      · exact hbill _ (by omega) _ _ hb
      · exact hbill _ (by omega) _ _ hb
      · exact hbill _ (by omega) _ _ hb

theorem chargeDays1_le (mode vehicleType pos : ℤ) (ps : List Period)
    (hp : ∀ p ∈ ps, p.stop ≤ nextMidnight p.begin) (s : Day1State) (hb : 0 ≤ s.borrowedTime) :
    s.totalFee ≤ (ps.foldl (chargeDay1 src mode vehicleType pos) s).totalFee := by
  induction ps generalizing s with
  | nil => exact le_rfl
  | cons p ps ih =>
    obtain ⟨hb', hle⟩ := chargeDay1_le rule hv ha h src ho mode vehicleType pos s p (hp p List.mem_cons_self) hb
    exact hle.trans (ih (fun q hq => hp q (List.mem_cons_of_mem p hq)) _ hb')

variable (offset enter exit mode vehicleType pos : ℤ) (he : enter ≤ exit) (discount : ℚ) (hd : 0 ≤ discount)
variable (bill : Bill)

theorem calChargeTooDays_nonneg (days : ℕ) :
    0 ≤ (calChargeTooDays src offset enter exit days vehicleType pos bill).1 := by
  unfold calChargeTooDays
  dsimp only
  cases hq : src.queryMinPriorityRule pos with
  | none => exact le_rfl
  | some r =>
    obtain rfl := ho.2 _ _ hq
    have hc := hv.cap vehicleType
    unfold ChargeRule.cap at hc
    dsimp only
    split_ifs at hc ⊢ <;> positivity

include he hd

theorem chargeByTime0_nonneg :
    0 ≤ (chargeByTime0 src offset enter exit mode vehicleType pos discount bill).1 := by
  rw [chargeByTime0]
  cases hp : divideTimeByDay0 (utcToLocal offset enter) (utcToLocal offset exit) with
  | nil => exact le_rfl
  | cons first others =>
    have hw : ∀ p ∈ first :: others, p.begin ≤ p.stop := by
      rw [← hp]
      rcases he.eq_or_lt with rfl | hlt
      · simp [divideTimeByDay0_empty]
      · exact tiles_wf _ _ _ (splits_tiles divideTimeByDay0_splits _ _ ((utcToLocal_lt_iff _ _ _).mpr hlt))
    dsimp only
    split_ifs
    · exact calChargeTooDays_nonneg rule hv ha h src ho offset enter exit vehicleType pos bill _
    · cases hq : src.queryChargeRule (.localTime (utcToLocal offset enter)) pos with
      | none => exact le_rfl
      | some r =>
        obtain rfl := ho.1 _ _ _ hq
        exact mul_nonneg (chargePeriods0_nonneg r hv vehicleType h mode first others _ hw) hd

theorem chargeByTime1_nonneg :
    0 ≤ (chargeByTime1 src offset enter exit mode vehicleType pos discount bill).1 := by
  rw [chargeByTime1]
  dsimp only
  split_ifs
  · exact calChargeTooDays_nonneg rule hv ha h src ho offset enter exit vehicleType pos bill _
  · have hp := divideTimeByDay1_within (utcToLocal offset enter) (utcToLocal offset exit)
      ((utcToLocal_le_iff _ _ _).mpr he)
    exact mul_nonneg (chargeDays1_le rule hv ha h src ho mode vehicleType pos _ hp { bill } le_rfl) hd

theorem chargeByTime_nonneg (pattern : ℤ) :
    0 ≤ (chargeByTime src offset enter exit pattern mode vehicleType pos discount bill).1 := by
  have hp : 0 ≤ (chargeByPattern src offset enter exit pattern mode vehicleType pos discount bill).1 := by
    rw [chargeByPattern]
    split_ifs
    · exact chargeByTime1_nonneg rule hv ha h src ho offset enter exit mode vehicleType pos he discount hd bill
    · exact chargeByTime0_nonneg rule hv ha h src ho offset enter exit mode vehicleType pos he discount hd bill
  obtain hq | ⟨_, -, -, hq⟩ :=
    chargeByTime_cases src offset enter exit pattern mode vehicleType pos discount bill
  · rwa [hq]
  · rw [hq]

end Stay

/-- Both ends of a period are whole seconds, as all times of a stay are. -/
def WholeSeconds (p : Period) : Prop := secondTicks ∣ p.begin ∧ secondTicks ∣ p.stop

/-- What a price list owes its customers: no billed time is negative or longer
than the time parked, so no fee is negative. -/
structure BillingTimeSound (rule : ChargeRule) : Prop where
  pattern0 : ∀ park : Period, WholeSeconds park → park.begin < park.stop →
    park.stop ≤ park.begin + dayTicks →
    Within (calInvalidParkingTime park (dateOf park.begin) (dateOf park.begin + 1) rule)
      (grossParkingTime0 park (dateOf park.begin) (dateOf park.begin + 1) rule)
  pattern1 : ∀ park : Period, WholeSeconds park → park.begin < park.stop →
    park.stop ≤ nextMidnight park.begin →
    Within (parkingTime1 park (dateOf park.begin) rule) (grossParkingTime1 park (dateOf park.begin) rule)
  fee : ∀ src, OnlyRule src rule → ∀ (offset enter exit pattern mode vehicleType pos : ℤ) (discount : ℚ)
    (bill : Bill), enter ≤ exit → 0 ≤ discount →
    0 ≤ (chargeByTime src offset enter exit pattern mode vehicleType pos discount bill).1

theorem sound_of_disjoint (rule : ChargeRule) (hv : ValidRule rule) (ha : AcceptedSections rule)
    (h : DisjointSections rule) : BillingTimeSound rule where
  pattern0 := fun park _ hp _ => within0 rule hv.ordered h park hp.le _
  pattern1 := fun park _ hp hs => by
    refine within1 rule hv.ordered ha h park hp.le _ ?_
    rw [nextMidnight, ptime] at *
    linarith
  fee := fun src ho offset enter exit pattern mode vehicleType pos discount bill he hd =>
    chargeByTime_nonneg rule hv ha h src ho offset enter exit mode vehicleType pos he discount hd bill pattern

/-- Sections inside one day and in whole seconds, none of which covers the
begin of one that runs backward. -/
structure PlainSections (rule : ChargeRule) : Prop where
  inDay : ∀ s ∈ rule.freeTimeSections, 0 ≤ s.begin ∧ s.begin < dayTicks ∧ s.stop ≤ dayTicks
  seconds : ∀ s ∈ rule.freeTimeSections, secondTicks ∣ s.begin ∧ secondTicks ∣ s.stop
  uncovered : ∀ s ∈ rule.freeTimeSections, s.stop < s.begin →
    ∀ r ∈ rule.freeTimeSections, ¬ (r.begin ≤ s.begin ∧ s.begin < r.stop)

theorem freePeriods_zero (rule : ChargeRule) :
    freePeriods rule [0] = rule.freeTimeSections.map fun s => ⟨s.begin, s.stop⟩ := by
  simp [freePeriods, sectionOn, ptime]

theorem freePeriods_two_of_one (rule : ChargeRule)
    (hin : ∀ s ∈ rule.freeTimeSections, 0 ≤ s.begin ∧ s.stop ≤ dayTicks)
    (hd : (freePeriods rule [0]).Pairwise Period.Apart) :
    (freePeriods rule [0, 1]).Pairwise Period.Apart := by
  have hs := freePeriods_shift rule 1 [0]
  rw [List.map_cons, List.map_nil, zero_add] at hs
  have happ : freePeriods rule [0, 1] = freePeriods rule [0] ++ freePeriods rule [1] := by simp [freePeriods]
  rw [happ, List.pairwise_append, hs, List.pairwise_map]
  refine ⟨hd, hd.imp fun hpq => (apart_shift _ _ _).mpr hpq, ?_⟩
  intro p hpm q hqm
  rw [freePeriods_zero] at hpm hqm
  obtain ⟨s, hsm, rfl⟩ := List.mem_map.mp hpm
  obtain ⟨r', hrm', rfl⟩ := List.mem_map.mp hqm
  obtain ⟨r, hrm, rfl⟩ := List.mem_map.mp hrm'
  have h1 := (hin s hsm).2
  have h2 := (hin r hrm).1
  left
  simp only [Period.shift, one_mul]
  omega

section Exact

variable (rule : ChargeRule) (hv : ValidRule rule) (hp : PlainSections rule) (h : BillingTimeSound rule)

theorem sum_nonpos (ws : List ℤ) (hw : ∀ w ∈ ws, w ≤ 0) : ws.sum ≤ 0 ∧ ∀ w ∈ ws, ws.sum ≤ w := by
  induction ws with
  | nil => simp
  | cons v vs ih =>
    obtain ⟨hv, hvs⟩ := List.forall_mem_cons.mp hw
    obtain ⟨h0, hle⟩ := ih hvs
    rw [List.sum_cons]
    refine ⟨by omega, List.forall_mem_cons.mpr ⟨by omega, fun w hm => ?_⟩⟩
    have hm' := hle w hm
    omega

include hp

/-- In the second where a section starts to run backward nothing is taken off. -/
theorem sum_weight_backward (s : TimeSection) (hs : s ∈ rule.freeTimeSections) (hr : s.stop < s.begin) (t : ℤ)
    (h0 : s.begin ≤ t) (h1 : t < s.begin + secondTicks) :
    ∀ w ∈ (freePeriods rule [0]).map (·.weight t), w ≤ 0 := by
  intro w hw
  rw [freePeriods_zero, List.map_map] at hw
  obtain ⟨r, hrm, rfl⟩ := List.mem_map.mp hw
  have hu := hp.uncovered s hs hr r hrm
  obtain ⟨⟨a, ha⟩, b, hb⟩ := hp.seconds r hrm
  obtain ⟨⟨c, hc⟩, -⟩ := hp.seconds s hs
  rw [secondTicks] at *
  simp only [Function.comp_apply, Period.weight, Period.length]
  split_ifs <;> omega

include hv h

/-- The stay of one second. Whichever kind of time its first tick is, the
time of that kind is a sum over ticks of that second. -/
theorem second_within (T : ℤ) (h0 : 0 ≤ T) (h1 : T < dayTicks) (hs : secondTicks ∣ T) :
    ∃ ts : Finset ℤ, T ∈ ts ∧ (∀ t ∈ ts, T ≤ t ∧ t < T + secondTicks) ∧
      0 ≤ ∑ t ∈ ts, billable (freePeriods rule [0]) t ∧
      ∑ t ∈ ts, billable (freePeriods rule [0]) t ≤ ∑ _t ∈ ts, (1 : ℤ) := by
  obtain ⟨k, rfl⟩ := hs
  have hdate : dateOf (secondTicks * k) = 0 := by unfold dateOf secondTicks dayTicks at *; omega
  have hstop : secondTicks * k + secondTicks ≤ ptime 0 dayTicks := by
    rw [ptime, secondTicks, dayTicks] at *; omega
  have hw := h.pattern1 ⟨secondTicks * k, secondTicks * k + secondTicks⟩
    ⟨Dvd.intro k rfl, Dvd.intro (k + 1) (by ring)⟩ (by unfold secondTicks; dsimp only; omega)
    (by unfold nextMidnight; rw [hdate]; unfold ptime at *; linarith)
  dsimp only at hw
  rw [hdate, Within, net1_eq rule hv.ordered _ (by unfold secondTicks; dsimp only; omega) 0 hstop
    fun s hm => (hp.inDay s hm).1, gross1_eq rule hv.ordered _ (by unfold secondTicks; dsimp only; omega)] at hw
  obtain ⟨hd, hn⟩ := hw
  dsimp only at hd hn
  have hmem : ∀ ws, ∀ t ∈ (Period.ticks ⟨secondTicks * k, secondTicks * k + secondTicks⟩).filter
      (fun t => covers ws t), secondTicks * k ≤ t ∧ t < secondTicks * k + secondTicks := by
    intro ws t ht
    rw [Finset.mem_filter, mem_ticks] at ht
    exact ht.1
  have hT : secondTicks * k ∈ Period.ticks ⟨secondTicks * k, secondTicks * k + secondTicks⟩ := by
    rw [mem_ticks]
    rw [secondTicks]
    dsimp only
    omega
  have hcov : covers (daylight1 rule 0) (secondTicks * k) = true ∨
      covers (night1 rule 0) (secondTicks * k) = true := by
    obtain ⟨ho0, ho1, ho2⟩ := hv.ordered
    simp only [covers, daylight1, night1, Period.contains, ptime, List.any_cons, List.any_nil, Bool.or_false,
      Bool.or_eq_true, decide_eq_true_eq]
    omega
  rcases hcov with hc | hc
  · exact ⟨_, Finset.mem_filter.mpr ⟨hT, hc⟩, hmem _, hd⟩
  · exact ⟨_, Finset.mem_filter.mpr ⟨hT, hc⟩, hmem _, hn⟩

theorem forward_of_sound : ∀ s ∈ rule.freeTimeSections, s.begin ≤ s.stop := by
  intro s hs
  by_contra hr
  rw [not_le] at hr
  obtain ⟨hb0, hb1, -⟩ := hp.inDay s hs
  obtain ⟨ts, hT, hts, -, hle⟩ := second_within rule hv hp h s.begin hb0 hb1 (hp.seconds s hs).1
  have hw := fun t ht => sum_weight_backward rule hp s hs hr t (hts t ht).1 (hts t ht).2
  have hge : ∀ t ∈ ts, 1 ≤ billable (freePeriods rule [0]) t := by
    intro t ht
    have hsum := (sum_nonpos _ (hw t ht)).1
    rw [billable]
    omega
  have hgt : 1 < billable (freePeriods rule [0]) s.begin := by
    have hmem : (⟨s.begin, s.stop⟩ : Period).weight s.begin ∈ (freePeriods rule [0]).map (·.weight s.begin) := by
      rw [freePeriods_zero]
      exact List.mem_map_of_mem (List.mem_map_of_mem hs)
    have hsum := (sum_nonpos _ (hw s.begin hT)).2 _ hmem
    have hback : (⟨s.begin, s.stop⟩ : Period).weight s.begin = s.stop - s.begin := by
      rw [Period.weight, if_neg (not_le.mpr hr), if_pos rfl, Period.length]
    rw [billable]
    omega
  exact absurd hle (not_le.mpr (Finset.sum_lt_sum hge ⟨s.begin, hT, hgt⟩))

theorem disjoint_of_sound : DisjointSections rule := by
  have hf := forward_of_sound rule hv hp h
  refine ⟨hf, freePeriods_two_of_one rule (fun s hm => ⟨(hp.inDay s hm).1, (hp.inDay s hm).2.2⟩) ?_⟩
  by_contra hd
  have hw : ∀ p ∈ freePeriods rule [0], p.begin ≤ p.stop := by
    rw [freePeriods_zero]
    exact List.forall_mem_map.mpr hf
  obtain ⟨q, hq, r, hr, ha, h2⟩ := two_le_sum_weight _ hw hd
  rw [freePeriods_zero] at hq hr
  obtain ⟨s, hs, rfl⟩ := List.mem_map.mp hq
  obtain ⟨u, hu, rfl⟩ := List.mem_map.mp hr
  obtain ⟨hs0, hs1, -⟩ := hp.inDay s hs
  obtain ⟨hu0, hu1, -⟩ := hp.inDay u hu
  have hdvd : secondTicks ∣ max s.begin u.begin := by
    rcases max_choice s.begin u.begin with hm | hm <;> rw [hm]
    · exact (hp.seconds s hs).1
    · exact (hp.seconds u hu).1
  obtain ⟨ts, hT, hts, hge, -⟩ := second_within rule hv hp h (max s.begin u.begin) (by omega) (by omega) hdvd
  -- the second that begins with the later section lies in both
  have hneg : ∀ t ∈ ts, billable (freePeriods rule [0]) t ≤ 0 ∧ billable (freePeriods rule [0]) t < 0 := by
    intro t ht
    obtain ⟨ht0, ht1⟩ := hts t ht
    obtain ⟨⟨a, ha'⟩, b, hb⟩ := hp.seconds s hs
    obtain ⟨⟨c, hc⟩, d, hd'⟩ := hp.seconds u hu
    unfold Period.Apart at ha
    unfold secondTicks at *
    dsimp only at ha
    have hsum := h2 t (by rw [mem_ticks]; dsimp only; omega) (by rw [mem_ticks]; dsimp only; omega)
    unfold billable
    omega
  have hlt := Finset.sum_lt_sum (fun t ht => (hneg t ht).1) ⟨_, hT, (hneg _ hT).2⟩
  rw [Finset.sum_const_zero] at hlt
  omega

end Exact

/-- Disjoint forward sections are enough for every accepted list, and exactly
what is needed of a list that stays inside the day. -/
theorem billingTime_iff (rule : ChargeRule) (hv : ValidRule rule) (ha : AcceptedSections rule) :
    (DisjointSections rule → BillingTimeSound rule) ∧
      (PlainSections rule → (BillingTimeSound rule ↔ DisjointSections rule)) :=
  ⟨sound_of_disjoint rule hv ha, fun hp =>
    ⟨disjoint_of_sound rule hv hp, sound_of_disjoint rule hv ha⟩⟩

def morning : TimeSection := ⟨minutes 480, minutes 720⟩

theorem billingTime_iff_morning :
    BillingTimeSound (handleQueryRule (hourlyRow [morning])) ∧
      ¬ BillingTimeSound (handleQueryRule (hourlyRow [morning, morning])) := by
  have hplain : PlainSections (handleQueryRule (hourlyRow [morning, morning])) :=
    ⟨by decide, by decide, by decide⟩
  refine ⟨(billingTime_iff _ (by decide +kernel) (by decide)).1 (by decide), fun h => ?_⟩
  have hd := ((billingTime_iff _ (by decide) (by decide)).2 hplain).mp h
  exact absurd hd (by decide)

/-- The same morning listed twice as free: whoever parks for that morning is
owed four units, in either pattern. -/
theorem morning_twice_negative :
    ValidRule (handleQueryRule (hourlyRow [morning, morning])) ∧
      AcceptedSections (handleQueryRule (hourlyRow [morning, morning])) ∧
      (calInvalidParkingTime ⟨minutes 480, minutes 720⟩ 0 1
        (handleQueryRule (hourlyRow [morning, morning]))).daylightTime = - minutes 240 ∧
      ∀ pattern ∈ [0, 1],
        (chargeByTime (tableSource [hourlyRow [morning, morning]]) 0 28800 43200 pattern 0 0 0 1 {}).1 = -4 := by
  refine ⟨by decide, by decide, by decide, by decide +kernel⟩

end BitPark.BillingTime
