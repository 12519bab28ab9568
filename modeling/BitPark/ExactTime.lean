import BitPark.BillingTime

namespace BitPark.ExactTime

open BitPark.TimePeriod BitPark.Tariff BitPark.ParkingTimes BitPark.EffectiveTime BitPark.RuleTable
  BitPark.BillingTime

/-- Every free section runs forward within a day. -/
def SectionsInDay (rule : ChargeRule) : Prop :=
  ∀ s ∈ rule.freeTimeSections, 0 ≤ s.begin ∧ s.begin ≤ s.stop ∧ s.stop ≤ dayTicks

instance (rule : ChargeRule) : Decidable (SectionsInDay rule) :=
  inferInstanceAs (Decidable (∀ s ∈ rule.freeTimeSections, _))

section Patterns

variable (rule : ChargeRule) (hr : DayOrdered rule) (d t : ℤ) (h0 : ptime d 0 ≤ t) (h1 : t < ptime d dayTicks)
include hr h0 h1

/-! Within a date the windows of two dates are those of the one. -/

theorem covers_daylight_date :
    covers (daylightPeriods rule d (d + 1)) t = covers (daylight1 rule d) t := by
  obtain ⟨hr0, hr1, hr2⟩ := hr
  rw [ptime, dayTicks] at *
  rw [Bool.eq_iff_iff]
  simp only [covers, daylightPeriods, daylight1, Period.contains, List.any_cons, List.any_nil, Bool.or_false,
    Bool.or_eq_true, decide_eq_true_eq, ptime, dayTicks]
  omega

theorem covers_night_date :
    covers (nightPeriods rule d (d + 1)) t = covers (night1 rule d) t := by
  obtain ⟨hr0, hr1, hr2⟩ := hr
  rw [ptime, dayTicks] at *
  rw [Bool.eq_iff_iff]
  simp only [covers, nightPeriods, night1, Period.contains, List.any_cons, List.any_nil, Bool.or_false,
    Bool.or_eq_true, decide_eq_true_eq, ptime, dayTicks]
  omega

omit hr h0 in
theorem billable_date (hs : SectionsInDay rule) :
    billable (freePeriods rule [d, d + 1]) t = billable (freePeriods rule [d]) t := by
  have hnext : ((rule.freeTimeSections.map (sectionOn (d + 1))).map (·.weight t)).sum = 0 := by
    apply List.sum_eq_zero
    intro w hw
    rw [List.map_map] at hw
    obtain ⟨s, hm, rfl⟩ := List.mem_map.mp hw
    obtain ⟨hb, hle, -⟩ := hs s hm
    have hwf : (sectionOn (d + 1) s).begin ≤ (sectionOn (d + 1) s).stop := by
      unfold sectionOn ptime
      dsimp only
      omega
    rw [Function.comp_apply, weight_wf _ hwf, if_neg]
    rw [mem_ticks, sectionOn]
    unfold ptime dayTicks at *
    dsimp only
    omega
  have hone : ((freePeriods rule [d]).map (·.weight t)).sum =
      ((rule.freeTimeSections.map (sectionOn d)).map (·.weight t)).sum := by
    simp [freePeriods]
  rw [billable, billable, sum_freePeriods_two, hnext, hone, add_zero]

end Patterns

/-- Both patterns measure the same time in a period of one date, however the
free sections overlap. -/
theorem patterns_measure_alike (rule : ChargeRule) (hr : DayOrdered rule) (hs : SectionsInDay rule) (d : ℤ)
    (park : Period) (hp : park.begin < park.stop) (h0 : ptime d 0 ≤ park.begin)
    (h1 : park.stop ≤ ptime d dayTicks) :
    calInvalidParkingTime park d (d + 1) rule = parkingTime1 park d rule := by
  have ht : ∀ t ∈ park.ticks, ptime d 0 ≤ t ∧ t < ptime d dayTicks := by
    intro t hm
    rw [mem_ticks] at hm
    exact ⟨h0.trans hm.1, hm.2.trans_le h1⟩
  rw [net1_eq rule hr park hp.le d h1 fun s hm => (hs s hm).1]
  have hd := net0_daylight rule hr park hp.le d
  have hn := net0_night rule hr park hp.le d
  cases hc : calInvalidParkingTime park d (d + 1) rule with
  | mk daylight night =>
    rw [hc, Finset.sum_filter] at hd hn
    apply congrArg₂ ParkingTime.mk
    · refine hd.trans ?_
      rw [Finset.sum_filter]
      apply Finset.sum_congr rfl
      intro t hm
      obtain ⟨h0, h1⟩ := ht t hm
      rw [covers_daylight_date rule hr d t h0 h1, billable_date rule d t h1 hs]
    · refine hn.trans ?_
      rw [Finset.sum_filter]
      apply Finset.sum_congr rfl
      intro t hm
      obtain ⟨h0, h1⟩ := ht t hm
      rw [covers_night_date rule hr d t h0 h1, billable_date rule d t h1 hs]

theorem patterns_measure_alike_morning :
    calInvalidParkingTime ⟨minutes 420, minutes 1260⟩ 0 (0 + 1) (handleQueryRule (hourlyRow [morning, morning])) =
      parkingTime1 ⟨minutes 420, minutes 1260⟩ 0 (handleQueryRule (hourlyRow [morning, morning])) :=
  patterns_measure_alike (handleQueryRule (hourlyRow [morning, morning])) (by decide) (by decide) 0
    ⟨minutes 420, minutes 1260⟩ (by decide) (by decide) (by decide)

/-! What a tick counts for, by its time of day alone. -/

def IsDaylight (rule : ChargeRule) (t : ℤ) : Prop :=
  rule.daylightBegin ≤ timeOfDay t ∧ timeOfDay t < rule.nightBegin

def IsFree (rule : ChargeRule) (t : ℤ) : Prop :=
  ∃ s ∈ rule.freeTimeSections, s.begin ≤ timeOfDay t ∧ timeOfDay t < s.stop

instance (rule : ChargeRule) (t : ℤ) : Decidable (IsDaylight rule t) := inferInstanceAs (Decidable (_ ∧ _))

instance (rule : ChargeRule) (t : ℤ) : Decidable (IsFree rule t) :=
  inferInstanceAs (Decidable (∃ s ∈ rule.freeTimeSections, _))

/-- No two sections of a day share a tick. -/
def SectionsApart (rule : ChargeRule) : Prop :=
  rule.freeTimeSections.Pairwise fun s r => (sectionOn 0 s).Apart (sectionOn 0 r)

instance (rule : ChargeRule) : Decidable (SectionsApart rule) :=
  inferInstanceAs (Decidable (List.Pairwise _ rule.freeTimeSections))

theorem disjoint_of_inDay (rule : ChargeRule) (hs : SectionsInDay rule) (ha : SectionsApart rule) :
    DisjointSections rule := by
  refine ⟨fun s hm => (hs s hm).2.1, freePeriods_two_of_one rule (fun s hm => ⟨(hs s hm).1, (hs s hm).2.2⟩) ?_⟩
  rw [freePeriods, List.flatMap_cons, List.flatMap_nil, List.append_nil, List.pairwise_map]
  exact ha

section Windows

variable (rule : ChargeRule) (d t : ℤ) (h0 : ptime d 0 ≤ t) (h1 : t < ptime (d + 1) dayTicks)
include h0 h1

theorem covers_daylight_iff (hr : DayOrdered rule) :
    covers (daylightPeriods rule d (d + 1)) t = true ↔ IsDaylight rule t := by
  obtain ⟨hr0, hr1, hr2⟩ := hr
  rw [ptime, dayTicks] at *
  simp only [covers, daylightPeriods, Period.contains, List.any_cons, List.any_nil, Bool.or_false, Bool.or_eq_true,
    decide_eq_true_eq, ptime, dayTicks, IsDaylight, timeOfDay]
  omega

/-- The five windows cover two days, and none of night meets one of daylight. -/
theorem covers_night_iff (hr : DayOrdered rule) :
    covers (nightPeriods rule d (d + 1)) t = true ↔ ¬ IsDaylight rule t := by
  obtain ⟨hr0, hr1, hr2⟩ := hr
  rw [ptime, dayTicks] at *
  simp only [covers, nightPeriods, Period.contains, List.any_cons, List.any_nil, Bool.or_false, Bool.or_eq_true,
    decide_eq_true_eq, ptime, dayTicks, IsDaylight, timeOfDay]
  omega

theorem isFree_iff (hs : SectionsInDay rule) :
    (∃ p ∈ freePeriods rule [d, d + 1], t ∈ p.ticks) ↔ IsFree rule t := by
  simp only [freePeriods, List.mem_flatMap, List.mem_map, IsFree]
  constructor
  · rintro ⟨p, ⟨e, he, s, hm, rfl⟩, ht⟩
    refine ⟨s, hm, ?_⟩
    obtain ⟨hb, hle, hstop⟩ := hs s hm
    rw [mem_ticks] at ht
    simp only [sectionOn, List.mem_cons, List.not_mem_nil, or_false] at ht he
    unfold timeOfDay ptime dayTicks at *
    omega
  · rintro ⟨s, hm, ht⟩
    have hday : dateOf t = d ∨ dateOf t = d + 1 := by
      unfold dateOf ptime dayTicks at *
      omega
    refine ⟨sectionOn (dateOf t) s, ⟨dateOf t, by simpa using hday, s, hm, rfl⟩, ?_⟩
    rw [mem_ticks, sectionOn]
    unfold timeOfDay dateOf ptime dayTicks at *
    dsimp only
    omega

theorem billable_eq (hs : SectionsInDay rule) (ha : SectionsApart rule) :
    billable (freePeriods rule [d, d + 1]) t = if IsFree rule t then 0 else 1 := by
  obtain ⟨hw, hd⟩ := freePeriods_disjoint rule (disjoint_of_inDay rule hs ha) d
  obtain ⟨hlo, hhi⟩ := sum_weight_le_one _ hw hd t
  rw [billable]
  by_cases hf : IsFree rule t
  · rw [if_pos hf]
    obtain ⟨p, hp, ht⟩ := (isFree_iff rule d t h0 h1 hs).mpr hf
    have hle : p.weight t ≤ ((freePeriods rule [d, d + 1]).map (·.weight t)).sum := by
      apply List.single_le_sum
      · intro w hm
        obtain ⟨q, hq, rfl⟩ := List.mem_map.mp hm
        exact weight_nonneg q (hw q hq) t
      · exact List.mem_map_of_mem hp
    rw [weight_wf p (hw p hp), if_pos ht] at hle
    omega
  · rw [if_neg hf]
    have hzero : ((freePeriods rule [d, d + 1]).map (·.weight t)).sum = 0 := by
      apply List.sum_eq_zero
      intro w hm
      obtain ⟨p, hp, rfl⟩ := List.mem_map.mp hm
      rw [weight_wf p (hw p hp), if_neg]
      exact fun ht => hf ((isFree_iff rule d t h0 h1 hs).mp ⟨p, hp, ht⟩)
    omega

end Windows

/-- The ticks of a period that one kind of time is made of. -/
theorem sum_billable_eq_card (rule : ChargeRule) (hs : SectionsInDay rule) (ha : SectionsApart rule) (d : ℤ)
    (ts : Finset ℤ) (ht : ∀ t ∈ ts, ptime d 0 ≤ t ∧ t < ptime (d + 1) dayTicks) (c : ℤ → Bool) (P : ℤ → Prop)
    [DecidablePred P] (hc : ∀ t ∈ ts, c t = true ↔ P t) :
    ∑ t ∈ ts with c t = true, billable (freePeriods rule [d, d + 1]) t =
      (ts.filter fun t => P t ∧ ¬ IsFree rule t).card := by
  rw [Finset.card_filter, Finset.sum_filter, Nat.cast_sum]
  apply Finset.sum_congr rfl
  intro t hm
  obtain ⟨h0, h1⟩ := ht t hm
  rw [billable_eq rule d t h0 h1 hs ha]
  by_cases hP : P t
  · rw [if_pos ((hc t hm).mpr hP)]
    by_cases hf : IsFree rule t <;> simp [hP, hf]
  · rw [if_neg fun h => hP ((hc t hm).mp h)]
    simp [hP]

/-- Counting by ticks or by steps of `k` ticks, for what does not change within a step. -/
theorem card_filter_steps (k : ℤ) (hk : 0 < k) (P : ℤ → Prop) [DecidablePred P] (hP : ∀ t, P t ↔ P (t / k * k))
    (b e : ℤ) : (((Finset.Ico (b * k) (e * k)).filter P).card : ℤ) =
      ((Finset.Ico b e).filter fun s => P (s * k)).card * k := by
  have hmaps : ∀ t ∈ (Finset.Ico (b * k) (e * k)).filter P, t / k ∈ (Finset.Ico b e).filter fun s => P (s * k) := by
    intro t ht
    rw [Finset.mem_filter, Finset.mem_Ico] at ht ⊢
    exact ⟨⟨(Int.le_ediv_iff_mul_le hk).mpr ht.1.1, Int.ediv_lt_of_lt_mul hk ht.1.2⟩, (hP t).mp ht.2⟩
  have hfiber : ∀ s ∈ (Finset.Ico b e).filter fun s => P (s * k),
      (((Finset.Ico (b * k) (e * k)).filter P).filter fun t => t / k = s).card = k.toNat := by
    intro s hs
    rw [Finset.mem_filter, Finset.mem_Ico] at hs
    have hstep : (((Finset.Ico (b * k) (e * k)).filter P).filter fun t => t / k = s) =
        Finset.Ico (s * k) ((s + 1) * k) := by
      ext t
      rw [Finset.mem_filter, Finset.mem_filter, Finset.mem_Ico, Finset.mem_Ico]
      have hb : b * k ≤ s * k := Int.mul_le_mul_of_nonneg_right hs.1.1 hk.le
      have he : (s + 1) * k ≤ e * k := Int.mul_le_mul_of_nonneg_right hs.1.2 hk.le
      constructor
      · rintro ⟨-, rfl⟩
        exact ⟨Int.ediv_mul_le t hk.ne', Int.lt_ediv_add_one_mul_self t hk⟩
      · intro ht
        have hq : t / k = s := by
          apply le_antisymm
          · exact Int.lt_add_one_iff.mp (Int.ediv_lt_of_lt_mul hk ht.2)
          · exact (Int.le_ediv_iff_mul_le hk).mpr ht.1
        refine ⟨⟨⟨hb.trans ht.1, ht.2.trans_le he⟩, ?_⟩, hq⟩
        rw [hP t, hq]
        exact hs.2
    rw [hstep, Int.card_Ico]
    congr 1
    ring
  rw [Finset.card_eq_sum_card_fiberwise hmaps, Finset.sum_congr rfl hfiber, Finset.sum_const, smul_eq_mul]
  push_cast
  rw [Int.toNat_of_nonneg hk.le]

/-- The boundaries and the sections of a rule are given in whole seconds. -/
structure InSeconds (rule : ChargeRule) : Prop where
  daylight : secondTicks ∣ rule.daylightBegin
  night : secondTicks ∣ rule.nightBegin
  sections : ∀ s ∈ rule.freeTimeSections, secondTicks ∣ s.begin ∧ secondTicks ∣ s.stop

theorem le_timeOfDay_iff (c t : ℤ) (hc : secondTicks ∣ c) :
    c ≤ timeOfDay t ↔ c ≤ timeOfDay (t / secondTicks * secondTicks) := by
  simp only [timeOfDay, secondTicks, dayTicks] at *
  omega

theorem isDaylight_second (rule : ChargeRule) (h : InSeconds rule) (t : ℤ) :
    IsDaylight rule t ↔ IsDaylight rule (t / secondTicks * secondTicks) := by
  rw [IsDaylight, IsDaylight, ← not_le, ← not_le, le_timeOfDay_iff _ t h.daylight, le_timeOfDay_iff _ t h.night]

theorem isFree_second (rule : ChargeRule) (h : InSeconds rule) (t : ℤ) :
    IsFree rule t ↔ IsFree rule (t / secondTicks * secondTicks) := by
  rw [IsFree, IsFree]
  apply exists_congr
  intro s
  apply and_congr_right
  intro hm
  obtain ⟨hb, he⟩ := h.sections s hm
  rw [← not_le, ← not_le, le_timeOfDay_iff _ t hb, le_timeOfDay_iff _ t he]

/-- How much of a span of ticks is effective daylight, and how much effective night. -/
noncomputable def effectiveTicks (rule : ChargeRule) (b e : ℤ) : ParkingTime :=
  ⟨((Finset.Ico b e).filter fun t => IsDaylight rule t ∧ ¬ IsFree rule t).card,
    ((Finset.Ico b e).filter fun t => ¬ IsDaylight rule t ∧ ¬ IsFree rule t).card⟩

/-- The same by whole seconds. -/
noncomputable def effectiveSeconds (rule : ChargeRule) (b e : ℤ) : ParkingTime :=
  ⟨((Finset.Ico b e).filter fun s => IsDaylight rule (seconds s) ∧ ¬ IsFree rule (seconds s)).card,
    ((Finset.Ico b e).filter fun s => ¬ IsDaylight rule (seconds s) ∧ ¬ IsFree rule (seconds s)).card⟩

theorem effectiveTicks_seconds (rule : ChargeRule) (h : InSeconds rule) (b e : ℤ) :
    effectiveTicks rule (seconds b) (seconds e) =
      ⟨seconds (effectiveSeconds rule b e).daylightTime, seconds (effectiveSeconds rule b e).nightTime⟩ := by
  have hk : (0 : ℤ) < secondTicks := by decide
  apply congrArg₂ ParkingTime.mk
  · apply card_filter_steps secondTicks hk
    intro t
    rw [isDaylight_second rule h t, isFree_second rule h t]
  · apply card_filter_steps secondTicks hk
    intro t
    rw [isDaylight_second rule h t, isFree_second rule h t]

/-- The effective time of at most a day is the number of ticks in no free
section, and where everything is in whole seconds the number of seconds. -/
theorem effective_time_exact (rule : ChargeRule) (hr : DayOrdered rule) (hs : SectionsInDay rule)
    (ha : SectionsApart rule) (b e : ℤ) (h : b < e) (he : e ≤ b + dayTicks) :
    calInvalidParkingTime ⟨b, e⟩ (dateOf b) (dateOf b + 1) rule = effectiveTicks rule b e ∧
      ∀ b' e', InSeconds rule → b = seconds b' → e = seconds e' →
        calInvalidParkingTime ⟨b, e⟩ (dateOf b) (dateOf b + 1) rule =
          ⟨seconds (effectiveSeconds rule b' e').daylightTime, seconds (effectiveSeconds rule b' e').nightTime⟩ := by
  have ht : ∀ t ∈ Period.ticks ⟨b, e⟩, ptime (dateOf b) 0 ≤ t ∧ t < ptime (dateOf b + 1) dayTicks := by
    intro t hm
    rw [mem_ticks] at hm
    dsimp only at hm
    simp only [ptime, dateOf, dayTicks] at *
    omega
  have hticks : calInvalidParkingTime ⟨b, e⟩ (dateOf b) (dateOf b + 1) rule = effectiveTicks rule b e := by
    have hd := net0_daylight rule hr ⟨b, e⟩ h.le (dateOf b)
    have hn := net0_night rule hr ⟨b, e⟩ h.le (dateOf b)
    rw [sum_billable_eq_card rule hs ha (dateOf b) _ ht _ (IsDaylight rule)
      fun t hm => covers_daylight_iff rule _ t (ht t hm).1 (ht t hm).2 hr] at hd
    rw [sum_billable_eq_card rule hs ha (dateOf b) _ ht _ (¬ IsDaylight rule ·)
      fun t hm => covers_night_iff rule _ t (ht t hm).1 (ht t hm).2 hr] at hn
    exact congrArg₂ ParkingTime.mk hd hn
  refine ⟨hticks, fun b' e' hsec hb' he' => ?_⟩
  rw [hticks, hb', he', effectiveTicks_seconds rule hsec b' e']

theorem effective_time_exact_morning :
    calInvalidParkingTime ⟨seconds 25200, seconds 75600⟩ (dateOf (seconds 25200)) (dateOf (seconds 25200) + 1)
        (handleQueryRule (hourlyRow [morning])) = ⟨minutes 480, minutes 120⟩ ∧
      calInvalidParkingTime ⟨seconds 25200, seconds 75600⟩ (dateOf (seconds 25200)) (dateOf (seconds 25200) + 1)
          (handleQueryRule (hourlyRow [morning])) =
        ⟨seconds (effectiveSeconds (handleQueryRule (hourlyRow [morning])) 25200 75600).daylightTime,
          seconds (effectiveSeconds (handleQueryRule (hourlyRow [morning])) 25200 75600).nightTime⟩ := by
  have hsec : InSeconds (handleQueryRule (hourlyRow [morning])) := ⟨by decide, by decide, by decide⟩
  exact ⟨by decide, (effective_time_exact (handleQueryRule (hourlyRow [morning])) (by decide) (by decide)
    (by decide) (seconds 25200) (seconds 75600) (by decide) (by decide)).2 25200 75600 hsec rfl rfl⟩

end BitPark.ExactTime
