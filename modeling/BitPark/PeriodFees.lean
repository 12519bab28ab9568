import BitPark.FeeMonotone

namespace BitPark.PeriodFees

open BitPark.TimePeriod BitPark.Tariff BitPark.DivideTime BitPark.ChargeByTime BitPark.RuleTable
  BitPark.DayFee BitPark.FeeMonotone

/-- The fee of a stay of pattern 0 when every period is computed by itself,
the first one as the first day. -/
def perPeriodFee (rule : ChargeRule) (freeTimeMode vehicleType : ℤ) : List Period → ℚ
  | [] => 0
  | first :: others => (calChargeByTime rule first freeTimeMode vehicleType true {}).1 +
      (others.map fun p => (calChargeByTime rule p freeTimeMode vehicleType false {}).1).sum

/-- Taking the free time off a day leaves its price as it is. -/
def FreeTimeUnpriced (rule : ChargeRule) (freeTimeMode vehicleType : ℤ) (day : Period) : Prop :=
  freeTimeMode = freeTimeNoChargeMode →
    (if day.stop ≤ day.begin + minutes rule.freeTimeLength then 0
      else periodFee0 rule ⟨day.begin + minutes rule.freeTimeLength, day.stop⟩ vehicleType) =
    periodFee0 rule day vehicleType

theorem freeTimeUnpriced_iff (rule : ChargeRule) (mode v : ℤ) (day : Period) :
    FreeTimeUnpriced rule mode v day ↔ dayFee0 rule mode v true day = periodFee0 rule day v := by
  rw [FreeTimeUnpriced, dayFee0]
  by_cases hm : mode = freeTimeNoChargeMode
  · simp [hm]
  · simp [hm]

/-- A stay is cut into its first day as often as it fits, and a rest. -/
theorem divideTimeByDay0_eq (b e : ℤ) (n : ℕ) (h1 : b + n * dayTicks < e) (h2 : e ≤ b + (n + 1) * dayTicks) :
    divideTimeByDay0 b e =
      (List.range n).map (fun i : ℕ => (⟨b, b + dayTicks⟩ : Period).shift (i * dayTicks)) ++
        [⟨b + n * dayTicks, e⟩] := by
  induction n generalizing b with
  | zero =>
    rw [Nat.cast_zero, zero_mul, add_zero] at h1 ⊢
    rw [divideTimeByDay0_short b e h1 (by simpa using h2)]
    rfl
  | succ n ih =>
    have h0 : (0 : ℤ) < dayTicks := by decide
    have hn : (0 : ℤ) ≤ n * dayTicks := by positivity
    push_cast at h1 h2
    have hnext : ∀ i : ℕ, (⟨b + dayTicks, b + dayTicks + dayTicks⟩ : Period).shift (i * dayTicks) =
        (⟨b, b + dayTicks⟩ : Period).shift ((i + 1 : ℕ) * dayTicks) := by
      intro i
      rw [Period.shift, Period.shift]
      push_cast
      congr 1 <;> ring
    have hfirst : (⟨b, b + dayTicks⟩ : Period).shift ((0 : ℕ) * dayTicks) = ⟨b, b + dayTicks⟩ := by
      simp [Period.shift]
    have hlast : b + dayTicks + n * dayTicks = b + (n + 1 : ℕ) * dayTicks := by
      push_cast
      ring
    rw [divideTimeByDay0_long b e (by linarith), ih (b + dayTicks) (by linarith) (by linarith),
      List.range_succ_eq_map, List.map_cons, List.map_map, hfirst, hlast, List.cons_append]
    simp only [hnext, Function.comp_def, Nat.succ_eq_add_one]

section

variable (rule : ChargeRule) (mode v b e : ℤ)

theorem dayFee0_later (p : Period) : dayFee0 rule mode v false p = periodFee0 rule p v := by
  simp [dayFee0]

/-- A period `i` days later costs the same. -/
theorem perPeriodFee_long (n : ℕ) (h1 : b + (n + 1) * dayTicks < e) (h2 : e ≤ b + (n + 2) * dayTicks) :
    perPeriodFee rule mode v (divideTimeByDay0 b e) = dayFee0 rule mode v true ⟨b, b + dayTicks⟩ +
      n * periodFee0 rule ⟨b, b + dayTicks⟩ v + periodFee0 rule ⟨b, e - (n + 1) * dayTicks⟩ v := by
  have hdays := divideTimeByDay0_eq b e (n + 1) (by push_cast; linarith) (by push_cast; linarith)
  have hfirst : (⟨b, b + dayTicks⟩ : Period).shift ((0 : ℕ) * dayTicks) = ⟨b, b + dayTicks⟩ := by
    simp [Period.shift]
  have hlast : (⟨b + (n + 1 : ℕ) * dayTicks, e⟩ : Period) =
      Period.shift ((n + 1) * dayTicks) ⟨b, e - (n + 1) * dayTicks⟩ := by
    rw [Period.shift]
    push_cast
    congr 1
    ring
  rw [hdays, List.range_succ_eq_map, List.map_cons, hfirst, List.cons_append, perPeriodFee, hlast]
  simp only [calChargeByTime_fst, dayFee0_later, List.map_append, List.map_map, List.sum_append, Function.comp_def,
    periodFee0_shift, List.map_const', List.sum_replicate, List.length_range, List.map_cons, List.map_nil,
    List.sum_cons, List.sum_nil, nsmul_eq_mul]
  ring

/-- The two ways to add up the periods of a stay differ by what the free time
takes off each full day between the first and the last. -/
theorem total0_sub_perPeriodFee (h : b < e) :
    total0 rule mode v b e - perPeriodFee rule mode v (divideTimeByDay0 b e) =
      ((divideTimeByDay0 b e).length - 2 : ℕ) *
        (dayFee0 rule mode v true ⟨b, b + dayTicks⟩ - periodFee0 rule ⟨b, b + dayTicks⟩ v) := by
  obtain ⟨n, h1, h2⟩ := exists_days b e h
  rw [(divideTimeByDay0_last b e n h1 h2).2]
  cases n with
  | zero =>
    have hd : e ≤ b + dayTicks := by simpa using h2
    rw [total0_first rule mode v b e h hd, divideTimeByDay0_short b e h hd]
    simp [perPeriodFee, calChargeByTime_fst]
  | succ n =>
    push_cast at h1 h2
    rw [perPeriodFee_long rule mode v b e n h1 (by linarith), total0_later rule mode v b e n h1 (by linarith)]
    have hn : n + 1 + 1 - 2 = n := by omega
    rw [hn]
    ring

end

theorem chargeByTime0_before (src : RuleSource) (offset enter exit mode v pos : ℤ) (discount : ℚ) (bill : Bill)
    (rule : ChargeRule) (hq : src.queryChargeRule (.localTime (utcToLocal offset enter)) pos = some rule)
    (h30 : (divideTimeByDay0 (utcToLocal offset enter) (utcToLocal offset exit)).length ≤ 30) :
    (chargeByTime0 src offset enter exit mode v pos discount bill).2.beforeDiscountedFee =
      total0 rule mode v (utcToLocal offset enter) (utcToLocal offset exit) := by
  rw [chargeByTime0, total0]
  cases hp : divideTimeByDay0 (utcToLocal offset enter) (utcToLocal offset exit) with
  | nil => rfl
  | cons first others =>
    rw [hp] at h30
    dsimp only
    rw [if_neg (by omega), hq]
    dsimp only
    rw [Bill.settle, chargePeriods0_fst, chargePeriods0_fst]

/-- The repeated fee of the first day is right for the middle days exactly if
there are none, or the free time taken off the first day costs nothing. -/
theorem chargeByTime0_per_period_iff (src : RuleSource) (offset enter exit mode v pos : ℤ) (discount : ℚ)
    (bill : Bill) (rule : ChargeRule)
    (hq : src.queryChargeRule (.localTime (utcToLocal offset enter)) pos = some rule)
    (h1 : 1 ≤ (divideTimeByDay0 (utcToLocal offset enter) (utcToLocal offset exit)).length)
    (h30 : (divideTimeByDay0 (utcToLocal offset enter) (utcToLocal offset exit)).length ≤ 30) :
    (chargeByTime0 src offset enter exit mode v pos discount bill).2.beforeDiscountedFee =
        perPeriodFee rule mode v (divideTimeByDay0 (utcToLocal offset enter) (utcToLocal offset exit)) ↔
      (divideTimeByDay0 (utcToLocal offset enter) (utcToLocal offset exit)).length ≤ 2 ∨
        FreeTimeUnpriced rule mode v ⟨utcToLocal offset enter, utcToLocal offset enter + dayTicks⟩ := by
  have hlt : utcToLocal offset enter < utcToLocal offset exit := by
    by_contra hge
    rw [divideTimeByDay0, divideLoop0_done _ _ _ _ (not_lt.mp hge)] at h1
    simp at h1
  rw [chargeByTime0_before src offset enter exit mode v pos discount bill rule hq h30, freeTimeUnpriced_iff,
    ← sub_eq_zero, total0_sub_perPeriodFee rule mode v _ _ hlt, mul_eq_zero, sub_eq_zero (b := periodFee0 _ _ _)]
  apply or_congr_left
  rw [Nat.cast_eq_zero]
  omega

theorem chargeByTime0_per_period_iff_hours :
    (chargeByTime0 (tableSource [freeHoursRow]) 0 0 172860 1 0 0 1 {}).2.beforeDiscountedFee =
        perPeriodFee (handleQueryRule freeHoursRow) 1 0 (divideTimeByDay0 (utcToLocal 0 0) (utcToLocal 0 172860)) ↔
      (divideTimeByDay0 (utcToLocal 0 0) (utcToLocal 0 172860)).length ≤ 2 ∨
        FreeTimeUnpriced (handleQueryRule freeHoursRow) 1 0 ⟨utcToLocal 0 0, utcToLocal 0 0 + dayTicks⟩ :=
  chargeByTime0_per_period_iff (tableSource [freeHoursRow]) 0 0 172860 1 0 0 1 {} (handleQueryRule freeHoursRow)
    ((queryChargeRule_singleton freeHoursRow _ 0).trans (if_pos rfl)) (by decide) (by decide)

/-- Ten free hours and two days and a minute: the ten hours are free on the
first day and again on the second. -/
theorem chargeByTime0_frees_twice :
    (divideTimeByDay0 (utcToLocal 0 0) (utcToLocal 0 172860)).length = 3 ∧
      (tableSource [freeHoursRow]).queryChargeRule (.localTime (utcToLocal 0 0)) 0 =
        some (handleQueryRule freeHoursRow) ∧
      (chargeByTime0 (tableSource [freeHoursRow]) 0 0 172860 1 0 0 1 {}).2.beforeDiscountedFee = 29 ∧
      perPeriodFee (handleQueryRule freeHoursRow) 1 0 (divideTimeByDay0 (utcToLocal 0 0) (utcToLocal 0 172860)) =
        39 := by
  refine ⟨by decide, (queryChargeRule_singleton freeHoursRow _ 0).trans (if_pos rfl), ?_, ?_⟩
  all_goals decide +kernel

end BitPark.PeriodFees
