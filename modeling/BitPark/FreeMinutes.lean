import BitPark.Carry

namespace BitPark.FreeMinutes

open BitPark.TimePeriod BitPark.Tariff BitPark.DivideTime BitPark.ParkingTimes BitPark.ChargeByTime
  BitPark.EffectiveTime BitPark.RuleTable BitPark.BillingTime BitPark.DayFee BitPark.Carry

def freeTimeChargeMode : ℤ := 0

theorem nextMidnight_of_before (b c : ℤ) (h : b ≤ c) (hc : c < nextMidnight b) :
    dateOf c = dateOf b ∧ nextMidnight c = nextMidnight b := by
  have hd : dateOf c = dateOf b := by
    simp only [nextMidnight, ptime, dateOf, dayTicks] at *
    omega
  exact ⟨hd, by rw [nextMidnight, hd, nextMidnight]⟩

/-- The free time has been taken off, or is not taken off at all. -/
def FreeTimeOver (mode : ℤ) (s : Day1State) : Prop := s.firstDay = false ∨ mode ≠ freeTimeNoChargeMode

/-- Two loops that go on alike. -/
def Agree (s t : Day1State) : Prop := s.totalFee = t.totalFee ∧ s.borrowedTime = t.borrowedTime

theorem billedBegin_over (rule : ChargeRule) (mode : ℤ) (s : Day1State) (begin : ℤ) (h : FreeTimeOver mode s) :
    billedBegin rule mode s.firstDay begin = begin := by
  rw [billedBegin, if_neg]
  rintro ⟨h1, h2⟩
  rcases h with h | h
  · exact absurd (h1.symm.trans h) (by decide)
  · exact h h2

theorem chargeDay1_firstDay (src : RuleSource) (mode v pos : ℤ) (s : Day1State) (period : Period)
    (h : s.firstDay = false) : (chargeDay1 src mode v pos s period).firstDay = false := by
  rw [chargeDay1]
  dsimp only
  by_cases h1 : period.stop ≤ period.begin + s.borrowedTime
  · rw [if_pos h1]
    exact h
  · rw [if_neg h1]
    cases src.queryChargeRule (.date (dateOf (period.begin + s.borrowedTime))) pos with
    | none => exact h
    | some rule =>
      dsimp only
      rw [if_neg (by simp [h])]
      exact h

theorem over_step (src : RuleSource) (mode v pos : ℤ) (s : Day1State) (period : Period)
    (h : FreeTimeOver mode s) : FreeTimeOver mode (chargeDay1 src mode v pos s period) :=
  h.imp_left (chargeDay1_firstDay src mode v pos s period)

section

variable (src : RuleSource) (v pos : ℤ)

theorem agree_of_billedDay (mode mode' : ℤ) (s t : Day1State) (p q : Period) (ha : Agree s t)
    (hb : billedDay src mode pos s p = billedDay src mode' pos t q) :
    Agree (chargeDay1 src mode v pos s p) (chargeDay1 src mode' v pos t q) := by
  have hs := chargeDay1_billedDay src mode v pos s p
  have ht := chargeDay1_billedDay src mode' v pos t q
  rw [hb, ha.1, ha.2, ← ht] at hs
  exact Prod.mk.inj hs

theorem agree_step (mode mode' : ℤ) (s t : Day1State) (p : Period) (ha : Agree s t) (hs : FreeTimeOver mode s)
    (ht : FreeTimeOver mode' t) : Agree (chargeDay1 src mode v pos s p) (chargeDay1 src mode' v pos t p) := by
  apply agree_of_billedDay src v pos mode mode' s t p p ha
  rw [billedDay, billedDay, ha.2]
  simp only [billedBegin_over _ _ _ _ hs, billedBegin_over _ _ _ _ ht]

/-- Once the free time is over, the mode does not matter any more. -/
theorem agree_foldl (mode mode' : ℤ) (ps : List Period) (s t : Day1State) (ha : Agree s t)
    (hs : FreeTimeOver mode s) (ht : FreeTimeOver mode' t) :
    Agree (ps.foldl (chargeDay1 src mode v pos) s) (ps.foldl (chargeDay1 src mode' v pos) t) := by
  induction ps generalizing s t with
  | nil => exact ha
  | cons p ps ih =>
    exact ih _ _ (agree_step src v pos mode mode' s t p ha hs ht) (over_step src mode v pos s p hs)
      (over_step src mode' v pos t p ht)

variable (rule : ChargeRule) (hq : ∀ q, src.queryChargeRule q pos = some rule)
include hq

/-- The first date of a stay whose free time is not charged. -/
theorem first_date (b x : ℤ) (bill : Bill) (h : b < x) :
    billedDay src freeTimeNoChargeMode pos { bill } ⟨b, x⟩ =
        (if x ≤ b + minutes rule.freeTimeLength then none
          else some (rule, dateOf b, ⟨b + minutes rule.freeTimeLength, x⟩)) ∧
      (chargeDay1 src freeTimeNoChargeMode v pos { bill } ⟨b, x⟩).firstDay = false := by
  constructor
  · rw [billedDay]
    dsimp only
    rw [add_zero, if_neg (not_le.mpr h), hq]
    rfl
  · rw [chargeDay1]
    dsimp only
    rw [add_zero, if_neg (not_le.mpr h), hq]
    dsimp only
    rw [if_pos rfl, if_pos rfl]
    split_ifs <;> rfl

theorem first_date_charged (b x : ℤ) (bill : Bill) (h : b < x) :
    billedDay src freeTimeChargeMode pos { bill } ⟨b, x⟩ = some (rule, dateOf b, ⟨b, x⟩) := by
  have hb : billedBegin rule freeTimeChargeMode true b = b := if_neg fun hc => absurd hc.2 (by decide)
  rw [billedDay]
  dsimp only
  rw [add_zero, if_neg (not_le.mpr h), hq]
  dsimp only
  rw [hb, if_neg (not_le.mpr h)]

/-- Free minutes that end by midnight are not billed: the loop goes on like
one over a stay that begins with their end. -/
theorem agree_until_midnight (b e : ℤ) (bill bill' : Bill) (hf : 0 ≤ minutes rule.freeTimeLength)
    (hm : b + minutes rule.freeTimeLength ≤ nextMidnight b) (he : b + minutes rule.freeTimeLength < e) :
    Agree ((divideTimeByDay1 b e).foldl (chargeDay1 src freeTimeNoChargeMode v pos) { bill })
      ((divideTimeByDay1 (b + minutes rule.freeTimeLength) e).foldl (chargeDay1 src freeTimeChargeMode v pos)
        { bill := bill' }) := by
  have hnext := (nextMidnight_bounds b).1
  have hcharge : freeTimeChargeMode ≠ freeTimeNoChargeMode := by decide
  -- the first dates agree wherever they end, as long as the free time ends before
  have hfirst : ∀ x, b + minutes rule.freeTimeLength < x → b + minutes rule.freeTimeLength < nextMidnight b →
      Agree (chargeDay1 src freeTimeNoChargeMode v pos { bill } ⟨b, x⟩)
        (chargeDay1 src freeTimeChargeMode v pos { bill := bill' } ⟨b + minutes rule.freeTimeLength, x⟩) := by
    intro x hx hlt
    have hstart : Agree { bill } { bill := bill' } := ⟨rfl, rfl⟩
    apply agree_of_billedDay src v pos _ _ _ _ _ _ hstart
    rw [(first_date src v pos rule hq b x bill (by omega)).1, first_date_charged src pos rule hq _ x bill' hx,
      if_neg (not_le.mpr hx), (nextMidnight_of_before b _ (by omega) hlt).1]
  by_cases hd : e ≤ nextMidnight b
  · have hlt := he.trans_le hd
    rw [divideTimeByDay1_short b e (by omega) hd, divideTimeByDay1_short _ e he.le (by
      rw [(nextMidnight_of_before b _ (by omega) hlt).2]; exact hd)]
    exact hfirst e he hlt
  · rw [not_le] at hd
    rw [divideTimeByDay1_long b e hd, List.foldl_cons]
    obtain ⟨hbilled, hover⟩ := first_date src v pos rule hq b (nextMidnight b) bill hnext
    rcases hm.eq_or_lt with heq | hlt
    · -- the whole first date is free, and the other loop begins with the second
      rw [heq]
      apply agree_foldl src v pos _ _ _ _ _ _ (Or.inl hover) (Or.inr hcharge)
      rw [if_pos heq.ge] at hbilled
      have hday := chargeDay1_billedDay src freeTimeNoChargeMode v pos { bill } ⟨b, nextMidnight b⟩
      rw [hbilled] at hday
      exact Prod.mk.inj hday
    · have hnm := (nextMidnight_of_before b _ (by omega) hlt).2
      rw [divideTimeByDay1_long (b + minutes rule.freeTimeLength) e (by rw [hnm]; exact hd), hnm, List.foldl_cons]
      exact agree_foldl src v pos _ _ _ _ _ (hfirst _ hlt hlt) (Or.inl hover) (Or.inr hcharge)

end

/-! A rule under which every minute behind midnight that is billed shows: the
first second of each date is listed as free so often that any date billed from
its begin comes out negative, while any other costs nothing. -/

def copies : ℕ := 86460

def midnightRule (f : ℤ) : ChargeRule where
  nightBegin := dayTicks
  freeTimeLength := f
  dayFeeRate := 1
  freeTimeSections := List.replicate copies ⟨0, secondTicks⟩

def firstSecond (d : ℤ) : Period := ⟨ptime d 0, ptime d secondTicks⟩

section

variable (f d x y : ℤ) (hx : ptime d 0 ≤ x) (hxy : x ≤ y) (hy : y ≤ ptime d dayTicks)
include hx hxy hy

theorem midnightRule_parkingTime1 :
    parkingTime1 ⟨x, y⟩ d (midnightRule f) = ⟨(y - x) - copies * Period.overlap ⟨x, y⟩ (firstSecond d), 0⟩ := by
  have hr : DayOrdered (midnightRule f) := ⟨le_rfl, (by decide : (0 : ℤ) ≤ dayTicks), le_rfl⟩
  have hb : ∀ s ∈ (midnightRule f).freeTimeSections, 0 ≤ s.begin := by
    intro s hs
    rw [List.eq_of_mem_replicate hs]
  have hday : ∀ t ∈ Period.ticks ⟨x, y⟩, covers (daylight1 (midnightRule f) d) t = true := by
    intro t ht
    rw [mem_ticks] at ht
    simp only [covers, daylight1, midnightRule, List.any_cons, List.any_nil, Bool.or_false, Period.contains,
      decide_eq_true_eq]
    exact ⟨hx.trans ht.1, ht.2.trans_le hy⟩
  have hnight : ∀ t ∈ Period.ticks ⟨x, y⟩, ¬ covers (night1 (midnightRule f) d) t = true := by
    intro t ht
    rw [mem_ticks] at ht
    simp only [covers, night1, midnightRule, List.any_cons, List.any_nil, Bool.or_false, Period.contains,
      Bool.or_eq_true, decide_eq_true_eq]
    omega
  have hfree : ∀ t, billable (freePeriods (midnightRule f) [d]) t = 1 - copies * (firstSecond d).weight t := by
    intro t
    simp [billable, freePeriods, midnightRule, sectionOn, firstSecond]
  rw [net1_eq (midnightRule f) hr ⟨x, y⟩ hxy d hy hb, Finset.filter_true_of_mem hday,
    Finset.filter_false_of_mem hnight, Finset.sum_empty]
  simp only [hfree]
  rw [Finset.sum_sub_distrib, sum_one_ticks _ hxy, ← Finset.mul_sum, ← overlap_eq_sum _ _ hxy]
  rfl

theorem midnightRule_periodFee1 :
    periodFee1 (midnightRule f) 0 d ⟨x, y⟩ =
      min (totalMinutes ((y - x) - copies * Period.overlap ⟨x, y⟩ (firstSecond d)) : ℚ) 0 := by
  have hone : ∀ m, completeTime m 1 = 0 := by
    intro m
    simp [completeTime]
  have hday : (midnightRule f).dayUnit 0 = 1 := rfl
  have hnight : (midnightRule f).nightUnit 0 = 1 := rfl
  rw [periodFee1, midnightRule_parkingTime1 f d x y hx hxy hy, completeDay1]
  simp only [hday, hnight, hone, minutes, zero_mul, sub_zero, lt_irrefl, if_false, add_zero]
  rw [calOneDayChargeByVehicleType_eq, calOneDayCharge_eq_min]
  simp [ChargeRule.dayUnit, ChargeRule.dayRate, ChargeRule.nightUnit, ChargeRule.nightRate, ChargeRule.cap,
    midnightRule]

end

/-- The price of a period that begins and ends in one date. -/
def midnightFee (f : ℤ) (p : Period) : ℚ := periodFee1 (midnightRule f) 0 (dateOf p.begin) p

theorem midnightFee_from_midnight (f d y : ℤ) (h : ptime d secondTicks ≤ y) (hy : y ≤ ptime d dayTicks) :
    midnightFee f ⟨ptime d 0, y⟩ < 0 := by
  have hdate : dateOf (ptime d 0) = d := by
    unfold dateOf ptime dayTicks
    omega
  have hov : Period.overlap ⟨ptime d 0, y⟩ (firstSecond d) = secondTicks := by
    have hi : (⟨ptime d 0, y⟩ : Period).intersects (firstSecond d) = true := by
      rw [intersects_iff, firstSecond]
      left
      unfold ptime secondTicks at *
      dsimp only
      omega
    rw [Period.overlap, if_pos hi, Period.intersection, firstSecond, Period.length]
    unfold ptime secondTicks at *
    split_ifs <;> grind
  have hle : ptime d 0 ≤ y := by
    unfold ptime secondTicks at *
    omega
  have hneg : totalMinutes ((y - ptime d 0) - copies * secondTicks) < 0 := by
    have hm : totalMinutes ((y - ptime d 0) - copies * secondTicks) =
        - totalMinutes (copies * secondTicks - (y - ptime d 0)) := by
      rw [totalMinutes, totalMinutes, ← Int.neg_tdiv, ← Int.neg_tdiv, neg_sub]
    have hp : minuteTicks ≤ copies * secondTicks - (y - ptime d 0) := by
      unfold ptime dayTicks copies secondTicks minuteTicks at *
      omega
    have h1 : minuteTicks / minuteTicks ≤ (copies * secondTicks - (y - ptime d 0)) / minuteTicks :=
      Int.ediv_le_ediv (by decide) hp
    rw [hm, totalMinutes_eq_ediv _ (by unfold minuteTicks at hp; omega)]
    rw [Int.ediv_self (by decide)] at h1
    omega
  rw [midnightFee, hdate, midnightRule_periodFee1 f d _ y le_rfl hle hy, hov]
  exact min_lt_of_left_lt (by exact_mod_cast hneg)

theorem midnightFee_later (f d x y : ℤ) (hx : ptime d secondTicks ≤ x) (hxy : x < y) (hy : y ≤ ptime d dayTicks) :
    midnightFee f ⟨x, y⟩ = 0 := by
  have hdate : dateOf x = d := by
    unfold dateOf ptime dayTicks secondTicks at *
    omega
  have hov : Period.overlap ⟨x, y⟩ (firstSecond d) = 0 := by
    rw [Period.overlap, if_neg]
    rw [intersects_iff, firstSecond]
    unfold ptime secondTicks at *
    dsimp only
    omega
  have hx0 : ptime d 0 ≤ x := by
    unfold ptime secondTicks at *
    omega
  have hpos := totalMinutes_nonneg (y - x) (by omega)
  rw [midnightFee, hdate, midnightRule_periodFee1 f d x y hx0 hxy.le hy, hov, mul_zero, sub_zero]
  exact min_eq_right (by exact_mod_cast hpos)

/-- The price of a stay under the rule when no free time is taken off. -/
def midnightTotal (f b e : ℤ) : ℚ := ((divideTimeByDay1 b e).map (midnightFee f)).sum

theorem midnightTotal_short (f b e : ℤ) (h : b < e) (hd : e ≤ nextMidnight b) :
    midnightTotal f b e = midnightFee f ⟨b, e⟩ := by
  rw [midnightTotal, divideTimeByDay1_short b e h.le hd]
  simp

theorem midnightTotal_long (f b e : ℤ) (hd : nextMidnight b < e) :
    midnightTotal f b e = midnightFee f ⟨b, nextMidnight b⟩ + midnightTotal f (nextMidnight b) e := by
  rw [midnightTotal, divideTimeByDay1_long b e hd, List.map_cons, List.sum_cons]
  rfl

theorem midnight_eq (b : ℤ) (hb : dayTicks ∣ b) :
    b = ptime (dateOf b) 0 ∧ nextMidnight b = ptime (dateOf b) dayTicks ∧
      b + secondTicks = ptime (dateOf b) secondTicks := by
  simp only [nextMidnight, ptime, dateOf, dayTicks, secondTicks] at *
  omega

theorem midnight_add_second (b c : ℤ) (hb : dayTicks ∣ b) (hc : secondTicks ∣ c) (h : b < c) :
    b + secondTicks ≤ c := by
  obtain ⟨k, rfl⟩ := hb
  obtain ⟨m, rfl⟩ := hc
  rw [dayTicks, secondTicks] at *
  omega

theorem midnightFee_neg (f b y : ℤ) (hb : dayTicks ∣ b) (h : b + secondTicks ≤ y) (hy : y ≤ nextMidnight b) :
    midnightFee f ⟨b, y⟩ < 0 := by
  obtain ⟨h0, h1, h2⟩ := midnight_eq b hb
  rw [h1] at hy
  rw [h2] at h
  rw [h0]
  exact midnightFee_from_midnight f _ y h hy

theorem midnightFee_zero (f b c y : ℤ) (hb : dayTicks ∣ b) (h : b + secondTicks ≤ c) (hc : c < y)
    (hy : y ≤ nextMidnight b) : midnightFee f ⟨c, y⟩ = 0 := by
  obtain ⟨-, h1, h2⟩ := midnight_eq b hb
  rw [h1] at hy
  rw [h2] at h
  exact midnightFee_later f _ c y h hc hy

/-- Every stay that begins at a midnight is cheaper than one that begins later. -/
theorem midnightTotal_lt (f b e : ℤ) (he : b < e) :
    dayTicks ∣ b → ∀ c, b < c → c < e → secondTicks ∣ c → midnightTotal f b e < midnightTotal f c e := by
  refine day_induction divideTimeByDay1_splits (P := fun b e => dayTicks ∣ b → ∀ c, b < c → c < e →
    secondTicks ∣ c → midnightTotal f b e < midnightTotal f c e) ?_ ?_ b e he
  · intro b e he hd hb c hc hce hs
    have h1 := midnight_add_second b c hb hs hc
    have hnm := (nextMidnight_of_before b c hc.le (hce.trans_le hd)).2
    rw [midnightTotal_short f b e he hd, midnightTotal_short f c e hce (hd.trans_eq hnm.symm),
      midnightFee_zero f b c e hb h1 hce hd]
    exact midnightFee_neg f b e hb (by omega) hd
  · intro b e hd ih hb c hc hce hs
    have hnext := nextMidnight_bounds b
    have hb' : dayTicks ∣ nextMidnight b := by
      rw [nextMidnight, ptime, add_zero]
      exact Dvd.intro_left _ rfl
    have hneg := midnightFee_neg f b (nextMidnight b) hb
      (midnight_add_second b _ hb (Dvd.dvd.trans (by decide) hb') hnext.1) le_rfl
    rw [midnightTotal_long f b e hd]
    rcases lt_trichotomy c (nextMidnight b) with hlt | rfl | hgt
    · -- the first dates differ, and the rest is the same
      have hnm := (nextMidnight_of_before b c hc.le hlt).2
      have h1 := midnight_add_second b c hb hs hc
      rw [midnightTotal_long f c e (hnm.trans_lt hd), hnm, midnightFee_zero f b c _ hb h1 hlt le_rfl]
      linarith
    · linarith
    · have hlt := ih hb' c hgt hce hs
      linarith

section

variable (src : RuleSource) (pos f : ℤ) (hq : ∀ q, src.queryChargeRule q pos = some (midnightRule f))
include hq

theorem midnightRule_step (mode : ℤ) (s : Day1State) (p : Period) (hp : p.begin < p.stop)
    (hs : FreeTimeOver mode s) (hb : s.borrowedTime = 0) :
    (chargeDay1 src mode 0 pos s p).totalFee = s.totalFee + midnightFee f p ∧
      (chargeDay1 src mode 0 pos s p).borrowedTime = 0 := by
  have hbill : billedDay src mode pos s p = some (midnightRule f, dateOf p.begin, p) := by
    rw [billedDay]
    dsimp only
    rw [hb, add_zero, if_neg (not_le.mpr hp), hq]
    dsimp only
    rw [billedBegin_over _ _ _ _ hs, if_neg (not_le.mpr hp)]
  have hcarry : ∀ time, (completeDay1 (midnightRule f) 0 time 0).2 = 0 := by
    intro time
    have hnight : (midnightRule f).nightUnit 0 = 1 := rfl
    rw [completeDay1, hnight]
    simp only [completeTime, Int.tmod_one, if_true]
    split_ifs <;> rfl
  have hday := chargeDay1_billedDay src mode 0 pos s p
  rw [hbill, hb] at hday
  dsimp only at hday
  rw [hcarry] at hday
  exact Prod.mk.inj hday

theorem midnightRule_run (mode b e : ℤ) (he : b < e) : ∀ s : Day1State, FreeTimeOver mode s → s.borrowedTime = 0 →
    ((divideTimeByDay1 b e).foldl (chargeDay1 src mode 0 pos) s).totalFee = s.totalFee + midnightTotal f b e := by
  refine day_induction divideTimeByDay1_splits (P := fun b e => ∀ s : Day1State, FreeTimeOver mode s →
    s.borrowedTime = 0 → ((divideTimeByDay1 b e).foldl (chargeDay1 src mode 0 pos) s).totalFee =
      s.totalFee + midnightTotal f b e) ?_ ?_ b e he
  · intro b e he hd s hs hb
    rw [midnightTotal_short f b e he hd, divideTimeByDay1_short b e he.le hd]
    exact (midnightRule_step src pos f hq mode s ⟨b, e⟩ he hs hb).1
  · intro b e hd ih s hs hb
    obtain ⟨hfee, hb'⟩ := midnightRule_step src pos f hq mode s ⟨b, nextMidnight b⟩ (nextMidnight_bounds b).1 hs hb
    rw [midnightTotal_long f b e hd, divideTimeByDay1_long b e hd, List.foldl_cons,
      ih _ (over_step src mode 0 pos s _ hs) hb', hfee, add_assoc]

/-- Free minutes that reach past midnight are billed from midnight on. -/
theorem midnightRule_separates (b e : ℤ) (bill bill' : Bill) (hs : secondTicks ∣ b)
    (hm : nextMidnight b < b + minutes f) (he : b + minutes f < e) :
    ((divideTimeByDay1 b e).foldl (chargeDay1 src freeTimeNoChargeMode 0 pos) { bill }).totalFee <
      ((divideTimeByDay1 (b + minutes f) e).foldl (chargeDay1 src freeTimeChargeMode 0 pos)
        { bill := bill' }).totalFee := by
  have hcharge : freeTimeChargeMode ≠ freeTimeNoChargeMode := by decide
  obtain ⟨hbilled, hover⟩ := first_date src 0 pos (midnightRule f) hq b (nextMidnight b) bill (nextMidnight_bounds b).1
  have hf : (midnightRule f).freeTimeLength = f := rfl
  have hday := chargeDay1_billedDay src freeTimeNoChargeMode 0 pos { bill } ⟨b, nextMidnight b⟩
  rw [hbilled, hf, if_pos hm.le] at hday
  obtain ⟨hfee, hborrow⟩ := Prod.mk.inj hday
  have hmid : dayTicks ∣ nextMidnight b := by
    rw [nextMidnight, ptime, add_zero]
    exact Dvd.intro_left _ rfl
  have hsec : secondTicks ∣ b + minutes f :=
    Dvd.dvd.add hs (Dvd.dvd.mul_left (by decide) f)
  rw [divideTimeByDay1_long b e (hm.trans he), List.foldl_cons,
    midnightRule_run src pos f hq _ _ _ (hm.trans he) _ (Or.inl hover) hborrow, hfee,
    midnightRule_run src pos f hq _ _ _ he { bill := bill' } (Or.inr hcharge) rfl, zero_add, zero_add]
  exact midnightTotal_lt f _ e (hm.trans he) hmid _ hm he hsec

end

/-- The fee of the stay when its free minutes are not charged is that of the
stay that begins with their end, whatever the rule with so many free minutes. -/
def FreeMinutesUnbilled (offset enter exit f : ℤ) : Prop :=
  ∀ (rule : ChargeRule) (src : RuleSource) (pos : ℤ), rule.freeTimeLength = f →
    (∀ q, src.queryChargeRule q pos = some rule) → ∀ (v : ℤ) (discount : ℚ) (bill : Bill),
      (chargeByTime1 src offset enter exit freeTimeNoChargeMode v pos discount bill).1 =
        (chargeByTime1 src offset (enter + f * 60) exit freeTimeChargeMode v pos discount bill).1

theorem utcToLocal_add_minutes (offset enter f : ℤ) :
    utcToLocal offset (enter + f * 60) = utcToLocal offset enter + minutes f := by
  simp only [utcToLocal, seconds, secondTicks, minutes, minuteTicks]
  ring

/-- Pattern 1 leaves the free minutes unbilled exactly if they end by the
first midnight of the stay. -/
theorem freeMinutesUnbilled_iff (offset enter exit f : ℤ) (hf : 0 ≤ f) (he : enter + f * 60 < exit)
    (h30 : (divideTimeByDay1 (utcToLocal offset enter) (utcToLocal offset exit)).length ≤ 30)
    (h30' : (divideTimeByDay1 (utcToLocal offset (enter + f * 60)) (utcToLocal offset exit)).length ≤ 30) :
    FreeMinutesUnbilled offset enter exit f ↔
      utcToLocal offset enter + minutes f ≤ nextMidnight (utcToLocal offset enter) := by
  have hlt := (utcToLocal_lt_iff offset _ _).mpr he
  rw [utcToLocal_add_minutes] at h30' hlt
  constructor
  · intro h
    by_contra hm
    have heq := h (midnightRule f) ⟨fun _ _ => some (midnightRule f), fun _ => none⟩ 0 rfl (fun _ => rfl) 0 1 {}
    have hne := midnightRule_separates ⟨fun _ _ => some (midnightRule f), fun _ => none⟩ 0 f (fun _ => rfl)
      (utcToLocal offset enter) (utcToLocal offset exit) {} {} (Dvd.intro_left _ rfl) (not_le.mp hm) hlt
    rw [chargeByTime1, chargeByTime1, utcToLocal_add_minutes] at heq
    dsimp only at heq
    rw [if_neg (by omega), if_neg (by omega), mul_one, mul_one] at heq
    exact absurd heq hne.ne
  · intro hm rule src pos hrule hq v discount bill
    rw [← hrule] at hm hlt h30'
    have hagree := agree_until_midnight src v pos rule hq _ _ bill bill
      (by unfold minutes minuteTicks; omega) hm hlt
    rw [chargeByTime1, chargeByTime1, utcToLocal_add_minutes, ← hrule]
    dsimp only
    rw [if_neg (by omega), if_neg (by omega), hagree.1]

theorem freeMinutesUnbilled_iff_morning : FreeMinutesUnbilled 0 28800 36000 60 :=
  (freeMinutesUnbilled_iff 0 28800 36000 60 (by decide) (by decide) (by decide) (by decide)).mpr
    (by decide)

def freeHourRow : RuleRow := { hourlyRow [] with freeTimeLength := some 60 }

/-- An hour is free, but of a stay from 23:30 to 01:30 only half an hour is. -/
theorem midnight_bills_free_minutes :
    (chargeByTime1 (tableSource [freeHourRow]) 0 84600 91800 freeTimeNoChargeMode 0 0 1 {}).1 = 2 ∧
      (chargeByTime1 (tableSource [freeHourRow]) 0 (84600 + 60 * 60) 91800 freeTimeChargeMode 0 0 1 {}).1 = 1 ∧
      ¬ FreeMinutesUnbilled 0 84600 91800 60 := by
  have h1 : (chargeByTime1 (tableSource [freeHourRow]) 0 84600 91800 freeTimeNoChargeMode 0 0 1 {}).1 = 2 := by
    decide +kernel
  have h2 : (chargeByTime1 (tableSource [freeHourRow]) 0 (84600 + 60 * 60) 91800 freeTimeChargeMode 0 0 1 {}).1 =
      1 := by
    decide +kernel
  refine ⟨h1, h2, fun h => ?_⟩
  have heq := h (handleQueryRule freeHourRow) (tableSource [freeHourRow]) 0 rfl
    (fun q => (queryChargeRule_singleton freeHourRow q 0).trans (if_pos rfl)) 0 1 {}
  rw [h1, h2] at heq
  exact absurd heq (by decide)

end BitPark.FreeMinutes
