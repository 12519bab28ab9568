import BitPark.DayFee

namespace BitPark.FeeMonotone

open BitPark.TimePeriod BitPark.Rounding BitPark.Tariff BitPark.DivideTime BitPark.ParkingTimes
  BitPark.ChargeByTime BitPark.EffectiveTime BitPark.RuleTable BitPark.BillingTime BitPark.DayFee

/-- The fee of a stay from its number of days and its total: the discounted
total, or from the 31st day on the daily maximum for every day. -/
def stayFee (cap discount : ℚ) (days : ℕ) (total : ℚ) : ℚ :=
  if days > 30 then cap * days else total * discount

theorem stayFee_mono (cap discount : ℚ) (hc : 0 ≤ cap) (h0 : 0 ≤ discount) (h1 : discount ≤ 1) (m n : ℕ)
    (hmn : m ≤ n) (t u : ℚ) (ht : 0 ≤ t) (htu : t ≤ u) (htc : t ≤ m * cap) :
    stayFee cap discount m t ≤ stayFee cap discount n u := by
  have hq : (m : ℚ) ≤ n := by exact_mod_cast hmn
  unfold stayFee
  split_ifs with hm hn hn
  · exact mul_le_mul_of_nonneg_left hq hc
  · omega
  · calc t * discount ≤ t * 1 := mul_le_mul_of_nonneg_left h1 ht
      _ ≤ m * cap := by rw [mul_one]; exact htc
      _ ≤ cap * n := by rw [mul_comm]; exact mul_le_mul_of_nonneg_left hq hc
  · exact mul_le_mul_of_nonneg_right htu h0

/-- A source that answers every query at a position with the one rule. -/
def Answers (src : RuleSource) (pos : ℤ) (rule : ChargeRule) : Prop :=
  (∀ q, src.queryChargeRule q pos = some rule) ∧ src.queryMinPriorityRule pos = some rule

theorem calChargeTooDays_fst (src : RuleSource) (offset enter exit v pos : ℤ) (days : ℕ) (bill : Bill)
    (rule : ChargeRule) (hq : Answers src pos rule) :
    (calChargeTooDays src offset enter exit days v pos bill).1 = rule.cap v * days := by
  rw [calChargeTooDays, ChargeRule.cap]
  rw [hq.2]
  dsimp only
  split_ifs <;> simp

section Pattern0

/-- The undiscounted total of a stay of pattern 0. -/
def total0 (rule : ChargeRule) (mode v b e : ℤ) : ℚ :=
  match divideTimeByDay0 b e with
  | [] => 0
  | first :: others => (chargePeriods0 rule mode v first others {}).1

theorem chargeByTime0_fst (src : RuleSource) (offset enter exit mode v pos : ℤ) (discount : ℚ) (bill : Bill)
    (rule : ChargeRule) (hq : Answers src pos rule) :
    (chargeByTime0 src offset enter exit mode v pos discount bill).1 =
      stayFee (rule.cap v) discount
        (divideTimeByDay0 (utcToLocal offset enter) (utcToLocal offset exit)).length
        (total0 rule mode v (utcToLocal offset enter) (utcToLocal offset exit)) := by
  rw [chargeByTime0, stayFee, total0]
  cases divideTimeByDay0 (utcToLocal offset enter) (utcToLocal offset exit) with
  | nil => simp
  | cons first others =>
    dsimp only
    split_ifs
    · exact calChargeTooDays_fst src offset enter exit v pos _ bill rule hq
    · rw [hq.1]
      dsimp only
      rw [chargePeriods0_fst, chargePeriods0_fst]

theorem total0_first (rule : ChargeRule) (mode v b e : ℤ) (h : b < e) (hd : e ≤ b + dayTicks) :
    total0 rule mode v b e = dayFee0 rule mode v true ⟨b, e⟩ := by
  rw [total0]
  rw [divideTimeByDay0_short b e h hd]
  dsimp only
  rw [chargePeriods0_fst]
  rfl

/-- After `n + 1` full days every one of them costs what the first did. -/
theorem total0_later (rule : ChargeRule) (mode v b e : ℤ) (n : ℕ) (h1 : b + (n + 1) * dayTicks < e)
    (h2 : e ≤ b + (n + 2) * dayTicks) :
    total0 rule mode v b e = (n + 1) * dayFee0 rule mode v true ⟨b, b + dayTicks⟩ +
      periodFee0 rule ⟨b, e - (n + 1) * dayTicks⟩ v := by
  have h0 : (0 : ℤ) < dayTicks := by decide
  have hn : (0 : ℤ) ≤ n * dayTicks := by positivity
  obtain ⟨hl, hlen⟩ := divideTimeByDay0_last (b + dayTicks) e n (by linarith) (by linarith)
  have hshift : (⟨b + dayTicks + n * dayTicks, e⟩ : Period) =
      Period.shift ((n + 1) * dayTicks) ⟨b, e - (n + 1) * dayTicks⟩ := by
    rw [Period.shift]
    congr 1 <;> ring
  rw [total0]
  rw [divideTimeByDay0_long b e (by linarith)]
  dsimp only
  rw [chargePeriods0_fst, hl, List.length_dropLast, hlen, Nat.add_sub_cancel]
  dsimp only
  rw [hshift]
  have hlast : dayFee0 rule mode v false (Period.shift ((n + 1) * dayTicks) ⟨b, e - (n + 1) * dayTicks⟩) =
      periodFee0 rule ⟨b, e - (n + 1) * dayTicks⟩ v := by
    rw [dayFee0, if_neg (by simp)]
    exact periodFee0_shift rule _ v (n + 1)
  rw [hlast]
  ring

theorem exists_days (b e : ℤ) (h : b < e) :
    ∃ n : ℕ, b + n * dayTicks < e ∧ e ≤ b + (n + 1) * dayTicks := by
  refine ⟨((e - b - 1) / dayTicks).toNat, ?_⟩
  rw [dayTicks]
  omega

variable (rule : ChargeRule) (hv : ValidRule rule) (h : DisjointSections rule) (mode v b : ℤ)
include hv

theorem total0_le_cap (e : ℤ) (he : b ≤ e) :
    total0 rule mode v b e ≤ (divideTimeByDay0 b e).length * rule.cap v := by
  rcases he.eq_or_lt with rfl | hlt
  · simp [total0, divideTimeByDay0_empty]
  · obtain ⟨n, h1, h2⟩ := exists_days b e hlt
    rw [(divideTimeByDay0_last b e n h1 h2).2]
    cases n with
    | zero =>
      rw [total0_first rule mode v b e hlt (by simpa using h2)]
      simpa using dayFee0_le_cap rule hv mode v true ⟨b, e⟩
    | succ n =>
      push_cast at h1 h2
      rw [total0_later rule mode v b e n (by linarith) (by linarith)]
      have hF := dayFee0_le_cap rule hv mode v true ⟨b, b + dayTicks⟩
      have hG : periodFee0 rule ⟨b, e - (n + 1) * dayTicks⟩ v ≤ rule.cap v := calOneDay_le_cap rule v _ _
      have hn : (0 : ℚ) ≤ n + 1 := by positivity
      have hm := mul_le_mul_of_nonneg_left hF hn
      push_cast
      linarith

include h

theorem total0_nonneg (e : ℤ) (he : b ≤ e) : 0 ≤ total0 rule mode v b e := by
  rcases he.eq_or_lt with rfl | hlt
  · simp [total0, divideTimeByDay0_empty]
  · have hw := tiles_wf _ _ _ (splits_tiles divideTimeByDay0_splits b e hlt)
    rw [total0]
    cases hp : divideTimeByDay0 b e with
    | nil => exact le_rfl
    | cons first others =>
      rw [hp] at hw
      exact chargePeriods0_nonneg rule hv v h mode first others {} hw

variable (hr : RatesBalanced rule v (nightStart rule (timeOfDay b)))
variable (hrf : mode = freeTimeNoChargeMode →
  RatesBalanced rule v (nightStart rule (timeOfDay (b + minutes rule.freeTimeLength))))
include hr hrf

theorem dayFee0_mono (e e' : ℤ) (hb : b ≤ e) (he : e ≤ e') :
    dayFee0 rule mode v true ⟨b, e⟩ ≤ dayFee0 rule mode v true ⟨b, e'⟩ := by
  unfold dayFee0
  by_cases hm : mode = freeTimeNoChargeMode
  · simp only [hm, and_self, if_true]
    split_ifs with h1 h2 h2
    · exact le_rfl
    · exact periodFee0_nonneg rule hv v h _ (by dsimp only; omega)
    · omega
    · exact periodFee0_mono rule hv h v _ _ _ (by omega) he (hrf hm)
  · simp only [hm, and_false, if_false]
    exact periodFee0_mono rule hv h v b e e' hb he hr

/-- The later days are charged like the first one, unless that one was
shortened by the free time; a stay of two days has no other full day to show it. -/
theorem total0_mono (e e' : ℤ) (hb : b ≤ e) (he : e ≤ e')
    (hf : mode = freeTimeNoChargeMode → rule.freeTimeLength ≠ 0 → e' ≤ b + 2 * dayTicks) :
    total0 rule mode v b e ≤ total0 rule mode v b e' := by
  have h0 : (0 : ℤ) < dayTicks := by decide
  rcases hb.eq_or_lt with rfl | hlt
  · have hz : total0 rule mode v b b = 0 := by simp [total0, divideTimeByDay0_empty]
    rw [hz]
    exact total0_nonneg rule hv h mode v b e' he
  obtain ⟨n, h1, h2⟩ := exists_days b e hlt
  obtain ⟨n', h1', h2'⟩ := exists_days b e' (hlt.trans_le he)
  have hnn : n ≤ n' := by
    have hlt' : (n : ℤ) * dayTicks < (n' + 1) * dayTicks := by linarith
    have hn := lt_of_mul_lt_mul_right hlt' h0.le
    omega
  have hF0 := dayFee0_nonneg rule hv v h ⟨b, b + dayTicks⟩ (by dsimp only; omega) mode true
  cases n' with
  | zero =>
    obtain rfl : n = 0 := by omega
    rw [total0_first rule mode v b e hlt (by simpa using h2),
      total0_first rule mode v b e' (hlt.trans_le he) (by simpa using h2')]
    exact dayFee0_mono rule hv h mode v b hr hrf e e' hb he
  | succ k =>
    push_cast at h1' h2'
    have hk : (0 : ℚ) ≤ k := by positivity
    have hG0 := periodFee0_nonneg rule hv v h ⟨b, e' - (k + 1) * dayTicks⟩ (by dsimp only; linarith)
    rw [total0_later rule mode v b e' k h1' (by linarith)]
    cases n with
    | zero =>
      have hle := dayFee0_mono rule hv h mode v b hr hrf e (b + dayTicks) hb (by simpa using h2)
      rw [total0_first rule mode v b e hlt (by simpa using h2)]
      have hk' := mul_nonneg hk hF0
      linarith
    | succ m =>
      push_cast at h1 h2
      rw [total0_later rule mode v b e m h1 (by linarith)]
      rcases (Nat.le_of_succ_le_succ hnn).eq_or_lt with rfl | hmk
      · have hle := periodFee0_mono rule hv h v b (e - (m + 1) * dayTicks) (e' - (m + 1) * dayTicks)
          (by linarith) (by linarith) hr
        linarith
      · -- a further full day, which costs what any full day does
        have hfull : dayFee0 rule mode v true ⟨b, b + dayTicks⟩ = periodFee0 rule ⟨b, b + dayTicks⟩ v := by
          have hmk' : (m : ℤ) + 1 ≤ k := by omega
          have hlong : ¬ e' ≤ b + 2 * dayTicks := by nlinarith
          rw [dayFee0]
          by_cases hm : mode = freeTimeNoChargeMode
          · have hz : rule.freeTimeLength = 0 := by
              by_contra hne
              exact hlong (hf hm hne)
            simp only [hm, and_self, if_true, hz, minutes, zero_mul, add_zero]
            rw [if_neg (by omega)]
          · simp only [hm, and_false, if_false]
        have hle := periodFee0_mono rule hv h v b (e - (m + 1) * dayTicks) (b + dayTicks)
          (by linarith) (by linarith) hr
        have hmq : (m : ℚ) + 1 ≤ k := by exact_mod_cast hmk
        have hmul := mul_le_mul_of_nonneg_right hmq hF0
        linarith

end Pattern0

section Pattern1

variable (rule : ChargeRule) (hv : ValidRule rule) (src : RuleSource) (mode v pos : ℤ)
variable (hq : ∀ q, src.queryChargeRule q pos = some rule)
include hv hq

theorem chargeDays1_le_cap (ps : List Period) (s : Day1State) :
    (ps.foldl (chargeDay1 src mode v pos) s).totalFee ≤ s.totalFee + ps.length * rule.cap v := by
  induction ps generalizing s with
  | nil => simp
  | cons p ps ih =>
    have hd := chargeDay1_totalFee src mode v pos s p rule hq
    have hc := dayFee1_le_cap rule hv mode v s.firstDay p s.borrowedTime
    have hs := ih (chargeDay1 src mode v pos s p)
    rw [List.foldl_cons, List.length_cons]
    push_cast
    linarith

variable (ha : AcceptedSections rule) (h : DisjointSections rule) (ho : OnlyRule src rule)
variable (hr : RatesBalanced rule v false)
include ha h ho hr

/-- Two stays with one begin share all days but the last of the shorter one,
and that day is not cheaper when it is longer. -/
theorem chargeDays1_mono (b e e' : ℤ) (hb : b < e) (he : e ≤ e') (s : Day1State) (hs : 0 ≤ s.borrowedTime) :
    ((divideTimeByDay1 b e).foldl (chargeDay1 src mode v pos) s).totalFee ≤
      ((divideTimeByDay1 b e').foldl (chargeDay1 src mode v pos) s).totalFee := by
  have hsp := divideTimeByDay1_splits
  have hday : ∀ (c x x' : ℤ) (s : Day1State), 0 ≤ s.borrowedTime → x ≤ x' → x' ≤ nextMidnight c →
      (chargeDay1 src mode v pos s ⟨c, x⟩).totalFee ≤ (chargeDay1 src mode v pos s ⟨c, x'⟩).totalFee := by
    intro c x x' s hs hx hx'
    have hm := dayFee1_mono rule hv h v ha mode s.borrowedTime s.firstDay hs c x x' hx hx' hr
    rw [chargeDay1_totalFee src mode v pos s _ rule hq, chargeDay1_totalFee src mode v pos s _ rule hq]
    linarith
  refine day_induction hsp (P := fun b e => e ≤ e' → ∀ s : Day1State, 0 ≤ s.borrowedTime →
    ((divideTimeByDay1 b e).foldl (chargeDay1 src mode v pos) s).totalFee ≤
      ((divideTimeByDay1 b e').foldl (chargeDay1 src mode v pos) s).totalFee) ?_ ?_ b e hb he s hs
  · intro b e hb hd he s hs
    rw [hsp.short b e hb hd, List.foldl_cons, List.foldl_nil]
    by_cases hd' : e' ≤ nextMidnight b
    · rw [hsp.short b e' (hb.trans_le he) hd', List.foldl_cons, List.foldl_nil]
      exact hday b e e' s hs he hd'
    · rw [hsp.long b e' (not_le.mp hd'), List.foldl_cons]
      obtain ⟨hs', -⟩ := chargeDay1_le rule hv ha h src ho mode v pos s ⟨b, nextMidnight b⟩ le_rfl hs
      refine (hday b e (nextMidnight b) s hs hd le_rfl).trans ?_
      exact chargeDays1_le rule hv ha h src ho mode v pos _
        (splits_within hsp (nextMidnight b) e' (not_le.mp hd')) _ hs'
  · intro b e hd ih he s hs
    rw [hsp.long b e hd, hsp.long b e' (hd.trans_le he), List.foldl_cons, List.foldl_cons]
    obtain ⟨hs', -⟩ := chargeDay1_le rule hv ha h src ho mode v pos s ⟨b, nextMidnight b⟩ le_rfl hs
    exact ih he _ hs'

end Pattern1

theorem tableSource_onlyRule (row : RuleRow) : OnlyRule (tableSource [row]) (handleQueryRule row) := by
  constructor
  · intro q pos r hr
    rw [queryChargeRule_singleton] at hr
    split_ifs at hr
    exact (Option.some.inj hr).symm
  · intro pos r hr
    rw [queryMinPriorityRule_singleton] at hr
    split_ifs at hr
    exact (Option.some.inj hr).symm

theorem tableSource_answers (row : RuleRow) (pos : ℤ) (hu : usable pos row = true) :
    Answers (tableSource [row]) pos (handleQueryRule row) :=
  ⟨fun q => by rw [queryChargeRule_singleton, if_pos hu],
    by rw [queryMinPriorityRule_singleton, if_pos hu]⟩

/-- The rates are balanced for every kind of time at which the stay, or what
is left of it after the free time, can begin to borrow. -/
def BorrowsBalanced (rule : ChargeRule) (pattern mode v begin : ℤ) : Prop :=
  if pattern = 1 then RatesBalanced rule v false
  else RatesBalanced rule v (nightStart rule (timeOfDay begin)) ∧
    (mode = freeTimeNoChargeMode →
      RatesBalanced rule v (nightStart rule (timeOfDay (begin + minutes rule.freeTimeLength))))

/-- Pattern 0 prices every full day like the first, from which the free time may have been taken. -/
def FirstDayRepeats (rule : ChargeRule) (pattern mode enter exit : ℤ) : Prop :=
  pattern ≠ 1 → mode = freeTimeNoChargeMode → rule.freeTimeLength ≠ 0 → exit ≤ enter + 2 * 86400

section Stay

variable (rule : ChargeRule) (hv : ValidRule rule) (ha : AcceptedSections rule) (h : DisjointSections rule)
variable (src : RuleSource) (ho : OnlyRule src rule) (pos : ℤ) (hq : Answers src pos rule)
variable (offset enter exit exit' mode v : ℤ) (he : enter ≤ exit) (he' : exit ≤ exit')
variable (discount : ℚ) (h0 : 0 ≤ discount) (h1 : discount ≤ 1) (bill : Bill)
include hv h hq he he' h0 h1

theorem chargeByTime0_mono
    (hr : RatesBalanced rule v (nightStart rule (timeOfDay (utcToLocal offset enter))))
    (hrf : mode = freeTimeNoChargeMode → RatesBalanced rule v
      (nightStart rule (timeOfDay (utcToLocal offset enter + minutes rule.freeTimeLength))))
    (hf : mode = freeTimeNoChargeMode → rule.freeTimeLength ≠ 0 → exit' ≤ enter + 2 * 86400) :
    (chargeByTime0 src offset enter exit mode v pos discount bill).1 ≤
      (chargeByTime0 src offset enter exit' mode v pos discount bill).1 := by
  have hb := (utcToLocal_le_iff offset enter exit).mpr he
  have hb' := (utcToLocal_le_iff offset exit exit').mpr he'
  rw [chargeByTime0_fst src offset enter exit mode v pos discount bill rule hq,
    chargeByTime0_fst src offset enter exit' mode v pos discount bill rule hq]
  apply stayFee_mono _ _ (hv.cap v) h0 h1
  · rcases hb.eq_or_lt with heq | hlt
    · rw [← heq, divideTimeByDay0_empty]
      exact Nat.zero_le _
    · exact splits_length_mono divideTimeByDay0_splits _ _ _ hlt hb'
  · exact total0_nonneg rule hv h mode v _ _ hb
  · refine total0_mono rule hv h mode v _ hr hrf _ _ hb hb' fun hm hne => ?_
    have hd := hf hm hne
    unfold utcToLocal seconds secondTicks dayTicks
    omega
  · exact total0_le_cap rule hv mode v _ _ hb

include ha ho

theorem chargeByTime1_mono (hr : RatesBalanced rule v false) :
    (chargeByTime1 src offset enter exit mode v pos discount bill).1 ≤
      (chargeByTime1 src offset enter exit' mode v pos discount bill).1 := by
  have hb := (utcToLocal_le_iff offset enter exit).mpr he
  have hb' := (utcToLocal_le_iff offset exit exit').mpr he'
  have hfst : ∀ x, (chargeByTime1 src offset enter x mode v pos discount bill).1 =
      stayFee (rule.cap v) discount (divideTimeByDay1 (utcToLocal offset enter) (utcToLocal offset x)).length
        ((divideTimeByDay1 (utcToLocal offset enter) (utcToLocal offset x)).foldl
          (chargeDay1 src mode v pos) { bill }).totalFee := by
    intro x
    rw [chargeByTime1, stayFee]
    dsimp only
    split_ifs
    · exact calChargeTooDays_fst src offset enter x v pos _ bill rule hq
    · rfl
  have hge : ∀ x, utcToLocal offset enter ≤ x → 0 ≤ ((divideTimeByDay1 (utcToLocal offset enter) x).foldl
      (chargeDay1 src mode v pos) { bill }).totalFee := fun x hx =>
    chargeDays1_le rule hv ha h src ho mode v pos _ (divideTimeByDay1_within _ _ hx) { bill } le_rfl
  have hcap := chargeDays1_le_cap rule hv src mode v pos hq.1
    (divideTimeByDay1 (utcToLocal offset enter) (utcToLocal offset exit)) { bill }
  rw [zero_add] at hcap
  rw [hfst exit, hfst exit']
  rcases hb.eq_or_lt with heq | hlt
  · -- the empty stay is one empty period without a fee
    have hone := divideTimeByDay1_short (utcToLocal offset enter) (utcToLocal offset enter) le_rfl
      (nextMidnight_bounds _).1.le
    have hzero : ((divideTimeByDay1 (utcToLocal offset enter) (utcToLocal offset enter)).foldl
        (chargeDay1 src mode v pos) { bill }).totalFee = 0 := by
      rw [hone, List.foldl_cons, List.foldl_nil, chargeDay1_totalFee src mode v pos _ _ rule hq.1, dayFee1]
      simp
    rw [← heq] at hcap hb' ⊢
    apply stayFee_mono _ _ (hv.cap v) h0 h1 _ _ _ _ _ (hge _ le_rfl)
    · rw [hzero]
      exact hge _ hb'
    · exact hcap
    · rw [divideTimeByDay1_cons _ _ le_rfl, divideTimeByDay1_cons _ _ hb']
      simp
  · apply stayFee_mono _ _ (hv.cap v) h0 h1
    · exact splits_length_mono divideTimeByDay1_splits _ _ _ hlt hb'
    · exact hge _ hb
    · exact chargeDays1_mono rule hv src mode v pos hq.1 ha h ho hr _ _ _ hlt hb' { bill } le_rfl
    · exact hcap

theorem chargeByPattern_mono (pattern : ℤ)
    (hr : BorrowsBalanced rule pattern mode v (utcToLocal offset enter))
    (hf : FirstDayRepeats rule pattern mode enter exit') :
    (chargeByPattern src offset enter exit pattern mode v pos discount bill).1 ≤
      (chargeByPattern src offset enter exit' pattern mode v pos discount bill).1 := by
  unfold BorrowsBalanced FirstDayRepeats at *
  unfold chargeByPattern
  split_ifs with hp
  · rw [if_pos hp] at hr
    exact chargeByTime1_mono rule hv ha h src ho pos hq offset enter exit exit' mode v he he' discount h0 h1 bill hr
  · rw [if_neg hp] at hr
    exact chargeByTime0_mono rule hv h src pos hq offset enter exit exit' mode v he he' discount h0 h1 bill
      hr.1 hr.2 (hf hp)

end Stay

/-- Under one rule, no later exit is cheaper, as long as what a unit takes
from the other kind of time is paid for by the unit. -/
theorem chargeByTime_mono (row : RuleRow) (pos : ℤ) (hu : usable pos row = true)
    (hv : ValidRule (handleQueryRule row)) (ha : AcceptedSections (handleQueryRule row))
    (h : DisjointSections (handleQueryRule row)) (offset enter exit exit' pattern mode v : ℤ)
    (he : enter ≤ exit) (he' : exit ≤ exit') (discount : ℚ) (h0 : 0 ≤ discount) (h1 : discount ≤ 1) (bill : Bill)
    (hr : BorrowsBalanced (handleQueryRule row) pattern mode v (utcToLocal offset enter))
    (hf : FirstDayRepeats (handleQueryRule row) pattern mode enter exit') :
    (chargeByTime (tableSource [row]) offset enter exit pattern mode v pos discount bill).1 ≤
      (chargeByTime (tableSource [row]) offset enter exit' pattern mode v pos discount bill).1 := by
  have ho := tableSource_onlyRule row
  have hq := tableSource_answers row pos hu
  have hp := chargeByPattern_mono (handleQueryRule row) hv ha h _ ho pos hq offset enter exit exit' mode v
    he he' discount h0 h1 bill pattern hr hf
  have hpos := chargeByTime_nonneg (handleQueryRule row) hv ha h _ ho offset enter exit' mode v pos
    (he.trans he') discount h0 bill pattern
  unfold chargeByTime at hpos ⊢
  rw [hq.1] at hpos ⊢
  dsimp only at hpos ⊢
  by_cases hfree : exit - enter < (handleQueryRule row).freeTimeLength * 60
  · rw [if_pos hfree]
    exact hpos
  · rw [if_neg hfree, if_neg (by omega)]
    exact hp

theorem chargeByTime_mono_evening :
    (chargeByTime (tableSource [hourlyRow [morning]]) 0 25200 72000 0 0 0 0 1 {}).1 = 9 ∧
      (chargeByTime (tableSource [hourlyRow [morning]]) 0 25200 72000 0 0 0 0 1 {}).1 ≤
        (chargeByTime (tableSource [hourlyRow [morning]]) 0 25200 72060 0 0 0 0 1 {}).1 := by
  refine ⟨by decide +kernel, chargeByTime_mono (hourlyRow [morning]) 0 rfl (by decide)
    (by decide) (by decide) 0 25200 72000 72060 0 0 0 (by decide) (by decide) 1
    (by norm_num) le_rfl {} ?_ ?_⟩
  · refine ⟨?_, fun hm => absurd hm (by decide)⟩
    show (units 59 60 : ℚ) * 1 ≤ 1
    decide +kernel
  · intro _ hm
    exact absurd hm (by decide)

/-- A night at no price: at 20:01 the night completes its second hour from
the paid daylight, and the stay from 07:00 gets cheaper. -/
def freeNightRow : RuleRow :=
  { hourlyRow [] with dayFeeSpan := 30, nightFeeRate := 0, maxFee := 100 }

/-- A day at no price: at 08:01 the day takes most of an hour from the paid night. -/
def freeDayRow : RuleRow :=
  { hourlyRow [] with dayFeeRate := 0, nightFeeSpan := 30, maxFee := 100 }

/-- Ten free hours, not charged for: they come off every full day but the last. -/
def freeHoursRow : RuleRow := { hourlyRow [] with freeTimeLength := some 600, maxFee := 100 }

theorem chargeByTime_decreases :
    (∀ row ∈ [freeNightRow, freeDayRow, freeHoursRow],
        ValidRule (handleQueryRule row) ∧ DisjointSections (handleQueryRule row)) ∧
      ((chargeByTime (tableSource [freeNightRow]) 0 25200 72000 0 0 0 0 1 {}).1 = 24 ∧
        (chargeByTime (tableSource [freeNightRow]) 0 25200 72060 0 0 0 0 1 {}).1 = 23) ∧
      ((chargeByTime (tableSource [freeDayRow]) 0 25200 28800 1 0 0 0 1 {}).1 = 2 ∧
        (chargeByTime (tableSource [freeDayRow]) 0 25200 28860 1 0 0 0 1 {}).1 = 1) ∧
      (chargeByTime (tableSource [freeHoursRow]) 0 0 172800 0 1 0 0 1 {}).1 = 38 ∧
        (chargeByTime (tableSource [freeHoursRow]) 0 0 172860 0 1 0 0 1 {}).1 = 29 := by
  decide +kernel

end BitPark.FeeMonotone
