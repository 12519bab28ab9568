import BitPark.ParkingTimes

namespace BitPark.EffectiveTime

open BitPark.TimePeriod BitPark.Tariff BitPark.ParkingTimes

/-- The day and night boundaries of a rule are in order within one day. -/
def DayOrdered (rule : ChargeRule) : Prop :=
  0 ≤ rule.daylightBegin ∧ rule.daylightBegin ≤ rule.nightBegin ∧ rule.nightBegin ≤ dayTicks

instance (rule : ChargeRule) : Decidable (DayOrdered rule) := inferInstanceAs (Decidable (_ ∧ _ ∧ _))

/-- The free sections of a rule, laid out on given dates. -/
def freePeriods (rule : ChargeRule) (dates : List ℤ) : List Period :=
  dates.flatMap fun d => rule.freeTimeSections.map (sectionOn d)

/-- What one tick of parking counts for when the given periods are free. -/
def billable (free : List Period) (t : ℤ) : ℤ := 1 - (free.map (·.weight t)).sum

def covers (ws : List Period) (t : ℤ) : Bool := ws.any (·.contains t)

theorem covers_cons (w : Period) (ws : List Period) (t : ℤ) :
    covers (w :: ws) t = true ↔ t ∈ w.ticks ∨ covers ws t = true := by
  simp [covers, Period.contains, mem_ticks]

/-- Summing over the sections of a stay in disjoint windows is summing over
the ticks of the stay that some window covers. -/
theorem sum_parkPeriods (park : Period) (ws : List Period) (hd : ws.Pairwise Period.Apart) (g : ℤ → ℤ) :
    ((parkPeriods park ws).map (fun p => ∑ t ∈ p.ticks, g t)).sum =
      ∑ t ∈ park.ticks with covers ws t, g t := by
  induction ws with
  | nil => simp [parkPeriods, covers]
  | cons w ws ih =>
    obtain ⟨hhd, htl⟩ := List.pairwise_cons.mp hd
    have hsplit : ∑ t ∈ park.ticks with covers (w :: ws) t, g t =
        ∑ t ∈ park.ticks with t ∈ w.ticks, g t + ∑ t ∈ park.ticks with covers ws t, g t := by
      rw [← Finset.sum_union]
      · refine Finset.sum_congr (Finset.ext fun t => ?_) fun _ _ => rfl
        rw [Finset.mem_union, Finset.mem_filter, Finset.mem_filter, Finset.mem_filter, covers_cons]
        exact and_or_left
      · rw [Finset.disjoint_filter]
        intro t _ ht hc
        rw [mem_ticks] at ht
        simp only [covers, List.any_eq_true, Period.contains, decide_eq_true_eq] at hc
        obtain ⟨v, hv, hvt⟩ := hc
        have ha := hhd v hv
        unfold Period.Apart at ha
        omega
    rw [hsplit, ← ih htl, ← ticks_intersection]
    unfold parkPeriods
    by_cases hi : park.intersects w = true
    · rw [List.filter_cons_of_pos hi, List.map_cons, List.map_cons, List.sum_cons]
    · rw [List.filter_cons_of_neg hi, ticks_intersection, not_intersects park w hi, Finset.sum_empty, zero_add]

theorem parkPeriods_wf (park : Period) (ws : List Period) (hp : park.begin ≤ park.stop)
    (hw : ∀ w ∈ ws, w.begin ≤ w.stop) : ∀ p ∈ parkPeriods park ws, p.begin ≤ p.stop := by
  intro p hm
  obtain ⟨w, hf, rfl⟩ := List.mem_map.mp hm
  obtain ⟨hws, hi⟩ := List.mem_filter.mp hf
  exact intersection_wf park w hp (hw w hws) hi

theorem substrctFreePeriod_eq (time : ℤ) (parts : List Period) (hp : ∀ p ∈ parts, p.begin ≤ p.stop)
    (free : Period) :
    substrctFreePeriod time parts free =
      time - (parts.map (fun p => ∑ t ∈ p.ticks, free.weight t)).sum := by
  induction parts generalizing time with
  | nil => simp [substrctFreePeriod]
  | cons p ps ih =>
    have ho := overlap_eq_sum p free (hp p List.mem_cons_self)
    have hstep : (if p.intersects free then time - (p.intersection free).length else time) =
        time - ∑ t ∈ p.ticks, free.weight t := by
      rw [← ho, Period.overlap]
      split_ifs <;> ring
    have hrec := ih (time - ∑ t ∈ p.ticks, free.weight t) fun q hq => hp q (List.mem_cons_of_mem p hq)
    rw [substrctFreePeriod] at hrec ⊢
    rw [List.foldl_cons, hstep, hrec, List.map_cons, List.sum_cons]
    ring

/-- Taking off the sections of one date, for either kind of time. -/
theorem foldl_substrct (ss : List TimeSection) (date time : ℤ) (parts : List Period)
    (hp : ∀ p ∈ parts, p.begin ≤ p.stop) :
    ss.foldl (fun time s => substrctFreePeriod time parts (sectionOn date s)) time =
      time - (parts.map (fun p => ∑ t ∈ p.ticks, ((ss.map (sectionOn date)).map (·.weight t)).sum)).sum := by
  induction ss generalizing time with
  | nil => simp
  | cons s ss ih =>
    rw [List.foldl_cons, ih, substrctFreePeriod_eq time parts hp]
    simp only [List.map_cons, List.sum_cons, Finset.sum_add_distrib, List.sum_map_add]
    ring

theorem substrctFreeTimeSection_eq (time : ParkingTime) (date : ℤ) (daylight night : List Period)
    (rule : ChargeRule) :
    substrctFreeTimeSection time date daylight night rule =
      ⟨rule.freeTimeSections.foldl (fun t s => substrctFreePeriod t daylight (sectionOn date s)) time.daylightTime,
        rule.freeTimeSections.foldl (fun t s => substrctFreePeriod t night (sectionOn date s)) time.nightTime⟩ := by
  rw [substrctFreeTimeSection]
  induction rule.freeTimeSections generalizing time with
  | nil => rfl
  | cons s ss ih => rw [List.foldl_cons, ih]; rfl

theorem totalLength_eq (ps : List Period) (hp : ∀ p ∈ ps, p.begin ≤ p.stop) :
    totalLength ps = (ps.map (fun p => ∑ _t ∈ p.ticks, (1 : ℤ))).sum := by
  rw [totalLength]
  rw [List.map_congr_left fun p h => (sum_one_ticks p (hp p h)).symm]

theorem daylightPeriods_spec (rule : ChargeRule) (hr : DayOrdered rule) (today : ℤ) :
    (∀ w ∈ daylightPeriods rule today (today + 1), w.begin ≤ w.stop) ∧
      (daylightPeriods rule today (today + 1)).Pairwise Period.Apart := by
  obtain ⟨h0, h1, h2⟩ := hr
  unfold dayTicks at h2
  simp only [daylightPeriods, List.forall_mem_cons, List.pairwise_cons, Period.Apart, ptime, dayTicks,
    List.not_mem_nil, List.Pairwise.nil, and_true, false_imp_iff, implies_true]
  omega

theorem nightPeriods_spec (rule : ChargeRule) (hr : DayOrdered rule) (today : ℤ) :
    (∀ w ∈ nightPeriods rule today (today + 1), w.begin ≤ w.stop) ∧
      (nightPeriods rule today (today + 1)).Pairwise Period.Apart := by
  obtain ⟨h0, h1, h2⟩ := hr
  unfold dayTicks at h2
  simp only [nightPeriods, List.forall_mem_cons, List.pairwise_cons, Period.Apart, ptime, dayTicks,
    List.not_mem_nil, List.Pairwise.nil, and_true, false_imp_iff, implies_true]
  omega

theorem sum_freePeriods_two (rule : ChargeRule) (d d' t : ℤ) :
    ((freePeriods rule [d, d']).map (·.weight t)).sum =
      ((rule.freeTimeSections.map (sectionOn d)).map (·.weight t)).sum +
        ((rule.freeTimeSections.map (sectionOn d')).map (·.weight t)).sum := by
  simp [freePeriods]

/-- The time left of the sections of a stay after two dates are taken off. -/
theorem net_eq_sum (park : Period) (ws : List Period) (hp : park.begin ≤ park.stop)
    (hw : ∀ w ∈ ws, w.begin ≤ w.stop) (hd : ws.Pairwise Period.Apart) (rule : ChargeRule) (d d' : ℤ) :
    rule.freeTimeSections.foldl (fun t s => substrctFreePeriod t (parkPeriods park ws) (sectionOn d' s))
      (rule.freeTimeSections.foldl (fun t s => substrctFreePeriod t (parkPeriods park ws) (sectionOn d s))
        (totalLength (parkPeriods park ws))) =
      ∑ t ∈ park.ticks with covers ws t, billable (freePeriods rule [d, d']) t := by
  have hwf := parkPeriods_wf park ws hp hw
  rw [foldl_substrct _ _ _ _ hwf, foldl_substrct _ _ _ _ hwf, totalLength_eq _ hwf,
    sum_parkPeriods park ws hd, sum_parkPeriods park ws hd, sum_parkPeriods park ws hd,
    ← Finset.sum_sub_distrib, ← Finset.sum_sub_distrib]
  refine Finset.sum_congr rfl fun t _ => ?_
  rw [billable, sum_freePeriods_two]
  ring

section Pattern0

variable (rule : ChargeRule) (hr : DayOrdered rule) (park : Period) (hp : park.begin ≤ park.stop) (today : ℤ)
include hr hp

theorem gross0_daylight :
    (grossParkingTime0 park today (today + 1) rule).daylightTime =
      ∑ _t ∈ park.ticks with covers (daylightPeriods rule today (today + 1)) _t, (1 : ℤ) := by
  obtain ⟨hw, hd⟩ := daylightPeriods_spec rule hr today
  rw [grossParkingTime0, totalLength_eq _ (parkPeriods_wf park _ hp hw), sum_parkPeriods park _ hd]

theorem gross0_night :
    (grossParkingTime0 park today (today + 1) rule).nightTime =
      ∑ _t ∈ park.ticks with covers (nightPeriods rule today (today + 1)) _t, (1 : ℤ) := by
  obtain ⟨hw, hd⟩ := nightPeriods_spec rule hr today
  rw [grossParkingTime0, totalLength_eq _ (parkPeriods_wf park _ hp hw), sum_parkPeriods park _ hd]

theorem net0_daylight :
    (calInvalidParkingTime park today (today + 1) rule).daylightTime =
      ∑ t ∈ park.ticks with covers (daylightPeriods rule today (today + 1)) t,
        billable (freePeriods rule [today, today + 1]) t := by
  obtain ⟨hw, hd⟩ := daylightPeriods_spec rule hr today
  simp only [calInvalidParkingTime, substrctFreeTimeSection_eq, grossParkingTime0]
  exact net_eq_sum park _ hp hw hd rule today (today + 1)

theorem net0_night :
    (calInvalidParkingTime park today (today + 1) rule).nightTime =
      ∑ t ∈ park.ticks with covers (nightPeriods rule today (today + 1)) t,
        billable (freePeriods rule [today, today + 1]) t := by
  obtain ⟨hw, hd⟩ := nightPeriods_spec rule hr today
  simp only [calInvalidParkingTime, substrctFreeTimeSection_eq, grossParkingTime0]
  exact net_eq_sum park _ hp hw hd rule today (today + 1)

end Pattern0

def daylight1 (rule : ChargeRule) (date : ℤ) : List Period :=
  [⟨ptime date rule.daylightBegin, ptime date rule.nightBegin⟩]

def night1 (rule : ChargeRule) (date : ℤ) : List Period :=
  [⟨ptime date 0, ptime date rule.daylightBegin⟩, ⟨ptime date rule.nightBegin, ptime date dayTicks⟩]

/-- The pieces into which pattern 1 cuts a free section, by daylight and night. -/
def freePieces (rule : ChargeRule) (date : ℤ) (s : TimeSection) : List Period × List Period :=
  let piece (b e : ℤ) : Period := ⟨ptime date b, ptime date e⟩
  if s.begin < rule.daylightBegin then
    if s.stop ≤ rule.daylightBegin then ([], [piece s.begin s.stop])
    else if rule.nightBegin < s.stop then
      ([piece rule.daylightBegin rule.nightBegin],
        [piece s.begin rule.daylightBegin, piece rule.nightBegin s.stop])
    else ([piece rule.daylightBegin s.stop], [piece s.begin rule.daylightBegin])
  else if s.begin < rule.nightBegin then
    if s.stop ≤ rule.nightBegin then ([piece s.begin s.stop], [])
    else ([piece s.begin rule.nightBegin], [piece rule.nightBegin s.stop])
  else ([], [piece s.begin s.stop])

theorem addFreeSection_pieces (park : Period) (date : ℤ) (rule : ChargeRule) (free : ParkingTime)
    (s : TimeSection) :
    addFreeSection park date rule free s =
      ⟨free.daylightTime + ((freePieces rule date s).1.map park.overlap).sum,
        free.nightTime + ((freePieces rule date s).2.map park.overlap).sum⟩ := by
  rw [addFreeSection, freePieces]
  split_ifs <;> simp [add_assoc]

theorem freePieces_weight (rule : ChargeRule) (hr : DayOrdered rule) (date : ℤ) (s : TimeSection)
    (hb : 0 ≤ s.begin) (t : ℤ) (ht : t < ptime date dayTicks) :
    (((freePieces rule date s).1.map (·.weight t)).sum =
        if covers (daylight1 rule date) t then (sectionOn date s).weight t else 0) ∧
      ((freePieces rule date s).2.map (·.weight t)).sum =
        if covers (night1 rule date) t then (sectionOn date s).weight t else 0 := by
  obtain ⟨h0, h1, h2⟩ := hr
  unfold dayTicks at h2
  unfold ptime dayTicks at ht
  refine ⟨?_, ?_⟩
  -- the six positions of the section, then each tick against the pieces of that position
  all_goals
    simp only [covers, daylight1, night1, sectionOn, Period.weight, Period.contains, Period.length, ptime,
      dayTicks, List.any_cons, List.any_nil, Bool.or_false, Bool.or_eq_true, decide_eq_true_eq]
    unfold freePieces
    split_ifs
  all_goals
    simp only [List.map_cons, List.map_nil, List.sum_cons, List.sum_nil, ptime, dayTicks]
    try split_ifs
  all_goals omega

section Pattern1

variable (rule : ChargeRule) (hr : DayOrdered rule) (park : Period) (hp : park.begin ≤ park.stop) (date : ℤ)
include hr hp

theorem gross1_eq :
    grossParkingTime1 park date rule =
      ⟨∑ _t ∈ park.ticks with covers (daylight1 rule date) _t, (1 : ℤ),
        ∑ _t ∈ park.ticks with covers (night1 rule date) _t, (1 : ℤ)⟩ := by
  obtain ⟨h0, h1, h2⟩ := hr
  unfold dayTicks at h2
  unfold grossParkingTime1
  rw [overlap_eq_sum park _ hp, overlap_eq_sum park _ hp, overlap_eq_sum park _ hp,
    ← Finset.sum_add_distrib, Finset.sum_filter, Finset.sum_filter]
  congr 1 <;> refine Finset.sum_congr rfl fun t _ => ?_ <;>
    simp only [covers, daylight1, night1, Period.weight, Period.contains, ptime, dayTicks, List.any_cons,
      List.any_nil, Bool.or_false, Bool.or_eq_true, decide_eq_true_eq] <;>
    split_ifs <;> omega

variable (hs : park.stop ≤ ptime date dayTicks)
include hs

/-- However a section lies to the day and night boundaries, the source's
cases add to each kind of free time the ticks of that kind. -/
theorem addFreeSection_eq (s : TimeSection) (hb : 0 ≤ s.begin) (free : ParkingTime) :
    addFreeSection park date rule free s =
      ⟨free.daylightTime + ∑ t ∈ park.ticks with covers (daylight1 rule date) t, (sectionOn date s).weight t,
        free.nightTime + ∑ t ∈ park.ticks with covers (night1 rule date) t, (sectionOn date s).weight t⟩ := by
  rw [addFreeSection_pieces, sum_overlap park hp, sum_overlap park hp, Finset.sum_filter, Finset.sum_filter]
  have ht : ∀ t ∈ park.ticks, t < ptime date dayTicks := fun t h => by rw [mem_ticks] at h; omega
  congr 2
  · exact Finset.sum_congr rfl fun t h => (freePieces_weight rule hr date s hb t (ht t h)).1
  · exact Finset.sum_congr rfl fun t h => (freePieces_weight rule hr date s hb t (ht t h)).2

theorem foldl_addFreeSection (ss : List TimeSection) (hb : ∀ s ∈ ss, 0 ≤ s.begin) (free : ParkingTime) :
    ss.foldl (addFreeSection park date rule) free =
      ⟨free.daylightTime + ∑ t ∈ park.ticks with covers (daylight1 rule date) t,
          ((ss.map (sectionOn date)).map (·.weight t)).sum,
        free.nightTime + ∑ t ∈ park.ticks with covers (night1 rule date) t,
          ((ss.map (sectionOn date)).map (·.weight t)).sum⟩ := by
  induction ss generalizing free with
  | nil => simp
  | cons s ss ih =>
    rw [List.foldl_cons, addFreeSection_eq rule hr park hp date hs s (hb s List.mem_cons_self),
      ih fun r hm => hb r (List.mem_cons_of_mem s hm)]
    simp only [List.map_cons, List.sum_cons, Finset.sum_add_distrib, add_assoc]

theorem net1_eq (hb : ∀ s ∈ rule.freeTimeSections, 0 ≤ s.begin) :
    parkingTime1 park date rule =
      ⟨∑ t ∈ park.ticks with covers (daylight1 rule date) t, billable (freePeriods rule [date]) t,
        ∑ t ∈ park.ticks with covers (night1 rule date) t, billable (freePeriods rule [date]) t⟩ := by
  rw [parkingTime1]
  rw [foldl_addFreeSection rule hr park hp date hs _ hb, gross1_eq rule hr park hp]
  simp only [zero_add, ← Finset.sum_sub_distrib, billable, freePeriods, List.flatMap_cons, List.flatMap_nil,
    List.append_nil]

end Pattern1

end BitPark.EffectiveTime
