import BitPark.RuleTable

namespace BitPark.RuleQueries

open BitPark.Tariff BitPark.RuleTable

/-- The valid rules of a position that have the least priority of the whole table. -/
def lowest (rows : List RuleRow) (pos : ℤ) : List RuleRow :=
  rows.filter fun row => minPriority rows = some row.rulePriority && usable pos row

theorem mem_lowest (rows : List RuleRow) (pos : ℤ) (row : RuleRow) :
    row ∈ lowest rows pos ↔
      row ∈ rows ∧ minPriority rows = some row.rulePriority ∧ usable pos row = true := by
  simp [lowest]

theorem queryMinPriorityRule_isSome_iff (rows : List RuleRow) (pos : ℤ) :
    (queryMinPriorityRule rows pos).isSome = true ↔ (lowest rows pos).length = 1 := by
  rw [queryMinPriorityRule, ← lowest]
  cases lowest rows pos with
  | nil => simp
  | cons row others =>
    cases others with
    | nil => simp
    | cons row' others => simp

theorem highestPriority_isSome_iff (rows : List RuleRow) :
    (highestPriority rows).isSome = true ↔ ∃ row, row ∈ rows := by
  cases rows with
  | nil => simp [highestPriority]
  | cons row rows =>
    refine ⟨fun _ => ⟨row, List.mem_cons_self⟩, fun _ => ?_⟩
    rw [highestPriority]
    cases highestPriority rows with
    | none => rfl
    | some best =>
      dsimp only
      split_ifs <;> rfl

theorem queryChargeRule_isSome_iff (rows : List RuleRow) (q : QueryDate) (pos : ℤ) :
    (queryChargeRule rows q pos).isSome = true ↔
      ∃ row ∈ rows, applies rows q row = true ∧ usable pos row = true := by
  rw [queryChargeRule, Option.isSome_map, highestPriority_isSome_iff]
  simp [List.mem_filter]

/-- The dates that a table may be asked about, a week of them at least. -/
structure DateRange where
  first : ℤ
  last : ℤ
  week : first + 6 ≤ last

/-- From 1970-01-01 to 9999-12-31: earlier dates are not formatted, later ones are no dates of the database. -/
def calendarDates : DateRange := ⟨0, 2932896, by decide⟩

/-- A working day that no valid rule of the position is made for, by its day of the week or as a festival. -/
structure Uncovered (rows : List RuleRow) (pos d : ℤ) : Prop where
  monday : 2 ≤ dayOfWeek (.date d)
  friday : dayOfWeek (.date d) ≤ 6
  weekDay : ∀ row ∈ rows, usable pos row = true → row.weekDay ≠ some (dayOfWeek (.date d))
  festival : ∀ row ∈ rows, usable pos row = true → inFestival (.date d) row = false

theorem exists_workingDay (dates : DateRange) :
    ∃ d, dates.first ≤ d ∧ d ≤ dates.last ∧ 2 ≤ dayOfWeek (.date d) ∧ dayOfWeek (.date d) ≤ 6 := by
  have hweek := dates.week
  refine ⟨if (dates.first + 4) % 7 = 0 then dates.first + 1 else if (dates.first + 4) % 7 = 6 then dates.first + 2
    else dates.first, ?_⟩
  unfold dayOfWeek queryTime ptime dateOf dayTicks
  dsimp only
  split_ifs <;> omega

theorem applies_of_lowest (rows : List RuleRow) (pos : ℤ) (row : RuleRow) (h : row ∈ lowest rows pos)
    (q : QueryDate) : applies rows q row = true := by
  rw [mem_lowest] at h
  simp [applies, h.2.1]

/-- Without a rule of the least priority a position has none on the working days that are uncovered. -/
theorem queryChargeRule_none_iff (rows : List RuleRow) (pos : ℤ) (h : lowest rows pos = []) (d : ℤ)
    (hd : 2 ≤ dayOfWeek (.date d) ∧ dayOfWeek (.date d) ≤ 6) :
    ¬ (queryChargeRule rows (.date d) pos).isSome = true ↔ Uncovered rows pos d := by
  have hmin : ∀ row ∈ rows, usable pos row = true → ¬ minPriority rows = some row.rulePriority := by
    intro row hr hu hm
    have hmem := (mem_lowest rows pos row).mpr ⟨hr, hm, hu⟩
    rw [h] at hmem
    cases hmem
  have happlies : ∀ row ∈ rows, usable pos row = true → (applies rows (.date d) row = true ↔
      row.weekDay = some (dayOfWeek (.date d)) ∨ inFestival (.date d) row = true) := by
    intro row hr hu
    have h1 : ¬ dayOfWeek (.date d) = 1 := by omega
    have h7 : ¬ dayOfWeek (.date d) = 7 := by omega
    simp [applies, hmin row hr hu, h1, h7]
  rw [queryChargeRule_isSome_iff]
  constructor
  · intro hnone
    refine ⟨hd.1, hd.2, fun row hr hu hw => ?_, fun row hr hu => ?_⟩
    · exact hnone ⟨row, hr, (happlies row hr hu).mpr (.inl hw), hu⟩
    · by_contra hf
      exact hnone ⟨row, hr, (happlies row hr hu).mpr (.inr (by simpa using hf)), hu⟩
  · rintro huncovered ⟨row, hr, ha, hu⟩
    obtain hw | hf := (happlies row hr hu).mp ha
    · exact huncovered.weekDay row hr hu hw
    · rw [huncovered.festival row hr hu] at hf
      cases hf

/-- A position without a rule of the least priority has one on every date
exactly if no working day is uncovered. -/
theorem every_date_iff (dates : DateRange) (rows : List RuleRow) (pos : ℤ) (h : lowest rows pos = []) :
    (∀ d, dates.first ≤ d → d ≤ dates.last → (queryChargeRule rows (.date d) pos).isSome = true) ↔
      ¬ ∃ d, dates.first ≤ d ∧ d ≤ dates.last ∧ Uncovered rows pos d := by
  constructor
  · rintro hall ⟨d, hfirst, hlast, huncovered⟩
    exact (queryChargeRule_none_iff rows pos h d ⟨huncovered.monday, huncovered.friday⟩).mpr huncovered
      (hall d hfirst hlast)
  · intro hcovered d hfirst hlast
    have hworking : ∀ d, dates.first ≤ d → d ≤ dates.last → 2 ≤ dayOfWeek (.date d) ∧ dayOfWeek (.date d) ≤ 6 →
        (queryChargeRule rows (.date d) pos).isSome = true := by
      intro d hfirst hlast hd
      by_contra hnone
      exact hcovered ⟨d, hfirst, hlast, (queryChargeRule_none_iff rows pos h d hd).mp hnone⟩
    have hday : 1 ≤ dayOfWeek (.date d) ∧ dayOfWeek (.date d) ≤ 7 := by
      rw [dayOfWeek]
      omega
    by_cases hk : 2 ≤ dayOfWeek (.date d) ∧ dayOfWeek (.date d) ≤ 6
    · exact hworking d hfirst hlast hk
    · -- every rule applies at the weekend
      obtain ⟨m, hm1, hm2, hm⟩ := exists_workingDay dates
      obtain ⟨row, hr, -, hu⟩ := (queryChargeRule_isSome_iff rows _ pos).mp (hworking m hm1 hm2 hm)
      have hend : dayOfWeek (.date d) = 1 ∨ dayOfWeek (.date d) = 7 := by omega
      rw [queryChargeRule_isSome_iff]
      refine ⟨row, hr, ?_, hu⟩
      rcases hend with he | he <;> simp [applies, he]

/-- A position with a rule for every date has one for its long stays. -/
def LongStaysFound (dates : DateRange) (rows : List RuleRow) (pos : ℤ) : Prop :=
  (∀ d, dates.first ≤ d → d ≤ dates.last → (queryChargeRule rows (.date d) pos).isSome = true) →
    (queryMinPriorityRule rows pos).isSome = true

/-- The rule for long stays is found exactly if one valid rule of the position
alone has the least priority of all rules, or if none has and some working day
of the position is without a rule anyway. -/
theorem longStaysFound_iff (dates : DateRange) (rows : List RuleRow) (pos : ℤ) :
    LongStaysFound dates rows pos ↔ (lowest rows pos).length = 1 ∨
      (lowest rows pos = [] ∧ ∃ d, dates.first ≤ d ∧ d ≤ dates.last ∧ Uncovered rows pos d) := by
  rw [LongStaysFound, queryMinPriorityRule_isSome_iff]
  by_cases hnil : lowest rows pos = []
  · rw [every_date_iff dates rows pos hnil, hnil, not_imp_comm]
    simp
  · -- a rule of the least priority applies on every date
    have hall : ∀ d, dates.first ≤ d → d ≤ dates.last → (queryChargeRule rows (.date d) pos).isSome = true := by
      intro d _ _
      obtain ⟨row, hrow⟩ := List.exists_mem_of_ne_nil _ hnil
      obtain ⟨hr, -, hu⟩ := (mem_lowest rows pos row).mp hrow
      rw [queryChargeRule_isSome_iff]
      exact ⟨row, hr, applies_of_lowest rows pos row hrow _, hu⟩
    constructor
    · exact fun hfound => .inl (hfound hall)
    · rintro (hone | ⟨hempty, -⟩) -
      · exact hone
      · exact absurd hempty hnil

/-- Every working day has a rule of its own, and another position the cheapest of all. -/
def weekRows : List RuleRow :=
  { hourlyRow [] with parkPosition := 9 } ::
    [2, 3, 4, 5, 6].map fun k => { hourlyRow [] with rulePriority := 1, weekDay := some k }

theorem weekRows_covered (d : ℤ) : ¬ Uncovered weekRows 0 d := by
  rintro ⟨h2, h6, hweek, -⟩
  refine hweek { hourlyRow [] with rulePriority := 1, weekDay := some (dayOfWeek (.date d)) } ?_ rfl rfl
  apply List.mem_cons_of_mem
  apply List.mem_map_of_mem
  simp only [List.mem_cons, List.not_mem_nil, or_false]
  omega

/-- One festival around all dates, and another position the cheapest rule. -/
def festivalRows : List RuleRow :=
  [{ hourlyRow [] with parkPosition := 9 },
    { hourlyRow [] with
      rulePriority := 1
      festivalBeginTime := some (ptime 0 0)
      festivalEndTime := some (ptime 2932896 0) }]

theorem festivalRows_covered (d : ℤ) (hfirst : calendarDates.first ≤ d) (hlast : d ≤ calendarDates.last) :
    ¬ Uncovered festivalRows 0 d := by
  rintro ⟨-, -, -, hfestival⟩
  have hnot := hfestival _ (List.mem_cons_of_mem _ (List.mem_singleton_self _)) rfl
  change (decide (ptime 0 0 ≤ ptime d 0) && decide (ptime d 0 ≤ ptime 2932896 0)) = false at hnot
  change 0 ≤ d at hfirst
  change d ≤ 2932896 at hlast
  have hin : ptime 0 0 ≤ ptime d 0 ∧ ptime d 0 ≤ ptime 2932896 0 := by
    unfold ptime dayTicks
    omega
  rw [decide_eq_true hin.1, decide_eq_true hin.2] at hnot
  cases hnot

/-- Two rules of one priority, or a rule of lower priority elsewhere, and the
long stays of a position that has a rule for every date are without one. -/
theorem longStays_not_found :
    ¬ LongStaysFound calendarDates [hourlyRow [], hourlyRow []] 0 ∧ ¬ LongStaysFound calendarDates weekRows 0 ∧
      ¬ LongStaysFound calendarDates festivalRows 0 := by
  refine ⟨fun h => ?_, fun h => ?_, fun h => ?_⟩
  · have hall : ∀ d, calendarDates.first ≤ d → d ≤ calendarDates.last →
        (queryChargeRule [hourlyRow [], hourlyRow []] (.date d) 0).isSome = true := by
      intro d _ _
      rw [queryChargeRule_isSome_iff]
      exact ⟨hourlyRow [], List.mem_cons_self, by simp [applies, minPriority], by decide⟩
    exact absurd (h hall) (by decide)
  · have hcovered : ¬ ∃ d, calendarDates.first ≤ d ∧ d ≤ calendarDates.last ∧ Uncovered weekRows 0 d := by
      rintro ⟨d, -, -, huncovered⟩
      exact weekRows_covered d huncovered
    exact absurd (h ((every_date_iff calendarDates weekRows 0 (by decide)).mpr hcovered)) (by decide)
  · have hcovered : ¬ ∃ d, calendarDates.first ≤ d ∧ d ≤ calendarDates.last ∧ Uncovered festivalRows 0 d := by
      rintro ⟨d, hfirst, hlast, huncovered⟩
      exact festivalRows_covered d hfirst hlast huncovered
    exact absurd (h ((every_date_iff calendarDates festivalRows 0 (by decide)).mpr hcovered)) (by decide)

end BitPark.RuleQueries
