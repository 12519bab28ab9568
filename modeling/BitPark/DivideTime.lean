import BitPark.Tariff

namespace BitPark.DivideTime

open BitPark.TimePeriod BitPark.Tariff

/-- The `while` loop of `DivideTimeByDay0`, for at most the given number of days. -/
def divideLoop0 (period : Period) (endPt : ℤ) : ℕ → ℤ → List Period
  | 0, _ => []
  | n + 1, dayBegin =>
    if dayBegin < endPt then
      let dayEnd := dayBegin + dayTicks
      let dayPeriod : Period := ⟨dayBegin, dayEnd⟩
      let rest := divideLoop0 period endPt n dayEnd
      if period.intersects dayPeriod then period.intersection dayPeriod :: rest else rest
    else []

def divideTimeByDay0 (beginPt endPt : ℤ) : List Period :=
  divideLoop0 ⟨beginPt, endPt⟩ endPt ((endPt - beginPt) / dayTicks + 1).toNat beginPt

/-- The iteration of `DivideTimeByDay1` for the date `dt`. -/
def datePiece (period : Period) (dt : ℤ) : Option Period :=
  let dayPeriod : Period := ⟨ptime dt 0, ptime dt dayTicks⟩
  if period.intersects dayPeriod then some (period.intersection dayPeriod) else none

def divideTimeByDay1 (beginPt endPt : ℤ) : List Period :=
  (List.range (dateOf endPt + 1 - dateOf beginPt).toNat).filterMap fun i : ℕ =>
    datePiece ⟨beginPt, endPt⟩ (dateOf beginPt + i)

theorem divideLoop0_done (period : Period) (e : ℤ) (n : ℕ) (dayBegin : ℤ) (h : e ≤ dayBegin) :
    divideLoop0 period e n dayBegin = [] := by
  cases n with
  | zero => rfl
  | succ n => rw [divideLoop0, if_neg (by omega)]

theorem divideLoop0_step (b e : ℤ) (n : ℕ) (dayBegin : ℤ) (hb : b ≤ dayBegin) (he : dayBegin < e) :
    divideLoop0 ⟨b, e⟩ e (n + 1) dayBegin =
      ⟨dayBegin, min e (dayBegin + dayTicks)⟩ :: divideLoop0 ⟨b, e⟩ e n (dayBegin + dayTicks) := by
  have hi : (⟨b, e⟩ : Period).intersects ⟨dayBegin, dayBegin + dayTicks⟩ = true := by
    rw [intersects_iff]
    exact Or.inl ⟨hb, he⟩
  have hp : (⟨b, e⟩ : Period).intersection ⟨dayBegin, dayBegin + dayTicks⟩ =
      ⟨dayBegin, min e (dayBegin + dayTicks)⟩ := by
    rw [Period.intersection]
    rw [if_neg (by dsimp only; omega)]
    split_ifs with h
    · rw [min_eq_left h]
    · rw [min_eq_right (by dsimp only at h; omega)]
  rw [divideLoop0, if_pos he]
  simp only [hi, hp, if_true]

/-- A loop that has reached the last day is not changed by more fuel, and
does not depend on where the stay began. -/
theorem divideLoop0_fuel (b b' e : ℤ) (n m : ℕ) (dayBegin : ℤ) (hb : b ≤ dayBegin) (hb' : b' ≤ dayBegin)
    (hn : e ≤ dayBegin + n * dayTicks) (hm : e ≤ dayBegin + m * dayTicks) :
    divideLoop0 ⟨b, e⟩ e n dayBegin = divideLoop0 ⟨b', e⟩ e m dayBegin := by
  induction n generalizing m dayBegin with
  | zero =>
    have he : e ≤ dayBegin := by simpa using hn
    rw [divideLoop0_done _ _ _ _ he, divideLoop0_done _ _ _ _ he]
  | succ n ih =>
    by_cases he : e ≤ dayBegin
    · rw [divideLoop0_done _ _ _ _ he, divideLoop0_done _ _ _ _ he]
    · cases m with
      | zero => exact absurd (by simpa using hm) he
      | succ m =>
        rw [divideLoop0_step b e n dayBegin hb (by omega), divideLoop0_step b' e m dayBegin hb' (by omega)]
        have hd : (0 : ℤ) ≤ dayTicks := by decide
        push_cast at hn hm
        rw [ih m (dayBegin + dayTicks) (by omega) (by omega) (by linarith) (by linarith)]

theorem fuel0_enough (b e : ℤ) : e ≤ b + ((e - b) / dayTicks + 1).toNat * dayTicks := by
  rw [dayTicks]
  by_cases h : 0 ≤ (e - b) / 86400000000 + 1
  · rw [Int.toNat_of_nonneg h]
    omega
  · rw [Int.toNat_of_nonpos (by omega)]
    omega

theorem divideTimeByDay0_empty (b : ℤ) : divideTimeByDay0 b b = [] := divideLoop0_done _ _ _ _ le_rfl

theorem divideTimeByDay0_short (b e : ℤ) (h : b < e) (hd : e ≤ b + dayTicks) :
    divideTimeByDay0 b e = [⟨b, e⟩] := by
  rw [divideTimeByDay0, divideLoop0_fuel b b e _ 1 b le_rfl le_rfl (fuel0_enough b e) (by simpa using hd),
    divideLoop0_step b e 0 b le_rfl h, min_eq_left hd]
  rfl

theorem divideTimeByDay0_long (b e : ℤ) (hd : b + dayTicks < e) :
    divideTimeByDay0 b e = ⟨b, b + dayTicks⟩ :: divideTimeByDay0 (b + dayTicks) e := by
  have h0 : (0 : ℤ) < dayTicks := by decide
  have hf := fuel0_enough (b + dayTicks) e
  rw [divideTimeByDay0, divideTimeByDay0,
    divideLoop0_fuel b b e _ (((e - (b + dayTicks)) / dayTicks + 1).toNat + 1) b le_rfl le_rfl
      (fuel0_enough b e) (by push_cast; linarith),
    divideLoop0_step b e _ b le_rfl (by omega), min_eq_right (by omega),
    divideLoop0_fuel b (b + dayTicks) e _ _ (b + dayTicks) (by omega) le_rfl hf hf]

/-- What the two ways to divide a stay by day have in common: the first day
ends at `next`, and the rest is divided as a stay that begins there. -/
structure Splits (next : ℤ → ℤ) (split : ℤ → ℤ → List Period) : Prop where
  after : ∀ b, b < next b
  day : ∀ b, next (next b) = next b + dayTicks
  short : ∀ b e, b < e → e ≤ next b → split b e = [⟨b, e⟩]
  long : ∀ b e, next b < e → split b e = ⟨b, next b⟩ :: split (next b) e

section Splits

variable {next : ℤ → ℤ} {split : ℤ → ℤ → List Period} (hs : Splits next split)
include hs

/-- Induction over the days of a stay: either at most one is left, or a full
day is split off. -/
theorem day_induction {P : ℤ → ℤ → Prop} (short : ∀ b e, b < e → e ≤ next b → P b e)
    (long : ∀ b e, next b < e → P (next b) e → P b e) (b e : ℤ) (h : b < e) : P b e := by
  have hlow : ∀ (n : ℕ) (c : ℤ), c < e → e ≤ next c + n * dayTicks → P c e := by
    intro n
    induction n with
    | zero => exact fun c hc he => short c e hc (by simpa using he)
    | succ n ih =>
      intro c hc he
      by_cases hle : e ≤ next c
      · exact short c e hc hle
      · refine long c e (by omega) (ih (next c) (by omega) ?_)
        rw [hs.day c]
        push_cast at he
        linarith
  have hf := fuel0_enough b e
  exact hlow ((e - b) / dayTicks + 1).toNat b h (by have := hs.after b; linarith)

theorem splits_tiles (b e : ℤ) (h : b < e) : Tiles (split b e) b e := by
  refine day_induction hs (P := fun b e => Tiles (split b e) b e) ?_ ?_ b e h
  · intro b e h hd
    rw [hs.short b e h hd]
    exact ⟨rfl, le_of_lt h, rfl⟩
  · intro b e hd ih
    rw [hs.long b e hd]
    exact ⟨rfl, le_of_lt (hs.after b), ih⟩

theorem splits_within (b e : ℤ) (h : b < e) : ∀ p ∈ split b e, p.stop ≤ next p.begin := by
  refine day_induction hs (P := fun b e => ∀ p ∈ split b e, p.stop ≤ next p.begin) ?_ ?_ b e h
  · intro b e h hd
    rw [hs.short b e h hd]
    exact List.forall_mem_singleton.mpr hd
  · intro b e hd ih
    rw [hs.long b e hd]
    exact List.forall_mem_cons.mpr ⟨le_rfl, ih⟩

theorem splits_nonempty (b e : ℤ) (h : b < e) : 1 ≤ (split b e).length := by
  by_cases hd : e ≤ next b
  · rw [hs.short b e h hd, List.length_singleton]
  · rw [hs.long b e (by omega), List.length_cons]
    omega

theorem splits_positive (b e : ℤ) (h : b < e) : ∀ p ∈ split b e, p.begin < p.stop := by
  refine day_induction hs (P := fun b e => ∀ p ∈ split b e, p.begin < p.stop) ?_ ?_ b e h
  · intro b e h hd
    rw [hs.short b e h hd]
    exact List.forall_mem_singleton.mpr h
  · intro b e hd ih
    rw [hs.long b e hd]
    exact List.forall_mem_cons.mpr ⟨hs.after b, ih⟩

theorem splits_partitions (b e : ℤ) (h : b < e) : Partitions (split b e) b e :=
  tiles_partitions _ b e (splits_tiles hs b e h) (splits_positive hs b e h)

/-- Every period but the last is a full day. -/
theorem splits_dropLast (b e : ℤ) (h : b < e) : ∀ p ∈ (split b e).dropLast, p.stop = next p.begin := by
  refine day_induction hs (P := fun b e => ∀ p ∈ (split b e).dropLast, p.stop = next p.begin) ?_ ?_ b e h
  · intro b e h hd
    rw [hs.short b e h hd, List.dropLast_singleton]
    exact fun p hp => absurd hp List.not_mem_nil
  · intro b e hd ih
    have hne : split (next b) e ≠ [] := by
      rw [← List.length_pos_iff]
      exact splits_nonempty hs (next b) e hd
    rw [hs.long b e hd, List.dropLast_cons_of_ne_nil hne]
    exact List.forall_mem_cons.mpr ⟨rfl, ih⟩

theorem splits_apart (b e : ℤ) (h : b < e) : (split b e).Pairwise (fun p q => next p.begin ≤ q.begin) := by
  refine day_induction hs (P := fun b e => (split b e).Pairwise (fun p q => next p.begin ≤ q.begin)) ?_ ?_ b e h
  · intro b e h hd
    rw [hs.short b e h hd]
    exact List.pairwise_singleton _ _
  · intro b e hd ih
    rw [hs.long b e hd]
    exact List.pairwise_cons.mpr ⟨tiles_le_begin _ _ e (splits_tiles hs (next b) e hd), ih⟩

/-- A longer stay has at least as many days. -/
theorem splits_length_mono (b e e' : ℤ) (h : b < e) (he : e ≤ e') :
    (split b e).length ≤ (split b e').length := by
  refine day_induction hs (P := fun b e => e ≤ e' → (split b e).length ≤ (split b e').length) ?_ ?_ b e h he
  · intro b e h hd he
    rw [hs.short b e h hd, List.length_singleton]
    exact splits_nonempty hs b e' (by omega)
  · intro b e hd ih he
    rw [hs.long b e hd, hs.long b e' (by omega), List.length_cons, List.length_cons]
    exact Nat.succ_le_succ (ih he)

end Splits

theorem divideTimeByDay0_splits : Splits (· + dayTicks) divideTimeByDay0 where
  after := fun b => by show b < b + dayTicks; unfold dayTicks; omega
  day := fun _ => rfl
  short := divideTimeByDay0_short
  long := divideTimeByDay0_long

/-- The midnight that ends the date of `b`. -/
def nextMidnight (b : ℤ) : ℤ := ptime (dateOf b + 1) 0

theorem nextMidnight_bounds (b : ℤ) : b < nextMidnight b ∧ nextMidnight b ≤ b + dayTicks := by
  rw [nextMidnight, ptime, dateOf, dayTicks]
  omega

theorem dateOf_nextMidnight (b : ℤ) : dateOf (nextMidnight b) = dateOf b + 1 := by
  rw [nextMidnight, ptime, dateOf, dayTicks]
  omega

/-- The first date of a stay takes what lies before midnight, also of an empty stay. -/
theorem datePiece_first (b e : ℤ) :
    datePiece ⟨b, e⟩ (dateOf b) = some ⟨b, min e (nextMidnight b)⟩ := by
  have hb := nextMidnight_bounds b
  have hm : ptime (dateOf b) dayTicks = nextMidnight b := by unfold nextMidnight ptime; ring
  have h0 : ptime (dateOf b) 0 ≤ b := by unfold ptime dateOf dayTicks; omega
  have hi : (⟨b, e⟩ : Period).intersects ⟨ptime (dateOf b) 0, nextMidnight b⟩ = true := by
    rw [intersects_iff]
    exact Or.inr ⟨h0, hb.1⟩
  unfold datePiece
  rw [hm]
  dsimp only
  rw [if_pos hi]
  unfold Period.intersection
  split_ifs <;> grind

theorem datePiece_some (b e dt : ℤ) (hb : b ≤ ptime dt 0) (he : ptime dt 0 < e) :
    datePiece ⟨b, e⟩ dt = some ⟨ptime dt 0, min e (ptime dt dayTicks)⟩ := by
  have hi : (⟨b, e⟩ : Period).intersects ⟨ptime dt 0, ptime dt dayTicks⟩ = true := by
    rw [intersects_iff]
    exact Or.inl ⟨hb, he⟩
  rw [datePiece, Period.intersection]
  rw [if_pos hi]
  split_ifs <;> grind

theorem datePiece_none (b e dt : ℤ) (h : b < ptime dt 0) (he : e ≤ ptime dt 0) :
    datePiece ⟨b, e⟩ dt = none := by
  have hi : ¬ (⟨b, e⟩ : Period).intersects ⟨ptime dt 0, ptime dt dayTicks⟩ = true := by
    rw [intersects_iff]
    dsimp only
    omega
  rw [datePiece]
  rw [if_neg hi]

theorem divideTimeByDay1_cons (b e : ℤ) (h : b ≤ e) :
    divideTimeByDay1 b e =
      ⟨b, min e (nextMidnight b)⟩ :: (List.range (dateOf e - dateOf b).toNat).filterMap fun i : ℕ =>
        datePiece ⟨b, e⟩ (dateOf b + 1 + i) := by
  have hle : dateOf b ≤ dateOf e := by unfold dateOf dayTicks; omega
  have hn : (dateOf e + 1 - dateOf b).toNat = (dateOf e - dateOf b).toNat + 1 := by omega
  rw [divideTimeByDay1, hn, List.range_succ_eq_map, List.filterMap_cons, Nat.cast_zero, add_zero,
    datePiece_first b e]
  simp only [List.filterMap_map, Function.comp_def, Nat.succ_eq_add_one, Nat.cast_add, Nat.cast_one,
    add_assoc, add_comm (1 : ℤ)]

theorem nextMidnight_le_ptime (b : ℤ) (i : ℕ) : nextMidnight b ≤ ptime (dateOf b + 1 + i) 0 := by
  unfold nextMidnight ptime dayTicks
  omega

theorem divideTimeByDay1_short (b e : ℤ) (h : b ≤ e) (hd : e ≤ nextMidnight b) :
    divideTimeByDay1 b e = [⟨b, e⟩] := by
  rw [divideTimeByDay1_cons b e h, min_eq_left hd, List.filterMap_eq_nil_iff.mpr]
  intro i _
  have hb := nextMidnight_bounds b
  have hm := nextMidnight_le_ptime b i
  exact datePiece_none b e _ (by omega) (by omega)

theorem divideTimeByDay1_long (b e : ℤ) (hd : nextMidnight b < e) :
    divideTimeByDay1 b e = ⟨b, nextMidnight b⟩ :: divideTimeByDay1 (nextMidnight b) e := by
  have hb := nextMidnight_bounds b
  rw [divideTimeByDay1_cons b e (by omega), min_eq_right (le_of_lt hd), divideTimeByDay1,
    dateOf_nextMidnight]
  have hn : (dateOf e + 1 - (dateOf b + 1)).toNat = (dateOf e - dateOf b).toNat := by omega
  rw [hn]
  congr 1
  apply List.filterMap_congr
  intro i _
  -- a later date does not see where the stay began
  have hm := nextMidnight_le_ptime b i
  by_cases he : e ≤ ptime (dateOf b + 1 + i) 0
  · rw [datePiece_none b e _ (by omega) he, datePiece_none (nextMidnight b) e _ (by omega) he]
  · rw [datePiece_some b e _ (by omega) (by omega), datePiece_some (nextMidnight b) e _ hm (by omega)]

theorem nextMidnight_next (b : ℤ) : nextMidnight (nextMidnight b) = nextMidnight b + dayTicks := by
  rw [nextMidnight, dateOf_nextMidnight]
  unfold nextMidnight ptime
  ring

theorem divideTimeByDay1_splits : Splits nextMidnight divideTimeByDay1 where
  after := fun b => (nextMidnight_bounds b).1
  day := nextMidnight_next
  short := fun b e h hd => divideTimeByDay1_short b e (le_of_lt h) hd
  long := divideTimeByDay1_long

theorem divideTimeByDay1_within (b e : ℤ) (h : b ≤ e) :
    ∀ p ∈ divideTimeByDay1 b e, p.stop ≤ nextMidnight p.begin := by
  rcases h.eq_or_lt with rfl | hlt
  · rw [divideTimeByDay1_short b b le_rfl (le_of_lt (nextMidnight_bounds b).1)]
    exact List.forall_mem_singleton.mpr (le_of_lt (nextMidnight_bounds b).1)
  · exact splits_within divideTimeByDay1_splits b e hlt

/-- The last period of a stay of `n` full days and a rest. -/
theorem divideTimeByDay0_last (b e : ℤ) (n : ℕ) (h1 : b + n * dayTicks < e) (h2 : e ≤ b + (n + 1) * dayTicks) :
    (divideTimeByDay0 b e).getLast? = some ⟨b + n * dayTicks, e⟩ ∧ (divideTimeByDay0 b e).length = n + 1 := by
  have h0 : (0 : ℤ) < dayTicks := by decide
  induction n generalizing b with
  | zero =>
    rw [Nat.cast_zero, zero_mul, add_zero] at h1 ⊢
    rw [divideTimeByDay0_short b e h1 (by simpa using h2)]
    exact ⟨rfl, rfl⟩
  | succ n ih =>
    push_cast at h1 h2 ⊢
    have hn : (0 : ℤ) ≤ n * dayTicks := by positivity
    obtain ⟨hl, hlen⟩ := ih (b + dayTicks) (by linarith) (by linarith)
    rw [divideTimeByDay0_long b e (by linarith), List.getLast?_cons, hl, List.length_cons, hlen]
    refine ⟨?_, rfl⟩
    rw [Option.getD_some]
    congr 2
    ring

theorem dateOf_within (b t : ℤ) (hb : b ≤ t) (ht : t < nextMidnight b) : dateOf t = dateOf b := by
  unfold nextMidnight ptime at ht
  unfold dateOf dayTicks at *
  omega

theorem dateOf_lt (b t : ℤ) (h : nextMidnight b ≤ t) : dateOf b < dateOf t := by
  unfold nextMidnight ptime at h
  unfold dateOf dayTicks at *
  omega

theorem divideTimeByDay1_dates (b e : ℤ) (h : b < e) :
    ((divideTimeByDay1 b e).map fun p => dateOf p.begin).Pairwise (· < ·) := by
  rw [List.pairwise_map]
  exact (splits_apart divideTimeByDay1_splits b e h).imp fun {p q} hpq => dateOf_lt p.begin q.begin hpq

/-- The days of both patterns: full days and a rest, or one period a date. -/
theorem divideTimeByDay_partitions (b e : ℤ) (h : b < e) :
    (Partitions (divideTimeByDay0 b e) b e ∧
      (∀ p ∈ (divideTimeByDay0 b e).dropLast, p.length = dayTicks) ∧
      ∀ p ∈ divideTimeByDay0 b e, p.length ≤ dayTicks) ∧
    (Partitions (divideTimeByDay1 b e) b e ∧
      (∀ p ∈ divideTimeByDay1 b e, ∀ t, p.begin ≤ t → t < p.stop → dateOf t = dateOf p.begin) ∧
      ((divideTimeByDay1 b e).map fun p => dateOf p.begin).Pairwise (· < ·)) := by
  refine ⟨⟨splits_partitions divideTimeByDay0_splits b e h, ?_, ?_⟩,
    splits_partitions divideTimeByDay1_splits b e h, ?_, divideTimeByDay1_dates b e h⟩
  · intro p hp
    rw [Period.length, splits_dropLast divideTimeByDay0_splits b e h p hp]
    exact add_sub_cancel_left _ _
  · intro p hp
    have hw := splits_within divideTimeByDay0_splits b e h p hp
    rw [Period.length]
    exact sub_left_le_of_le_add hw
  · intro p hp t hb ht
    have hw := splits_within divideTimeByDay1_splits b e h p hp
    exact dateOf_within p.begin t hb (ht.trans_le hw)

theorem two_dates_partition : (0 : ℤ) < 2 * dayTicks ∧
    divideTimeByDay1 0 (2 * dayTicks) = [⟨0, dayTicks⟩, ⟨dayTicks, 2 * dayTicks⟩] ∧
    Partitions (divideTimeByDay1 0 (2 * dayTicks)) 0 (2 * dayTicks) := by
  have h : (0 : ℤ) < 2 * dayTicks := by decide
  exact ⟨h, by decide, (divideTimeByDay_partitions 0 (2 * dayTicks) h).2.1⟩

end BitPark.DivideTime
