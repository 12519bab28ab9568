import Mathlib

namespace BitPark.Calendar

/-! The days of the Gregorian calendar, continued to all years, and their numbers. -/

/-- The stretch that a number lies in when stretches of the given lengths
follow each other, and its place there. -/
def place : List ℕ → ℕ → ℕ × ℕ
  | [], n => (0, n)
  | l :: ls, n => if n < l then (0, n) else ((place ls (n - l)).1 + 1, (place ls (n - l)).2)

/-- Where a stretch starts. -/
def start (ls : List ℕ) (i : ℕ) : ℕ := (ls.take i).sum

theorem place_start (ls : List ℕ) (i r : ℕ) (h : r < ls.getD i 0) : place ls (start ls i + r) = (i, r) := by
  induction ls generalizing i with
  | nil => exact absurd h (by simp)
  | cons l ls ih =>
    cases i with
    | zero =>
      rw [start, List.take_zero, List.sum_nil, zero_add, place, if_pos (by simpa using h)]
    | succ i =>
      have hsub : start (l :: ls) (i + 1) + r - l = start ls i + r := by
        rw [start, List.take_succ_cons, List.sum_cons, start]
        omega
      have hle : ¬ start (l :: ls) (i + 1) + r < l := by
        rw [start, List.take_succ_cons, List.sum_cons]
        omega
      rw [place, if_neg hle, hsub, ih i (by simpa using h)]

theorem start_place (ls : List ℕ) (n : ℕ) : start ls (place ls n).1 + (place ls n).2 = n := by
  induction ls generalizing n with
  | nil => exact zero_add n
  | cons l ls ih =>
    rw [place]
    split_ifs with h
    · exact zero_add n
    · have hrest := ih (n - l)
      rw [start] at hrest
      rw [start, List.take_succ_cons, List.sum_cons]
      omega

theorem place_lt (ls : List ℕ) (n : ℕ) (h : n < ls.sum) : (place ls n).2 < ls.getD (place ls n).1 0 := by
  induction ls generalizing n with
  | nil => exact absurd h (by simp)
  | cons l ls ih =>
    rw [place]
    split_ifs with hl
    · exact hl
    · rw [List.sum_cons] at h
      simpa using ih (n - l) (by omega)

/-! Years. -/

def IsLeap (y : ℤ) : Prop := y % 4 = 0 ∧ (y % 100 ≠ 0 ∨ y % 400 = 0)

instance (y : ℤ) : Decidable (IsLeap y) := inferInstanceAs (Decidable (_ ∧ _))

def monthLengths (y : ℤ) : List ℕ := [31, if IsLeap y then 29 else 28, 31, 30, 31, 30, 31, 31, 30, 31, 30, 31]

/-- The days of a month; months are counted from 1. -/
def monthDays (y : ℤ) (m : ℕ) : ℕ := (monthLengths y).getD (m - 1) 0

/-- The days before a year, counted from the first day of the year 1. -/
def yearStart (y : ℤ) : ℤ := 365 * (y - 1) + (y - 1) / 4 - (y - 1) / 100 + (y - 1) / 400

theorem yearStart_succ (y : ℤ) : yearStart (y + 1) = yearStart y + (monthLengths y).sum := by
  have hsum : (monthLengths y).sum = 337 + if IsLeap y then 29 else 28 := by
    unfold monthLengths
    split_ifs <;> rfl
  rw [hsum]
  unfold yearStart
  split_ifs with h
  · unfold IsLeap at h
    push_cast
    omega
  · unfold IsLeap at h
    push_cast
    omega

theorem yearStart_lt (y z : ℤ) (h : y < z) : yearStart y < yearStart z := by
  unfold yearStart
  omega

/-- The year of a day. A year is 146097 / 400 days long on average. -/
def yearOf (n : ℤ) : ℤ :=
  let y := 400 * n / 146097 + 1
  if n < yearStart y then y - 1 else if yearStart (y + 1) ≤ n then y + 1 else y

theorem yearOf_bounds (n : ℤ) : yearStart (yearOf n) ≤ n ∧ n < yearStart (yearOf n + 1) := by
  have hlow : yearStart (400 * n / 146097 + 1 - 1) ≤ n := by
    unfold yearStart
    omega
  have hhigh : n < yearStart (400 * n / 146097 + 1 + 1 + 1) := by
    unfold yearStart
    omega
  rw [yearOf]
  split_ifs with h1 h2
  · rw [sub_add_cancel]
    exact ⟨hlow, h1⟩
  · exact ⟨h2, hhigh⟩
  · exact ⟨not_lt.mp h1, not_le.mp h2⟩

theorem yearStart_mono (y z : ℤ) (h : y ≤ z) : yearStart y ≤ yearStart z := by
  obtain rfl | hlt := h.eq_or_lt
  · exact le_rfl
  · exact (yearStart_lt y z hlt).le

theorem yearOf_eq (y n : ℤ) (hl : yearStart y ≤ n) (hu : n < yearStart (y + 1)) : yearOf n = y := by
  obtain ⟨h1, h2⟩ := yearOf_bounds n
  obtain h | h | h := lt_trichotomy (yearOf n) y
  · have hmono := yearStart_mono (yearOf n + 1) y (Int.add_one_le_iff.mpr h)
    omega
  · exact h
  · have hmono := yearStart_mono (y + 1) (yearOf n) (Int.add_one_le_iff.mpr h)
    omega

theorem yearOf_nonneg (n : ℤ) (h : yearStart 0 ≤ n) : 0 ≤ yearOf n := by
  by_contra hneg
  have hmono := yearStart_mono (yearOf n + 1) 0 (by omega)
  have hbound := (yearOf_bounds n).2
  omega

theorem month_le (y : ℤ) (m : ℕ) (h : 0 < monthDays y m) : m ≤ 12 := by
  by_contra hm
  rw [monthDays, List.getD_eq_default _ _ (by simp only [monthLengths, List.length_cons, List.length_nil]; omega)] at h
  exact absurd h (lt_irrefl 0)

theorem monthDays_le (y : ℤ) (m : ℕ) : monthDays y m ≤ 31 := by
  have hall : ∀ l ∈ monthLengths y, l ≤ 31 := by
    unfold monthLengths
    split_ifs <;> decide
  rw [monthDays, List.getD_eq_getElem?_getD]
  cases hl : (monthLengths y)[m - 1]? with
  | none => exact Nat.zero_le 31
  | some l => exact hall l (List.mem_of_getElem? hl)

/-! Dates. -/

structure Date where
  year : ℤ
  month : ℕ
  day : ℕ
  month_pos : 1 ≤ month
  day_pos : 1 ≤ day
  day_le : day ≤ monthDays year month
deriving DecidableEq

/-- The number of a day, the first of the year 1 having 0. A day past the end
of its month has the number of a day of a later month. -/
def dayNumber (year : ℤ) (month day : ℕ) : ℤ := yearStart year + start (monthLengths year) (month - 1) + day - 1

def Date.number (d : Date) : ℤ := dayNumber d.year d.month d.day

theorem place_of_day (n : ℤ) : (n - yearStart (yearOf n)).toNat < (monthLengths (yearOf n)).sum := by
  obtain ⟨hl, hu⟩ := yearOf_bounds n
  rw [yearStart_succ] at hu
  omega

def Date.ofNumber (n : ℤ) : Date where
  year := yearOf n
  month := (place (monthLengths (yearOf n)) (n - yearStart (yearOf n)).toNat).1 + 1
  day := (place (monthLengths (yearOf n)) (n - yearStart (yearOf n)).toNat).2 + 1
  month_pos := Nat.le_add_left 1 _
  day_pos := Nat.le_add_left 1 _
  day_le := place_lt _ _ (place_of_day n)

theorem number_ofNumber (n : ℤ) : (Date.ofNumber n).number = n := by
  have hplace := start_place (monthLengths (yearOf n)) (n - yearStart (yearOf n)).toNat
  have hbounds := (yearOf_bounds n).1
  simp only [Date.number, dayNumber, Date.ofNumber, Nat.add_sub_cancel]
  omega

theorem start_add_lt (y : ℤ) (m r : ℕ) (h : r < (monthLengths y).getD m 0) :
    start (monthLengths y) m + r < (monthLengths y).sum := by
  have hm : m < (monthLengths y).length := by
    by_contra hn
    rw [List.getD_eq_default _ _ (not_lt.mp hn)] at h
    exact absurd h (Nat.not_lt_zero r)
  have hsplit := List.sum_take_add_sum_drop (monthLengths y) (m + 1)
  rw [List.sum_take_succ _ _ hm] at hsplit
  rw [List.getD_eq_getElem _ _ hm] at h
  rw [start]
  omega

theorem ofNumber_number (d : Date) : Date.ofNumber d.number = d := by
  obtain ⟨y, m, day, hm, hd, hle⟩ := d
  have hlt : day - 1 < (monthLengths y).getD (m - 1) 0 := by
    rw [monthDays] at hle
    omega
  have hin := start_add_lt y (m - 1) (day - 1) hlt
  have hnumber : dayNumber y m day = yearStart y + ((start (monthLengths y) (m - 1) + (day - 1) : ℕ) : ℤ) := by
    rw [dayNumber]
    omega
  have hyear : yearOf (dayNumber y m day) = y := by
    apply yearOf_eq
    · rw [hnumber]
      omega
    · rw [yearStart_succ, hnumber]
      omega
  have hplace : place (monthLengths y) (dayNumber y m day - yearStart y).toNat = (m - 1, day - 1) := by
    rw [hnumber, add_sub_cancel_left, Int.toNat_natCast]
    exact place_start _ _ _ hlt
  simp only [Date.number, Date.ofNumber, hyear, hplace, Date.mk.injEq, true_and]
  omega

/-- Every day has one date and one number. -/
def dates : Date ≃ ℤ where
  toFun := Date.number
  invFun := Date.ofNumber
  left_inv := ofNumber_number
  right_inv := number_ofNumber

end BitPark.Calendar
