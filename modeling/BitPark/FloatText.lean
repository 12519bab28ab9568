import BitPark.Decimal
import BitPark.Significant

namespace BitPark.FloatText

open BitPark.Decimal BitPark.Significant

/-! The text a stream makes of a number by default, with six significant
digits, and the reader of numbers in statements. -/

def precision : ℕ := 6

/-- Zeros at the end of the decimals are left out. -/
def dropZeros : ℕ → ℕ → ℕ × ℕ
  | m, 0 => (m, 0)
  | m, d + 1 => if m % 10 = 0 then dropZeros (m / 10) d else (m, d + 1)

def pad (n : ℕ) (ds : Bytes) : Bytes := List.replicate (n - ds.length) 48 ++ ds

/-- The digits of a number with the point in front of the last ones. -/
def pointed (m d : ℕ) : Bytes :=
  let ds := pad (d + 1) (decimalNat m)
  if d = 0 then ds else ds.take (ds.length - d) ++ 46 :: ds.drop (ds.length - d)

def exponentText (e : ℤ) : Bytes := 101 :: (if e < 0 then 45 else 43) :: pad 2 (decimalNat e.natAbs)

/-- The digits of a number that has no more than the precision. -/
def digits (y : ℚ) : ℕ := ⌊y / unit 10 precision y⌋.toNat

/-- Plain decimals, or a power of ten where these would be too long. -/
def generalPositive (y : ℚ) : Bytes :=
  let e := Int.log 10 y
  if -4 ≤ e ∧ e < precision then
    let s := dropZeros (digits y) (precision - 1 - e).toNat
    pointed s.1 s.2
  else
    let s := dropZeros (digits y) (precision - 1)
    pointed s.1 s.2 ++ exponentText e

def general (x : ℚ) : Bytes :=
  let y := roundDigits 10 precision x
  if y = 0 then [48] else if y < 0 then 45 :: generalPositive (-y) else generalPositive y

def readExponent : Bytes → Option ℤ
  | [] => some 0
  | 101 :: s =>
    let ds := unsigned s
    if ds = [] ∨ ds.all isDigit = false then none
    else some (if s.head? = some 45 then -(digitsValue ds : ℤ) else digitsValue ds)
  | _ => none

/-- The digits behind a point, and what follows them. -/
def readFraction : Bytes → Bytes × Bytes
  | 46 :: s => (s.takeWhile isDigit, s.dropWhile isDigit)
  | s => ([], s)

def readUnsigned (s : Bytes) : Option ℚ :=
  let whole := s.takeWhile isDigit
  let (fraction, rest) := readFraction (s.dropWhile isDigit)
  if whole ++ fraction = [] then none
  else (readExponent rest).map fun e : ℤ => digitsValue (whole ++ fraction) * (10 : ℚ) ^ (e - fraction.length)

def readNumber : Bytes → Option ℚ
  | 45 :: s => (readUnsigned s).map (-·)
  | s => readUnsigned s

theorem dropZeros_value (m d : ℕ) (e : ℤ) :
    ((dropZeros m d).1 : ℚ) * 10 ^ (e - (dropZeros m d).2) = m * 10 ^ (e - d) := by
  induction d generalizing m with
  | zero => rfl
  | succ d ih =>
    rw [dropZeros]
    split_ifs with h
    · obtain ⟨k, rfl⟩ := Nat.dvd_of_mod_eq_zero h
      rw [ih, Nat.mul_div_cancel_left k (by norm_num), Nat.cast_mul, Nat.cast_add, Nat.cast_one,
        show e - (d : ℤ) = (e - (d + 1)) + 1 by ring, zpow_add₀ (by norm_num), zpow_one]
      push_cast
      ring
    · rfl

theorem digitsValue_append (xs ys : Bytes) :
    digitsValue (xs ++ ys) = ys.foldl (fun acc b => 10 * acc + (b.toNat - 48)) (digitsValue xs) := by
  rw [digitsValue, List.foldl_append, digitsValue]

theorem digitsValue_pad (n : ℕ) (ds : Bytes) : digitsValue (pad n ds) = digitsValue ds := by
  have hzeros : ∀ k, digitsValue (List.replicate k 48) = 0 := by
    intro k
    induction k with
    | zero => rfl
    | succ k ih => rw [List.replicate_succ', digitsValue_append, ih]; rfl
  rw [pad, digitsValue_append, hzeros]
  rfl

theorem pad_digits (n m : ℕ) (b : UInt8) (h : b ∈ pad n (decimalNat m)) : isDigit b = true := by
  rcases List.mem_append.mp h with h | h
  · rw [List.eq_of_mem_replicate h]
    rfl
  · exact decimalNat_digits m b h

theorem le_length_pad (n : ℕ) (ds : Bytes) : n ≤ (pad n ds).length := by
  rw [pad, List.length_append, List.length_replicate]
  omega

/-- Digits in front of something else are read up to there. -/
theorem span_digits (ds t : Bytes) (hd : ∀ b ∈ ds, isDigit b = true) (ht : ∀ b ∈ t.head?, isDigit b = false) :
    (ds ++ t).takeWhile isDigit = ds ∧ (ds ++ t).dropWhile isDigit = t := by
  have hrest : t.takeWhile isDigit = [] ∧ t.dropWhile isDigit = t := by
    cases t with
    | nil => exact ⟨rfl, rfl⟩
    | cons b bs =>
      have hb : isDigit b = false := ht b rfl
      simp [hb]
  constructor
  · rw [List.takeWhile_append_of_pos hd, hrest.1, List.append_nil]
  · rw [List.dropWhile_append_of_pos hd, hrest.2]

theorem readUnsigned_pointed (m d : ℕ) (t : Bytes) (ht : ∀ b ∈ t.head?, isDigit b = false ∧ b ≠ 46) :
    readUnsigned (pointed m d ++ t) = (readExponent t).map fun e : ℤ => (m : ℚ) * (10 : ℚ) ^ (e - d) := by
  have hdigits := pad_digits (d + 1) m
  have hlen := le_length_pad (d + 1) (decimalNat m)
  have hvalue : digitsValue (pad (d + 1) (decimalNat m)) = m := by rw [digitsValue_pad, digitsValue_decimalNat]
  rw [pointed]
  generalize pad (d + 1) (decimalNat m) = ds at *
  by_cases hd : d = 0
  · obtain ⟨htake, hdrop⟩ := span_digits ds t hdigits fun b hb => (ht b hb).1
    have hfrac : readFraction t = ([], t) := by
      cases t with
      | nil => rfl
      | cons b bs =>
        have hb : b ≠ 46 := (ht b rfl).2
        rw [readFraction]
        rintro s hs
        exact hb (List.cons.inj hs).1
    have hne : ds ≠ [] := by
      rintro rfl
      simp at hlen
    rw [if_pos hd, readUnsigned, htake, hdrop, hfrac]
    simp [hne, hvalue, hd]
  · have hpart := List.take_append_drop (ds.length - d) ds
    have hback : (ds.drop (ds.length - d)).length = d := by
      rw [List.length_drop]
      omega
    generalize ds.take (ds.length - d) = whole at *
    generalize ds.drop (ds.length - d) = fraction at *
    have hw : ∀ b ∈ whole, isDigit b = true := fun b hb => hdigits b (hpart ▸ List.mem_append_left fraction hb)
    have hf : ∀ b ∈ fraction, isDigit b = true := fun b hb => hdigits b (hpart ▸ List.mem_append_right whole hb)
    obtain ⟨htake, hdrop⟩ := span_digits whole (46 :: (fraction ++ t)) hw (by simp [isDigit])
    obtain ⟨htake', hdrop'⟩ := span_digits fraction t hf fun b hb => (ht b hb).1
    have hne : ds ≠ [] := by
      rintro rfl
      simp at hlen
    rw [if_neg hd, List.append_assoc, List.cons_append, readUnsigned, htake, hdrop]
    simp only [readFraction, htake', hdrop', hpart, hne, if_false, hvalue, hback]

theorem readExponent_exponentText (e : ℤ) : readExponent (exponentText e) = some e := by
  have hall : (pad 2 (decimalNat e.natAbs)).all isDigit = true :=
    List.all_eq_true.mpr fun b hb => pad_digits 2 e.natAbs b hb
  have hne : pad 2 (decimalNat e.natAbs) ≠ [] := by
    intro h
    have hl := le_length_pad 2 (decimalNat e.natAbs)
    rw [h] at hl
    simp at hl
  rw [exponentText]
  by_cases he : e < 0
  · rw [if_pos he]
    simp [readExponent, unsigned, hne, hall, digitsValue_pad, digitsValue_decimalNat, abs_of_neg he]
  · rw [if_neg he]
    simp [readExponent, unsigned, hne, hall, digitsValue_pad, digitsValue_decimalNat, abs_of_nonneg (not_lt.mp he)]

theorem digits_value (y : ℚ) (hy : 0 < y) (h : Fits 10 precision y) :
    (digits y : ℚ) * 10 ^ (Int.log 10 y - 5) = y := by
  have hu := unit_pos 10 precision (by norm_num) y
  obtain ⟨n, hn⟩ := fits_multiple 10 precision (by norm_num) y hy.ne' h _ le_rfl
  change y = n * unit 10 precision y at hn
  have hdiv : y / unit 10 precision y = n := by
    rw [div_eq_iff hu.ne']
    exact hn
  have hpos : 0 < n := by
    have hq : (0 : ℚ) < n := hdiv ▸ div_pos hy hu
    exact_mod_cast hq
  have hunit : unit 10 precision y = 10 ^ (Int.log 10 y - 5) := by
    rw [unit, lastPlace, abs_of_pos hy, precision]
    congr 1
    push_cast
    ring
  have hcast : ((n.toNat : ℕ) : ℚ) = n := by exact_mod_cast Int.toNat_of_nonneg hpos.le
  rw [digits, hdiv, Int.floor_intCast, hcast, ← hunit]
  exact hn.symm

theorem readUnsigned_generalPositive (y : ℚ) (hy : 0 < y) (h : Fits 10 precision y) :
    readUnsigned (generalPositive y) = some y := by
  have hvalue := digits_value y hy h
  rw [generalPositive]
  dsimp only
  split_ifs with he
  · have hplaces : ((precision : ℤ) - 1 - Int.log 10 y).toNat = 5 - Int.log 10 y := by
      rw [precision] at *
      omega
    have hread := readUnsigned_pointed (dropZeros (digits y) ((precision : ℤ) - 1 - Int.log 10 y).toNat).1
      (dropZeros (digits y) ((precision : ℤ) - 1 - Int.log 10 y).toNat).2 [] (by simp)
    rw [List.append_nil] at hread
    rw [hread, readExponent, Option.map_some, dropZeros_value, hplaces, zero_sub, neg_sub, hvalue]
  · rw [readUnsigned_pointed _ _ _ (by simp [exponentText, isDigit]), readExponent_exponentText, Option.map_some,
      dropZeros_value]
    exact congrArg some hvalue

/-- What is read back is the number rounded to the precision. -/
theorem readNumber_general (x : ℚ) : readNumber (general x) = some (roundDigits 10 precision x) := by
  have hfits := fits_roundDigits 10 precision (by norm_num) (by decide) x
  rw [general]
  generalize roundDigits 10 precision x = y at *
  split_ifs with h0 hneg
  · rw [h0]
    decide +kernel
  · have hfits' : Fits 10 precision (-y) := by
      obtain ⟨m, k, hm, rfl⟩ := hfits
      exact ⟨-m, k, by rwa [abs_neg], by push_cast; ring⟩
    rw [readNumber, readUnsigned_generalPositive (-y) (neg_pos.mpr hneg) hfits', Option.map_some, neg_neg]
  · have hpos : 0 < y := lt_of_le_of_ne (not_lt.mp hneg) (Ne.symm h0)
    have hread := readUnsigned_generalPositive y hpos hfits
    unfold readNumber
    split
    · next s hs =>
      have hminus : readUnsigned (45 :: s) = none := rfl
      rw [hs, hminus] at hread
      cases hread
    · exact hread

end BitPark.FloatText
