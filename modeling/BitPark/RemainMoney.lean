import BitPark.FloatText
import BitPark.Statements

namespace BitPark.RemainMoney

open BitPark.Decimal BitPark.SqlText BitPark.Significant BitPark.FloatText BitPark.Statements
open BitPark.Multipart (ascii)

/-- A `float` keeps 24 binary digits of a number in its range. -/
def toFloat (x : ℚ) : ℚ := roundDigits 2 24 x

def updateStoredValue (vipId : Bytes) (remainMoney : ℚ) : List Piece :=
  [text "update park_vip_info set remain_money=", .code (general (toFloat remainMoney)), text " where vip_id=",
    .literal vipId]

/-- The balance that the statement sets. -/
def written (x : ℚ) : ℚ := roundDigits 10 precision (toFloat x)

/-- The number between the equals sign of the assignment and the next blank. -/
def writtenMoney (sql : Bytes) : Option ℚ :=
  readNumber (((sql.dropWhile (· ≠ 61)).drop 1).takeWhile (· ≠ 32))

theorem pointed_chars (m d : ℕ) (b : UInt8) (h : b ∈ pointed m d) : isDigit b = true ∨ b = 46 := by
  have hdigits := pad_digits (d + 1) m
  rw [pointed] at h
  split_ifs at h
  · exact .inl (hdigits b h)
  · rcases List.mem_append.mp h with h | h
    · exact .inl (hdigits b (List.mem_of_mem_take h))
    · rcases List.mem_cons.mp h with rfl | h
      · exact .inr rfl
      · exact .inl (hdigits b (List.mem_of_mem_drop h))

theorem exponentText_chars (e : ℤ) (b : UInt8) (h : b ∈ exponentText e) :
    isDigit b = true ∨ b = 101 ∨ b = 45 ∨ b = 43 := by
  rcases List.mem_cons.mp h with rfl | h
  · exact .inr (.inl rfl)
  · rcases List.mem_cons.mp h with h | h
    · split_ifs at h
      · exact .inr (.inr (.inl h))
      · exact .inr (.inr (.inr h))
    · exact .inl (pad_digits 2 _ b h)

/-- The characters of a number: digits, a point, an exponent and signs. -/
theorem generalPositive_chars (y : ℚ) (b : UInt8) (h : b ∈ generalPositive y) :
    isDigit b = true ∨ b = 46 ∨ b = 101 ∨ b = 45 ∨ b = 43 := by
  rw [generalPositive] at h
  split_ifs at h
  · exact (pointed_chars _ _ b h).imp_right .inl
  · rcases List.mem_append.mp h with h | h
    · exact (pointed_chars _ _ b h).imp_right .inl
    · exact (exponentText_chars _ b h).imp_right .inr

theorem general_chars (x : ℚ) (b : UInt8) (h : b ∈ general x) :
    isDigit b = true ∨ b = 46 ∨ b = 101 ∨ b = 45 ∨ b = 43 := by
  rw [general] at h
  split_ifs at h
  · exact .inl (by rw [List.mem_singleton.mp h]; rfl)
  · rcases List.mem_cons.mp h with rfl | h
    · exact .inr (.inr (.inr (.inl rfl)))
    · exact generalPositive_chars _ b h
  · exact generalPositive_chars _ b h

theorem general_not_blank (x : ℚ) (b : UInt8) (h : b ∈ general x) : b ≠ 32 := by
  rintro rfl
  rcases general_chars x 32 h with h | h | h | h | h <;> exact absurd h (by decide)

theorem general_unquoted (x : ℚ) (b : UInt8) (h : b ∈ general x) : isQuote b = false := by
  rw [isQuote, Bool.or_eq_false_iff, decide_eq_false_iff_not, decide_eq_false_iff_not]
  constructor
  · rintro rfl
    rcases general_chars x 39 h with h | h | h | h | h <;> exact absurd h (by decide)
  · rintro rfl
    rcases general_chars x 34 h with h | h | h | h | h <;> exact absurd h (by decide)

/-- What the server reads is the `float` rounded once more, to six digits. -/
theorem writtenMoney_updateStoredValue (vipId : Bytes) (x : ℚ) :
    writtenMoney (render (updateStoredValue vipId x)) = some (written x) := by
  have hhead : (ascii "update park_vip_info set remain_money=").dropWhile (· ≠ 61) = [61] := by decide
  have htail : ∃ rest, ascii " where vip_id=" = 32 :: rest := ⟨_, rfl⟩
  obtain ⟨rest, hrest⟩ := htail
  have hrender : render (updateStoredValue vipId x) = ascii "update park_vip_info set remain_money=" ++
      (general (toFloat x) ++ 32 :: (rest ++ Piece.text (.literal vipId))) := by
    rw [← List.cons_append, ← hrest]
    simp [render, updateStoredValue, text, Piece.text]
  have hblank : (general (toFloat x) ++ 32 :: (rest ++ Piece.text (.literal vipId))).takeWhile (· ≠ 32) =
      general (toFloat x) := by
    rw [List.takeWhile_append_of_pos fun b hb => by simpa using general_not_blank _ b hb]
    simp
  rw [writtenMoney, hrender, List.dropWhile_append, hhead]
  show readNumber (List.takeWhile _ (general (toFloat x) ++ _)) = _
  rw [hblank, readNumber_general]
  rfl

/-- Six digits survive the way through a `float`. -/
theorem written_iff (v : ℚ) (hv : 0 ≤ v) : written v = v ↔ Fits 10 precision v := by
  constructor
  · intro h
    rw [← h]
    exact fits_roundDigits 10 precision (by norm_num) (by decide) _
  · intro h
    rcases hv.eq_or_lt with rfl | hpos
    · simp [written, toFloat, roundDigits, roundEven]
    · have herr := abs_sub_roundDigits_le 2 24 (by norm_num) v hpos.ne'
      rw [abs_of_pos hpos, abs_sub_comm] at herr
      change 2 * ((2 : ℕ) : ℚ) ^ 24 * |toFloat v - v| ≤ ((2 : ℕ) : ℚ) * v at herr
      norm_num at herr
      have hlow := neg_abs_le (toFloat v - v)
      apply roundDigits_of_near 10 precision (by norm_num) (toFloat v) v hpos (by linarith) h
      · norm_num [precision]
        linarith
      · norm_num [precision]
        linarith

theorem toFloat_nonneg (x : ℚ) (hx : 0 ≤ x) : 0 ≤ toFloat x := roundDigits_nonneg 2 24 (by decide) x hx

theorem written_nonneg (x : ℚ) (hx : 0 ≤ x) : 0 ≤ written x :=
  roundDigits_nonneg 10 precision (by decide) _ (toFloat_nonneg x hx)

/-! Whole amounts below a million come through unchanged. -/

theorem toFloat_natCast (n : ℕ) (hn : n < 10 ^ 6) : toFloat n = n :=
  roundDigits_of_fits 2 24 (by decide) _ (fits_natCast 2 24 n (hn.trans (by decide)))

theorem written_natCast (n : ℕ) (hn : n < 10 ^ 6) : written n = n :=
  (written_iff n (Nat.cast_nonneg n)).mpr (fits_natCast 10 precision n hn)

@[simp] theorem written_zero : written 0 = 0 := by
  simpa using written_natCast 0 (by decide)

/-- A balance that neither the `float` nor the six digits change. -/
def Kept (x : ℚ) : Prop := toFloat x = x ∧ written x = x

theorem kept_natCast (n : ℕ) (hn : n < 10 ^ 6) : Kept n := ⟨toFloat_natCast n hn, written_natCast n hn⟩

/-- An amount of cents below ten million with at most six significant digits. -/
def CentsFit (n : ℕ) : Prop := n < 10 ^ 6 ∨ 10 ∣ n ∧ n < 10 ^ 7 ∨ 100 ∣ n ∧ n < 10 ^ 8 ∨ 1000 ∣ n ∧ n < 10 ^ 9

theorem fits_cents_iff (n : ℕ) (hn : n < 10 ^ 9) : Fits 10 precision ((n : ℚ) / 100) ↔ CentsFit n := by
  have hscale : ∀ m k : ℕ, m < 10 ^ 6 → n = m * 10 ^ k → Fits 10 precision ((n : ℚ) / 100) := by
    intro m k hm hnk
    refine ⟨m, k - 2, by rw [Nat.abs_cast]; exact_mod_cast hm, ?_⟩
    rw [hnk, zpow_sub₀ (by norm_num)]
    push_cast
    norm_num
    ring
  constructor
  · rintro ⟨m, k, hm, hv⟩
    have hscaled : (n : ℚ) = m * 10 ^ (k + 2) := by
      rw [zpow_add₀ (by norm_num), ← mul_assoc]
      push_cast at hv
      rw [← hv]
      norm_num
    have hm6 : |m| < 10 ^ 6 := hm
    rcases le_or_gt 0 (k + 2) with hk | hk
    · obtain ⟨i, hi⟩ := Int.eq_ofNat_of_zero_le hk
      have hint : (n : ℤ) = m * 10 ^ i := by
        rw [hi, zpow_natCast] at hscaled
        exact_mod_cast hscaled
      have hle := le_abs_self m
      match i with
      | 0 => exact .inl (by omega)
      | 1 => exact .inr (.inl (by omega))
      | 2 => exact .inr (.inr (.inl (by omega)))
      | i + 3 =>
        have hdvd : (1000 : ℤ) ∣ n := ⟨m * 10 ^ i, by rw [hint, pow_add]; ring⟩
        exact .inr (.inr (.inr ⟨by exact_mod_cast hdvd, hn⟩))
    · -- the digits end before the cents do
      obtain ⟨i, hi⟩ := Int.eq_ofNat_of_zero_le (neg_nonneg.mpr hk.le)
      have hint : (n : ℤ) * 10 ^ i = m := by
        rw [show k + 2 = -(i : ℤ) by omega, zpow_neg, zpow_natCast] at hscaled
        have hpow : (10 : ℚ) ^ i ≠ 0 := by positivity
        have hq : (n : ℚ) * 10 ^ i = m := by rw [hscaled, mul_assoc, inv_mul_cancel₀ hpow, mul_one]
        exact_mod_cast hq
      have hone : (1 : ℤ) ≤ 10 ^ i := one_le_pow₀ (by norm_num)
      have hle := le_abs_self m
      refine .inl ?_
      nlinarith
  · rintro (h | ⟨⟨m, rfl⟩, h⟩ | ⟨⟨m, rfl⟩, h⟩ | ⟨⟨m, rfl⟩, h⟩)
    · exact hscale n 0 h (by ring)
    · exact hscale m 1 (by omega) (by ring)
    · exact hscale m 2 (by omega) (by ring)
    · exact hscale m 3 (by omega) (by ring)

/-- The balance in the text is exact exactly if it has at most six significant
digits. Amounts are in cents, below ten million units. -/
theorem remainMoney_written_iff (vipId : Bytes) (balance fee : ℕ) (hf : fee ≤ balance) (hb : balance < 10 ^ 9) :
    writtenMoney (render (updateStoredValue vipId ((balance : ℚ) / 100 - (fee : ℚ) / 100))) =
      some ((balance : ℚ) / 100 - (fee : ℚ) / 100) ↔ CentsFit (balance - fee) := by
  have hcents : (balance : ℚ) / 100 - (fee : ℚ) / 100 = ((balance - fee : ℕ) : ℚ) / 100 := by
    rw [Nat.cast_sub hf]
    ring
  rw [hcents, writtenMoney_updateStoredValue, Option.some.injEq, written_iff _ (by positivity),
    fits_cents_iff _ (by omega)]

theorem remainMoney_written_small : (200 : ℕ) ≤ 5000 ∧ (5000 : ℕ) < 10 ^ 9 ∧
    (writtenMoney (render (updateStoredValue (ascii "v1") (((5000 : ℕ) : ℚ) / 100 - ((200 : ℕ) : ℚ) / 100))) =
      some (((5000 : ℕ) : ℚ) / 100 - ((200 : ℕ) : ℚ) / 100) ↔ CentsFit (5000 - 200)) :=
  ⟨by decide, by decide, remainMoney_written_iff (ascii "v1") 5000 200 (by decide) (by decide)⟩

/-- A balance of 12347.67 that pays 2 is written as 12345.7. -/
theorem large_balance_gains_cents :
    general (toFloat (1234767 / 100 - 200 / 100)) = ascii "12345.7" ∧
    writtenMoney (render (updateStoredValue (ascii "v1") (1234767 / 100 - 200 / 100))) = some (123457 / 10) ∧
    ¬ writtenMoney (render (updateStoredValue (ascii "v1") (1234767 / 100 - 200 / 100))) =
      some (1234767 / 100 - 200 / 100) := by
  decide +kernel

end BitPark.RemainMoney
