import Mathlib

namespace BitPark.Decimal

/-! Integers as decimal text, byte by byte, and the reader `stoi`. -/

abbrev Bytes := List UInt8

def digitByte (d : ℕ) : UInt8 := UInt8.ofNat (48 + d)

def decimalNat (n : ℕ) : Bytes := if n = 0 then [48] else (Nat.digits 10 n).reverse.map digitByte

def decimal (n : ℤ) : Bytes := if n < 0 then 45 :: decimalNat n.natAbs else decimalNat n.natAbs

def isSpace (b : UInt8) : Bool := b = 32 || (9 ≤ b && b ≤ 13)

def isDigit (b : UInt8) : Bool := 48 ≤ b && b ≤ 57

def digitsValue (ds : Bytes) : ℕ := ds.foldl (fun acc b => 10 * acc + (b.toNat - 48)) 0

def unsigned : Bytes → Bytes
  | 45 :: ds => ds
  | 43 :: ds => ds
  | ds => ds

/-- Leading blanks and a sign, then as many digits as there are; whatever
follows them is not looked at. -/
def stoi (s : Bytes) : Except String ℤ :=
  let t := s.dropWhile isSpace
  let ds := (unsigned t).takeWhile isDigit
  let v : ℤ := if t.head? = some 45 then -(digitsValue ds : ℤ) else digitsValue ds
  if ds = [] then .error "stoi: invalid argument"
  else if -2 ^ 31 ≤ v ∧ v < 2 ^ 31 then .ok v
  else .error "stoi: out of range"

theorem digitByte_toNat (d : ℕ) (h : d < 10) : (digitByte d).toNat = 48 + d := by
  simp [digitByte]
  omega

theorem digitByte_isDigit (d : ℕ) (h : d < 10) : isDigit (digitByte d) = true := by
  have hn := digitByte_toNat d h
  simp [isDigit, UInt8.le_iff_toNat_le, hn]
  omega

theorem decimalNat_digits (n : ℕ) (b : UInt8) (h : b ∈ decimalNat n) : isDigit b = true := by
  by_cases hn : n = 0
  · simp [decimalNat, hn] at h
    subst h
    decide
  · simp [decimalNat, hn] at h
    obtain ⟨d, hd, rfl⟩ := h
    exact digitByte_isDigit d (Nat.digits_lt_base (by norm_num) hd)

theorem decimalNat_ne_nil (n : ℕ) : decimalNat n ≠ [] := by
  by_cases hn : n = 0 <;> simp [decimalNat, hn, Nat.digits_ne_nil_iff_ne_zero]

theorem digitsValue_decimalNat (n : ℕ) : digitsValue (decimalNat n) = n := by
  by_cases hn : n = 0
  · simp [decimalNat, digitsValue, hn]
  · have hlt : ∀ d ∈ Nat.digits 10 n, d < 10 := fun d hd => Nat.digits_lt_base (by norm_num) hd
    have hfold : ∀ L : List ℕ, (∀ d ∈ L, d < 10) →
        (L.map digitByte).foldr (fun b acc => 10 * acc + (b.toNat - 48)) 0 = Nat.ofDigits 10 L := by
      intro L hL
      induction L with
      | nil => rfl
      | cons d L ih =>
        rw [List.map_cons, List.foldr_cons, ih fun x hx => hL x (List.mem_cons_of_mem d hx),
          digitByte_toNat d (hL d List.mem_cons_self), Nat.ofDigits_cons]
        simp
        omega
    simp only [digitsValue, decimalNat, hn, if_false, List.map_reverse, List.foldl_reverse]
    rw [hfold _ hlt, Nat.ofDigits_digits]

theorem isDigit_not_space (b : UInt8) (h : isDigit b = true) : isSpace b = false := by
  simp [isDigit, isSpace, UInt8.le_iff_toNat_le] at h ⊢
  refine ⟨fun hb => ?_, fun _ => by omega⟩
  subst hb
  simp at h

theorem dropWhile_decimalNat (n : ℕ) : (decimalNat n).dropWhile isSpace = decimalNat n := by
  match hd : decimalNat n with
  | [] => rfl
  | b :: ds =>
    have hb := isDigit_not_space b (decimalNat_digits n b (by simp [hd]))
    simp [hb]

theorem takeWhile_decimalNat (n : ℕ) : (decimalNat n).takeWhile isDigit = decimalNat n :=
  List.takeWhile_eq_self_iff.mpr fun b hb => decimalNat_digits n b hb

/-- A text of digits has no sign. -/
theorem unsigned_decimalNat (n : ℕ) : unsigned (decimalNat n) = decimalNat n ∧ (decimalNat n).head? ≠ some 45 := by
  match hd : decimalNat n with
  | [] => exact ⟨rfl, by simp⟩
  | b :: ds =>
    have hb : isDigit b = true := decimalNat_digits n b (by simp [hd])
    have h45 : b ≠ 45 := fun h => by rw [h] at hb; exact absurd hb (by decide)
    have h43 : b ≠ 43 := fun h => by rw [h] at hb; exact absurd hb (by decide)
    refine ⟨?_, by simpa using h45⟩
    unfold unsigned
    split
    · next h => exact absurd (List.cons.inj h).1 h45
    · next h => exact absurd (List.cons.inj h).1 h43
    · rfl

/-- The blanks, the sign and the digits of a number. -/
theorem decimal_parts (n : ℤ) :
    (decimal n).dropWhile isSpace = decimal n ∧ unsigned (decimal n) = decimalNat n.natAbs ∧
      (if (decimal n).head? = some 45 then -(n.natAbs : ℤ) else n.natAbs) = n := by
  by_cases hn : n < 0
  · rw [decimal, if_pos hn]
    refine ⟨?_, rfl, ?_⟩
    · rw [List.dropWhile_cons, if_neg (by decide)]
    · rw [List.head?_cons, if_pos rfl]
      omega
  · obtain ⟨hs, hh⟩ := unsigned_decimalNat n.natAbs
    rw [decimal, if_neg hn, dropWhile_decimalNat, if_neg hh]
    exact ⟨rfl, hs, by omega⟩

theorem stoi_decimal (n : ℤ) (hl : -2 ^ 31 ≤ n) (hu : n < 2 ^ 31) : stoi (decimal n) = .ok n := by
  obtain ⟨hdrop, hunsigned, hvalue⟩ := decimal_parts n
  simp only [stoi, hdrop, hunsigned, takeWhile_decimalNat, digitsValue_decimalNat, hvalue, decimalNat_ne_nil, if_false]
  exact if_pos ⟨hl, hu⟩

theorem decimal_chars (n : ℤ) (b : UInt8) (h : b ∈ decimal n) : isDigit b = true ∨ b = 45 := by
  by_cases hn : n < 0
  · rw [decimal, if_pos hn] at h
    obtain rfl | hb := List.mem_cons.mp h
    · exact .inr rfl
    · exact .inl (decimalNat_digits _ b hb)
  · rw [decimal, if_neg hn] at h
    exact .inl (decimalNat_digits _ b h)

end BitPark.Decimal
