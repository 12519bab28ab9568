import BitPark.JsonWriters

namespace BitPark.JsonTokens

open BitPark.Decimal (Bytes isDigit decimal decimalNat)
open BitPark.JsonText BitPark.JsonWriters

/-! What the reader makes of the tokens of a document. -/

def Space (ws : Bytes) : Prop := ∀ b ∈ ws, isSpace b = true

theorem space_append (ws ws' : Bytes) (h : Space ws) (h' : Space ws') : Space (ws ++ ws') := fun b hb =>
  (List.mem_append.mp hb).elim (h b) (h' b)

theorem skipSpaces_append (ws s : Bytes) (h : Space ws) : skipSpaces (ws ++ s) = skipSpaces s := by
  induction ws with
  | nil => rfl
  | cons b ws ih =>
    obtain ⟨hb, hws⟩ := List.forall_mem_cons.mp h
    rw [List.cons_append, skipSpaces, List.dropWhile_cons_of_pos hb]
    exact ih hws

theorem readToken_append (ws s : Bytes) (h : Space ws) : readToken (ws ++ s) = readToken s := by
  rw [readToken, skipSpaces_append ws s h, readToken]

theorem skipComments_of_ne (n : ℕ) (r : Token × Bytes) (h : r.1 ≠ .comment) : skipComments n r = r := by
  cases n with
  | zero => rfl
  | succ n =>
    obtain ⟨token, s⟩ := r
    cases token <;> first | rfl | exact absurd rfl h

theorem skipCommentTokens_eq (ws s t : Bytes) (token : Token) (hws : Space ws) (h : readToken s = (token, t))
    (hc : token ≠ .comment) : skipCommentTokens (ws ++ s) = (token, t) := by
  rw [skipCommentTokens, readToken_append ws s hws, h]
  exact skipComments_of_ne _ _ hc

/-! Strings. -/

theorem hexUpper_digits : ∀ n < 32,
    decodeUnicodeEscapeSequence 48 48 (hexUpper (n / 16)) (hexUpper (n % 16)) = some n ∧
      hexUpper (n / 16) ≠ 34 ∧ hexUpper (n / 16) ≠ 92 ∧ hexUpper (n % 16) ≠ 34 ∧ hexUpper (n % 16) ≠ 92 := by
  decide

/-- How a byte stands in a quoted text: as it is, behind a backslash, or as four digits. -/
theorem escape_cases (c : UInt8) :
    (escape c = [c] ∧ c ≠ 34 ∧ c ≠ 92 ∧ c ≠ 0) ∨ (∃ x, escape c = [92, x] ∧ x ≠ 117 ∧ escapedByte x = some c) ∨
      ∃ x y, escape c = [92, 117, 48, 48, x, y] ∧ decodeUnicodeEscapeSequence 48 48 x y = some c.toNat ∧
        c.toNat < 32 ∧ x ≠ 34 ∧ x ≠ 92 ∧ y ≠ 34 ∧ y ≠ 92 := by
  have hshort : ∀ d x : UInt8, c = d → escape d = [92, x] ∧ x ≠ 117 ∧ escapedByte x = some d →
      ∃ x, escape c = [92, x] ∧ x ≠ 117 ∧ escapedByte x = some c := by
    rintro d x rfl h
    exact ⟨x, h⟩
  by_cases h34 : c = 34
  · exact .inr (.inl (hshort 34 34 h34 (by decide)))
  by_cases h92 : c = 92
  · exact .inr (.inl (hshort 92 92 h92 (by decide)))
  by_cases h8 : c = 8
  · exact .inr (.inl (hshort 8 98 h8 (by decide)))
  by_cases h12 : c = 12
  · exact .inr (.inl (hshort 12 102 h12 (by decide)))
  by_cases h10 : c = 10
  · exact .inr (.inl (hshort 10 110 h10 (by decide)))
  by_cases h13 : c = 13
  · exact .inr (.inl (hshort 13 114 h13 (by decide)))
  by_cases h9 : c = 9
  · exact .inr (.inl (hshort 9 116 h9 (by decide)))
  by_cases hcontrol : isControlCharacter c = true ∨ c = 0
  · have hlt : c.toNat < 32 := by
      rcases hcontrol with hc | rfl
      · simp only [isControlCharacter, Bool.and_eq_true, decide_eq_true_eq] at hc
        have hle : c.toNat ≤ 31 := UInt8.le_iff_toNat_le.mp hc.2
        omega
      · decide
    obtain ⟨hdecode, hx, hx', hy, hy'⟩ := hexUpper_digits c.toNat hlt
    refine .inr (.inr ⟨_, _, ?_, hdecode, hlt, hx, hx', hy, hy'⟩)
    simp only [escape, h34, h92, h8, h12, h10, h13, h9, hcontrol, if_false, if_true]
  · refine .inl ⟨?_, h34, h92, fun h0 => hcontrol (.inr h0)⟩
    simp only [escape, h34, h92, h8, h12, h10, h13, h9, hcontrol, if_false]

theorem readString_plain (c : UInt8) (s : Bytes) (h34 : c ≠ 34) (h92 : c ≠ 92) :
    readString (c :: s) = (readString s).map fun r => (c :: r.1, r.2) := by
  cases s <;> simp [readString, h92]

theorem readString_quoted (v s : Bytes) :
    readString (v.flatMap escape ++ 34 :: s) = some (v.flatMap escape ++ [34], s) := by
  induction v with
  | nil => rfl
  | cons c v ih =>
    rw [List.flatMap_cons, List.append_assoc, List.append_assoc]
    obtain ⟨he, h34, h92, -⟩ | ⟨x, he, -⟩ | ⟨x, y, he, -, -, hx, hx', hy, hy'⟩ := escape_cases c
    · rw [he, List.singleton_append, List.singleton_append, readString_plain c _ h34 h92, ih]
      rfl
    · rw [he]
      change (readString (v.flatMap escape ++ 34 :: s)).map (fun r => (92 :: x :: r.1, r.2)) = _
      rw [ih]
      rfl
    · rw [he]
      change (readString (48 :: 48 :: x :: y :: (v.flatMap escape ++ 34 :: s))).map
        (fun r => (92 :: 117 :: r.1, r.2)) = _
      rw [readString_plain 48 _ (by decide) (by decide), readString_plain 48 _ (by decide) (by decide),
        readString_plain x _ hx hx', readString_plain y _ hy hy', ih]
      rfl

theorem decodeBody_plain (c : UInt8) (s : Bytes) (h34 : c ≠ 34) (h92 : c ≠ 92) :
    decodeBody (c :: s) = (decodeBody s).map (c :: ·) := by
  rw [decodeBody]
  · exact h34
  all_goals simp [h92]

theorem decodeBody_short (x c : UInt8) (s : Bytes) (hx : x ≠ 117) (h : escapedByte x = some c) :
    decodeBody (92 :: x :: s) = (decodeBody s).map (c :: ·) := by
  rw [decodeBody, h]
  all_goals simp [hx]

theorem decodeBody_unicode (x y c : UInt8) (s : Bytes) (h : decodeUnicodeEscapeSequence 48 48 x y = some c.toNat)
    (hc : c.toNat < 32) : decodeBody (92 :: 117 :: 48 :: 48 :: x :: y :: s) = (decodeBody s).map (c :: ·) := by
  have hlow : ¬ isHighSurrogate c.toNat := fun hs => by
    have hle := hs.1
    omega
  have hutf : codePointToUTF8 c.toNat = [c] := by
    rw [codePointToUTF8, if_pos (by omega), UInt8.ofNat_toNat]
  rw [decodeBody, h]
  dsimp only
  rw [if_neg hlow, hutf]
  rfl

theorem decodeBody_escaped (v : Bytes) : decodeBody (v.flatMap escape) = some v := by
  induction v with
  | nil => rfl
  | cons c v ih =>
    rw [List.flatMap_cons]
    obtain ⟨he, h34, h92, -⟩ | ⟨x, he, hx, hescaped⟩ | ⟨x, y, he, hdecode, hlt, -⟩ := escape_cases c
    · rw [he, List.singleton_append, decodeBody_plain c _ h34 h92, ih]
      rfl
    · rw [he]
      change decodeBody (92 :: x :: v.flatMap escape) = _
      rw [decodeBody_short x c _ hx hescaped, ih]
      rfl
    · rw [he]
      change decodeBody (92 :: 117 :: 48 :: 48 :: x :: y :: v.flatMap escape) = _
      rw [decodeBody_unicode x y c _ hdecode hlt, ih]
      rfl

/-- A quoted text is one token, whatever follows. -/
theorem readToken_quoted (v s : Bytes) :
    readToken (valueToQuotedStringN v ++ s) = (.string (valueToQuotedStringN v), s) := by
  have hstring : readString (v.flatMap escape ++ [34] ++ s) = some (v.flatMap escape ++ [34], s) := by
    rw [List.append_assoc]
    exact readString_quoted v s
  have hquote : skipSpaces (34 :: (v.flatMap escape ++ [34] ++ s)) = 34 :: (v.flatMap escape ++ [34] ++ s) := rfl
  rw [valueToQuotedStringN, List.cons_append]
  simp only [readToken, hquote, hstring]

theorem decodeString_quoted (v : Bytes) : decodeString (valueToQuotedStringN v) = some v := by
  rw [decodeString, valueToQuotedStringN, List.tail_cons, List.dropLast_concat]
  exact decodeBody_escaped v

/-! Numbers. -/

/-- A byte that can stand in a number. -/
def isNumberByte (c : UInt8) : Bool := isDigit c || c = 46 || c = 101 || c = 69 || c = 43 || c = 45

/-- Nothing that would go on with a number. -/
def Ends (rest : Bytes) : Prop := ∀ c ∈ rest.head?, isNumberByte c = false

section Append

variable (rest : Bytes) (hrest : Ends rest)
include hrest

theorem readDigits_append (s : Bytes) : readDigits (s ++ rest) = ((readDigits s).1, (readDigits s).2 ++ rest) := by
  induction s with
  | nil =>
    cases rest with
    | nil => rfl
    | cons c rest =>
      have hc : isDigit c = false := by
        have hnone := hrest c rfl
        simp only [isNumberByte, Bool.or_eq_false_iff] at hnone
        exact hnone.1.1.1.1.1
      rw [List.nil_append, readDigits, List.takeWhile_cons_of_neg (by simp [hc]), List.dropWhile_cons_of_neg (by simp [hc])]
      rfl
  | cons c s ih =>
    by_cases hc : isDigit c = true
    · have h1 := congrArg Prod.fst ih
      have h2 := congrArg Prod.snd ih
      simp only [readDigits] at h1 h2
      simp only [readDigits, List.cons_append, List.takeWhile_cons_of_pos hc, List.dropWhile_cons_of_pos hc, h1, h2]
    · simp only [readDigits, List.cons_append, List.takeWhile_cons_of_neg hc, List.dropWhile_cons_of_neg hc]

theorem readFraction_append (s : Bytes) :
    readFraction (s ++ rest) = ((readFraction s).1, (readFraction s).2 ++ rest) := by
  cases s with
  | nil =>
    cases rest with
    | nil => rfl
    | cons c rest =>
      have hc : c ≠ 46 := by
        rintro rfl
        cases hrest 46 rfl
      simp [readFraction, hc]
  | cons c s =>
    by_cases hc : c = 46
    · subst hc
      simp only [List.cons_append, readFraction, readDigits_append rest hrest s]
    · simp [readFraction, hc]

theorem readSign_append (s : Bytes) : readSign (s ++ rest) = ((readSign s).1, (readSign s).2 ++ rest) := by
  cases s with
  | nil =>
    cases rest with
    | nil => rfl
    | cons c rest =>
      have hplus : c ≠ 43 := by
        rintro rfl
        cases hrest 43 rfl
      have hminus : c ≠ 45 := by
        rintro rfl
        cases hrest 45 rfl
      simp [readSign, hplus, hminus]
  | cons c s =>
    by_cases hplus : c = 43
    · subst hplus
      rfl
    · by_cases hminus : c = 45
      · subst hminus
        rfl
      · simp [readSign, hplus, hminus]

theorem readExponent_append (s : Bytes) :
    readExponent (s ++ rest) = ((readExponent s).1, (readExponent s).2 ++ rest) := by
  cases s with
  | nil =>
    cases rest with
    | nil => rfl
    | cons c rest =>
      have hc : ¬ (c = 101 ∨ c = 69) := by
        rintro (rfl | rfl)
        · cases hrest 101 rfl
        · cases hrest 69 rfl
      rw [List.nil_append, readExponent, if_neg hc]
      rfl
  | cons c s =>
    rw [List.cons_append, readExponent, readExponent]
    split_ifs
    · simp only [readSign_append rest hrest, readDigits_append rest hrest]
    · rfl

theorem readNumber_append (s : Bytes) : readNumber (s ++ rest) = ((readNumber s).1, (readNumber s).2 ++ rest) := by
  simp only [readNumber, readDigits_append rest hrest, readFraction_append rest hrest, readExponent_append rest hrest]

end Append

/-- The text is one token, to its end. -/
structure IsNumberText (text : Bytes) : Prop where
  starts : ∃ c s, text = c :: s ∧ (isDigit c = true ∨ c = 45)
  whole : readNumber text.tail = (text.tail, [])

theorem digit_toNat (c : UInt8) (h : isDigit c = true) : 48 ≤ c.toNat ∧ c.toNat ≤ 57 := by
  simp only [isDigit, Bool.and_eq_true, decide_eq_true_eq] at h
  exact ⟨UInt8.le_iff_toNat_le.mp h.1, UInt8.le_iff_toNat_le.mp h.2⟩

/-- The first byte of a number begins no other token. -/
theorem readToken_digit (c : UInt8) (s : Bytes) (h : isDigit c = true ∨ c = 45) :
    readToken (c :: s) = (.number (c :: (readNumber s).1), (readNumber s).2) := by
  have hc : c.toNat = 45 ∨ 48 ≤ c.toNat ∧ c.toNat ≤ 57 := h.symm.imp (fun hc => by rw [hc]; rfl) (digit_toNat c)
  have hne : ∀ d : UInt8, d.toNat ≠ 45 → (d.toNat < 48 ∨ 57 < d.toNat) → c ≠ d := by
    rintro d h45 hout rfl
    omega
  have hspace : isSpace c = false := by
    simp [isSpace, hne 32 (by decide) (by decide), hne 9 (by decide) (by decide), hne 13 (by decide) (by decide),
      hne 10 (by decide) (by decide)]
  have hskip : skipSpaces (c :: s) = c :: s := List.dropWhile_cons_of_neg (by simp [hspace])
  have h123 := hne 123 (by decide) (by decide)
  have h125 := hne 125 (by decide) (by decide)
  have h91 := hne 91 (by decide) (by decide)
  have h93 := hne 93 (by decide) (by decide)
  have h34 := hne 34 (by decide) (by decide)
  have h47 := hne 47 (by decide) (by decide)
  have h116 := hne 116 (by decide) (by decide)
  have h102 := hne 102 (by decide) (by decide)
  have h110 := hne 110 (by decide) (by decide)
  have h44 := hne 44 (by decide) (by decide)
  have h58 := hne 58 (by decide) (by decide)
  have h0 := hne 0 (by decide) (by decide)
  simp only [readToken, hskip]
  split <;> simp_all

theorem readToken_number (text rest : Bytes) (h : IsNumberText text) (hrest : Ends rest) :
    readToken (text ++ rest) = (.number text, rest) := by
  obtain ⟨c, s, rfl, hc⟩ := h.starts
  have hwhole : readNumber s = (s, []) := h.whole
  rw [List.cons_append, readToken_digit c _ hc, readNumber_append rest hrest, hwhole]
  rfl

theorem readNumber_digits (ds : Bytes) (h : ∀ b ∈ ds, isDigit b = true) : readNumber ds = (ds, []) := by
  have htake : ds.takeWhile isDigit = ds := List.takeWhile_eq_self_iff.mpr h
  have hdrop : ds.dropWhile isDigit = [] := List.dropWhile_eq_nil_iff.mpr h
  simp only [readNumber, readDigits, htake, hdrop, readFraction, readExponent, List.append_nil]

theorem isNumberText_decimalNat (n : ℕ) : IsNumberText (decimalNat n) := by
  have hdigits := Decimal.decimalNat_digits n
  cases hd : decimalNat n with
  | nil => exact absurd hd (Decimal.decimalNat_ne_nil n)
  | cons c s =>
    rw [hd] at hdigits
    obtain ⟨hc, hs⟩ := List.forall_mem_cons.mp hdigits
    exact ⟨⟨c, s, rfl, .inl hc⟩, readNumber_digits s hs⟩

theorem isNumberText_negative (n : ℕ) : IsNumberText (45 :: decimalNat n) :=
  ⟨⟨45, _, rfl, .inr rfl⟩, readNumber_digits _ (Decimal.decimalNat_digits n)⟩

theorem isNumberText_decimal (n : ℤ) : IsNumberText (decimal n) := by
  rw [decimal]
  split_ifs
  · exact isNumberText_negative _
  · exact isNumberText_decimalNat _

/-- The value that digits add to one in front of them. -/
def shifted (value : ℕ) (ds : Bytes) : ℕ := ds.foldl (fun acc b => 10 * acc + (b.toNat - 48)) value

theorem le_shifted (value : ℕ) (ds : Bytes) : value ≤ shifted value ds := by
  induction ds generalizing value with
  | nil => exact le_rfl
  | cons c ds ih =>
    have hrest := ih (10 * value + (c.toNat - 48))
    change value ≤ shifted (10 * value + (c.toNat - 48)) ds
    omega

/-- Digits that stay below the maximum never leave the loop. -/
theorem integerValue_digits (limit : ℕ) (hlimit : 10 ≤ limit) (ds : Bytes) (hds : ∀ b ∈ ds, isDigit b = true)
    (value : ℕ) (h : shifted value ds ≤ limit) : integerValue limit ds value = some (shifted value ds) := by
  induction ds generalizing value with
  | nil => rfl
  | cons c ds ih =>
    obtain ⟨hc, hds⟩ := List.forall_mem_cons.mp hds
    have hdigit := digit_toNat c hc
    have hnext : shifted (10 * value + (c.toNat - 48)) ds ≤ limit := h
    have hkept : ¬ (limit / 10 ≤ value ∧
        (limit / 10 < value ∨ ds ≠ [] ∨ limit % 10 < c.toNat - 48)) := by
      rintro ⟨hle, hcase⟩
      have hvalue := le_shifted (10 * value + (c.toNat - 48)) ds
      rcases hcase with hlt | hmore | hover
      · omega
      · cases ds with
        | nil => exact hmore rfl
        | cons d ds =>
          have hagain := le_shifted (10 * (10 * value + (c.toNat - 48)) + (d.toNat - 48)) ds
          have hlast : shifted (10 * (10 * value + (c.toNat - 48)) + (d.toNat - 48)) ds ≤ limit := h
          omega
      · omega
    rw [integerValue, if_pos hc]
    dsimp only
    rw [if_neg hkept, mul_comm value 10]
    exact ih hds _ hnext

theorem integerValue_decimalNat (limit n : ℕ) (hlimit : 10 ≤ limit) (h : n ≤ limit) :
    integerValue limit (decimalNat n) 0 = some n := by
  have hvalue : shifted 0 (decimalNat n) = n := Decimal.digitsValue_decimalNat n
  have hread := integerValue_digits limit hlimit (decimalNat n) (Decimal.decimalNat_digits n) 0 (by rw [hvalue]; exact h)
  rw [hread, hvalue]

section Decode

variable {R : Type} (scan : Bytes → Option R)

theorem decodeNumber_decimalNat (n : ℕ) (h : n ≤ maxLargestUInt) :
    decodeNumber scan (decimalNat n) = some (if n ≤ maxInt then .int n else .uint n) := by
  have hhead : (decimalNat n).head? ≠ some 45 := (Decimal.unsigned_decimalNat n).2
  rw [decodeNumber, if_neg hhead, integerValue_decimalNat _ n (by decide) h]

theorem decodeNumber_negative (n : ℕ) (h : n ≤ maxLargestInt + 1) :
    decodeNumber scan (45 :: decimalNat n) = some (.int (-n)) := by
  have hhead : (45 :: decimalNat n).head? = some 45 := rfl
  rw [decodeNumber, if_pos hhead, List.tail_cons, integerValue_decimalNat _ n (by decide) h]

/-- What is read of an integer that was written: a type of its own for those above `maxInt`. -/
def readInt (n : ℤ) : Doc R := if n ≤ maxInt then .int n else .uint n.toNat

theorem decodeNumber_decimal (n : ℤ) (hlow : -(maxLargestInt + 1 : ℤ) ≤ n) (hhigh : n ≤ maxLargestUInt) :
    decodeNumber scan (decimal n) = some (readInt n) := by
  rw [decimal, readInt]
  split_ifs with hneg hle hle
  · rw [decodeNumber_negative scan _ (by omega)]
    congr 2
    omega
  · exact absurd hle (by have := Nat.zero_le maxInt; omega)
  · rw [decodeNumber_decimalNat scan _ (by omega), if_pos (by omega)]
    congr 2
    omega
  · rw [decodeNumber_decimalNat scan _ (by omega), if_neg (by omega)]
    congr 2
    omega

end Decode

end BitPark.JsonTokens
