import Mathlib

namespace BitPark.LikePattern

/-! Patterns with a sign for any one character, on the bytes of a text. -/

variable {α : Type}

/-- The pattern fits the text, character by character. -/
def Fits (pattern : List (Option α)) (text : List α) : Prop :=
  List.Forall₂ (fun p c => p = none ∨ p = some c) pattern text

/-- The text as a pattern, with any character in one position. -/
def mask (text : List α) (i : ℕ) : List (Option α) := (text.map some).set i none

theorem fits_map_some (s t : List α) : Fits (s.map some) t ↔ t = s := by
  rw [Fits, List.forall₂_map_left_iff]
  simp only [reduceCtorEq, false_or, Option.some.injEq]
  rw [List.forall₂_eq_eq_eq, eq_comm]

theorem fits_mask_iff (s t : List α) (i : ℕ) (hi : i < s.length) : Fits (mask s i) t ↔ ∃ c, t = s.set i c := by
  induction s generalizing i t with
  | nil => cases hi
  | cons a s ih =>
    cases t with
    | nil =>
      refine iff_of_false (fun h => ?_) ?_
      · have hlen := h.length_eq
        simp [mask] at hlen
      · rintro ⟨c, hc⟩
        cases i <;> cases hc
    | cons b t =>
      cases i with
      | zero =>
        have hfits : Fits (mask (a :: s) 0) (b :: t) ↔ Fits (s.map some) t := by
          rw [Fits, mask, List.map_cons, List.set_cons_zero, List.forall₂_cons, or_iff_left (by simp)]
          exact and_iff_right rfl
        rw [hfits, fits_map_some]
        simp
      | succ i =>
        have hfits : Fits (mask (a :: s) (i + 1)) (b :: t) ↔ b = a ∧ Fits (mask s i) t := by
          rw [Fits, mask, List.map_cons, List.set_cons_succ, List.forall₂_cons]
          simp [Fits, mask, eq_comm]
        rw [hfits, ih t i (Nat.lt_of_succ_lt_succ hi)]
        simp

theorem fits_append_any (s t : List α) : Fits (s.map some ++ [none]) t ↔ ∃ c, t = s ++ [c] := by
  induction s generalizing t with
  | nil =>
    rw [List.map_nil, List.nil_append, Fits, List.forall₂_cons_left_iff]
    simp
  | cons a s ih =>
    rw [List.map_cons, List.cons_append, Fits, List.forall₂_cons_left_iff]
    constructor
    · rintro ⟨b, u, hb, hu, rfl⟩
      obtain rfl : a = b := by simpa using hb
      obtain ⟨c, rfl⟩ := (ih u).mp hu
      exact ⟨c, rfl⟩
    · rintro ⟨c, rfl⟩
      exact ⟨a, s ++ [c], .inr rfl, (ih _).mpr ⟨c, rfl⟩, rfl⟩

section Distance

variable [DecidableEq α]

/-- As many characters, and different ones in at most one position. -/
def WithinOne (s t : List α) : Prop := s.length = t.length ∧ (s.zip t).countP (fun p => p.1 ≠ p.2) ≤ 1

instance (s t : List α) : Decidable (WithinOne s t) := inferInstanceAs (Decidable (_ ∧ _))

theorem no_difference (s t : List α) (hlen : s.length = t.length) :
    (s.zip t).countP (fun p => p.1 ≠ p.2) = 0 ↔ t = s := by
  induction s generalizing t with
  | nil =>
    have ht : t = [] := List.length_eq_zero_iff.mp hlen.symm
    subst ht
    simp
  | cons a s ih =>
    cases t with
    | nil => cases hlen
    | cons b t =>
      have hrest := ih t (Nat.succ.inj hlen)
      rw [List.zip_cons_cons, List.countP_cons]
      by_cases hab : a = b
      · simpa [hab] using hrest
      · simp [hab, eq_comm]

theorem withinOne_cons (a b : α) (s t : List α) :
    WithinOne (a :: s) (b :: t) ↔ t = s ∨ b = a ∧ WithinOne s t := by
  rw [WithinOne, WithinOne, List.length_cons, List.length_cons, List.zip_cons_cons, List.countP_cons, Nat.succ_inj]
  by_cases hlen : s.length = t.length
  · have hnone := no_difference s t hlen
    by_cases hab : a = b
    · subst hab
      simp only [hlen, true_and, ne_eq, not_true_eq_false, decide_false, Bool.false_eq_true, ↓reduceIte, add_zero]
      exact ⟨.inr, fun h => h.elim (fun heq => (hnone.mpr heq).le.trans zero_le_one) id⟩
    · simp only [hlen, true_and, ne_eq, hab, not_false_eq_true, decide_true, ↓reduceIte, Ne.symm hab, false_and,
        or_false]
      rw [← hnone]
      simp
  · have hne : t ≠ s := by
      rintro rfl
      exact hlen rfl
    simp [hlen, hne]

/-- The texts within one character are those with one character set. -/
theorem withinOne_iff (s t : List α) (hs : s ≠ []) : WithinOne s t ↔ ∃ i < s.length, ∃ c, t = s.set i c := by
  induction s generalizing t with
  | nil => exact absurd rfl hs
  | cons a s ih =>
    cases t with
    | nil =>
      refine iff_of_false (fun h => by cases h.1) ?_
      rintro ⟨i, -, c, hc⟩
      cases i <;> cases hc
    | cons b t =>
      rw [withinOne_cons]
      constructor
      · rintro (rfl | ⟨rfl, h⟩)
        · exact ⟨0, Nat.succ_pos _, b, rfl⟩
        · by_cases hnil : s = []
          · subst hnil
            obtain rfl : t = [] := List.length_eq_zero_iff.mp h.1.symm
            exact ⟨0, Nat.succ_pos _, b, rfl⟩
          · obtain ⟨i, hi, c, rfl⟩ := (ih t hnil).mp h
            exact ⟨i + 1, Nat.succ_lt_succ hi, c, rfl⟩
      · rintro ⟨i, hi, c, hc⟩
        cases i with
        | zero =>
          obtain ⟨rfl, rfl⟩ := List.cons.inj hc
          exact .inl rfl
        | succ i =>
          have hlt := Nat.lt_of_succ_lt_succ hi
          have hnil : s ≠ [] := by
            rintro rfl
            cases hlt
          obtain ⟨rfl, rfl⟩ := List.cons.inj hc
          exact .inr ⟨rfl, (ih _ hnil).mpr ⟨i, hlt, c, rfl⟩⟩

end Distance

/-! On bytes, a pattern is a text of UTF-8. -/

def anyCharacter : UInt8 := 95

/-- Whether the bytes of a pattern match the characters of a text. -/
def like : List UInt8 → List Char → Bool
  | pattern, [] => pattern.isEmpty
  | [], _ :: _ => false
  | b :: pattern, c :: text =>
    if b = anyCharacter then like pattern text
    else (String.utf8EncodeChar c).isPrefixOf (b :: pattern) &&
      like ((b :: pattern).drop (String.utf8EncodeChar c).length) text

def encode (pattern : List (Option Char)) : List UInt8 :=
  pattern.flatMap fun p => p.elim [anyCharacter] String.utf8EncodeChar

theorem encode_append (p q : List (Option Char)) : encode (p ++ q) = encode p ++ encode q := List.flatMap_append

theorem encode_map_some (text : List Char) : encode (text.map some) = text.flatMap String.utf8EncodeChar := by
  rw [encode, List.flatMap_map]
  rfl

/-- No encoding of a character is the beginning of another one. -/
theorem utf8EncodeChar_append_inj (c d : Char) (x y : List UInt8)
    (h : String.utf8EncodeChar c ++ x = String.utf8EncodeChar d ++ y) : c = d := by
  have hdecode := congrArg (fun l : List UInt8 => l.toByteArray.utf8DecodeChar? 0) h
  simp only [List.toByteArray_append, ByteArray.utf8DecodeChar?_utf8EncodeChar_append] at hdecode
  exact Option.some.inj hdecode

theorem utf8EncodeChar_ne_nil (c : Char) : String.utf8EncodeChar c ≠ [] := by
  intro h
  have hlen := String.length_utf8EncodeChar c
  rw [h] at hlen
  exact absurd hlen.symm c.utf8Size_pos.ne'

theorem like_literal (c d : Char) (pattern : List UInt8) (text : List Char) (hd : d ≠ '_') :
    like (String.utf8EncodeChar d ++ pattern) (c :: text) = true ↔ d = c ∧ like pattern text = true := by
  match hb : String.utf8EncodeChar d with
  | [] => exact absurd hb (utf8EncodeChar_ne_nil d)
  | b :: rest =>
    have hb' : b ≠ anyCharacter := by
      rintro rfl
      apply hd
      apply utf8EncodeChar_append_inj d '_' [] rest
      rw [hb, List.append_nil]
      rfl
    rw [List.cons_append, like, if_neg hb', Bool.and_eq_true, List.isPrefixOf_iff_prefix, ← List.cons_append, ← hb]
    constructor
    · rintro ⟨⟨y, hy⟩, htext⟩
      obtain rfl := utf8EncodeChar_append_inj c d y pattern hy
      rw [List.drop_left] at htext
      exact ⟨rfl, htext⟩
    · rintro ⟨rfl, htext⟩
      rw [List.drop_left]
      exact ⟨List.prefix_append _ _, htext⟩

/-- A pattern whose literals are not the sign matches the texts that it fits. -/
theorem like_encode (pattern : List (Option Char)) (hpattern : some '_' ∉ pattern) (text : List Char) :
    like (encode pattern) text = true ↔ Fits pattern text := by
  induction text generalizing pattern with
  | nil =>
    cases pattern with
    | nil => exact iff_of_true rfl .nil
    | cons p pattern =>
      refine iff_of_false (fun h => ?_) fun h => by cases h
      rw [encode, like, List.isEmpty_iff, List.flatMap_cons, List.append_eq_nil_iff] at h
      cases p with
      | none => cases h.1
      | some d => exact utf8EncodeChar_ne_nil d h.1
  | cons c text ih =>
    cases pattern with
    | nil => exact iff_of_false (by simp [encode, like]) fun h => by cases h
    | cons p pattern =>
      have hrest := ih pattern fun h => hpattern (List.mem_cons_of_mem p h)
      rw [Fits, List.forall₂_cons]
      cases p with
      | none =>
        have hlike : like (encode (none :: pattern)) (c :: text) = like (encode pattern) text := by
          change like (anyCharacter :: encode pattern) (c :: text) = like (encode pattern) text
          rw [like, if_pos rfl]
        rw [hlike, hrest]
        exact (and_iff_right (.inl rfl)).symm
      | some d =>
        have hd : d ≠ '_' := by
          rintro rfl
          exact hpattern List.mem_cons_self
        change like (String.utf8EncodeChar d ++ encode pattern) (c :: text) = true ↔ _
        rw [like_literal c d _ text hd, hrest, Fits]
        simp

end BitPark.LikePattern
