import Mathlib
import BitPark.Decimal

namespace BitPark.SqlText

open BitPark.Decimal

/-! The text of a statement as the server reads it. Only the rules of string
literals matter here, so everything outside of them stays a sequence of bytes. -/

inductive Token where
  | byte (b : UInt8)
  | literal (value : Bytes)
deriving DecidableEq, Repr

/-- Where a reader stands: in a literal with what it holds so far, behind a
backslash there, or behind a quote that may close the literal. -/
inductive Place where
  | code
  | inside (quote : UInt8) (value : Bytes)
  | escaped (quote : UInt8) (value : Bytes)
  | closing (quote : UInt8) (value : Bytes)

def isQuote (b : UInt8) : Bool := b = 39 || b = 34

/-- What a backslash makes of the byte behind it. In front of a wildcard it stays. -/
def unescape (b : UInt8) : Bytes :=
  if b = 48 then [0]
  else if b = 98 then [8]
  else if b = 110 then [10]
  else if b = 114 then [13]
  else if b = 116 then [9]
  else if b = 90 then [26]
  else if b = 37 ∨ b = 95 then [92, b]
  else [b]

/-- The tokens of a text, or nothing if a literal is not closed. A quote that
stands twice in a literal quoted by it stands for itself. -/
def lex : Place → Bytes → Option (List Token)
  | .code, [] => some []
  | .code, b :: bs =>
    if isQuote b then lex (.inside b []) bs else (lex .code bs).map (.byte b :: ·)
  | .inside _ _, [] => none
  | .inside q v, b :: bs =>
    if b = q then lex (.closing q v) bs
    else if b = 92 then lex (.escaped q v) bs
    else lex (.inside q (v ++ [b])) bs
  | .escaped _ _, [] => none
  | .escaped q v, b :: bs => lex (.inside q (v ++ unescape b)) bs
  | .closing _ v, [] => some [.literal v]
  | .closing q v, b :: bs =>
    if b = q then lex (.inside q (v ++ [q])) bs
    else if isQuote b then (lex (.inside b []) bs).map (.literal v :: ·)
    else (lex .code bs).map ([.literal v, .byte b] ++ ·)

def tokenize (text : Bytes) : Option (List Token) := lex .code text

/-- A part of a statement: fixed text, or a value that is put between single quotes. -/
inductive Piece where
  | code (text : Bytes)
  | literal (value : Bytes)

def Piece.text : Piece → Bytes
  | .code text => text
  | .literal value => 39 :: value ++ [39]

def Piece.tokens : Piece → List Token
  | .code text => text.map .byte
  | .literal value => [.literal value]

def Piece.value? : Piece → Option Bytes
  | .code _ => none
  | .literal value => some value

def render (ps : List Piece) : Bytes := ps.flatMap Piece.text

def template (ps : List Piece) : List Token := ps.flatMap Piece.tokens

/-- The values a statement is given. -/
def values (ps : List Piece) : List Bytes := ps.filterMap Piece.value?

theorem values_code (text : Bytes) (ps : List Piece) : values (.code text :: ps) = values ps :=
  List.filterMap_cons_none rfl

theorem values_literal (value : Bytes) (ps : List Piece) :
    values (.literal value :: ps) = value :: values ps :=
  List.filterMap_cons_some rfl

/-- The bytes with a meaning of their own inside a literal in single quotes. -/
def special (b : UInt8) : Bool := b = 39 || b = 92

/-- No single quote, and no backslash that is not in front of a wildcard. -/
def Plain : Bytes → Prop
  | [] => True
  | b :: bs => b ≠ 39 ∧ (b = 92 → bs.head? = some 37 ∨ bs.head? = some 95) ∧ Plain bs

instance decidablePlain : (bs : Bytes) → Decidable (Plain bs)
  | [] => inferInstanceAs (Decidable True)
  | _ :: bs => haveI := decidablePlain bs; inferInstanceAs (Decidable (_ ∧ _ ∧ _))

theorem plain_of_unspecial (bs : Bytes) (h : ∀ b ∈ bs, special b = false) : Plain bs := by
  induction bs with
  | nil => trivial
  | cons b bs ih =>
    obtain ⟨hb, hbs⟩ := List.forall_mem_cons.mp h
    simp only [special, Bool.or_eq_false_iff, decide_eq_false_iff_not] at hb
    exact ⟨hb.1, fun he => absurd he hb.2, ih hbs⟩

/-- Fixed text has no quotes, and what follows a value can neither double its
closing quote nor be taken for one. -/
def Separated : List Piece → Prop
  | [] => True
  | .code text :: ps => (∀ b ∈ text, isQuote b = false) ∧ Separated ps
  | .literal _ :: ps => (∀ b, (render ps).head? = some b → isQuote b = false ∧ b ≠ 92) ∧ Separated ps

/-! Reading back what was rendered. -/

theorem lex_code (text s : Bytes) (h : ∀ b ∈ text, isQuote b = false) :
    lex .code (text ++ s) = (lex .code s).map (text.map .byte ++ ·) := by
  induction text with
  | nil => simp
  | cons b bs ih =>
    obtain ⟨hb, hbs⟩ := List.forall_mem_cons.mp h
    rw [List.cons_append, lex, hb, if_neg (by decide), ih hbs, Option.map_map]
    rfl

theorem lex_closing (v s : Bytes) (h : ∀ b, s.head? = some b → isQuote b = false) :
    lex (.closing 39 v) s = (lex .code s).map (.literal v :: ·) := by
  cases s with
  | nil => rfl
  | cons b bs =>
    have hb := h b rfl
    have hne : b ≠ 39 := by
      rintro rfl
      exact absurd hb (by decide)
    rw [lex, lex, if_neg hne, hb]
    simp [Function.comp_def]

/-- A byte that is no quote and no backslash stands for itself, and so does a
backslash in front of a wildcard. -/
theorem lex_itself (v bs s : Bytes) (b : UInt8) (hq : b ≠ 39)
    (hb : b = 92 → bs.head? = some 37 ∨ bs.head? = some 95) :
    lex (.inside 39 v) (b :: bs ++ s) = lex (.inside 39 (v ++ [b])) (bs ++ s) := by
  rw [List.cons_append, lex, if_neg hq]
  by_cases he : b = 92
  · rw [if_pos he]
    subst he
    cases bs with
    | nil => simp at hb
    | cons c cs =>
      have hc : c = 37 ∨ c = 95 := by simpa using hb
      rcases hc with rfl | rfl <;> simp [lex, unescape]
  · rw [if_neg he]

theorem lex_plain (v a rest : Bytes) (h : Plain a) :
    lex (.inside 39 v) (a ++ 39 :: rest) = lex (.closing 39 (v ++ a)) rest := by
  induction a generalizing v with
  | nil => simp [lex]
  | cons b bs ih =>
    obtain ⟨hq, hb, hbs⟩ := h
    have hv : v ++ b :: bs = v ++ [b] ++ bs := by simp
    rw [lex_itself v bs _ b hq hb, ih _ hbs, hv]

/-- What a place in a literal has read of it. -/
def Place.value : Place → Bytes
  | .code => []
  | .inside _ v | .escaped _ v | .closing _ v => v

theorem value_of_lex (p : Place) (s w : Bytes) (toks : List Token)
    (h : lex p s = some (.literal w :: toks)) : p.value <+: w := by
  induction s generalizing p with
  | nil =>
    cases p with
    | closing q v =>
      simp only [lex, Option.some.injEq, List.cons.injEq, Token.literal.injEq] at h
      exact h.1 ▸ List.prefix_refl v
    | _ => simp [lex] at h
  | cons b bs ih =>
    cases p with
    | code => exact List.nil_prefix
    | inside q v =>
      rw [lex] at h
      split_ifs at h
      · exact ih (.closing q v) h
      · exact ih (.escaped q v) h
      · exact (List.prefix_append v [b]).trans (ih _ h)
    | escaped q v =>
      rw [lex] at h
      exact (List.prefix_append v _).trans (ih _ h)
    | closing q v =>
      rw [lex] at h
      split_ifs at h
      · exact (List.prefix_append v [q]).trans (ih _ h)
      all_goals
        obtain ⟨ts, -, he⟩ := Option.map_eq_some_iff.mp h
        simp only [List.cons_append, List.cons.injEq, Token.literal.injEq] at he
        exact he.1 ▸ List.prefix_refl v

theorem unescape_special (d c : UInt8) (w : Bytes) (hc : special c = true) (h : unescape d <+: c :: w) :
    d = c ∨ (c = 92 ∧ (d = 37 ∨ d = 95) ∧ w.head? = some d) := by
  simp only [special, Bool.or_eq_true, decide_eq_true_eq] at hc
  unfold unescape at h
  split_ifs at h with h1 h2 h3 h4 h5 h6 h7
  all_goals obtain ⟨t, ht⟩ := h
  all_goals simp only [List.cons_append, List.nil_append, List.cons.injEq] at ht
  -- a named escape stands for a control character
  iterate 6
    · obtain ⟨rfl, -⟩ := ht
      exact absurd hc (by decide)
  · obtain ⟨rfl, rfl⟩ := ht
    exact Or.inr ⟨rfl, h7, rfl⟩
  · exact Or.inl ht.1

/-- To read a quote or a backslash takes two bytes, the first of them
special. Unless they are a backslash and a wildcard, so is the second. -/
theorem lex_special (v w s : Bytes) (c : UInt8) (hc : special c = true) (toks : List Token)
    (h : lex (.inside 39 v) s = some (.literal (v ++ c :: w) :: toks)) :
    ∃ x y s', s = x :: y :: s' ∧ special x = true ∧
      ((special y = true ∧ lex (.inside 39 (v ++ [c])) s' = some (.literal (v ++ c :: w) :: toks)) ∨
        c = 92 ∧ (y = 37 ∨ y = 95) ∧ w.head? = some y) := by
  cases s with
  | nil => simp [lex] at h
  | cons x s =>
    rw [lex] at h
    split_ifs at h with h1 h2
    · -- a quote that ended the literal would leave out the byte that is wanted
      cases s with
      | nil => simp [lex] at h
      | cons y s' =>
        rw [lex] at h
        split_ifs at h with h3 h4
        · have hp := value_of_lex _ _ _ _ h
          simp only [Place.value, List.prefix_append_right_inj, List.cons_prefix_cons] at hp
          obtain ⟨rfl, -⟩ := hp
          subst h1 h3
          exact ⟨39, 39, s', rfl, by decide, Or.inl ⟨by decide, h⟩⟩
        all_goals
          obtain ⟨ts, -, he⟩ := Option.map_eq_some_iff.mp h
          simp at he
    · cases s with
      | nil => simp [lex] at h
      | cons y s' =>
        rw [lex] at h
        have hp := value_of_lex _ _ _ _ h
        rw [Place.value, List.prefix_append_right_inj] at hp
        subst h2
        refine ⟨92, y, s', rfl, by decide, ?_⟩
        rcases unescape_special y c w hc hp with rfl | hw
        · refine Or.inl ⟨hc, ?_⟩
          have hu : unescape y = [y] := by
            simp only [special, Bool.or_eq_true, decide_eq_true_eq] at hc
            rcases hc with rfl | rfl <;> decide
          rwa [hu] at h
        · exact Or.inr hw
    · have hp := value_of_lex _ _ _ _ h
      simp only [Place.value, List.prefix_append_right_inj, List.cons_prefix_cons] at hp
      obtain ⟨rfl, -⟩ := hp
      simp [special, h1, h2] at hc

/-- A value whose first byte already is not read as it stands. -/
def Broken : Bytes → Prop
  | [] => False
  | b :: bs => special b = true ∧ (b = 92 → ¬ (bs.head? = some 37 ∨ bs.head? = some 95))

/-- If a broken value were read back as it is, the reader would stay two bytes
ahead for every byte read, and all bytes it passes would be special. -/
theorem special_run (u rest v : Bytes) (toks : List Token) (hb : Broken u)
    (h : lex (.inside 39 v) (u ++ 39 :: rest) = some (.literal (v ++ u) :: toks)) (k : ℕ) (hk : k ≤ u.length) :
    (∀ i < 2 * k, ∃ b, (u ++ 39 :: rest)[i]? = some b ∧ special b = true) ∧
      lex (.inside 39 (v ++ u.take k)) ((u ++ 39 :: rest).drop (2 * k)) = some (.literal (v ++ u) :: toks) := by
  induction k with
  | zero => simpa using h
  | succ k ih =>
    obtain ⟨hrun, hlex⟩ := ih (by omega)
    have hlt : k < u.length := by omega
    have hin : ∀ i, i < u.length → (u ++ 39 :: rest)[i]? = u[i]? := fun i hi => List.getElem?_append_left hi
    have hw : v ++ u = v ++ u.take k ++ u[k] :: u.drop (k + 1) := by
      rw [List.append_assoc, ← List.drop_eq_getElem_cons hlt, List.take_append_drop]
    have hc : special u[k] = true := by
      cases k with
      | zero =>
        cases u with
        | nil => exact absurd hlt (by simp)
        | cons b bs => exact hb.1
      | succ k =>
        obtain ⟨b, hget, hs⟩ := hrun (k + 1) (by omega)
        rw [hin _ hlt, List.getElem?_eq_getElem hlt, Option.some.injEq] at hget
        rw [hget]
        exact hs
    rw [hw] at hlex
    obtain ⟨x, y, s', hs, hx, hy⟩ := lex_special _ _ _ _ hc toks hlex
    have hdrop : ∀ i, (u ++ 39 :: rest)[2 * k + i]? = (x :: y :: s')[i]? := fun i => by
      rw [← hs, List.getElem?_drop]
    rcases hy with ⟨hy, hnext⟩ | ⟨hc', hwild, hhead⟩
    · refine ⟨fun i hi => ?_, ?_⟩
      · rcases Nat.lt_or_ge i (2 * k) with h1 | h1
        · exact hrun i h1
        · obtain rfl | rfl : i = 2 * k + 0 ∨ i = 2 * k + 1 := by omega
          · exact ⟨x, hdrop 0, hx⟩
          · exact ⟨y, hdrop 1, hy⟩
      · rw [← hw] at hnext
        have htake : u.take (k + 1) = u.take k ++ [u[k]] := by rw [List.take_concat_get']
        have hd : (u ++ 39 :: rest).drop (2 * (k + 1)) = s' := by
          rw [show 2 * (k + 1) = 2 * k + 2 by ring, ← List.drop_drop, hs]
          rfl
        rw [htake, hd, ← List.append_assoc]
        exact hnext
    · -- the wildcard would be the next byte of the value, which lies in the run
      exfalso
      have hy' : special y = false := by rcases hwild with rfl | rfl <;> decide
      rw [List.head?_drop] at hhead
      have hlt' : k + 1 < u.length := (List.getElem?_eq_some_iff.mp hhead).1
      cases k with
      | zero =>
        cases u with
        | nil => exact absurd hlt (by simp)
        | cons b bs =>
          refine hb.2 hc' ?_
          rw [List.getElem?_cons_succ, ← List.head?_eq_getElem?] at hhead
          rw [hhead]
          rcases hwild with rfl | rfl <;> simp
      | succ k =>
        have hspec : ∃ b, (u ++ 39 :: rest)[k + 1 + 1]? = some b ∧ special b = true := by
          rcases Nat.lt_or_ge (k + 1 + 1) (2 * (k + 1)) with h1 | h1
          · exact hrun _ h1
          · obtain rfl : k = 0 := by omega
            exact ⟨x, hdrop 0, hx⟩
        obtain ⟨b, hget, hsb⟩ := hspec
        rw [hin _ hlt', hhead, Option.some.injEq] at hget
        rw [← hget, hy'] at hsb
        exact absurd hsb (by decide)

theorem not_broken (u rest v : Bytes) (toks : List Token)
    (hr : ∀ b, rest.head? = some b → special b = false)
    (h : lex (.inside 39 v) (u ++ 39 :: rest) = some (.literal (v ++ u) :: toks)) : ¬ Broken u := by
  intro hb
  obtain ⟨hrun, hend⟩ := special_run u rest v toks hb h u.length le_rfl
  have hne : u ≠ [] := by
    rintro rfl
    exact hb
  have hlen := List.length_pos_iff.mpr hne
  rcases Nat.lt_or_ge 1 u.length with h2 | h1
  · -- the run reaches the byte behind the closing quote
    obtain ⟨b, hget, hs⟩ := hrun (u.length + 1) (by omega)
    rw [List.getElem?_append_right (by omega), Nat.add_sub_cancel_left, List.getElem?_cons_succ,
      ← List.head?_eq_getElem?] at hget
    rw [hr b hget] at hs
    exact absurd hs (by decide)
  · -- a single quote was doubled by the closing one, so nothing closes the literal
    have hd : (u ++ 39 :: rest).drop (2 * u.length) = rest := by
      rw [show 2 * u.length = u.length + 1 by omega, ← List.drop_drop, List.drop_left]
      rfl
    rw [List.take_length, hd] at hend
    cases rest with
    | nil => simp [lex] at hend
    | cons b bs =>
      have hs := hr b rfl
      simp only [special, Bool.or_eq_false_iff, decide_eq_false_iff_not] at hs
      rw [lex, if_neg hs.1, if_neg hs.2] at hend
      have hp := (value_of_lex _ _ _ _ hend).length_le
      simp [Place.value] at hp

theorem plain_of_lex (a rest v : Bytes) (toks : List Token)
    (hr : ∀ b, rest.head? = some b → special b = false)
    (h : lex (.inside 39 v) (a ++ 39 :: rest) = some (.literal (v ++ a) :: toks)) : Plain a := by
  induction a generalizing v with
  | nil => trivial
  | cons b bs ih =>
    have hb := not_broken (b :: bs) rest v toks hr h
    simp only [Broken, not_and, Classical.not_imp, not_not] at hb
    have hq : b ≠ 39 := by
      rintro rfl
      exact absurd (hb (by decide)).1 (by decide)
    refine ⟨hq, fun he => (hb (by simp [special, he])).2, ih (v ++ [b]) ?_⟩
    have hv : v ++ [b] ++ bs = v ++ b :: bs := by simp
    rw [hv, ← lex_itself v bs _ b hq fun he => (hb (by simp [special, he])).2]
    exact h

/-- A statement is read as its template with the given values in it exactly
if all these values are plain. -/
theorem tokenize_render (ps : List Piece) (hs : Separated ps) :
    tokenize (render ps) = some (template ps) ↔ ∀ v ∈ values ps, Plain v := by
  rw [tokenize]
  induction ps with
  | nil => simp [render, template, values, lex]
  | cons p ps ih =>
    cases p with
    | code text =>
      obtain ⟨ht, hps⟩ := hs
      have hl : lex .code (render (.code text :: ps)) = (lex .code (render ps)).map (text.map .byte ++ ·) :=
        lex_code text (render ps) ht
      have ht : template (.code text :: ps) = text.map .byte ++ template ps := rfl
      rw [hl, ht, values_code, ← ih hps, Option.map_eq_some_iff]
      simp
    | literal value =>
      obtain ⟨hsep, hps⟩ := hs
      have hr : render (.literal value :: ps) = 39 :: (value ++ 39 :: render ps) := by
        simp [render, Piece.text]
      have ht : template (.literal value :: ps) = .literal value :: template ps := rfl
      have hl : Plain value → lex .code (render (.literal value :: ps)) =
          (lex .code (render ps)).map (.literal value :: ·) := by
        intro hp
        rw [hr, lex, if_pos (by decide), lex_plain [] value (render ps) hp,
          lex_closing _ _ fun b hb => (hsep b hb).1]
        rfl
      rw [ht, values_literal, List.forall_mem_cons, ← ih hps]
      constructor
      · intro h
        have hp : Plain value := by
          rw [hr, lex, if_pos (by decide)] at h
          apply plain_of_lex value (render ps) [] (template ps) _ h
          intro b hb
          obtain ⟨h1, h2⟩ := hsep b hb
          simp only [isQuote, Bool.or_eq_false_iff, decide_eq_false_iff_not] at h1
          simp [special, h1.1, h2]
        rw [hl hp, Option.map_eq_some_iff] at h
        obtain ⟨ts, hts, he⟩ := h
        rw [hts, (List.cons.inj he).2]
        exact ⟨hp, rfl⟩
      · rintro ⟨hp, h⟩
        rw [hl hp, h]
        rfl

end BitPark.SqlText
