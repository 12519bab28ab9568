import BitPark.JsonText

namespace BitPark.JsonReading

open BitPark.Decimal (Bytes isDigit)
open BitPark.JsonText

/-! The loops of the reader: what they consume, when they throw, and how long they run. -/

/-- The rest of a text that something was read from. -/
def Behind (s t : Bytes) : Prop := t <:+ s ∧ t.length < s.length

def isOpening (b : UInt8) : Bool := b = 91 || b = 123

/-- The brackets that open a container, wherever they stand. -/
def brackets (s : Bytes) : ℕ := s.countP isOpening

theorem brackets_suffix (s t : Bytes) (h : t <:+ s) : brackets t ≤ brackets s := h.sublist.countP_le

theorem behind_tail (c : UInt8) (s t : Bytes) (h : t <:+ s) : Behind (c :: s) t :=
  ⟨h.trans (List.suffix_cons c s), Nat.lt_succ_of_le h.length_le⟩

theorem behind_of_suffix (s t u : Bytes) (hst : t <:+ s) (htu : Behind t u) : Behind s u :=
  ⟨htu.1.trans hst, htu.2.trans_le hst.length_le⟩

theorem behind_then (s t u : Bytes) (hst : Behind s t) (htu : u <:+ t) : Behind s u :=
  ⟨htu.trans hst.1, htu.length_le.trans_lt hst.2⟩

/-! The tokens. -/

theorem readCStyleComment_suffix (s t : Bytes) (h : readCStyleComment s = some t) : t <:+ s := by
  fun_induction readCStyleComment s with
  | case1 s =>
    cases h
    exact (List.suffix_cons _ _).trans (List.suffix_cons _ _)
  | case2 c s hc ih => exact (ih h).trans (List.suffix_cons _ _)
  | case3 => cases h

theorem readCppStyleComment_suffix (s : Bytes) : readCppStyleComment s <:+ s := by
  fun_induction readCppStyleComment s with
  | case1 s => exact List.suffix_cons _ _
  | case2 s => exact (List.suffix_cons _ _).trans (List.suffix_cons _ _)
  | case3 s hs => exact List.suffix_cons _ _
  | case4 c s h1 h2 h3 ih => exact ih.trans (List.suffix_cons _ _)
  | case5 => exact List.suffix_refl _

theorem readComment_suffix (s : Bytes) : (readComment s).2 <:+ s := by
  fun_cases readComment s with
  | case1 s t h => exact (readCStyleComment_suffix s t h).trans (List.suffix_cons _ _)
  | case2 s h => exact List.nil_suffix
  | case3 s => exact (readCppStyleComment_suffix s).trans (List.suffix_cons _ _)
  | case4 s h1 h2 => exact List.tail_suffix s

theorem readDigits_suffix (s : Bytes) : (readDigits s).2 <:+ s := List.dropWhile_suffix _

theorem readFraction_suffix (s : Bytes) : (readFraction s).2 <:+ s := by
  fun_cases readFraction s with
  | case1 s => exact (readDigits_suffix s).trans (List.suffix_cons _ _)
  | case2 s h => exact List.suffix_refl _

theorem readSign_suffix (s : Bytes) : (readSign s).2 <:+ s := by
  fun_cases readSign s with
  | case1 s => exact List.suffix_cons _ _
  | case2 s => exact List.suffix_cons _ _
  | case3 s h1 h2 => exact List.suffix_refl _

theorem readExponent_suffix (s : Bytes) : (readExponent s).2 <:+ s := by
  fun_cases readExponent s with
  | case1 c s hc => exact ((readDigits_suffix _).trans (readSign_suffix s)).trans (List.suffix_cons _ _)
  | case2 c s hc => exact List.suffix_refl _
  | case3 => exact List.suffix_refl _

theorem readNumber_suffix (s : Bytes) : (readNumber s).2 <:+ s :=
  ((readExponent_suffix _).trans (readFraction_suffix _)).trans (readDigits_suffix s)

theorem readString_suffix (s : Bytes) (r : Bytes × Bytes) (h : readString s = some r) : r.2 <:+ s := by
  fun_induction readString s generalizing r with
  | case1 s =>
    cases h
    exact List.suffix_cons _ _
  | case2 c s ih =>
    obtain ⟨r', hr, rfl⟩ := Option.map_eq_some_iff.mp h
    exact ((ih r' hr).trans (List.suffix_cons _ _)).trans (List.suffix_cons _ _)
  | case3 c s h1 h2 ih =>
    obtain ⟨r', hr, rfl⟩ := Option.map_eq_some_iff.mp h
    exact (ih r' hr).trans (List.suffix_cons _ _)
  | case4 => cases h

theorem matchWord_suffix (word : Bytes) (token : Token) (s : Bytes) : (matchWord word token s).2 <:+ s := by
  rw [matchWord]
  split_ifs
  · exact List.drop_suffix _ _
  · exact List.suffix_refl _

theorem skipSpaces_suffix (s : Bytes) : skipSpaces s <:+ s := List.dropWhile_suffix _

/-- The token begins a container. -/
def begins : Token → Bool
  | .objectBegin => true
  | .arrayBegin => true
  | _ => false

/-- What a token takes of the text: something, unless it is the end. -/
structure Takes (s : Bytes) (r : Token × Bytes) : Prop where
  suffix : r.2 <:+ s
  behind : r.1 ≠ .endOfStream → Behind s r.2
  opens : begins r.1 = true → brackets r.2 < brackets s

theorem takes_of_tail (c : UInt8) (s : Bytes) (r : Token × Bytes) (h : r.2 <:+ s)
    (hopen : begins r.1 = true → isOpening c = true) : Takes (c :: s) r where
  suffix := (behind_tail c s r.2 h).1
  behind := fun _ => behind_tail c s r.2 h
  opens := fun htoken => by
    have hle := brackets_suffix s r.2 h
    rw [brackets, brackets, List.countP_cons_of_pos (hopen htoken)]
    exact Nat.lt_succ_of_le hle

theorem takes_of_suffix (s t : Bytes) (r : Token × Bytes) (hst : t <:+ s) (h : Takes t r) : Takes s r where
  suffix := h.suffix.trans hst
  behind := fun hr => behind_of_suffix s t r.2 hst (h.behind hr)
  opens := fun hr => (h.opens hr).trans_le (brackets_suffix s t hst)

theorem begins_readComment (s : Bytes) : begins (readComment s).1 = false := by
  fun_cases readComment s <;> rfl

theorem begins_matchWord (word : Bytes) (token : Token) (s : Bytes) (h : begins token = false) :
    begins (matchWord word token s).1 = false := by
  rw [matchWord]
  split_ifs
  · exact h
  · rfl

theorem readToken_takes (s : Bytes) : Takes s (readToken s) := by
  have hother : ∀ (r : Token × Bytes) (c : UInt8), begins r.1 = false → begins r.1 = true → isOpening c = true := by
    intro r c hfalse htrue
    rw [hfalse] at htrue
    cases htrue
  apply takes_of_suffix s (skipSpaces s) _ (skipSpaces_suffix s)
  fun_cases readToken s with
  | case1 h =>
    rw [h]
    exact ⟨List.suffix_refl _, fun hr => absurd rfl hr, fun hr => absurd hr (by decide)⟩
  | case2 t h =>
    rw [h]
    exact takes_of_tail _ t _ (List.suffix_refl _) fun _ => rfl
  | case4 t h =>
    rw [h]
    exact takes_of_tail _ t _ (List.suffix_refl _) fun _ => rfl
  | case6 t h r hr =>
    rw [h]
    exact takes_of_tail _ t _ (readString_suffix t r hr) (hother _ _ rfl)
  | case7 t h hr =>
    rw [h]
    exact takes_of_tail _ t _ List.nil_suffix (hother _ _ rfl)
  | case8 t h =>
    rw [h]
    exact takes_of_tail _ t _ (readComment_suffix t) (hother _ _ (begins_readComment t))
  | case9 t h =>
    rw [h]
    exact takes_of_tail _ t _ (matchWord_suffix _ _ t) (hother _ _ (begins_matchWord _ _ t rfl))
  | case10 t h =>
    rw [h]
    exact takes_of_tail _ t _ (matchWord_suffix _ _ t) (hother _ _ (begins_matchWord _ _ t rfl))
  | case11 t h =>
    rw [h]
    exact takes_of_tail _ t _ (matchWord_suffix _ _ t) (hother _ _ (begins_matchWord _ _ t rfl))
  | case15 c t =>
    simp only [*]
    exact takes_of_tail _ t _ (readNumber_suffix t) (hother _ _ rfl)
  | case16 c t =>
    simp only [*]
    exact takes_of_tail _ t _ (List.suffix_refl _) (hother _ _ rfl)
  | _ t h =>
    rw [h]
    exact takes_of_tail _ t _ (List.suffix_refl _) (hother _ _ rfl)

theorem skipComments_takes (n : ℕ) (s : Bytes) (r : Token × Bytes) (h : Takes s r) : Takes s (skipComments n r) := by
  fun_induction skipComments n r with
  | case1 n t ih => exact ih (takes_of_suffix s t _ h.suffix (readToken_takes t))
  | case2 n r hr => exact h

theorem skipCommentTokens_takes (s : Bytes) : Takes s (skipCommentTokens s) :=
  skipComments_takes _ s _ (readToken_takes s)

/-- What holds of a value and the rest behind it, and what if the reader throws. -/
def Yields {R : Type} (P : Doc R → Bytes → Prop) (Q : Prop) : Outcome R → Prop
  | .done v rest => P v rest
  | .failed _ => True
  | .thrown _ => Q

theorem yields_imp {R : Type} {P P' : Doc R → Bytes → Prop} {Q Q' : Prop} (hP : ∀ v rest, P v rest → P' v rest)
    (hQ : Q → Q') (r : Outcome R) (h : Yields P Q r) : Yields P' Q' r := by
  cases r with
  | done v rest => exact hP v rest h
  | failed v => trivial
  | thrown v => exact hQ h

section Rules

variable {R : Type} (scan : Bytes → Option R) (P : Doc R → Bytes → Prop) (Q : Prop)

/-! What has to hold of the parts of each loop. -/

theorem readValue_yields (fuel level : ℕ) (old : Doc R) (s : Bytes) (hlimit : stackLimit ≤ level → Q)
    (hobject : level < stackLimit → ∀ t, Behind s t → brackets t < brackets s →
      Yields P Q (readObject scan fuel (level + 1) [] [] t))
    (harray : level < stackLimit → ∀ t, Behind s t → brackets t < brackets s →
      Yields P Q (readArray scan fuel (level + 1) t))
    (hnumber : level < stackLimit → ∀ t text v, Behind s t → decodeNumber scan text = some v → P v t)
    (hstring : level < stackLimit → ∀ t x, Behind s t → P (.string x) t)
    (hword : level < stackLimit → ∀ t, Behind s t → P .null t ∧ ∀ b, P (.boolean b) t) :
    Yields P Q (readValue scan (fuel + 1) level old s) := by
  rw [readValue]
  split_ifs with hlevel
  · exact hlimit hlevel
  rw [not_le] at hlevel
  have htakes := skipCommentTokens_takes s
  cases hs : skipCommentTokens s with
  | mk token t =>
    rw [hs] at htakes
    cases token with
    | objectBegin => exact hobject hlevel t (htakes.behind (by simp)) (htakes.opens rfl)
    | arrayBegin => exact harray hlevel t (htakes.behind (by simp)) (htakes.opens rfl)
    | number text =>
      dsimp only
      cases hd : decodeNumber scan text with
      | none => trivial
      | some v => exact hnumber hlevel t text v (htakes.behind (by simp)) hd
    | string text =>
      dsimp only
      cases hd : decodeString text with
      | none => trivial
      | some x => exact hstring hlevel t x (htakes.behind (by simp))
    | «true» => exact (hword hlevel t (htakes.behind (by simp))).2 true
    | «false» => exact (hword hlevel t (htakes.behind (by simp))).2 false
    | null => exact (hword hlevel t (htakes.behind (by simp))).1
    | objectEnd => trivial
    | arrayEnd => trivial
    | arraySeparator => trivial
    | memberSeparator => trivial
    | comment => trivial
    | endOfStream => trivial
    | error => trivial

/-- The object ends, or a member is read and after it the object ends or the loop goes on. -/
theorem readObject_yields (fuel level : ℕ) (name : Bytes) (members : List (Bytes × Doc R)) (s : Bytes)
    (hend : ∀ t, Behind s t → P (.object members) t)
    (hmember : ∀ name' old t, Behind s t → Yields (fun x u => ∀ u', Behind u u' →
      P (.object (setMember name' x members)) u' ∧
        Yields P Q (readObject scan fuel level name' (setMember name' x members) u')) Q
      (readValue scan fuel level old t)) :
    Yields P Q (readObject scan (fuel + 1) level name members s) := by
  rw [readObject]
  have htakes := skipCommentTokens_takes s
  cases hs : skipCommentTokens s with
  | mk token t =>
    rw [hs] at htakes
    cases token with
    | objectEnd =>
      dsimp only
      split_ifs
      · exact hend t (htakes.behind (by simp))
      · trivial
    | string text =>
      dsimp only
      cases hd : decodeString text with
      | none => trivial
      | some name' =>
        dsimp only
        have hcolon := readToken_takes t
        cases hc : readToken t with
        | mk token u =>
          rw [hc] at hcolon
          cases token with
          | memberSeparator =>
            have hvalue := hmember name' ((members.lookup name').getD .null) u
              (behind_then s t u (htakes.behind (by simp)) hcolon.suffix)
            dsimp only
            cases hx : readValue scan fuel level ((members.lookup name').getD .null) u with
            | failed x => trivial
            | thrown x =>
              rw [hx] at hvalue
              exact hvalue
            | done x v =>
              rw [hx] at hvalue
              dsimp only
              have hnext := readToken_takes v
              cases he : readToken v with
              | mk token w =>
                rw [he] at hnext
                cases token with
                | objectEnd => exact (hvalue w (hnext.behind (by simp))).1
                | arraySeparator => exact (hvalue w (hnext.behind (by simp))).2
                | comment =>
                  have hbehind := hnext.behind (by simp)
                  dsimp only
                  have hskip := skipCommentTokens_takes w
                  cases hk : skipCommentTokens w with
                  | mk token w' =>
                    rw [hk] at hskip
                    have hw := hvalue w' (behind_then v w w' hbehind hskip.suffix)
                    cases token with
                    | objectEnd => exact hw.1
                    | _ => exact hw.2
                | _ => trivial
          | _ => trivial
    | _ => trivial

/-- An element is read, and after it the array ends or the loop goes on. -/
theorem readElements_yields (fuel level : ℕ) (values : List (Doc R)) (s : Bytes)
    (hvalue : Yields (fun x t => ∀ u, Behind t u →
      P (.array (values ++ [x])) u ∧ Yields P Q (readElements scan fuel level (values ++ [x]) u)) Q
      (readValue scan fuel level .null s)) :
    Yields P Q (readElements scan (fuel + 1) level values s) := by
  rw [readElements]
  cases hx : readValue scan fuel level .null s with
  | failed x => trivial
  | thrown x =>
    rw [hx] at hvalue
    exact hvalue
  | done x t =>
    rw [hx] at hvalue
    dsimp only
    have htakes := skipCommentTokens_takes t
    cases hs : skipCommentTokens t with
    | mk token u =>
      rw [hs] at htakes
      cases token with
      | arraySeparator => exact (hvalue u (htakes.behind (by simp))).2
      | arrayEnd => exact (hvalue u (htakes.behind (by simp))).1
      | _ => trivial

theorem readArray_yields (fuel level : ℕ) (s : Bytes) (hempty : ∀ t, Behind s t → P (.array []) t)
    (helements : Yields P Q (readElements scan fuel level [] s)) :
    Yields P Q (readArray scan (fuel + 1) level s) := by
  rw [readArray]
  split
  · next t hs =>
    exact hempty t (behind_of_suffix s _ t (skipSpaces_suffix s) (hs ▸ behind_tail 93 t t (List.suffix_refl t)))
  · exact helements

end Rules

section Progress

variable {R : Type} (scan : Bytes → Option R)

/-- The reader went on in the text; to be too deep it needs a bracket for each level. -/
abbrev Advances (level : ℕ) (s : Bytes) (r : Outcome R) : Prop :=
  Yields (fun _ rest => Behind s rest) (stackLimit ≤ level + brackets s) r

theorem advances_behind (level : ℕ) (s t : Bytes) (r : Outcome R) (h : Behind s t) (hr : Advances level t r) :
    Advances level s r :=
  yields_imp (fun _ rest hrest => ⟨hrest.1.trans h.1, hrest.2.trans h.2⟩)
    (fun hdeep => by have := brackets_suffix s t h.1; omega) r hr

structure Progress (fuel : ℕ) : Prop where
  value : ∀ level old s, Advances level s (readValue scan fuel level old s)
  object : ∀ level name members s, Advances level s (readObject scan fuel level name members s)
  elements : ∀ level values s, Advances level s (readElements scan fuel level values s)
  array : ∀ level s, Advances level s (readArray scan fuel level s)

theorem progress (fuel : ℕ) : Progress scan fuel := by
  induction fuel with
  | zero =>
    refine ⟨fun level old s => ?_, fun level name members s => ?_, fun level values s => ?_, fun level s => ?_⟩
    · rw [readValue]
      trivial
    · rw [readObject]
      trivial
    · rw [readElements]
      trivial
    · rw [readArray]
      trivial
  | succ fuel ih =>
    -- a bracket more than the text inside has makes up for a level less
    have hinside : ∀ level s t (r : Outcome R), Behind s t → brackets t < brackets s → Advances (level + 1) t r →
        Advances level s r := fun level s t r h hlt hr =>
      yields_imp (fun _ rest hrest => ⟨hrest.1.trans h.1, hrest.2.trans h.2⟩) (fun hdeep => by omega) r hr
    refine ⟨fun level old s => ?_, fun level name members s => ?_, fun level values s => ?_, fun level s => ?_⟩
    · exact readValue_yields scan _ _ fuel level old s (fun h => by omega)
        (fun _ t ht hlt => hinside level s t _ ht hlt (ih.object (level + 1) [] [] t))
        (fun _ t ht hlt => hinside level s t _ ht hlt (ih.array (level + 1) t)) (fun _ t _ _ ht _ => ht)
        (fun _ t _ ht => ht) fun _ t ht => ⟨ht, fun _ => ht⟩
    · refine readObject_yields scan _ _ fuel level name members s (fun t ht => ht) fun name' old t ht => ?_
      refine yields_imp (fun x u hu u' hu' => ?_) (fun hdeep => by have := brackets_suffix s t ht.1; omega) _
        (ih.value level old t)
      have hbehind := behind_then s t u' ht (hu'.1.trans hu.1)
      exact ⟨hbehind, advances_behind level s u' _ hbehind (ih.object level name' _ u')⟩
    · refine readElements_yields scan _ _ fuel level values s ?_
      refine yields_imp (fun x t ht u hu => ?_) id _ (ih.value level .null s)
      have hbehind := behind_then s t u ht hu.1
      exact ⟨hbehind, advances_behind level s u _ hbehind (ih.elements level _ u)⟩
    · exact readArray_yields scan _ _ fuel level s (fun t ht => ht) (ih.elements level [] s)

/-- The reader only throws for a text with as many opening brackets as its stack has levels. -/
theorem parse_thrown (s : Bytes) (v : Doc R) (h : parse scan s = .thrown v) : stackLimit ≤ brackets s := by
  have hadvances := (progress scan (3 * s.length + 1)).value 0 .null s
  rw [parse] at h
  rw [h] at hadvances
  rwa [Advances, Yields, Nat.zero_add] at hadvances

theorem skipSpaces_opened (n : ℕ) : skipSpaces (List.replicate n 91) = List.replicate n 91 := by
  cases n with
  | zero => rfl
  | succ n => exact List.dropWhile_cons_of_neg (by decide)

theorem readElements_opened (fuel level n : ℕ)
    (h : ∃ v, readValue scan fuel level .null (List.replicate n 91) = .thrown v) :
    ∃ v, readElements scan (fuel + 1) level [] (List.replicate n 91) = .thrown v := by
  obtain ⟨v, hv⟩ := h
  exact ⟨.array [v], by rw [readElements, hv]; rfl⟩

/-- Nothing but opening brackets, up to the limit. -/
theorem readValue_opened (n fuel level : ℕ) (old : Doc R) (hlevel : stackLimit ≤ level + n) (hfuel : 3 * n + 1 ≤ fuel) :
    ∃ v, readValue scan fuel level old (List.replicate n 91) = .thrown v := by
  induction n generalizing fuel level old with
  | zero =>
    obtain ⟨fuel, rfl⟩ : ∃ k, fuel = k + 1 := ⟨fuel - 1, by omega⟩
    exact ⟨old, by rw [readValue, if_pos (show stackLimit ≤ level from hlevel)]⟩
  | succ n ih =>
    obtain ⟨fuel, rfl⟩ : ∃ k, fuel = k + 3 := ⟨fuel - 3, by omega⟩
    by_cases hdeep : stackLimit ≤ level
    · exact ⟨old, by rw [readValue, if_pos hdeep]⟩
    · have hrest := ih fuel (level + 1) .null (by omega) (by omega)
      obtain ⟨v, hv⟩ := readElements_opened scan fuel (level + 1) n hrest
      have hopened : skipCommentTokens (List.replicate (n + 1) 91) = (.arrayBegin, List.replicate n 91) := rfl
      refine ⟨v, ?_⟩
      rw [readValue, if_neg hdeep, hopened]
      dsimp only
      rw [readArray, skipSpaces_opened, ← hv]
      cases n <;> rfl

theorem parse_opened (n : ℕ) (h : stackLimit ≤ n) : ∃ v, parse scan (List.replicate n 91) = .thrown v := by
  rw [parse, List.length_replicate]
  exact readValue_opened scan n _ 0 .null (by omega) le_rfl

theorem parse_thrown_opened : ∃ v, parse (fun _ => (none : Option ℕ)) (List.replicate 1000 91) = .thrown v ∧
    stackLimit ≤ brackets (List.replicate 1000 91) := by
  obtain ⟨v, hv⟩ := parse_opened (fun _ => (none : Option ℕ)) 1000 (by decide)
  exact ⟨v, hv, parse_thrown _ _ v hv⟩

/-! The fuel: any two amounts that cover the text give the same result. -/

structure Congruent (fuel : ℕ) : Prop where
  value : ∀ fuel' level old s, 3 * s.length + 1 ≤ fuel → 3 * s.length + 1 ≤ fuel' →
    readValue scan fuel level old s = readValue scan fuel' level old s
  object : ∀ fuel' level name members s, 3 * s.length + 2 ≤ fuel → 3 * s.length + 2 ≤ fuel' →
    readObject scan fuel level name members s = readObject scan fuel' level name members s
  elements : ∀ fuel' level values s, 3 * s.length + 2 ≤ fuel → 3 * s.length + 2 ≤ fuel' →
    readElements scan fuel level values s = readElements scan fuel' level values s
  array : ∀ fuel' level s, 3 * s.length + 3 ≤ fuel → 3 * s.length + 3 ≤ fuel' →
    readArray scan fuel level s = readArray scan fuel' level s

theorem value_behind (fuel level : ℕ) (old : Doc R) (s : Bytes) (v : Doc R) (rest : Bytes)
    (h : readValue scan fuel level old s = .done v rest) : Behind s rest := by
  have hadvances := (progress scan fuel).value level old s
  rw [h] at hadvances
  exact hadvances

theorem readValue_congr (fuel fuel' level : ℕ) (old : Doc R) (s : Bytes) (ih : Congruent scan fuel)
    (h : 3 * s.length ≤ fuel) (h' : 3 * s.length ≤ fuel') :
    readValue scan (fuel + 1) level old s = readValue scan (fuel' + 1) level old s := by
  rw [readValue, readValue]
  have htakes := skipCommentTokens_takes s
  split_ifs
  · rfl
  cases hs : skipCommentTokens s with
  | mk token t =>
    rw [hs] at htakes
    cases token with
    | objectBegin =>
      have hlt : t.length < s.length := (htakes.behind (by simp)).2
      exact ih.object fuel' _ _ _ t (by omega) (by omega)
    | arrayBegin =>
      have hlt : t.length < s.length := (htakes.behind (by simp)).2
      exact ih.array fuel' _ t (by omega) (by omega)
    | _ => rfl

theorem readObject_congr (fuel fuel' level : ℕ) (name : Bytes) (members : List (Bytes × Doc R)) (s : Bytes)
    (ih : Congruent scan fuel) (h : 3 * s.length + 1 ≤ fuel) (h' : 3 * s.length + 1 ≤ fuel') :
    readObject scan (fuel + 1) level name members s = readObject scan (fuel' + 1) level name members s := by
  rw [readObject, readObject]
  have htakes := skipCommentTokens_takes s
  cases hs : skipCommentTokens s with
  | mk token t =>
    rw [hs] at htakes
    cases token with
    | string text =>
      have hstring : t.length < s.length := (htakes.behind (by simp)).2
      dsimp only
      cases decodeString text with
      | none => rfl
      | some name' =>
        dsimp only
        have hcolon := (readToken_takes t).suffix.length_le
        cases hc : readToken t with
        | mk token u =>
          rw [hc] at hcolon
          dsimp only at hcolon
          cases token with
          | memberSeparator =>
            dsimp only
            rw [ih.value fuel' level _ u (by omega) (by omega)]
            cases hx : readValue scan fuel' level ((members.lookup name').getD .null) u with
            | failed x => rfl
            | thrown x => rfl
            | done x v =>
              have hvalue := (value_behind scan _ _ _ _ _ _ hx).2
              dsimp only
              have hnext := (readToken_takes v).suffix.length_le
              cases he : readToken v with
              | mk token w =>
                rw [he] at hnext
                dsimp only at hnext
                cases token with
                | arraySeparator => exact ih.object fuel' level _ _ w (by omega) (by omega)
                | comment =>
                  dsimp only
                  have hskip := (skipCommentTokens_takes w).suffix.length_le
                  cases hk : skipCommentTokens w with
                  | mk token w' =>
                    rw [hk] at hskip
                    dsimp only at hskip
                    cases token with
                    | objectEnd => rfl
                    | _ => exact ih.object fuel' level _ _ w' (by omega) (by omega)
                | _ => rfl
          | _ => rfl
    | _ => rfl

theorem readElements_congr (fuel fuel' level : ℕ) (values : List (Doc R)) (s : Bytes) (ih : Congruent scan fuel)
    (h : 3 * s.length + 1 ≤ fuel) (h' : 3 * s.length + 1 ≤ fuel') :
    readElements scan (fuel + 1) level values s = readElements scan (fuel' + 1) level values s := by
  rw [readElements, readElements, ih.value fuel' level _ s h h']
  cases hx : readValue scan fuel' level .null s with
  | failed x => rfl
  | thrown x => rfl
  | done x t =>
    have hvalue := (value_behind scan _ _ _ _ _ _ hx).2
    dsimp only
    have htakes := (skipCommentTokens_takes t).suffix.length_le
    cases hs : skipCommentTokens t with
    | mk token u =>
      rw [hs] at htakes
      dsimp only at htakes
      cases token with
      | arraySeparator => exact ih.elements fuel' level _ u (by omega) (by omega)
      | _ => rfl

theorem congruent (fuel : ℕ) : Congruent scan fuel := by
  induction fuel with
  | zero =>
    exact ⟨fun _ _ _ s h => by omega, fun _ _ _ _ s h => by omega, fun _ _ _ s h => by omega,
      fun _ _ s h => by omega⟩
  | succ fuel ih =>
    refine ⟨fun fuel' level old s h h' => ?_, fun fuel' level name members s h h' => ?_,
      fun fuel' level values s h h' => ?_, fun fuel' level s h h' => ?_⟩
    · obtain ⟨fuel', rfl⟩ : ∃ k, fuel' = k + 1 := ⟨fuel' - 1, by omega⟩
      exact readValue_congr scan fuel fuel' level old s ih (by omega) (by omega)
    · obtain ⟨fuel', rfl⟩ : ∃ k, fuel' = k + 1 := ⟨fuel' - 1, by omega⟩
      exact readObject_congr scan fuel fuel' level name members s ih (by omega) (by omega)
    · obtain ⟨fuel', rfl⟩ : ∃ k, fuel' = k + 1 := ⟨fuel' - 1, by omega⟩
      exact readElements_congr scan fuel fuel' level values s ih (by omega) (by omega)
    · obtain ⟨fuel', rfl⟩ : ∃ k, fuel' = k + 1 := ⟨fuel' - 1, by omega⟩
      rw [readArray, readArray, ih.elements fuel' level [] s (by omega) (by omega)]

/-- The fuel is no bound on the reader: more of it changes nothing. -/
theorem parse_fuel (s : Bytes) (fuel : ℕ) (h : 3 * s.length + 1 ≤ fuel) :
    readValue scan fuel 0 .null s = parse scan s :=
  (congruent scan fuel).value _ 0 .null s h le_rfl

/-- `[7]` -/
theorem parse_fuel_seven : readValue (fun _ => (none : Option ℕ)) 100 0 .null [91, 55, 93] = .done (.array [.int 7]) [] :=
  (parse_fuel _ [91, 55, 93] 100 (by decide)).trans (by with_unfolding_all rfl)

end Progress

end BitPark.JsonReading
