import BitPark.JsonTokens

namespace BitPark.JsonLayout

open BitPark.Decimal (Bytes isDigit decimal decimalNat)
open BitPark.JsonText BitPark.JsonWriters BitPark.JsonTokens

/-! Texts that denote a value, with blanks wherever a document may have them. -/

/-- A value, or what follows the opening bracket of a container that is not empty. -/
inductive Item (R : Type) where
  | value (v : Doc R)
  | elements (values : List (Doc R))
  | members (list : List (Bytes × Doc R))

section Layout

variable {R : Type} (scan : Bytes → Option R)

/-- The text denotes the item, with containers at most `n` deep. -/
inductive Layout : ℕ → Item R → Bytes → Prop where
  | null (n : ℕ) : Layout (n + 1) (.value .null) nullText
  | boolean (n : ℕ) (b : Bool) : Layout (n + 1) (.value (.boolean b)) (if b then trueText else falseText)
  | string (n : ℕ) (s : Bytes) : Layout (n + 1) (.value (.string s)) (valueToQuotedStringN s)
  | number (n : ℕ) (v : Doc R) (text : Bytes) (ht : IsNumberText text) (hv : decodeNumber scan text = some v) :
      Layout (n + 1) (.value v) text
  | emptyArray (n : ℕ) (ws : Bytes) (hws : Space ws) : Layout (n + 1) (.value (.array [])) (91 :: (ws ++ [93]))
  | array (n : ℕ) (values : List (Doc R)) (t : Bytes) (h : Layout n (.elements values) t) :
      Layout (n + 1) (.value (.array values)) (91 :: t)
  | last (n : ℕ) (v : Doc R) (ws t ws' : Bytes) (hws : Space ws) (hws' : Space ws') (h : Layout n (.value v) t) :
      Layout n (.elements [v]) (ws ++ (t ++ (ws' ++ [93])))
  | next (n : ℕ) (v : Doc R) (values : List (Doc R)) (ws t ws' u : Bytes) (hws : Space ws) (hws' : Space ws')
      (h : Layout n (.value v) t) (hu : Layout n (.elements values) u) :
      Layout n (.elements (v :: values)) (ws ++ (t ++ (ws' ++ 44 :: u)))
  | emptyObject (n : ℕ) (ws : Bytes) (hws : Space ws) : Layout (n + 1) (.value (.object [])) (123 :: (ws ++ [125]))
  | object (n : ℕ) (members : List (Bytes × Doc R)) (t : Bytes) (h : Layout n (.members members) t) :
      Layout (n + 1) (.value (.object members)) (123 :: t)
  | lastMember (n : ℕ) (name : Bytes) (v : Doc R) (ws ws1 ws2 t ws' : Bytes) (hws : Space ws) (hws1 : Space ws1)
      (hws2 : Space ws2) (hws' : Space ws') (h : Layout n (.value v) t) :
      Layout n (.members [(name, v)])
        (ws ++ (valueToQuotedStringN name ++ (ws1 ++ 58 :: (ws2 ++ (t ++ (ws' ++ [125]))))))
  | nextMember (n : ℕ) (name : Bytes) (v : Doc R) (members : List (Bytes × Doc R)) (ws ws1 ws2 t ws' u : Bytes)
      (hws : Space ws) (hws1 : Space ws1) (hws2 : Space ws2) (hws' : Space ws') (h : Layout n (.value v) t)
      (hname : ∀ m ∈ members, name < m.1) (hu : Layout n (.members members) u) :
      Layout n (.members ((name, v) :: members))
        (ws ++ (valueToQuotedStringN name ++ (ws1 ++ 58 :: (ws2 ++ (t ++ (ws' ++ 44 :: u))))))

/-- How a text begins that denotes a value. -/
theorem layout_head (n : ℕ) (v : Doc R) (t : Bytes) (h : Layout scan n (.value v) t) :
    ∃ c s, t = c :: s ∧ isSpace c = false ∧ c ≠ 93 := by
  cases h with
  | null => exact ⟨_, _, rfl, rfl, by decide⟩
  | boolean n b => cases b <;> exact ⟨_, _, rfl, rfl, by decide⟩
  | string => exact ⟨_, _, rfl, rfl, by decide⟩
  | number n v text ht hv =>
    obtain ⟨c, s, rfl, hc⟩ := ht.starts
    refine ⟨c, s, rfl, ?_, ?_⟩
    · rcases hc with hc | rfl
      · have hdigit := digit_toNat c hc
        have hne : ∀ d : UInt8, d.toNat < 48 → c ≠ d := by
          rintro d hd rfl
          omega
        simp [isSpace, hne 32 (by decide), hne 9 (by decide), hne 13 (by decide), hne 10 (by decide)]
      · rfl
    · rintro rfl
      rcases hc with hc | hc
      · exact absurd hc (by decide)
      · exact absurd hc (by decide)
  | emptyArray => exact ⟨_, _, rfl, rfl, by decide⟩
  | array => exact ⟨_, _, rfl, rfl, by decide⟩
  | emptyObject => exact ⟨_, _, rfl, rfl, by decide⟩
  | object => exact ⟨_, _, rfl, rfl, by decide⟩

end Layout

/-! The map of the members. -/

section Members

variable {R : Type}

/-- A name behind all others is added at the end. -/
theorem setMember_last (name : Bytes) (v : Doc R) (members : List (Bytes × Doc R)) (h : ∀ m ∈ members, m.1 < name) :
    setMember name v members = members ++ [(name, v)] := by
  induction members with
  | nil => rfl
  | cons m members ih =>
    obtain ⟨key, x⟩ := m
    obtain ⟨hkey, hrest⟩ := List.forall_mem_cons.mp h
    have hne : name ≠ key := fun he => List.lt_irrefl name (he ▸ hkey)
    rw [setMember, if_neg hne, if_neg (List.lt_asymm hkey), ih hrest]
    rfl

end Members

/-! Reading. -/

section Reading

variable {R : Type} (scan : Bytes → Option R)

/-- What the reader makes of a text that denotes the item, in front of any rest. -/
def Reads (n : ℕ) : Item R → Bytes → Prop
  | .value v, t => ∀ fuel depth old ws rest, Space ws → Ends rest → depth + n ≤ stackLimit → 3 * t.length ≤ fuel →
      readValue scan fuel depth old (ws ++ (t ++ rest)) = .done v rest
  | .elements values, t => ∀ fuel depth acc rest, depth + n ≤ stackLimit → 3 * t.length + 1 ≤ fuel →
      readElements scan fuel depth acc (t ++ rest) = .done (.array (acc ++ values)) rest
  | .members list, t => ∀ fuel depth name acc rest, depth + n ≤ stackLimit → 3 * t.length ≤ fuel →
      (∀ m ∈ acc, ∀ m' ∈ list, m.1 < m'.1) →
      readObject scan fuel depth name acc (t ++ rest) = .done (.object (acc ++ list)) rest

theorem space_number (b : UInt8) (h : isSpace b = true) : isNumberByte b = false := by
  simp only [isSpace, Bool.or_eq_true, decide_eq_true_eq] at h
  rcases h with ((rfl | rfl) | rfl) | rfl <;> rfl

/-- Blanks and a separator end a number. -/
theorem ends_space (ws : Bytes) (c : UInt8) (rest : Bytes) (hws : Space ws) (hc : isNumberByte c = false) :
    Ends (ws ++ c :: rest) := by
  intro b hb
  cases ws with
  | nil =>
    cases hb
    exact hc
  | cons d ws =>
    cases hb
    exact space_number b (hws b List.mem_cons_self)

/-- A value of one token. -/
theorem reads_token (n : ℕ) (v : Doc R) (t : Bytes) (token : Token) (hlength : 0 < t.length)
    (htoken : ∀ rest, Ends rest → readToken (t ++ rest) = (token, rest)) (hc : token ≠ .comment)
    (hvalue : ∀ fuel depth old s rest, depth < stackLimit → skipCommentTokens s = (token, rest) →
      readValue scan (fuel + 1) depth old s = .done v rest) : Reads scan (n + 1) (.value v) t := by
  intro fuel depth old ws rest hws hrest hdepth hfuel
  obtain ⟨fuel, rfl⟩ : ∃ k, fuel = k + 1 := ⟨fuel - 1, by omega⟩
  exact hvalue fuel depth old _ rest (by omega) (skipCommentTokens_eq ws _ _ _ hws (htoken rest hrest) hc)

theorem readToken_null (s : Bytes) : readToken (nullText ++ s) = (.null, s) := by
  simp [readToken, nullText, skipSpaces, isSpace, matchWord]

theorem readToken_true (s : Bytes) : readToken (trueText ++ s) = (.true, s) := by
  simp [readToken, trueText, skipSpaces, isSpace, matchWord]

theorem readToken_false (s : Bytes) : readToken (falseText ++ s) = (.false, s) := by
  simp [readToken, falseText, skipSpaces, isSpace, matchWord]

theorem reads_null (n : ℕ) : Reads scan (n + 1) (.value .null) nullText := by
  refine reads_token scan n _ _ .null (by decide) (fun rest _ => readToken_null rest) (by decide) ?_
  intro fuel depth old s rest hdepth hs
  rw [readValue, if_neg (not_le.mpr hdepth), hs]

theorem reads_boolean (n : ℕ) (b : Bool) :
    Reads scan (n + 1) (.value (.boolean b)) (if b then trueText else falseText) := by
  cases b with
  | true =>
    refine reads_token scan n _ _ .true (by decide) (fun rest _ => readToken_true rest) (by decide) ?_
    intro fuel depth old s rest hdepth hs
    rw [readValue, if_neg (not_le.mpr hdepth), hs]
  | false =>
    refine reads_token scan n _ _ .false (by decide) (fun rest _ => readToken_false rest) (by decide) ?_
    intro fuel depth old s rest hdepth hs
    rw [readValue, if_neg (not_le.mpr hdepth), hs]

theorem reads_string (n : ℕ) (v : Bytes) : Reads scan (n + 1) (.value (.string v)) (valueToQuotedStringN v) := by
  refine reads_token scan n _ _ (.string (valueToQuotedStringN v)) (Nat.succ_pos _)
    (fun rest _ => readToken_quoted v rest) Token.noConfusion ?_
  intro fuel depth old s rest hdepth hs
  rw [readValue, if_neg (not_le.mpr hdepth), hs]
  dsimp only
  rw [decodeString_quoted]

theorem reads_number (n : ℕ) (v : Doc R) (t : Bytes) (ht : IsNumberText t) (hv : decodeNumber scan t = some v) :
    Reads scan (n + 1) (.value v) t := by
  obtain ⟨c, s, hcons, -⟩ := ht.starts
  refine reads_token scan n _ _ (.number t) (by rw [hcons]; exact Nat.succ_pos _)
    (fun rest hrest => readToken_number t rest ht hrest) Token.noConfusion ?_
  intro fuel depth old s rest hdepth hs
  rw [readValue, if_neg (not_le.mpr hdepth), hs]
  dsimp only
  rw [hv]

section Elements

variable (n : ℕ) (v : Doc R) (values : List (Doc R)) (ws t ws' u : Bytes) (hws : Space ws) (hws' : Space ws')
  (h : Reads scan n (.value v) t)
include hws hws' h

theorem reads_last : Reads scan n (.elements [v]) (ws ++ (t ++ (ws' ++ [93]))) := by
  intro fuel depth acc rest hdepth hfuel
  obtain ⟨fuel, rfl⟩ : ∃ k, fuel = k + 1 := ⟨fuel - 1, by omega⟩
  have htext : ws ++ (t ++ (ws' ++ [93])) ++ rest = ws ++ (t ++ (ws' ++ 93 :: rest)) := by
    simp only [List.append_assoc, List.singleton_append]
  have hlength : 3 * t.length ≤ fuel := by
    simp only [List.length_append, List.length_singleton] at hfuel
    omega
  have hv := h fuel depth .null ws (ws' ++ 93 :: rest) hws (ends_space ws' 93 rest hws' rfl) hdepth hlength
  rw [htext, readElements, hv]
  dsimp only
  rw [skipCommentTokens_eq ws' (93 :: rest) rest .arrayEnd hws' rfl Token.noConfusion]

theorem reads_next (hu : Reads scan n (.elements values) u) :
    Reads scan n (.elements (v :: values)) (ws ++ (t ++ (ws' ++ 44 :: u))) := by
  intro fuel depth acc rest hdepth hfuel
  obtain ⟨fuel, rfl⟩ : ∃ k, fuel = k + 1 := ⟨fuel - 1, by omega⟩
  have htext : ws ++ (t ++ (ws' ++ 44 :: u)) ++ rest = ws ++ (t ++ (ws' ++ 44 :: (u ++ rest))) := by
    simp only [List.append_assoc, List.cons_append]
  simp only [List.length_append, List.length_cons] at hfuel
  have hv := h fuel depth .null ws (ws' ++ 44 :: (u ++ rest)) hws (ends_space ws' 44 _ hws' rfl) hdepth (by omega)
  rw [htext, readElements, hv]
  dsimp only
  rw [skipCommentTokens_eq ws' (44 :: (u ++ rest)) (u ++ rest) .arraySeparator hws' rfl Token.noConfusion]
  dsimp only
  rw [hu fuel depth (acc ++ [v]) rest hdepth (by omega), List.append_assoc, List.singleton_append]

end Elements

theorem reads_emptyArray (n : ℕ) (ws : Bytes) (hws : Space ws) :
    Reads scan (n + 1) (.value (.array [])) (91 :: (ws ++ [93])) := by
  intro fuel depth old ws0 rest hws0 hrest hdepth hfuel
  simp only [List.length_cons, List.length_append, List.length_nil] at hfuel
  obtain ⟨fuel, rfl⟩ : ∃ k, fuel = k + 2 := ⟨fuel - 2, by omega⟩
  have htext : 91 :: (ws ++ [93]) ++ rest = 91 :: (ws ++ 93 :: rest) := by
    simp only [List.cons_append, List.append_assoc, List.nil_append]
  rw [htext, readValue, if_neg (by omega),
    skipCommentTokens_eq ws0 (91 :: (ws ++ 93 :: rest)) (ws ++ 93 :: rest) .arrayBegin hws0 rfl Token.noConfusion]
  have hskip : skipSpaces (ws ++ 93 :: rest) = 93 :: rest := skipSpaces_append ws (93 :: rest) hws
  dsimp only
  rw [readArray, hskip]
  rfl

/-- Behind the bracket something stands that does not close it. -/
theorem reads_array (n : ℕ) (values : List (Doc R)) (t : Bytes) (h : Reads scan n (.elements values) t)
    (hhead : ∃ ws c s, t = ws ++ c :: s ∧ Space ws ∧ isSpace c = false ∧ c ≠ 93) :
    Reads scan (n + 1) (.value (.array values)) (91 :: t) := by
  intro fuel depth old ws0 rest hws0 hrest hdepth hfuel
  simp only [List.length_cons] at hfuel
  obtain ⟨fuel, rfl⟩ : ∃ k, fuel = k + 2 := ⟨fuel - 2, by omega⟩
  rw [List.cons_append, readValue, if_neg (by omega),
    skipCommentTokens_eq ws0 (91 :: (t ++ rest)) (t ++ rest) .arrayBegin hws0 rfl Token.noConfusion]
  obtain ⟨ws, c, s, ht, hws, hc, h93⟩ := hhead
  have hskip : skipSpaces (t ++ rest) = c :: (s ++ rest) := by
    rw [ht, List.append_assoc, skipSpaces_append ws _ hws]
    exact List.dropWhile_cons_of_neg (by simp [hc])
  have hread := h fuel (depth + 1) [] rest (by omega) (by omega)
  dsimp only
  rw [readArray, hskip, ← List.nil_append values, ← hread]
  split
  · next heq => exact absurd (List.cons.inj heq).1 h93
  · rfl

/-- The loop over the members, up to what follows a value. -/
theorem readObject_value (fuel depth : ℕ) (name0 name text : Bytes) (acc : List (Bytes × Doc R)) (v : Doc R)
    (s s1 s2 s3 s4 : Bytes) (hname : skipCommentTokens s = (.string text, s1)) (htext : decodeString text = some name)
    (hcolon : readToken s1 = (.memberSeparator, s2))
    (hvalue : readValue scan fuel depth ((acc.lookup name).getD .null) s2 = .done v s3) :
    (readToken s3 = (.objectEnd, s4) →
      readObject scan (fuel + 1) depth name0 acc s = .done (.object (setMember name v acc)) s4) ∧
    (readToken s3 = (.arraySeparator, s4) →
      readObject scan (fuel + 1) depth name0 acc s = readObject scan fuel depth name (setMember name v acc) s4) := by
  constructor
  · intro hend
    simp only [readObject, hname, htext, hcolon, hvalue, hend]
  · intro hend
    simp only [readObject, hname, htext, hcolon, hvalue, hend]

section Members

variable (n : ℕ) (name : Bytes) (v : Doc R) (members : List (Bytes × Doc R)) (ws ws1 ws2 t ws' u : Bytes)
  (hws : Space ws) (hws1 : Space ws1) (hws2 : Space ws2) (hws' : Space ws') (h : Reads scan n (.value v) t)
include hws hws1 hws2 hws' h

/-- A member in front of a separator. -/
theorem readObject_member (fuel depth : ℕ) (name0 : Bytes) (acc : List (Bytes × Doc R)) (c : UInt8) (rest : Bytes)
    (hc : isNumberByte c = false) (hdepth : depth + n ≤ stackLimit) (hfuel : 3 * t.length ≤ fuel)
    (hacc : ∀ m ∈ acc, m.1 < name) :
    (readToken (c :: rest) = (.objectEnd, rest) → readObject scan (fuel + 1) depth name0 acc
      (ws ++ (valueToQuotedStringN name ++ (ws1 ++ 58 :: (ws2 ++ (t ++ (ws' ++ c :: rest)))))) =
        .done (.object (acc ++ [(name, v)])) rest) ∧
    (readToken (c :: rest) = (.arraySeparator, rest) → readObject scan (fuel + 1) depth name0 acc
      (ws ++ (valueToQuotedStringN name ++ (ws1 ++ 58 :: (ws2 ++ (t ++ (ws' ++ c :: rest)))))) =
        readObject scan fuel depth name (acc ++ [(name, v)]) rest) := by
  have hname := skipCommentTokens_eq ws _ (ws1 ++ 58 :: (ws2 ++ (t ++ (ws' ++ c :: rest)))) _ hws
    (readToken_quoted name _) Token.noConfusion
  have hcolon : readToken (ws1 ++ 58 :: (ws2 ++ (t ++ (ws' ++ c :: rest)))) =
      (.memberSeparator, ws2 ++ (t ++ (ws' ++ c :: rest))) := readToken_append ws1 _ hws1
  have hvalue := h fuel depth ((acc.lookup name).getD .null) ws2 (ws' ++ c :: rest) hws2
    (ends_space ws' c rest hws' hc) hdepth hfuel
  have hloop := readObject_value scan fuel depth name0 name _ acc v _ _ _ _ rest hname (decodeString_quoted name)
    hcolon hvalue
  rw [setMember_last name v acc hacc, readToken_append ws' _ hws'] at hloop
  exact hloop

theorem reads_lastMember : Reads scan n (.members [(name, v)])
    (ws ++ (valueToQuotedStringN name ++ (ws1 ++ 58 :: (ws2 ++ (t ++ (ws' ++ [125])))))) := by
  intro fuel depth name0 acc rest hdepth hfuel hacc
  simp only [List.length_append, List.length_cons] at hfuel
  obtain ⟨fuel, rfl⟩ : ∃ k, fuel = k + 1 := ⟨fuel - 1, by omega⟩
  have hbefore : ∀ m ∈ acc, m.1 < name := fun m hm => hacc m hm _ List.mem_cons_self
  have hmember := (readObject_member scan n name v ws ws1 ws2 t ws' hws hws1 hws2 hws' h fuel depth name0 acc 125 rest
    rfl hdepth (by omega) hbefore).1 rfl
  simpa only [List.append_assoc, List.cons_append, List.nil_append] using hmember

theorem reads_nextMember (hname : ∀ m ∈ members, name < m.1) (hu : Reads scan n (.members members) u) :
    Reads scan n (.members ((name, v) :: members))
      (ws ++ (valueToQuotedStringN name ++ (ws1 ++ 58 :: (ws2 ++ (t ++ (ws' ++ 44 :: u)))))) := by
  intro fuel depth name0 acc rest hdepth hfuel hacc
  simp only [List.length_append, List.length_cons] at hfuel
  obtain ⟨fuel, rfl⟩ : ∃ k, fuel = k + 1 := ⟨fuel - 1, by omega⟩
  have hbefore : ∀ m ∈ acc, m.1 < name := fun m hm => hacc m hm _ List.mem_cons_self
  have hmember := (readObject_member scan n name v ws ws1 ws2 t ws' hws hws1 hws2 hws' h fuel depth name0 acc 44
    (u ++ rest) rfl hdepth (by omega) hbefore).2 rfl
  have hsorted : ∀ m ∈ acc ++ [(name, v)], ∀ m' ∈ members, m.1 < m'.1 := by
    intro m hm m' hm'
    rcases List.mem_append.mp hm with hm | hm
    · exact hacc m hm m' (List.mem_cons_of_mem _ hm')
    · rw [List.mem_singleton.mp hm]
      exact hname m' hm'
  have hrest := hu fuel depth name (acc ++ [(name, v)]) rest hdepth (by omega) hsorted
  rw [hrest] at hmember
  simpa only [List.append_assoc, List.cons_append, List.nil_append] using hmember

end Members

theorem reads_emptyObject (n : ℕ) (ws : Bytes) (hws : Space ws) :
    Reads scan (n + 1) (.value (.object [])) (123 :: (ws ++ [125])) := by
  intro fuel depth old ws0 rest hws0 hrest hdepth hfuel
  simp only [List.length_cons, List.length_append, List.length_nil] at hfuel
  obtain ⟨fuel, rfl⟩ : ∃ k, fuel = k + 2 := ⟨fuel - 2, by omega⟩
  have htext : 123 :: (ws ++ [125]) ++ rest = 123 :: (ws ++ 125 :: rest) := by
    simp only [List.cons_append, List.append_assoc, List.nil_append]
  rw [htext, readValue, if_neg (by omega),
    skipCommentTokens_eq ws0 (123 :: (ws ++ 125 :: rest)) (ws ++ 125 :: rest) .objectBegin hws0 rfl Token.noConfusion]
  dsimp only
  rw [readObject, skipCommentTokens_eq ws (125 :: rest) rest .objectEnd hws rfl Token.noConfusion]
  rfl

theorem reads_object (n : ℕ) (members : List (Bytes × Doc R)) (t : Bytes) (h : Reads scan n (.members members) t) :
    Reads scan (n + 1) (.value (.object members)) (123 :: t) := by
  intro fuel depth old ws0 rest hws0 hrest hdepth hfuel
  simp only [List.length_cons] at hfuel
  obtain ⟨fuel, rfl⟩ : ∃ k, fuel = k + 1 := ⟨fuel - 1, by omega⟩
  rw [List.cons_append, readValue, if_neg (by omega),
    skipCommentTokens_eq ws0 (123 :: (t ++ rest)) (t ++ rest) .objectBegin hws0 rfl Token.noConfusion]
  exact h fuel (depth + 1) [] [] rest (by omega) (by omega) fun m hm => absurd hm List.not_mem_nil

theorem elements_head (n : ℕ) (values : List (Doc R)) (t : Bytes) (h : Layout scan n (.elements values) t) :
    ∃ ws c s, t = ws ++ c :: s ∧ Space ws ∧ isSpace c = false ∧ c ≠ 93 := by
  cases h with
  | last n v ws t ws' hws hws' h =>
    obtain ⟨c, s, rfl, hc, h93⟩ := layout_head scan n v t h
    exact ⟨ws, c, _, rfl, hws, hc, h93⟩
  | next n v values ws t ws' u hws hws' h hu =>
    obtain ⟨c, s, rfl, hc, h93⟩ := layout_head scan n v t h
    exact ⟨ws, c, _, rfl, hws, hc, h93⟩

/-- A text that denotes a value is read as that value, wherever its blanks are. -/
theorem reads_layout (n : ℕ) (item : Item R) (t : Bytes) (h : Layout scan n item t) : Reads scan n item t := by
  induction h with
  | null n => exact reads_null scan n
  | boolean n b => exact reads_boolean scan n b
  | string n s => exact reads_string scan n s
  | number n v text ht hv => exact reads_number scan n v text ht hv
  | emptyArray n ws hws => exact reads_emptyArray scan n ws hws
  | array n values t h ih => exact reads_array scan n values t ih (elements_head scan n values t h)
  | last n v ws t ws' hws hws' h ih => exact reads_last scan n v ws t ws' hws hws' ih
  | next n v values ws t ws' u hws hws' h hu ih ihu =>
    exact reads_next scan n v values ws t ws' u hws hws' ih ihu
  | emptyObject n ws hws => exact reads_emptyObject scan n ws hws
  | object n members t h ih => exact reads_object scan n members t ih
  | lastMember n name v ws ws1 ws2 t ws' hws hws1 hws2 hws' h ih =>
    exact reads_lastMember scan n name v ws ws1 ws2 t ws' hws hws1 hws2 hws' ih
  | nextMember n name v members ws ws1 ws2 t ws' u hws hws1 hws2 hws' h hname hu ih ihu =>
    exact reads_nextMember scan n name v members ws ws1 ws2 t ws' u hws hws1 hws2 hws' ih hname ihu

/-- A document may have blanks before its value, and anything behind it that
does not go on with a number. -/
theorem parse_layout (n : ℕ) (v : Doc R) (ws t rest : Bytes) (h : Layout scan n (.value v) t) (hws : Space ws)
    (hrest : Ends rest) (hn : n ≤ stackLimit) : parse scan (ws ++ (t ++ rest)) = .done v rest := by
  refine reads_layout scan n _ t h _ 0 .null ws rest hws hrest (by omega) ?_
  simp only [List.length_append]
  omega

end Reading

end BitPark.JsonLayout
