import BitPark.LikePattern
import BitPark.Passage

namespace BitPark.FuzzyMatch

open BitPark.Effect BitPark.Server BitPark.Database BitPark.Members BitPark.LikePattern BitPark.Fallible

/-! The members that a plate matches up to one character. -/

/-- A province, which takes three bytes, and characters of one byte that are no signs of a pattern. -/
structure Plate where
  province : Char
  number : List Char
  three : province.utf8Size = 3
  one : ∀ c ∈ number, c.utf8Size = 1
  signless : ∀ c ∈ number, c ≠ '_' ∧ c ≠ '%'
  nonempty : number ≠ []

def Plate.chars (p : Plate) : List Char := p.province :: p.number

def Plate.text (p : Plate) : String := String.ofList p.chars

/-- The database compares the characters of the column with the pattern. -/
def likeText (pattern : List UInt8) (carno : String) : Bool := like pattern carno.toList

def utf8 (text : List Char) : List UInt8 := text.flatMap String.utf8EncodeChar

theorem bytes_ofList (text : List Char) : bytes (String.ofList text) = utf8 text := by
  rw [bytes, String.toUTF8_eq_toByteArray, String.toByteArray_ofList, List.utf8Encode, List.data_toByteArray]
  rfl

theorem length_utf8_one (text : List Char) (h : ∀ c ∈ text, c.utf8Size = 1) : (utf8 text).length = text.length := by
  induction text with
  | nil => rfl
  | cons c text ih =>
    obtain ⟨hc, htext⟩ := List.forall_mem_cons.mp h
    rw [utf8, List.flatMap_cons, List.length_append, String.length_utf8EncodeChar, hc, List.length_cons]
    have hrest := ih htext
    rw [utf8] at hrest
    omega

/-- Masking a byte that is a character masks the character. -/
theorem maskAt_char (before after : List Char) (c : Char) (hc : c.utf8Size = 1) :
    maskAt (utf8 (before ++ c :: after)) (utf8 before).length =
      .ok (encode (mask (before ++ c :: after) before.length)) := by
  have hbytes : utf8 (before ++ c :: after) = utf8 before ++ (String.utf8EncodeChar c ++ utf8 after) := by
    rw [utf8, List.flatMap_append, List.flatMap_cons]
    rfl
  have hlen : (String.utf8EncodeChar c).length = 1 := by rw [String.length_utf8EncodeChar, hc]
  have hmask : mask (before ++ c :: after) before.length = before.map some ++ none :: after.map some := by
    rw [mask, List.map_append, List.map_cons, List.set_append_right _ _ (by simp)]
    simp
  have hencode : encode (before.map some ++ none :: after.map some) = utf8 before ++ anyCharacter :: utf8 after := by
    rw [encode_append, encode_map_some]
    change utf8 before ++ (anyCharacter :: encode (after.map some)) = _
    rw [encode_map_some]
    rfl
  have hdrop : (utf8 before ++ (String.utf8EncodeChar c ++ utf8 after)).drop ((utf8 before).length + 1) = utf8 after := by
    rw [← hlen, ← List.drop_drop, List.drop_left, List.drop_left]
  rw [maskAt, hbytes, if_neg (by simp), List.take_left, hdrop, hmask, hencode]
  rfl

section Patterns

variable (p : Plate)

theorem length_bytes : (bytes p.text).length = 3 + p.number.length := by
  rw [Plate.text, bytes_ofList, Plate.chars, utf8, List.flatMap_cons, List.length_append, String.length_utf8EncodeChar,
    p.three]
  exact congrArg (3 + ·) (length_utf8_one p.number p.one)

/-- The characters of the pattern that is made at a position. Past the last
character, the sign is appended. -/
def patternAt (pos : ℕ) : List (Option Char) :=
  if pos < 3 + p.number.length then mask p.chars (pos - 2) else p.chars.map some ++ [none]

theorem maskAt_plate (pos : ℕ) (h3 : 3 ≤ pos) (hpos : pos ≤ 3 + p.number.length) :
    maskAt (bytes p.text) pos = .ok (encode (patternAt p pos)) := by
  have hlen := length_bytes p
  rw [patternAt]
  split_ifs with hlt
  · obtain ⟨i, rfl⟩ := Nat.exists_eq_add_of_le h3
    have hi : i < p.number.length := by omega
    have hchars : p.chars = (p.province :: p.number.take i) ++ p.number[i] :: p.number.drop (i + 1) := by
      rw [List.cons_append, List.getElem_cons_drop, List.take_append_drop, Plate.chars]
    have htake : (utf8 (p.province :: p.number.take i)).length = 3 + i := by
      have hone := length_utf8_one (p.number.take i) fun c hc => p.one c (List.mem_of_mem_take hc)
      rw [List.length_take, min_eq_left hi.le] at hone
      rw [utf8, List.flatMap_cons, List.length_append, String.length_utf8EncodeChar, p.three]
      exact congrArg (3 + ·) hone
    have hmask := maskAt_char (p.province :: p.number.take i) (p.number.drop (i + 1)) p.number[i]
      (p.one _ (List.getElem_mem hi))
    rw [← hchars, htake, ← bytes_ofList, List.length_cons, List.length_take, min_eq_left hi.le] at hmask
    rw [Plate.text, hmask, show 3 + i - 2 = i + 1 by omega]
  · obtain rfl : pos = 3 + p.number.length := by omega
    rw [maskAt, if_neg (by omega), ← hlen, List.take_length, List.drop_of_length_le (by omega), encode_append,
      encode_map_some, Plate.text, bytes_ofList]
    rfl

theorem ignoreProvincePattern_plate : ignoreProvincePattern (bytes p.text) = .ok (encode (mask p.chars 0)) := by
  have hdrop : (bytes p.text).drop 3 = utf8 p.number := by
    have h3 : (String.utf8EncodeChar p.province).length = 3 := by rw [String.length_utf8EncodeChar, p.three]
    rw [Plate.text, bytes_ofList, Plate.chars, utf8, List.flatMap_cons, ← h3, List.drop_left]
    rfl
  have hlen := length_bytes p
  rw [ignoreProvincePattern, if_neg (by omega), hdrop]
  change _ = Except.ok (anyCharacter :: encode (p.number.map some))
  rw [encode_map_some]
  rfl

def positions : List ℕ := [3, 4, 5, 6, 7, 8]

/-- The patterns of a plate that is long enough. -/
def platePatterns : List (List UInt8) := encode (mask p.chars 0) :: positions.map fun pos => encode (patternAt p pos)

theorem fuzzyPatterns_plate (h : 5 ≤ p.number.length) : fuzzyPatterns (bytes p.text) = .ok (platePatterns p) := by
  have hothers := mapM_eq_ok (maskAt (bytes p.text)) (fun pos => encode (patternAt p pos)) positions fun pos hpos => by
    rw [positions] at hpos
    apply maskAt_plate p pos
    · simp at hpos
      omega
    · simp at hpos
      omega
  rw [fuzzyPatterns, ignoreProvincePattern_plate]
  rw [positions] at hothers
  rw [hothers]
  rfl

theorem chars_signless (c : Char) (hc : c ∈ p.chars) : c ≠ '_' := by
  obtain rfl | hnumber := List.mem_cons.mp hc
  · intro hsign
    have hthree := p.three
    rw [hsign] at hthree
    exact absurd hthree (by decide)
  · exact (p.signless c hnumber).1

theorem like_mask (i : ℕ) (text : List Char) : like (encode (mask p.chars i)) text = true ↔ Fits (mask p.chars i) text := by
  apply like_encode
  intro hmem
  obtain hmap | hnone := List.mem_or_eq_of_mem_set hmem
  · obtain ⟨c, hc, hsign⟩ := List.mem_map.mp hmap
    exact chars_signless p c hc (Option.some.inj hsign)
  · cases hnone

theorem like_append_any (text : List Char) :
    like (encode (p.chars.map some ++ [none])) text = true ↔ Fits (p.chars.map some ++ [none]) text := by
  apply like_encode
  intro hmem
  obtain hmap | hnone := List.mem_append.mp hmem
  · obtain ⟨c, hc, hsign⟩ := List.mem_map.mp hmap
    exact chars_signless p c hc (Option.some.inj hsign)
  · cases List.mem_singleton.mp hnone

theorem like_mask_iff (i : ℕ) (hi : i < p.chars.length) (text : List Char) :
    like (encode (mask p.chars i)) text = true ↔ ∃ c, text = p.chars.set i c :=
  (like_mask p i text).trans (fits_mask_iff p.chars text i hi)

/-- The texts that one of the patterns matches. -/
def Matched (text : List Char) : Prop :=
  like (encode (mask p.chars 0)) text = true ∨ ∃ pos ∈ positions, like (encode (patternAt p pos)) text = true

theorem length_chars : p.chars.length = p.number.length + 1 := List.length_cons

/-- The patterns mask the first seven characters. If there are only six, the
last one asks for one character more. -/
theorem matched_iff (h : 5 ≤ p.number.length) (text : List Char) :
    Matched p text ↔ (∃ i < 7, i ≤ p.number.length ∧ ∃ c, text = p.chars.set i c) ∨
      p.number.length = 5 ∧ ∃ c, text = p.chars ++ [c] := by
  have hlen := length_chars p
  have hmasked : ∀ pos, 3 ≤ pos → pos < 3 + p.number.length →
      (like (encode (patternAt p pos)) text = true ↔ ∃ c, text = p.chars.set (pos - 2) c) := by
    intro pos h3 hpos
    rw [patternAt, if_pos hpos]
    exact like_mask_iff p (pos - 2) (by omega) text
  have hlast : p.number.length = 5 →
      (like (encode (patternAt p 8)) text = true ↔ ∃ c, text = p.chars ++ [c]) := by
    intro h5
    rw [patternAt, if_neg (by omega)]
    exact (like_append_any p text).trans (fits_append_any p.chars text)
  have hpositions : ∀ pos, pos ∈ positions ↔ 3 ≤ pos ∧ pos ≤ 8 := by
    intro pos
    simp only [positions, List.mem_cons, List.not_mem_nil, or_false]
    omega
  rw [Matched, like_mask_iff p 0 (by omega)]
  constructor
  · rintro (⟨c, hc⟩ | ⟨pos, hpos, hlike⟩)
    · exact .inl ⟨0, by omega, by omega, c, hc⟩
    · obtain ⟨h3, h8⟩ := (hpositions pos).mp hpos
      by_cases hin : pos < 3 + p.number.length
      · obtain ⟨c, hc⟩ := (hmasked pos h3 hin).mp hlike
        exact .inl ⟨pos - 2, by omega, by omega, c, hc⟩
      · obtain rfl : pos = 8 := by omega
        have h5 : p.number.length = 5 := by omega
        exact .inr ⟨h5, (hlast h5).mp hlike⟩
  · rintro (⟨i, hi, hle, c, hc⟩ | ⟨h5, happended⟩)
    · cases i with
      | zero => exact .inl ⟨c, hc⟩
      | succ i =>
        exact .inr ⟨i + 3, (hpositions _).mpr (by omega), (hmasked (i + 3) (by omega) (by omega)).mpr ⟨c, hc⟩⟩
    · exact .inr ⟨8, (hpositions 8).mpr (by omega), (hlast h5).mpr happended⟩

theorem withinOne_chars_iff (text : List Char) :
    WithinOne p.chars text ↔ ∃ i ≤ p.number.length, ∃ c, text = p.chars.set i c := by
  rw [withinOne_iff p.chars text (List.cons_ne_nil _ _), length_chars]
  simp only [Nat.lt_succ_iff]

end Patterns

/-- Every row with one character replaced is found and no other one: the plate
has seven characters, or six and no row has one more behind it, or more than
seven and no row differs behind the seventh only. -/
def Covered (p : Plate) (vips : List VIPVehicle) : Prop :=
  p.number.length = 6 ∨
  (p.number.length = 5 ∧ ∀ v ∈ vips, ∀ c, v.plateNumber.toList ≠ p.chars ++ [c]) ∨
  (6 < p.number.length ∧ ∀ v ∈ vips, ∀ i c, 7 ≤ i → v.plateNumber.toList = p.chars.set i c →
    v.plateNumber.toList = p.chars)

theorem set_eq_set_ne {α : Type} (s : List α) (i j : ℕ) (c d : α) (hij : i ≠ j) (h : s.set i c = s.set j d) :
    s.set i c = s := by
  apply List.ext_getElem?
  intro k
  by_cases hk : k = j
  · rw [hk, List.getElem?_set_ne hij]
  · rw [h, List.getElem?_set_ne (Ne.symm hk)]

theorem exact_iff_covered (p : Plate) (h : 5 ≤ p.number.length) (vips : List VIPVehicle) :
    (∀ v ∈ vips, Matched p v.plateNumber.toList ↔ WithinOne p.chars v.plateNumber.toList) ↔ Covered p vips := by
  have hself : p.chars = p.chars.set 0 p.province := rfl
  rw [Covered]
  constructor
  · intro hexact
    by_cases h6 : p.number.length = 6
    · exact .inl h6
    · by_cases h5 : p.number.length = 5
      · refine .inr (.inl ⟨h5, fun v hv c hc => ?_⟩)
        have hone := (hexact v hv).mp ((matched_iff p h _).mpr (.inr ⟨h5, c, hc⟩))
        have hlen := hone.1
        rw [hc, List.length_append, List.length_singleton] at hlen
        omega
      · refine .inr (.inr ⟨by omega, fun v hv i c hi hc => ?_⟩)
        by_cases hin : i ≤ p.number.length
        · have hone := (withinOne_chars_iff p _).mpr ⟨i, hin, c, hc⟩
          obtain ⟨j, hj, -, d, hd⟩ | ⟨hfive, -⟩ := (matched_iff p h _).mp ((hexact v hv).mpr hone)
          · rw [hc]
            exact set_eq_set_ne p.chars i j c d (by omega) (hc.symm.trans hd)
          · exact absurd hfive h5
        · rw [hc, List.set_eq_of_length_le]
          rw [length_chars]
          omega
  · intro hcovered v hv
    rw [matched_iff p h, withinOne_chars_iff]
    constructor
    · rintro (⟨i, -, hle, hset⟩ | ⟨h5, c, hc⟩)
      · exact ⟨i, hle, hset⟩
      · obtain h6 | ⟨-, hnone⟩ | ⟨h7, -⟩ := hcovered
        · omega
        · exact absurd hc (hnone v hv c)
        · omega
    · rintro ⟨i, hle, c, hc⟩
      by_cases hi : i < 7
      · exact .inl ⟨i, hi, hle, c, hc⟩
      · obtain h6 | ⟨h5, -⟩ | ⟨-, hnone⟩ := hcovered
        · omega
        · omega
        · exact .inl ⟨0, by omega, by omega, p.province, (hnone v hv i c (by omega) hc).trans hself⟩

theorem filter_eq_filter_iff {α : Type} (l : List α) (f g : α → Bool) :
    l.filter f = l.filter g ↔ ∀ a ∈ l, f a = true ↔ g a = true := by
  constructor
  · intro h a ha
    have hmem : a ∈ l.filter f ↔ a ∈ l.filter g := by rw [h]
    simpa [ha] using hmem
  · intro h
    apply List.filter_congr
    exact fun a ha => Bool.eq_iff_iff.mpr (h a ha)

/-- Rows that are chosen by their plates are the same rows if they read the same. -/
theorem read_eq_read_iff (vips : List VIPVehicle) (f g : String → Bool) :
    (vips.filter fun v => f v.plateNumber).map handleQueryVipVehicle =
      (vips.filter fun v => g v.plateNumber).map handleQueryVipVehicle ↔
    ∀ v ∈ vips, f v.plateNumber = true ↔ g v.plateNumber = true := by
  constructor
  · intro h
    have hplates : ∀ f : String → Bool, (((vips.filter fun v => f v.plateNumber).map handleQueryVipVehicle).map
        (·.plateNumber)) = (vips.map (·.plateNumber)).filter f := by
      intro f
      rw [List.map_map, List.filter_map]
      rfl
    have heq := (filter_eq_filter_iff (vips.map (·.plateNumber)) f g).mp (by rw [← hplates, ← hplates, h])
    exact fun v hv => heq v.plateNumber (List.mem_map_of_mem hv)
  · intro h
    rw [(filter_eq_filter_iff vips _ _).mpr h]

/-- Nothing in the bytes ends or escapes a quoted text of SQL. -/
def Quoteless (text : List UInt8) : Prop := ∀ b ∈ text, b ≠ 39 ∧ b ≠ 92

instance (text : List UInt8) : Decidable (Quoteless text) := inferInstanceAs (Decidable (∀ b ∈ text, _))

/-- The patterns have nothing but the bytes of the plate and the sign for any character. -/
theorem quoteless_patterns (plate : List UInt8) (ps : List (List UInt8)) (h : fuzzyPatterns plate = .ok ps)
    (hq : Quoteless plate) : ∀ pattern ∈ ps, Quoteless pattern := by
  have hsign : (underscore ≠ 39 ∧ underscore ≠ 92) := by decide
  obtain ⟨province, hprovince, h⟩ := bind_ok h
  obtain ⟨others, hothers, h⟩ := bind_ok h
  cases h
  intro pattern hpattern b hb
  obtain rfl | hmem := List.mem_cons.mp hpattern
  · rw [ignoreProvincePattern] at hprovince
    split_ifs at hprovince
    cases hprovince
    obtain rfl | hb := List.mem_cons.mp hb
    · exact hsign
    · exact hq b (List.mem_of_mem_drop hb)
  · obtain ⟨pos, -, hpos⟩ := mapM_mem _ _ _ hothers pattern hmem
    rw [maskAt] at hpos
    split_ifs at hpos
    cases hpos
    obtain hb | hb := List.mem_append.mp hb
    · exact hq b (List.mem_of_mem_take hb)
    · obtain rfl | hb := List.mem_cons.mp hb
      · exact hsign
      · exact hq b (List.mem_of_mem_drop hb)

/-- The members within one character of the plate, as they are read. -/
def withinOne (p : Plate) (w : World) : List VIPVehicle :=
  (w.vips.filter fun v => WithinOne p.chars v.plateNumber.toList).map handleQueryVipVehicle

/-- The query cuts the plate at the ninth byte. -/
theorem queryFuzzy_short (env : Env) (p : Plate) (w : World) (h : p.number.length < 5) :
    ∃ e, run (queryVIPVehicleFuzzyMatch env p.text) w = (.error e, w) := by
  cases hp : fuzzyPatterns (bytes p.text) with
  | error e =>
    refine ⟨.other e, ?_⟩
    rw [queryVIPVehicleFuzzyMatch, hp]
    rfl
  | ok ps =>
    have hlen := (Passage.fuzzyPatterns_ok _).mp ⟨ps, hp⟩
    rw [length_bytes] at hlen
    omega

/-- Where every pattern is compared character by character, the rows that are returned are the matched ones. -/
theorem any_platePatterns (p : Plate) (compare : List UInt8 → String → Bool) (carno : String)
    (hlike : ∀ pattern ∈ platePatterns p, compare pattern carno = likeText pattern carno) :
    (platePatterns p).any (fun pattern => compare pattern carno) = true ↔ Matched p carno.toList := by
  have hsame : (platePatterns p).any (fun pattern => compare pattern carno) =
      (platePatterns p).any fun pattern => likeText pattern carno := by
    rw [Bool.eq_iff_iff, List.any_eq_true, List.any_eq_true]
    apply exists_congr
    intro pattern
    apply and_congr_right
    intro hpattern
    rw [hlike pattern hpattern]
  rw [hsame]
  simp only [platePatterns, List.any_cons, List.any_map, Bool.or_eq_true, List.any_eq_true, Function.comp_apply,
    likeText, Matched]

/-- The query of a plate that is long enough is right if every row is matched as it should be. -/
theorem queryFuzzy_eq_iff (env : Env) (p : Plate) (w : World) (h : 5 ≤ p.number.length)
    (hlike : ∀ carno, ∀ pattern ∈ platePatterns p, env.like pattern carno = likeText pattern carno)
    (hanswers : env.fails ⟨.select, .vipInfo, p.text⟩ = none) :
    run (queryVIPVehicleFuzzyMatch env p.text) w = (.ok (withinOne p w), w) ↔
      ∀ v ∈ w.vips, Matched p v.plateNumber.toList ↔ WithinOne p.chars v.plateNumber.toList := by
  have hrun : run (queryVIPVehicleFuzzyMatch env p.text) w =
      (.ok (matching env.like w.vips (platePatterns p)), w) := by
    rw [queryVIPVehicleFuzzyMatch, run_bind_ok _ _ _ _ _ (run_ofExcept_ok _ _ w (fuzzyPatterns_plate p h))]
    exact run_query env _ _ w hanswers
  have hread := read_eq_read_iff w.vips (fun carno => (platePatterns p).any fun pattern => env.like pattern carno)
    fun carno => decide (WithinOne p.chars carno.toList)
  rw [hrun, Prod.mk.injEq, and_iff_left rfl, Except.ok.injEq]
  refine hread.trans (forall₂_congr fun v _ => ?_)
  rw [any_platePatterns p env.like v.plateNumber (hlike v.plateNumber), decide_eq_true_eq]

def memberEnv : Env := { quietEnv with like := likeText }

def member (carno : String) : VIPVehicle := { plateNumber := carno }

theorem digits_and_letters (number : List Char)
    (h : number.all (fun c => c.utf8Size = 1 ∧ c ≠ '_' ∧ c ≠ '%') = true) :
    (∀ c ∈ number, c.utf8Size = 1) ∧ ∀ c ∈ number, c ≠ '_' ∧ c ≠ '%' := by
  rw [List.all_eq_true] at h
  exact ⟨fun c hc => (of_decide_eq_true (h c hc)).1, fun c hc => (of_decide_eq_true (h c hc)).2⟩

def beijing (number : List Char) (h : number.all (fun c => c.utf8Size = 1 ∧ c ≠ '_' ∧ c ≠ '%') = true)
    (hne : number ≠ []) : Plate :=
  ⟨'京', number, by decide, (digits_and_letters number h).1, (digits_and_letters number h).2, hne⟩

def sevenCharacters : Plate := beijing ['A', '1', '2', '3', '4', '5'] (by decide) (by decide)

def eightCharacters : Plate := beijing ['A', 'D', '1', '2', '3', '4', '5'] (by decide) (by decide)

def sixCharacters : Plate := beijing ['A', '1', '2', '3', '4'] (by decide) (by decide)

def fiveCharacters : Plate := beijing ['A', '1', '2', '3'] (by decide) (by decide)

def oneDigitOff : World := { vips := [member "京A12346", member "京A12335", member "京A12"] }

end BitPark.FuzzyMatch
