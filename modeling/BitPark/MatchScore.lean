import BitPark.EditDistance

namespace BitPark.MatchScore

open BitPark.EditDistance

/-! The score of two plates, from the matrix that `matchscore` fills. -/

/-- The rows and columns of `d`; what is outside of them is not read. -/
structure Matrix where
  entry : ℕ → ℕ → ℕ

def Matrix.set (d : Matrix) (i j v : ℕ) : Matrix := ⟨fun k l => if k = i ∧ l = j then v else d.entry k l⟩

def zeros : Matrix := ⟨fun _ _ => 0⟩

theorem entry_zeros (k l : ℕ) : zeros.entry k l = 0 := rfl

theorem Matrix.entry_set (d : Matrix) (i j v k l : ℕ) :
    (d.set i j v).entry k l = if k = i ∧ l = j then v else d.entry k l := rfl

/-- `d[i][0] = i` for the rows from 1 to `m`. -/
def firstColumn (m : ℕ) (d : Matrix) : Matrix := (List.range' 1 m).foldl (fun d i => d.set i 0 i) d

def firstRow (n : ℕ) (d : Matrix) : Matrix := (List.range' 1 n).foldl (fun d j => d.set 0 j j) d

/-- The characters of a text of valid UTF-8, each of which is one `wchar_t`. -/
def utf8ToWstring (s : String) : List Char := s.toList

section Fill

variable (towupper : Char → Char) (s t : List Char)

/-- The value that the inner loop writes at a place. -/
def cell (d : Matrix) (i j : ℕ) : ℕ :=
  if (s[i - 1]?).map towupper = (t[j - 1]?).map towupper then d.entry (i - 1) (j - 1)
  else min (d.entry (i - 1) j + 1) (min (d.entry i (j - 1) + 1) (d.entry (i - 1) (j - 1) + 1))

def fillColumn (m j : ℕ) (d : Matrix) : Matrix :=
  (List.range' 1 m).foldl (fun d i => d.set i j (cell towupper s t d i j)) d

def fill (n : ℕ) (d : Matrix) : Matrix :=
  (List.range' 1 n).foldl (fun d j => fillColumn towupper s t s.length j d) d

end Fill

def matchscore (towupper : Char → Char) (s8 t8 : String) : ℕ :=
  let s := utf8ToWstring s8
  let t := utf8ToWstring t8
  (fill towupper s t t.length (firstRow t.length (firstColumn s.length zeros))).entry s.length t.length

/-! Every place of the matrix is a distance of two beginnings. -/

theorem firstColumn_eq (m : ℕ) (d : Matrix) (k l : ℕ) :
    (firstColumn m d).entry k l = if l = 0 ∧ 1 ≤ k ∧ k ≤ m then k else d.entry k l := by
  induction m with
  | zero =>
    rw [if_neg (by omega)]
    rfl
  | succ m ih =>
    rw [firstColumn] at ih ⊢
    rw [List.range'_1_concat, List.foldl_append, List.foldl_cons, List.foldl_nil, Matrix.entry_set, ih]
    split_ifs <;> omega

theorem firstRow_eq (n : ℕ) (d : Matrix) (k l : ℕ) :
    (firstRow n d).entry k l = if k = 0 ∧ 1 ≤ l ∧ l ≤ n then l else d.entry k l := by
  induction n with
  | zero =>
    rw [if_neg (by omega)]
    rfl
  | succ n ih =>
    rw [firstRow] at ih ⊢
    rw [List.range'_1_concat, List.foldl_append, List.foldl_cons, List.foldl_nil, Matrix.entry_set, ih]
    split_ifs <;> omega

section Fill

variable (towupper : Char → Char) (s t : List Char)

/-- The distance of the first characters of the one text and the other, compared from their ends. -/
def prefixDistance (k l : ℕ) : ℕ :=
  distance ((s.take k).reverse.map towupper) ((t.take l).reverse.map towupper)

theorem prefixDistance_zero_left (l : ℕ) (hl : l ≤ t.length) : prefixDistance towupper s t 0 l = l := by
  rw [prefixDistance, List.take_zero, List.reverse_nil, List.map_nil, distance_nil_left]
  simp [hl]

theorem prefixDistance_zero_right (k : ℕ) (hk : k ≤ s.length) : prefixDistance towupper s t k 0 = k := by
  rw [prefixDistance, List.take_zero, List.reverse_nil, List.map_nil, distance_nil_right]
  simp [hk]

theorem take_succ_reverse (l : List Char) (k : ℕ) (hk : k < l.length) :
    (l.take (k + 1)).reverse.map towupper = towupper l[k] :: (l.take k).reverse.map towupper := by
  rw [List.take_succ_eq_append_getElem hk, List.reverse_append]
  rfl

/-- What the inner loop computes from the places before. -/
theorem prefixDistance_succ (k l : ℕ) (hk : k < s.length) (hl : l < t.length) :
    prefixDistance towupper s t (k + 1) (l + 1) =
      if towupper s[k] = towupper t[l] then prefixDistance towupper s t k l
      else min (prefixDistance towupper s t k (l + 1) + 1)
        (min (prefixDistance towupper s t (k + 1) l + 1) (prefixDistance towupper s t k l + 1)) := by
  rw [prefixDistance, take_succ_reverse towupper s k hk, take_succ_reverse towupper t l hl, distance]
  rw [prefixDistance, prefixDistance, prefixDistance, take_succ_reverse towupper s k hk,
    take_succ_reverse towupper t l hl]

/-- A matrix whose columns up to one are right, and its first row. -/
structure Filled (j : ℕ) (d : Matrix) : Prop where
  column : ∀ k l, k ≤ s.length → l ≤ j → d.entry k l = prefixDistance towupper s t k l
  row : ∀ l, l ≤ t.length → d.entry 0 l = l

/-- The inner loop fills the next column down to each row. -/
theorem fillColumn_eq (j : ℕ) (hj : j < t.length) (d : Matrix) (hd : Filled towupper s t j d) (m : ℕ)
    (hm : m ≤ s.length) (k l : ℕ) :
    (fillColumn towupper s t m (j + 1) d).entry k l =
      if l = j + 1 ∧ 1 ≤ k ∧ k ≤ m then prefixDistance towupper s t k l else d.entry k l := by
  induction m generalizing k l with
  | zero =>
    rw [if_neg (by omega)]
    rfl
  | succ m ih =>
    have hprev := ih (by omega)
    rw [fillColumn] at hprev ⊢
    rw [List.range'_1_concat, List.foldl_append, List.foldl_cons, List.foldl_nil, Matrix.entry_set]
    by_cases hkl : k = 1 + m ∧ l = j + 1
    · obtain ⟨rfl, rfl⟩ := hkl
      -- the places above, to the left and diagonally before are right
      have hleft : (fillColumn towupper s t m (j + 1) d).entry (m + 1) j = prefixDistance towupper s t (m + 1) j := by
        rw [fillColumn, hprev, if_neg (by omega)]
        exact hd.column (m + 1) j hm le_rfl
      have hdiagonal : (fillColumn towupper s t m (j + 1) d).entry m j = prefixDistance towupper s t m j := by
        rw [fillColumn, hprev, if_neg (by omega)]
        exact hd.column m j (by omega) le_rfl
      have habove : (fillColumn towupper s t m (j + 1) d).entry m (j + 1) = prefixDistance towupper s t m (j + 1) := by
        rw [fillColumn, hprev]
        split_ifs with hpos
        · rfl
        · obtain rfl : m = 0 := by omega
          rw [hd.row (j + 1) hj, prefixDistance_zero_left towupper s t (j + 1) hj]
      rw [fillColumn] at hleft hdiagonal habove
      rw [if_pos ⟨rfl, rfl⟩, if_pos (by omega), cell, Nat.add_comm 1 m, Nat.add_sub_cancel, Nat.add_sub_cancel, hleft,
        hdiagonal, habove, prefixDistance_succ towupper s t m j hm hj, List.getElem?_eq_getElem hm,
        List.getElem?_eq_getElem hj]
      simp only [Option.map_some, Option.some.injEq]
    · rw [if_neg hkl, hprev]
      split_ifs <;> omega

theorem filled_fillColumn (j : ℕ) (hj : j < t.length) (d : Matrix) (hd : Filled towupper s t j d) :
    Filled towupper s t (j + 1) (fillColumn towupper s t s.length (j + 1) d) := by
  have hfill := fillColumn_eq towupper s t j hj d hd s.length le_rfl
  refine ⟨fun k l hk hl => ?_, fun l hl => ?_⟩
  · rw [hfill]
    split_ifs with hnew
    · rfl
    · obtain hold | rfl := Nat.lt_or_eq_of_le hl
      · exact hd.column k l hk (Nat.le_of_lt_succ hold)
      · obtain rfl : k = 0 := by omega
        rw [hd.row (j + 1) hj, prefixDistance_zero_left towupper s t (j + 1) hj]
  · rw [hfill, if_neg (by omega)]
    exact hd.row l hl

theorem filled_fill (n : ℕ) (hn : n ≤ t.length) (d : Matrix) (hd : Filled towupper s t 0 d) :
    Filled towupper s t n (fill towupper s t n d) := by
  induction n with
  | zero => exact hd
  | succ n ih =>
    have hnext := filled_fillColumn towupper s t n hn _ (ih (by omega))
    rw [fill, List.range'_1_concat, List.foldl_append, List.foldl_cons, List.foldl_nil, Nat.add_comm 1 n]
    exact hnext

theorem filled_initial : Filled towupper s t 0 (firstRow t.length (firstColumn s.length zeros)) := by
  refine ⟨fun k l hk hl => ?_, fun l hl => ?_⟩
  · obtain rfl : l = 0 := by omega
    rw [firstRow_eq, firstColumn_eq, prefixDistance_zero_right towupper s t k hk, entry_zeros]
    split_ifs <;> omega
  · rw [firstRow_eq, firstColumn_eq, entry_zeros]
    split_ifs <;> omega

/-- For equal characters the neighbours of a place are not cheaper than its diagonal. -/
theorem diagonal_le (k l : ℕ) (hk : k < s.length) (hl : l < t.length) :
    prefixDistance towupper s t k l ≤ prefixDistance towupper s t k (l + 1) + 1 ∧
      prefixDistance towupper s t k l ≤ prefixDistance towupper s t (k + 1) l + 1 := by
  rw [prefixDistance, prefixDistance, prefixDistance, take_succ_reverse towupper s k hk,
    take_succ_reverse towupper t l hl]
  refine ⟨?_, (distance_neighbours _ _ _).2⟩
  rw [distance_comm, distance_comm ((s.take k).reverse.map towupper)]
  exact (distance_neighbours _ _ _).2

end Fill

/-- The score is the least number of characters to insert, delete and replace,
and the step along the diagonal of equal characters misses nothing. -/
theorem matchscore_isDistance (towupper : Char → Char) (s t : String) :
    IsDistance towupper s.toList t.toList (matchscore towupper s t) ∧
      ∀ k l (hk : k < s.toList.length) (hl : l < t.toList.length), towupper s.toList[k] = towupper t.toList[l] →
        prefixDistance towupper s.toList t.toList (k + 1) (l + 1) = prefixDistance towupper s.toList t.toList k l ∧
        prefixDistance towupper s.toList t.toList k l ≤ prefixDistance towupper s.toList t.toList k (l + 1) + 1 ∧
        prefixDistance towupper s.toList t.toList k l ≤ prefixDistance towupper s.toList t.toList (k + 1) l + 1 := by
  have hfilled := filled_fill towupper s.toList t.toList t.toList.length le_rfl _
    (filled_initial towupper s.toList t.toList)
  have hscore : matchscore towupper s t =
      distance (s.toList.reverse.map towupper) (t.toList.reverse.map towupper) := by
    have hlast := hfilled.column s.toList.length t.toList.length le_rfl le_rfl
    rw [prefixDistance, List.take_length, List.take_length] at hlast
    exact hlast
  constructor
  · apply isDistance_reverse
    rw [hscore]
    exact isDistance_distance towupper s.toList.reverse t.toList.reverse
  · intro k l hk hl hequal
    refine ⟨?_, diagonal_le towupper s.toList t.toList k l hk hl⟩
    rw [prefixDistance_succ towupper s.toList t.toList k l hk hl, if_pos hequal]

example : matchscore Char.toUpper "鲁b11111" "京B1111" = 2 := by decide

end BitPark.MatchScore
