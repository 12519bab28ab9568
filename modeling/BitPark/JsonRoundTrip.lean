import BitPark.JsonLayout

namespace BitPark.JsonRoundTrip

open BitPark.Decimal (Bytes decimal decimalNat)
open BitPark.JsonText BitPark.JsonWriters BitPark.JsonTokens BitPark.JsonLayout

/-! What is written by either writer is read back. -/

section RoundTrip

variable {R : Type} (scan : Bytes → Option R) (print : R → Bytes)

mutual

/-- What is left of a value once it was written and read: integers above
`maxInt` become unsigned, and a real number what its text says. -/
def canonical : Doc R → Doc R
  | .int n => readInt n
  | .uint n => readInt n
  | .real x => (decodeNumber scan (print x)).getD .null
  | .array values => .array (canonicals values)
  | .object members => .object (canonicalMembers members)
  | v => v

def canonicals : List (Doc R) → List (Doc R)
  | [] => []
  | v :: values => canonical v :: canonicals values

def canonicalMembers : List (Bytes × Doc R) → List (Bytes × Doc R)
  | [] => []
  | (name, v) :: members => (name, canonical v) :: canonicalMembers members

end

mutual

/-- How deep the containers of a value are nested. -/
def depth : Doc R → ℕ
  | .array values => depths values + 1
  | .object members => memberDepths members + 1
  | _ => 1

def depths : List (Doc R) → ℕ
  | [] => 0
  | v :: values => max (depth v) (depths values)

def memberDepths : List (Bytes × Doc R) → ℕ
  | [] => 0
  | (_, v) :: members => max (depth v) (memberDepths members)

end

mutual

/-- A value as the library holds it: its integers have 64 bits, its real numbers
print as numbers that are read as they were, its members are in order. -/
def Held : Doc R → Prop
  | .int n => -(maxLargestInt + 1 : ℤ) ≤ n ∧ n ≤ maxLargestInt
  | .uint n => n ≤ maxLargestUInt
  | .real x => IsNumberText (print x) ∧ scan (print x) = some x
  | .array values => HeldAll values
  | .object members => HeldMembers members
  | _ => True

def HeldAll : List (Doc R) → Prop
  | [] => True
  | v :: values => Held v ∧ HeldAll values

def HeldMembers : List (Bytes × Doc R) → Prop
  | [] => True
  | (name, v) :: members => Held v ∧ (∀ m ∈ members, name < m.1) ∧ HeldMembers members

end

theorem names_canonical (members : List (Bytes × Doc R)) :
    (canonicalMembers scan print members).map (·.1) = members.map (·.1) := by
  induction members with
  | nil => rfl
  | cons m members ih =>
    obtain ⟨name, v⟩ := m
    rw [canonicalMembers, List.map_cons, ih, List.map_cons]

theorem names_before (name : Bytes) (members : List (Bytes × Doc R)) (h : ∀ m ∈ members, name < m.1) :
    ∀ m ∈ canonicalMembers scan print members, name < m.1 := by
  intro m hm
  have hmem : m.1 ∈ members.map (·.1) := names_canonical scan print members ▸ List.mem_map_of_mem hm
  obtain ⟨x, hx, heq⟩ := List.mem_map.mp hmem
  exact heq ▸ h x hx

/-- A number that can be scanned is decoded, if only as a real number. -/
theorem decodeNumber_scanned (text : Bytes) (x : R) (h : scan text = some x) :
    ∃ v, decodeNumber scan text = some v := by
  have hreal : decodeDouble scan text = some (.real x) := by rw [decodeDouble, h, Option.map_some]
  rw [decodeNumber]
  split_ifs with hneg
  · cases integerValue (maxLargestInt + 1) text.tail 0 with
    | none => exact ⟨_, hreal⟩
    | some value => exact ⟨_, rfl⟩
  · cases integerValue maxLargestUInt text 0 with
    | none => exact ⟨_, hreal⟩
    | some value => exact ⟨_, rfl⟩

/-- A value without anything in it. -/
theorem layout_plain (n : ℕ) (v : Doc R) (hv : Held scan print v) (hempty : isEmptyContainer v = true) :
    Layout scan (n + 1) (.value (canonical scan print v)) (plainText print v) := by
  cases v with
  | null => exact .null n
  | int m =>
    obtain ⟨hlow, hhigh⟩ := hv
    have hmax : (maxLargestInt : ℤ) ≤ maxLargestUInt := by decide
    exact .number n _ _ (isNumberText_decimal m) (decodeNumber_decimal scan m hlow (hhigh.trans hmax))
  | uint m =>
    have hm : (m : ℤ) ≤ maxLargestUInt := by exact_mod_cast hv
    have hdecimal : decimal (m : ℤ) = decimalNat m := by
      rw [decimal, if_neg (by omega), Int.natAbs_natCast]
    have hread := decodeNumber_decimal scan (m : ℤ) (by omega) hm
    rw [hdecimal] at hread
    exact .number n _ _ (isNumberText_decimalNat m) hread
  | real x =>
    obtain ⟨htext, hscan⟩ := hv
    obtain ⟨v, hread⟩ := decodeNumber_scanned scan _ x hscan
    rw [canonical, hread]
    exact .number n v _ htext hread
  | string s => exact .string n s
  | boolean b => exact .boolean n b
  | array values =>
    obtain rfl := List.isEmpty_iff.mp hempty
    exact .emptyArray n [] fun _ hb => absurd hb List.not_mem_nil
  | object members =>
    obtain rfl := List.isEmpty_iff.mp hempty
    exact .emptyObject n [] fun _ hb => absurd hb List.not_mem_nil

theorem space_nil : Space [] := fun _ hb => absurd hb List.not_mem_nil

theorem space_singleton : Space [32] := fun b hb => by
  rw [List.mem_singleton.mp hb]
  rfl

/-! `FastWriter` -/

theorem depth_pos (v : Doc R) : 0 < depth v := by
  cases v <;> simp [depth]

theorem layout_empty (n : ℕ) (v : Doc R) (hv : Held scan print v) (hempty : isEmptyContainer v = true)
    (hn : depth v ≤ n) : Layout scan n (.value (canonical scan print v)) (plainText print v) := by
  have hpos := depth_pos v
  obtain ⟨n, rfl⟩ : ∃ k, n = k + 1 := ⟨n - 1, by omega⟩
  exact layout_plain scan print n v hv hempty

mutual

theorem layout_fastValue (n : ℕ) : ∀ v : Doc R, Held scan print v → depth v ≤ n →
    Layout scan n (.value (canonical scan print v)) (fastValue print v)
  | .array [], hv, hn => layout_empty scan print n (.array []) hv rfl hn
  | .array (v :: values), hv, hn => by
    obtain ⟨n, rfl⟩ : ∃ k, n = k + 1 := ⟨n - 1, by rw [depth] at hn; omega⟩
    rw [depth, Nat.add_le_add_iff_right] at hn
    exact .array n _ _ (layout_fastValues n v values hv hn)
  | .object [], hv, hn => layout_empty scan print n (.object []) hv rfl hn
  | .object ((name, v) :: members), hv, hn => by
    obtain ⟨n, rfl⟩ : ∃ k, n = k + 1 := ⟨n - 1, by rw [depth] at hn; omega⟩
    rw [depth, Nat.add_le_add_iff_right] at hn
    exact .object n _ _ (layout_fastMembers n name v members hv hn)
  | .null, hv, hn => layout_empty scan print n _ hv rfl hn
  | .int _, hv, hn => layout_empty scan print n _ hv rfl hn
  | .uint _, hv, hn => layout_empty scan print n _ hv rfl hn
  | .real _, hv, hn => layout_empty scan print n _ hv rfl hn
  | .string _, hv, hn => layout_empty scan print n _ hv rfl hn
  | .boolean _, hv, hn => layout_empty scan print n _ hv rfl hn
termination_by v => sizeOf v

theorem layout_fastValues (n : ℕ) : ∀ (v : Doc R) (values : List (Doc R)), HeldAll scan print (v :: values) →
    depths (v :: values) ≤ n →
    Layout scan n (.elements (canonicals scan print (v :: values))) (fastValues print (v :: values) ++ [93])
  | v, [], hv, hn => by
    have hfirst := layout_fastValue n v hv.1 (le_trans (le_max_left _ _) hn)
    have hlast := Layout.last n _ [] _ [] space_nil space_nil hfirst
    simpa [canonicals, fastValues, fastRest] using hlast
  | v, w :: values, hv, hn => by
    have hfirst := layout_fastValue n v hv.1 (le_trans (le_max_left _ _) hn)
    have hrest := layout_fastValues n w values hv.2 (le_trans (le_max_right _ _) hn)
    have hnext := Layout.next n _ _ [] _ [] _ space_nil space_nil hfirst hrest
    simpa [canonicals, fastValues, fastRest] using hnext
termination_by v values => sizeOf v + sizeOf values

theorem layout_fastMembers (n : ℕ) : ∀ (name : Bytes) (v : Doc R) (members : List (Bytes × Doc R)),
    HeldMembers scan print ((name, v) :: members) → memberDepths ((name, v) :: members) ≤ n →
    Layout scan n (.members (canonicalMembers scan print ((name, v) :: members)))
      (fastMembers print ((name, v) :: members) ++ [125])
  | name, v, [], hv, hn => by
    have hfirst := layout_fastValue n v hv.1 (le_trans (le_max_left _ _) hn)
    have hlast := Layout.lastMember n name _ [] [] [] _ [] space_nil space_nil space_nil space_nil hfirst
    simpa [canonicalMembers, fastMembers, fastMembersRest] using hlast
  | name, v, (name', w) :: members, hv, hn => by
    have hfirst := layout_fastValue n v hv.1 (le_trans (le_max_left _ _) hn)
    have hrest := layout_fastMembers n name' w members hv.2.2 (le_trans (le_max_right _ _) hn)
    have hnext := Layout.nextMember n name _ _ [] [] [] _ [] _ space_nil space_nil space_nil space_nil hfirst
      (names_before scan print name _ hv.2.1) hrest
    simpa [canonicalMembers, fastMembers, fastMembersRest] using hnext
termination_by name v members => sizeOf name + sizeOf v + sizeOf members

end

theorem ends_newline : Ends [10] := fun c hc => by
  cases hc
  rfl

/-- What `FastWriter` writes is read back, if it is not nested too deep. -/
theorem parse_fastWrite (v : Doc R) (hv : Held scan print v) (hdepth : depth v ≤ stackLimit) :
    parse scan (fastWrite print v) = .done (canonical scan print v) [10] :=
  parse_layout scan stackLimit _ [] _ [10] (layout_fastValue scan print stackLimit v hv hdepth) space_nil ends_newline
    le_rfl

/-! `StyledWriter` -/

mutual

/-- The writer takes the names of members as C strings. -/
def CNames : Doc R → Prop
  | .array values => CNamesAll values
  | .object members => CNamesMembers members
  | _ => True

def CNamesAll : List (Doc R) → Prop
  | [] => True
  | v :: values => CNames v ∧ CNamesAll values

def CNamesMembers : List (Bytes × Doc R) → Prop
  | [] => True
  | (name, v) :: members => 0 ∉ name ∧ CNames v ∧ CNamesMembers members

end

theorem valueToQuotedString_eq (name : Bytes) (h : 0 ∉ name) :
    valueToQuotedString name = valueToQuotedStringN name := by
  have htake : name.takeWhile (· ≠ 0) = name :=
    List.takeWhile_eq_self_iff.mpr fun b hb => decide_eq_true fun h0 => h (h0 ▸ hb)
  rw [valueToQuotedString, htake]

theorem writeIndent_eq (w : Writer) (hw : Space w.indentString) :
    ∃ ws, Space ws ∧ w.writeIndent = { w with document := w.document ++ ws } := by
  have hline : Space (10 :: w.indentString) := fun b hb => by
    rcases List.mem_cons.mp hb with rfl | hb
    · rfl
    · exact hw b hb
  rw [Writer.writeIndent]
  cases w.document.getLast? with
  | none => exact ⟨_, hw, rfl⟩
  | some last =>
    dsimp only
    split_ifs
    · exact ⟨[], space_nil, by rw [List.append_nil]⟩
    · exact ⟨_, hline, rfl⟩
    · exact ⟨_, hw, rfl⟩

theorem writeWithIndent_eq (w : Writer) (value : Bytes) (hw : Space w.indentString) :
    ∃ ws, Space ws ∧ w.writeWithIndent value = { w with document := w.document ++ (ws ++ value) } := by
  obtain ⟨ws, hws, heq⟩ := writeIndent_eq w hw
  exact ⟨ws, hws, by rw [Writer.writeWithIndent, heq, Writer.push, List.append_assoc]⟩

theorem space_indent (w : Writer) (hw : Space w.indentString) : Space w.indent.indentString :=
  space_append _ _ hw fun b hb => by
    rw [List.eq_of_mem_replicate hb]
    rfl

/-- A container between its brackets, which stand on lines of their own. -/
theorem bracketed (w : Writer) (hw : Space w.indentString) (opening closing : UInt8) (write : Writer → Writer)
    (P : Bytes → Prop) (h : ∀ u : Writer, Space u.indentString →
      ∃ t, (∀ ws, Space ws → P (t ++ (ws ++ [closing]))) ∧ write u = { u with document := u.document ++ t }) :
    ∃ ws t, Space ws ∧ P t ∧ (write (w.writeWithIndent [opening]).indent).unindent.writeWithIndent [closing] =
      { w with document := w.document ++ (ws ++ opening :: t) } := by
  obtain ⟨ws, hws, hopen⟩ := writeWithIndent_eq w [opening] hw
  have hinner : Space (w.writeWithIndent [opening]).indent.indentString := by
    rw [hopen]
    exact space_indent w hw
  obtain ⟨t, ht, hwrite⟩ := h _ hinner
  have hunindent : (write (w.writeWithIndent [opening]).indent).unindent =
      { w with document := w.document ++ (ws ++ opening :: t) } := by
    rw [hwrite, hopen]
    simp [Writer.indent, Writer.unindent]
  obtain ⟨ws', hws', hclose⟩ := writeWithIndent_eq { w with document := w.document ++ (ws ++ opening :: t) } [closing] hw
  refine ⟨ws, t ++ (ws' ++ [closing]), hws, ht ws' hws', ?_⟩
  rw [hunindent, hclose]
  simp only [List.append_assoc, List.cons_append]

/-- The texts of the elements, a line for each. -/
theorem layout_writeTexts (n : ℕ) (v : Doc R) (values : List (Doc R)) (hv : HeldAll scan print (v :: values))
    (hn : depths (v :: values) ≤ n) (hempty : ∀ x ∈ v :: values, isEmptyContainer x = true) (w : Writer)
    (hw : Space w.indentString) :
    ∃ t, (∀ ws, Space ws → Layout scan n (.elements (canonicals scan print (v :: values))) (t ++ (ws ++ [93]))) ∧
      writeTexts ((v :: values).map (plainText print)) w = { w with document := w.document ++ t } := by
  have hfirst := layout_empty scan print n v hv.1 (hempty v List.mem_cons_self) (le_trans (le_max_left _ _) hn)
  obtain ⟨ws, hws, hline⟩ := writeWithIndent_eq w (plainText print v) hw
  induction values generalizing v w ws with
  | nil =>
    refine ⟨ws ++ plainText print v, fun ws' hws' => ?_, hline⟩
    rw [List.append_assoc]
    exact .last n _ ws _ ws' hws hws' hfirst
  | cons x values ih =>
    have hx := layout_empty scan print n x hv.2.1 (hempty x (List.mem_cons_of_mem _ List.mem_cons_self))
      (le_trans (le_max_left _ _) (le_trans (le_max_right _ _) hn))
    obtain ⟨ws1, hws1, hline1⟩ := writeWithIndent_eq ((w.writeWithIndent (plainText print v)).push [44])
      (plainText print x) (by rw [hline]; exact hw)
    obtain ⟨t, ht, hwrite⟩ := ih x hv.2 (le_trans (le_max_right _ _) hn)
      (fun y hy => hempty y (List.mem_cons_of_mem _ hy)) ((w.writeWithIndent (plainText print v)).push [44])
      (by rw [hline]; exact hw) hx ws1 hws1 hline1
    refine ⟨ws ++ (plainText print v ++ 44 :: t), fun ws' hws' => ?_, ?_⟩
    · have hnext := Layout.next n _ _ ws _ [] _ hws space_nil hfirst (ht ws' hws')
      simpa [canonicals] using hnext
    · change writeTexts ((x :: values).map (plainText print)) ((w.writeWithIndent (plainText print v)).push [44]) = _
      rw [hwrite, hline]
      simp [Writer.push]

/-- The texts of the elements on one line. -/
theorem layout_line (n : ℕ) (v : Doc R) (values : List (Doc R)) (hv : HeldAll scan print (v :: values))
    (hn : depths (v :: values) ≤ n) (hempty : ∀ x ∈ v :: values, isEmptyContainer x = true) :
    Layout scan n (.elements (canonicals scan print (v :: values)))
      (32 :: (List.intercalate [44, 32] ((v :: values).map (plainText print)) ++ [32, 93])) := by
  induction values generalizing v with
  | nil =>
    have hfirst := layout_empty scan print n v hv.1 (hempty v List.mem_cons_self) (le_trans (le_max_left _ _) hn)
    have hlast := Layout.last n _ [32] _ [32] space_singleton space_singleton hfirst
    simpa [canonicals] using hlast
  | cons x values ih =>
    have hfirst := layout_empty scan print n v hv.1 (hempty v List.mem_cons_self) (le_trans (le_max_left _ _) hn)
    have hrest := ih x hv.2 (le_trans (le_max_right _ _) hn) fun y hy => hempty y (List.mem_cons_of_mem _ hy)
    have hnext := Layout.next n _ _ [32] _ [] _ space_singleton space_nil hfirst hrest
    simpa [canonicals, List.intercalate_cons_cons] using hnext

theorem isEmptyContainer_of_not_nested (values : List (Doc R)) (h : ¬ isNested values = true) :
    ∀ x ∈ values, isEmptyContainer x = true := by
  simp only [isNested, Bool.or_eq_true, not_or, Bool.not_eq_true', Bool.not_eq_false] at h
  exact List.all_eq_true.mp h.2

/-- The text of a value, behind blanks. -/
def Wrote (n : ℕ) (v : Doc R) (w : Writer) : Prop :=
  ∃ ws t, Space ws ∧ Layout scan n (.value (canonical scan print v)) t ∧
    styledValue print v w = { w with document := w.document ++ (ws ++ t) }

theorem wrote_plain (n : ℕ) (v : Doc R) (hv : Held scan print v) (hempty : isEmptyContainer v = true)
    (hn : depth v ≤ n) (w : Writer) (h : styledValue print v w = w.push (plainText print v)) :
    Wrote scan print n v w :=
  ⟨[], plainText print v, space_nil, layout_empty scan print n v hv hempty hn, h⟩

mutual

theorem wrote_styledValue (n : ℕ) : ∀ (v : Doc R) (w : Writer), Held scan print v → CNames v → depth v ≤ n →
    Space w.indentString → Wrote scan print n v w
  | .array [], w, hv, _, hn, _ => wrote_plain scan print n (.array []) hv rfl hn w rfl
  | .array (v :: values), w, hv, hc, hn, hw => by
    obtain ⟨n, rfl⟩ : ∃ k, n = k + 1 := ⟨n - 1, by rw [depth] at hn; omega⟩
    rw [depth, Nat.add_le_add_iff_right] at hn
    have hvalue : styledValue print (.array (v :: values)) w =
        if isMultineArray print (v :: values) then
          (if (childValues print (v :: values)).isEmpty then
            styledValues print (v :: values) (w.writeWithIndent [91]).indent
          else writeTexts (childValues print (v :: values)) (w.writeWithIndent [91]).indent).unindent.writeWithIndent [93]
        else w.push ([91, 32] ++ (List.intercalate [44, 32] (childValues print (v :: values)) ++ [32, 93])) := rfl
    by_cases hnested : isNested (v :: values) = true
    · have hmulti : isMultineArray print (v :: values) = true := by rw [isMultineArray, hnested, Bool.true_or]
      have hchild : childValues print (v :: values) = [] := if_pos hnested
      rw [hmulti, if_pos rfl, hchild, List.isEmpty_nil, if_pos rfl] at hvalue
      obtain ⟨ws, t, hws, ht, heq⟩ := bracketed w hw 91 93 (styledValues print (v :: values)) _
        fun u hu => layout_styledValues n v values u hv hc hn hu
      exact ⟨ws, 91 :: t, hws, .array n _ t ht, hvalue.trans heq⟩
    · have hempty := isEmptyContainer_of_not_nested (v :: values) hnested
      have hchild : childValues print (v :: values) = (v :: values).map (plainText print) := if_neg hnested
      rw [hchild] at hvalue
      by_cases hmulti : isMultineArray print (v :: values) = true
      · rw [hmulti, if_pos rfl, if_neg (by simp)] at hvalue
        obtain ⟨ws, t, hws, ht, heq⟩ := bracketed w hw 91 93 (writeTexts ((v :: values).map (plainText print))) _
          fun u hu => layout_writeTexts scan print n v values hv hn hempty u hu
        exact ⟨ws, 91 :: t, hws, .array n _ t ht, hvalue.trans heq⟩
      · rw [if_neg hmulti] at hvalue
        exact ⟨[], _, space_nil, .array n _ _ (layout_line scan print n v values hv hn hempty), hvalue⟩
  | .object [], w, hv, _, hn, _ => wrote_plain scan print n (.object []) hv rfl hn w rfl
  | .object ((name, v) :: members), w, hv, hc, hn, hw => by
    obtain ⟨n, rfl⟩ : ∃ k, n = k + 1 := ⟨n - 1, by rw [depth] at hn; omega⟩
    rw [depth, Nat.add_le_add_iff_right] at hn
    obtain ⟨ws, t, hws, ht, heq⟩ := bracketed w hw 123 125 (styledMembers print ((name, v) :: members)) _
      fun u hu => layout_styledMembers n name v members u hv hc hn hu
    exact ⟨ws, 123 :: t, hws, .object n _ t ht, heq⟩
  | .null, w, hv, _, hn, _ => wrote_plain scan print n _ hv rfl hn w rfl
  | .int _, w, hv, _, hn, _ => wrote_plain scan print n _ hv rfl hn w rfl
  | .uint _, w, hv, _, hn, _ => wrote_plain scan print n _ hv rfl hn w rfl
  | .real _, w, hv, _, hn, _ => wrote_plain scan print n _ hv rfl hn w rfl
  | .string _, w, hv, _, hn, _ => wrote_plain scan print n _ hv rfl hn w rfl
  | .boolean _, w, hv, _, hn, _ => wrote_plain scan print n _ hv rfl hn w rfl
termination_by v => sizeOf v

theorem layout_styledValues (n : ℕ) : ∀ (v : Doc R) (values : List (Doc R)) (w : Writer),
    HeldAll scan print (v :: values) → CNamesAll (v :: values) → depths (v :: values) ≤ n → Space w.indentString →
    ∃ t, (∀ ws, Space ws → Layout scan n (.elements (canonicals scan print (v :: values))) (t ++ (ws ++ [93]))) ∧
      styledValues print (v :: values) w = { w with document := w.document ++ t }
  | v, [], w, hv, hc, hn, hw => by
    obtain ⟨ws0, hws0, hindent⟩ := writeIndent_eq w hw
    obtain ⟨ws, t, hws, ht, heq⟩ := wrote_styledValue n v w.writeIndent hv.1 hc.1 (le_trans (le_max_left _ _) hn)
      (by rw [hindent]; exact hw)
    refine ⟨ws0 ++ (ws ++ t), fun ws' hws' => ?_, ?_⟩
    · have hlast := Layout.last n _ (ws0 ++ ws) _ ws' (space_append _ _ hws0 hws) hws' ht
      simpa [canonicals] using hlast
    · change styledValue print v w.writeIndent = _
      rw [heq, hindent]
      simp only [List.append_assoc]
  | v, x :: values, w, hv, hc, hn, hw => by
    obtain ⟨ws0, hws0, hindent⟩ := writeIndent_eq w hw
    obtain ⟨ws, t, hws, ht, heq⟩ := wrote_styledValue n v w.writeIndent hv.1 hc.1 (le_trans (le_max_left _ _) hn)
      (by rw [hindent]; exact hw)
    have hspace : Space ((styledValue print v w.writeIndent).push [44]).indentString := by
      rw [heq, hindent]
      exact hw
    obtain ⟨u, hu, hrest⟩ := layout_styledValues n x values ((styledValue print v w.writeIndent).push [44]) hv.2 hc.2
      (le_trans (le_max_right _ _) hn) hspace
    refine ⟨ws0 ++ (ws ++ (t ++ 44 :: u)), fun ws' hws' => ?_, ?_⟩
    · have hnext := Layout.next n _ _ (ws0 ++ ws) _ [] _ (space_append _ _ hws0 hws) space_nil ht (hu ws' hws')
      simpa [canonicals] using hnext
    · change styledValues print (x :: values) ((styledValue print v w.writeIndent).push [44]) = _
      rw [hrest, heq, hindent]
      simp only [Writer.push, List.append_assoc, List.cons_append, List.nil_append]
termination_by v values => sizeOf v + sizeOf values

theorem layout_styledMembers (n : ℕ) : ∀ (name : Bytes) (v : Doc R) (members : List (Bytes × Doc R)) (w : Writer),
    HeldMembers scan print ((name, v) :: members) → CNamesMembers ((name, v) :: members) →
    memberDepths ((name, v) :: members) ≤ n → Space w.indentString →
    ∃ t, (∀ ws, Space ws →
        Layout scan n (.members (canonicalMembers scan print ((name, v) :: members))) (t ++ (ws ++ [125]))) ∧
      styledMembers print ((name, v) :: members) w = { w with document := w.document ++ t }
  | name, v, [], w, hv, hc, hn, hw => by
    obtain ⟨ws0, hws0, hname⟩ := writeWithIndent_eq w (valueToQuotedString name) hw
    obtain ⟨ws, t, hws, ht, heq⟩ := wrote_styledValue n v
      ((w.writeWithIndent (valueToQuotedString name)).push [32, 58, 32]) hv.1 hc.2.1 (le_trans (le_max_left _ _) hn)
      (by rw [hname]; exact hw)
    refine ⟨ws0 ++ (valueToQuotedStringN name ++ 32 :: 58 :: 32 :: (ws ++ t)), fun ws' hws' => ?_, ?_⟩
    · have hlast := Layout.lastMember n name _ ws0 [32] (32 :: ws) _ ws' hws0 space_singleton
        (space_append [32] ws space_singleton hws) hws' ht
      simpa [canonicalMembers] using hlast
    · change styledValue print v ((w.writeWithIndent (valueToQuotedString name)).push [32, 58, 32]) = _
      rw [heq, hname, valueToQuotedString_eq name hc.1]
      simp only [Writer.push, List.append_assoc, List.cons_append, List.nil_append]
  | name, v, (name', x) :: members, w, hv, hc, hn, hw => by
    obtain ⟨ws0, hws0, hname⟩ := writeWithIndent_eq w (valueToQuotedString name) hw
    obtain ⟨ws, t, hws, ht, heq⟩ := wrote_styledValue n v
      ((w.writeWithIndent (valueToQuotedString name)).push [32, 58, 32]) hv.1 hc.2.1 (le_trans (le_max_left _ _) hn)
      (by rw [hname]; exact hw)
    have hspace : Space ((styledValue print v
        ((w.writeWithIndent (valueToQuotedString name)).push [32, 58, 32])).push [44]).indentString := by
      rw [heq, hname]
      exact hw
    obtain ⟨u, hu, hrest⟩ := layout_styledMembers n name' x members _ hv.2.2 hc.2.2 (le_trans (le_max_right _ _) hn)
      hspace
    refine ⟨ws0 ++ (valueToQuotedStringN name ++ 32 :: 58 :: 32 :: (ws ++ (t ++ 44 :: u))), fun ws' hws' => ?_, ?_⟩
    · have hnext := Layout.nextMember n name _ _ ws0 [32] (32 :: ws) _ [] _ hws0 space_singleton
        (space_append [32] ws space_singleton hws) space_nil ht (names_before scan print name _ hv.2.1) (hu ws' hws')
      simpa [canonicalMembers] using hnext
    · change styledMembers print ((name', x) :: members) ((styledValue print v
        ((w.writeWithIndent (valueToQuotedString name)).push [32, 58, 32])).push [44]) = _
      rw [hrest, heq, hname, valueToQuotedString_eq name hc.1]
      simp only [Writer.push, List.append_assoc, List.cons_append, List.nil_append]
termination_by name v members => sizeOf name + sizeOf v + sizeOf members

end

/-- What `StyledWriter` writes is read back, if it is not nested too deep and
its names are C strings. -/
theorem parse_styledWrite (v : Doc R) (hv : Held scan print v) (hc : CNames v) (hdepth : depth v ≤ stackLimit) :
    parse scan (styledWrite print v) = .done (canonical scan print v) [10] := by
  obtain ⟨ws, t, hws, ht, heq⟩ := wrote_styledValue scan print stackLimit v {} hv hc hdepth space_nil
  have htext : styledWrite print v = ws ++ (t ++ [10]) := by
    rw [styledWrite, heq]
    simp only [List.nil_append, List.append_assoc]
  rw [htext]
  exact parse_layout scan stackLimit _ ws t [10] ht hws ends_newline le_rfl

end RoundTrip

end BitPark.JsonRoundTrip
