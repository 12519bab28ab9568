import BitPark.IndexSafety
import BitPark.DeviceCodec
import BitPark.JsonAccepted

namespace BitPark.JsonWire

open BitPark.Decimal (Bytes)
open BitPark.Members (bytes)
open BitPark.DeviceMessage (IsInt)
open BitPark.JsonText BitPark.JsonWriters BitPark.JsonTokens BitPark.JsonRoundTrip BitPark.JsonAccepted

/-! From the values of the model to the bytes of a document, and back. -/

/-- The text that has these bytes, if they are UTF-8. -/
def textOf (b : Bytes) : Option String := String.fromUTF8? ⟨b.toArray⟩

theorem textOf_bytes (s : String) : textOf (bytes s) = some s := by
  have hback : (⟨s.toUTF8.data.toList.toArray⟩ : ByteArray) = s.toByteArray := by
    rw [Array.toArray_toList]
    rfl
  rw [textOf, bytes, hback, String.fromUTF8?, dif_pos s.isValidUTF8]
  rfl

theorem bytes_textOf (b : Bytes) (s : String) (h : textOf b = some s) : bytes s = b := by
  rw [textOf, String.fromUTF8?] at h
  split_ifs at h
  cases h
  rfl

theorem bytes_injective (s t : String) (h : bytes s = bytes t) : s = t := by
  have hsome := textOf_bytes s
  rw [h, textOf_bytes] at hsome
  exact (Option.some.inj hsome).symm

section Wire

variable (scan : Bytes → Option ℚ) (valueToString : ℚ → String)

def print (q : ℚ) : Bytes := bytes (valueToString q)

mutual

/-- What a writer is given. The first of two members with one name is kept. -/
def docOf : Json.Value → Doc ℚ
  | .null => .null
  | .int n => .int n
  | .uint n => .uint n
  | .real q _ => .real q
  | .string s => .string (bytes s)
  | .boolean b => .boolean b
  | .array values => .array (docsOf values)
  | .object members => .object (docMembers members)

def docsOf : List Json.Value → List (Doc ℚ)
  | [] => []
  | v :: values => docOf v :: docsOf values

def docMembers : List (String × Json.Value) → List (Bytes × Doc ℚ)
  | [] => []
  | (key, v) :: members => setMember (bytes key) (docOf v) (docMembers members)

end

mutual

/-- What a reader returns, if all its strings are texts. -/
def valueOf : Doc ℚ → Option Json.Value
  | .null => some .null
  | .int n => some (.int n)
  | .uint n => some (.uint n)
  | .real q => some (.real q (valueToString q))
  | .string s => (textOf s).map .string
  | .boolean b => some (.boolean b)
  | .array values => (valuesOf values).map .array
  | .object members => (membersOf members).map .object

def valuesOf : List (Doc ℚ) → Option (List Json.Value)
  | [] => some []
  | v :: values => do
    let v ← valueOf v
    let values ← valuesOf values
    pure (v :: values)

def membersOf : List (Bytes × Doc ℚ) → Option (List (String × Json.Value))
  | [] => some []
  | (name, v) :: members => do
    let key ← textOf name
    let v ← valueOf v
    let members ← membersOf members
    pure ((key, v) :: members)

end

/-- What is left of a value that was written and read. -/
def reread (v : Json.Value) : Option Json.Value :=
  valueOf valueToString (canonical scan (print valueToString) (docOf v))

theorem lookup_cons_ite {α β : Type} [BEq α] [LawfulBEq α] [DecidableEq α] (key name : α) (v : β) (members : List (α × β)) :
    ((name, v) :: members).lookup key = if key = name then some v else members.lookup key := by
  rw [List.lookup_cons]
  split_ifs with h
  · rw [h, beq_self_eq_true]
  · rw [beq_eq_false_iff_ne.mpr h]

theorem lookup_setMember (name key : Bytes) (v : Doc ℚ) (members : List (Bytes × Doc ℚ)) :
    (setMember name v members).lookup key = if key = name then some v else members.lookup key := by
  induction members with
  | nil => exact lookup_cons_ite key name v []
  | cons x members ih =>
    obtain ⟨name', y⟩ := x
    rw [setMember]
    by_cases heq : name = name'
    · rw [if_pos heq, lookup_cons_ite, lookup_cons_ite, heq]
      split_ifs <;> rfl
    · rw [if_neg heq]
      by_cases hlt : name < name'
      · rw [if_pos hlt, lookup_cons_ite]
      · rw [if_neg hlt, lookup_cons_ite, lookup_cons_ite, ih]
        split_ifs with hkey hname
        · exact absurd (hname.symm.trans hkey) heq
        · rfl
        · rfl
        · rfl

theorem lookup_docMembers (members : List (String × Json.Value)) (key : String) :
    (docMembers members).lookup (bytes key) = (members.lookup key).map docOf := by
  induction members with
  | nil => rfl
  | cons m members ih =>
    obtain ⟨name, v⟩ := m
    rw [docMembers, lookup_setMember, List.lookup_cons]
    by_cases h : key = name
    · rw [h, if_pos rfl, beq_self_eq_true]
      rfl
    · have hne : bytes key ≠ bytes name := fun heq => h (bytes_injective key name heq)
      rw [if_neg hne, beq_eq_false_iff_ne.mpr h, ih]

theorem lookup_canonicalMembers (members : List (Bytes × Doc ℚ)) (key : Bytes) :
    (canonicalMembers scan (print valueToString) members).lookup key =
      (members.lookup key).map (canonical scan (print valueToString)) := by
  induction members with
  | nil => rfl
  | cons m members ih =>
    obtain ⟨name, v⟩ := m
    rw [canonicalMembers, List.lookup_cons, List.lookup_cons, ih]
    cases key == name <;> rfl

theorem lookup_membersOf (members : List (Bytes × Doc ℚ)) (read : List (String × Json.Value))
    (h : membersOf valueToString members = some read) (key : String) :
    read.lookup key = (members.lookup (bytes key)).bind (valueOf valueToString) := by
  induction members generalizing read with
  | nil =>
    cases h
    rfl
  | cons m members ih =>
    obtain ⟨name, v⟩ := m
    simp only [membersOf, Option.bind_eq_bind, Option.bind_eq_some_iff, Option.pure_def, Option.some.injEq] at h
    obtain ⟨name', hname, v', hv, rest, hrest, rfl⟩ := h
    have hbytes := bytes_textOf name name' hname
    rw [List.lookup_cons, List.lookup_cons]
    by_cases heq : key = name'
    · rw [heq, beq_self_eq_true, hbytes, beq_self_eq_true]
      exact hv.symm
    · have hne : bytes key ≠ name := fun hb => heq (bytes_injective key name' (hb.trans hbytes.symm))
      rw [beq_eq_false_iff_ne.mpr heq, beq_eq_false_iff_ne.mpr hne, ih rest hrest]

theorem membersOf_exists (members : List (Bytes × Doc ℚ))
    (h : ∀ m ∈ members, (∃ key, textOf m.1 = some key) ∧ ∃ v, valueOf valueToString m.2 = some v) :
    ∃ read, membersOf valueToString members = some read := by
  induction members with
  | nil => exact ⟨[], rfl⟩
  | cons m members ih =>
    obtain ⟨⟨⟨key, hkey⟩, v, hv⟩, hrest⟩ := List.forall_mem_cons.mp h
    obtain ⟨read, hread⟩ := ih hrest
    exact ⟨(key, v) :: read, by simp only [membersOf, hkey, hv, hread, Option.bind_eq_bind, Option.bind_some]; rfl⟩

theorem mem_docMembers (members : List (String × Json.Value)) (m : Bytes × Doc ℚ) (h : m ∈ docMembers members) :
    ∃ x ∈ members, m = (bytes x.1, docOf x.2) := by
  induction members with
  | nil => exact absurd h List.not_mem_nil
  | cons x members ih =>
    obtain ⟨key, v⟩ := x
    rw [docMembers] at h
    obtain rfl | h := mem_setMember _ _ _ _ h
    · exact ⟨(key, v), List.mem_cons_self, rfl⟩
    · obtain ⟨y, hy, heq⟩ := ih h
      exact ⟨y, List.mem_cons_of_mem _ hy, heq⟩

theorem mem_canonicalMembers (members : List (Bytes × Doc ℚ)) (m : Bytes × Doc ℚ)
    (h : m ∈ canonicalMembers scan (print valueToString) members) :
    ∃ x ∈ members, m = (x.1, canonical scan (print valueToString) x.2) := by
  induction members with
  | nil => exact absurd h List.not_mem_nil
  | cons x members ih =>
    obtain ⟨key, v⟩ := x
    rw [canonicalMembers] at h
    obtain rfl | h := List.mem_cons.mp h
    · exact ⟨(key, v), List.mem_cons_self, rfl⟩
    · obtain ⟨y, hy, heq⟩ := ih h
      exact ⟨y, List.mem_cons_of_mem _ hy, heq⟩

/-- An object that was written and read has its members under the same names. -/
theorem reread_object (members : List (String × Json.Value))
    (h : ∀ m ∈ members, ∃ v, reread scan valueToString m.2 = some v) :
    ∃ read, reread scan valueToString (.object members) = some (.object read) ∧
      ∀ key, read.lookup key = (members.lookup key).bind (reread scan valueToString) := by
  obtain ⟨read, hread⟩ := membersOf_exists valueToString
    (canonicalMembers scan (print valueToString) (docMembers members)) fun m hm => by
      obtain ⟨x, hx, rfl⟩ := mem_canonicalMembers scan valueToString _ m hm
      obtain ⟨y, hy, rfl⟩ := mem_docMembers members x hx
      exact ⟨⟨y.1, textOf_bytes y.1⟩, h y hy⟩
  refine ⟨read, ?_, fun key => ?_⟩
  · rw [reread, docOf, canonical, valueOf, hread, Option.map_some]
  · rw [lookup_membersOf valueToString _ read hread, lookup_canonicalMembers, lookup_docMembers]
    cases members.lookup key <;> rfl

/-! An object of values without an object in them. -/

/-- A real number that is printed with all its digits; without a point it is an
integer, and of that value. -/
structure Printable (q : ℚ) : Prop where
  held : Held scan (print valueToString) (.real q)
  integral : ∀ n : ℤ, decodeNumber scan (print valueToString q) = some (readInt n) → (n : ℚ) = q

/-- A member of a report. -/
inductive Plain : Json.Value → Prop where
  | int (n : ℤ) (hn : IsInt n) : Plain (.int n)
  | real (q : ℚ) (text : String) (hq : Printable scan valueToString q) : Plain (.real q text)
  | string (s : String) : Plain (.string s)
  | ints (ns : List ℤ) (hns : ∀ n ∈ ns, IsInt n) : Plain (.array (ns.map .int))

theorem canonical_int (n : ℤ) (hn : IsInt n) : canonical scan (print valueToString) (.int n) = .int n :=
  if_pos hn.2

theorem docsOf_ints (ns : List ℤ) : docsOf (ns.map .int) = ns.map .int := by
  induction ns with
  | nil => rfl
  | cons n ns ih => simp only [List.map_cons, docsOf, docOf, ih]

theorem canonicals_ints (ns : List ℤ) (hns : ∀ n ∈ ns, IsInt n) :
    canonicals scan (print valueToString) (ns.map .int) = ns.map .int := by
  induction ns with
  | nil => rfl
  | cons n ns ih =>
    obtain ⟨hn, hns⟩ := List.forall_mem_cons.mp hns
    rw [List.map_cons, canonicals, canonical_int scan valueToString n hn, ih hns]

theorem valuesOf_ints (ns : List ℤ) : valuesOf valueToString (ns.map .int) = some (ns.map .int) := by
  induction ns with
  | nil => rfl
  | cons n ns ih => simp only [List.map_cons, valuesOf, valueOf, ih, Option.bind_eq_bind, Option.bind_some]; rfl

theorem reread_int (n : ℤ) (hn : IsInt n) : reread scan valueToString (.int n) = some (.int n) := by
  rw [reread, docOf, canonical_int scan valueToString n hn, valueOf]

theorem reread_string (s : String) : reread scan valueToString (.string s) = some (.string s) := by
  change (textOf (bytes s)).map Json.Value.string = _
  rw [textOf_bytes, Option.map_some]

theorem reread_ints (ns : List ℤ) (hns : ∀ n ∈ ns, IsInt n) :
    reread scan valueToString (.array (ns.map .int)) = some (.array (ns.map .int)) := by
  rw [reread, docOf, docsOf_ints, canonical, canonicals_ints scan valueToString ns hns, valueOf, valuesOf_ints,
    Option.map_some]

/-- A real number may come back as an integer, of the same value. -/
theorem reread_real (q : ℚ) (text : String) (hq : Printable scan valueToString q) :
    ∃ v, reread scan valueToString (.real q text) = some v ∧ v.asDouble = .ok q := by
  obtain ⟨v, hread⟩ := decodeNumber_scanned scan _ q hq.held.2
  have hcanonical : canonical scan (print valueToString) (.real q) = v := by rw [canonical, hread, Option.getD_some]
  rw [reread, docOf, hcanonical]
  obtain ⟨n, -, -, rfl⟩ | ⟨x, hx, rfl⟩ := decodeNumber_cases scan _ v hread
  · have hvalue := hq.integral n hread
    rw [readInt]
    split_ifs with hle
    · exact ⟨.int n, rfl, congrArg Except.ok hvalue⟩
    · have hpos : ((n.toNat : ℤ) : ℚ) = n := by rw [Int.toNat_of_nonneg (by omega)]
      exact ⟨.uint n.toNat, rfl, congrArg Except.ok (hvalue ▸ hpos)⟩
  · obtain rfl : q = x := Option.some.inj (hq.held.2.symm.trans hx)
    exact ⟨.real q (valueToString q), rfl, rfl⟩

/-- What a writer needs of a value that is nested at most so deep. -/
structure Writable (n : ℕ) (v : Doc ℚ) : Prop where
  held : Held scan (print valueToString) v
  names : CNames v
  shallow : depth v ≤ n

theorem writable_ints (ns : List ℤ) (hns : ∀ n ∈ ns, IsInt n) :
    HeldAll scan (print valueToString) (ns.map .int) ∧ CNamesAll (ns.map (Doc.int (R := ℚ))) ∧
      depths (ns.map (Doc.int (R := ℚ))) ≤ 1 := by
  induction ns with
  | nil => exact ⟨trivial, trivial, Nat.zero_le 1⟩
  | cons n ns ih =>
    obtain ⟨hn, hns⟩ := List.forall_mem_cons.mp hns
    obtain ⟨hheld, hnames, hdepth⟩ := ih hns
    have hbounds : -(maxLargestInt + 1 : ℤ) ≤ Json.Value.minInt ∧ Json.Value.maxInt ≤ maxLargestInt := by decide
    exact ⟨⟨⟨hbounds.1.trans hn.1, hn.2.trans hbounds.2⟩, hheld⟩, ⟨trivial, hnames⟩, max_le le_rfl hdepth⟩

theorem writable_plain (v : Json.Value) (h : Plain scan valueToString v) : Writable scan valueToString 2 (docOf v) := by
  cases h with
  | int n hn =>
    have hbounds : -(maxLargestInt + 1 : ℤ) ≤ Json.Value.minInt ∧ Json.Value.maxInt ≤ maxLargestInt := by decide
    exact ⟨⟨hbounds.1.trans hn.1, hn.2.trans hbounds.2⟩, trivial, Nat.le_succ 1⟩
  | real q text hq => exact ⟨hq.held, trivial, Nat.le_succ 1⟩
  | string s => exact ⟨trivial, trivial, Nat.le_succ 1⟩
  | ints ns hns =>
    obtain ⟨hheld, hnames, hdepth⟩ := writable_ints scan valueToString ns hns
    rw [docOf, docsOf_ints]
    exact ⟨hheld, hnames, Nat.succ_le_succ hdepth⟩

theorem reread_plain (v : Json.Value) (h : Plain scan valueToString v) : ∃ w, reread scan valueToString v = some w := by
  cases h with
  | int n hn => exact ⟨_, reread_int scan valueToString n hn⟩
  | real q text hq =>
    obtain ⟨w, hw, -⟩ := reread_real scan valueToString q text hq
    exact ⟨w, hw⟩
  | string s => exact ⟨_, reread_string scan valueToString s⟩
  | ints ns hns => exact ⟨_, reread_ints scan valueToString ns hns⟩

theorem cnames_setMember (name : Bytes) (v : Doc ℚ) (members : List (Bytes × Doc ℚ)) (hname : 0 ∉ name)
    (hv : CNames v) (h : CNamesMembers members) : CNamesMembers (setMember name v members) := by
  induction members with
  | nil => exact ⟨hname, hv, trivial⟩
  | cons x members ih =>
    obtain ⟨key, y⟩ := x
    rw [setMember]
    split_ifs
    · exact ⟨h.1, hv, h.2.2⟩
    · exact ⟨hname, hv, h⟩
    · exact ⟨h.1, h.2.1, ih h.2.2⟩

theorem writable_members (n : ℕ) (members : List (String × Json.Value))
    (h : ∀ m ∈ members, 0 ∉ bytes m.1 ∧ Writable scan valueToString n (docOf m.2)) :
    HeldMembers scan (print valueToString) (docMembers members) ∧ CNamesMembers (docMembers members) ∧
      memberDepths (docMembers members) ≤ n := by
  induction members with
  | nil => exact ⟨trivial, trivial, Nat.zero_le n⟩
  | cons m members ih =>
    obtain ⟨key, v⟩ := m
    obtain ⟨⟨hname, hv⟩, hrest⟩ := List.forall_mem_cons.mp h
    obtain ⟨hheld, hnames, hdepth⟩ := ih hrest
    have hset := memberDepths_setMember (bytes key) (docOf v) (docMembers members)
    rw [docMembers]
    exact ⟨held_setMember scan _ _ _ hv.held _ hheld, cnames_setMember _ _ _ hname hv.names hnames,
      hset.trans (max_le hv.shallow hdepth)⟩

theorem writable_object (n : ℕ) (members : List (String × Json.Value))
    (h : ∀ m ∈ members, 0 ∉ bytes m.1 ∧ Writable scan valueToString n (docOf m.2)) :
    Writable scan valueToString (n + 1) (docOf (.object members)) := by
  obtain ⟨hheld, hnames, hdepth⟩ := writable_members scan valueToString n members h
  exact ⟨hheld, hnames, Nat.succ_le_succ hdepth⟩

/-- An object of plain members is written, and the reader finds each under its name. -/
theorem parse_plain (members : List (String × Json.Value))
    (h : ∀ m ∈ members, 0 ∉ bytes m.1 ∧ Plain scan valueToString m.2) :
    ∃ v read, parse scan (styledWrite (print valueToString) (docOf (.object members))) = .done v [10] ∧
      valueOf valueToString v = some (.object read) ∧
      ∀ key, read.lookup key = (members.lookup key).bind (reread scan valueToString) := by
  have hwrite := writable_object scan valueToString 2 members fun m hm =>
    ⟨(h m hm).1, writable_plain scan valueToString m.2 (h m hm).2⟩
  obtain ⟨read, hread, hlookup⟩ := reread_object scan valueToString members fun m hm =>
    reread_plain scan valueToString m.2 (h m hm).2
  exact ⟨_, read, parse_styledWrite scan _ _ hwrite.held hwrite.names (hwrite.shallow.trans (by decide)), hread, hlookup⟩

end Wire

end BitPark.JsonWire
