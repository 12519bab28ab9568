import BitPark.JsonReading
import BitPark.JsonRoundTrip

namespace BitPark.JsonAccepted

open BitPark.Decimal (Bytes isDigit decimal decimalNat)
open BitPark.JsonText BitPark.JsonWriters BitPark.JsonTokens BitPark.JsonLayout BitPark.JsonRoundTrip BitPark.JsonReading

/-! What the reader accepts can be written, and is read again. -/

section Accepted

variable {R : Type} (scan : Bytes → Option R) (print : R → Bytes)

/-- A real number that was read is printed with all its digits. -/
def Exact : Prop := ∀ text x, scan text = some x → Held scan print (.real x)

theorem integerValue_le (limit : ℕ) (ds : Bytes) (value w : ℕ) (hvalue : value ≤ limit)
    (h : integerValue limit ds value = some w) : w ≤ limit := by
  induction ds generalizing value with
  | nil =>
    cases h
    exact hvalue
  | cons c ds ih =>
    rw [integerValue] at h
    split_ifs at h with hc
    dsimp only at h
    split_ifs at h with hover
    have hdigit := digit_toNat c hc
    refine ih _ ?_ h
    by_contra hlt
    refine hover ⟨by omega, ?_⟩
    by_cases hgt : limit / 10 < value
    · exact .inl hgt
    · exact .inr (.inr (by omega))

/-- A number is read as an integer of 64 bits, or else as a real number. -/
theorem decodeNumber_cases (text : Bytes) (v : Doc R) (h : decodeNumber scan text = some v) :
    (∃ n : ℤ, -(maxLargestInt + 1 : ℤ) ≤ n ∧ n ≤ maxLargestUInt ∧ v = readInt n) ∨
      ∃ x, scan text = some x ∧ v = .real x := by
  have hreal : decodeDouble scan text = some v → ∃ x, scan text = some x ∧ v = .real x := fun hd => by
    obtain ⟨x, hx, rfl⟩ := Option.map_eq_some_iff.mp hd
    exact ⟨x, hx, rfl⟩
  rw [decodeNumber] at h
  split_ifs at h with hneg
  · cases hi : integerValue (maxLargestInt + 1) text.tail 0 with
    | none =>
      rw [hi] at h
      exact .inr (hreal h)
    | some value =>
      rw [hi] at h
      have hle := integerValue_le _ _ _ _ (Nat.zero_le _) hi
      refine .inl ⟨-value, by omega, by omega, ?_⟩
      rw [readInt, if_pos (by omega)]
      exact (Option.some.inj h).symm
  · cases hi : integerValue maxLargestUInt text 0 with
    | none =>
      rw [hi] at h
      exact .inr (hreal h)
    | some value =>
      rw [hi] at h
      have hle := integerValue_le _ _ _ _ (Nat.zero_le _) hi
      refine .inl ⟨value, by omega, by exact_mod_cast hle, ?_⟩
      rw [← Option.some.inj h, readInt]
      split_ifs with hnat hint hint
      · rfl
      · exact absurd (by exact_mod_cast hnat) hint
      · exact absurd (by exact_mod_cast hint) hnat
      · rw [Int.toNat_natCast]

theorem depth_readInt (n : ℤ) : depth (readInt n : Doc R) = 1 := by
  rw [readInt]
  split_ifs <;> rfl

theorem held_readInt (n : ℤ) (hlow : -(maxLargestInt + 1 : ℤ) ≤ n) (hhigh : n ≤ maxLargestUInt) :
    Held scan print (readInt n) := by
  have hmax : (maxInt : ℤ) ≤ maxLargestInt := by decide
  rw [readInt]
  split_ifs with hle
  · exact ⟨hlow, hle.trans hmax⟩
  · rw [Held]
    omega

theorem canonical_readInt (n : ℤ) : canonical scan print (readInt n) = readInt n := by
  by_cases hle : n ≤ maxInt
  · have heq : (readInt n : Doc R) = .int n := if_pos hle
    rw [heq, canonical, heq]
  · have heq : (readInt n : Doc R) = .uint n.toNat := if_neg hle
    have hpos : (n.toNat : ℤ) = n := Int.toNat_of_nonneg (by omega)
    rw [heq, canonical, hpos, heq]

theorem depth_decodeNumber (text : Bytes) (v : Doc R) (h : decodeNumber scan text = some v) : depth v = 1 := by
  obtain ⟨n, -, -, rfl⟩ | ⟨x, -, rfl⟩ := decodeNumber_cases scan text v h
  · exact depth_readInt n
  · rfl

theorem held_decodeNumber (he : Exact scan print) (text : Bytes) (v : Doc R) (h : decodeNumber scan text = some v) :
    Held scan print v := by
  obtain ⟨n, hlow, hhigh, rfl⟩ | ⟨x, hx, rfl⟩ := decodeNumber_cases scan text v h
  · exact held_readInt scan print n hlow hhigh
  · exact he text x hx

theorem mem_setMember (name : Bytes) (v : Doc R) (members : List (Bytes × Doc R)) (m : Bytes × Doc R)
    (h : m ∈ setMember name v members) : m = (name, v) ∨ m ∈ members := by
  induction members with
  | nil => exact .inl (List.mem_singleton.mp h)
  | cons x members ih =>
    obtain ⟨key, y⟩ := x
    rw [setMember] at h
    split_ifs at h with heq hlt
    · rcases List.mem_cons.mp h with h | h
      · exact .inl (h.trans (by rw [heq]))
      · exact .inr (List.mem_cons_of_mem _ h)
    · exact List.mem_cons.mp h
    · rcases List.mem_cons.mp h with rfl | h
      · exact .inr List.mem_cons_self
      · exact (ih h).imp_right (List.mem_cons_of_mem _)

/-- The members stay in order. -/
theorem held_setMember (name : Bytes) (v : Doc R) (hv : Held scan print v) (members : List (Bytes × Doc R))
    (h : HeldMembers scan print members) : HeldMembers scan print (setMember name v members) := by
  induction members with
  | nil => exact ⟨hv, fun m hm => absurd hm List.not_mem_nil, trivial⟩
  | cons x members ih =>
    obtain ⟨key, y⟩ := x
    obtain ⟨hy, hkey, hrest⟩ := h
    rw [setMember]
    split_ifs with heq hlt
    · exact ⟨hv, hkey, hrest⟩
    · refine ⟨hv, fun m hm => ?_, hy, hkey, hrest⟩
      rcases List.mem_cons.mp hm with rfl | hm
      · exact hlt
      · exact List.lt_trans hlt (hkey m hm)
    · have hbefore : key < name := by
        by_contra hnot
        exact heq (List.le_antisymm hnot hlt)
      refine ⟨hy, fun m hm => ?_, ih hrest⟩
      rcases mem_setMember name v members m hm with rfl | hm
      · exact hbefore
      · exact hkey m hm

theorem memberDepths_setMember (name : Bytes) (v : Doc R) (members : List (Bytes × Doc R)) :
    memberDepths (setMember name v members) ≤ max (depth v) (memberDepths members) := by
  induction members with
  | nil => exact le_rfl
  | cons x members ih =>
    obtain ⟨key, y⟩ := x
    rw [setMember]
    split_ifs
    · simp only [memberDepths]
      omega
    · simp only [memberDepths]
      omega
    · simp only [memberDepths] at ih ⊢
      omega

theorem held_append (values : List (Doc R)) (v : Doc R) (h : HeldAll scan print values) (hv : Held scan print v) :
    HeldAll scan print (values ++ [v]) := by
  induction values with
  | nil => exact ⟨hv, trivial⟩
  | cons x values ih => exact ⟨h.1, ih h.2⟩

theorem depths_append (values : List (Doc R)) (v : Doc R) : depths (values ++ [v]) = max (depth v) (depths values) := by
  induction values with
  | nil => rfl
  | cons x values ih =>
    rw [List.cons_append, depths, ih, depths]
    omega

/-- A value that fits at a level of the stack. -/
def Fits (level : ℕ) (v : Doc R) : Prop := Held scan print v ∧ level + depth v ≤ stackLimit

/-- What the loops return with this much fuel; the containers start a level below. -/
structure Sound (fuel : ℕ) : Prop where
  value : ∀ level old s, Yields (fun v _ => Fits scan print level v) True (readValue scan fuel level old s)
  object : ∀ level name members s, HeldMembers scan print members → level + 1 + memberDepths members ≤ stackLimit →
    Yields (fun v _ => Fits scan print level v) True (readObject scan fuel (level + 1) name members s)
  elements : ∀ level values s, HeldAll scan print values → level + 1 + depths values ≤ stackLimit →
    Yields (fun v _ => Fits scan print level v) True (readElements scan fuel (level + 1) values s)
  array : ∀ level s, level < stackLimit →
    Yields (fun v _ => Fits scan print level v) True (readArray scan fuel (level + 1) s)

theorem sound (he : Exact scan print) (fuel : ℕ) : Sound scan print fuel := by
  induction fuel with
  | zero =>
    refine ⟨fun level old s => ?_, fun level name members s _ _ => ?_, fun level values s _ _ => ?_,
      fun level s _ => ?_⟩
    · rw [readValue]
      trivial
    · rw [readObject]
      trivial
    · rw [readElements]
      trivial
    · rw [readArray]
      trivial
  | succ fuel ih =>
    refine ⟨fun level old s => ?_, fun level name members s hm hd => ?_, fun level values s hv hd => ?_,
      fun level s hlevel => ?_⟩
    · refine readValue_yields scan _ _ fuel level old s (fun _ => trivial) (fun hlevel t _ _ => ?_)
        (fun hlevel t _ _ => ih.array level t hlevel) (fun hlevel t text v _ hv => ?_)
        (fun hlevel t x _ => ⟨trivial, hlevel⟩) fun hlevel t _ => ⟨⟨trivial, hlevel⟩, fun b => ⟨trivial, hlevel⟩⟩
      · exact ih.object level [] [] t trivial (by rw [memberDepths]; omega)
      · have hdepth := depth_decodeNumber scan text v hv
        exact ⟨held_decodeNumber scan print he text v hv, by omega⟩
    · have hfits : ∀ ms, HeldMembers scan print ms → level + 1 + memberDepths ms ≤ stackLimit →
          Fits scan print level (.object ms) := fun ms hms hdepth => ⟨hms, by rw [depth]; omega⟩
      refine readObject_yields scan _ _ fuel (level + 1) name members s (fun _ _ => hfits members hm hd)
        fun name' old t _ => yields_imp (fun x u hx u' _ => ?_) id _ (ih.value (level + 1) old t)
      have hset := held_setMember scan print name' x hx.1 members hm
      have hdepth := memberDepths_setMember name' x members
      have hle := hx.2
      exact ⟨hfits _ hset (by omega), ih.object level name' _ u' hset (by omega)⟩
    · refine readElements_yields scan _ _ fuel (level + 1) values s
        (yields_imp (fun x t hx u _ => ?_) id _ (ih.value (level + 1) .null s))
      have hall := held_append scan print values x hv hx.1
      have hle := hx.2
      have hdepth : level + 1 + depths (values ++ [x]) ≤ stackLimit := by
        rw [depths_append]
        omega
      exact ⟨⟨hall, by rw [depth]; omega⟩, ih.elements level _ u hall hdepth⟩
    · exact readArray_yields scan _ _ fuel (level + 1) s
        (fun _ _ => ⟨trivial, by rw [depth, depths]; omega⟩)
        (ih.elements level [] s trivial (by rw [depths]; omega))

/-- What the reader accepts is in order, and nested no deeper than its stack. -/
theorem parse_accepted (he : Exact scan print) (s : Bytes) (v : Doc R) (rest : Bytes)
    (h : parse scan s = .done v rest) : Held scan print v ∧ depth v ≤ stackLimit := by
  have hvalue := (sound scan print he (3 * s.length + 1)).value 0 .null s
  rw [parse] at h
  rw [h] at hvalue
  obtain ⟨hheld, hfits⟩ : Fits scan print 0 v := hvalue
  exact ⟨hheld, by omega⟩

/-! What was written and read stays as it is. -/

theorem canonical_decodeNumber (text : Bytes) (x : R) (v : Doc R) (hx : scan text = some x) (hprint : print x = text)
    (h : decodeNumber scan text = some v) : canonical scan print v = v := by
  obtain ⟨n, -, -, rfl⟩ | ⟨y, hy, rfl⟩ := decodeNumber_cases scan text v h
  · exact canonical_readInt scan print n
  · obtain rfl : x = y := Option.some.inj (hx.symm.trans hy)
    rw [canonical, hprint, h, Option.getD_some]

mutual

theorem canonical_canonical : ∀ v : Doc R, Held scan print v →
    canonical scan print (canonical scan print v) = canonical scan print v ∧
      depth (canonical scan print v) = depth v
  | .null, _ => ⟨rfl, rfl⟩
  | .int n, _ => ⟨canonical_readInt scan print n, depth_readInt n⟩
  | .uint n, _ => ⟨canonical_readInt scan print n, depth_readInt n⟩
  | .real x, hv => by
    obtain ⟨v, hread⟩ := decodeNumber_scanned scan _ x hv.2
    have heq : canonical scan print (.real x) = v := by rw [canonical, hread, Option.getD_some]
    rw [heq]
    exact ⟨canonical_decodeNumber scan print _ x v hv.2 rfl hread, depth_decodeNumber scan _ v hread⟩
  | .string _, _ => ⟨rfl, rfl⟩
  | .boolean _, _ => ⟨rfl, rfl⟩
  | .array values, hv => by
    obtain ⟨heq, hdepth⟩ := canonicals_canonicals values hv
    simp only [canonical, depth, heq, hdepth, and_self]
  | .object members, hv => by
    obtain ⟨heq, hdepth⟩ := canonicalMembers_canonicalMembers members hv
    simp only [canonical, depth, heq, hdepth, and_self]

theorem canonicals_canonicals : ∀ values : List (Doc R), HeldAll scan print values →
    canonicals scan print (canonicals scan print values) = canonicals scan print values ∧
      depths (canonicals scan print values) = depths values
  | [], _ => ⟨rfl, rfl⟩
  | v :: values, hv => by
    obtain ⟨hfirst, hdepth⟩ := canonical_canonical v hv.1
    obtain ⟨hrest, hdepths⟩ := canonicals_canonicals values hv.2
    simp only [canonicals, depths, hfirst, hrest, hdepth, hdepths, and_self]

theorem canonicalMembers_canonicalMembers : ∀ members : List (Bytes × Doc R), HeldMembers scan print members →
    canonicalMembers scan print (canonicalMembers scan print members) = canonicalMembers scan print members ∧
      memberDepths (canonicalMembers scan print members) = memberDepths members
  | [], _ => ⟨rfl, rfl⟩
  | (name, v) :: members, hv => by
    obtain ⟨hfirst, hdepth⟩ := canonical_canonical v hv.1
    obtain ⟨hrest, hdepths⟩ := canonicalMembers_canonicalMembers members hv.2.2
    simp only [canonicalMembers, memberDepths, hfirst, hrest, hdepth, hdepths, and_self]

end

/-- What either writer wrote is read back exactly if it is not nested too deep. -/
theorem read_back_iff (he : Exact scan print) (v : Doc R) (hv : Held scan print v) (text rest : Bytes)
    (h : depth v ≤ stackLimit → parse scan text = .done (canonical scan print v) rest) :
    parse scan text = .done (canonical scan print v) rest ↔ depth v ≤ stackLimit := by
  refine ⟨fun hread => ?_, h⟩
  obtain ⟨-, hdepth⟩ := parse_accepted scan print he text _ rest hread
  rwa [(canonical_canonical scan print v hv).2] at hdepth

theorem fastWrite_read_iff (he : Exact scan print) (v : Doc R) (hv : Held scan print v) :
    parse scan (fastWrite print v) = .done (canonical scan print v) [10] ↔ depth v ≤ stackLimit :=
  read_back_iff scan print he v hv _ _ (parse_fastWrite scan print v hv)

theorem styledWrite_read_iff (he : Exact scan print) (v : Doc R) (hv : Held scan print v) (hc : CNames v) :
    parse scan (styledWrite print v) = .done (canonical scan print v) [10] ↔ depth v ≤ stackLimit :=
  read_back_iff scan print he v hv _ _ (parse_styledWrite scan print v hv hc)

/-- Whatever text is accepted, its value can be written and read, and after that
it does not change any more. -/
theorem accepted_settles (he : Exact scan print) (s : Bytes) (v : Doc R) (rest : Bytes)
    (h : parse scan s = .done v rest) : ∃ w, parse scan (fastWrite print v) = .done w [10] ∧
      parse scan (fastWrite print w) = .done w [10] := by
  obtain ⟨hheld, hdepth⟩ := parse_accepted scan print he s v rest h
  have hfirst := parse_fastWrite scan print v hheld hdepth
  obtain ⟨hheld', hdepth'⟩ := parse_accepted scan print he _ _ _ hfirst
  have hsecond := parse_fastWrite scan print _ hheld' hdepth'
  rw [(canonical_canonical scan print v hheld).1] at hsecond
  exact ⟨_, hfirst, hsecond⟩

end Accepted

/-- A reader that knows the number 0.5. -/
def scanHalf (text : Bytes) : Option Unit := if text = [48, 46, 53] then some () else none

def printHalf : Unit → Bytes := fun _ => [48, 46, 53]

theorem exact_half : Exact scanHalf printHalf := fun _ _ _ => by
  have hwhole : readNumber [46, 53] = ([46, 53], []) := by decide +kernel
  exact ⟨⟨⟨48, [46, 53], rfl, .inl rfl⟩, hwhole⟩, rfl⟩

/-- `{"a": [0.5, 4294967295, "\"\n"]}` -/
def sample : Doc Unit := .object [([97], .array [.real (), .uint 4294967295, .string [34, 10]])]

theorem held_sample : Held scanHalf printHalf sample := by
  have hbound : 4294967295 ≤ maxLargestUInt := by decide
  exact ⟨⟨exact_half [48, 46, 53] () rfl, hbound, trivial, trivial⟩, fun _ hm => absurd hm List.not_mem_nil, trivial⟩

theorem canonical_sample : canonical scanHalf printHalf sample = sample := by with_unfolding_all rfl

theorem fastWrite_read_iff_sample : parse scanHalf (fastWrite printHalf sample) = .done sample [10] := by
  have hread := (fastWrite_read_iff scanHalf printHalf exact_half sample held_sample).mpr (by decide)
  rwa [canonical_sample] at hread

theorem styledWrite_read_iff_sample : parse scanHalf (styledWrite printHalf sample) = .done sample [10] := by
  have hnames : CNames sample := ⟨by decide, ⟨trivial, trivial, trivial, trivial⟩, trivial⟩
  have hread := (styledWrite_read_iff scanHalf printHalf exact_half sample held_sample hnames).mpr (by decide)
  rwa [canonical_sample] at hread

/-- `[0.5, 7]` -/
theorem accepted_settles_half : ∃ w, parse scanHalf (fastWrite printHalf (.array [.real (), .int 7])) = .done w [10] ∧
    parse scanHalf (fastWrite printHalf w) = .done w [10] :=
  accepted_settles scanHalf printHalf exact_half [91, 48, 46, 53, 44, 32, 55, 93] _ [] (by with_unfolding_all rfl)

end BitPark.JsonAccepted
