import BitPark.Search
import BitPark.Decimal

namespace BitPark.Multipart

open BitPark.Decimal BitPark.Search

/-! The body in which a device reports a passage: a JSON text and the pictures. -/

def ascii (s : String) : Bytes := s.toList.map fun c => UInt8.ofNat c.toNat

def semicolon : UInt8 := 59
def boundaryKey : Bytes := ascii "boundary="
def dashes : Bytes := [45, 45]
def crlf : Bytes := [13, 10]
def jsonHeader : Bytes := ascii "Content-Type: application/json;charset=UTF-8\r\n"
def jpegHeader : Bytes := ascii "Content-Type: image/jpeg\r\n"

/-- The end of the value is found as a position and used as a length. -/
def contentTypeGetBoundary (value : Bytes) : Except String Bytes :=
  match find boundaryKey value with
  | none => .error "no boundary"
  | some pos =>
    match find [semicolon] (value.drop (pos + 9)) with
    | none => .ok (value.drop (pos + 9))
    | some n => .ok ((value.drop (pos + 9)).take (pos + 9 + n))

def stringSplitLoop (delim : Bytes) : ℕ → Bytes → List Bytes
  | 0, _ => []
  | fuel + 1, src => match find delim src with
    | none => []
    | some pos => src.take pos :: stringSplitLoop delim fuel (src.drop (pos + delim.length))

/-- What follows the last delimiter is dropped. -/
def stringSplit (src delim : Bytes) : List Bytes := stringSplitLoop delim (src.length + 1) src

/-- What stands behind the header of a part. -/
def stripHeader (type part : Bytes) : Option Bytes :=
  (find type part).map fun pos => part.drop (pos + type.length)

/-- `Datas` of `http_server_handler` as far as the JSON text and the pictures.
The size is checked against one, and the second part is taken. -/
def decodeData (contentType content : Bytes) : Except String (Bytes × List Bytes) := do
  let bound ← contentTypeGetBoundary contentType
  match stringSplit content (dashes ++ bound) with
  | [] => .error "parse body error"
  | [_] => .error "undefined"
  | _ :: json :: parts =>
    match stripHeader jsonHeader json with
    | none => .error "json msg no header"
    | some text => .ok (text, parts.filterMap (stripHeader jpegHeader))

/-! What a device sends. -/

/-- The parts after the first delimiter. -/
def partsText (delim : Bytes) : List (Bytes × Bytes) → Bytes
  | [] => dashes
  | (header, content) :: parts => crlf ++ header ++ (content ++ (delim ++ partsText delim parts))

def multipartBody (b j : Bytes) (pics : List Bytes) : Bytes :=
  (dashes ++ b) ++ partsText (dashes ++ b) ((jsonHeader, j) :: pics.map fun p => (jpegHeader, p))

theorem splitLoop_fuel (delim : Bytes) (hd : delim ≠ []) (fuel fuel' : ℕ) (src : Bytes) (h : src.length < fuel)
    (h' : src.length < fuel') : stringSplitLoop delim fuel src = stringSplitLoop delim fuel' src := by
  induction fuel generalizing fuel' src with
  | zero => omega
  | succ fuel ih =>
    cases fuel' with
    | zero => omega
    | succ fuel' =>
      simp only [stringSplitLoop]
      cases hf : find delim src with
      | none => rfl
      | some pos =>
        have hpos : 0 < delim.length := List.length_pos_of_ne_nil hd
        have hlen := find_length delim src pos hf
        simp only [List.cons.injEq, true_and]
        apply ih <;> rw [List.length_drop] <;> omega

theorem stringSplit_eq (delim src : Bytes) (hd : delim ≠ []) : stringSplit src delim =
    match find delim src with
    | none => []
    | some pos => src.take pos :: stringSplit (src.drop (pos + delim.length)) delim := by
  have hloop : stringSplit src delim = match find delim src with
      | none => []
      | some pos => src.take pos :: stringSplitLoop delim src.length (src.drop (pos + delim.length)) := rfl
  rw [hloop]
  cases hf : find delim src with
  | none => rfl
  | some pos =>
    have hpos : 0 < delim.length := List.length_pos_of_ne_nil hd
    have hlen := find_length delim src pos hf
    simp only [List.cons.injEq, true_and]
    apply splitLoop_fuel delim hd <;> rw [List.length_drop] <;> omega

/-- Parts and delimiters lie side by side in the text. -/
theorem weight_split (f : UInt8 → ℕ) (delim src : Bytes) (hd : delim ≠ []) :
    ((stringSplit src delim).map fun part => weight f part + weight f delim).sum ≤ weight f src := by
  induction hn : src.length using Nat.strong_induction_on generalizing src with
  | _ n ih =>
    rw [stringSplit_eq delim src hd]
    cases hf : find delim src with
    | none => simp
    | some pos =>
      have hs := find_spec delim src pos hf
      have hpos : 0 < delim.length := List.length_pos_of_ne_nil hd
      have hlen := find_length delim src pos hf
      have hrest := ih (src.drop (pos + delim.length)).length (by rw [List.length_drop]; omega) _ rfl
      have hw := congrArg (weight f) hs
      simp only [weight_append] at hw
      simp only [List.map_cons, List.sum_cons]
      omega

theorem weight_stripHeader (f : UInt8 → ℕ) (type part text : Bytes) (h : stripHeader type part = some text) :
    weight f type + weight f text ≤ weight f part := by
  obtain ⟨pos, hf, rfl⟩ := Option.map_eq_some_iff.mp h
  have hw := congrArg (weight f) (find_spec type part pos hf)
  simp only [weight_append] at hw
  omega

theorem weight_filterMap (f : UInt8 → ℕ) (type : Bytes) (parts : List Bytes) :
    ((parts.filterMap (stripHeader type)).map fun p => weight f type + weight f p).sum ≤
      (parts.map (weight f)).sum ∧ (parts.filterMap (stripHeader type)).length ≤ parts.length := by
  refine ⟨?_, List.length_filterMap_le _ _⟩
  induction parts with
  | nil => simp
  | cons part parts ih =>
    cases hs : stripHeader type part with
    | none =>
      rw [List.filterMap_cons_none hs, List.map_cons, List.sum_cons]
      omega
    | some text =>
      have hw := weight_stripHeader f type part text hs
      rw [List.filterMap_cons_some hs, List.map_cons, List.map_cons, List.sum_cons, List.sum_cons]
      omega

/-- No delimiter begins in a header. -/
def Plain (u : Bytes) : Prop := ∀ y ∈ u.tails, y ≠ [] → ¬ dashes <+: y ∧ y ≠ [45]

theorem plain_headers : Plain (crlf ++ jsonHeader) ∧ Plain (crlf ++ jpegHeader) := by
  simp only [Plain]
  constructor <;> decide

theorem not_delim_of_plain (u b s : Bytes) (hu : Plain u) (x y : Bytes) (hsplit : u = x ++ y) (hy : y ≠ []) :
    ¬ dashes ++ b <+: y ++ s := by
  rintro ⟨rest, hrest⟩
  obtain ⟨hno, hone⟩ := hu y ((List.mem_tails _ _).mpr ⟨x, hsplit.symm⟩) hy
  match y, hy with
  | [c], _ =>
    simp only [dashes, List.cons_append, List.nil_append, List.cons.injEq] at hrest
    exact hone (by rw [hrest.1])
  | c :: c' :: y, _ =>
    simp only [dashes, List.cons_append, List.nil_append, List.cons.injEq] at hrest
    exact hno ⟨y, by rw [dashes, ← hrest.1, ← hrest.2.1]; rfl⟩

/-- The first delimiter in `content ++ delim` is the last one. -/
def Separated (delim content : Bytes) : Prop := find delim (content ++ delim) = some content.length

theorem find_part (b header content rest : Bytes) (hh : Plain (crlf ++ header))
    (hc : Separated (dashes ++ b) content) :
    find (dashes ++ b) (crlf ++ header ++ (content ++ (dashes ++ b ++ rest))) =
      some (crlf ++ header ++ content).length := by
  rw [find_skip _ _ _ (not_delim_of_plain _ b _ hh), ← List.append_assoc content,
    find_append _ _ rest _ hc]
  simp
  omega

theorem split_parts (b : Bytes) (parts : List (Bytes × Bytes)) (hh : ∀ p ∈ parts, Plain (crlf ++ p.1))
    (hc : ∀ p ∈ parts, Separated (dashes ++ b) p.2) :
    stringSplit (partsText (dashes ++ b) parts) (dashes ++ b) =
      (parts.map fun p => crlf ++ p.1 ++ p.2) ++ stringSplit dashes (dashes ++ b) := by
  induction parts with
  | nil => rfl
  | cons p parts ih =>
    obtain ⟨header, content⟩ := p
    obtain ⟨hh1, hh2⟩ := List.forall_mem_cons.mp hh
    obtain ⟨hc1, hc2⟩ := List.forall_mem_cons.mp hc
    rw [stringSplit_eq _ _ (by simp [dashes]), partsText, find_part b header content _ hh1 hc1]
    dsimp only
    have htake : crlf ++ header ++ (content ++ (dashes ++ b ++ partsText (dashes ++ b) parts)) =
        (crlf ++ header ++ content) ++ (dashes ++ b ++ partsText (dashes ++ b) parts) := by simp
    rw [htake, List.take_left, ← List.drop_drop, List.drop_left, List.drop_left, ih hh2 hc2]
    rfl

theorem stripHeader_part (type content : Bytes) (ht : type.head? = some 67) :
    stripHeader type (crlf ++ type ++ content) = some content := by
  obtain ⟨t, rfl⟩ : ∃ t, type = 67 :: t := by
    cases type with
    | nil => cases ht
    | cons c t => exact ⟨t, by rw [Option.some.inj ht]⟩
  have hfind : find (67 :: t) (crlf ++ 67 :: t ++ content) = some 2 := by
    simp [find, crlf, List.cons_prefix_cons]
  rw [stripHeader, hfind, Option.map_some, List.drop_left' (by simp [crlf]; omega)]

/-- Nothing in the two dashes at the end is taken for a picture. -/
theorem filterMap_dashes (b : Bytes) :
    (stringSplit dashes (dashes ++ b)).filterMap (stripHeader jpegHeader) = [] := by
  apply List.filterMap_eq_nil_iff.mpr
  intro part hpart
  cases hs : stripHeader jpegHeader part with
  | none => rfl
  | some text =>
    have hsum := weight_split (fun _ => 1) (dashes ++ b) dashes (by simp [dashes])
    have hle := List.single_le_sum (by simp) _
      (List.mem_map_of_mem (f := fun part => weight (fun _ => 1) part + weight (fun _ => 1) (dashes ++ b)) hpart)
    have hw := weight_stripHeader (fun _ => 1) jpegHeader part text hs
    have hd : weight (fun _ => 1) dashes = 2 := rfl
    have hj : weight (fun _ => 1) jpegHeader = 26 := rfl
    omega

theorem separated_of_plain (b content : Bytes) (h : Plain content) : Separated (dashes ++ b) content := by
  rw [Separated, find_skip _ _ _ (not_delim_of_plain content b _ h), find_of_prefixed _ _ (List.prefix_refl _)]
  simp

theorem split_body (b j : Bytes) (pics : List Bytes) (hj : Separated (dashes ++ b) j)
    (hp : ∀ p ∈ pics, Separated (dashes ++ b) p) :
    stringSplit (multipartBody b j pics) (dashes ++ b) =
      [] :: (crlf ++ jsonHeader ++ j) :: ((pics.map fun p => crlf ++ jpegHeader ++ p) ++
        stringSplit dashes (dashes ++ b)) := by
  have hparts := split_parts b ((jsonHeader, j) :: pics.map fun p => (jpegHeader, p))
    (by
      intro p hp
      obtain rfl | hp := List.mem_cons.mp hp
      · exact plain_headers.1
      · obtain ⟨q, -, rfl⟩ := List.mem_map.mp hp
        exact plain_headers.2)
    (by
      intro p hmem
      obtain rfl | hmem := List.mem_cons.mp hmem
      · exact hj
      · obtain ⟨q, hq, rfl⟩ := List.mem_map.mp hmem
        exact hp q hq)
  rw [stringSplit_eq _ _ (by simp [dashes]), multipartBody, find_of_prefixed _ _ (List.prefix_append _ _)]
  simp only [List.take_zero, Nat.zero_add, List.drop_left, hparts]
  simp

/-- With the boundary of the body, decoding gives back what was put into it. -/
theorem decode_body (ct b j : Bytes) (pics : List Bytes) (hb : contentTypeGetBoundary ct = .ok b)
    (hj : Separated (dashes ++ b) j) (hp : ∀ p ∈ pics, Separated (dashes ++ b) p) :
    decodeData ct (multipartBody b j pics) = .ok (j, pics) := by
  have hpics : (pics.map fun p => crlf ++ jpegHeader ++ p).filterMap (stripHeader jpegHeader) = pics := by
    have hsome : (stripHeader jpegHeader ∘ fun p => crlf ++ jpegHeader ++ p) = some := by
      funext p
      exact stripHeader_part jpegHeader p rfl
    rw [List.filterMap_map, hsome, List.filterMap_some]
  simp only [decodeData, hb, bind, Except.bind, split_body b j pics hj hp, stripHeader_part jsonHeader j rfl,
    List.filterMap_append, hpics, filterMap_dashes, List.append_nil]

/-- Two occurrences of the key do not overlap. -/
theorem find_boundaryKey (pre rest : Bytes) (h : ¬ boundaryKey <:+: pre) :
    find boundaryKey (pre ++ (boundaryKey ++ rest)) = some pre.length := by
  have hskip := find_skip boundaryKey pre (boundaryKey ++ rest) fun x y hs hy hpre => by
    have hkey : boundaryKey.length = 9 := rfl
    by_cases hlong : 9 ≤ y.length
    · have hin : boundaryKey <+: y :=
        List.prefix_of_prefix_length_le hpre (List.prefix_append y _) (by rw [hkey]; exact hlong)
      exact h (hin.isInfix.trans ⟨x, [], by simp [hs]⟩)
    · have hborder : ∀ k < 9, 0 < k → boundaryKey.drop k ≠ boundaryKey.take (9 - k) := by decide
      have hpos : 0 < y.length := List.length_pos_of_ne_nil hy
      apply hborder y.length (by omega) hpos
      obtain ⟨tail, htail⟩ := hpre
      have hdrop := congrArg (fun z => (z.drop y.length).take (9 - y.length)) htail
      simp only [List.drop_left, List.drop_append_of_le_length (show y.length ≤ boundaryKey.length by omega)] at hdrop
      rw [List.take_append_of_le_length (by rw [List.length_drop]; omega),
        List.take_append_of_le_length (by omega), List.take_of_length_le (by rw [List.length_drop]; omega)] at hdrop
      exact hdrop
  rw [hskip, find_of_prefixed _ _ (List.prefix_append _ _)]
  simp

theorem boundary_plain (pre b : Bytes) (hb : semicolon ∉ b) (hpre : ¬ boundaryKey <:+: pre) :
    contentTypeGetBoundary (pre ++ (boundaryKey ++ b)) = .ok b := by
  have hdrop : (pre ++ (boundaryKey ++ b)).drop (pre.length + 9) = b := by
    rw [← List.drop_drop, List.drop_left]
    exact List.drop_left' rfl
  rw [contentTypeGetBoundary, find_boundaryKey pre b hpre]
  dsimp only
  rw [hdrop, find_singleton_none semicolon b hb]

/-- The weight of a body apart from its texts. -/
theorem weight_body (f : UInt8 → ℕ) (b j : Bytes) (pics : List Bytes) :
    weight f (multipartBody b j pics) = (pics.length + 2) * weight f (dashes ++ b) +
      (pics.length + 1) * weight f crlf + weight f dashes + (weight f jsonHeader + weight f j) +
      (pics.map fun p => weight f jpegHeader + weight f p).sum := by
  have hparts : ∀ pics : List Bytes, weight f (partsText (dashes ++ b) (pics.map fun p => (jpegHeader, p))) =
      pics.length * (weight f (dashes ++ b) + weight f crlf) + weight f dashes +
        (pics.map fun p => weight f jpegHeader + weight f p).sum := by
    intro pics
    induction pics with
    | nil => simp [partsText]
    | cons p pics ih =>
      simp only [List.map_cons, partsText, weight_append] at ih ⊢
      rw [ih]
      simp only [List.length_cons, List.sum_cons]
      ring
  simp only [multipartBody, partsText, weight_append] at hparts ⊢
  rw [hparts pics]
  ring

/-- Whatever boundary is decoded with, it weighs little if the texts come out. -/
theorem weight_decoded (f : UInt8 → ℕ) (ct bound content j : Bytes) (pics : List Bytes)
    (hb : contentTypeGetBoundary ct = .ok bound) (h : decodeData ct content = .ok (j, pics)) :
    (pics.length + 2) * weight f (dashes ++ bound) + (weight f jsonHeader + weight f j) +
      (pics.map fun p => weight f jpegHeader + weight f p).sum ≤ weight f content := by
  have hsum := weight_split f (dashes ++ bound) content (by simp [dashes])
  simp only [decodeData, hb, bind, Except.bind] at h
  rcases hs : stringSplit content (dashes ++ bound) with _ | ⟨first, _ | ⟨json, parts⟩⟩
  · rw [hs] at h
    cases h
  · rw [hs] at h
    cases h
  · rw [hs] at h hsum
    dsimp only at h
    cases hj : stripHeader jsonHeader json with
    | none =>
      rw [hj] at h
      cases h
    | some text =>
      rw [hj] at h
      cases h
      have hjson := weight_stripHeader f jsonHeader json j hj
      obtain ⟨hpics, hlen⟩ := weight_filterMap f jpegHeader parts
      have hall : (parts.map fun part => weight f part + weight f (dashes ++ bound)).sum =
          (parts.map (weight f)).sum + parts.length * weight f (dashes ++ bound) := by
        rw [List.sum_map_add]
        simp
      have hmul := Nat.mul_le_mul_right (weight f (dashes ++ bound)) hlen
      simp only [List.map_cons, List.sum_cons, hall] at hsum
      rw [Nat.add_mul]
      omega

/-- A boundary without a semicolon that is not much too long is the text after
the first key, to the end of the value. -/
theorem boundary_short (pre b suffix bound : Bytes) (hs : suffix = [] ∨ suffix.head? = some semicolon)
    (hb : contentTypeGetBoundary (pre ++ (boundaryKey ++ (b ++ suffix))) = .ok bound) (hsemi : semicolon ∉ bound)
    (hlen : bound.length ≤ b.length + 2) : suffix = [] ∧ ¬ boundaryKey <:+: pre := by
  obtain ⟨pos, hpos, hle⟩ := find_le boundaryKey pre (b ++ suffix)
  have hkey : boundaryKey.length = 9 := rfl
  rw [contentTypeGetBoundary, hpos] at hb
  dsimp only at hb
  cases hf : find [semicolon] ((pre ++ (boundaryKey ++ (b ++ suffix))).drop (pos + 9)) with
  | some n =>
    rw [hf] at hb
    cases hb
    have hspec := find_spec _ _ n hf
    refine absurd ?_ hsemi
    rw [hspec]
    have htake := (Nat.le_add_right n _).trans (find_length _ _ n hf)
    rw [List.take_append, List.length_take, min_eq_left htake]
    have hsub : pos + 9 + n - n = (pos + 8) + 1 := by omega
    rw [hsub]
    simp
  | none =>
    rw [hf] at hb
    cases hb
    simp only [List.length_drop, List.length_append, hkey] at hlen
    have hsuffix : suffix = [] := by
      refine hs.resolve_right fun hhead => ?_
      obtain ⟨t, rfl⟩ : ∃ t, suffix = semicolon :: t := by
        cases suffix with
        | nil => cases hhead
        | cons c t => exact ⟨t, by rw [Option.some.inj hhead]⟩
      refine hsemi ?_
      have happ : pre ++ (boundaryKey ++ (b ++ semicolon :: t)) =
          (pre ++ boundaryKey ++ b) ++ semicolon :: t := by simp
      rw [happ, List.drop_append_of_le_length (by simp only [List.length_append, hkey]; omega)]
      simp
    refine ⟨hsuffix, ?_⟩
    rintro ⟨x, y, hxy⟩
    have hlenpre := congrArg List.length hxy
    simp only [List.length_append, hkey] at hlenpre
    obtain ⟨n, hn, hnx⟩ := find_le boundaryKey x (y ++ (boundaryKey ++ (b ++ suffix)))
    have hsame : x ++ (boundaryKey ++ (y ++ (boundaryKey ++ (b ++ suffix)))) =
        pre ++ (boundaryKey ++ (b ++ suffix)) := by rw [← hxy]; simp
    rw [hsame, hpos] at hn
    have hnp : n = pos := (Option.some.inj hn).symm
    omega

/-- Decoding undoes encoding exactly where the first `boundary=` of the header
is the one of the body and nothing follows it. -/
theorem multipart_round_trip_iff (pre b suffix j : Bytes) (pics : List Bytes) (hb : semicolon ∉ b)
    (hs : suffix = [] ∨ suffix.head? = some semicolon) (hj : Separated (dashes ++ b) j)
    (hp : ∀ p ∈ pics, Separated (dashes ++ b) p) :
    decodeData (pre ++ (boundaryKey ++ (b ++ suffix))) (multipartBody b j pics) = .ok (j, pics) ↔
      suffix = [] ∧ ¬ boundaryKey <:+: pre := by
  constructor
  · intro h
    cases hbound : contentTypeGetBoundary (pre ++ (boundaryKey ++ (b ++ suffix))) with
    | error e =>
      simp only [decodeData, hbound, bind, Except.bind] at h
      cases h
    | ok bound =>
      -- counting semicolons, and then bytes, on both sides
      have hcount := weight_decoded (fun c => if c = semicolon then 1 else 0) _ bound _ j pics hbound h
      have hbytes := weight_decoded (fun _ => 1) _ bound _ j pics hbound h
      rw [weight_body] at hcount hbytes
      have hfree : ∀ s : Bytes, semicolon ∉ s → weight (fun c => if c = semicolon then 1 else 0) s = 0 := by
        intro s hsemi
        apply List.sum_eq_zero
        intro n hn
        obtain ⟨c, hc, rfl⟩ := List.mem_map.mp hn
        apply if_neg
        rintro rfl
        exact hsemi hc
      have hone : ∀ s : Bytes, weight (fun _ => 1) s = s.length := by
        intro s
        simp [weight]
      apply boundary_short pre b suffix bound hs hbound
      · intro hmem
        have hpos : 1 ≤ weight (fun c => if c = semicolon then 1 else 0) (dashes ++ bound) := by
          apply List.single_le_sum (by simp)
          exact List.mem_map.mpr ⟨semicolon, by simp [hmem], by simp⟩
        have hmul := Nat.mul_le_mul_left (pics.length + 2) hpos
        rw [hfree (dashes ++ b) (by simp [hb]; decide), hfree crlf (by decide), hfree dashes (by decide)] at hcount
        omega
      · simp only [hone, List.length_append] at hbytes
        have hd : dashes.length = 2 := rfl
        have hc : crlf.length = 2 := rfl
        rw [hd, hc] at hbytes
        by_contra hlong
        have hmul := Nat.mul_le_mul_left (pics.length + 2) (show 2 + (b.length + 3) ≤ 2 + bound.length by omega)
        rw [Nat.mul_add, Nat.mul_add, Nat.mul_add] at hmul
        rw [Nat.mul_add, Nat.mul_add] at hbytes
        omega
  · rintro ⟨rfl, hpre⟩
    rw [List.append_nil]
    exact decode_body _ b j pics (boundary_plain pre b hb hpre) hj hp

def formData : Bytes := ascii "multipart/form-data; "

/-- A report with one picture of two bytes. -/
theorem multipart_round_trip_iff_one : Separated (dashes ++ ascii "x1") (ascii "\x7b\x7d") ∧
    (decodeData (formData ++ (boundaryKey ++ (ascii "x1" ++ []))) (multipartBody (ascii "x1") (ascii "\x7b\x7d")
      [[255, 216]]) = .ok (ascii "\x7b\x7d", [[255, 216]]) ↔ ([] : Bytes) = [] ∧ ¬ boundaryKey <:+: formData) := by
  have hj : Separated (dashes ++ ascii "x1") (ascii "\x7b\x7d") := by
    simp only [Separated]
    decide
  have hp : ∀ p ∈ ([[255, 216]] : List Bytes), Separated (dashes ++ ascii "x1") p := by
    simp only [Separated]
    decide
  exact ⟨hj, multipart_round_trip_iff formData (ascii "x1") [] (ascii "\x7b\x7d") [[255, 216]] (by decide) (.inl rfl) hj hp⟩

/-- The same report, with a character set behind the boundary. -/
theorem parameter_after_boundary :
    contentTypeGetBoundary (formData ++ (boundaryKey ++ (ascii "x1" ++ ascii "; charset=UTF-8"))) =
      .ok (ascii "x1; charset=UTF-8") ∧
    decodeData (formData ++ (boundaryKey ++ (ascii "x1" ++ ascii "; charset=UTF-8")))
      (multipartBody (ascii "x1") (ascii "\x7b\x7d") [[255, 216]]) = .error "parse body error" := by
  exact ⟨by decide, by decide⟩

end BitPark.Multipart
