import BitPark.Ipnc
import BitPark.Stepwise

namespace BitPark.Conversation

open BitPark.Decimal BitPark.Ipnc BitPark.Stepwise

/-! The exchanges with a device on one connection, whichever threads make them:
the commands, and the heartbeat. -/

/-- Reading from a stream that goes on may have to wait for more. -/
inductive Reading (α : Type) where
  | waits
  | fails (what : String) (rest : Bytes)
  | done (a : α) (rest : Bytes)

namespace Reading

variable {α β : Type}

def bind (r : Reading α) (f : α → Bytes → Reading β) : Reading β :=
  match r with
  | waits => waits
  | fails what rest => fails what rest
  | done a rest => f a rest

@[simp] theorem bind_waits (f : α → Bytes → Reading β) : bind waits f = waits := rfl
@[simp] theorem bind_done (a : α) (rest : Bytes) (f : α → Bytes → Reading β) : bind (done a rest) f = f a rest := rfl

end Reading

def fieldNow (input : Bytes) : Reading Bytes :=
  if comma ∈ input then .done (input.takeWhile (· ≠ comma)) (input.dropWhile (· ≠ comma)).tail else .waits

def numberNow (text rest : Bytes) : Reading ℤ :=
  match stoi text with
  | .ok n => .done n rest
  | .error what => .fails what rest

def bodyNow (checksum length : ℤ) (input : Bytes) : Reading Bytes :=
  if length < 0 then .fails "recv body error, gcount != length" input
  else if (input.length : ℤ) < length then .waits
  else
    let ret := cString (input.take length.toNat)
    if checksum ≠ checkSum ret then .fails "checksum error" (input.drop length.toNat)
    else .done ret (input.drop length.toNat)

/-- `receive` while the connection stands: what is not there yet is waited for. -/
def receiveNow (input : Bytes) : Reading Bytes :=
  (fieldNow input).bind fun tag input =>
    if tag ≠ ipnc then .fails "parse ipnc response error, no 'IPNC'" input
    else
      (fieldNow input).bind fun _ input =>
        (fieldNow input).bind fun typeText input =>
          (numberNow typeText input).bind fun type input =>
            if type ≠ ictResponse then .fails "parse ipnc response error, type is not respose" input
            else
              (fieldNow input).bind fun sumText input =>
                (numberNow sumText input).bind fun checksum input =>
                  (fieldNow input).bind fun lengthText input =>
                    (numberNow lengthText input).bind fun length input => bodyNow checksum length input

/-! A frame that has come in part. -/

theorem fieldNow_append (s rest : Bytes) (h : comma ∉ s) : fieldNow (s ++ comma :: rest) = .done s rest := by
  have hfield := field_append "" s rest h
  have hne : ¬ s ++ comma :: rest = [] := by simp
  rw [field, getline, if_neg hne] at hfield
  have hmem : comma ∈ s ++ comma :: rest := by simp
  rw [fieldNow, if_pos hmem]
  obtain ⟨htake, hdrop⟩ := Prod.mk.inj (Except.ok.inj hfield)
  rw [htake, hdrop]

theorem fieldNow_part (s p : Bytes) (h : comma ∉ s) (hp : p <+: s) : fieldNow p = .waits :=
  if_neg fun hin => h (hp.subset hin)

/-- The beginning of a text ends in its first field or behind it. -/
theorem part_cases (s rest p : Bytes) (hp : p <+: s ++ comma :: rest) :
    p <+: s ∨ ∃ q, p = s ++ comma :: q ∧ q <+: rest := by
  obtain h | ⟨t, rfl⟩ := List.prefix_or_prefix_of_prefix hp (List.prefix_append s (comma :: rest))
  · exact .inl h
  · have ht := (List.prefix_append_right_inj s).mp hp
    cases t with
    | nil => exact .inl (by rw [List.append_nil])
    | cons c q =>
      obtain ⟨rfl, hq⟩ := List.cons_prefix_cons.mp ht
      exact .inr ⟨q, rfl, hq⟩

/-- At the end of a text a field is what there is, and nothing follows it. -/
theorem field_part (what : String) (s p : Bytes) (h : comma ∉ s) (hp : p <+: s) :
    (∃ e, field what p = .error e) ∨ (p ≠ [] ∧ field what p = .ok (p, [])) := by
  by_cases hnil : p = []
  · exact .inl ⟨_, by rw [hnil]; rfl⟩
  · have hkeep : ∀ b ∈ p, decide (b ≠ comma) = true := fun b hb =>
      decide_eq_true fun hc => h (hp.subset (hc ▸ hb))
    have htake : p.takeWhile (· ≠ comma) = p := List.takeWhile_eq_self_iff.mpr hkeep
    have hdrop : p.dropWhile (· ≠ comma) = [] := List.dropWhile_eq_nil_iff.mpr hkeep
    refine .inr ⟨hnil, ?_⟩
    rw [field, getline, if_neg hnil]
    simp only [htake, hdrop, List.tail_nil]

theorem digitsValue_first (c : UInt8) (ds : Bytes) : c.toNat - 48 ≤ digitsValue (c :: ds) := by
  have hle : ∀ (ds : Bytes) (acc : ℕ), acc ≤ ds.foldl (fun acc b => 10 * acc + (b.toNat - 48)) acc := by
    intro ds
    induction ds with
    | nil => exact fun acc => le_rfl
    | cons b ds ih =>
      intro acc
      exact le_trans (by omega) (ih (10 * acc + (b.toNat - 48)))
  have hfirst := hle ds (10 * 0 + (c.toNat - 48))
  rw [digitsValue, List.foldl_cons]
  omega

/-- A number does not begin with a zero. -/
theorem decimalNat_first (n : ℕ) (hn : n ≠ 0) (c : UInt8) (ds : Bytes) (h : c :: ds <+: decimalNat n) :
    1 ≤ c.toNat - 48 := by
  have hne : Nat.digits 10 n ≠ [] := Nat.digits_ne_nil_iff_ne_zero.mpr hn
  have hlast := Nat.getLast_digit_ne_zero 10 hn
  have hlt : (Nat.digits 10 n).getLast hne < 10 := Nat.digits_lt_base (by norm_num) (List.getLast_mem hne)
  rw [decimalNat, if_neg hn] at h
  have hhead : ((Nat.digits 10 n).reverse.map digitByte).head? = some (digitByte ((Nat.digits 10 n).getLast hne)) := by
    rw [List.head?_map, List.head?_reverse, List.getLast?_eq_some_getLast hne, Option.map_some]
  obtain ⟨t, ht⟩ := h
  rw [← ht, List.cons_append, List.head?_cons] at hhead
  rw [Option.some.inj hhead, digitByte_toNat _ hlt]
  omega

/-- The beginning of a length that is not zero is not zero. -/
theorem stoi_part (n : ℕ) (hn : n ≠ 0) (p : Bytes) (hp : p <+: decimalNat n) (k : ℤ) (h : stoi p = .ok k) : 0 < k := by
  cases p with
  | nil => cases h
  | cons c ds =>
    have hall : ∀ b ∈ c :: ds, isDigit b = true := fun b hb => decimalNat_digits n b (hp.subset hb)
    have hc := hall c List.mem_cons_self
    have hfirst := decimalNat_first n hn c ds hp
    have hvalue := digitsValue_first c ds
    have hspace := isDigit_not_space c hc
    have htake : (c :: ds).takeWhile isDigit = c :: ds := List.takeWhile_eq_self_iff.mpr hall
    have h45 : c ≠ 45 := fun heq => by rw [heq] at hc; exact absurd hc (by decide)
    have h43 : c ≠ 43 := fun heq => by rw [heq] at hc; exact absurd hc (by decide)
    have hunsigned : unsigned (c :: ds) = c :: ds := by
      unfold unsigned
      split
      · next heq => exact absurd (List.cons.inj heq).1 h45
      · next heq => exact absurd (List.cons.inj heq).1 h43
      · rfl
    have hdrop : (c :: ds).dropWhile isSpace = c :: ds := by
      rw [List.dropWhile_cons, hspace]
      rfl
    simp only [stoi, hdrop, hunsigned, htake, List.head?_cons, Option.some.injEq, h45, if_false, reduceCtorEq] at h
    split_ifs at h
    cases h
    omega

section Frames

variable (write : Json.Value → Bytes) (addr : Bytes) (message : Json.Value)

/-- What follows the type in a response. -/
theorem frame_eq : jsonEncodeIpnc write addr ictResponse message =
    ipnc ++ comma :: (addr ++ comma :: (decimal ictResponse ++ comma :: (decimal (checkSum (write message)) ++ comma ::
      (decimal (write message).length ++ comma :: write message)))) := rfl

theorem bodyNow_append (msg rest : Bytes) (h : 0 ∉ msg) :
    bodyNow (checkSum msg) msg.length (msg ++ rest) = .done msg rest := by
  have hc : cString msg = msg :=
    List.takeWhile_eq_self_iff.mpr fun b hb => decide_eq_true fun hzero => h (hzero ▸ hb)
  have hlen : ¬ ((msg ++ rest).length : ℤ) < msg.length := by
    rw [List.length_append]
    omega
  rw [bodyNow, if_neg (by omega), if_neg hlen]
  simp only [Int.toNat_natCast, List.take_left, List.drop_left, hc, ne_eq, not_true_eq_false, if_false]

/-- A response that has come as a whole is read. -/
theorem receiveNow_frame (h : Framed write addr message) (rest : Bytes) :
    receiveNow (jsonEncodeIpnc write addr ictResponse message ++ rest) = .done (write message) rest := by
  obtain ⟨hl, hu⟩ := checkSum_bounds (write message) h.length
  have htag : comma ∉ ipnc := by decide
  have htype : stoi (decimal ictResponse) = .ok ictResponse := stoi_decimal _ (by decide) (by decide)
  have hsum := stoi_decimal (checkSum (write message)) hl hu
  have hlen : stoi (decimal (write message).length) = .ok ((write message).length : ℤ) := by
    have hlt := h.length
    apply stoi_decimal <;> omega
  simp only [receiveNow, frame_eq, List.append_assoc, List.cons_append, fieldNow_append _ _ htag,
    fieldNow_append _ _ h.addr, fieldNow_append _ _ (comma_decimal _), numberNow, htype, hsum, hlen,
    Reading.bind_done, ne_eq, not_true_eq_false, if_false]
  exact bodyNow_append (write message) rest h.nonnull

/-- One that has come in part is waited for. -/
theorem receiveNow_part (h : Framed write addr message) (p : Bytes)
    (hp : p <+: jsonEncodeIpnc write addr ictResponse message) (hne : p ≠ jsonEncodeIpnc write addr ictResponse message) :
    receiveNow p = .waits := by
  obtain ⟨hl, hu⟩ := checkSum_bounds (write message) h.length
  have htag : comma ∉ ipnc := by decide
  have htype : stoi (decimal ictResponse) = .ok ictResponse := stoi_decimal _ (by decide) (by decide)
  have hsum := stoi_decimal (checkSum (write message)) hl hu
  have hlen : stoi (decimal (write message).length) = .ok ((write message).length : ℤ) := by
    have hlt := h.length
    apply stoi_decimal <;> omega
  rw [frame_eq] at hp hne
  rw [receiveNow]
  obtain hp1 | ⟨q1, rfl, hp1⟩ := part_cases _ _ p hp
  · rw [fieldNow_part _ p htag hp1, Reading.bind_waits]
  simp only [fieldNow_append _ _ htag, Reading.bind_done, ne_eq, not_true_eq_false, if_false]
  obtain hp2 | ⟨q2, rfl, hp2⟩ := part_cases _ _ q1 hp1
  · rw [fieldNow_part _ q1 h.addr hp2, Reading.bind_waits]
  simp only [fieldNow_append _ _ h.addr, Reading.bind_done]
  obtain hp3 | ⟨q3, rfl, hp3⟩ := part_cases _ _ q2 hp2
  · rw [fieldNow_part _ q2 (comma_decimal _) hp3, Reading.bind_waits]
  simp only [fieldNow_append _ _ (comma_decimal _), Reading.bind_done, numberNow, htype, not_true_eq_false, if_false]
  obtain hp4 | ⟨q4, rfl, hp4⟩ := part_cases _ _ q3 hp3
  · rw [fieldNow_part _ q3 (comma_decimal _) hp4, Reading.bind_waits]
  simp only [fieldNow_append _ _ (comma_decimal _), Reading.bind_done, hsum]
  obtain hp5 | ⟨q5, rfl, hp5⟩ := part_cases _ _ q4 hp4
  · rw [fieldNow_part _ q4 (comma_decimal _) hp5, Reading.bind_waits]
  simp only [fieldNow_append _ _ (comma_decimal _), Reading.bind_done, hlen]
  have hshort : q5.length < (write message).length := by
    refine lt_of_le_of_ne hp5.length_le fun heq => hne ?_
    rw [hp5.eq_of_length heq]
  rw [bodyNow, if_neg (by omega), if_pos (by exact_mod_cast hshort)]

/-- If nothing more comes, it is no response. -/
theorem receive_part (h : Framed write addr message) (hbody : write message ≠ []) (p : Bytes)
    (hp : p <+: jsonEncodeIpnc write addr ictResponse message) (hne : p ≠ jsonEncodeIpnc write addr ictResponse message) :
    ∃ e, receive p = .error e := by
  obtain ⟨hl, hu⟩ := checkSum_bounds (write message) h.length
  have htag : comma ∉ ipnc := by decide
  have htype : stoi (decimal ictResponse) = .ok ictResponse := stoi_decimal _ (by decide) (by decide)
  have hsum := stoi_decimal (checkSum (write message)) hl hu
  have hlen : stoi (decimal (write message).length) = .ok ((write message).length : ℤ) := by
    have hlt := h.length
    apply stoi_decimal <;> omega
  have hend : ∀ what, field what [] = .error ("recv " ++ what ++ " error") := fun _ => rfl
  rw [frame_eq] at hp hne
  rw [receive]
  obtain hp1 | ⟨q1, rfl, hp1⟩ := part_cases _ _ p hp
  · obtain ⟨e, he⟩ | ⟨-, he⟩ := field_part "ipnc" _ p htag hp1
    · exact ⟨e, by rw [he]; rfl⟩
    · simp only [he, hend, bind, Except.bind]
      split_ifs <;> exact ⟨_, rfl⟩
  simp only [field_append _ _ _ htag, bind, Except.bind, ne_eq, not_true_eq_false, if_false]
  obtain hp2 | ⟨q2, rfl, hp2⟩ := part_cases _ _ q1 hp1
  · obtain ⟨e, he⟩ | ⟨-, he⟩ := field_part "addr" _ q1 h.addr hp2
    · exact ⟨e, by rw [he]⟩
    · simp only [he, hend]
      exact ⟨_, rfl⟩
  simp only [field_append _ _ _ h.addr]
  obtain hp3 | ⟨q3, rfl, hp3⟩ := part_cases _ _ q2 hp2
  · obtain ⟨e, he⟩ | ⟨-, he⟩ := field_part "type" _ q2 (comma_decimal _) hp3
    · exact ⟨e, by rw [he]⟩
    · simp only [he, hend]
      cases stoi q2 with
      | error e => exact ⟨e, rfl⟩
      | ok n =>
        dsimp only
        split_ifs <;> exact ⟨_, rfl⟩
  simp only [field_append _ _ _ (comma_decimal _), htype, not_true_eq_false, if_false]
  obtain hp4 | ⟨q4, rfl, hp4⟩ := part_cases _ _ q3 hp3
  · obtain ⟨e, he⟩ | ⟨-, he⟩ := field_part "checksum" _ q3 (comma_decimal _) hp4
    · exact ⟨e, by rw [he]⟩
    · simp only [he, hend]
      cases stoi q3 with
      | error e => exact ⟨e, rfl⟩
      | ok n => exact ⟨_, rfl⟩
  simp only [field_append _ _ _ (comma_decimal _), hsum]
  obtain hp5 | ⟨q5, rfl, hp5⟩ := part_cases _ _ q4 hp4
  · obtain ⟨e, he⟩ | ⟨-, he⟩ := field_part "length" _ q4 (comma_decimal _) hp5
    · exact ⟨e, by rw [he]⟩
    · simp only [he]
      cases hk : stoi q4 with
      | error e => exact ⟨e, rfl⟩
      | ok k =>
        -- the digits that came are the first of a length that is not zero
        have hpos : (write message).length ≠ 0 := fun hzero => hbody (List.length_eq_zero_iff.mp hzero)
        have hdecimal : decimal (write message).length = decimalNat (write message).length := by
          rw [decimal, if_neg (by omega), Int.natAbs_natCast]
        have hk' := stoi_part _ hpos q4 (hdecimal ▸ hp5) k hk
        dsimp only
        rw [readBody, if_pos (.inr (by simpa using hk'))]
        exact ⟨_, rfl⟩
  simp only [field_append _ _ _ (comma_decimal _), hlen]
  have hshort : q5.length < (write message).length := by
    refine lt_of_le_of_ne hp5.length_le fun heq => hne ?_
    rw [hp5.eq_of_length heq]
  rw [readBody, if_pos (.inr (by exact_mod_cast hshort))]
  exact ⟨_, rfl⟩

end Frames

/-! The threads on one connection. -/

/-- A command or a ping, with the frame that asks for it. -/
structure Exchange where
  id : ℕ
  frame : Bytes
deriving DecidableEq

/-- What a device answers: an address, and a text. -/
abbrev Answer := Bytes × Json.Value

structure Line where
  /-- Neither a read nor a write has failed; all that follow would fail too. -/
  good : Bool := true
  /-- They have found the client and want its mutex. -/
  waiting : List Exchange := []
  holder : Option Exchange := none
  /-- They were sent, and the device has still to answer them. -/
  asked : List Exchange := []
  answered : List (Exchange × Answer) := []
  /-- The answers on their way, and what has come of them and was not read. -/
  coming : Bytes := []
  unread : Bytes := []
  results : List (Exchange × Except String Bytes) := []
  ids : ℕ := 0

inductive Event where
  | begins (frame : Bytes)
  | lock (i : ℕ) (sends : Bool)
  | answer (a : Answer)
  | arrive (n : ℕ)
  | read
  | expire

section Steps

variable (write : Json.Value → Bytes)

def answerFrame (a : Answer) : Bytes := jsonEncodeIpnc write a.1 ictResponse a.2

/-- The mutex is released with the result. -/
def finish (l : Line) (x : Exchange) (result : Except String Bytes) (good : Bool) (unread : Bytes) : Line :=
  { l with holder := none, results := l.results ++ [(x, result)], good, unread }

/-- `client_send_recv` in steps: the mutex and the message, the reading of the
response, and the end of the time for it. -/
def step (l : Line) : Event → Option Line
  | .begins frame => some { l with waiting := l.waiting ++ [⟨l.ids, frame⟩], ids := l.ids + 1 }
  | .lock i sends =>
    match l.holder, l.waiting[i]? with
    | none, some x => some { l with
        waiting := l.waiting.eraseIdx i
        holder := some x
        good := l.good && sends
        asked := if l.good && sends then l.asked ++ [x] else l.asked }
    | _, _ => none
  | .answer a =>
    match l.asked with
    | x :: rest => some { l with
        asked := rest
        answered := l.answered ++ [(x, a)]
        coming := l.coming ++ answerFrame write a }
    | [] => none
  | .arrive n => some { l with unread := l.unread ++ l.coming.take n, coming := l.coming.drop n }
  | .read =>
    match l.holder with
    | none => none
    | some x =>
      if l.good then
        match receiveNow l.unread with
        | .waits => none
        | .fails what rest => some (finish l x (.error what) true rest)
        | .done body rest => some (finish l x (.ok body) true rest)
      else some (finish l x (.error "recv ipnc error") false l.unread)
  | .expire =>
    match l.holder, receiveNow l.unread with
    | some x, .waits =>
      if l.good then some (finish l x ((receive l.unread).map (·.1)) false []) else none
    | _, _ => none

/-- An event that is not possible changes nothing. -/
def next (l : Line) (e : Event) : Line := (step write l e).getD l

/-- An answer that the server can read. -/
def Proper (a : Answer) : Prop := Framed write a.1 a.2 ∧ write a.2 ≠ []

/-- Whatever the device answers, it answers properly. -/
def Answers (_ : Line) : Event → Prop
  | .answer a => Proper write a
  | _ => True

/-- The holder of the mutex owns the stream: nothing is under way but its own
command, or the answer to it. -/
structure Disciplined (l : Line) : Prop where
  idle : l.good = true → l.holder = none → l.asked = [] ∧ l.coming = [] ∧ l.unread = []
  busy : l.good = true → ∀ x, l.holder = some x → (l.asked = [x] ∧ l.coming = [] ∧ l.unread = []) ∨
    (l.asked = [] ∧ ∃ a, (x, a) ∈ l.answered ∧ Proper write a ∧ l.unread ++ l.coming = answerFrame write a)
  told : ∀ x body, (x, .ok body) ∈ l.results → ∃ a, (x, a) ∈ l.answered ∧ body = write a.2

theorem disciplined_lock (l : Line) (i : ℕ) (sends : Bool) (h : Disciplined write l) :
    Disciplined write (next write l (.lock i sends)) := by
  cases hh : l.holder with
  | some x => rwa [next, step, hh]
  | none =>
    cases hi : l.waiting[i]? with
    | none => rwa [next, step, hh, hi]
    | some x =>
      rw [next, step, hh, hi]
      refine ⟨fun _ hnone => (by cases hnone), fun hgood y hy => ?_, h.told⟩
      obtain ⟨hasked, hcoming, hunread⟩ := h.idle (Bool.and_eq_true_iff.mp hgood).1 hh
      obtain rfl := Option.some.inj hy
      refine .inl ⟨?_, hcoming, hunread⟩
      exact (if_pos hgood).trans (by rw [hasked, List.nil_append])

theorem disciplined_answer (l : Line) (a : Answer) (h : Disciplined write l) (ha : Proper write a) :
    Disciplined write (next write l (.answer a)) := by
  cases hasked : l.asked with
  | nil => rwa [next, step, hasked]
  | cons x rest =>
    rw [next, step, hasked]
    refine ⟨fun hgood hnone => ?_, fun hgood y hy => ?_, fun y body hy => ?_⟩
    · have hidle := (h.idle hgood hnone).1
      rw [hasked] at hidle
      cases hidle
    · obtain ⟨hone, hcoming, hunread⟩ | ⟨hnil, -⟩ := h.busy hgood y hy
      · obtain ⟨rfl, rfl⟩ := List.cons.inj (hasked.symm.trans hone)
        refine .inr ⟨rfl, a, List.mem_append_right _ (List.mem_singleton_self _), ha, ?_⟩
        simp only [Option.getD_some, hcoming, hunread, List.nil_append]
      · rw [hasked] at hnil
        cases hnil
    · obtain ⟨b, hb, hbody⟩ := h.told y body hy
      exact ⟨b, List.mem_append_left _ hb, hbody⟩

theorem disciplined_arrive (l : Line) (n : ℕ) (h : Disciplined write l) :
    Disciplined write (next write l (.arrive n)) where
  idle := fun hgood hnone => by
    obtain ⟨hasked, hcoming, hunread⟩ := h.idle hgood hnone
    refine ⟨hasked, ?_, ?_⟩
    · simp only [next, step, Option.getD_some, hcoming, List.drop_nil]
    · simp only [next, step, Option.getD_some, hcoming, hunread, List.take_nil, List.append_nil]
  busy := fun hgood x hx => by
    obtain ⟨hasked, hcoming, hunread⟩ | ⟨hasked, a, ha, hproper, hframe⟩ := h.busy hgood x hx
    · refine .inl ⟨hasked, ?_, ?_⟩
      · simp only [next, step, Option.getD_some, hcoming, List.drop_nil]
      · simp only [next, step, Option.getD_some, hcoming, hunread, List.take_nil, List.append_nil]
    · refine .inr ⟨hasked, a, ha, hproper, ?_⟩
      simpa only [next, step, Option.getD_some, List.append_assoc, List.take_append_drop] using hframe
  told := h.told

/-- What a holder reads is the answer to its own command. -/
theorem disciplined_finish (l : Line) (x : Exchange) (result : Except String Bytes) (good : Bool) (unread : Bytes)
    (h : Disciplined write l) (hidle : good = true → l.asked = [] ∧ l.coming = [] ∧ unread = [])
    (hresult : ∀ body, result = .ok body → ∃ a, (x, a) ∈ l.answered ∧ body = write a.2) :
    Disciplined write (finish l x result good unread) where
  idle := fun hgood _ => hidle hgood
  busy := fun _ y hy => by cases hy
  told := fun y body hy => by
    rcases List.mem_append.mp hy with hy | hy
    · exact h.told y body hy
    · obtain ⟨rfl, hbody⟩ := Prod.mk.inj (List.mem_singleton.mp hy)
      exact hresult body hbody.symm

/-- As long as the holder waits for its answer, there is no more than a part of it. -/
theorem disciplined_read (l : Line) (h : Disciplined write l) : Disciplined write (next write l .read) := by
  cases hh : l.holder with
  | none => rwa [next, step, hh]
  | some x =>
    cases hgood : l.good with
    | false =>
      rw [next, step, hh]
      simp only [hgood, Bool.false_eq_true, if_false, Option.getD_some]
      exact disciplined_finish write l x _ false l.unread h (fun ht => by cases ht) fun body hb => by cases hb
    | true =>
      obtain ⟨hasked, hcoming, hunread⟩ | ⟨hasked, a, ha, hproper, hframe⟩ := h.busy hgood x hh
      · have hwaits : receiveNow l.unread = .waits := by rw [hunread]; rfl
        rw [next, step, hh]
        simp only [hgood, if_true, hwaits, Option.getD_none]
        exact h
      · by_cases hwhole : l.unread = answerFrame write a
        · have hnone : l.coming = [] := by
            rw [hwhole] at hframe
            exact List.append_right_eq_self.mp hframe
          have hdone : receiveNow l.unread = .done (write a.2) [] := by
            have hread := receiveNow_frame write a.1 a.2 hproper.1 []
            rwa [List.append_nil, show jsonEncodeIpnc write a.1 ictResponse a.2 = answerFrame write a from rfl,
              ← hwhole] at hread
          rw [next, step, hh]
          simp only [hgood, if_true, hdone, Option.getD_some]
          refine disciplined_finish write l x _ true [] h (fun _ => ⟨hasked, hnone, rfl⟩) fun body hb => ?_
          exact ⟨a, ha, (Except.ok.inj hb).symm⟩
        · have hwaits : receiveNow l.unread = .waits :=
            receiveNow_part write a.1 a.2 hproper.1 l.unread ⟨l.coming, hframe⟩ hwhole
          rw [next, step, hh]
          simp only [hgood, if_true, hwaits, Option.getD_none]
          exact h

theorem disciplined_expire (l : Line) (h : Disciplined write l) : Disciplined write (next write l .expire) := by
  cases hh : l.holder with
  | none => rwa [next, step, hh]
  | some x =>
    cases hr : receiveNow l.unread with
    | fails what rest => rwa [next, step, hh, hr]
    | done body rest => rwa [next, step, hh, hr]
    | waits =>
      rw [next, step, hh, hr]
      dsimp only
      split_ifs with hgood
      · have herror : ∃ e, receive l.unread = .error e := by
          obtain ⟨-, -, hunread⟩ | ⟨-, a, -, hproper, hframe⟩ := h.busy hgood x hh
          · rw [hunread]
            exact ⟨_, rfl⟩
          · refine receive_part write a.1 a.2 hproper.1 hproper.2 l.unread ⟨l.coming, hframe⟩ fun hwhole => ?_
            have hread := receiveNow_frame write a.1 a.2 hproper.1 []
            rw [List.append_nil, ← hwhole, hr] at hread
            cases hread
        obtain ⟨e, he⟩ := herror
        refine disciplined_finish write l x _ false [] h (fun ht => by cases ht) fun body hb => ?_
        rw [he] at hb
        cases hb
      · exact h

theorem disciplined_next (l : Line) (e : Event) (h : Disciplined write l) (he : Answers write l e) :
    Disciplined write (next write l e) := by
  cases e with
  | begins frame => exact ⟨h.idle, h.busy, h.told⟩
  | lock i sends => exact disciplined_lock write l i sends h
  | answer a => exact disciplined_answer write l a h he
  | arrive n => exact disciplined_arrive write l n h
  | read => exact disciplined_read write l h
  | expire => exact disciplined_expire write l h

/-! No command is carried out twice. -/

/-- The exchanges whose commands went out. -/
def sent (l : Line) : List Exchange := l.answered.map (·.1) ++ l.asked

structure Once (l : Line) : Prop where
  nodup : (l.waiting ++ sent l).Nodup
  fresh : ∀ x ∈ l.waiting ++ sent l, x.id < l.ids

/-- Exchanges are only moved, or dropped. -/
theorem once_of_subperm (l l' : Line) (h : Once l) (hsub : (l'.waiting ++ sent l').Subperm (l.waiting ++ sent l))
    (hids : l.ids ≤ l'.ids) : Once l' := by
  obtain ⟨m, hperm, hsublist⟩ := hsub
  exact ⟨hperm.nodup_iff.mp (hsublist.nodup h.nodup), fun x hx =>
    (h.fresh x (hsublist.subset (hperm.symm.subset hx))).trans_le hids⟩

theorem once_begins (l : Line) (frame : Bytes) (h : Once l) : Once (next write l (.begins frame)) where
  nodup := by
    have hnew : (⟨l.ids, frame⟩ : Exchange) ∉ l.waiting ++ sent l := fun hin => absurd (h.fresh _ hin) (lt_irrefl _)
    have hperm : (⟨l.ids, frame⟩ :: (l.waiting ++ sent l)).Perm (l.waiting ++ [⟨l.ids, frame⟩] ++ sent l) := by
      rw [List.append_assoc]
      exact List.perm_middle.symm
    exact hperm.nodup_iff.mp (List.nodup_cons.mpr ⟨hnew, h.nodup⟩)
  fresh := fun x hx => by
    have hx' : x ∈ l.waiting ++ [⟨l.ids, frame⟩] ++ sent l := hx
    rw [List.append_assoc, List.mem_append, List.mem_append, List.mem_singleton] at hx'
    have hold : x ∈ l.waiting ++ sent l → x.id < l.ids + 1 := fun hin => Nat.lt_succ_of_lt (h.fresh x hin)
    rcases hx' with hin | rfl | hin
    · exact hold (List.mem_append_left _ hin)
    · exact Nat.lt_succ_self _
    · exact hold (List.mem_append_right _ hin)

theorem once_lock (l : Line) (i : ℕ) (sends : Bool) (h : Once l) : Once (next write l (.lock i sends)) := by
  cases hh : l.holder with
  | some x => rwa [next, step, hh]
  | none =>
    cases hi : l.waiting[i]? with
    | none => rwa [next, step, hh, hi]
    | some x =>
      obtain ⟨hlt, rfl⟩ := List.getElem?_eq_some_iff.mp hi
      have htaken := (List.getElem_cons_eraseIdx_perm hlt).append_right (sent l)
      have hnext : next write l (.lock i sends) = { l with
          waiting := l.waiting.eraseIdx i
          holder := some l.waiting[i]
          good := l.good && sends
          asked := if l.good && sends then l.asked ++ [l.waiting[i]] else l.asked } := by
        rw [next, step, hh, hi]
        rfl
      rw [hnext]
      refine once_of_subperm l _ h ?_ (le_refl l.ids)
      rw [sent]
      cases hsends : l.good && sends with
      | true =>
        have hmoved : (l.waiting.eraseIdx i ++ (l.answered.map (·.1) ++ (l.asked ++ [l.waiting[i]]))).Perm
            (l.waiting ++ sent l) := by
          rw [← List.append_assoc (l.answered.map (·.1)), ← List.append_assoc]
          exact (List.perm_append_singleton _ _).trans htaken
        exact hmoved.subperm
      | false => exact ((List.eraseIdx_sublist l.waiting i).append_right (sent l)).subperm

theorem once_answer (l : Line) (a : Answer) (h : Once l) : Once (next write l (.answer a)) := by
  cases hasked : l.asked with
  | nil => rwa [next, step, hasked]
  | cons x rest =>
    have hsame : sent (next write l (.answer a)) = sent l := by
      rw [next, step, hasked]
      simp only [sent, hasked, Option.getD_some, List.map_append, List.map_cons, List.map_nil, List.append_assoc,
        List.cons_append, List.nil_append]
    apply once_of_subperm l _ h _
    · rw [next, step, hasked]
      exact le_rfl
    · rw [hsame, next, step, hasked]
      exact List.Subperm.refl _

theorem once_read (l : Line) (h : Once l) : Once (next write l .read) := by
  cases hh : l.holder with
  | none => rwa [next, step, hh]
  | some x =>
    rw [next, step, hh]
    dsimp only
    split_ifs
    · cases receiveNow l.unread with
      | waits => exact h
      | fails what rest => exact ⟨h.nodup, h.fresh⟩
      | done body rest => exact ⟨h.nodup, h.fresh⟩
    · exact ⟨h.nodup, h.fresh⟩

theorem once_expire (l : Line) (h : Once l) : Once (next write l .expire) := by
  cases hh : l.holder with
  | none => rwa [next, step, hh]
  | some x =>
    cases hr : receiveNow l.unread with
    | fails what rest => rwa [next, step, hh, hr]
    | done body rest => rwa [next, step, hh, hr]
    | waits =>
      rw [next, step, hh, hr]
      dsimp only
      split_ifs
      · exact ⟨h.nodup, h.fresh⟩
      · exact h

theorem once_next (l : Line) (e : Event) (h : Once l) : Once (next write l e) := by
  cases e with
  | begins frame => exact once_begins write l frame h
  | lock i sends => exact once_lock write l i sends h
  | answer a => exact once_answer write l a h
  | arrive n => exact ⟨h.nodup, h.fresh⟩
  | read => exact once_read write l h
  | expire => exact once_expire write l h

/-- However the threads, the device and the bytes take turns, an exchange that
succeeds has the device's answer to its own command, and the device takes no
command twice. -/
theorem own_answer (es : List Event) (h : Along (next write) (Answers write) {} es) :
    (∀ x body, (x, .ok body) ∈ (es.foldl (next write) {}).results →
      ∃ a, (x, a) ∈ (es.foldl (next write) {}).answered ∧ body = write a.2) ∧
    ((es.foldl (next write) {}).answered.map (·.1)).Nodup := by
  have hempty : Disciplined write {} := ⟨fun _ _ => ⟨rfl, rfl, rfl⟩, fun _ _ hx => (by cases hx),
    fun _ _ hx => absurd hx List.not_mem_nil⟩
  have honce : Once {} := ⟨List.nodup_nil, fun _ hx => absurd hx List.not_mem_nil⟩
  have hrun := run_invariant (fun l => Disciplined write l ∧ Once l) (Answers write)
    (fun l e hl he => ⟨disciplined_next write l e hl.1 he, once_next write l e hl.2⟩) {} es ⟨hempty, honce⟩ h
  have hsent := (List.nodup_append.mp hrun.2.nodup).2.1
  exact ⟨hrun.1.told, (List.nodup_append.mp hsent).1⟩

end Steps

/-- Two threads ask at once; the second answer comes too late. -/
def crowded : List Event :=
  [.begins [1], .begins [2], .lock 1 true, .answer ([], .object []), .arrive 5, .read, .arrive 100, .read, .lock 0 true,
    .expire, .answer ([], .object []), .arrive 100]

theorem own_answer_crowded :
    ((crowded.foldl (next emptyObject) {}).results.map (·.1.id) = [1, 0]) ∧
    ((crowded.foldl (next emptyObject) {}).answered.map (·.1)).Nodup := by
  have hproper : Proper emptyObject ([], .object []) :=
    ⟨⟨by simp, by simp [emptyObject], by decide⟩, by simp [emptyObject]⟩
  have halong : Along (next emptyObject) (Answers emptyObject) {} crowded :=
    ⟨trivial, trivial, trivial, hproper, trivial, trivial, trivial, trivial, trivial, trivial, hproper, trivial, trivial⟩
  exact ⟨by decide +kernel, (own_answer emptyObject crowded halong).2⟩

end BitPark.Conversation
