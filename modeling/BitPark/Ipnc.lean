import BitPark.Decimal
import BitPark.Json

namespace BitPark.Ipnc

open BitPark.Decimal

/-! The frames exchanged with a device: five fields that end with a comma, then
a body as long as the last field says. -/

def ictResponse : ℤ := 100

def comma : UInt8 := 44

def ipnc : Bytes := [73, 80, 78, 67]

/-- A `char` of the source is signed. -/
def signedByte (b : UInt8) : ℤ := if b.toNat < 128 then b.toNat else b.toNat - 256

def checkSum (msg : Bytes) : ℤ := msg.foldl (fun sum b => (sum + signedByte b).bmod (2 ^ 32)) 0

def jsonEncodeIpnc (write : Json.Value → Bytes) (addr : Bytes) (type : ℤ) (message : Json.Value) : Bytes :=
  let msg := write message
  ipnc ++ comma :: (addr ++ comma :: (decimal type ++ comma :: (decimal (checkSum msg) ++ comma ::
    (decimal msg.length ++ comma :: msg))))

/-- `getline` up to a comma: it fails where nothing is left, and takes what is
there where the peer ends without one. -/
def getline (input : Bytes) : Option (Bytes × Bytes) :=
  if input = [] then none
  else some (input.takeWhile (· ≠ comma), (input.dropWhile (· ≠ comma)).tail)

def field (what : String) (input : Bytes) : Except String (Bytes × Bytes) :=
  match getline input with
  | some r => .ok r
  | none => .error ("recv " ++ what ++ " error")

/-- A C string ends at its first null byte. -/
def cString (s : Bytes) : Bytes := s.takeWhile (· ≠ 0)

def readBody (checksum length : ℤ) (input : Bytes) : Except String (Bytes × Bytes) :=
  if length < 0 ∨ (input.length : ℤ) < length then .error "recv body error, gcount != length"
  else
    let ret := cString (input.take length.toNat)
    if checksum ≠ checkSum ret then .error "checksum error"
    else .ok (ret, input.drop length.toNat)

/-- What `client_send_recv` does after it has sent its message. -/
def receive (input : Bytes) : Except String (Bytes × Bytes) := do
  let (tag, input) ← field "ipnc" input
  if tag ≠ ipnc then .error "parse ipnc response error, no 'IPNC'"
  else
    let (_, input) ← field "addr" input
    let (typeText, input) ← field "type" input
    let type ← stoi typeText
    if type ≠ ictResponse then .error "parse ipnc response error, type is not respose"
    else
      let (sumText, input) ← field "checksum" input
      let checksum ← stoi sumText
      let (lengthText, input) ← field "length" input
      let length ← stoi lengthText
      readBody checksum length input

/-- One frame after the other. -/
def receiveAll : ℕ → Bytes → Except String (List Bytes × Bytes)
  | 0, input => .ok ([], input)
  | n + 1, input => do
    let (body, input) ← receive input
    let (bodies, input) ← receiveAll n input
    pure (body :: bodies, input)

theorem signedByte_bounds (b : UInt8) : -128 ≤ signedByte b ∧ signedByte b < 128 := by
  have hb := b.toNat_lt
  by_cases h : b.toNat < 128
  · rw [signedByte, if_pos h]
    omega
  · rw [signedByte, if_neg h]
    omega

/-- A body of less than 16 MiB cannot overflow the sum. -/
theorem checkSum_bounds (msg : Bytes) (h : msg.length < 2 ^ 24) :
    -2 ^ 31 ≤ checkSum msg ∧ checkSum msg < 2 ^ 31 := by
  have hstep : ∀ (msg : Bytes) (sum : ℤ) (n : ℕ), n + msg.length < 2 ^ 24 → -128 * n ≤ sum → sum ≤ 128 * n →
      -128 * (2 ^ 24 : ℤ) < msg.foldl (fun sum b => (sum + signedByte b).bmod (2 ^ 32)) sum ∧
        msg.foldl (fun sum b => (sum + signedByte b).bmod (2 ^ 32)) sum < 128 * (2 ^ 24 : ℤ) := by
    intro msg
    induction msg with
    | nil =>
      intro sum n hn hl hu
      simp only [List.foldl_nil, List.length_nil] at hn ⊢
      omega
    | cons b msg ih =>
      intro sum n hn hl hu
      have hb := signedByte_bounds b
      have hmod : (sum + signedByte b).bmod (2 ^ 32) = sum + signedByte b := by
        apply Int.bmod_eq_of_le_mul_two <;> rw [List.length_cons] at hn <;> omega
      rw [List.foldl_cons, hmod]
      apply ih (sum + signedByte b) (n + 1)
      · rw [List.length_cons] at hn
        omega
      · push_cast
        omega
      · push_cast
        omega
  have hsum := hstep msg 0 0 (by omega) (by norm_num) (by norm_num)
  rw [checkSum]
  omega

theorem field_append (what : String) (s rest : Bytes) (h : comma ∉ s) :
    field what (s ++ comma :: rest) = .ok (s, rest) := by
  have hkeep : ∀ b ∈ s, decide (b ≠ comma) = true := by
    intro b hb
    apply decide_eq_true
    rintro rfl
    exact h hb
  have htake : (s ++ comma :: rest).takeWhile (· ≠ comma) = s := by
    rw [List.takeWhile_append_of_pos hkeep]
    simp
  have hdrop : (s ++ comma :: rest).dropWhile (· ≠ comma) = comma :: rest := by
    rw [List.dropWhile_append_of_pos hkeep]
    simp
  simp only [field, getline, htake, hdrop]
  simp

theorem comma_decimal (n : ℤ) : comma ∉ decimal n := by
  intro h
  obtain hd | hd := decimal_chars n comma h <;> exact absurd hd (by decide)

theorem readBody_append (msg rest : Bytes) (h : 0 ∉ msg) :
    readBody (checkSum msg) msg.length (msg ++ rest) = .ok (msg, rest) := by
  have hc : cString msg = msg := by
    apply List.takeWhile_eq_self_iff.mpr
    intro b hb
    apply decide_eq_true
    rintro rfl
    exact h hb
  have hlen : ¬ ((msg.length : ℤ) < 0 ∨ ((msg ++ rest).length : ℤ) < msg.length) := by
    rw [List.length_append]
    omega
  simp only [readBody, hlen, if_false, Int.toNat_natCast, List.take_left, List.drop_left, hc]
  simp

variable (write : Json.Value → Bytes)

/-- An address without a comma and a text the reader's `int` and its C string can hold. -/
structure Framed (addr : Bytes) (message : Json.Value) : Prop where
  addr : comma ∉ addr
  length : (write message).length < 2 ^ 24
  nonnull : 0 ∉ write message

theorem receive_frame (addr : Bytes) (message : Json.Value) (h : Framed write addr message) (rest : Bytes) :
    receive (jsonEncodeIpnc write addr ictResponse message ++ rest) = .ok (write message, rest) := by
  obtain ⟨hl, hu⟩ := checkSum_bounds (write message) h.length
  have htag : comma ∉ ipnc := by decide
  have htype : stoi (decimal ictResponse) = .ok ictResponse := stoi_decimal _ (by decide) (by decide)
  have hsum := stoi_decimal (checkSum (write message)) hl hu
  have hlen : stoi (decimal (write message).length) = .ok ((write message).length : ℤ) := by
    have hlt := h.length
    apply stoi_decimal <;> omega
  simp only [receive, jsonEncodeIpnc, List.append_assoc, List.cons_append, field_append _ _ _ htag,
    field_append _ _ _ h.addr, field_append _ _ _ (comma_decimal _), htype, hsum, hlen, bind, Except.bind,
    ne_eq, not_true_eq_false, if_false]
  exact readBody_append (write message) rest h.nonnull

theorem receiveAll_frames (frames : List (Bytes × Json.Value)) (h : ∀ f ∈ frames, Framed write f.1 f.2)
    (rest : Bytes) :
    receiveAll frames.length (frames.flatMap (fun f => jsonEncodeIpnc write f.1 ictResponse f.2) ++ rest) =
      .ok (frames.map (fun f => write f.2), rest) := by
  induction frames with
  | nil => rfl
  | cons f frames ih =>
    obtain ⟨hf, hframes⟩ := List.forall_mem_cons.mp h
    simp only [List.length_cons, receiveAll, List.flatMap_cons, List.append_assoc, List.map_cons,
      receive_frame write f.1 f.2 hf, ih hframes, bind, Except.bind]
    rfl

/-- What a device answers is read back as it was written, and what follows it
is left for the next frame. -/
theorem ipnc_round_trip :
    (∀ addr message rest, Framed write addr message →
      receive (jsonEncodeIpnc write addr ictResponse message ++ rest) = .ok (write message, rest)) ∧
    ∀ (frames : List (Bytes × Json.Value)) (rest : Bytes), (∀ f ∈ frames, Framed write f.1 f.2) →
      receiveAll frames.length (frames.flatMap (fun f => jsonEncodeIpnc write f.1 ictResponse f.2) ++ rest) =
        .ok (frames.map (fun f => write f.2), rest) :=
  ⟨fun addr message rest h => receive_frame write addr message h rest,
    fun frames rest h => receiveAll_frames write frames h rest⟩

/-- The text of an empty object. -/
def emptyObject (_ : Json.Value) : Bytes := [123, 125, 10]

def plate : Json.Value := .object [("P", .string "京,1")]

/-- The text of the plate: a comma behind three bytes above 127. -/
def plateText (_ : Json.Value) : Bytes := [123, 34, 80, 34, 58, 34, 228, 186, 172, 44, 49, 34, 125, 10]

/-- An answer, and the first bytes of the next one. -/
theorem ipnc_round_trip_plate : Framed plateText [49, 48] plate ∧
    receive (jsonEncodeIpnc plateText [49, 48] ictResponse plate ++ [73, 80]) =
      .ok (plateText .null, [73, 80]) := by
  have h : Framed plateText [49, 48] plate := ⟨by decide, by decide, by decide⟩
  exact ⟨h, (ipnc_round_trip plateText).1 [49, 48] plate [73, 80] h⟩

end BitPark.Ipnc
