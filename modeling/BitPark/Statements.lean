import BitPark.Multipart
import BitPark.SqlText

namespace BitPark.Statements

open BitPark.Decimal BitPark.SqlText
open BitPark.Multipart (ascii)

/-! The statements that carry strings of clients and devices. `boost::format`
puts each argument into its place of the text and does not look at it. -/

/-- The text of a `float`, which goes into a statement without quotes. -/
structure Number where
  text : Bytes
  unquoted : ∀ b ∈ text, isQuote b = false

structure PassVehicle where
  plateType : ℤ := 2
  plateNumber1 : Bytes
  plateNumber2 : Bytes
  plateColor : ℤ := 2
  passDirection : ℤ := 9
  pictureUrl1 : Bytes
  pictureUrl2 : Bytes
  vehicleColor : Bytes
  vehicleType : Option ℤ := none
  vehicleSubtype : Option ℤ := none
  deviceId : Bytes
  platePosition : Bytes

structure ChargeRecord where
  exitId : Bytes
  enterId : Bytes
  charge : Number
  actualCharge : Number
  discount : Number
  payType : ℤ := 1
  user : Bytes
  parkingType : ℤ := 0
  exitType : ℤ := 1
  exitComment : Bytes
  chargeDetail : Bytes
  remainMoney : Option Number := none

def text (s : String) : Piece := .code (ascii s)

def comma : Piece := text ", "

def queryUser (userid : Bytes) : List Piece :=
  [text "select * from park_user_info where userid=", .literal userid]

def modifyPlateNumber (passId plateNumber user : Bytes) : List Piece :=
  [text "update park_detect_info set ", text "carno=", .literal plateNumber, text ", editor=", .literal user,
    text ", editdate=NOW() where nid=", .literal passId]

/-- The new `nid`, the text of the pass time and the parking type are found
before the statement is built. -/
def insertPassVehicleInfo (nid : Bytes) (info : PassVehicle) (t : Bytes) (parkingType : ℤ) : List Piece :=
  [text "insert into park_detect_info ",
    text "(nid, licensetype, carno, carnosecond, ",
    text "carno_original, direction, devicecode, ",
    text "cpic1path, cpic2path, carcolor, platecolor, carbrand, ",
    text "carversion, collectiondate, savedate,parking_type, pointcode, plate_position) ",
    text "values ", text "(",
    .literal nid, comma, .literal (decimal info.plateType), comma, .literal info.plateNumber1, comma,
    .literal info.plateNumber2, comma, .literal info.plateNumber1, comma,
    .literal (decimal info.passDirection), comma, .literal info.deviceId, comma,
    .literal info.pictureUrl1, comma, .literal info.pictureUrl2, comma, .literal info.vehicleColor, comma,
    .literal (decimal info.plateColor), comma, .literal ((info.vehicleType.map decimal).getD []), comma,
    .literal ((info.vehicleSubtype.map decimal).getD []), comma, .literal t,
    text ", NOW(), ", .literal (decimal parkingType), comma,
    .literal (ascii "123456789012"), comma, .literal info.platePosition, text ")"]

def zero : Number := ⟨[48], by decide +kernel⟩

def insertChargeRecord (nid : Bytes) (record : ChargeRecord) : List Piece :=
  [text "insert into park_charge_info ",
    text "(nid, enter_nid, exit_nid, charge, realcharge, ",
    text "pay_type, operator, parking_type, exit_type, ",
    text "exit_comment, remain_money, charge_detail, discount, ",
    text "record_time) ", text "values ", text "(",
    .literal nid, comma, .literal record.enterId, comma, .literal record.exitId, comma,
    .code record.charge.text, comma, .code record.actualCharge.text, comma,
    .literal (decimal record.payType), comma, .literal record.user, comma,
    .literal (decimal record.parkingType), comma, .literal (decimal record.exitType), comma,
    .literal record.exitComment, comma, .code (record.remainMoney.getD zero).text, comma,
    .literal record.chargeDetail, comma, .code record.discount.text, text ", NOW())"]

/-- A condition that is only there when the request names a value for it. -/
def condition (s : String) (value : Option Bytes) : List Piece :=
  match value with
  | none => []
  | some v => [text s, .literal v]

def queryParkingVehicle (startTime endTime vehicleColor : Option Bytes) : List Piece :=
  [text "select d.nid, d.licensetype, d.carno, d.carnosecond, d.devicecode",
    text ", d.direction, d.cpic1path, d.cpic2path, d.platecolor, d.plate_position",
    text ", d.carcolor, d.carbrand, d.carversion, d.collectiondate",
    text " from park_detect_info as d",
    text " right join park_inner_cars as i on d.nid = i.nid where true"] ++
    (condition " and d.collectiondate >= " startTime ++
      (condition " and d.collectiondate <= " endTime ++ condition " and d.carcolor = " vehicleColor))

inductive Call where
  | queryUser (userid : Bytes)
  | modifyPlateNumber (passId plateNumber user : Bytes)
  | insertPassVehicleInfo (nid : Bytes) (info : PassVehicle) (t : Bytes) (parkingType : ℤ)
  | insertChargeRecord (nid : Bytes) (record : ChargeRecord)
  | queryParkingVehicle (startTime endTime vehicleColor : Option Bytes)

namespace Call

def pieces : Call → List Piece
  | queryUser userid => Statements.queryUser userid
  | modifyPlateNumber passId plateNumber user => Statements.modifyPlateNumber passId plateNumber user
  | insertPassVehicleInfo nid info t parkingType => Statements.insertPassVehicleInfo nid info t parkingType
  | insertChargeRecord nid record => Statements.insertChargeRecord nid record
  | queryParkingVehicle startTime endTime vehicleColor =>
    Statements.queryParkingVehicle startTime endTime vehicleColor

/-- The text handed to `UniveralOperateDB`. -/
def sql (c : Call) : Bytes := render c.pieces

/-- The strings among the arguments. -/
def strings : Call → List Bytes
  | queryUser userid => [userid]
  | modifyPlateNumber passId plateNumber user => [plateNumber, user, passId]
  | insertPassVehicleInfo nid info t _ =>
    [nid, info.plateNumber1, info.plateNumber2, info.deviceId, info.pictureUrl1, info.pictureUrl2,
      info.vehicleColor, t, info.platePosition]
  | insertChargeRecord nid record =>
    [nid, record.enterId, record.exitId, record.user, record.exitComment, record.chargeDetail]
  | queryParkingVehicle startTime endTime vehicleColor =>
    startTime.toList ++ endTime.toList ++ vehicleColor.toList

end Call

/-- No quote among the characters of a fixed text. -/
def unquoted (cs : List Char) : Bool := cs.all fun c => !isQuote (UInt8.ofNat c.toNat)

-- stated about characters, which a literal gives up without being decoded
theorem separated_text (cs : List Char) (ps : List Piece) (hs : unquoted cs = true) (h : Separated ps) :
    Separated (text (String.ofList cs) :: ps) := by
  refine ⟨fun b hb => ?_, h⟩
  rw [ascii, String.toList_ofList] at hb
  obtain ⟨c, hc, rfl⟩ := List.mem_map.mp hb
  simpa using List.all_eq_true.mp hs c hc

theorem render_head (s : String) (ps : List Piece) (b : UInt8) (hb : (ascii s).head? = some b) :
    (render (text s :: ps)).head? = some b := by
  simp [render, text, Piece.text, List.head?_append, hb]

theorem separated_literal (v : Bytes) (s : String) (ps : List Piece) (b : UInt8) (hb : (ascii s).head? = some b)
    (hq : isQuote b = false ∧ b ≠ 92) (h : Separated (text s :: ps)) :
    Separated (.literal v :: text s :: ps) := by
  refine ⟨fun c hc => ?_, h⟩
  obtain rfl := Option.some.inj ((render_head s ps b hb).symm.trans hc)
  exact hq

theorem comma_unquoted : isQuote 44 = false ∧ (44 : UInt8) ≠ 92 := by decide

theorem separated_comma (v : Bytes) (ps : List Piece) (h : Separated ps) :
    Separated (.literal v :: comma :: ps) :=
  separated_literal v _ ps 44 rfl comma_unquoted (separated_text _ _ rfl h)

theorem separated_number (n : Number) (ps : List Piece) (h : Separated ps) :
    Separated (.code n.text :: comma :: ps) := ⟨n.unquoted, separated_text _ _ rfl h⟩

theorem separated_last (v : Bytes) : Separated [.literal v] := ⟨fun _ hb => absurd hb (by simp [render]), trivial⟩

theorem queryUser_separated (userid : Bytes) : Separated (queryUser userid) :=
  separated_text _ _ rfl (separated_last userid)

theorem modifyPlateNumber_separated (passId plateNumber user : Bytes) :
    Separated (modifyPlateNumber passId plateNumber user) := by
  rw [modifyPlateNumber]
  iterate 2 apply separated_text _ _ rfl
  apply separated_literal _ _ _ 44 rfl comma_unquoted
  apply separated_text _ _ rfl
  apply separated_literal _ _ _ 44 rfl comma_unquoted
  apply separated_text _ _ rfl
  exact separated_last passId

theorem insertPassVehicleInfo_separated (nid : Bytes) (info : PassVehicle) (t : Bytes) (parkingType : ℤ) :
    Separated (insertPassVehicleInfo nid info t parkingType) := by
  rw [insertPassVehicleInfo]
  iterate 7 apply separated_text _ _ rfl
  iterate 13 apply separated_comma
  apply separated_literal _ _ _ 44 rfl comma_unquoted
  apply separated_text _ _ rfl
  iterate 2 apply separated_comma
  apply separated_literal _ _ _ 41 rfl (by decide)
  exact separated_text _ _ rfl trivial

theorem insertChargeRecord_separated (nid : Bytes) (record : ChargeRecord) :
    Separated (insertChargeRecord nid record) := by
  rw [insertChargeRecord]
  iterate 7 apply separated_text _ _ rfl
  iterate 3 apply separated_comma
  iterate 2 apply separated_number
  iterate 5 apply separated_comma
  apply separated_number
  apply separated_comma
  exact ⟨record.discount.unquoted, separated_text _ _ rfl trivial⟩

/-- A statement may go on like this after a value. -/
def Follows (ps : List Piece) : Prop :=
  Separated ps ∧ ∀ b, (render ps).head? = some b → isQuote b = false ∧ b ≠ 92

theorem condition_follows (cs : List Char) (hs : unquoted (' ' :: cs) = true) (value : Option Bytes)
    (ps : List Piece) (h : Follows ps) : Follows (condition (String.ofList (' ' :: cs)) value ++ ps) := by
  cases value with
  | none => exact h
  | some v =>
    refine ⟨separated_text _ _ hs ⟨h.2, h.1⟩, fun b hb => ?_⟩
    have hhead : (ascii (String.ofList (' ' :: cs))).head? = some 32 := by
      rw [ascii, String.toList_ofList]
      rfl
    obtain rfl := Option.some.inj ((render_head _ _ 32 hhead).symm.trans hb)
    decide

theorem queryParkingVehicle_separated (startTime endTime vehicleColor : Option Bytes) :
    Separated (queryParkingVehicle startTime endTime vehicleColor) := by
  have h0 : Follows [] := ⟨trivial, fun b hb => absurd hb (by simp [render])⟩
  have h1 : Follows (condition " and d.carcolor = " vehicleColor ++ []) := condition_follows _ rfl _ _ h0
  rw [List.append_nil] at h1
  have h2 : Follows (condition " and d.collectiondate <= " endTime ++ _) := condition_follows _ rfl _ _ h1
  have h3 : Follows (condition " and d.collectiondate >= " startTime ++ _) := condition_follows _ rfl _ _ h2
  simp only [queryParkingVehicle, List.cons_append, List.nil_append]
  iterate 5 apply separated_text _ _ rfl
  exact h3.1

theorem special_of_isDigit (b : UInt8) (h : isDigit b = true) : special b = false := by
  rw [Bool.eq_false_iff]
  intro hs
  simp only [special, Bool.or_eq_true, decide_eq_true_eq] at hs
  rcases hs with rfl | rfl <;> exact absurd h (by decide)

theorem decimal_plain (n : ℤ) : Plain (decimal n) := by
  apply plain_of_unspecial
  intro b hb
  rw [decimal] at hb
  split_ifs at hb
  · rcases List.mem_cons.mp hb with rfl | hb
    · decide
    · exact special_of_isDigit b (decimalNat_digits _ b hb)
  · exact special_of_isDigit b (decimalNat_digits _ b hb)

theorem decimal_option_plain (n : Option ℤ) : Plain ((n.map decimal).getD []) := by
  cases n with
  | none => trivial
  | some n => exact decimal_plain n

theorem pieces_separated (c : Call) : Separated c.pieces := by
  cases c with
  | queryUser userid => exact queryUser_separated userid
  | modifyPlateNumber passId plateNumber user => exact modifyPlateNumber_separated passId plateNumber user
  | insertPassVehicleInfo nid info t parkingType => exact insertPassVehicleInfo_separated nid info t parkingType
  | insertChargeRecord nid record => exact insertChargeRecord_separated nid record
  | queryParkingVehicle startTime endTime color => exact queryParkingVehicle_separated startTime endTime color

theorem values_text (s : String) (ps : List Piece) : values (text s :: ps) = values ps := values_code _ _

theorem values_comma (ps : List Piece) : values (comma :: ps) = values ps := values_code _ _

theorem values_condition (s : String) (value : Option Bytes) (ps : List Piece) :
    values (condition s value ++ ps) = value.toList ++ values ps := by
  cases value with
  | none => rfl
  | some v =>
    have hc : condition s (some v) ++ ps = text s :: .literal v :: ps := rfl
    rw [hc, values_text, values_literal]
    rfl

/-- Whatever a statement quotes besides its strings is plain. -/
theorem values_plain_iff (c : Call) : (∀ v ∈ values c.pieces, Plain v) ↔ ∀ v ∈ c.strings, Plain v := by
  have hpoint : Plain (ascii "123456789012") := by decide
  have hnil : values [] = [] := rfl
  cases c with
  | queryUser userid =>
    simp only [Call.pieces, queryUser, values_text, values_literal, hnil, Call.strings]
  | modifyPlateNumber passId plateNumber user =>
    simp only [Call.pieces, modifyPlateNumber, values_text, values_literal, hnil, Call.strings]
  | insertPassVehicleInfo nid info t parkingType =>
    simp only [Call.pieces, insertPassVehicleInfo, values_text, values_comma, values_literal, hnil,
      List.forall_mem_cons, Call.strings, decimal_plain, decimal_option_plain, hpoint]
    tauto
  | insertChargeRecord nid record =>
    simp only [Call.pieces, insertChargeRecord, values_text, values_comma, values_code, values_literal, hnil,
      List.forall_mem_cons, Call.strings, decimal_plain]
    tauto
  | queryParkingVehicle startTime endTime color =>
    have hlast := values_condition " and d.carcolor = " color []
    rw [List.append_nil] at hlast
    simp only [Call.pieces, queryParkingVehicle, List.cons_append, List.nil_append, values_text,
      values_condition, hlast, hnil, Call.strings, List.append_nil, List.append_assoc]

/-- A statement keeps its shape exactly as long as no string in it has a
single quote, or a backslash that is not in front of a wildcard. -/
theorem sql_keeps_shape_iff (c : Call) :
    tokenize c.sql = some (template c.pieces) ↔ ∀ v ∈ c.strings, Plain v :=
  (tokenize_render c.pieces (pieces_separated c)).trans (values_plain_iff c)

/-- `' or '1'='1` -/
def anyUser : Bytes := 39 :: ascii " or " ++ 39 :: ascii "1" ++ 39 :: ascii "=" ++ 39 :: ascii "1"

/-- Before anybody has logged in, a user id turns the search for one user
into one for all. -/
theorem queryUser_anyUser :
    tokenize (Call.queryUser anyUser).sql =
        some ((ascii "select * from park_user_info where userid=").map Token.byte ++ (Token.literal [] ::
          (ascii " or ").map Token.byte ++ [Token.literal (ascii "1"), Token.byte 61, Token.literal (ascii "1")])) ∧
      ¬ tokenize (Call.queryUser anyUser).sql = some (template (Call.queryUser anyUser).pieces) := by
  have hsql : (Call.queryUser anyUser).sql =
      ascii "select * from park_user_info where userid=" ++ (39 :: anyUser ++ [39]) := by
    simp [Call.sql, Call.pieces, queryUser, render, text, Piece.text]
  have hrest : lex .code (39 :: anyUser ++ [39]) = some (Token.literal [] ::
      (ascii " or ").map Token.byte ++ [Token.literal (ascii "1"), Token.byte 61, Token.literal (ascii "1")]) := by
    decide
  constructor
  · rw [tokenize, hsql, lex_code _ _ (queryUser_separated anyUser).1, hrest, Option.map_some]
  · rw [Call.sql, tokenize_render _ (pieces_separated _)]
    intro h
    exact absurd (h anyUser List.mem_cons_self) (by decide)

end BitPark.Statements
