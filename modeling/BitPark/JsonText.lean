import BitPark.Decimal

namespace BitPark.JsonText

open BitPark.Decimal (Bytes isDigit)

/-! `Json::Reader` on the bytes of a document. -/

/-- A `Json::Value` on bytes. What a `double` is, and how it is printed and
read, is left to the library of the language; comments are not held. -/
inductive Doc (R : Type) where
  | null
  | int (n : ℤ)
  | uint (n : ℕ)
  | real (x : R)
  | string (s : Bytes)
  | boolean (b : Bool)
  | array (values : List (Doc R))
  | object (members : List (Bytes × Doc R))

/-- The tokens, with the text of those that are decoded. -/
inductive Token where
  | objectBegin
  | objectEnd
  | arrayBegin
  | arrayEnd
  | string (text : Bytes)
  | number (text : Bytes)
  | true
  | false
  | null
  | arraySeparator
  | memberSeparator
  | comment
  | endOfStream
  | error
deriving DecidableEq, Repr

def isSpace (b : UInt8) : Bool := b = 32 || b = 9 || b = 13 || b = 10

def skipSpaces (s : Bytes) : Bytes := s.dropWhile isSpace

/-- Up to the first `*/`. -/
def readCStyleComment : Bytes → Option Bytes
  | 42 :: 47 :: s => some s
  | _ :: s => readCStyleComment s
  | [] => none

/-- Up to the end of the line. -/
def readCppStyleComment : Bytes → Bytes
  | 10 :: s => s
  | 13 :: 10 :: s => s
  | 13 :: s => s
  | _ :: s => readCppStyleComment s
  | [] => []

/-- What follows the first slash of a comment. -/
def readComment : Bytes → Token × Bytes
  | 42 :: s =>
    match readCStyleComment s with
    | some s => (.comment, s)
    | none => (.error, [])
  | 47 :: s => (.comment, readCppStyleComment s)
  | s => (.error, s.tail)

def readDigits (s : Bytes) : Bytes × Bytes := (s.takeWhile isDigit, s.dropWhile isDigit)

def readFraction : Bytes → Bytes × Bytes
  | 46 :: s => (46 :: (readDigits s).1, (readDigits s).2)
  | s => ([], s)

def readSign : Bytes → Bytes × Bytes
  | 43 :: s => ([43], s)
  | 45 :: s => ([45], s)
  | s => ([], s)

def readExponent : Bytes → Bytes × Bytes
  | c :: s =>
    if c = 101 ∨ c = 69 then
      (c :: ((readSign s).1 ++ (readDigits (readSign s).2).1), (readDigits (readSign s).2).2)
    else ([], c :: s)
  | [] => ([], [])

/-- The rest of a number, behind its first byte. -/
def readNumber (s : Bytes) : Bytes × Bytes :=
  let integral := readDigits s
  let fraction := readFraction integral.2
  let exponent := readExponent fraction.2
  (integral.1 ++ (fraction.1 ++ exponent.1), exponent.2)

/-- The rest of a string with its closing quote, behind the opening one. -/
def readString : Bytes → Option (Bytes × Bytes)
  | 34 :: s => some ([34], s)
  | 92 :: c :: s => (readString s).map fun r => (92 :: c :: r.1, r.2)
  | c :: s => (readString s).map fun r => (c :: r.1, r.2)
  | [] => none

/-- The rest of one of the three words. -/
def matchWord (word : Bytes) (token : Token) (s : Bytes) : Token × Bytes :=
  if word <+: s then (token, s.drop word.length) else (.error, s)

def readToken (s : Bytes) : Token × Bytes :=
  match skipSpaces s with
  | [] => (.endOfStream, [])
  | 123 :: s => (.objectBegin, s)
  | 125 :: s => (.objectEnd, s)
  | 91 :: s => (.arrayBegin, s)
  | 93 :: s => (.arrayEnd, s)
  | 34 :: s =>
    match readString s with
    | some r => (.string (34 :: r.1), r.2)
    | none => (.error, [])
  | 47 :: s => readComment s
  | 116 :: s => matchWord [114, 117, 101] .true s
  | 102 :: s => matchWord [97, 108, 115, 101] .false s
  | 110 :: s => matchWord [117, 108, 108] .null s
  | 44 :: s => (.arraySeparator, s)
  | 58 :: s => (.memberSeparator, s)
  | 0 :: s => (.endOfStream, s)
  | c :: s => if isDigit c ∨ c = 45 then (.number (c :: (readNumber s).1), (readNumber s).2) else (.error, s)

def skipComments : ℕ → Token × Bytes → Token × Bytes
  | n + 1, (.comment, s) => skipComments n (readToken s)
  | _, r => r

/-- Each comment takes two bytes at least, so that none is left. -/
def skipCommentTokens (s : Bytes) : Token × Bytes := skipComments s.length (readToken s)

/-! Numbers. -/

def maxLargestInt : ℕ := 9223372036854775807
def maxLargestUInt : ℕ := 18446744073709551615
def maxInt : ℕ := 2147483647

/-- The value of the digits, unless it passes the maximum or something is not a digit. -/
def integerValue (maxIntegerValue : ℕ) : Bytes → ℕ → Option ℕ
  | [], value => some value
  | c :: s, value =>
    if isDigit c then
      let digit := c.toNat - 48
      if maxIntegerValue / 10 ≤ value ∧
          (maxIntegerValue / 10 < value ∨ s ≠ [] ∨ maxIntegerValue % 10 < digit) then none
      else integerValue maxIntegerValue s (value * 10 + digit)
    else none

/-! Strings. -/

def hexDigit (c : UInt8) : Option ℕ :=
  if isDigit c then some (c.toNat - 48)
  else if 97 ≤ c ∧ c ≤ 102 then some (c.toNat - 87)
  else if 65 ≤ c ∧ c ≤ 70 then some (c.toNat - 55)
  else none

/-- The four digits behind `\u`. -/
def decodeUnicodeEscapeSequence (a b c d : UInt8) : Option ℕ := do
  let a ← hexDigit a
  let b ← hexDigit b
  let c ← hexDigit c
  let d ← hexDigit d
  pure (((a * 16 + b) * 16 + c) * 16 + d)

def codePointToUTF8 (cp : ℕ) : Bytes :=
  if cp ≤ 0x7f then [UInt8.ofNat cp]
  else if cp ≤ 0x7ff then [UInt8.ofNat (0xc0 + cp / 64 % 32), UInt8.ofNat (0x80 + cp % 64)]
  else if cp ≤ 0xffff then
    [UInt8.ofNat (0xe0 + cp / 4096 % 16), UInt8.ofNat (0x80 + cp / 64 % 64), UInt8.ofNat (0x80 + cp % 64)]
  else if cp ≤ 0x10ffff then
    [UInt8.ofNat (0xf0 + cp / 262144 % 8), UInt8.ofNat (0x80 + cp / 4096 % 64), UInt8.ofNat (0x80 + cp / 64 % 64),
      UInt8.ofNat (0x80 + cp % 64)]
  else []

def escapedByte (c : UInt8) : Option UInt8 :=
  if c = 34 then some 34
  else if c = 47 then some 47
  else if c = 92 then some 92
  else if c = 98 then some 8
  else if c = 102 then some 12
  else if c = 110 then some 10
  else if c = 114 then some 13
  else if c = 116 then some 9
  else none

def isHighSurrogate (u : ℕ) : Prop := 0xd800 ≤ u ∧ u ≤ 0xdbff

instance (u : ℕ) : Decidable (isHighSurrogate u) := inferInstanceAs (Decidable (_ ∧ _))

/-- The code point of a pair; the second half is not checked to be one. -/
def surrogatePair (u v : ℕ) : ℕ := 0x10000 + u % 1024 * 1024 + v % 1024

/-- What stands between the quotes. -/
def decodeBody : Bytes → Option Bytes
  | [] => some []
  | 34 :: _ => some []
  | 92 :: 117 :: a :: b :: c :: d :: s =>
    match decodeUnicodeEscapeSequence a b c d with
    | none => none
    | some u =>
      if isHighSurrogate u then
        match s with
        | 92 :: 117 :: a' :: b' :: c' :: d' :: s' =>
          match decodeUnicodeEscapeSequence a' b' c' d' with
          | none => none
          | some v => (decodeBody s').map (codePointToUTF8 (surrogatePair u v) ++ ·)
        | _ => none
      else (decodeBody s).map (codePointToUTF8 u ++ ·)
  | 92 :: 117 :: _ => none
  | 92 :: c :: s =>
    match escapedByte c with
    | some b => (decodeBody s).map (b :: ·)
    | none => none
  | [92] => none
  | c :: s => (decodeBody s).map (c :: ·)

/-- The token without its two quotes. -/
def decodeString (text : Bytes) : Option Bytes := decodeBody text.tail.dropLast

section Reader

variable {R : Type} (scan : Bytes → Option R)

def decodeDouble (text : Bytes) : Option (Doc R) := (scan text).map .real

def decodeNumber (text : Bytes) : Option (Doc R) :=
  if text.head? = some 45 then
    match integerValue (maxLargestInt + 1) text.tail 0 with
    | some value => some (.int (-value))
    | none => decodeDouble scan text
  else
    match integerValue maxLargestUInt text 0 with
    | some value => some (if value ≤ maxInt then .int value else .uint value)
    | none => decodeDouble scan text

/-- The map of the members is kept in the order of their names. -/
def setMember (name : Bytes) (value : Doc R) : List (Bytes × Doc R) → List (Bytes × Doc R)
  | [] => [(name, value)]
  | (key, v) :: members =>
    if name = key then (key, value) :: members
    else if name < key then (name, value) :: (key, v) :: members
    else (key, v) :: setMember name value members

/-- Where reading a value ends, and what stands in its place then. -/
inductive Outcome (R : Type) where
  | done (value : Doc R) (rest : Bytes)
  | failed (value : Doc R)
  | thrown (value : Doc R)

def stackLimit : ℕ := 1000

mutual

/-- A value in the place of `old`, which stays if nothing can be read. What is
skipped after an error is not read again. The depth, a counter of the process in
the source, is that of this text alone. -/
def readValue : ℕ → ℕ → Doc R → Bytes → Outcome R
  | 0, _, old, _ => .failed old
  | fuel + 1, depth, old, s =>
    if stackLimit ≤ depth then .thrown old
    else
      match skipCommentTokens s with
      | (.objectBegin, s) => readObject fuel (depth + 1) [] [] s
      | (.arrayBegin, s) => readArray fuel (depth + 1) s
      | (.number text, s) =>
        match decodeNumber scan text with
        | some value => .done value s
        | none => .failed old
      | (.string text, s) =>
        match decodeString text with
        | some value => .done (.string value) s
        | none => .failed old
      | (.true, s) => .done (.boolean true) s
      | (.false, s) => .done (.boolean false) s
      | (.null, s) => .done .null s
      | _ => .failed old

/-- The loop over the members, with the name of the last one. An object may end
behind a comma if that name is empty. -/
def readObject : ℕ → ℕ → Bytes → List (Bytes × Doc R) → Bytes → Outcome R
  | 0, _, _, members, _ => .failed (.object members)
  | fuel + 1, depth, name, members, s =>
    match skipCommentTokens s with
    | (.objectEnd, s) => if name = [] then .done (.object members) s else .failed (.object members)
    | (.string text, s) =>
      match decodeString text with
      | none => .failed (.object members)
      | some name =>
        match readToken s with
        | (.memberSeparator, s) =>
          match readValue fuel depth ((members.lookup name).getD .null) s with
          | .failed value => .failed (.object (setMember name value members))
          | .thrown value => .thrown (.object (setMember name value members))
          | .done value s =>
            match readToken s with
            | (.objectEnd, s) => .done (.object (setMember name value members)) s
            | (.arraySeparator, s) => readObject fuel depth name (setMember name value members) s
            -- behind a comment any token stands for the comma
            | (.comment, s) =>
              match skipCommentTokens s with
              | (.objectEnd, s) => .done (.object (setMember name value members)) s
              | (_, s) => readObject fuel depth name (setMember name value members) s
            | _ => .failed (.object (setMember name value members))
        | _ => .failed (.object members)
    | _ => .failed (.object members)

def readArray : ℕ → ℕ → Bytes → Outcome R
  | 0, _, _ => .failed (.array [])
  | fuel + 1, depth, s =>
    match skipSpaces s with
    | 93 :: s => .done (.array []) s
    | _ => readElements fuel depth [] s

/-- The loop over the elements. -/
def readElements : ℕ → ℕ → List (Doc R) → Bytes → Outcome R
  | 0, _, values, _ => .failed (.array values)
  | fuel + 1, depth, values, s =>
    match readValue fuel depth .null s with
    | .failed value => .failed (.array (values ++ [value]))
    | .thrown value => .thrown (.array (values ++ [value]))
    | .done value s =>
      match skipCommentTokens s with
      | (.arraySeparator, s) => readElements fuel depth (values ++ [value]) s
      | (.arrayEnd, s) => .done (.array (values ++ [value])) s
      | _ => .failed (.array (values ++ [value]))

end

/-- `Reader::parse` into an empty root; what follows the value is not looked at. -/
def parse (s : Bytes) : Outcome R := readValue scan (3 * s.length + 1) 0 .null s

end Reader

end BitPark.JsonText
