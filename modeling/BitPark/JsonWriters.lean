import BitPark.JsonText

namespace BitPark.JsonWriters

open BitPark.Decimal (Bytes decimal decimalNat)
open BitPark.JsonText

/-! The two writers of `Json`: `FastWriter` for one line, `StyledWriter` for many. -/

def isControlCharacter (c : UInt8) : Bool := 0 < c && c ≤ 31

def hexUpper (n : ℕ) : UInt8 := UInt8.ofNat (if n < 10 then 48 + n else 55 + n)

/-- What `valueToQuotedStringN` writes for a byte. -/
def escape (c : UInt8) : Bytes :=
  if c = 34 then [92, 34]
  else if c = 92 then [92, 92]
  else if c = 8 then [92, 98]
  else if c = 12 then [92, 102]
  else if c = 10 then [92, 110]
  else if c = 13 then [92, 114]
  else if c = 9 then [92, 116]
  else if isControlCharacter c ∨ c = 0 then
    [92, 117, 48, 48, hexUpper (c.toNat / 16), hexUpper (c.toNat % 16)]
  else [c]

def valueToQuotedStringN (value : Bytes) : Bytes := 34 :: (value.flatMap escape ++ [34])

/-- The other version takes a C string. -/
def valueToQuotedString (value : Bytes) : Bytes := valueToQuotedStringN (value.takeWhile (· ≠ 0))

def nullText : Bytes := [110, 117, 108, 108]
def trueText : Bytes := [116, 114, 117, 101]
def falseText : Bytes := [102, 97, 108, 115, 101]

section Writers

variable {R : Type} (print : R → Bytes)

/-- The text of a value that is not a container with something in it. -/
def plainText : Doc R → Bytes
  | .null => nullText
  | .int n => decimal n
  | .uint n => decimalNat n
  | .real x => print x
  | .string s => valueToQuotedStringN s
  | .boolean b => if b then trueText else falseText
  | .array _ => [91, 93]
  | .object _ => [123, 125]

/-! `FastWriter` -/

mutual

def fastValue : Doc R → Bytes
  | .array values => 91 :: (fastValues values ++ [93])
  | .object members => 123 :: (fastMembers members ++ [125])
  | v => plainText print v

def fastValues : List (Doc R) → Bytes
  | [] => []
  | v :: values => fastValue v ++ fastRest values

def fastRest : List (Doc R) → Bytes
  | [] => []
  | v :: values => 44 :: (fastValue v ++ fastRest values)

def fastMembers : List (Bytes × Doc R) → Bytes
  | [] => []
  | (name, v) :: members => valueToQuotedStringN name ++ 58 :: (fastValue v ++ fastMembersRest members)

def fastMembersRest : List (Bytes × Doc R) → Bytes
  | [] => []
  | (name, v) :: members => 44 :: (valueToQuotedStringN name ++ 58 :: (fastValue v ++ fastMembersRest members))

end

def fastWrite (root : Doc R) : Bytes := fastValue print root ++ [10]

/-! `StyledWriter` -/

/-- The document so far, and how far its lines are indented. -/
structure Writer where
  document : Bytes := []
  indentString : Bytes := []

def rightMargin : ℕ := 74
def indentSize : ℕ := 3

namespace Writer

def push (w : Writer) (value : Bytes) : Writer := { w with document := w.document ++ value }

def writeIndent (w : Writer) : Writer :=
  match w.document.getLast? with
  | none => w.push w.indentString
  | some last =>
    if last = 32 then w
    else if last ≠ 10 then w.push (10 :: w.indentString)
    else w.push w.indentString

def writeWithIndent (w : Writer) (value : Bytes) : Writer := w.writeIndent.push value

def indent (w : Writer) : Writer := { w with indentString := w.indentString ++ List.replicate indentSize 32 }
def unindent (w : Writer) : Writer :=
  { w with indentString := w.indentString.take (w.indentString.length - indentSize) }

end Writer

def isEmptyContainer : Doc R → Bool
  | .array values => values.isEmpty
  | .object members => members.isEmpty
  | _ => true

/-- The array is too long for its size, or has a container in it with something in it. -/
def isNested (values : List (Doc R)) : Bool :=
  rightMargin ≤ values.length * 3 || !values.all isEmptyContainer

/-- Otherwise the texts of the elements are collected first. -/
def childValues (values : List (Doc R)) : List Bytes :=
  if isNested values then [] else values.map (plainText print)

def lineLength (texts : List Bytes) : ℕ := 4 + (texts.length - 1) * 2 + (texts.map (·.length)).sum

def isMultineArray (values : List (Doc R)) : Bool :=
  isNested values || rightMargin ≤ lineLength (childValues print values)

/-- The elements whose texts were collected, a line for each. -/
def writeTexts : List Bytes → Writer → Writer
  | [], w => w
  | [text], w => w.writeWithIndent text
  | text :: texts, w => writeTexts texts ((w.writeWithIndent text).push [44])

mutual

def styledValue : Doc R → Writer → Writer
  | .array values, w =>
    if values.isEmpty then w.push [91, 93]
    else if isMultineArray print values then
      let inner := (w.writeWithIndent [91]).indent
      let written :=
        if (childValues print values).isEmpty then styledValues values inner
        else writeTexts (childValues print values) inner
      written.unindent.writeWithIndent [93]
    else w.push ([91, 32] ++ (List.intercalate [44, 32] (childValues print values) ++ [32, 93]))
  | .object members, w =>
    if members.isEmpty then w.push [123, 125]
    else (styledMembers members (w.writeWithIndent [123]).indent).unindent.writeWithIndent [125]
  | v, w => w.push (plainText print v)

/-- The elements, a line for each. -/
def styledValues : List (Doc R) → Writer → Writer
  | [], w => w
  | v :: values, w =>
    let written := styledValue v w.writeIndent
    if values.isEmpty then written else styledValues values (written.push [44])

def styledMembers : List (Bytes × Doc R) → Writer → Writer
  | [], w => w
  | (name, v) :: members, w =>
    let written := styledValue v ((w.writeWithIndent (valueToQuotedString name)).push [32, 58, 32])
    if members.isEmpty then written else styledMembers members (written.push [44])

end

def styledWrite (root : Doc R) : Bytes := (styledValue print root {}).document ++ [10]

end Writers

end BitPark.JsonWriters
