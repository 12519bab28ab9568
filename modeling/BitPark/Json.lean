import Mathlib

namespace BitPark.Json

/-- `Json::Value`. A real number carries the text that `valueToString` prints for it. -/
inductive Value where
  | null
  | int (n : ℤ)
  | uint (n : ℕ)
  | real (q : ℚ) (text : String)
  | string (s : String)
  | boolean (b : Bool)
  | array (values : List Value)
  | object (members : List (String × Value))

namespace Value

def isNull : Value → Bool
  | null => true
  | _ => false

def asString : Value → Except String String
  | null => .ok ""
  | string s => .ok s
  | boolean b => .ok (if b then "true" else "false")
  | int n => .ok (toString n)
  | uint n => .ok (toString n)
  | real _ text => .ok text
  | array _ => .error "Type is not convertible to string"
  | object _ => .error "Type is not convertible to string"

def minInt : ℤ := -2147483648
def maxInt : ℤ := 2147483647

def asInt : Value → Except String ℤ
  | int n => if minInt ≤ n ∧ n ≤ maxInt then .ok n else .error "LargestInt out of Int range"
  | uint n => if (n : ℤ) ≤ maxInt then .ok n else .error "LargestUInt out of Int range"
  | real q _ =>
    if (minInt : ℚ) ≤ q ∧ q ≤ (maxInt : ℚ) then .ok (q.num.tdiv q.den) else .error "double out of Int range"
  | null => .ok 0
  | boolean b => .ok (if b then 1 else 0)
  | _ => .error "Value is not convertible to Int."

/-- `asDouble` and, up to the text of its error, `asFloat`. -/
def asNumber (kind : String) : Value → Except String ℚ
  | int n => .ok n
  | uint n => .ok n
  | real q _ => .ok q
  | null => .ok 0
  | boolean b => .ok (if b then 1 else 0)
  | _ => .error ("Value is not convertible to " ++ kind ++ ".")

def asDouble (v : Value) : Except String ℚ := v.asNumber "double"
def asFloat (v : Value) : Except String ℚ := v.asNumber "float"

def size : Value → ℕ
  | array values => values.length
  | object members => members.length
  | _ => 0

/-- `operator[](const char*) const` -/
def member (v : Value) (key : String) : Except String Value :=
  match v with
  | null => .ok null
  | object members => .ok ((members.lookup key).getD null)
  | _ => .error "in Json::Value::find(key, end, found): requires objectValue or nullValue"

/-- `get(const char*, const Value&)`: the default stands for a missing member, not for a null one. -/
def get (v : Value) (key : String) (default : Value) : Except String Value :=
  match v with
  | null => .ok default
  | object members => .ok ((members.lookup key).getD default)
  | _ => .error "in Json::Value::find(key, end, found): requires objectValue or nullValue"

/-- `operator[](ArrayIndex) const` -/
def item (v : Value) (index : ℕ) : Except String Value :=
  match v with
  | null => .ok null
  | array values => .ok (values.getD index null)
  | _ => .error "in Json::Value::operator[](ArrayIndex)const: requires arrayValue"

/-- `operator[](const char*)` on a value that may be written: a missing member
is created. The second component is the value afterwards. -/
def resolveReference (v : Value) (key : String) : Except String (Value × Value) :=
  match v with
  | null => .ok (null, object [(key, null)])
  | object members => match members.lookup key with
    | some found => .ok (found, object members)
    | none => .ok (null, object (members ++ [(key, null)]))
  | _ => .error "in Json::Value::resolveReference(key, end): requires objectValue"

def isContainer : Value → Bool
  | array _ => true
  | object _ => true
  | _ => false

/-- The member under the key can be read as text: the value is null or an
object, and the member, if there is one, is neither an array nor an object. -/
def HasText (v : Value) (key : String) : Prop :=
  v = null ∨ ∃ members, v = object members ∧ ∀ found, members.lookup key = some found → found.isContainer = false

theorem asString_isContainer (v : Value) (h : v.isContainer = true) : ∃ what, v.asString = .error what := by
  cases v with
  | array _ => exact ⟨_, rfl⟩
  | object _ => exact ⟨_, rfl⟩
  | _ => cases h

theorem asString_scalar (v : Value) (h : v.isContainer = false) : ∃ text, v.asString = .ok text := by
  cases v with
  | array _ => cases h
  | object _ => cases h
  | _ => exact ⟨_, rfl⟩

theorem text_of_hasText (v : Value) (key : String) (h : v.HasText key) :
    ∃ found after text, v.resolveReference key = .ok (found, after) ∧ found.asString = .ok text := by
  obtain rfl | ⟨members, rfl, hm⟩ := h
  · exact ⟨null, _, "", rfl, rfl⟩
  · cases hl : members.lookup key with
    | none =>
      refine ⟨null, object (members ++ [(key, null)]), "", ?_, rfl⟩
      simp only [resolveReference, hl]
    | some found =>
      obtain ⟨text, ht⟩ := asString_scalar found (hm found hl)
      refine ⟨found, object members, text, ?_, ht⟩
      simp only [resolveReference, hl]

theorem no_text (v : Value) (key : String) (h : ¬ v.HasText key) :
    (∃ what, v.resolveReference key = .error what) ∨
      ∃ found after what, v.resolveReference key = .ok (found, after) ∧ found.asString = .error what := by
  cases v with
  | null => exact absurd (.inl rfl) h
  | object members =>
    right
    have hm : ∃ found, members.lookup key = some found ∧ found.isContainer = true := by
      by_contra hn
      push Not at hn
      exact h (.inr ⟨members, rfl, fun found hf => by simpa using hn found hf⟩)
    obtain ⟨found, hf, hc⟩ := hm
    obtain ⟨what, hw⟩ := asString_isContainer found hc
    refine ⟨found, object members, what, ?_, hw⟩
    simp only [resolveReference, hf]
  | _ => exact .inl ⟨_, rfl⟩

theorem resolveReference_again (v found after : Value) (key : String)
    (h : v.resolveReference key = .ok (found, after)) : after.resolveReference key = .ok (found, after) := by
  unfold resolveReference at h ⊢
  cases v with
  | null =>
    obtain ⟨rfl, rfl⟩ : null = found ∧ object [(key, null)] = after := by simpa using h
    simp
  | object members =>
    dsimp only at h
    cases hl : members.lookup key with
    | some x =>
      rw [hl] at h
      obtain ⟨rfl, rfl⟩ : x = found ∧ object members = after := by simpa using h
      dsimp only
      rw [hl]
    | none =>
      rw [hl] at h
      obtain ⟨rfl, rfl⟩ : null = found ∧ object (members ++ [(key, null)]) = after := by simpa using h
      dsimp only
      rw [List.lookup_append, hl]
      simp
  | _ => cases h

/-- A member that is not null was there before. -/
theorem resolveReference_found (v found after : Value) (key : String)
    (h : v.resolveReference key = .ok (found, after)) (hf : found.isNull = false) :
    after = v ∧ v.member key = .ok found := by
  cases v with
  | null =>
    cases h
    cases hf
  | object members =>
    cases hl : members.lookup key with
    | some x =>
      simp only [resolveReference, hl] at h
      cases h
      simp [member, hl]
    | none =>
      simp only [resolveReference, hl] at h
      cases h
      cases hf
  | _ => cases h

end Value

end BitPark.Json
