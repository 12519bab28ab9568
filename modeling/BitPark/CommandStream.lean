import BitPark.Devices
import BitPark.Ipnc
import BitPark.JsonWire
import BitPark.SelfDelimiting

namespace BitPark.CommandStream

open BitPark.Decimal (Bytes decimal decimalNat)
open BitPark.Members (bytes)
open BitPark.DeviceMessage (IsInt)
open BitPark.Server (Command LedContent)
open BitPark.Ipnc (ipnc comma checkSum jsonEncodeIpnc)
open BitPark.JsonText BitPark.JsonWriters BitPark.JsonTokens BitPark.JsonRoundTrip BitPark.JsonWire
open BitPark.SelfDelimiting

/-! The commands on their way to a device. -/

def ictControl : ℤ := 1
def laDisplay : ℤ := 1
def laClear : ℤ := 2
def lcRed : ℤ := 1
def lmFixed : ℤ := 1
def laLock : ℤ := 1
def laUnlock : ℤ := 2

def jsonEncodeRoadGateControl (cmd : ℤ) (keepSec : Option ℤ) (mode : ℤ) : List (String × Json.Value) :=
  ("BarrierGate", .int cmd) :: (DeviceCodec.optional "BGKeepTime" (keepSec.map .int) ++ [("BGMode", .int mode)])

def jsonEncodeLedControl (action : ℤ) (content : String) (color size mode : ℤ) (duration : Option ℤ) :
    List (String × Json.Value) :=
  [("LedAction", .int action), ("LedContent", .string content), ("LedColor", .int color), ("LedSize", .int size),
    ("LedMode", .int mode)] ++ DeviceCodec.optional "LedDuration" (duration.map .int)

def jsonEncodeLockAction (action : ℤ) : List (String × Json.Value) := [("LockAction", .int action)]

/-- What `dts_operate` is given to send. -/
inductive Control where
  | roadGate (action mode : ℤ)
  | led (action : ℤ) (content : String) (color size mode : ℤ) (duration : Option ℤ)
  | lock (action : ℤ)
deriving DecidableEq

/-- The name and the members of the object in the root. -/
def Control.parts : Control → String × List (String × Json.Value)
  | roadGate action mode => ("RoadGate", jsonEncodeRoadGateControl action (some 2) mode)
  | led action content color size mode duration =>
    ("Led", jsonEncodeLedControl action content color size mode duration)
  | lock action => ("Lock", jsonEncodeLockAction action)

def Control.root (c : Control) : Json.Value := .object [(c.parts.1, .object c.parts.2)]

section Text

variable (amountText : ℚ → String)

/-- The text on the display, with the amount as the format prints it. -/
def ledText : LedContent → String
  | .plate number => number
  | .charge amount => "交费" ++ amountText amount
  | .remainParking number => "余位" ++ toString number
  | .greeting text => text
  | .clear => ""

def controlOf : Command → Control
  | .gate action mode => .roadGate action mode
  | .led .clear duration => .led laClear (ledText amountText .clear) lcRed 0 lmFixed duration
  | .led content duration => .led laDisplay (ledText amountText content) lcRed 10 lmFixed duration
  | .lock => .lock laLock
  | .unlock => .lock laUnlock

end Text

/-- The numbers of the command are of the type `int`. -/
def Control.Ints : Control → Prop
  | roadGate action mode => IsInt action ∧ IsInt mode
  | led action _ color size mode duration =>
    IsInt action ∧ IsInt color ∧ IsInt size ∧ IsInt mode ∧ ∀ n, duration = some n → IsInt n
  | lock action => IsInt action

section Frames

variable (valueToString : ℚ → String)

def text (c : Control) : Bytes := styledWrite (print valueToString) (docOf c.root)

/-- What `dts_operate` writes to the stream. -/
def frame (c : Control) : Bytes :=
  jsonEncodeIpnc (fun root => styledWrite (print valueToString) (docOf root)) [] ictControl c.root

/-! The text of a command says which it is. -/

def noReals (_ : Bytes) : Option ℚ := none

/-- What is written and read without a change. -/
structure Whole (n : ℕ) (v : Json.Value) : Prop where
  written : Writable noReals valueToString n (docOf v)
  kept : canonical noReals (print valueToString) (docOf v) = docOf v

theorem whole_int (n : ℤ) (hn : IsInt n) : Whole valueToString 1 (.int n) := by
  have hbounds : -(maxLargestInt + 1 : ℤ) ≤ Json.Value.minInt ∧ Json.Value.maxInt ≤ maxLargestInt := by decide
  exact ⟨⟨⟨hbounds.1.trans hn.1, hn.2.trans hbounds.2⟩, trivial, le_rfl⟩, canonical_int noReals valueToString n hn⟩

theorem whole_string (s : String) : Whole valueToString 1 (.string s) := ⟨⟨trivial, trivial, le_rfl⟩, rfl⟩

theorem canonicalMembers_eq (members : List (Bytes × Doc ℚ))
    (h : ∀ m ∈ members, canonical noReals (print valueToString) m.2 = m.2) :
    canonicalMembers noReals (print valueToString) members = members := by
  induction members with
  | nil => rfl
  | cons m members ih =>
    obtain ⟨name, v⟩ := m
    obtain ⟨hv, hrest⟩ := List.forall_mem_cons.mp h
    rw [canonicalMembers, hv, ih hrest]

theorem whole_object (n : ℕ) (members : List (String × Json.Value))
    (h : ∀ m ∈ members, 0 ∉ bytes m.1 ∧ Whole valueToString n m.2) :
    Whole valueToString (n + 1) (.object members) where
  written := writable_object noReals valueToString n members fun m hm => ⟨(h m hm).1, (h m hm).2.written⟩
  kept := by
    rw [docOf, canonical, canonicalMembers_eq]
    intro m hm
    obtain ⟨x, hx, rfl⟩ := mem_docMembers members m hm
    exact (h x hx).2.kept

/-- Two such values with one text are one document. -/
theorem docOf_of_text (n : ℕ) (v v' : Json.Value) (hv : Whole valueToString n v) (hv' : Whole valueToString n v')
    (hn : n ≤ stackLimit)
    (h : styledWrite (print valueToString) (docOf v) = styledWrite (print valueToString) (docOf v')) :
    docOf v = docOf v' := by
  have hread := parse_styledWrite noReals _ _ hv.written.held hv.written.names (hv.written.shallow.trans hn)
  have hread' := parse_styledWrite noReals _ _ hv'.written.held hv'.written.names (hv'.written.shallow.trans hn)
  rw [hv.kept, h, hread', hv'.kept] at hread
  injection hread with hdoc
  exact hdoc.symm

theorem lookup_of_docOf (ms ms' : List (String × Json.Value)) (h : docOf (.object ms) = docOf (.object ms'))
    (key : String) : (ms.lookup key).map docOf = (ms'.lookup key).map docOf := by
  injection h with hmembers
  rw [← lookup_docMembers, hmembers, lookup_docMembers]

theorem named_parts (c : Control) : 0 ∉ bytes c.parts.1 ∧ ∀ m ∈ c.parts.2, 0 ∉ bytes m.1 := by
  have hnames : ∀ key ∈ ["RoadGate", "BarrierGate", "BGKeepTime", "BGMode", "Led", "LedAction", "LedContent", "LedColor",
      "LedSize", "LedMode", "LedDuration", "Lock", "LockAction"], 0 ∉ bytes key := by
    decide +kernel
  simp only [List.forall_mem_cons] at hnames
  cases c with
  | roadGate action mode =>
    simp [Control.parts, jsonEncodeRoadGateControl, DeviceCodec.optional, hnames]
  | led action content color size mode duration =>
    cases duration <;> simp [Control.parts, jsonEncodeLedControl, DeviceCodec.optional, hnames]
  | lock action =>
    simp [Control.parts, jsonEncodeLockAction, hnames]

theorem whole_parts (c : Control) (h : c.Ints) : ∀ m ∈ c.parts.2, Whole valueToString 1 m.2 := by
  have hint := whole_int valueToString
  have hstring := whole_string valueToString
  cases c with
  | roadGate action mode =>
    obtain ⟨haction, hmode⟩ := h
    have htwo : IsInt 2 := ⟨by decide, by decide⟩
    simp [Control.parts, jsonEncodeRoadGateControl, DeviceCodec.optional, hint, haction, hmode, htwo]
  | led action content color size mode duration =>
    obtain ⟨haction, hcolor, hsize, hmode, hduration⟩ := h
    cases duration <;> simp_all [Control.parts, jsonEncodeLedControl, DeviceCodec.optional]
  | lock action =>
    simpa [Control.parts, jsonEncodeLockAction] using hint action h

theorem whole_root (c : Control) (h : c.Ints) : Whole valueToString 3 c.root := by
  obtain ⟨hname, hnames⟩ := named_parts c
  refine whole_object valueToString 2 _ (List.forall_mem_singleton.mpr ⟨hname, ?_⟩)
  exact whole_object valueToString 1 _ fun m hm => ⟨hnames m hm, whole_parts valueToString c h m hm⟩

theorem parts_of_root (a b : Control) (h : docOf a.root = docOf b.root) :
    a.parts.1 = b.parts.1 ∧ docOf (.object a.parts.2) = docOf (.object b.parts.2) := by
  have hlookup := lookup_of_docOf _ _ h a.parts.1
  rw [lookup_cons_ite, lookup_cons_ite, if_pos rfl] at hlookup
  split_ifs at hlookup with hname
  · exact ⟨hname, Option.some.inj hlookup⟩
  · cases hlookup

theorem control_of_parts (a b : Control) (hname : a.parts.1 = b.parts.1)
    (h : docOf (.object a.parts.2) = docOf (.object b.parts.2)) : a = b := by
  have hlookup := lookup_of_docOf _ _ h
  cases a with
  | roadGate action mode =>
    cases b with
    | roadGate action' mode' =>
      have haction := hlookup "BarrierGate"
      have hmode := hlookup "BGMode"
      simp_all [Control.parts, jsonEncodeRoadGateControl, DeviceCodec.optional, docOf, List.lookup_cons]
    | _ => simp [Control.parts] at hname
  | led action content color size mode duration =>
    cases b with
    | led action' content' color' size' mode' duration' =>
      have haction := hlookup "LedAction"
      have hcontent := hlookup "LedContent"
      have hcolor := hlookup "LedColor"
      have hsize := hlookup "LedSize"
      have hmode := hlookup "LedMode"
      have hduration := hlookup "LedDuration"
      have htext : bytes content = bytes content' → content = content' := bytes_injective content content'
      cases duration <;> cases duration' <;>
        simp_all [Control.parts, jsonEncodeLedControl, DeviceCodec.optional, docOf, List.lookup_cons]
    | _ => simp [Control.parts] at hname
  | lock action =>
    cases b with
    | lock action' =>
      have haction := hlookup "LockAction"
      simp_all [Control.parts, jsonEncodeLockAction, docOf, List.lookup_cons]
    | _ => simp [Control.parts] at hname

theorem control_of_text (a b : Control) (ha : a.Ints) (hb : b.Ints)
    (h : text valueToString a = text valueToString b) : a = b := by
  have hdoc := docOf_of_text valueToString 3 _ _ (whole_root valueToString a ha) (whole_root valueToString b hb)
    (by decide) h
  obtain ⟨hname, hparts⟩ := parts_of_root a b hdoc
  exact control_of_parts a b hname hparts

theorem decimalNat_injective (m n : ℕ) (h : decimalNat m = decimalNat n) : m = n := by
  rw [← Decimal.digitsValue_decimalNat m, h, Decimal.digitsValue_decimalNat]

/-- The length in front of the text says where the frame ends. -/
theorem delimited_frame : Delimited Control.Ints (frame valueToString) := by
  intro a b u v ha hb h
  simp only [frame, jsonEncodeIpnc, List.append_assoc, List.cons_append] at h
  have hipnc : comma ∉ ipnc := by decide
  obtain ⟨-, h⟩ := separated_inj comma _ _ _ _ hipnc hipnc h
  obtain ⟨-, h⟩ := separated_inj comma _ _ _ _ List.not_mem_nil List.not_mem_nil h
  obtain ⟨-, h⟩ := separated_inj comma _ _ _ _ (Ipnc.comma_decimal _) (Ipnc.comma_decimal _) h
  obtain ⟨-, h⟩ := separated_inj comma _ _ _ _ (Ipnc.comma_decimal _) (Ipnc.comma_decimal _) h
  obtain ⟨hlength, h⟩ := separated_inj comma _ _ _ _ (Ipnc.comma_decimal _) (Ipnc.comma_decimal _) h
  have hlen := decimalNat_injective _ _ hlength
  obtain ⟨htext, hrest⟩ := List.append_inj h hlen
  exact ⟨control_of_text valueToString a b ha hb htext, hrest⟩

/-- However much of a stream of commands has arrived, it can be taken for these
commands only, and in this order. -/
theorem commands_prefix_iff (as bs : List Control) (has : ∀ c ∈ as, c.Ints) (hbs : ∀ c ∈ bs, c.Ints) :
    as.flatMap (frame valueToString) <+: bs.flatMap (frame valueToString) ↔ as <+: bs := by
  have hne : ∀ c, frame valueToString c ≠ [] := fun c h => by
    rw [frame, jsonEncodeIpnc] at h
    exact absurd (List.append_eq_nil_iff.mp h).1 (by decide)
  exact flatMap_prefix_iff Control.Ints _ (delimited_frame valueToString) hne as bs has hbs

end Frames

/-- A plate is shown, and the gate opens. -/
def admission : List Control :=
  [controlOf (fun _ => "0") (.led (.plate "京A12345") (some 5)), .roadGate Server.bgcOpen Server.bgmAuto]

def locking : List Control := [.lock laLock]

theorem ints_admission : ∀ c ∈ admission, c.Ints := by
  have hint : ∀ n ∈ [(1 : ℤ), 5, 10], IsInt n := by
    simp only [IsInt]
    decide
  simp only [List.forall_mem_cons] at hint
  obtain ⟨h1, h5, h10, -⟩ := hint
  refine List.forall_mem_cons.mpr ⟨⟨h1, h1, h10, h1, fun n hn => ?_⟩, List.forall_mem_singleton.mpr ⟨h1, h1⟩⟩
  rwa [← Option.some.inj hn]

theorem ints_locking : ∀ c ∈ locking, c.Ints := List.forall_mem_singleton.mpr ⟨by decide, by decide⟩

theorem commands_prefix_iff_admission :
    admission.flatMap (frame fun _ => "0.0") <+: (admission ++ locking).flatMap (frame fun _ => "0.0") ∧
      ¬ locking.flatMap (frame fun _ => "0.0") <+: admission.flatMap (frame fun _ => "0.0") := by
  have hboth := List.forall_mem_append.mpr ⟨ints_admission, ints_locking⟩
  have hnot : ¬ locking <+: admission := by decide
  exact ⟨(commands_prefix_iff _ _ _ ints_admission hboth).mpr (List.prefix_append _ _),
    fun h => hnot ((commands_prefix_iff _ _ _ ints_locking ints_admission).mp h)⟩

end BitPark.CommandStream
