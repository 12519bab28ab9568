import BitPark.Paths
import BitPark.Multipart

namespace BitPark.PictureFiles

open BitPark.Decimal BitPark.Multipart BitPark.Paths

/-! The files that a picture request reads and a voucher upload writes. -/

def slash : UInt8 := 47

/-- A directory of pictures, as `main` leaves it in the options. -/
structure Directory where
  path : Bytes
  slashed : path.getLast? = some slash
  named : 0 ∉ path

structure Options where
  picPath : Directory
  voucherPicPath : Directory

/-- The name that reaches the system call. -/
def cString (name : Bytes) : Bytes := name.takeWhile (· ≠ 0)

inductive HttpResponse where
  | ok (content : Bytes)
  | badRequest (content : Bytes)
  | notFound (content : Bytes)
deriving DecidableEq, Repr

def resourceNotFound (name : Bytes) : HttpResponse := .notFound (ascii "Resource " ++ name ++ ascii " not found")

/-- The name of the file that a request path asks for, or the refusal. -/
def requestedFile (opts : Options) (pattern : Bytes) : Except HttpResponse Bytes :=
  match pattern.splitOn slash with
  | _ :: kind :: directory :: file :: _ =>
    if kind = ascii "PassVehicle" then .ok (opts.picPath.path ++ directory ++ [slash] ++ file)
    else if kind = ascii "Voucher" then .ok (opts.voucherPicPath.path ++ directory ++ [slash] ++ file)
    else .error (resourceNotFound pattern)
  | _ => .error (.badRequest (ascii "The requested pattern " ++ pattern ++ ascii " was invalid"))

def httpServerPictureHandler (opts : Options) (files : Bytes → Option Bytes) (pattern : Bytes) : HttpResponse :=
  match requestedFile opts pattern with
  | .error response => response
  | .ok filename =>
    match files (cString filename) with
    | none => resourceNotFound filename
    | some content => .ok content

/-! The names that carry a time. -/

structure LocalTime where
  year : ℕ
  month : ℕ
  day : ℕ
  hour : ℕ
  minute : ℕ
  second : ℕ
deriving DecidableEq, Repr

def pad (width n : ℕ) : Bytes := List.replicate (width - (decimalNat n).length) 48 ++ decimalNat n

/-- `%Y-%m-%d` -/
def LocalTime.date (t : LocalTime) : Bytes := pad 4 t.year ++ 45 :: pad 2 t.month ++ 45 :: pad 2 t.day

/-- `%Y%m%d%H%M%S` -/
def LocalTime.stamp (t : LocalTime) : Bytes :=
  pad 4 t.year ++ pad 2 t.month ++ pad 2 t.day ++ pad 2 t.hour ++ pad 2 t.minute ++ pad 2 t.second

/-- The directory of a day. If it can be neither found nor created, the
pictures go to its parent. -/
def pictureDirectory (parent : Directory) (created : Bool) (t : LocalTime) : Bytes :=
  if created then parent.path ++ t.date else parent.path

def voucherName (payload : Bytes) (t : LocalTime) : Except String Bytes :=
  if payload.length < 32 then .error "basic_string::substr"
  else .ok (payload.take 32 ++ ascii "_" ++ t.stamp ++ ascii "." ++ (payload.drop 32).take 3)

def voucherFile (opts : Options) (created : Bool) (t : LocalTime) (payload : Bytes) : Except String Bytes :=
  (voucherName payload t).map fun name => pictureDirectory opts.voucherPicPath created t ++ [slash] ++ name

/-! What the peers may ask for, and the file that is opened then. -/

inductive Request where
  | picture (pattern : Bytes)
  | voucher (payload : Bytes)

def opened (opts : Options) (created : Bool) (t : LocalTime) : Request → Option Bytes
  | .picture pattern => (requestedFile opts pattern).toOption.map cString
  | .voucher payload => (voucherFile opts created t payload).toOption.map cString

def component (c : Bytes) : Component Bytes :=
  if c = [] ∨ c = [46] then .stay else if c = [46, 46] then .up else .name c

def components (path : Bytes) : List (Component Bytes) := (path.splitOn slash).map component

def place (path : Bytes) : Place Bytes :=
  (if path.head? = some slash then Place.root else Place.here).walk (components path)

def Contained (opts : Options) (file : Bytes) : Prop :=
  (place opts.picPath.path).Below (place file) ∨ (place opts.voucherPicPath.path).Below (place file)

/-- What a request puts behind the directory. -/
def Request.relative (created : Bool) (t : LocalTime) : Request → Option Bytes
  | .picture pattern =>
    match pattern.splitOn slash with
    | _ :: kind :: directory :: file :: _ =>
      if kind = ascii "PassVehicle" ∨ kind = ascii "Voucher" then some (directory ++ [slash] ++ file) else none
    | _ => none
  | .voucher payload =>
    (voucherName payload t).toOption.map fun name => (if created then t.date else []) ++ [slash] ++ name

/-- By itself, the part behind the directory does not climb above its start
and does not end there. -/
def Request.Inner (created : Bool) (t : LocalTime) (r : Request) : Prop :=
  ∀ rel, r.relative created t = some rel → (Place.here.walk (components (cString rel))).Inner

/-- The directory that a request is about. -/
def Request.directory (opts : Options) : Request → Directory
  | .picture pattern => if (pattern.splitOn slash)[1]? = some (ascii "PassVehicle") then opts.picPath
    else opts.voucherPicPath
  | .voucher _ => opts.voucherPicPath

theorem pad_digits (width n : ℕ) (b : UInt8) (h : b ∈ pad width n) : isDigit b = true := by
  obtain h | h := List.mem_append.mp h
  · rw [List.eq_of_mem_replicate h]
    decide
  · exact decimalNat_digits n b h

theorem requestedFile_toOption (opts : Options) (created : Bool) (t : LocalTime) (pattern : Bytes) :
    (requestedFile opts pattern).toOption = ((Request.picture pattern).relative created t).map
      fun rel => ((Request.picture pattern).directory opts).path ++ rel := by
  match hs : pattern.splitOn slash with
  | [] => simp [requestedFile, Request.relative, hs, Except.toOption]
  | [_] => simp [requestedFile, Request.relative, hs, Except.toOption]
  | [_, _] => simp [requestedFile, Request.relative, hs, Except.toOption]
  | [_, _, _] => simp [requestedFile, Request.relative, hs, Except.toOption]
  | s :: kind :: directory :: file :: rest =>
    by_cases hp : kind = ascii "PassVehicle"
    · simp [requestedFile, Request.relative, Request.directory, hs, hp, Except.toOption]
    · by_cases hv : kind = ascii "Voucher"
      · have hne : ascii "Voucher" ≠ ascii "PassVehicle" := by decide
        simp [requestedFile, Request.relative, Request.directory, hs, hv, hne, Except.toOption]
      · simp [requestedFile, Request.relative, hs, hp, hv, Except.toOption]

theorem opened_eq (opts : Options) (created : Bool) (t : LocalTime) (r : Request) :
    opened opts created t r =
      (r.relative created t).map fun rel => cString ((r.directory opts).path ++ rel) := by
  cases r with
  | picture pattern =>
    rw [opened, requestedFile_toOption opts created t, Option.map_map]
    rfl
  | voucher payload =>
    cases hn : voucherName payload t with
    | error what => simp [opened, voucherFile, Request.relative, hn, Except.toOption, Except.map]
    | ok name =>
      cases created <;>
        simp [opened, voucherFile, pictureDirectory, Request.relative, Request.directory, hn, Except.toOption,
          Except.map]

theorem cString_append (d rel : Bytes) (h : 0 ∉ d) : cString (d ++ rel) = d ++ cString rel := by
  apply List.takeWhile_append_of_pos
  intro b hb
  simp only [decide_eq_true_eq]
  rintro rfl
  exact h hb

theorem walk_component_nil (p : Place Bytes) : p.walk [component []] = p := rfl

/-- Behind the slash of a directory, a path goes on from where the directory is. -/
theorem place_append (d : Directory) (rel : Bytes) :
    place (d.path ++ rel) = (place d.path).walk (components rel) := by
  obtain ⟨path, hs, hn⟩ := d
  obtain ⟨init, rfl⟩ := List.getLast?_eq_some_iff.mp hs
  have hcs : ∀ s, components (init ++ slash :: s) = components init ++ components s := by
    intro s
    simp [components, List.splitOn_append_cons_self]
  have hhead : ∀ s, (init ++ slash :: s).head? = (init ++ [slash]).head? := by
    intro s
    cases init <;> rfl
  have hnil : components [] = [component []] := rfl
  simp only [place, List.append_assoc, List.singleton_append, hhead]
  rw [hcs, hcs, Place.walk_append, Place.walk_append, hnil, walk_component_nil]

theorem place_opened (opts : Options) (created : Bool) (t : LocalTime) (r : Request) (f : Bytes)
    (h : opened opts created t r = some f) : ∃ rel, r.relative created t = some rel ∧
      place f = (place (r.directory opts).path).follow (Place.here.walk (components (cString rel))) := by
  rw [opened_eq, Option.map_eq_some_iff] at h
  obtain ⟨rel, hrel, rfl⟩ := h
  refine ⟨rel, hrel, ?_⟩
  rw [cString_append _ _ (r.directory opts).named, place_append, Place.walk_follow]

theorem contained_of_inner (opts : Options) (created : Bool) (t : LocalTime) (r : Request) (f : Bytes)
    (hr : r.Inner created t) (h : opened opts created t r = some f) : Contained opts f := by
  obtain ⟨rel, hrel, hplace⟩ := place_opened opts created t r f h
  have hb : (place (r.directory opts).path).Below (place f) := by
    rw [hplace]
    exact Place.below_follow _ _ (hr rel hrel)
  cases r with
  | voucher payload => exact .inr hb
  | picture pattern =>
    by_cases hk : (pattern.splitOn slash)[1]? = some (ascii "PassVehicle")
    · rw [Request.directory, if_pos hk] at hb
      exact .inl hb
    · rw [Request.directory, if_neg hk] at hb
      exact .inr hb

theorem requestedFile_refused (opts : Options) (pattern : Bytes) (response : HttpResponse)
    (h : requestedFile opts pattern = .error response) (content : Bytes) : response ≠ .ok content := by
  rintro rfl
  rw [requestedFile] at h
  split at h
  · split_ifs at h
    cases h
  · cases h

/-- What the clients are sent is the content of the file that is opened for them. -/
theorem httpServerPictureHandler_ok (opts : Options) (files : Bytes → Option Bytes) (created : Bool) (t : LocalTime)
    (pattern content : Bytes) (h : httpServerPictureHandler opts files pattern = .ok content) :
    ∃ f, opened opts created t (.picture pattern) = some f ∧ files f = some content := by
  rw [httpServerPictureHandler] at h
  cases hf : requestedFile opts pattern with
  | error response =>
    rw [hf] at h
    exact absurd h (requestedFile_refused opts pattern response hf content)
  | ok filename =>
    rw [hf] at h
    refine ⟨cString filename, by rw [opened, hf]; rfl, ?_⟩
    dsimp only at h
    cases hc : files (cString filename) with
    | none =>
      rw [hc] at h
      cases h
    | some sent =>
      rw [hc] at h
      cases h
      rfl

/-- A request that stays inside is sent nothing from outside of the directories. -/
theorem sent_contained (opts : Options) (files : Bytes → Option Bytes) (created : Bool) (t : LocalTime)
    (pattern content : Bytes) (hr : (Request.picture pattern).Inner created t)
    (h : httpServerPictureHandler opts files pattern = .ok content) :
    ∃ f, Contained opts f ∧ files f = some content := by
  obtain ⟨f, hopened, hcontent⟩ := httpServerPictureHandler_ok opts files created t pattern content h
  exact ⟨f, contained_of_inner opts created t _ f hr hopened, hcontent⟩

/-- One directory for both kinds of pictures. -/
def shared (d : Directory) : Options := ⟨d, d⟩

theorem directory_shared (d : Directory) (r : Request) : r.directory (shared d) = d := by
  cases r with
  | voucher payload => rfl
  | picture pattern => simp [Request.directory, shared]

def directoryA : Directory := ⟨[97, slash], rfl, by decide⟩
def directoryB : Directory := ⟨[98, slash], rfl, by decide⟩

/-- A place starts with at most one of two names. -/
theorem fresh_directory (names : List Bytes) : ∃ (d : Directory) (n : Bytes),
    place d.path = Place.here.enter (.name n) ∧ names.head? ≠ some n := by
  by_cases h : names.head? = some [97]
  · refine ⟨directoryB, [98], rfl, ?_⟩
    rw [h]
    decide
  · exact ⟨directoryA, [97], rfl, h⟩

/-- Whatever the configured directories are, the file that is opened lies below
them exactly when the part behind the directory is inner. -/
theorem files_contained_iff (created : Bool) (t : LocalTime) (r : Request) :
    (∀ opts f, opened opts created t r = some f → Contained opts f) ↔ r.Inner created t := by
  refine ⟨fun h rel hrel => ?_, fun h opts f => contained_of_inner opts created t r f h⟩
  by_contra hn
  obtain ⟨d, n, hd, hhead⟩ := fresh_directory (Place.here.walk (components (cString rel))).names
  have hopen : opened (shared d) created t r = some (cString (d.path ++ rel)) := by
    rw [opened_eq, hrel, directory_shared]
    rfl
  obtain ⟨rel', hrel', hplace⟩ := place_opened _ _ _ _ _ hopen
  obtain rfl : rel = rel' := Option.some.inj (hrel.symm.trans hrel')
  have hnot := Place.not_below_follow n _ hn hhead
  rw [directory_shared, hd] at hplace
  have hc : Contained (shared d) (cString (d.path ++ rel)) := h _ _ hopen
  simp only [Contained, shared, or_self, hd, hplace] at hc
  exact hnot hc

theorem splitOn_pair (d f : Bytes) (hd : slash ∉ d) (hf : slash ∉ f) : (d ++ slash :: f).splitOn slash = [d, f] := by
  rw [List.splitOn_append_cons_self_of_not_mem hd, List.splitOn_eq_singleton hf]

theorem splitOn_request (kind d f : Bytes) (hk : slash ∉ kind) (hd : slash ∉ d) (hf : slash ∉ f) :
    (slash :: kind ++ slash :: d ++ slash :: f).splitOn slash = [[], kind, d, f] := by
  have h0 : slash ∉ ([] : Bytes) := List.not_mem_nil
  have hshape : slash :: kind ++ slash :: d ++ slash :: f = [] ++ slash :: (kind ++ slash :: (d ++ slash :: f)) := by
    simp
  rw [hshape, List.splitOn_append_cons_self_of_not_mem h0, List.splitOn_append_cons_self_of_not_mem hk,
    splitOn_pair d f hd hf]

theorem relative_pair (created : Bool) (t : LocalTime) (kind d f : Bytes)
    (hk : kind = ascii "PassVehicle" ∨ kind = ascii "Voucher") (hd : slash ∉ d) (hf : slash ∉ f) :
    (Request.picture (slash :: kind ++ slash :: d ++ slash :: f)).relative created t = some (d ++ slash :: f) := by
  have hslash : slash ∉ kind := by
    obtain rfl | rfl := hk <;> decide
  rw [Request.relative, splitOn_request kind d f hslash hd hf]
  simp [hk]

theorem component_eq_up (c : Bytes) : component c = .up ↔ c = [46, 46] := by
  by_cases h1 : c = [] ∨ c = [46]
  · obtain rfl | rfl := h1 <;> decide
  · by_cases h2 : c = [46, 46] <;> simp [component, h1, h2]

/-- For a request of two plain segments, the condition is about the segments. -/
theorem picture_inner_iff (created : Bool) (t : LocalTime) (kind d f : Bytes)
    (hk : kind = ascii "PassVehicle" ∨ kind = ascii "Voucher") (hd : slash ∉ d) (hf : slash ∉ f)
    (h0 : 0 ∉ d ++ slash :: f) :
    (Request.picture (slash :: kind ++ slash :: d ++ slash :: f)).Inner created t ↔
      d ≠ [46, 46] ∧ f ≠ [46, 46] ∧ ¬ (component d = .stay ∧ component f = .stay) := by
  have hc : cString (d ++ slash :: f) = d ++ slash :: f := by
    have happ := cString_append _ [] h0
    simpa [cString] using happ
  have hwalk : components (d ++ slash :: f) = [component d, component f] := by
    simp [components, splitOn_pair d f hd hf]
  simp only [Request.Inner, relative_pair created t kind d f hk hd hf, Option.some.injEq, forall_eq', hc, hwalk,
    ne_eq, ← component_eq_up]
  cases component d <;> cases component f <;>
    simp [Place.Inner, Place.walk, Place.enter, Place.leave, Place.here]

/-- The directories are not configured, and a request climbs out of them. -/
theorem parent_directory_opened :
    let here : Directory := ⟨[46, slash], rfl, by decide⟩
    opened (shared here) true ⟨2016, 5, 1, 8, 0, 0⟩ (.picture (ascii "/PassVehicle/../parking.db")) =
      some (ascii "./../parking.db") ∧ ¬ Contained (shared here) (ascii "./../parking.db") := by
  refine ⟨by decide, ?_⟩
  rintro (⟨-, h, -⟩ | ⟨-, h, -⟩)
  · exact absurd h (by decide)
  · exact absurd h (by decide)

end BitPark.PictureFiles
