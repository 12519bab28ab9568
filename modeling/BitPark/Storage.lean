import BitPark.Members
import BitPark.PictureFiles

namespace BitPark.Storage

open BitPark.Effect BitPark.Server BitPark.Decimal BitPark.Multipart BitPark.Members BitPark.PictureFiles

/-! The pictures on the disk and the columns that name them. -/

/-- `cpic1path` and `cpic2path` of `park_detect_info`, `proof_url` of `park_charge_info`. -/
inductive Column where
  | pic1 | pic2 | proof
deriving DecidableEq, Repr

inductive FileOp where
  | write (path : Bytes)
  | remove (path : Bytes)
  | makeDirectory (path : Bytes)
  | removeDirectory (path : Bytes)
deriving DecidableEq, Repr

/-- The tables and connections, the picture columns by the key of their row,
what the clients were told about entries, and what was done to the disk. -/
structure Site where
  world : World := {}
  storeCapacity : ℤ := 0
  urls : Column → String → Bytes := fun _ _ => []
  enterNotices : List (Handle × PassVehicle × Option ℤ) := []
  files : List FileOp := []

structure Space where
  capacity : ℕ
  available : ℕ
deriving DecidableEq, Repr

/-- The answers of the file system. -/
structure Disk where
  space : Bytes → Option Space
  isFile : Bytes → Bool
  removes : Bytes → Bool
  isEmptyDirectory : Bytes → Bool := fun _ => false
  isDirectory : Bytes → Bool := fun _ => true
  createsDirectory : Bytes → Bool := fun _ => true
  opens : Bytes → Bool := fun _ => true

structure ServerOptions extends Options where
  serverIp : Bytes
  httpPort : Bytes

/-- Everything around the server while it works on one message. -/
structure Outside where
  env : Env
  opts : ServerOptions
  disk : Disk
  localTime : ℤ → LocalTime
  /-- `record_time` of a charge. -/
  recordTime : String → ℤ := fun _ => 0
  /-- Whether a pattern of `taxi_list` matches a plate of the colour, or the exception of a bad pattern. -/
  isTaxi : String → ℤ → Except String Bool := fun _ _ => .ok false
  /-- A time of the database, read by `sscanf` and `mktime`. -/
  readTime : String → ℤ := fun _ => -1
  /-- The row that `max_element` ends at; the time it compares is never set. -/
  longestWaiting : List WaitVehicleInfo → Option WaitVehicleInfo := List.head?

abbrev Job (α : Type) : Type := Program Site Exn α

def inWorld {α : Type} (p : Proc α) : Job α := fun s => ((run p s.world).1, { s with world := (run p s.world).2 })

def ask {α : Type} (env : Env) (st : Statement) (f : Site → α) : Job α := do
  inWorld (statement env st)
  let s ← state
  pure (f s)

def amend (env : Env) (st : Statement) (g : Site → Site) : Job Unit := do
  inWorld (statement env st)
  update g

def touch (op : FileOp) : Job Unit := update fun s => { s with files := s.files ++ [op] }

/-- A picture that a column of a row names. -/
structure Slot where
  column : Column
  nid : String
  url : Bytes
deriving DecidableEq, Repr

def Column.table : Column → Table
  | pic1 => .detectInfo
  | pic2 => .detectInfo
  | proof => .chargeInfo

def Column.directory (opts : ServerOptions) : Column → Directory
  | pic1 => opts.picPath
  | pic2 => opts.picPath
  | proof => opts.voucherPicPath

/-- `GetPictureName`: the directory of the day, if the url has one, and the name behind the root. -/
def getPictureName (url : Bytes) : Bytes × Bytes :=
  match (url.splitOn slash).reverse with
  | file :: directory :: _ =>
    if directory = ascii "PassVehicle" ∨ directory = ascii "Voucher" then ([], file)
    else (directory, directory ++ [slash] ++ file)
  | _ => ([], [])

def Slot.path (opts : ServerOptions) (slot : Slot) : Bytes :=
  (slot.column.directory opts).path ++ (getPictureName slot.url).2

/-- `EmptyPassVehiclePicPath` and `EmptyVoucherPicPath` -/
def emptyPicPath (env : Env) (slot : Slot) : Job Unit :=
  amend env ⟨.update, slot.column.table, slot.nid⟩ fun s =>
    { s with urls := fun c n => if c = slot.column ∧ n = slot.nid then [] else s.urls c n }

def removeEmptyDirectory (disk : Disk) (path : Bytes) : Job Unit :=
  if disk.isEmptyDirectory path then touch (.removeDirectory path) else pure ()

def removeParent (out : Outside) (slot : Slot) : Job Unit :=
  let parent := (getPictureName slot.url).1
  if parent = [] then pure ()
  else removeEmptyDirectory out.disk ((slot.column.directory out.opts).path ++ parent)

/-- One picture of `delete_passvehicle_pic` or `delete_voucher_pic`. A file
that cannot be removed keeps its column. -/
def deletePic (out : Outside) (slot : Slot) : Job Unit :=
  if slot.url = [] then pure ()
  else if out.disk.isFile (slot.path out.opts) then
    if out.disk.removes (slot.path out.opts) then do
      touch (.remove (slot.path out.opts))
      emptyPicPath out.env slot
      removeParent out slot
    else pure ()
  else emptyPicPath out.env slot

inductive PictureType where
  | passVehicle | voucher
deriving DecidableEq, Repr

def PictureType.directory (opts : ServerOptions) : PictureType → Directory
  | passVehicle => opts.picPath
  | voucher => opts.voucherPicPath

def PictureType.table : PictureType → Table
  | passVehicle => .detectInfo
  | voucher => .chargeInfo

/-- A row with a picture, by its time. -/
structure PictureRow where
  time : ℤ
  slots : List Slot

def passRow (s : Site) (d : PassVehicle) : PictureRow :=
  ⟨d.passTime, [⟨.pic1, d.passId, s.urls .pic1 d.passId⟩, ⟨.pic2, d.passId, s.urls .pic2 d.passId⟩]⟩

def voucherRow (out : Outside) (s : Site) (nid : String) : PictureRow :=
  ⟨out.recordTime nid, [⟨.proof, nid, s.urls .proof nid⟩]⟩

def PictureRow.hasPicture (row : PictureRow) : Bool := row.slots.any (·.url ≠ [])

/-- The rows with a picture. -/
def pictureRows (out : Outside) (s : Site) : PictureType → List PictureRow
  | .passVehicle => (s.world.detects.map (passRow s)).filter (·.hasPicture)
  | .voucher => (s.world.charges.map fun c => voucherRow out s c.1).filter (·.hasPicture)

/-- Those that may be cleared: the pictures of vehicles inside are kept. -/
def clearable (out : Outside) (s : Site) : PictureType → List PictureRow
  | .passVehicle => ((s.world.detects.filter fun d => d.passId ∉ s.world.innerCars.map (·.nid)).map (passRow s)).filter
      (·.hasPicture)
  | .voucher => pictureRows out s .voucher

def day (env : Env) (t : ℤ) : ℤ := (t + env.utcOffset) / 86400

/-- The rows of the day of the first. -/
def onEarliestDay (env : Env) (rows : List PictureRow) : List PictureRow :=
  match (rows.map (·.time)).min? with
  | none => []
  | some t => rows.filter fun row => day env row.time = day env t

def earliest (counts : ℕ) (rows : List PictureRow) : List PictureRow :=
  (rows.mergeSort fun x y => x.time ≤ y.time).take counts

def earliestSlots (out : Outside) (type : PictureType) (s : Site) : List Slot :=
  (onEarliestDay out.env (clearable out s type)).flatMap (·.slots)

def queryEarliestPicNeedClear (out : Outside) (type : PictureType) : Job (List Slot) :=
  ask out.env ⟨.select, type.table, "earliest"⟩ (earliestSlots out type)

def getPictureCounts (out : Outside) (type : PictureType) : Job ℕ :=
  ask out.env ⟨.select, type.table, "count"⟩ fun s => (pictureRows out s type).length

def countSlots (out : Outside) (type : PictureType) (counts : ℕ) (s : Site) : List Slot :=
  (earliest counts (clearable out s type)).flatMap (·.slots)

def queryPicByCounts (out : Outside) (type : PictureType) (counts : ℕ) : Job (List Slot) :=
  ask out.env ⟨.select, type.table, "limit"⟩ (countSlots out type counts)

/-- `delete_passvehicle_pic` and `delete_voucher_pic` -/
def deletePics (out : Outside) (slots : List Slot) : Job Unit := forEach slots (deletePic out)

def clearEarliestDayPic (out : Outside) (type : PictureType) : Job Unit := do
  let slots ← queryEarliestPicNeedClear out type
  deletePics out slots

/-- A fifth of the pictures. -/
def clearPicByCounts (out : Outside) (type : PictureType) : Job Unit := do
  let counts ← getPictureCounts out type
  let slots ← queryPicByCounts out type (counts / 5)
  deletePics out slots

def clearEarliestDayVehiclePic (out : Outside) : Job Unit := clearEarliestDayPic out .passVehicle
def clearEarliestDayVoucherPic (out : Outside) : Job Unit := clearEarliestDayPic out .voucher
def clearVehiclePicByCounts (out : Outside) : Job Unit := clearPicByCounts out .passVehicle
def clearVoucherPicByCounts (out : Outside) : Job Unit := clearPicByCounts out .voucher

/-- The limit is multiplied out as an `int` before it is compared with the
unsigned number of bytes in use. -/
def overCapacity (space : Space) (limit : ℤ) : Bool :=
  0 < limit ∧ ((limit * 1048576).bmod (2 ^ 32)) % 2 ^ 64 < ((space.capacity : ℤ) - space.available) % 2 ^ 64

def nearlyFull (space : Space) : Bool := space.available < 5242880

def clearEarliestDay (out : Outside) : PictureType → Job Unit
  | .passVehicle => clearEarliestDayVehiclePic out
  | .voucher => clearEarliestDayVoucherPic out

def queryStoreCapacity (env : Env) : Job ℤ := ask env ⟨.select, .sysConfig, "store_capacity"⟩ (·.storeCapacity)

/-- The first half of the housekeeping: the limit of the directory. -/
def keepLimit (out : Outside) (type : PictureType) (space : Space) (capacity : ℤ) : Job Unit :=
  if overCapacity space capacity then clearEarliestDay out type else pure ()

/-- The second half: the end of the disk. -/
def keepFree (out : Outside) (space : Space) : Job Unit :=
  if nearlyFull space then do
    clearVehiclePicByCounts out
    clearVoucherPicByCounts out
  else pure ()

def pictureStorageManage (out : Outside) (type : PictureType) : Job Unit :=
  match out.disk.space (type.directory out.opts).path with
  | none => pure ()
  | some space => do
    let capacity ← queryStoreCapacity out.env
    keepLimit out type space capacity
    keepFree out space

/-- A relation of the tables and connections. -/
def OnWorld (R : World → World → Prop) (s t : Site) : Prop := R s.world t.world

instance (R : World → World → Prop) [IsPreorder World R] : IsPreorder Site (OnWorld R) where
  refl s := refl_of R s.world
  trans _ _ _ h1 h2 := trans_of R h1 h2

theorem steps_inWorld {R : World → World → Prop} {α : Type} {p : Proc α} (h : Steps R p) :
    Steps (OnWorld R) (inWorld p) := fun s => h s.world

section Frame

variable {R : Site → Site → Prop} [IsPreorder Site R]

theorem steps_siteStatement (env : Env) (st : Statement) : Steps R (inWorld (statement env st)) := by
  intro s
  have hw : (run (statement env st) s.world).2 = s.world := by
    cases hf : env.fails st <;> simp only [statement, hf] <;> rfl
  have hs : (run (inWorld (statement env st)) s).2 = s := congrArg (fun w => { s with world := w }) hw
  rw [hs]
  exact refl_of R s

theorem steps_ask {α : Type} (env : Env) (st : Statement) (f : Site → α) : Steps R (ask env st f) :=
  steps_bind (steps_siteStatement env st) fun _ => steps_bind steps_state fun _ => steps_pure _

theorem steps_amend (env : Env) (st : Statement) (g : Site → Site) (h : ∀ s, R s (g s)) : Steps R (amend env st g) :=
  steps_bind (steps_siteStatement env st) fun _ => steps_update g h

variable (hf : ∀ s op, R s { s with files := s.files ++ [op] })
  (hu : ∀ (s : Site) (slot : Slot), R s { s with
    urls := fun c n => if c = slot.column ∧ n = slot.nid then [] else s.urls c n }) (out : Outside)
include hf

omit [IsPreorder Site R] in
theorem steps_touch (op : FileOp) : Steps R (touch op) := steps_update _ fun s => hf s _

theorem steps_removeParent (slot : Slot) : Steps R (removeParent out slot) :=
  steps_ite _ (steps_pure ()) (steps_ite _ (steps_touch hf _) (steps_pure ()))

include hu

theorem steps_deletePic (slot : Slot) : Steps R (deletePic out slot) := by
  have hempty : Steps R (emptyPicPath out.env slot) := steps_amend _ _ _ fun s => hu s _
  exact steps_ite _ (steps_pure ()) <| steps_ite _
    (steps_ite _ (steps_bind (steps_touch hf _) fun _ => steps_bind hempty fun _ => steps_removeParent hf out slot)
      (steps_pure ())) hempty

theorem steps_clearEarliestDayPic (type : PictureType) : Steps R (clearEarliestDayPic out type) :=
  steps_bind (steps_ask _ _ _) fun slots => steps_forEach slots _ fun slot _ => steps_deletePic hf hu out slot

theorem steps_clearPicByCounts (type : PictureType) : Steps R (clearPicByCounts out type) :=
  steps_bind (steps_ask _ _ _) fun _ => steps_bind (steps_ask _ _ _) fun slots =>
    steps_forEach slots _ fun slot _ => steps_deletePic hf hu out slot

theorem steps_pictureStorageManage (type : PictureType) : Steps R (pictureStorageManage out type) := by
  cases hs : out.disk.space (type.directory out.opts).path with
  | none =>
    have he : pictureStorageManage out type = pure () := by simp only [pictureStorageManage, hs]
    rw [he]
    exact steps_pure ()
  | some space =>
    have he : pictureStorageManage out type = (do
        let capacity ← queryStoreCapacity out.env
        keepLimit out type space capacity
        keepFree out space) := by simp only [pictureStorageManage, hs]
    have hday : Steps R (clearEarliestDay out type) := by
      cases type <;> exact steps_clearEarliestDayPic hf hu out _
    rw [he]
    exact steps_bind (steps_ask _ _ _) fun _ => steps_bind (steps_ite _ hday (steps_pure ())) fun _ =>
      steps_ite _ (steps_bind (steps_clearPicByCounts hf hu out _) fun _ => steps_clearPicByCounts hf hu out _)
        (steps_pure ())

end Frame

/-! When the housekeeping goes through, and what it leaves. -/

theorem run_inWorld_statement (env : Env) (st : Statement) (s : Site) :
    run (inWorld (statement env st)) s = match env.fails st with
      | some code => (.error (.system code), s)
      | none => (.ok (), s) := by
  cases hf : env.fails st with
  | some code =>
    have hs : statement env st = raise (.system code) := by simp only [statement, hf]
    rw [hs]
    rfl
  | none =>
    have hs : statement env st = pure () := by simp only [statement, hf]
    rw [hs]
    rfl

theorem run_ask {α : Type} (env : Env) (st : Statement) (f : Site → α) (s : Site) (h : env.fails st = none) :
    run (ask env st f) s = (.ok (f s), s) := by
  have hs : run (inWorld (statement env st)) s = (.ok (), s) := by rw [run_inWorld_statement, h]
  exact run_bind_ok _ _ _ _ _ hs

theorem run_amend (env : Env) (st : Statement) (g : Site → Site) (s : Site) (h : env.fails st = none) :
    run (amend env st g) s = (.ok (), g s) := by
  have hs : run (inWorld (statement env st)) s = (.ok (), s) := by rw [run_inWorld_statement, h]
  exact run_bind_ok _ _ _ _ _ hs

theorem inWorld_statement_returned (env : Env) (st : Statement) (s t : Site) (a : Unit)
    (h : run (inWorld (statement env st)) s = (.ok a, t)) : env.fails st = none ∧ t = s := by
  rw [run_inWorld_statement] at h
  cases hf : env.fails st with
  | none =>
    rw [hf] at h
    cases h
    exact ⟨rfl, rfl⟩
  | some code =>
    rw [hf] at h
    cases h

theorem ask_done {α : Type} (env : Env) (st : Statement) (f : Site → α) (s t : Site) (a : α)
    (h : run (ask env st f) s = (.ok a, t)) : env.fails st = none := by
  obtain ⟨u, v, hs, -⟩ := bind_returned _ _ _ _ _ h
  exact (inWorld_statement_returned env st s v u hs).1

theorem amend_returned (env : Env) (st : Statement) (g : Site → Site) (s t : Site) (a : Unit)
    (h : run (amend env st g) s = (.ok a, t)) : env.fails st = none ∧ t = g s := by
  obtain ⟨u, v, hs, hupdate⟩ := bind_returned _ _ _ _ _ h
  obtain ⟨hdone, rfl⟩ := inWorld_statement_returned env st s v u hs
  exact ⟨hdone, (congrArg Prod.snd hupdate).symm⟩

theorem returns_ask_bind {α β : Type} (env : Env) (st : Statement) (f : Site → α) (q : α → Job β) (s : Site) :
    Returns (ask env st f >>= q) s ↔ env.fails st = none ∧ Returns (q (f s)) s := by
  rw [returns_bind]
  constructor
  · rintro ⟨a, t, ha, hq⟩
    have hf := ask_done env st f s t a ha
    rw [run_ask env st f s hf] at ha
    cases ha
    exact ⟨hf, hq⟩
  · rintro ⟨hf, hq⟩
    exact ⟨f s, s, run_ask env st f s hf, hq⟩

/-- The column of the slot is emptied, unless the update fails. -/
def Slot.clears (out : Outside) (slot : Slot) : Bool :=
  slot.url ≠ [] ∧ (out.disk.isFile (slot.path out.opts) → out.disk.removes (slot.path out.opts))

def Slot.update (slot : Slot) : Statement := ⟨.update, slot.column.table, slot.nid⟩

/-- What is left in the columns. -/
def blanked (out : Outside) (slots : List Slot) (s : Site) : Site :=
  { s with urls := fun c n => if ∃ slot ∈ slots, slot.clears out ∧ slot.column = c ∧ slot.nid = n then []
    else s.urls c n }

/-- Everything but the disk. -/
def tables (s : Site) : World × ℤ × (Column → String → Bytes) := (s.world, s.storeCapacity, s.urls)

theorem run_removeParent (out : Outside) (slot : Slot) (s : Site) :
    ∃ t, run (removeParent out slot) s = (.ok (), t) ∧ tables t = tables s := by
  by_cases hp : (getPictureName slot.url).1 = []
  · exact ⟨s, by simp [removeParent, hp], rfl⟩
  · by_cases he : out.disk.isEmptyDirectory ((slot.column.directory out.opts).path ++ (getPictureName slot.url).1)
    · refine ⟨{ s with files := s.files ++ [.removeDirectory ((slot.column.directory out.opts).path ++
        (getPictureName slot.url).1)] }, ?_, rfl⟩
      simp [removeParent, removeEmptyDirectory, hp, he, touch]
    · exact ⟨s, by simp [removeParent, removeEmptyDirectory, hp, he], rfl⟩

theorem blanked_nil (out : Outside) (s : Site) : blanked out [] s = s := by simp [blanked]

theorem blanked_cons (out : Outside) (slot : Slot) (slots : List Slot) (s : Site) :
    blanked out slots (blanked out [slot] s) = blanked out (slot :: slots) s := by
  simp only [blanked, Site.mk.injEq, true_and, and_true]
  funext c n
  by_cases h1 : ∃ slot ∈ slots, slot.clears out ∧ slot.column = c ∧ slot.nid = n
  · have h2 : ∃ x ∈ slot :: slots, x.clears out ∧ x.column = c ∧ x.nid = n := by
      obtain ⟨x, hx, hc⟩ := h1
      exact ⟨x, List.mem_cons_of_mem slot hx, hc⟩
    rw [if_pos h1, if_pos h2]
  · rw [if_neg h1]
    congr 1
    simp only [List.mem_cons, List.not_mem_nil, or_false, eq_iff_iff]
    constructor
    · rintro ⟨x, hx, hc⟩
      exact ⟨x, .inl hx, hc⟩
    · rintro ⟨x, hx | hx, hc⟩
      · exact ⟨x, hx, hc⟩
      · exact absurd ⟨x, hx, hc⟩ h1

theorem tables_blanked (out : Outside) (slots : List Slot) (s t : Site) (h : tables t = tables s) :
    tables (blanked out slots t) = tables (blanked out slots s) := by
  simp only [tables, blanked, Prod.mk.injEq] at h ⊢
  obtain ⟨hw, hcap, hurls⟩ := h
  exact ⟨hw, hcap, by rw [hurls]⟩

theorem deletePic_kept (out : Outside) (slot : Slot) (h : slot.clears out = false) :
    deletePic out slot = pure () := by
  by_cases hu : slot.url = []
  · simp [deletePic, hu]
  · have hf : out.disk.isFile (slot.path out.opts) = true ∧ out.disk.removes (slot.path out.opts) = false := by
      simpa [Slot.clears, hu] using h
    simp [deletePic, hu, hf.1, hf.2]

theorem run_emptyPicPath (out : Outside) (slot : Slot) (s : Site) (hc : slot.clears out = true)
    (h : out.env.fails slot.update = none) : run (emptyPicPath out.env slot) s = (.ok (), blanked out [slot] s) := by
  have hb : blanked out [slot] s =
      { s with urls := fun c n => if c = slot.column ∧ n = slot.nid then [] else s.urls c n } := by
    simp [blanked, hc, eq_comm (a := slot.column), eq_comm (a := slot.nid)]
  rw [hb]
  exact run_amend out.env slot.update _ s h

/-- The file of a slot that clears is removed first, if there is one. -/
theorem deletePic_clears (out : Outside) (slot : Slot) (hc : slot.clears out = true) :
    deletePic out slot = emptyPicPath out.env slot ∨
      deletePic out slot = (do
        touch (.remove (slot.path out.opts))
        emptyPicPath out.env slot
        removeParent out slot) := by
  obtain ⟨hu, hr⟩ : slot.url ≠ [] ∧ (out.disk.isFile (slot.path out.opts) = true →
      out.disk.removes (slot.path out.opts) = true) := of_decide_eq_true hc
  by_cases hf : out.disk.isFile (slot.path out.opts) = true
  · exact .inr (by simp [deletePic, hu, hf, hr hf])
  · exact .inl (by simp [deletePic, hu, hf])

theorem run_deletePic (out : Outside) (slot : Slot) (s : Site)
    (h : slot.clears out = true → out.env.fails slot.update = none) :
    ∃ t, run (deletePic out slot) s = (.ok (), t) ∧ tables t = tables (blanked out [slot] s) := by
  by_cases hc : slot.clears out = true
  · obtain he | he := deletePic_clears out slot hc
    · rw [he, run_emptyPicPath out slot s hc (h hc)]
      exact ⟨_, rfl, rfl⟩
    · obtain ⟨t, ht, hsame⟩ := run_removeParent out slot
        (blanked out [slot] { s with files := s.files ++ [.remove (slot.path out.opts)] })
      refine ⟨t, ?_, hsame.trans rfl⟩
      rw [he, touch, run_bind_ok _ _ _ _ _ (run_update _ s),
        run_bind_ok _ _ _ _ _ (run_emptyPicPath out slot _ hc (h hc))]
      exact ht
  · rw [deletePic_kept out slot (by simpa using hc)]
    refine ⟨s, rfl, ?_⟩
    simp [blanked, hc]

theorem deletePic_done (out : Outside) (slot : Slot) (s : Site) (h : Returns (deletePic out slot) s)
    (hc : slot.clears out = true) : out.env.fails slot.update = none := by
  have hempty : ∀ s, Returns (emptyPicPath out.env slot) s → out.env.fails slot.update = none := by
    rintro s ⟨a, t, hr⟩
    exact (amend_returned _ _ _ _ _ _ hr).1
  obtain he | he := deletePic_clears out slot hc
  · rw [he] at h
    exact hempty s h
  · rw [he] at h
    obtain ⟨_, t, -, hq⟩ := (returns_bind _ _ _).mp h
    obtain ⟨_, u, hr, -⟩ := (returns_bind _ _ _).mp hq
    exact hempty t ⟨_, u, hr⟩

/-- Every update of the list is carried out. -/
def Updates (out : Outside) (slots : List Slot) : Prop :=
  ∀ slot ∈ slots, slot.clears out = true → out.env.fails slot.update = none

theorem run_deletePics (out : Outside) (slots : List Slot) (s : Site) (h : Updates out slots) :
    ∃ t, run (deletePics out slots) s = (.ok (), t) ∧ tables t = tables (blanked out slots s) := by
  induction slots generalizing s with
  | nil => exact ⟨s, rfl, by rw [blanked_nil]⟩
  | cons slot slots ih =>
    obtain ⟨hslot, hslots⟩ := List.forall_mem_cons.mp h
    obtain ⟨t, ht, hsame⟩ := run_deletePic out slot s hslot
    obtain ⟨u, hu, hrest⟩ := ih t hslots
    refine ⟨u, (run_bind_ok _ _ _ _ _ ht).trans hu, ?_⟩
    rw [hrest, ← blanked_cons]
    exact tables_blanked out slots _ t hsame

theorem deletePics_done (out : Outside) (slots : List Slot) (s : Site) (h : Returns (deletePics out slots) s) :
    Updates out slots := by
  induction slots generalizing s with
  | nil => exact fun _ hx => absurd hx List.not_mem_nil
  | cons slot slots ih =>
    obtain ⟨a, t, hslot, hrest⟩ := (returns_bind _ _ _).mp h
    exact List.forall_mem_cons.mpr ⟨deletePic_done out slot s ⟨a, t, hslot⟩, ih t hrest⟩

/-- The rows that a fifth of the pictures is cleared from. -/
def fifthSlots (out : Outside) (type : PictureType) (s : Site) : List Slot :=
  countSlots out type ((pictureRows out s type).length / 5) s

def DayCleared (out : Outside) (type : PictureType) (s : Site) : Prop :=
  out.env.fails ⟨.select, type.table, "earliest"⟩ = none ∧ Updates out (earliestSlots out type s)

def FifthCleared (out : Outside) (type : PictureType) (s : Site) : Prop :=
  out.env.fails ⟨.select, type.table, "count"⟩ = none ∧ out.env.fails ⟨.select, type.table, "limit"⟩ = none ∧
    Updates out (fifthSlots out type s)

theorem run_clearEarliestDayPic (out : Outside) (type : PictureType) (s : Site) (h : DayCleared out type s) :
    ∃ t, run (clearEarliestDayPic out type) s = (.ok (), t) ∧
      tables t = tables (blanked out (earliestSlots out type s) s) := by
  obtain ⟨t, ht, hsame⟩ := run_deletePics out _ s h.2
  exact ⟨t, (run_bind_ok _ _ _ _ _ (run_ask _ _ _ s h.1)).trans ht, hsame⟩

theorem clearEarliestDayPic_done (out : Outside) (type : PictureType) (s : Site)
    (h : Returns (clearEarliestDayPic out type) s) : DayCleared out type s := by
  obtain ⟨hf, hr⟩ := (returns_ask_bind _ _ _ _ _).mp h
  exact ⟨hf, deletePics_done out _ s hr⟩

theorem run_clearPicByCounts (out : Outside) (type : PictureType) (s : Site) (h : FifthCleared out type s) :
    ∃ t, run (clearPicByCounts out type) s = (.ok (), t) ∧
      tables t = tables (blanked out (fifthSlots out type s) s) := by
  obtain ⟨hc, hl, hu⟩ := h
  obtain ⟨t, ht, hsame⟩ := run_deletePics out _ s hu
  refine ⟨t, ?_, hsame⟩
  exact (run_bind_ok _ _ _ _ _ (run_ask _ _ _ s hc)).trans ((run_bind_ok _ _ _ _ _ (run_ask _ _ _ s hl)).trans ht)

theorem clearPicByCounts_done (out : Outside) (type : PictureType) (s : Site)
    (h : Returns (clearPicByCounts out type) s) : FifthCleared out type s := by
  obtain ⟨hc, hr⟩ := (returns_ask_bind _ _ _ _ _).mp h
  obtain ⟨hl, hd⟩ := (returns_ask_bind _ _ _ _ _).mp hr
  exact ⟨hc, hl, deletePics_done out _ s hd⟩

/-- What is cleared is a matter of the tables. -/
theorem fifthSlots_congr (out : Outside) (type : PictureType) (s t : Site) (h : tables t = tables s) :
    fifthSlots out type t = fifthSlots out type s := by
  simp only [tables, Prod.mk.injEq] at h
  obtain ⟨hw, -, hu⟩ := h
  cases type with
  | passVehicle =>
    have hrow : passRow t = passRow s := by
      funext d
      rw [passRow, passRow, hu]
    simp only [fifthSlots, countSlots, clearable, pictureRows, hrow, hw]
  | voucher => simp only [fifthSlots, countSlots, clearable, pictureRows, voucherRow, hw, hu]

/-- A fifth of either kind of pictures is cleared. -/
def SpaceFreed (out : Outside) (s : Site) : Prop :=
  FifthCleared out .passVehicle s ∧ FifthCleared out .voucher (blanked out (fifthSlots out .passVehicle s) s)

theorem fifthCleared_congr (out : Outside) (type : PictureType) (s t : Site) (h : tables t = tables s) :
    FifthCleared out type t ↔ FifthCleared out type s := by
  rw [FifthCleared, FifthCleared, fifthSlots_congr out type s t h]

theorem spaceFreed_congr (out : Outside) (s t : Site) (h : tables t = tables s) :
    SpaceFreed out t ↔ SpaceFreed out s := by
  rw [SpaceFreed, SpaceFreed, fifthCleared_congr out _ s t h, fifthSlots_congr out _ s t h,
    fifthCleared_congr out _ _ _ (tables_blanked out _ s t h)]

/-- The columns after the pictures of the earliest day went, if the directory holds too much. -/
def afterDay (out : Outside) (type : PictureType) (space : Space) (s : Site) : Site :=
  if overCapacity space s.storeCapacity then blanked out (earliestSlots out type s) s else s

/-- Every statement of the housekeeping is carried out. -/
def Housekeeps (out : Outside) (type : PictureType) (s : Site) : Prop :=
  ∀ space, out.disk.space (type.directory out.opts).path = some space →
    out.env.fails ⟨.select, .sysConfig, "store_capacity"⟩ = none ∧
    (overCapacity space s.storeCapacity = true → DayCleared out type s) ∧
    (nearlyFull space = true → SpaceFreed out (afterDay out type space s))

theorem clearEarliestDay_eq (out : Outside) (type : PictureType) :
    clearEarliestDay out type = clearEarliestDayPic out type := by
  cases type with
  | passVehicle => rfl
  | voucher => rfl

theorem run_keepLimit (out : Outside) (type : PictureType) (space : Space) (s : Site)
    (h : overCapacity space s.storeCapacity = true → DayCleared out type s) :
    ∃ t, run (keepLimit out type space s.storeCapacity) s = (.ok (), t) ∧
      tables t = tables (afterDay out type space s) := by
  by_cases ho : overCapacity space s.storeCapacity = true
  · rw [keepLimit, afterDay, if_pos ho, if_pos ho, clearEarliestDay_eq]
    exact run_clearEarliestDayPic out type s (h ho)
  · rw [keepLimit, afterDay, if_neg ho, if_neg ho]
    exact ⟨s, rfl, rfl⟩

theorem keepLimit_done (out : Outside) (type : PictureType) (space : Space) (s : Site)
    (h : Returns (keepLimit out type space s.storeCapacity) s) (ho : overCapacity space s.storeCapacity = true) :
    DayCleared out type s := by
  rw [keepLimit, if_pos ho, clearEarliestDay_eq] at h
  exact clearEarliestDayPic_done out type s h

theorem run_keepFree (out : Outside) (space : Space) (s : Site) (h : nearlyFull space = true → SpaceFreed out s) :
    ∃ t, run (keepFree out space) s = (.ok (), t) ∧ t.world = s.world := by
  by_cases hn : nearlyFull space = true
  · obtain ⟨h1, h2⟩ := h hn
    obtain ⟨t, ht, hsame⟩ := run_clearPicByCounts out .passVehicle s h1
    obtain ⟨u, hu, hrest⟩ := run_clearPicByCounts out .voucher t ((fifthCleared_congr out _ _ t hsame).mpr h2)
    rw [keepFree, if_pos hn]
    refine ⟨u, (run_bind_ok _ _ _ _ _ ht).trans hu, ?_⟩
    exact (congrArg Prod.fst hrest).trans (congrArg Prod.fst hsame)
  · rw [keepFree, if_neg hn]
    exact ⟨s, rfl, rfl⟩

theorem keepFree_done (out : Outside) (space : Space) (s : Site) (h : Returns (keepFree out space) s)
    (hn : nearlyFull space = true) : SpaceFreed out s := by
  rw [keepFree, if_pos hn] at h
  obtain ⟨a, t, ht, hr⟩ := (returns_bind _ _ _).mp h
  have h1 := clearPicByCounts_done out .passVehicle s ⟨a, t, ht⟩
  obtain ⟨u, hu, hsame⟩ := run_clearPicByCounts out .passVehicle s h1
  obtain rfl : t = u := congrArg Prod.snd (ht.symm.trans hu)
  exact ⟨h1, (fifthCleared_congr out _ _ t hsame).mp (clearPicByCounts_done out .voucher t hr)⟩

theorem afterDay_world (out : Outside) (type : PictureType) (space : Space) (s : Site) :
    (afterDay out type space s).world = s.world := by
  by_cases ho : overCapacity space s.storeCapacity = true <;> simp [afterDay, ho, blanked]

theorem run_pictureStorageManage (out : Outside) (type : PictureType) (s : Site) (h : Housekeeps out type s) :
    ∃ t, run (pictureStorageManage out type) s = (.ok (), t) ∧ t.world = s.world := by
  cases hs : out.disk.space (type.directory out.opts).path with
  | none =>
    have he : pictureStorageManage out type = pure () := by simp only [pictureStorageManage, hs]
    exact ⟨s, by rw [he]; rfl, rfl⟩
  | some space =>
    obtain ⟨hc, hday, hfifth⟩ := h space hs
    obtain ⟨t, ht, hsame⟩ := run_keepLimit out type space s hday
    have hfreed : nearlyFull space = true → SpaceFreed out t :=
      fun hn => (spaceFreed_congr out _ t hsame).mpr (hfifth hn)
    obtain ⟨u, hu, hw⟩ := run_keepFree out space t hfreed
    have hcap : run (queryStoreCapacity out.env) s = (.ok s.storeCapacity, s) := run_ask _ _ _ s hc
    refine ⟨u, ?_, hw.trans ((congrArg Prod.fst hsame).trans (afterDay_world out type space s))⟩
    simp only [pictureStorageManage, hs]
    rw [run_bind_ok _ _ _ _ _ hcap, run_bind_ok _ _ _ _ _ ht]
    exact hu

/-- The housekeeping raises nothing exactly when each of its statements is carried out. -/
theorem returns_pictureStorageManage (out : Outside) (type : PictureType) (s : Site) :
    Returns (pictureStorageManage out type) s ↔ Housekeeps out type s := by
  constructor
  · intro h space hs
    simp only [pictureStorageManage, hs] at h
    obtain ⟨hc, hr⟩ := (returns_ask_bind _ _ _ _ _).mp h
    obtain ⟨a, t, ht, hf⟩ := (returns_bind _ _ _).mp hr
    have hday := keepLimit_done out type space s ⟨a, t, ht⟩
    obtain ⟨u, hu, hsame⟩ := run_keepLimit out type space s hday
    obtain rfl : t = u := congrArg Prod.snd (ht.symm.trans hu)
    exact ⟨hc, hday, fun hn => (spaceFreed_congr out _ t hsame).mp (keepFree_done out space t hf hn)⟩
  · intro h
    obtain ⟨t, ht, -⟩ := run_pictureStorageManage out type s h
    exact ⟨(), t, ht⟩

end BitPark.Storage
