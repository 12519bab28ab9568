import BitPark.DeviceReport

namespace BitPark.Voucher

open BitPark.Effect BitPark.Server BitPark.Decimal BitPark.Multipart BitPark.Members BitPark.PictureFiles
open BitPark.Storage BitPark.DeviceReport

/-! A binary message: the id of a charge, the type of a file, and the picture. -/

def updateVoucherPictureURL (env : Env) (id url : Bytes) : Job Unit :=
  amend env ⟨.update, .chargeInfo, "proof_url"⟩ fun s => { s with
    urls := fun c n => if c = .proof ∧ bytes n = id ∧ n ∈ s.world.charges.map (·.1) then url else s.urls c n }

def saveVoucher (out : Outside) (t : LocalTime) (payload : Bytes) : Job Unit := do
  let name ← raiseError (voucherName payload t)
  let directory ← openDirectory out out.opts.voucherPicPath t
  writeFile out (cString (directory ++ [slash] ++ name))
  -- the picture starts at the byte 37; by the time it is cut out, the file is there
  if payload.length < 37 then raise (.other "basic_string::substr")
  else updateVoucherPictureURL out.env (payload.take 32) (pictureUrl out.opts (ascii "/Voucher/") directory name)

/-- The connection is not looked at. -/
def clientSubmitPicture (out : Outside) (now : ℤ) (payload : Bytes) : Job Unit := swallow do
  pictureStorageManage out .voucher
  saveVoucher out (out.localTime now) payload

/-! Nothing is attempted if nothing depends on how the attempt would end. -/

/-- How the surroundings take what is done to them. -/
structure Reactions where
  write : Statement → Option ErrorCode
  device : String → Command → DeviceOutcome
  removes : Bytes → Bool
  createsDirectory : Bytes → Bool
  opens : Bytes → Bool

def reactingEnv (env : Env) (r : Reactions) : Env :=
  { env with fails := fun st => if st.verb = .select then env.fails st else r.write st, device := r.device }

/-- The same answers to every question, but other reactions. -/
def reacting (out : Outside) (r : Reactions) : Outside :=
  { out with
    env := reactingEnv out.env r
    disk := { out.disk with removes := r.removes, createsDirectory := r.createsDirectory, opens := r.opens } }

/-- Everything that is tried succeeds. -/
def granting : Reactions where
  write _ := none
  device _ _ := .done
  removes _ := true
  createsDirectory _ := true
  opens _ := true

/-- The reactions that the surroundings have anyway. -/
def ownReactions (out : Outside) : Reactions :=
  ⟨out.env.fails, out.env.device, out.disk.removes, out.disk.createsDirectory, out.disk.opens⟩

theorem reacting_own (out : Outside) : reacting out (ownReactions out) = out := by
  simp [reacting, reactingEnv, ownReactions]

/-- Whatever the reactions, the site stays as it is. -/
def Calm (out : Outside) (p : Outside → Job Unit) (s : Site) : Prop := ∀ r, (run (p (reacting out r)) s).2 = s

section Calm

variable {out : Outside} {p q : Outside → Job Unit} {s : Site}

theorem calm_bind_stopped (h : ∀ r, ∃ e, run (p (reacting out r)) s = (.error e, s)) :
    Calm out (fun o => p o >>= fun _ => q o) s := by
  intro r
  obtain ⟨e, he⟩ := h r
  rw [run_bind_error _ _ _ _ _ he]

theorem calm_bind_passed (h : ∀ r, run (p (reacting out r)) s = (.ok (), s)) :
    Calm out (fun o => p o >>= fun _ => q o) s ↔ Calm out q s := by
  apply forall_congr'
  intro r
  rw [run_bind_ok _ _ _ _ _ (h r)]

theorem run_swallow (p : Job Unit) (s : Site) : run (swallow p) s = (.ok (), (run p s).2) := by
  match hr : run p s with
  | (.ok a, t) => rw [swallow, run_handle, hr]
  | (.error e, t) =>
    rw [swallow, run_handle, hr]
    rfl

theorem calm_swallow : Calm out (fun o => swallow (p o)) s ↔ Calm out p s := by
  apply forall_congr'
  intro r
  rw [run_swallow]

end Calm

/-! What was done stays visible. -/

/-- Something was done to the disk, or a column that named a picture is empty. -/
def Marked (s t : Site) : Prop :=
  s.files.length ≤ t.files.length ∧ (s.files.length < t.files.length ∨ ∃ c n, s.urls c n ≠ [] ∧ t.urls c n = [])

theorem marked_ne (s t : Site) (h : Marked s t) : t ≠ s := by
  rintro rfl
  obtain ⟨-, h | ⟨c, n, h1, h2⟩⟩ := h
  · exact lt_irrefl _ h
  · exact h1 h2

/-- Whatever marks are there stay. -/
def Lasting (t u : Site) : Prop := ∀ s, Marked s t → Marked s u

instance : IsPreorder Site Lasting where
  refl _ _ h := h
  trans _ _ _ h1 h2 s h := h2 s (h1 s h)

theorem lasting_files (t : Site) (op : FileOp) : Lasting t { t with files := t.files ++ [op] } := by
  rintro s ⟨hle, -⟩
  have hlt : s.files.length < (t.files ++ [op]).length := by
    rw [List.length_append]
    exact Nat.lt_succ_of_le hle
  exact ⟨hlt.le, .inl hlt⟩

theorem lasting_cleared (t : Site) (slot : Slot) : Lasting t { t with
    urls := fun c n => if c = slot.column ∧ n = slot.nid then [] else t.urls c n } := by
  rintro s ⟨hle, hlt | ⟨c, n, hs, ht⟩⟩
  · exact ⟨hle, .inl hlt⟩
  · exact ⟨hle, .inr ⟨c, n, hs, by simp [ht]⟩⟩

/-- The disk is only added to. -/
def Grows (s t : Site) : Prop := s.files.length ≤ t.files.length

instance : IsPreorder Site Grows where
  refl _ := Nat.le_refl _
  trans _ _ _ h1 h2 := Nat.le_trans h1 h2

theorem grows_files (s : Site) (op : FileOp) : Grows s { s with files := s.files ++ [op] } := by
  simp [Grows]

theorem run_saveVoucher_short (out : Outside) (t : LocalTime) (payload : Bytes) (s : Site)
    (h : payload.length < 32) : ∃ e, run (saveVoucher out t payload) s = (.error e, s) := by
  have hname : voucherName payload t = .error "basic_string::substr" := by simp [voucherName, h]
  rw [saveVoucher, hname]
  exact ⟨_, run_bind_error _ _ _ _ _ rfl⟩

/-- A name for the upload, and the file of the request is opened under it. -/
theorem run_saveVoucher (out : Outside) (t : LocalTime) (payload : Bytes) (s : Site) (h : 32 ≤ payload.length) :
    ∃ ops created file url, opened out.opts.toOptions created t (.voucher payload) = some file ∧
      run (saveVoucher out t payload) s =
        run (if payload.length < 37 then raise (.other "basic_string::substr")
          else updateVoucherPictureURL out.env (payload.take 32) url)
          { s with files := s.files ++ (ops ++ if out.disk.opens file then [.write file] else []) } := by
  obtain ⟨name, hname⟩ : ∃ name, voucherName payload t = .ok name := by
    simp [voucherName, not_lt.mpr h]
  have hraise := run_raiseError_ok _ name s hname
  obtain ⟨created, ops, hdir⟩ := run_openDirectory out out.opts.voucherPicPath t s
  let directory := pictureDirectory out.opts.voucherPicPath created t
  refine ⟨ops, created, cString (directory ++ [slash] ++ name),
    pictureUrl out.opts (ascii "/Voucher/") directory name, ?_, ?_⟩
  · simp [opened, voucherFile, hname, Except.map, Except.toOption, directory]
  · rw [saveVoucher, run_bind_ok _ _ _ _ _ hraise, run_bind_ok _ _ _ _ _ hdir,
      run_bind_ok _ _ _ _ _ (run_writeFile out _ _)]
    simp only [List.append_assoc, directory]

/-- An upload that is long enough to be named leaves a file. -/
theorem saveVoucher_writes (out : Outside) (t : LocalTime) (payload : Bytes) (s : Site) (h : 32 ≤ payload.length)
    (hopens : ∀ path, out.disk.opens path = true) :
    s.files.length < (run (saveVoucher out t payload) s).2.files.length := by
  obtain ⟨ops, created, file, url, -, hrun⟩ := run_saveVoucher out t payload s h
  have hrest : Unchanged Site.files (if payload.length < 37 then raise (.other "basic_string::substr")
      else updateVoucherPictureURL out.env (payload.take 32) url : Job Unit) :=
    steps_ite _ (steps_raise _) (steps_amend _ _ _ fun _ => rfl)
  have hfiles := hrest { s with files := s.files ++ (ops ++ if out.disk.opens file then [.write file] else []) }
  rw [← hrun] at hfiles
  rw [show (run (saveVoucher out t payload) s).2.files = _ from hfiles, if_pos (hopens file)]
  simp only [List.length_append, List.length_singleton]
  omega

theorem lasting_saveVoucher (out : Outside) (t : LocalTime) (payload : Bytes)
    (hopens : ∀ path, out.disk.opens path = true) : Steps Lasting (saveVoucher out t payload) := by
  rintro u s ⟨hle, hmark⟩
  by_cases h : payload.length < 32
  · obtain ⟨e, he⟩ := run_saveVoucher_short out t payload u h
    rw [he]
    exact ⟨hle, hmark⟩
  · have hlt := lt_of_le_of_lt hle (saveVoucher_writes out t payload u (not_lt.mp h) hopens)
    exact ⟨hlt.le, .inl hlt⟩

/-- The picture is kept exactly when the upload is long enough to be named. -/
theorem calm_saveVoucher_iff (out : Outside) (t : LocalTime) (payload : Bytes) (s : Site) :
    Calm out (fun o => saveVoucher o t payload) s ↔ payload.length < 32 := by
  constructor
  · intro hc
    by_contra h
    have hlt := saveVoucher_writes (reacting out granting) t payload s (not_lt.mp h) fun _ => rfl
    rw [hc granting] at hlt
    exact lt_irrefl _ hlt
  · intro h r
    obtain ⟨e, he⟩ := run_saveVoucher_short (reacting out r) t payload s h
    rw [he]

/-! The housekeeping before it. -/

/-- Queries, and the pictures that are cleared if they all succeed. -/
structure Stage where
  queries : List Statement
  slots : List Slot

/-- A job makes the queries of the stage and then clears its pictures. -/
structure Performs (out : Outside) (p : Outside → Job Unit) (s : Site) (stage : Stage) : Prop where
  stopped : ∀ r, (∃ q ∈ stage.queries, out.env.fails q ≠ none) → ∃ e, run (p (reacting out r)) s = (.error e, s)
  reached : ∀ r, (∀ q ∈ stage.queries, out.env.fails q = none) →
    run (p (reacting out r)) s = run (deletePics (reacting out r) stage.slots) s
  current : ∀ slot ∈ stage.slots, slot.url = s.urls slot.column slot.nid

theorem run_deletePics_empty (out : Outside) (slots : List Slot) (s : Site) (h : ∀ slot ∈ slots, slot.url = []) :
    run (deletePics out slots) s = (.ok (), s) := by
  induction slots with
  | nil => rfl
  | cons slot slots ih =>
    obtain ⟨hslot, hslots⟩ := List.forall_mem_cons.mp h
    have hone : run (deletePic out slot) s = (.ok (), s) := by simp [deletePic, hslot]
    exact (run_bind_ok _ _ _ _ _ hone).trans (ih hslots)

/-- Where everything succeeds, a picture that is to be cleared is. -/
theorem marked_deletePics (out : Outside) (slots : List Slot) (s : Site) (slot : Slot) (hmem : slot ∈ slots)
    (hurl : slot.url ≠ []) (hcurrent : slot.url = s.urls slot.column slot.nid) :
    Marked s (run (deletePics (reacting out granting) slots) s).2 := by
  have hclears : slot.clears (reacting out granting) = true := decide_eq_true ⟨hurl, fun _ => rfl⟩
  obtain ⟨t, ht, htables⟩ := run_deletePics (reacting out granting) slots s fun _ _ _ => rfl
  have hgrows : Steps Grows (deletePics (reacting out granting) slots) :=
    steps_forEach _ _ fun slot _ => steps_deletePic grows_files (fun s _ => refl_of Grows s) _ slot
  have hempty : t.urls slot.column slot.nid = [] := by
    rw [show t.urls = _ from congrArg (fun x => x.2.2) htables]
    exact if_pos ⟨slot, hmem, hclears, rfl, rfl⟩
  refine ⟨hgrows s, .inr ⟨slot.column, slot.nid, hcurrent ▸ hurl, ?_⟩⟩
  rw [ht]
  exact hempty

section Stage

variable {out : Outside} {p q : Outside → Job Unit} {s : Site} {stage : Stage}

/-- A stage leaves no trace exactly when a query fails or there is nothing to
clear, and then it depends on what follows. -/
theorem calm_stage (hp : Performs out p s stage) (hq : Steps Lasting (q (reacting out granting))) :
    Calm out (fun o => p o >>= fun _ => q o) s ↔
      (∃ q ∈ stage.queries, out.env.fails q ≠ none) ∨ (∀ slot ∈ stage.slots, slot.url = []) ∧ Calm out q s := by
  by_cases hfails : ∃ q ∈ stage.queries, out.env.fails q ≠ none
  · exact iff_of_true (calm_bind_stopped fun r => hp.stopped r hfails) (.inl hfails)
  · have hreached : ∀ r, run (p (reacting out r)) s = run (deletePics (reacting out r) stage.slots) s :=
      fun r => hp.reached r (by simpa using hfails)
    rw [or_iff_right hfails]
    by_cases hempty : ∀ slot ∈ stage.slots, slot.url = []
    · rw [calm_bind_passed fun r => (hreached r).trans (run_deletePics_empty _ _ s hempty)]
      exact (and_iff_right hempty).symm
    · refine iff_of_false (fun hc => ?_) fun h => hempty h.1
      obtain ⟨slot, hmem, hurl⟩ : ∃ slot ∈ stage.slots, slot.url ≠ [] := by simpa using hempty
      have hmark : Marked s (run (p (reacting out granting)) s).2 := by
        rw [hreached granting]
        exact marked_deletePics out stage.slots s slot hmem hurl (hp.current slot hmem)
      apply marked_ne s _ _ (hc granting)
      rw [run_bind]
      match hr : run (p (reacting out granting)) s with
      | (.ok a, t) =>
        rw [hr] at hmark
        exact hq t s hmark
      | (.error e, t) =>
        rw [hr] at hmark
        exact hmark

end Stage

theorem clearable_current (out : Outside) (s : Site) (type : PictureType) (row : PictureRow)
    (hrow : row ∈ clearable out s type) (slot : Slot) (hslot : slot ∈ row.slots) :
    slot.url = s.urls slot.column slot.nid := by
  cases type with
  | passVehicle =>
    simp only [clearable, List.mem_filter, List.mem_map] at hrow
    obtain ⟨⟨d, -, rfl⟩, -⟩ := hrow
    simp only [passRow, List.mem_cons, List.not_mem_nil, or_false] at hslot
    obtain rfl | rfl := hslot <;> rfl
  | voucher =>
    simp only [clearable, pictureRows, List.mem_filter, List.mem_map] at hrow
    obtain ⟨⟨c, -, rfl⟩, -⟩ := hrow
    obtain rfl := List.mem_singleton.mp hslot
    rfl

theorem mem_onEarliestDay (env : Env) (rows : List PictureRow) (row : PictureRow) (h : row ∈ onEarliestDay env rows) :
    row ∈ rows := by
  cases hm : (rows.map (·.time)).min? with
  | none => simp [onEarliestDay, hm] at h
  | some t =>
    simp only [onEarliestDay, hm, List.mem_filter] at h
    exact h.1

theorem run_ask_fails {α β : Type} (env : Env) (st : Statement) (f : Site → α) (q : α → Job β) (s : Site)
    (h : env.fails st ≠ none) : ∃ e, run (ask env st f >>= q) s = (.error e, s) := by
  obtain ⟨code, hcode⟩ := Option.ne_none_iff_exists'.mp h
  have hs : run (inWorld (statement env st)) s = (.error (.system code), s) := by rw [run_inWorld_statement, hcode]
  exact ⟨_, run_bind_error _ _ _ _ _ (run_bind_error _ _ _ _ _ hs)⟩

def dayStage (out : Outside) (type : PictureType) (s : Site) : Stage :=
  ⟨[⟨.select, type.table, "earliest"⟩], earliestSlots out type s⟩

def fifthStage (out : Outside) (type : PictureType) (s : Site) : Stage :=
  ⟨[⟨.select, type.table, "count"⟩, ⟨.select, type.table, "limit"⟩], fifthSlots out type s⟩

theorem performs_day (out : Outside) (type : PictureType) (s : Site) :
    Performs out (fun o => clearEarliestDayPic o type) s (dayStage out type s) where
  stopped r h := by
    obtain ⟨st, hst, hf⟩ := h
    obtain rfl := List.mem_singleton.mp hst
    exact run_ask_fails _ _ _ _ s hf
  reached r h := run_bind_ok _ _ _ _ _ (run_ask _ _ _ s (h _ (List.mem_singleton_self _)))
  current slot h := by
    obtain ⟨row, hrow, hslot⟩ := List.mem_flatMap.mp h
    exact clearable_current out s type row (mem_onEarliestDay _ _ row hrow) slot hslot

theorem performs_fifth (out : Outside) (type : PictureType) (s : Site) :
    Performs out (fun o => clearPicByCounts o type) s (fifthStage out type s) where
  stopped r h := by
    by_cases hcount : out.env.fails ⟨.select, type.table, "count"⟩ = none
    · have hlimit : out.env.fails ⟨.select, type.table, "limit"⟩ ≠ none := by simpa [fifthStage, hcount] using h
      obtain ⟨e, he⟩ := run_ask_fails (reacting out r).env ⟨.select, type.table, "limit"⟩
        (countSlots (reacting out r) type ((pictureRows (reacting out r) s type).length / 5))
        (deletePics (reacting out r)) s hlimit
      exact ⟨e, (run_bind_ok _ _ _ _ _ (run_ask _ _ _ s hcount)).trans he⟩
    · exact run_ask_fails _ _ _ _ s hcount
  reached r h := by
    obtain ⟨hcount, hlimit⟩ : out.env.fails ⟨.select, type.table, "count"⟩ = none ∧
      out.env.fails ⟨.select, type.table, "limit"⟩ = none := by simpa [fifthStage] using h
    exact (run_bind_ok _ _ _ _ _ (run_ask _ _ _ s hcount)).trans
      (run_bind_ok _ _ _ _ _ (run_ask _ _ _ s hlimit))
  current slot h := by
    obtain ⟨row, hrow, hslot⟩ := List.mem_flatMap.mp h
    exact clearable_current out s type row (List.mem_mergeSort.mp (List.mem_of_mem_take hrow)) slot hslot

/-- A query of the stages fails before there is a picture to clear, or they
leave everything as it is and what comes behind them holds. -/
def passing (env : Env) : List Stage → Prop → Prop
  | [], rest => rest
  | stage :: stages, rest => (∃ q ∈ stage.queries, env.fails q ≠ none) ∨
      (∀ slot ∈ stage.slots, slot.url = []) ∧ passing env stages rest

theorem passing_append (env : Env) (l1 l2 : List Stage) (rest : Prop) :
    passing env (l1 ++ l2) rest ↔ passing env l1 (passing env l2 rest) := by
  induction l1 with
  | nil => rfl
  | cons stage l1 ih => simp only [List.cons_append, passing, ih]

def limitStages (out : Outside) (space : Space) (s : Site) : List Stage :=
  if overCapacity space s.storeCapacity then [dayStage out .voucher s] else []

def freeStages (out : Outside) (space : Space) (s : Site) : List Stage :=
  if nearlyFull space then [fifthStage out .passVehicle s, fifthStage out .voucher s] else []

/-- The housekeeping before an upload. -/
def stages (out : Outside) (s : Site) : List Stage :=
  match out.disk.space out.opts.voucherPicPath.path with
  | none => []
  | some space => ⟨[⟨.select, .sysConfig, "store_capacity"⟩], []⟩ :: limitStages out space s ++ freeStages out space s

/-- An upload without a trace: a query of the housekeeping fails before there is
a picture to clear, or there is none and the upload is too short to be named. -/
def Idle (out : Outside) (payload : Bytes) (s : Site) : Prop :=
  passing out.env (stages out s) (payload.length < 32)

section Housekeeping

variable (out : Outside) (space : Space) (s : Site) {q : Outside → Job Unit}

theorem lasting_keepFree (o : Outside) : Steps Lasting (keepFree o space) :=
  steps_ite _ (steps_bind (steps_clearPicByCounts lasting_files lasting_cleared o _) fun _ =>
    steps_clearPicByCounts lasting_files lasting_cleared o _) (steps_pure ())

variable (hq : Steps Lasting (q (reacting out granting)))
include hq

theorem calm_keepLimit :
    Calm out (fun o => keepLimit o .voucher space s.storeCapacity >>= fun _ => q o) s ↔
      passing out.env (limitStages out space s) (Calm out q s) := by
  by_cases ho : overCapacity space s.storeCapacity = true
  · simp only [keepLimit, limitStages, if_pos ho, clearEarliestDay_eq, passing]
    exact calm_stage (performs_day out .voucher s) hq
  · simp only [keepLimit, limitStages, if_neg ho, passing]
    exact calm_bind_passed fun _ => rfl

theorem calm_keepFree :
    Calm out (fun o => keepFree o space >>= fun _ => q o) s ↔
      passing out.env (freeStages out space s) (Calm out q s) := by
  by_cases hn : nearlyFull space = true
  · have hvoucher : Steps Lasting (clearPicByCounts (reacting out granting) .voucher >>= fun _ =>
        q (reacting out granting)) :=
      steps_bind (steps_clearPicByCounts lasting_files lasting_cleared _ _) fun _ => hq
    simp only [keepFree, freeStages, if_pos hn, passing, bind_bind]
    rw [← calm_stage (performs_fifth out .voucher s) hq]
    exact calm_stage (performs_fifth out .passVehicle s) hvoucher
  · simp only [keepFree, freeStages, if_neg hn, passing]
    exact calm_bind_passed fun _ => rfl

theorem calm_pictureStorageManage :
    Calm out (fun o => pictureStorageManage o .voucher >>= fun _ => q o) s ↔
      passing out.env (stages out s) (Calm out q s) := by
  cases hs : out.disk.space out.opts.voucherPicPath.path with
  | none =>
    have hjob : ∀ r, pictureStorageManage (reacting out r) .voucher = pure () := by
      intro r
      have hr : (reacting out r).disk.space (PictureType.voucher.directory (reacting out r).opts).path = none := hs
      simp only [pictureStorageManage, hr]
    simp only [stages, hs, passing]
    apply calm_bind_passed
    intro r
    rw [hjob r]
    rfl
  | some space =>
    have hjob : ∀ r, pictureStorageManage (reacting out r) .voucher = (do
        let capacity ← queryStoreCapacity (reacting out r).env
        keepLimit (reacting out r) .voucher space capacity
        keepFree (reacting out r) space) := by
      intro r
      have hr : (reacting out r).disk.space (PictureType.voucher.directory (reacting out r).opts).path = some space := hs
      simp only [pictureStorageManage, hr]
    simp only [stages, hs, List.cons_append, passing, List.mem_singleton, exists_eq_left, List.not_mem_nil,
      false_imp_iff, implies_true, true_and]
    by_cases hc : out.env.fails ⟨.select, .sysConfig, "store_capacity"⟩ = none
    · rw [or_iff_right (not_not.mpr hc), passing_append, ← calm_keepFree out space s hq]
      have hrest : Steps Lasting (keepFree (reacting out granting) space >>= fun _ => q (reacting out granting)) :=
        steps_bind (lasting_keepFree space _) fun _ => hq
      rw [← calm_keepLimit out space s hrest]
      apply forall_congr'
      intro r
      have hcap : run (queryStoreCapacity (reacting out r).env) s = (.ok s.storeCapacity, s) := run_ask _ _ _ s hc
      have hrun : run (pictureStorageManage (reacting out r) .voucher >>= fun _ => q (reacting out r)) s =
          run (keepLimit (reacting out r) .voucher space s.storeCapacity >>= fun _ =>
            keepFree (reacting out r) space >>= fun _ => q (reacting out r)) s := by
        rw [hjob r, bind_bind, run_bind_ok _ _ _ _ _ hcap, bind_bind]
      exact iff_of_eq (congrArg (fun x => x.2 = s) hrun)
    · refine iff_of_true (calm_bind_stopped fun r => ?_) (.inl hc)
      rw [hjob r]
      exact run_ask_fails _ _ _ _ s hc

end Housekeeping

/-- Nothing is done for an upload exactly when it is idle. -/
theorem calm_clientSubmitPicture_iff (out : Outside) (now : ℤ) (payload : Bytes) (s : Site) :
    Calm out (fun o => clientSubmitPicture o now payload) s ↔ Idle out payload s := by
  have hlast := lasting_saveVoucher (reacting out granting) (out.localTime now) payload fun _ => rfl
  have hcalm : Calm out (fun o => clientSubmitPicture o now payload) s ↔ Calm out
      (fun o => pictureStorageManage o .voucher >>= fun _ => saveVoucher o (out.localTime now) payload) s :=
    calm_swallow
  rw [hcalm, calm_pictureStorageManage out s hlast, calm_saveVoucher_iff]
  rfl

end BitPark.Voucher
