import BitPark.Storage

namespace BitPark.Orphans

open BitPark.Effect BitPark.Server BitPark.Members BitPark.Decimal BitPark.Multipart
open BitPark.PictureFiles BitPark.Storage

/-! The clean-up against the files that are there, with the outcome of every
call on its own. -/

/-- The files that exist, and the picture columns by the key of their row. -/
structure Store where
  files : Bytes → Bool
  urls : Column → String → Bytes

/-- How the calls for one picture end: whether `exists` reports an error,
whether the file can be removed, and whether the statement is carried out. -/
structure Calls where
  checkFails : Bool
  removes : Bool
  updates : Bool

/-- `exists` with an error code: an error leaves the answer false. -/
def fileExist (path : Bytes) (calls : Calls) (s : Store) : Bool := s.files path && !calls.checkFails

def removed (path : Bytes) (s : Store) : Store := { s with files := Function.update s.files path false }

def emptied (slot : Slot) (s : Store) : Store :=
  { s with urls := fun c n => if c = slot.column ∧ n = slot.nid then [] else s.urls c n }

/-- `EmptyPassVehiclePicPath` and `EmptyVoucherPicPath` -/
def emptyPicPath (slot : Slot) (calls : Calls) : Program Store Exn Unit :=
  if calls.updates then update (emptied slot) else raise (.system .sqlExecuteException)

/-- One picture. The directory that is removed behind its last file is not a file. -/
def deletePic (opts : ServerOptions) (slot : Slot) (calls : Calls) : Program Store Exn Unit :=
  if slot.url = [] then pure ()
  else do
    let s ← state
    if fileExist (slot.path opts) calls s then
      if calls.removes then do
        update (removed (slot.path opts))
        emptyPicPath slot calls
      else pure ()
    else emptyPicPath slot calls

structure PassVehiclePicture where
  nid : String
  pictureUrl1 : Bytes
  pictureUrl2 : Bytes

structure ChargeVoucherPicture where
  nid : String
  pictureUrl : Bytes

def deletePassvehiclePic (opts : ServerOptions) (vehicles : List (PassVehiclePicture × Calls × Calls)) :
    Program Store Exn Unit :=
  forEach vehicles fun v => do
    deletePic opts ⟨.pic1, v.1.nid, v.1.pictureUrl1⟩ v.2.1
    deletePic opts ⟨.pic2, v.1.nid, v.1.pictureUrl2⟩ v.2.2

def deleteVoucherPic (opts : ServerOptions) (vouchers : List (ChargeVoucherPicture × Calls)) :
    Program Store Exn Unit :=
  forEach vouchers fun v => deletePic opts ⟨.proof, v.1.nid, v.1.pictureUrl⟩ v.2

/-- Every picture, with its calls, in the order of the clean-up. -/
def deletePics (opts : ServerOptions) (pics : List (Slot × Calls)) : Program Store Exn Unit :=
  forEach pics fun a => deletePic opts a.1 a.2

def passvehiclePics (vehicles : List (PassVehiclePicture × Calls × Calls)) : List (Slot × Calls) :=
  vehicles.flatMap fun v => [(⟨.pic1, v.1.nid, v.1.pictureUrl1⟩, v.2.1), (⟨.pic2, v.1.nid, v.1.pictureUrl2⟩, v.2.2)]

def voucherPics (vouchers : List (ChargeVoucherPicture × Calls)) : List (Slot × Calls) :=
  vouchers.flatMap fun v => [(⟨.proof, v.1.nid, v.1.pictureUrl⟩, v.2)]

/-- The file that a column of a row names. -/
def named (opts : ServerOptions) (s : Store) (column : Column) (nid : String) : Bytes :=
  Slot.path opts ⟨column, nid, s.urls column nid⟩

/-- From one store to the next, a column is emptied only with its file gone,
and the column of a file that is left is as before. -/
structure NoOrphans (opts : ServerOptions) (s t : Store) : Prop where
  emptied : ∀ column nid, s.urls column nid ≠ [] → t.urls column nid = [] → t.files (named opts s column nid) = false
  kept : ∀ column nid, s.urls column nid ≠ [] → t.files (named opts s column nid) = true →
    t.urls column nid = s.urls column nid

/-- The clean-up gets as far as a picture; a statement that fails ends it. -/
inductive Reached (opts : ServerOptions) : Store → List (Slot × Calls) → Slot × Calls → Prop where
  | here (s : Store) (a : Slot × Calls) (pics : List (Slot × Calls)) : Reached opts s (a :: pics) a
  | later (s u : Store) (a b : Slot × Calls) (pics : List (Slot × Calls))
      (hstep : run (deletePic opts a.1 a.2) s = (.ok (), u)) (hrest : Reached opts u pics b) :
      Reached opts s (a :: pics) b

/-- The file is found, and removed. -/
structure Removes (opts : ServerOptions) (a : Slot × Calls) (path : Bytes) : Prop where
  url : a.1.url ≠ []
  path : a.1.path opts = path
  found : a.2.checkFails = false
  gone : a.2.removes = true

/-- Where the check on a file that exists ends in an error, and the statement
is carried out all the same, the file is removed for another record. -/
def Checked (opts : ServerOptions) (s : Store) (pics : List (Slot × Calls)) : Prop :=
  ∀ a, Reached opts s pics a → a.1.url ≠ [] → a.2.checkFails = true → a.2.updates = true →
    s.files (a.1.path opts) = true → ∃ b, Reached opts s pics b ∧ Removes opts b (a.1.path opts)

/-- The records are those of the table. -/
def Current (s : Store) (pics : List (Slot × Calls)) : Prop := ∀ a ∈ pics, a.1.url = s.urls a.1.column a.1.nid

theorem deletePassvehiclePic_eq (opts : ServerOptions) (vehicles : List (PassVehiclePicture × Calls × Calls)) :
    deletePassvehiclePic opts vehicles = deletePics opts (passvehiclePics vehicles) := by
  rw [deletePics, passvehiclePics, forEach_flatMap, deletePassvehiclePic]
  congr 1
  funext v
  rw [forEach, forEach_singleton]

theorem deleteVoucherPic_eq (opts : ServerOptions) (vouchers : List (ChargeVoucherPicture × Calls)) :
    deleteVoucherPic opts vouchers = deletePics opts (voucherPics vouchers) := by
  rw [deletePics, voucherPics, forEach_flatMap, deleteVoucherPic]
  congr 1
  funext v
  rw [forEach_singleton]

/-! What the step for one picture does. -/

section Step

variable (opts : ServerOptions) (a : Slot × Calls) (s : Store)

theorem run_emptyPicPath : run (emptyPicPath a.1 a.2) s =
    if a.2.updates then (.ok (), emptied a.1 s) else (.error (.system .sqlExecuteException), s) := by
  rw [emptyPicPath]
  split_ifs <;> rfl

/-- Without a url nothing happens. A file that is found is removed before its
column is emptied; a file that is not found has its column emptied. -/
theorem run_deletePic : run (deletePic opts a.1 a.2) s =
    if a.1.url = [] then (.ok (), s)
    else if fileExist (a.1.path opts) a.2 s then
      if a.2.removes then run (emptyPicPath a.1 a.2) (removed (a.1.path opts) s) else (.ok (), s)
    else run (emptyPicPath a.1 a.2) s := by
  rw [deletePic]
  by_cases hurl : a.1.url = []
  · rw [if_pos hurl, if_pos hurl]
    rfl
  · rw [if_neg hurl, if_neg hurl, run_bind_ok _ _ _ _ _ (run_state s)]
    by_cases hfound : fileExist (a.1.path opts) a.2 s = true
    · rw [if_pos hfound, if_pos hfound]
      by_cases hremove : a.2.removes = true
      · rw [if_pos hremove, if_pos hremove]
        rfl
      · rw [if_neg hremove, if_neg hremove]
        rfl
    · rw [if_neg hfound, if_neg hfound]

theorem files_emptyPicPath : (run (emptyPicPath a.1 a.2) s).2.files = s.files := by
  rw [run_emptyPicPath]
  split_ifs <;> rfl

theorem urls_emptyPicPath (column : Column) (nid : String) :
    (run (emptyPicPath a.1 a.2) s).2.urls column nid = s.urls column nid ∨
      a.1.column = column ∧ a.1.nid = nid ∧ a.2.updates = true ∧
        (run (emptyPicPath a.1 a.2) s).2.urls column nid = [] := by
  rw [run_emptyPicPath]
  by_cases hupdate : a.2.updates = true
  · rw [if_pos hupdate]
    by_cases hrow : column = a.1.column ∧ nid = a.1.nid
    · exact .inr ⟨hrow.1.symm, hrow.2.symm, hupdate, if_pos hrow⟩
    · exact .inl (if_neg hrow)
  · rw [if_neg hupdate]
    exact .inl rfl

theorem files_deletePic (path : Bytes) : (run (deletePic opts a.1 a.2) s).2.files path = true ↔
    s.files path = true ∧ ¬ Removes opts a path := by
  rw [run_deletePic]
  by_cases hurl : a.1.url = []
  · rw [if_pos hurl]
    exact (and_iff_left fun h => h.url hurl).symm
  · rw [if_neg hurl]
    by_cases hfound : fileExist (a.1.path opts) a.2 s = true
    · obtain ⟨hfile, hcheck⟩ : s.files (a.1.path opts) = true ∧ a.2.checkFails = false := by
        simpa [fileExist] using hfound
      rw [if_pos hfound]
      by_cases hremove : a.2.removes = true
      · rw [if_pos hremove, files_emptyPicPath, removed]
        dsimp only
        rw [Function.update_apply]
        by_cases hpath : path = a.1.path opts
        · rw [if_pos hpath]
          exact iff_of_false Bool.false_ne_true fun h => h.2 ⟨hurl, hpath.symm, hcheck, hremove⟩
        · rw [if_neg hpath]
          exact (and_iff_left fun h => hpath h.path.symm).symm
      · rw [if_neg hremove]
        exact (and_iff_left fun h => hremove h.gone).symm
    · rw [if_neg hfound, files_emptyPicPath]
      refine (and_iff_left_of_imp fun hfile h => hfound ?_).symm
      rw [fileExist, h.path, hfile, h.found]
      rfl

/-- A column changes only to nothing, where the statement is carried out and
the file is gone or could not be asked for. -/
theorem urls_deletePic (column : Column) (nid : String) :
    (run (deletePic opts a.1 a.2) s).2.urls column nid = s.urls column nid ∨
      a.1.column = column ∧ a.1.nid = nid ∧ a.1.url ≠ [] ∧ a.2.updates = true ∧
        (run (deletePic opts a.1 a.2) s).2.urls column nid = [] ∧
        (a.2.checkFails = true ∨ (run (deletePic opts a.1 a.2) s).2.files (a.1.path opts) = false) := by
  by_cases hurl : a.1.url = []
  · rw [run_deletePic, if_pos hurl]
    exact .inl rfl
  · rw [run_deletePic, if_neg hurl]
    by_cases hfound : fileExist (a.1.path opts) a.2 s = true
    · rw [if_pos hfound]
      by_cases hremove : a.2.removes = true
      · rw [if_pos hremove]
        obtain h | ⟨hcolumn, hnid, hupdate, hempty⟩ :=
          urls_emptyPicPath a (removed (a.1.path opts) s) column nid
        · exact .inl h
        · refine .inr ⟨hcolumn, hnid, hurl, hupdate, hempty, .inr ?_⟩
          rw [files_emptyPicPath]
          exact Function.update_self _ _ _
      · rw [if_neg hremove]
        exact .inl rfl
    · rw [if_neg hfound]
      obtain h | ⟨hcolumn, hnid, hupdate, hempty⟩ := urls_emptyPicPath a s column nid
      · exact .inl h
      · refine .inr ⟨hcolumn, hnid, hurl, hupdate, hempty, ?_⟩
        rw [files_emptyPicPath]
        by_cases hcheck : a.2.checkFails = true
        · exact .inl hcheck
        · refine .inr ?_
          simpa [fileExist, hcheck] using hfound

/-- After a check that fails, the column is emptied. -/
theorem run_deletePic_unchecked (hurl : a.1.url ≠ []) (hcheck : a.2.checkFails = true) (hupdate : a.2.updates = true) :
    run (deletePic opts a.1 a.2) s = (.ok (), emptied a.1 s) := by
  have hfound : ¬ fileExist (a.1.path opts) a.2 s = true := by simp [fileExist, hcheck]
  rw [run_deletePic, if_neg hurl, if_neg hfound, run_emptyPicPath, if_pos hupdate]

theorem urls_deletePic_nil (column : Column) (nid : String) (h : s.urls column nid = []) :
    (run (deletePic opts a.1 a.2) s).2.urls column nid = [] := by
  obtain hsame | ⟨-, -, -, -, hempty, -⟩ := urls_deletePic opts a s column nid
  · rw [hsame, h]
  · exact hempty

end Step

/-- The housekeeping's own step, with a disk that answers as the calls do. -/
theorem deletePic_agrees (out : Outside) (slot : Slot) (calls : Calls) (site : Site) (s : Store)
    (hurls : site.urls = s.urls) (hfile : out.disk.isFile (slot.path out.opts) = fileExist (slot.path out.opts) calls s)
    (hremoves : out.disk.removes (slot.path out.opts) = calls.removes)
    (hdone : out.env.fails slot.update = none) (hupdates : calls.updates = true) :
    (run (Storage.deletePic out slot) site).2.urls = (run (deletePic out.opts slot calls) s).2.urls := by
  obtain ⟨t, ht, htables⟩ := Storage.run_deletePic out slot site fun _ => hdone
  have hstep := run_deletePic out.opts (slot, calls) s
  have hempty : ∀ s, run (emptyPicPath slot calls) s = (.ok (), emptied slot s) := by
    intro s
    rw [run_emptyPicPath (slot, calls) s, if_pos hupdates]
  have hleft : t.urls = (blanked out [slot] site).urls := congrArg (fun x => x.2.2) htables
  rw [ht, hstep]
  dsimp only
  rw [hleft]
  funext c n
  simp only [blanked, List.mem_singleton, exists_eq_left, Slot.clears, hfile, hremoves, hurls, hempty]
  have hrow : (slot.column = c ∧ slot.nid = n) ↔ c = slot.column ∧ n = slot.nid := by
    rw [eq_comm, @eq_comm _ slot.nid]
  by_cases hurl : slot.url = []
  · simp [hurl]
  · by_cases hfound : fileExist (slot.path out.opts) calls s = true
    · by_cases hremove : calls.removes = true
      · simp [hurl, hfound, hremove, emptied, removed, hrow]
      · simp [hurl, hfound, hremove]
    · simp [hurl, hfound, emptied, hrow]

/-! What a run does. -/

theorem reached_mem (opts : ServerOptions) (s : Store) (pics : List (Slot × Calls)) (a : Slot × Calls)
    (h : Reached opts s pics a) : a ∈ pics := by
  induction h with
  | here s a pics => exact List.mem_cons_self
  | later s u a b pics hstep hrest ih => exact List.mem_cons_of_mem a ih

theorem reached_cons (opts : ServerOptions) (s u : Store) (a b : Slot × Calls) (pics : List (Slot × Calls))
    (hstep : run (deletePic opts a.1 a.2) s = (.ok (), u)) :
    Reached opts s (a :: pics) b ↔ b = a ∨ Reached opts u pics b := by
  constructor
  · intro h
    cases h with
    | here => exact .inl rfl
    | later s v a b pics hstep' hrest =>
      rw [hstep] at hstep'
      cases hstep'
      exact .inr hrest
  · rintro (rfl | h)
    · exact .here s _ pics
    · exact .later s u a b pics hstep h

theorem reached_stopped (opts : ServerOptions) (s u : Store) (e : Exn) (a b : Slot × Calls)
    (pics : List (Slot × Calls)) (hstep : run (deletePic opts a.1 a.2) s = (.error e, u)) :
    Reached opts s (a :: pics) b ↔ b = a := by
  constructor
  · intro h
    cases h with
    | here => rfl
    | later s v a b pics hstep' hrest =>
      rw [hstep] at hstep'
      cases hstep'
  · rintro rfl
    exact .here s _ pics

section Run

variable (opts : ServerOptions) (s u : Store) (a : Slot × Calls) (pics : List (Slot × Calls))

theorem run_deletePics_cons (hstep : run (deletePic opts a.1 a.2) s = (.ok (), u)) :
    run (deletePics opts (a :: pics)) s = run (deletePics opts pics) u := run_bind_ok _ _ _ _ _ hstep

theorem run_deletePics_stopped (e : Exn) (hstep : run (deletePic opts a.1 a.2) s = (.error e, u)) :
    run (deletePics opts (a :: pics)) s = (.error e, u) := run_bind_error _ _ _ _ _ hstep

end Run

/-- A file is left exactly if it was there and no picture that was reached removed it. -/
theorem files_deletePics (opts : ServerOptions) (s : Store) (pics : List (Slot × Calls)) (path : Bytes) :
    (run (deletePics opts pics) s).2.files path = true ↔
      s.files path = true ∧ ∀ a, Reached opts s pics a → ¬ Removes opts a path := by
  induction pics generalizing s with
  | nil => exact (and_iff_left fun a h => by cases h).symm
  | cons a pics ih =>
    have hfiles := files_deletePic opts a s path
    match hstep : run (deletePic opts a.1 a.2) s with
    | (.ok (), u) =>
      rw [hstep] at hfiles
      rw [run_deletePics_cons opts s u a pics hstep, ih u, hfiles]
      simp only [reached_cons opts s u a _ pics hstep, or_imp, forall_and, forall_eq, and_assoc]
    | (.error e, u) =>
      rw [hstep] at hfiles
      rw [run_deletePics_stopped opts s u a pics e hstep, hfiles]
      simp only [reached_stopped opts s u e a _ pics hstep, forall_eq]

theorem urls_deletePics (opts : ServerOptions) (s : Store) (pics : List (Slot × Calls)) (column : Column)
    (nid : String) : (run (deletePics opts pics) s).2.urls column nid = s.urls column nid ∨
      ∃ a, Reached opts s pics a ∧ a.1.column = column ∧ a.1.nid = nid ∧ a.1.url ≠ [] ∧ a.2.updates = true ∧
        (a.2.checkFails = true ∨ (run (deletePics opts pics) s).2.files (a.1.path opts) = false) := by
  induction pics generalizing s with
  | nil => exact .inl rfl
  | cons a pics ih =>
    have hurls := urls_deletePic opts a s column nid
    match hstep : run (deletePic opts a.1 a.2) s with
    | (.ok (), u) =>
      rw [hstep] at hurls
      rw [run_deletePics_cons opts s u a pics hstep]
      obtain hrest | ⟨b, hb, hrest⟩ := ih u
      · rw [hrest]
        obtain hsame | ⟨hcolumn, hnid, hurl, hupdate, -, hgone⟩ := hurls
        · exact .inl hsame
        · refine .inr ⟨a, .here s a pics, hcolumn, hnid, hurl, hupdate, hgone.imp_right fun hfile => ?_⟩
          -- what is gone after one picture is gone after the rest
          by_contra hleft
          have hthere := ((files_deletePics opts u pics _).mp (Bool.not_eq_false _ ▸ hleft)).1
          rw [hthere] at hfile
          cases hfile
      · exact .inr ⟨b, .later s u a b pics hstep hb, hrest⟩
    | (.error e, u) =>
      rw [hstep] at hurls
      rw [run_deletePics_stopped opts s u a pics e hstep]
      obtain hsame | ⟨hcolumn, hnid, hurl, hupdate, -, hgone⟩ := hurls
      · exact .inl hsame
      · exact .inr ⟨a, .here s a pics, hcolumn, hnid, hurl, hupdate, hgone⟩

/-- An empty column stays empty. -/
def StaysEmpty (s t : Store) : Prop := ∀ column nid, s.urls column nid = [] → t.urls column nid = []

instance : IsPreorder Store StaysEmpty where
  refl _ _ _ h := h
  trans _ _ _ h1 h2 column nid h := h2 column nid (h1 column nid h)

theorem steps_deletePics (opts : ServerOptions) (pics : List (Slot × Calls)) :
    Steps StaysEmpty (deletePics opts pics) :=
  steps_forEach pics _ fun a _ s column nid h => urls_deletePic_nil opts a s column nid h

/-- A picture whose check failed has no url any more. -/
theorem urls_unchecked (opts : ServerOptions) (s : Store) (pics : List (Slot × Calls)) (a : Slot × Calls)
    (h : Reached opts s pics a) (hurl : a.1.url ≠ []) (hcheck : a.2.checkFails = true) (hupdate : a.2.updates = true) :
    (run (deletePics opts pics) s).2.urls a.1.column a.1.nid = [] := by
  induction h with
  | here s a pics =>
    rw [run_deletePics_cons opts s _ a pics (run_deletePic_unchecked opts a s hurl hcheck hupdate)]
    exact steps_deletePics opts pics _ _ _ (if_pos ⟨rfl, rfl⟩)
  | later s u a b pics hstep hrest ih =>
    rw [run_deletePics_cons opts s u a pics hstep]
    exact ih hurl hcheck hupdate

theorem noOrphans_iff (opts : ServerOptions) (s : Store) (pics : List (Slot × Calls)) (hc : Current s pics) :
    NoOrphans opts s (run (deletePics opts pics) s).2 ↔ Checked opts s pics := by
  have hnamed : ∀ a, Reached opts s pics a → named opts s a.1.column a.1.nid = a.1.path opts := by
    intro a ha
    rw [named, ← hc a (reached_mem opts s pics a ha)]
  constructor
  · intro h a ha hurl hcheck hupdate hfile
    by_contra hnone
    have hleft := (files_deletePics opts s pics (a.1.path opts)).mpr
      ⟨hfile, fun b hb hremoves => hnone ⟨b, hb, hremoves⟩⟩
    have hgone := h.emptied a.1.column a.1.nid (by rw [← hc a (reached_mem opts s pics a ha)]; exact hurl)
      (urls_unchecked opts s pics a ha hurl hcheck hupdate)
    rw [hnamed a ha, hleft] at hgone
    cases hgone
  · intro h
    -- a column that is not as before has lost its file
    have hchanged : ∀ column nid, (run (deletePics opts pics) s).2.urls column nid ≠ s.urls column nid →
        (run (deletePics opts pics) s).2.files (named opts s column nid) = false := by
      intro column nid hne
      obtain hsame | ⟨a, ha, rfl, rfl, hurl, hupdate, hgone⟩ := urls_deletePics opts s pics column nid
      · exact absurd hsame hne
      · rw [hnamed a ha]
        by_contra hleft
        obtain ⟨hfile, hkeep⟩ := (files_deletePics opts s pics _).mp (Bool.not_eq_false _ ▸ hleft)
        obtain hcheck | hgone := hgone
        · obtain ⟨b, hb, hremoves⟩ := h a ha hurl hcheck hupdate hfile
          exact hkeep b hb hremoves
        · exact hleft hgone
    constructor
    · intro column nid hurl hempty
      exact hchanged column nid fun hsame => hurl (hsame.symm.trans hempty)
    · intro column nid _ hfile
      by_contra hne
      rw [hchanged column nid hne] at hfile
      cases hfile

/-- What is left with its url can be removed by the next run. -/
theorem retried (opts : ServerOptions) (s t : Store) (column : Column) (nid : String) (h : NoOrphans opts s t)
    (hurl : s.urls column nid ≠ []) (hleft : t.files (named opts s column nid) = true) :
    (run (deletePic opts ⟨column, nid, t.urls column nid⟩ ⟨false, true, true⟩) t).2.files
      (named opts s column nid) = false := by
  have hkept := h.kept column nid hurl hleft
  have hfiles := files_deletePic opts (⟨column, nid, t.urls column nid⟩, ⟨false, true, true⟩) t (named opts s column nid)
  by_contra hstill
  refine (hfiles.mp (Bool.not_eq_false _ ▸ hstill)).2 ⟨?_, ?_, rfl, rfl⟩
  · rw [hkept]
    exact hurl
  · rw [hkept]
    rfl

/-- The clean-up leaves no orphans exactly when no check that ends in an error
hides a file that is there and stays. -/
theorem cleanup_leaves_no_orphans_iff (opts : ServerOptions) (s : Store) :
    (∀ vehicles, Current s (passvehiclePics vehicles) →
      (NoOrphans opts s (run (deletePassvehiclePic opts vehicles) s).2 ↔ Checked opts s (passvehiclePics vehicles))) ∧
    (∀ vouchers, Current s (voucherPics vouchers) →
      (NoOrphans opts s (run (deleteVoucherPic opts vouchers) s).2 ↔ Checked opts s (voucherPics vouchers))) := by
  constructor
  · intro vehicles hc
    rw [deletePassvehiclePic_eq]
    exact noOrphans_iff opts s _ hc
  · intro vouchers hc
    rw [deleteVoucherPic_eq]
    exact noOrphans_iff opts s _ hc

def hereOptions : ServerOptions :=
  { picPath := ⟨[46, slash], rfl, by decide⟩, voucherPicPath := ⟨[46, slash], rfl, by decide⟩,
    serverIp := [], httpPort := [] }

def passUrl : Bytes := ascii "http://h:80/PassVehicle/2016-05-01/a.jpg"
def voucherUrl : Bytes := ascii "http://h:80/Voucher/2016-05-01/a.jpg"

/-- One file, named by the picture of a passage and the picture of a charge. -/
def sharedStore : Store where
  files path := path = ascii "./2016-05-01/a.jpg"
  urls column nid := if nid = "1" then
      match column with
      | .pic1 => passUrl
      | .pic2 => []
      | .proof => voucherUrl
    else []

def unreadable : Calls := ⟨true, true, true⟩

/-- The check ends in an error, and the url is taken from a file that is still there. -/
theorem unreadable_file_orphaned :
    ¬ NoOrphans hereOptions sharedStore (run (deletePassvehiclePic hereOptions
      [(⟨"1", passUrl, []⟩, unreadable, unreadable)]) sharedStore).2 ∧
    ¬ NoOrphans hereOptions sharedStore (run (deleteVoucherPic hereOptions
      [(⟨"1", voucherUrl⟩, unreadable)]) sharedStore).2 := by
  constructor
  · intro h
    exact absurd (h.emptied .pic1 "1" (by decide) (by decide)) (by decide)
  · intro h
    exact absurd (h.emptied .proof "1" (by decide) (by decide)) (by decide)

end BitPark.Orphans
