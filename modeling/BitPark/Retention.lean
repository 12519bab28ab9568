import BitPark.Stepwise
import BitPark.Storage
import BitPark.TurnBack

namespace BitPark.Retention

open BitPark.Effect BitPark.Stepwise BitPark.Server BitPark.Decimal BitPark.Storage

/-! `clear_pic`: every night the pictures that have become too old are removed. -/

/-- `SUBDATE(NOW(), INTERVAL expiry DAY)` -/
def expiryLimit (now expiry : ℤ) : ℤ := now - expiry * 86400

def expiredRows (out : Outside) (type : PictureType) (now expiry : ℤ) (s : Site) : List PictureRow :=
  (clearable out s type).filter fun row => row.time < expiryLimit now expiry

def expiredSlots (out : Outside) (type : PictureType) (now expiry : ℤ) (s : Site) : List Slot :=
  (expiredRows out type now expiry s).flatMap (·.slots)

/-- `QueryPassVehiclePicNeedClear` and `QueryVoucherPicNeedClear` -/
def queryPicNeedClear (out : Outside) (type : PictureType) (now expiry : ℤ) : Job (List Slot) :=
  ask out.env ⟨.select, type.table, "expiry"⟩ (expiredSlots out type now expiry)

def clearExpiredPic (out : Outside) (type : PictureType) (now expiry : ℤ) : Job Unit := do
  let slots ← queryPicNeedClear out type now expiry
  deletePics out slots

def clearExpiredVehiclePic (out : Outside) (now expiry : ℤ) : Job Unit := clearExpiredPic out .passVehicle now expiry
def clearExpiredVoucherPic (out : Outside) (now expiry : ℤ) : Job Unit := clearExpiredPic out .voucher now expiry

/-- The row `picture_expiry` of `sys_config`, which no statement of the server writes. -/
def queryPictureExpiry (env : Env) (pictureExpiry : ℤ) : Job ℤ :=
  ask env ⟨.select, .sysConfig, "picture_expiry"⟩ fun _ => pictureExpiry

def clearPic (out : Outside) (now pictureExpiry : ℤ) : Job Unit := do
  let expiry ← queryPictureExpiry out.env pictureExpiry
  if 0 < expiry then
    clearExpiredVehiclePic out now expiry
    clearExpiredVoucherPic out now expiry
  else pure ()

/-! What no clean-up touches. -/

/-- The tables stay, and with them the picture columns of some passages. -/
def KeepsPictures (kept : List String) (s t : Site) : Prop :=
  t.world = s.world ∧ ∀ nid ∈ kept, t.urls .pic1 nid = s.urls .pic1 nid ∧ t.urls .pic2 nid = s.urls .pic2 nid

instance (kept : List String) : IsPreorder Site (KeepsPictures kept) where
  refl _ := ⟨rfl, fun _ _ => ⟨rfl, rfl⟩⟩
  trans _ _ _ h1 h2 := ⟨h2.1.trans h1.1, fun nid hn =>
    ⟨(h2.2 nid hn).1.trans (h1.2 nid hn).1, (h2.2 nid hn).2.trans (h1.2 nid hn).2⟩⟩

/-- A slot that is not one of the kept passages. -/
def Slot.Spares (slot : Slot) (kept : List String) : Prop := slot.column = .proof ∨ slot.nid ∉ kept

section Spared

variable (kept : List String) (out : Outside)

theorem keepsPictures_files (s : Site) (ops : List FileOp) : KeepsPictures kept s { s with files := ops } :=
  ⟨rfl, fun _ _ => ⟨rfl, rfl⟩⟩

theorem keepsPictures_emptied (slot : Slot) (h : Slot.Spares slot kept) (s : Site) : KeepsPictures kept s
    { s with urls := fun c n => if c = slot.column ∧ n = slot.nid then [] else s.urls c n } := by
  refine ⟨rfl, fun nid hn => ?_⟩
  have hne : ∀ c, c ≠ .proof → ¬ (c = slot.column ∧ nid = slot.nid) := by
    rintro c hc ⟨rfl, rfl⟩
    exact h.elim hc fun hk => hk hn
  exact ⟨if_neg (hne .pic1 (by decide)), if_neg (hne .pic2 (by decide))⟩

theorem steps_deletePics (slots : List Slot) (h : ∀ slot ∈ slots, Slot.Spares slot kept) :
    Steps (KeepsPictures kept) (deletePics out slots) := by
  have htouch : ∀ op, Steps (KeepsPictures kept) (touch op) := fun op => steps_update _ fun s =>
    keepsPictures_files kept s _
  refine steps_forEach slots _ fun slot hslot => ?_
  have hempty : Steps (KeepsPictures kept) (emptyPicPath out.env slot) :=
    steps_amend _ _ _ fun s => keepsPictures_emptied kept slot (h slot hslot) s
  have hparent : Steps (KeepsPictures kept) (removeParent out slot) :=
    steps_ite _ (steps_pure ()) (steps_ite _ (htouch _) (steps_pure ()))
  exact steps_ite _ (steps_pure ()) <| steps_ite _
    (steps_ite _ (steps_bind (htouch _) fun _ => steps_bind hempty fun _ => hparent) (steps_pure ())) hempty

/-- The vehicles inside. -/
def inside (w : World) : List String := w.innerCars.map (·.nid)

theorem clearable_spares (type : PictureType) (s : Site) (row : PictureRow) (hr : row ∈ clearable out s type)
    (slot : Slot) (hs : slot ∈ row.slots) : Slot.Spares slot (inside s.world) := by
  cases type with
  | passVehicle =>
    obtain ⟨d, hd, rfl⟩ := List.mem_map.mp (List.mem_of_mem_filter hr)
    have hin : d.passId ∉ inside s.world := of_decide_eq_true (List.mem_filter.mp hd).2
    simp only [passRow, List.mem_cons, List.not_mem_nil, or_false] at hs
    rcases hs with rfl | rfl <;> exact .inr hin
  | voucher =>
    obtain ⟨c, -, rfl⟩ := List.mem_map.mp (List.mem_of_mem_filter hr)
    simp only [voucherRow, List.mem_cons, List.not_mem_nil, or_false] at hs
    exact .inl (by rw [hs])

/-- A clean-up that picks its rows among those that may be cleared spares the vehicles inside. -/
theorem keepsPictures_clear (type : PictureType) (st : Statement) (pick : Site → List PictureRow)
    (hpick : ∀ s, ∀ row ∈ pick s, row ∈ clearable out s type) (s : Site) (hk : kept ⊆ inside s.world) :
    KeepsPictures kept s (run (do
      let slots ← ask out.env st fun s => (pick s).flatMap (·.slots)
      deletePics out slots) s).2 := by
  refine bind_related _ _ s (steps_ask out.env st _ s) fun slots t ht => ?_
  obtain ⟨_, u, hst, hr⟩ := bind_returned _ _ _ _ _ ht
  have hu : SameAt id s u := steps_returned (steps_siteStatement out.env st) s u _ hst
  obtain rfl : u = s := hu
  cases hr
  refine steps_deletePics kept out _ (fun slot hslot => ?_) t
  obtain ⟨row, hrow, hs⟩ := List.mem_flatMap.mp hslot
  exact (clearable_spares out type t row (hpick t row hrow) slot hs).imp_right fun hn hin => hn (hk hin)

theorem earliest_subset (counts : ℕ) (rows : List PictureRow) (row : PictureRow) (h : row ∈ earliest counts rows) :
    row ∈ rows :=
  List.mem_mergeSort.mp (List.mem_of_mem_take h)

theorem onEarliestDay_subset (env : Env) (rows : List PictureRow) (row : PictureRow) (h : row ∈ onEarliestDay env rows) :
    row ∈ rows := by
  unfold onEarliestDay at h
  cases hm : (rows.map (·.time)).min? with
  | none =>
    rw [hm] at h
    cases h
  | some t =>
    rw [hm] at h
    exact List.mem_of_mem_filter h

theorem keepsPictures_clearExpired (type : PictureType) (now expiry : ℤ) (s : Site) (hk : kept ⊆ inside s.world) :
    KeepsPictures kept s (run (clearExpiredPic out type now expiry) s).2 :=
  keepsPictures_clear kept out type _ (expiredRows out type now expiry)
    (fun _ _ hrow => List.mem_of_mem_filter hrow) s hk

/-- Two clean-ups one after the other. -/
theorem keepsPictures_then (p q : Job Unit)
    (hp : ∀ s, kept ⊆ inside s.world → KeepsPictures kept s (run p s).2)
    (hq : ∀ s, kept ⊆ inside s.world → KeepsPictures kept s (run q s).2) (s : Site) (hk : kept ⊆ inside s.world) :
    KeepsPictures kept s (run (p >>= fun _ => q) s).2 := by
  refine bind_related _ _ s (hp s hk) fun _ t ht => hq t ?_
  have hw : t.world = s.world := by
    have h1 := (hp s hk).1
    rwa [ht] at h1
  rw [hw]
  exact hk

theorem keepsPictures_clearPic (now pictureExpiry : ℤ) (s : Site) (hk : kept ⊆ inside s.world) :
    KeepsPictures kept s (run (clearPic out now pictureExpiry) s).2 := by
  refine bind_related _ _ s (steps_ask _ _ _ s) fun expiry t ht => ?_
  have hs : SameAt Site.world s t := steps_returned (steps_ask _ _ _) s t _ ht
  have hkt : kept ⊆ inside t.world := by rw [hs]; exact hk
  split_ifs
  · exact keepsPictures_then kept _ _ (fun s => keepsPictures_clearExpired kept out .passVehicle now expiry s)
      (fun s => keepsPictures_clearExpired kept out .voucher now expiry s) t hkt
  · exact refl_of (KeepsPictures kept) t

theorem keepsPictures_clearEarliestDay (type : PictureType) (s : Site) (hk : kept ⊆ inside s.world) :
    KeepsPictures kept s (run (clearEarliestDayPic out type) s).2 :=
  keepsPictures_clear kept out type _ (fun s => onEarliestDay out.env (clearable out s type))
    (fun _ row hrow => onEarliestDay_subset out.env _ row hrow) s hk

theorem keepsPictures_clearByCounts (type : PictureType) (s : Site) (hk : kept ⊆ inside s.world) :
    KeepsPictures kept s (run (clearPicByCounts out type) s).2 := by
  refine bind_related _ _ s (steps_ask _ _ _ s) fun counts t ht => ?_
  have hs : SameAt Site.world s t := steps_returned (steps_ask _ _ _) s t _ ht
  exact keepsPictures_clear kept out type _ (fun s => earliest (counts / 5) (clearable out s type))
    (fun _ row hrow => earliest_subset _ _ row hrow) t (by rw [hs]; exact hk)

theorem keepsPictures_pictureStorageManage (type : PictureType) (s : Site) (hk : kept ⊆ inside s.world) :
    KeepsPictures kept s (run (pictureStorageManage out type) s).2 := by
  cases hs : out.disk.space (type.directory out.opts).path with
  | none =>
    simp only [pictureStorageManage, hs]
    exact refl_of (KeepsPictures kept) s
  | some space =>
    simp only [pictureStorageManage, hs]
    refine bind_related _ _ s (steps_ask _ _ _ s) fun capacity t ht => ?_
    have hst : SameAt Site.world s t := steps_returned (steps_ask _ _ _) s t _ ht
    refine keepsPictures_then kept _ _ (fun s hk => ?_) (fun s hk => ?_) t (by rw [hst]; exact hk)
    · rw [keepLimit, clearEarliestDay_eq]
      split_ifs
      · exact keepsPictures_clearEarliestDay kept out type s hk
      · exact refl_of (KeepsPictures kept) s
    · rw [keepFree]
      split_ifs
      · exact keepsPictures_then kept _ _ (keepsPictures_clearByCounts kept out .passVehicle)
          (keepsPictures_clearByCounts kept out .voucher) s hk
      · exact refl_of (KeepsPictures kept) s

end Spared

/-! What the clean-up of a night removes. -/

/-- The row of the column is older than the limit, and its vehicle is not inside. -/
def Expired (out : Outside) (limit : ℤ) (s : Site) : Column → String → Prop
  | .proof, nid => nid ∈ s.world.charges.map (·.1) ∧ out.recordTime nid < limit
  | _, nid => nid ∉ inside s.world ∧ ∃ d ∈ s.world.detects, d.passId = nid ∧ d.passTime < limit

def slotOf (s : Site) (c : Column) (nid : String) : Slot := ⟨c, nid, s.urls c nid⟩

/-- A column that can be emptied belongs to a row with a picture. -/
theorem hasPicture_of_clears (out : Outside) (row : PictureRow) (slot : Slot) (hs : slot ∈ row.slots)
    (hc : slot.clears out = true) : row.hasPicture = true := by
  have hu : slot.url ≠ [] := (of_decide_eq_true hc).1
  exact List.any_eq_true.mpr ⟨slot, hs, by simpa using hu⟩

theorem expired_vehicle (out : Outside) (now expiry : ℤ) (s : Site) (c : Column) (nid : String) :
    (∃ slot ∈ expiredSlots out .passVehicle now expiry s, slot.clears out ∧ slot.column = c ∧ slot.nid = nid) ↔
      c ≠ .proof ∧ Expired out (expiryLimit now expiry) s c nid ∧ (slotOf s c nid).clears out = true := by
  constructor
  · rintro ⟨slot, hslot, hclears, rfl, rfl⟩
    obtain ⟨row, hrow, hs⟩ := List.mem_flatMap.mp hslot
    obtain ⟨hrow, htime⟩ := List.mem_filter.mp hrow
    obtain ⟨d, hd, rfl⟩ := List.mem_map.mp (List.mem_of_mem_filter hrow)
    obtain ⟨hd, hin⟩ := List.mem_filter.mp hd
    have hexpired : d.passId ∉ inside s.world ∧ ∃ x ∈ s.world.detects, x.passId = d.passId ∧
        x.passTime < expiryLimit now expiry :=
      ⟨of_decide_eq_true hin, d, hd, rfl, of_decide_eq_true htime⟩
    simp only [passRow, List.mem_cons, List.not_mem_nil, or_false] at hs
    rcases hs with rfl | rfl
    · exact ⟨Column.noConfusion, hexpired, hclears⟩
    · exact ⟨Column.noConfusion, hexpired, hclears⟩
  · rintro ⟨hc, hexpired, hclears⟩
    obtain ⟨hin, d, hd, rfl, htime⟩ : nid ∉ inside s.world ∧ ∃ d ∈ s.world.detects, d.passId = nid ∧
        d.passTime < expiryLimit now expiry := by
      cases c with
      | proof => exact absurd rfl hc
      | pic1 => exact hexpired
      | pic2 => exact hexpired
    have hslot : slotOf s c d.passId ∈ (passRow s d).slots := by
      cases c with
      | proof => exact absurd rfl hc
      | pic1 => exact List.mem_cons_self
      | pic2 => exact List.mem_cons_of_mem _ List.mem_cons_self
    have hpicture := hasPicture_of_clears out _ _ hslot hclears
    refine ⟨slotOf s c d.passId, List.mem_flatMap.mpr ⟨passRow s d, ?_, hslot⟩, hclears, rfl, rfl⟩
    refine List.mem_filter.mpr ⟨List.mem_filter.mpr ⟨List.mem_map.mpr ⟨d, ?_, rfl⟩, hpicture⟩, decide_eq_true htime⟩
    exact List.mem_filter.mpr ⟨hd, decide_eq_true hin⟩

theorem expired_voucher (out : Outside) (now expiry : ℤ) (s : Site) (c : Column) (nid : String) :
    (∃ slot ∈ expiredSlots out .voucher now expiry s, slot.clears out ∧ slot.column = c ∧ slot.nid = nid) ↔
      c = .proof ∧ Expired out (expiryLimit now expiry) s c nid ∧ (slotOf s c nid).clears out = true := by
  constructor
  · rintro ⟨slot, hslot, hclears, rfl, rfl⟩
    obtain ⟨row, hrow, hs⟩ := List.mem_flatMap.mp hslot
    obtain ⟨hrow, htime⟩ := List.mem_filter.mp hrow
    obtain ⟨charge, hcharge, rfl⟩ := List.mem_map.mp (List.mem_of_mem_filter hrow)
    obtain rfl := List.mem_singleton.mp hs
    exact ⟨rfl, ⟨List.mem_map.mpr ⟨charge, hcharge, rfl⟩, of_decide_eq_true htime⟩, hclears⟩
  · rintro ⟨rfl, ⟨hmem, htime⟩, hclears⟩
    obtain ⟨charge, hcharge, rfl⟩ := List.mem_map.mp hmem
    have hslot : slotOf s .proof charge.1 ∈ (voucherRow out s charge.1).slots := List.mem_cons_self
    have hpicture := hasPicture_of_clears out _ _ hslot hclears
    refine ⟨slotOf s .proof charge.1, List.mem_flatMap.mpr ⟨voucherRow out s charge.1, ?_, hslot⟩, hclears, rfl, rfl⟩
    exact List.mem_filter.mpr ⟨List.mem_filter.mpr ⟨List.mem_map.mpr ⟨charge, hcharge, rfl⟩, hpicture⟩,
      decide_eq_true htime⟩

theorem run_clearExpiredPic (out : Outside) (henv : ∀ st, out.env.fails st = none) (type : PictureType)
    (now expiry : ℤ) (s : Site) : ∃ t, run (clearExpiredPic out type now expiry) s = (.ok (), t) ∧
      tables t = tables (blanked out (expiredSlots out type now expiry s) s) := by
  obtain ⟨t, ht, hsame⟩ := run_deletePics out (expiredSlots out type now expiry s) s fun _ _ _ => henv _
  exact ⟨t, (run_bind_ok _ _ _ _ _ (run_ask _ _ _ s (henv _))).trans ht, hsame⟩

theorem urls_of_tables (out : Outside) (slots : List Slot) (s t : Site) (h : tables t = tables (blanked out slots s))
    (c : Column) (nid : String) (emptied : Prop)
    (hiff : (∃ slot ∈ slots, slot.clears out ∧ slot.column = c ∧ slot.nid = nid) ↔ emptied) :
    (emptied → t.urls c nid = []) ∧ (¬ emptied → t.urls c nid = s.urls c nid) := by
  have hurl : t.urls c nid = if ∃ slot ∈ slots, slot.clears out ∧ slot.column = c ∧ slot.nid = nid then []
      else s.urls c nid := congrFun (congrFun (congrArg (fun x => x.2.2) h) c) nid
  rw [← hiff, hurl]
  exact ⟨fun he => if_pos he, fun he => if_neg he⟩

/-- The column is emptied by the clean-up of a night. -/
def Removed (out : Outside) (now expiry : ℤ) (s : Site) (c : Column) (nid : String) : Prop :=
  Expired out (expiryLimit now expiry) s c nid ∧ (slotOf s c nid).clears out = true

/-- With the database reachable, a night with a positive expiry empties exactly
the columns of the expired rows whose file can go. -/
theorem clearPic_clears (out : Outside) (henv : ∀ st, out.env.fails st = none) (now pictureExpiry : ℤ)
    (hexpiry : 0 < pictureExpiry) (s : Site) :
    ∃ t, run (clearPic out now pictureExpiry) s = (.ok (), t) ∧ t.world = s.world ∧ ∀ c nid,
      (Removed out now pictureExpiry s c nid → t.urls c nid = []) ∧
      (¬ Removed out now pictureExpiry s c nid → t.urls c nid = s.urls c nid) := by
  obtain ⟨t, ht, hfirst⟩ := run_clearExpiredPic out henv .passVehicle now pictureExpiry s
  obtain ⟨u, hu, hsecond⟩ := run_clearExpiredPic out henv .voucher now pictureExpiry t
  have hwt : t.world = s.world := congrArg Prod.fst hfirst
  have hwu : u.world = t.world := congrArg Prod.fst hsecond
  have hask : run (queryPictureExpiry out.env pictureExpiry) s = (.ok pictureExpiry, s) := run_ask _ _ _ s (henv _)
  have hrun : run (clearPic out now pictureExpiry) s = (.ok (), u) := by
    rw [clearPic, run_bind_ok _ _ _ _ _ hask, if_pos hexpiry]
    exact (run_bind_ok _ _ _ _ _ ht).trans hu
  refine ⟨u, hrun, hwu.trans hwt, fun c nid => ?_⟩
  have hvehicle := urls_of_tables out _ s t hfirst c nid _ (expired_vehicle out now pictureExpiry s c nid)
  have hvoucher := urls_of_tables out _ t u hsecond c nid _ (expired_voucher out now pictureExpiry t c nid)
  by_cases hc : c = .proof
  · -- the first half left the column of the voucher as it was
    have hkept : t.urls c nid = s.urls c nid := hvehicle.2 fun h => h.1 hc
    have hiff : (c = .proof ∧ Expired out (expiryLimit now pictureExpiry) t c nid ∧
        (slotOf t c nid).clears out = true) ↔ Removed out now pictureExpiry s c nid := by
      subst hc
      simp only [Removed, Expired, slotOf, hkept, hwt, true_and]
    exact ⟨fun h => hvoucher.1 (hiff.mpr h), fun h => (hvoucher.2 fun hn => h (hiff.mp hn)).trans hkept⟩
  · have hkept : u.urls c nid = t.urls c nid := hvoucher.2 fun h => hc h.1
    rw [hkept]
    exact ⟨fun h => hvehicle.1 ⟨hc, h⟩, fun h => hvehicle.2 fun hn => h hn.2⟩

/-- Two passages of the same time with a picture each; the first vehicle is inside. -/
def twoPictures : Site :=
  { world := {
      detects := [
        { passId := "0", plateNumber1 := "京B00001", passDirection := 9, deviceId := "d1", passTime := 7200 },
        { passId := "1", plateNumber1 := "京B00002", passDirection := 9, deviceId := "d1", passTime := 7200 }]
      innerCars := [⟨"0", 9⟩] }
    urls := fun c _ => if c = .pic1 then [47] else [] }

theorem clearPic_clears_nightly :
    ∃ t, run (clearPic TurnBack.quietOutside 180000 1) twoPictures = (.ok (), t) ∧
      t.urls .pic1 "0" = [47] ∧ t.urls .pic1 "1" = [] := by
  obtain ⟨t, ht, -, hurls⟩ := clearPic_clears TurnBack.quietOutside (fun _ => rfl) 180000 1 (by decide) twoPictures
  refine ⟨t, ht, (hurls .pic1 "0").2 fun hremoved => ?_, (hurls .pic1 "1").1 ⟨⟨by decide, ?_⟩, by decide +kernel⟩⟩
  · exact hremoved.1.1 (by decide)
  · exact ⟨_, List.mem_cons_of_mem _ List.mem_cons_self, rfl, by decide⟩

end BitPark.Retention
