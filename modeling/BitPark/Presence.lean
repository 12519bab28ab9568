import BitPark.ServerRun

namespace BitPark.Presence

open BitPark.Effect BitPark.Stepwise BitPark.Server BitPark.Database BitPark.Charging BitPark.Storage
open BitPark.Passage BitPark.DeviceMessage BitPark.DeviceReport BitPark.Retention BitPark.Changes BitPark.ServerRun
open BitPark.Decimal (Bytes)
open BitPark.TurnBack (quietOutside)

/-! The vehicles inside, over every run of the server. -/

def keys (w : World) : List String := w.detects.map (·.passId)

/-- The recorded entries, by their keys. -/
def entries (w : World) : List String := (w.detects.filter (·.passDirection = passIn)).map (·.passId)

/-- The rows of the vehicles inside. -/
def present (w : World) : List PassVehicle :=
  w.detects.filter fun d => d.passDirection = passIn ∧ d.passId ∈ inside w

/-- Every passage has a key of its own, none that is still to come, and the
vehicles inside are some of the entries, in their order. -/
structure Consistent (uuid : ℕ → String) (w : World) : Prop where
  keyed : (keys w).Nodup
  fresh : ∀ n, w.ids ≤ n → uuid n ∉ keys w
  entered : (inside w).Sublist (entries w)

section Recorded

variable (info : PassRecord) (nid : String) (parkingType : ℤ) (w : World)

theorem keys_recorded : keys (recorded info nid parkingType w) = keys w ++ [nid] := List.map_append

theorem entries_recorded : entries (recorded info nid parkingType w) =
    entries w ++ if info.passDirection = passIn then [nid] else [] := by
  rw [entries, entries, recorded, List.filter_append, List.map_append]
  split_ifs with h
  · simp [h]
  · simp [h]

theorem inside_recorded : inside (recorded info nid parkingType w) =
    inside w ++ if info.passDirection = passIn then [nid] else [] := by
  rw [inside, inside, recorded, List.map_append]
  split_ifs <;> rfl

end Recorded

section Revised

variable (w : World) (passId plate : String)

/-- The passages with the plate of one of them revised. -/
def revised : World :=
  { w with detects := w.detects.map fun d => if d.passId = passId then { d with plateNumber1 := plate } else d }

theorem revised_row (d : PassVehicle) :
    (if d.passId = passId then { d with plateNumber1 := plate } else d).passId = d.passId ∧
      (if d.passId = passId then { d with plateNumber1 := plate } else d).passDirection = d.passDirection := by
  split_ifs <;> exact ⟨rfl, rfl⟩

theorem keys_revised : keys (revised w passId plate) = keys w := by
  simp only [keys, revised, List.map_map, Function.comp_def, revised_row]

theorem entries_revised : entries (revised w passId plate) = entries w := by
  simp only [entries, revised, List.filter_map, List.map_map, Function.comp_def, revised_row]

end Revised

theorem entries_sublist (w : World) : (entries w).Sublist (keys w) := List.filter_sublist.map _

theorem consistent_change (env : Env) (o : Origin) (huuid : Function.Injective env.uuid) (w t : World)
    (h : Change env o w t) (hw : Consistent env.uuid w) : Consistent env.uuid t := by
  cases h with
  | minted => exact ⟨hw.keyed, fun n hn => hw.fresh n (Nat.le_of_succ_le hn), hw.entered⟩
  | passed info parkingType =>
    have hkeys := keys_recorded info (env.uuid w.ids) parkingType { w with ids := w.ids + 1 }
    have hnew : env.uuid w.ids ∉ keys w := hw.fresh w.ids le_rfl
    refine ⟨?_, fun n hn hmem => ?_, ?_⟩
    · rw [hkeys, ← List.concat_eq_append]
      exact hw.keyed.concat hnew
    · rw [hkeys] at hmem
      rcases List.mem_append.mp hmem with hmem | hmem
      · exact hw.fresh n (Nat.le_of_succ_le hn) hmem
      · have heq : n = w.ids := huuid (List.mem_singleton.mp hmem)
        have hlt : w.ids + 1 ≤ n := hn
        omega
    · rw [inside_recorded, entries_recorded]
      exact hw.entered.append_right _
  | revised passId plate ho =>
    change Consistent env.uuid (revised w passId plate)
    have hkeys := keys_revised w passId plate
    refine ⟨?_, fun n hn => ?_, ?_⟩
    · rw [hkeys]
      exact hw.keyed
    · rw [hkeys]
      exact hw.fresh n hn
    · rw [entries_revised]
      exact hw.entered
  | left stays =>
    exact ⟨hw.keyed, hw.fresh, (List.filter_sublist.map _).trans hw.entered⟩
  | _ => exact ⟨hw.keyed, hw.fresh, hw.entered⟩

/-- The keys that the server is given are all different. -/
def Keyed (uuid : ℕ → String) (m : Moment) : Prop := ChoosesRow m.out ∧ m.out.env.uuid = uuid

section Runs

variable (uuid : ℕ → String) (huuid : Function.Injective uuid)
include huuid

theorem consistent_next (s : Site) (m : Moment) (hs : Consistent uuid s.world) (hm : Keyed uuid m) :
    Consistent uuid (m.next s).world := by
  obtain ⟨hout, rfl⟩ := hm
  exact invariant_of_steps (Consistent m.out.env.uuid) (fun u v h => consistent_change m.out.env _ huuid u v h) _ _
    (served_next s m hout) hs

theorem consistent_after (s : Site) (hs : Consistent uuid s.world) (ms : List Moment) (hms : ∀ m ∈ ms, Keyed uuid m) :
    Consistent uuid (after s ms).world :=
  run_invariant (fun t : Site => Consistent uuid t.world) (fun _ m => Keyed uuid m)
    (consistent_next uuid huuid) s ms hs (along_of_forall _ s ms hms)

end Runs

/-! What the tables say about a vehicle inside. -/

theorem eq_filter_of_sublist {xs ys : List String} (h : xs.Sublist ys) (hys : ys.Nodup) :
    ys.filter (· ∈ xs) = xs := by
  induction h with
  | slnil => rfl
  | cons y h ih =>
    obtain ⟨hy, hys⟩ := List.nodup_cons.mp hys
    rw [List.filter_cons_of_neg (by simpa using fun hm => hy (h.subset hm))]
    exact ih hys
  | @cons_cons xs ys y h ih =>
    obtain ⟨hy, hys⟩ := List.nodup_cons.mp hys
    have hrest : ys.filter (· ∈ y :: xs) = ys.filter (· ∈ xs) := by
      refine List.filter_congr fun z hz => ?_
      have hne : z ≠ y := fun he => hy (he ▸ hz)
      simp [hne]
    rw [List.filter_cons_of_pos (by simp), hrest, ih hys]

/-- Each vehicle inside has one row, the one of its entry. -/
theorem inside_eq (uuid : ℕ → String) (w : World) (hw : Consistent uuid w) :
    inside w = (present w).map (·.passId) := by
  have hentries : (entries w).Nodup := hw.keyed.sublist (entries_sublist w)
  calc inside w = (entries w).filter (· ∈ inside w) := (eq_filter_of_sublist hw.entered hentries).symm
    _ = (present w).map (·.passId) := by
      rw [entries, List.filter_map, List.filter_filter, present]
      refine congrArg (List.map _) (List.filter_congr fun d _ => ?_)
      simp [Bool.and_comm]

/-- The join of the two tables gives a row once. -/
theorem join_inside (w : World) (hw : (inside w).Nodup) (d : PassVehicle) :
    (w.innerCars.filter (·.nid = d.passId)).map (fun _ => d) = if d.passId ∈ inside w then [d] else [] := by
  have hcount : (w.innerCars.filter (·.nid = d.passId)).length = (inside w).count d.passId := by
    rw [inside, List.count, List.countP_map, List.countP_eq_length_filter]
    rfl
  rw [List.map_const', hcount, hw.count]
  split_ifs <;> rfl

theorem enterVehicles_eq (uuid : ℕ → String) (w : World) (hw : Consistent uuid w) (plate : String) :
    enterVehicles w plate = (present w).filter (·.plateNumber1 = plate) := by
  have hinside : (inside w).Nodup := (hw.keyed.sublist (entries_sublist w)).sublist hw.entered
  have hrow : ∀ d : PassVehicle, (if d.plateNumber1 = plate ∧ d.passDirection = passIn then
      (w.innerCars.filter (·.nid = d.passId)).map (fun _ => d) else []) =
      if d.plateNumber1 = plate ∧ d.passDirection = passIn ∧ d.passId ∈ inside w then [d] else [] := by
    intro d
    rw [join_inside w hinside]
    split_ifs <;> simp_all
  rw [enterVehicles, present, List.filter_filter]
  simp only [hrow]
  induction w.detects with
  | nil => rfl
  | cons d ds ih =>
    rw [List.flatMap_cons, ih]
    split_ifs with h
    · rw [List.filter_cons_of_pos (by simpa using h)]
      rfl
    · rw [List.filter_cons_of_neg (by simpa using h)]
      rfl

theorem uuid_quiet : Function.Injective quietOutside.env.uuid := fun _ _ h => Nat.repr_injective h

theorem consistent_hourlyLot : Consistent quietOutside.env.uuid Pairing.hourlyLot.world :=
  ⟨List.nodup_nil, fun _ _ => List.not_mem_nil, List.Sublist.refl _⟩

/-- One more vehicle enters at eleven. -/
def secondVisit : List Moment := visit ++ [report "10.0.0.1" passIn 39600]

theorem keyed_secondVisit : ∀ m ∈ secondVisit, Keyed quietOutside.env.uuid m := by
  intro m hm
  simp only [secondVisit, visit, List.cons_append, List.nil_append, List.mem_cons, List.not_mem_nil, or_false] at hm
  rcases hm with rfl | rfl | rfl
  · exact ⟨choosesRow_quiet, rfl⟩
  · exact ⟨choosesRow_quiet, rfl⟩
  · exact ⟨choosesRow_quiet, rfl⟩

/-- The passage is recorded, and its vehicle is not inside. -/
def Left (nid : String) (w : World) : Prop := nid ∈ keys w ∧ nid ∉ inside w

/-- Passages keep their keys. -/
def KeepsKeys (w t : World) : Prop := keys w <+: keys t

instance : IsPreorder World KeepsKeys where
  refl _ := List.prefix_rfl
  trans _ _ _ h1 h2 := List.IsPrefix.trans h1 h2

theorem keepsKeys_change (env : Env) (o : Origin) (w t : World) (h : Change env o w t) : KeepsKeys w t := by
  cases h with
  | passed info parkingType =>
    rw [KeepsKeys, keys_recorded]
    exact List.prefix_append _ _
  | revised passId plate ho =>
    change keys w <+: keys (revised w passId plate)
    rw [keys_revised]
  | _ => exact List.prefix_rfl

theorem keepsKeys_next (s : Site) (m : Moment) (hout : ChoosesRow m.out) : KeepsKeys s.world (m.next s).world :=
  related_of_steps (keepsKeys_change m.out.env _) _ _ (served_next s m hout)

theorem left_change (env : Env) (o : Origin) (nid : String) (w t : World) (h : Change env o w t)
    (hw : Consistent env.uuid w) (hl : Left nid w) : Left nid t := by
  obtain ⟨hkey, hout⟩ := hl
  refine ⟨List.IsPrefix.subset (keepsKeys_change env o w t h) hkey, ?_⟩
  cases h with
  | passed info parkingType =>
    have hnew : nid ≠ env.uuid w.ids := fun he => hw.fresh w.ids le_rfl (he ▸ hkey)
    rw [inside_recorded]
    refine fun hin => (List.mem_append.mp hin).elim hout fun hin => ?_
    split_ifs at hin
    · exact hnew (List.mem_singleton.mp hin)
    · cases hin
  | left stays => exact fun hin => hout ((List.filter_sublist.map _).subset hin)
  | _ => exact hout

/-! The pictures of a vehicle inside. -/

/-- The picture columns of a passage. -/
def pictures (nid : String) (s : Site) : Bytes × Bytes := (s.urls .pic1 nid, s.urls .pic2 nid)

section Pictures

variable (nid : String) (out : Outside)

theorem steps_tables {α : Type} (p : Proc α) : Steps (SameAt (pictures nid)) (inWorld p) := fun _ => rfl

theorem steps_decideRelease (device : Device) (info : PassRecord) (passId : String) :
    Steps (SameAt (pictures nid)) (decideRelease out device info passId) := by
  have htables : ∀ {α : Type} (p : Proc α), Steps (SameAt (pictures nid)) (inWorld p) := steps_tables nid
  have hnotify : ∀ pass openGate, Steps (SameAt (pictures nid)) (notifyEnter out device pass openGate) :=
    fun pass openGate => steps_bind steps_state fun _ => steps_bind (steps_update _ fun _ => rfl) fun _ => steps_pure _
  have hopens : ∀ pass openGate, Steps (SameAt (pictures nid)) (do
      let _ ← notifyEnter out device pass openGate
      openEntrance out device pass) := fun pass openGate => steps_bind (hnotify pass openGate) fun _ => htables _
  have hrefuse : ∀ pass, Steps (SameAt (pictures nid)) (refuseEntrance out device pass) := fun pass =>
    steps_bind (hnotify pass _) fun _ => steps_ite _ (steps_pure ()) (htables _)
  have hby : ∀ pass mode, Steps (SameAt (pictures nid)) (releaseBy out device pass mode) := by
    intro pass mode
    cases mode with
    | none => exact steps_pure ()
    | some mode =>
      cases mode with
      | taxi => exact steps_ite _ (hopens _ _) (steps_ite _ (htables _) (steps_pure ()))
      | unconditional =>
        exact steps_ite _ (hopens _ _) (steps_ite _ (steps_bind (htables _) fun _ => htables _) (steps_pure ()))
      | whiteList =>
        exact steps_bind (htables _) fun _ => steps_ite _ (steps_ite _ (hopens _ _) (hrefuse _))
          (steps_ite _ (htables _) (steps_pure ()))
      | charge => exact htables _
  have hcreate : Steps (SameAt (pictures nid)) (createRelease out device info) :=
    steps_bind (steps_bind (steps_siteStatement _ _) fun _ => steps_raiseError _) fun _ =>
      steps_ite _ (steps_pure _) (steps_pure _)
  have hrelease : Steps (SameAt (pictures nid)) (releaseVehicle out device info passId) :=
    steps_bind hcreate fun _ => steps_bind (hby _ _) fun _ => steps_ite _ (htables _) (steps_pure ())
  exact steps_ite _ (steps_ite _ (htables _) (steps_pure ())) <| steps_ite _ (htables _) <|
    steps_ite _ (htables _) hrelease

theorem insertPassVehicleInfo_returned (env : Env) (info : PassRecord) (w t : World) (key : String)
    (h : run (insertPassVehicleInfo env info) w = (.ok key, t)) : key = env.uuid w.ids := by
  obtain ⟨_, _, hid, h⟩ := bind_returned _ _ _ _ _ h
  obtain ⟨_, _, -, h⟩ := bind_returned _ _ _ _ _ h
  obtain ⟨_, _, -, h⟩ := bind_returned _ _ _ _ _ h
  cases h
  cases hid
  rfl

/-- Recording a passage spares the pictures of the vehicles inside: the housekeeping
does not pick them, and the new row has a key of its own. -/
theorem pictures_recordPassage (source : String) (data : DeviceData) (pics : List Bytes) (s : Site)
    (hs : Consistent out.env.uuid s.world) (hin : nid ∈ inside s.world) :
    SameAt (pictures nid) s (run (recordPassage out source data pics) s).2 := by
  refine bind_related _ _ s (steps_tables nid _ s) fun device t ht => ?_
  obtain ⟨w, hquery, rfl⟩ := TurnBack.inWorld_returned _ _ _ _ ht
  obtain ⟨-, rfl⟩ := query_returned _ _ _ _ _ _ hquery
  have hsubset : [nid] ⊆ inside s.world := List.cons_subset.mpr ⟨hin, List.nil_subset _⟩
  have hmanage := keepsPictures_pictureStorageManage [nid] out .passVehicle s hsubset
  have hspared : SameAt (pictures nid) s (run (pictureStorageManage out .passVehicle) s).2 :=
    Prod.ext (hmanage.2 nid List.mem_cons_self).1 (hmanage.2 nid List.mem_cons_self).2
  refine bind_related _ _ s hspared fun _ t ht => ?_
  rw [ht] at hmanage
  have hworld : t.world = s.world := hmanage.1
  have hkeep : ∀ (x : Site) (op : FileOp), SameAt (fun y : Site => (y.world, pictures nid y)) x
      { x with files := x.files ++ [op] } := fun _ _ => rfl
  have hdirectory := steps_openPassDirectory hkeep out data.passTime
  refine bind_related _ _ t (congrArg Prod.snd (hdirectory t)) fun directory u hu => ?_
  have hu : (u.world, pictures nid u) = (t.world, pictures nid t) := steps_returned hdirectory t u _ hu
  have hsave := steps_savePictures hkeep out directory device.deviceId (out.localTime data.passTime) pics data.picType
  refine bind_related _ _ u (congrArg Prod.snd (hsave u)) fun urls v hv => ?_
  have hv : (v.world, pictures nid v) = (u.world, pictures nid u) := steps_returned hsave u v _ hv
  refine bind_related _ _ v (steps_tables nid _ v) fun passId x hx => ?_
  obtain ⟨w, hinsert, rfl⟩ := TurnBack.inWorld_returned _ _ _ _ hx
  have hids : v.world = s.world := (congrArg Prod.fst hv).trans ((congrArg Prod.fst hu).trans hworld)
  have hnew : passId = out.env.uuid s.world.ids := by rw [insertPassVehicleInfo_returned _ _ _ _ _ hinsert, hids]
  have hne : nid ≠ passId := by
    rintro rfl
    exact hs.fresh s.world.ids le_rfl (hnew ▸ (entries_sublist _).subset (hs.entered.subset hin))
  refine steps_bind (R := SameAt (pictures nid)) (fun y => ?_) (fun _ => steps_pure _) { v with world := w }
  change pictures nid (withPictures _ passId y) = pictures nid y
  simp only [pictures, withPictures, hne, false_and, if_false]

theorem pictures_next (s : Site) (m : Moment) (hs : Consistent m.out.env.uuid s.world) (hin : nid ∈ inside s.world) :
    SameAt (pictures nid) s (m.next s) := by
  obtain ⟨out, now, event⟩ := m
  have hsubset : [nid] ⊆ inside s.world := List.cons_subset.mpr ⟨hin, List.nil_subset _⟩
  have hspared : ∀ t, KeepsPictures [nid] s t → SameAt (pictures nid) s t := fun t ht =>
    Prod.ext (ht.2 nid List.mem_cons_self).1 (ht.2 nid List.mem_cons_self).2
  cases event with
  | client event =>
    cases event with
    | text hdl msg => exact rfl
    | binary hdl payload =>
      refine handle_related _ _ s ?_ fun _ => steps_pure ()
      have hmanage := keepsPictures_pictureStorageManage [nid] out .voucher s hsubset
      refine bind_related _ _ s (hspared _ hmanage) fun _ t _ => ?_
      have hkeep : ∀ (x : Site) (op : FileOp), SameAt (pictures nid) x { x with files := x.files ++ [op] } :=
        fun _ _ => rfl
      refine steps_bind (steps_raiseError _) (fun name => ?_) t
      refine steps_bind (steps_openDirectory hkeep out _ _) fun directory => ?_
      refine steps_bind (steps_ite _ (steps_touch hkeep _) (steps_pure ())) fun _ => ?_
      exact steps_ite _ (steps_raise _) (steps_amend _ _ _ fun _ => rfl)
    | closed hdl => exact rfl
    | expired overTime => exact rfl
    | passage source data pics =>
      refine handle_related _ _ s ?_ fun _ => steps_pure ()
      refine bind_related _ _ s (pictures_recordPassage nid out source data pics s hs hin) fun r t _ => ?_
      exact steps_decideRelease nid out r.1 r.2.1 r.2.2 t
  | connected ip => exact rfl
  | entranceTimer ip => exact rfl
  | exitTimer ip => exact rfl
  | night pictureExpiry => exact hspared _ (keepsPictures_clearPic [nid] out now pictureExpiry s hsubset)

end Pictures

theorem left_after (uuid : ℕ → String) (huuid : Function.Injective uuid) (nid : String) (s : Site) (ms : List Moment)
    (hs : Consistent uuid s.world) (hms : ∀ m ∈ ms, Keyed uuid m) (hl : Left nid s.world) :
    Left nid (after s ms).world := by
  have hnext : ∀ (t : Site) (m : Moment), Consistent uuid t.world ∧ Left nid t.world → Keyed uuid m →
      Consistent uuid (m.next t).world ∧ Left nid (m.next t).world := by
    rintro t m ht ⟨hout, rfl⟩
    have hstep : ∀ u v, Change m.out.env (origin m.out.env t.world m.event) u v →
        Consistent m.out.env.uuid u ∧ Left nid u → Consistent m.out.env.uuid v ∧ Left nid v := fun u v h hu =>
      ⟨consistent_change _ _ huuid u v h hu.1, left_change _ _ nid u v h hu.1 hu.2⟩
    exact invariant_of_steps (fun w => Consistent m.out.env.uuid w ∧ Left nid w) hstep _ _ (served_next t m hout) ht
  exact (run_invariant (fun t : Site => Consistent uuid t.world ∧ Left nid t.world) (fun _ m => Keyed uuid m) hnext
    s ms ⟨hs, hl⟩ (along_of_forall _ s ms hms)).2

/-- A vehicle inside with a picture of its entry. -/
def picturedLot : Site :=
  { Pairing.hourlyLot with
    world := { Pairing.hourlyLot.world with
      detects := [{ passId := "0", plateNumber1 := "京B00001", passDirection := passIn, deviceId := "d1", passTime := 7200 }]
      innerCars := [⟨"0", 9⟩]
      ids := 1 }
    urls := fun c nid => if c = .pic1 ∧ nid = "0" then [47] else [] }

theorem consistent_picturedLot : Consistent quietOutside.env.uuid picturedLot.world := by
  refine ⟨List.nodup_singleton _, fun n hn hmem => ?_, List.Sublist.refl _⟩
  have h0 : Nat.repr n = Nat.repr 0 := List.mem_singleton.mp hmem
  have hn1 : 1 ≤ n := hn
  have hzero := Nat.repr_injective h0
  omega

/-- A day later everything older than a day is removed. -/
def nightly : List Moment := visit ++ [⟨quietOutside, 180000, .night 1⟩]

theorem keyed_nightly : ∀ m ∈ nightly, Keyed quietOutside.env.uuid m := by
  intro m hm
  simp only [nightly, visit, List.cons_append, List.nil_append, List.mem_cons, List.not_mem_nil, or_false] at hm
  rcases hm with rfl | rfl | rfl
  · exact ⟨choosesRow_quiet, rfl⟩
  · exact ⟨choosesRow_quiet, rfl⟩
  · exact ⟨choosesRow_quiet, rfl⟩

end BitPark.Presence
