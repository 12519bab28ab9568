import BitPark.ServerRun

namespace BitPark.History

open BitPark.Effect BitPark.Stepwise BitPark.Server BitPark.Database BitPark.Charging BitPark.Storage
open BitPark.Passage BitPark.Changes BitPark.ServerRun
open BitPark.TurnBack (quietOutside)

/-! What was recorded stays recorded, over every run of the server. -/

/-- A passage without its plate, which an operator may revise. -/
def anonymous (d : PassVehicle) : PassVehicle := { d with plateNumber1 := "" }

/-- Passages are only added, and their plates change for an operator only. -/
structure KeepsPassages (o : Origin) (w t : World) : Prop where
  passages : w.detects.map anonymous <+: t.detects.map anonymous
  plates : o.user = none → w.detects <+: t.detects

instance (o : Origin) : IsPreorder World (KeepsPassages o) where
  refl _ := ⟨List.prefix_rfl, fun _ => List.prefix_rfl⟩
  trans _ _ _ h1 h2 := ⟨h1.1.trans h2.1, fun ho => (h1.2 ho).trans (h2.2 ho)⟩

theorem keepsPassages_change (env : Env) (o : Origin) (w t : World) (h : Change env o w t) : KeepsPassages o w t := by
  cases h with
  | passed info parkingType =>
    have hlonger : w.detects <+: (recorded info (env.uuid w.ids) parkingType { w with ids := w.ids + 1 }).detects :=
      List.prefix_append _ _
    exact ⟨hlonger.map anonymous, fun _ => hlonger⟩
  | revised passId plate ho =>
    refine ⟨?_, fun hn => absurd hn ho⟩
    have hsame : ∀ d : PassVehicle,
        anonymous (if d.passId = passId then { d with plateNumber1 := plate } else d) = anonymous d := by
      intro d
      split_ifs <;> rfl
    have hmap : (w.detects.map fun d => if d.passId = passId then { d with plateNumber1 := plate } else d).map
        anonymous = w.detects.map anonymous := by
      rw [List.map_map]
      exact List.map_congr_left fun d _ => hsame d
    exact hmap ▸ List.prefix_rfl
  | _ => exact ⟨List.prefix_rfl, fun _ => List.prefix_rfl⟩

theorem keepsPassages_next (s : Site) (m : Moment) (hout : ChoosesRow m.out) :
    KeepsPassages (origin m.out.env s.world m.event) s.world (m.next s).world :=
  related_of_steps (keepsPassages_change m.out.env _) _ _ (served_next s m hout)

/-- The event is not a message of a session. -/
def Unattended (s : Site) (m : Moment) : Prop := (origin m.out.env s.world m.event).user = none

/-- The new records are of the server, or of the user that the origin answers for. -/
def Attributed (o : Origin) (record : ChargeRecord) : Prop := record.user = automatic ∨ o.user = some record.user

def AddsCharges (o : Origin) (w t : World) : Prop :=
  ∃ new, t.charges = w.charges ++ new ∧ ∀ c ∈ new, Attributed o c.2

instance (o : Origin) : IsPreorder World (AddsCharges o) where
  refl w := ⟨[], (List.append_nil _).symm, fun _ hc => absurd hc List.not_mem_nil⟩
  trans := by
    rintro w u t ⟨new, hu, hnew⟩ ⟨newer, ht, hnewer⟩
    refine ⟨new ++ newer, by rw [ht, hu, List.append_assoc], fun c hc => ?_⟩
    exact (List.mem_append.mp hc).elim (hnew c) (hnewer c)

theorem addsCharges_change (env : Env) (o : Origin) (w t : World) (h : Change env o w t) : AddsCharges o w t := by
  cases h with
  | charged nid record hrecord =>
    refine ⟨[(nid, record)], rfl, fun c hc => ?_⟩
    rw [List.mem_singleton.mp hc]
    exact hrecord
  | _ => exact ⟨[], (List.append_nil _).symm, fun _ hc => absurd hc List.not_mem_nil⟩

theorem addsCharges_next (s : Site) (m : Moment) (hout : ChoosesRow m.out) :
    AddsCharges (origin m.out.env s.world m.event) s.world (m.next s).world :=
  related_of_steps (addsCharges_change m.out.env _) _ _ (served_next s m hout)

/-- The records that an event adds. -/
def addedBy (s : Site) (m : Moment) : List (String × ChargeRecord) :=
  (m.next s).world.charges.drop s.world.charges.length

theorem addedBy_eq (s : Site) (m : Moment) (hout : ChoosesRow m.out) :
    (m.next s).world.charges = s.world.charges ++ addedBy s m ∧
      ∀ c ∈ addedBy s m, Attributed (origin m.out.env s.world m.event) c.2 := by
  obtain ⟨new, hcharges, hnew⟩ := addsCharges_next s m hout
  have hadded : addedBy s m = new := by rw [addedBy, hcharges, List.drop_left]
  rw [hadded]
  exact ⟨hcharges, hnew⟩

theorem user_of_origin (env : Env) (w : World) (event : ServerRun.Event) (user : String)
    (h : (origin env w event).user = some user) :
    ∃ hdl msg session, event = .client (.text hdl msg) ∧ w.sessions.lookup hdl = some session ∧
      session.user.user = user := by
  cases event with
  | client event =>
    cases event with
    | text hdl msg =>
      change (originOf env w hdl msg).user = some user at h
      unfold originOf at h
      cases hs : w.sessions.lookup hdl with
      | none =>
        rw [hs] at h
        cases h
      | some session =>
        rw [hs] at h
        exact ⟨hdl, msg, session, rfl, hs, Option.some.inj h⟩
    | binary hdl payload => cases h
    | closed hdl => cases h
    | expired overTime => cases h
    | passage source data pics => cases h
  | connected ip => cases h
  | entranceTimer ip => cases h
  | exitTimer ip => cases h
  | night pictureExpiry => cases h

/-- The record was added while a message of a session of its user was served. -/
def AnsweredFor (s : Site) (ms : List Moment) (c : String × ChargeRecord) : Prop :=
  ∃ before m rest hdl msg session, ms = before ++ m :: rest ∧ m.event = .client (.text hdl msg) ∧
    (after s before).world.sessions.lookup hdl = some session ∧ session.user.user = c.2.user ∧
    c ∈ addedBy (after s before) m

/-- An operator takes five for the stay of a vehicle. -/
def payment : List (String × Json.Value) :=
  [("CmdType", .string "Checkout"), ("EnterID", .string "0"), ("ExitID", .string "1"), ("Charge", .int 5),
    ("ActualCharge", .int 5), ("PayType", .int 1), ("ParkingType", .int 9), ("ExitType", .int 2),
    ("ChargeID", .string "c1")]

def paid : Moment :=
  ⟨{ quietOutside with env := { quietEnv with parse := fun _ => .accepted (.object payment) } }, 36060,
    .client (.text 1 [])⟩

def attendedLot : Site :=
  { Pairing.hourlyLot with
    world := { Pairing.hourlyLot.world with sessions := [(1, { user := { user := "op", password := "" } })] } }

theorem choosesRow_paid : ∀ m ∈ visit ++ [paid], ChoosesRow m.out := by
  intro m hm
  rcases List.mem_append.mp hm with hm | hm
  · exact choosesRow_visit m hm
  · rw [List.mem_singleton.mp hm]
    exact fun _ _ h => List.mem_of_head? h

/-- A member keeps its row; only an active stored-value member gets another
balance, and never one below zero. -/
def Account (v v' : VIPVehicle) : Prop :=
  v' = v ∨ v.type = storedValueParking ∧ v.deleteStatus = "1" ∧ 0 ≤ v'.remainMoney ∧
    v' = { v with remainMoney := v'.remainMoney }

theorem account_trans (v v' v'' : VIPVehicle) (h1 : Account v v') (h2 : Account v' v'') : Account v v'' := by
  rcases h1 with rfl | ⟨ht, ha, h0, h1⟩
  · exact h2
  · rcases h2 with rfl | ⟨-, -, h0', h2⟩
    · exact .inr ⟨ht, ha, h0, h1⟩
    · rw [h1] at h2
      exact .inr ⟨ht, ha, h0', h2⟩

/-- The key of the member table. -/
def KeyedMembers (w : World) : Prop := (w.vips.map (·.id)).Nodup

structure Accounted (start w : World) : Prop where
  keyed : KeyedMembers w
  accounts : List.Forall₂ Account start.vips w.vips

theorem account_debited (w : World) (hw : KeyedMembers w) (vip : VIPVehicle) (money : ℚ) (hv : vip ∈ w.vips)
    (ht : vip.type = storedValueParking) (ha : vip.deleteStatus = "1") (h0 : 0 ≤ money) (v : VIPVehicle)
    (hmem : v ∈ w.vips) : Account v (setRemainMoney vip.id money v) := by
  rw [setRemainMoney]
  split_ifs with hid
  · obtain rfl : v = vip := List.inj_on_of_nodup_map hw hmem hv hid
    exact .inr ⟨ht, ha, h0, rfl⟩
  · exact .inl rfl

theorem accounted_change (env : Env) (o : Origin) (start w t : World) (h : Change env o w t)
    (hw : Accounted start w) : Accounted start t := by
  cases h with
  | debited vip money hv ht ha h0 =>
    constructor
    · have hids : (w.vips.map (setRemainMoney vip.id money)).map (·.id) = w.vips.map (·.id) := by
        rw [List.map_map]
        refine List.map_congr_left fun v _ => ?_
        change (setRemainMoney vip.id money v).id = v.id
        rw [setRemainMoney]
        split_ifs <;> rfl
      change ((w.vips.map (setRemainMoney vip.id money)).map (·.id)).Nodup
      rw [hids]
      exact hw.keyed
    · change List.Forall₂ Account start.vips (w.vips.map (setRemainMoney vip.id money))
      obtain ⟨hlength, hzip⟩ := List.forall₂_iff_zip.mp hw.accounts
      rw [List.forall₂_map_right_iff]
      refine List.forall₂_iff_zip.mpr ⟨hlength, fun {a b} hab => ?_⟩
      exact account_trans a b _ (hzip hab)
        (account_debited w hw.keyed vip money hv ht ha h0 b (List.of_mem_zip hab).2)
  | _ => exact ⟨hw.keyed, hw.accounts⟩

/-- Over every run each member keeps its row and everything in it but the
balance; a balance changes for an active stored-value member only, and a
balance that has changed is not negative. -/
theorem accounts_kept (s : Site) (hs : KeyedMembers s.world) (ms : List Moment) (hms : ∀ m ∈ ms, ChoosesRow m.out) :
    List.Forall₂ Account s.world.vips (after s ms).world.vips := by
  have hstart : Accounted s.world s.world := ⟨hs, List.forall₂_same.mpr fun v _ => .inl rfl⟩
  have hnext : ∀ (t : Site) (m : Moment), Accounted s.world t.world → ChoosesRow m.out →
      Accounted s.world (m.next t).world := fun t m ht hm =>
    invariant_of_steps (Accounted s.world) (fun u v h hu => accounted_change m.out.env _ s.world u v h hu) _ _
      (served_next t m hm) ht
  exact (run_invariant (fun t : Site => Accounted s.world t.world) (fun _ m => ChoosesRow m.out) hnext s ms hstart
    (along_of_forall _ s ms hms)).accounts

def storedMember : VIPVehicle :=
  { id := "v1", plateNumber := "京A12345", type := storedValueParking, remainMoney := 50, deleteStatus := "1" }

def memberLot : Site := { Pairing.hourlyLot with world := { Pairing.hourlyLot.world with vips := [storedMember] } }

theorem accounts_kept_visit :
    (after memberLot visit).world.vips.map (·.remainMoney) = [48] ∧ KeyedMembers memberLot.world ∧
    List.Forall₂ Account memberLot.world.vips (after memberLot visit).world.vips :=
  ⟨by decide +kernel, List.nodup_singleton _,
    accounts_kept memberLot (List.nodup_singleton _) visit choosesRow_visit⟩

end BitPark.History
