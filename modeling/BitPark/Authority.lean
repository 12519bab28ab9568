import BitPark.ServerRun

namespace BitPark.Authority

open BitPark.Effect BitPark.Stepwise BitPark.Server BitPark.Database BitPark.Devices BitPark.Gate
open BitPark.Storage BitPark.DeviceMessage BitPark.Passage BitPark.DeviceReport BitPark.Changes BitPark.ServerRun
open BitPark.TurnBack (quietOutside)

/-! For whom the gates open, and who waits, over every run of the server. -/

/-- Commands are added, and those that open a gate are ones that the origin may give. -/
def OpensFor (o : Origin) (w t : World) : Prop :=
  ∃ cmds, t.sent = w.sent ++ cmds ∧ ∀ c ∈ cmds, isOpen c.2 = true → o.opens c.1

instance (o : Origin) : IsPreorder World (OpensFor o) where
  refl w := ⟨[], (List.append_nil _).symm, fun _ hc => absurd hc List.not_mem_nil⟩
  trans := by
    rintro w u t ⟨cmds, hu, hcmds⟩ ⟨more, ht, hmore⟩
    refine ⟨cmds ++ more, by rw [ht, hu, List.append_assoc], fun c hc => ?_⟩
    exact (List.mem_append.mp hc).elim (hcmds c) (hmore c)

theorem opensFor_change (env : Env) (o : Origin) (w t : World) (h : Change env o w t) : OpensFor o w t := by
  cases h with
  | sent c ho =>
    refine ⟨[c], rfl, fun x hx => ?_⟩
    rw [List.mem_singleton.mp hx]
    exact ho
  | _ => exact ⟨[], (List.append_nil _).symm, fun _ hc => absurd hc List.not_mem_nil⟩

/-- Nobody starts to wait but where the origin may delay a vehicle. -/
def WaitsFor (o : Origin) (w t : World) : Prop := ∀ row ∈ t.waits, row ∈ w.waits ∨ o.delays row.deviceIp

instance (o : Origin) : IsPreorder World (WaitsFor o) where
  refl _ := fun _ hrow => .inl hrow
  trans _ _ _ h1 h2 := fun row hrow => (h2 row hrow).elim (h1 row) .inr

theorem waitsFor_change (env : Env) (o : Origin) (w t : World) (h : Change env o w t) : WaitsFor o w t := by
  cases h with
  | waits row hrow ho =>
    refine fun x hx => (List.mem_append.mp hx).imp_right fun hx => ?_
    rw [List.mem_singleton.mp hx]
    exact ho.delays
  | admitted stays => exact fun x hx => .inl (List.mem_of_mem_filter hx)
  | _ => exact fun _ hrow => .inl hrow

theorem equips_change (env : Env) (o : Origin) (w t : World) (h : Change env o w t) : SameAt World.equips w t := by
  cases h <;> rfl

section Next

variable (s : Site) (m : Moment) (hout : ChoosesRow m.out)
include hout

theorem opensFor_next : OpensFor (origin m.out.env s.world m.event) s.world (m.next s).world :=
  related_of_steps (opensFor_change m.out.env _) _ _ (served_next s m hout)

theorem waitsFor_next : WaitsFor (origin m.out.env s.world m.event) s.world (m.next s).world :=
  related_of_steps (waitsFor_change m.out.env _) _ _ (served_next s m hout)

theorem equips_next : (m.next s).world.equips = s.world.equips :=
  related_of_steps (R := SameAt World.equips) (equips_change m.out.env _) _ _ (served_next s m hout)

end Next

theorem equips_after (s : Site) (ms : List Moment) (hms : ∀ m ∈ ms, ChoosesRow m.out) :
    (after s ms).world.equips = s.world.equips :=
  run_invariant (fun t : Site => t.world.equips = s.world.equips) (fun _ m => ChoosesRow m.out)
    (fun t m ht hm => (equips_next t m hm).trans ht) s ms rfl (along_of_forall _ s ms hms)

/-- The device reported a passage. -/
def Reported (w : World) (ms : List Moment) (ip : String) : Prop :=
  ∃ m ∈ ms, ∃ source data pics, m.event = .client (.passage source data pics) ∧ (deviceAt w source).ip = ip

/-- A vehicle waited at the device, or it reported a passage. -/
def Known (s : Site) (ms : List Moment) (ip : String) : Prop :=
  ip ∈ s.world.waits.map (·.deviceIp) ∨ Reported s.world ms ip

theorem known_mono (s : Site) (ms ns : List Moment) (ip : String) (h : Known s ms ip) : Known s (ms ++ ns) ip :=
  h.imp_right fun ⟨m, hm, hrest⟩ => ⟨m, List.mem_append_left ns hm, hrest⟩

/-- The message comes from a connection that somebody is logged in on. -/
def Operated (s : Site) (m : Moment) : Prop :=
  ∃ hdl msg session, m.event = .client (.text hdl msg) ∧ s.world.sessions.lookup hdl = some session

/-- Whoever may open a gate is an operator, or stands for the device of the
report, or for a device where a vehicle waits. -/
theorem opens_origin (s : Site) (m : Moment) (ip : String) (h : (origin m.out.env s.world m.event).opens ip) :
    Operated s m ∨ Known s [m] ip := by
  obtain ⟨out, now, event⟩ := m
  cases event with
  | client event =>
    cases event with
    | text hdl msg =>
      refine .inl ?_
      change (originOf out.env s.world hdl msg).opens ip at h
      unfold originOf at h
      cases hs : s.world.sessions.lookup hdl with
      | none =>
        rw [hs] at h
        cases h
      | some session => exact ⟨hdl, msg, session, rfl, hs⟩
    | passage source data pics =>
      refine .inr (h.elim (fun hip => .inr ?_) .inl)
      exact ⟨_, List.mem_singleton_self _, source, data, pics, rfl, hip.symm⟩
    | binary hdl payload => cases h
    | closed hdl => cases h
    | expired overTime => cases h
  | connected deviceIp => exact .inr (.inl h)
  | entranceTimer deviceIp => cases h
  | exitTimer deviceIp => cases h
  | night pictureExpiry => cases h

theorem delays_origin (s : Site) (m : Moment) (ip : String) (h : (origin m.out.env s.world m.event).delays ip) :
    Known s [m] ip := by
  obtain ⟨out, now, event⟩ := m
  cases event with
  | client event =>
    cases event with
    | text hdl msg =>
      change (originOf out.env s.world hdl msg).delays ip at h
      unfold originOf at h
      cases hs : s.world.sessions.lookup hdl with
      | none =>
        rw [hs] at h
        cases h
      | some session =>
        rw [hs] at h
        cases h
    | passage source data pics =>
      refine h.elim (fun hip => .inr ?_) .inl
      exact ⟨_, List.mem_singleton_self _, source, data, pics, rfl, hip.symm⟩
    | binary hdl payload => cases h
    | closed hdl => cases h
    | expired overTime => cases h
  | connected deviceIp => exact .inl h
  | entranceTimer deviceIp => cases h
  | exitTimer deviceIp => cases h
  | night pictureExpiry => cases h

/-- What is known of an event in the middle of a run is known of the run. -/
theorem known_after (s : Site) (before : List Moment) (hbefore : ∀ m ∈ before, ChoosesRow m.out)
    (hwaits : ∀ row ∈ (after s before).world.waits, Known s before row.deviceIp) (m : Moment) (ip : String)
    (h : Known (after s before) [m] ip) : Known s (before ++ [m]) ip := by
  obtain h | ⟨n, hn, source, data, pics, hevent, hip⟩ := h
  · obtain ⟨row, hrow, rfl⟩ := List.mem_map.mp h
    exact known_mono s before [m] _ (hwaits row hrow)
  · refine .inr ⟨n, List.mem_append_right before hn, source, data, pics, hevent, ?_⟩
    rwa [deviceAt, equips_after s before hbefore] at hip

/-- Whoever waits came to a device that reported it. -/
theorem waits_known (s : Site) (ms : List Moment) (hms : ∀ m ∈ ms, ChoosesRow m.out) :
    ∀ row ∈ (after s ms).world.waits, Known s ms row.deviceIp := by
  induction ms using List.reverseRecOn with
  | nil => exact fun row hrow => .inl (List.mem_map_of_mem hrow)
  | append_singleton ms m ih =>
    have hbefore : ∀ n ∈ ms, ChoosesRow n.out := fun n hn => hms n (List.mem_append_left _ hn)
    have hm : ChoosesRow m.out := hms m (List.mem_append_right _ (List.mem_singleton_self m))
    intro row hrow
    rw [after, List.foldl_append] at hrow
    rcases waitsFor_next (after s ms) m hm row hrow with hrow | hdelays
    · exact known_mono s ms [m] _ (ih hbefore row hrow)
    · exact known_after s ms hbefore (ih hbefore) m _ (delays_origin _ m _ hdelays)

/-- A command of a run that opens a gate was sent while a message of somebody
logged in was handled, or to a device that had reported a passage by then. -/
def AskedFor (s : Site) (ms : List Moment) (c : String × Command) : Prop :=
  ∃ before m rest, ms = before ++ m :: rest ∧
    c ∈ ((m.next (after s before)).world.sent.drop (after s before).world.sent.length) ∧
    (Operated (after s before) m ∨ Known s (before ++ [m]) c.1)

/-- No gate opens by itself, over every run. -/
theorem gates_open_on_request (s : Site) (ms : List Moment) (hms : ∀ m ∈ ms, ChoosesRow m.out) :
    ∃ cmds, (after s ms).world.sent = s.world.sent ++ cmds ∧
      ∀ c ∈ cmds, isOpen c.2 = true → AskedFor s ms c := by
  induction ms using List.reverseRecOn with
  | nil => exact ⟨[], (List.append_nil _).symm, fun _ hc => absurd hc List.not_mem_nil⟩
  | append_singleton ms m ih =>
    have hbefore : ∀ n ∈ ms, ChoosesRow n.out := fun n hn => hms n (List.mem_append_left _ hn)
    have hm : ChoosesRow m.out := hms m (List.mem_append_right _ (List.mem_singleton_self m))
    obtain ⟨cmds, hsent, hcmds⟩ := ih hbefore
    obtain ⟨more, hnext, hmore⟩ := opensFor_next (after s ms) m hm
    have hlast : after s (ms ++ [m]) = m.next (after s ms) := by rw [after, List.foldl_append]; rfl
    refine ⟨cmds ++ more, by rw [hlast, hnext, hsent, List.append_assoc], fun c hc ho => ?_⟩
    rcases List.mem_append.mp hc with hc | hc
    · obtain ⟨before, n, rest, hms, hmem, hwho⟩ := hcmds c hc ho
      exact ⟨before, n, rest ++ [m], by rw [hms]; simp, hmem, hwho⟩
    · refine ⟨ms, m, [], rfl, by rwa [hnext, List.drop_left], ?_⟩
      exact (opens_origin _ m c.1 (hmore c hc ho)).imp_right
        (known_after s ms hbefore (waits_known s ms hbefore) m c.1)

theorem gates_open_on_request_visit :
    ((after Pairing.hourlyLot visit).world.sent.filter fun c => isOpen c.2).map (·.1) = ["10.0.0.1"] ∧
    ∃ cmds, (after Pairing.hourlyLot visit).world.sent = Pairing.hourlyLot.world.sent ++ cmds ∧
      ∀ c ∈ cmds, isOpen c.2 = true → AskedFor Pairing.hourlyLot visit c :=
  ⟨by decide +kernel, gates_open_on_request Pairing.hourlyLot visit choosesRow_visit⟩

/-! Who waits. -/

theorem waitsOnce_change (env : Env) (o : Origin) (w t : World) (h : Change env o w t)
    (hw : (w.waits.map (·.deviceIp)).Nodup) : (t.waits.map (·.deviceIp)).Nodup := by
  cases h with
  | waits row hrow ho =>
    change ((w.waits ++ [row]).map (·.deviceIp)).Nodup
    rw [List.map_append, List.map_singleton, ← List.concat_eq_append]
    exact hw.concat hrow
  | admitted stays => exact hw.sublist (List.filter_sublist.map _)
  | _ => exact hw

/-- Over every run at most one vehicle waits at a device, and only where one
waited before or a passage was reported since. -/
theorem waits_once (s : Site) (hs : (s.world.waits.map (·.deviceIp)).Nodup) (ms : List Moment)
    (hms : ∀ m ∈ ms, ChoosesRow m.out) :
    ((after s ms).world.waits.map (·.deviceIp)).Nodup ∧
      ∀ row ∈ (after s ms).world.waits, Known s ms row.deviceIp := by
  have hnext : ∀ (t : Site) (m : Moment), (t.world.waits.map (·.deviceIp)).Nodup → ChoosesRow m.out →
      ((m.next t).world.waits.map (·.deviceIp)).Nodup := fun t m ht hm =>
    invariant_of_steps (fun w : World => (w.waits.map (·.deviceIp)).Nodup)
      (fun u v h hu => waitsOnce_change m.out.env _ u v h hu) _ _ (served_next t m hm) ht
  exact ⟨run_invariant (fun t : Site => (t.world.waits.map (·.deviceIp)).Nodup) (fun _ m => ChoosesRow m.out) hnext
    s ms hs (along_of_forall _ s ms hms), waits_known s ms hms⟩

/-- A car park without a space. -/
def fullLot : Site :=
  { Pairing.hourlyLot with world := { Pairing.hourlyLot.world with config := { judgeRemainParkingNumber := 1 } } }

/-- One vehicle after the other comes to the entrance. -/
def crowd : List Moment := [report "10.0.0.1" passIn 28800, report "10.0.0.1" passIn 28860]

theorem choosesRow_crowd : ∀ m ∈ crowd, ChoosesRow m.out := by
  intro m hm
  simp only [crowd, List.mem_cons, List.not_mem_nil, or_false] at hm
  rcases hm with rfl | rfl
  · exact choosesRow_quiet
  · exact choosesRow_quiet

theorem waits_once_crowd :
    (after fullLot crowd).world.waits.map (·.deviceIp) = ["10.0.0.1"] ∧
    ((after fullLot crowd).world.waits.map (·.deviceIp)).Nodup ∧
      ∀ row ∈ (after fullLot crowd).world.waits, Known fullLot crowd row.deviceIp :=
  ⟨by decide +kernel, waits_once fullLot List.nodup_nil crowd choosesRow_crowd⟩

end BitPark.Authority
