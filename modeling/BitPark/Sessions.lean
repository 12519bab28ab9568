import BitPark.ServerRun

namespace BitPark.Sessions

open BitPark.Effect BitPark.Stepwise BitPark.Server BitPark.Storage BitPark.Changes BitPark.ServerRun
open BitPark.Connections (CorrectLogin)
open BitPark.TurnBack (quietOutside)

/-! Who is behind a session, over every run of the server. -/

/-- Each connection has the user it had, or one who may log in. -/
def SeatsFor (o : Origin) (w t : World) : Prop := o.Seats w.sessions t.sessions

instance (o : Origin) : IsPreorder World (SeatsFor o) where
  refl _ := fun c hc => .inl ⟨c, hc, rfl, rfl⟩
  trans _ _ _ h1 h2 := fun c hc => by
    obtain ⟨d, hd, hhdl, huser⟩ | hlogs := h2 c hc
    · rw [← hhdl, ← huser]
      exact h1 d hd
    · exact .inr hlogs

theorem seatsFor_change (env : Env) (o : Origin) (w t : World) (h : Change env o w t) : SeatsFor o w t := by
  cases h with
  | connected l hl => exact hl
  | _ => exact refl_of (SeatsFor o) w

theorem seatsFor_next (s : Site) (m : Moment) (hout : ChoosesRow m.out) :
    SeatsFor (origin m.out.env s.world m.event) s.world (m.next s).world :=
  related_of_steps (seatsFor_change m.out.env _) _ _ (served_next s m hout)

/-- The user says who he is, with his password, by a message on the connection. -/
def Proves (s : Site) (m : Moment) (hdl : Handle) (user : User) : Prop :=
  ∃ msg, m.event = .client (.text hdl msg) ∧
    (CorrectLogin m.out.env s.world msg user ∨ CorrectShift m.out.env s.world hdl msg user)

theorem proves_of_logsIn (s : Site) (m : Moment) (c : Handle) (user : User)
    (h : (origin m.out.env s.world m.event).logsIn c user) : Proves s m c user := by
  obtain ⟨out, now, event⟩ := m
  cases event with
  | client event =>
    cases event with
    | text hdl msg =>
      change (originOf out.env s.world hdl msg).logsIn c user at h
      unfold originOf at h
      cases hs : s.world.sessions.lookup hdl with
      | none =>
        rw [hs] at h
        obtain ⟨rfl, hproof⟩ : LogsIn out.env s.world hdl msg c user := h
        exact ⟨msg, rfl, hproof⟩
      | some session =>
        rw [hs] at h
        obtain ⟨rfl, hproof⟩ : LogsIn out.env s.world hdl msg c user := h
        exact ⟨msg, rfl, hproof⟩
    | passage source data pics => cases h
    | binary hdl payload => cases h
    | closed hdl => cases h
    | expired overTime => cases h
  | connected deviceIp => cases h
  | entranceTimer deviceIp => cases h
  | exitTimer deviceIp => cases h
  | night pictureExpiry => cases h

/-- The connection is closed, or was silent for too long. -/
def Ends (m : Moment) (hdl : Handle) : Prop :=
  m.event = .client (.closed hdl) ∨ ∃ overTime, m.event = .client (.expired overTime) ∧ overTime hdl = true

theorem not_ends (s : Site) (m : Moment) (c : Handle × Session) (hc : c ∈ (m.next s).world.sessions) : ¬ Ends m c.1 := by
  obtain ⟨out, now, event⟩ := m
  rintro (rfl | ⟨overTime, rfl, hover⟩)
  · have hstays := (List.mem_filter.mp hc).2
    simp at hstays
  · have hstays := (List.mem_filter.mp hc).2
    simp [hover] at hstays

/-- The user has said who he is, and the connection has lasted since. -/
def Proved (s : Site) (ms : List Moment) (hdl : Handle) (user : User) : Prop :=
  ∃ before m rest, ms = before ++ m :: rest ∧ Proves (after s before) m hdl user ∧ ∀ n ∈ rest, ¬ Ends n hdl

/-- After every run, the user of a session is the one that it had at first, on
a connection that has lasted, or his password was given on this connection,
and the connection has lasted since then. -/
theorem sessions_proved (s : Site) (ms : List Moment) (hms : ∀ m ∈ ms, ChoosesRow m.out) :
    ∀ c ∈ (after s ms).world.sessions,
      (∃ d ∈ s.world.sessions, d.1 = c.1 ∧ d.2.user = c.2.user) ∧ (∀ n ∈ ms, ¬ Ends n c.1) ∨
        Proved s ms c.1 c.2.user := by
  induction ms using List.reverseRecOn with
  | nil => exact fun c hc => .inl ⟨⟨c, hc, rfl, rfl⟩, fun n hn => absurd hn List.not_mem_nil⟩
  | append_singleton ms m ih =>
    have hbefore : ∀ n ∈ ms, ChoosesRow n.out := fun n hn => hms n (List.mem_append_left _ hn)
    have hm : ChoosesRow m.out := hms m (List.mem_append_right _ (List.mem_singleton_self m))
    have hlast : after s (ms ++ [m]) = m.next (after s ms) := by rw [after, List.foldl_append]; rfl
    intro c hc
    rw [hlast] at hc
    have hlasts := not_ends (after s ms) m c hc
    obtain ⟨d, hd, hhdl, huser⟩ | hlogs := seatsFor_next (after s ms) m hm c hc
    · rw [← hhdl] at hlasts
      rw [← hhdl, ← huser]
      have hstill : ∀ rest : List Moment, (∀ n ∈ rest, ¬ Ends n d.1) → ∀ n ∈ rest ++ [m], ¬ Ends n d.1 :=
        fun rest hrest => List.forall_mem_append.mpr ⟨hrest, List.forall_mem_singleton.mpr hlasts⟩
      obtain ⟨hfirst, hall⟩ | ⟨before, n, rest, heq, hproves, hrest⟩ := ih hbefore d hd
      · exact .inl ⟨hfirst, hstill ms hall⟩
      · exact .inr ⟨before, n, rest ++ [m], by rw [heq, List.append_assoc, List.cons_append], hproves, hstill rest hrest⟩
    · exact .inr ⟨ms, m, [], rfl, proves_of_logsIn _ m c.1 c.2.user hlogs, fun n hn => absurd hn List.not_mem_nil⟩

def cashier : User := { user := "op", password := "p1" }

def login : Moment :=
  ⟨{ quietOutside with env := { quietEnv with parse := fun _ => .accepted (.object
      [("CmdType", .string "Login"), ("User", .string "op"), ("Password", .string "p1")]) } },
    0, .client (.text 1 [])⟩

/-- Somebody logs in, and a vehicle comes and goes. -/
def morning : List Moment := login :: visit

def quietDesk : Site := { Pairing.hourlyLot with world := { Pairing.hourlyLot.world with users := [cashier] } }

theorem choosesRow_morning : ∀ m ∈ morning, ChoosesRow m.out := by
  intro m hm
  obtain rfl | hm := List.mem_cons.mp hm
  · exact choosesRow_quiet
  · exact choosesRow_visit m hm

theorem sessions_proved_morning :
    (1, { user := cashier, ip := "" }) ∈ (after quietDesk morning).world.sessions ∧
      Proved quietDesk morning 1 cashier := by
  have hin : (1, { user := cashier, ip := "" }) ∈ (after quietDesk morning).world.sessions := by decide +kernel
  obtain ⟨⟨d, hd, -⟩, -⟩ | hproved := sessions_proved quietDesk morning choosesRow_morning _ hin
  · exact absurd hd List.not_mem_nil
  · exact ⟨hin, hproved⟩

end BitPark.Sessions
