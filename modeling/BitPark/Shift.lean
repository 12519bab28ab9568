import BitPark.Connections

namespace BitPark.Shift

open BitPark.Effect BitPark.Server BitPark.Database BitPark.Requests BitPark.ClientRequest BitPark.Connections

/-! The change of the operator, with the heartbeat times of the sessions. -/

structure Clocked where
  world : World := {}
  heartTimes : Handle → ℤ := fun _ => 0

abbrev Timed (α : Type) : Type := Program Clocked Exn α

def onWorld {α : Type} (p : Proc α) : Timed α := fun s => ((run p s.world).1, { s with world := (run p s.world).2 })

/-- The next user of a request, if the database knows him and the password is right. -/
def verifiedUser (env : Env) (json : Json.Value) : Proc User := do
  let nextId ← readString json "NextUser"
  let found ← queryUser env nextId
  match found with
  | none => raise (.system .invalidUserPassword)
  | some next =>
    if ← bothAgree json "NextUser" next.user "NextPassword" next.password then pure next
    else raise (.system .invalidUserPassword)

/-- The part of `on_shift` that decides on the next user. -/
def nextUser (env : Env) (hdl : Handle) (json : Json.Value) : Proc User := do
  let user ← findUser hdl
  let _ ← readMember json "NextUser"
  if ← bothAgree json "CurrentUser" user.user "CurrentPassword" user.password then verifiedUser env json
  else raise (.system .invalidUserPassword)

def addConnectionUser (env : Env) (now : ℤ) (hdl : Handle) (user : User) : Timed Unit := do
  onWorld (Requests.addConnectionUser env hdl user)
  update fun s => { s with heartTimes := Function.update s.heartTimes hdl now }

def onShift (env : Env) (now : ℤ) (hdl : Handle) (json : Json.Value) : Timed Unit := do
  let next ← onWorld (nextUser env hdl json)
  addConnectionUser env now hdl next
  onWorld (insertShiftLog env json)
  onWorld (respond hdl "ShiftResponse" (userJson next))

/-- A request with the command `Shift`, and the `catch` blocks around it. -/
def shiftRequest (env : Env) (now : ℤ) (hdl : Handle) (json : Json.Value) : Timed Unit :=
  handle (onShift env now hdl json) fun e => onWorld (reportError hdl json e)

/-! Without the times this is what the server does with the message. -/

/-- The timed program does to the world what the other one does. -/
def Projects {α : Type} (p : Timed α) (q : Proc α) : Prop :=
  ∀ s, run q s.world = ((run p s).1, (run p s).2.world)

section Projects

variable {α β : Type}

theorem projects_onWorld (p : Proc α) : Projects (onWorld p) p := fun _ => rfl

theorem projects_bind {p : Timed α} {q : Proc α} {f : α → Timed β} {g : α → Proc β} (hp : Projects p q)
    (hf : ∀ a, Projects (f a) (g a)) : Projects (p >>= f) (q >>= g) := by
  intro s
  have hs := hp s
  rw [run_bind, run_bind, hs]
  match run p s with
  | (.ok a, t) => exact hf a t
  | (.error e, t) => rfl

theorem projects_handle {p : Timed α} {q : Proc α} {f : Exn → Timed α} {g : Exn → Proc α} (hp : Projects p q)
    (hf : ∀ e, Projects (f e) (g e)) : Projects (handle p f) (handle q g) := by
  intro s
  have hs := hp s
  rw [run_handle, run_handle, hs]
  match run p s with
  | (.ok a, t) => rfl
  | (.error e, t) => exact hf e t

theorem projects_addConnectionUser (env : Env) (now : ℤ) (hdl : Handle) (user : User) :
    Projects (addConnectionUser env now hdl user) (Requests.addConnectionUser env hdl user) := by
  intro s
  have hrun : run (addConnectionUser env now hdl user) s = run (onWorld (Requests.addConnectionUser env hdl user) >>=
    fun _ => update fun s => { s with heartTimes := Function.update s.heartTimes hdl now }) s := rfl
  rw [hrun, run_bind]
  match h : run (Requests.addConnectionUser env hdl user) s.world with
  | (.ok (), w) =>
    have hw : run (onWorld (Requests.addConnectionUser env hdl user)) s = (.ok (), { s with world := w }) := by
      rw [run, onWorld, h]
    rw [hw]
    rfl
  | (.error e, w) =>
    have hw : run (onWorld (Requests.addConnectionUser env hdl user)) s = (.error e, { s with world := w }) := by
      rw [run, onWorld, h]
    rw [hw]

end Projects

theorem verifiedUser_bind (env : Env) (hdl : Handle) (json : Json.Value) :
    (verifiedUser env json >>= shiftTo env hdl json) = (do
      let nextId ← readString json "NextUser"
      let found ← queryUser env nextId
      match found with
      | none => throwErr .invalidUserPassword
      | some next =>
        if ← bothAgree json "NextUser" next.user "NextPassword" next.password then shiftTo env hdl json next
        else throwErr .invalidUserPassword) := by
  rw [verifiedUser, bind_bind]
  congr 1
  funext nextId
  rw [bind_bind]
  congr 1
  funext found
  cases found with
  | none => rfl
  | some next =>
    dsimp only
    rw [bind_bind]
    congr 1
    funext agree
    cases agree with
    | false => rfl
    | true => rfl

theorem onShift_eq (env : Env) (hdl : Handle) (json : Json.Value) :
    Requests.onShift env hdl json = nextUser env hdl json >>= shiftTo env hdl json := by
  rw [Requests.onShift, nextUser, bind_bind]
  congr 1
  funext user
  rw [bind_bind]
  congr 1
  funext _
  rw [bind_bind]
  congr 1
  funext agree
  cases agree with
  | false => rfl
  | true => exact (verifiedUser_bind env hdl json).symm

theorem projects_onShift (env : Env) (now : ℤ) (hdl : Handle) (json : Json.Value) :
    Projects (onShift env now hdl json) (Requests.onShift env hdl json) := by
  rw [onShift_eq]
  exact projects_bind (projects_onWorld _) fun next => projects_bind (projects_addConnectionUser env now hdl next)
    fun _ => projects_bind (projects_onWorld _) fun _ => projects_onWorld _

/-- A root with a command can be read again and again. -/
theorem resolveReference_text (root : Json.Value) (cmd : String) (hcmd : text root "CmdType" = .ok cmd)
    (hne : cmd ≠ "") : ∃ found, root.resolveReference "CmdType" = .ok (found, root) ∧ found.asString = .ok cmd := by
  rw [text] at hcmd
  cases root with
  | null =>
    cases hcmd
    exact absurd rfl hne
  | object members =>
    rw [Json.Value.member] at hcmd
    cases hl : members.lookup "CmdType" with
    | none =>
      rw [hl] at hcmd
      cases hcmd
      exact absurd rfl hne
    | some found =>
      rw [hl] at hcmd
      exact ⟨found, by simp only [Json.Value.resolveReference, hl], hcmd⟩
  | _ => cases hcmd

theorem run_readCmdType_text (root : Json.Value) (cmd : String) (hcmd : text root "CmdType" = .ok cmd) (hne : cmd ≠ "")
    (w : World) : run (readCmdType root) w = (.ok (cmd, root), w) := by
  obtain ⟨found, hr, ht⟩ := resolveReference_text root cmd hcmd hne
  exact run_readCmdType root found root cmd w hr ht

theorem rootAfter_text (root : Json.Value) (cmd : String) (hcmd : text root "CmdType" = .ok cmd) (hne : cmd ≠ "") :
    rootAfter (.accepted root) = root := by
  obtain ⟨found, hr, -⟩ := resolveReference_text root cmd hcmd hne
  simp only [rootAfter, hr]

/-- What the server makes of a message with the command `Shift`. -/
theorem projects_shiftRequest (env : Env) (now : ℤ) (hdl : Handle) (msg : List UInt8) (root : Json.Value)
    (hparse : env.parse msg = .accepted root) (hcmd : text root "CmdType" = .ok "Shift") :
    Projects (shiftRequest env now hdl root) (clientRequest env hdl msg) := by
  have hserve : Projects (onShift env now hdl root) (serve env hdl (.accepted root)) := by
    intro s
    rw [serve, run_bind_ok _ _ _ _ _ (run_readCmdType_text root "Shift" hcmd (by decide) s.world)]
    exact projects_onShift env now hdl root s
  rw [clientRequest, hparse, rootAfter_text root "Shift" hcmd (by decide)]
  exact projects_handle hserve fun e => projects_onWorld _

/-! Who may take over, and what becomes of the session. -/

/-- The request names a user that the database knows, with his password. -/
structure Verified (env : Env) (w : World) (json : Json.Value) (next : User) : Prop where
  name : text json "NextUser" = .ok next.user
  nextPassword : text json "NextPassword" = .ok next.password
  answered : env.fails ⟨.select, .userInfo, next.user⟩ = none
  only : w.users.filter (·.user = next.user) = [next]

/-- The request also names the user of the session, with his password. -/
structure Chosen (env : Env) (w : World) (json : Json.Value) (user next : User) : Prop
    extends Verified env w json next where
  current : text json "CurrentUser" = .ok user.user
  password : text json "CurrentPassword" = .ok user.password

/-- The connection still has a peer. -/
structure Accepted (env : Env) (w : World) (hdl : Handle) (json : Json.Value) (user next : User) (ip : String) :
    Prop extends Chosen env w json user next where
  peer : env.remoteIp hdl = .ok ip

/-- The log of the shift can be written. -/
def Logged (env : Env) (user : User) : Prop := env.fails ⟨.insert, .dutyInfo, user.user⟩ = none

instance (env : Env) (user : User) : Decidable (Logged env user) :=
  inferInstanceAs (Decidable (env.fails ⟨.insert, .dutyInfo, user.user⟩ = none))

/-- A new session stands for the connection, and a response went out. -/
def replaced (s : Clocked) (hdl : Handle) (next : User) (ip : String) (now : ℤ) (r : Response) : Clocked where
  world := { s.world with
    sessions := (hdl, { user := next, ip }) :: s.world.sessions.filter (·.1 ≠ hdl)
    ids := s.world.ids + 1
    responses := s.world.responses ++ [r] }
  heartTimes := Function.update s.heartTimes hdl now

def answered (s : Clocked) (r : Response) : Clocked :=
  { s with world := { s.world with responses := s.world.responses ++ [r] } }

section Shift

variable (env : Env) (now : ℤ) (hdl : Handle) (json : Json.Value) (s : Clocked) (before : Session)

theorem run_bothAgree_cases (key1 expected1 key2 expected2 : String) (w : World) :
    (text json key1 = .ok expected1 ∧ text json key2 = .ok expected2 ∧
      run (bothAgree json key1 expected1 key2 expected2) w = (.ok true, w)) ∨
    ¬ (text json key1 = .ok expected1 ∧ text json key2 = .ok expected2) ∧
      (run (bothAgree json key1 expected1 key2 expected2) w = (.ok false, w) ∨
        ∃ e, run (bothAgree json key1 expected1 key2 expected2) w = (.error e, w)) := by
  rw [bothAgree, readString_eq, readString_eq]
  cases h1 : text json key1 with
  | error what => exact .inr ⟨fun h => (by cases h.1), .inr ⟨_, rfl⟩⟩
  | ok text1 =>
    rw [run_read]
    by_cases he : text1 = expected1
    · rw [if_pos he]
      cases h2 : text json key2 with
      | error what => exact .inr ⟨fun h => (by cases h.2), .inr ⟨_, rfl⟩⟩
      | ok text2 =>
        rw [run_read]
        by_cases he2 : text2 = expected2
        · subst he he2
          exact .inl ⟨rfl, rfl, by simp⟩
        · exact .inr ⟨fun h => he2 (Except.ok.inj h.2), .inl (by simp [he2])⟩
    · rw [if_neg he]
      exact .inr ⟨fun h => he (Except.ok.inj h.1), .inl rfl⟩

theorem queryUser_cases (id : String) (w : World) :
    (env.fails ⟨.select, .userInfo, id⟩ = none ∧
      run (queryUser env id) w = (.ok (onlyRow ((w.users.filter (·.user = id)).map some) none), w)) ∨
    env.fails ⟨.select, .userInfo, id⟩ ≠ none ∧ ∃ e, run (queryUser env id) w = (.error e, w) := by
  cases hf : env.fails ⟨.select, .userInfo, id⟩ with
  | none => exact .inl ⟨rfl, run_query env _ _ w hf⟩
  | some code =>
    refine .inr ⟨by simp, .system code, ?_⟩
    simp only [queryUser, query, statement, hf]
    rfl

theorem verifiedUser_cases (w : World) :
    (∃ next, Verified env w json next ∧ run (verifiedUser env json) w = (.ok next, w)) ∨
    (∀ next, ¬ Verified env w json next) ∧ ∃ e, run (verifiedUser env json) w = (.error e, w) := by
  rw [verifiedUser, readString_eq]
  cases hid : text json "NextUser" with
  | error what => exact .inr ⟨fun next hv => (by cases hid.symm.trans hv.name), _, rfl⟩
  | ok id =>
    rw [run_read]
    obtain ⟨hanswered, hquery⟩ | ⟨hfails, e, he⟩ := queryUser_cases env id w
    · rw [run_bind_ok _ _ _ _ _ hquery]
      cases hfound : onlyRow ((w.users.filter (·.user = id)).map some) none with
      | none =>
        refine .inr ⟨fun next hv => ?_, _, rfl⟩
        obtain rfl : id = next.user := Except.ok.inj (hid.symm.trans hv.name)
        rw [hv.only] at hfound
        cases hfound
      | some next =>
        have honly := onlyRow_some _ _ hfound
        have hmem : next ∈ w.users.filter (·.user = id) := honly ▸ List.mem_singleton_self next
        obtain rfl : next.user = id := by simpa using (List.mem_filter.mp hmem).2
        dsimp only
        obtain ⟨hname, hpassword, hagree⟩ | ⟨hnot, hrefused⟩ := run_bothAgree_cases json "NextUser" next.user
          "NextPassword" next.password w
        · rw [run_bind_ok _ _ _ _ _ hagree]
          exact .inl ⟨next, ⟨hname, hpassword, hanswered, honly⟩, rfl⟩
        · refine .inr ⟨fun other hv => ?_, ?_⟩
          · have hother : next.user = other.user := Except.ok.inj (hid.symm.trans hv.name)
            obtain rfl : next = other := by simpa [← hother, honly] using hv.only
            exact hnot ⟨hv.name, hv.nextPassword⟩
          · obtain hfalse | ⟨e, he⟩ := hrefused
            · rw [run_bind_ok _ _ _ _ _ hfalse]
              exact ⟨_, rfl⟩
            · rw [run_bind_error _ _ _ _ _ he]
              exact ⟨e, rfl⟩
    · rw [run_bind_error _ _ _ _ _ he]
      refine .inr ⟨fun next hv => ?_, e, rfl⟩
      obtain rfl : id = next.user := Except.ok.inj (hid.symm.trans hv.name)
      exact hfails hv.answered

theorem nextUser_cases (w : World) (h : w.sessions.lookup hdl = some before) :
    (∃ next, Chosen env w json before.user next ∧ run (nextUser env hdl json) w = (.ok next, w)) ∨
    (∀ next, ¬ Chosen env w json before.user next) ∧ ∃ e, run (nextUser env hdl json) w = (.error e, w) := by
  rw [nextUser, run_bind_ok _ _ _ _ _ (run_findUser hdl w before h), readMember]
  cases hm : json.member "NextUser" with
  | error what =>
    refine .inr ⟨fun next hc => ?_, _, rfl⟩
    have hname := hc.name
    rw [text, hm] at hname
    cases hname
  | ok v =>
    rw [run_read]
    obtain ⟨hcurrent, hpassword, hagree⟩ | ⟨hnot, hrefused⟩ := run_bothAgree_cases json "CurrentUser" before.user.user
      "CurrentPassword" before.user.password w
    · rw [run_bind_ok _ _ _ _ _ hagree, if_pos rfl]
      obtain ⟨next, hv, hrun⟩ | ⟨hnone, e, he⟩ := verifiedUser_cases env json w
      · exact .inl ⟨next, ⟨hv, hcurrent, hpassword⟩, hrun⟩
      · exact .inr ⟨fun next hc => hnone next hc.toVerified, e, he⟩
    · refine .inr ⟨fun next hc => hnot ⟨hc.current, hc.password⟩, ?_⟩
      obtain hfalse | ⟨e, he⟩ := hrefused
      · rw [run_bind_ok _ _ _ _ _ hfalse]
        exact ⟨_, rfl⟩
      · rw [run_bind_error _ _ _ _ _ he]
        exact ⟨e, rfl⟩

theorem run_insertShiftLog (user : User) (next : String) (w : World) (hcurrent : text json "CurrentUser" = .ok user.user)
    (hnext : text json "NextUser" = .ok next) :
    (Logged env user ∧ run (insertShiftLog env json) w = (.ok (), { w with ids := w.ids + 1 })) ∨
    ¬ Logged env user ∧ ∃ e, run (insertShiftLog env json) w = (.error e, { w with ids := w.ids + 1 }) := by
  have hrun : run (insertShiftLog env json) w =
      run (statement env ⟨.insert, .dutyInfo, user.user⟩) { w with ids := w.ids + 1 } := by
    rw [insertShiftLog, readString_eq, readString_eq, hcurrent, hnext]
    rfl
  rw [hrun, statement, Logged]
  cases env.fails ⟨.insert, .dutyInfo, user.user⟩ with
  | none => exact .inl ⟨rfl, rfl⟩
  | some code => exact .inr ⟨by simp, .system code, rfl⟩

/-- The exception of a handler becomes a response that reports an error. -/
theorem run_shiftRequest_raised (hcmd : text json "CmdType" = .ok "Shift") (e : Exn) (t : Clocked)
    (h : run (onShift env now hdl json) s = (.error e, t)) :
    ∃ r : Response, r.ok = false ∧ run (shiftRequest env now hdl json) s = (.ok (), answered t r) := by
  refine ⟨errorResponse hdl "Shift" e, by cases e <;> rfl, ?_⟩
  rw [shiftRequest, run_handle, h]
  have hreport : run (reportError hdl json e) t.world = (.ok (), (answered t (errorResponse hdl "Shift" e)).world) := by
    rw [reportError, run_bind_ok _ _ _ _ _ (run_readCmdType_text json "Shift" hcmd (by decide) t.world)]
    rfl
  change ((run (reportError hdl json e) t.world).1, _) = _
  rw [hreport]
  rfl

/-- A request that is not accepted changes nothing; one that is puts a new
session in the place of the old one, whether or not it can then be logged. -/
theorem shiftRequest_cases (hcmd : text json "CmdType" = .ok "Shift") (h : s.world.sessions.lookup hdl = some before) :
    ((∀ next ip, ¬ Accepted env s.world hdl json before.user next ip) ∧
      ∃ r : Response, r.ok = false ∧ run (shiftRequest env now hdl json) s = (.ok (), answered s r)) ∨
    ∃ next ip, Accepted env s.world hdl json before.user next ip ∧ ∃ r : Response,
      r.ok = decide (Logged env before.user) ∧
      run (shiftRequest env now hdl json) s = (.ok (), replaced s hdl next ip now r) := by
  obtain ⟨next, hc, hnext⟩ | ⟨hnone, e, he⟩ := nextUser_cases env hdl json before s.world h
  · have hchosen : run (onWorld (nextUser env hdl json)) s = (.ok next, s) := by
      rw [run, onWorld, hnext]
    cases hip : env.remoteIp hdl with
    | error what =>
      have hshift : run (onShift env now hdl json) s = (.error (.other what), s) := by
        rw [onShift, run_bind_ok _ _ _ _ _ hchosen, addConnectionUser, Requests.addConnectionUser, hip]
        rfl
      refine .inl ⟨fun other ip ha => ?_, run_shiftRequest_raised env now hdl json s hcmd _ s hshift⟩
      rw [ha.peer] at hip
      cases hip
    | ok ip =>
      refine .inr ⟨next, ip, ⟨hc, hip⟩, ?_⟩
      let u : Clocked :=
        { world := { s.world with
            sessions := (hdl, { user := next, ip }) :: s.world.sessions.filter (·.1 ≠ hdl) }
          heartTimes := Function.update s.heartTimes hdl now }
      have hadd : run (addConnectionUser env now hdl next) s = (.ok (), u) := by
        rw [addConnectionUser, Requests.addConnectionUser, hip]
        rfl
      obtain ⟨hlog, hinsert⟩ | ⟨hlog, e, he⟩ := run_insertShiftLog env json before.user next.user u.world hc.current
        hc.name
      · have hlogged : run (onWorld (insertShiftLog env json)) u =
            (.ok (), { u with world := { u.world with ids := u.world.ids + 1 } }) := by
          rw [run, onWorld, hinsert]
        refine ⟨{ handle := hdl, cmdType := "ShiftResponse", ok := true, body := userJson next },
          (decide_eq_true hlog).symm, ?_⟩
        have hshift := run_bind_ok _ (fun next => do
          addConnectionUser env now hdl next
          onWorld (insertShiftLog env json)
          onWorld (respond hdl "ShiftResponse" (userJson next))) _ _ _ hchosen
        rw [run_bind_ok _ _ _ _ _ hadd, run_bind_ok _ _ _ _ _ hlogged] at hshift
        rw [shiftRequest, run_handle, onShift, hshift]
        rfl
      · have hraised : run (onWorld (insertShiftLog env json)) u =
            (.error e, { u with world := { u.world with ids := u.world.ids + 1 } }) := by
          rw [run, onWorld, he]
        have hshift : run (onShift env now hdl json) s =
            (.error e, { u with world := { u.world with ids := u.world.ids + 1 } }) := by
          rw [onShift, run_bind_ok _ _ _ _ _ hchosen, run_bind_ok _ _ _ _ _ hadd, run_bind_error _ _ _ _ _ hraised]
        obtain ⟨r, hr, hrun⟩ := run_shiftRequest_raised env now hdl json s hcmd e _ hshift
        refine ⟨r, hr.trans (decide_eq_false hlog).symm, hrun⟩
  · have hshift : run (onShift env now hdl json) s = (.error e, s) := by
      have hraised : run (onWorld (nextUser env hdl json)) s = (.error e, s) := by
        rw [run, onWorld, he]
      rw [onShift, run_bind_error _ _ _ _ _ hraised]
    exact .inl ⟨fun next ip ha => hnone next ha.toChosen, run_shiftRequest_raised env now hdl json s hcmd e s hshift⟩

/-- With OK the session has the next user and is otherwise as before, with an
error it is as before. -/
structure ShiftsOnly : Prop where
  ok : ∀ r, (run (shiftRequest env now hdl json) s).2.world.responses = s.world.responses ++ [r] → r.ok = true →
    ∃ next ∈ s.world.users, text json "NextUser" = .ok next.user ∧
      (run (shiftRequest env now hdl json) s).2.world.sessions.lookup hdl = some { before with user := next }
  error : ∀ r, (run (shiftRequest env now hdl json) s).2.world.responses = s.world.responses ++ [r] → r.ok = false →
    (run (shiftRequest env now hdl json) s).2.world.sessions.lookup hdl = some before ∧
      (run (shiftRequest env now hdl json) s).2.heartTimes hdl = s.heartTimes hdl

/-- If the request is accepted, no device is bound, the address is still the
same, and the shift can be logged unless it leads from a user to himself within
the second of the last heartbeat. -/
def Unbound : Prop := ∀ next ip, Accepted env s.world hdl json before.user next ip →
  before.bindIn = "" ∧ before.bindOut = "" ∧ before.ip = ip ∧
    (Logged env before.user ∨ next = before.user ∧ s.heartTimes hdl = now)

theorem lookup_replaced (next : User) (ip : String) (r : Response) :
    (replaced s hdl next ip now r).world.sessions.lookup hdl = some { user := next, ip } := List.lookup_cons_self

theorem verified_mem (w : World) (next : User) (h : Verified env w json next) : next ∈ w.users :=
  (List.mem_filter.mp (h.only ▸ List.mem_singleton_self next)).1

end Shift

/-- A shift changes the operator and nothing else exactly if it has nothing else to lose. -/
theorem shiftsOnly_iff (env : Env) (now : ℤ) (hdl : Handle) (json : Json.Value) (s : Clocked) (before : Session)
    (hcmd : text json "CmdType" = .ok "Shift") (h : s.world.sessions.lookup hdl = some before) :
    ShiftsOnly env now hdl json s before ↔ Unbound env now hdl json s before := by
  obtain ⟨hnone, r, hr, hrun⟩ | ⟨next, ip, ha, r, hr, hrun⟩ := shiftRequest_cases env now hdl json s before hcmd h
  · refine iff_of_true ⟨fun r' hr' hok => ?_, fun r' _ _ => ?_⟩ fun next ip ha => absurd ha (hnone next ip)
    · rw [hrun] at hr'
      have heq : r = r' := by simpa [answered] using hr'
      rw [← heq, hr] at hok
      cases hok
    · rw [hrun]
      exact ⟨h, rfl⟩
  · have honly : ∀ r', (run (shiftRequest env now hdl json) s).2.world.responses = s.world.responses ++ [r'] →
        r' = r := by
      intro r' hr'
      rw [hrun] at hr'
      simpa [replaced, eq_comm] using hr'
    have hlookup : (run (shiftRequest env now hdl json) s).2.world.sessions.lookup hdl = some { user := next, ip } := by
      rw [hrun]
      exact lookup_replaced now hdl s next ip r
    have hresponse : (run (shiftRequest env now hdl json) s).2.world.responses = s.world.responses ++ [r] := by
      rw [hrun]
      rfl
    have htime : (run (shiftRequest env now hdl json) s).2.heartTimes hdl = now := by
      rw [hrun]
      exact Function.update_self hdl now s.heartTimes
    obtain ⟨user, oldIp, bindIn, bindOut⟩ := before
    constructor
    · intro hs other otherIp hother
      obtain rfl : otherIp = ip := Except.ok.inj (hother.peer.symm.trans ha.peer)
      by_cases hlog : Logged env user
      · obtain ⟨new, -, -, hnew⟩ := hs.ok r hresponse (hr.trans (decide_eq_true hlog))
        rw [hlookup, Option.some.injEq, Session.mk.injEq] at hnew
        exact ⟨hnew.2.2.1.symm, hnew.2.2.2.symm, hnew.2.1.symm, .inl hlog⟩
      · obtain ⟨hold, hheart⟩ := hs.error r hresponse (hr.trans (decide_eq_false hlog))
        rw [hlookup, Option.some.injEq, Session.mk.injEq] at hold
        have hname : other.user = next.user := Except.ok.inj (hother.name.symm.trans ha.name)
        obtain rfl : next = other := by simpa [← hname, hother.only] using ha.only.symm
        exact ⟨hold.2.2.1.symm, hold.2.2.2.symm, hold.2.1.symm, .inr ⟨hold.1, hheart.symm.trans htime⟩⟩
    · intro hu
      obtain ⟨hin, hout, hip, hlog⟩ := hu next ip ha
      dsimp only at hin hout hip hlog
      subst hin hout hip
      refine ⟨fun r' hr' hok => ?_, fun r' hr' hok => ?_⟩
      · exact ⟨next, verified_mem env json s.world next ha.toVerified, ha.name, hlookup⟩
      · rw [honly r' hr', hr, decide_eq_false_iff_not] at hok
        obtain ⟨rfl, hheart⟩ := hlog.resolve_left hok
        exact ⟨hlookup, htime.trans hheart.symm⟩

def cashier : User := { user := "a", password := "1" }

def relief : User := { user := "b", password := "2" }

/-- The cashier at the exit hands over. -/
def handOver : Json.Value := .object [("CmdType", .string "Shift"), ("CurrentUser", .string "a"),
  ("CurrentPassword", .string "1"), ("NextUser", .string "b"), ("NextPassword", .string "2")]

def atDesk (session : Session) : Clocked := { world := { users := [cashier, relief], sessions := [(1, session)] } }

/-- Nothing is bound yet. -/
theorem shiftsOnly_unbound : ShiftsOnly quietEnv 60 1 handOver (atDesk { user := cashier }) { user := cashier } :=
  (shiftsOnly_iff quietEnv 60 1 handOver _ _ rfl rfl).mpr fun _ _ ha =>
    ⟨rfl, rfl, Except.ok.inj ha.peer, .inl rfl⟩

def noDutyLog : Env := { quietEnv with fails := fun st => if st.table = .dutyInfo then some .sqlExecuteException else none }

/-- The exit is no longer bound after the shift, and the next user has the
session although the shift was refused because it could not be logged. -/
theorem shift_unbinds :
    ((run (shiftRequest quietEnv 60 1 handOver) (atDesk { user := cashier, bindOut := "exit" })).2.world.sessions =
        [(1, { user := relief })] ∧
      ¬ ShiftsOnly quietEnv 60 1 handOver (atDesk { user := cashier, bindOut := "exit" })
        { user := cashier, bindOut := "exit" }) ∧
    ((run (shiftRequest noDutyLog 60 1 handOver) (atDesk { user := cashier })).2.world.responses.map (·.ok) = [false] ∧
      (run (shiftRequest noDutyLog 60 1 handOver) (atDesk { user := cashier })).2.world.sessions =
        [(1, { user := relief })] ∧
      ¬ ShiftsOnly noDutyLog 60 1 handOver (atDesk { user := cashier }) { user := cashier }) := by
  refine ⟨⟨by decide, fun h => ?_⟩, by decide, by decide, fun h => ?_⟩
  · obtain ⟨next, -, -, hlookup⟩ := h.ok _ rfl rfl
    have hbind : ((run (shiftRequest quietEnv 60 1 handOver)
        (atDesk { user := cashier, bindOut := "exit" })).2.world.sessions.lookup 1).map (·.bindOut) = some "exit" :=
      congrArg (Option.map (·.bindOut)) hlookup
    exact absurd hbind (by decide)
  · obtain ⟨hlookup, -⟩ := h.error _ rfl rfl
    revert hlookup
    decide

end BitPark.Shift
