import BitPark.Requests

namespace BitPark.SessionLock

open BitPark.Effect BitPark.Server BitPark.Requests

/-! The methods of `UserTerminalServer` with the mutex they take. The mutex is
not recursive: a thread that takes it twice blocks for good. -/

inductive Stop where
  | exception (what : String)
  | deadlock
deriving DecidableEq

/-- A session with the time of its last heartbeat. -/
structure Live where
  session : Session
  heartTime : ℤ

structure Terminal where
  connections : List (Handle × Live) := []
  held : Bool := false

abbrev Task (α : Type) : Type := Program Terminal Stop α

/-- What the endpoint answers: whether it still has a connection, the address
of its peer, and whether sending to it throws. -/
structure Endpoint where
  connection : Handle → Except String Unit
  remoteIp : Handle → Except String String
  unreachable : Handle → Bool

def call {α : Type} : Except String α → Task α
  | .ok a => pure a
  | .error what => raise (.exception what)

/-- A block under a `scoped_lock`, which is released on every way out. -/
def underLock {α : Type} (p : Task α) : Task α := fun s =>
  if s.held then (.error .deadlock, s)
  else match run p { s with held := true } with
    | (.error .deadlock, t) => (.error .deadlock, t)
    | (r, t) => (r, { t with held := false })

/-- A `catch` of `std::exception`. -/
def catching {α : Type} (p : Task α) (h : String → Task α) : Task α :=
  handle p fun e => match e with
    | .exception what => h what
    | .deadlock => raise .deadlock

def getClientAddress (hdl : Handle) : Task String := underLock do
  let s ← state
  pure ((s.connections.lookup hdl).elim "" (·.session.ip))

def findUser (hdl : Handle) : Task User := underLock do
  let s ← state
  match s.connections.lookup hdl with
  | some live => pure live.session.user
  | none => raise (.exception "Do Not Find User")

def erased (hdl : Handle) (s : Terminal) : Terminal :=
  { s with connections := s.connections.filter (·.1 ≠ hdl) }

def eraseConnection (hdl : Handle) : Task Unit := underLock (update (erased hdl))

/-- The endpoint's own `close` reports its errors in a code that is only logged. -/
def closeConnection (hdl : Handle) : Task Unit := eraseConnection hdl

def addConnectionUser (net : Endpoint) (hdl : Handle) (user : User) (now : ℤ) : Task Unit := do
  call (net.connection hdl)
  let ip ← call (net.remoteIp hdl)
  underLock (update fun s => { s with
    connections := (hdl, ⟨{ user, ip }, now⟩) :: (erased hdl s).connections })

def bindDevice (hdl : Handle) (direction : ℤ) (deviceId : String) : Task Unit :=
  update fun s => { s with connections := s.connections.map fun c =>
    if c.1 = hdl then (c.1, { c.2 with session := Session.bindDevice c.2.session direction deviceId }) else c }

def onClose (net : Endpoint) (hdl : Handle) : Task Unit := do
  call (net.connection hdl)
  eraseConnection hdl

def onPing (hdl : Handle) (now : ℤ) : Task Bool := underLock do
  let s ← state
  update fun s => { s with connections := s.connections.map fun c =>
    if c.1 = hdl then (c.1, { c.2 with heartTime := now }) else c }
  pure (s.connections.lookup hdl).isSome

/-- The clients a notice goes to, one after the other. -/
def notify (net : Endpoint) (receives : Session → Bool) : Task Unit :=
  catching (underLock do
    let s ← state
    forEach (s.connections.filter fun c => receives c.2.session) fun c =>
      if net.unreachable c.1 then raise (.exception "invalid state") else pure ()) fun _ => pure ()

def overTime (now : Handle → ℤ) (c : Handle × Live) : Bool := now c.1 - c.2.heartTime > 60

def expire (now : Handle → ℤ) (c : Handle × Live) : Task Unit :=
  if overTime now c then do
    let _ ← getClientAddress c.1
    update (erased c.1)
  else pure ()

def checkTimer (now : Handle → ℤ) : Task Unit := underLock do
  let s ← state
  forEach s.connections (expire now)

def destroy : Task Unit := underLock do
  let s ← state
  forEach s.connections fun c => closeConnection c.1

/-- What the handler of a message asks of the server. -/
inductive Call where
  | getClientAddress (hdl : Handle)
  | findUser (hdl : Handle)
  | addConnectionUser (hdl : Handle) (user : User) (now : ℤ)
  | closeConnection (hdl : Handle)
  | eraseConnection (hdl : Handle)
  | bindDevice (hdl : Handle) (direction : ℤ) (deviceId : String)

inductive Operation where
  | message (calls : List Call)
  | close (hdl : Handle)
  | ping (hdl : Handle) (now : ℤ)
  | notify (receives : Session → Bool)
  | timer (now : Handle → ℤ)
  | destroy

def serveCall (net : Endpoint) : Call → Task Unit
  | .getClientAddress hdl => do let _ ← getClientAddress hdl
  | .findUser hdl => do let _ ← findUser hdl
  | .addConnectionUser hdl user now => addConnectionUser net hdl user now
  | .closeConnection hdl => closeConnection hdl
  | .eraseConnection hdl => eraseConnection hdl
  | .bindDevice hdl direction deviceId => bindDevice hdl direction deviceId

def perform (net : Endpoint) : Operation → Task Unit
  | .message calls => forEach calls fun c => catching (serveCall net c) fun _ => pure ()
  | .close hdl => onClose net hdl
  | .ping hdl now => do let _ ← onPing hdl now
  | .notify receives => notify net receives
  | .timer now => checkTimer now
  | .destroy => destroy

/-- The task neither blocks nor takes the mutex, whoever holds it. -/
def Lockless {α : Type} (p : Task α) : Prop :=
  ∀ s, (run p s).1 ≠ .error .deadlock ∧ (run p s).2.held = s.held

/-- With the mutex free, the task does not block, and it is free again afterwards. -/
def Returning {α : Type} (p : Task α) : Prop :=
  ∀ s, s.held = false → (run p s).1 ≠ .error .deadlock ∧ (run p s).2.held = false

section Rules

variable {α β : Type}

theorem returning_of_lockless {p : Task α} (hp : Lockless p) : Returning p := by
  intro s hs
  obtain ⟨h1, h2⟩ := hp s
  exact ⟨h1, h2.trans hs⟩

theorem lockless_pure (a : α) : Lockless (pure a) := fun _ => ⟨by simp, rfl⟩

theorem lockless_exception (what : String) : Lockless (raise (.exception what) : Task α) :=
  fun _ => ⟨by simp, rfl⟩

theorem lockless_state : Lockless state := fun _ => ⟨by simp, rfl⟩

theorem lockless_update (f : Terminal → Terminal) (h : ∀ s, (f s).held = s.held) : Lockless (update f) :=
  fun s => ⟨by simp, h s⟩

theorem lockless_call (x : Except String α) : Lockless (call x) := by
  cases x with
  | ok a => exact lockless_pure a
  | error what => exact lockless_exception what

theorem lockless_bind {p : Task α} {q : α → Task β} (hp : Lockless p) (hq : ∀ a, Lockless (q a)) :
    Lockless (p >>= q) := by
  intro s
  obtain ⟨h1, h2⟩ := hp s
  rw [run_bind]
  match hr : run p s with
  | (.ok a, t) =>
    rw [hr] at h2
    obtain ⟨h3, h4⟩ := hq a t
    exact ⟨h3, h4.trans h2⟩
  | (.error e, t) =>
    rw [hr] at h1 h2
    exact ⟨by simpa using h1, h2⟩

theorem lockless_forEach (xs : List α) (p : α → Task Unit) (hp : ∀ x, Lockless (p x)) :
    Lockless (forEach xs p) := by
  induction xs with
  | nil => exact lockless_pure ()
  | cons x xs ih => exact lockless_bind (hp x) fun _ => ih

theorem returning_bind {p : Task α} {q : α → Task β} (hp : Returning p) (hq : ∀ a, Returning (q a)) :
    Returning (p >>= q) := by
  intro s hs
  obtain ⟨h1, h2⟩ := hp s hs
  rw [run_bind]
  match hr : run p s with
  | (.ok a, t) =>
    rw [hr] at h2
    exact hq a t h2
  | (.error e, t) =>
    rw [hr] at h1 h2
    exact ⟨by simpa using h1, h2⟩

theorem returning_forEach (xs : List α) (p : α → Task Unit) (hp : ∀ x, Returning (p x)) :
    Returning (forEach xs p) := by
  induction xs with
  | nil => exact returning_of_lockless (lockless_pure ())
  | cons x xs ih => exact returning_bind (hp x) fun _ => ih

theorem returning_catching {p : Task α} {h : String → Task α} (hp : Returning p) (hh : ∀ e, Returning (h e)) :
    Returning (catching p h) := by
  intro s hs
  obtain ⟨h1, h2⟩ := hp s hs
  rw [catching, run_handle]
  match hr : run p s with
  | (.ok a, t) =>
    rw [hr] at h2
    exact ⟨by simp, h2⟩
  | (.error (.exception what), t) =>
    rw [hr] at h2
    exact hh what t h2
  | (.error .deadlock, t) =>
    rw [hr] at h1
    exact absurd rfl h1

theorem underLock_held (p : Task α) (s : Terminal) (hs : s.held = true) :
    run (underLock p) s = (.error .deadlock, s) := if_pos hs

theorem underLock_free (p : Task α) (s : Terminal) (hs : s.held = false) :
    run (underLock p) s = match run p { s with held := true } with
      | (.error .deadlock, t) => (.error .deadlock, t)
      | (r, t) => (r, { t with held := false }) := if_neg (by simp [hs])

/-- A block that does not itself take the mutex may run under it. -/
theorem returning_underLock {p : Task α} (hp : Lockless p) : Returning (underLock p) := by
  intro s hs
  obtain ⟨h1, h2⟩ := hp { s with held := true }
  rw [underLock_free p s hs]
  match hr : run p { s with held := true } with
  | (.ok a, t) => exact ⟨by simp, rfl⟩
  | (.error (.exception what), t) => exact ⟨by simp, rfl⟩
  | (.error .deadlock, t) =>
    rw [hr] at h1
    exact absurd rfl h1

end Rules

section Methods

variable (net : Endpoint) (hdl : Handle)

theorem returning_getClientAddress : Returning (getClientAddress hdl) :=
  returning_underLock (lockless_bind lockless_state fun _ => lockless_pure _)

theorem returning_findUser : Returning (findUser hdl) := by
  apply returning_underLock
  apply lockless_bind lockless_state
  intro s
  cases s.connections.lookup hdl with
  | some live => exact lockless_pure _
  | none => exact lockless_exception _

theorem returning_eraseConnection : Returning (eraseConnection hdl) :=
  returning_underLock (lockless_update _ fun _ => rfl)

theorem returning_addConnectionUser (user : User) (now : ℤ) : Returning (addConnectionUser net hdl user now) := by
  apply returning_bind (returning_of_lockless (lockless_call _))
  intro _
  apply returning_bind (returning_of_lockless (lockless_call _))
  intro ip
  exact returning_underLock (lockless_update _ fun _ => rfl)

theorem returning_onPing (now : ℤ) : Returning (onPing hdl now) := by
  apply returning_underLock
  apply lockless_bind lockless_state
  intro s
  exact lockless_bind (lockless_update _ fun _ => rfl) fun _ => lockless_pure _

theorem returning_notify (receives : Session → Bool) : Returning (notify net receives) := by
  apply returning_catching
  · apply returning_underLock
    apply lockless_bind lockless_state
    intro s
    apply lockless_forEach
    intro c
    split_ifs
    · exact lockless_exception _
    · exact lockless_pure _
  · exact fun _ => returning_of_lockless (lockless_pure ())

theorem returning_serveCall (c : Call) : Returning (serveCall net c) := by
  cases c with
  | getClientAddress hdl =>
    exact returning_bind (returning_getClientAddress hdl) fun _ => returning_of_lockless (lockless_pure _)
  | findUser hdl => exact returning_bind (returning_findUser hdl) fun _ => returning_of_lockless (lockless_pure _)
  | addConnectionUser hdl user now => exact returning_addConnectionUser net hdl user now
  | closeConnection hdl => exact returning_eraseConnection hdl
  | eraseConnection hdl => exact returning_eraseConnection hdl
  | bindDevice hdl direction deviceId => exact returning_of_lockless (lockless_update _ fun _ => rfl)

end Methods

/-! The lock aside, the methods do to the sessions what the handlers of the
requests rely on. -/

def sessions (s : Terminal) : List (Handle × Session) := s.connections.map fun c => (c.1, c.2.session)

/-- From the same sessions, the task and the program come to the same result and the same sessions. -/
def Refines {α : Type} (p : Task α) (q : Proc α) : Prop := ∀ s w, s.held = false → w.sessions = sessions s →
  (run p s).1.toOption = (run q w).1.toOption ∧ (run q w).2.sessions = sessions (run p s).2

theorem lookup_sessions (s : Terminal) (hdl : Handle) :
    (sessions s).lookup hdl = (s.connections.lookup hdl).map (·.session) := by
  simp only [sessions]
  induction s.connections with
  | nil => rfl
  | cons c cs ih =>
    obtain ⟨key, live⟩ := c
    by_cases hc : hdl = key
    · simp [hc]
    · have hne : (hdl == key) = false := by simpa using hc
      simp [List.lookup_cons, hne, ih]

theorem findUser_refines (hdl : Handle) : Refines (findUser hdl) (Requests.findUser hdl) := by
  intro s w hs hw
  have hl := lookup_sessions s hdl
  rw [← hw] at hl
  have hstate : run (state : Task Terminal) { s with held := true } = (.ok { s with held := true }, { s with held := true }) :=
    rfl
  rw [findUser, underLock_free _ s hs, run_bind_ok _ _ _ _ _ hstate, Requests.findUser, run_bind_ok state _ w w w rfl, hl]
  cases s.connections.lookup hdl with
  | none => exact ⟨rfl, hw⟩
  | some live => exact ⟨rfl, hw⟩

theorem getClientAddress_refines (hdl : Handle) :
    Refines (getClientAddress hdl) (Requests.getClientAddress hdl) := by
  intro s w hs hw
  have hl := lookup_sessions s hdl
  rw [← hw] at hl
  have haddress : run (Requests.getClientAddress hdl) w = (.ok ((w.sessions.lookup hdl).elim "" (·.ip)), w) := rfl
  rw [getClientAddress, underLock_free _ s hs, haddress, hl]
  refine ⟨?_, hw⟩
  cases hc : s.connections.lookup hdl with
  | none => simp [run_bind, hc, Except.toOption]
  | some live => simp [run_bind, hc, Except.toOption]

theorem eraseConnection_refines (hdl : Handle) : Refines (eraseConnection hdl) (Requests.eraseConnection hdl) := by
  intro s w hs hw
  rw [eraseConnection, underLock_free _ s hs]
  refine ⟨rfl, ?_⟩
  show w.sessions.filter (·.1 ≠ hdl) = sessions { erased hdl s with held := false }
  rw [hw]
  simp only [sessions, erased, List.filter_map]
  rfl

theorem addConnectionUser_refines (net : Endpoint) (env : Env) (hdl : Handle) (user : User) (now : ℤ)
    (ip : String) (hc : net.connection hdl = .ok ()) (hi : net.remoteIp hdl = .ok ip)
    (he : env.remoteIp hdl = .ok ip) :
    Refines (addConnectionUser net hdl user now) (Requests.addConnectionUser env hdl user) := by
  intro s w hs hw
  have hrun : run (addConnectionUser net hdl user now) s = (.ok (), { s with
      connections := (hdl, ⟨{ user, ip }, now⟩) :: (erased hdl s).connections, held := false }) := by
    simp only [addConnectionUser, hc, hi, call]
    exact underLock_free _ s hs
  have hadd : run (Requests.addConnectionUser env hdl user) w = (.ok (), { w with
      sessions := (hdl, { user, ip }) :: w.sessions.filter (·.1 ≠ hdl) }) := by
    simp only [Requests.addConnectionUser, he]
    rfl
  rw [hrun, hadd]
  refine ⟨rfl, ?_⟩
  simp only [hw, sessions, erased, List.filter_map, List.map_cons]
  rfl

theorem bindDevice_refines (hdl : Handle) (direction : ℤ) (deviceId : String) :
    Refines (bindDevice hdl direction deviceId) (Requests.bindDevice hdl direction deviceId) := by
  intro s w hs hw
  refine ⟨rfl, ?_⟩
  show (w.sessions.map fun c => if c.1 = hdl then (c.1, Session.bindDevice c.2 direction deviceId) else c) =
    sessions { s with connections := s.connections.map fun c =>
      if c.1 = hdl then (c.1, { c.2 with session := Session.bindDevice c.2.session direction deviceId }) else c }
  rw [hw]
  simp only [sessions, List.map_map]
  apply List.map_congr_left
  intro c _
  by_cases hc : c.1 = hdl <;> simp [hc]

/-- The timer blocks at the first connection that is over time. -/
theorem run_expire (now : Handle → ℤ) (cs : List (Handle × Live)) (s : Terminal) (hs : s.held = true) :
    run (forEach cs (expire now)) s =
      if cs.any (overTime now) then (.error .deadlock, s) else (.ok (), s) := by
  induction cs with
  | nil => rfl
  | cons c cs ih =>
    by_cases hc : overTime now c = true
    · have hrun : run (expire now c) s = (.error .deadlock, s) := by
        rw [expire, if_pos hc]
        exact run_bind_error _ _ _ _ _ (underLock_held _ s hs)
      rw [forEach, run_bind_error _ _ _ _ _ hrun]
      simp [hc]
    · have hrun : run (expire now c) s = (.ok (), s) := by
        rw [expire, if_neg hc]
        rfl
      rw [forEach, run_bind_ok _ _ _ _ _ hrun, ih, List.any_cons, Bool.eq_false_iff.mpr hc, Bool.false_or]

theorem run_checkTimer (now : Handle → ℤ) (s : Terminal) (hs : s.held = false) :
    run (checkTimer now) s =
      if s.connections.any (overTime now) then (.error .deadlock, { s with held := true }) else (.ok (), s) := by
  have hbody : run (state >>= fun s => forEach s.connections (expire now)) { s with held := true } =
      if s.connections.any (overTime now) then (.error .deadlock, { s with held := true })
      else (.ok (), { s with held := true }) := run_expire now s.connections { s with held := true } rfl
  rw [checkTimer, underLock_free _ s hs, hbody]
  by_cases hc : s.connections.any (overTime now) = true
  · rw [if_pos hc, if_pos hc]
  · rw [if_neg hc, if_neg hc]
    simp [← hs]

theorem run_destroy (s : Terminal) (hs : s.held = false) :
    run destroy s =
      if s.connections = [] then (.ok (), s) else (.error .deadlock, { s with held := true }) := by
  have hbody : run (state >>= fun s => forEach s.connections fun c => closeConnection c.1) { s with held := true } =
      run (forEach s.connections fun c => closeConnection c.1) { s with held := true } := rfl
  rw [destroy, underLock_free _ s hs, hbody]
  cases hc : s.connections with
  | nil =>
    rw [if_pos rfl]
    simp [forEach, ← hs, ← hc]
  | cons c cs =>
    have hfirst : run (closeConnection c.1) { connections := c :: cs, held := true } =
      (.error .deadlock, { connections := c :: cs, held := true }) :=
      underLock_held (update (erased c.1)) { connections := c :: cs, held := true } rfl
    rw [forEach, run_bind_error _ _ _ _ _ hfirst]
    simp

/-- The operation comes to its end with the mutex free, and a timer leaves
exactly the sessions that are not over time. -/
def Completes (net : Endpoint) (op : Operation) (s : Terminal) : Prop :=
  (run (perform net op) s).1 ≠ .error .deadlock ∧ (run (perform net op) s).2.held = false ∧
    ∀ now, op = .timer now → (run (perform net op) s).1 = .ok () ∧
      (run (perform net op) s).2.connections = s.connections.filter (!overTime now ·)

/-- A timer that finds a client over time, and a shutdown with clients connected. -/
def TakesTwice : Operation → Terminal → Prop
  | .timer now, s => ∃ c ∈ s.connections, now c.1 - c.2.heartTime > 60
  | .destroy, s => s.connections ≠ []
  | _, _ => False

theorem completes_of_returning (net : Endpoint) (op : Operation) (s : Terminal) (hs : s.held = false)
    (hop : ∀ now, op ≠ .timer now) (h : Returning (perform net op)) : Completes net op s := by
  obtain ⟨h1, h2⟩ := h s hs
  exact ⟨h1, h2, fun now hnow => absurd hnow (hop now)⟩

theorem operation_completes_iff (net : Endpoint) (op : Operation) (s : Terminal) (hs : s.held = false) :
    Completes net op s ↔ ¬ TakesTwice op s := by
  cases op with
  | message calls =>
    refine iff_of_true (completes_of_returning net _ s hs (by simp) ?_) id
    apply returning_forEach
    intro c
    exact returning_catching (returning_serveCall net c) fun _ => returning_of_lockless (lockless_pure ())
  | close hdl =>
    refine iff_of_true (completes_of_returning net _ s hs (by simp) ?_) id
    exact returning_bind (returning_of_lockless (lockless_call _)) fun _ => returning_eraseConnection hdl
  | ping hdl now =>
    refine iff_of_true (completes_of_returning net _ s hs (by simp) ?_) id
    exact returning_bind (returning_onPing hdl now) fun _ => returning_of_lockless (lockless_pure _)
  | notify receives =>
    exact iff_of_true (completes_of_returning net _ s hs (by simp) (returning_notify net receives)) id
  | timer now =>
    have hrun : run (perform net (.timer now)) s = _ := run_checkTimer now s hs
    have hany : s.connections.any (overTime now) = true ↔ TakesTwice (.timer now) s := by
      simp [TakesTwice, overTime]
    by_cases hc : s.connections.any (overTime now) = true
    · rw [if_pos hc] at hrun
      refine iff_of_false (fun h => ?_) (not_not.mpr (hany.mp hc))
      exact h.1 (by rw [hrun])
    · rw [if_neg hc] at hrun
      refine iff_of_true ⟨by rw [hrun]; simp, by rw [hrun]; exact hs, ?_⟩ fun h => hc (hany.mpr h)
      rintro now' ⟨⟩
      rw [hrun]
      refine ⟨rfl, (List.filter_eq_self.mpr ?_).symm⟩
      intro c hm
      simpa using fun ho => hc (List.any_eq_true.mpr ⟨c, hm, ho⟩)
  | destroy =>
    have hrun : run (perform net .destroy) s = _ := run_destroy s hs
    by_cases hc : s.connections = []
    · rw [if_pos hc] at hrun
      refine iff_of_true ⟨by rw [hrun]; simp, by rw [hrun]; exact hs, ?_⟩ (not_not.mpr hc)
      intro now hnow
      cases hnow
    · rw [if_neg hc] at hrun
      refine iff_of_false (fun h => ?_) (not_not.mpr hc)
      exact h.1 (by rw [hrun])

/-- One client, whose last heartbeat was a minute ago. -/
def oneClient : Terminal where
  connections := [(1, ⟨{ user := { user := "u", password := "p" } }, 0⟩)]

def network : Endpoint where
  connection _ := .ok ()
  remoteIp _ := .ok "10.0.0.8"
  unreachable _ := false

theorem operation_completes_iff_minute : oneClient.held = false ∧
    (Completes network (.timer fun _ => 60) oneClient ↔ ¬ TakesTwice (.timer fun _ => 60) oneClient) :=
  ⟨rfl, operation_completes_iff network (.timer fun _ => 60) oneClient rfl⟩

/-- A second later the timer takes the mutex it holds, as a shutdown does. -/
theorem second_lock_blocks :
    (run (perform network (.timer fun _ => 61)) oneClient).1 = .error .deadlock ∧
      (run (perform network .destroy) oneClient).1 = .error .deadlock ∧
      ¬ Completes network (.timer fun _ => 61) oneClient := by
  refine ⟨rfl, rfl, fun h => h.1 rfl⟩

end BitPark.SessionLock
