import BitPark.Requests

namespace BitPark.PassNotice

open BitPark.Effect BitPark.Server BitPark.Database BitPark.Release BitPark.Requests

/-! Who is told of a passage. -/

/-- The loop of `notify_pass_vehicle_to_client`: the clients it sends to, and
`has_send` when it ends or when a send throws out of it. -/
def sendLoop (unreachable : Handle → Bool) (deviceId : String) : List (Handle × Session) → List Handle × Bool
  | [] => ([], false)
  | c :: connections =>
    if Session.hasBindDevice c.2 deviceId then
      if unreachable c.1 then ([c.1], false)
      else (c.1 :: (sendLoop unreachable deviceId connections).1, true)
    else sendLoop unreachable deviceId connections

theorem sendLoop_reached (env : Env) (w : World) (deviceId : String) :
    (sendLoop env.unreachable deviceId w.sessions).1.filter (!env.unreachable ·) = reached env w deviceId ∧
    (sendLoop env.unreachable deviceId w.sessions).2 = !(reached env w deviceId).isEmpty := by
  rw [reached]
  induction w.sessions with
  | nil => exact ⟨rfl, rfl⟩
  | cons c connections ih =>
    rw [sendLoop, List.filter_cons]
    split_ifs with hb hu
    · simp [hu]
    · rw [List.map_cons, List.takeWhile_cons_of_pos (by simpa using hu), List.filter_cons_of_pos (by simpa using hu),
        ih.1]
      exact ⟨rfl, rfl⟩
    · exact ih

/-- The result is that of the loop, and the notices are those it sent. -/
theorem run_notifyPassVehicle (env : Env) (notice : ExitNotice) (deviceId : String) (w : World) :
    run (notifyPassVehicle env notice deviceId) w =
      (.ok (sendLoop env.unreachable deviceId w.sessions).2, { w with
        notices := w.notices ++ ((sendLoop env.unreachable deviceId w.sessions).1.filter (!env.unreachable ·)).map
          fun h => (h, notice) }) := by
  obtain ⟨hsent, hresult⟩ := sendLoop_reached env w deviceId
  rw [hsent, hresult]
  rfl

/-! The requests that made a session what it is. -/

/-- A session, with the direction and device of each `BindDevice` since it was made. -/
structure Connection where
  handle : Handle
  user : User
  ip : String
  bindings : List (ℤ × String) := []

def Connection.session (c : Connection) : Session :=
  c.bindings.foldl (fun s b => Session.bindDevice s b.1 b.2) { user := c.user, ip := c.ip }

/-- The device of the last binding of a direction. -/
def Connection.boundTo (c : Connection) (direction : ℤ) : Option String :=
  ((c.bindings.filter (·.1 = direction)).getLast?).map (·.2)

def HasBound (deviceId : String) (c : Connection) : Prop :=
  c.boundTo passIn = some deviceId ∨ c.boundTo passOut = some deviceId

/-- A direction was never bound, and its slot holds the empty text. -/
def Vacant (c : Connection) : Prop := c.boundTo passIn = none ∨ c.boundTo passOut = none

theorem session_slots (c : Connection) :
    c.session.bindIn = (c.boundTo passIn).getD "" ∧ c.session.bindOut = (c.boundTo passOut).getD "" := by
  obtain ⟨handle, user, ip, bindings⟩ := c
  unfold Connection.session Connection.boundTo
  dsimp only
  induction bindings using List.reverseRecOn with
  | nil => exact ⟨rfl, rfl⟩
  | append_singleton bindings b ih =>
    have hdirections : passIn ≠ passOut := by decide
    rw [List.foldl_append, List.foldl_cons, List.foldl_nil, Session.bindDevice, List.filter_append, List.filter_append]
    by_cases hin : b.1 = passIn
    · simp [hin, hdirections, ih.2]
    · by_cases hout : b.1 = passOut
      · simp [hout, hdirections.symm, ih.1]
      · simp [hin, hout, ih.1, ih.2]

theorem eq_getD_iff (slot : Option String) (deviceId : String) :
    slot.getD "" = deviceId ↔ slot = some deviceId ∨ deviceId = "" ∧ slot = none := by
  cases slot with
  | none => simp [eq_comm]
  | some id => simp

/-- Besides the sessions bound to it, the empty device matches those with a slot that was never bound. -/
theorem hasBindDevice_iff (c : Connection) (deviceId : String) :
    Session.hasBindDevice c.session deviceId = true ↔ HasBound deviceId c ∨ deviceId = "" ∧ Vacant c := by
  obtain ⟨hin, hout⟩ := session_slots c
  rw [Session.hasBindDevice, hin, hout, Bool.or_eq_true, decide_eq_true_iff, decide_eq_true_iff, eq_getD_iff,
    eq_getD_iff, HasBound, Vacant]
  tauto

/-- The table of connections, which has one session for each handle. -/
structure Terminals where
  list : List Connection
  keys : (list.map (·.handle)).Nodup

def sessionsOf (connections : List Connection) : List (Handle × Session) :=
  connections.map fun c => (c.handle, c.session)

def Terminals.sessions (t : Terminals) : List (Handle × Session) := sessionsOf t.list

def attempts (env : Env) (deviceId : String) (connections : List Connection) : List Handle :=
  (sendLoop env.unreachable deviceId (sessionsOf connections)).1

/-- Every session that has bound the device is sent to, and no other one is;
the result says whether a send succeeded. -/
structure Notified (env : Env) (t : Terminals) (deviceId : String) : Prop where
  told : ∀ c ∈ t.list, c.handle ∈ attempts env deviceId t.list ↔ HasBound deviceId c
  result : ∀ w notice, w.sessions = t.sessions →
    ((run (notifyPassVehicle env notice deviceId) w).1 = .ok true ↔
      ∃ h ∈ attempts env deviceId t.list, env.unreachable h = false)

/-- One of the sessions is sent to, and the send throws. -/
def Throws (env : Env) (deviceId : String) (connections : List Connection) : Prop :=
  ∃ b ∈ connections, Session.hasBindDevice b.session deviceId = true ∧ env.unreachable b.handle = true

/-- No session that has bound the device comes after a send that throws, and
before such a send the empty device meets no slot that was never bound. -/
structure Undisturbed (env : Env) (t : Terminals) (deviceId : String) : Prop where
  later : ∀ before c after, t.list = before ++ c :: after → Throws env deviceId before → ¬ HasBound deviceId c
  vacant : ∀ before c after, t.list = before ++ c :: after → ¬ Throws env deviceId before → deviceId = "" →
    Vacant c → HasBound deviceId c

section

variable (env : Env) (deviceId : String)

theorem attempts_cons (c : Connection) (connections : List Connection) :
    attempts env deviceId (c :: connections) =
      if Session.hasBindDevice c.session deviceId then
        if env.unreachable c.handle then [c.handle] else c.handle :: attempts env deviceId connections
      else attempts env deviceId connections := by
  rw [attempts, sessionsOf, List.map_cons, sendLoop]
  split_ifs <;> rfl

theorem attempts_subset (connections : List Connection) (h : Handle) (hh : h ∈ attempts env deviceId connections) :
    h ∈ connections.map (·.handle) := by
  induction connections with
  | nil => cases hh
  | cons c connections ih =>
    rw [attempts_cons] at hh
    split_ifs at hh
    · rw [List.mem_singleton.mp hh]
      exact List.mem_cons_self
    · obtain rfl | hrest := List.mem_cons.mp hh
      · exact List.mem_cons_self
      · exact List.mem_cons_of_mem _ (ih hrest)
    · exact List.mem_cons_of_mem _ (ih hh)

theorem throws_cons (b : Connection) (connections : List Connection) :
    Throws env deviceId (b :: connections) ↔
      (Session.hasBindDevice b.session deviceId = true ∧ env.unreachable b.handle = true) ∨
        Throws env deviceId connections := by
  rw [Throws, Throws]
  simp only [List.mem_cons, or_and_right, exists_or, exists_eq_left]

/-- The loop sends to a session that matches unless an earlier send throws. -/
theorem mem_attempts (before after : List Connection) (c : Connection)
    (hkeys : ((before ++ c :: after).map (·.handle)).Nodup) :
    c.handle ∈ attempts env deviceId (before ++ c :: after) ↔
      Session.hasBindDevice c.session deviceId = true ∧ ¬ Throws env deviceId before := by
  induction before with
  | nil =>
    have hlater : c.handle ∉ attempts env deviceId after :=
      fun h => (List.nodup_cons.mp hkeys).1 (attempts_subset env deviceId after _ h)
    have hnone : ¬ Throws env deviceId [] := fun ⟨b, hb, _⟩ => by cases hb
    rw [List.nil_append, attempts_cons]
    split_ifs with hb hu
    · exact iff_of_true (List.mem_singleton_self _) ⟨hb, hnone⟩
    · exact iff_of_true List.mem_cons_self ⟨hb, hnone⟩
    · exact iff_of_false hlater fun h => hb h.1
  | cons b before ih =>
    obtain ⟨hfirst, hrest⟩ := List.nodup_cons.mp hkeys
    have hne : c.handle ≠ b.handle := by
      intro heq
      exact hfirst (List.mem_map.mpr ⟨c, List.mem_append_right _ List.mem_cons_self, heq⟩)
    have hrec := ih hrest
    rw [List.cons_append, attempts_cons, throws_cons]
    split_ifs with hb hu
    · exact iff_of_false (fun h => hne (List.mem_singleton.mp h)) fun h => h.2 (.inl ⟨hb, hu⟩)
    · rw [List.mem_cons, or_iff_right hne, hrec, or_iff_right fun h => hu h.2]
    · rw [hrec, or_iff_right fun h => hb h.1]

theorem exists_sent_iff (connections : List Connection) :
    (sendLoop env.unreachable deviceId (sessionsOf connections)).2 = true ↔
      ∃ h ∈ attempts env deviceId connections, env.unreachable h = false := by
  induction connections with
  | nil => simp [attempts, sessionsOf, sendLoop]
  | cons c connections ih =>
    rw [attempts_cons, sessionsOf, List.map_cons, sendLoop]
    split_ifs with hb hu
    · simp [hu]
    · simp [hu]
    · exact ih

end

/-- The notices go where they should exactly if no send throws before a session
that is bound to the device, and none goes out because of an empty slot. -/
theorem notified_iff (env : Env) (t : Terminals) (deviceId : String) :
    Notified env t deviceId ↔ Undisturbed env t deviceId := by
  have hmem : ∀ before c after, t.list = before ++ c :: after →
      (c.handle ∈ attempts env deviceId t.list ↔
        (HasBound deviceId c ∨ deviceId = "" ∧ Vacant c) ∧ ¬ Throws env deviceId before) := by
    intro before c after hlist
    have hkeys := t.keys
    rw [hlist] at hkeys ⊢
    rw [mem_attempts env deviceId before after c hkeys, hasBindDevice_iff]
  constructor
  · intro h
    refine ⟨fun before c after hlist hthrows hbound => ?_, fun before c after hlist hnone hempty hvacant => ?_⟩
    · have htold := h.told c (hlist ▸ List.mem_append_right _ List.mem_cons_self)
      exact ((hmem before c after hlist).mp (htold.mpr hbound)).2 hthrows
    · have htold := h.told c (hlist ▸ List.mem_append_right _ List.mem_cons_self)
      exact htold.mp ((hmem before c after hlist).mpr ⟨.inr ⟨hempty, hvacant⟩, hnone⟩)
  · intro h
    refine ⟨fun c hc => ?_, fun w notice hw => ?_⟩
    · obtain ⟨before, after, hlist⟩ := List.append_of_mem hc
      rw [hmem before c after hlist]
      constructor
      · rintro ⟨hbound | ⟨hempty, hvacant⟩, hnone⟩
        · exact hbound
        · exact h.vacant before c after hlist hnone hempty hvacant
      · exact fun hbound => ⟨.inl hbound, fun hthrows => h.later before c after hlist hthrows hbound⟩
    · rw [run_notifyPassVehicle, hw, Except.ok.injEq]
      exact exists_sent_iff env deviceId t.list

/-- Two clients are bound to the exit, and the first is gone; a third one is only bound to the entrance. -/
def twoAtTheExit : Terminals where
  list := [⟨1, ⟨"a", "1", "A", none, none, none⟩, "10.0.0.1", [(passOut, "exit")]⟩,
    ⟨2, ⟨"b", "2", "B", none, none, none⟩, "10.0.0.2", [(passOut, "exit")]⟩,
    ⟨3, ⟨"c", "3", "C", none, none, none⟩, "10.0.0.3", [(passIn, "entrance")]⟩]
  keys := by decide

def firstGone : Env := { quietEnv with unreachable := fun h => h = 1 }

/-- The second client is not told and the gate is opened as if nobody were there,
and a device that is not known is announced to a client that never bound it. -/
theorem second_not_told : (attempts firstGone "exit" twoAtTheExit.list = [1] ∧
      (sendLoop firstGone.unreachable "exit" twoAtTheExit.sessions).2 = false ∧
      ¬ Notified firstGone twoAtTheExit "exit") ∧
    attempts quietEnv "" twoAtTheExit.list = [1, 2, 3] ∧ ¬ Notified quietEnv twoAtTheExit "" := by
  refine ⟨⟨by decide, by decide, fun h => ?_⟩, by decide, fun h => ?_⟩
  · have htold := (h.told _ (List.mem_cons_of_mem _ List.mem_cons_self)).mpr (.inr (by decide))
    exact absurd htold (by decide)
  · obtain hin | hout := (h.told _ List.mem_cons_self).mp (by decide)
    · exact absurd hin (by decide)
    · exact absurd hout (by decide)

end BitPark.PassNotice
