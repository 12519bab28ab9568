import BitPark.ClientRequest
import BitPark.TurnBack
import BitPark.Voucher

namespace BitPark.Connections

open BitPark.Effect BitPark.Server BitPark.Database BitPark.Requests BitPark.ClientRequest BitPark.Decimal
open BitPark.DeviceMessage BitPark.Storage BitPark.DeviceReport BitPark.Voucher

/-! Messages on connections that have no session. -/

def Stranger (w : World) (hdl : Handle) : Prop := w.sessions.lookup hdl = none

/-- A name that the database knows once, and its password. -/
structure Authentic (w : World) (json : Json.Value) (user : User) : Prop where
  name : text json "User" = .ok user.user
  password : text json "Password" = .ok user.password
  only : w.users.filter (·.user = user.user) = [user]

def CorrectLogin (env : Env) (w : World) (msg : Bytes) (user : User) : Prop :=
  ∃ root, env.parse msg = .accepted root ∧ text root "CmdType" = .ok "Login" ∧ Authentic w root user

/-- What a message without a session comes to: an exception, an answer, or an
answer and the session of a user who may log in. -/
inductive Answered (hdl : Handle) (w : World) (mayLogin : User → Prop) : Except Exn Unit × World → Prop where
  | raised (e : Exn) : Answered hdl w mayLogin (.error e, w)
  | refused (r : Response) (hr : r.handle = hdl) :
      Answered hdl w mayLogin (.ok (), { w with responses := w.responses ++ [r] })
  | loggedIn (r : Response) (user : User) (ip : String) (hr : r.handle = hdl) (hu : mayLogin user) :
      Answered hdl w mayLogin
        (.ok (), { w with responses := w.responses ++ [r], sessions := (hdl, { user, ip }) :: w.sessions })

section Stranger

variable (env : Env) (hdl : Handle) (json : Json.Value) (w : World)

theorem filter_stranger (h : Stranger w hdl) : w.sessions.filter (·.1 ≠ hdl) = w.sessions := by
  apply List.filter_eq_self.mpr
  intro c hc
  simp only [decide_eq_true_eq]
  rintro rfl
  have hlookup := List.lookup_eq_none_iff.mp h c hc
  simp at hlookup

theorem run_findUser_stranger (h : Stranger w hdl) :
    run (findUser hdl) w = (.error (.other "Do Not Find User"), w) := by
  rw [findUser, run_bind_ok state _ w w w rfl, show w.sessions.lookup hdl = none from h]
  rfl

/-- Every handler but that of the login looks the session up first. -/
theorem run_perform_stranger (h : Stranger w hdl) (cmd : Cmd) (hcmd : cmd ≠ .login) :
    run (perform env hdl json cmd) w = (.error (.other "Do Not Find User"), w) := by
  have hfind := run_findUser_stranger hdl w h
  cases cmd with
  | login => exact absurd rfl hcmd
  | checkout => exact run_bind_error _ _ _ _ _ (run_bind_error _ _ _ _ _ hfind)
  | _ => exact run_bind_error _ _ _ _ _ hfind

theorem answered_refuseLogin (h : Stranger w hdl) (mayLogin : User → Prop) :
    Answered hdl w mayLogin (run (refuseLogin hdl) w) := by
  obtain ⟨r, hr, hrun⟩ : ∃ r : Response, r.handle = hdl ∧ run (refuseLogin hdl) w =
    (.ok (), { w with responses := w.responses ++ [r], sessions := w.sessions.filter (·.1 ≠ hdl) }) := ⟨_, rfl, rfl⟩
  rw [hrun, filter_stranger hdl w h]
  exact .refused r hr

theorem answered_acceptLogin (h : Stranger w hdl) (mayLogin : User → Prop) (user : User) (hu : mayLogin user) :
    Answered hdl w mayLogin (run (acceptLogin env hdl user) w) := by
  cases hip : env.remoteIp hdl with
  | error what =>
    have hadd : run (addConnectionUser env hdl user) w = (.error (.other what), w) := by
      rw [addConnectionUser, hip]
      rfl
    rw [acceptLogin, run_bind_error _ _ _ _ _ hadd]
    exact .raised _
  | ok ip =>
    have hadd : run (addConnectionUser env hdl user) w =
        (.ok (), { w with sessions := (hdl, { user, ip }) :: w.sessions }) := by
      rw [addConnectionUser, hip]
      exact congrArg (fun l => (Except.ok (), { w with sessions := (hdl, { user, ip }) :: l })) (filter_stranger hdl w h)
    rw [acceptLogin, run_bind_ok _ _ _ _ _ hadd]
    exact .loggedIn _ user ip rfl hu

theorem run_read {α β : Type} (a : α) (f : α → Proc β) : run (ofExcept (.ok a) >>= f) w = run (f a) w := rfl

theorem run_bothAgree (key1 expected1 key2 expected2 : String) :
    (∃ e, run (bothAgree json key1 expected1 key2 expected2) w = (.error e, w)) ∨
    ∃ b, run (bothAgree json key1 expected1 key2 expected2) w = (.ok b, w) ∧
      (b = true → text json key1 = .ok expected1 ∧ text json key2 = .ok expected2) := by
  rw [bothAgree, readString_eq, readString_eq]
  cases h1 : text json key1 with
  | error what => exact .inl ⟨_, rfl⟩
  | ok text1 =>
    rw [run_read]
    by_cases he : text1 = expected1
    · rw [if_pos he]
      cases h2 : text json key2 with
      | error what => exact .inl ⟨_, rfl⟩
      | ok text2 =>
        refine .inr ⟨_, rfl, fun hb => ?_⟩
        rw [he, of_decide_eq_true hb]
        exact ⟨rfl, rfl⟩
    · rw [if_neg he]
      exact .inr ⟨false, rfl, by simp⟩

theorem onlyRow_some {α : Type} (rows : List α) (a : α) (h : onlyRow (rows.map some) none = some a) : rows = [a] := by
  match rows with
  | [] => cases h
  | [b] =>
    cases h
    rfl
  | b :: c :: rest => cases h

theorem answered_onLogin (h : Stranger w hdl) : Answered hdl w (Authentic w json) (run (onLogin env hdl json) w) := by
  rw [onLogin, readString_eq]
  cases hid : text json "User" with
  | error what => exact .raised (.other what)
  | ok id =>
    rw [run_read]
    cases hf : env.fails ⟨.select, .userInfo, id⟩ with
    | some code =>
      have hq : run (queryUser env id) w = (.error (.system code), w) := by
        simp only [queryUser, query, statement, hf]
        rfl
      rw [run_bind_error _ _ _ _ _ hq]
      exact .raised _
    | none =>
      have hq : run (queryUser env id) w = (.ok (onlyRow ((w.users.filter (·.user = id)).map some) none), w) :=
        run_query env _ _ w hf
      rw [run_bind_ok _ _ _ _ _ hq]
      cases hfound : onlyRow ((w.users.filter (·.user = id)).map some) none with
      | none => exact answered_refuseLogin hdl w h _
      | some user =>
        have honly := onlyRow_some _ _ hfound
        obtain ⟨e, he⟩ | ⟨b, hb, hagree⟩ := run_bothAgree json w "User" user.user "Password" user.password
        · rw [run_bind_error _ _ _ _ _ he]
          exact .raised e
        · rw [run_bind_ok _ _ _ _ _ hb]
          cases b with
          | false => exact answered_refuseLogin hdl w h _
          | true =>
            obtain ⟨hname, hpassword⟩ := hagree rfl
            obtain rfl : id = user.user := Except.ok.inj (hid.symm.trans hname)
            exact answered_acceptLogin env hdl w h _ user ⟨hname, hpassword, honly⟩

end Stranger

theorem ofString_login (cmd : String) (h : Cmd.ofString cmd = some .login) : cmd = "Login" := by
  obtain ⟨l1, l2, hl, -⟩ := List.lookup_eq_some_iff.mp h
  have hmem : (cmd, Cmd.login) ∈ l1 ++ (cmd, Cmd.login) :: l2 := by simp
  rw [← hl] at hmem
  simpa using hmem

/-- Reading the command raises or leaves everything as it is; a login was there to be read. -/
theorem readCmdType_cases (root : Json.Value) (w : World) :
    (∃ e, run (readCmdType root) w = (.error e, w)) ∨
    ∃ cmd after, run (readCmdType root) w = (.ok (cmd, after), w) ∧
      (cmd = "Login" → after = root ∧ text root "CmdType" = .ok "Login") := by
  by_cases h : root.HasText "CmdType"
  · obtain ⟨found, after, cmd, hr, ht⟩ := root.text_of_hasText "CmdType" h
    refine .inr ⟨cmd, after, run_readCmdType root found after cmd w hr ht, ?_⟩
    rintro rfl
    have hnull : found.isNull = false := by
      cases found with
      | null => simp [Json.Value.asString] at ht
      | _ => rfl
    obtain ⟨hafter, hmember⟩ := root.resolveReference_found found after "CmdType" hr hnull
    refine ⟨hafter, ?_⟩
    rw [text, hmember]
    exact ht
  · exact .inl (run_readCmdType_raises root w h)

/-- Without a session, an accepted message is at most a login, whatever the surroundings. -/
theorem serve_cases (hdl : Handle) (root : Json.Value) (w : World) (h : Stranger w hdl) :
    (∃ e, ∀ env, run (serve env hdl (.accepted root)) w = (.error e, w)) ∨
    text root "CmdType" = .ok "Login" ∧
      ∀ env, run (serve env hdl (.accepted root)) w = run (onLogin env hdl root) w := by
  obtain ⟨e, he⟩ | ⟨cmd, after, hread, hlogin⟩ := readCmdType_cases root w
  · exact .inl ⟨e, fun env => run_bind_error _ _ _ _ _ he⟩
  · cases hcmd : Cmd.ofString cmd with
    | none =>
      have hrun : ∀ env, run (serve env hdl (.accepted root)) w = run (throwErr .invalidCmdtype) w := fun env => by
        rw [serve, run_bind_ok _ _ _ _ _ hread, hcmd]
      exact .inl ⟨_, hrun⟩
    | some c =>
      have hrun : ∀ env, run (serve env hdl (.accepted root)) w = run (perform env hdl after c) w := fun env => by
        rw [serve, run_bind_ok _ _ _ _ _ hread, hcmd]
      by_cases hc : c = .login
      · subst hc
        obtain ⟨rfl, htext⟩ := hlogin (ofString_login cmd hcmd)
        exact .inr ⟨htext, hrun⟩
      · exact .inl ⟨_, fun env => (hrun env).trans (run_perform_stranger env hdl after w h c hc)⟩

theorem answered_mono (hdl : Handle) (w : World) (p q : User → Prop) (hpq : ∀ user, p user → q user)
    (r : Except Exn Unit × World) (h : Answered hdl w p r) : Answered hdl w q r := by
  cases h with
  | raised e => exact .raised e
  | refused r hr => exact .refused r hr
  | loggedIn r user ip hr hu => exact .loggedIn r user ip hr (hpq user hu)

theorem answered_serve (env : Env) (hdl : Handle) (msg : Bytes) (w : World) (h : Stranger w hdl) :
    Answered hdl w (CorrectLogin env w msg) (run (serve env hdl (env.parse msg)) w) := by
  cases hp : env.parse msg with
  | thrown what root => exact .raised _
  | rejected root => exact .raised _
  | accepted root =>
    obtain ⟨e, he⟩ | ⟨htext, hrun⟩ := serve_cases hdl root w h
    · rw [he env]
      exact .raised e
    · rw [hrun env]
      apply answered_mono hdl w (Authentic w root) _ _ _ (answered_onLogin env hdl root w h)
      exact fun user hu => ⟨root, hp, htext, hu⟩

theorem answered_reportError (hdl : Handle) (root : Json.Value) (e : Exn) (w : World) (mayLogin : User → Prop) :
    Answered hdl w mayLogin (run (reportError hdl root e) w) := by
  obtain ⟨e', he⟩ | ⟨cmd, after, hread, -⟩ := readCmdType_cases root w
  · rw [reportError, run_bind_error _ _ _ _ _ he]
    exact .raised e'
  · rw [reportError, run_bind_ok _ _ _ _ _ hread]
    exact .refused _ (by cases e <;> rfl)

/-- Without a session, a text message is answered at most, or it is a correct login. -/
theorem answered_clientRequest (env : Env) (hdl : Handle) (msg : Bytes) (w : World) (h : Stranger w hdl) :
    Answered hdl w (CorrectLogin env w msg) (run (clientRequest env hdl msg) w) := by
  have hserve := answered_serve env hdl msg w h
  rw [clientRequest, run_handle]
  generalize run (serve env hdl (env.parse msg)) w = result at hserve ⊢
  obtain ⟨e | a, t⟩ := result
  · cases hserve with
    | raised e => exact answered_reportError hdl _ e w _
  · exact hserve

/-- None of this depends on how a write or a command would end. -/
theorem clientRequest_reacting (env : Env) (r : Reactions) (hdl : Handle) (msg : Bytes) (w : World)
    (h : Stranger w hdl) : run (clientRequest (reactingEnv env r) hdl msg) w = run (clientRequest env hdl msg) w := by
  have hserve : run (serve (reactingEnv env r) hdl (env.parse msg)) w = run (serve env hdl (env.parse msg)) w := by
    cases hp : env.parse msg with
    | thrown what root => rfl
    | rejected root => rfl
    | accepted root =>
      obtain ⟨e, he⟩ | ⟨-, hrun⟩ := serve_cases hdl root w h
      · rw [he, he]
      · rw [hrun, hrun]
        rfl
  have hparse : (reactingEnv env r).parse msg = env.parse msg := rfl
  rw [clientRequest, clientRequest, run_handle, run_handle, hparse, hserve]

/-! Runs of messages, whoever sends them, between the other things that happen. -/

inductive Event where
  | text (hdl : Handle) (msg : Bytes)
  | binary (hdl : Handle) (payload : Bytes)
  | closed (hdl : Handle)
  | expired (overTime : Handle → Bool)
  | passage (source : String) (data : DeviceData) (pics : List Bytes)

/-- `on_message` and the other handlers. The timer drops every session that is over time. -/
def Event.serve (now : ℤ) (event : Event) (out : Outside) : Job Unit :=
  match event with
  | text hdl msg => inWorld (clientRequest out.env hdl msg)
  | binary _ payload => clientSubmitPicture out now payload
  | closed hdl => inWorld (eraseConnection hdl)
  | expired overTime => inWorld (update fun w => { w with sessions := w.sessions.filter fun c => !overTime c.1 })
  | passage source data pics => onDeviceData out source data pics

/-- An event, its time, and what the surroundings answer meanwhile. -/
structure Moment where
  out : Outside
  now : ℤ
  event : Event

def Moment.serve (m : Moment) : Job Unit := m.event.serve m.now m.out

/-- No write to the database, no command to a device and no operation on the
disk is attempted: what happens does not depend on how it would end. -/
def Attemptless (s : Site) (m : Moment) : Prop :=
  ∀ r, run (m.event.serve m.now (reacting m.out r)) s = run m.serve s

/-- A message on a connection without a session attempts nothing, and it leaves
the site as it is but for an answer and the session of a correct login. -/
def Harmless (s : Site) (m : Moment) : Prop :=
  match m.event with
  | .text hdl msg => Stranger s.world hdl → Attemptless s m ∧
      ∃ result w, run m.serve s = (result, { s with world := w }) ∧
        Answered hdl s.world (CorrectLogin m.out.env s.world msg) (result, w)
  | .binary hdl _ => Stranger s.world hdl → Attemptless s m ∧ (run m.serve s).2 = s
  | _ => True

/-- The upload of a connection without a session is idle. -/
def Spared (s : Site) (m : Moment) : Prop :=
  match m.event with
  | .binary hdl payload => Stranger s.world hdl → Idle m.out payload s
  | _ => True

/-- The property holds at every moment of the run. -/
def Along (P : Site → Moment → Prop) : Site → List Moment → Prop
  | _, [] => True
  | s, m :: ms => P s m ∧ Along P (run m.serve s).2 ms

theorem harmless_text (out : Outside) (now : ℤ) (hdl : Handle) (msg : Bytes) (s : Site) :
    Harmless s ⟨out, now, .text hdl msg⟩ := by
  intro h
  refine ⟨fun r => ?_, _, _, rfl, answered_clientRequest out.env hdl msg s.world h⟩
  have hrun := clientRequest_reacting out.env r hdl msg s.world h
  exact congrArg (fun x : Except Exn Unit × World => (x.1, { s with world := x.2 })) hrun

theorem harmless_binary_iff (out : Outside) (now : ℤ) (hdl : Handle) (payload : Bytes) (s : Site)
    (h : Stranger s.world hdl) : Harmless s ⟨out, now, .binary hdl payload⟩ ↔ Idle out payload s := by
  rw [← calm_clientSubmitPicture_iff out now]
  constructor
  · intro hh r
    obtain ⟨hsame, hs⟩ := hh h
    exact (congrArg Prod.snd (hsame r)).trans hs
  · intro hc _
    have hrun : ∀ r, run (clientSubmitPicture (reacting out r) now payload) s = (.ok (), s) := by
      intro r
      have hok : (run (clientSubmitPicture (reacting out r) now payload) s).1 = .ok () := by
        rw [clientSubmitPicture, run_swallow]
      exact Prod.ext hok (hc r)
    have hown := hrun (ownReactions out)
    rw [reacting_own] at hown
    exact ⟨fun r => (hrun r).trans hown.symm, congrArg Prod.snd hown⟩

/-- One message. -/
theorem harmless_iff (s : Site) (m : Moment) : Harmless s m ↔ Spared s m := by
  obtain ⟨out, now, event⟩ := m
  cases event with
  | text hdl msg => exact iff_of_true (harmless_text out now hdl msg s) trivial
  | binary hdl payload =>
    constructor
    · exact fun hh h => (harmless_binary_iff out now hdl payload s h).mp hh
    · exact fun hh h => (harmless_binary_iff out now hdl payload s h).mpr (hh h) h
  | closed hdl => exact Iff.rfl
  | expired overTime => exact Iff.rfl
  | passage source data pics => exact Iff.rfl

theorem along_congr (P Q : Site → Moment → Prop) (h : ∀ s m, P s m ↔ Q s m) (s : Site) (ms : List Moment) :
    Along P s ms ↔ Along Q s ms := by
  induction ms generalizing s with
  | nil => exact Iff.rfl
  | cons m ms ih => exact and_congr (h s m) (ih _)

/-- Nobody has logged in, and a picture for the charge `aa..a` arrives. -/
def upload : Moment := ⟨TurnBack.quietOutside, 0, .binary 1 (List.replicate 37 97)⟩

end BitPark.Connections
