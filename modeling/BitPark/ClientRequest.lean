import BitPark.Requests

namespace BitPark.ClientRequest

open BitPark.Effect BitPark.Server BitPark.Database BitPark.Devices BitPark.Charging BitPark.Members
open BitPark.Requests

inductive Cmd where
  | login | logout | shift | queryGateway | queryDevice | queryParkingVehicle | revisePlate | matchPlate
  | operateGateway | checkout | queryParkingNumber | bindDevice | operateDevice | lockDevice | escRecord
deriving DecidableEq, Repr

/-- The spelling of `OperateDevcie` is the one clients have to send. -/
def Cmd.ofString (s : String) : Option Cmd :=
  [("Login", login), ("Logout", logout), ("Shift", shift), ("QueryGateway", queryGateway),
    ("QueryDevice", queryDevice), ("QueryParkingVehicle", queryParkingVehicle), ("RevisePlate", revisePlate),
    ("MatchPlate", matchPlate), ("OperateGateway", operateGateway), ("Checkout", checkout),
    ("QueryParkingNumber", queryParkingNumber), ("BindDevice", bindDevice), ("OperateDevcie", operateDevice),
    ("LockDevice", lockDevice), ("EscRecord", escRecord)].lookup s

def perform (env : Env) (hdl : Handle) (json : Json.Value) : Cmd → Proc Unit
  | .login => onLogin env hdl json
  | .logout => onLogout hdl
  | .shift => onShift env hdl json
  | .queryGateway => onQueryGateway env hdl
  | .queryDevice => onQueryDevice env hdl
  | .queryParkingVehicle => onQueryParkingvehicle env hdl json
  | .revisePlate => onRevisePlate env hdl json
  | .matchPlate => onMatchPlate env hdl json
  | .operateGateway => onOperateGateway env hdl json
  | .checkout => onCheckout env hdl json
  | .queryParkingNumber => onQueryParkingnumber env hdl
  | .bindDevice => onBindDevice env hdl json
  | .operateDevice => onOperateDevice env hdl json
  | .lockDevice => onLockDevice env hdl json
  | .escRecord => onEscRecord env hdl json

/-- The member `CmdType` of a root that may be written, and the root after the access. -/
def readCmdType (root : Json.Value) : Proc (String × Json.Value) := do
  let r ← ofExcept (root.resolveReference "CmdType")
  let cmd ← ofExcept r.1.asString
  pure (cmd, r.2)

/-- The `try` block of `client_request`. -/
def serve (env : Env) (hdl : Handle) : Parsed → Proc Unit
  | .thrown what _ => raise (.other what)
  | .rejected _ => throwErr .invalidJson
  | .accepted root => do
    let r ← readCmdType root
    match Cmd.ofString r.1 with
    | some cmd => perform env hdl r.2 cmd
    | none => throwErr .invalidCmdtype

/-- The root that the `catch` blocks find: reading `CmdType` may have created it. -/
def rootAfter : Parsed → Json.Value
  | .accepted root => match root.resolveReference "CmdType" with
    | .ok (_, after) => after
    | .error _ => root
  | .rejected root => root
  | .thrown _ root => root

def errorResponse (hdl : Handle) (cmd : String) : Exn → Response
  | .system code => { handle := hdl, cmdType := cmd ++ "Response", ok := false,
                      errorCode := some code.value, errorInfo := some code.message }
  | .other what => { handle := hdl, cmdType := cmd ++ "Response", ok := false, errorInfo := some what }

/-- The `catch` blocks. -/
def reportError (hdl : Handle) (root : Json.Value) (e : Exn) : Proc Unit := do
  let r ← readCmdType root
  sendResponse (errorResponse hdl r.1 e)

def clientRequest (env : Env) (hdl : Handle) (msg : List UInt8) : Proc Unit :=
  handle (serve env hdl (env.parse msg)) (reportError hdl (rootAfter (env.parse msg)))

/-- Whatever happens, either one response goes out and the program returns, or
none does and it raises. -/
def Answers (hdl : Handle) (p : Proc Unit) : Prop := ∀ w,
  (∃ e w', run p w = (.error e, w') ∧ w'.responses = w.responses) ∨
  ∃ w' r, run p w = (.ok (), w') ∧ w'.responses = w.responses ++ [r] ∧ r.handle = hdl

section Rules

variable {hdl : Handle} {α : Type}

theorem answers_raise (e : Exn) : Answers hdl (raise e) := fun w => .inl ⟨e, w, rfl, rfl⟩

theorem answers_send (r : Response) (hr : r.handle = hdl) : Answers hdl (sendResponse r) :=
  fun _ => .inr ⟨_, r, rfl, rfl, hr⟩

theorem answers_ite (c : Prop) [Decidable c] {p q : Proc Unit} (hp : Answers hdl p) (hq : Answers hdl q) :
    Answers hdl (if c then p else q) := by
  split_ifs
  · exact hp
  · exact hq

theorem answers_bind {p : Proc α} {q : α → Proc Unit} (hp : Unchanged World.responses p)
    (hq : ∀ a, Answers hdl (q a)) : Answers hdl (p >>= q) := by
  intro w
  have hw : (run p w).2.responses = w.responses := hp w
  rw [run_bind]
  match hr : run p w with
  | (.ok a, t) =>
    rw [hr] at hw
    obtain ⟨e, w', h, hsame⟩ | ⟨w', r, h, hone, hh⟩ := hq a t
    · exact .inl ⟨e, w', h, hsame.trans hw⟩
    · exact .inr ⟨w', r, h, hone.trans (by rw [hw]), hh⟩
  | (.error e, t) =>
    rw [hr] at hw
    exact .inl ⟨e, t, rfl, hw⟩

theorem answers_then {p q : Proc Unit} (hp : Answers hdl p)
    (hq : ∀ w, ∃ w', run q w = (.ok (), w') ∧ w'.responses = w.responses) :
    Answers hdl (p >>= fun _ => q) := by
  intro w
  obtain ⟨e, t, h, hsame⟩ | ⟨t, r, h, hone, hh⟩ := hp w
  · exact .inl ⟨e, t, run_bind_error _ _ _ _ _ h, hsame⟩
  · obtain ⟨w', hw', hsame⟩ := hq t
    exact .inr ⟨w', r, (run_bind_ok _ _ _ _ _ h).trans hw', hsame.trans hone, hh⟩

end Rules

section Handlers

variable (env : Env) (hdl : Handle) (json : Json.Value)

theorem quietBooks : Bookkeeping (SameAt World.responses) :=
  ⟨fun _ _ => rfl, fun _ _ => rfl, fun _ _ => rfl, fun _ _ => rfl, fun _ _ => rfl⟩

theorem quiet_addConnectionUser (user : User) : Unchanged World.responses (addConnectionUser env hdl user) :=
  steps_bind (steps_ofExcept _) fun _ => steps_update _ fun _ => rfl

theorem answers_onLogin : Answers hdl (onLogin env hdl json) := by
  have hrefuse : Answers hdl (refuseLogin hdl) := answers_then (answers_send _ rfl) fun _ => ⟨_, rfl, rfl⟩
  refine answers_bind (steps_readString json _) fun id => answers_bind (steps_query env _ _) fun found => ?_
  cases found with
  | none => exact hrefuse
  | some user =>
    exact answers_bind (steps_bothAgree json _ _ _ _) fun _ => answers_ite _
      (answers_bind (quiet_addConnectionUser env hdl user) fun _ => answers_send _ rfl) hrefuse

theorem answers_onLogout : Answers hdl (onLogout hdl) :=
  answers_bind (steps_findUser hdl) fun _ => answers_then (answers_send _ rfl) fun _ => ⟨_, rfl, rfl⟩

theorem answers_onShift : Answers hdl (onShift env hdl json) := by
  refine answers_bind (steps_findUser hdl) fun _ => answers_bind (steps_readMember json _) fun _ =>
    answers_bind (steps_bothAgree json _ _ _ _) fun _ => answers_ite _ ?_ (answers_raise _)
  refine answers_bind (steps_readString json _) fun _ => answers_bind (steps_query env _ _) fun found => ?_
  cases found with
  | none => exact answers_raise _
  | some next =>
    have hlog : Unchanged World.responses (insertShiftLog env json) :=
      steps_bind (steps_generateUUID env fun _ _ => rfl) fun _ => steps_bind (steps_readString json _) fun _ =>
        steps_bind (steps_readString json _) fun _ => steps_statement env _
    exact answers_bind (steps_bothAgree json _ _ _ _) fun _ => answers_ite _
      (answers_bind (quiet_addConnectionUser env hdl next) fun _ => answers_bind hlog fun _ => answers_send _ rfl)
      (answers_raise _)

theorem answers_onQueryDevice : Answers hdl (onQueryDevice env hdl) :=
  answers_bind (steps_findUser hdl) fun _ =>
    answers_bind (steps_bind steps_state fun _ => steps_pure _) fun _ =>
      answers_bind (steps_devicesFor env _) fun _ => answers_send _ rfl

theorem answers_onRevisePlate : Answers hdl (onRevisePlate env hdl json) :=
  answers_bind (steps_findUser hdl) fun _ => answers_bind (steps_readString json _) fun _ =>
    answers_bind (steps_readString json _) fun _ =>
      answers_bind (steps_execute env _ _ fun _ => rfl) fun _ => answers_send _ rfl

theorem answers_onMatchPlate : Answers hdl (onMatchPlate env hdl json) :=
  answers_bind (steps_findUser hdl) fun _ => answers_bind (steps_readString json _) fun _ =>
    answers_bind (steps_readString json _) fun _ => answers_ite _ (answers_raise _) <|
      answers_bind (steps_query env _ _) fun enter => answers_bind (steps_query env _ _) fun exit =>
        answers_ite _ (answers_raise _) <| answers_bind (steps_query env _ _) fun dev =>
          answers_bind (steps_handleCharge env quietBooks (fun _ _ => rfl) enter exit) fun _ =>
            answers_bind (steps_showCharge (fun _ _ => rfl) env dev.ip _) fun _ => answers_send _ rfl

theorem answers_onOperateGateway : Answers hdl (onOperateGateway env hdl json) :=
  answers_bind (steps_findUser hdl) fun _ => answers_bind (steps_readString json _) fun _ =>
    answers_bind (steps_query env _ _) fun _ => answers_ite _ (answers_raise _) <|
      answers_bind (steps_readInt json _) fun _ =>
        answers_bind (steps_dtsOperate (fun _ _ => rfl) env _ _) fun _ =>
          answers_bind (steps_readString json _) fun _ =>
            answers_bind (steps_bind (steps_generateUUID env fun _ _ => rfl) fun _ => steps_statement env _)
              fun _ => answers_send _ rfl

theorem answers_onCheckout : Answers hdl (onCheckout env hdl json) := by
  have hrecord : Unchanged World.responses (recordCheckout env hdl json) :=
    steps_bind (steps_findUser hdl) fun user => steps_bind (steps_readString json _) fun enterId =>
      steps_bind (steps_readString json _) fun exitId => steps_bind (steps_query env _ _) fun exit =>
        steps_bind (steps_checkoutRecord json env user enterId exitId exit) fun _ =>
          steps_bind (steps_chargeIdOf json env fun _ _ => rfl) fun _ =>
            steps_bind (steps_insertChargeRecord quietBooks env _ _) fun _ => steps_pure _
  exact answers_bind hrecord fun record =>
    answers_bind (steps_finishCheckout (fun _ _ => rfl) env (fun _ _ => rfl) record) fun _ => answers_send _ rfl

theorem answers_onBindDevice : Answers hdl (onBindDevice env hdl json) :=
  answers_bind (steps_findUser hdl) fun _ => answers_bind (steps_readString json _) fun _ =>
    answers_bind (steps_readInt json _) fun _ => answers_bind (steps_update _ fun _ => rfl) fun _ =>
      answers_bind (steps_unlockAndGreet (fun _ _ => rfl) env _) fun _ => answers_send _ rfl

theorem answers_onOperateDevice : Answers hdl (onOperateDevice env hdl json) :=
  answers_bind (steps_findUser hdl) fun _ => answers_bind (steps_readString json _) fun _ =>
    answers_bind (steps_query env _ _) fun ip => answers_ite _ (answers_raise _) <|
      answers_bind (steps_readInt json _) fun _ => answers_bind (steps_readString json _) fun _ =>
        answers_bind (steps_showPassing json (fun _ _ => rfl) env ip _ _) fun _ =>
          answers_bind (steps_openIfAsked json (fun _ _ => rfl) env ip) fun _ => answers_send _ rfl

theorem answers_onEscRecord : Answers hdl (onEscRecord env hdl json) :=
  answers_bind (steps_findUser hdl) fun _ => answers_bind (steps_readString json _) fun _ =>
    answers_bind (steps_readString json _) fun _ => answers_bind (steps_readMember json _) fun nids =>
      answers_bind (steps_matchNids nids) fun _ => answers_bind (steps_readDouble json _) fun _ =>
        answers_bind (steps_generateUUID env fun _ _ => rfl) fun _ =>
          answers_bind (steps_statement env _) fun _ => answers_send _ rfl

theorem answers_perform (cmd : Cmd) : Answers hdl (perform env hdl json cmd) := by
  cases cmd with
  | login => exact answers_onLogin env hdl json
  | logout => exact answers_onLogout hdl
  | shift => exact answers_onShift env hdl json
  | queryGateway =>
    exact answers_bind (steps_findUser hdl) fun _ => answers_bind (steps_query env _ _) fun _ => answers_send _ rfl
  | queryDevice => exact answers_onQueryDevice env hdl
  | queryParkingVehicle =>
    exact answers_bind (steps_findUser hdl) fun _ =>
      answers_bind (steps_queryParkingVehicle json env) fun _ => answers_send _ rfl
  | revisePlate => exact answers_onRevisePlate env hdl json
  | matchPlate => exact answers_onMatchPlate env hdl json
  | operateGateway => exact answers_onOperateGateway env hdl json
  | checkout => exact answers_onCheckout env hdl json
  | queryParkingNumber =>
    exact answers_bind (steps_findUser hdl) fun _ =>
      answers_bind (steps_queryParkingNumber env) fun _ => answers_send _ rfl
  | bindDevice => exact answers_onBindDevice env hdl json
  | operateDevice => exact answers_onOperateDevice env hdl json
  | lockDevice =>
    exact answers_bind (steps_findUser hdl) fun _ => answers_bind (steps_readString json _) fun _ =>
      answers_bind (steps_query env _ _) fun ip => answers_ite _ (answers_raise _) <|
        answers_bind (steps_dtsOperate (fun _ _ => rfl) env ip _) fun _ => answers_send _ rfl
  | escRecord => exact answers_onEscRecord env hdl json

end Handlers

theorem answers_serve (env : Env) (hdl : Handle) (parsed : Parsed) : Answers hdl (serve env hdl parsed) := by
  cases parsed with
  | thrown what root => exact answers_raise _
  | rejected root => exact answers_raise _
  | accepted root =>
    have hread : Unchanged World.responses (readCmdType root) :=
      steps_bind (steps_ofExcept _) fun _ => steps_bind (steps_ofExcept _) fun _ => steps_pure _
    refine answers_bind hread fun r => ?_
    cases Cmd.ofString r.1 with
    | some cmd => exact answers_perform env hdl r.2 cmd
    | none => exact answers_raise _

theorem run_readCmdType (root found after : Json.Value) (text : String) (w : World)
    (hr : root.resolveReference "CmdType" = .ok (found, after)) (ht : found.asString = .ok text) :
    run (readCmdType root) w = (.ok (text, after), w) := by
  rw [readCmdType]
  rw [run_bind_ok _ _ _ _ _ (run_ofExcept_ok _ _ w hr), run_bind_ok _ _ _ _ _ (run_ofExcept_ok _ _ w ht)]
  rfl

theorem run_readCmdType_raises (root : Json.Value) (w : World) (h : ¬ root.HasText "CmdType") :
    ∃ e, run (readCmdType root) w = (.error e, w) := by
  rw [readCmdType]
  obtain ⟨what, hr⟩ | ⟨found, after, what, hr, ht⟩ := root.no_text "CmdType" h
  · rw [hr]
    exact ⟨.other what, rfl⟩
  · rw [run_bind_ok _ _ _ _ _ (run_ofExcept_ok _ _ w hr), ht]
    exact ⟨.other what, rfl⟩

theorem run_reportError (hdl : Handle) (root : Json.Value) (e : Exn) (w : World) (h : root.HasText "CmdType") :
    ∃ w' r, run (reportError hdl root e) w = (.ok (), w') ∧ w'.responses = w.responses ++ [r] ∧
      r.handle = hdl ∧ r.ok = false := by
  obtain ⟨found, after, text, hr, ht⟩ := root.text_of_hasText "CmdType" h
  rw [reportError]
  rw [run_bind_ok _ _ _ _ _ (run_readCmdType root found after text w hr ht)]
  refine ⟨_, errorResponse hdl text e, rfl, rfl, ?_, ?_⟩
  · cases e <;> rfl
  · cases e <;> rfl

/-- Reading the command does not make the root harder to read again. -/
theorem hasText_rootAfter (parsed : Parsed) (h : parsed.root.HasText "CmdType") :
    (rootAfter parsed).HasText "CmdType" := by
  cases parsed with
  | thrown what root => exact h
  | rejected root => exact h
  | accepted root =>
    obtain ⟨found, after, text, hr, ht⟩ := root.text_of_hasText "CmdType" h
    have ha := root.resolveReference_again found after "CmdType" hr
    have hroot : rootAfter (.accepted root) = after := by simp only [rootAfter, hr]
    rw [hroot]
    by_contra hn
    obtain ⟨what, he⟩ | ⟨found', after', what, he, ht'⟩ := after.no_text "CmdType" hn
    · rw [ha] at he
      cases he
    · rw [ha] at he
      cases he
      rw [ht] at ht'
      cases ht'

/-- The request is served without an exception escaping: one response goes
out, and it is an error if the command failed. -/
def Served (env : Env) (hdl : Handle) (msg : List UInt8) (w : World) : Prop :=
  ∃ w' r, run (clientRequest env hdl msg) w = (.ok (), w') ∧ w'.responses = w.responses ++ [r] ∧
    r.handle = hdl ∧ ((run (serve env hdl (env.parse msg)) w).1.isOk = false → r.ok = false)

theorem served_of_hasText (env : Env) (hdl : Handle) (msg : List UInt8) (w : World)
    (h : (env.parse msg).root.HasText "CmdType") : Served env hdl msg w := by
  rw [Served, clientRequest]
  rw [run_handle]
  obtain ⟨e, t, ht, hsame⟩ | ⟨t, r, ht, hone, hh⟩ := answers_serve env hdl (env.parse msg) w
  · obtain ⟨w', r, hw', hone, hh, hok⟩ := run_reportError hdl _ e t (hasText_rootAfter _ h)
    rw [ht]
    exact ⟨w', r, hw', by rw [hone, hsame], hh, fun _ => hok⟩
  · rw [ht]
    exact ⟨t, r, rfl, hone, hh, fun hn => by cases hn⟩

theorem serve_raises (env : Env) (hdl : Handle) (parsed : Parsed) (w : World)
    (h : ¬ parsed.root.HasText "CmdType") : ∃ e t, run (serve env hdl parsed) w = (.error e, t) := by
  cases parsed with
  | thrown what root => exact ⟨_, w, rfl⟩
  | rejected root => exact ⟨_, w, rfl⟩
  | accepted root =>
    obtain ⟨e, he⟩ := run_readCmdType_raises root w h
    exact ⟨e, w, run_bind_error _ _ _ _ _ he⟩

theorem not_hasText_rootAfter (parsed : Parsed) (h : ¬ parsed.root.HasText "CmdType") :
    ¬ (rootAfter parsed).HasText "CmdType" := by
  cases parsed with
  | thrown what root => exact h
  | rejected root => exact h
  | accepted root =>
    intro ha
    obtain ⟨what, hr⟩ | ⟨found, after, what, hr, ht⟩ := root.no_text "CmdType" h
    · have hroot : rootAfter (.accepted root) = root := by simp only [rootAfter, hr]
      rw [hroot] at ha
      exact h ha
    · have hroot : rootAfter (.accepted root) = after := by simp only [rootAfter, hr]
      rw [hroot] at ha
      obtain ⟨found', after', text, hr', ht'⟩ := after.text_of_hasText "CmdType" ha
      rw [root.resolveReference_again found after "CmdType" hr] at hr'
      cases hr'
      rw [ht] at ht'
      cases ht'

/-- No exception escapes exactly when the parser leaves a root whose command
can be read as text. -/
theorem clientRequest_served_iff (env : Env) (hdl : Handle) (msg : List UInt8) (w : World) :
    Served env hdl msg w ↔ (env.parse msg).root.HasText "CmdType" := by
  refine ⟨fun hs => ?_, served_of_hasText env hdl msg w⟩
  by_contra hn
  obtain ⟨w', r, hrun, -⟩ := hs
  obtain ⟨e, t, hserve⟩ := serve_raises env hdl (env.parse msg) w hn
  obtain ⟨e', hread⟩ := run_readCmdType_raises _ t (not_hasText_rootAfter _ hn)
  rw [clientRequest, run_handle, hserve] at hrun
  have hreport : run (reportError hdl (rootAfter (env.parse msg)) e) t = (.error e', t) :=
    run_bind_error _ _ _ _ _ hread
  rw [show run (reportError hdl (rootAfter (env.parse msg)) e) t = (.ok (), w') from hrun] at hreport
  cases hreport

/-- The message `[]` is valid JSON and takes the server down before any login. -/
theorem empty_array_escapes : ¬ Served { quietEnv with parse := fun _ => .accepted (.array []) } 1 [91, 93] {} := by
  rintro ⟨w', r, hrun, -⟩
  cases hrun

end BitPark.ClientRequest
