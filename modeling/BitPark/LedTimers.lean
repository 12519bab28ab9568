import BitPark.Server
import BitPark.Stepwise

namespace BitPark.LedTimers

open BitPark.Server BitPark.Stepwise

/-! The texts that stand on a display for some seconds, and the timers that
replace them. The calls run in threads of their own, the handlers of the timers
one after the other in `ios_thd_`. -/

/-- Which of the two maps a timer is kept in. -/
inductive Place where
  | entrance
  | exit
deriving DecidableEq

/-- A call of `led_show_plate_number` or of `led_show_charge`. -/
structure Show where
  place : Place
  ip : String
  content : LedContent
  /-- A timer replaces the text. -/
  timed : Bool

def ledShowPlateNumber (deviceIp plateNumber : String) : Show := ⟨.entrance, deviceIp, .plate plateNumber, true⟩

def ledShowCharge (deviceIp : String) (charge : ℚ) (duration : Option ℤ) : Show :=
  ⟨.exit, deviceIp, .charge charge, duration.isSome⟩

structure Timer where
  id : ℕ
  place : Place
  ip : String
deriving DecidableEq

/-- How far a call has come: the timers are canceled, the text is sent, its
timer is in the map. The wait ends it. -/
inductive Phase where
  | canceled
  | sent
  | listed (timer : Timer)

structure Call where
  request : Show
  phase : Phase

/-- A display shows a text until the next one. -/
structure Text where
  content : LedContent
  temporary : Bool

structure Panel where
  shown : String → Option Text := fun _ => none
  /-- `entrance_led_timers_` and `exit_led_timers_`. -/
  timers : Place → String → List Timer := fun _ _ => []
  /-- The timers with a wait that runs. -/
  armed : List Timer := []
  /-- The handlers that are to run, and whether their wait was aborted. -/
  queue : List (Timer × Bool) := []
  running : Option Timer := none
  calls : List Call := []
  ids : ℕ := 0

/-- What a handler finds: the answers of the queries, none for those that raise,
and the displays that can be reached. -/
structure Surroundings where
  greeting : Option String
  remainParking : Option ℤ
  entrances : Option (List String)
  arrives : String → Bool

/-- What becomes of a command: the display carries it out and answers, it
carries it out and no good answer comes in time, or the command is lost. -/
inductive Outcome where
  | answered
  | unanswered
  | lost
deriving DecidableEq

inductive Event where
  | call (request : Show)
  | send (i : ℕ) (outcome : Outcome)
  | list (i : ℕ)
  | wait (i : ℕ)
  | expire (timer : Timer)
  | take (i : ℕ)
  | handle (found : Surroundings)
  | put (ip : String) (content : LedContent)

def showText (p : Panel) (ip : String) (text : Text) : Panel :=
  { p with shown := Function.update p.shown ip (some text) }

/-- `cancel` aborts a wait that runs; a handler that is already queued is not called back. -/
def cancelTimers (p : Panel) (place : Place) (ip : String) : Panel :=
  let timers := p.timers place ip
  { p with
    timers := Function.update p.timers place (Function.update (p.timers place) ip [])
    armed := p.armed.filter (· ∉ timers)
    queue := p.queue ++ (p.armed.filter (· ∈ timers)).map (·, true) }

/-- What replaces a text, and on which displays. -/
def replacement (t : Timer) (found : Surroundings) : Option (LedContent × List String) := do
  let greeting ← found.greeting
  if greeting ≠ "" then pure (.greeting greeting, [t.ip])
  else
    match t.place with
    | .exit => pure (.clear, [t.ip])
    | .entrance =>
      let number ← found.remainParking
      let devices ← found.entrances
      pure (.remainParking number, devices)

def showAll (p : Panel) (content : LedContent) (ips : List String) : Panel :=
  ips.foldl (fun p ip => showText p ip ⟨content, false⟩) p

/-- `handle_entrance_led_show_timer` and `handle_exit_led_show_timer` without an error. -/
def handleShowTimer (p : Panel) (t : Timer) (found : Surroundings) : Panel :=
  match replacement t found with
  | none => p
  | some (content, ips) => showAll p content (ips.filter found.arrives)

def setCall (p : Panel) (i : ℕ) (phase : Phase) (request : Show) : Panel :=
  { p with calls := p.calls.set i ⟨request, phase⟩ }

def endCall (p : Panel) (i : ℕ) : Panel := { p with calls := p.calls.eraseIdx i }

/-- One critical section, one command, one wait or one handler. -/
def step (p : Panel) : Event → Option Panel
  | .call request =>
    let q := cancelTimers p request.place request.ip
    some { q with calls := q.calls ++ [⟨request, .canceled⟩] }
  | .send i outcome =>
    match p.calls[i]? with
    | some ⟨request, .canceled⟩ =>
      let q := if outcome = .lost then p else showText p request.ip ⟨request.content, request.timed⟩
      -- without an answer the call raises
      some (if outcome = .answered ∧ request.timed then setCall q i .sent request else endCall q i)
    | _ => none
  | .list i =>
    match p.calls[i]? with
    | some ⟨request, .sent⟩ =>
      let t : Timer := ⟨p.ids, request.place, request.ip⟩
      let listed := p.timers request.place request.ip ++ [t]
      let q := setCall p i (.listed t) request
      some { q with
        ids := p.ids + 1
        timers := Function.update p.timers request.place (Function.update (p.timers request.place) request.ip listed) }
    | _ => none
  | .wait i =>
    match p.calls[i]? with
    | some ⟨_, .listed t⟩ =>
      let q := endCall p i
      some { q with armed := p.armed ++ [t] }
    | _ => none
  | .expire t =>
    if t ∈ p.armed then some { p with armed := p.armed.erase t, queue := p.queue ++ [(t, false)] } else none
  | .take i =>
    match p.running, p.queue[i]? with
    | none, some (t, aborted) =>
      some { p with queue := p.queue.eraseIdx i, running := if aborted then none else some t }
    | _, _ => none
  | .handle found =>
    match p.running with
    | some t => some { handleShowTimer p t found with running := none }
    | none => none
  | .put ip content => some (showText p ip ⟨content, false⟩)

/-- An event that is not possible changes nothing. -/
def next (p : Panel) (e : Event) : Panel := (step p e).getD p

/-! What is under way for a display. -/

def Temporary (p : Panel) (ip : String) : Prop := ∃ text, p.shown ip = some text ∧ text.temporary = true

/-- A call, a timer or a handler that has the display still to change. -/
inductive Underway (p : Panel) (ip : String) : Prop where
  | call (c : Call) (hc : c ∈ p.calls) (hip : c.request.ip = ip)
  | armed (t : Timer) (ht : t ∈ p.armed) (hip : t.ip = ip)
  | queued (t : Timer) (ht : (t, false) ∈ p.queue) (hip : t.ip = ip)
  | running (t : Timer) (ht : p.running = some t) (hip : t.ip = ip)

/-- The timers are kept under the address of their display. -/
structure Filed (p : Panel) : Prop where
  timers : ∀ place ip, ∀ t ∈ p.timers place ip, t.ip = ip
  calls : ∀ c ∈ p.calls, ∀ t, c.phase = .listed t → t.ip = c.request.ip

/-- The display answers the commands of the calls, and the handlers of its timers replace its text. -/
def Reached (ip : String) (p : Panel) : Event → Prop
  | .send i outcome => ∀ c, p.calls[i]? = some c → c.request.ip = ip → outcome = .answered
  | .handle found => ∀ t, p.running = some t → t.ip = ip →
      ∃ content ips, replacement t found = some (content, ips) ∧ ip ∈ ips ∧ found.arrives ip = true
  | _ => True

theorem filed_cancelTimers (p : Panel) (place : Place) (ip : String) (h : Filed p) :
    Filed (cancelTimers p place ip) where
  timers := fun place' ip' t ht => by
    by_cases hp : place' = place
    · subst hp
      by_cases hip : ip' = ip
      · subst hip
        simp [cancelTimers] at ht
      · exact h.timers place' ip' t (by simpa [cancelTimers, hip] using ht)
    · exact h.timers place' ip' t (by simpa [cancelTimers, hp] using ht)
  calls := h.calls

theorem underway_same (ip : String) (p q : Panel) (hcalls : q.calls = p.calls) (harmed : q.armed = p.armed)
    (hqueue : q.queue = p.queue) (hrunning : q.running = p.running) (h : Underway p ip) : Underway q ip := by
  cases h with
  | call c hc hip => exact .call c (hcalls ▸ hc) hip
  | armed t ht hip => exact .armed t (harmed ▸ ht) hip
  | queued t ht hip => exact .queued t (hqueue ▸ ht) hip
  | running t ht hip => exact .running t (hrunning ▸ ht) hip

theorem showAll_shown (p : Panel) (content : LedContent) (ips : List String) :
    showAll p content ips = { p with shown := (showAll p content ips).shown } ∧
      ∀ ip, (showAll p content ips).shown ip = if ip ∈ ips then some ⟨content, false⟩ else p.shown ip := by
  induction ips generalizing p with
  | nil => exact ⟨rfl, fun ip => by simp [showAll]⟩
  | cons x ips ih =>
    obtain ⟨hsame, hshown⟩ := ih (showText p x ⟨content, false⟩)
    refine ⟨hsame, fun ip => (hshown ip).trans ?_⟩
    by_cases hx : ip = x
    · simp [showText, hx]
    · simp [showText, hx]

/-! Every event keeps a temporary text under way to be replaced. -/

/-- While a display shows a temporary text, something is under way for it. -/
structure Kept (ip : String) (p : Panel) : Prop where
  filed : Filed p
  covered : Temporary p ip → Underway p ip

section Events

variable (ip : String) (p : Panel)

/-- The timers that a call cancels are those of its own display. -/
theorem kept_call (request : Show) (h : Kept ip p) : Kept ip (next p (.call request)) where
  filed :=
    ⟨(filed_cancelTimers p request.place request.ip h.filed).timers, fun c hc t ht => by
      rcases List.mem_append.mp hc with hc | hc
      · exact h.filed.calls c hc t ht
      · obtain rfl := List.mem_singleton.mp hc
        cases ht⟩
  covered := fun htemp => by
    by_cases hown : request.ip = ip
    · exact .call ⟨request, .canceled⟩ (List.mem_append_right _ (List.mem_singleton_self _)) hown
    · cases h.covered htemp with
      | call c hc hip => exact .call c (List.mem_append_left _ hc) hip
      | armed t ht hip =>
        refine .armed t (List.mem_filter.mpr ⟨ht, decide_eq_true fun hin => ?_⟩) hip
        exact hown ((h.filed.timers _ _ t hin).symm.trans hip)
      | queued t ht hip => exact .queued t (List.mem_append_left _ ht) hip
      | running t ht hip => exact .running t ht hip

/-- A call that goes on is still for its display. -/
theorem asked_set (phase : Phase) {i : ℕ} {request : Show} {old : Phase} {calls : List Call}
    (hi : calls[i]? = some ⟨request, old⟩) (d : Call) (hd : d ∈ calls) :
    ∃ c ∈ calls.set i ⟨request, phase⟩, c.request = d.request := by
  obtain ⟨hlt, hget⟩ := List.getElem?_eq_some_iff.mp hi
  obtain ⟨j, hj, rfl⟩ := List.mem_iff_getElem.mp hd
  by_cases hij : i = j
  · subst hij
    exact ⟨_, List.mem_set hlt _, by rw [hget]⟩
  · exact ⟨calls[j], List.mem_of_getElem? (by rw [List.getElem?_set_ne hij, List.getElem?_eq_getElem hj]), rfl⟩

theorem mem_endCall {i : ℕ} {c : Call} {calls : List Call} (hi : calls[i]? = some c) (d : Call) (hd : d ∈ calls) :
    d = c ∨ d ∈ calls.eraseIdx i := by
  obtain ⟨j, hj, rfl⟩ := List.mem_iff_getElem.mp hd
  by_cases hij : i = j
  · subst hij
    rw [List.getElem?_eq_getElem hj] at hi
    exact .inl (Option.some.inj hi)
  · exact .inr (List.mem_eraseIdx_iff_getElem?.mpr ⟨j, fun h => hij h.symm, List.getElem?_eq_getElem hj⟩)

theorem filed_setCall (i : ℕ) (phase : Phase) (request : Show) (h : Filed p)
    (hphase : ∀ t, phase = .listed t → t.ip = request.ip) : Filed (setCall p i phase request) where
  timers := h.timers
  calls := fun c hc t ht => by
    obtain hc | rfl := List.mem_or_eq_of_mem_set hc
    · exact h.calls c hc t ht
    · exact hphase t ht

theorem filed_endCall (i : ℕ) (h : Filed p) : Filed (endCall p i) :=
  ⟨h.timers, fun c hc => h.calls c (List.mem_of_mem_eraseIdx hc)⟩

theorem underway_setCall (i : ℕ) (request : Show) (old phase : Phase) (hi : p.calls[i]? = some ⟨request, old⟩)
    (h : Underway p ip) : Underway (setCall p i phase request) ip := by
  cases h with
  | call d hd hip =>
    obtain ⟨c, hc, heq⟩ := asked_set phase hi d hd
    exact .call c hc (heq ▸ hip)
  | armed t ht hip => exact .armed t ht hip
  | queued t ht hip => exact .queued t ht hip
  | running t ht hip => exact .running t ht hip

/-- A call that ends leaves what is under way for the other displays. -/
theorem underway_endCall (i : ℕ) (c : Call) (hi : p.calls[i]? = some c) (hother : c.request.ip ≠ ip)
    (h : Underway p ip) : Underway (endCall p i) ip := by
  cases h with
  | call d hd hip =>
    obtain rfl | hd := mem_endCall hi d hd
    · exact absurd hip hother
    · exact .call d hd hip
  | armed t ht hip => exact .armed t ht hip
  | queued t ht hip => exact .queued t ht hip
  | running t ht hip => exact .running t ht hip

theorem temporary_showText (x : String) (text : Text) (htemp : Temporary (showText p x text) ip) :
    (x = ip ∧ text.temporary = true) ∨ (x ≠ ip ∧ Temporary p ip) := by
  obtain ⟨shown, hshown, htemporary⟩ := htemp
  by_cases hx : x = ip
  · subst hx
    simp only [showText, Function.update_self, Option.some.injEq] at hshown
    exact .inl ⟨rfl, hshown ▸ htemporary⟩
  · exact .inr ⟨hx, shown, by simpa [showText, Ne.symm hx] using hshown, htemporary⟩

/-- A text with an answer is followed by its timer, or stays. -/
theorem kept_send (i : ℕ) (outcome : Outcome) (h : Kept ip p) (hr : Reached ip p (.send i outcome)) :
    Kept ip (next p (.send i outcome)) := by
  cases hi : p.calls[i]? with
  | none => rwa [next, step, hi]
  | some c =>
    obtain ⟨request, phase⟩ := c
    cases phase with
    | sent => rwa [next, step, hi]
    | listed t => rwa [next, step, hi]
    | canceled =>
      have hreach : request.ip = ip → outcome = .answered := hr _ hi
      let q := if outcome = .lost then p else showText p request.ip ⟨request.content, request.timed⟩
      have hq : q = { p with shown := q.shown } := by
        dsimp only [q, showText]
        split_ifs <;> rfl
      have hpast : next p (.send i outcome) =
          if outcome = .answered ∧ request.timed = true then setCall q i .sent request else endCall q i := by
        rw [next, step, hi, Option.getD_some]
      have hfiled : Filed q := by
        rw [hq]
        exact ⟨h.filed.timers, h.filed.calls⟩
      have hunder : ∀ x, Underway p x → Underway q x := fun x hx =>
        underway_same x p q (by rw [hq]) (by rw [hq]) (by rw [hq]) (by rw [hq]) hx
      have hcall : q.calls[i]? = some ⟨request, .canceled⟩ := by rw [hq, hi]
      -- a text that is new and temporary is that of this call
      have hnew : Temporary q ip → (request.ip = ip ∧ request.timed = true) ∨ Temporary p ip := by
        intro htemp
        dsimp only [q] at htemp
        split_ifs at htemp
        · exact .inr htemp
        · exact (temporary_showText ip p request.ip ⟨request.content, request.timed⟩ htemp).imp_right And.right
      rw [hpast]
      split_ifs with hanswered
      · refine ⟨filed_setCall q i _ _ hfiled (by simp), fun htemp => ?_⟩
        obtain ⟨hip, -⟩ | hold := hnew htemp
        · obtain ⟨hlt, -⟩ := List.getElem?_eq_some_iff.mp hcall
          exact .call ⟨request, .sent⟩ (List.mem_set hlt _) hip
        · exact underway_setCall ip q i request .canceled .sent hcall (hunder ip (h.covered hold))
      · refine ⟨filed_endCall q i hfiled, fun htemp => ?_⟩
        by_cases hip : request.ip = ip
        · have hlasting : ¬ request.timed = true := fun htimed => hanswered ⟨hreach hip, htimed⟩
          have hshown : q = showText p request.ip ⟨request.content, request.timed⟩ := by
            dsimp only [q]
            rw [hreach hip, if_neg (by decide)]
          change Temporary q ip at htemp
          rw [hshown] at htemp
          obtain ⟨-, htimed⟩ | ⟨hother, -⟩ :=
            temporary_showText ip p request.ip ⟨request.content, request.timed⟩ htemp
          · exact absurd htimed hlasting
          · exact absurd hip hother
        · obtain ⟨hown, -⟩ | hold := hnew htemp
          · exact absurd hown hip
          · exact underway_endCall ip q i _ hcall hip (hunder ip (h.covered hold))

theorem kept_list (i : ℕ) (h : Kept ip p) : Kept ip (next p (.list i)) := by
  cases hi : p.calls[i]? with
  | none => rwa [next, step, hi]
  | some c =>
    obtain ⟨request, phase⟩ := c
    cases phase with
    | canceled => rwa [next, step, hi]
    | listed t => rwa [next, step, hi]
    | sent =>
      have hfiled := filed_setCall p i (.listed ⟨p.ids, request.place, request.ip⟩) request h.filed
        fun t ht => by cases ht; rfl
      rw [next, step, hi]
      refine ⟨⟨fun place x t ht => ?_, hfiled.calls⟩, fun htemp => ?_⟩
      · by_cases hp : place = request.place
        · subst hp
          by_cases hx : x = request.ip
          · subst hx
            simp only [Option.getD_some, Function.update_self, List.mem_append, List.mem_singleton] at ht
            obtain ht | rfl := ht
            · exact h.filed.timers _ _ t ht
            · rfl
          · exact h.filed.timers _ x t (by simpa [hx] using ht)
        · exact h.filed.timers place x t (by simpa [hp] using ht)
      · have hstill := underway_setCall ip p i request .sent (.listed ⟨p.ids, request.place, request.ip⟩) hi
          (h.covered htemp)
        exact underway_same ip (setCall p i (.listed ⟨p.ids, request.place, request.ip⟩) request) _ rfl rfl rfl rfl
          hstill

/-- The call ends when its timer runs. -/
theorem kept_wait (i : ℕ) (h : Kept ip p) : Kept ip (next p (.wait i)) := by
  cases hi : p.calls[i]? with
  | none => rwa [next, step, hi]
  | some c =>
    obtain ⟨request, phase⟩ := c
    cases phase with
    | canceled => rwa [next, step, hi]
    | sent => rwa [next, step, hi]
    | listed t =>
      have howner := h.filed.calls _ (List.mem_of_getElem? hi) t rfl
      have hfiled := filed_endCall p i h.filed
      rw [next, step, hi]
      refine ⟨⟨hfiled.timers, hfiled.calls⟩, fun htemp => ?_⟩
      by_cases hip : request.ip = ip
      · exact .armed t (List.mem_append_right _ (List.mem_singleton_self t)) (howner.trans hip)
      · cases underway_endCall ip p i _ hi hip (h.covered htemp) with
        | call d hd hd' => exact .call d hd hd'
        | armed u hu hu' => exact .armed u (List.mem_append_left _ hu) hu'
        | queued u hu hu' => exact .queued u hu hu'
        | running u hu hu' => exact .running u hu hu'

theorem kept_expire (t : Timer) (h : Kept ip p) : Kept ip (next p (.expire t)) := by
  rw [next, step]
  split_ifs with ht
  · refine ⟨⟨h.filed.timers, h.filed.calls⟩, fun htemp => ?_⟩
    cases h.covered htemp with
    | call c hc hip => exact .call c hc hip
    | armed u hu hip =>
      by_cases hut : u = t
      · subst hut
        exact .queued u (List.mem_append_right _ (List.mem_singleton_self _)) hip
      · exact .armed u ((List.mem_erase_of_ne hut).mpr hu) hip
    | queued u hu hip => exact .queued u (List.mem_append_left _ hu) hip
    | running u hu hip => exact .running u hu hip
  · exact h

theorem kept_take (i : ℕ) (h : Kept ip p) : Kept ip (next p (.take i)) := by
  cases hrun : p.running with
  | some t => rwa [next, step, hrun]
  | none =>
    cases hi : p.queue[i]? with
    | none => rwa [next, step, hrun, hi]
    | some handler =>
      obtain ⟨t, aborted⟩ := handler
      rw [next, step, hrun, hi]
      refine ⟨⟨h.filed.timers, h.filed.calls⟩, fun htemp => ?_⟩
      cases h.covered htemp with
      | call c hc hip => exact .call c hc hip
      | armed u hu hip => exact .armed u hu hip
      | running u hu hip =>
        rw [hrun] at hu
        cases hu
      | queued u hu hip =>
        obtain ⟨j, hj⟩ := List.mem_iff_getElem?.mp hu
        by_cases hij : j = i
        · subst hij
          obtain ⟨rfl, rfl⟩ := Prod.mk.inj (Option.some.inj (hj.symm.trans hi))
          exact .running u rfl hip
        · exact .queued u (List.mem_eraseIdx_iff_getElem?.mpr ⟨j, hij, hj⟩) hip

theorem temporary_showAll (content : LedContent) (ips : List String)
    (htemp : Temporary (showAll p content ips) ip) : ip ∉ ips ∧ Temporary p ip := by
  obtain ⟨text, htext, htemporary⟩ := htemp
  rw [(showAll_shown p content ips).2] at htext
  split_ifs at htext with hin
  · cases htext
    cases htemporary
  · exact ⟨hin, text, htext, htemporary⟩

/-- A handler replaces the text of its display. -/
theorem kept_handle (found : Surroundings) (h : Kept ip p) (hr : Reached ip p (.handle found)) :
    Kept ip (next p (.handle found)) := by
  cases hrun : p.running with
  | none => rwa [next, step, hrun]
  | some t =>
    have hpast : next p (.handle found) = { handleShowTimer p t found with running := none } := by
      rw [next, step, hrun, Option.getD_some]
    have hother : ∀ q : Panel, t.ip ≠ ip → q.calls = p.calls → q.armed = p.armed → q.queue = p.queue →
        Underway p ip → Underway q ip := fun q hne hcalls harmed hqueue hold => by
      cases hold with
      | call c hc hip => exact .call c (hcalls ▸ hc) hip
      | armed u hu hip => exact .armed u (harmed ▸ hu) hip
      | queued u hu hip => exact .queued u (hqueue ▸ hu) hip
      | running u hu hip =>
        obtain rfl := Option.some.inj (hrun.symm.trans hu)
        exact absurd hip hne
    rw [hpast, handleShowTimer]
    cases hreplace : replacement t found with
    | none =>
      refine ⟨⟨h.filed.timers, h.filed.calls⟩, fun htemp => hother _ (fun hip => ?_) rfl rfl rfl (h.covered htemp)⟩
      obtain ⟨content, ips, hsome, -⟩ := hr t hrun hip
      rw [hreplace] at hsome
      cases hsome
    | some r =>
      obtain ⟨content, ips⟩ := r
      have hsame := (showAll_shown p content (ips.filter found.arrives)).1
      dsimp only
      refine ⟨⟨?_, ?_⟩, fun htemp => ?_⟩
      · rw [hsame]
        exact h.filed.timers
      · rw [hsame]
        exact h.filed.calls
      · obtain ⟨hnot, hold⟩ := temporary_showAll ip p content (ips.filter found.arrives) htemp
        have hne : t.ip ≠ ip := fun hip => by
          obtain ⟨content', ips', hsome, hin, harrives⟩ := hr t hrun hip
          obtain ⟨rfl, rfl⟩ := Prod.mk.inj (Option.some.inj (hreplace.symm.trans hsome))
          exact hnot (List.mem_filter.mpr ⟨hin, harrives⟩)
        exact hother _ hne (by rw [hsame]) (by rw [hsame]) (by rw [hsame]) (h.covered hold)

theorem kept_put (x : String) (content : LedContent) (h : Kept ip p) : Kept ip (next p (.put x content)) where
  filed := ⟨h.filed.timers, h.filed.calls⟩
  covered := fun htemp => by
    obtain ⟨-, hlasting⟩ | ⟨-, hold⟩ := temporary_showText ip p x ⟨content, false⟩ htemp
    · cases hlasting
    · exact underway_same ip p _ rfl rfl rfl rfl (h.covered hold)

theorem kept_next (e : Event) (h : Kept ip p) (hr : Reached ip p e) : Kept ip (next p e) := by
  cases e with
  | call request => exact kept_call ip p request h
  | send i outcome => exact kept_send ip p i outcome h hr
  | list i => exact kept_list ip p i h
  | wait i => exact kept_wait ip p i h
  | expire t => exact kept_expire ip p t h
  | take i => exact kept_take ip p i h
  | handle found => exact kept_handle ip p found h hr
  | put x content => exact kept_put ip p x content h

end Events

/-- Whatever the order of the threads, a display that answers its commands is
never left with a temporary text: as long as it shows one, something is under way for it. -/
theorem temporary_replaced (ip : String) (es : List Event) (h : Along next (Reached ip) {} es) :
    Temporary (es.foldl next {}) ip → Underway (es.foldl next {}) ip := by
  have hempty : Kept ip {} := ⟨⟨fun _ _ t ht => absurd ht List.not_mem_nil, fun c hc => absurd hc List.not_mem_nil⟩,
    fun ⟨text, htext, _⟩ => by cases htext⟩
  exact (run_invariant (Kept ip) (Reached ip) (fun p e hk hr => kept_next ip p e hk hr) {} es hempty h).covered

/-- A plate number is shown, and its timer runs. -/
def greeted : List Event := [.call (ledShowPlateNumber "10.0.0.1" "A12345"), .send 0 .answered, .list 0, .wait 0]

theorem temporary_replaced_greeted : Along next (Reached "10.0.0.1") {} greeted ∧
    Temporary (greeted.foldl next {}) "10.0.0.1" ∧ Underway (greeted.foldl next {}) "10.0.0.1" := by
  have halong : Along next (Reached "10.0.0.1") {} greeted :=
    ⟨trivial, fun _ _ _ => rfl, trivial, trivial, trivial⟩
  have htemp : Temporary (greeted.foldl next {}) "10.0.0.1" := ⟨_, rfl, rfl⟩
  exact ⟨halong, htemp, temporary_replaced "10.0.0.1" greeted halong htemp⟩

/-- A call cancels the timers before it sends its text: if no answer comes, the
text before it stays or its own does, and nothing will replace it. -/
theorem unanswered_text_stays (p : Panel) (request : Show) (outcome : Outcome) (ho : outcome ≠ .answered)
    (hcalls : p.calls = []) (hrunning : p.running = none)
    (hqueue : ∀ t, (t, false) ∈ p.queue → t.ip ≠ request.ip)
    (harmed : ∀ t ∈ p.armed, t.ip = request.ip → t ∈ p.timers request.place request.ip) :
    let q := [.call request, .send 0 outcome].foldl next p
    q.shown request.ip = (if outcome = .lost then p.shown request.ip else some ⟨request.content, request.timed⟩) ∧
      ¬ Underway q request.ip := by
  have hcall : next p (.call request) =
      { cancelTimers p request.place request.ip with calls := [⟨request, .canceled⟩] } := by
    rw [next, step, Option.getD_some]
    simp only [cancelTimers, hcalls, List.nil_append]
  have hsend : [Event.call request, .send 0 outcome].foldl next p =
      { cancelTimers p request.place request.ip with
        calls := []
        shown := if outcome = .lost then p.shown
          else Function.update p.shown request.ip (some ⟨request.content, request.timed⟩) } := by
    rw [List.foldl_cons, hcall]
    cases outcome with
    | answered => exact absurd rfl ho
    | unanswered => rfl
    | lost => rfl
  dsimp only
  rw [hsend]
  constructor
  · split_ifs
    · rfl
    · exact Function.update_self _ _ _
  · intro h
    cases h with
    | call c hc hip => cases hc
    | armed t ht hip =>
      obtain ⟨hin, hnot⟩ := List.mem_filter.mp ht
      exact of_decide_eq_true hnot (harmed t hin hip)
    | queued t ht hip =>
      rcases List.mem_append.mp ht with ht | ht
      · exact hqueue t ht hip
      · obtain ⟨u, -, heq⟩ := List.mem_map.mp ht
        cases heq
    | running t ht hip =>
      have hnone : p.running = some t := ht
      rw [hrunning] at hnone
      cases hnone

end BitPark.LedTimers
