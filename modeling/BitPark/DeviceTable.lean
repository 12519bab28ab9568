import Mathlib.Data.List.Basic
import Mathlib.Tactic

namespace BitPark.DeviceTable

/-! The connections of the devices, `dts_clients_`, under the threads that
change them: the acceptor, the commands and the heartbeat. -/

/-- Each accepted connection is a new stream. -/
structure Client where
  stream : ℕ
  deriving DecidableEq

/-- The answers of `remote_endpoint` during one `new_client_notify`: of the new
client for the log, of each listed client, and of the new client again for each
comparison. -/
structure Endpoints where
  log : Except String String
  listed : Client → Except String String
  own : Client → Except String String

/-- The removal test of `new_client_notify`. -/
def sameIp (r : Endpoints) (c : Client) : Except String Bool :=
  match r.listed c with
  | .error _ => .ok true
  | .ok ip => (r.own c).map fun own => decide (ip = own)

/-- `std::list::remove_if`, which stops at an exception of its predicate. -/
def clientsRemoveClientIf (pred : Client → Except String Bool) : List Client → Except String Unit × List Client
  | [] => (.ok (), [])
  | c :: clients =>
    match pred c with
    | .error e => (.error e, c :: clients)
    | .ok true => clientsRemoveClientIf pred clients
    | .ok false =>
      let r := clientsRemoveClientIf pred clients
      (r.1, c :: r.2)

def clientsAddClient (clients : List Client) (client : Client) : List Client := clients ++ [client]

def clientsRemoveClient (clients : List Client) (client : Client) : List Client :=
  clients.filter (· ≠ client)

def newClientNotify (r : Endpoints) (clients : List Client) (client : Client) : List Client :=
  match r.log with
  | .error _ => clients
  | .ok _ =>
    match clientsRemoveClientIf (sameIp r) clients with
    | (.error _, left) => left
    | (.ok (), left) => clientsAddClient left client

def clientsFindClient (address : Client → Except String String) (ip : String) :
    List Client → Except String (Option Client)
  | [] => .ok none
  | c :: clients =>
    match address c with
    | .error e => .error e
    | .ok a => if a = ip then .ok (some c) else clientsFindClient address ip clients

/-- A heartbeat between its snapshot and its commit. -/
structure Heartbeat where
  kept : List Client := []
  rest : List Client

def Heartbeat.clients (b : Heartbeat) : List Client := b.kept ++ b.rest

structure Table where
  clients : List Client := []
  accepted : ℕ := 0
  commands : List Client := []
  beat : Option Heartbeat := none

inductive Event where
  | connect (r : Endpoints)
  | find (ip : String) (address : Client → Except String String)
  | answered (client : Client)
  | lost (client : Client)
  | snapshot
  | ping (client : Client) (answers : Bool)
  | commit

def pinged (b : Heartbeat) (client : Client) (rest : List Client) (answers : Bool) : Heartbeat :=
  if answers then ⟨b.kept ++ [client], rest⟩ else ⟨b.kept, rest⟩

def found (address : Client → Except String String) (ip : String) (clients : List Client) : List Client :=
  match clientsFindClient address ip clients with
  | .ok (some c) => [c]
  | _ => []

/-- One critical section, one command or one ping. -/
def step (t : Table) : Event → Option Table
  | .connect r => some { t with clients := newClientNotify r t.clients ⟨t.accepted⟩, accepted := t.accepted + 1 }
  | .find ip address => some { t with commands := found address ip t.clients ++ t.commands }
  | .answered c => if c ∈ t.commands then some { t with commands := t.commands.erase c } else none
  | .lost c =>
    if c ∈ t.commands then
      some { t with commands := t.commands.erase c, clients := clientsRemoveClient t.clients c }
    else none
  | .snapshot =>
    match t.beat with
    | none => some { t with beat := some { rest := t.clients } }
    | some _ => none
  | .ping c answers =>
    match t.beat with
    | some b =>
      match b.rest with
      | d :: rest => if d = c then some { t with beat := some (pinged b c rest answers) } else none
      | [] => none
    | none => none
  | .commit =>
    match t.beat with
    | some b => if b.rest = [] then some { t with clients := b.kept, beat := none } else none
    | none => none

def exec (t : Table) : List Event → Option Table
  | [] => some t
  | e :: es => (step t e).bind fun u => exec u es

/-- What may end a connection: a new one from the same address, one that finds
its address gone, a command that failed on it, and a ping that failed on it. -/
def Ends (c : Client) : Event → Prop
  | .connect r => (∃ e, r.listed c = .error e) ∨ ∃ ip, r.listed c = .ok ip ∧ r.own c = .ok ip
  | .lost d => d = c
  | .ping d answers => d = c ∧ answers = false
  | _ => False

theorem exec_append (es fs : List Event) (t u : Table) (h : exec t (es ++ fs) = some u) :
    ∃ v, exec t es = some v ∧ exec v fs = some u := by
  induction es generalizing t with
  | nil => exact ⟨t, rfl, h⟩
  | cons e es ih =>
    obtain ⟨v, hv, hu⟩ := Option.bind_eq_some_iff.mp h
    obtain ⟨w, hw, hr⟩ := ih v hu
    exact ⟨w, Option.bind_eq_some_iff.mpr ⟨v, hv, hw⟩, hr⟩

/-- A run keeps what each of its events keeps. -/
theorem exec_induct {P : Table → Prop} {Q : Event → Prop}
    (hstep : ∀ t e u, P t → ¬ Q e → step t e = some u → P u) (es : List Event) (t u : Table) (ht : P t)
    (h : exec t es = some u) : P u ∨ ∃ e ∈ es, Q e := by
  induction es generalizing t with
  | nil =>
    cases h
    exact .inl ht
  | cons e es ih =>
    obtain ⟨v, hv, hu⟩ := Option.bind_eq_some_iff.mp h
    by_cases he : Q e
    · exact .inr ⟨e, List.mem_cons_self, he⟩
    · obtain hp | ⟨f, hf, hq⟩ := ih v (hstep t e v ht he hv) hu
      · exact .inl hp
      · exact .inr ⟨f, List.mem_cons_of_mem e hf, hq⟩

theorem step_ping (t u : Table) (c : Client) (answers : Bool) (h : step t (.ping c answers) = some u) :
    ∃ kept rest, t.beat = some ⟨kept, c :: rest⟩ ∧
      u = { t with beat := some ⟨if answers then kept ++ [c] else kept, rest⟩ } := by
  obtain ⟨clients, accepted, commands, beat⟩ := t
  match beat with
  | none => cases h
  | some ⟨kept, []⟩ => cases h
  | some ⟨kept, d :: rest⟩ =>
    obtain ⟨rfl, h⟩ := Option.ite_none_right_eq_some.mp h
    refine ⟨kept, rest, rfl, ?_⟩
    cases answers <;> exact (Option.some.inj h).symm

theorem step_commit (t u : Table) (h : step t .commit = some u) :
    ∃ kept, t.beat = some ⟨kept, []⟩ ∧ u = { t with clients := kept, beat := none } := by
  obtain ⟨clients, accepted, commands, beat⟩ := t
  match beat with
  | none => cases h
  | some ⟨kept, d :: rest⟩ => cases h
  | some ⟨kept, []⟩ => exact ⟨kept, rfl, (Option.some.inj h).symm⟩

theorem step_snapshot (t u : Table) (h : step t .snapshot = some u) :
    t.beat = none ∧ u = { t with beat := some { rest := t.clients } } := by
  obtain ⟨clients, accepted, commands, beat⟩ := t
  match beat with
  | none => exact ⟨rfl, (Option.some.inj h).symm⟩
  | some b => cases h

theorem removeClientIf_sublist (pred : Client → Except String Bool) (clients : List Client) :
    (clientsRemoveClientIf pred clients).2.Sublist clients := by
  induction clients with
  | nil => exact List.Sublist.refl _
  | cons c clients ih =>
    rw [clientsRemoveClientIf]
    match pred c with
    | .error e => exact List.Sublist.refl _
    | .ok true => exact ih.cons c
    | .ok false => exact ih.cons_cons c

theorem mem_removeClientIf (pred : Client → Except String Bool) (clients : List Client) (c : Client)
    (h : c ∈ (clientsRemoveClientIf pred clients).2) : c ∈ clients := (removeClientIf_sublist pred clients).subset h

/-- Only a client the test is true of is removed. -/
theorem removeClientIf_keeps (pred : Client → Except String Bool) (clients : List Client) (c : Client)
    (hp : pred c ≠ .ok true) (h : c ∈ clients) : c ∈ (clientsRemoveClientIf pred clients).2 := by
  induction clients with
  | nil => exact h
  | cons d clients ih =>
    rw [clientsRemoveClientIf]
    match hd : pred d with
    | .error e => exact h
    | .ok true =>
      obtain rfl | hc := List.mem_cons.mp h
      · exact absurd hd hp
      · exact ih hc
    | .ok false =>
      obtain rfl | hc := List.mem_cons.mp h
      · exact List.mem_cons_self
      · exact List.mem_cons_of_mem d (ih hc)

theorem newClientNotify_subset (r : Endpoints) (clients : List Client) (client c : Client)
    (h : c ∈ newClientNotify r clients client) : c ∈ clients ∨ c = client := by
  unfold newClientNotify at h
  cases hl : r.log with
  | error e =>
    rw [hl] at h
    exact .inl h
  | ok ip =>
    rw [hl] at h
    dsimp only at h
    match hr : clientsRemoveClientIf (sameIp r) clients with
    | (.error e, left) =>
      rw [hr] at h
      exact .inl (mem_removeClientIf (sameIp r) clients c (by rw [hr]; exact h))
    | (.ok (), left) =>
      rw [hr] at h
      obtain hc | hc := List.mem_append.mp h
      · exact .inl (mem_removeClientIf (sameIp r) clients c (by rw [hr]; exact hc))
      · exact .inr (List.mem_singleton.mp hc)

theorem newClientNotify_keeps (r : Endpoints) (clients : List Client) (client c : Client)
    (hr : ¬ Ends c (.connect r)) (h : c ∈ clients) : c ∈ newClientNotify r clients client := by
  have hpred : sameIp r c ≠ .ok true := by
    intro hs
    refine hr ?_
    unfold sameIp at hs
    match hl : r.listed c with
    | .error e => exact .inl ⟨e, hl⟩
    | .ok ip =>
      rw [hl] at hs
      refine .inr ⟨ip, hl, ?_⟩
      match ho : r.own c with
      | .error e =>
        rw [ho] at hs
        cases hs
      | .ok own =>
        rw [ho] at hs
        have heq : ip = own := of_decide_eq_true (Except.ok.inj hs)
        rw [heq]
  have hkept := removeClientIf_keeps (sameIp r) clients c hpred h
  unfold newClientNotify
  cases r.log with
  | error e => exact h
  | ok ip =>
    dsimp only
    match hr : clientsRemoveClientIf (sameIp r) clients with
    | (.error e, left) =>
      rw [hr] at hkept
      exact hkept
    | (.ok (), left) =>
      rw [hr] at hkept
      exact List.mem_append_left _ hkept

theorem find_answers (address : Client → Except String String) (ip : String) (clients : List Client) (c : Client)
    (h : clientsFindClient address ip clients = .ok (some c)) : c ∈ clients ∧ address c = .ok ip := by
  induction clients with
  | nil => cases h
  | cons d clients ih =>
    rw [clientsFindClient] at h
    match ha : address d with
    | .error e =>
      rw [ha] at h
      cases h
    | .ok a =>
      rw [ha] at h
      dsimp only at h
      split_ifs at h with hip
      · cases h
        exact ⟨List.mem_cons_self, hip ▸ ha⟩
      · obtain ⟨hc, haddr⟩ := ih h
        exact ⟨List.mem_cons_of_mem d hc, haddr⟩

theorem found_subset (address : Client → Except String String) (ip : String) (clients : List Client) (c : Client)
    (h : c ∈ found address ip clients) : c ∈ clients := by
  rw [found] at h
  split at h
  · next d hfind =>
    rw [List.mem_singleton.mp h]
    exact (find_answers address ip clients d hfind).1
  · cases h

/-- Whatever is listed, copied or waited for was accepted before. -/
structure Numbered (t : Table) : Prop where
  clients : ∀ c ∈ t.clients, c.stream < t.accepted
  commands : ∀ c ∈ t.commands, c.stream < t.accepted
  beat : ∀ b, t.beat = some b → ∀ c ∈ b.clients, c.stream < t.accepted

/-- The client is listed, and kept by the heartbeat under way. -/
structure Connected (c : Client) (t : Table) : Prop where
  clients : c ∈ t.clients
  beat : ∀ b, t.beat = some b → c ∈ b.clients

/-- The client was accepted, is not listed, and not kept by the heartbeat under way. -/
structure Gone (c : Client) (t : Table) : Prop where
  accepted : c.stream < t.accepted
  clients : c ∉ t.clients
  beat : ∀ b, t.beat = some b → c ∉ b.clients

theorem numbered_step (t : Table) (e : Event) (u : Table) (ht : Numbered t) (h : step t e = some u) :
    Numbered u := by
  cases e with
  | connect r =>
    cases h
    refine ⟨fun c hc => ?_, fun c hc => Nat.lt_succ_of_lt (ht.commands c hc),
      fun b hb c hc => Nat.lt_succ_of_lt (ht.beat b hb c hc)⟩
    obtain hc | rfl := newClientNotify_subset r t.clients _ c hc
    · exact Nat.lt_succ_of_lt (ht.clients c hc)
    · exact Nat.lt_succ_self _
  | find ip address =>
    cases h
    refine ⟨ht.clients, fun c hc => ?_, ht.beat⟩
    obtain hc | hc := List.mem_append.mp hc
    · exact ht.clients c (found_subset address ip t.clients c hc)
    · exact ht.commands c hc
  | answered d =>
    obtain ⟨-, h⟩ := Option.ite_none_right_eq_some.mp h
    cases h
    exact ⟨ht.clients, fun c hc => ht.commands c (List.mem_of_mem_erase hc), ht.beat⟩
  | lost d =>
    obtain ⟨-, h⟩ := Option.ite_none_right_eq_some.mp h
    cases h
    exact ⟨fun c hc => ht.clients c (List.mem_of_mem_filter hc),
      fun c hc => ht.commands c (List.mem_of_mem_erase hc), ht.beat⟩
  | snapshot =>
    obtain ⟨-, rfl⟩ := step_snapshot t u h
    refine ⟨ht.clients, ht.commands, fun b hb c hc => ?_⟩
    cases hb
    exact ht.clients c hc
  | ping d answers =>
    obtain ⟨kept, rest, hb, rfl⟩ := step_ping t u d answers h
    refine ⟨ht.clients, ht.commands, fun b hb' c hc => ht.beat _ hb c ?_⟩
    cases hb'
    cases answers <;> simp [Heartbeat.clients] at hc ⊢ <;> tauto
  | commit =>
    obtain ⟨kept, hb, rfl⟩ := step_commit t u h
    exact ⟨fun c hc => ht.beat _ hb c (List.mem_append_left _ hc), ht.commands, fun b hb' => by cases hb'⟩

theorem numbered_exec (es : List Event) (t : Table) (h : exec {} es = some t) : Numbered t := by
  have hinit : Numbered {} := ⟨by simp, by simp, by simp⟩
  obtain ht | ⟨e, -, hf⟩ := exec_induct (Q := fun _ => False) (fun t e u ht _ => numbered_step t e u ht) es {} t
    hinit h
  · exact ht
  · exact hf.elim

/-- What an event does to the list and to the copy of the heartbeat. Besides
copying one to the other it registers a client, takes one away, or drops one
that did not answer. -/
theorem lists_step {P : List Client → Prop} (t : Table) (e : Event) (u : Table) (h : step t e = some u)
    (hclients : P t.clients) (hbeat : ∀ b, t.beat = some b → P b.clients)
    (hconnect : ∀ r, e = .connect r → P (newClientNotify r t.clients ⟨t.accepted⟩))
    (hlost : ∀ d, e = .lost d → P (clientsRemoveClient t.clients d))
    (hping : ∀ d kept rest, e = .ping d false → P (kept ++ d :: rest) → P (kept ++ rest)) :
    t.accepted ≤ u.accepted ∧ P u.clients ∧ ∀ b, u.beat = some b → P b.clients := by
  cases e with
  | connect r =>
    cases h
    exact ⟨Nat.le_succ _, hconnect r rfl, hbeat⟩
  | find ip address =>
    cases h
    exact ⟨le_rfl, hclients, hbeat⟩
  | answered d =>
    obtain ⟨-, h⟩ := Option.ite_none_right_eq_some.mp h
    cases h
    exact ⟨le_rfl, hclients, hbeat⟩
  | lost d =>
    obtain ⟨-, h⟩ := Option.ite_none_right_eq_some.mp h
    cases h
    exact ⟨le_rfl, hlost d rfl, hbeat⟩
  | snapshot =>
    obtain ⟨-, rfl⟩ := step_snapshot t u h
    refine ⟨le_rfl, hclients, fun b hb => ?_⟩
    cases hb
    exact hclients
  | ping d answers =>
    obtain ⟨kept, rest, hb, rfl⟩ := step_ping t u d answers h
    have hlist := hbeat _ hb
    refine ⟨le_rfl, hclients, fun b hb' => ?_⟩
    cases hb'
    cases answers with
    | true => simpa [Heartbeat.clients] using hlist
    | false => exact hping d kept rest rfl hlist
  | commit =>
    obtain ⟨kept, hb, rfl⟩ := step_commit t u h
    have hlist := hbeat _ hb
    refine ⟨le_rfl, ?_, fun b hb' => by cases hb'⟩
    rwa [Heartbeat.clients, List.append_nil] at hlist

theorem connected_step (c : Client) (t : Table) (e : Event) (u : Table) (ht : Connected c t) (he : ¬ Ends c e)
    (h : step t e = some u) : Connected c u := by
  obtain ⟨-, hclients, hbeat⟩ := lists_step (P := fun clients => c ∈ clients) t e u h ht.clients ht.beat
    (by
      rintro r rfl
      exact newClientNotify_keeps r t.clients _ c he ht.clients)
    (by
      rintro d rfl
      exact List.mem_filter.mpr ⟨ht.clients, decide_eq_true fun hc => he hc.symm⟩)
    (by
      rintro d kept rest rfl hc
      have hne : c ≠ d := fun hcd => he ⟨hcd.symm, rfl⟩
      simpa [hne] using hc)
  exact ⟨hclients, hbeat⟩

theorem gone_step (c : Client) (t : Table) (e : Event) (u : Table) (ht : Gone c t) (h : step t e = some u) :
    Gone c u := by
  obtain ⟨haccepted, hclients, hbeat⟩ := lists_step (P := fun clients => c ∉ clients) t e u h ht.clients ht.beat
    (by
      rintro r rfl hc
      obtain hc | rfl := newClientNotify_subset r t.clients _ c hc
      · exact ht.clients hc
      · exact absurd ht.accepted (lt_irrefl _))
    (by
      rintro d rfl hc
      exact ht.clients (List.mem_of_mem_filter hc))
    (by
      rintro d kept rest rfl hc hrest
      exact hc (((List.sublist_cons_self d rest).append_left kept).subset hrest))
  exact ⟨ht.accepted.trans_le haccepted, hclients, hbeat⟩

/-- No heartbeat between its snapshot and its commit has kept the client. -/
def Unkept (c : Client) (t : Table) : Prop := ∀ b, t.beat = some b → c ∉ b.clients

/-- A client that connects while no heartbeat is under way stays until one of
the events that may end a connection, and a client removed after a failed
command, while no heartbeat keeps it, is not listed again. -/
theorem connection_table (es : List Event) (u : Table) (h : exec {} es = some u) :
    (∀ before r after s, es = before ++ .connect r :: after → exec {} before = some s → s.beat = none →
      (⟨s.accepted⟩ : Client) ∈ newClientNotify r s.clients ⟨s.accepted⟩ →
      ⟨s.accepted⟩ ∈ u.clients ∨ ∃ e ∈ after, Ends ⟨s.accepted⟩ e) ∧
    ∀ before c after s, es = before ++ .lost c :: after → exec {} before = some s → Unkept c s → c ∉ u.clients := by
  constructor
  · intro before r after s hes hs hb hadded
    rw [hes] at h
    obtain ⟨s', hs', hrest⟩ := exec_append before _ {} u h
    obtain rfl : s = s' := Option.some.inj (hs.symm.trans hs')
    obtain ⟨t, ht, hafter⟩ := Option.bind_eq_some_iff.mp hrest
    cases ht
    have hconn : Connected ⟨s.accepted⟩ { s with
        clients := newClientNotify r s.clients ⟨s.accepted⟩, accepted := s.accepted + 1 } := by
      refine ⟨hadded, fun b hb' => ?_⟩
      rw [hb] at hb'
      cases hb'
    obtain hc | hend := exec_induct (connected_step ⟨s.accepted⟩) after _ u hconn hafter
    · exact .inl hc.clients
    · exact .inr hend
  · intro before c after s hes hs hb
    rw [hes] at h
    obtain ⟨s', hs', hrest⟩ := exec_append before _ {} u h
    obtain rfl : s = s' := Option.some.inj (hs.symm.trans hs')
    obtain ⟨t, ht, hafter⟩ := Option.bind_eq_some_iff.mp hrest
    obtain ⟨hmem, ht⟩ := Option.ite_none_right_eq_some.mp ht
    cases ht
    have hgone : Gone c { s with
        commands := s.commands.erase c, clients := clientsRemoveClient s.clients c } := by
      refine ⟨(numbered_exec before s hs).commands c hmem, fun hc => ?_, hb⟩
      exact of_decide_eq_true (List.mem_filter.mp hc).2 rfl
    obtain hc | ⟨e, -, hf⟩ := exec_induct (Q := fun _ => False) (fun t e u ht _ => gone_step c t e u ht) after _ u
      hgone hafter
    · exact hc.clients
    · exact hf.elim

/-- A device connects from an address, and the earlier ones have theirs. -/
def connectFrom (ip : String) (listed : Client → Except String String) : Event :=
  .connect ⟨.ok ip, listed, fun _ => .ok ip⟩

def lane : Client → Except String String
  | ⟨0⟩ => .ok "10.0.0.1"
  | _ => .ok "10.0.0.2"

/-- Two devices connect, the second fails a command, and the first passes a heartbeat. -/
def quietDay : List Event :=
  [connectFrom "10.0.0.1" lane, connectFrom "10.0.0.2" lane, .find "10.0.0.2" lane, .lost ⟨1⟩, .snapshot,
    .ping ⟨0⟩ true, .commit]

theorem connection_table_quietDay : ∃ u, exec {} quietDay = some u ∧
    (⟨0⟩ ∈ u.clients ∨ ∃ e ∈ quietDay.tail, Ends ⟨0⟩ e) ∧ ⟨1⟩ ∉ u.clients := by
  obtain ⟨u, hu⟩ : ∃ u, exec {} quietDay = some u := ⟨_, rfl⟩
  have h := connection_table quietDay u hu
  exact ⟨u, hu, h.1 [] _ _ {} rfl rfl rfl (by decide), h.2 (quietDay.take 3) ⟨1⟩ (quietDay.drop 4) _ rfl rfl
    (fun b hb => by cases hb)⟩

/-- A connection accepted during a heartbeat is gone with its commit, one removed
during a heartbeat is back, and one whose address cannot be read any more is
removed when another device connects. -/
theorem connections_lost_and_back :
    ((exec {} [.snapshot, connectFrom "10.0.0.1" lane]).map (·.clients) = some [⟨0⟩] ∧
      (exec {} [.snapshot, connectFrom "10.0.0.1" lane, .commit]).map (·.clients) = some []) ∧
    ((exec {} [connectFrom "10.0.0.1" lane, .find "10.0.0.1" lane, .snapshot, .lost ⟨0⟩]).map (·.clients) = some [] ∧
      (exec {} [connectFrom "10.0.0.1" lane, .find "10.0.0.1" lane, .snapshot, .lost ⟨0⟩, .ping ⟨0⟩ true,
        .commit]).map (·.clients) = some [⟨0⟩]) ∧
    (exec {} [connectFrom "10.0.0.1" lane, connectFrom "10.0.0.2" fun _ => .error "not connected"]).map
      (·.clients) = some [⟨1⟩] := by
  decide

end BitPark.DeviceTable
