import BitPark.DeviceTable

namespace BitPark.OneConnection

open BitPark.DeviceTable

/-! The addresses of the connected devices. The address of a peer does not
change, but it can only be read while its connection stands. -/

/-- Whatever address is read of a client is that of its peer. -/
def Tells (peer : Client → String) (address : Client → Except String String) : Prop :=
  ∀ c ip, address c = .ok ip → ip = peer c

/-- The answers of `remote_endpoint` in a step; the client that connects is `client`. -/
def Told (peer : Client → String) (client : Client) : Event → Prop
  | .connect r => Tells peer r.listed ∧ ∀ c ip, r.own c = .ok ip → ip = peer client
  | .find _ address => Tells peer address
  | _ => True

/-- The tables that some order of the steps leads to. -/
inductive Reachable (peer : Client → String) : Table → Prop where
  | empty : Reachable peer {}
  | step (t : Table) (e : Event) (u : Table) (ht : Reachable peer t) (he : Told peer ⟨t.accepted⟩ e)
      (hstep : step t e = some u) : Reachable peer u

/-- No two of the clients have the same peer. -/
def Distinct (peer : Client → String) (clients : List Client) : Prop := (clients.map peer).Nodup

/-- The list and the copy of the heartbeat, which becomes the list. -/
structure Unique (peer : Client → String) (t : Table) : Prop where
  clients : Distinct peer t.clients
  beat : ∀ b, t.beat = some b → Distinct peer b.clients

section

variable (peer : Client → String)

theorem distinct_sublist (left clients : List Client) (hs : left.Sublist clients) (h : Distinct peer clients) :
    Distinct peer left := h.sublist (hs.map peer)

theorem distinct_addClient (clients : List Client) (client : Client) (h : Distinct peer clients)
    (hother : ∀ c ∈ clients, peer c ≠ peer client) : Distinct peer (clientsAddClient clients client) := by
  rw [Distinct, clientsAddClient, List.map_append, List.nodup_append]
  refine ⟨h, List.nodup_singleton _, fun ip hip own hown => ?_⟩
  obtain ⟨c, hc, rfl⟩ := List.mem_map.mp hip
  rw [List.mem_singleton.mp hown]
  exact hother c hc

/-- Of two clients with the same peer only one can be listed. -/
theorem distinct_inj (clients : List Client) (h : Distinct peer clients) (c d : Client) (hc : c ∈ clients)
    (hd : d ∈ clients) (hpeer : peer c = peer d) : c = d := List.inj_on_of_nodup_map h hc hd hpeer

end

/-- A removal that went through the list left what the test is false of. -/
theorem removeClientIf_left (pred : Client → Except String Bool) (clients left : List Client)
    (h : clientsRemoveClientIf pred clients = (.ok (), left)) (c : Client) (hc : c ∈ left) : pred c = .ok false := by
  induction clients generalizing left with
  | nil =>
    cases h
    cases hc
  | cons d clients ih =>
    rw [clientsRemoveClientIf] at h
    cases hd : pred d with
    | error e =>
      rw [hd] at h
      cases h
    | ok removed =>
      rw [hd] at h
      cases removed with
      | true => exact ih left h hc
      | false =>
        obtain ⟨hok, rfl⟩ := Prod.mk.inj h
        obtain rfl | hrest := List.mem_cons.mp hc
        · exact hd
        · exact ih _ (Prod.ext hok rfl) hrest

/-- A client that a registration leaves was read, and from another address. -/
theorem sameIp_false (peer : Client → String) (client : Client) (r : Endpoints)
    (hr : Told peer client (.connect r)) (c : Client) (h : sameIp r c = .ok false) : peer c ≠ peer client := by
  rw [sameIp] at h
  match hl : r.listed c with
  | .error e =>
    rw [hl] at h
    cases h
  | .ok ip =>
    rw [hl] at h
    match ho : r.own c with
    | .error e =>
      rw [ho] at h
      cases h
    | .ok own =>
      rw [ho] at h
      have hne : ip ≠ own := of_decide_eq_false (Except.ok.inj h)
      rwa [hr.1 c ip hl, hr.2 c own ho] at hne

theorem distinct_newClientNotify (peer : Client → String) (r : Endpoints) (clients : List Client) (client : Client)
    (hr : Told peer client (.connect r)) (h : Distinct peer clients) :
    Distinct peer (newClientNotify r clients client) := by
  rw [newClientNotify]
  cases r.log with
  | error e => exact h
  | ok ip =>
    have hsub := removeClientIf_sublist (sameIp r) clients
    dsimp only
    match hrun : clientsRemoveClientIf (sameIp r) clients with
    | (.error e, left) =>
      rw [hrun] at hsub
      exact distinct_sublist peer left clients hsub h
    | (.ok (), left) =>
      rw [hrun] at hsub
      apply distinct_addClient peer left client (distinct_sublist peer left clients hsub h)
      exact fun c hc => sameIp_false peer client r hr c (removeClientIf_left (sameIp r) clients left hrun c hc)

/-- Every step keeps both the list and the copy free of two connections of a peer. -/
theorem unique_step (peer : Client → String) (t : Table) (e : Event) (u : Table) (ht : Unique peer t)
    (he : Told peer ⟨t.accepted⟩ e) (h : step t e = some u) : Unique peer u := by
  obtain ⟨-, hclients, hbeat⟩ := lists_step (P := Distinct peer) t e u h ht.clients ht.beat
    (by
      rintro r rfl
      exact distinct_newClientNotify peer r t.clients _ he ht.clients)
    (by
      rintro d rfl
      exact distinct_sublist peer _ t.clients List.filter_sublist ht.clients)
    (by
      rintro d kept rest rfl hlist
      exact distinct_sublist peer _ _ ((List.sublist_cons_self d rest).append_left kept) hlist)
  exact ⟨hclients, hbeat⟩

theorem unique_reachable (peer : Client → String) (t : Table) (h : Reachable peer t) : Unique peer t := by
  induction h with
  | empty => exact ⟨List.nodup_nil, fun b hb => by cases hb⟩
  | step t e u ht he hstep ih => exact unique_step peer t e u ih he hstep

/-- At most one connection of a device is listed, whatever the order of the
registrations, the removals and the steps of the heartbeat, so a lookup
returns no other one while the newest is listed. -/
theorem one_connection (peer : Client → String) (t : Table) (h : Reachable peer t) :
    (t.clients.map peer).Nodup ∧ ∀ address ip c, Tells peer address →
      clientsFindClient address ip t.clients = .ok (some c) → ∀ newer ∈ t.clients, peer newer = ip → c = newer := by
  have hunique := unique_reachable peer t h
  refine ⟨hunique.clients, fun address ip c htells hfind newer hn hpeer => ?_⟩
  obtain ⟨hc, haddr⟩ := find_answers address ip t.clients c hfind
  apply distinct_inj peer t.clients hunique.clients c newer hc hn
  rw [← htells c ip haddr, hpeer]

/-- Every device connects from the same address. -/
def onePeer : Client → String := fun _ => "10.0.0.1"

def answer : Client → Except String String := fun _ => .ok "10.0.0.1"

theorem tells_answer : Tells onePeer answer := fun _ _ hip => (Except.ok.inj hip).symm

/-- A device reconnects while a heartbeat pings its old connection, which is
then listed again, and once more. -/
theorem one_connection_reconnected : ∃ t, Reachable onePeer t ∧ t.clients = [⟨2⟩] ∧ (t.clients.map onePeer).Nodup ∧
    ∀ newer ∈ t.clients, onePeer newer = "10.0.0.1" → (⟨2⟩ : Client) = newer := by
  have htold : ∀ client, Told onePeer client (connectFrom "10.0.0.1" answer) :=
    fun client => ⟨tells_answer, tells_answer⟩
  have h0 := Reachable.step {} _ _ .empty (htold _) rfl
  have h1 := Reachable.step _ .snapshot _ h0 trivial rfl
  have h2 := Reachable.step _ _ _ h1 (htold _) rfl
  have h3 := Reachable.step _ (.ping ⟨0⟩ true) _ h2 trivial rfl
  have h4 := Reachable.step _ .commit _ h3 trivial rfl
  have h5 := Reachable.step _ _ _ h4 (htold _) rfl
  have hone := one_connection onePeer _ h5
  exact ⟨_, h5, rfl, hone.1, hone.2 answer "10.0.0.1" ⟨2⟩ tells_answer rfl⟩

end BitPark.OneConnection
