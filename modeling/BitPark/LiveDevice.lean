import BitPark.DeviceTable
import BitPark.Devices

namespace BitPark.LiveDevice

open BitPark.Effect BitPark.Server BitPark.Devices BitPark.DeviceTable

/-! A device that is connected, in a list with connections that are gone. -/

/-- What becomes of a command: the lookup in the list, and the exchange with the client found. -/
def outcome (address : Client → Except String String) (exchange : Client → Command → Bool) (clients : List Client)
    (ip : String) (cmd : Command) : DeviceOutcome :=
  match clientsFindClient address ip clients with
  | .error _ => .lookupError
  | .ok none => .notConnected
  | .ok (some client) => if exchange client cmd then .done else .lost

/-- The address of the client can be read. -/
def Live (address : Client → Except String String) (client : Client) : Prop := ∃ a, address client = .ok a

/-- The client is the only live one of its address. -/
structure OnlyAt (address : Client → Except String String) (clients : List Client) (ip : String) (client : Client) :
    Prop where
  listed : client ∈ clients
  answers : address client = .ok ip
  only : ∀ other ∈ clients, address other = .ok ip → other = client

/-- The lookup returns the client, and commands succeed if the client takes them. -/
structure Reached (address : Client → Except String String) (clients : List Client) (ip : String) (client : Client) :
    Prop where
  found : clientsFindClient address ip clients = .ok (some client)
  operated : ∀ (env : Env) (exchange : Client → Command → Bool) (cmd : Command) (w : World),
    env.device = outcome address exchange clients → exchange client cmd = true → Returns (dtsOperate env ip cmd) w

/-- The clients that the lookup asks before it comes to this one. -/
def askedBefore (client : Client) (clients : List Client) : List Client := clients.takeWhile (· ≠ client)

/-- The lookup stops at the first client whose address cannot be read. -/
theorem find_eq_iff (address : Client → Except String String) (ip : String) (client : Client) (clients : List Client)
    (h : OnlyAt address clients ip client) :
    clientsFindClient address ip clients = .ok (some client) ↔ ∀ c ∈ askedBefore client clients, Live address c := by
  induction clients with
  | nil => exact absurd h.listed List.not_mem_nil
  | cons c rest ih =>
    rw [clientsFindClient, askedBefore]
    by_cases hc : c = client
    · subst hc
      rw [h.answers, List.takeWhile_cons_of_neg (by simp)]
      dsimp only
      rw [if_pos rfl]
      exact iff_of_true rfl fun _ hn => by cases hn
    · have hrest : OnlyAt address rest ip client :=
        ⟨(List.mem_cons.mp h.listed).resolve_left (Ne.symm hc), h.answers,
          fun other ho => h.only other (List.mem_cons_of_mem c ho)⟩
      rw [List.takeWhile_cons_of_pos (by simpa using hc), List.forall_mem_cons]
      cases ha : address c with
      | error e =>
        refine iff_of_false (fun hn => by cases hn) fun hn => ?_
        obtain ⟨a, hlive⟩ := hn.1
        rw [ha] at hlive
        cases hlive
      | ok a =>
        have hne : a ≠ ip := by
          rintro rfl
          exact hc (h.only c List.mem_cons_self ha)
        dsimp only
        rw [if_neg hne, ih hrest]
        exact (and_iff_right ⟨a, ha⟩).symm

/-- A device that is connected is reached exactly if no connection before it in the list is gone. -/
theorem reached_iff (address : Client → Except String String) (clients : List Client) (ip : String) (client : Client)
    (h : OnlyAt address clients ip client) :
    Reached address clients ip client ↔ ∀ c ∈ askedBefore client clients, Live address c := by
  rw [← find_eq_iff address ip client clients h]
  constructor
  · exact Reached.found
  · intro hfound
    refine ⟨hfound, fun env exchange cmd w henv htakes => (returns_dtsOperate env w ip cmd).mpr ?_⟩
    rw [henv, outcome, hfound]
    exact if_pos htakes

/-! Registration asks the same question and goes on past the connections that are gone. -/

/-- The clients that a registration from an address leaves in the list. -/
def stays (r : Endpoints) (ip : String) (c : Client) : Bool :=
  match r.listed c with
  | .error _ => false
  | .ok a => a ≠ ip

theorem clientsRemoveClientIf_sameIp (r : Endpoints) (ip : String) (hown : ∀ c, r.own c = .ok ip)
    (clients : List Client) : clientsRemoveClientIf (sameIp r) clients = (.ok (), clients.filter (stays r ip)) := by
  induction clients with
  | nil => rfl
  | cons c rest ih =>
    rw [clientsRemoveClientIf, sameIp, hown, List.filter_cons, stays]
    cases r.listed c with
    | error e => exact ih
    | ok a =>
      by_cases ha : a = ip
      · simp [Except.map, ha, ih]
      · simp [Except.map, ha, ih]

theorem newClientNotify_eq (r : Endpoints) (ip : String) (hlog : r.log = .ok ip) (hown : ∀ c, r.own c = .ok ip)
    (clients : List Client) (client : Client) :
    newClientNotify r clients client = clients.filter (stays r ip) ++ [client] := by
  rw [newClientNotify, hlog]
  dsimp only
  rw [clientsRemoveClientIf_sameIp r ip hown]
  rfl

/-- Until the next connection is lost, every connected device is reached after a registration. -/
theorem reached_after_registration (r : Endpoints) (own : String) (hlog : r.log = .ok own)
    (hown : ∀ c, r.own c = .ok own) (clients : List Client) (client : Client)
    (address : Client → Except String String) (hlisted : ∀ c ∈ clients, address c = r.listed c)
    (hclient : Live address client) (ip : String) (device : Client)
    (h : OnlyAt address (newClientNotify r clients client) ip device) :
    Reached address (newClientNotify r clients client) ip device := by
  rw [reached_iff address _ ip device h]
  intro c hc
  have hmem : c ∈ newClientNotify r clients client := List.takeWhile_subset _ hc
  rw [newClientNotify_eq r own hlog hown, List.mem_append, List.mem_filter, List.mem_singleton] at hmem
  rcases hmem with ⟨hold, hstays⟩ | rfl
  · rw [Live, hlisted c hold]
    rw [stays] at hstays
    cases ha : r.listed c with
    | error e =>
      rw [ha] at hstays
      cases hstays
    | ok a => exact ⟨a, rfl⟩
  · exact hclient

/-- The first device has lost its connection, the second has not. -/
def firstGone : Client → Except String String
  | ⟨0⟩ => .error "remote_endpoint: Transport endpoint is not connected"
  | _ => .ok "10.0.0.2"

theorem reached_two_live : OnlyAt lane [⟨0⟩, ⟨1⟩] "10.0.0.2" ⟨1⟩ ∧
    (Reached lane [⟨0⟩, ⟨1⟩] "10.0.0.2" ⟨1⟩ ↔ ∀ c ∈ askedBefore ⟨1⟩ [⟨0⟩, ⟨1⟩], Live lane c) := by
  have honly : OnlyAt lane [⟨0⟩, ⟨1⟩] "10.0.0.2" ⟨1⟩ := ⟨by decide, rfl, by decide⟩
  exact ⟨honly, reached_iff lane [⟨0⟩, ⟨1⟩] "10.0.0.2" ⟨1⟩ honly⟩

/-- The second device is connected, and no command reaches it behind the first. -/
theorem live_behind_gone : OnlyAt firstGone [⟨0⟩, ⟨1⟩] "10.0.0.2" ⟨1⟩ ∧
    clientsFindClient firstGone "10.0.0.2" [⟨0⟩, ⟨1⟩] =
      .error "remote_endpoint: Transport endpoint is not connected" ∧
    (∀ exchange cmd, outcome firstGone exchange [⟨0⟩, ⟨1⟩] "10.0.0.2" cmd = .lookupError) ∧
    ¬ Reached firstGone [⟨0⟩, ⟨1⟩] "10.0.0.2" ⟨1⟩ ∧ Reached firstGone [⟨1⟩, ⟨0⟩] "10.0.0.2" ⟨1⟩ := by
  refine ⟨⟨by decide, rfl, by decide⟩, rfl, fun _ _ => rfl, ?_, ?_⟩
  · intro h
    cases h.found
  · refine ⟨rfl, fun env exchange cmd w henv htakes => (returns_dtsOperate env w _ cmd).mpr ?_⟩
    rw [henv]
    exact if_pos htakes

end BitPark.LiveDevice
