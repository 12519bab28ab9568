import BitPark.Requests
import BitPark.Settlement
import BitPark.Stepwise

namespace BitPark.StoredValue

open BitPark.Effect BitPark.Tariff BitPark.Server BitPark.Database BitPark.Devices BitPark.Charging
open BitPark.Members BitPark.Release BitPark.Requests BitPark.Settlement BitPark.MaxElement
open BitPark.RemainMoney BitPark.Stepwise

/-- What the price of a stay and the choice of a member depend on. -/
def ledger (w : World) :
    List RuleTable.RuleRow × SysConfig × List PassVehicle × List Device × List Gateway × List VIPVehicle :=
  (w.rules, w.config, w.detects, w.equips, w.gateways, w.vips)

theorem ledgerBooks : Bookkeeping (SameAt ledger) :=
  ⟨fun _ _ => rfl, fun _ _ => rfl, fun _ _ => rfl, fun _ _ => rfl, fun _ _ => rfl⟩

/-- The fee of a stay for a stored-value member. -/
def memberFee (offset : ℤ) (w : World) (enter exit : PassVehicle) (vip : VIPVehicle) : ℚ :=
  ((Charge.construct .storedValue enter exit vip offset (onlyRow (positionsOf w enter.deviceId) 0) ""
    w.config.freeTimeMode w.config.chargePattern).fee w.rules offset enter.passTime exit.passTime
      enter.plateType).1

/-- What is left of a balance that pays a fee. -/
def leftMoney (remainMoney fee : ℚ) : ℚ := max 0 (remainMoney - fee)

/-- What a balance pays of a fee. -/
def feeExemption (remainMoney fee : ℚ) : ℚ := if 0 ≤ remainMoney - fee then fee else remainMoney

/-- The balance in the table after a settlement: it is read as a `float` and
what is left is written with six digits. -/
def debit (fee remainMoney : ℚ) : ℚ := written (leftMoney (toFloat remainMoney) fee)

theorem sub_leftMoney (remainMoney fee : ℚ) : remainMoney - leftMoney remainMoney fee = feeExemption remainMoney fee := by
  rw [leftMoney, feeExemption]
  split_ifs with h
  · rw [max_eq_right h, sub_sub_cancel]
  · rw [max_eq_left (not_le.mp h).le, sub_zero]

theorem debit_of_kept (remainMoney fee : ℚ) (h : Kept remainMoney) (h' : Kept (leftMoney remainMoney fee)) :
    debit fee remainMoney = leftMoney remainMoney fee := by
  rw [debit, h.1, h'.2]

theorem leftMoney_leftMoney (money fee : ℚ) (k : ℕ) (hf : 0 ≤ fee) :
    leftMoney (leftMoney money (k * fee)) fee = leftMoney money ((k + 1 : ℕ) * fee) := by
  unfold leftMoney
  push_cast
  rcases le_total 0 (money - k * fee) with h | h
  · rw [max_eq_right h]
    congr 1
    ring
  · rw [max_eq_left h, max_eq_left (by linarith), max_eq_left (by linarith)]

/-- Debits of balances that are kept take the fee as often. -/
theorem iterate_debit (money fee : ℚ) (k : ℕ) (hm : 0 ≤ money) (hf : 0 ≤ fee)
    (hkept : ∀ j ≤ k, Kept (leftMoney money (j * fee))) :
    (debit fee)^[k] money = leftMoney money (k * fee) := by
  induction k with
  | zero => rw [Function.iterate_zero_apply, leftMoney, Nat.cast_zero, zero_mul, sub_zero, max_eq_right hm]
  | succ k ih =>
    have hbefore := ih fun j hj => hkept j (hj.trans k.le_succ)
    have hafter := hkept (k + 1) le_rfl
    rw [← leftMoney_leftMoney money fee k hf] at hafter ⊢
    rw [Function.iterate_succ_apply', hbefore, debit_of_kept _ _ (hkept k k.le_succ) hafter]

theorem leftMoney_natCast (money fee : ℕ) : leftMoney money fee = ((money - fee : ℕ) : ℚ) := by
  rcases le_total fee money with h | h
  · rw [leftMoney, Nat.cast_sub h, max_eq_right (sub_nonneg.mpr (Nat.cast_le.mpr h))]
  · rw [leftMoney, Nat.sub_eq_zero_of_le h, max_eq_left (sub_nonpos.mpr (Nat.cast_le.mpr h)), Nat.cast_zero]

/-- Whole amounts below a million are kept, whatever they pay. -/
theorem kept_leftMoney (money fee k : ℕ) (h : money < 10 ^ 6) : Kept (leftMoney money (k * fee)) := by
  have hwhole := leftMoney_natCast money (k * fee)
  rw [Nat.cast_mul] at hwhole
  rw [hwhole]
  exact kept_natCast _ (by omega)

/-- What a settlement from the stored value does to the tables and reports. -/
theorem settleStoredValue_ledger (env : Env) (c c' : Charge) (w w' : World)
    (h : run (c.settleStoredValue env) w = (.ok c', w')) :
    ledger w' = ledger (debited c.vip.id (written (leftMoney c.vip.remainMoney (storedFee env c w))) w) ∧
      c'.json.bill.map (·.feeExemption) = some (feeExemption c.vip.remainMoney (storedFee env c w)) := by
  rw [leftMoney, feeExemption]
  obtain ⟨hl, hjson, u, ⟨new, sent, -, -, hu⟩, hw⟩ | ⟨hl, hjson, u, ⟨new, sent, -, -, hu⟩, hw⟩ :=
    settleStoredValue_returned env c c' w w' h
  · rw [max_eq_right hl, if_pos hl, hw, hu, hjson]
    exact ⟨rfl, rfl⟩
  · rw [max_eq_left hl.le, if_neg (not_le.mpr hl), hw, hu, hjson]
    exact ⟨rfl, rfl⟩

section Settle

variable (env : Env) (enter exit : PassVehicle) (vip : VIPVehicle) (w t : World)
variable (hchoice : choiceOf env.like w exit.plateNumber1 = .ok (.storedValue, vip))
variable (hactive : vip.deleteStatus = "1")
include hchoice hactive

/-- A settlement that returns has debited the balance once, and reports how much it paid. -/
theorem handleCharge_returned (c : Charge) (h : run (handleCharge env enter exit) w = (.ok c, t)) :
    ledger t = ledger (debited vip.id
      (written (leftMoney vip.remainMoney (memberFee env.utcOffset w enter exit vip))) w) ∧
    c.json.bill.map (·.feeExemption) =
      some (feeExemption vip.remainMoney (memberFee env.utcOffset w enter exit vip)) := by
  obtain ⟨c0, u, h1, hr1⟩ := bind_returned _ _ _ _ _ h
  obtain ⟨choice, hch, rfl, rfl⟩ := create_returned _ _ _ _ _ _ h1
  rw [hchoice] at hch
  cases hch
  have hr2 := (query_bind_returned _ _ _ _ _ _ _ hr1).2
  have hr5 := (query_bind_returned _ _ _ _ _ _ _ hr2).2
  have hcal : ∀ c : Charge, c.kind = .storedValue → c.vip.deleteStatus = "1" →
      c.calCharge env = c.settleStoredValue env := by
    intro c hk hd
    rw [Charge.calCharge]
    rw [hk]
    exact if_pos hd
  rw [hcal _ rfl hactive] at hr5
  exact settleStoredValue_ledger env _ c _ t hr5

end Settle

/-! A new balance does not change who is chosen. -/

theorem chargeOfList_map (f : VIPVehicle → VIPVehicle) (hf : ∀ v, (f v).type = v.type)
    (vips : List VIPVehicle) (vip : VIPVehicle) (h : chargeOfList vips = (.storedValue, vip)) :
    chargeOfList (vips.map f) = (.storedValue, f vip) := by
  unfold chargeOfList at h ⊢
  rw [List.find?_map]
  have hcomp : ((fun v : VIPVehicle => decide (v.type = 1 ∨ v.type = 3 ∨ v.type = 4)) ∘ f) =
      fun v => decide (v.type = 1 ∨ v.type = 3 ∨ v.type = 4) := by
    funext v
    simp [hf]
  rw [hcomp]
  cases hfind : vips.find? fun v => decide (v.type = 1 ∨ v.type = 3 ∨ v.type = 4) with
  | some v =>
    rw [hfind] at h
    have hty := List.find?_some hfind
    simp only [decide_eq_true_eq] at hty
    simp only [Prod.mk.injEq] at h
    rcases hty with h1 | h1 | h1 <;> simp [kindOf, h1] at h
  | none =>
    rw [hfind] at h
    cases vips with
    | nil => simp at h
    | cons v rest =>
      simp only [Prod.mk.injEq] at h
      obtain ⟨hk, rfl⟩ := h
      simp only [Option.map_none, List.map_cons, hf, hk]

theorem handleQueryVipVehicle_setRemainMoney (vipId : String) (money : ℚ) (v : VIPVehicle) :
    handleQueryVipVehicle (setRemainMoney vipId money v) =
      setRemainMoney vipId (toFloat money) (handleQueryVipVehicle v) := by
  unfold setRemainMoney handleQueryVipVehicle
  split_ifs <;> rfl

theorem choiceOf_debited (like : List UInt8 → String → Bool) (w : World) (plate : String) (vip : VIPVehicle)
    (money : ℚ) (h : choiceOf like w plate = .ok (.storedValue, vip)) :
    choiceOf like (debited vip.id money w) plate = .ok (.storedValue, { vip with remainMoney := toFloat money }) := by
  have hself : setRemainMoney vip.id (toFloat money) vip = { vip with remainMoney := toFloat money } := if_pos rfl
  have hread : handleQueryVipVehicle ∘ setRemainMoney vip.id money =
      setRemainMoney vip.id (toFloat money) ∘ handleQueryVipVehicle :=
    funext (handleQueryVipVehicle_setRemainMoney vip.id money)
  have hmatch : ∀ ps, matching like (w.vips.map (setRemainMoney vip.id money)) ps =
      (matching like w.vips ps).map (setRemainMoney vip.id (toFloat money)) := by
    intro ps
    rw [matching, matching, List.filter_map, List.map_map, List.map_map, hread]
    congr 1
    exact List.filter_congr fun v _ => by simp
  have hlist : ∀ ps, chargeOfList (matching like w.vips ps) = (.storedValue, vip) →
      chargeOfList (matching like (w.vips.map (setRemainMoney vip.id money)) ps) =
        (.storedValue, { vip with remainMoney := toFloat money }) := by
    intro ps hps
    rw [hmatch, chargeOfList_map _ (setRemainMoney_type _ _) _ _ hps, hself]
  rw [choiceOf] at h ⊢
  rw [show (debited vip.id money w).config = w.config from rfl]
  split_ifs at h ⊢
  · obtain ⟨p, hp, hchosen⟩ := map_ok _ _ _ h
    rw [hp]
    exact congrArg Except.ok (hlist [p] hchosen)
  · obtain ⟨ps, hp, hchosen⟩ := map_ok _ _ _ h
    rw [hp]
    exact congrArg Except.ok (hlist ps hchosen)
  · have hv := Except.ok.inj h
    have hfind : vipOf (debited vip.id money w) plate =
        (vipOf w plate).map (setRemainMoney vip.id (toFloat money)) := by
      rw [vipOf, vipOf, debited, List.find?_map, Option.map_map, Option.map_map, hread]
      congr 2
      funext v
      simp
    rw [hfind]
    cases hvip : vipOf w plate with
    | none =>
      rw [hvip] at hv
      cases hv
    | some v =>
      rw [hvip] at hv
      simp only [chargeOfExact, Prod.mk.injEq] at hv
      obtain ⟨hk, rfl⟩ := hv
      simp only [Option.map_some, chargeOfExact, hk, hself]

/-- The row behind the choice keeps its place when its balance is written. -/
theorem choiceOf_row (like : List UInt8 → String → Bool) (w : World) (plate : String) (row : VIPVehicle)
    (money : ℚ) (hrow : row ∈ w.vips) (h : choiceOf like w plate = .ok (.storedValue, handleQueryVipVehicle row)) :
    { row with remainMoney := money } ∈ (debited row.id money w).vips ∧
      choiceOf like (debited row.id money w) plate =
        .ok (.storedValue, handleQueryVipVehicle { row with remainMoney := money }) :=
  ⟨List.mem_map.mpr ⟨row, hrow, if_pos rfl⟩, choiceOf_debited like w plate (handleQueryVipVehicle row) money h⟩

/-- What may concern an exit: the report of its device, and a request to match it. -/
inductive Request where
  | exitReport (device : Device) (pass : PassVehicle)
  | matchPlate (hdl : Handle) (json : Json.Value)

def Request.perform (env : Env) : Request → Proc Unit
  | .exitReport device pass => release env device pass
  | .matchPlate hdl json => onMatchPlate env hdl json

/-- The request is about the given entry and exit: a report that finds an entry finds that one. -/
def Request.Names (enter exit : PassVehicle) (w : World) : Request → Prop
  | .exitReport _ pass => pass = exit ∧ ∀ e, latest (enterVehicles w exit.plateNumber1) = some e → e = enter
  | .matchPlate _ json => text json "EnterID" = .ok enter.passId ∧ text json "ExitID" = .ok exit.passId

/-- Whether a report finds its entry and the settlement returns. -/
def reportSettles (env : Env) (w : World) (pass : PassVehicle) : Bool :=
  decide (pass.passDirection = parkExit) &&
    match (run (matchedEntry env pass) w).1 with
    | .ok (some enter) => (run (handleCharge env enter pass) w).1.isOk
    | _ => false

/-- Whether a settlement comes to its end; that of a match is answered with OK. -/
def settles (env : Env) (w : World) : Request → Bool
  | .exitReport _ pass => reportSettles env w pass
  | .matchPlate hdl json => (run (onMatchPlate env hdl json) w).1.isOk

/-- The records of one stay of an active stored-value member. -/
structure MemberStay (like : List UInt8 → String → Bool) (enter exit : PassVehicle) (row : VIPVehicle)
    (w : World) : Prop where
  stored : row ∈ w.vips
  member : choiceOf like w exit.plateNumber1 = .ok (.storedValue, handleQueryVipVehicle row)
  active : row.deleteStatus = "1"
  enterRecord : onlyRow (w.detects.filter (·.passId = enter.passId)) {} = enter
  exitRecord : onlyRow (w.detects.filter (·.passId = exit.passId)) {} = exit

section Step

variable (env : Env) (enter exit : PassVehicle) (row : VIPVehicle) (w : World)
variable (hstay : MemberStay env.like enter exit row w)

/-- The ledger after a debit, or as it was. -/
def afterDebit (done : Bool) : List RuleTable.RuleRow × SysConfig × List PassVehicle × List Device ×
    List Gateway × List VIPVehicle :=
  if done then ledger (debited row.id (debit (memberFee env.utcOffset w enter exit row) row.remainMoney) w)
  else ledger w

include hstay in
theorem ledger_handleCharge : ledger (run (handleCharge env enter exit) w).2 =
    afterDebit env enter exit row w (run (handleCharge env enter exit) w).1.isOk := by
  match h : run (handleCharge env enter exit) w with
  | (.ok c, t) => exact (handleCharge_returned env enter exit _ w t hstay.member hstay.active c h).1
  | (.error e, t) => exact fails_handleCharge env ledgerBooks enter exit w e t h

theorem total_showCharge (ip : String) (charge : ℚ) (w : World) : (run (showCharge env ip charge) w).1.isOk = true := by
  rw [showCharge]
  rw [tolerate, run_handle]
  split <;> rfl

theorem fails_onMatchPlate (hdl : Handle) (json : Json.Value) :
    Fails (SameAt ledger) (onMatchPlate env hdl json) := by
  refine fails_bind (steps_findUser hdl) fun _ => fails_bind (steps_readString json _) fun _ =>
    fails_bind (steps_readString json _) fun _ => fails_ite _ (fails_of_steps (steps_raise _)) ?_
  refine fails_bind (steps_query env _ _) fun enter => fails_bind (steps_query env _ _) fun exit =>
    fails_ite _ (fails_of_steps (steps_raise _)) (fails_bind (steps_query env _ _) fun dev => ?_)
  refine fails_bind_total (fails_handleCharge env ledgerBooks enter exit) fun c t => ?_
  obtain ⟨a, u, hu⟩ := returned_of_isOk _ _ (total_showCharge env dev.ip c.json.requireCharge t)
  rw [run_bind_ok _ _ _ _ _ hu]
  rfl

theorem matchPlates_returned (hdl : Handle) (t : World) (a : Unit)
    (h : run (matchPlates env hdl enter exit) w = (.ok a, t)) :
    ∃ c u, run (handleCharge env enter exit) w = (.ok c, u) ∧ ledger t = ledger u := by
  have hr1 := (query_bind_returned _ _ _ _ _ _ _ h).2
  obtain ⟨c, u, h2, hr2⟩ := bind_returned _ _ _ _ _ hr1
  obtain ⟨b, v, h3, hr3⟩ := bind_returned _ _ _ _ _ hr2
  have hshow : SameAt ledger u v := steps_returned (steps_showCharge (fun _ _ => rfl) env _ _) u v (.ok b) h3
  cases hr3
  exact ⟨c, u, h2, hshow⟩

include hstay

theorem ledger_onMatchPlate (hdl : Handle) (json : Json.Value)
    (hn : text json "EnterID" = .ok enter.passId ∧ text json "ExitID" = .ok exit.passId) :
    ledger (run (onMatchPlate env hdl json) w).2 =
      afterDebit env enter exit row w (run (onMatchPlate env hdl json) w).1.isOk := by
  match h : run (onMatchPlate env hdl json) w with
  | (.error e, t) => exact fails_onMatchPlate env hdl json w e t h
  | (.ok a, t) =>
    unfold onMatchPlate at h
    rw [readString_eq, readString_eq] at h
    obtain ⟨user, u1, h1, hr1⟩ := bind_returned _ _ _ _ _ h
    obtain ⟨-, rfl⟩ := findUser_returned _ _ _ _ h1
    rw [run_bind_ok _ _ _ _ _ (run_ofExcept_ok _ _ u1 hn.1),
      run_bind_ok _ _ _ _ _ (run_ofExcept_ok _ _ u1 hn.2)] at hr1
    split_ifs at hr1
    · cases hr1
    have hr2 := (query_bind_returned _ _ _ _ _ _ _ hr1).2
    have hr3 := (query_bind_returned _ _ _ _ _ _ _ hr2).2
    rw [hstay.enterRecord, hstay.exitRecord] at hr3
    split_ifs at hr3
    · cases hr3
    obtain ⟨c, u, hc, hu⟩ := matchPlates_returned env enter exit u1 hdl t a hr3
    exact hu.trans (handleCharge_returned env enter exit _ u1 u hstay.member hstay.active c hc).1

omit hstay in
/-- The entry that a report is matched with is the one that is named. -/
theorem matchedEntry_eq (t : World) (enter' : PassVehicle)
    (hfinds : ∀ e, latest (enterVehicles w exit.plateNumber1) = some e → e = enter)
    (h : run (matchedEntry env exit) w = (.ok (some enter'), t)) : enter' = enter ∧ t = w := by
  unfold matchedEntry at h
  split_ifs at h
  · cases h
  have hr := (query_bind_returned _ _ _ _ _ _ _ h).2
  obtain ⟨hl, rfl⟩ : latest (enterVehicles w exit.plateNumber1) = some enter' ∧ w = t := by simpa using hr
  exact ⟨hfinds enter' hl, rfl⟩

theorem ledger_release (device : Device)
    (hfinds : ∀ e, latest (enterVehicles w exit.plateNumber1) = some e → e = enter) :
    ledger (run (release env device exit) w).2 = afterDebit env enter exit row w (reportSettles env w exit) := by
  rw [release, reportSettles]
  by_cases hd : exit.passDirection = parkExit
  · rw [if_pos hd, decide_eq_true hd, Bool.true_and, run_bind]
    match hm : run (matchedEntry env exit) w with
    | (.error e, t) => exact steps_returned (R := SameAt ledger) (steps_matchedEntry env exit) w t (.error e) hm
    | (.ok none, t) =>
      have ht := steps_returned (R := SameAt ledger) (steps_matchedEntry env exit) w t (.ok none) hm
      have hu := steps_releaseUnmatched env ledgerBooks device exit t
      exact hu.trans ht
    | (.ok (some enter'), t) =>
      obtain ⟨rfl, rfl⟩ := matchedEntry_eq env enter exit w t enter' hfinds hm
      have hcharge := ledger_handleCharge env enter' exit row t hstay
      show ledger (run (releaseMatched env device enter' exit) t).2 = _
      rw [releaseMatched, run_bind, ← hcharge]
      match run (handleCharge env enter' exit) t with
      | (.ok c, u) => exact steps_finishRelease env ledgerBooks device enter' exit c.json u
      | (.error e, u) => rfl
  · rw [if_neg hd, decide_eq_false hd, Bool.false_and]
    rfl

/-- One request debits the balance once if its settlement comes to its end, and
not at all otherwise. -/
theorem ledger_perform (r : Request) (hn : r.Names enter exit w) : ledger (run (r.perform env) w).2 =
    afterDebit env enter exit row w (settles env w r) := by
  cases r with
  | exitReport device pass =>
    obtain ⟨rfl, hfinds⟩ := hn
    exact ledger_release env enter pass row w hstay device hfinds
  | matchPlate hdl json => exact ledger_onMatchPlate env enter exit row w hstay hdl json hn

end Step

def performed (w : World) (s : Env × Request) : World := (run (s.2.perform s.1) w).2

def runAll (steps : List (Env × Request)) (w : World) : World := steps.foldl performed w

/-- The number of settlements of a run that come to their end. -/
def settlements : List (Env × Request) → World → ℕ
  | [], _ => 0
  | s :: rest, w => (settles s.1 w s.2).toNat + settlements rest (performed w s)

theorem settlements_le_length (steps : List (Env × Request)) (w : World) : settlements steps w ≤ steps.length := by
  induction steps generalizing w with
  | nil => exact le_rfl
  | cons s rest ih =>
    have h1 : (settles s.1 w s.2).toNat ≤ 1 := Bool.toNat_le _
    have h2 := ih (performed w s)
    rw [settlements, List.length_cons]
    omega

/-- Who chose and what it costs only depends on the ledger. -/
theorem memberStay_congr (like : List UInt8 → String → Bool) (enter exit : PassVehicle) (row : VIPVehicle)
    (w t : World) (h : ledger t = ledger w) (hs : MemberStay like enter exit row w) :
    MemberStay like enter exit row t := by
  obtain ⟨-, hconfig, hdetects, -, -, hvips⟩ : t.rules = w.rules ∧ t.config = w.config ∧
      t.detects = w.detects ∧ t.equips = w.equips ∧ t.gateways = w.gateways ∧ t.vips = w.vips := by
    simpa [ledger] using h
  obtain ⟨h1, h2, h3, h4, h5⟩ := hs
  refine ⟨by rwa [hvips], ?_, h3, by rwa [hdetects], by rwa [hdetects]⟩
  rw [← h2]
  unfold choiceOf vipOf
  rw [hconfig, hvips]

theorem memberFee_congr (offset : ℤ) (enter exit : PassVehicle) (vip : VIPVehicle) (w t : World)
    (h : ledger t = ledger w) : memberFee offset t enter exit vip = memberFee offset w enter exit vip := by
  obtain ⟨hrules, hconfig, -, hequips, hgates, -⟩ : t.rules = w.rules ∧ t.config = w.config ∧
      t.detects = w.detects ∧ t.equips = w.equips ∧ t.gateways = w.gateways ∧ t.vips = w.vips := by
    simpa [ledger] using h
  unfold memberFee positionsOf
  rw [hrules, hconfig, hequips, hgates]

theorem memberStay_debited (like : List UInt8 → String → Bool) (enter exit : PassVehicle) (row : VIPVehicle)
    (w : World) (money : ℚ) (h : MemberStay like enter exit row w) :
    MemberStay like enter exit { row with remainMoney := money } (debited row.id money w) := by
  obtain ⟨hstored, hmember⟩ := choiceOf_row like w exit.plateNumber1 row money h.stored h.member
  exact ⟨hstored, hmember, h.active, h.enterRecord, h.exitRecord⟩

section Run

variable (like : List UInt8 → String → Bool) (offset : ℤ) (enter exit : PassVehicle) (row : VIPVehicle) (w : World)
variable (steps : List (Env × Request)) (hstay : MemberStay like enter exit row w)
variable (hsteps : Along performed (fun w s => s.1.like = like ∧ s.1.utcOffset = offset ∧ s.2.Names enter exit w)
  w steps)
include hstay hsteps

/-- The row of the member after a run has been debited by every settlement that came to its end. -/
theorem member_after_requests : ∃ row' ∈ (runAll steps w).vips,
    choiceOf like (runAll steps w) exit.plateNumber1 = .ok (.storedValue, handleQueryVipVehicle row') ∧
    row'.id = row.id ∧
    row'.remainMoney = (debit (memberFee offset w enter exit row))^[settlements steps w] row.remainMoney := by
  induction steps generalizing row w with
  | nil => exact ⟨row, hstay.stored, hstay.member, rfl, rfl⟩
  | cons s rest ih =>
    obtain ⟨⟨rfl, rfl, hn⟩, hrest⟩ := hsteps
    have hl := ledger_perform s.1 enter exit row w hstay s.2 hn
    rw [settlements]
    cases hb : settles s.1 w s.2 with
    | false =>
      rw [hb] at hl
      have hs := memberStay_congr _ enter exit row w _ hl hstay
      have hf := memberFee_congr s.1.utcOffset enter exit row w _ hl
      obtain ⟨row', hmem, hc, hid, hm⟩ := ih row _ hs hrest
      refine ⟨row', hmem, hc, hid, ?_⟩
      rw [hm, Bool.toNat_false, Nat.zero_add]
      exact congrArg (fun fee => (debit fee)^[_] row.remainMoney) hf
    | true =>
      rw [hb] at hl
      have hs := memberStay_congr _ enter exit _ _ _ hl (memberStay_debited _ enter exit row w
        (debit (memberFee s.1.utcOffset w enter exit row) row.remainMoney) hstay)
      have hf := memberFee_congr s.1.utcOffset enter exit row _ _ hl
      obtain ⟨row', hmem, hc, hid, hm⟩ := ih _ _ hs hrest
      refine ⟨row', hmem, hc, hid, ?_⟩
      rw [hm, Bool.toNat_true, Nat.add_comm, Function.iterate_succ_apply]
      exact congrArg (fun fee => (debit fee)^[_] _) hf

/-- After any number of requests about one stay, in any order and whatever else
fails, the balance has been debited once for every settlement that came to its
end. Balances that are kept have paid the fee as often. -/
theorem balance_after_requests : ∃ row' ∈ (runAll steps w).vips,
    choiceOf like (runAll steps w) exit.plateNumber1 = .ok (.storedValue, handleQueryVipVehicle row') ∧
    row'.id = row.id ∧
    row'.remainMoney = (debit (memberFee offset w enter exit row))^[settlements steps w] row.remainMoney ∧
    (0 ≤ row.remainMoney → 0 ≤ memberFee offset w enter exit row →
      (∀ k ≤ settlements steps w, Kept (max 0 (row.remainMoney - k * memberFee offset w enter exit row))) →
      row'.remainMoney = max 0 (row.remainMoney - settlements steps w * memberFee offset w enter exit row) ∧
      max 0 (row.remainMoney - steps.length * memberFee offset w enter exit row) ≤ row'.remainMoney) := by
  obtain ⟨row', hmem, hc, hid, hm⟩ := member_after_requests like offset enter exit row w steps hstay hsteps
  refine ⟨row', hmem, hc, hid, hm, fun hmoney hfee hkept => ?_⟩
  have hk : (settlements steps w : ℚ) ≤ steps.length := by exact_mod_cast settlements_le_length steps w
  have hpaid := hm.trans (iterate_debit _ _ _ hmoney hfee hkept)
  refine ⟨hpaid, ?_⟩
  rw [hpaid]
  exact max_le_max le_rfl (sub_le_sub_left (mul_le_mul_of_nonneg_right hk hfee) _)

end Run

def twoMatches : List (Env × Request) :=
  let request := Request.matchPlate 1 (.object [("EnterID", .string "e1"), ("ExitID", .string "x1")])
  [(quietEnv, .exitReport {} memberExit), (quietEnv, request), (quietEnv, request)]

/-- The park of the example, with the records of the stay and an operator. -/
def matchPark : World :=
  { hourlyPark [] with
    detects := [memberEntry, memberExit]
    sessions := [(1, { user := { user := "op", password := "" } })] }

theorem matchPark_stay : MemberStay (fun _ _ => false) memberEntry memberExit storedMember matchPark where
  stored := by decide
  member := by decide +kernel
  active := rfl
  enterRecord := by decide
  exitRecord := by decide

theorem twoMatches_named : Along performed (fun w s => s.1.like = (fun _ _ => false) ∧ s.1.utcOffset = 0 ∧
    s.2.Names memberEntry memberExit w) matchPark twoMatches := by
  have hfound : latest (enterVehicles matchPark memberExit.plateNumber1) = some memberEntry := by decide
  refine ⟨⟨rfl, rfl, rfl, fun e he => ?_⟩, ⟨rfl, rfl, rfl, rfl⟩, ⟨rfl, rfl, rfl, rfl⟩, trivial⟩
  exact Option.some.inj (he.symm.trans hfound)

theorem balance_after_two_matches : settlements twoMatches matchPark = 3 ∧
    ∃ row' ∈ (runAll twoMatches matchPark).vips,
    choiceOf (fun _ _ => false) (runAll twoMatches matchPark) "A1" = .ok (.storedValue, handleQueryVipVehicle row') ∧
    row'.id = "v1" ∧ row'.remainMoney = max 0 (50 - 3 * 2) ∧ max 0 (50 - 3 * 2) ≤ row'.remainMoney := by
  have hcount : settlements twoMatches matchPark = 3 := by decide +kernel
  have hfee : memberFee 0 matchPark memberEntry memberExit storedMember = 2 := by decide +kernel
  obtain ⟨row', hmem, hc, hid, -, hpaid⟩ := balance_after_requests (fun _ _ => false) 0 memberEntry memberExit
    storedMember matchPark twoMatches matchPark_stay twoMatches_named
  rw [hcount, hfee] at hpaid
  obtain ⟨hexact, hlow⟩ := hpaid (by decide) (by decide) fun k _ => kept_leftMoney 50 2 k (by decide)
  exact ⟨hcount, row', hmem, hc, hid, hexact, hlow⟩

/-- The report and two matches of one exit take the fee of two three times. -/
theorem exit_debited_three_times : memberFee 0 matchPark memberEntry memberExit storedMember = 2 ∧
    (runAll twoMatches matchPark).vips.map (·.remainMoney) = [44] ∧
    ¬ ∀ v ∈ (runAll twoMatches matchPark).vips, storedMember.remainMoney -
      memberFee 0 matchPark memberEntry memberExit storedMember ≤ v.remainMoney := by
  decide +kernel

end BitPark.StoredValue
