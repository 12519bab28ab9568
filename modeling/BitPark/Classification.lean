import BitPark.Members
import BitPark.Settlement

namespace BitPark.Classification

open BitPark.Effect BitPark.Server BitPark.Database BitPark.Charging BitPark.Members

/-! `GetParkingType` and `ChargeFactory::Create` look at the same rows, in two loops of their own. -/

def ListMode (w : World) : Prop :=
  w.config.whitelistMatchMode = ignoreProvinceMatch ∨ w.config.whitelistMatchMode = fuzzyMatch

/-- The rows that the query of the match mode returns for a plate. -/
def memberRows (like : List UInt8 → String → Bool) (w : World) (plate : String) :
    Except String (List VIPVehicle) :=
  if w.config.whitelistMatchMode = ignoreProvinceMatch then
    (ignoreProvincePattern (bytes plate)).map fun p => matching like w.vips [p]
  else if w.config.whitelistMatchMode = fuzzyMatch then
    (fuzzyPatterns (bytes plate)).map fun ps => matching like w.vips ps
  else .ok (vipOf w plate).toList

/-- A member by white list, by the month or for a while: the ones `Create` looks for first. -/
def timed (vip : VIPVehicle) : Bool := vip.type = 1 ∨ vip.type = 3 ∨ vip.type = 4

/-- A row that `GetParkingType` stops at. -/
def Counts (pass : PassVehicle) (vip : VIPVehicle) : Prop :=
  1 ≤ vip.type ∧ vip.type ≤ 4 ∧ isValidVIP vip pass = true

theorem parkingTypeOf_counts (vip : VIPVehicle) (pass : PassVehicle)
    (h : parkingTypeOf vip pass ≠ temporaryVehicleParking) : Counts pass vip ∧ parkingTypeOf vip pass = vip.type := by
  by_cases hc : Counts pass vip
  · exact ⟨hc, if_pos hc⟩
  · exact absurd (if_neg hc) h

theorem parkingTypeOf_not_counts (vip : VIPVehicle) (pass : PassVehicle)
    (h : parkingTypeOf vip pass = temporaryVehicleParking) : ¬ Counts pass vip := by
  intro hc
  have ht : parkingTypeOf vip pass = vip.type := if_pos hc
  obtain ⟨-, hu, -⟩ := hc
  rw [ht] at h
  rw [h] at hu
  exact absurd hu (by decide)

/-- The loop of `GetParkingType` ends at the first row that counts. -/
theorem parkingTypeOfList_first (vips : List VIPVehicle) (pass : PassVehicle)
    (h : parkingTypeOfList vips pass ≠ temporaryVehicleParking) :
    ∃ before vip after, vips = before ++ vip :: after ∧ Counts pass vip ∧
      parkingTypeOfList vips pass = vip.type ∧ ∀ x ∈ before, ¬ Counts pass x := by
  cases hf : (vips.map (parkingTypeOf · pass)).find? (· ≠ temporaryVehicleParking) with
  | none =>
    rw [parkingTypeOfList, hf] at h
    exact absurd rfl h
  | some t =>
    rw [parkingTypeOfList, hf] at h ⊢
    obtain ⟨-, ts, us, hsplit, hbefore⟩ := List.find?_eq_some_iff_append.mp hf
    obtain ⟨before, rest, hv, hts, hrest⟩ := List.map_eq_append_iff.mp hsplit
    obtain ⟨vip, after, hr, ht, -⟩ := List.map_eq_cons_iff.mp hrest
    obtain ⟨hcounts, htype⟩ := parkingTypeOf_counts vip pass (by rw [ht]; exact h)
    refine ⟨before, vip, after, by rw [hv, hr], hcounts, by rw [← htype, ht]; rfl, ?_⟩
    intro x hx
    have hmem : parkingTypeOf x pass ∈ ts := by
      rw [← hts]
      exact List.mem_map_of_mem hx
    exact parkingTypeOf_not_counts x pass (by simpa using hbefore _ hmem)

/-- Where `GetParkingType` finds a member, `Create` gets the same rows. -/
theorem getParkingType_returned (env : Env) (pass : PassVehicle) (w t : World) (type : ℤ)
    (h : run (getParkingType env pass) w = (.ok type, t)) (hne : type ≠ temporaryVehicleParking) :
    (∃ rows, memberRows env.like w pass.plateNumber1 = .ok rows ∧ type = parkingTypeOfList rows pass) ∧
      ∃ choice, run (chooseCharge env pass.plateNumber1) w = (.ok choice, w) := by
  obtain ⟨mode, u, hm, hr⟩ := bind_returned _ _ _ _ _ h
  obtain ⟨rfl, rfl⟩ := query_returned _ _ _ _ _ _ hm
  rw [chooseCharge, run_bind_ok _ _ _ _ _ hm]
  by_cases h0 : u.config.whitelistMatchMode = 0
  · have h1 : u.config.whitelistMatchMode ≠ ignoreProvinceMatch := by rw [h0]; decide
    have h2 : u.config.whitelistMatchMode ≠ fuzzyMatch := by rw [h0]; decide
    rw [if_pos h0] at hr
    obtain ⟨vip, v, hq, hp⟩ := bind_returned _ _ _ _ _ hr
    obtain ⟨rfl, rfl⟩ := query_returned _ _ _ _ _ _ hq
    cases hp
    refine ⟨⟨_, ?_, rfl⟩, ?_⟩
    · rw [memberRows, if_neg h1, if_neg h2]
    · rw [if_neg h1, if_neg h2, run_bind_ok _ _ _ _ _ hq]
      exact ⟨_, rfl⟩
  · rw [if_neg h0] at hr
    by_cases h1 : u.config.whitelistMatchMode = ignoreProvinceMatch
    · rw [if_pos h1] at hr
      obtain ⟨vips, v, hq, hp⟩ := bind_returned _ _ _ _ _ hr
      obtain ⟨pattern, hpat, rfl, rfl⟩ := queryIgnoreProvince_returned _ _ _ _ _ hq
      cases hp
      refine ⟨⟨_, ?_, rfl⟩, ?_⟩
      · rw [memberRows, if_pos h1, hpat]
        rfl
      · rw [if_pos h1, run_bind_ok _ _ _ _ _ hq]
        exact ⟨_, rfl⟩
    · rw [if_neg h1] at hr
      by_cases h2 : u.config.whitelistMatchMode = fuzzyMatch
      · rw [if_pos h2] at hr
        obtain ⟨vips, v, hq, hp⟩ := bind_returned _ _ _ _ _ hr
        obtain ⟨patterns, hpat, rfl, rfl⟩ := queryFuzzy_returned _ _ _ _ _ hq
        cases hp
        refine ⟨⟨_, ?_, rfl⟩, ?_⟩
        · rw [memberRows, if_neg h1, if_pos h2, hpat]
          rfl
        · rw [if_neg h1, if_pos h2, run_bind_ok _ _ _ _ _ hq]
          exact ⟨_, rfl⟩
      · rw [if_neg h2] at hr
        cases hr
        exact absurd rfl hne

/-- In the list modes `Create` decides on the rows alone. -/
theorem choiceOf_list (like : List UInt8 → String → Bool) (w : World) (plate : String) (rows : List VIPVehicle)
    (hl : ListMode w) (hr : memberRows like w plate = .ok rows) : choiceOf like w plate = .ok (chargeOfList rows) := by
  simp only [memberRows, choiceOf] at hr ⊢
  by_cases h1 : w.config.whitelistMatchMode = ignoreProvinceMatch
  · rw [if_pos h1] at hr ⊢
    cases hp : ignoreProvincePattern (bytes plate) with
    | error e =>
      rw [hp] at hr
      cases hr
    | ok p =>
      rw [hp] at hr
      cases hr
      rfl
  · have h2 := hl.resolve_left h1
    rw [if_neg h1, if_pos h2] at hr ⊢
    cases hp : fuzzyPatterns (bytes plate) with
    | error e =>
      rw [hp] at hr
      cases hr
    | ok ps =>
      rw [hp] at hr
      cases hr
      rfl

theorem choiceOf_exact (like : List UInt8 → String → Bool) (w : World) (plate : String) (rows : List VIPVehicle)
    (hl : ¬ ListMode w) (hr : memberRows like w plate = .ok rows) :
    choiceOf like w plate = .ok (chargeOfExact rows.head?) ∧ rows.length ≤ 1 := by
  obtain ⟨h1, h2⟩ := not_or.mp hl
  simp only [memberRows, choiceOf, if_neg h1, if_neg h2] at hr ⊢
  cases hr
  cases vipOf w plate with
  | none => exact ⟨rfl, by simp⟩
  | some vip => exact ⟨rfl, by simp⟩

theorem kindOf_inj (a b : ℤ) (ha : 1 ≤ a ∧ a ≤ 4) (hb : 1 ≤ b ∧ b ≤ 4) (h : kindOf a = kindOf b) : a = b := by
  obtain ⟨ha1, ha2⟩ := ha
  obtain ⟨hb1, hb2⟩ := hb
  interval_cases a <;> interval_cases b <;> first | rfl | exact absurd h (by decide)

theorem timed_type (vip : VIPVehicle) (h : timed vip = true) : 1 ≤ vip.type ∧ vip.type ≤ 4 ∧ vip.type ≠ 2 := by
  obtain h | h | h := of_decide_eq_true h <;> rw [h] <;> decide

theorem counts_untimed (pass : PassVehicle) (vip : VIPVehicle) (hc : Counts pass vip) (h : timed vip = false) :
    vip.type = 2 := by
  obtain ⟨h1, h2, -⟩ := hc
  have hnot := of_decide_eq_false h
  omega

/-- The first row `Create` looks for is the one `GetParkingType` stops at, as
far as it is valid and no valid balance comes before it. -/
theorem agree_iff (pass : PassVehicle) (before before' after after' : List VIPVehicle) (vip first : VIPVehicle)
    (hsplit : before ++ first :: after = before' ++ vip :: after') (hfirst : Counts pass first)
    (hbefore : ∀ x ∈ before, ¬ Counts pass x) (ht : timed vip = true) (hbefore' : ∀ x ∈ before', timed x = false) :
    (kindOf vip.type = kindOf first.type ∧ isValidVIP vip pass = true) ↔
      isValidVIP vip pass = true ∧ ∀ x ∈ before', ¬ (x.type = 2 ∧ isValidVIP x pass = true) := by
  obtain ⟨hv1, hv4, hv2⟩ := timed_type vip ht
  constructor
  · rintro ⟨hkind, hvalid⟩
    have htype := kindOf_inj _ _ ⟨hv1, hv4⟩ ⟨hfirst.1, hfirst.2.1⟩ hkind
    refine ⟨hvalid, ?_⟩
    rintro x hx ⟨hx2, hxv⟩
    have hxc : Counts pass x := ⟨by omega, by omega, hxv⟩
    obtain ⟨more, hmore, htail⟩ | ⟨more, hmore, htail⟩ := List.append_eq_append_iff.mp hsplit
    · cases more with
      | nil =>
        rw [hmore, List.append_nil] at hx
        exact hbefore x hx hxc
      | cons y more =>
        obtain ⟨rfl, -⟩ := List.cons.inj htail
        have hmem : first ∈ before' := by simp [hmore]
        exact hv2 (htype.trans (counts_untimed pass first hfirst (hbefore' first hmem)))
    · exact hbefore x (by simp [hmore, hx]) hxc
  · rintro ⟨hvalid, hnone⟩
    refine ⟨?_, hvalid⟩
    have hvc : Counts pass vip := ⟨hv1, hv4, hvalid⟩
    obtain ⟨more, hmore, htail⟩ | ⟨more, hmore, htail⟩ := List.append_eq_append_iff.mp hsplit
    · cases more with
      | nil => rw [(List.cons.inj htail).1]
      | cons y more =>
        obtain ⟨rfl, -⟩ := List.cons.inj htail
        have hmem : first ∈ before' := by simp [hmore]
        exact absurd ⟨counts_untimed pass first hfirst (hbefore' first hmem), hfirst.2.2⟩ (hnone first hmem)
    · cases more with
      | nil => rw [(List.cons.inj htail).1]
      | cons y more =>
        obtain ⟨rfl, -⟩ := List.cons.inj htail
        exact absurd hvc (hbefore vip (by simp [hmore]))

theorem chargeOfList_timed (before after : List VIPVehicle) (vip : VIPVehicle) (ht : timed vip = true)
    (hb : ∀ x ∈ before, timed x = false) : chargeOfList (before ++ vip :: after) = (kindOf vip.type, vip) := by
  have hfind : (before ++ vip :: after).find? timed = some vip :=
    List.find?_eq_some_iff_append.mpr ⟨ht, before, after, rfl, fun x hx => by simp [hb x hx]⟩
  have hfind' : (before ++ vip :: after).find? (fun v => decide (v.type = 1 ∨ v.type = 3 ∨ v.type = 4)) = some vip :=
    hfind
  rw [chargeOfList.eq_def, hfind']

theorem chargeOfList_stored (vip : VIPVehicle) (after : List VIPVehicle) (h2 : vip.type = 2)
    (hb : ∀ x ∈ vip :: after, timed x = false) : chargeOfList (vip :: after) = (.storedValue, vip) := by
  have hfind : (vip :: after).find? (fun v => decide (v.type = 1 ∨ v.type = 3 ∨ v.type = 4)) = none :=
    List.find?_eq_none.mpr fun x hx => by simpa [timed] using hb x hx
  rw [chargeOfList, hfind]
  simp [h2]

/-- With one row the choice is of the class; with several it is the first row with
a time of validity, and otherwise a balance that comes first. -/
theorem choice_of_classified (env : Env) (pass : PassVehicle) (w t : World) (type : ℤ)
    (h : run (getParkingType env pass) w = (.ok type, t)) (hne : type ≠ temporaryVehicleParking) :
    ∃ choice rows, run (chooseCharge env pass.plateNumber1) w = (.ok choice, w) ∧
      memberRows env.like w pass.plateNumber1 = .ok rows ∧
      (¬ ListMode w → choice.1 = kindOf type ∧ isValidVIP choice.2 pass = true) ∧
      (ListMode w → ∀ before vip after, rows = before ++ vip :: after → timed vip = true →
        (∀ x ∈ before, timed x = false) → choice = (kindOf vip.type, vip) ∧
        ((choice.1 = kindOf type ∧ isValidVIP choice.2 pass = true) ↔
          isValidVIP vip pass = true ∧ ∀ x ∈ before, ¬ (x.type = 2 ∧ isValidVIP x pass = true))) ∧
      (ListMode w → ∀ vip after, rows = vip :: after → vip.type = 2 → (∀ x ∈ rows, timed x = false) →
        choice = (kindOf type, vip)) := by
  obtain ⟨⟨rows, hrows, htype⟩, choice, hchoice⟩ := getParkingType_returned env pass w t type h hne
  obtain ⟨before, first, after, hsplit, hcounts, hfirst, hbefore⟩ :=
    parkingTypeOfList_first rows pass (by rw [← htype]; exact hne)
  obtain ⟨hof, -⟩ := chooseCharge_returned env pass.plateNumber1 w w choice hchoice
  rw [hfirst] at htype
  refine ⟨choice, rows, hchoice, hrows, ?_, ?_, ?_⟩
  · intro hl
    obtain ⟨hexact, hlen⟩ := choiceOf_exact env.like w pass.plateNumber1 rows hl hrows
    have hone : rows = [first] := by
      rw [hsplit] at hlen ⊢
      simp only [List.length_append, List.length_cons] at hlen
      have hb : before = [] := List.length_eq_zero_iff.mp (by omega)
      have ha : after = [] := List.length_eq_zero_iff.mp (by omega)
      simp [hb, ha]
    rw [hof, hone] at hexact
    cases hexact
    exact ⟨by rw [htype]; rfl, hcounts.2.2⟩
  · intro hl before' vip after' hrow ht hb
    have hc := choiceOf_list env.like w pass.plateNumber1 rows hl hrows
    rw [hof, hrow, chargeOfList_timed before' after' vip ht hb] at hc
    cases hc
    refine ⟨rfl, ?_⟩
    rw [htype]
    exact agree_iff pass before before' after after' vip first (hsplit.symm.trans hrow) hcounts hbefore ht hb
  · intro hl vip after' hrow h2 hb
    have hc := choiceOf_list env.like w pass.plateNumber1 rows hl hrows
    have hmem : first ∈ rows := by simp [hsplit]
    rw [hof, hrow, chargeOfList_stored vip after' h2 (by rw [← hrow]; exact hb)] at hc
    cases hc
    rw [htype, counts_untimed pass first hcounts (hb first hmem)]
    rfl

theorem run_create (env : Env) (enter exit : PassVehicle) (w : World) (choice : ChargeKind × VIPVehicle)
    (h : run (chooseCharge env exit.plateNumber1) w = (.ok choice, w))
    (hposition : env.fails ⟨.select, .gateInfo, enter.deviceId⟩ = none)
    (henter : 0 ≤ enter.passTime) (hexit : 0 ≤ exit.passTime) :
    run (create env enter exit) w = (.ok (Charge.construct choice.1 enter exit choice.2 env.utcOffset
      (onlyRow (positionsOf w enter.deviceId) 0) (env.uuid w.ids) 0 0), { w with ids := w.ids + 1 }) := by
  rw [create, run_bind_ok _ _ _ _ _ h, queryParkPosition, run_bind_ok _ _ _ _ _ (run_query env _ _ w hposition),
    run_bind_ok _ _ _ _ _ (run_formatLocalTime env _ w henter),
    run_bind_ok _ _ _ _ _ (run_formatLocalTime env _ w hexit)]
  rfl

/-- Where a vehicle is classified as a member's, `Create` returns a charge of
the two records if it can ask for the position and format their times. With one
row the charge is of the class, on a valid row; with several it is built on the
first row with a time of validity, and otherwise on a balance that comes first. -/
theorem classification_and_charging (env : Env) (enter pass : PassVehicle) (w t : World) (type : ℤ)
    (h : run (getParkingType env pass) w = (.ok type, t)) (hne : type ≠ temporaryVehicleParking)
    (hposition : env.fails ⟨.select, .gateInfo, enter.deviceId⟩ = none)
    (henter : 0 ≤ enter.passTime) (hexit : 0 ≤ pass.passTime) :
    ∃ charge rows, run (create env enter pass) w = (.ok charge, { w with ids := w.ids + 1 }) ∧
      charge.enterVehicle = enter ∧ charge.exitVehicle = pass ∧
      memberRows env.like w pass.plateNumber1 = .ok rows ∧
      (¬ ListMode w → charge.kind = kindOf type ∧ isValidVIP charge.vip pass = true) ∧
      (ListMode w → ∀ before vip after, rows = before ++ vip :: after → timed vip = true →
        (∀ x ∈ before, timed x = false) → charge.kind = kindOf vip.type ∧ charge.vip = vip ∧
        ((charge.kind = kindOf type ∧ isValidVIP charge.vip pass = true) ↔
          isValidVIP vip pass = true ∧ ∀ x ∈ before, ¬ (x.type = 2 ∧ isValidVIP x pass = true))) ∧
      (ListMode w → ∀ vip after, rows = vip :: after → vip.type = 2 → (∀ x ∈ rows, timed x = false) →
        charge.kind = kindOf type ∧ charge.kind = .storedValue ∧ charge.vip = vip) := by
  obtain ⟨choice, rows, hchoice, hrows, hone, htimed, hstored⟩ := choice_of_classified env pass w t type h hne
  refine ⟨_, rows, run_create env enter pass w choice hchoice hposition henter hexit, rfl, rfl, hrows, hone, ?_, ?_⟩
  · intro hl before vip after hrow ht hb
    obtain ⟨hc, hagree⟩ := htimed hl before vip after hrow ht hb
    exact ⟨congrArg Prod.fst hc, congrArg Prod.snd hc, hagree⟩
  · intro hl vip after hrow h2 hb
    obtain ⟨hof, -⟩ := chooseCharge_returned env pass.plateNumber1 w w choice hchoice
    have hc := choiceOf_list env.like w pass.plateNumber1 rows hl hrows
    rw [hof, hrow, chargeOfList_stored vip after h2 (by rw [← hrow]; exact hb)] at hc
    have hkind := congrArg Prod.fst (Except.ok.inj hc)
    exact ⟨congrArg Prod.fst (hstored hl vip after hrow h2 hb), hkind,
      congrArg Prod.snd (hstored hl vip after hrow h2 hb)⟩

/-- A lot that ignores the province, with members of several provinces. -/
def provinces (vips : List VIPVehicle) : World where
  config := { whitelistMatchMode := ignoreProvinceMatch }
  vips := vips

def anyProvince : Env := { quietEnv with like := fun p carno => p.drop 1 = (bytes carno).drop 3 }

def leaving : PassVehicle := { plateNumber1 := "京A12345", passTime := 100 }

def balance : VIPVehicle :=
  { id := "v1", plateNumber := "沪A12345", type := 2, deleteStatus := "1", expiryDate := 200 }

def monthly : VIPVehicle := { balance with id := "v2", plateNumber := "京A12345", type := 3 }

def expired : VIPVehicle := { monthly with id := "v3", type := 1, expiryDate := 50 }

def unknown : VIPVehicle := { balance with id := "v4", type := 7 }

def classed (vips : List VIPVehicle) : Except Exn ℤ := (run (getParkingType anyProvince leaving) (provinces vips)).1

def charged (vips : List VIPVehicle) : Except Exn (ChargeKind × String) :=
  (run (create anyProvince {} leaving) (provinces vips)).1.map fun charge => (charge.kind, charge.vip.id)

theorem classification_and_charging_monthly : (3 : ℤ) ≠ temporaryVehicleParking ∧
    run (getParkingType anyProvince leaving) (provinces [monthly, balance]) = (.ok 3, provinces [monthly, balance]) ∧
    ∃ charge t, run (create anyProvince {} leaving) (provinces [monthly, balance]) = (.ok charge, t) ∧
      charge.kind = .monthly ∧ charge.vip.id = "v2" := by
  have h : run (getParkingType anyProvince leaving) (provinces [monthly, balance]) =
    (.ok 3, provinces [monthly, balance]) := rfl
  obtain ⟨charge, rows, hc, -, -, hr, -, hl, -⟩ :=
    classification_and_charging anyProvince {} leaving _ _ 3 h (by decide) rfl le_rfl (by decide)
  have hrows : rows = [] ++ handleQueryVipVehicle monthly :: [handleQueryVipVehicle balance] :=
    Except.ok.inj (hr.symm.trans rfl)
  obtain ⟨hkind, hvip, -⟩ := hl (.inl rfl) [] (handleQueryVipVehicle monthly) [_] hrows rfl (by simp)
  exact ⟨by decide, h, charge, _, hc, hkind, by rw [hvip]; rfl⟩

/-- A balance before a monthly member, an expired member before a valid one, and
an unknown type before a balance. -/
theorem classified_and_charged_apart :
    (classed [balance, monthly] = .ok 2 ∧ charged [balance, monthly] = .ok (.monthly, "v2")) ∧
    (classed [expired, monthly] = .ok 3 ∧ charged [expired, monthly] = .ok (.whiteList, "v3") ∧
      isValidVIP expired leaving = false) ∧
    classed [unknown, balance] = .ok 2 ∧ charged [unknown, balance] = .ok (.temporaryVehicle, "v4") :=
  ⟨⟨rfl, rfl⟩, ⟨rfl, rfl, rfl⟩, rfl, rfl⟩

end BitPark.Classification
