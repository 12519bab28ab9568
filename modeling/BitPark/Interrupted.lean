import BitPark.Settlement

namespace BitPark.Interrupted

open BitPark.Effect BitPark.Server BitPark.Database BitPark.Devices BitPark.Charging BitPark.Settlement
open BitPark.RemainMoney (written)

/-! The record of a settlement, the row of the entry and the balance are
written one after the other, and each write stays done. -/

/-- The first writes of a settlement are done, not that of the balance. -/
structure Begun (id passId : String) (w w' : World) : Prop where
  charges : ∃ new, w'.charges = w.charges ++ new ∧ ∀ r ∈ new, r.1 = id
  innerCars : w'.innerCars = w.innerCars ∨
    w.charges.length < w'.charges.length ∧ w'.innerCars = cleared w.innerCars passId
  vips : w'.vips = w.vips

/-- All writes of a settlement are done. -/
structure Settled (id passId vipId : String) (money : ℚ) (w w' : World) : Prop where
  charges : ∃ new, new ≠ [] ∧ w'.charges = w.charges ++ new ∧ ∀ r ∈ new, r.1 = id
  innerCars : w'.innerCars = cleared w.innerCars passId
  vips : w'.vips = w.vips.map (setRemainMoney vipId money)

/-- The three tables that a settlement writes. -/
def settledTables (w : World) : List (String × ChargeRecord) × List InnerCar × List VIPVehicle :=
  (w.charges, w.innerCars, w.vips)

theorem begun_of_same (id passId : String) (w w' : World) (h : SameAt settledTables w w') : Begun id passId w w' := by
  obtain ⟨hc, hi, hv⟩ : w'.charges = w.charges ∧ w'.innerCars = w.innerCars ∧ w'.vips = w.vips := by
    simpa [SameAt, settledTables] using h
  exact ⟨⟨[], by simp [hc], by simp⟩, .inl hi, hv⟩

theorem begun_trans (id passId : String) (w u w' : World) (h1 : Begun id passId w u) (h2 : Begun id passId u w') :
    Begun id passId w w' := by
  obtain ⟨⟨new1, hc1, hid1⟩, hi1, hv1⟩ := h1
  obtain ⟨⟨new2, hc2, hid2⟩, hi2, hv2⟩ := h2
  refine ⟨⟨new1 ++ new2, ?_, ?_⟩, ?_, hv2.trans hv1⟩
  · rw [hc2, hc1, List.append_assoc]
  · intro r hr
    exact (List.mem_append.mp hr).elim (hid1 r) (hid2 r)
  · have hl1 : u.charges.length = w.charges.length + new1.length := by rw [hc1, List.length_append]
    have hl2 : w'.charges.length = u.charges.length + new2.length := by rw [hc2, List.length_append]
    rcases hi2 with hi2 | ⟨hlt2, hi2⟩
    · rcases hi1 with hi1 | ⟨hlt1, hi1⟩
      · exact .inl (hi2.trans hi1)
      · exact .inr ⟨by omega, hi2.trans hi1⟩
    · rcases hi1 with hi1 | ⟨hlt1, hi1⟩
      · exact .inr ⟨by omega, by rw [hi2, hi1]⟩
      · exact .inr ⟨by omega, by rw [hi2, hi1, cleared_cleared]⟩

instance (id passId : String) : IsPreorder World (Begun id passId) where
  refl w := begun_of_same id passId w w rfl
  trans := begun_trans id passId

section

variable (env : Env) (c : Charge)

/-- Whatever comes of the deletion of the row, the row is there or it is gone. -/
theorem deleteTemporaryPassrecord_tables (passId : String) (w : World) :
    SameAt settledTables w (run (deleteTemporaryPassrecord env passId) w).2 ∨
      SameAt settledTables { w with innerCars := cleared w.innerCars passId }
        (run (deleteTemporaryPassrecord env passId) w).2 := by
  rw [deleteTemporaryPassrecord, cleared]
  by_cases hp : passId = ""
  · rw [if_neg (not_not.mpr hp)]
    exact .inl rfl
  · rw [if_pos hp, if_neg hp, run_bind]
    match hd : run (deleteTemporaryPassRecord env passId) w with
    | (.error e, t) =>
      have hsame := fails_execute (R := SameAt settledTables) env _ _ w e t hd
      exact .inl hsame
    | (.ok a, t) =>
      have ht := execute_returned _ _ _ _ _ _ hd
      have hrest : SameAt settledTables t (run (refreshEntranceLeds env) t).2 :=
        steps_refreshEntranceLeds (fun _ _ => rfl) env t
      rw [ht] at hrest ⊢
      exact .inr hrest

theorem recordAutoCharge_begun (id passId : String) (hid : c.chargeId = id) (hp : c.enterVehicle.passId = passId)
    (charge remainMoney : ℚ) (payType : ℤ) :
    Steps (Begun id passId) (c.recordAutoCharge env charge payType remainMoney) := by
  rw [← hid, ← hp]
  intro w
  rw [Charge.recordAutoCharge, run_bind]
  match hi : run (insertChargeRecord env c.chargeId (c.autoRecord charge payType remainMoney)) w with
  | (.error e, t) =>
    have hfail : Fails (SameAt settledTables)
        (insertChargeRecord env c.chargeId (c.autoRecord charge payType remainMoney)) :=
      fails_bind (steps_statement env _) fun _ => fails_bind steps_state fun _ =>
        fails_ite _ (fails_of_steps (steps_raise _)) fun s e t h => by cases h
    exact begun_of_same _ _ _ _ (hfail w e t hi)
  | (.ok a, t) =>
    have ht := insertChargeRecord_returned _ _ _ _ _ _ hi
    -- the record is there, whatever the deletion does next
    have hrecord : ∀ u, u.charges = t.charges → u.vips = t.vips →
        (u.innerCars = t.innerCars ∨ u.innerCars = cleared t.innerCars c.enterVehicle.passId) →
        Begun c.chargeId c.enterVehicle.passId w u := by
      intro u hc hv hin
      rw [ht] at hc hv hin
      refine ⟨⟨[_], hc, by simp⟩, ?_, hv⟩
      rcases hin with hin | hin
      · exact .inl hin
      · exact .inr ⟨by simp [hc], hin⟩
    obtain hsame | hsame := deleteTemporaryPassrecord_tables env c.enterVehicle.passId t
    · obtain ⟨hc, hin, hv⟩ : _ ∧ _ ∧ _ := by simpa [SameAt, settledTables] using hsame
      exact hrecord _ hc hv (.inl hin)
    · obtain ⟨hc, hin, hv⟩ : _ ∧ _ ∧ _ := by simpa [SameAt, settledTables] using hsame
      exact hrecord _ hc hv (.inr hin)

theorem buildChargeJson_begun (charge requireCharge : ℚ) :
    Steps (Begun c.chargeId c.enterVehicle.passId) (c.buildChargeJson env charge requireCharge) :=
  steps_ite _ (steps_bind (recordAutoCharge_begun env _ _ _ rfl rfl _ _ _) fun _ => steps_pure _) (steps_pure _)

theorem chargeByTimeDuration_begun (enter exit : ℤ) :
    Steps (Begun c.chargeId c.enterVehicle.passId) (c.chargeByTimeDuration env enter exit) := by
  intro w
  rw [Charge.chargeByTimeDuration, run_bind]
  match hb : run (c.billStay env enter exit c.exitVehicle.plateType) w with
  | (.error e, t) => exact steps_returned (Charge.steps_billStay env c _ _ _) w t (.error e) hb
  | (.ok (fee, c'), t) =>
    obtain ⟨-, hc, rfl⟩ := Charge.billStay_returned _ _ _ _ _ _ _ _ hb
    obtain rfl : c' = _ := hc
    exact buildChargeJson_begun env
      { c with bill := (c.fee t.rules env.utcOffset enter exit c.exitVehicle.plateType).2
               json := { c.json with parkingType := temporaryVehicleParking } } fee fee t

theorem update_last (id passId vipId : String) (money : ℚ) (c' : Charge) :
    Fails (Begun id passId) (do updateStoredValue env vipId money; pure c') :=
  fails_bind_total (fails_execute env _ _) fun _ _ => rfl

theorem payStored_begun (charge leftMoney : ℚ) :
    Fails (Begun c.chargeId c.enterVehicle.passId) (c.payStored env charge leftMoney) := by
  intro w e t h
  rw [Charge.payStored, run_bind] at h
  have hfirst := buildChargeJson_begun env (c.exempt charge) charge 0 w
  match hj : run ((c.exempt charge).buildChargeJson env charge 0) w with
  | (.error e', u) =>
    rw [hj] at h hfirst
    cases h
    exact hfirst
  | (.ok c', u) =>
    rw [hj] at h hfirst
    obtain ⟨hc, -⟩ := Charge.buildChargeJson_returned _ _ _ _ _ _ _ hj
    have hrest := fails_bind (recordAutoCharge_begun env c' c.chargeId c.enterVehicle.passId (by rw [hc]; rfl)
      (by rw [hc]; rfl) charge leftMoney storedValuePay) (fun _ => update_last env _ _ c'.vip.id leftMoney c') u e t h
    exact begun_trans _ _ _ _ _ hfirst hrest

theorem payPart_begun (charge leftMoney : ℚ) :
    Fails (Begun c.chargeId c.enterVehicle.passId) (c.payPart env charge leftMoney) :=
  fails_bind (buildChargeJson_begun env (c.exempt c.vip.remainMoney) charge (-leftMoney)) fun c' =>
    update_last env c.chargeId c.enterVehicle.passId c'.vip.id 0 _

/-- A settlement that raises has begun and left the balance as it was. -/
theorem settleStoredValue_begun : Fails (Begun c.chargeId c.enterVehicle.passId) (c.settleStoredValue env) := by
  intro w e t h
  rw [Charge.settleStoredValue, run_bind] at h
  match hb : run (c.billStay env c.enterVehicle.passTime c.exitVehicle.passTime c.enterVehicle.plateType) w with
  | (.error e', u) =>
    rw [hb] at h
    cases h
    exact steps_returned (Charge.steps_billStay env c _ _ _) w t (.error e) hb
  | (.ok (fee, c'), u) =>
    obtain ⟨-, hc, rfl⟩ := Charge.billStay_returned _ _ _ _ _ _ _ _ hb
    obtain rfl : c' = _ := hc
    rw [hb] at h
    dsimp only at h
    split_ifs at h
    · exact payStored_begun env { c with bill := storedBill env c u } fee _ u e t h
    · exact payPart_begun env { c with bill := storedBill env c u } fee _ u e t h

theorem settled_of_recorded (n : ℕ) (vipId : String) (money : ℚ) (w u : World) (hn : n ≠ 0)
    (h : Recorded c.chargeId c.enterVehicle.passId n w u) :
    Settled c.chargeId c.enterVehicle.passId vipId money w (debited vipId money u) := by
  obtain ⟨new, sent, hl, hid, rfl⟩ := h
  refine ⟨⟨new, ?_, rfl, hid⟩, if_neg hn, rfl⟩
  rintro rfl
  exact hn hl.symm

end

/-- A settlement of the stored value that raises has left its first writes and
not touched the balance; one that returns and finds enough has done all of them,
the balance as `UpdateStoredValue` writes it. -/
theorem storedValue_settled_or_begun (env : Env) (enter exit : PassVehicle) (vip : VIPVehicle)
    (parkPosition freeTimeMode chargePattern : ℤ) (chargeId : String) (w w' : World) :
    let c := Charge.construct .storedValue enter exit vip env.utcOffset parkPosition chargeId freeTimeMode chargePattern
    (∀ e, run (c.calCharge env) w = (.error e, w') → Begun chargeId enter.passId w w') ∧
      ∀ c', run (c.calCharge env) w = (.ok c', w') → vip.deleteStatus = "1" →
        storedFee env c w ≤ vip.remainMoney →
        Settled chargeId enter.passId vip.id (written (vip.remainMoney - storedFee env c w)) w w' := by
  intro c
  constructor
  · intro e h
    change run (if vip.deleteStatus = "1" then c.settleStoredValue env else c.chargeByAccessTime env) w = _ at h
    split_ifs at h
    · exact settleStoredValue_begun env c w e w' h
    · exact fails_of_steps (chargeByTimeDuration_begun env c _ _) w e w' h
  · intro c' h ha hl
    change run (if vip.deleteStatus = "1" then c.settleStoredValue env else c.chargeByAccessTime env) w = _ at h
    rw [if_pos ha] at h
    obtain ⟨-, -, u, hrec, rfl⟩ | ⟨hlt, -⟩ := settleStoredValue_returned env c c' w w' h
    · exact settled_of_recorded c _ vip.id _ w u (Nat.succ_ne_zero _) hrec
    · exact absurd (sub_nonneg.mpr hl) (not_le.mpr hlt)

/-- No row can be deleted. -/
def deleteFails : Env := { quietEnv with fails := fun s => if s.verb = .delete then some .sqlExecuteException else none }

/-- One settlement that raises, and one of two hours that returns. -/
theorem delete_fails_begun :
    (∃ e w', run (memberCharge.calCharge deleteFails) (hourlyPark []) = (.error e, w') ∧
      Begun "c1" "e1" (hourlyPark []) w') ∧
    ∃ c' w', run (memberCharge.calCharge quietEnv) (hourlyPark []) = (.ok c', w') ∧
      Settled "c1" "e1" "v1" (written (50 - storedFee quietEnv memberCharge (hourlyPark []))) (hourlyPark []) w' := by
  constructor
  · have herr : (run (memberCharge.calCharge deleteFails) (hourlyPark [])).1.isOk = false := by decide +kernel
    match h : run (memberCharge.calCharge deleteFails) (hourlyPark []) with
    | (.error e, w') =>
      exact ⟨e, w', rfl, (storedValue_settled_or_begun deleteFails memberEntry memberExit storedMember 0 0 0 "c1"
        (hourlyPark []) w').1 e h⟩
    | (.ok c', w') =>
      rw [h] at herr
      cases herr
  · have hok : (run (memberCharge.calCharge quietEnv) (hourlyPark [])).1.isOk = true := by decide +kernel
    have henough : storedFee quietEnv memberCharge (hourlyPark []) ≤ storedMember.remainMoney := by decide +kernel
    obtain ⟨c', w', h⟩ := returned_of_isOk _ _ hok
    exact ⟨c', w', h, (storedValue_settled_or_begun quietEnv memberEntry memberExit storedMember 0 0 0 "c1"
      (hourlyPark []) w').2 c' h rfl henough⟩

/-- The record of two hours is there, the row of the entry and the balance are as they were. -/
theorem deletion_fails_after_record : ∃ e w',
    run (memberCharge.calCharge deleteFails) (hourlyPark []) = (.error e, w') ∧ w'.charges.length = 1 ∧
    w'.innerCars = (hourlyPark []).innerCars ∧ w'.vips = (hourlyPark []).vips ∧
    ¬ ((∃ money, Settled "c1" "e1" "v1" money (hourlyPark []) w') ∨ SameAt settledTables (hourlyPark []) w') := by
  have hall : (run (memberCharge.calCharge deleteFails) (hourlyPark [])).1.isOk = false ∧
      (run (memberCharge.calCharge deleteFails) (hourlyPark [])).2.charges.length = 1 ∧
      (run (memberCharge.calCharge deleteFails) (hourlyPark [])).2.innerCars = (hourlyPark []).innerCars ∧
      (run (memberCharge.calCharge deleteFails) (hourlyPark [])).2.vips = (hourlyPark []).vips := by decide +kernel
  match h : run (memberCharge.calCharge deleteFails) (hourlyPark []) with
  | (.error e, w') =>
    rw [h] at hall
    obtain ⟨-, hc, hi, hv⟩ := hall
    refine ⟨e, w', rfl, hc, hi, hv, ?_⟩
    rintro (⟨money, hs⟩ | hs)
    · have hcars := hs.innerCars
      rw [hi] at hcars
      exact absurd hcars (by decide)
    · have hcharges : w'.charges.length = 0 := congrArg (fun t => t.1.length) hs
      rw [hc] at hcharges
      cases hcharges
  | (.ok c', w') =>
    rw [h] at hall
    cases hall.1

end BitPark.Interrupted
