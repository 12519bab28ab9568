import BitPark.Settlement

namespace BitPark.MemberCharge

open BitPark.TimePeriod BitPark.Tariff BitPark.ChargeByTime BitPark.Effect BitPark.Server BitPark.Database
  BitPark.Devices BitPark.Charging BitPark.Settlement

/-- A second of a stay that a membership does not cover. -/
def Unpaid (enter exit validBegin expiry t : ℤ) : Prop :=
  (enter ≤ t ∧ t < exit) ∧ ¬ (validBegin ≤ t ∧ t < expiry)

/-- A non-empty interval of unpaid seconds that no other such interval extends. -/
def IsGap (enter exit validBegin expiry a b : ℤ) : Prop :=
  a < b ∧ (∀ t, a ≤ t → t < b → Unpaid enter exit validBegin expiry t) ∧
    ¬ Unpaid enter exit validBegin expiry (a - 1) ∧ ¬ Unpaid enter exit validBegin expiry b

/-- What lies before a membership and what lies behind it, as far as there is any. -/
def gaps (enter exit validBegin expiry : ℤ) : List (ℤ × ℤ) :=
  [(enter, min exit validBegin), (max enter expiry, exit)].filter fun p => p.1 < p.2

theorem gaps_nodup (enter exit validBegin expiry : ℤ) (he : enter ≤ exit) (h : validBegin < expiry) :
    (gaps enter exit validBegin expiry).Nodup := by
  apply List.Nodup.filter
  rw [List.nodup_cons, List.mem_singleton, Prod.mk.injEq]
  refine ⟨?_, List.nodup_singleton _⟩
  omega

theorem mem_gaps_iff (enter exit validBegin expiry a b : ℤ) (h : validBegin < expiry) :
    (a, b) ∈ gaps enter exit validBegin expiry ↔ IsGap enter exit validBegin expiry a b := by
  have hmem : (a, b) ∈ gaps enter exit validBegin expiry ↔
      a < b ∧ ((a = enter ∧ b = min exit validBegin) ∨ (a = max enter expiry ∧ b = exit)) := by
    simp [gaps, List.mem_filter, and_comm]
  rw [hmem, IsGap]
  constructor
  · rintro ⟨hlt, hab⟩
    refine ⟨hlt, fun t h1 h2 => ?_, ?_, ?_⟩ <;> unfold Unpaid <;> omega
  · rintro ⟨hlt, hall, hbefore, hafter⟩
    have hfirst := hall a le_rfl hlt
    have hlast := hall (b - 1) (by omega) (by omega)
    -- an interval on both sides of the membership would contain its begin
    have hbegin := hall validBegin
    unfold Unpaid at *
    omega

section

variable (env : Env) (c c' : Charge) (w w' : World)

/-- What `ChargeByTime` returns for a part of the stay. -/
def partFee (enter exit : ℤ) : ℚ := (c.fee w.rules env.utcOffset enter exit c.exitVehicle.plateType).1

theorem partFee_empty (t : ℤ) : partFee env c w t t = 0 := chargeByTime_empty _ _ _ _ _ _ _ _ _

/-- The amounts of a charge that is to be paid in full. -/
def Reported (charge : ℚ) : Prop := c'.json.totalCharge = charge ∧ c'.json.requireCharge = charge

theorem chargeByTimeDuration_reported (b : Bill) (enter exit : ℤ)
    (h : run ({ c with bill := b }.chargeByTimeDuration env enter exit) w = (.ok c', w')) :
    Reported c' (partFee env c w enter exit) := by
  obtain ⟨hjson, -⟩ := chargeByTimeDuration_returned env _ c' w w' enter exit h
  have hpart : ({ c with bill := b }.fee w.rules env.utcOffset enter exit c.exitVehicle.plateType).1 =
      partFee env c w enter exit := chargeByTime_bill _ _ _ _ _ _ _ _ _ _ _
  rw [Reported, hjson]
  exact ⟨hpart, hpart⟩

/-- The stay covers the membership: both of its ends are charged. -/
theorem both_ends_reported (h : run (chargeBothEnds env c) w = (.ok c', w')) :
    Reported c' (partFee env c w c.enterVehicle.passTime c.vip.validBegintime +
      partFee env c w c.vip.expiryDate c.exitVehicle.passTime) := by
  obtain ⟨before, after, rfl, hafter, hjson, -⟩ := chargeBothEnds_ends env c c' w w' h
  have hpart : after.1 = partFee env c w c.vip.expiryDate c.exitVehicle.passTime := by
    rw [hafter]
    exact chargeByTime_bill _ _ _ _ _ _ _ _ _ _ _
  rw [Reported, hjson, ← hpart]
  exact ⟨rfl, rfl⟩

/-- What the gaps of a stay cost together. -/
def gapFees (enter exit validBegin expiry : ℤ) : ℚ :=
  ((gaps enter exit validBegin expiry).map fun p => partFee env c w p.1 p.2).sum

theorem gapFees_eq (enter exit validBegin expiry : ℤ) : gapFees env c w enter exit validBegin expiry =
    (if enter < min exit validBegin then partFee env c w enter (min exit validBegin) else 0) +
      if max enter expiry < exit then partFee env c w (max enter expiry) exit else 0 := by
  rw [gapFees, gaps]
  by_cases h1 : enter < min exit validBegin
  · by_cases h2 : max enter expiry < exit
    · simp [h1, h2]
    · simp [h1, h2]
  · by_cases h2 : max enter expiry < exit
    · simp [h1, h2]
    · simp [h1, h2]

theorem cancelled_reported (h : run (c.calTimeBasedVIPCharge env) w = (.ok c', w'))
    (ho : c.vip.deleteStatus ≠ "1" ∨ c.vip.expiryDate = 0) :
    Reported c' (partFee env c w c.enterVehicle.passTime c.exitVehicle.passTime) := by
  rw [Charge.calTimeBasedVIPCharge] at h
  dsimp only at h
  by_cases hs : c.vip.deleteStatus ≠ "1"
  · rw [if_pos hs] at h
    exact chargeByTimeDuration_reported env c c' w w' c.bill _ _ h
  · rw [if_neg hs, if_pos (ho.resolve_left hs)] at h
    exact chargeByTimeDuration_reported env c c' w w' c.bill _ _ h

theorem active_reported (h0 : c.json.totalCharge = 0 ∧ c.json.requireCharge = 0)
    (h : run (c.calTimeBasedVIPCharge env) w = (.ok c', w')) (hs : c.vip.deleteStatus = "1")
    (hx : c.vip.expiryDate ≠ 0) (hv : c.vip.validBegintime < c.vip.expiryDate)
    (he : c.enterVehicle.passTime ≤ c.exitVehicle.passTime) :
    Reported c' (gapFees env c w c.enterVehicle.passTime c.exitVehicle.passTime c.vip.validBegintime
      c.vip.expiryDate) := by
  have htime := fun (b : Bill) enter exit => chargeByTimeDuration_reported env c c' w w' b enter exit
  -- a stay that meets the membership at most with an end is one gap, or none if it is empty
  have hwhole : run (c.chargeByAccessTime env) w = (.ok c', w') →
      Reported c' (if c.enterVehicle.passTime < c.exitVehicle.passTime then
        partFee env c w c.enterVehicle.passTime c.exitVehicle.passTime else 0) := by
    intro h
    have hfee := htime c.bill _ _ h
    rcases he.eq_or_lt with heq | hlt
    · rw [heq, partFee_empty] at hfee
      rw [if_neg (by omega)]
      exact hfee
    · rw [if_pos hlt]
      exact hfee
  rw [Charge.calTimeBasedVIPCharge] at h
  dsimp only at h
  rw [if_neg (not_not.mpr hs), if_neg hx] at h
  rw [gapFees_eq]
  by_cases h1 : c.exitVehicle.passTime ≤ c.vip.validBegintime
  · rw [if_pos h1] at h
    rw [min_eq_left h1, if_neg (not_lt.mpr ((h1.trans hv.le).trans (le_max_right _ _))), add_zero]
    exact hwhole h
  · rw [if_neg h1] at h
    have hmin := min_eq_right (not_le.mp h1).le
    rw [hmin]
    by_cases h2 : c.exitVehicle.passTime ≤ c.vip.expiryDate
    · rw [if_pos h2] at h
      rw [if_neg (not_lt.mpr (h2.trans (le_max_right _ _))), add_zero]
      by_cases h3 : c.enterVehicle.passTime < c.vip.validBegintime
      · rw [if_pos h3] at h ⊢
        exact htime _ _ _ h
      · -- a stay within the membership keeps the amounts of the constructor
        rw [if_neg h3] at h ⊢
        obtain ⟨a, u, -, hp⟩ := bind_returned _ _ _ _ _ h
        cases hp
        exact h0
    · rw [if_neg h2] at h
      rw [not_le] at h2
      by_cases h3 : c.enterVehicle.passTime < c.vip.validBegintime
      · rw [if_pos h3] at h ⊢
        rw [max_eq_right (h3.trans hv).le, if_pos h2]
        exact both_ends_reported env c c' w w' h
      · rw [if_neg h3] at h ⊢
        rw [zero_add]
        by_cases h4 : c.enterVehicle.passTime < c.vip.expiryDate
        · rw [if_pos h4] at h
          rw [max_eq_right h4.le, if_pos h2]
          exact htime _ _ _ h
        · rw [if_neg h4] at h
          rw [max_eq_left (not_lt.mp h4)]
          exact hwhole h

end

/-- A member pays for the gaps of the stay, a former or a timeless one for all of it. -/
theorem calTimeBasedVIPCharge_gaps (env : Env) (kind : ChargeKind) (enter exit : PassVehicle) (vip : VIPVehicle)
    (parkPosition freeTimeMode chargePattern : ℤ) (chargeId : String) (w w' : World) (c' : Charge)
    (he : enter.passTime ≤ exit.passTime) :
    let c := Charge.construct kind enter exit vip env.utcOffset parkPosition chargeId freeTimeMode chargePattern
    run (c.calTimeBasedVIPCharge env) w = (.ok c', w') →
      (vip.deleteStatus = "1" → vip.expiryDate ≠ 0 → vip.validBegintime < vip.expiryDate →
        Reported c' (gapFees env c w enter.passTime exit.passTime vip.validBegintime vip.expiryDate)) ∧
      (vip.deleteStatus ≠ "1" ∨ vip.expiryDate = 0 →
        Reported c' (partFee env c w enter.passTime exit.passTime)) := by
  intro c h
  exact ⟨fun hs hx hv => active_reported env c c' w w' ⟨rfl, rfl⟩ h hs hx hv he,
    fun ho => cancelled_reported env c c' w w' h ho⟩

def lateMorningMember : VIPVehicle :=
  { id := "v1", plateNumber := "A1", validBegintime := 39600, expiryDate := 41400, deleteStatus := "1" }

def lateMorningCharge : Charge :=
  Charge.construct .monthly memberEntry memberExit lateMorningMember 0 0 "c1" 0 0

/-- Of two hours the member pays the first one and the last half. -/
theorem calTimeBasedVIPCharge_gaps_morning : memberEntry.passTime ≤ memberExit.passTime ∧ ∃ c' w',
    run (lateMorningCharge.calTimeBasedVIPCharge quietEnv) (hourlyPark []) = (.ok c', w') ∧
    ("1" = "1" → (41400 : ℤ) ≠ 0 → (39600 : ℤ) < 41400 →
      Reported c' (gapFees quietEnv lateMorningCharge (hourlyPark []) 36000 43200 39600 41400)) ∧
    ("1" ≠ "1" ∨ (41400 : ℤ) = 0 →
      Reported c' (partFee quietEnv lateMorningCharge (hourlyPark []) 36000 43200)) := by
  obtain ⟨c', w', h⟩ := returned_of_isOk (lateMorningCharge.calTimeBasedVIPCharge quietEnv) (hourlyPark [])
    (by decide +kernel)
  exact ⟨by decide, c', w', h, calTimeBasedVIPCharge_gaps quietEnv .monthly memberEntry memberExit lateMorningMember
    0 0 0 "c1" (hourlyPark []) w' c' (by decide) h⟩

end BitPark.MemberCharge
