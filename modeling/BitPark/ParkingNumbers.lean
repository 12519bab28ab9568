import BitPark.Database

namespace BitPark.ParkingNumbers

open BitPark.Effect BitPark.Server BitPark.Database

/-! The spaces that `QueryParkingNumber` counts, against the rows of the tables. -/

def total (w : World) : ℤ := onlyRow (w.parkInfo.map (·.berthCount)) 0
def rectify (w : World) : ℤ := onlyRow (w.parkInfo.map (·.rectifyCount)) 0
def temporaryInside (w : World) : ℤ := (w.innerCars.filter (·.parkingType = 9)).length

/-- The number that the setting looks at is shown, but nothing below zero. -/
structure Balanced (w : World) (number : ParkingNumber) : Prop where
  realRemain : number.realRemainParking = total w - w.innerCars.length + rectify w
  realTemporary : number.realTemporaryParking = total w - w.vips.length - temporaryInside w + rectify w
  remain : number.remainParking = max 0 (if w.config.judgeRemainParkingNumber = 2 then number.realTemporaryParking
    else number.realRemainParking)

/-- The correction is changed by some spaces. -/
def rectified (r : ℤ) (w : World) : World :=
  { w with parkInfo := w.parkInfo.map fun info => { info with rectifyCount := info.rectifyCount + r } }

/-- Two numbers that differ by some spaces. -/
structure Moved (r : ℤ) (before after : ParkingNumber) : Prop where
  realRemain : after.realRemainParking = before.realRemainParking + r
  realTemporary : after.realTemporaryParking = before.realTemporaryParking + r

theorem parkingNumber_realRemain (w : World) :
    (parkingNumber w).realRemainParking = total w - w.innerCars.length + rectify w := by
  unfold parkingNumber
  dsimp only
  split_ifs <;> rfl

/-- The correction enters once with the members and once with the vehicles inside. -/
theorem parkingNumber_realTemporary (w : World) : (parkingNumber w).realTemporaryParking =
    total w - w.vips.length - temporaryInside w + 2 * rectify w := by
  have hcount : (parkingNumber w).realTemporaryParking =
      total w - w.vips.length + rectify w - temporaryInside w + rectify w := by
    unfold parkingNumber
    dsimp only
    split_ifs <;> rfl
  omega

/-- With the setting that looks at the temporary vehicles nothing is ever shown but zero. -/
theorem parkingNumber_remain (w : World) : (parkingNumber w).remainParking =
    if w.config.judgeRemainParkingNumber = 2 then 0 else max 0 (parkingNumber w).realRemainParking := by
  unfold parkingNumber
  dsimp only
  split_ifs with h2 hneg
  · rfl
  · exact (max_eq_left hneg.le).symm
  · exact (max_eq_right (not_lt.mp hneg)).symm

theorem balanced_iff (w : World) : Balanced w (parkingNumber w) ↔
    rectify w = 0 ∧ (w.config.judgeRemainParkingNumber = 2 → total w - w.vips.length - temporaryInside w ≤ 0) := by
  have htemporary := parkingNumber_realTemporary w
  have hremain := parkingNumber_remain w
  constructor
  · rintro ⟨-, htemp, hshown⟩
    have hzero : rectify w = 0 := by omega
    refine ⟨hzero, fun h2 => ?_⟩
    rw [if_pos h2] at hremain hshown
    omega
  · rintro ⟨hzero, hfull⟩
    refine ⟨parkingNumber_realRemain w, by omega, ?_⟩
    rw [hremain]
    split_ifs with h2
    · have := hfull h2
      omega
    · rfl

theorem total_rectified (r : ℤ) (w : World) : total (rectified r w) = total w := by
  rw [total, rectified, List.map_map]
  rfl

/-- The corrections are read from the only row, if there is just one. -/
theorem rectify_rectified (r : ℤ) (w : World) : rectify (rectified r w) = rectify w ∨
    rectify (rectified r w) = rectify w + r := by
  rw [rectify, rectify, rectified, List.map_map]
  match w.parkInfo with
  | [] => exact .inl rfl
  | [info] => exact .inr rfl
  | _ :: _ :: _ => exact .inl rfl

/-- A change of the correction moves the spaces of temporary vehicles by twice as much as all spaces. -/
theorem realTemporary_rectified (r : ℤ) (w : World) :
    (parkingNumber (rectified r w)).realTemporaryParking - (parkingNumber w).realTemporaryParking =
      2 * ((parkingNumber (rectified r w)).realRemainParking - (parkingNumber w).realRemainParking) := by
  have hvips : (rectified r w).vips = w.vips := rfl
  have hinner : (rectified r w).innerCars = w.innerCars := rfl
  have hinside : temporaryInside (rectified r w) = temporaryInside w := rfl
  rw [parkingNumber_realTemporary, parkingNumber_realTemporary, parkingNumber_realRemain, parkingNumber_realRemain,
    total_rectified, hvips, hinner, hinside]
  ring

theorem moved_iff (r : ℤ) (w : World) : Moved r (parkingNumber w) (parkingNumber (rectified r w)) ↔ r = 0 := by
  have htwice := realTemporary_rectified r w
  constructor
  · rintro ⟨hremain, htemporary⟩
    omega
  · intro h
    have hrectify : rectify (rectified r w) = rectify w := by
      rcases rectify_rectified r w with heq | heq
      · exact heq
      · rw [heq, h, add_zero]
    have hremain : (parkingNumber (rectified r w)).realRemainParking = (parkingNumber w).realRemainParking := by
      rw [parkingNumber_realRemain, parkingNumber_realRemain, total_rectified, hrectify]
      rfl
    constructor <;> omega

/-! The query. -/

theorem queryParkingNumber_returned (env : Env) (w t : World) (number : ParkingNumber)
    (h : run (queryParkingNumber env) w = (.ok number, t)) : number = parkingNumber w := by
  obtain ⟨_, u, hs, h⟩ := bind_returned _ _ _ _ _ h
  have hstatements : Unchanged id (forEach parkingStatements (statement env)) :=
    steps_forEach _ _ fun s _ => steps_statement env s
  have hu : u = w := steps_returned hstatements w u _ hs
  rw [hu] at h
  cases h
  rfl

/-- Whatever number the query returns has the property. -/
def Answers (w : World) (P : ParkingNumber → Prop) : Prop :=
  ∀ env number t, run (queryParkingNumber env) w = (.ok number, t) → P number

theorem answers_iff (w : World) (P : ParkingNumber → Prop) : Answers w P ↔ P (parkingNumber w) := by
  constructor
  · intro h
    exact h quietEnv _ w (run_queryParkingNumber quietEnv w fun _ _ => rfl)
  · intro h env number t hr
    rwa [queryParkingNumber_returned env w t number hr]

/-- The numbers are those of the tables exactly if there is no correction and,
with the setting for temporary vehicles, no space is left for them. A change of
the correction moves both counts by its amount only if it is no change. -/
theorem parking_numbers_iff (w : World) :
    (Answers w (Balanced w) ↔ rectify w = 0 ∧
      (w.config.judgeRemainParkingNumber = 2 → total w - w.vips.length - temporaryInside w ≤ 0)) ∧
    ∀ r, (Answers w fun before => Answers (rectified r w) (Moved r before)) ↔ r = 0 := by
  constructor
  · rw [answers_iff]
    exact balanced_iff w
  · intro r
    rw [answers_iff, answers_iff]
    exact moved_iff r w

def correctedLot (setting correction : ℤ) : World where
  config := { judgeRemainParkingNumber := setting }
  parkInfo := [⟨100, correction⟩]

/-- A correction of five adds ten spaces for temporary vehicles, and with the
setting for them an empty park shows none. -/
theorem correction_counted_twice :
    (parkingNumber (correctedLot 1 5)).realTemporaryParking = 110 ∧
    ¬ Answers (correctedLot 1 5) (Balanced (correctedLot 1 5)) ∧
    (parkingNumber (correctedLot 2 0)).remainParking = 0 ∧
    ¬ Answers (correctedLot 2 0) (Balanced (correctedLot 2 0)) ∧
    ¬ Answers (correctedLot 1 0) fun before => Answers (rectified 1 (correctedLot 1 0)) (Moved 1 before) := by
  refine ⟨by decide, ?_, by decide, ?_, ?_⟩
  · rw [answers_iff, balanced_iff]
    decide
  · rw [answers_iff, balanced_iff]
    decide
  · rw [answers_iff, answers_iff, moved_iff]
    decide

end BitPark.ParkingNumbers
