import BitPark.TurnBack

namespace BitPark.Threshold

open BitPark.Effect BitPark.Server BitPark.Members BitPark.Storage BitPark.TurnBack

/-! When the pictures of the earliest day are cleared for the configured capacity. -/

/-- The database carries out everything but the query for the earliest day. -/
def withoutDay (out : Outside) (type : PictureType) : Outside :=
  { out with env := { out.env with
      fails := fun st => if st = ⟨.select, type.table, "earliest"⟩ then some .sqlExecuteException else none } }

/-- The clean-up for the capacity is started: its query is asked. -/
def StartsDay (out : Outside) (type : PictureType) (s : Site) : Prop :=
  ¬ Returns (pictureStorageManage (withoutDay out type) type) s

def megabyte : ℤ := 1048576

def used (space : Space) : ℤ := (space.capacity : ℤ) - space.available

/-- The limit as the comparison sees it: the product is an `int`, and a negative
one is a large unsigned number. -/
def seenLimit (c : ℤ) : ℤ :=
  if c % 4096 < 2048 then c % 4096 * megabyte else 2 ^ 64 - (4096 - c % 4096) * megabyte

/-- The bytes in use do not lie between the configured limit and the one that
is seen. With more available than there is, the difference is seen as a large
number; it has to stay within the limit. -/
def Apart (c : ℤ) (space : Space) : Prop :=
  if space.available ≤ space.capacity then
    used space ≤ min (c * megabyte) (seenLimit c) ∨ max (c * megabyte) (seenLimit c) < used space
  else 2 ^ 64 + used space ≤ seenLimit c

theorem startsDay_iff (out : Outside) (type : PictureType) (s : Site) (space : Space)
    (h : out.disk.space (type.directory out.opts).path = some space) :
    StartsDay out type s ↔ overCapacity space s.storeCapacity = true := by
  have hother : ∀ st : Statement, st ≠ ⟨.select, type.table, "earliest"⟩ → (withoutDay out type).env.fails st = none :=
    fun st hst => if_neg hst
  have hupdates : ∀ slots, Updates (withoutDay out type) slots := fun slots slot _ _ => hother _ (by simp [Slot.update])
  rw [StartsDay, returns_pictureStorageManage]
  constructor
  · intro hnot
    by_contra hover
    apply hnot
    intro space' hspace
    obtain rfl : space = space' := Option.some.inj (h.symm.trans hspace)
    refine ⟨hother _ (by cases type <;> simp [PictureType.table]), fun ho => absurd ho hover, fun _ => ?_⟩
    exact ⟨⟨hother _ (by simp), hother _ (by simp), hupdates _⟩, hother _ (by simp), hother _ (by simp), hupdates _⟩
  · intro hover hkeeps
    have hday := ((hkeeps space h).2.1 hover).1
    rw [show (withoutDay out type).env.fails ⟨.select, type.table, "earliest"⟩ = some .sqlExecuteException from
      if_pos rfl] at hday
    cases hday

theorem seenLimit_eq (c : ℤ) : ((c * 1048576).bmod (2 ^ 32)) % 2 ^ 64 = seenLimit c := by
  rw [seenLimit, megabyte, Int.bmod_def]
  split_ifs <;> omega

theorem seenLimit_small (c : ℤ) (h0 : 0 < c) (h : c < 2048) : seenLimit c = c * megabyte := by
  rw [seenLimit, Int.emod_eq_of_lt (by omega) (by omega), if_pos h]

theorem overCapacity_iff (c : ℤ) (space : Space) (h0 : 0 < c) :
    overCapacity space c = true ↔ seenLimit c < used space % 2 ^ 64 := by
  rw [overCapacity, seenLimit_eq, decide_eq_true_iff, used]
  exact and_iff_right h0

/-- A number lies on the same side of two limits exactly when it is not between them. -/
theorem same_side_iff (l m n : ℤ) : (m < n ↔ l < n) ↔ n ≤ min l m ∨ max l m < n := by
  rw [le_min_iff, max_lt_iff]
  omega

theorem right_iff (c : ℤ) (space : Space) (h0 : 0 < c) (hcapacity : space.capacity < 2 ^ 64)
    (havailable : space.available < 2 ^ 64) :
    (overCapacity space c = true ↔ c * megabyte < used space) ↔ Apart c space := by
  rw [overCapacity_iff c space h0, Apart]
  by_cases h : space.available ≤ space.capacity
  · have hsmall : used space % 2 ^ 64 = used space := Int.emod_eq_of_lt (by rw [used]; omega) (by rw [used]; omega)
    rw [if_pos h, hsmall]
    exact same_side_iff _ _ _
  · have hlarge : used space % 2 ^ 64 = 2 ^ 64 + used space := by
      rw [used]
      omega
    have hless : ¬ c * megabyte < used space := by
      rw [used, megabyte]
      omega
    rw [if_neg h, hlarge, iff_false_right hless, not_lt]

theorem apart_small (c : ℤ) (space : Space) (h0 : 0 < c) (h : c < 2048) (hspace : space.available ≤ space.capacity) :
    Apart c space := by
  rw [Apart, if_pos hspace, seenLimit_small c h0 h, min_self, max_self]
  exact le_or_gt _ _

/-- From 2048 megabytes on, some number of bytes lies between the limits. -/
theorem exists_between (c : ℤ) (hc : c ≤ 2147483647) (h : 2048 ≤ c) :
    ∃ space : Space, space.available ≤ space.capacity ∧ space.capacity < 2 ^ 64 ∧ ¬ Apart c space := by
  obtain ⟨n, hn⟩ : ∃ n : ℕ, (n : ℤ) = c * megabyte :=
    ⟨(c * megabyte).toNat, Int.toNat_of_nonneg (by rw [megabyte]; omega)⟩
  rw [megabyte] at hn
  by_cases hr : c % 4096 < 2048
  · refine ⟨⟨n, 0⟩, Nat.zero_le _, by dsimp only; omega, ?_⟩
    rw [Apart, if_pos (Nat.zero_le _), seenLimit, if_pos hr, used, le_min_iff, max_lt_iff, megabyte]
    dsimp only
    omega
  · refine ⟨⟨n + 1, 0⟩, Nat.zero_le _, by dsimp only; omega, ?_⟩
    rw [Apart, if_pos (Nat.zero_le _), seenLimit, if_neg hr, used, le_min_iff, max_lt_iff, megabyte]
    dsimp only
    omega

/-- A disk with such counters. -/
def spaceOutside (space : Space) : Outside :=
  { quietOutside with disk := { quietOutside.disk with space := fun _ => some space } }

/-- The threshold is right for every disk exactly when the setting is below
2048; otherwise it is right for the disks whose bytes in use do not lie between
the configured limit and the one that is seen. -/
theorem capacity_threshold_iff (type : PictureType) (c : ℤ) (h0 : 0 < c) (hc : c ≤ 2147483647) :
    ((∀ out s space, s.storeCapacity = c → out.disk.space (type.directory out.opts).path = some space →
        space.available ≤ space.capacity → space.capacity < 2 ^ 64 →
        (StartsDay out type s ↔ c * megabyte < used space)) ↔ c < 2048) ∧
    ∀ out s space, s.storeCapacity = c → out.disk.space (type.directory out.opts).path = some space →
      space.capacity < 2 ^ 64 → space.available < 2 ^ 64 →
      ((StartsDay out type s ↔ c * megabyte < used space) ↔ Apart c space) := by
  have hstate : ∀ out s space, s.storeCapacity = c → out.disk.space (type.directory out.opts).path = some space →
      space.capacity < 2 ^ 64 → space.available < 2 ^ 64 →
      ((StartsDay out type s ↔ c * megabyte < used space) ↔ Apart c space) := by
    intro out s space hs hspace hcapacity havailable
    rw [startsDay_iff out type s space hspace, hs]
    exact right_iff c space h0 hcapacity havailable
  refine ⟨⟨fun h => ?_, fun hsmall out s space hs hspace hle hcapacity => ?_⟩, hstate⟩
  · by_contra hlarge
    obtain ⟨space, hle, hcapacity, hbetween⟩ := exists_between c hc (not_lt.mp hlarge)
    have hright := h (spaceOutside space) { storeCapacity := c } space rfl rfl hle hcapacity
    exact hbetween ((hstate _ _ space rfl rfl hcapacity (lt_of_le_of_lt hle hcapacity)).mp hright)
  · exact (hstate out s space hs hspace hcapacity (lt_of_le_of_lt hle hcapacity)).mpr
      (apart_small c space h0 hsmall hle)

theorem capacity_threshold_terabyte :
    (0 : ℤ) < 1048576 ∧ ((1048576 : ℤ) ≤ 2147483647) ∧
    ((∀ out s space, s.storeCapacity = 1048576 →
        out.disk.space (PictureType.passVehicle.directory out.opts).path = some space →
        space.available ≤ space.capacity → space.capacity < 2 ^ 64 →
        (StartsDay out .passVehicle s ↔ 1048576 * megabyte < used space)) ↔ (1048576 : ℤ) < 2048) :=
  ⟨by decide, by decide, (capacity_threshold_iff .passVehicle 1048576 (by decide) (by decide)).1⟩

/-- Two gigabytes are read as no limit at all, and four as a limit of zero. -/
theorem large_settings_misread :
    (∃ s : Site, s.storeCapacity = 2048 ∧ 2048 * megabyte < used ⟨2 ^ 40, 0⟩ ∧
      ¬ StartsDay (spaceOutside ⟨2 ^ 40, 0⟩) .passVehicle s) ∧
    (∃ s : Site, s.storeCapacity = 4096 ∧ ¬ 4096 * megabyte < used ⟨2 ^ 40, 2 ^ 40 - 1⟩ ∧
      StartsDay (spaceOutside ⟨2 ^ 40, 2 ^ 40 - 1⟩) .passVehicle s) := by
  refine ⟨⟨{ storeCapacity := 2048 }, rfl, by decide, ?_⟩, ⟨{ storeCapacity := 4096 }, rfl, by decide, ?_⟩⟩
  · rw [startsDay_iff _ _ _ ⟨2 ^ 40, 0⟩ rfl]
    decide
  · rw [startsDay_iff _ _ _ ⟨2 ^ 40, 2 ^ 40 - 1⟩ rfl]
    decide

end BitPark.Threshold
