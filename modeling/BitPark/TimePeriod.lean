import Mathlib

namespace BitPark.TimePeriod

/-- A half-open interval of ticks. As in the library it comes from, a period
whose end does not lie after its begin is allowed, and its length is then not positive. -/
structure Period where
  begin : ℤ
  stop : ℤ
deriving DecidableEq, Repr

namespace Period

def contains (p : Period) (t : ℤ) : Bool := p.begin ≤ t ∧ t < p.stop

def intersects (p q : Period) : Bool :=
  p.contains q.begin || q.contains p.begin || (q.begin < p.begin && p.begin < q.stop)

def intersection (p q : Period) : Period :=
  if q.begin < p.begin then
    if p.stop ≤ q.stop then p else ⟨p.begin, q.stop⟩
  else if p.stop ≤ q.stop then ⟨q.begin, p.stop⟩ else q

def length (p : Period) : ℤ := p.stop - p.begin

/-- The time two periods share, as a caller computes it that only asks for
the intersection when there is one. -/
def overlap (p q : Period) : ℤ := if p.intersects q then (p.intersection q).length else 0

def shift (k : ℤ) (p : Period) : Period := ⟨p.begin + k, p.stop + k⟩

noncomputable def ticks (p : Period) : Finset ℤ := Finset.Ico p.begin p.stop

/-- What a period adds to an overlap at one tick. A reversed period puts its
whole negative length on its begin. -/
def weight (p : Period) (t : ℤ) : ℤ :=
  if p.begin ≤ p.stop then (if p.begin ≤ t ∧ t < p.stop then 1 else 0)
  else if t = p.begin then p.length else 0

/-- No tick lies in both periods. -/
def Apart (p q : Period) : Prop :=
  p.stop ≤ q.begin ∨ q.stop ≤ p.begin ∨ p.stop ≤ p.begin ∨ q.stop ≤ q.begin

instance (p q : Period) : Decidable (p.Apart q) := inferInstanceAs (Decidable (_ ∨ _ ∨ _ ∨ _))

end Period

open Period

theorem mem_ticks (p : Period) (t : ℤ) : t ∈ p.ticks ↔ p.begin ≤ t ∧ t < p.stop := Finset.mem_Ico

theorem intersects_iff (p q : Period) :
    p.intersects q = true ↔
      (p.begin ≤ q.begin ∧ q.begin < p.stop) ∨ (q.begin ≤ p.begin ∧ p.begin < q.stop) := by
  simp only [intersects, contains, Bool.or_eq_true, decide_eq_true_eq, Bool.and_eq_true]
  omega

theorem ticks_intersection (p q : Period) :
    (p.intersection q).ticks = p.ticks.filter (· ∈ q.ticks) := by
  ext t
  rw [Finset.mem_filter, mem_ticks, mem_ticks, mem_ticks]
  rw [intersection]
  split_ifs <;> grind

theorem intersection_wf (p q : Period) (hp : p.begin ≤ p.stop) (hq : q.begin ≤ q.stop)
    (h : p.intersects q = true) : (p.intersection q).begin ≤ (p.intersection q).stop := by
  rw [intersects_iff] at h
  rw [intersection]
  split_ifs <;> grind

theorem not_intersects (p q : Period) (h : ¬ p.intersects q = true) :
    p.ticks.filter (· ∈ q.ticks) = ∅ := by
  rw [intersects_iff] at h
  rw [Finset.filter_eq_empty_iff]
  intro t ht
  rw [mem_ticks] at ht ⊢
  omega

theorem apart_shift (p q : Period) (k : ℤ) : (p.shift k).Apart (q.shift k) ↔ p.Apart q := by
  unfold Apart shift
  dsimp only
  omega

theorem length_shift (p : Period) (k : ℤ) : (p.shift k).length = p.length := by
  simp only [length, shift]
  ring

theorem intersects_shift (p q : Period) (k : ℤ) : (p.shift k).intersects (q.shift k) = p.intersects q := by
  rw [Bool.eq_iff_iff, intersects_iff, intersects_iff]
  simp only [shift, add_le_add_iff_right, add_lt_add_iff_right]

theorem intersection_shift (p q : Period) (k : ℤ) :
    (p.shift k).intersection (q.shift k) = (p.intersection q).shift k := by
  simp only [intersection, shift]
  simp only [add_le_add_iff_right, add_lt_add_iff_right]
  split_ifs <;> rfl

theorem sum_one_ticks (p : Period) (hp : p.begin ≤ p.stop) : ∑ _t ∈ p.ticks, (1 : ℤ) = p.length := by
  rw [Finset.sum_const, ticks, Int.card_Ico, length, nsmul_eq_mul, mul_one]
  omega

theorem weight_wf (q : Period) (hq : q.begin ≤ q.stop) (t : ℤ) :
    q.weight t = if t ∈ q.ticks then 1 else 0 := by
  rw [weight, if_pos hq]
  simp only [mem_ticks]

theorem sum_weight_wf (p q : Period) (hq : q.begin ≤ q.stop) :
    ∑ t ∈ p.ticks, q.weight t = ∑ _t ∈ p.ticks.filter (· ∈ q.ticks), (1 : ℤ) := by
  rw [Finset.sum_filter]
  exact Finset.sum_congr rfl fun t _ => weight_wf q hq t

/-- Shared time, tick by tick. This is what makes overlaps with a list of
periods additive, whether they overlap each other or are reversed. -/
theorem overlap_eq_sum (p q : Period) (hp : p.begin ≤ p.stop) :
    p.overlap q = ∑ t ∈ p.ticks, q.weight t := by
  simp only [overlap]
  by_cases hq : q.begin ≤ q.stop
  · rw [sum_weight_wf p q hq]
    split_ifs with h
    · rw [← ticks_intersection p q, sum_one_ticks _ (intersection_wf p q hp hq h)]
    · rw [not_intersects p q h, Finset.sum_empty]
  · have hw : ∀ t, q.weight t = if t = q.begin then q.length else 0 := fun t => by
      rw [weight, if_neg hq]
    simp only [hw, Finset.sum_ite_eq', mem_ticks]
    have hi := intersects_iff p q
    split_ifs with h1 h2 h2
    · simp only [intersection, length]
      split_ifs <;> omega
    · rw [hi] at h1; omega
    · exact absurd (hi.mpr (Or.inl h2)) h1
    · rfl

theorem sum_overlap (p : Period) (hp : p.begin ≤ p.stop) (qs : List Period) :
    (qs.map p.overlap).sum = ∑ t ∈ p.ticks, (qs.map (·.weight t)).sum := by
  induction qs with
  | nil => simp
  | cons q qs ih =>
    simp only [List.map_cons, List.sum_cons, Finset.sum_add_distrib, ih, overlap_eq_sum p q hp]

theorem weight_nonneg (q : Period) (hq : q.begin ≤ q.stop) (t : ℤ) : 0 ≤ q.weight t := by
  rw [weight_wf q hq]
  split_ifs <;> grind

/-- At most one of several well-formed, pairwise disjoint periods is in force
at a tick. -/
theorem sum_weight_le_one (qs : List Period) (hq : ∀ q ∈ qs, q.begin ≤ q.stop)
    (hd : qs.Pairwise Apart) (t : ℤ) : 0 ≤ (qs.map (·.weight t)).sum ∧ (qs.map (·.weight t)).sum ≤ 1 := by
  induction qs with
  | nil => simp
  | cons q qs ih =>
    obtain ⟨hhd, htl⟩ := List.pairwise_cons.mp hd
    obtain ⟨h0, h1⟩ := ih (fun r hr => hq r (List.mem_cons_of_mem q hr)) htl
    have hqw := hq q List.mem_cons_self
    rw [List.map_cons, List.sum_cons, weight_wf q hqw]
    by_cases ht : t ∈ q.ticks
    · have hz : (qs.map (·.weight t)).sum = 0 := by
        apply List.sum_eq_zero
        intro x hx
        obtain ⟨r, hr, rfl⟩ := List.mem_map.mp hx
        have ha := hhd r hr
        rw [weight_wf r (hq r (List.mem_cons_of_mem q hr)), if_neg]
        rw [mem_ticks] at ht ⊢
        unfold Apart at ha
        omega
      rw [if_pos ht, hz]
      omega
    · rw [if_neg ht]
      omega

/-- Two periods of a list that share ticks are both in force there. -/
theorem two_le_sum_weight (qs : List Period) (hq : ∀ q ∈ qs, q.begin ≤ q.stop)
    (hd : ¬ qs.Pairwise Apart) :
    ∃ q ∈ qs, ∃ r ∈ qs, ¬ q.Apart r ∧
      ∀ t, t ∈ q.ticks → t ∈ r.ticks → 2 ≤ (qs.map (·.weight t)).sum := by
  induction qs with
  | nil => exact absurd List.Pairwise.nil hd
  | cons q qs ih =>
    have hqs : ∀ r ∈ qs, r.begin ≤ r.stop := fun r hr => hq r (List.mem_cons_of_mem q hr)
    by_cases htl : qs.Pairwise Apart
    · have hhd : ∃ r ∈ qs, ¬ q.Apart r := by
        by_contra h
        push Not at h
        exact hd (List.pairwise_cons.mpr ⟨h, htl⟩)
      obtain ⟨r, hr, ha⟩ := hhd
      refine ⟨q, List.mem_cons_self, r, List.mem_cons_of_mem q hr, ha, fun t htq htr => ?_⟩
      have h1 : r.weight t ≤ (qs.map (·.weight t)).sum := by
        apply List.single_le_sum
        · intro x hx
          obtain ⟨s, hs, rfl⟩ := List.mem_map.mp hx
          exact weight_nonneg s (hqs s hs) t
        · exact List.mem_map_of_mem hr
      rw [weight_wf r (hqs r hr), if_pos htr] at h1
      rw [List.map_cons, List.sum_cons, weight_wf q (hq q List.mem_cons_self), if_pos htq]
      omega
    · obtain ⟨p, hp, r, hr, ha, h2⟩ := ih hqs htl
      refine ⟨p, List.mem_cons_of_mem q hp, r, List.mem_cons_of_mem q hr, ha, fun t htp htr => ?_⟩
      have h0 := weight_nonneg q (hq q List.mem_cons_self) t
      have h2' := h2 t htp htr
      rw [List.map_cons, List.sum_cons]
      omega

/-- Contiguous periods that lead from one tick to another. -/
def Tiles : List Period → ℤ → ℤ → Prop
  | [], b, e => b = e
  | p :: ps, b, e => p.begin = b ∧ p.begin ≤ p.stop ∧ Tiles ps p.stop e

theorem tiles_le (ps : List Period) (b e : ℤ) (h : Tiles ps b e) : b ≤ e := by
  induction ps generalizing b with
  | nil => exact le_of_eq h
  | cons p ps ih =>
    obtain ⟨rfl, hw, ht⟩ := h
    exact hw.trans (ih p.stop ht)

theorem tiles_wf (ps : List Period) (b e : ℤ) (h : Tiles ps b e) : ∀ p ∈ ps, p.begin ≤ p.stop := by
  induction ps generalizing b with
  | nil => simp
  | cons p ps ih => exact List.forall_mem_cons.mpr ⟨h.2.1, ih p.stop h.2.2⟩

theorem tiles_contiguous (ps : List Period) (b e : ℤ) (h : Tiles ps b e) :
    ps.IsChain (fun p q => p.stop = q.begin) := by
  induction ps generalizing b with
  | nil => exact List.IsChain.nil
  | cons p ps ih =>
    cases ps with
    | nil => exact List.IsChain.singleton p
    | cons q ps => exact List.IsChain.cons_cons h.2.2.1.symm (ih p.stop h.2.2)

theorem tiles_union (ps : List Period) (b e : ℤ) (h : Tiles ps b e) (t : ℤ) :
    (∃ p ∈ ps, p.begin ≤ t ∧ t < p.stop) ↔ b ≤ t ∧ t < e := by
  induction ps generalizing b with
  | nil =>
    obtain rfl : b = e := h
    constructor
    · rintro ⟨p, hp, -⟩
      simp at hp
    · omega
  | cons p ps ih =>
    obtain ⟨rfl, hw, ht⟩ := h
    have hle := tiles_le ps p.stop e ht
    rw [List.exists_mem_cons_iff, ih p.stop ht]
    omega

theorem tiles_le_begin (ps : List Period) (b e : ℤ) (h : Tiles ps b e) : ∀ p ∈ ps, b ≤ p.begin := by
  induction ps generalizing b with
  | nil => simp
  | cons p ps ih =>
    obtain ⟨rfl, hw, ht⟩ := h
    exact List.forall_mem_cons.mpr ⟨le_rfl, fun q hq => hw.trans (ih p.stop ht q hq)⟩

/-- Periods one after the other, without a gap and none of them empty, that
are together the time between two ticks. -/
structure Partitions (ps : List Period) (b e : ℤ) : Prop where
  nonempty : ∀ p ∈ ps, p.begin < p.stop
  contiguous : ps.IsChain (fun p q => p.stop = q.begin)
  union : ∀ t, (∃ p ∈ ps, p.begin ≤ t ∧ t < p.stop) ↔ b ≤ t ∧ t < e

theorem tiles_partitions (ps : List Period) (b e : ℤ) (h : Tiles ps b e) (hp : ∀ p ∈ ps, p.begin < p.stop) :
    Partitions ps b e where
  nonempty := hp
  contiguous := tiles_contiguous ps b e h
  union := tiles_union ps b e h

end BitPark.TimePeriod
