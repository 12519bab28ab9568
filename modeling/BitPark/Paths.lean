import Mathlib

namespace BitPark.Paths

/-! Lexical normalisation of a path, one component after the other. -/

inductive Component (ν : Type) where
  | stay
  | up
  | name (n : ν)
deriving DecidableEq, Repr

/-- Where a normalised path points: so many levels up, then down along the
names. Nothing is above the root. -/
@[ext]
structure Place (ν : Type) where
  absolute : Bool
  ups : ℕ
  names : List ν
  rooted : absolute = true → ups = 0

namespace Place

variable {ν : Type}

def here : Place ν := ⟨false, 0, [], fun _ => rfl⟩

def root : Place ν := ⟨true, 0, [], fun _ => rfl⟩

def leave (p : Place ν) : Place ν :=
  match p.names with
  | [] => ⟨p.absolute, if p.absolute then 0 else p.ups + 1, [], fun h => by simp [h]⟩
  | _ :: _ => { p with names := p.names.dropLast }

def enter (p : Place ν) : Component ν → Place ν
  | .stay => p
  | .up => p.leave
  | .name n => { p with names := p.names ++ [n] }

def walk (p : Place ν) (cs : List (Component ν)) : Place ν := cs.foldl enter p

/-- The place that a relative place stands for when one starts at `p`. -/
def follow (p rel : Place ν) : Place ν where
  absolute := p.absolute
  ups := if p.absolute then 0 else p.ups + (rel.ups - p.names.length)
  names := p.names.take (p.names.length - rel.ups) ++ rel.names
  rooted h := by simp [h]

def Below (base p : Place ν) : Prop :=
  p.absolute = base.absolute ∧ p.ups = base.ups ∧ ∃ r ≠ [], p.names = base.names ++ r

/-- A relative place that stays below wherever one starts. -/
def Inner (rel : Place ν) : Prop := rel.ups = 0 ∧ rel.names ≠ []

theorem walk_append (p : Place ν) (cs ds : List (Component ν)) : p.walk (cs ++ ds) = (p.walk cs).walk ds :=
  List.foldl_append

theorem leave_nil (p : Place ν) (h : p.names = []) :
    p.leave = ⟨p.absolute, if p.absolute then 0 else p.ups + 1, [], fun h => by simp [h]⟩ := by
  obtain ⟨a, u, names, hr⟩ := p
  subst h
  rfl

theorem leave_ne_nil (p : Place ν) (h : p.names ≠ []) : p.leave = { p with names := p.names.dropLast } := by
  obtain ⟨a, u, names, hr⟩ := p
  cases names with
  | nil => exact absurd rfl h
  | cons n ns => rfl

theorem enter_absolute (p : Place ν) (c : Component ν) : (p.enter c).absolute = p.absolute := by
  cases c with
  | stay => rfl
  | name n => rfl
  | up =>
    by_cases h : p.names = []
    · simp [enter, leave_nil p h]
    · simp [enter, leave_ne_nil p h]

theorem walk_absolute (p : Place ν) (cs : List (Component ν)) : (p.walk cs).absolute = p.absolute := by
  induction cs generalizing p with
  | nil => rfl
  | cons c cs ih => exact (ih (p.enter c)).trans (enter_absolute p c)

theorem follow_leave (p rel : Place ν) (h : rel.absolute = false) : (p.follow rel).leave = p.follow rel.leave := by
  by_cases hn : rel.names = []
  · rw [leave_nil rel hn]
    by_cases hu : rel.ups < p.names.length
    · have hnames : (p.follow rel).names = p.names.take (p.names.length - rel.ups) := by simp [follow, hn]
      have hf : (p.follow rel).names ≠ [] := by
        intro hnil
        have hlen := congrArg List.length (hnames.symm.trans hnil)
        rw [List.length_take, List.length_nil] at hlen
        omega
      have hk : rel.ups - p.names.length = 0 := by omega
      have hk' : rel.ups + 1 - p.names.length = 0 := by omega
      have htake : (p.names.take (p.names.length - rel.ups)).dropLast =
          p.names.take (p.names.length - (rel.ups + 1)) := by
        rw [List.dropLast_eq_take, List.length_take, List.take_take]
        congr 1
        omega
      rw [leave_ne_nil _ hf, hnames, htake]
      ext1
      · rfl
      · simp [follow, h, hk, hk']
      · simp [follow, h]
    · have hk : p.names.length - rel.ups = 0 := by omega
      have hk' : p.names.length - (rel.ups + 1) = 0 := by omega
      have hj : rel.ups + 1 - p.names.length = rel.ups - p.names.length + 1 := by omega
      have hf : (p.follow rel).names = [] := by simp [follow, hn, hk]
      rw [leave_nil _ hf]
      ext1
      · rfl
      · by_cases ha : p.absolute = true
        · simp [follow, ha]
        · simp [follow, ha, h, hj, Nat.add_assoc]
      · simp [follow, h, hk']
  · have hf : (p.follow rel).names ≠ [] := by simp [follow, hn]
    rw [leave_ne_nil _ hf, leave_ne_nil _ hn]
    ext1
    · rfl
    · rfl
    · simp [follow, List.dropLast_append_of_ne_nil hn]

theorem follow_enter (p rel : Place ν) (c : Component ν) (h : rel.absolute = false) :
    (p.follow rel).enter c = p.follow (rel.enter c) := by
  cases c with
  | stay => rfl
  | up => exact follow_leave p rel h
  | name n =>
    ext
    · rfl
    · rfl
    · simp [follow, enter]

theorem follow_here (p : Place ν) : p.follow here = p := by
  ext
  · rfl
  · by_cases ha : p.absolute = true
    · simp [follow, ha, p.rooted ha]
    · simp [follow, here, ha]
  · simp [follow, here]

/-- A walk from any place is the walk from `here`, seen from that place. -/
theorem walk_follow (p : Place ν) (cs : List (Component ν)) : p.walk cs = p.follow (here.walk cs) := by
  induction cs using List.reverseRecOn with
  | nil => exact (follow_here p).symm
  | append_singleton cs c ih =>
    rw [walk_append, walk_append, ih]
    exact follow_enter p _ c (walk_absolute here cs)

theorem below_follow (p rel : Place ν) (h : rel.Inner) : p.Below (p.follow rel) := by
  obtain ⟨hu, hn⟩ := h
  refine ⟨rfl, ?_, rel.names, hn, ?_⟩
  · by_cases ha : p.absolute = true
    · simp [follow, ha, p.rooted ha]
    · simp [follow, hu, ha]
  · simp [follow, hu]

/-- From a directory whose name the walk does not come back to, a walk that is
not inner leaves it. -/
theorem not_below_follow (n : ν) (rel : Place ν) (h : ¬ rel.Inner) (hn : rel.names.head? ≠ some n) :
    ¬ (here.enter (.name n)).Below ((here.enter (.name n)).follow rel) := by
  rintro ⟨-, -, r, hr, hnames⟩
  by_cases hu : rel.ups = 0
  · have hrel : rel.names = r := by simpa [follow, enter, here, hu] using hnames
    exact h ⟨hu, hrel ▸ hr⟩
  · have hk : 1 - rel.ups = 0 := by omega
    have hrel : rel.names = n :: r := by simpa [follow, enter, here, hk] using hnames
    exact hn (by simp [hrel])

end Place

end BitPark.Paths
