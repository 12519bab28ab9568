import Mathlib

namespace BitPark.Search

/-! The first occurrence of a word in a text. -/

variable {α : Type} [DecidableEq α]

def find (d : List α) : List α → Option ℕ
  | [] => if d = [] then some 0 else none
  | c :: cs => if d <+: c :: cs then some 0 else (find d cs).map (· + 1)

theorem find_spec (d s : List α) (n : ℕ) (h : find d s = some n) :
    s = s.take n ++ (d ++ s.drop (n + d.length)) := by
  induction s generalizing n with
  | nil =>
    by_cases hd : d = []
    · simp [hd]
    · simp [find, hd] at h
  | cons c cs ih =>
    by_cases hp : d <+: c :: cs
    · simp only [find, hp, if_true, Option.some.injEq] at h
      subst h
      obtain ⟨rest, hrest⟩ := hp
      simp [← hrest]
    · simp only [find, hp, if_false, Option.map_eq_some_iff] at h
      obtain ⟨m, hm, rfl⟩ := h
      have hs := ih m hm
      rw [List.take_succ_cons, List.cons_append, Nat.add_right_comm, List.drop_succ_cons, ← hs]

theorem find_length (d s : List α) (n : ℕ) (h : find d s = some n) : n + d.length ≤ s.length := by
  induction s generalizing n with
  | nil =>
    by_cases hd : d = []
    · simp [find, hd] at h
      simp [hd, h]
    · simp [find, hd] at h
  | cons c cs ih =>
    by_cases hp : d <+: c :: cs
    · simp only [find, hp, if_true, Option.some.injEq] at h
      have hle := hp.length_le
      omega
    · simp only [find, hp, if_false, Option.map_eq_some_iff] at h
      obtain ⟨m, hm, rfl⟩ := h
      have hle := ih m hm
      rw [List.length_cons]
      omega

theorem find_of_prefixed (d s : List α) (h : d <+: s) : find d s = some 0 := by
  cases s with
  | nil => simp [find, List.prefix_nil.mp h]
  | cons c cs => simp [find, h]

/-- What follows an occurrence does not move the first one. -/
theorem find_append (d s v : List α) (n : ℕ) (h : find d s = some n) : find d (s ++ v) = some n := by
  induction s generalizing n with
  | nil =>
    by_cases hd : d = []
    · simp [find, hd] at h
      subst h
      exact find_of_prefixed d _ (by simp [hd])
    · simp [find, hd] at h
  | cons c cs ih =>
    by_cases hp : d <+: c :: cs
    · simp only [find, hp, if_true, Option.some.injEq] at h
      subst h
      exact find_of_prefixed d _ (hp.trans (List.prefix_append _ _))
    · simp only [find, hp, if_false, Option.map_eq_some_iff] at h
      obtain ⟨m, hm, rfl⟩ := h
      have hlen := find_length d cs m hm
      have hnot : ¬ d <+: c :: (cs ++ v) := by
        intro hpre
        refine hp (List.prefix_of_prefix_length_le hpre (List.prefix_append (c :: cs) v) ?_)
        rw [List.length_cons]
        omega
      simp [find, hnot, ih m hm]

/-- A part in which no occurrence begins is passed over. -/
theorem find_skip (d u s : List α) (h : ∀ x y, u = x ++ y → y ≠ [] → ¬ d <+: y ++ s) :
    find d (u ++ s) = (find d s).map (· + u.length) := by
  induction u with
  | nil => simp
  | cons c u ih =>
    have hnot : ¬ d <+: c :: (u ++ s) := h [] (c :: u) rfl (by simp)
    have hrest := ih fun x y hu hy => h (c :: x) y (by simp [hu]) hy
    simp only [List.cons_append, find, hnot, if_false, hrest, Option.map_map]
    congr 1

theorem find_le (d x y : List α) : ∃ n, find d (x ++ (d ++ y)) = some n ∧ n ≤ x.length := by
  induction x with
  | nil => exact ⟨0, find_of_prefixed d _ (List.prefix_append _ _), le_rfl⟩
  | cons c x ih =>
    obtain ⟨n, hn, hle⟩ := ih
    by_cases hp : d <+: c :: (x ++ (d ++ y))
    · exact ⟨0, by simp [find, hp], Nat.zero_le _⟩
    · exact ⟨n + 1, by simp [find, hp, hn], by simp [hle]⟩

theorem find_singleton_none (a : α) (s : List α) (h : a ∉ s) : find [a] s = none := by
  have hskip := find_skip [a] s [] fun x y hs hy hpre => by
    obtain ⟨c, y, rfl⟩ := List.exists_cons_of_ne_nil hy
    obtain ⟨rest, hrest⟩ := hpre
    obtain ⟨rfl, -⟩ := List.cons.inj hrest
    exact h (by simp [hs])
  rw [List.append_nil] at hskip
  rw [hskip]
  rfl

/-- An additive measure of a text. -/
def weight (f : α → ℕ) (s : List α) : ℕ := (s.map f).sum

omit [DecidableEq α] in
@[simp] theorem weight_append (f : α → ℕ) (s t : List α) : weight f (s ++ t) = weight f s + weight f t := by
  simp [weight]

end BitPark.Search
