import Mathlib

namespace BitPark.EditDistance

/-! The least number of edits between two lists whose elements are compared by
a key, and its recursion. -/

variable {α β : Type}

/-- One element is inserted, deleted or replaced. -/
inductive Edit : List α → List α → Prop where
  | insert (before after : List α) (a : α) : Edit (before ++ after) (before ++ a :: after)
  | delete (before after : List α) (a : α) : Edit (before ++ a :: after) (before ++ after)
  | substitute (before after : List α) (a b : α) : Edit (before ++ a :: after) (before ++ b :: after)

/-- A number of edits, one after the other. -/
inductive Edits : ℕ → List α → List α → Prop where
  | refl (s : List α) : Edits 0 s s
  | step (s t u : List α) (n : ℕ) (h : Edit s t) (hs : Edits n t u) : Edits (n + 1) s u

/-- So many edits lead from one list to the other up to the key, and fewer do not. -/
structure IsDistance (key : α → β) (s t : List α) (n : ℕ) : Prop where
  reached : ∃ u, Edits n s u ∧ u.map key = t.map key
  least : ∀ k u, Edits k s u → u.map key = t.map key → n ≤ k

theorem edits_trans {m n : ℕ} {s t u : List α} (h1 : Edits m s t) (h2 : Edits n t u) : Edits (m + n) s u := by
  induction h1 with
  | refl s =>
    rw [Nat.zero_add]
    exact h2
  | step s t v k h hs ih =>
    rw [Nat.succ_add_eq_add_succ]
    exact .step s t u (k + n) h (ih h2)

theorem edits_one {s t : List α} (h : Edit s t) : Edits 1 s t := .step s t t 0 h (.refl t)

theorem edit_cons {s t : List α} (c : α) (h : Edit s t) : Edit (c :: s) (c :: t) := by
  cases h with
  | insert before after a => exact .insert (c :: before) after a
  | delete before after a => exact .delete (c :: before) after a
  | substitute before after a b => exact .substitute (c :: before) after a b

theorem edits_cons {n : ℕ} {s t : List α} (c : α) (h : Edits n s t) : Edits n (c :: s) (c :: t) := by
  induction h with
  | refl s => exact .refl (c :: s)
  | step s t u n h hs ih => exact .step _ _ _ n (edit_cons c h) ih

theorem edit_reverse {s t : List α} (h : Edit s t) : Edit s.reverse t.reverse := by
  cases h with
  | insert before after a =>
    have he := Edit.insert after.reverse before.reverse a
    simpa using he
  | delete before after a =>
    have he := Edit.delete after.reverse before.reverse a
    simpa using he
  | substitute before after a b =>
    have he := Edit.substitute after.reverse before.reverse a b
    simpa using he

theorem edits_reverse {n : ℕ} {s t : List α} (h : Edits n s t) : Edits n s.reverse t.reverse := by
  induction h with
  | refl s => exact .refl _
  | step s t u n h hs ih => exact .step _ _ _ n (edit_reverse h) ih

theorem isDistance_reverse (key : α → β) (s t : List α) (n : ℕ) (h : IsDistance key s.reverse t.reverse n) :
    IsDistance key s t n := by
  obtain ⟨u, hu, hkey⟩ := h.reached
  refine ⟨⟨u.reverse, ?_, ?_⟩, fun k v hv hvkey => h.least k v.reverse (edits_reverse hv) ?_⟩
  · have hreached := edits_reverse hu
    rwa [List.reverse_reverse] at hreached
  · rw [List.map_reverse, hkey, ← List.map_reverse, List.reverse_reverse]
  · rw [List.map_reverse, hvkey, List.map_reverse]

theorem edit_map {s t : List α} (key : α → β) (h : Edit s t) : Edit (s.map key) (t.map key) := by
  cases h with
  | insert before after a =>
    rw [List.map_append, List.map_append, List.map_cons]
    exact .insert _ _ _
  | delete before after a =>
    rw [List.map_append, List.map_append, List.map_cons]
    exact .delete _ _ _
  | substitute before after a b =>
    rw [List.map_append, List.map_append, List.map_cons, List.map_cons]
    exact .substitute _ _ _ _

theorem edits_map {n : ℕ} {s t : List α} (key : α → β) (h : Edits n s t) : Edits n (s.map key) (t.map key) := by
  induction h with
  | refl s => exact .refl _
  | step s t u n h hs ih => exact .step _ _ _ _ (edit_map key h) ih

theorem edits_nil (t : List α) : Edits t.length [] t := by
  induction t with
  | nil => exact .refl []
  | cons a t ih => exact .step _ _ _ _ (.insert [] [] a) (edits_cons a ih)

theorem edits_to_nil (s : List α) : Edits s.length s [] := by
  induction s with
  | nil => exact .refl []
  | cons a s ih => exact .step _ _ _ _ (.delete [] s a) ih

section Recursion

variable [DecidableEq α]

/-- The recursion that drops equal elements at once. -/
def distance : List α → List α → ℕ
  | [], t => t.length
  | s, [] => s.length
  | a :: s, b :: t =>
    if a = b then distance s t
    else min (distance s (b :: t) + 1) (min (distance (a :: s) t + 1) (distance s t + 1))
termination_by s t => s.length + t.length

theorem distance_nil_left (t : List α) : distance [] t = t.length := by rw [distance]

theorem distance_nil_right (s : List α) : distance s [] = s.length := by
  cases s with
  | nil => rw [distance]
  | cons a s => rw [distance]; simp

theorem distance_self (s : List α) : distance s s = 0 := by
  induction s with
  | nil => exact distance_nil_left []
  | cons a s ih => rw [distance, if_pos rfl, ih]

theorem distance_comm (s t : List α) : distance s t = distance t s := by
  induction s, t using distance.induct with
  | case1 t => rw [distance_nil_left, distance_nil_right]
  | case2 s hs => rw [distance_nil_left, distance_nil_right]
  | case3 s a t ih => rw [distance, distance, if_pos rfl, if_pos rfl, ih]
  | case4 a s b t hab ih1 ih2 ih3 =>
    rw [distance, distance, if_neg hab, if_neg (Ne.symm hab), ih1, ih2, ih3, min_left_comm]

/-- Neighbours differ by at most one. -/
theorem distance_neighbours (s t : List α) (a : α) :
    distance (a :: s) t ≤ distance s t + 1 ∧ distance s t ≤ distance (a :: s) t + 1 := by
  match t with
  | [] =>
    rw [distance_nil_right, distance_nil_right, List.length_cons]
    omega
  | b :: t =>
    have hnext := distance_neighbours t s b
    rw [distance_comm (b :: t) s, distance_comm t s] at hnext
    rw [distance]
    by_cases hab : a = b
    · rw [if_pos hab]
      exact ⟨hnext.2, hnext.1⟩
    · have hrest := (distance_neighbours s t a).2
      rw [if_neg hab]
      omega
termination_by s.length + t.length

/-- Taking only the diagonal for equal elements misses nothing. -/
theorem distance_cons (a b : α) (s t : List α) : distance (a :: s) (b :: t) =
    min (distance s (b :: t) + 1) (min (distance (a :: s) t + 1) (distance s t + if a = b then 0 else 1)) := by
  rw [distance]
  by_cases hab : a = b
  · have hleft := (distance_neighbours s t a).2
    have hright := (distance_neighbours t s b).2
    rw [distance_comm t s, distance_comm (b :: t) s] at hright
    rw [if_pos hab, if_pos hab]
    omega
  · rw [if_neg hab, if_neg hab]

/-- If no distance from one list is much greater than from the other, this
stays so with an element in front. -/
theorem distance_cons_le (c : α) (s t : List α) (h : ∀ u, distance s u ≤ distance t u + 1) (u : List α) :
    distance (c :: s) u ≤ distance (c :: t) u + 1 := by
  induction u with
  | nil =>
    have hnil := h []
    rw [distance_nil_right, distance_nil_right] at hnil ⊢
    simpa using hnil
  | cons d u ih =>
    have hsame := h u
    have hnext := h (d :: u)
    rw [distance_cons, distance_cons]
    omega

theorem distance_substitute (a b : α) (s u : List α) : distance (a :: s) u ≤ distance (b :: s) u + 1 := by
  induction u with
  | nil => rw [distance_nil_right, distance_nil_right, List.length_cons, List.length_cons]; omega
  | cons d u ih =>
    rw [distance_cons, distance_cons]
    split_ifs <;> omega

theorem distance_edit {s t : List α} (h : Edit s t) (u : List α) : distance s u ≤ distance t u + 1 := by
  have happend : ∀ before s t : List α, (∀ u, distance s u ≤ distance t u + 1) → ∀ u,
      distance (before ++ s) u ≤ distance (before ++ t) u + 1 := by
    intro before s t hst
    induction before with
    | nil => exact hst
    | cons c before ih => exact distance_cons_le c _ _ ih
  cases h with
  | insert before after a => exact happend before _ _ (fun u => (distance_neighbours after u a).2) u
  | delete before after a => exact happend before _ _ (fun u => (distance_neighbours after u a).1) u
  | substitute before after a b => exact happend before _ _ (distance_substitute a b after) u

theorem distance_le_edits {n : ℕ} {s t : List α} (h : Edits n s t) : distance s t ≤ n := by
  induction h with
  | refl s => exact (distance_self s).le
  | step s t u n h hs ih => exact (distance_edit h u).trans (Nat.succ_le_succ ih)

/-- Some way has as many edits as the recursion counts. -/
theorem edits_distance {β : Type} (key : β → α) (s t : List β) :
    ∃ u, Edits (distance (s.map key) (t.map key)) s u ∧ u.map key = t.map key := by
  match s, t with
  | [], t =>
    refine ⟨t, ?_, rfl⟩
    rw [List.map_nil, distance_nil_left, List.length_map]
    exact edits_nil t
  | a :: s, [] =>
    refine ⟨[], ?_, rfl⟩
    rw [List.map_nil, distance_nil_right, List.length_map]
    exact edits_to_nil (a :: s)
  | a :: s, b :: t =>
    rw [List.map_cons, List.map_cons, distance]
    by_cases hab : key a = key b
    · obtain ⟨u, hu, hkey⟩ := edits_distance key s t
      rw [if_pos hab]
      exact ⟨a :: u, edits_cons a hu, by rw [List.map_cons, hkey, hab]⟩
    · rw [if_neg hab, ← List.map_cons, ← List.map_cons]
      obtain hmin | hmin := min_choice (distance (s.map key) ((b :: t).map key) + 1)
        (min (distance ((a :: s).map key) (t.map key) + 1) (distance (s.map key) (t.map key) + 1))
      · obtain ⟨u, hu, hkey⟩ := edits_distance key s (b :: t)
        rw [hmin]
        exact ⟨u, .step _ _ _ _ (.delete [] s a) hu, hkey⟩
      · rw [hmin]
        obtain hmin | hmin := min_choice (distance ((a :: s).map key) (t.map key) + 1)
          (distance (s.map key) (t.map key) + 1)
        · obtain ⟨u, hu, hkey⟩ := edits_distance key (a :: s) t
          rw [hmin]
          exact ⟨b :: u, edits_trans hu (edits_one (.insert [] u b)), by rw [List.map_cons, hkey, List.map_cons]⟩
        · obtain ⟨u, hu, hkey⟩ := edits_distance key s t
          rw [hmin]
          exact ⟨b :: u, .step _ _ _ _ (.substitute [] s a b) (edits_cons b hu), by
            rw [List.map_cons, hkey, List.map_cons]⟩
termination_by s.length + t.length

theorem isDistance_distance {β : Type} (key : β → α) (s t : List β) :
    IsDistance key s t (distance (s.map key) (t.map key)) := by
  refine ⟨edits_distance key s t, fun k u hu hkey => ?_⟩
  rw [← hkey]
  exact distance_le_edits (edits_map key hu)

end Recursion

end BitPark.EditDistance
