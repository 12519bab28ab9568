import Mathlib

namespace BitPark.MaxElement

/-! `std::max_element` by a key: the first of the elements with the greatest key. -/

variable {α κ : Type} [LinearOrder κ] (key : α → κ)

def maxElement : List α → Option α
  | [] => none
  | x :: xs => some (xs.foldl (fun best y => if key best < key y then y else best) x)

/-- The loop ends at an element that it has seen and that no other one exceeds. -/
theorem foldl_best (x : α) (xs : List α) :
    let best := xs.foldl (fun best y => if key best < key y then y else best) x
    best ∈ x :: xs ∧ ∀ y ∈ x :: xs, key y ≤ key best := by
  induction xs generalizing x with
  | nil => simp
  | cons y ys ih =>
    rw [List.foldl_cons]
    by_cases h : key x < key y
    · rw [if_pos h]
      obtain ⟨hmem, hmax⟩ := ih y
      refine ⟨List.mem_cons_of_mem x hmem, ?_⟩
      intro z hz
      rcases List.mem_cons.mp hz with rfl | hz
      · exact h.le.trans (hmax y List.mem_cons_self)
      · exact hmax z hz
    · rw [if_neg h]
      obtain ⟨hmem, hmax⟩ := ih x
      constructor
      · rcases List.mem_cons.mp hmem with heq | hmem
        · rw [heq]
          exact List.mem_cons_self
        · exact List.mem_cons_of_mem x (List.mem_cons_of_mem y hmem)
      · intro z hz
        rcases List.mem_cons.mp hz with rfl | hz
        · exact hmax z List.mem_cons_self
        · rcases List.mem_cons.mp hz with rfl | hz
          · exact (not_lt.mp h).trans (hmax x List.mem_cons_self)
          · exact hmax z (List.mem_cons_of_mem x hz)

theorem maxElement_mem (xs : List α) (x : α) (h : maxElement key xs = some x) : x ∈ xs := by
  cases xs with
  | nil => cases h
  | cons y ys =>
    obtain rfl := Option.some.inj h
    exact (foldl_best key y ys).1

theorem le_maxElement (xs : List α) (x : α) (h : maxElement key xs = some x) (y : α) (hy : y ∈ xs) : key y ≤ key x := by
  cases xs with
  | nil => cases h
  | cons z zs =>
    obtain rfl := Option.some.inj h
    exact (foldl_best key z zs).2 y hy

theorem maxElement_isSome (xs : List α) (h : xs ≠ []) : ∃ x, maxElement key xs = some x := by
  cases xs with
  | nil => exact absurd rfl h
  | cons x xs => exact ⟨_, rfl⟩

/-- An element that exceeds all others is the one found. -/
theorem maxElement_eq (xs : List α) (x : α) (hx : x ∈ xs) (h : ∀ y ∈ xs, y ≠ x → key y < key x) :
    maxElement key xs = some x := by
  obtain ⟨z, hz⟩ := maxElement_isSome key xs (List.ne_nil_of_mem hx)
  rw [hz]
  by_contra hne
  have hzx : z ≠ x := fun heq => hne (by rw [heq])
  exact absurd (le_maxElement key xs z hz x hx) (not_le.mpr (h z (maxElement_mem key xs z hz) hzx))

end BitPark.MaxElement
