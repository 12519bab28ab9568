import Mathlib

namespace BitPark.StableSort

/-! The sort of a linked list and the removal in a range, as the standard
library of the source documents them. -/

variable {α κ : Type}

/-- `std::list::sort`: equal elements keep their order. -/
def sortBy (less : α → α → Bool) (l : List α) : List α := l.mergeSort fun a b => !less b a

/-- `std::remove_if`: what stays moves to the front, and its end is returned. -/
def removeIf (pred : α → Bool) (l : List α) : List α × ℕ :=
  (l.filter (!pred ·) ++ l.drop (l.filter (!pred ·)).length, (l.filter (!pred ·)).length)

theorem take_removeIf (pred : α → Bool) (l : List α) :
    (removeIf pred l).1.take (removeIf pred l).2 = l.filter (!pred ·) := List.take_left

theorem sortBy_perm (less : α → α → Bool) (l : List α) : (sortBy less l).Perm l := List.mergeSort_perm l _

section Key

variable [LinearOrder κ] (key : α → κ) (less : α → α → Bool) (hless : ∀ a b, less a b = true ↔ key a < key b)
include hless

theorem not_less_iff (a b : α) : (!less b a) = true ↔ key a ≤ key b := by
  rw [Bool.not_eq_true', ← Bool.not_eq_true, hless, not_lt]

theorem not_less_trans (a b c : α) (h1 : (!less b a) = true) (h2 : (!less c b) = true) : (!less c a) = true := by
  rw [not_less_iff key less hless] at h1 h2 ⊢
  exact h1.trans h2

theorem not_less_total (a b : α) : ((!less b a) || (!less a b)) = true := by
  rw [Bool.or_eq_true, not_less_iff key less hless, not_less_iff key less hless]
  exact le_total _ _

theorem sortBy_pairwise (l : List α) : (sortBy less l).Pairwise fun a b => key a ≤ key b := by
  have hsorted := List.pairwise_mergeSort (not_less_trans key less hless) (not_less_total key less hless) l
  exact hsorted.imp fun {a b} h => (not_less_iff key less hless a b).mp h

/-- The elements of one key stay as they are. -/
theorem sortBy_filter (l : List α) (k : κ) :
    (sortBy less l).filter (fun a => key a = k) = l.filter fun a => key a = k := by
  have hequal : (l.filter fun a => key a = k).Pairwise fun a b => (!less b a) = true := by
    apply List.Pairwise.imp_of_mem (R := fun _ _ => True) _ (List.pairwise_of_forall fun _ _ => trivial)
    intro a b ha hb _
    rw [not_less_iff key less hless, of_decide_eq_true (List.mem_filter.mp ha).2,
      of_decide_eq_true (List.mem_filter.mp hb).2]
  have hsub := List.sublist_mergeSort (not_less_trans key less hless) (not_less_total key less hless) hequal
    List.filter_sublist
  have hfilter := hsub.filter fun a => decide (key a = k)
  rw [List.filter_filter, show (fun a => decide (key a = k) && decide (key a = k)) = fun a => decide (key a = k) by
    funext a; exact Bool.and_self _] at hfilter
  exact (hfilter.eq_of_length ((sortBy_perm less l).filter _).length_eq.symm).symm

/-- Sorting keeps an earlier order among the elements of one key. -/
theorem sortBy_lex (R : α → α → Prop) (l : List α) (hl : l.Pairwise R) :
    (sortBy less l).Pairwise fun a b => key a < key b ∨ key a = key b ∧ R a b := by
  rw [List.pairwise_iff_forall_sublist]
  intro a b hab
  have hle : key a ≤ key b := List.pairwise_iff_forall_sublist.mp (sortBy_pairwise key less hless l) hab
  obtain hlt | heq := lt_or_eq_of_le hle
  · exact .inl hlt
  · refine .inr ⟨heq, ?_⟩
    have hpair := hab.filter fun c => decide (key c = key b)
    have hboth : [a, b].filter (fun c => decide (key c = key b)) = [a, b] := by simp [heq]
    rw [sortBy_filter key less hless, hboth] at hpair
    exact List.pairwise_iff_forall_sublist.mp hl (hpair.trans List.filter_sublist)

end Key

end BitPark.StableSort
