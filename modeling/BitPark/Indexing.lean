import BitPark.Fallible
import Mathlib.Data.Int.Init

namespace BitPark.Indexing

open BitPark.Fallible

/-! Reads from arrays that nothing but the program checks. A read outside the
array ends the meaning of the program; it is not an error that the program
could answer. -/

inductive Stop (ε : Type) where
  | failed (what : ε)
  | outOfRange
deriving DecidableEq, Repr

variable {ε α β : Type}

def indexed (xs : List α) (i : ℤ) : Except (Stop ε) α :=
  if 0 ≤ i then
    match xs[i.toNat]? with
    | some x => .ok x
    | none => .error .outOfRange
  else .error .outOfRange

/-- The errors of a part that reads from no array. -/
def fromResult : Except ε α → Except (Stop ε) α
  | .ok a => .ok a
  | .error what => .error (.failed what)

/-- Every read that is made is inside its array. -/
def Inside (p : Except (Stop ε) α) : Prop := p ≠ .error .outOfRange

theorem inside_ok (a : α) : Inside (.ok a : Except (Stop ε) α) := by
  intro h
  cases h

theorem inside_failed (what : ε) : Inside (.error (.failed what) : Except (Stop ε) α) := by
  intro h
  cases h

theorem not_inside_outOfRange : ¬ Inside (.error .outOfRange : Except (Stop ε) α) := fun h => h rfl

theorem inside_fromResult (x : Except ε α) : Inside (fromResult x) := by
  cases x with
  | ok a => exact inside_ok a
  | error what => exact inside_failed what

theorem fromResult_eq_ok (x : Except ε α) (a : α) : fromResult x = .ok a ↔ x = .ok a := by
  cases x with
  | ok b => simp [fromResult]
  | error what => simp [fromResult]

theorem indexed_of_lt (xs : List α) (i : ℕ) (h : i < xs.length) : (indexed xs i : Except (Stop ε) α) = .ok xs[i] := by
  simp [indexed, h]

theorem inside_indexed (xs : List α) (i : ℤ) :
    Inside (indexed xs i : Except (Stop ε) α) ↔ 0 ≤ i ∧ i < xs.length := by
  by_cases h0 : 0 ≤ i
  · by_cases hlt : i < xs.length
    · obtain ⟨n, rfl⟩ := Int.eq_ofNat_of_zero_le h0
      have hn : n < xs.length := by exact_mod_cast hlt
      rw [indexed_of_lt xs n hn]
      exact iff_of_true (inside_ok _) ⟨h0, hlt⟩
    · have hnone : xs[i.toNat]? = none := List.getElem?_eq_none (by omega)
      rw [indexed, if_pos h0, hnone]
      exact iff_of_false not_inside_outOfRange fun h => hlt h.2
  · rw [indexed, if_neg h0]
    exact iff_of_false not_inside_outOfRange fun h => h0 h.1

theorem indexed_ne_failed (xs : List α) (i : ℤ) (what : ε) : indexed xs i ≠ .error (.failed what) := by
  by_cases h : 0 ≤ i ∧ i < xs.length
  · obtain ⟨n, rfl⟩ := Int.eq_ofNat_of_zero_le h.1
    rw [indexed_of_lt xs n (by exact_mod_cast h.2)]
    simp
  · intro hfailed
    have hin : Inside (indexed xs i : Except (Stop ε) α) := by
      rw [hfailed]
      exact inside_failed what
    exact h ((inside_indexed xs i).mp hin)

/-- A program reads inside its arrays if its parts do, each where it is reached. -/
theorem inside_bind (p : Except (Stop ε) α) (f : α → Except (Stop ε) β) :
    Inside (p >>= f) ↔ Inside p ∧ ∀ a, p = .ok a → Inside (f a) := by
  cases p with
  | ok a =>
    refine ⟨fun h => ⟨inside_ok a, fun b hb => ?_⟩, fun h => h.2 a rfl⟩
    cases hb
    exact h
  | error stop =>
    cases stop with
    | failed what => exact iff_of_true (inside_failed what) ⟨inside_failed what, fun b hb => by cases hb⟩
    | outOfRange => exact iff_of_false not_inside_outOfRange fun h => not_inside_outOfRange h.1

/-- In a loop that stops for no other reason, no round may read outside. -/
theorem inside_mapM (f : α → Except (Stop ε) β) (xs : List α) (hf : ∀ x what, f x ≠ .error (.failed what)) :
    Inside (xs.mapM f) ↔ ∀ x ∈ xs, Inside (f x) := by
  induction xs with
  | nil => exact iff_of_true (inside_ok []) fun x hx => absurd hx List.not_mem_nil
  | cons x xs ih =>
    rw [List.mapM_cons, inside_bind, List.forall_mem_cons, ← ih]
    refine and_congr_right fun hx => ?_
    obtain ⟨y, hy⟩ : ∃ y, f x = .ok y := by
      cases hfx : f x with
      | ok y => exact ⟨y, rfl⟩
      | error stop =>
        cases stop with
        | failed what => exact absurd hfx (hf x what)
        | outOfRange => exact absurd hfx hx
    constructor
    · intro h
      exact ((inside_bind _ _).mp (h y hy)).1
    · intro h z _
      exact (inside_bind _ _).mpr ⟨h, fun zs _ => inside_ok _⟩

end BitPark.Indexing
