import BitPark.Effect

namespace BitPark.Stepwise

open BitPark.Effect Relation

variable {σ ε α β μ : Type} {S R : σ → σ → Prop}

/-! Programs whose every effect is a sequence of small steps. What the steps
preserve is shown once for each kind of step. -/

theorem related_of_steps [IsPreorder σ R] (h : ∀ s t, S s t → R s t) (s t : σ) (hst : ReflTransGen S s t) : R s t := by
  induction hst with
  | refl => exact refl_of R s
  | tail _ hstep ih => exact trans_of R ih (h _ _ hstep)

theorem invariant_of_steps (I : σ → Prop) (h : ∀ s t, S s t → I s → I t) (s t : σ) (hst : ReflTransGen S s t)
    (hs : I s) : I t := by
  induction hst with
  | refl => exact hs
  | tail _ hstep ih => exact h _ _ hstep ih

/-- What follows the first part may start from what its answer says about the state. -/
theorem bind_related [IsPreorder σ R] (p : Program σ ε α) (q : α → Program σ ε β) (s : σ)
    (hp : R s (run p s).2) (hq : ∀ a t, run p s = (.ok a, t) → R t (run (q a) t).2) :
    R s (run (p >>= q) s).2 := by
  rw [run_bind]
  match hr : run p s with
  | (.ok a, t) =>
    rw [hr] at hp
    exact trans_of R hp (hq a t hr)
  | (.error e, t) =>
    rw [hr] at hp
    exact hp

/-- A handler that finds a relation established extends it. -/
theorem handle_related [IsPreorder σ R] (p : Program σ ε α) (h : ε → Program σ ε α) (s : σ)
    (hp : R s (run p s).2) (hh : ∀ e, Steps R (h e)) : R s (run (handle p h) s).2 := by
  rw [run_handle]
  match hr : run p s with
  | (.ok a, t) =>
    rw [hr] at hp
    exact hp
  | (.error e, t) =>
    rw [hr] at hp
    exact trans_of R hp (hh e t)

/-! Runs of a system that takes one event after the other. -/

/-- The property holds of every event of the run, in the state that it finds. -/
def Along (next : σ → μ → σ) (P : σ → μ → Prop) : σ → List μ → Prop
  | _, [] => True
  | s, m :: ms => P s m ∧ Along next P (next s m) ms

variable {next : σ → μ → σ}

theorem along_of_forall (P : μ → Prop) (s : σ) (ms : List μ) (h : ∀ m ∈ ms, P m) : Along next (fun _ m => P m) s ms := by
  induction ms generalizing s with
  | nil => trivial
  | cons m ms ih =>
    obtain ⟨hm, hms⟩ := List.forall_mem_cons.mp h
    exact ⟨hm, ih (next s m) hms⟩

/-- An invariant of the single events holds after every run. -/
theorem run_invariant (I : σ → Prop) (P : σ → μ → Prop) (h : ∀ s m, I s → P s m → I (next s m)) (s : σ)
    (ms : List μ) (hs : I s) (hP : Along next P s ms) : I (ms.foldl next s) := by
  induction ms generalizing s with
  | nil => exact hs
  | cons m ms ih => exact ih (next s m) (h s m hs hP.1) hP.2

end BitPark.Stepwise
