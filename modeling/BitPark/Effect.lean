import Mathlib

namespace BitPark.Effect

/-- A computation over a state that may raise an exception. What it did to the
state before it raised stays done. -/
def Program (σ ε α : Type) : Type := σ → Except ε α × σ

variable {σ ε α β γ : Type}

def run (p : Program σ ε α) (s : σ) : Except ε α × σ := p s

instance : Monad (Program σ ε) where
  pure a := fun s => (.ok a, s)
  bind p f := fun s => match p s with
    | (.ok a, t) => f a t
    | (.error e, t) => (.error e, t)

def raise (e : ε) : Program σ ε α := fun s => (.error e, s)

/-- A `try` block: the handler continues in the state the exception left. -/
def handle (p : Program σ ε α) (h : ε → Program σ ε α) : Program σ ε α := fun s =>
  match p s with
  | (.ok a, t) => (.ok a, t)
  | (.error e, t) => h e t

def state : Program σ ε σ := fun s => (.ok s, s)

def update (f : σ → σ) : Program σ ε Unit := fun s => (.ok (), f s)

def forEach : List α → (α → Program σ ε Unit) → Program σ ε Unit
  | [], _ => pure ()
  | x :: xs, p => do
    p x
    forEach xs p

@[simp] theorem run_pure (a : α) (s : σ) : run (pure a : Program σ ε α) s = (.ok a, s) := rfl

@[simp] theorem run_raise (e : ε) (s : σ) : run (raise e : Program σ ε α) s = (.error e, s) := rfl

@[simp] theorem run_state (s : σ) : run (state : Program σ ε σ) s = (.ok s, s) := rfl

@[simp] theorem run_update (f : σ → σ) (s : σ) : run (update f : Program σ ε Unit) s = (.ok (), f s) := rfl

theorem run_bind (p : Program σ ε α) (f : α → Program σ ε β) (s : σ) :
    run (p >>= f) s = match run p s with
      | (.ok a, t) => run (f a) t
      | (.error e, t) => (.error e, t) := rfl

theorem run_handle (p : Program σ ε α) (h : ε → Program σ ε α) (s : σ) :
    run (handle p h) s = match run p s with
      | (.ok a, t) => (.ok a, t)
      | (.error e, t) => run (h e) t := rfl

theorem run_bind_ok (p : Program σ ε α) (f : α → Program σ ε β) (s t : σ) (a : α)
    (h : run p s = (.ok a, t)) : run (p >>= f) s = run (f a) t := by
  rw [run_bind, h]

theorem run_bind_error (p : Program σ ε α) (f : α → Program σ ε β) (s t : σ) (e : ε)
    (h : run p s = (.error e, t)) : run (p >>= f) s = (.error e, t) := by
  rw [run_bind, h]

theorem bind_bind (p : Program σ ε α) (f : α → Program σ ε β) (g : β → Program σ ε γ) :
    (p >>= f >>= g) = p >>= fun a => f a >>= g := by
  funext s
  change run (p >>= f >>= g) s = run (p >>= fun a => f a >>= g) s
  rw [run_bind, run_bind, run_bind]
  match run p s with
  | (.ok a, t) => rfl
  | (.error e, t) => rfl

theorem forEach_singleton (x : α) (p : α → Program σ ε Unit) : forEach [x] p = p x := by
  funext s
  change run (p x >>= fun _ => pure ()) s = run (p x) s
  rw [run_bind]
  match run (p x) s with
  | (.ok a, t) => rfl
  | (.error e, t) => rfl

theorem forEach_append (xs ys : List α) (p : α → Program σ ε Unit) :
    forEach (xs ++ ys) p = forEach xs p >>= fun _ => forEach ys p := by
  induction xs with
  | nil => rfl
  | cons x xs ih =>
    rw [List.cons_append, forEach, forEach, ih, bind_bind]

theorem forEach_flatMap (xs : List γ) (f : γ → List α) (p : α → Program σ ε Unit) :
    forEach (xs.flatMap f) p = forEach xs fun x => forEach (f x) p := by
  induction xs with
  | nil => rfl
  | cons x xs ih => rw [List.flatMap_cons, forEach_append, ih, forEach]

/-- A program that returned went through its first half. -/
theorem bind_returned (p : Program σ ε α) (f : α → Program σ ε β) (s u : σ) (b : β)
    (h : run (p >>= f) s = (.ok b, u)) :
    ∃ a t, run p s = (.ok a, t) ∧ run (f a) t = (.ok b, u) := by
  rw [run_bind] at h
  match hp : run p s with
  | (.ok a, t) =>
    rw [hp] at h
    exact ⟨a, t, rfl, h⟩
  | (.error e, t) =>
    rw [hp] at h
    cases h

/-- The program does not raise. -/
def Returns (p : Program σ ε α) (s : σ) : Prop := ∃ a t, run p s = (.ok a, t)

theorem returns_bind (p : Program σ ε α) (f : α → Program σ ε β) (s : σ) :
    Returns (p >>= f) s ↔ ∃ a t, run p s = (.ok a, t) ∧ Returns (f a) t := by
  constructor
  · rintro ⟨b, u, h⟩
    obtain ⟨a, t, hp, hf⟩ := bind_returned p f s u b h
    exact ⟨a, t, hp, b, u, hf⟩
  · rintro ⟨a, t, hp, b, u, hf⟩
    exact ⟨b, u, (run_bind_ok p f s t a hp).trans hf⟩

theorem returned_of_isOk (p : Program σ ε α) (s : σ) (h : (run p s).1.isOk = true) :
    Returns p s := by
  match hp : run p s with
  | (.ok a, t) => exact ⟨a, t, hp⟩
  | (.error e, t) =>
    rw [hp] at h
    cases h

/-- Whatever a program does, and whether or not it raises, the state before
and the state after are related. -/
def Steps (R : σ → σ → Prop) (p : Program σ ε α) : Prop := ∀ s, R s (run p s).2

theorem steps_returned {R : σ → σ → Prop} {p : Program σ ε α} (hp : Steps R p) (s t : σ)
    (r : Except ε α) (h : run p s = (r, t)) : R s t := by
  have hs := hp s
  rw [h] at hs
  exact hs

/-- Two states agree in a part. -/
def SameAt (f : σ → γ) (s t : σ) : Prop := f t = f s

instance (f : σ → γ) : IsPreorder σ (SameAt f) where
  refl _ := rfl
  trans _ _ _ h1 h2 := Eq.trans h2 h1

/-- A program leaves a part of the state as it was. -/
abbrev Unchanged (f : σ → γ) (p : Program σ ε α) : Prop := Steps (SameAt f) p

section

variable {R : σ → σ → Prop}

theorem steps_update (g : σ → σ) (h : ∀ s, R s (g s)) : Steps R (update g : Program σ ε Unit) := h

theorem steps_ite (c : Prop) [Decidable c] {p q : Program σ ε α} (hp : Steps R p) (hq : Steps R q) :
    Steps R (if c then p else q) := by
  split_ifs
  · exact hp
  · exact hq

variable [IsPreorder σ R]

theorem steps_pure (a : α) : Steps R (pure a : Program σ ε α) := fun s => refl_of R s

theorem steps_raise (e : ε) : Steps R (raise e : Program σ ε α) := fun s => refl_of R s

theorem steps_state : Steps R (state : Program σ ε σ) := fun s => refl_of R s

theorem steps_bind {p : Program σ ε α} {q : α → Program σ ε β} (hp : Steps R p)
    (hq : ∀ a, Steps R (q a)) : Steps R (p >>= q) := by
  intro s
  have h1 := hp s
  rw [run_bind]
  match hr : run p s with
  | (.ok a, t) =>
    rw [hr] at h1
    exact trans_of R h1 (hq a t)
  | (.error e, t) =>
    rw [hr] at h1
    exact h1

theorem steps_handle {p : Program σ ε α} {h : ε → Program σ ε α} (hp : Steps R p)
    (hh : ∀ e, Steps R (h e)) : Steps R (handle p h) := by
  intro s
  have h1 := hp s
  rw [run_handle]
  match hr : run p s with
  | (.ok a, t) =>
    rw [hr] at h1
    exact h1
  | (.error e, t) =>
    rw [hr] at h1
    exact trans_of R h1 (hh e t)

theorem steps_forEach (xs : List α) (p : α → Program σ ε Unit) (hp : ∀ x ∈ xs, Steps R (p x)) :
    Steps R (forEach xs p) := by
  induction xs with
  | nil => exact steps_pure ()
  | cons x xs ih =>
    obtain ⟨hx, hxs⟩ := List.forall_mem_cons.mp hp
    exact steps_bind hx fun _ => ih hxs

end

/-- If the program raises, the state before and the state it leaves are related. -/
def Fails (R : σ → σ → Prop) (p : Program σ ε α) : Prop := ∀ s e t, run p s = (.error e, t) → R s t

section

variable {R : σ → σ → Prop}

theorem fails_of_steps {p : Program σ ε α} (hp : Steps R p) : Fails R p :=
  fun s e t h => steps_returned hp s t (.error e) h

theorem fails_ite (c : Prop) [Decidable c] {p q : Program σ ε α} (hp : Fails R p) (hq : Fails R q) :
    Fails R (if c then p else q) := by
  split_ifs
  · exact hp
  · exact hq

theorem fails_bind [IsPreorder σ R] {p : Program σ ε α} {q : α → Program σ ε β} (hp : Steps R p)
    (hq : ∀ a, Fails R (q a)) : Fails R (p >>= q) := by
  intro s e u h
  have h1 := hp s
  rw [run_bind] at h
  match hr : run p s with
  | (.ok a, t) =>
    rw [hr] at h h1
    exact trans_of R h1 (hq a t e u h)
  | (.error e', t) =>
    rw [hr] at h h1
    cases h
    exact h1

/-- Nothing after the first half raises. -/
theorem fails_bind_total {p : Program σ ε α} {q : α → Program σ ε β} (hp : Fails R p)
    (hq : ∀ a s, (run (q a) s).1.isOk = true) : Fails R (p >>= q) := by
  intro s e u h
  rw [run_bind] at h
  match hr : run p s with
  | (.ok a, t) =>
    rw [hr] at h
    have hok := hq a t
    rw [show run (q a) t = (.error e, u) from h] at hok
    cases hok
  | (.error e', t) =>
    rw [hr] at h
    cases h
    exact hp s e u hr

end

end BitPark.Effect
