import Mathlib.Tactic.Common

set_option autoImplicit false

/-! # Computations whose effects an exception does not undo

A computation acts on a state and returns a value or throws; either way, what it has done to the
state stays done. `try … catch` and `try … finally` go on from the state in which the exception was
thrown. The rules say what a run does, and when an exception comes before any effect (`Throws`). -/

namespace Effects

/-- A computation. -/
def Comp (ε σ α : Type) : Type := σ → Except ε α × σ

namespace Comp

variable {ε σ α β : Type}

def run (x : Comp ε σ α) (s : σ) : Except ε α × σ := x s

instance : Monad (Comp ε σ) where
  pure a := fun s => (.ok a, s)
  bind x f := fun s =>
    match x s with
    | (.ok a, s') => f a s'
    | (.error e, s') => (.error e, s')

instance : MonadExceptOf ε (Comp ε σ) where
  throw e := fun s => (.error e, s)
  tryCatch x handler := fun s =>
    match x s with
    | (.ok a, s') => (.ok a, s')
    | (.error e, s') => handler e s'

instance : MonadStateOf σ (Comp ε σ) where
  get := fun s => (.ok s, s)
  set s' := fun _ => (.ok ⟨⟩, s')
  modifyGet f := fun s => (.ok (f s).1, (f s).2)

instance : MonadFinally (Comp ε σ) where
  tryFinally' x finalizer := fun s =>
    match x s with
    | (.ok a, s') =>
      match finalizer (some a) s' with
      | (.ok b, s'') => (.ok (a, b), s'')
      | (.error e, s'') => (.error e, s'')
    | (.error e, s') =>
      match finalizer none s' with
      | (.ok _, s'') => (.error e, s'')
      | (.error e', s'') => (.error e', s'')

/-- A computation that only looks at its arguments. -/
def ofExcept (x : Except ε α) : Comp ε σ α := fun s => (x, s)

/-- A computation on a part of a state. -/
def zoom {τ : Type} (get : σ → τ) (set : τ → σ → σ) (x : Comp ε τ α) : Comp ε σ α := fun s =>
  let (r, t) := x (get s)
  (r, set t s)

/-! ## Runs -/

@[simp] theorem run_pure (a : α) (s : σ) : (pure a : Comp ε σ α).run s = (.ok a, s) := rfl

@[simp] theorem run_throw (e : ε) (s : σ) : (throw e : Comp ε σ α).run s = (.error e, s) := rfl

@[simp] theorem run_get (s : σ) : (get : Comp ε σ σ).run s = (.ok s, s) := rfl

@[simp] theorem run_set (s s' : σ) : (set s' : Comp ε σ PUnit).run s = (.ok ⟨⟩, s') := rfl

@[simp] theorem run_modify (f : σ → σ) (s : σ) :
    (modify f : Comp ε σ PUnit).run s = (.ok ⟨⟩, f s) := rfl

@[simp] theorem run_ofExcept (x : Except ε α) (s : σ) :
    (ofExcept x : Comp ε σ α).run s = (x, s) := rfl

@[simp] theorem run_zoom {τ : Type} (get : σ → τ) (set : τ → σ → σ) (x : Comp ε τ α) (s : σ) :
    (zoom get set x).run s = ((x.run (get s)).1, set (x.run (get s)).2 s) := rfl

theorem run_bind (x : Comp ε σ α) (f : α → Comp ε σ β) (s : σ) :
    (x >>= f).run s =
      match x.run s with
      | (.ok a, s') => (f a).run s'
      | (.error e, s') => (.error e, s') := rfl

theorem run_map (f : α → β) (x : Comp ε σ α) (s : σ) :
    (f <$> x).run s =
      match x.run s with
      | (.ok a, s') => (.ok (f a), s')
      | (.error e, s') => (.error e, s') := rfl

theorem run_tryCatch (x : Comp ε σ α) (handler : ε → Comp ε σ α) (s : σ) :
    (tryCatch x handler).run s =
      match x.run s with
      | (.ok a, s') => (.ok a, s')
      | (.error e, s') => (handler e).run s' := rfl

theorem run_tryFinally (x : Comp ε σ α) (finalizer : Comp ε σ β) (s : σ) :
    (tryFinally x finalizer).run s =
      match x.run s with
      | (.ok a, s') =>
        match finalizer.run s' with
        | (.ok _, s'') => (.ok a, s'')
        | (.error e, s'') => (.error e, s'')
      | (.error e, s') =>
        match finalizer.run s' with
        | (.ok _, s'') => (.error e, s'')
        | (.error e', s'') => (.error e', s'') := by
  rcases hx : x s with ⟨_ | a, s'⟩ <;> rcases hf : finalizer s' with ⟨_ | b, s''⟩ <;>
    simp [tryFinally, run, MonadFinally.tryFinally', Functor.map, Function.comp, hx, hf]

theorem run_bind_ok {x : Comp ε σ α} {f : α → Comp ε σ β} {s s' : σ} {a : α}
    (h : x.run s = (.ok a, s')) : (x >>= f).run s = (f a).run s' := by
  rw [run_bind, h]

theorem run_bind_error {x : Comp ε σ α} {f : α → Comp ε σ β} {s s' : σ} {e : ε}
    (h : x.run s = (.error e, s')) : (x >>= f).run s = (.error e, s') := by
  rw [run_bind, h]

/-! ## Exceptions without effects -/

/-- `x` throws in `s`, and has done nothing before. -/
def Throws (x : Comp ε σ α) (s : σ) (Q : ε → Prop) : Prop := ∃ e, x.run s = (.error e, s) ∧ Q e

variable {x : Comp ε σ α} {f : α → Comp ε σ β} {s : σ} {Q : ε → Prop}

theorem throws_ofExcept {r : Except ε α} {e : ε} (h : r = .error e) (he : Q e) :
    (ofExcept r : Comp ε σ α).Throws s Q := ⟨e, by rw [h, run_ofExcept], he⟩

theorem Throws.bind (h : x.Throws s Q) : (x >>= f).Throws s Q := by
  obtain ⟨e, hrun, he⟩ := h
  exact ⟨e, run_bind_error hrun, he⟩

/-- What goes before has only looked at the state. -/
theorem Throws.after {a : α} (hx : x.run s = (.ok a, s)) (h : (f a).Throws s Q) :
    (x >>= f).Throws s Q := by
  obtain ⟨e, hrun, he⟩ := h
  exact ⟨e, (run_bind_ok hx).trans hrun, he⟩

end Comp

end Effects
