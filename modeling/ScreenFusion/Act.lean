import ScreenFusion.Error

/-!
# ScreenFusion.Act — state changes that can fail

An `Act σ α` changes a state and gives a result or an error.  The state that it has reached is kept on an error: nothing
is rolled back unless an act says so.

* `bind_apply`: a sequence runs its second part from the state that the first one left, if that did not fail.
* `attempt_apply`: an error can be looked at without failing.
-/

namespace ScreenFusion

/-- A state change with a result or an error. -/
def Act (σ α : Type) := σ → Except Error α × σ

namespace Act

variable {σ τ α β : Type}

instance : Monad (Act σ) where
  pure a := fun s => (.ok a, s)
  bind x f := fun s => match x s with
    | (.ok a, s) => f a s
    | (.error e, s) => (.error e, s)

/-- Fails without changing the state. -/
def fail (e : Error) : Act σ α := fun s => (.error e, s)

/-- The state. -/
def get : Act σ σ := fun s => (.ok s, s)

/-- Replaces the state. -/
def set (s : σ) : Act σ Unit := fun _ => (.ok (), s)

/-- Changes the state. -/
def modify (f : σ → σ) : Act σ Unit := fun s => (.ok (), f s)

/-- The outcome of an act, error or not. -/
def attempt (x : Act σ α) : Act σ (Except Error α) := fun s => (.ok (x s).1, (x s).2)

/-- An outcome as an act that changes nothing. -/
def ofExcept (r : Except Error α) : Act σ α := fun s => (r, s)

/-- Fails unless a condition holds. -/
def require (condition : Bool) (e : Error) : Act σ Unit := if condition then pure () else fail e

@[simp] theorem pure_apply (a : α) (s : σ) : (pure a : Act σ α) s = (.ok a, s) := rfl

theorem bind_apply (x : Act σ α) (f : α → Act σ β) (s : σ) :
    (x >>= f) s = match x s with
      | (.ok a, s) => f a s
      | (.error e, s) => (.error e, s) := rfl

@[simp] theorem fail_apply (e : Error) (s : σ) : (fail e : Act σ α) s = (.error e, s) := rfl

@[simp] theorem get_apply (s : σ) : (get : Act σ σ) s = (.ok s, s) := rfl

@[simp] theorem set_apply (s t : σ) : set s t = (.ok (), s) := rfl

@[simp] theorem modify_apply (f : σ → σ) (s : σ) : modify f s = (.ok (), f s) := rfl

@[simp] theorem attempt_apply (x : Act σ α) (s : σ) : attempt x s = (.ok (x s).1, (x s).2) := rfl

@[simp] theorem ofExcept_apply (r : Except Error α) (s : σ) : ofExcept r s = (r, s) := rfl

theorem bind_of_ok {x : Act σ α} {f : α → Act σ β} {s t : σ} {a : α} (h : x s = (.ok a, t)) :
    (x >>= f) s = f a t := by rw [bind_apply, h]

theorem bind_of_error {x : Act σ α} {f : α → Act σ β} {s t : σ} {e : Error} (h : x s = (.error e, t)) :
    (x >>= f) s = (.error e, t) := by rw [bind_apply, h]

/-- A sequence that ends with an act whose result is not used. -/
theorem drop_apply (x : Act σ α) (s : σ) : (do let _ ← x : Act σ Unit) s = ((x s).1.map fun _ => (), (x s).2) := by
  rw [bind_apply]
  rcases x s with ⟨_ | _, _⟩ <;> rfl

instance : LawfulMonad (Act σ) := LawfulMonad.mk' (Act σ)
  (by
    intro α x
    funext s
    show (match x s with
      | (.ok a, s) => (pure a : Act σ α) s
      | (.error e, s) => (.error e, s)) = x s
    rcases x s with ⟨_ | _, _⟩ <;> rfl)
  (by intros; rfl)
  (by
    intro α β γ x f g
    funext s
    simp only [bind_apply]
    rcases x s with ⟨_ | _, _⟩ <;> rfl)

end Act

/-- A sequence without a state that succeeds is one whose parts do. -/
theorem ok_of_bind {α β : Type} {x : Except Error α} {f : α → Except Error β} {b : β} (h : x >>= f = .ok b) :
    ∃ a, x = .ok a ∧ f a = .ok b := by
  cases x with
  | error e => cases h
  | ok a => exact ⟨a, rfl, h⟩

end ScreenFusion
