import WireView.Failure

/-!
# Acts

An act works on a state and may fail on the way; the state that it has reached
by then stays.  Acts follow each other in the usual monadic order, and an act
that fails keeps the acts after it from running.
-/

namespace WireView

abbrev Act (σ α : Type) : Type :=
  ExceptT Failure (StateM σ) α

namespace Act

variable {σ α : Type}

def ofResult (r : Except Failure α) : Act σ α :=
  ExceptT.mk (pure r)

def perform (a : Act σ α) (s : σ) : σ × Except Failure α :=
  ((a.run.run s).2, (a.run.run s).1)

@[simp] theorem perform_ofResult (r : Except Failure α) (s : σ) :
    (ofResult r : Act σ α).perform s = (s, r) := rfl

@[simp] theorem perform_pure (a : α) (s : σ) :
    (pure a : Act σ α).perform s = (s, .ok a) := rfl

@[simp] theorem perform_throw (e : Failure) (s : σ) :
    (throw e : Act σ α).perform s = (s, .error e) := rfl

@[simp] theorem perform_get (s : σ) :
    (get : Act σ σ).perform s = (s, .ok s) := rfl

@[simp] theorem perform_set (s t : σ) :
    (set t : Act σ Unit).perform s = (t, .ok ()) := rfl

@[simp] theorem perform_modify (f : σ -> σ) (s : σ) :
    (modify f : Act σ Unit).perform s = (f s, .ok ()) := rfl

theorem perform_bind {β : Type} (a : Act σ α) (f : α -> Act σ β) (s : σ) :
    (a >>= f).perform s =
      match a.perform s with
      | (t, .ok x) => (f x).perform t
      | (t, .error e) => (t, .error e) := by
  unfold perform
  rw [ExceptT.run_bind, StateT.run_bind]
  rcases h : a.run.run s with ⟨_ | _, t⟩ <;> rfl

theorem perform_tryCatch (a : Act σ α) (f : Failure -> Act σ α) (s : σ) :
    (tryCatch a f : Act σ α).perform s =
      match a.perform s with
      | (t, .ok x) => (t, .ok x)
      | (t, .error e) => (f e).perform t := by
  unfold perform
  simp only [tryCatch, tryCatchThe, MonadExceptOf.tryCatch, ExceptT.tryCatch]
  rcases h : a.run.run s with ⟨_ | _, t⟩
  · simp only [ExceptT.run, ExceptT.mk, StateT.run, bind, StateT.bind] at h ⊢
    rw [h]
  · simp only [ExceptT.run, ExceptT.mk, StateT.run, bind, StateT.bind] at h ⊢
    rw [h]
    rfl

end Act
end WireView
