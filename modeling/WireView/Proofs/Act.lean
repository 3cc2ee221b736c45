import WireView.Act

/-!
# What an act leaves alone

An act fixes a part of the state when that part is the same afterwards, however
the act ends.  Acts that follow each other fix what each of them fixes.
-/

namespace WireView
namespace Act

variable {σ α β γ : Type}

def Fixes (f : σ -> γ) (a : Act σ α) : Prop :=
  forall s, f (a.perform s).1 = f s

variable {f : σ -> γ}

theorem fixes_pure (a : α) : Fixes f (pure a : Act σ α) := fun _ => rfl

theorem fixes_throw (e : Failure) : Fixes f (throw e : Act σ α) := fun _ => rfl

theorem fixes_ofResult (r : Except Failure α) :
    Fixes f (ofResult r : Act σ α) :=
  fun _ => rfl

theorem fixes_get : Fixes f (get : Act σ σ) := fun _ => rfl

theorem fixes_modify {g : σ -> σ} (hg : forall s, f (g s) = f s) :
    Fixes f (modify g : Act σ Unit) := hg

theorem fixes_bind {a : Act σ α} {k : α -> Act σ β} (ha : Fixes f a)
    (hk : forall x, Fixes f (k x)) : Fixes f (a >>= k) := by
  intro s
  rw [perform_bind]
  have hs := ha s
  rcases hp : a.perform s with ⟨t, e | x⟩
  · rw [hp] at hs
    exact hs
  · rw [hp] at hs
    exact (hk x t).trans hs

theorem fixes_get_bind {k : σ -> Act σ β}
    (hk : forall s, f ((k s).perform s).1 = f s) :
    Fixes f (get >>= k) := by
  intro s
  rw [perform_bind, perform_get]
  exact hk s

theorem fixes_tryCatch {a : Act σ α} {k : Failure -> Act σ α} (ha : Fixes f a)
    (hk : forall e, Fixes f (k e)) : Fixes f (tryCatch a k) := by
  intro s
  rw [perform_tryCatch]
  have hs := ha s
  rcases hp : a.perform s with ⟨t, e | x⟩
  · rw [hp] at hs
    exact (hk e t).trans hs
  · rw [hp] at hs
    exact hs

theorem perform_of_result {a : Act σ α} {s : σ} {r : Except Failure α}
    (h : (a.perform s).2 = r) :
    a.perform s = ((a.perform s).1, r) := by
  rw [← h]

end Act
end WireView
