import WireView.Failure

/-!
# General facts

Facts about lists and about results that are of no particular subject.
-/

namespace WireView

theorem foldl_maps {α β : Type} (f : β -> α -> α) (bs : List β) (as : List α) :
    bs.foldl (fun as b => as.map (f b)) as =
      as.map fun a => bs.foldl (fun a b => f b a) a := by
  induction bs generalizing as with
  | nil => exact (List.map_id as).symm
  | cons b bs ih =>
      rw [List.foldl_cons, ih, List.map_map]
      rfl

theorem exists_of_bind_ok {α β : Type} {r : Except Failure α}
    {k : α -> Except Failure β} {b : β} (h : (r >>= k) = .ok b) :
    exists a, r = .ok a ∧ k a = .ok b := by
  cases r with
  | error e => cases h
  | ok a => exact ⟨a, rfl, h⟩

end WireView
