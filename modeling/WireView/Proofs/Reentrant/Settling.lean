import WireView.Proofs.Reentrant.Moves

/-!
# Settling step by step

A machine that settles does the piece of work on top and settles what that leads
to.  There is one equation for each way in which a piece of work ends.
-/

namespace WireView
namespace Reentrant
namespace Machine

variable {World Op Task Callee Value : Type}
variable {C : Component World Op Task Callee Value}
variable {w w' : World} {t : Task} {rest : List (Level Task Callee)}
variable {r : Except Failure Value}

theorem settle_work : settle C ⟨w, .work t :: rest, r⟩ =
    settle C (proceed rest ⟨w, .work t :: rest, r⟩ (C.resume t w)) := by
  rw [settle]
  rfl

theorem settle_done {v : Value} (h : C.resume t w = (w', .done v)) :
    settle C ⟨w, .work t :: rest, r⟩ = settle C ⟨w', rest, .ok v⟩ := by
  rw [settle_work, h]
  rfl

theorem settle_fail {e : Failure} (h : C.resume t w = (w', .fail e)) :
    settle C ⟨w, .work t :: rest, r⟩ =
      settle C ⟨w', unwind rest, .error e⟩ := by
  rw [settle_work, h]
  rfl

theorem settle_push {ts : List Task} (h : C.resume t w = (w', .push ts)) :
    settle C ⟨w, .work t :: rest, r⟩ = settle C ⟨w', levels ts ++ rest, r⟩ := by
  rw [settle_work, h]
  rfl

theorem settle_rest {m : Machine World Task Callee Value}
    (h : HasControl m.stack) :
    settle C m = m := by
  rw [settle]
  split
  · rename_i t rest hstack
    exact absurd hstack (h t rest)
  · rfl

theorem settle_nil : settle C ⟨w, [], r⟩ = ⟨w, [], r⟩ := by
  apply settle_rest
  intro t rest h
  cases h

def settleWithin (C : Component World Op Task Callee Value) :
    Nat -> Machine World Task Callee Value ->
      Option (Machine World Task Callee Value)
  | 0, _ => none
  | k + 1, m =>
      match m.stack with
      | .work _ :: _ => settleWithin C k (m.advance C)
      | _ => some m

theorem settle_of_settleWithin {k : Nat} {m n : Machine World Task Callee Value}
    (h : settleWithin C k m = some n) : settle C m = n := by
  induction k generalizing m with
  | zero => cases h
  | succ k ih =>
      rw [settle]
      unfold settleWithin at h
      split at h
      · rename_i t rest hstack
        split
        · exact ih h
        · rename_i hno
          exact absurd hstack (hno t rest)
      · rename_i hno
        split
        · rename_i t rest hstack
          exact absurd hstack (hno t rest)
        · exact Option.some.inj h

end Machine
end Reentrant
end WireView
