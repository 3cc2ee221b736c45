import WireView.Reentrant.Machine

/-!
# Agents

An agent is outside code that answers every call at once: it changes its own
state and the world, and returns, with at most one operation left for the
machine to do in its place.  An agent that is allowed a bounded number of
operations comes to an end.
-/

namespace WireView
namespace Reentrant

structure Agent (State World Op Callee : Type) where
  answer : Callee -> State -> World -> State × World × Option Op

namespace Machine

variable {State World Op Task Callee Value : Type}
variable (C : Component World Op Task Callee Value)

theorem weight_giveBack {m : Machine World Task Callee Value} {c : Callee}
    {rest : List (Level Task Callee)} (h : m.stack = .outside c :: rest)
    (w : World) :
    (giveBack C { m with world := w }).weight C = m.weight C
      ∧ (giveBack C { m with world := w }).stack.length < m.stack.length := by
  simp [weight, giveBack, h, totalWeight_cons, Level.weight]

/-- Runs a machine with an agent for all outside code, for at most `budget`
operations of the agent. -/
def play (A : Agent State World Op Callee) (budget : Nat) (s : State)
    (m : Machine World Task Callee Value) :
    State × Machine World Task Callee Value :=
  match _h : m.stack with
  | [] => (s, m)
  | .work _ :: _ => play A budget s (m.advance C)
  | .outside c :: _ =>
      let (s, w, op) := A.answer c s m.world
      match op, budget with
      | some op, left + 1 =>
          play A left s ((giveBack C { m with world := w }).issue C op)
      | _, left => play A left s (giveBack C { m with world := w })
termination_by (budget, m.weight C, m.stack.length)
decreasing_by
  · refine Prod.Lex.right _ (Prod.Lex.left _ _ ?_)
    rcases advance_lighter C _h with hl | ⟨he, hl⟩
    · exact Prod.Lex.left _ _ hl
    · exact Prod.lex_def.mpr (Or.inr ⟨he, hl⟩)
  · exact Prod.Lex.left _ _ (Nat.lt_succ_self _)
  · obtain ⟨hw, hl⟩ := weight_giveBack C _h w
    refine Prod.Lex.right _ ?_
    rw [hw]
    exact Prod.Lex.right _ hl

end Machine
end Reentrant
end WireView
