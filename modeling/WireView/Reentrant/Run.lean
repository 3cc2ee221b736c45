import WireView.Reentrant.Agent

/-!
# Runs

A run of a machine is a sequence of moves: the machine does a piece of work, or
whoever has control issues an operation, gives control back or throws.  A rule
says which moves outside code and the host may make; what every move keeps, a
run keeps.

Settling a machine and playing it with an agent are runs.
-/

namespace WireView
namespace Reentrant

inductive Move (Op : Type) where
  | work
  | issue (op : Op)
  | giveBack
  | throw (cause : Failure)

namespace Machine

variable {World Op Task Callee Value : Type}
variable (C : Component World Op Task Callee Value)

def move? (m : Machine World Task Callee Value) :
    Move Op -> Option (Machine World Task Callee Value)
  | .work =>
      match m.stack with
      | .work _ :: _ => some (m.advance C)
      | _ => none
  | .issue op =>
      match m.stack with
      | .work _ :: _ => none
      | _ => some (m.issue C op)
  | .giveBack =>
      match m.stack with
      | .outside _ :: _ => some (m.giveBack C)
      | _ => none
  | .throw e =>
      match m.stack with
      | .outside _ :: _ => some (m.throw e)
      | _ => none

/-- The machines that a machine comes to by moves that the rule allows. -/
inductive Reaches (rule : Machine World Task Callee Value -> Move Op -> Prop)
    (m : Machine World Task Callee Value) :
    Machine World Task Callee Value -> Prop where
  | refl : Reaches rule m m
  | step {n k : Machine World Task Callee Value} {move : Move Op} :
      Reaches rule m n -> rule n move -> n.move? C move = some k ->
        Reaches rule m k

namespace Reaches

variable {C}
variable {rule : Machine World Task Callee Value -> Move Op -> Prop}
variable {m n k : Machine World Task Callee Value}

theorem trans (first : Reaches C rule m n) (second : Reaches C rule n k) :
    Reaches C rule m k := by
  induction second with
  | refl => exact first
  | step _ hrule hmove ih => exact ih.step hrule hmove

theorem invariant {P : Machine World Task Callee Value -> Prop}
    (h : Reaches C rule m n) (start : P m)
    (keeps : forall m n move,
      P m -> rule m move -> m.move? C move = some n -> P n) : P n := by
  induction h with
  | refl => exact start
  | step _ hrule hmove ih => exact keeps _ _ _ ih hrule hmove

end Reaches

def workOnly (_ : Machine World Task Callee Value) (move : Move Op) : Prop :=
  move = .work

theorem reaches_settle (m : Machine World Task Callee Value) :
    Reaches C workOnly m (m.settle C) := by
  fun_induction settle C m with
  | case1 m t rest h ih =>
      refine Reaches.trans ?_ ih
      exact Reaches.refl.step rfl (by simp [move?, h])
  | case2 m h => exact .refl

/-- A settled machine waits for outside code or the host. -/
theorem settle_stack (m : Machine World Task Callee Value) (t : Task)
    (rest : List (Level Task Callee)) :
    (m.settle C).stack ≠ .work t :: rest := by
  fun_induction settle C m with
  | case1 m t' rest' h ih => exact ih
  | case2 m h =>
      intro hs
      exact h t rest hs

end Machine
end Reentrant
end WireView
