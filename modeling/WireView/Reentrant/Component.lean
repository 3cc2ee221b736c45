import WireView.Failure

/-!
# Reentrant components

A component owns a world and works on it in pieces.  Between two pieces outside
code may get control: a listener or a callback, which can use the component
again before it returns.  What remains to be done is therefore data, a list of
tasks, and not hidden in the control flow.

Every piece of work ends in one of four ways: with a value, with a failure, with
further tasks to do in order, or with a call of outside code that further tasks
follow.  The weight of a task is larger than that of all tasks it leaves behind,
so a component left alone comes to rest.
-/

namespace WireView
namespace Reentrant

inductive Progress (Task Callee Value : Type) where
  | done (value : Value)
  | fail (cause : Failure)
  | push (tasks : List Task)
  | call (callee : Callee) (tasks : List Task)

def Progress.tasks {Task Callee Value : Type} :
    Progress Task Callee Value -> List Task
  | .done _ => []
  | .fail _ => []
  | .push ts => ts
  | .call _ ts => ts

/-- The lexicographic order on weights. -/
def Lighter (a b : Nat × Nat) : Prop :=
  a.1 < b.1 ∨ (a.1 = b.1 ∧ a.2 < b.2)

def totalWeight {Task : Type} (weight : Task -> Nat × Nat) :
    List Task -> Nat × Nat
  | [] => (0, 0)
  | t :: ts =>
      ((weight t).1 + (totalWeight weight ts).1,
        (weight t).2 + (totalWeight weight ts).2)

structure Component (World Op Task Callee Value : Type) where
  perform : Op -> World -> World × Progress Task Callee Value
  resume : Task -> World -> World × Progress Task Callee Value
  returned : Value
  weight : Task -> Nat × Nat
  resume_lighter : forall t w,
    Lighter (totalWeight weight (resume t w).2.tasks) (weight t)

end Reentrant
end WireView
