import WireView.Proofs.Reentrant.Course

/-!
# The end of an operation

An operation that is under way can always be brought to its end: the machine
works, and outside code returns when it has control.  A piece of work makes the
machine lighter, and the return of outside code leaves less on the stack, so
this does not go on for ever.
-/

namespace WireView
namespace Reentrant
namespace Machine

variable {World Op Task Callee Value : Type}
variable {C : Component World Op Task Callee Value}
variable {rule : Machine World Task Callee Value -> Move Op -> Prop}
variable {m n : Machine World Task Callee Value}
variable {base : List (Level Task Callee)}

/-- The rule under which the machine works and outside code returns. -/
def yielding (_ : Machine World Task Callee Value) (move : Move Op) : Prop :=
  move = .work ∨ move = .giveBack

theorem exists_yielding {l : Level Task Callee}
    {rest : List (Level Task Callee)} (hstack : m.stack = l :: rest) :
    exists (move : Move Op) (n : Machine World Task Callee Value),
      yielding m move
      ∧ m.move? C move = some n
      ∧ (Lighter (n.weight C) (m.weight C)
        ∨ n.weight C = m.weight C ∧ n.stack.length < m.stack.length) := by
  cases l with
  | work t =>
      refine ⟨.work, m.advance C, .inl rfl, ?_, .inl (advance_lighter C hstack)⟩
      simp only [move?, hstack]
  | outside c =>
      refine ⟨.giveBack, m.giveBack C, .inr rfl, ?_,
        .inr (weight_giveBack C hstack m.world)⟩
      simp only [move?, hstack]

theorem exists_end {m : Machine World Task Callee Value}
    {above : List (Level Task Callee)} (ready : HasControl base)
    (hstack : m.stack = above ++ base) :
    exists k, Reaches C (during base yielding) m k ∧ k.stack = base := by
  cases above with
  | nil => exact ⟨m, .refl, hstack⟩
  | cons l above =>
      rcases exists_yielding (C := C) hstack with
        ⟨move, n, allowed, hmove, hnearer⟩
      have hunder : base.length < m.stack.length := by
        rw [hstack, List.length_append, List.length_cons]
        omega
      have hfirst : Reaches C (during base yielding) m n :=
        Reaches.refl.step ⟨allowed, hunder⟩ hmove
      rcases move?_above hmove hstack (List.cons_ne_nil l above) with
        ⟨above', hn, _⟩ | ⟨hn, _⟩
      · rcases exists_end ready hn with ⟨k, hrest, hk⟩
        exact ⟨k, hfirst.trans hrest, hk⟩
      · exact ⟨n, hfirst, hn.trans (unwind_of_hasControl ready)⟩
termination_by (m.weight C, m.stack.length)
decreasing_by
  rcases hnearer with (hl | ⟨he, hl⟩) | ⟨he, hl⟩
  · exact Prod.Lex.left _ _ (Prod.Lex.left _ _ hl)
  · exact Prod.Lex.left _ _ (Prod.lex_def.mpr (.inr ⟨he, hl⟩))
  · exact Prod.lex_def.mpr (.inr ⟨he, hl⟩)

theorem History.stack {past : List (Moment World Op Task Callee Value)}
    (course : History C (during base rule) m past n) (ready : HasControl base)
    (begun : exists above, m.stack = above ++ base) :
    exists above, n.stack = above ++ base := by
  induction course with
  | start => exact begun
  | step _ hrule hmove ih =>
      rcases ih with ⟨above, hstack⟩
      have hne : above ≠ [] := by
        rintro rfl
        exact stack_ne_of_during hrule hstack
      rcases move?_above hmove hstack hne with ⟨above', hn, _⟩ | ⟨hn, _⟩
      · exact ⟨above', hn⟩
      · exact ⟨[], hn.trans (unwind_of_hasControl ready)⟩

theorem issue_above {op : Op} (ready : HasControl m.stack) :
    exists above, (m.issue C op).stack = above ++ m.stack := by
  unfold issue
  rw [proceed_stack]
  cases (C.perform op m.world).2 with
  | done v => exact ⟨[], rfl⟩
  | fail e => exact ⟨[], unwind_of_hasControl ready⟩
  | push ts => exact ⟨levels ts, rfl⟩
  | call c ts => exact ⟨.outside c :: levels ts, rfl⟩

/-- From whatever point of its course, an operation comes to its end if no more
is asked for. -/
theorem operation_ends {op : Op}
    {past : List (Moment World Op Task Callee Value)}
    (ready : HasControl m.stack)
    (course : History C (during m.stack rule) (m.issue C op) past n) :
    exists k, Reaches C (during m.stack yielding) n k ∧ k.stack = m.stack := by
  rcases course.stack ready (issue_above ready) with ⟨above, hstack⟩
  exact exists_end ready hstack

end Machine
end Reentrant
end WireView
