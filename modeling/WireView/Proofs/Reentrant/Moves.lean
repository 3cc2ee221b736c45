import WireView.Reentrant.Run

/-!
# What a move does

A move changes the world and the stack of a machine.  Both changes are read off
what the component does: a piece of work or an operation leaves its tasks, or a
call with its tasks, over the stack that was below it, and a failure drops the
suspended work there.

What pieces of work, operations and the ends of calls keep, a run keeps.
-/

namespace WireView
namespace Reentrant

variable {World Op Task Callee Value : Type}

/-- The stack that a piece of work leads to, over the stack that was below
it. -/
def Progress.over (p : Progress Task Callee Value)
    (rest : List (Level Task Callee)) : List (Level Task Callee) :=
  match p with
  | .done _ => rest
  | .fail _ => unwind rest
  | .push ts => levels ts ++ rest
  | .call c ts => .outside c :: (levels ts ++ rest)

/-- Nothing is left to do before outside code or the host has control. -/
def HasControl (stack : List (Level Task Callee)) : Prop :=
  forall t rest, stack ≠ .work t :: rest

theorem hasControl_outside (c : Callee) (rest : List (Level Task Callee)) :
    HasControl (.outside c :: rest) := by
  intro t rest' h
  cases h

theorem unwind_of_hasControl {stack : List (Level Task Callee)}
    (h : HasControl stack) : unwind stack = stack := by
  cases stack with
  | nil => rfl
  | cons l rest =>
      cases l with
      | outside c => rfl
      | work t => exact absurd rfl (h t rest)

theorem hasControl_unwind (stack : List (Level Task Callee)) :
    HasControl (unwind stack) := by
  induction stack with
  | nil =>
      intro t rest h
      cases h
  | cons l rest ih =>
      cases l with
      | outside c => exact hasControl_outside c rest
      | work t => exact ih

/-- The work on top of a stack, down to the outside code that it was issued
by. -/
def segment : List (Level Task Callee) -> List Task
  | .work t :: rest => t :: segment rest
  | _ => []

theorem segment_of_hasControl {stack : List (Level Task Callee)}
    (h : HasControl stack) : segment stack = [] := by
  cases stack with
  | nil => rfl
  | cons l rest =>
      cases l with
      | outside c => rfl
      | work t => exact absurd rfl (h t rest)

theorem hasControl_of_segment {stack : List (Level Task Callee)}
    (h : segment stack = []) : HasControl stack := by
  intro t rest hstack
  rw [hstack] at h
  cases h

theorem mem_over {p : Progress Task Callee Value} {l : Level Task Callee}
    {rest : List (Level Task Callee)} (hl : l ∈ rest)
    (hfail : forall e, p = .fail e -> HasControl rest) : l ∈ p.over rest := by
  cases p with
  | done v => exact hl
  | fail e =>
      show l ∈ unwind rest
      rw [unwind_of_hasControl (hfail e rfl)]
      exact hl
  | push ts => exact List.mem_append_right _ hl
  | call c ts => exact List.mem_cons_of_mem _ (List.mem_append_right _ hl)

namespace Machine

variable (C : Component World Op Task Callee Value)

@[simp] theorem proceed_world (rest : List (Level Task Callee))
    (m : Machine World Task Callee Value)
    (r : World × Progress Task Callee Value) :
    (m.proceed rest r).world = r.1 := by
  unfold proceed
  cases r.2 <;> rfl

@[simp] theorem proceed_stack (rest : List (Level Task Callee))
    (m : Machine World Task Callee Value)
    (r : World × Progress Task Callee Value) :
    (m.proceed rest r).stack = r.2.over rest := by
  unfold proceed
  cases r.2 <;> rfl

variable {C}
variable {m n : Machine World Task Callee Value}

theorem move?_work (h : m.move? C .work = some n) :
    exists t rest, m.stack = .work t :: rest
      ∧ n = m.proceed rest (C.resume t m.world) := by
  simp only [move?] at h
  split at h
  · rename_i t rest hstack
    refine ⟨t, rest, hstack, ?_⟩
    cases h
    simp only [advance, hstack]
  · cases h

theorem move?_issue {op : Op} (h : m.move? C (.issue op) = some n) :
    HasControl m.stack ∧ n = m.issue C op := by
  simp only [move?] at h
  split at h
  · cases h
  · rename_i hstack
    exact ⟨hstack, (Option.some.inj h).symm⟩

theorem move?_giveBack (h : m.move? C .giveBack = some n) :
    exists c rest, m.stack = .outside c :: rest
      ∧ n = ⟨m.world, rest, .ok C.returned⟩ := by
  simp only [move?] at h
  split at h
  · rename_i c rest hstack
    refine ⟨c, rest, hstack, ?_⟩
    cases h
    simp only [giveBack, hstack]
  · cases h

theorem move?_throw {e : Failure} (h : m.move? C (.throw e) = some n) :
    exists c rest, m.stack = .outside c :: rest
      ∧ n = ⟨m.world, unwind rest, .error e⟩ := by
  simp only [move?] at h
  split at h
  · rename_i c rest hstack
    refine ⟨c, rest, hstack, ?_⟩
    cases h
    simp only [throw, hstack]
  · cases h

/-!
# What a run keeps
-/

variable {rule : Machine World Task Callee Value -> Move Op -> Prop}

theorem Reaches.keeps {P : World -> List (Level Task Callee) -> Prop}
    (reached : Reaches C rule m n) (start : P m.world m.stack)
    (work : forall k t rest,
      k.stack = .work t :: rest -> rule k .work ->
        P k.world (.work t :: rest) ->
        P (C.resume t k.world).1 ((C.resume t k.world).2.over rest))
    (issue : forall k op,
      HasControl k.stack -> rule k (.issue op) -> P k.world k.stack ->
        P (C.perform op k.world).1 ((C.perform op k.world).2.over k.stack))
    (giveBack : forall w c rest, P w (.outside c :: rest) -> P w rest)
    (throw : forall k c rest e,
      k.stack = .outside c :: rest -> rule k (.throw e) ->
        P k.world (.outside c :: rest) -> P k.world (unwind rest)) :
    P n.world n.stack := by
  apply reached.invariant (P := fun k => P k.world k.stack) start
  intro k k' move hk hrule hmove
  cases move with
  | work =>
      rcases move?_work hmove with ⟨t, rest, hstack, rfl⟩
      rw [proceed_world, proceed_stack]
      exact work k t rest hstack hrule (hstack ▸ hk)
  | issue op =>
      rcases move?_issue hmove with ⟨hcontrol, rfl⟩
      unfold Machine.issue
      rw [proceed_world, proceed_stack]
      exact issue k op hcontrol hrule hk
  | giveBack =>
      rcases move?_giveBack hmove with ⟨c, rest, hstack, rfl⟩
      exact giveBack k.world c rest (hstack ▸ hk)
  | throw e =>
      rcases move?_throw hmove with ⟨c, rest, hstack, rfl⟩
      exact throw k c rest e hstack hrule (hstack ▸ hk)

theorem reaches_of_foldlM
    {check : Machine World Task Callee Value -> Move Op -> Bool}
    (allowed : forall k move, check k move = true -> rule k move)
    {moves : List (Move Op)}
    (h : moves.foldlM
      (fun k move => if check k move then k.move? C move else none) m =
        some n) : Reaches C rule m n := by
  induction moves generalizing m with
  | nil =>
      cases h
      exact .refl
  | cons move moves ih =>
      rw [List.foldlM_cons] at h
      rcases Option.bind_eq_some_iff.mp h with ⟨k, hmove, hrest⟩
      split at hmove
      · rename_i hcheck
        have hfirst : Reaches C rule m k :=
          Reaches.refl.step (allowed m move hcheck) hmove
        exact hfirst.trans (ih hrest)
      · cases hmove

end Machine
end Reentrant
end WireView
