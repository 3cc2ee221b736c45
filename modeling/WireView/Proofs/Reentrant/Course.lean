import WireView.Proofs.Reentrant.History

/-!
# The course of an operation

An operation is under way as long as the stack is higher than the one that it
was issued on.  Its course is a history of the moves that are made until then,
those of the outside code that it calls among them.

What lies at the bottom of the stack stays there while something lies above it.
Only a failure that no outside code holds up, and the return of outside code
that has nothing above it, uncover what is below.
-/

namespace WireView
namespace Reentrant

variable {World Op Task Callee Value : Type}

theorem hasControl_nil : HasControl ([] : List (Level Task Callee)) := by
  intro t rest h
  cases h

theorem unwind_append (above base : List (Level Task Callee)) :
    unwind (above ++ base) = unwind above ++ base
      ∨ unwind (above ++ base) = unwind base := by
  induction above with
  | nil => exact .inr rfl
  | cons l above ih =>
      cases l with
      | outside c => exact .inl rfl
      | work t => exact ih

theorem unwind_levels (ts : List Task) (base : List (Level Task Callee)) :
    unwind (levels ts ++ base) = unwind base := by
  induction ts with
  | nil => rfl
  | cons t ts ih => exact ih

theorem Progress.over_append (p : Progress Task Callee Value)
    (above base : List (Level Task Callee)) :
    p.over (above ++ base) = p.over above ++ base
      ∨ exists e, p = .fail e ∧ p.over (above ++ base) = unwind base := by
  cases p with
  | done v => exact .inl rfl
  | fail e =>
      rcases unwind_append above base with h | h
      · exact .inl h
      · exact .inr ⟨e, rfl, h⟩
  | push ts => exact .inl (List.append_assoc ..).symm
  | call c ts => exact .inl (congrArg _ (List.append_assoc ..).symm)

theorem Progress.mem_over {p : Progress Task Callee Value}
    {l : Level Task Callee} {rest : List (Level Task Callee)}
    (h : l ∈ p.over rest) : l ∈ p.over [] ∨ l ∈ rest := by
  cases p with
  | done v => exact .inr h
  | fail e => exact .inr ((List.dropWhile_sublist _).mem h)
  | push ts =>
      simpa only [Progress.over, List.append_nil, List.mem_append] using h
  | call c ts =>
      simpa only [Progress.over, List.append_nil, List.mem_cons,
        List.mem_append, or_assoc] using h

theorem Progress.work_mem_over_nil {p : Progress Task Callee Value} {t : Task}
    (h : .work t ∈ p.over []) : t ∈ p.tasks := by
  cases p with
  | done v => cases h
  | fail e => cases h
  | push ts => simpa [Progress.over, Progress.tasks, levels] using h
  | call c ts => simpa [Progress.over, Progress.tasks, levels] using h

theorem Progress.outside_mem_over_nil {p : Progress Task Callee Value}
    {c : Callee} (h : .outside c ∈ p.over []) : p.callee? = some c := by
  cases p with
  | done v => cases h
  | fail e => cases h
  | push ts => simp [Progress.over, levels] at h
  | call c' ts =>
      have heq : c = c' := by simpa [Progress.over, levels] using h
      exact congrArg some heq.symm

def Moment.leaves (C : Component World Op Task Callee Value)
    (t : Moment World Op Task Callee Value) : List Task :=
  match t.move, t.machine.stack with
  | .work, .work task :: _ => (C.resume task t.machine.world).2.tasks
  | .issue op, _ => (C.perform op t.machine.world).2.tasks
  | _, _ => []

def Moment.brings (C : Component World Op Task Callee Value)
    (t : Moment World Op Task Callee Value) : List (Level Task Callee) :=
  match t.move, t.machine.stack with
  | .work, .work task :: _ => (C.resume task t.machine.world).2.over []
  | .issue op, _ => (C.perform op t.machine.world).2.over []
  | _, _ => []

theorem Moment.work_mem_brings {C : Component World Op Task Callee Value}
    {t : Moment World Op Task Callee Value} {task : Task}
    (h : .work task ∈ t.brings C) :
    task ∈ t.leaves C := by
  unfold Moment.brings at h
  unfold Moment.leaves
  split at h
  · exact Progress.work_mem_over_nil h
  · exact Progress.work_mem_over_nil h
  · cases h

theorem Moment.outside_mem_brings {C : Component World Op Task Callee Value}
    {t : Moment World Op Task Callee Value} {c : Callee}
    (h : .outside c ∈ t.brings C) :
    t.call? C = some c := by
  unfold Moment.brings at h
  split at h
  · rename_i hmove hstack
    simp only [Moment.call?, hmove, hstack]
    exact Progress.outside_mem_over_nil h
  · rename_i hmove
    simp only [Moment.call?, hmove]
    exact Progress.outside_mem_over_nil h
  · cases h

/-- What some moments of a history show, in the order of time. -/
def inOrder {Shown : Type}
    (look : Moment World Op Task Callee Value -> Option Shown)
    (past : List (Moment World Op Task Callee Value)) : List Shown :=
  (past.filterMap look).reverse

section inOrder

variable {Shown : Type}
  {look : Moment World Op Task Callee Value -> Option Shown}
variable {t : Moment World Op Task Callee Value}
variable {past : List (Moment World Op Task Callee Value)}

theorem inOrder_cons_none (h : look t = none) :
    inOrder look (t :: past) = inOrder look past := by
  unfold inOrder
  rw [List.filterMap_cons_none h]

theorem inOrder_cons_some {x : Shown} (h : look t = some x) :
    inOrder look (t :: past) = inOrder look past ++ [x] := by
  unfold inOrder
  rw [List.filterMap_cons_some h, List.reverse_cons]

end inOrder

namespace Machine

/-- The rule for as long as an operation that was issued on a stack is under
way. -/
def during (base : List (Level Task Callee))
    (rule : Machine World Task Callee Value -> Move Op -> Prop)
    (m : Machine World Task Callee Value) (move : Move Op) : Prop :=
  rule m move ∧ base.length < m.stack.length

instance {rule : Machine World Task Callee Value -> Move Op -> Prop}
    [forall m move, Decidable (rule m move)] (base : List (Level Task Callee))
    (m : Machine World Task Callee Value) (move : Move Op) :
    Decidable (during base rule m move) :=
  inferInstanceAs (Decidable (_ ∧ _))

variable {C : Component World Op Task Callee Value}
variable {rule rule' : Machine World Task Callee Value -> Move Op -> Prop}
variable {m m' n : Machine World Task Callee Value} {move : Move Op}
variable {above base : List (Level Task Callee)}

theorem stack_ne_of_during (h : during base rule m move) : m.stack ≠ base := by
  intro stack
  have hunder := h.2
  rw [stack] at hunder
  exact Nat.lt_irrefl _ hunder

theorem move?_of_hasControl (op : Op) (ready : HasControl m.stack) :
    m.move? C (.issue op) = some (m.issue C op) := by
  simp only [move?]
  split
  · rename_i t rest hstack
    exact absurd hstack (ready t rest)
  · rfl

theorem move?_under_work {t : Task} {rest : List (Level Task Callee)}
    (hmove : m.move? C move = some n) (hstack : m.stack = .work t :: rest) :
    move = .work ∧ n = m.proceed rest (C.resume t m.world) := by
  cases move with
  | work =>
      rcases move?_work hmove with ⟨t', rest', hs, rfl⟩
      cases hstack.symm.trans hs
      exact ⟨rfl, rfl⟩
  | issue op => exact absurd hstack ((move?_issue hmove).1 t rest)
  | giveBack =>
      rcases move?_giveBack hmove with ⟨c, rest', hs, _⟩
      cases hstack.symm.trans hs
  | throw e =>
      rcases move?_throw hmove with ⟨c, rest', hs, _⟩
      cases hstack.symm.trans hs

theorem proceed_fail {r : World × Progress Task Callee Value} {e : Failure}
    (h : r.2 = .fail e) :
    (m.proceed base r).result = .error e := by
  unfold proceed
  rw [h]

theorem level_of_move? (hmove : m.move? C move = some n) {l : Level Task Callee}
    (hl : l ∈ n.stack) : l ∈ (Moment.mk m move).brings C ∨ l ∈ m.stack := by
  cases move with
  | work =>
      rcases move?_work hmove with ⟨u, rest, hs, rfl⟩
      rw [proceed_stack] at hl
      simp only [Moment.brings, hs]
      exact (Progress.mem_over hl).imp_right (List.mem_cons_of_mem _)
  | issue op =>
      rcases move?_issue hmove with ⟨_, rfl⟩
      unfold Machine.issue at hl
      rw [proceed_stack] at hl
      exact Progress.mem_over hl
  | giveBack =>
      rcases move?_giveBack hmove with ⟨c, rest, hs, rfl⟩
      rw [hs]
      exact .inr (List.mem_cons_of_mem _ hl)
  | throw e =>
      rcases move?_throw hmove with ⟨c, rest, hs, rfl⟩
      rw [hs]
      exact .inr (List.mem_cons_of_mem _ ((List.dropWhile_sublist _).mem hl))

theorem work_of_move? (hmove : m.move? C move = some n) {t : Task}
    (ht : .work t ∈ n.stack) :
    t ∈ (Moment.mk m move).leaves C ∨ .work t ∈ m.stack :=
  (level_of_move? hmove ht).imp_left Moment.work_mem_brings

/-- A move with something above a stack leaves that stack in place, or it ends
by unwinding it. -/
theorem move?_above (hmove : m.move? C move = some n)
    (hstack : m.stack = above ++ base) (hne : above ≠ []) :
    (exists above', n.stack = above' ++ base
        ∧ forall l, l ∈ above' -> l ∈ (Moment.mk m move).brings C ∨ l ∈ above)
      ∨ n.stack = unwind base ∧ exists e, n.result = .error e := by
  cases above with
  | nil => exact absurd rfl hne
  | cons l above =>
  cases move with
  | work =>
      rcases move?_work hmove with ⟨t, rest, hs, rfl⟩
      obtain ⟨rfl, rfl⟩ : l = .work t ∧ above ++ base = rest := by
        simpa [hstack] using hs
      rw [proceed_stack]
      rcases Progress.over_append (C.resume t m.world).2 above base with
        h | ⟨e, he, h⟩
      · refine .inl ⟨_, h, fun u hu => ?_⟩
        simp only [Moment.brings, hs]
        exact (Progress.mem_over hu).imp_right (List.mem_cons_of_mem _)
      · exact .inr ⟨h, e, proceed_fail he⟩
  | issue op =>
      rcases move?_issue hmove with ⟨hcontrol, rfl⟩
      have hl : exists c, l = .outside c := by
        cases l with
        | outside c => exact ⟨c, rfl⟩
        | work t => exact absurd hstack (hcontrol t _)
      rcases hl with ⟨c, rfl⟩
      refine .inl ⟨(C.perform op m.world).2.over (.outside c :: above), ?_, ?_⟩
      · show (m.proceed m.stack (C.perform op m.world)).stack = _
        rw [proceed_stack, hstack]
        cases (C.perform op m.world).2 with
        | done v => rfl
        | fail e => rfl
        | push ts => exact (List.append_assoc ..).symm
        | call c ts => exact congrArg _ (List.append_assoc ..).symm
      · intro u hu
        exact Progress.mem_over hu
  | giveBack =>
      rcases move?_giveBack hmove with ⟨c, rest, hs, rfl⟩
      obtain ⟨rfl, rfl⟩ : l = .outside c ∧ above ++ base = rest := by
        simpa [hstack] using hs
      exact .inl ⟨above, rfl, fun u hu => .inr (List.mem_cons_of_mem _ hu)⟩
  | throw e =>
      rcases move?_throw hmove with ⟨c, rest, hs, rfl⟩
      obtain ⟨rfl, rfl⟩ : l = .outside c ∧ above ++ base = rest := by
        simpa [hstack] using hs
      rcases unwind_append above base with h | h
      · refine .inl ⟨_, h, fun u hu => .inr (List.mem_cons_of_mem _ ?_)⟩
        exact (List.dropWhile_sublist _).mem hu
      · exact .inr ⟨h, e, rfl⟩

theorem move?_inside {c : Callee} (hmove : m.move? C move = some n)
    (hstack : m.stack = above ++ .outside c :: base) :
    (exists above', n.stack = above' ++ .outside c :: base
        ∧ (forall l, l ∈ above' -> l ∈ (Moment.mk m move).brings C ∨ l ∈ above)
        ∧ (above = [] -> exists op, move = .issue op))
      ∨ above = [] ∧ move = .giveBack ∧ n = ⟨m.world, base, .ok C.returned⟩
      ∨ above = [] ∧ exists e,
        move = .throw e ∧ n = ⟨m.world, unwind base, .error e⟩ := by
  by_cases hne : above = []
  · subst hne
    cases move with
    | work =>
        rcases move?_work hmove with ⟨t, rest, hs, rfl⟩
        rw [hstack] at hs
        cases hs
    | issue op =>
        rcases move?_issue hmove with ⟨_, rfl⟩
        have hover :
            (m.issue C op).stack =
              (C.perform op m.world).2.over (.outside c :: base) := by
          rw [← List.nil_append (Level.outside c :: base), ← hstack]
          exact proceed_stack _ _ _
        rcases Progress.over_append (C.perform op m.world).2 []
          (.outside c :: base) with h | ⟨e, _, h⟩
        · exact .inl ⟨_, hover.trans h, fun _ hl => .inl hl, fun _ => ⟨op, rfl⟩⟩
        · exact .inl
            ⟨[], hover.trans h, fun _ hl => .inr hl, fun _ => ⟨op, rfl⟩⟩
    | giveBack =>
        rcases move?_giveBack hmove with ⟨c', rest, hs, rfl⟩
        obtain ⟨rfl, rfl⟩ : c = c' ∧ base = rest := by simpa [hstack] using hs
        exact .inr (.inl ⟨rfl, rfl, rfl⟩)
    | throw e =>
        rcases move?_throw hmove with ⟨c', rest, hs, rfl⟩
        obtain ⟨rfl, rfl⟩ : c = c' ∧ base = rest := by simpa [hstack] using hs
        exact .inr (.inr ⟨rfl, e, rfl, rfl⟩)
  · left
    rcases move?_above hmove hstack hne with ⟨above', h, hlevels⟩ | ⟨h, _⟩
    · exact ⟨above', h, hlevels, fun hnil => absurd hnil hne⟩
    · exact ⟨[], h, fun _ hl => absurd hl List.not_mem_nil,
        fun hnil => absurd hnil hne⟩

variable {past later earlier : List (Moment World Op Task Callee Value)}

namespace History

theorem weaken (h : History C rule m past n)
    (weaker : forall k move, rule k move -> rule' k move) :
    History C rule' m past n := by
  induction h with
  | start => exact .start
  | step _ hrule hmove ih => exact ih.step (weaker _ _ hrule) hmove

theorem of_done (done : m.stack = base)
    (h : History C (during base rule) m past n) : past = [] := by
  have hsame : past = [] ∧ n = m := by
    induction h with
    | start => exact ⟨rfl, rfl⟩
    | step before allowed hmove ih =>
        rw [ih.2] at allowed
        exact absurd done (stack_ne_of_during allowed)
  exact hsame.1

theorem upTo (h : History C rule m (later ++ earlier) n) :
    exists k, History C rule m earlier k := by
  induction later generalizing n with
  | nil => exact ⟨n, h⟩
  | cons t later ih =>
      cases h with
      | step hpast _ _ => exact ih hpast

end History

theorem Reaches.course {op : Op} (reached : Reaches C rule m' m)
    (ready : HasControl m.stack) (allowed : rule m (.issue op))
    (course : History C (during base rule) (m.issue C op) past n) :
    Reaches C rule m' n := by
  have hcourse : History C rule (m.issue C op) past n :=
    course.weaken fun _ _ h => h.1
  exact (reached.step allowed (move?_of_hasControl op ready)).trans
    hcourse.reaches

end Machine
end Reentrant
end WireView
