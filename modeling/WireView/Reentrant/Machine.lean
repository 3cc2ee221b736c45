import WireView.Reentrant.Component

/-!
# Machines

A machine runs a component.  Its stack holds the suspended work and the outside
code that is under way, innermost first.  Outside code has control when it lies
on top, and the host when the stack is empty; a task on top is work to do.

Whoever has control issues operations.  Outside code ends by giving control back
or by throwing, which drops the work below it up to the next outside code.  To
settle a machine is to do its work until someone has control.
-/

namespace WireView
namespace Reentrant

inductive Level (Task Callee : Type) where
  | outside (callee : Callee)
  | work (task : Task)

structure Machine (World Task Callee Value : Type) where
  world : World
  stack : List (Level Task Callee)
  result : Except Failure Value

def Level.isWork {Task Callee : Type} : Level Task Callee -> Bool
  | .outside _ => false
  | .work _ => true

def Level.weight {Task Callee : Type} (weight : Task -> Nat × Nat) :
    Level Task Callee -> Nat × Nat
  | .outside _ => (0, 0)
  | .work t => weight t

def levels {Task Callee : Type} (ts : List Task) : List (Level Task Callee) :=
  ts.map .work

/-- Drops suspended work up to the outside code that called for it. -/
def unwind {Task Callee : Type} (stack : List (Level Task Callee)) :
    List (Level Task Callee) :=
  stack.dropWhile Level.isWork

namespace Machine

variable {World Op Task Callee Value : Type}

/-- Continues over the rest of the stack with what a piece of work led to. -/
def proceed (rest : List (Level Task Callee))
    (m : Machine World Task Callee Value)
    (r : World × Progress Task Callee Value) :
    Machine World Task Callee Value :=
  match r.2 with
  | .done v => ⟨r.1, rest, .ok v⟩
  | .fail e => ⟨r.1, unwind rest, .error e⟩
  | .push ts => ⟨r.1, levels ts ++ rest, m.result⟩
  | .call c ts => ⟨r.1, .outside c :: (levels ts ++ rest), m.result⟩

variable (C : Component World Op Task Callee Value)

def issue (op : Op) (m : Machine World Task Callee Value) :
    Machine World Task Callee Value :=
  m.proceed m.stack (C.perform op m.world)

def advance (m : Machine World Task Callee Value) :
    Machine World Task Callee Value :=
  match m.stack with
  | .work t :: rest => m.proceed rest (C.resume t m.world)
  | _ => m

def giveBack (m : Machine World Task Callee Value) :
    Machine World Task Callee Value :=
  match m.stack with
  | .outside _ :: rest => { m with stack := rest, result := .ok C.returned }
  | _ => m

def throw (e : Failure) (m : Machine World Task Callee Value) :
    Machine World Task Callee Value :=
  match m.stack with
  | .outside _ :: rest => { m with stack := unwind rest, result := .error e }
  | _ => m

/-!
# Coming to rest
-/

def weight (m : Machine World Task Callee Value) : Nat × Nat :=
  totalWeight (Level.weight C.weight) m.stack

theorem totalWeight_cons {T : Type} (w : T -> Nat × Nat) (t : T) (ts : List T) :
    totalWeight w (t :: ts) =
      ((w t).1 + (totalWeight w ts).1, (w t).2 + (totalWeight w ts).2) := by
  simp [totalWeight]

theorem totalWeight_levels (ts : List Task) (rest : List (Level Task Callee)) :
    totalWeight (Level.weight C.weight) (levels ts ++ rest)
      = ((totalWeight C.weight ts).1 +
          (totalWeight (Level.weight C.weight) rest).1,
         (totalWeight C.weight ts).2 +
          (totalWeight (Level.weight C.weight) rest).2) := by
  induction ts with
  | nil => simp [levels, totalWeight]
  | cons t ts ih =>
      have h :
          levels (t :: ts) ++ rest =
            (Level.work t : Level Task Callee) :: (levels ts ++ rest) := rfl
      rw [h, totalWeight_cons, ih, totalWeight_cons]
      simp [Level.weight, Nat.add_assoc]

theorem totalWeight_unwind_le (rest : List (Level Task Callee)) :
    (totalWeight (Level.weight C.weight) (unwind rest)).1 ≤
      (totalWeight (Level.weight C.weight) rest).1
      ∧ (totalWeight (Level.weight C.weight) (unwind rest)).2 ≤
        (totalWeight (Level.weight C.weight) rest).2 := by
  induction rest with
  | nil => exact ⟨Nat.le_refl _, Nat.le_refl _⟩
  | cons l rest ih =>
      cases l with
      | outside c => exact ⟨Nat.le_refl _, Nat.le_refl _⟩
      | work t =>
          have h :
              unwind ((Level.work t : Level Task Callee) :: rest) =
                unwind rest := rfl
          rw [h, totalWeight_cons]
          exact ⟨Nat.le_trans ih.1 (Nat.le_add_left _ _),
            Nat.le_trans ih.2 (Nat.le_add_left _ _)⟩

theorem advance_lighter {m : Machine World Task Callee Value} {t : Task}
    {rest : List (Level Task Callee)} (h : m.stack = .work t :: rest) :
    Lighter ((m.advance C).weight C) (m.weight C) := by
  have hl := C.resume_lighter t m.world
  unfold weight
  rw [h, totalWeight_cons]
  unfold advance
  rw [h]
  simp only
  unfold proceed
  unfold Lighter at hl ⊢
  rcases hr : C.resume t m.world with ⟨v, p⟩
  rw [hr] at hl
  cases p with
  | done x =>
      simp only [Progress.tasks, totalWeight] at hl
      simp only [Level.weight]
      omega
  | fail e =>
      have hu := totalWeight_unwind_le C rest
      simp only [Progress.tasks, totalWeight] at hl
      simp only [Level.weight] at hu ⊢
      omega
  | push ts =>
      simp only [Progress.tasks] at hl
      simp only [totalWeight_levels, Level.weight]
      omega
  | call c ts =>
      simp only [Progress.tasks] at hl
      simp only [totalWeight_cons, totalWeight_levels, Level.weight]
      omega

def settle (m : Machine World Task Callee Value) :
    Machine World Task Callee Value :=
  match _h : m.stack with
  | .work _ :: _ => settle (m.advance C)
  | _ => m
termination_by m.weight C
decreasing_by
  rcases advance_lighter C _h with hl | ⟨he, hl⟩
  · exact Prod.Lex.left _ _ hl
  · exact Prod.lex_def.mpr (Or.inr ⟨he, hl⟩)

end Machine
end Reentrant
end WireView
