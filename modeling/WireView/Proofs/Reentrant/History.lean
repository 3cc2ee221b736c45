import WireView.Proofs.Reentrant.Moves

/-!
# Histories

A history is a run that remembers its moves, the latest first, each with the
machine that it was made on.  Whatever is to be said about the order of things
in a run is read off its history: which operations were performed, which outside
code was called.

The result of the last operation plays no part in what comes after it.
-/

namespace WireView
namespace Reentrant

variable {World Op Task Callee Value : Type}

/-- A move together with the machine that makes it. -/
structure Moment (World Op Task Callee Value : Type) where
  machine : Machine World Task Callee Value
  move : Move Op

def Progress.callee? (p : Progress Task Callee Value) : Option Callee :=
  match p with
  | .call c _ => some c
  | _ => none

def Moment.call? (C : Component World Op Task Callee Value)
    (t : Moment World Op Task Callee Value) : Option Callee :=
  match t.move, t.machine.stack with
  | .work, .work task :: _ => (C.resume task t.machine.world).2.callee?
  | .issue op, _ => (C.perform op t.machine.world).2.callee?
  | _, _ => none

namespace Machine

variable (C : Component World Op Task Callee Value)

/-- The machines that a machine comes to by allowed moves, with the moments on
the way. -/
inductive History (rule : Machine World Task Callee Value -> Move Op -> Prop)
    (m : Machine World Task Callee Value) :
    List (Moment World Op Task Callee Value) ->
      Machine World Task Callee Value -> Prop where
  | start : History rule m [] m
  | step {past : List (Moment World Op Task Callee Value)}
      {n k : Machine World Task Callee Value} {move : Move Op} :
      History rule m past n -> rule n move -> n.move? C move = some k ->
      History rule m (⟨n, move⟩ :: past) k

def anyMove (_ : Machine World Task Callee Value) (_ : Move Op) : Prop :=
  True

namespace History

variable {C}
variable {rule : Machine World Task Callee Value -> Move Op -> Prop}
variable {m n : Machine World Task Callee Value}
variable {past later : List (Moment World Op Task Callee Value)}

theorem reaches (h : History C rule m past n) : Reaches C rule m n := by
  induction h with
  | start => exact .refl
  | step _ hrule hmove ih => exact ih.step hrule hmove

theorem exists_of_reaches (h : Reaches C rule m n) :
    exists past, History C rule m past n := by
  induction h with
  | refl => exact ⟨[], .start⟩
  | step _ hrule hmove ih =>
      rcases ih with ⟨past, hpast⟩
      exact ⟨_, hpast.step hrule hmove⟩

theorem next {k : Machine World Task Callee Value} (h : History C rule m past n)
    (move : Move Op) (allowed : rule n move) (hmove : n.move? C move = some k) :
    History C rule m (⟨n, move⟩ :: past) k :=
  h.step allowed hmove

theorem of_foldlM {k : Machine World Task Callee Value}
    {check : Machine World Task Callee Value -> Move Op -> Bool}
    (allowed : forall k move, check k move = true -> rule k move)
    {moves : List (Move Op)} {before : List (Moment World Op Task Callee Value)}
    (begun : History C rule m before k)
    (h : moves.foldlM
      (fun (p : List (Moment World Op Task Callee Value) × _) move =>
        if check p.2 move then
          (p.2.move? C move).map fun k => (⟨p.2, move⟩ :: p.1, k) else none)
            (before, k) = some (past, n)) : History C rule m past n := by
  induction moves generalizing before k with
  | nil =>
      cases h
      exact begun
  | cons move moves ih =>
      rw [List.foldlM_cons] at h
      rcases Option.bind_eq_some_iff.mp h with ⟨p, hmove, hrest⟩
      split at hmove
      · rename_i hcheck
        rcases Option.map_eq_some_iff.mp hmove with ⟨k', hk, rfl⟩
        exact ih (begun.step (allowed _ _ hcheck) hk) hrest
      · cases hmove

end History

/-!
# Results do not steer
-/

variable {C}

/-- Two machines that differ at most in the result of their last operation. -/
def SameCourse (m n : Machine World Task Callee Value) : Prop :=
  m.world = n.world ∧ m.stack = n.stack

theorem SameCourse.proceed {m n : Machine World Task Callee Value}
    (rest : List (Level Task Callee)) (r : World × Progress Task Callee Value) :
    SameCourse (m.proceed rest r) (n.proceed rest r) := by
  constructor
  · rw [proceed_world, proceed_world]
  · rw [proceed_stack, proceed_stack]

theorem SameCourse.move? {m n : Machine World Task Callee Value}
    (h : SameCourse m n) (move : Move Op) :
    Option.Rel SameCourse (m.move? C move) (n.move? C move) := by
  rcases m with ⟨w, stack, result⟩
  rcases n with ⟨w', stack', result'⟩
  rcases h with ⟨hw, hs⟩
  cases hw
  cases hs
  cases move with
  | work =>
      cases stack with
      | nil => exact .none
      | cons l rest =>
          cases l with
          | outside c => exact .none
          | work t => exact .some (SameCourse.proceed rest _)
  | issue op =>
      cases stack with
      | nil => exact .some (SameCourse.proceed [] _)
      | cons l rest =>
          cases l with
          | outside c => exact .some (SameCourse.proceed (.outside c :: rest) _)
          | work t => exact .none
  | giveBack =>
      cases stack with
      | nil => exact .none
      | cons l rest =>
          cases l with
          | outside c => exact .some ⟨rfl, rfl⟩
          | work t => exact .none
  | throw e =>
      cases stack with
      | nil => exact .none
      | cons l rest =>
          cases l with
          | outside c => exact .some ⟨rfl, rfl⟩
          | work t => exact .none

theorem SameCourse.foldlM {m n : Machine World Task Callee Value}
    (h : SameCourse m n) (moves : List (Move Op)) :
    Option.Rel SameCourse (moves.foldlM (fun k move => k.move? C move) m)
      (moves.foldlM (fun k move => k.move? C move) n) := by
  induction moves generalizing m n with
  | nil => exact .some h
  | cons move moves ih =>
      rw [List.foldlM_cons, List.foldlM_cons]
      have hmove := h.move? (C := C) move
      revert hmove
      cases m.move? C move <;> cases n.move? C move <;> intro hmove
      · exact .none
      · cases hmove
      · cases hmove
      · cases hmove with
        | some hnext => exact ih hnext

end Machine
end Reentrant
end WireView
