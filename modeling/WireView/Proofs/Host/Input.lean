import WireView.Proofs.Host.Queues
import WireView.Proofs.Host.Views
import WireView.Proofs.Reentrant.Course

/-!
# The queue of input

Input that is posted waits at the end of the queue, in the order in which it was
posted.  Polling takes the whole queue, and shutting a window loses it; nothing
else takes anything out of it, and no piece of work puts anything in.  What the
keyboard calls its keys is never changed.
-/

namespace WireView
namespace Host

open Reentrant Machine

variable {K L : Type}

theorem detached_input :
    Detached (Host.input : Host K L -> List InputEvent) where
  tree _ _ := rfl
  display _ _ := rfl
  caption _ _ := rfl
  remark _ _ := rfl
  windows _ _ := rfl
  viewers _ _ := rfl
  prevented _ _ := rfl
  current _ _ := rfl

theorem detached_naming : Detached (Host.naming : Host K L -> Key.Naming) where
  tree _ _ := rfl
  display _ _ := rfl
  caption _ _ := rfl
  remark _ _ := rfl
  windows _ _ := rfl
  viewers _ _ := rfl
  prevented _ _ := rfl
  current _ _ := rfl

/-!
# Operations
-/

/-- The moves that take no input out of the queue. -/
def sparesInput : Move (Op K L) -> Bool
  | .issue (.poll _) => false
  | .issue (.shutDown _) => false
  | _ => true

def Op.input (op : Op K L) (h : Host K L) : List InputEvent :=
  match op with
  | .post events => if h.display.isOpen then events else []
  | _ => []

theorem input_post (h : Host K L) (events : List InputEvent) :
    (h.post events).1.input =
      h.input ++ if h.display.isOpen then events else [] := by
  unfold post
  cases h.display.isOpen with
  | true => rfl
  | false =>
      cases events with
      | nil => rfl
      | cons i events => exact (List.append_nil _).symm

theorem input_perform [LoopLogic L] [DecidableEq K] {op : Op K L}
    (spares : sparesInput (.issue op) = true) (h : Host K L) :
    (perform op h).1.input = h.input ++ op.input h := by
  cases op with
  | setClock now => exact (List.append_nil _).symm
  | shutDown a => cases spares
  | post events => exact input_post h events
  | poll a => cases spares
  | _ => exact (detached_input.perform rfl h).trans (List.append_nil _).symm

theorem naming_perform [LoopLogic L] [DecidableEq K] (op : Op K L)
    (h : Host K L) :
    (perform op h).1.naming = h.naming := by
  cases op with
  | setClock now => rfl
  | shutDown a =>
      simp only [perform, andNothing, world_ofAct]
      refine fixes_act (f := Host.naming) (fun h => ?_) h
      split
      · rfl
      · split <;> rfl
  | post events =>
      simp only [perform, post]
      split <;> rfl
  | poll a =>
      simp only [perform, beginPoll]
      split <;> rfl
  | _ => exact detached_naming.perform rfl h

/-!
# Runs
-/

section runs

variable [LoopLogic L] [DecidableEq K]

def posted? (t : HostMoment K L) : Option (List InputEvent) :=
  match t.move with
  | .issue op => some (op.input t.machine.world)
  | _ => none

def posted (past : List (HostMoment K L)) : List InputEvent :=
  (inOrder posted? past).flatten

variable {m n : HostMachine K L} {move : Move (Op K L)}
  {past : List (HostMoment K L)}

omit [LoopLogic L] [DecidableEq K] in
theorem posted_cons (t : HostMoment K L) :
    posted (t :: past) = posted past ++ (posted? t).getD [] := by
  unfold posted
  cases h : posted? t with
  | none =>
      rw [inOrder_cons_none h]
      exact (List.append_nil _).symm
  | some events =>
      rw [inOrder_cons_some h, List.flatten_concat]
      rfl

theorem input_move (hmove : m.move? (component K L) move = some n)
    (spares : sparesInput move = true) :
    n.world.input = m.world.input ++ (posted? ⟨m, move⟩).getD [] := by
  cases move with
  | work =>
      rcases move?_work hmove with ⟨t, rest, _, rfl⟩
      rw [proceed_world]
      have hsame := detached_input.resume (fun _ _ => rfl) t m.world
      exact hsame.trans (List.append_nil _).symm
  | issue op =>
      rcases move?_issue hmove with ⟨_, rfl⟩
      unfold Machine.issue
      rw [proceed_world]
      exact input_perform spares m.world
  | giveBack =>
      rcases move?_giveBack hmove with ⟨c, rest, _, rfl⟩
      exact (List.append_nil _).symm
  | throw e =>
      rcases move?_throw hmove with ⟨c, rest, _, rfl⟩
      exact (List.append_nil _).symm

theorem input_of_history {rule : HostMachine K L -> Move (Op K L) -> Prop}
    (history : History (component K L) rule m past n)
    (spares : forall t, t ∈ past -> sparesInput t.move = true) :
    n.world.input = m.world.input ++ posted past := by
  induction history with
  | start => exact (List.append_nil _).symm
  | step before _ hmove ih =>
      have hbefore := ih fun t ht => spares t (List.mem_cons_of_mem _ ht)
      rw [input_move hmove (spares _ List.mem_cons_self), hbefore, posted_cons,
        List.append_assoc]

theorem naming_of_move (hmove : m.move? (component K L) move = some n) :
    n.world.naming = m.world.naming := by
  cases move with
  | work =>
      rcases move?_work hmove with ⟨t, rest, _, rfl⟩
      rw [proceed_world]
      exact detached_naming.resume (fun _ _ => rfl) t m.world
  | issue op =>
      rcases move?_issue hmove with ⟨_, rfl⟩
      unfold Machine.issue
      rw [proceed_world]
      exact naming_perform op m.world
  | giveBack =>
      rcases move?_giveBack hmove with ⟨c, rest, _, rfl⟩
      rfl
  | throw e =>
      rcases move?_throw hmove with ⟨c, rest, _, rfl⟩
      rfl

theorem naming_of_history {rule : HostMachine K L -> Move (Op K L) -> Prop}
    (history : History (component K L) rule m past n) :
    n.world.naming = m.world.naming := by
  induction history with
  | start => rfl
  | step _ _ hmove ih => exact (naming_of_move hmove).trans ih

end runs

end Host
end WireView
