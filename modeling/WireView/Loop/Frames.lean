import WireView.Loop.FrameQueue
import WireView.Reentrant.Machine
import WireView.Remark

/-!
# Running frames

The component of one frame queue.  Its outside code are the callbacks: each is
called with the handle that it was requested under, and may request, cancel and
run frames itself before it returns.  A frame ends with the number of callbacks
that it ran, and remarks on it unless there were none.
-/

namespace WireView
namespace Frames

open Reentrant

structure World (K : Type) where
  queue : FrameQueue K := {}
  journal : List Remark := []

inductive Op (K : Type) where
  | request (k : K)
  | cancel (handle : Int)
  | run

/-- The rest of a frame: the handles still to be taken, and how many callbacks
ran. -/
structure Task where
  todo : List Nat
  ran : Nat

structure Callee (K : Type) where
  handle : Nat
  callback : K

inductive Value where
  | nothing
  | handle (h : Nat)
  | ran (count : Nat)

variable {K : Type}

def perform : Op K -> World K -> World K × Progress Task (Callee K) Value
  | .request k, w =>
      let (q, h) := w.queue.request k
      ({ w with queue := q }, .done (.handle h))
  | .cancel h, w => ({ w with queue := w.queue.cancel h }, .done .nothing)
  | .run, w =>
      let q := w.queue.beginFrame
      ({ w with queue := q }, .push [⟨q.handles, 0⟩])

def finish (w : World K) (ran : Nat) :
    World K × Progress Task (Callee K) Value :=
  let journal :=
    if ran = 0 then
      w.journal
    else
      .frameRan w.queue.frameCount ran :: w.journal
  ({ w with journal := journal }, .done (.ran ran))

def resume (t : Task) (w : World K) :
    World K × Progress Task (Callee K) Value :=
  FrameQueue.step w.queue.take (finish w t.ran)
    (fun (k, q) h rest =>
      ({ w with queue := q }, .call ⟨h, k⟩ [⟨rest, t.ran + 1⟩]))
    (fun rest => (w, .push [⟨rest, t.ran⟩])) t.todo

section resume

variable {w : World K} {h : Nat}

theorem resume_taken {k : K} {q : FrameQueue K}
    (taken : w.queue.take h = some (k, q)) (todo : List Nat) (ran : Nat) :
    resume ⟨h :: todo, ran⟩ w =
      ({ w with queue := q }, .call ⟨h, k⟩ [⟨todo, ran + 1⟩]) :=
  FrameQueue.step_taken taken todo

theorem resume_gone (gone : w.queue.take h = none) (todo : List Nat)
    (ran : Nat) :
    resume ⟨h :: todo, ran⟩ w = (w, .push [⟨todo, ran⟩]) :=
  FrameQueue.step_gone gone todo

end resume

def component (K : Type) :
    Component (World K) (Op K) Task (Callee K) Value where
  perform := perform
  resume := resume
  returned := .nothing
  weight t := (0, t.todo.length + 1)
  resume_lighter := by
    rintro ⟨todo, ran⟩ w
    refine FrameQueue.step_elim
      (motive := fun r : World K × Progress Task (Callee K) Value =>
        Lighter (totalWeight _ r.2.tasks) _) todo ?_ ?_ ?_
    · exact fun _ => .inr ⟨rfl, Nat.succ_pos _⟩
    · rintro taken h rest rfl _
      exact .inr ⟨rfl, Nat.lt_succ_self _⟩
    · rintro h rest rfl _
      exact .inr ⟨rfl, Nat.lt_succ_self _⟩

end Frames
end WireView
