/-!
# Frame queues

A frame queue holds the callbacks to run before the next repaint.  Handles are
issued in increasing order and never twice, so the pending entries are listed by
increasing handle.  A frame begins by counting itself; the callbacks pending at
that moment are then taken one at a time, those cancelled meanwhile being gone.
-/

namespace WireView

structure FrameQueue (C : Type) where
  nextHandle : Nat := 1
  pending : List (Nat × C) := []
  frameCount : Nat := 0

namespace FrameQueue

variable {C : Type}

def handles (q : FrameQueue C) : List Nat :=
  q.pending.map Prod.fst

def size (q : FrameQueue C) : Nat :=
  q.pending.length

def request (q : FrameQueue C) (c : C) : FrameQueue C × Nat :=
  ({ q with
      nextHandle := q.nextHandle + 1
      pending := q.pending ++ [(q.nextHandle, c)] }, q.nextHandle)

def drop (q : FrameQueue C) (h : Nat) : FrameQueue C :=
  { q with pending := q.pending.filter fun e => e.1 ≠ h }

def cancel (q : FrameQueue C) (h : Int) : FrameQueue C :=
  if 0 ≤ h then q.drop h.toNat else q

/-- The callback of a pending handle, which is pending no more. -/
def take (q : FrameQueue C) (h : Nat) : Option (C × FrameQueue C) :=
  (q.pending.lookup h).map fun c => (c, q.drop h)

/-- One step of a frame: the callback of the next handle runs if it can be
taken, and is passed over if it is pending no more. -/
def step {T R : Type} (take : Nat -> Option T) (ended : R)
    (run : T -> Nat -> List Nat -> R) (pass : List Nat -> R) : List Nat -> R
  | [] => ended
  | h :: todo =>
      match take h with
      | some t => run t h todo
      | none => pass todo

section step

variable {T R : Type} {take : Nat -> Option T} {ended : R}
variable {run : T -> Nat -> List Nat -> R} {pass : List Nat -> R} {h : Nat}

theorem step_taken {t : T} (taken : take h = some t) (todo : List Nat) :
    step take ended run pass (h :: todo) = run t h todo := by
  simp only [step, taken]

theorem step_gone (gone : take h = none) (todo : List Nat) :
    step take ended run pass (h :: todo) = pass todo := by
  simp only [step, gone]

theorem step_elim {motive : R -> Prop} (todo : List Nat)
    (ended_of_nil : todo = [] -> motive ended)
    (run_of_taken : forall t h rest, todo = h :: rest -> take h = some t ->
      motive (run t h rest))
    (pass_of_gone : forall h rest, todo = h :: rest -> take h = none ->
      motive (pass rest)) :
    motive (step take ended run pass todo) := by
  cases todo with
  | nil => exact ended_of_nil rfl
  | cons h rest =>
      cases htake : take h with
      | some t =>
          rw [step_taken htake]
          exact run_of_taken t h rest rfl htake
      | none =>
          rw [step_gone htake]
          exact pass_of_gone h rest rfl htake

end step

def beginFrame (q : FrameQueue C) : FrameQueue C :=
  { q with frameCount := q.frameCount + 1 }

end FrameQueue
end WireView
