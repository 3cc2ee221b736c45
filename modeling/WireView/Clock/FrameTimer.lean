import WireView.Scalar

/-!
# Frame timers

A timer keeps the reading of its last tick or reset, the time between its last
two, and the rate of the latest tick that took any time.
-/

namespace WireView

structure FrameTimer (α : Type) where
  last : α
  delta : α
  rate : α
  deriving DecidableEq, Repr

namespace FrameTimer

variable {α : Type} [OfNat α 0]

def start (now : α) : FrameTimer α :=
  ⟨now, 0, 0⟩

def reset (t : FrameTimer α) (now : α) : FrameTimer α :=
  { t with last := now, delta := 0 }

def tick [OfNat α 1] [Sub α] [Div α] [LT α] [DecidableLT α] (t : FrameTimer α)
    (now : α) : FrameTimer α :=
  let delta := now - t.last
  ⟨now, delta, if 0 < delta then 1 / delta else t.rate⟩

end FrameTimer
end WireView
