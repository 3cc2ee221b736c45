import WireView.Scalar

/-!
# Frame rates

A meter follows the frame time: each tick moves it by a fixed share, the
reciprocal of the filter strength, towards the latest frame time.  Its rate is
zero until the frame time is positive.
-/

namespace WireView

structure RateMeter (α : Type) where
  strength : α
  frameTime : α
  last : α
  deriving DecidableEq, Repr

namespace RateMeter

variable {α : Type} [OfNat α 0]

def start (strength now : α) : RateMeter α :=
  ⟨strength, 0, now⟩

def tick? [Add α] [Sub α] [Div α] [Scalar α] (m : RateMeter α) (now : α) :
    Except Failure (RateMeter α) := do
  let step ← Scalar.divide? (now - m.last - m.frameTime) m.strength
  .ok { m with frameTime := m.frameTime + step, last := now }

def rate [OfNat α 1] [Div α] [LE α] [DecidableLE α] (m : RateMeter α) : α :=
  if m.frameTime ≤ 0 then 0 else 1 / m.frameTime

end RateMeter
end WireView
