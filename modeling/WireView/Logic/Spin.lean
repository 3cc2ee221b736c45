import WireView.Key
import WireView.Scalar

/-!
# Spinning by arrow keys

Each axis has an intent: the direction of its key that was pressed last, or rest
once either of its keys is released.  A step turns the model about one axis at
most: about the third by the vertical intent when both intents are held, else
about the axis of the one that is.
-/

namespace WireView

inductive Intent where
  | backward
  | rest
  | forward
  deriving DecidableEq, Repr

namespace Intent

def sign : Intent -> Int
  | backward => -1
  | rest => 0
  | forward => 1

def scale {α : Type} [OfNat α 0] [OfNat α 1] [Neg α] [Mul α] (step : α) :
    Intent -> α
  | backward => step * -1
  | rest => step * 0
  | forward => step * 1

end Intent

inductive Axis where
  | horizontal
  | vertical
  deriving DecidableEq, Repr

namespace ControlKey

def axis : ControlKey -> Axis
  | arrowUp | arrowDown => .vertical
  | arrowLeft | arrowRight => .horizontal

def press : ControlKey -> Intent
  | arrowUp | arrowRight => .forward
  | arrowDown | arrowLeft => .backward

end ControlKey

structure Intents where
  x : Intent := .rest
  y : Intent := .rest
  deriving DecidableEq, Repr

def Intents.set (i : Intents) (a : Axis) (v : Intent) : Intents :=
  match a with
  | .horizontal => { i with x := v }
  | .vertical => { i with y := v }

def Intents.signs (i : Intents) : List Int :=
  [i.x.sign, i.y.sign]

structure Rotation (α : Type) where
  rx : α
  ry : α
  rz : α
  deriving DecidableEq, Repr

def Rotation.toList {α : Type} (r : Rotation α) : List α :=
  [r.rx, r.ry, r.rz]

def Rotation.zero {α : Type} [OfNat α 0] : Rotation α :=
  ⟨0, 0, 0⟩

structure Spin (α : Type) where
  step : α
  rotation : Rotation α
  intents : Intents
  deriving DecidableEq, Repr

namespace Spin

variable {α : Type}

def start [OfNat α 0] (step : α) : Spin α :=
  ⟨step, .zero, {}⟩

def keyDown (s : Spin α) (key : String) : Spin α × Bool :=
  match ControlKey.ofName? key with
  | some k => ({ s with intents := s.intents.set k.axis k.press }, true)
  | none => (s, false)

def keyUp (s : Spin α) (key : String) : Spin α × Bool :=
  match ControlKey.ofName? key with
  | some k => ({ s with intents := s.intents.set k.axis .rest }, true)
  | none => (s, false)

def reset [OfNat α 0] (s : Spin α) : Spin α :=
  { s with rotation := .zero, intents := {} }

def update [OfNat α 0] [OfNat α 1] [Neg α] [Mul α] [Add α] (s : Spin α) :
    Spin α :=
  let r := s.rotation
  if s.intents.x ≠ .rest ∧ s.intents.y ≠ .rest then
    { s with rotation := { r with rz := r.rz + s.intents.y.scale s.step } }
  else if s.intents.x ≠ .rest then
    { s with rotation := { r with rx := r.rx + s.intents.x.scale s.step } }
  else if s.intents.y ≠ .rest then
    { s with rotation := { r with ry := r.ry + s.intents.y.scale s.step } }
  else s

end Spin
end WireView
