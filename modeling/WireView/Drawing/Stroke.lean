import WireView.Number.Rounding
import WireView.Projection.Projector
import WireView.Settings

/-!
# Strokes

A stroke is one order to the drawing surface, in whole pixels.  Points are
rounded to the nearest pixel; one is drawable when both coordinates are finite
and smaller in magnitude than the largest coordinate that a surface takes.

What can be drawn at is a `Coordinate`: it has a bound on its magnitude and a
nearest whole number.  The doubles are the instance that runs.
-/

namespace WireView

structure Pixel where
  x : Int
  y : Int
  deriving DecidableEq, BEq, Repr

def Pixel.toList (p : Pixel) : List Int :=
  [p.x, p.y]

/-- A text that has been rendered, known by the text that it shows. -/
abbrev Rendering : Type := String

inductive Stroke where
  | fill (color : Color)
  | line (color : Color) (p q : Pixel) (width : Nat)
  | circle (color : Color) (center : Pixel) (radius : Nat)
  | font (name : String) (size : Nat)
  | render (text : String) (color : Color)
  | blit (shown : Rendering) (corner : Pixel)
  deriving DecidableEq, Repr

class Coordinate (α : Type) where
  isBelow : Nat -> α -> Bool
  round : α -> Except Failure Int

instance : Coordinate Float where
  isBelow limit x := (Number.Reading.ofFloat x).isBelow limit
  round x := (Number.Reading.ofFloat x).round

namespace ScreenPoint

def coordinateLimit : Nat := 2147483647

def isDrawable {α : Type} [Coordinate α] (p : ScreenPoint α) : Bool :=
  Coordinate.isBelow coordinateLimit p.x &&
    Coordinate.isBelow coordinateLimit p.y

def pixel? {α : Type} [Coordinate α] (p : ScreenPoint α) :
    Except Failure Pixel := do
  let x ← Coordinate.round p.x
  let y ← Coordinate.round p.y
  .ok ⟨x, y⟩

def corner? (p : ScreenPoint Float) : Except Failure Pixel := do
  let x ← (Number.Reading.ofFloat p.x).truncate
  let y ← (Number.Reading.ofFloat p.y).truncate
  .ok ⟨x, y⟩

end ScreenPoint
end WireView
