import WireView.Failure

/-!
# Scalars

Vectors, matrices, projections and timers are written over any number type with
the four operations.  `Scalar` adds what is not arithmetic: a half, the test for
zero, the reciprocal of a zero, and the circular functions.

The doubles are the instance that runs.  Division and angles are partial: a zero
divisor and an infinite angle are failures, everything else is a value.
-/

namespace WireView

class Scalar (α : Type) where
  half : α
  isZero : α -> Bool
  pole : α -> α
  isInfinite : α -> Bool
  sin : α -> α
  cos : α -> α
  tan : α -> α

def hasMinusSign (x : Float) : Bool :=
  decide (x.toBits >>> 63 = 1)

instance : Scalar Float where
  half := 0.5
  isZero x := x == 0.0
  pole x := if hasMinusSign x then -(1.0 / 0.0) else 1.0 / 0.0
  isInfinite x := x.isInf
  sin := Float.sin
  cos := Float.cos
  tan := Float.tan

namespace Scalar

variable {α : Type} [Scalar α]

def divide? [Div α] (a b : α) : Except Failure α :=
  if isZero b then .error .divisionByZero else .ok (a / b)

def tan? (angle : α) : Except Failure α :=
  if isInfinite angle then .error .undefinedAngle else .ok (tan angle)

/-- The reciprocal that a zero sends to its pole. -/
def reciprocal [OfNat α 1] [Div α] (w : α) : α :=
  if isZero w then pole w else 1 / w

end Scalar

structure Turn (α : Type) where
  cos : α
  sin : α
  deriving Repr

def Turn.ofAngle? {α : Type} [Scalar α] (angle : α) : Except Failure (Turn α) :=
  if Scalar.isInfinite angle then
    .error .undefinedAngle
  else
    .ok ⟨Scalar.cos angle, Scalar.sin angle⟩

end WireView
