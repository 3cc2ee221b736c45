/-!
# What a double denotes

A double is read as one of three things: no number, a signed infinity, or a
sign with a whole mantissa and a power of two.  Everything that has to be exact
about a double, its shortest digits, its nearest whole number, its value to a
fixed number of places, is computed on this reading in whole-number arithmetic.
-/

namespace WireView
namespace Number

/-- The number denoted by a double: `finite s m q` is `± m * 2 ^ q`. -/
inductive Reading where
  | nan
  | infinite (negative : Bool)
  | finite (negative : Bool) (mantissa : Nat) (exponent : Int)
  deriving DecidableEq, Repr

namespace Reading

def isMinus : Float.Model.UnpackedFloat.Sign -> Bool
  | .positive => false
  | .negative => true

def ofUnpacked : Float.Model.UnpackedFloat -> Reading
  | .notANumber => .nan
  | .infinity s => .infinite (isMinus s)
  | .zero s => .finite (isMinus s) 0 0
  | .finite s m q _ => .finite (isMinus s) m q

def ofFloat (x : Float) : Reading :=
  ofUnpacked x.toModel.unpack

end Reading

/-- The magnitude `m * 2 ^ q` as a quotient of two whole numbers, the second one
positive. -/
def quotient (m : Nat) (q : Int) : Nat × Nat :=
  if 0 ≤ q then (m * Nat.pow 2 q.toNat, 1) else (m, Nat.pow 2 (-q).toNat)

theorem quotient_den_pos (m : Nat) (q : Int) : 0 < (quotient m q).2 := by
  unfold quotient
  split
  · exact Nat.one_pos
  · exact Nat.two_pow_pos _

end Number
end WireView
