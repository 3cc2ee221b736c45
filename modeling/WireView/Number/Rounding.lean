import WireView.Failure
import WireView.Number.Reading

/-!
# Whole numbers from doubles

Rounding goes to the nearest whole number and, from halfway, to the even one;
truncation drops the fraction.  Both refuse what denotes no finite number.
-/

namespace WireView
namespace Number

/-- The quotient `n / d` rounded to the nearest whole number, halves to even. -/
def divNearest (n d : Nat) : Nat :=
  if 2 * (n % d) < d ∨ (2 * (n % d) = d ∧ n / d % 2 = 0) then
    n / d
  else
    n / d + 1

theorem divNearest_close (n : Nat) {d : Nat} (hd : 0 < d) :
    2 * n ≤ 2 * (divNearest n d * d) + d
      ∧ 2 * (divNearest n d * d) ≤ 2 * n + d := by
  have hdm := Nat.div_add_mod n d
  have hlt := Nat.mod_lt n hd
  have hc : d * (n / d) = n / d * d := Nat.mul_comm _ _
  unfold divNearest
  split
  · omega
  · rw [Nat.add_mul, Nat.one_mul]
    omega

theorem divNearest_half (n : Nat) {d : Nat} (h : 2 * (n % d) = d) :
    divNearest n d % 2 = 0 := by
  unfold divNearest
  split
  · omega
  · omega

def signed (negative : Bool) (n : Nat) : Int :=
  if negative then -(n : Int) else n

namespace Reading

def round : Reading -> Except Failure Int
  | nan => .error .roundedNaN
  | infinite _ => .error .roundedInfinity
  | finite s m q =>
      let (n, d) := quotient m q
      .ok (signed s (divNearest n d))

def truncate : Reading -> Except Failure Int
  | nan => .error .roundedNaN
  | infinite _ => .error .roundedInfinity
  | finite s m q =>
      let (n, d) := quotient m q
      .ok (signed s (n / d))

def isBelow (limit : Nat) : Reading -> Bool
  | finite _ m q =>
      let (n, d) := quotient m q
      decide (n < limit * d)
  | _ => false

end Reading
end Number
end WireView
