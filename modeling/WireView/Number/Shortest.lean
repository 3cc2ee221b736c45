import WireView.Number.Reading

/-!
# Shortest decimals

The decimal of a double is the one with the fewest digits among those that read
back as the same double, and the nearest of these.  A grid of `n` digits holds
two candidates, the neighbours of the exact value; the first grid on which one
of them lies in the interval of numbers that round to the double wins.
-/

namespace WireView
namespace Number

/-- The number `digits * 10 ^ exponent`. -/
structure Decimal where
  digits : Nat
  exponent : Int
  deriving DecidableEq, Repr

/-- The numbers `low / den` to `high / den` that round to `mid / den`. -/
structure Interval where
  low : Nat
  mid : Nat
  high : Nat
  den : Nat
  closed : Bool

/-- The interval of `m * 2 ^ q`: half the gap to each neighbour, a quarter below
a power of two. -/
def Interval.ofMantissa (m : Nat) (q : Int) : Interval :=
  let below := if m = Nat.pow 2 52 ∧ -1074 < q then 1 else 2
  let scale := Nat.pow 2 (q - 2).toNat
  { low := (4 * m - below) * scale
    mid := 4 * m * scale
    high := (4 * m + 2) * scale
    den := Nat.pow 2 (2 - q).toNat
    closed := m % 2 = 0 }

def Interval.holds (i : Interval) (n d : Nat) : Bool :=
  if i.closed then
    decide (i.low * d ≤ n * i.den) && decide (n * i.den ≤ i.high * d)
  else
    decide (i.low * d < n * i.den) && decide (n * i.den < i.high * d)

def digitCount (n : Nat) : Nat :=
  (Nat.toDigits 10 n).length

def leadingPower (n d : Nat) : Int :=
  if d ≤ n then
    (digitCount (n / d) : Int) - 1
  else
    -(digitCount ((d + n - 1) / n - 1) : Int)

/-- The better neighbour on the grid of step `10 ^ e`, if one lies in the
interval. -/
def Interval.onGrid (i : Interval) (e : Int) : Option Nat :=
  let up := Nat.pow 10 e.toNat
  let down := Nat.pow 10 (-e).toNat
  let n := i.mid * down
  let d := i.den * up
  let c := n / d
  match i.holds (c * up) down, i.holds ((c + 1) * up) down with
  | true, true =>
      if 2 * (n % d) < d ∨ (2 * (n % d) = d ∧ c % 2 = 0) then
        some c
      else
        some (c + 1)
  | true, false => some c
  | false, true => some (c + 1)
  | false, false => none

/-- Tries grids of growing fineness, `left` of them, from the one of step
`10 ^ e`. -/
def Interval.firstGrid (i : Interval) (e : Int) : Nat -> Decimal
  | 0 => ⟨i.mid * Nat.pow 10 (-e).toNat / (i.den * Nat.pow 10 e.toNat), e⟩
  | left + 1 =>
      match i.onGrid e with
      | some c => ⟨c, e⟩
      | none => i.firstGrid (e - 1) left

def Decimal.trim (x : Decimal) : Nat -> Decimal
  | 0 => x
  | left + 1 =>
      if x.digits ≠ 0 ∧ x.digits % 10 = 0 then
        Decimal.trim ⟨x.digits / 10, x.exponent + 1⟩ left
      else x

def shortest (m : Nat) (q : Int) : Decimal :=
  if m = 0 then ⟨0, 0⟩
  else
    let i := Interval.ofMantissa m q
    (i.firstGrid (leadingPower i.mid i.den) 17).trim 17

end Number
end WireView
