import WireView.Failure

/-!
# Whole numbers in words

An index or a coordinate is given as a whole number of any size and has to fit a
word of 64 bits.  An index is then taken as it is.  Of a coordinate only the low
half of the word counts, read with its sign, so coordinates that differ by
`2 ^ 32` are the same.  A share of a colour is read the same way from a word
without sign.  A coordinate at which a pixel is looked up has to fit the half.
-/

namespace WireView
namespace Number

def isWord (n : Int) : Bool :=
  decide (-9223372036854775808 ≤ n ∧ n < 9223372036854775808)

/-- The low half of a word, read with its sign. -/
def signedHalf (n : Int) : Int :=
  n.bmod 4294967296

def lowHalf? (n : Int) : Option Int :=
  if isWord n then some (signedHalf n) else none

def lowShare? (n : Int) : Option Nat :=
  if 0 ≤ n ∧ n < 18446744073709551616 then some (n.toNat % 4294967296) else none

def half? (n : Int) : Except Failure Int :=
  if !isWord n then
    .error .coordinateNoWord
  else
    if 2147483648 ≤ n then .error .coordinateTooLarge
  else if n < -2147483648 then .error .coordinateTooSmall
  else .ok n

theorem lowHalf?_isSome (n : Int) : (lowHalf? n).isSome = isWord n := by
  unfold lowHalf?
  cases isWord n <;> rfl

theorem signedHalf_eq_self {n : Int} (low : -2147483648 ≤ n)
    (high : n < 2147483648) :
    signedHalf n = n :=
  Int.bmod_eq_of_le (by omega) (by omega)

theorem lowHalf?_eq_self {n : Int} (low : -2147483648 ≤ n)
    (high : n < 2147483648) :
    lowHalf? n = some n := by
  have fits : isWord n = true := decide_eq_true (by omega)
  simp [lowHalf?, fits, signedHalf_eq_self low high]

end Number
end WireView
