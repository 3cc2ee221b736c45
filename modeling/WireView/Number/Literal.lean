import WireView.Failure
import WireView.Number.Notation

/-!
# Given numbers

A number is given as a whole number of any size or as a double.  A whole number
stands for the nearest double; one beyond all doubles is refused.

As text it is a decimal numeral: a sign, digits, and for a double a point or an
exponent.  Doubles that have no numeral are written as words.
-/

namespace WireView
namespace Number

inductive Literal where
  | whole (n : Int)
  | real (x : Float)

def ofInt? (n : Int) : Except Failure Float :=
  let magnitude := Float.ofScientific n.natAbs false 0
  if magnitude.isInf then
    .error .wholeTooLarge
  else
    .ok (if n < 0 then -magnitude else magnitude)

def Literal.toFloat? : Literal -> Except Failure Float
  | whole n => ofInt? n
  | real x => .ok x

def Literal.kind : Literal -> Kind
  | whole _ => .whole
  | real _ => .real

/-!
# Numerals
-/

def digitsValue (cs : List Char) : Nat :=
  cs.foldl (fun n c => 10 * n + (c.toNat - 48)) 0

def signedValue : List Char -> Int
  | '-' :: rest => -(digitsValue rest : Int)
  | '+' :: rest => digitsValue rest
  | rest => digitsValue rest

def realValue (cs : List Char) : Float :=
  let (mantissa, power) :=
    (cs.dropWhile (· = '-')).span fun c => c ≠ 'e' && c ≠ 'E'
  let (whole, fraction) := mantissa.span (· ≠ '.')
  let exponent := signedValue (power.drop 1) - (fraction.drop 1).length
  let x :=
    Float.ofScientific (digitsValue (whole ++ fraction.drop 1))
      (decide (exponent < 0)) exponent.natAbs
  if cs.head? == some '-' then -x else x

def Literal.ofText : String -> Literal
  | "inf" => .real (1.0 / 0.0)
  | "-inf" => .real (-1.0 / 0.0)
  | "nan" => .real (0.0 / 0.0)
  | s =>
      if s.toList.any fun c => ".eE".contains c then
        .real (realValue s.toList)
      else
        .whole (signedValue s.toList)

def Literal.text : Literal -> String
  | whole n => toString n
  | real x => Number.text x

end Number
end WireView
