import WireView.Number.Rounding
import WireView.Number.Shortest

/-!
# Written numbers

A double is written with its shortest digits: positionally while the power of
ten of its leading digit lies between `-4` and `15`, with an exponent of a sign
and at least two digits otherwise.  A positional number always shows a point.
With a fixed number of places it is written exactly, halves to even.
-/

namespace WireView
namespace Number

def zeros (n : Nat) : String :=
  String.ofList (List.replicate n '0')

def padLeft (width : Nat) (s : String) : String :=
  zeros (width - s.length) ++ s

def minus (negative : Bool) (s : String) : String :=
  if negative then "-" ++ s else s

def exponentText (e : Int) : String :=
  "e" ++ (if e < 0 then "-" else "+") ++ padLeft 2 e.natAbs.repr

def splitText (s : String) (n : Nat) : String × String :=
  (String.ofList (s.toList.take n), String.ofList (s.toList.drop n))

namespace Decimal

def power (x : Decimal) : Int :=
  x.exponent + (digitCount x.digits : Int) - 1

def positional (x : Decimal) : String :=
  let ds := x.digits.repr
  let e := x.exponent
  if 0 ≤ e then ds ++ zeros e.toNat ++ ".0"
  else
    let places := (-e).toNat
    let (whole, fraction) :=
      splitText (padLeft (places + 1) ds) (max ds.length (places + 1) - places)
    whole ++ "." ++ fraction

def scientific (x : Decimal) : String :=
  let (lead, rest) := splitText x.digits.repr 1
  (if rest.isEmpty then lead else lead ++ "." ++ rest) ++ exponentText x.power

def text (x : Decimal) : String :=
  if x.digits = 0 then
    "0.0"
  else
    if -4 ≤ x.power ∧ x.power < 16 then x.positional
  else x.scientific

end Decimal

namespace Reading

def text : Reading -> String
  | nan => "nan"
  | infinite s => minus s "inf"
  | finite s m q => minus s (shortest m q).text

def fixed (places : Nat) : Reading -> String
  | nan => "nan"
  | infinite s => minus s "inf"
  | finite s m q =>
      let (n, d) := quotient m q
      let ds := padLeft (places + 1) (divNearest (n * Nat.pow 10 places) d).repr
      let (whole, fraction) := splitText ds (ds.length - places)
      minus s (if places = 0 then whole else whole ++ "." ++ fraction)

end Reading

def text (x : Float) : String :=
  (Reading.ofFloat x).text

def fixed (places : Nat) (x : Float) : String :=
  (Reading.ofFloat x).fixed places

end Number
end WireView
