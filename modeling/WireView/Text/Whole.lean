import WireView.Text.Digit

/-!
# Written whole numbers

A whole number is written as an optional sign and decimal digits of any script,
with single underscores between digits and blanks around the whole.  A text of
ASCII characters alone has ASCII blanks; one that goes beyond ASCII may have
every blank of Unicode as well.  More than `digitLimit` digits are refused.
-/

namespace WireView
namespace Text

def digitLimit : Nat := 4300

def isAsciiBlank (c : Char) : Bool :=
  c = ' ' || (decide (9 ≤ c.toNat) && decide (c.toNat ≤ 13))

def isWideBlank (c : Char) : Bool :=
  let n := c.toNat
  n = 0x85 || n = 0xa0 || n = 0x1680 ||
    (decide (0x2000 ≤ n) && decide (n ≤ 0x200a))
    || n = 0x2028 || n = 0x2029 || n = 0x202f || n = 0x205f || n = 0x3000

inductive Mark where
  | blank
  | plus
  | minus
  | underscore
  | digit (value : Nat)
  deriving DecidableEq, Repr

def mark? (c : Char) : Option Mark :=
  if isAsciiBlank c || isWideBlank c then
    some .blank
  else
    if c = '+' then some .plus
  else if c = '-' then some .minus
  else if c = '_' then some .underscore
  else (digit? c).map .digit

/-- The digits of a run that starts and ends with a digit and has single
underscores inside. -/
def digitRun : List Mark -> Option (List Nat)
  | [.digit d] => some [d]
  | .digit d :: .underscore :: rest => (digitRun rest).map (d :: ·)
  | .digit d :: rest => (digitRun rest).map (d :: ·)
  | _ => none

def ofDigits (ds : List Nat) : Nat :=
  ds.foldl (fun n d => 10 * n + d) 0

def magnitude (ms : List Mark) : Option Nat := do
  let ds ← digitRun ms
  if ds.length ≤ digitLimit then some (ofDigits ds) else none

def trimBlanks (ms : List Mark) : List Mark :=
  let inner := ms.dropWhile (· = .blank)
  (inner.reverse.dropWhile (· = .blank)).reverse

def whole? (s : String) : Option Int := do
  let ms ← s.toList.mapM mark?
  match trimBlanks ms with
  | .plus :: rest => (magnitude rest).map Int.ofNat
  | .minus :: rest => (magnitude rest).map fun n => -(n : Int)
  | rest => (magnitude rest).map Int.ofNat

end Text
end WireView
