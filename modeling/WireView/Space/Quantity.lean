import WireView.Number.Literal
import WireView.Space.Mat4

/-!
# Quantities

A quantity is a vector, a matrix or a bare number.  Products exist for a matrix
on the left of a matrix or a vector; every other pair is refused by the kinds of
its operands.  A worksheet keeps quantities under names: one name always equals
itself, two names are equal when their components are.
-/

namespace WireView

open Number (Literal)

inductive Quantity where
  | vector (v : Vec4 Float)
  | matrix (m : Mat4 Float)
  | number (n : Literal)

inductive Part where
  | component (x : Float)
  | row (r : Vec4 Float)

def Vec4.ofLiterals? (xs : List Literal) : Except Failure (Vec4 Float) := do
  if xs.length = 3 ∨ xs.length = 4 then
    Vec4.ofList? (← xs.mapM Literal.toFloat?)
  else
    .error (.componentCount xs.length)

def Vec4.text (v : Vec4 Float) : String :=
  String.intercalate ", " (v.toList.map Number.text)

def Mat4.ofLiterals? (rows : List (List Literal)) :
    Except Failure (Mat4 Float) := do
  Mat4.ofRows? (← rows.mapM fun row => row.mapM Literal.toFloat?)

namespace Quantity

def kind : Quantity -> Kind
  | vector _ => .vector
  | matrix _ => .matrix
  | number n => n.kind

def product? : Quantity -> Quantity -> Except Failure Quantity
  | matrix m, matrix n => .ok (matrix (m.mul n))
  | matrix m, vector v => .ok (vector (m.apply v))
  | a, b => .error (.noProduct a.kind b.kind)

def part? : Quantity -> Int -> Except Failure (Option Part)
  | vector v, i => (v.component? i).map fun x => some (.component x)
  | matrix m, i => (m.row? i).map fun r => some (.row r)
  | number _, _ => .ok none

def isEqual : Quantity -> Quantity -> Bool
  | vector u, vector v => u == v
  | matrix m, matrix n => m == n
  | _, _ => false

def text : Quantity -> String
  | vector v => "Vec4(" ++ v.text ++ ")"
  | matrix m =>
      "Mat4([" ++
        String.intercalate ", " (m.rows.map fun r => "[" ++ r.text ++ "]") ++
        "])"
  | number n => n.text

end Quantity

structure Worksheet where
  bindings : List (String × Quantity) := []

namespace Worksheet

def find? (s : Worksheet) (name : String) : Option Quantity :=
  s.bindings.lookup name

def bind (s : Worksheet) (name : String) (q : Quantity) : Worksheet :=
  ⟨(name, q) :: s.bindings⟩

def isEqual? (s : Worksheet) (a b : String) : Option Bool := do
  let p ← s.find? a
  let q ← s.find? b
  some (a == b || p.isEqual q)

end Worksheet
end WireView
