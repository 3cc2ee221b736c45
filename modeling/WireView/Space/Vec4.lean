import WireView.Number.Word
import WireView.Scalar

/-!
# Homogeneous vectors

A vector has components `x`, `y`, `z` and `w`; a point of space has `w = 1`.
Positions count from either end, `-1` being the last component; an index that
does not even fit a word is refused as such.
-/

namespace WireView

structure Vec4 (α : Type) where
  x : α
  y : α
  z : α
  w : α
  deriving DecidableEq, BEq, Repr

def position? (what : Indexed) (size : Nat) (i : Int) : Except Failure Nat :=
  let j := if i < 0 then i + size else i
  if 0 ≤ j ∧ j < size then
    .ok j.toNat
  else
    .error (if Number.isWord i then .outOfRange what else .indexTooLarge)

theorem position?_lt {what : Indexed} {size j : Nat} {i : Int}
    (h : position? what size i = .ok j) : j < size := by
  unfold position? at h
  generalize (if i < 0 then i + (size : Int) else i) = k at h
  by_cases hk : 0 ≤ k ∧ k < size
  · have : k.toNat = j := by simpa [hk] using h
    omega
  · simp [hk] at h

namespace Vec4

variable {α : Type}

def point [OfNat α 1] (x y z : α) : Vec4 α :=
  ⟨x, y, z, 1⟩

def toList (v : Vec4 α) : List α :=
  [v.x, v.y, v.z, v.w]

def ofList? [OfNat α 1] : List α -> Except Failure (Vec4 α)
  | [x, y, z] => .ok (point x y z)
  | [x, y, z, w] => .ok ⟨x, y, z, w⟩
  | xs => .error (.componentCount xs.length)

def map {β : Type} (f : α -> β) (v : Vec4 α) : Vec4 β :=
  ⟨f v.x, f v.y, f v.z, f v.w⟩

def dot [Add α] [Mul α] (u v : Vec4 α) : α :=
  u.x * v.x + u.y * v.y + u.z * v.z + u.w * v.w

/-- The same products added onto a leading zero. -/
def dotFromZero [OfNat α 0] [Add α] [Mul α] (u v : Vec4 α) : α :=
  0 + u.x * v.x + u.y * v.y + u.z * v.z + u.w * v.w

def component? (v : Vec4 α) (i : Int) : Except Failure α := do
  let j ← position? .component 4 i
  match j with
  | 0 => .ok v.x
  | 1 => .ok v.y
  | 2 => .ok v.z
  | _ => .ok v.w

end Vec4
end WireView
