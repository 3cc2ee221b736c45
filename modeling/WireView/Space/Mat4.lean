import WireView.Space.Vec4

/-!
# Matrices

A matrix is four rows.  It acts on column vectors, so a translation lives in the
last column.  The entries of a product of matrices are summed onto a zero, those
of a product with a single vector are not: over doubles this decides the sign of
zero.  `applyFromZero` is the product with a vector that sums onto a zero as
well.
-/

namespace WireView

structure Mat4 (α : Type) where
  r0 : Vec4 α
  r1 : Vec4 α
  r2 : Vec4 α
  r3 : Vec4 α
  deriving DecidableEq, BEq, Repr

namespace Mat4

variable {α : Type}

def rows (m : Mat4 α) : List (Vec4 α) :=
  [m.r0, m.r1, m.r2, m.r3]

def ofRows? (rows : List (List α)) : Except Failure (Mat4 α) :=
  match rows with
  | [[a, b, c, d], [e, f, g, h], [i, j, k, l], [m, n, o, p]] =>
      .ok ⟨⟨a, b, c, d⟩, ⟨e, f, g, h⟩, ⟨i, j, k, l⟩, ⟨m, n, o, p⟩⟩
  | _ => .error (.matrixShape (rows.map List.length))

def row? (m : Mat4 α) (i : Int) : Except Failure (Vec4 α) := do
  let j ← position? .component 4 i
  match j with
  | 0 => .ok m.r0
  | 1 => .ok m.r1
  | 2 => .ok m.r2
  | _ => .ok m.r3

def transpose (m : Mat4 α) : Mat4 α :=
  { r0 := ⟨m.r0.x, m.r1.x, m.r2.x, m.r3.x⟩
    r1 := ⟨m.r0.y, m.r1.y, m.r2.y, m.r3.y⟩
    r2 := ⟨m.r0.z, m.r1.z, m.r2.z, m.r3.z⟩
    r3 := ⟨m.r0.w, m.r1.w, m.r2.w, m.r3.w⟩ }

def apply [Add α] [Mul α] (m : Mat4 α) (v : Vec4 α) : Vec4 α :=
  ⟨m.r0.dot v, m.r1.dot v, m.r2.dot v, m.r3.dot v⟩

def applyFromZero [OfNat α 0] [Add α] [Mul α] (m : Mat4 α) (v : Vec4 α) :
    Vec4 α :=
  ⟨m.r0.dotFromZero v, m.r1.dotFromZero v, m.r2.dotFromZero v,
   m.r3.dotFromZero v⟩

def mul [OfNat α 0] [Add α] [Mul α] (m n : Mat4 α) : Mat4 α :=
  let t := n.transpose
  let entries (r : Vec4 α) : Vec4 α :=
    ⟨r.dotFromZero t.r0, r.dotFromZero t.r1, r.dotFromZero t.r2,
     r.dotFromZero t.r3⟩
  ⟨entries m.r0, entries m.r1, entries m.r2, entries m.r3⟩

/-!
# Particular matrices
-/

variable [OfNat α 0] [OfNat α 1]

def identity : Mat4 α :=
  ⟨⟨1, 0, 0, 0⟩, ⟨0, 1, 0, 0⟩, ⟨0, 0, 1, 0⟩, ⟨0, 0, 0, 1⟩⟩

def translation (dx dy dz : α) : Mat4 α :=
  ⟨⟨1, 0, 0, dx⟩, ⟨0, 1, 0, dy⟩, ⟨0, 0, 1, dz⟩, ⟨0, 0, 0, 1⟩⟩

def rotationX [Neg α] (t : Turn α) : Mat4 α :=
  ⟨⟨1, 0, 0, 0⟩, ⟨0, t.cos, -t.sin, 0⟩, ⟨0, t.sin, t.cos, 0⟩, ⟨0, 0, 0, 1⟩⟩

def rotationY [Neg α] (t : Turn α) : Mat4 α :=
  ⟨⟨t.cos, 0, t.sin, 0⟩, ⟨0, 1, 0, 0⟩, ⟨-t.sin, 0, t.cos, 0⟩, ⟨0, 0, 0, 1⟩⟩

def rotationZ [Neg α] (t : Turn α) : Mat4 α :=
  ⟨⟨t.cos, -t.sin, 0, 0⟩, ⟨t.sin, t.cos, 0, 0⟩, ⟨0, 0, 1, 0⟩, ⟨0, 0, 0, 1⟩⟩

/-- The perspective with the depth of its input carried into `w`. -/
def perspective? [Scalar α] [Neg α] [Sub α] [Mul α] [Div α]
    (width height fov near far : α) : Except Failure (Mat4 α) := do
  let a ← Scalar.divide? height width
  let t ← Scalar.tan? (fov * Scalar.half)
  let f ← Scalar.divide? 1 t
  let q1 ← Scalar.divide? far (far - near)
  let q2 ← Scalar.divide? (-far * near) (far - near)
  .ok ⟨⟨a * f, 0, 0, 0⟩, ⟨0, f, 0, 0⟩, ⟨0, 0, q1, q2⟩, ⟨0, 0, 1, 0⟩⟩

end Mat4
end WireView
