import Mathlib.LinearAlgebra.Matrix.Notation
import WireView.Projection.Projector

/-!
# Products of matrices

Over a commutative ring a matrix of four rows is a square matrix, and a vector
is a column.  The product with a matrix and the product with a vector are
computed by different routines; both are the product of matrices as usual.  So
to apply a product is to apply its factors in turn, and the stages of a
projection are one matrix.
-/

namespace WireView

open Matrix

variable {R : Type}

namespace Vec4

def entries (v : Vec4 R) : Fin 4 -> R :=
  ![v.x, v.y, v.z, v.w]

theorem entries_injective :
    Function.Injective (entries : Vec4 R -> Fin 4 -> R) := by
  intro u v h
  obtain ⟨hx, hy, hz, hw⟩ : u.x = v.x ∧ u.y = v.y ∧ u.z = v.z ∧ u.w = v.w :=
    ⟨congrFun h 0, congrFun h 1, congrFun h 2, congrFun h 3⟩
  cases u
  cases v
  simp_all

variable [CommRing R]

theorem dot_eq_dotProduct (u v : Vec4 R) :
    u.dot v = u.entries ⬝ᵥ v.entries := by
  simp [dot, dotProduct, Fin.sum_univ_four, entries]

theorem dotFromZero_eq_dotProduct (u v : Vec4 R) :
    u.dotFromZero v = u.entries ⬝ᵥ v.entries := by
  rw [← dot_eq_dotProduct]
  unfold dotFromZero dot
  rw [zero_add]

end Vec4

namespace Mat4

def toMatrix (m : Mat4 R) : Matrix (Fin 4) (Fin 4) R :=
  Matrix.of ![m.r0.entries, m.r1.entries, m.r2.entries, m.r3.entries]

theorem toMatrix_injective :
    Function.Injective (toMatrix : Mat4 R -> Matrix (Fin 4) (Fin 4) R) := by
  intro m n h
  obtain ⟨h0, h1, h2, h3⟩ :
    m.r0 = n.r0 ∧ m.r1 = n.r1 ∧ m.r2 = n.r2 ∧ m.r3 = n.r3 :=
    ⟨Vec4.entries_injective (congrFun h 0),
     Vec4.entries_injective (congrFun h 1),
      Vec4.entries_injective (congrFun h 2),
      Vec4.entries_injective (congrFun h 3)⟩
  cases m
  cases n
  simp_all

theorem toMatrix_transpose (m : Mat4 R) :
    m.transpose.toMatrix = m.toMatrixᵀ := by
  ext i j
  fin_cases i <;> fin_cases j <;> simp [toMatrix, transpose, Vec4.entries]

variable [CommRing R]

theorem toMatrix_identity : (identity : Mat4 R).toMatrix = 1 := by
  ext i j
  fin_cases i <;> fin_cases j <;> simp [toMatrix, identity, Vec4.entries]

theorem entries_apply (m : Mat4 R) (v : Vec4 R) :
    (m.apply v).entries = m.toMatrix *ᵥ v.entries := by
  funext i
  fin_cases i
  · exact Vec4.dot_eq_dotProduct m.r0 v
  · exact Vec4.dot_eq_dotProduct m.r1 v
  · exact Vec4.dot_eq_dotProduct m.r2 v
  · exact Vec4.dot_eq_dotProduct m.r3 v

theorem entries_products (r : Vec4 R) (n : Mat4 R) :
    (⟨r.dotFromZero n.transpose.r0, r.dotFromZero n.transpose.r1,
      r.dotFromZero n.transpose.r2,
      r.dotFromZero n.transpose.r3⟩ : Vec4 R).entries =
        r.entries ᵥ* n.toMatrix := by
  have column (c : Vec4 R) {j : Fin 4}
      (h : c.entries = fun i => n.toMatrix i j) :
      r.dotFromZero c = (r.entries ᵥ* n.toMatrix) j := by
    rw [Vec4.dotFromZero_eq_dotProduct, h]
    rfl
  have columns := congrFun (toMatrix_transpose n)
  funext j
  fin_cases j
  · exact column n.transpose.r0 (columns 0)
  · exact column n.transpose.r1 (columns 1)
  · exact column n.transpose.r2 (columns 2)
  · exact column n.transpose.r3 (columns 3)

theorem toMatrix_mul (m n : Mat4 R) :
    (m.mul n).toMatrix = m.toMatrix * n.toMatrix := by
  funext i
  rw [Matrix.mul_apply_eq_vecMul]
  fin_cases i
  · exact entries_products m.r0 n
  · exact entries_products m.r1 n
  · exact entries_products m.r2 n
  · exact entries_products m.r3 n

/-!
# The laws of products
-/

theorem apply_mul (m n : Mat4 R) (v : Vec4 R) :
    (m.mul n).apply v = m.apply (n.apply v) := by
  apply Vec4.entries_injective
  simp only [entries_apply, toMatrix_mul, Matrix.mulVec_mulVec]

protected theorem mul_assoc (l m n : Mat4 R) :
    (l.mul m).mul n = l.mul (m.mul n) := by
  apply toMatrix_injective
  simp only [toMatrix_mul, Matrix.mul_assoc]

theorem identity_mul (m : Mat4 R) : identity.mul m = m := by
  apply toMatrix_injective
  rw [toMatrix_mul, toMatrix_identity, Matrix.one_mul]

theorem mul_identity (m : Mat4 R) : m.mul identity = m := by
  apply toMatrix_injective
  rw [toMatrix_mul, toMatrix_identity, Matrix.mul_one]

theorem apply_identity (v : Vec4 R) : identity.apply v = v := by
  apply Vec4.entries_injective
  rw [entries_apply, toMatrix_identity, Matrix.one_mulVec]

end Mat4

namespace Projector

variable [CommRing R]

/-- All stages of a projection in one matrix. -/
def pose (p : Projector R) (tx ty tz : Turn R) : Mat4 R :=
  (((p.perspective.mul p.camera).mul (.rotationZ tz)).mul (.rotationY ty)).mul
    (.rotationX tx)

theorem carry_eq_apply_pose (p : Projector R) (tx ty tz : Turn R) (v : Vec4 R) :
    p.carry tx ty tz v = (p.pose tx ty tz).apply v := by
  unfold pose carry
  simp only [Mat4.apply_mul]

/-- To apply a product of matrices is to apply its factors in turn, products can
be bracketed at will, and the identity is neutral.  So what a projection divides
is one matrix applied to the point, the product of perspective, camera and the
three turns, whatever the projector, the point and the angles are. -/
theorem stages_are_one_matrix :
    (forall (a b : Mat4 R) (v : Vec4 R),
      (a.mul b).apply v = a.apply (b.apply v))
      ∧ (forall a b c : Mat4 R, (a.mul b).mul c = a.mul (b.mul c))
      ∧ (forall a : Mat4 R, Mat4.identity.mul a = a ∧ a.mul .identity = a)
      ∧ (forall v : Vec4 R, Mat4.identity.apply v = v)
      ∧ (forall (p : Projector R) (tx ty tz : Turn R) (v : Vec4 R),
          p.carry tx ty tz v = (p.pose tx ty tz).apply v)
      ∧ forall [Div R] [Scalar R] (p : Projector R) (v : Vec4 R) (rx ry rz : R),
          p.project? v rx ry rz = (do
            let tx ← Turn.ofAngle? rx
            let ty ← Turn.ofAngle? ry
            let tz ← Turn.ofAngle? rz
            .ok (p.toScreen ((p.pose tx ty tz).apply v))) := by
  refine ⟨Mat4.apply_mul, Mat4.mul_assoc,
    fun a => ⟨a.identity_mul, a.mul_identity⟩, Mat4.apply_identity,
    carry_eq_apply_pose, ?_⟩
  intro _ _ p v rx ry rz
  unfold project? projectTurned
  simp only [carry_eq_apply_pose]

end Projector
end WireView
