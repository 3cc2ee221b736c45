import Mathlib
import WireView.Proofs.Number.Exact
import WireView.Proofs.Space.Product

/-!
# Rotations about the axes

Two turns after each other are the turn by their sum, and a turn and its reverse
undo each other. A rotation about an axis takes this over: it multiplies as its
turns do, and its transpose is the rotation by the reverse turn.

A matrix is rigid when it leaves the last component alone, its transpose undoes
it and its space part has determinant one; it then keeps the dot product of the
space parts of any two vectors. Products of rigid matrices are rigid, and so is
the rotation about each axis.
-/

namespace WireView

open Matrix

variable {R : Type} [CommRing R]

namespace Scalar

/-- Circular functions as they should be, of angles none of which is
infinite. -/
class Circular (R : Type) [CommRing R] [Scalar R] : Prop where
  isInfinite_eq (t : R) : isInfinite t = false
  squares (t : R) : cos t ^ 2 + sin t ^ 2 = 1
  cos_neg (t : R) : cos (-t) = cos t
  sin_neg (t : R) : sin (-t) = -sin t
  cos_add (s t : R) : cos (s + t) = cos s * cos t - sin s * sin t
  sin_add (s t : R) : sin (s + t) = sin s * cos t + cos s * sin t

theorem circular_reals : letI := reals Real.cos Real.sin; Circular ℝ :=
  letI := reals Real.cos Real.sin
  { isInfinite_eq := fun _ => rfl
    squares := Real.cos_sq_add_sin_sq
    cos_neg := Real.cos_neg
    sin_neg := Real.sin_neg
    cos_add := Real.cos_add
    sin_add := Real.sin_add }

end Scalar

/-!
# Turns
-/

namespace Turn

def comp (s t : Turn R) : Turn R :=
  ⟨s.cos * t.cos - s.sin * t.sin, s.sin * t.cos + s.cos * t.sin⟩

def reverse (t : Turn R) : Turn R :=
  ⟨t.cos, -t.sin⟩

theorem reverse_comp {t : Turn R} (circle : t.cos ^ 2 + t.sin ^ 2 = 1) :
    t.reverse.comp t = ⟨1, 0⟩ := by
  unfold comp reverse
  congr 1
  · linear_combination circle
  · ring

variable [Scalar R] [Scalar.Circular R]

theorem ofAngle?_circular (t : R) : ofAngle? t = .ok (of t) := by
  unfold ofAngle?
  rw [Scalar.Circular.isInfinite_eq, if_neg Bool.false_ne_true]
  rfl

theorem of_add (s t : R) : of (s + t) = (of s).comp (of t) := by
  unfold of comp
  rw [Scalar.Circular.cos_add, Scalar.Circular.sin_add]

theorem of_neg (t : R) : of (-t) = (of t).reverse := by
  unfold of reverse
  rw [Scalar.Circular.cos_neg, Scalar.Circular.sin_neg]

theorem of_circle (t : R) : (of t).cos ^ 2 + (of t).sin ^ 2 = 1 :=
  Scalar.Circular.squares t

end Turn

/-!
# Rigid matrices
-/

namespace Vec4

def inner (u v : Vec4 R) : R :=
  u.x * v.x + u.y * v.y + u.z * v.z

theorem inner_add_last (u v : Vec4 R) : u.inner v + u.w * v.w = u.dot v := rfl

end Vec4

namespace Mat4

def block (m : Mat4 R) : Matrix (Fin 3) (Fin 3) R :=
  m.toMatrix.submatrix Fin.castSucc Fin.castSucc

omit [CommRing R] in
theorem block_transpose (m : Mat4 R) : m.transpose.block = m.blockᵀ := by
  unfold block
  rw [toMatrix_transpose, Matrix.transpose_submatrix]

theorem block_identity : (identity : Mat4 R).block = 1 := by
  unfold block
  rw [toMatrix_identity, Matrix.submatrix_one _ (Fin.castSucc_injective 3)]

theorem det_block (m : Mat4 R) :
    m.block.det =
      m.r0.x * m.r1.y * m.r2.z - m.r0.x * m.r1.z * m.r2.y
        - m.r0.y * m.r1.x * m.r2.z + m.r0.y * m.r1.z * m.r2.x
        + m.r0.z * m.r1.x * m.r2.y - m.r0.z * m.r1.y * m.r2.x := by
  rw [Matrix.det_fin_three]
  rfl

theorem block_mul {m n : Mat4 R} (last : n.r3 = ⟨0, 0, 0, 1⟩) :
    (m.mul n).block = m.block * n.block := by
  ext i j
  have bare : n.toMatrix (Fin.last 3) j.castSucc = 0 := by
    show n.r3.entries j.castSucc = 0
    rw [last]
    fin_cases j <;> rfl
  unfold block
  rw [Matrix.submatrix_apply, toMatrix_mul, Matrix.mul_apply,
    Fin.sum_univ_castSucc, bare, mul_zero, add_zero]
  rfl

theorem last_mul {m n : Mat4 R} (hm : m.r3 = ⟨0, 0, 0, 1⟩)
    (hn : n.r3 = ⟨0, 0, 0, 1⟩) :
    (m.mul n).r3 = ⟨0, 0, 0, 1⟩ := by
  simp [mul, transpose, Vec4.dotFromZero, hm, hn]

theorem transpose_mul (m n : Mat4 R) :
    (m.mul n).transpose = n.transpose.mul m.transpose := by
  apply toMatrix_injective
  simp only [toMatrix_transpose, toMatrix_mul, Matrix.transpose_mul]

/-- A matrix that turns space and does nothing else. -/
structure Rigid (m : Mat4 R) : Prop where
  last : m.r3 = ⟨0, 0, 0, 1⟩
  column : m.transpose.r3 = ⟨0, 0, 0, 1⟩
  orthogonal : m.transpose.mul m = identity
  det : m.block.det = 1

namespace Rigid

variable {m n : Mat4 R}

theorem mul (hm : m.Rigid) (hn : n.Rigid) : (m.mul n).Rigid := by
  constructor
  · exact last_mul hm.last hn.last
  · rw [transpose_mul]
    exact last_mul hn.column hm.column
  · rw [transpose_mul, Mat4.mul_assoc, ← Mat4.mul_assoc m.transpose,
      hm.orthogonal, identity_mul, hn.orthogonal]
  · rw [block_mul hn.last, Matrix.det_mul, hm.det, hn.det, mul_one]

theorem apply_w (h : m.Rigid) (v : Vec4 R) : (m.apply v).w = v.w := by
  simp [apply, h.last, Vec4.dot]

theorem mul_transpose (h : m.Rigid) : m.mul m.transpose = identity := by
  have undone := congrArg toMatrix h.orthogonal
  rw [toMatrix_mul, toMatrix_identity] at undone
  apply toMatrix_injective
  rw [toMatrix_mul, toMatrix_identity]
  exact mul_eq_one_comm.mp undone

theorem dot_apply (h : m.Rigid) (u v : Vec4 R) :
    (m.apply u).dot (m.apply v) = u.dot v := by
  have undone := congrArg toMatrix h.orthogonal
  rw [toMatrix_mul, toMatrix_identity, toMatrix_transpose] at undone
  simp only [Vec4.dot_eq_dotProduct, entries_apply]
  rw [Matrix.dotProduct_mulVec, ← Matrix.mulVec_transpose, Matrix.mulVec_mulVec,
    undone, Matrix.one_mulVec]

theorem inner_apply (h : m.Rigid) (u v : Vec4 R) :
    (m.apply u).inner (m.apply v) = u.inner v := by
  have whole := h.dot_apply u v
  rw [← Vec4.inner_add_last, ← Vec4.inner_add_last, h.apply_w, h.apply_w]
    at whole
  exact add_right_cancel whole

theorem transpose_block_mul (h : m.Rigid) : m.blockᵀ * m.block = 1 := by
  rw [← block_transpose, ← block_mul h.last, h.orthogonal, block_identity]

end Rigid

/-!
# Rotations about an axis
-/

theorem rotationX_mul (s t : Turn R) :
    (rotationX s).mul (rotationX t) = rotationX (s.comp t) := by
  simp only [mul, transpose, Vec4.dotFromZero, rotationX, Turn.comp, mk.injEq,
    Vec4.mk.injEq]
  refine ⟨?_, ?_, ?_, ?_⟩ <;> exact ⟨by ring, by ring, by ring, by ring⟩

theorem rotationY_mul (s t : Turn R) :
    (rotationY s).mul (rotationY t) = rotationY (s.comp t) := by
  simp only [mul, transpose, Vec4.dotFromZero, rotationY, Turn.comp, mk.injEq,
    Vec4.mk.injEq]
  refine ⟨?_, ?_, ?_, ?_⟩ <;> exact ⟨by ring, by ring, by ring, by ring⟩

theorem rotationZ_mul (s t : Turn R) :
    (rotationZ s).mul (rotationZ t) = rotationZ (s.comp t) := by
  simp only [mul, transpose, Vec4.dotFromZero, rotationZ, Turn.comp, mk.injEq,
    Vec4.mk.injEq]
  refine ⟨?_, ?_, ?_, ?_⟩ <;> exact ⟨by ring, by ring, by ring, by ring⟩

/-- The rotations that turns make about an axis: they multiply as turns do, the
reverse turn transposes, and no turn leaves everything alone. -/
structure AboutAxis (rotation : Turn R -> Mat4 R) : Prop where
  mul : forall s t, (rotation s).mul (rotation t) = rotation (s.comp t)
  transpose : forall t, (rotation t).transpose = rotation t.reverse
  rest : rotation ⟨1, 0⟩ = identity
  last : forall t, (rotation t).r3 = ⟨0, 0, 0, 1⟩
  det : forall t, (rotation t).block.det = t.cos ^ 2 + t.sin ^ 2

theorem aboutAxis_rotationX : AboutAxis (rotationX : Turn R -> Mat4 R) where
  mul := rotationX_mul
  transpose t := by simp [rotationX, Mat4.transpose, Turn.reverse]
  rest := by simp [rotationX, identity]
  last _ := rfl
  det t := by
    rw [det_block]
    unfold rotationX
    ring

theorem aboutAxis_rotationY : AboutAxis (rotationY : Turn R -> Mat4 R) where
  mul := rotationY_mul
  transpose t := by simp [rotationY, Mat4.transpose, Turn.reverse]
  rest := by simp [rotationY, identity]
  last _ := rfl
  det t := by
    rw [det_block]
    unfold rotationY
    ring

theorem aboutAxis_rotationZ : AboutAxis (rotationZ : Turn R -> Mat4 R) where
  mul := rotationZ_mul
  transpose t := by simp [rotationZ, Mat4.transpose, Turn.reverse]
  rest := by simp [rotationZ, identity]
  last _ := rfl
  det t := by
    rw [det_block]
    unfold rotationZ
    ring

theorem AboutAxis.rigid {rotation : Turn R -> Mat4 R}
    (about : AboutAxis rotation) {t : Turn R}
    (circle : t.cos ^ 2 + t.sin ^ 2 = 1) : (rotation t).Rigid where
  last := about.last t
  column := by
    rw [about.transpose]
    exact about.last t.reverse
  orthogonal := by
    rw [about.transpose, about.mul, Turn.reverse_comp circle, about.rest]
  det := (about.det t).trans circle

/-!
# The turns of a projection
-/

section Circular

variable [Scalar R] [Scalar.Circular R]

theorem rigid_turns (rx ry rz : R) :
    (((rotationZ (.of rz)).mul (rotationY (.of ry))).mul
      (rotationX (.of rx)) : Mat4 R).Rigid :=
  ((aboutAxis_rotationZ.rigid (Turn.of_circle rz)).mul
    (aboutAxis_rotationY.rigid (Turn.of_circle ry))).mul
    (aboutAxis_rotationX.rigid (Turn.of_circle rx))

theorem AboutAxis.angles {rotation : Turn R -> Mat4 R}
    (about : AboutAxis rotation) (s t : R) :
    (rotation (.of (-t))).mul (rotation (.of t)) = identity
      ∧ (rotation (.of s)).mul (rotation (.of t)) = rotation (.of (s + t)) := by
  constructor
  · rw [about.mul, Turn.of_neg, Turn.reverse_comp (Turn.of_circle t),
      about.rest]
  · rw [about.mul, Turn.of_add]

/-- The three turns of a projection turn the model and do nothing else, whatever
the angles are: they keep the last component and the dot product of the space
parts of any two vectors, their space part has determinant one, and the
transpose undoes them, all of it as well as its space part.  About each axis the
rotation by the opposite angle undoes a rotation, and two rotations are the one
by the sum of their angles. -/
theorem turns_are_rigid :
    (forall t : R, Turn.ofAngle? t = .ok (.of t))
      ∧ (forall rx ry rz : R,
          let m :=
            ((rotationZ (.of rz)).mul (rotationY (.of ry))).mul
              (rotationX (.of rx))
          (forall v, (m.apply v).w = v.w)
            ∧ (forall u v, (m.apply u).inner (m.apply v) = u.inner v)
            ∧ m.block.det = 1
            ∧ m.blockᵀ * m.block = 1 ∧ m.block * m.blockᵀ = 1
            ∧ m.transpose.mul m = identity ∧ m.mul m.transpose = identity)
      ∧ forall rotation : Turn R -> Mat4 R,
          rotation ∈ [rotationX, rotationY, rotationZ] ->
          forall s t : R,
            (rotation (.of (-t))).mul (rotation (.of t)) = identity
            ∧ (rotation (.of s)).mul (rotation (.of t)) =
              rotation (.of (s + t)) := by
  refine ⟨Turn.ofAngle?_circular, ?_, ?_⟩
  · intro rx ry rz m
    have rigid : m.Rigid := rigid_turns rx ry rz
    exact ⟨rigid.apply_w, rigid.inner_apply, rigid.det,
      rigid.transpose_block_mul, mul_eq_one_comm.mp rigid.transpose_block_mul,
      rigid.orthogonal, rigid.mul_transpose⟩
  · intro rotation listed
    have about : AboutAxis rotation := by
      simp only [List.mem_cons, List.not_mem_nil, or_false] at listed
      rcases listed with rfl | rfl | rfl
      · exact aboutAxis_rotationX
      · exact aboutAxis_rotationY
      · exact aboutAxis_rotationZ
    exact about.angles

end Circular

/-- A quarter turn about the first axis and one about the second: they put a
vector elsewhere and keep its dot product with another one. -/
theorem two_quarter_turns :
    letI := Scalar.reals Real.cos Real.sin
    let m : Mat4 ℝ :=
      ((rotationZ (.of 0)).mul (rotationY (.of (Real.pi / 2)))).mul
        (rotationX (.of (Real.pi / 2)))
    m.apply ⟨1, 2, 3, 4⟩ = ⟨2, -3, -1, 4⟩
      ∧ (m.apply ⟨1, 2, 3, 4⟩).inner (m.apply ⟨3, 0, 1, 0⟩) = 6
      ∧ m.block.det = 1 ∧ m.transpose.mul m = identity
      ∧ (rotationY (.of (-(Real.pi / 2)))).mul (rotationY (.of (Real.pi / 2)))
        = (identity : Mat4 ℝ) := by
  let := Scalar.reals Real.cos Real.sin
  have := Scalar.circular_reals
  intro m
  rcases turns_are_rigid (R := ℝ) with ⟨_, hrigid, haxes⟩
  rcases hrigid (Real.pi / 2) (Real.pi / 2) 0 with
    ⟨_, hinner, hdet, _, _, hundone, _⟩
  have hquarter : Turn.of (Real.pi / 2) = ⟨0, 1⟩ := by
    show (⟨Real.cos (Real.pi / 2), Real.sin (Real.pi / 2)⟩ : Turn ℝ) = _
    rw [Real.cos_pi_div_two, Real.sin_pi_div_two]
  have hrest : Turn.of (0 : ℝ) = ⟨1, 0⟩ :=
    Turn.of_zero Real.cos_zero Real.sin_zero
  refine ⟨?_, ?_, hdet, hundone, ?_⟩
  · simp only [m, apply_mul, hquarter, hrest]
    norm_num [apply, Vec4.dot, rotationX, rotationY, rotationZ]
  · rw [hinner]
    norm_num [Vec4.inner]
  · exact (haxes rotationY (by simp) 0 (Real.pi / 2)).1

end Mat4
end WireView
