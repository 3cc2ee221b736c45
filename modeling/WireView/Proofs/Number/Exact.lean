import Mathlib
import WireView.Scalar

/-!
# Exact arithmetic

Over a field whose half is a half, whose test for zero is right and in which no
number is infinite, nothing is rounded and no angle is refused.  The circular
functions stay open: they may give any cosine and sine to an angle.

The reals with any cosine and sine and with their own tangent are such a field.
-/

namespace WireView

namespace Scalar

class Exact (K : Type) [Field K] [Scalar K] : Prop where
  half_eq : (half : K) = 1 / 2
  isZero_iff (x : K) : isZero x = true ↔ x = 0
  isInfinite_eq (x : K) : isInfinite x = false

/-- The reals with a given cosine and sine. -/
@[reducible] noncomputable def reals (cos sin : ℝ -> ℝ) : Scalar ℝ where
  half := ((1 / 2 : ℚ) : ℝ)
  isZero x := decide (x = 0)
  pole _ := 0
  isInfinite _ := false
  sin := sin
  cos := cos
  tan := Real.tan

theorem exact_reals (cos sin : ℝ -> ℝ) : letI := reals cos sin; Exact ℝ :=
  letI := reals cos sin
  { half_eq := by norm_num [half]
    isZero_iff := fun _ => decide_eq_true_iff
    isInfinite_eq := fun _ => rfl }

variable {K : Type} [Field K] [Scalar K] [Exact K]

theorem isZero_of_ne {x : K} (h : x ≠ 0) : isZero x = false :=
  Bool.eq_false_iff.mpr fun hzero => h ((Exact.isZero_iff x).mp hzero)

theorem divide?_of_ne {a b : K} (h : b ≠ 0) : divide? a b = .ok (a / b) := by
  unfold divide?
  rw [isZero_of_ne h, if_neg Bool.false_ne_true]

theorem tan?_eq (t : K) : tan? t = .ok (tan t) := by
  unfold tan?
  rw [Exact.isInfinite_eq, if_neg Bool.false_ne_true]

theorem reciprocal_of_ne {w : K} (h : w ≠ 0) : reciprocal w = 1 / w := by
  unfold reciprocal
  rw [isZero_of_ne h, if_neg Bool.false_ne_true]

end Scalar

namespace Turn

def of {K : Type} [Scalar K] (angle : K) : Turn K :=
  ⟨Scalar.cos angle, Scalar.sin angle⟩

theorem of_zero {K : Type} [Field K] [Scalar K]
    (cos_zero : Scalar.cos (0 : K) = 1) (sin_zero : Scalar.sin (0 : K) = 0) :
    of (0 : K) = ⟨1, 0⟩ := by
  unfold of
  rw [cos_zero, sin_zero]

structure OnCircle {K : Type} [Field K] (t : Turn K) : Prop where
  squares : t.cos ^ 2 + t.sin ^ 2 = 1

theorem ofAngle?_eq {K : Type} [Field K] [Scalar K] [Scalar.Exact K]
    (angle : K) :
    ofAngle? angle = .ok (of angle) := by
  unfold ofAngle?
  rw [Scalar.Exact.isInfinite_eq, if_neg Bool.false_ne_true]
  rfl

end Turn
end WireView
