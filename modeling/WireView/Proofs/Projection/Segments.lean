import WireView.Proofs.Projection.Pipeline

/-!
# Edges on the screen

An edge in front of the camera is drawn as the straight line between the images
of its ends.  The points of the edge do not lie on that line at the shares that
they have of the edge: nearer parts of it take up more of the line.  The share
on the screen weighs the share of the edge with the depths of its ends.

The weighing is a change of parameter: it stays between nothing and everything,
and exchanging the depths undoes it, so every point of the line is the image of
a point of the edge.
-/

namespace WireView

variable {K : Type} [Field K]

namespace ScreenPoint

def mix (t : K) (p q : ScreenPoint K) : ScreenPoint K :=
  ⟨(1 - t) * p.x + t * q.x, (1 - t) * p.y + t * q.y⟩

end ScreenPoint

namespace Projector

/-!
# Shares
-/

/-- The share on the screen of a share of an edge with the given depths at its
ends. -/
def share (near far t : K) : K :=
  t * far / ((1 - t) * near + t * far)

theorem one_sub_share {a b t : K} (h : (1 - t) * a + t * b ≠ 0) :
    1 - share a b t = (1 - t) * a / ((1 - t) * a + t * b) := by
  unfold share
  rw [eq_div_iff h, sub_mul, div_mul_cancel₀ _ h]
  ring

section ordered

variable [LinearOrder K] [IsStrictOrderedRing K] {a b t : K}

theorem depth_pos (ha : 0 < a) (hb : 0 < b) (low : 0 ≤ t) (high : t ≤ 1) :
    0 < (1 - t) * a + t * b := by
  rcases low.eq_or_lt with rfl | hpos
  · simpa using ha
  · have hfirst : 0 ≤ (1 - t) * a := mul_nonneg (sub_nonneg.mpr high) ha.le
    have hsecond : 0 < t * b := mul_pos hpos hb
    exact add_pos_of_nonneg_of_pos hfirst hsecond

theorem share_nonneg (ha : 0 < a) (hb : 0 < b) (low : 0 ≤ t) (high : t ≤ 1) :
    0 ≤ share a b t :=
  div_nonneg (mul_nonneg low hb.le) (depth_pos ha hb low high).le

theorem share_le_one (ha : 0 < a) (hb : 0 < b) (low : 0 ≤ t) (high : t ≤ 1) :
    share a b t ≤ 1 := by
  have hfirst : 0 ≤ (1 - t) * a := mul_nonneg (sub_nonneg.mpr high) ha.le
  rw [share, div_le_one (depth_pos ha hb low high)]
  exact le_add_of_nonneg_left hfirst

theorem share_share (ha : 0 < a) (hb : 0 < b) (low : 0 ≤ t) (high : t ≤ 1) :
    share a b (share b a t) = t := by
  have hdepth : (1 - t) * b + t * a ≠ 0 := (depth_pos hb ha low high).ne'
  have hweighed :
      (1 - share b a t) * a + share b a t * b =
        a * b / ((1 - t) * b + t * a) := by
    rw [one_sub_share hdepth]
    unfold share
    ring
  have hab : a * b ≠ 0 := (mul_pos ha hb).ne'
  rw [share, hweighed, share, div_mul_eq_mul_div,
    div_div_div_cancel_right₀ hdepth, div_eq_iff hab]
  ring

end ordered

/-!
# The image of a mixture
-/

/-- A mixture divided by the mixture of the divisors is a mixture of the
quotients. -/
theorem div_mix {x x' a b t : K} (ha : a ≠ 0) (hb : b ≠ 0)
    (h : (1 - t) * a + t * b ≠ 0) :
    ((1 - t) * x + t * x') * (1 / ((1 - t) * a + t * b))
      = (1 - share a b t) * (x * (1 / a)) + share a b t * (x' * (1 / b)) := by
  rw [one_sub_share h, share]
  field_simp

variable [Scalar K]

theorem viewport_mix (c : ProjectionConfig K) (t x y x' y' : K) :
    c.viewport ((1 - t) * x + t * x') ((1 - t) * y + t * y')
      = .mix t (c.viewport x y) (c.viewport x' y') := by
  unfold ProjectionConfig.viewport ScreenPoint.mix
  dsimp only
  congr 1 <;> ring

theorem divisor_mix (p : Projector K) (rx ry rz t : K) (u v : Vec4 K) :
    p.divisor rx ry rz (.mix t u v)
      = (1 - t) * p.divisor rx ry rz u + t * p.divisor rx ry rz v := by
  unfold divisor
  rw [carry_mix]
  rfl

variable [Scalar.Exact K]

theorem image_mix (p : Projector K) {rx ry rz t : K} {u v : Vec4 K}
    (hu : p.divisor rx ry rz u ≠ 0) (hv : p.divisor rx ry rz v ≠ 0)
    (h : p.divisor rx ry rz (.mix t u v) ≠ 0) :
    p.image rx ry rz (.mix t u v)
      = .mix (share (p.divisor rx ry rz u) (p.divisor rx ry rz v) t)
        (p.image rx ry rz u) (p.image rx ry rz v) := by
  rw [image_eq p h, image_eq p hu, image_eq p hv, carry_mix, ← viewport_mix]
  rw [divisor_mix] at h ⊢
  unfold Vec4.mix
  rw [div_mix hu hv h, div_mix hu hv h]

variable [LinearOrder K] [IsStrictOrderedRing K]

/-- The image of an edge whose ends are divided by positive numbers is the line
between the images of its ends: a point of the edge goes to the point of the
line at the weighed share, which is a share, and every share is the weighed
share of some point of the edge. -/
theorem edge_projects_to_segment (p : Projector K) (rx ry rz : K) {u v : Vec4 K}
    (hu : 0 < p.divisor rx ry rz u) (hv : 0 < p.divisor rx ry rz v) :
    exists a b, p.project? u rx ry rz = .ok a ∧ p.project? v rx ry rz = .ok b
      ∧ (forall t, 0 ≤ t -> t ≤ 1 ->
          let s := t * p.divisor rx ry rz v
            / ((1 - t) * p.divisor rx ry rz u + t * p.divisor rx ry rz v)
          0 ≤ s ∧ s ≤ 1 ∧ p.project? (.mix t u v) rx ry rz = .ok (.mix s a b))
      ∧ (forall s, 0 ≤ s -> s ≤ 1 -> exists t, 0 ≤ t ∧ t ≤ 1
          ∧ t * p.divisor rx ry rz v
            / ((1 - t) * p.divisor rx ry rz u + t * p.divisor rx ry rz v) = s)
      ∧ forall q,
          (exists t, 0 ≤ t ∧ t ≤ 1 ∧ p.project? (.mix t u v) rx ry rz = .ok q)
          ↔ exists s, 0 ≤ s ∧ s ≤ 1 ∧ q = .mix s a b := by
  have hpoint : forall t, 0 ≤ t -> t ≤ 1 -> p.project? (.mix t u v) rx ry rz =
      .ok (.mix (share (p.divisor rx ry rz u) (p.divisor rx ry rz v) t)
        (p.image rx ry rz u) (p.image rx ry rz v)) := by
    intro t low high
    have hmixed : p.divisor rx ry rz (.mix t u v) ≠ 0 := by
      rw [divisor_mix]
      exact (depth_pos hu hv low high).ne'
    rw [project?_eq, image_mix p hu.ne' hv.ne' hmixed]
  have honto : forall s, 0 ≤ s -> s ≤ 1 -> exists t, 0 ≤ t ∧ t ≤ 1
      ∧ share (p.divisor rx ry rz u) (p.divisor rx ry rz v) t = s :=
        fun s low high =>
    ⟨_, share_nonneg hv hu low high, share_le_one hv hu low high,
     share_share hu hv low high⟩
  refine ⟨_, _, project?_eq p u rx ry rz, project?_eq p v rx ry rz, ?_, honto,
    fun q => ⟨?_, ?_⟩⟩
  · intro t low high
    exact ⟨share_nonneg hu hv low high, share_le_one hu hv low high,
      hpoint t low high⟩
  · rintro ⟨t, low, high, hq⟩
    rw [hpoint t low high] at hq
    exact ⟨_, share_nonneg hu hv low high, share_le_one hu hv low high,
      (Except.ok.inj hq).symm⟩
  · rintro ⟨s, low, high, rfl⟩
    rcases honto s low high with ⟨t, tlow, thigh, rfl⟩
    exact ⟨t, tlow, thigh, hpoint t tlow thigh⟩

/-- Half way along an edge that leads away from the camera, two thirds of its
line are done. -/
theorem half_of_receding_edge :
    letI := Scalar.reals Real.cos Real.sin
    let p := Lens.projector Lens.standard
    let near : Vec4 ℝ := .point (-1) (-1) (-1)
    let far : Vec4 ℝ := .point (-1) (-1) 1
    p.divisor 0 0 0 near = 2 ∧ p.divisor 0 0 0 far = 4
      ∧ exists a b, p.project? near 0 0 0 = .ok a ∧ p.project? far 0 0 0 = .ok b
        ∧ p.project? (.point (-1) (-1) 0) 0 0 0 = .ok (.mix (2 / 3) a b) := by
  let := Scalar.reals Real.cos Real.sin
  have := Scalar.exact_reals Real.cos Real.sin
  intro p near far
  have hrest : Turn.of (0 : ℝ) = ⟨1, 0⟩ :=
    Turn.of_zero Real.cos_zero Real.sin_zero
  have hnear : p.divisor 0 0 0 near = 2 := by
    rw [divisor_projector, hrest]
    norm_num [Mat4.turned, Mat4.apply_rotationX, Mat4.apply_rotationY,
      Mat4.apply_rotationZ, Lens.standard, near, Vec4.point]
  have hfar : p.divisor 0 0 0 far = 4 := by
    rw [divisor_projector, hrest]
    norm_num [Mat4.turned, Mat4.apply_rotationX, Mat4.apply_rotationY,
      Mat4.apply_rotationZ, Lens.standard, far, Vec4.point]
  rcases edge_projects_to_segment p 0 0 0 (u := near) (v := far)
    (by rw [hnear]; norm_num)
    (by rw [hfar]; norm_num) with ⟨a, b, ha, hb, hpoint, _⟩
  have hhalf := (hpoint (1 / 2) (by norm_num) (by norm_num)).2.2
  have hmiddle : Vec4.mix (1 / 2) near far = .point (-1) (-1) 0 := by
    norm_num [Vec4.mix, near, far, Vec4.point]
  have hshare : (1 / 2 : ℝ) * 4 / ((1 - 1 / 2) * 2 + 1 / 2 * 4) = 2 / 3 := by
    norm_num
  rw [hnear, hfar, hmiddle, hshare] at hhalf
  exact ⟨hnear, hfar, a, b, ha, hb, hhalf⟩

end Projector
end WireView
