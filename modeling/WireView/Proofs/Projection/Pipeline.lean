import WireView.Proofs.Number.Exact
import WireView.Proofs.Projection.Batch
import WireView.Projection.Projector

/-!
# The pipeline in exact arithmetic

Without rounding each stage of a projection is a linear map.  Turns about the
axes keep the last component and, on the circle, the distance from the origin;
the camera adds its distance to the depth; the perspective scales the first two
components and divides by the depth.

So a point is carried to a vector that is linear in the point, and what is left
on the screen is, measured from the centre, a multiple of the turned point over
its depth. Single points and batches come out alike.
-/

namespace WireView

variable {K : Type} [Field K]

namespace Vec4

def norm2 (v : Vec4 K) : K :=
  v.x ^ 2 + v.y ^ 2 + v.z ^ 2

def mix (t : K) (u v : Vec4 K) : Vec4 K :=
  ⟨(1 - t) * u.x + t * v.x, (1 - t) * u.y + t * v.y, (1 - t) * u.z + t * v.z,
    (1 - t) * u.w + t * v.w⟩

theorem dot_mix (r : Vec4 K) (t : K) (u v : Vec4 K) :
    r.dot (mix t u v) = (1 - t) * r.dot u + t * r.dot v := by
  unfold dot mix
  ring

theorem dotFromZero_eq (u v : Vec4 K) : u.dotFromZero v = u.dot v := by
  unfold dotFromZero dot
  rw [zero_add]

end Vec4

namespace Mat4

/-!
# Stages
-/

theorem apply_mix (m : Mat4 K) (t : K) (u v : Vec4 K) :
    m.apply (.mix t u v) = .mix t (m.apply u) (m.apply v) := by
  unfold apply
  simp only [Vec4.dot_mix]
  rfl

theorem applyFromZero_eq (m : Mat4 K) : m.applyFromZero = m.apply := by
  funext v
  unfold applyFromZero apply
  simp only [Vec4.dotFromZero_eq]

theorem apply_rotationX (t : Turn K) (v : Vec4 K) :
    (rotationX t).apply v
      = ⟨v.x, t.cos * v.y - t.sin * v.z, t.sin * v.y + t.cos * v.z, v.w⟩ := by
  simp only [apply, Vec4.dot, rotationX, Vec4.mk.injEq]
  exact ⟨by ring, by ring, by ring, by ring⟩

theorem apply_rotationY (t : Turn K) (v : Vec4 K) :
    (rotationY t).apply v
      = ⟨t.cos * v.x + t.sin * v.z, v.y, t.cos * v.z - t.sin * v.x, v.w⟩ := by
  simp only [apply, Vec4.dot, rotationY, Vec4.mk.injEq]
  exact ⟨by ring, by ring, by ring, by ring⟩

theorem apply_rotationZ (t : Turn K) (v : Vec4 K) :
    (rotationZ t).apply v
      = ⟨t.cos * v.x - t.sin * v.y, t.sin * v.x + t.cos * v.y, v.z, v.w⟩ := by
  simp only [apply, Vec4.dot, rotationZ, Vec4.mk.injEq]
  exact ⟨by ring, by ring, by ring, by ring⟩

theorem apply_translation (d : K) (v : Vec4 K) :
    (translation 0 0 d).apply v = ⟨v.x, v.y, v.z + d * v.w, v.w⟩ := by
  simp only [apply, Vec4.dot, translation, Vec4.mk.injEq]
  exact ⟨by ring, by ring, by ring, by ring⟩

theorem norm2_rotationX {t : Turn K} (circle : t.OnCircle) (v : Vec4 K) :
    ((rotationX t).apply v).norm2 = v.norm2 := by
  rw [apply_rotationX]
  unfold Vec4.norm2
  linear_combination (v.y ^ 2 + v.z ^ 2) * circle.squares

theorem norm2_rotationY {t : Turn K} (circle : t.OnCircle) (v : Vec4 K) :
    ((rotationY t).apply v).norm2 = v.norm2 := by
  rw [apply_rotationY]
  unfold Vec4.norm2
  linear_combination (v.x ^ 2 + v.z ^ 2) * circle.squares

theorem norm2_rotationZ {t : Turn K} (circle : t.OnCircle) (v : Vec4 K) :
    ((rotationZ t).apply v).norm2 = v.norm2 := by
  rw [apply_rotationZ]
  unfold Vec4.norm2
  linear_combination (v.x ^ 2 + v.y ^ 2) * circle.squares

def turned (tx ty tz : Turn K) (v : Vec4 K) : Vec4 K :=
  (rotationZ tz).apply ((rotationY ty).apply ((rotationX tx).apply v))

theorem turned_w (tx ty tz : Turn K) (v : Vec4 K) :
    (turned tx ty tz v).w = v.w := by
  unfold turned
  rw [apply_rotationZ, apply_rotationY, apply_rotationX]

theorem turned_rest (v : Vec4 K) : turned ⟨1, 0⟩ ⟨1, 0⟩ ⟨1, 0⟩ v = v := by
  simp only [turned, apply_rotationX, apply_rotationY, apply_rotationZ, one_mul,
    zero_mul, add_zero, sub_zero, zero_add]

theorem norm2_turned {tx ty tz : Turn K} (hx : tx.OnCircle) (hy : ty.OnCircle)
    (hz : tz.OnCircle) (v : Vec4 K) : (turned tx ty tz v).norm2 = v.norm2 := by
  unfold turned
  rw [norm2_rotationZ hz, norm2_rotationY hy, norm2_rotationX hx]

end Mat4

/-!
# Projectors made of settings
-/

namespace Lens

variable [Scalar K]

def focal (c : ProjectionConfig K) : K :=
  1 / Scalar.tan (c.fov * Scalar.half)

def matrix (c : ProjectionConfig K) : Mat4 K :=
  ⟨⟨c.height / c.width * focal c, 0, 0, 0⟩, ⟨0, focal c, 0, 0⟩,
    ⟨0, 0, c.zFar / (c.zFar - c.zNear), -c.zFar * c.zNear / (c.zFar - c.zNear)⟩,
    ⟨0, 0, 1, 0⟩⟩

structure Proper (c : ProjectionConfig K) : Prop where
  width : c.width ≠ 0
  tangent : Scalar.tan (c.fov * Scalar.half) ≠ 0
  depth : c.zFar ≠ c.zNear

def projector (c : ProjectionConfig K) : Projector K :=
  ⟨c, c.camera, matrix c⟩

theorem Proper.perspective?_eq [Scalar.Exact K] {c : ProjectionConfig K}
    (h : Proper c) :
    c.perspective? = .ok (matrix c) := by
  have hdepth : c.zFar - c.zNear ≠ 0 := sub_ne_zero.mpr h.depth
  unfold ProjectionConfig.perspective? Mat4.perspective?
  rw [Scalar.divide?_of_ne h.width, Scalar.tan?_eq]
  dsimp only [bind, Except.bind]
  rw [Scalar.divide?_of_ne h.tangent, Scalar.divide?_of_ne hdepth,
    Scalar.divide?_of_ne hdepth]
  rfl

theorem Proper.ofConfig?_eq [Scalar.Exact K] {c : ProjectionConfig K}
    (h : Proper c) :
    Projector.ofConfig? c = .ok (projector c) := by
  unfold Projector.ofConfig?
  rw [h.perspective?_eq]
  rfl

/-- The turned point with its first two components scaled, over its depth from
the camera. -/
theorem carry_projector (c : ProjectionConfig K) (tx ty tz : Turn K)
    (v : Vec4 K) :
    let u := Mat4.turned tx ty tz v
    let q := (projector c).carry tx ty tz v
    q.x = c.height / c.width * focal c * u.x ∧ q.y = focal c * u.y
      ∧ q.w = u.z + c.cameraDistance * u.w := by
  intro u q
  have hq :
      q = (matrix c).apply ⟨u.x, u.y, u.z + c.cameraDistance * u.w, u.w⟩ := by
    rw [← Mat4.apply_translation]
    rfl
  rw [hq]
  simp only [Mat4.apply, matrix, Vec4.dot]
  exact ⟨by ring, by ring, by ring⟩

noncomputable def standard : ProjectionConfig ℝ :=
  ⟨480, 360, Real.pi / 2, 1 / 10, 1000, 3⟩

section standard

variable [Scalar ℝ] [Scalar.Exact ℝ]
  (tangent : forall t : ℝ, Scalar.tan t = Real.tan t)

include tangent

theorem tan_standard : Scalar.tan (standard.fov * Scalar.half) = 1 := by
  have hhalf : standard.fov * Scalar.half = Real.pi / 4 := by
    rw [Scalar.Exact.half_eq]
    show Real.pi / 2 * (1 / 2) = Real.pi / 4
    ring
  rw [tangent, hhalf, Real.tan_pi_div_four]

theorem proper_standard : Proper standard := by
  refine ⟨by norm_num [standard], ?_, by norm_num [standard]⟩
  rw [tan_standard tangent]
  exact one_ne_zero

end standard

end Lens

namespace Projector

theorem carry_mix (p : Projector K) (tx ty tz : Turn K) (t : K) (u v : Vec4 K) :
    p.carry tx ty tz (.mix t u v) =
      .mix t (p.carry tx ty tz u) (p.carry tx ty tz v) := by
  unfold carry
  simp only [Mat4.apply_mix]

/-!
# Where points go
-/

variable [Scalar K]

/-- What a point is divided by. -/
def divisor (p : Projector K) (rx ry rz : K) (v : Vec4 K) : K :=
  (p.carry (.of rx) (.of ry) (.of rz) v).w

def image (p : Projector K) (rx ry rz : K) (v : Vec4 K) : ScreenPoint K :=
  p.projectTurned (.of rx) (.of ry) (.of rz) v

theorem divisor_projector (c : ProjectionConfig K) (rx ry rz : K) (v : Vec4 K) :
    (Lens.projector c).divisor rx ry rz v
      = (Mat4.turned (.of rx) (.of ry) (.of rz) v).z + c.cameraDistance *
        v.w := by
  rw [← Mat4.turned_w (.of rx) (.of ry) (.of rz) v]
  exact (Lens.carry_projector c _ _ _ v).2.2

variable [Scalar.Exact K]

theorem project?_eq (p : Projector K) (v : Vec4 K) (rx ry rz : K) :
    p.project? v rx ry rz = .ok (p.image rx ry rz v) := by
  unfold project?
  simp only [Turn.ofAngle?_eq]
  rfl

theorem image_eq (p : Projector K) {rx ry rz : K} {v : Vec4 K}
    (divides : p.divisor rx ry rz v ≠ 0) :
    let q := p.carry (.of rx) (.of ry) (.of rz) v
    let w := p.divisor rx ry rz v
    p.image rx ry rz v = p.config.viewport (q.x * (1 / w)) (q.y * (1 / w)) := by
  unfold divisor at divides ⊢
  show p.toScreen _ = _
  unfold toScreen
  rw [Scalar.reciprocal_of_ne divides]

theorem projectAll?_eq (p : Projector K) {vs : List (Vec4 K)} {rx ry rz : K}
    (divides : forall v, v ∈ vs -> p.divisor rx ry rz v ≠ 0) :
    p.projectAll? vs rx ry rz = .ok (vs.map (p.image rx ry rz)) := by
  unfold projectAll?
  simp only [Turn.ofAngle?_eq, Mat4.applyFromZero_eq]
  show Except.ok _ = _
  rw [foldl_maps, List.map_map]
  refine congrArg Except.ok (List.map_congr_left fun v hv => ?_)
  rw [image_eq p (divides v hv)]
  rfl

/-- Measured from the centre of the screen, a point goes to a multiple of the
turned point over its depth from the camera. -/
theorem image_projector (c : ProjectionConfig K) {rx ry rz : K} {v : Vec4 K}
    (divides : (Lens.projector c).divisor rx ry rz v ≠ 0) :
    let u := Mat4.turned (.of rx) (.of ry) (.of rz) v
    let w := (Lens.projector c).divisor rx ry rz v
    let s := (Lens.projector c).image rx ry rz v
    s.x - c.width / 2 =
      c.height / c.width * Lens.focal c * (c.width / 2) * (u.x / w)
      ∧ s.y - c.height / 2 = Lens.focal c * (c.height / 2) * (u.y / w) := by
  intro u w s
  rcases Lens.carry_projector c (.of rx) (.of ry) (.of rz) v with ⟨hx, hy, _⟩
  have hs : s = c.viewport (c.height / c.width * Lens.focal c * u.x * (1 / w))
      (Lens.focal c * u.y * (1 / w)) := by
    rw [← hx, ← hy]
    exact image_eq _ divides
  rw [hs]
  simp only [ProjectionConfig.viewport, Scalar.Exact.half_eq]
  exact ⟨by ring, by ring⟩

end Projector
end WireView
