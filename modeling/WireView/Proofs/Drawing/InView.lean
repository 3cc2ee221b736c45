import WireView.Proofs.Drawing.Wireframes
import WireView.Proofs.Projection.Pipeline

/-!
# What is always in view

A ball about the origin that does not reach the camera stays in front of it
however it is turned: turns keep the distance from the origin, so the depth of a
point differs from the distance of the camera by no more than the radius.  Seen
from the camera the ball fills a cone, and the sight of any of its points is no
steeper than the side of that cone.

The corners of the cube are in such a ball.  At the standard settings its cone
is within the canvas, so everything of the cube is drawn.
-/

namespace WireView

structure ScreenPoint.Inside (c : ProjectionConfig ℝ) (s : ScreenPoint ℝ) :
    Prop where
  left : 0 < s.x
  right : s.x < c.width
  top : 0 < s.y
  bottom : s.y < c.height

namespace Projector

section ordered

variable {K : Type} [Field K] [LinearOrder K] [IsStrictOrderedRing K]

/-- The sight of a point of a disk is no steeper than the line that touches the
disk. -/
theorem sight_bound {x z r d : K} (inside : x ^ 2 + z ^ 2 ≤ r ^ 2) (hr : 0 ≤ r)
    (hd : r < d) (hw : 0 < z + d) :
    (x / (z + d)) ^ 2 * (d ^ 2 - r ^ 2) ≤ r ^ 2 := by
  have hgap : 0 ≤ d ^ 2 - r ^ 2 := sub_nonneg.mpr (pow_le_pow_left₀ hr hd.le 2)
  have hx : x ^ 2 ≤ r ^ 2 - z ^ 2 := le_sub_right_of_add_le inside
  have hcross : x ^ 2 * (d ^ 2 - r ^ 2) ≤ r ^ 2 * (z + d) ^ 2 :=
    calc x ^ 2 * (d ^ 2 - r ^ 2) ≤ (r ^ 2 - z ^ 2) * (d ^ 2 - r ^ 2) :=
          mul_le_mul_of_nonneg_right hx hgap
      -- the two sides meet where the line touches, at `r ^ 2 + z * d = 0`
      _ = r ^ 2 * (z + d) ^ 2 - (r ^ 2 + z * d) ^ 2 := by ring
      _ ≤ r ^ 2 * (z + d) ^ 2 := sub_le_self _ (sq_nonneg _)
  rw [div_pow, div_mul_eq_mul_div, div_le_iff₀ (pow_pos hw 2)]
  exact hcross

theorem scaled_sight_bound {k t g q : K} (h : t ^ 2 * g ≤ q) :
    (k * t) ^ 2 * g ≤ k ^ 2 * q := by
  rw [mul_pow, mul_assoc]
  exact mul_le_mul_of_nonneg_left h (sq_nonneg k)

variable [Scalar K] (circle : forall t : K, (Turn.of t).OnCircle)
  {c : ProjectionConfig K} {v : Vec4 K} {r : K} (point : v.w = 1)
  (inside : v.norm2 ≤ r ^ 2) (hr : 0 ≤ r)

include circle point inside hr

theorem divisor_near (rx ry rz : K) :
    c.cameraDistance - r ≤ (Lens.projector c).divisor rx ry rz v
      ∧ (Lens.projector c).divisor rx ry rz v ≤ c.cameraDistance + r := by
  rw [← Mat4.norm2_turned (circle rx) (circle ry) (circle rz)] at inside
  rw [divisor_projector, point, mul_one]
  generalize Mat4.turned (.of rx) (.of ry) (.of rz) v = u at inside ⊢
  have hz : u.z ^ 2 ≤ r ^ 2 := by
    unfold Vec4.norm2 at inside
    linarith [sq_nonneg u.x, sq_nonneg u.y]
  rcases abs_le_of_sq_le_sq' hz hr with ⟨hlow, hhigh⟩
  constructor <;> linarith

variable (hd : r < c.cameraDistance)

include hd

theorem divisor_pos (rx ry rz : K) :
    0 < (Lens.projector c).divisor rx ry rz v :=
  lt_of_lt_of_le (sub_pos.mpr hd)
    (divisor_near circle point inside hr rx ry rz).1

theorem image_near [Scalar.Exact K] (rx ry rz : K) :
    let s := (Lens.projector c).image rx ry rz v
    let d := c.cameraDistance
    (s.x - c.width / 2) ^ 2 * (d ^ 2 - r ^ 2)
        ≤ (c.height / c.width * Lens.focal c * (c.width / 2)) ^ 2 * r ^ 2
      ∧ (s.y - c.height / 2) ^ 2 * (d ^ 2 - r ^ 2) ≤
        (Lens.focal c * (c.height / 2)) ^ 2 * r ^ 2 := by
  intro s d
  have hpos := divisor_pos circle point inside hr hd rx ry rz
  rcases image_projector c hpos.ne' with ⟨hx, hy⟩
  rw [hx, hy]
  rw [← Mat4.norm2_turned (circle rx) (circle ry) (circle rz)] at inside
  rw [divisor_projector, point, mul_one] at hpos ⊢
  generalize Mat4.turned (.of rx) (.of ry) (.of rz) v = u at inside hpos ⊢
  unfold Vec4.norm2 at inside
  have hxz : u.x ^ 2 + u.z ^ 2 ≤ r ^ 2 := by linarith [sq_nonneg u.y]
  have hyz : u.y ^ 2 + u.z ^ 2 ≤ r ^ 2 := by linarith [sq_nonneg u.x]
  exact ⟨scaled_sight_bound (sight_bound hxz hr hd hpos),
    scaled_sight_bound (sight_bound hyz hr hd hpos)⟩

end ordered

/-!
# The cube at the standard settings
-/

theorem cube_in_ball {K : Type} [Field K] {v : Vec4 K}
    (hv : v ∈ Wireframe.cube.vertices) :
    v.w = 1 ∧ v.norm2 = 3 := by
  fin_cases hv <;> norm_num [Vec4.point, Vec4.norm2]

theorem between_of_sq {x b : ℝ} (hb : 0 ≤ b)
    (h : (x - b / 2) ^ 2 < (b / 2) ^ 2) :
    0 < x ∧ x < b := by
  rcases abs_lt_of_sq_lt_sq' h (by positivity) with ⟨hlow, hhigh⟩
  constructor <;> linarith

section standard

variable [Scalar ℝ] [Scalar.Exact ℝ]
  (circle : forall t : ℝ, (Turn.of t).OnCircle)
  (tangent : forall t : ℝ, Scalar.tan t = Real.tan t)

include circle tangent

theorem cube_on_canvas {v : Vec4 ℝ} (hv : v ∈ Wireframe.cube.vertices)
    (rx ry rz : ℝ) :
    let p := Lens.projector Lens.standard
    let s := p.image rx ry rz v
    p.divisor rx ry rz v ≠ 0 ∧ s.Inside Lens.standard := by
  intro p s
  rcases cube_in_ball hv with ⟨hw, hnorm⟩
  have hinside : v.norm2 ≤ (2 : ℝ) ^ 2 := by
    rw [hnorm]
    norm_num
  have hd : (2 : ℝ) < Lens.standard.cameraDistance := by
    norm_num [Lens.standard]
  have hfocal : Lens.focal Lens.standard = (1 : ℝ) := by
    rw [Lens.focal, Lens.tan_standard tangent, one_div_one]
  have hnear := image_near circle hw hinside zero_le_two hd rx ry rz
  rw [hfocal] at hnear
  rcases hnear with ⟨hx, hy⟩
  have hx :
      (s.x - 480 / 2) ^ 2 * (3 ^ 2 - 2 ^ 2) ≤
        (360 / 480 * 1 * (480 / 2)) ^ 2 * 2 ^ 2 := hx
  have hy :
      (s.y - 360 / 2) ^ 2 * (3 ^ 2 - 2 ^ 2) ≤ (1 * (360 / 2)) ^ 2 * 2 ^ 2 := hy
  rcases between_of_sq (x := s.x) (b := 480) (by norm_num) (by linarith) with
    ⟨hleft, hright⟩
  rcases between_of_sq (x := s.y) (b := 360) (by norm_num) (by linarith) with
    ⟨htop, hbottom⟩
  exact ⟨(divisor_pos circle hw hinside zero_le_two hd rx ry rz).ne', hleft,
    hright, htop, hbottom⟩

end standard

end Projector

/-!
# Drawing at exact coordinates
-/

noncomputable instance : Coordinate ℝ where
  isBelow limit x := decide (|x| < limit)
  round x := .ok (Number.nearest x)

theorem denotes_some : Denotes (some : ℝ -> Option ℝ) where
  isBelow_iff limit x := by simp [Coordinate.isBelow]
  round_eq h := by
    cases h
    rfl

theorem abs_lt_limit {x b : ℝ} (pos : 0 < x) (below : x < b) (small : b ≤ 480) :
    |x| < ScreenPoint.coordinateLimit := by
  rw [abs_of_pos pos]
  norm_num [ScreenPoint.coordinateLimit]
  linarith

theorem ScreenPoint.Inside.mark {s : ScreenPoint ℝ}
    (h : s.Inside Lens.standard) :
    (s.mark? (some : ℝ -> Option ℝ)).isSome = true := by
  have hx := abs_lt_limit h.left h.right (by norm_num [Lens.standard])
  have hy := abs_lt_limit h.top h.bottom (by norm_num [Lens.standard])
  exact Option.isSome_iff_exists.mpr
    ⟨_, ScreenPoint.mark?_eq_some.mpr ⟨s.x, s.y, rfl, rfl, hx, hy, rfl⟩⟩

namespace Easel

open Projector

theorem perform_cube {ps : List (ScreenPoint ℝ)}
    (corners : ps.length = (Wireframe.cube : Wireframe ℝ).vertices.length)
    (canvas : forall s, s ∈ ps -> s.Inside Lens.standard) (e : Easel) :
    exists strokes : List Stroke, strokes.length = 12 + 8
      ∧ (drawProjected ps (Wireframe.cube : Wireframe ℝ).edges).perform e
        = ({ e with record := (strokes.map .stroke).reverse ++ e.record },
          .ok ()) := by
  have hends := isSome_ends corners
    (show forall edge, edge ∈ (Wireframe.cube : Wireframe ℝ).edges ->
      (-8 ≤ edge.1 ∧ edge.1 < 8) ∧ (-8 ≤ edge.2 ∧ edge.2 < 8) by decide)
  have hnone :
      undrawn (some : ℝ -> Option ℝ) ps (Wireframe.cube : Wireframe ℝ).edges =
        0 :=
    undrawn_eq_zero hends fun s hs => (canvas s hs).mark
  refine ⟨strokesFor (some : ℝ -> Option ℝ) ps
    (Wireframe.cube : Wireframe ℝ).edges, ?_, ?_⟩
  · have hcount := length_strokesFor_add_undrawn (some : ℝ -> Option ℝ) ps
      (Wireframe.cube : Wireframe ℝ).edges
    rw [hnone, corners] at hcount
    exact hcount
  · rw [perform_drawProjected denotes_some hends, hnone]
    rfl

/-- In exact arithmetic, whatever the turns are: a point that is nearer to the
origin than the camera is divided by a positive number, which differs from the
distance of the camera by no more than the distance of the point, and goes to a
bounded part of the screen.  At the standard settings the corners of the cube go
strictly inside the canvas, and drawing the cube makes a stroke for each of its
edges and corners. -/
theorem nearer_than_camera_in_view [Scalar ℝ] [Scalar.Exact ℝ]
    (circle : forall t : ℝ, Scalar.cos t ^ 2 + Scalar.sin t ^ 2 = 1)
    (tangent : forall t : ℝ, Scalar.tan t = Real.tan t) :
    (forall c : ProjectionConfig ℝ,
      c.width ≠ 0 -> Real.tan (c.fov / 2) ≠ 0 -> c.zFar ≠ c.zNear ->
      exists p, ofConfig? c = .ok p
        ∧ forall x y z r rx ry rz : ℝ,
          x ^ 2 + y ^ 2 + z ^ 2 ≤ r ^ 2 -> 0 ≤ r -> r < c.cameraDistance ->
          let d := c.cameraDistance
          let a := c.height / c.width
          let f := 1 / Real.tan (c.fov / 2)
          let w := p.divisor rx ry rz (.point x y z)
          d - r ≤ w ∧ w ≤ d + r ∧ 0 < w ∧ Scalar.isZero w = false
            ∧ exists s, p.project? (.point x y z) rx ry rz = .ok s
              ∧ (s.x - c.width / 2) ^ 2 * (d ^ 2 - r ^ 2) ≤
                (a * f * c.width / 2) ^ 2 * r ^ 2
              ∧ (s.y - c.height / 2) ^ 2 * (d ^ 2 - r ^ 2) ≤
                (f * c.height / 2) ^ 2 * r ^ 2)
    ∧ exists p, ofConfig? Lens.standard = .ok p
      ∧ forall rx ry rz, exists ps,
        p.projectAll? Wireframe.cube.vertices rx ry rz = .ok ps
        ∧ Wireframe.cube.vertices.map (fun v => p.project? v rx ry rz) =
          ps.map .ok
        ∧ (forall s, s ∈ ps -> s.Inside Lens.standard)
        ∧ forall e : Easel, exists strokes : List Stroke,
          strokes.length = 12 + 8
          ∧ (drawProjected ps (Wireframe.cube : Wireframe ℝ).edges).perform e
            = ({ e with record := (strokes.map .stroke).reverse ++ e.record },
              .ok ()) := by
  have hcircle : forall t : ℝ, (Turn.of t).OnCircle := fun t => ⟨circle t⟩
  constructor
  · intro c width opening depth
    have hfov : Scalar.tan (c.fov * Scalar.half) = Real.tan (c.fov / 2) := by
      rw [tangent, Scalar.Exact.half_eq, mul_one_div]
    have hproper : Lens.Proper c := ⟨width, by rwa [hfov], depth⟩
    refine ⟨_, hproper.ofConfig?_eq, fun x y z r rx ry rz inside hr hd => ?_⟩
    have hnear :=
      divisor_near hcircle (c := c) (v := .point x y z) rfl inside hr rx ry rz
    have hpos :=
      divisor_pos hcircle (c := c) (v := .point x y z) rfl inside hr hd rx ry rz
    have hfocal : Lens.focal c = 1 / Real.tan (c.fov / 2) := by
      rw [Lens.focal, hfov]
    have hscreen :=
      image_near hcircle (v := .point x y z) rfl inside hr hd rx ry rz
    rw [hfocal, ← mul_div_assoc _ c.width, ← mul_div_assoc _ c.height]
      at hscreen
    exact ⟨hnear.1, hnear.2, hpos, Scalar.isZero_of_ne hpos.ne', _,
      project?_eq _ _ rx ry rz, hscreen⟩
  · refine ⟨_, (Lens.proper_standard tangent).ofConfig?_eq, fun rx ry rz => ?_⟩
    have hcube :=
      fun v (hv : v ∈ Wireframe.cube.vertices) =>
        cube_on_canvas hcircle tangent hv rx ry rz
    have hcanvas : forall s, s ∈ Wireframe.cube.vertices.map
        ((Lens.projector Lens.standard).image rx ry rz) ->
          s.Inside Lens.standard := by
      intro s hs
      rcases List.mem_map.mp hs with ⟨v, hv, rfl⟩
      exact (hcube v hv).2
    refine ⟨_, projectAll?_eq _ fun v hv => (hcube v hv).1, ?_, hcanvas,
      perform_cube (List.length_map _) hcanvas⟩
    rw [List.map_map]
    exact List.map_congr_left fun v _ => project?_eq _ v rx ry rz

/-- A point at a distance of one, turned upright a quarter. -/
theorem quarter_turn_in_view :
    letI := Scalar.reals Real.cos Real.sin
    let v : Vec4 ℝ := .point 0 1 0
    exists p s,
      ofConfig? Lens.standard = .ok p ∧ p.project? v (Real.pi / 2) 0 0 = .ok s
      ∧ 2 ≤ p.divisor (Real.pi / 2) 0 0 v ∧ p.divisor (Real.pi / 2) 0 0 v ≤ 4
      ∧ (s.x - 240) ^ 2 * 8 ≤ 180 ^ 2 ∧ (s.y - 180) ^ 2 * 8 ≤ 180 ^ 2 := by
  let := Scalar.reals Real.cos Real.sin
  have := Scalar.exact_reals Real.cos Real.sin
  intro v
  have hproper : Lens.Proper Lens.standard := Lens.proper_standard fun _ => rfl
  have htan : Real.tan (Lens.standard.fov / 2) = 1 := by
    rw [← Real.tan_pi_div_four]
    exact congrArg Real.tan (by norm_num [Lens.standard]; ring)
  rcases (nearer_than_camera_in_view Real.cos_sq_add_sin_sq fun _ => rfl).1
    Lens.standard hproper.width
    (by rw [htan]; exact one_ne_zero) hproper.depth with ⟨p, hp, hview⟩
  rcases hview 0 1 0 1 (Real.pi / 2) 0 0 (by norm_num) zero_le_one
    (by norm_num [Lens.standard]) with
    ⟨hlow, hhigh, _, _, s, hs, hx, hy⟩
  rw [htan] at hx hy
  norm_num [Lens.standard] at hlow hhigh hx hy
  exact ⟨p, s, hp, hs, hlow, hhigh, by linarith, by linarith⟩

end Easel
end WireView
