import WireView.Proofs.Projection.Pipeline

/-!
# The last turn on the screen

The turn about the third axis is the last one, and the camera moves along that
axis.  So the turn leaves the depth of a point alone and turns its first two
components in their plane.  The horizontal scale of the perspective makes up for
the width of the screen: measured from the centre, both axes have the scale of
half the height, and the turn is one of the picture.
-/

namespace WireView

variable {K : Type} [Field K]

namespace ScreenPoint

def offset (s o : ScreenPoint K) : ScreenPoint K :=
  ⟨s.x - o.x, s.y - o.y⟩

def turn (t : Turn K) (s : ScreenPoint K) : ScreenPoint K :=
  ⟨t.cos * s.x - t.sin * s.y, t.sin * s.x + t.cos * s.y⟩

def norm2 (s : ScreenPoint K) : K :=
  s.x ^ 2 + s.y ^ 2

theorem norm2_turn {t : Turn K} (circle : t.OnCircle) (s : ScreenPoint K) :
    (s.turn t).norm2 = s.norm2 := by
  unfold norm2 turn
  linear_combination (s.x ^ 2 + s.y ^ 2) * circle.squares

end ScreenPoint

namespace Projector

theorem turned_eq (tx ty tz : Turn K) (v : Vec4 K) :
    let u := Mat4.turned tx ty tz v
    let u₀ := Mat4.turned tx ty ⟨1, 0⟩ v
    u =
      ⟨tz.cos * u₀.x - tz.sin * u₀.y, tz.sin * u₀.x + tz.cos * u₀.y, u₀.z,
       u₀.w⟩ := by
  unfold Mat4.turned
  simp only [Mat4.apply_rotationZ, one_mul, zero_mul, sub_zero, zero_add]

variable [Scalar K] [Scalar.Exact K]

theorem offset_image {c : ProjectionConfig K} (h : Lens.Proper c) {rx ry rz : K}
    {v : Vec4 K} (divides : (Lens.projector c).divisor rx ry rz v ≠ 0) :
    let u := Mat4.turned (.of rx) (.of ry) (.of rz) v
    let w := (Lens.projector c).divisor rx ry rz v
    ((Lens.projector c).image rx ry rz v).offset ⟨c.width / 2, c.height / 2⟩
      = ⟨Lens.focal c * (c.height / 2) * (u.x / w),
        Lens.focal c * (c.height / 2) * (u.y / w)⟩ := by
  intro u w
  have hwidth := h.width
  rcases image_projector c divides with ⟨hx, hy⟩
  have hscale : c.height / c.width * Lens.focal c * (c.width / 2)
      = Lens.focal c * (c.height / 2) := by
    field_simp
  unfold ScreenPoint.offset
  rw [hx, hy, hscale]

/-- Whatever the shape of the screen, the last turn is a turn of the picture
about its centre: every point with a depth keeps it, its offset from the centre
is turned and keeps its length, and both axes of the screen have the scale of
half its height. -/
theorem last_turn_spins_picture
    (circle : forall t : K, Scalar.cos t ^ 2 + Scalar.sin t ^ 2 = 1)
    (cos_zero : Scalar.cos (0 : K) = 1) (sin_zero : Scalar.sin (0 : K) = 0)
    {c : ProjectionConfig K} (width : c.width ≠ 0)
    (tangent : Scalar.tan (c.fov * Scalar.half) ≠ 0)
    (depth : c.zFar ≠ c.zNear) :
    let center : ScreenPoint K := ⟨c.width / 2, c.height / 2⟩
    exists p, ofConfig? c = .ok p
      ∧ forall (v : Vec4 K) (rx ry rz : K), p.divisor rx ry rz v ≠ 0 ->
        exists s s₀,
          p.project? v rx ry rz = .ok s ∧ p.project? v rx ry 0 = .ok s₀
          ∧ p.divisor rx ry 0 v = p.divisor rx ry rz v
          ∧ s.offset center = (s₀.offset center).turn (.of rz)
          ∧ (s.offset center).norm2 = (s₀.offset center).norm2
          ∧ let u := Mat4.turned (.of rx) (.of ry) (.of rz) v
            let scale := 1 / Scalar.tan (c.fov * Scalar.half) * (c.height / 2)
            s.offset center
              = ⟨scale * (u.x / p.divisor rx ry rz v),
                scale * (u.y / p.divisor rx ry rz v)⟩ := by
  intro center
  have hproper : Lens.Proper c := ⟨width, tangent, depth⟩
  refine ⟨_, hproper.ofConfig?_eq, fun v rx ry rz divides => ?_⟩
  have hrest := Turn.of_zero cos_zero sin_zero
  have hturned := turned_eq (.of rx) (.of ry) (.of rz) v
  dsimp only at hturned
  have hdivisor :
      (Lens.projector c).divisor rx ry 0 v =
        (Lens.projector c).divisor rx ry rz v := by
    rw [divisor_projector, divisor_projector, hturned, hrest]
  have hoffset := offset_image hproper divides
  have hoffset₀ := offset_image hproper (hdivisor ▸ divides)
  have hspins : ((Lens.projector c).image rx ry rz v).offset center
      = (((Lens.projector c).image rx ry 0 v).offset center).turn (.of rz) := by
    rw [hoffset, hoffset₀, hturned, hdivisor, hrest]
    unfold ScreenPoint.turn
    dsimp only
    congr 1 <;> ring
  refine ⟨_, _, project?_eq _ v rx ry rz, project?_eq _ v rx ry 0, hdivisor,
    hspins, ?_, hoffset⟩
  rw [hspins, ScreenPoint.norm2_turn ⟨circle rz⟩]

/-- A quarter turn puts a point that is to the right of the centre below it. -/
theorem quarter_turn_spins_point :
    letI := Scalar.reals Real.cos Real.sin
    let c := Lens.standard
    exists p s s₀, ofConfig? c = .ok p
      ∧ p.divisor 0 0 (Real.pi / 2) (.point 1 0 0) = 3
      ∧ p.project? (.point 1 0 0) 0 0 (Real.pi / 2) = .ok s
      ∧ p.project? (.point 1 0 0) 0 0 0 = .ok s₀
      ∧ s₀.offset ⟨240, 180⟩ = ⟨60, 0⟩ ∧ s.offset ⟨240, 180⟩ = ⟨0, 60⟩ := by
  let := Scalar.reals Real.cos Real.sin
  have := Scalar.exact_reals Real.cos Real.sin
  intro c
  have hproper : Lens.Proper c := Lens.proper_standard fun _ => rfl
  rcases last_turn_spins_picture Real.cos_sq_add_sin_sq Real.cos_zero
    Real.sin_zero hproper.width
    hproper.tangent hproper.depth with ⟨p, hp, hspins⟩
  have hpeq : p = Lens.projector c :=
    Except.ok.inj (hp.symm.trans hproper.ofConfig?_eq)
  have hquarter : Turn.of (Real.pi / 2) = ⟨0, 1⟩ := by
    show (⟨Real.cos (Real.pi / 2), Real.sin (Real.pi / 2)⟩ : Turn ℝ) = _
    rw [Real.cos_pi_div_two, Real.sin_pi_div_two]
  have hrest : Turn.of (0 : ℝ) = ⟨1, 0⟩ :=
    Turn.of_zero Real.cos_zero Real.sin_zero
  have hturned :
      Mat4.turned ⟨1, 0⟩ ⟨1, 0⟩ ⟨0, 1⟩ (.point 1 0 0) =
        (⟨0, 1, 0, 1⟩ : Vec4 ℝ) := by
    norm_num [Mat4.turned, Mat4.apply_rotationX, Mat4.apply_rotationY,
      Mat4.apply_rotationZ, Vec4.point]
  have hdivisor : p.divisor 0 0 (Real.pi / 2) (.point 1 0 0) = 3 := by
    rw [hpeq, divisor_projector, hquarter, hrest, hturned]
    norm_num [c, Lens.standard, Vec4.point]
  rcases hspins (.point 1 0 0) 0 0 (Real.pi / 2)
    (by rw [hdivisor]; norm_num) with
    ⟨s, s₀, hs, hs₀, _, hturn, _, hscale⟩
  have hcenter :
      (⟨c.width / 2, c.height / 2⟩ : ScreenPoint ℝ) = ⟨240, 180⟩ := by
    norm_num [c, Lens.standard]
  rw [hcenter] at hturn hscale
  rw [hquarter, hrest, hturned, hdivisor, Lens.tan_standard fun _ => rfl]
    at hscale
  have hoffset : s.offset ⟨240, 180⟩ = ⟨0, 60⟩ := by
    rw [hscale]
    norm_num [c, Lens.standard]
  refine ⟨p, s, s₀, hp, hdivisor, hs, hs₀, ?_, hoffset⟩
  rw [hquarter, hoffset] at hturn
  have hx : 60 = (s₀.offset ⟨240, 180⟩).x := by
    simpa [ScreenPoint.turn] using congrArg ScreenPoint.y hturn
  have hy : (s₀.offset ⟨240, 180⟩).y = 0 := by
    simpa [ScreenPoint.turn] using congrArg ScreenPoint.x hturn
  rw [hx, ← hy]

end Projector
end WireView
