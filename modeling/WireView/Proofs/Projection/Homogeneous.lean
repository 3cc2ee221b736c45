import WireView.Proofs.Projection.Pipeline

/-!
# Homogeneous coordinates

A vector and its multiples stand for the same point of space, and in exact
arithmetic they are drawn at the same place.  Every stage of a projection is
linear in all four components, the displacement of the camera included, which is
a multiple of the last one; so what a point is divided by is multiplied by the
same factor as what is divided.

A vertex that is given by four numbers is therefore drawn where the point is
that is left when the first three are divided by the last.
-/

namespace WireView

variable {K : Type} [Field K]

namespace Vec4

def scale (k : K) (v : Vec4 K) : Vec4 K :=
  v.map (k * ·)

theorem dot_scale (r : Vec4 K) (k : K) (v : Vec4 K) :
    r.dot (v.scale k) = k * r.dot v := by
  unfold dot scale map
  ring

def dehomogenised (v : Vec4 K) : Vec4 K :=
  .point (v.x / v.w) (v.y / v.w) (v.z / v.w)

theorem dehomogenised_eq_scale {v : Vec4 K} (finite : v.w ≠ 0) :
    v.dehomogenised = v.scale v.w⁻¹ := by
  simp only [dehomogenised, point, scale, map, div_eq_inv_mul,
    inv_mul_cancel₀ finite]

end Vec4

theorem Mat4.apply_scale (m : Mat4 K) (k : K) (v : Vec4 K) :
    m.apply (v.scale k) = (m.apply v).scale k := by
  unfold apply
  simp only [Vec4.dot_scale]
  rfl

namespace Projector

theorem carry_scale (p : Projector K) (tx ty tz : Turn K) (k : K) (v : Vec4 K) :
    p.carry tx ty tz (v.scale k) = (p.carry tx ty tz v).scale k := by
  unfold carry
  simp only [Mat4.apply_scale]

variable [Scalar K]

theorem divisor_scale (p : Projector K) (rx ry rz k : K) (v : Vec4 K) :
    p.divisor rx ry rz (v.scale k) = k * p.divisor rx ry rz v := by
  unfold divisor
  rw [carry_scale]
  rfl

theorem divisor_scale_ne_zero (p : Projector K) {rx ry rz k : K} (hk : k ≠ 0)
    {v : Vec4 K} :
    p.divisor rx ry rz (v.scale k) ≠ 0 ↔ p.divisor rx ry rz v ≠ 0 := by
  rw [divisor_scale, mul_ne_zero_iff]
  exact and_iff_right hk

variable [Scalar.Exact K]

theorem image_scale (p : Projector K) {rx ry rz k : K} (hk : k ≠ 0) {v : Vec4 K}
    (divides : p.divisor rx ry rz v ≠ 0) :
    p.image rx ry rz (v.scale k) = p.image rx ry rz v := by
  have hcancel : forall a b : K, k * a * (1 / (k * b)) = a * (1 / b) := by
    intro a b
    rw [mul_one_div, mul_one_div, mul_div_mul_left a b hk]
  rw [image_eq p divides, image_eq p ((divisor_scale_ne_zero p hk).mpr divides),
    carry_scale, divisor_scale]
  unfold Vec4.scale Vec4.map
  dsimp only
  rw [hcancel, hcancel]

theorem project?_scale (p : Projector K) {rx ry rz k : K} (hk : k ≠ 0)
    {v : Vec4 K} (divides : p.divisor rx ry rz v ≠ 0) :
    p.project? (v.scale k) rx ry rz = p.project? v rx ry rz := by
  rw [project?_eq, project?_eq, image_scale p hk divides]

theorem projectAll?_scale (p : Projector K) {rx ry rz : K} {vs : List (Vec4 K)}
    {k : Vec4 K -> K} (factors : forall v, v ∈ vs -> k v ≠ 0)
    (divides : forall v, v ∈ vs -> p.divisor rx ry rz v ≠ 0) :
    p.projectAll? (vs.map fun v => v.scale (k v)) rx ry rz =
      p.projectAll? vs rx ry rz := by
  have hscaled : forall u,
      u ∈ vs.map (fun v => v.scale (k v)) -> p.divisor rx ry rz u ≠ 0 := by
    intro u hu
    rcases List.mem_map.mp hu with ⟨v, hv, rfl⟩
    exact (divisor_scale_ne_zero p (factors v hv)).mpr (divides v hv)
  rw [projectAll?_eq p hscaled, projectAll?_eq p divides, List.map_map]
  refine congrArg Except.ok (List.map_congr_left fun v hv => ?_)
  exact image_scale p (factors v hv) (divides v hv)

/-- Projection is well defined on homogeneous coordinates: for any angles, a
multiple of a vector by a factor other than zero is divided by zero only if the
vector is, and otherwise goes to the same place.  So a vertex of four numbers,
the last of them not zero, is drawn where its point of space is, alone and in a
batch. -/
theorem scaled_points_project_alike (p : Projector K) (rx ry rz : K) :
    (forall k v,
      k ≠ 0 -> p.divisor rx ry rz v ≠ 0 -> p.divisor rx ry rz (v.scale k) ≠ 0
        ∧ exists s,
          p.project? v rx ry rz = .ok s
            ∧ p.project? (v.scale k) rx ry rz = .ok s)
      ∧ (forall x y z w : K, w ≠ 0 -> exists u v,
        Vec4.ofList? [x, y, z, w] = .ok u
          ∧ Vec4.ofList? [x / w, y / w, z / w] = .ok v
          ∧ (p.divisor rx ry rz u ≠ 0 ↔ p.divisor rx ry rz v ≠ 0)
          ∧ (p.divisor rx ry rz u ≠ 0 ->
            exists s,
              p.project? u rx ry rz = .ok s ∧ p.project? v rx ry rz = .ok s))
      ∧ forall vs : List (Vec4 K),
          (forall v, v ∈ vs -> v.w ≠ 0 ∧ p.divisor rx ry rz v ≠ 0) ->
          exists ss, p.projectAll? vs rx ry rz = .ok ss
            ∧ p.projectAll? (vs.map Vec4.dehomogenised) rx ry rz = .ok ss := by
  refine ⟨?_, ?_, ?_⟩
  · intro k v hk divides
    refine ⟨(divisor_scale_ne_zero p hk).mpr divides, p.image rx ry rz v,
      project?_eq p v rx ry rz, ?_⟩
    rw [project?_scale p hk divides, project?_eq]
  · intro x y z w hw
    let u : Vec4 K := ⟨x, y, z, w⟩
    have hpoint : u.dehomogenised = u.scale w⁻¹ :=
      Vec4.dehomogenised_eq_scale hw
    refine ⟨u, u.dehomogenised, rfl, rfl, ?_, ?_⟩
    · rw [hpoint, divisor_scale_ne_zero p (inv_ne_zero hw)]
    · intro divides
      refine ⟨p.image rx ry rz u, project?_eq p u rx ry rz, ?_⟩
      rw [hpoint, project?_scale p (inv_ne_zero hw) divides, project?_eq]
  · intro vs finite
    have hpoints : vs.map Vec4.dehomogenised = vs.map fun v => v.scale v.w⁻¹ :=
      List.map_congr_left fun v hv =>
        Vec4.dehomogenised_eq_scale (finite v hv).1
    refine ⟨vs.map (p.image rx ry rz),
      projectAll?_eq p fun v hv => (finite v hv).2, ?_⟩
    rw [hpoints, projectAll?_scale p (fun v hv => inv_ne_zero (finite v hv).1)
      (fun v hv => (finite v hv).2), projectAll?_eq p fun v hv =>
        (finite v hv).2]

/-- A vertex at twice its coordinates, its multiple by minus one half and its
point of space: all three are drawn at one place, although they are divided by
eight, minus four and four. -/
theorem doubled_vertex :
    letI := Scalar.reals Real.cos Real.sin
    let p := Lens.projector Lens.standard
    let double : Vec4 ℝ := ⟨2, 2, 2, 2⟩
    p.divisor 0 0 0 double = 8 ∧ p.divisor 0 0 0 (double.scale (-1 / 2)) = -4
      ∧ p.divisor 0 0 0 double.dehomogenised = 4
      ∧ p.project? double 0 0 0 = .ok ⟨285, 225⟩
      ∧ p.project? (double.scale (-1 / 2)) 0 0 0 = .ok ⟨285, 225⟩
      ∧ p.project? double.dehomogenised 0 0 0 = .ok ⟨285, 225⟩
      ∧ p.projectAll? [double.dehomogenised] 0 0 0 =
        p.projectAll? [double] 0 0 0 := by
  let := Scalar.reals Real.cos Real.sin
  have := Scalar.exact_reals Real.cos Real.sin
  intro p double
  have hrest : Turn.of (0 : ℝ) = ⟨1, 0⟩ :=
    Turn.of_zero Real.cos_zero Real.sin_zero
  have hturned : Mat4.turned (.of 0) (.of 0) (.of 0) double = double := by
    rw [hrest, Mat4.turned_rest]
  have hdivisor : p.divisor 0 0 0 double = 8 := by
    rw [divisor_projector, hturned]
    norm_num [Lens.standard, double]
  have hfocal : Lens.focal Lens.standard = 1 := by
    rw [Lens.focal, Lens.tan_standard fun _ => rfl, div_one]
  have hdivides : p.divisor 0 0 0 double ≠ 0 := by
    rw [hdivisor]
    norm_num
  have himage : p.image 0 0 0 double = ⟨285, 225⟩ := by
    rcases image_projector Lens.standard hdivides with ⟨hx, hy⟩
    rw [hturned, hdivisor, hfocal] at hx hy
    norm_num [Lens.standard, double] at hx hy
    rw [sub_eq_iff_eq_add] at hx hy
    have hplaces :
        (p.image 0 0 0 double).x = 285 ∧ (p.image 0 0 0 double).y = 225 :=
      ⟨hx.trans (by norm_num), hy.trans (by norm_num)⟩
    rcases hplaces with ⟨hx, hy⟩
    rw [← hx, ← hy]
  have hpoint : p.project? double 0 0 0 = .ok ⟨285, 225⟩ := by
    rw [project?_eq, himage]
  rcases scaled_points_project_alike p 0 0 0 with ⟨hscaled, hvertex, hbatch⟩
  rcases hscaled (-1 / 2) double (by norm_num) hdivides with
    ⟨_, s, hs, hmultiple⟩
  rcases hvertex 2 2 2 2 two_ne_zero with ⟨u, v, hu, hv, _, hsame⟩
  cases hu
  cases hv
  rcases hsame hdivides with ⟨s', hs', hreduced⟩
  rw [hpoint] at hs hs'
  cases hs
  cases hs'
  rcases hbatch [double] (by simpa using ⟨two_ne_zero, hdivides⟩) with
    ⟨ss, hss, hpoints⟩
  refine ⟨hdivisor, ?_, ?_, hpoint, hmultiple, hreduced, hpoints.trans hss.symm⟩
  · rw [divisor_scale, hdivisor]
    norm_num
  · rw [Vec4.dehomogenised_eq_scale (v := double) two_ne_zero, divisor_scale,
      hdivisor]
    norm_num [double]

end Projector
end WireView
