import WireView.Projection.Projector
import WireView.Proofs.Basic
import WireView.Proofs.Number.Double

/-!
# Batches and single points

A batch sums its products onto a zero, a single point does not.  The two sums
differ only where all four products are negative zeros, and then in the sign of
a zero.  In the rows of the matrices that a projector uses that takes a negative
zero in the last component: a point without one is projected alike, bit for bit,
alone and in a batch.

Everything holds whatever the circular functions are, which are a parameter
here.
-/

namespace WireView

open Double

/-- The doubles with other circular functions. -/
@[reducible] def Scalar.withCircular (sin cos tan : Float -> Float) :
    Scalar Float :=
  { (inferInstance : Scalar Float) with sin := sin, cos := cos, tan := tan }

example :
    Scalar.withCircular Float.sin Float.cos Float.tan =
      (inferInstance : Scalar Float) :=
  rfl

namespace Projector

/-!
# The matrices of a projector
-/

/-- The camera moves along the third axis, and the perspective divides by the
third component. -/
structure Framed (p : Projector Float) : Prop where
  camera : exists d, p.camera = Mat4.translation 0 0 d
  perspective : exists a f q1 q2,
    p.perspective = ⟨⟨a, 0, 0, 0⟩, ⟨0, f, 0, 0⟩, ⟨0, 0, q1, q2⟩, ⟨0, 0, 1, 0⟩⟩

section reachable

variable [Scalar Float]

/-- The projectors that come to be by creation and by changes of settings,
failed ones included. -/
inductive Reachable : Projector Float -> Prop where
  | created {c : ProjectionConfig Float} {p : Projector Float} :
      ofConfig? c = .ok p -> Reachable p
  | changed {p : Projector Float}
      (changes : List (ProjectionConfig.Field × Float)) :
      Reachable p -> Reachable ((change changes).perform p).1
  | configured {p : Projector Float} (changes : List (String × Float)) :
      Reachable p -> Reachable ((configure changes).perform p).1

theorem perspective_shape {c : ProjectionConfig Float} {m : Mat4 Float}
    (h : c.perspective? = .ok m) :
    exists a f q1 q2,
      m = ⟨⟨a, 0, 0, 0⟩, ⟨0, f, 0, 0⟩, ⟨0, 0, q1, q2⟩, ⟨0, 0, 1, 0⟩⟩ := by
  unfold ProjectionConfig.perspective? Mat4.perspective? at h
  rcases exists_of_bind_ok h with ⟨a, _, h⟩
  rcases exists_of_bind_ok h with ⟨t, _, h⟩
  rcases exists_of_bind_ok h with ⟨f, _, h⟩
  rcases exists_of_bind_ok h with ⟨q1, _, h⟩
  rcases exists_of_bind_ok h with ⟨q2, _, h⟩
  cases h
  exact ⟨_, _, _, _, rfl⟩

theorem framed_ofConfig {c : ProjectionConfig Float} {p : Projector Float}
    (h : ofConfig? c = .ok p) : Framed p := by
  unfold ofConfig? at h
  cases hm : c.perspective? with
  | error e =>
      rw [hm] at h
      cases h
  | ok m =>
      rw [hm] at h
      cases h
      exact ⟨⟨_, rfl⟩, perspective_shape hm⟩

theorem framed_adopt {p : Projector Float} (h : Framed p)
    (c : ProjectionConfig Float) :
    Framed ((adopt c).perform p).1 := by
  unfold adopt
  rw [Act.perform_bind, Act.perform_modify]
  simp only [Act.perform_bind, Act.perform_ofResult]
  cases hm : c.perspective? with
  | error e => exact ⟨⟨_, rfl⟩, h.perspective⟩
  | ok m => exact ⟨⟨_, rfl⟩, perspective_shape hm⟩

theorem framed_change {p : Projector Float} (h : Framed p)
    (changes : List (ProjectionConfig.Field × Float)) :
    Framed ((change changes).perform p).1 := by
  unfold change
  rw [Act.perform_bind, Act.perform_get]
  exact framed_adopt h _

theorem framed_configure {p : Projector Float} (h : Framed p)
    (changes : List (String × Float)) :
    Framed ((configure changes).perform p).1 := by
  unfold configure
  split
  · exact h
  · rw [Act.perform_bind, Act.perform_ofResult]
    cases ProjectionConfig.readChanges changes with
    | error e => exact h
    | ok cs => exact framed_change h cs

theorem Reachable.framed {p : Projector Float} (h : Reachable p) :
    Framed p := by
  induction h with
  | created h => exact framed_ofConfig h
  | changed changes _ ih => exact framed_change ih changes
  | configured changes _ ih => exact framed_configure ih changes

end reachable

/-!
# Rows and stages
-/

/-- Without a minus sign; what is no number has none. -/
def Unsigned (x : Float) : Prop :=
  minus (view x) = false

theorem Unsigned.ne_negZero {x : Float} (h : Unsigned x) :
    view x ≠ .zero .negative := by
  intro hx
  rw [Unsigned, hx] at h
  cases h

variable {v : Vec4 Float}

theorem zero_mul_ne_negZero (hw : Unsigned v.w) :
    view (0 * v.w) ≠ .zero .negative := by
  rcases view_zero_mul hw with h | h <;> rw [h] <;> intro h <;> cases h

theorem dotFromZero_of_last {a b c : Float} (hw : Unsigned v.w) :
    (⟨a, b, c, 0⟩ : Vec4 Float).dotFromZero v =
    (⟨a, b, c, 0⟩ : Vec4 Float).dot v :=
  zero_add_four fun h => zero_mul_ne_negZero hw h.2.2.2

theorem dot_last_row (hw : Unsigned v.w) :
    (⟨0, 0, 0, 1⟩ : Vec4 Float).dotFromZero v =
    (⟨0, 0, 0, 1⟩ : Vec4 Float).dot v
      ∧ Unsigned ((⟨0, 0, 0, 1⟩ : Vec4 Float).dot v) := by
  have hone : 1 * v.w = v.w := one_mul v.w
  constructor
  · refine zero_add_four fun h => hw.ne_negZero ?_
    rw [← hone]
    exact h.2.2.2
  · show minus (view (0 * v.x + 0 * v.y + 0 * v.z + 1 * v.w)) = false
    rw [hone]
    exact minus_add
      (hollow_add (hollow_add (hollow_zero_mul _) (hollow_zero_mul _))
        (hollow_zero_mul _)) hw

structure Turning (m : Mat4 Float) : Prop where
  rows : exists a b c d e f g h i,
    m = ⟨⟨a, b, c, 0⟩, ⟨d, e, f, 0⟩, ⟨g, h, i, 0⟩, ⟨0, 0, 0, 1⟩⟩

theorem turning_rotationX (t : Turn Float) : Turning (Mat4.rotationX t) :=
  ⟨_, _, _, _, _, _, _, _, _, rfl⟩

theorem turning_rotationY (t : Turn Float) : Turning (Mat4.rotationY t) :=
  ⟨_, _, _, _, _, _, _, _, _, rfl⟩

theorem turning_rotationZ (t : Turn Float) : Turning (Mat4.rotationZ t) :=
  ⟨_, _, _, _, _, _, _, _, _, rfl⟩

theorem Turning.apply {m : Mat4 Float} (h : Turning m) (hw : Unsigned v.w) :
    m.applyFromZero v = m.apply v ∧ Unsigned (m.apply v).w
      ∧ view (m.apply v).z ≠ .zero .negative := by
  rcases h.rows with ⟨a, b, c, d, e, f, g, h, i, rfl⟩
  rcases dot_last_row hw with ⟨hlast, hunsigned⟩
  refine ⟨?_, hunsigned, add_ne_negZero (view_zero_mul hw)⟩
  unfold Mat4.applyFromZero Mat4.apply
  rw [dotFromZero_of_last hw, dotFromZero_of_last hw, dotFromZero_of_last hw,
    hlast]

theorem translation_apply {d : Float} (hw : Unsigned v.w)
    (hz : view v.z ≠ .zero .negative) :
    (Mat4.translation 0 0 d).applyFromZero v = (Mat4.translation 0 0 d).apply v
      ∧ Unsigned ((Mat4.translation 0 0 d).apply v).w := by
  rcases dot_last_row hw with ⟨hlast, hunsigned⟩
  have hthird :
      (⟨0, 0, 1, d⟩ : Vec4 Float).dotFromZero v =
        (⟨0, 0, 1, d⟩ : Vec4 Float).dot v := by
    refine zero_add_four fun h => hz ?_
    rw [← one_mul v.z]
    exact h.2.2.1
  refine ⟨?_, hunsigned⟩
  unfold Mat4.translation Mat4.applyFromZero Mat4.apply
  rw [dotFromZero_of_last hw, dotFromZero_of_last hw, hthird, hlast]

/-!
# A point in a batch
-/

/-- Vectors whose components differ at most in the signs of zeros. -/
structure AlikeVec (u v : Vec4 Float) : Prop where
  x : Alike u.x v.x
  y : Alike u.y v.y
  z : Alike u.z v.z
  w : Alike u.w v.w

variable {p : Projector Float} {tx ty tz : Turn Float}

def carryFromZero (p : Projector Float) (tx ty tz : Turn Float)
    (v : Vec4 Float) : Vec4 Float :=
  (p.stages tx ty tz).foldl (fun v m => m.applyFromZero v) v

/-- A point with an unsigned last component is carried alike, but for the third
component, which is not used any more. -/
theorem carryFromZero_eq (hp : Framed p) (hw : Unsigned v.w) :
    (p.carryFromZero tx ty tz v).x = (p.carry tx ty tz v).x
      ∧ (p.carryFromZero tx ty tz v).y = (p.carry tx ty tz v).y
      ∧ (p.carryFromZero tx ty tz v).w = (p.carry tx ty tz v).w := by
  rcases hp.camera with ⟨d, hcamera⟩
  rcases hp.perspective with ⟨a, f, q1, q2, hperspective⟩
  rcases (turning_rotationX tx).apply hw with ⟨hx, hwx, _⟩
  rcases (turning_rotationY ty).apply hwx with ⟨hy, hwy, _⟩
  rcases (turning_rotationZ tz).apply hwy with ⟨hz, hwz, hzz⟩
  rcases translation_apply (d := d) hwz hzz with ⟨hc, hwc⟩
  simp only [carryFromZero, stages, carry, List.foldl_cons, List.foldl_nil,
    hcamera, hperspective, hx, hy, hz, hc]
  exact ⟨dotFromZero_of_last hwc, dotFromZero_of_last hwc,
    dotFromZero_of_last hwc⟩

theorem alike_apply (m : Mat4 Float) {u v : Vec4 Float} (h : AlikeVec u v) :
    AlikeVec (m.applyFromZero u) (m.apply v) := by
  have hdot : forall r : Vec4 Float, Alike (r.dotFromZero u) (r.dot v) := by
    intro r
    have hprod : forall {a b : Float} (c : Float),
        Alike a b -> Alike (c * a) (c * b) :=
      fun c hab => (Alike.refl c).mul hab
    have hsum :=
      ((((alike_zero_add (r.x * u.x)).trans (hprod r.x h.x)).add
        (hprod r.y h.y)).add
        (hprod r.z h.z)).add (hprod r.w h.w)
    exact hsum
  exact ⟨hdot _, hdot _, hdot _, hdot _⟩

theorem alike_carry :
    AlikeVec (p.carryFromZero tx ty tz v) (p.carry tx ty tz v) := by
  have hstart : AlikeVec v v := ⟨.refl _, .refl _, .refl _, .refl _⟩
  exact alike_apply _
    (alike_apply _ (alike_apply _ (alike_apply _ (alike_apply _ hstart))))

/-!
# A whole batch
-/

section batch

variable [Scalar Float]

def turns? (rx ry rz : Float) :
    Except Failure (Turn Float × Turn Float × Turn Float) := do
  let tx ← Turn.ofAngle? rx
  let ty ← Turn.ofAngle? ry
  let tz ← Turn.ofAngle? rz
  .ok (tx, ty, tz)

def projectInBatch (p : Projector Float) (tx ty tz : Turn Float)
    (v : Vec4 Float) : ScreenPoint Float :=
  let u := p.carryFromZero tx ty tz v
  p.config.viewport (u.x * (1 / u.w)) (u.y * (1 / u.w))

theorem project_eq (p : Projector Float) (v : Vec4 Float) (rx ry rz : Float) :
    p.project? v rx ry rz =
      (turns? rx ry rz).map fun t => p.projectTurned t.1 t.2.1 t.2.2 v := by
  unfold project? turns?
  cases Turn.ofAngle? rx with
  | error e => rfl
  | ok tx =>
      cases Turn.ofAngle? ry with
      | error e => rfl
      | ok ty => cases Turn.ofAngle? rz <;> rfl

theorem projectAll_eq (p : Projector Float) (vs : List (Vec4 Float))
    (rx ry rz : Float) :
    p.projectAll? vs rx ry rz =
      (turns? rx ry rz).map fun t =>
        vs.map (p.projectInBatch t.1 t.2.1 t.2.2) := by
  unfold projectAll? turns?
  cases Turn.ofAngle? rx with
  | error e => rfl
  | ok tx =>
      cases Turn.ofAngle? ry with
      | error e => rfl
      | ok ty =>
          cases Turn.ofAngle? rz with
          | error e => rfl
          | ok tz =>
              show Except.ok (List.map _ (List.foldl _ vs _)) = _
              rw [foldl_maps, List.map_map]
              rfl

theorem mapM_project (p : Projector Float) {vs : List (Vec4 Float)}
    (hne : vs ≠ []) (rx ry rz : Float) :
    (vs.mapM fun v => p.project? v rx ry rz) =
      (turns? rx ry rz).map fun t =>
        vs.map (p.projectTurned t.1 t.2.1 t.2.2) := by
  cases h : turns? rx ry rz with
  | error e =>
      cases vs with
      | nil => exact absurd rfl hne
      | cons v vs =>
          rw [List.mapM_cons, project_eq, h]
          rfl
  | ok t =>
      have hone : (fun v => p.project? v rx ry rz) =
          fun v =>
            (pure (p.projectTurned t.1 t.2.1 t.2.2 v) : Except Failure _) := by
        funext v
        rw [project_eq, h]
        rfl
      rw [hone, List.mapM_pure]
      rfl

theorem projectInBatch_eq
    (divides : forall w : Float, Scalar.reciprocal w = 1 / w) (hp : Framed p)
    (hw : Unsigned v.w) :
    p.projectInBatch tx ty tz v = p.projectTurned tx ty tz v := by
  have hcarry : (p.carryFromZero tx ty tz v).x = (p.carry tx ty tz v).x
      ∧ (p.carryFromZero tx ty tz v).y = (p.carry tx ty tz v).y
      ∧ (p.carryFromZero tx ty tz v).w = (p.carry tx ty tz v).w :=
        carryFromZero_eq hp hw
  rcases hcarry with ⟨hx, hy, hdivisor⟩
  unfold projectInBatch projectTurned toScreen
  simp only [hx, hy, hdivisor, divides]

theorem alike_projectInBatch
    (divides : forall w : Float, Scalar.reciprocal w = 1 / w)
    (hw : forall s, view (p.carry tx ty tz v).w ≠ .zero s) :
    Alike (p.projectInBatch tx ty tz v).x (p.projectTurned tx ty tz v).x
      ∧ Alike (p.projectInBatch tx ty tz v).y
        (p.projectTurned tx ty tz v).y := by
  have hcarry : AlikeVec (p.carryFromZero tx ty tz v) (p.carry tx ty tz v) :=
    alike_carry
  have hdivisor : (p.carryFromZero tx ty tz v).w = (p.carry tx ty tz v).w := by
    rcases hcarry.w with h | ⟨_, t, _, ht⟩
    · exact h
    · exact absurd ht (hw t)
  unfold projectInBatch projectTurned toScreen ProjectionConfig.viewport
  simp only [hdivisor, divides]
  constructor
  · exact ((hcarry.x.mul (.refl _)).mul (.refl _)).add (.refl _)
  · exact ((hcarry.y.mul (.refl _)).mul (.refl _)).add (.refl _)

end batch

/-- Whatever the circular functions are: a batch fails exactly if each of its
points alone does, and with the same error; a batch of no points is projected to
none if the turns exist; a point whose last component has no minus sign is
projected alike, bit for bit, alone and in a batch; and any other point differs
in signs of zeros at most, unless it is divided by a zero. -/
theorem batch_matches_points (sin cos tan : Float -> Float)
    (p : Projector Float)
    (reached : letI := Scalar.withCircular sin cos tan; Reachable p)
    (rx ry rz : Float) :
    letI := Scalar.withCircular sin cos tan
    (forall vs v e,
      p.projectAll? vs rx ry rz = .error e ↔ p.project? v rx ry rz = .error e)
      ∧ (forall t,
        turns? rx ry rz = .ok t -> p.projectAll? [] rx ry rz = .ok [])
      ∧ (forall vs, vs ≠ [] -> (forall v, v ∈ vs -> hasMinusSign v.w = false) ->
          p.projectAll? vs rx ry rz = vs.mapM fun v => p.project? v rx ry rz)
      ∧ (forall vs tx ty tz, turns? rx ry rz = .ok (tx, ty, tz) ->
          (forall v, v ∈ vs -> Scalar.isZero (p.carry tx ty tz v).w = false) ->
          exists qs : List (ScreenPoint Float),
            p.projectAll? vs rx ry rz = .ok qs
              ∧ qs.length = vs.length
              ∧ forall (i : Nat) (q : ScreenPoint Float) (v : Vec4 Float),
                qs[i]? = some q -> vs[i]? = some v ->
                  Alike q.x (p.projectTurned tx ty tz v).x
                    ∧ Alike q.y (p.projectTurned tx ty tz v).y) := by
  let := Scalar.withCircular sin cos tan
  have hframed : Framed p := reached.framed
  have hdivides : forall w : Float, Scalar.reciprocal w = 1 / w := reciprocal_eq
  refine ⟨?_, ?_, ?_, ?_⟩
  · intro vs v e
    rw [projectAll_eq, project_eq]
    cases turns? rx ry rz with
    | error e' => exact ⟨fun h => (by cases h; rfl), fun h => (by cases h; rfl)⟩
    | ok t => exact ⟨fun h => (by cases h), fun h => (by cases h)⟩
  · intro t ht
    rw [projectAll_eq, ht]
    rfl
  · intro vs hne hw
    have hsame : (fun t : Turn Float × Turn Float × Turn Float =>
          vs.map (p.projectInBatch t.1 t.2.1 t.2.2)) =
        fun t => vs.map (p.projectTurned t.1 t.2.1 t.2.2) := by
      funext t
      apply List.map_congr_left
      intro v hv
      exact projectInBatch_eq hdivides hframed
        ((hasMinusSign_eq v.w).symm.trans (hw v hv))
    rw [projectAll_eq, mapM_project p hne, hsame]
  · intro vs tx ty tz ht hw
    refine ⟨vs.map (p.projectInBatch tx ty tz), ?_, List.length_map _, ?_⟩
    · rw [projectAll_eq, ht]
      rfl
    · intro i q v hq hv
      rw [List.getElem?_map, hv] at hq
      cases hq
      apply alike_projectInBatch hdivides
      intro s hs
      have hzero : Scalar.isZero (p.carry tx ty tz v).w = true :=
        (isZero_iff _).mpr ⟨s, hs⟩
      have hnot := hw v (List.mem_of_getElem? hv)
      rw [hzero] at hnot
      cases hnot

/-- Circular functions that are exact at `0` and `-0`, and close to exact
nearby. -/
@[reducible] def nearZero : Scalar Float :=
  .withCircular (fun x => x) (fun _ => 1) (fun x => x)

def squareScreen : Projector Float :=
  ⟨⟨2, 2, 2, 1, 2, 3⟩, Mat4.translation 0 0 3,
    ⟨⟨1, 0, 0, 0⟩, ⟨0, 1, 0, 0⟩, ⟨0, 0, 2, -2⟩, ⟨0, 0, 1, 0⟩⟩⟩

theorem made_squareScreen :
    letI := nearZero
    ofConfig? squareScreen.config = .ok squareScreen := by
  let := nearZero
  have h : (ofConfig? squareScreen.config).toOption = some squareScreen := by
    decide +kernel
  cases hc : ofConfig? squareScreen.config with
  | error e =>
      rw [hc] at h
      cases h
  | ok p =>
      rw [hc] at h
      cases h
      rfl

theorem reachable_squareScreen : letI := nearZero; Reachable squareScreen :=
  letI := nearZero
  .created made_squareScreen

/-- A point of space in front of the screen. -/
theorem point_in_batch :
    letI := nearZero
    Reachable squareScreen
      ∧ (squareScreen.project? (Vec4.point 1 2 3) 0 (-0.0) 0).toOption =
        some ⟨1 / 6 + 1, 1 / 3 + 1⟩
      ∧ squareScreen.projectAll? [Vec4.point 1 2 3] 0 (-0.0) 0 =
          [Vec4.point 1 2 3].mapM fun v =>
            squareScreen.project? v 0 (-0.0) 0 := by
  let := nearZero
  have hmatch :=
    batch_matches_points (fun x => x) (fun _ => 1) (fun x => x) squareScreen
      reachable_squareScreen 0 (-0.0) 0
  refine ⟨reachable_squareScreen, by decide +kernel, ?_⟩
  apply hmatch.2.2.1 [Vec4.point 1 2 3] (List.cons_ne_nil _ _)
  intro v hv
  cases List.mem_singleton.mp hv
  rfl

/-- A point with two negative zeros: a batch divides it by a positive zero, and
alone it is divided by a negative one. -/
theorem negative_zeros_in_batch :
    letI := nearZero
    (squareScreen.projectAll? [⟨-3, -1, -0.0, -0.0⟩] 0 (-0.0) 0).toOption =
        some [⟨-(1 / 0), -(1 / 0)⟩]
      ∧ (squareScreen.project? ⟨-3, -1, -0.0, -0.0⟩ 0 (-0.0) 0).toOption =
        some ⟨1 / 0, 1 / 0⟩
      ∧ (1 / 0 : Float) ≠ -(1 / 0) := by
  let := nearZero
  exact ⟨by decide +kernel, by decide +kernel, by decide⟩

end Projector
end WireView
