import WireView.Proofs.Projection.Requests

/-!
# The range of depths

The planes between which depths are told apart enter one row of the perspective,
the one that makes the third component of a point.  A point is divided by the
fourth component and drawn at the first two, so what comes of that row is never
looked at, whatever it is.

Projectors that differ in their range of depths only are therefore alike on the
screen.  They stay so under further requests as long as both serve or both
refuse each of them: a range without extent is what the one can be given and the
other not.
-/

namespace WireView

namespace ProjectionConfig

variable {α : Type}

def Field.isDepth : Field -> Bool
  | .zNear => true
  | .zFar => true
  | _ => false

/-- Settings that differ in their range of depths at most. -/
structure SameView (c d : ProjectionConfig α) : Prop where
  width : c.width = d.width
  height : c.height = d.height
  fov : c.fov = d.fov
  cameraDistance : c.cameraDistance = d.cameraDistance

theorem SameView.of_get {c d : ProjectionConfig α}
    (h : forall f : Field, f.isDepth = false -> c.get f = d.get f) :
    c.SameView d :=
  ⟨h .width rfl, h .height rfl, h .fov rfl, h .cameraDistance rfl⟩

theorem SameView.get {c d : ProjectionConfig α} (h : c.SameView d) {f : Field}
    (hf : f.isDepth = false) : c.get f = d.get f := by
  cases f with
  | width => exact h.width
  | height => exact h.height
  | fov => exact h.fov
  | cameraDistance => exact h.cameraDistance
  | zNear => cases hf
  | zFar => cases hf

end ProjectionConfig

namespace Mat4

variable {α : Type} {m n : Mat4 α}

structure SameButThird (m n : Mat4 α) : Prop where
  r0 : m.r0 = n.r0
  r1 : m.r1 = n.r1
  r3 : m.r3 = n.r3

theorem SameButThird.apply [Add α] [Mul α] (h : m.SameButThird n) (v : Vec4 α) :
    (m.apply v).x = (n.apply v).x ∧ (m.apply v).y = (n.apply v).y
      ∧ (m.apply v).w = (n.apply v).w := by
  simp only [Mat4.apply, h.r0, h.r1, h.r3, and_self]

theorem SameButThird.applyFromZero [OfNat α 0] [Add α] [Mul α]
    (h : m.SameButThird n) (v : Vec4 α) :
    (m.applyFromZero v).x = (n.applyFromZero v).x
      ∧ (m.applyFromZero v).y = (n.applyFromZero v).y
      ∧ (m.applyFromZero v).w = (n.applyFromZero v).w := by
  simp only [Mat4.applyFromZero, h.r0, h.r1, h.r3, and_self]

end Mat4

namespace Projector

open ProjectionConfig (Field given?)

variable {α : Type}

/-- Projectors that differ in their range of depths at most, and in the row that
it makes. -/
structure SameButDepth (p q : Projector α) : Prop where
  config : p.config.SameView q.config
  camera : p.camera = q.camera
  perspective : p.perspective.SameButThird q.perspective

/-!
# The row that is not looked at
-/

section screen

variable [OfNat α 0] [OfNat α 1] [Add α] [Mul α] [Neg α] [Div α] [Scalar α]

/-- Projectors that put all points in the same places, alone and in batches, and
that refuse the same angles. -/
structure SameScreen (p q : Projector α) : Prop where
  points : forall v rx ry rz, p.project? v rx ry rz = q.project? v rx ry rz
  batches : forall vs rx ry rz,
    p.projectAll? vs rx ry rz = q.projectAll? vs rx ry rz

namespace SameButDepth

variable {p q : Projector α}

omit [OfNat α 0] [OfNat α 1] [Neg α] [Div α] in
theorem viewport (h : SameButDepth p q) (x y : α) :
    p.config.viewport x y = q.config.viewport x y := by
  unfold ProjectionConfig.viewport
  rw [h.config.width, h.config.height]

theorem projectTurned (h : SameButDepth p q) (tx ty tz : Turn α) (v : Vec4 α) :
    p.projectTurned tx ty tz v = q.projectTurned tx ty tz v := by
  unfold Projector.projectTurned carry
  rw [h.camera]
  rcases h.perspective.apply (q.camera.apply ((Mat4.rotationZ tz).apply
    ((Mat4.rotationY ty).apply ((Mat4.rotationX tx).apply v)))) with
      ⟨hx, hy, hw⟩
  unfold toScreen
  rw [hx, hy, hw, h.viewport]

theorem sameScreen (h : SameButDepth p q) : SameScreen p q := by
  constructor
  · intro v rx ry rz
    unfold project?
    simp only [h.projectTurned]
  · intro vs rx ry rz
    have hlast : forall u : Vec4 α,
        let m := p.perspective.applyFromZero u
        let n := q.perspective.applyFromZero u
        p.config.viewport (m.x * (1 / m.w)) (m.y * (1 / m.w))
          = q.config.viewport (n.x * (1 / n.w)) (n.y * (1 / n.w)) := by
      intro u m n
      rcases h.perspective.applyFromZero u with ⟨hx, hy, hw⟩
      rw [hx, hy, hw, h.viewport]
    unfold projectAll? stages
    simp only [List.foldl_cons, List.foldl_nil, List.map_map, Function.comp_def,
      h.camera, hlast]

end SameButDepth

end screen

/-!
# Projectors made of settings
-/

section settings

variable [OfNat α 0] [OfNat α 1] [Sub α] [Mul α] [Neg α] [Div α] [Scalar α]

theorem rows_of_perspective? {c : ProjectionConfig α} {m : Mat4 α}
    (h : c.perspective? = .ok m) :
    exists a t f, Scalar.divide? c.height c.width = .ok a
      ∧ Scalar.tan? (c.fov * Scalar.half) = .ok t ∧ Scalar.divide? 1 t = .ok f
      ∧ m.r0 = ⟨a * f, 0, 0, 0⟩ ∧ m.r1 = ⟨0, f, 0, 0⟩
      ∧ m.r3 = ⟨0, 0, 1, 0⟩ := by
  unfold ProjectionConfig.perspective? Mat4.perspective? at h
  rcases exists_of_bind_ok h with ⟨a, ha, h⟩
  rcases exists_of_bind_ok h with ⟨t, ht, h⟩
  rcases exists_of_bind_ok h with ⟨f, hf, h⟩
  rcases exists_of_bind_ok h with ⟨q1, _, h⟩
  rcases exists_of_bind_ok h with ⟨q2, _, h⟩
  cases h
  exact ⟨a, t, f, ha, ht, hf, rfl, rfl, rfl⟩

theorem sameButThird_of_perspective? {c d : ProjectionConfig α}
    (same : c.SameView d) {m n : Mat4 α} (hm : c.perspective? = .ok m)
    (hn : d.perspective? = .ok n) :
    m.SameButThird n := by
  rcases rows_of_perspective? hm with ⟨a, t, f, ha, ht, hf, hm0, hm1, hm3⟩
  rcases rows_of_perspective? hn with ⟨a', t', f', ha', ht', hf', hn0, hn1, hn3⟩
  rw [same.width, same.height, ha'] at ha
  rw [same.fov, ht'] at ht
  cases ha
  cases ht
  rw [hf'] at hf
  cases hf
  exact ⟨hm0.trans hn0.symm, hm1.trans hn1.symm, hm3.trans hn3.symm⟩

theorem sameButDepth_of_config {c d : ProjectionConfig α} (same : c.SameView d)
    {p q : Projector α} (hp : ofConfig? c = .ok p) (hq : ofConfig? d = .ok q) :
    SameButDepth p q := by
  rcases exists_of_bind_ok hp with ⟨m, hm, hp⟩
  rcases exists_of_bind_ok hq with ⟨n, hn, hq⟩
  cases hp
  cases hq
  refine ⟨same, ?_, sameButThird_of_perspective? same hm hn⟩
  unfold ProjectionConfig.camera
  rw [same.cameraDistance]

/-- A projector that has just been created, or whose latest request was
served. -/
inductive Settled : Projector α -> Prop where
  | created {c : ProjectionConfig α} {p : Projector α}
      (made : ofConfig? c = .ok p) : Settled p
  | served {r : Request α} {p₀ p : Projector α}
      (done : r.act.perform p₀ = (p, .ok ())) : Settled p

theorem config_of_ofConfig? {c : ProjectionConfig α} {p : Projector α}
    (h : ofConfig? c = .ok p) :
    p.config = c := by
  rcases exists_of_bind_ok h with ⟨m, _, h⟩
  cases h
  rfl

theorem Request.serves {r : Request α} {p q : Projector α}
    {e : Except Failure Unit} (h : r.act.perform p = (q, e)) :
    Serves r p q e := by
  have hserves := serves_perform r p
  rw [h] at hserves
  exact hserves

theorem Settled.fresh {p : Projector α} (h : Settled p) :
    ofConfig? p.config = .ok p := by
  cases h with
  | created made => rw [config_of_ofConfig? made, made]
  | served done => exact (Request.serves done).fresh.1

/-!
# Further requests
-/

theorem SameButDepth.request {p q p' q' : Projector α} (h : SameButDepth p q)
    {r : Request α} {e f : Except Failure Unit} (hp : Serves r p p' e)
    (hq : Serves r q q' f) (alike : e.isOk = f.isOk) : SameButDepth p' q' := by
  have hconfig : forall {c d : ProjectionConfig α},
      (forall f, c.get f = (given? r.changes f).getD (p.config.get f)) ->
      (forall f, d.get f = (given? r.changes f).getD (q.config.get f)) ->
        c.SameView d := by
    intro c d hc hd
    apply ProjectionConfig.SameView.of_get
    intro f hf
    rw [hc, hd, h.config.get hf]
  have hcamera : forall {c d : ProjectionConfig α},
      c.SameView d -> c.camera = d.camera := by
    intro c d same
    unfold ProjectionConfig.camera
    rw [same.cameraDistance]
  cases hp with
  | refused n asked unknown =>
      cases hq with
      | refused n' asked' unknown' => exact h
      | rebuilt d m known given built => cases alike
      | stuck d e known given failed =>
          rcases known n asked with ⟨f, hf⟩
          exact absurd hf (unknown f)
  | rebuilt c m known given built =>
      cases hq with
      | refused n' asked' unknown' => cases alike
      | rebuilt d m' known' given' built' =>
          have hsame := hconfig given given'
          exact ⟨hsame, hcamera hsame,
            sameButThird_of_perspective? hsame built built'⟩
      | stuck d e known' given' failed => cases alike
  | stuck c e known given failed =>
      cases hq with
      | refused n' asked' unknown' =>
          rcases known n' asked' with ⟨f, hf⟩
          exact absurd hf (unknown' f)
      | rebuilt d m known' given' built => cases alike
      | stuck d e' known' given' failed' =>
          have hsame := hconfig given given'
          exact ⟨hsame, hcamera hsame, h.perspective⟩

def afterAll (rs : List (Request α)) (p : Projector α) : Projector α :=
  rs.foldl (fun p r => (r.act.perform p).1) p

/-- Which of some requests are served. -/
def served : List (Request α) -> Projector α -> List Bool
  | [], _ => []
  | r :: rs, p => (r.act.perform p).2.isOk :: served rs (r.act.perform p).1

theorem SameButDepth.requests {p q : Projector α} (h : SameButDepth p q)
    (rs : List (Request α)) (alike : served rs p = served rs q) :
    SameButDepth (afterAll rs p) (afterAll rs q) := by
  induction rs generalizing p q with
  | nil => exact h
  | cons r rs ih =>
      rcases List.cons.inj alike with ⟨hfirst, hrest⟩
      have hnext := h.request (serves_perform r p) (serves_perform r q) hfirst
      exact ih hnext hrest

theorem sameButDepth_of_assign {p q : Projector α} (settled : Settled p)
    {f : Field} (depth : f.isDepth = true) {v : α}
    (done : (Request.assign f v).act.perform p = (q, .ok ())) :
    SameButDepth p q := by
  rcases (Request.serves done).fresh with ⟨hfresh, hgiven⟩
  have hsame : p.config.SameView q.config := by
    apply ProjectionConfig.SameView.of_get
    intro g hg
    have hother : g ≠ f := by
      rintro rfl
      rw [depth] at hg
      cases hg
    have hname : (g.name == f.name) = false :=
      beq_false_of_ne fun hname =>
        hother (ProjectionConfig.Field.name_injective hname)
    have hnone : given? (Request.assign f v).changes g = none := by
      show List.lookup g.name [(f.name, v)] = none
      rw [List.lookup_cons, hname]
      rfl
    rw [hgiven, hnone]
    rfl
  exact sameButDepth_of_config hsame settled.fresh hfresh

end settings

/-- The range of depths does not show on the screen.  Settings that agree in
everything else and make projectors make ones that put every point and every
batch in the same places, to the bit, and refuse the same angles.  So if a
projector has been created or has served its latest request, a plane of depth
that is assigned to it and accepted moves nothing, now or after any further
requests that it serves or refuses as it would have without that. -/
theorem depth_range_off_screen [Scalar Float] :
    (forall (c d : ProjectionConfig Float) (p q : Projector Float),
        c.width = d.width -> c.height = d.height -> c.fov = d.fov ->
        c.cameraDistance = d.cameraDistance -> ofConfig? c = .ok p ->
          ofConfig? d = .ok q ->
        SameScreen p q)
      ∧ forall (p q : Projector Float) (f : Field) (v : Float), Settled p ->
          f = .zNear ∨ f = .zFar ->
            (Request.assign f v).act.perform p = (q, .ok ()) ->
          SameScreen p q
            ∧ forall rs,
              served rs p = served rs q ->
                SameScreen (afterAll rs p) (afterAll rs q) := by
  constructor
  · intro c d p q width height fov cameraDistance hp hq
    exact (sameButDepth_of_config ⟨width, height, fov, cameraDistance⟩ hp
      hq).sameScreen
  · intro p q f v settled hf done
    have hdepth : f.isDepth = true := by
      rcases hf with rfl | rfl
      · rfl
      · rfl
    have hsame := sameButDepth_of_assign settled hdepth done
    exact ⟨hsame.sameScreen,
      fun rs alike => (hsame.requests rs alike).sameScreen⟩

/-- The far plane of the square screen is moved from two to three: the
perspective is another one, and no point moves. -/
theorem square_screen_deepened :
    letI := nearZero
    exists q : Projector Float, ofConfig? squareScreen.config = .ok squareScreen
      ∧ (Request.assign .zFar 3).act.perform squareScreen = (q, .ok ())
      ∧ ofConfig? { squareScreen.config with zFar := 3 } = .ok q
      ∧ q.perspective ≠ squareScreen.perspective
      ∧ SameScreen squareScreen q
      ∧ forall rs, served rs squareScreen = served rs q ->
          SameScreen (afterAll rs squareScreen) (afterAll rs q) := by
  let := nearZero
  have hworks :
      ((Request.assign .zFar 3).act.perform squareScreen).2 = .ok () := by
    decide +kernel
  have hserved := Act.perform_of_result hworks
  have hconfig : ((Request.assign .zFar 3).act.perform squareScreen).1.config =
      { squareScreen.config with zFar := 3 } := by
    decide +kernel
  have hdeeper : ofConfig? { squareScreen.config with zFar := 3 } =
      .ok ((Request.assign .zFar 3).act.perform squareScreen).1 := by
    rw [← hconfig]
    exact (Request.serves hserved).fresh.1
  refine ⟨_, made_squareScreen, hserved, hdeeper, by decide +kernel, ?_, ?_⟩
  · exact depth_range_off_screen.1 squareScreen.config
      { squareScreen.config with zFar := 3 }
      squareScreen _ rfl rfl rfl rfl made_squareScreen hdeeper
  · exact (depth_range_off_screen.2 squareScreen _ .zFar 3
      (.created made_squareScreen) (.inr rfl) hserved).2

end Projector
end WireView
