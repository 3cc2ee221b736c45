import WireView.Proofs.Act
import WireView.Proofs.Projection.Batch

/-!
# Changing the settings of a projector

A request names fields and gives them values.  An unknown name refuses the
request as a whole.  Otherwise the named fields have their new values and the
camera follows, and then the perspective is built, which fails for settings that
admit none.

So after a request that succeeds the matrices belong to the settings, whatever
failed before.  A request that fails while the perspective is built has changed
the settings and the camera by then, and the perspective that is kept does not
belong to them.
-/

namespace WireView

namespace ProjectionConfig

variable {α : Type}

/-!
# Fields by name
-/

theorem ext_get {c d : ProjectionConfig α} (h : forall f, c.get f = d.get f) :
    c = d := by
  rcases c with ⟨w, h', fov, near, far, distance⟩
  rcases d with ⟨w', h'', fov', near', far', distance'⟩
  have hw : w = w' := h .width
  have hh : h' = h'' := h .height
  have hfov : fov = fov' := h .fov
  have hnear : near = near' := h .zNear
  have hfar : far = far' := h .zFar
  have hdistance : distance = distance' := h .cameraDistance
  rw [hw, hh, hfov, hnear, hfar, hdistance]

theorem Field.name_injective {f g : Field} (h : f.name = g.name) : f = g := by
  have hf := Field.ofName?_name f
  rw [h, Field.ofName?_name] at hf
  exact (Except.ok.inj hf).symm

theorem Field.ofName?_cases (s : String) :
    (exists f : Field, f.name = s ∧ Field.ofName? s = .ok f)
      ∨ (forall f : Field, f.name ≠ s)
        ∧ Field.ofName? s =
          .error
            (if s = reservedName then .reservedField .config
             else .unknownField s) := by
  unfold Field.ofName?
  cases hfind : Field.all.find? fun f => f.name == s with
  | some f =>
      have hfound := List.find?_some hfind
      exact .inl ⟨f, eq_of_beq hfound, rfl⟩
  | none =>
      refine .inr ⟨fun f hf => ?_, rfl⟩
      have hnone := List.find?_eq_none.mp hfind f (by cases f <;> decide)
      exact hnone (beq_iff_eq.mpr hf)

def given? (changes : List (String × α)) (f : Field) : Option α :=
  changes.reverse.lookup f.name

def named (changes : List (Field × α)) : List (String × α) :=
  changes.map fun change => (change.1.name, change.2)

theorem lookup_named (changes : List (Field × α)) (f : Field) :
    (named changes).lookup f.name = changes.lookup f := by
  induction changes with
  | nil => rfl
  | cons change changes ih =>
      rcases change with ⟨g, v⟩
      show List.lookup f.name ((g.name, v) :: named changes) = _
      rw [List.lookup_cons, List.lookup_cons, ih]
      by_cases h : f = g
      · rw [h, beq_self_eq_true, beq_self_eq_true]
      · rw [beq_false_of_ne h,
          beq_false_of_ne fun hname => h (Field.name_injective hname)]

theorem get_setAll (c : ProjectionConfig α) (changes : List (Field × α))
    (f : Field) :
    (c.setAll changes).get f = (given? (named changes) f).getD (c.get f) := by
  unfold given? named
  rw [← List.map_reverse]
  show _ = (List.lookup f.name (named changes.reverse)).getD _
  rw [lookup_named]
  induction changes generalizing c with
  | nil => rfl
  | cons change changes ih =>
      show ((c.set change.1 change.2).setAll changes).get f = _
      rw [ih, List.reverse_cons, List.lookup_append, get_set]
      cases changes.reverse.lookup f with
      | some v => rfl
      | none =>
          show _ = (List.lookup f [change]).getD _
          rw [List.lookup_cons]
          by_cases h : f = change.1
          · rw [if_pos h, h, beq_self_eq_true]
            rfl
          · rw [if_neg h, beq_false_of_ne h]
            rfl

theorem readChanges_cases (changes : List (String × α)) :
    (exists cs, named cs = changes ∧ readChanges changes = .ok cs)
      ∨ exists n, n ∈ changes.map Prod.fst ∧ (forall f : Field, f.name ≠ n)
        ∧ readChanges changes =
          .error
            (if n = reservedName then .reservedField .config
             else .unknownField n) := by
  unfold readChanges
  induction changes with
  | nil => exact .inl ⟨[], rfl, rfl⟩
  | cons change changes ih =>
      rcases change with ⟨s, v⟩
      rw [List.mapM_cons]
      rcases Field.ofName?_cases s with ⟨f, hf, hread⟩ | ⟨hunknown, hread⟩
      · rw [hread]
        rcases ih with ⟨cs, hcs, hrest⟩ | ⟨n, hn, hunknown, hrest⟩
        · rw [hrest]
          refine .inl ⟨(f, v) :: cs, ?_, rfl⟩
          show (f.name, v) :: named cs = _
          rw [hf, hcs]
        · rw [hrest]
          exact .inr ⟨n, List.mem_cons_of_mem _ hn, hunknown, rfl⟩
      · rw [hread]
        exact .inr ⟨s, List.mem_cons_self, hunknown, rfl⟩

/-!
# Settings without a perspective
-/

section perspective

variable [OfNat α 0] [OfNat α 1] [Sub α] [Mul α] [Neg α] [Div α] [Scalar α]

/-- The screen has no width, half the angle of view has no tangent or a tangent
of zero, or the depth has no extent. -/
def Degenerate (c : ProjectionConfig α) : Prop :=
  Scalar.isZero c.width = true ∨ Scalar.isInfinite (c.fov * Scalar.half) = true
    ∨ Scalar.isZero (Scalar.tan (c.fov * Scalar.half)) = true
    ∨ Scalar.isZero (c.zFar - c.zNear) = true

theorem perspective?_cases (c : ProjectionConfig α) :
    (exists m, c.perspective? = .ok m ∧ ¬ c.Degenerate)
      ∨ exists e, c.perspective? = .error e ∧ c.Degenerate
        ∧ (e = .divisionByZero ∨ e = .undefinedAngle) := by
  unfold perspective? Mat4.perspective? Scalar.divide? Scalar.tan? Degenerate
  dsimp only [bind, Except.bind]
  by_cases hwidth : Scalar.isZero c.width = true
  · rw [if_pos hwidth]
    exact .inr ⟨_, rfl, .inl hwidth, .inl rfl⟩
  rw [if_neg hwidth]
  by_cases hangle : Scalar.isInfinite (c.fov * Scalar.half) = true
  · rw [if_pos hangle]
    exact .inr ⟨_, rfl, .inr (.inl hangle), .inr rfl⟩
  rw [if_neg hangle]
  dsimp only
  by_cases htan : Scalar.isZero (Scalar.tan (c.fov * Scalar.half)) = true
  · rw [if_pos htan]
    exact .inr ⟨_, rfl, .inr (.inr (.inl htan)), .inl rfl⟩
  rw [if_neg htan]
  -- both quotients of the depth have one divisor
  by_cases hdepth : Scalar.isZero (c.zFar - c.zNear) = true
  · rw [if_pos hdepth]
    exact .inr ⟨_, rfl, .inr (.inr (.inr hdepth)), .inl rfl⟩
  rw [if_neg hdepth, if_neg hdepth]
  refine .inl ⟨_, rfl, ?_⟩
  rintro (h | h | h | h)
  · exact hwidth h
  · exact hangle h
  · exact htan h
  · exact hdepth h

end perspective

end ProjectionConfig

namespace Projector

open ProjectionConfig (Field given? named reservedName)

variable {α : Type}

/-!
# Requests
-/

inductive Request (α : Type) where
  | configure (changes : List (String × α))
  | assign (f : Field) (v : α)
  | resize (width height : α)

def Request.changes : Request α -> List (String × α)
  | .configure changes => changes
  | .assign f v => [(f.name, v)]
  | .resize width height =>
      [(Field.width.name, width), (Field.height.name, height)]

variable [OfNat α 0] [OfNat α 1] [Sub α] [Mul α] [Neg α] [Div α] [Scalar α]

def Request.act : Request α -> Act (Projector α) Unit
  | .configure changes => Projector.configure changes
  | .assign f v => change [(f, v)]
  | .resize width height => Projector.resize width height

/-- The ways in which a request can end: a name is unknown and nothing changes,
or the named fields and the camera are changed and the perspective is built, or
they are changed and it is not. -/
inductive Serves (r : Request α) (p : Projector α) :
    Projector α -> Except Failure Unit -> Prop where
  | refused (n : String) (asked : n ∈ r.changes.map Prod.fst)
      (unknown : forall f : Field, f.name ≠ n) :
      Serves r p p
        (.error
          (if n = reservedName then .reservedField .projector
           else .unknownField n))
  | rebuilt (c : ProjectionConfig α) (m : Mat4 α)
      (known : forall n,
        n ∈ r.changes.map Prod.fst -> exists f : Field, f.name = n)
      (given : forall f, c.get f = (given? r.changes f).getD (p.config.get f))
      (built : c.perspective? = .ok m) : Serves r p ⟨c, c.camera, m⟩ (.ok ())
  | stuck (c : ProjectionConfig α) (e : Failure)
      (known : forall n,
        n ∈ r.changes.map Prod.fst -> exists f : Field, f.name = n)
      (given : forall f, c.get f = (given? r.changes f).getD (p.config.get f))
      (failed : c.perspective? = .error e) :
      Serves r p ⟨c, c.camera, p.perspective⟩ (.error e)

theorem perform_adopt (c : ProjectionConfig α) (p : Projector α) :
    (adopt c).perform p =
      match c.perspective? with
      | .ok m => (⟨c, c.camera, m⟩, .ok ())
      | .error e => (⟨c, c.camera, p.perspective⟩, .error e) := by
  unfold adopt
  rw [Act.perform_bind, Act.perform_modify]
  simp only [Act.perform_bind, Act.perform_ofResult]
  cases c.perspective? <;> rfl

theorem perform_change (cs : List (Field × α)) (p : Projector α) :
    (change cs).perform p = (adopt (p.config.setAll cs)).perform p := by
  unfold change
  rw [Act.perform_bind, Act.perform_get]

theorem perform_configure (changes : List (String × α)) (p : Projector α) :
    (configure changes).perform p =
      if changes.any fun c => c.1 == reservedName then
        (p, .error (.reservedField .projector))
      else
        match ProjectionConfig.readChanges changes with
        | .ok cs => (change cs).perform p
        | .error e => (p, .error e) := by
  unfold configure
  split
  · rfl
  · cases hread : ProjectionConfig.readChanges changes <;> rfl

theorem act_eq_configure (r : Request α) (p : Projector α) :
    r.act.perform p = (configure r.changes).perform p := by
  cases r with
  | configure changes => rfl
  | assign f v => cases f <;> rfl
  | resize width height => rfl

theorem serves_perform (r : Request α) (p : Projector α) :
    Serves r p (r.act.perform p).1 (r.act.perform p).2 := by
  rw [act_eq_configure, perform_configure]
  split
  · rename_i hreserved
    rcases List.any_eq_true.mp hreserved with ⟨change, hchange, hname⟩
    have hunknown : forall f : Field, f.name ≠ reservedName := by
      intro f
      cases f <;> decide
    have hasked : reservedName ∈ r.changes.map Prod.fst :=
      eq_of_beq hname ▸ List.mem_map_of_mem hchange
    have hrefused := Serves.refused (p := p) reservedName hasked hunknown
    rw [if_pos rfl] at hrefused
    exact hrefused
  · rename_i hfree
    rcases ProjectionConfig.readChanges_cases r.changes with
      ⟨cs, hnamed, hread⟩ | ⟨n, hn, hunknown, hread⟩
    · have hknown : forall n, n ∈ r.changes.map Prod.fst -> exists f : Field,
          f.name = n := by
        intro n hn
        rw [← hnamed] at hn
        rcases List.mem_map.mp hn with ⟨_, hchange, rfl⟩
        rcases List.mem_map.mp hchange with ⟨change, _, rfl⟩
        exact ⟨change.1, rfl⟩
      have hgiven := p.config.get_setAll cs
      rw [hnamed] at hgiven
      rw [hread]
      dsimp only
      rw [perform_change, perform_adopt]
      cases hbuilt : (p.config.setAll cs).perspective? with
      | ok m => exact .rebuilt _ m hknown hgiven hbuilt
      | error e => exact .stuck _ e hknown hgiven hbuilt
    · have hnotReserved : n ≠ reservedName := by
        rintro rfl
        rcases List.mem_map.mp hn with ⟨change, hchange, hname⟩
        exact hfree
          (List.any_eq_true.mpr ⟨change, hchange, beq_iff_eq.mpr hname⟩)
      have hrefused := Serves.refused (p := p) n hn hunknown
      rw [if_neg hnotReserved] at hrefused
      rw [hread, if_neg hnotReserved]
      exact hrefused

/-!
# Matrices that belong to the settings
-/

theorem ofConfig?_of_built {c : ProjectionConfig α} {m : Mat4 α}
    (h : c.perspective? = .ok m) :
    ofConfig? c = .ok ⟨c, c.camera, m⟩ := by
  unfold ofConfig?
  rw [h]
  rfl

theorem Serves.fresh {r : Request α} {p q : Projector α}
    (h : Serves r p q (.ok ())) :
    ofConfig? q.config = .ok q
      ∧ forall f,
        q.config.get f = (given? r.changes f).getD (p.config.get f) := by
  cases h with
  | rebuilt c m known given built => exact ⟨ofConfig?_of_built built, given⟩

/-- The camera belongs to the settings, and so does the perspective if they
admit one. -/
structure Current (p : Projector α) : Prop where
  camera : p.camera = p.config.camera
  perspective : forall m, p.config.perspective? = .ok m -> p.perspective = m

theorem current_adopt (c : ProjectionConfig α) (p : Projector α) :
    Current ((adopt c).perform p).1 := by
  rw [perform_adopt]
  cases hbuilt : c.perspective? with
  | ok m => exact ⟨rfl, fun m' hm' => Except.ok.inj (hbuilt.symm.trans hm')⟩
  | error e => exact ⟨rfl, fun m hm => by cases hbuilt.symm.trans hm⟩

theorem current_ofConfig {c : ProjectionConfig α} {p : Projector α}
    (h : ofConfig? c = .ok p) :
    Current p := by
  cases hbuilt : c.perspective? with
  | ok m =>
      rw [ofConfig?_of_built hbuilt] at h
      cases h
      exact ⟨rfl, fun m' hm' => Except.ok.inj (hbuilt.symm.trans hm')⟩
  | error e =>
      unfold ofConfig? at h
      rw [hbuilt] at h
      cases h

theorem current_configure {p : Projector α} (h : Current p)
    (changes : List (String × α)) :
    Current ((configure changes).perform p).1 := by
  rw [perform_configure]
  split
  · exact h
  · cases ProjectionConfig.readChanges changes with
    | error e => exact h
    | ok cs =>
        dsimp only
        rw [perform_change]
        exact current_adopt _ p

/-!
# Runs of requests
-/

theorem Reachable.current [Scalar Float] {p : Projector Float}
    (h : Reachable p) : Current p := by
  induction h with
  | created h => exact current_ofConfig h
  | changed changes _ ih =>
      rw [perform_change]
      exact current_adopt _ _
  | configured changes _ ih => exact current_configure ih changes

/-- Whatever requests came before, failed ones included: the camera is that of
the settings, and the perspective is theirs if they admit one.  After a request
that succeeds they do, and the projector is the one that its settings make, so
it puts all points where that one does.  Fields that the request does not name
keep their values.  Requests that name no common field and succeed in either
order lead to the same projector in either order. -/
theorem matrices_belong_to_settings [Scalar Float] {p : Projector Float}
    (reached : Reachable p) :
    (p.camera = Mat4.translation 0 0 p.config.cameraDistance
        ∧ forall m, p.config.perspective? = .ok m -> p.perspective = m)
      ∧ (forall (r : Request Float) q, r.act.perform p = (q, .ok ()) ->
          Mat4.perspective? q.config.width q.config.height q.config.fov
              q.config.zNear q.config.zFar = .ok q.perspective
            ∧ q.camera = Mat4.translation 0 0 q.config.cameraDistance
            ∧ ofConfig? q.config = .ok q
            ∧ forall f,
              q.config.get f = (given? r.changes f).getD (p.config.get f))
      ∧ forall (r s : Request Float) p₁ p₂ q₁ q₂,
          (forall f, given? r.changes f = none ∨ given? s.changes f = none) ->
          r.act.perform p = (p₁, .ok ()) -> s.act.perform p₁ = (q₁, .ok ()) ->
          s.act.perform p = (p₂, .ok ()) -> r.act.perform p₂ = (q₂, .ok ()) ->
            q₁ = q₂ := by
  have hserved : forall {p q : Projector Float} {r : Request Float},
      r.act.perform p = (q, .ok ()) -> Serves r p q (.ok ()) := by
    intro p q r hr
    have hserves := serves_perform r p
    rw [hr] at hserves
    exact hserves
  refine ⟨⟨reached.current.camera, reached.current.perspective⟩, ?_, ?_⟩
  · intro r q hr
    cases hserved hr with
    | rebuilt c m known given built =>
        exact ⟨built, rfl, ofConfig?_of_built built, given⟩
  · intro r s p₁ p₂ q₁ q₂ hdisjoint hr hs hs' hr'
    rcases (hserved hr).fresh with ⟨_, hp₁⟩
    rcases (hserved hs).fresh with ⟨hfresh, hq₁⟩
    rcases (hserved hs').fresh with ⟨_, hp₂⟩
    rcases (hserved hr').fresh with ⟨hfresh', hq₂⟩
    have hconfig : q₁.config = q₂.config := by
      apply ProjectionConfig.ext_get
      intro f
      rw [hq₁, hp₁, hq₂, hp₂]
      rcases hdisjoint f with hnone | hnone <;> rw [hnone] <;> rfl
    rw [hconfig] at hfresh
    exact Except.ok.inj (hfresh.symm.trans hfresh')

/-- The far plane is put where the near plane is, which fails, and then beyond
it: the matrices belong to the settings again. -/
theorem depth_mended :
    letI := nearZero
    exists p q : Projector Float, Reachable p
      ∧ (Request.assign .zFar 1).act.perform squareScreen =
        (p, .error .divisionByZero)
      ∧ (Request.assign .zFar 3).act.perform p = (q, .ok ())
      ∧ q.config.zFar = 3 ∧ ofConfig? q.config = .ok q := by
  let := nearZero
  have reached :
      Reachable ((Request.assign .zFar 1).act.perform squareScreen).1 :=
    .changed [(.zFar, 1)] reachable_squareScreen
  have hfails :
      ((Request.assign .zFar 1).act.perform squareScreen).2 =
        .error .divisionByZero := by
    decide +kernel
  have hworks : ((Request.assign .zFar 3).act.perform
      ((Request.assign .zFar 1).act.perform squareScreen).1).2 = .ok () := by
    decide +kernel
  have hfailed := Act.perform_of_result hfails
  have hserved := Act.perform_of_result hworks
  rcases (matrices_belong_to_settings reached).2.1 (.assign .zFar 3) _
    hserved with
    ⟨_, _, hfresh, hgiven⟩
  exact ⟨_, _, reached, hfailed, hserved, hgiven .zFar, hfresh⟩

/-- Requests that fail.  An unknown name is refused, and the projector is as it
was.  Any other failure is that of settings that admit no perspective: the named
fields have their new values by then and the camera is theirs, while the
perspective is still the one from before and belongs to no settings in force; so
the projector is as it was only if the settings are. -/
theorem failed_request_keeps_perspective [Scalar Float] {p q : Projector Float}
    (reached : Reachable p) {r : Request Float} {e : Failure}
    (failed : r.act.perform p = (q, .error e)) :
    (exists n, n ∈ r.changes.map Prod.fst ∧ (forall f : Field, f.name ≠ n)
        ∧ e =
          (if n = reservedName then .reservedField .projector
           else .unknownField n)
        ∧ q = p)
      ∨ (forall n, n ∈ r.changes.map Prod.fst -> exists f : Field, f.name = n)
        ∧ (forall f,
          q.config.get f = (given? r.changes f).getD (p.config.get f))
        ∧ q.camera = Mat4.translation 0 0 q.config.cameraDistance
        ∧ q.perspective = p.perspective
        ∧ q.config.Degenerate ∧ q.config.perspective? = .error e
        ∧ (e = .divisionByZero ∨ e = .undefinedAngle)
        ∧ (q = p ↔ q.config = p.config) := by
  have hserves := serves_perform r p
  rw [failed] at hserves
  cases hserves with
  | refused n asked unknown => exact .inl ⟨n, asked, unknown, rfl, rfl⟩
  | stuck c e known given built =>
      have hdegenerate :
          c.Degenerate ∧ (e = .divisionByZero ∨ e = .undefinedAngle) := by
        rcases c.perspective?_cases with ⟨m, hm, _⟩ | ⟨e', he', hwhy⟩
        · cases hm.symm.trans built
        · cases he'.symm.trans built
          exact hwhy
      refine .inr
        ⟨known, given, rfl, rfl, hdegenerate.1, built, hdegenerate.2, ?_⟩
      constructor
      · intro hsame
        exact congrArg Projector.config hsame
      · intro hconfig
        have hcamera : p.camera = p.config.camera := reached.current.camera
        change c = p.config at hconfig
        rw [hconfig, ← hcamera]

/-- A far plane that is put where the near plane is leaves a perspective that is
not that of the settings. -/
theorem depth_lost :
    letI := nearZero
    exists q : Projector Float, Reachable squareScreen
      ∧ (Request.assign .zFar 1).act.perform squareScreen =
        (q, .error .divisionByZero)
      ∧ q.config.zFar = 1 ∧ q.perspective = squareScreen.perspective
      ∧ q.config.Degenerate := by
  let := nearZero
  have hfails :
      ((Request.assign .zFar 1).act.perform squareScreen).2 =
        .error .divisionByZero := by
    decide +kernel
  have hfailed := Act.perform_of_result hfails
  refine ⟨_, reachable_squareScreen, hfailed, ?_⟩
  rcases failed_request_keeps_perspective reachable_squareScreen
    (r := .assign .zFar 1) hfailed with
    ⟨n, hn, hunknown, _⟩ | ⟨_, hgiven, _, hperspective, hdegenerate, _⟩
  · exact absurd (List.mem_singleton.mp hn).symm (hunknown .zFar)
  · exact ⟨hgiven .zFar, hperspective, hdegenerate⟩

/-- A request for another distance and a depth without extent fails, and has put
another camera before the old perspective by then: points are put elsewhere than
before. -/
theorem failed_request_moves_points :
    letI := nearZero
    exists q : Projector Float, Reachable squareScreen
      ∧ (Request.configure [("camera_distance", 5), ("z_far", 1)]).act.perform
          squareScreen =
        (q, .error .divisionByZero)
      ∧ q.config ≠ squareScreen.config ∧ q.camera ≠ squareScreen.camera
      ∧ q.perspective = squareScreen.perspective
      ∧ (squareScreen.project? (Vec4.point 1 2 3) 0 0 0).toOption =
        some ⟨1 / 6 + 1, 1 / 3 + 1⟩
      ∧ (q.project? (Vec4.point 1 2 3) 0 0 0).toOption =
        some ⟨1 / 8 + 1, 1 / 4 + 1⟩ := by
  let := nearZero
  have hfails :
      ((Request.configure [("camera_distance", 5), ("z_far", 1)]).act.perform
        squareScreen).2 = .error .divisionByZero := by
    decide +kernel
  have hfailed := Act.perform_of_result hfails
  exact ⟨_, reachable_squareScreen,
    hfailed, by decide +kernel, by decide +kernel, by decide +kernel, by
      decide +kernel, by decide +kernel⟩

end Projector
end WireView
