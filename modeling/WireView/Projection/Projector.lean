import WireView.Act
import WireView.Projection.Config
import WireView.Space.Mat4

/-!
# Projectors

A projector takes points of the model to points of the screen: it turns about
the three axes in order, moves the model away from the camera, applies the
perspective, divides by the last component and maps the result into the
viewport.

The camera and perspective matrices are kept beside the settings.  A change of
settings that admits no perspective is a failure; settings and camera are
changed by then, and the perspective is still the previous one.

A batch is projected in stages, one matrix for all points at a time, with plain
division where a single point takes the reciprocal.  Its products are summed
onto a zero, so a sum of negative zeros is a positive one, other than for a
single point.
-/

namespace WireView

structure ScreenPoint (α : Type) where
  x : α
  y : α
  deriving DecidableEq, BEq, Repr

def ScreenPoint.toList {α : Type} (p : ScreenPoint α) : List α :=
  [p.x, p.y]

structure Projector (α : Type) where
  config : ProjectionConfig α
  camera : Mat4 α
  perspective : Mat4 α
  deriving DecidableEq, Repr

variable {α : Type} [OfNat α 0] [OfNat α 1] [Add α] [Sub α] [Mul α] [Neg α]
  [Div α] [Scalar α]

namespace ProjectionConfig

def camera (c : ProjectionConfig α) : Mat4 α :=
  Mat4.translation 0 0 c.cameraDistance

def perspective? (c : ProjectionConfig α) : Except Failure (Mat4 α) :=
  Mat4.perspective? c.width c.height c.fov c.zNear c.zFar

/-- A point of the square from `-1` to `1` placed in the viewport. -/
def viewport (c : ProjectionConfig α) (x y : α) : ScreenPoint α :=
  let halfWidth := Scalar.half * c.width
  let halfHeight := Scalar.half * c.height
  ⟨x * halfWidth + halfWidth, y * halfHeight + halfHeight⟩

end ProjectionConfig

namespace Projector

def ofConfig? (c : ProjectionConfig α) : Except Failure (Projector α) := do
  let m ← c.perspective?
  .ok ⟨c, c.camera, m⟩

def adopt (c : ProjectionConfig α) : Act (Projector α) Unit := do
  modify fun p => { p with config := c, camera := c.camera }
  let m ← Act.ofResult c.perspective?
  modify fun p => { p with perspective := m }

def change (changes : List (ProjectionConfig.Field × α)) :
    Act (Projector α) Unit := do
  adopt ((← get).config.setAll changes)

def configure (changes : List (String × α)) : Act (Projector α) Unit := do
  if changes.any fun c => c.1 == ProjectionConfig.reservedName then
    throw (.reservedField .projector)
  change (← Act.ofResult (ProjectionConfig.readChanges changes))

def resize (width height : α) : Act (Projector α) Unit :=
  change [(.width, width), (.height, height)]

/-!
# Single points
-/

/-- The point that is divided, for three given turns. -/
def carry (p : Projector α) (tx ty tz : Turn α) (v : Vec4 α) : Vec4 α :=
  let v := (Mat4.rotationX tx).apply v
  let v := (Mat4.rotationY ty).apply v
  let v := (Mat4.rotationZ tz).apply v
  p.perspective.apply (p.camera.apply v)

def toScreen (p : Projector α) (v : Vec4 α) : ScreenPoint α :=
  let r := Scalar.reciprocal v.w
  p.config.viewport (v.x * r) (v.y * r)

def projectTurned (p : Projector α) (tx ty tz : Turn α) (v : Vec4 α) :
    ScreenPoint α :=
  p.toScreen (p.carry tx ty tz v)

def project? (p : Projector α) (v : Vec4 α) (rx ry rz : α) :
    Except Failure (ScreenPoint α) := do
  let tx ← Turn.ofAngle? rx
  let ty ← Turn.ofAngle? ry
  let tz ← Turn.ofAngle? rz
  .ok (p.projectTurned tx ty tz v)

/-!
# Batches
-/

def stages (p : Projector α) (tx ty tz : Turn α) : List (Mat4 α) :=
  [Mat4.rotationX tx, Mat4.rotationY ty, Mat4.rotationZ tz, p.camera,
   p.perspective]

def projectAll? (p : Projector α) (vs : List (Vec4 α)) (rx ry rz : α) :
    Except Failure (List (ScreenPoint α)) := do
  let tx ← Turn.ofAngle? rx
  let ty ← Turn.ofAngle? ry
  let tz ← Turn.ofAngle? rz
  let carried :=
    (p.stages tx ty tz).foldl (fun vs m => vs.map m.applyFromZero) vs
  .ok (carried.map fun v =>
    let r := 1 / v.w
    p.config.viewport (v.x * r) (v.y * r))

end Projector
end WireView
