import WireView.Number.Notation
import WireView.Scalar

/-!
# Projection settings

The settings of a projection are six numbers, each of which can be changed by
the name of its field.  A list of changes is read as a whole: the first unknown
name refuses all of it.
-/

namespace WireView

structure ProjectionConfig (α : Type) where
  width : α
  height : α
  fov : α
  zNear : α
  zFar : α
  cameraDistance : α
  deriving DecidableEq, BEq, Repr

namespace ProjectionConfig

inductive Field where
  | width
  | height
  | fov
  | zNear
  | zFar
  | cameraDistance
  deriving DecidableEq, Repr

def Field.name : Field -> String
  | .width => "width"
  | .height => "height"
  | .fov => "fov"
  | .zNear => "z_near"
  | .zFar => "z_far"
  | .cameraDistance => "camera_distance"

def Field.all : List Field :=
  [.width, .height, .fov, .zNear, .zFar, .cameraDistance]

/-- The name under which settings are passed on as a whole, so that no field can
have it. -/
def reservedName : String := "self"

def Field.ofName? (s : String) : Except Failure Field :=
  match Field.all.find? fun f => f.name == s with
  | some f => .ok f
  | none =>
      .error
        (if s = reservedName then .reservedField .config else .unknownField s)

theorem Field.ofName?_name (f : Field) : Field.ofName? f.name = .ok f := by
  cases f <;> rfl

variable {α : Type}

def get (c : ProjectionConfig α) : Field -> α
  | .width => c.width
  | .height => c.height
  | .fov => c.fov
  | .zNear => c.zNear
  | .zFar => c.zFar
  | .cameraDistance => c.cameraDistance

def set (c : ProjectionConfig α) (f : Field) (v : α) : ProjectionConfig α :=
  match f with
  | .width => { c with width := v }
  | .height => { c with height := v }
  | .fov => { c with fov := v }
  | .zNear => { c with zNear := v }
  | .zFar => { c with zFar := v }
  | .cameraDistance => { c with cameraDistance := v }

theorem get_set (c : ProjectionConfig α) (f g : Field) (v : α) :
    (c.set f v).get g = if g = f then v else c.get g := by
  cases f <;> cases g <;> rfl

def setAll (c : ProjectionConfig α) (changes : List (Field × α)) :
    ProjectionConfig α :=
  changes.foldl (fun c change => c.set change.1 change.2) c

def readChanges (changes : List (String × α)) :
    Except Failure (List (Field × α)) :=
  changes.mapM fun change => (Field.ofName? change.1).map fun f => (f, change.2)

def values (c : ProjectionConfig α) : List α :=
  Field.all.map c.get

def text (c : ProjectionConfig Float) : String :=
  "ProjectionConfig("
    ++ String.intercalate ", "
      (Field.all.map fun f => f.name ++ "=" ++ Number.text (c.get f)) ++ ")"

end ProjectionConfig
end WireView
