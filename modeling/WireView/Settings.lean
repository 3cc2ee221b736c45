import WireView.Number.Word
import WireView.Projection.Config

/-!
# Fixed settings

The sizes, colours and rates that the viewer uses throughout.
-/

namespace WireView

structure Color where
  red : Nat
  green : Nat
  blue : Nat
  deriving DecidableEq, BEq, Repr

def Color.toList (c : Color) : List Nat :=
  [c.red, c.green, c.blue]

def Color.share? (n : Int) : Except Failure Nat :=
  match Number.lowShare? n with
  | some s => if s < 256 then .ok s else .error .noColor
  | none => .error .noColor

/-- The colour of three shares, none of them out of range; a fourth one, its
opacity, does not show. -/
def Color.ofShares? (shares : List Int) : Except Failure Color := do
  match ← shares.mapM Color.share? with
  | [r, g, b] | [r, g, b, _] => .ok ⟨r, g, b⟩
  | _ => .error .noColor

namespace Settings

def pi : Float := 3.141592653589793

def canvasWidth : Nat := 480

def canvasHeight : Nat := 360

def desktopWidth : Nat := 1024

def desktopHeight : Nat := 768

def windowLimit : Nat := 16384

def fov : Float := pi / 2.0

def zNear : Float := 0.1

def zFar : Float := 1000.0

def cameraDistance : Float := 3.0

def rotationStep : Float := 0.1

def backgroundColor : Color := ⟨0, 0, 0⟩

def pointColor : Color := ⟨255, 255, 255⟩

def lineColor : Color := ⟨255, 192, 203⟩

def textColor : Color := ⟨255, 255, 255⟩

def windowColor : Color := ⟨24, 24, 24⟩

def pointRadius : Nat := 5

def lineWidth : Nat := 1

def fontName : String := "consolas"

def fontSize : Nat := 16

def arrowLength : Float := 80.0

def filterStrength : Float := 20.0

def targetRate : Nat := 60

/-!
# All settings by name
-/

inductive Setting where
  | real (x : Float)
  | whole (n : Nat)
  | text (s : String)
  | color (c : Color)

def listing : List (String × Setting) :=
  [ ("ARROW_LENGTH", .real arrowLength),
    ("BACKGROUND_COLOR", .color backgroundColor),
    ("CAMERA_DISTANCE", .real cameraDistance),
    ("CANVAS_HEIGHT", .whole canvasHeight),
    ("CANVAS_WIDTH", .whole canvasWidth), ("FONT_NAME", .text fontName),
    ("FONT_SIZE", .whole fontSize), ("FOV", .real fov),
    ("FPS_FILTER_STRENGTH", .real filterStrength),
    ("LINE_COLOR", .color lineColor), ("LINE_WIDTH", .whole lineWidth),
    ("POINT_COLOR", .color pointColor), ("POINT_RADIUS", .whole pointRadius),
    ("ROTATION_STEP", .real rotationStep), ("TARGET_FPS", .whole targetRate),
    ("TEXT_COLOR", .color textColor), ("Z_FAR", .real zFar),
    ("Z_NEAR", .real zNear) ]

end Settings

namespace ProjectionConfig

def ofSize (width height : Float) : ProjectionConfig Float where
  width := width
  height := height
  fov := Settings.fov
  zNear := Settings.zNear
  zFar := Settings.zFar
  cameraDistance := Settings.cameraDistance

def standard : ProjectionConfig Float :=
  ofSize 480.0 360.0

end ProjectionConfig
end WireView
