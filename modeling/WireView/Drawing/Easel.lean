import WireView.Drawing.Stroke
import WireView.Remark
import WireView.Wireframe

/-!
# Easels

An easel draws on one surface.  It keeps its projector, whether the font has
been looked up, and the texts rendered so far: a text is rendered once, at its
first use, and the font is looked up before the first rendering.

What an easel does is recorded, newest first: the strokes it makes and the
remarks on them.  An act that fails keeps what was recorded before.
-/

namespace WireView

inductive EaselNote where
  | stroke (s : Stroke)
  | remark (r : Remark)
  deriving DecidableEq, Repr

structure Easel where
  width : Nat
  height : Nat
  projector : Projector Float
  hasFont : Bool := false
  rendered : List (String × Rendering) := []
  record : List EaselNote := []

namespace Easel

def surfaceConfig (width height : Nat) : ProjectionConfig Float :=
  .ofSize (Float.ofNat width) (Float.ofNat height)

def ofSize? (width height : Nat) : Except Failure Easel := do
  let p ← Projector.ofConfig? (surfaceConfig width height)
  .ok { width := width, height := height, projector := p }

def note (n : EaselNote) : Act Easel Unit :=
  modify fun e => { e with record := n :: e.record }

def stroke (s : Stroke) : Act Easel Unit :=
  note (.stroke s)

def center (e : Easel) : ScreenPoint Float :=
  ⟨Float.ofNat e.width / 2.0, Float.ofNat e.height / 2.0⟩

def clear : Act Easel Unit :=
  stroke (.fill Settings.backgroundColor)

def drawPoint {α : Type} [Coordinate α] (p : ScreenPoint α) :
    Act Easel Unit := do
  let c ← Act.ofResult p.pixel?
  stroke (.circle Settings.pointColor c Settings.pointRadius)

def drawLine {α : Type} [Coordinate α] (p q : ScreenPoint α) :
    Act Easel Unit := do
  let a ← Act.ofResult p.pixel?
  let b ← Act.ofResult q.pixel?
  stroke (.line Settings.lineColor a b Settings.lineWidth)

/-!
# Text
-/

def findFont : Act Easel Unit := do
  if !(← get).hasFont then
    stroke (.font Settings.fontName Settings.fontSize)
    modify fun e => { e with hasFont := true }

def render (s : String) : Act Easel Rendering := do
  stroke (.render s Settings.textColor)
  pure s

def renderText (s : String) : Act Easel Rendering := do
  match (← get).rendered.lookup s with
  | some r => pure r
  | none =>
      findFont
      let r ← render s
      modify fun e => { e with rendered := (s, r) :: e.rendered }
      pure r

def drawText (s : String) (p : ScreenPoint Float) : Act Easel Unit := do
  let r ← renderText s
  let corner ← Act.ofResult p.corner?
  stroke (.blit r corner)

/-!
# Wireframes
-/

section wireframe

variable {α : Type}

def vertexAt? (ps : List (ScreenPoint α)) (i : Int) :
    Except Failure (ScreenPoint α) := do
  let j ← position? .vertex ps.length i
  match ps[j]? with
  | some p => .ok p
  | none => .error (.outOfRange .vertex)

variable [Coordinate α]

def drawEdges (ps : List (ScreenPoint α)) :
    List (Int × Int) -> Nat -> Act Easel Nat
  | [], skipped => pure skipped
  | (a, b) :: rest, skipped => do
      let p ← Act.ofResult (vertexAt? ps a)
      let q ← Act.ofResult (vertexAt? ps b)
      if p.isDrawable && q.isDrawable then
        drawLine p q
        drawEdges ps rest skipped
      else
        drawEdges ps rest (skipped + 1)

def drawPoints : List (ScreenPoint α) -> Nat -> Act Easel Nat
  | [], skipped => pure skipped
  | p :: rest, skipped => do
      if p.isDrawable then
        drawPoint p
        drawPoints rest skipped
      else
        drawPoints rest (skipped + 1)

def drawProjected (ps : List (ScreenPoint α)) (edges : List (Int × Int)) :
    Act Easel Unit := do
  let skipped ← drawEdges ps edges 0
  let skipped ← drawPoints ps skipped
  if skipped ≠ 0 then
    note (.remark (.skipped skipped))

end wireframe

def drawWireframe (model : Wireframe Float) (rx ry rz : Float) :
    Act Easel (List (ScreenPoint Float)) := do
  let ps ← Act.ofResult ((← get).projector.projectAll? model.vertices rx ry rz)
  drawProjected ps model.edges
  pure ps

/-!
# Arrows
-/

def degrees (angle : Float) : Float :=
  angle * (180.0 / Settings.pi)

/-- The point at a distance from `p` in a direction, the vertical axis pointing
up. -/
def towards? (p : ScreenPoint Float) (angle : Float) (along : Float -> Float) :
    Except Failure (ScreenPoint Float) := do
  let t ← Turn.ofAngle? angle
  .ok ⟨p.x + along t.cos, p.y - along t.sin⟩

def drawWings (tip : ScreenPoint Float) (direction : Float) :
    List Float -> Act Easel Unit
  | [] => pure ()
  | offset :: rest => do
      let wing ← Act.ofResult
        (towards? tip (direction + offset) fun v =>
          v * Settings.arrowLength * 0.2)
      drawLine tip wing
      drawWings tip direction rest

/-- An arrow from the centre, `0` pointing right and a quarter turn up, labelled
in degrees. -/
def drawArrow (direction : Float) : Act Easel Unit := do
  let c := (← get).center
  let tip ← Act.ofResult
    (towards? c direction fun v => v * Settings.arrowLength)
  drawLine c tip
  drawWings tip direction [2.6, -2.6]
  drawPoint c
  drawText (Number.fixed 0 (degrees direction) ++ " deg") ⟨8.0, 8.0⟩

def configure (changes : List (String × Float)) : Act Easel Unit := do
  let e ← get
  let (p, result) := (Projector.configure changes).perform e.projector
  set { e with projector := p }
  Act.ofResult result
  note (.remark (.reconfigured p.config))

end Easel
end WireView
