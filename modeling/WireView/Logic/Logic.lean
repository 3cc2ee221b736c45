import WireView.Logic.Compass
import WireView.Logic.LoopLogic
import WireView.Logic.Spin

/-!
# The logics of the viewer

The cube logic spins a wireframe, the arrow logic shows a compass.  A countdown
is a cube logic that ends the loop after a number of updates.  The bare logic
supports nothing but being asked whether it runs.
-/

namespace WireView

structure CubeShow where
  model : Wireframe Float
  spin : Spin Float

namespace CubeShow

def start (model : Wireframe Float) (step : Float) : CubeShow :=
  ⟨model, .start step⟩

def draw (c : CubeShow) : Act Easel Unit := do
  Easel.clear
  let r := c.spin.rotation
  let _ ← Easel.drawWireframe c.model r.rx r.ry r.rz

end CubeShow

def Compass.draw (c : Compass) : Act Easel Unit := do
  Easel.clear
  Easel.drawArrow c.direction

inductive Logic where
  | cube (scene : CubeShow)
  | arrow (compass : Compass)
  | bare
  | countdown (left : Int) (scene : CubeShow)

namespace Logic

def standard : Logic :=
  cube (.start .cube Settings.rotationStep)

def name : Logic -> String
  | cube _ => "GameLogic"
  | arrow _ => "ArrowLogic"
  | bare => "Logic"
  | countdown _ _ => "FiniteLogic"

def spin? : Logic -> Option (Spin Float)
  | cube s | countdown _ s => some s.spin
  | arrow _ | bare => none

def withSpin (l : Logic) (s : Spin Float) : Logic :=
  match l with
  | cube c => cube { c with spin := s }
  | countdown n c => countdown n { c with spin := s }
  | other => other

def onKey (spin : Spin Float -> Spin Float × Bool)
    (compass : Compass -> Compass × Bool) :
    Act Logic Bool := do
  match ← get with
  | cube c =>
      let (s, acted) := spin c.spin
      set (cube { c with spin := s })
      pure acted
  | countdown n c =>
      let (s, acted) := spin c.spin
      set (countdown n { c with spin := s })
      pure acted
  | arrow a =>
      let (a, acted) := compass a
      set (arrow a)
      pure acted
  | bare => throw .unsupported

def keyDown (key : String) : Act Logic Bool :=
  onKey (fun s => s.keyDown key) fun a => a.keyDown key

def keyUp (key : String) : Act Logic Bool :=
  onKey (fun s => s.keyUp key) fun a => a.keyUp key

def setUp (now : Float) : Act Logic (List Remark) := do
  match ← get with
  | cube c =>
      set (cube { c with spin := c.spin.reset })
      pure [.spinReset]
  | countdown n c =>
      set (countdown n { c with spin := c.spin.reset })
      pure [.spinReset]
  | arrow a =>
      set (arrow { a with timer := a.timer.reset now })
      pure []
  | bare => throw .unsupported

def update (now : Float) : Act Logic Unit := do
  match ← get with
  | cube c => set (cube { c with spin := c.spin.update })
  | countdown n c => set (countdown (n - 1) { c with spin := c.spin.update })
  | arrow a => set (arrow { a with timer := a.timer.tick now })
  | bare => throw .unsupported

def draw : Logic -> Act Easel Unit
  | cube c | countdown _ c => c.draw
  | arrow a => a.draw
  | bare => throw .unsupported

def isRunning : Logic -> Except Failure Bool
  | countdown left _ => .ok (decide (0 < left))
  | _ => .ok true

end Logic

instance : LoopLogic Logic where
  name := Logic.name
  keyDown := Logic.keyDown
  keyUp := Logic.keyUp
  setUp := Logic.setUp
  update := Logic.update
  draw := Logic.draw
  isRunning := Logic.isRunning

end WireView
