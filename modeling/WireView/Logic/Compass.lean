import WireView.Clock.FrameTimer
import WireView.Key
import WireView.Settings

/-!
# Pointing by arrow keys

A compass points in the direction of the arrow key pressed last and times its
own frames.
-/

namespace WireView

def ControlKey.direction : ControlKey -> Float
  | arrowRight => 0.0
  | arrowUp => Settings.pi / 2.0
  | arrowLeft => Settings.pi
  | arrowDown => Settings.pi / 2.0 + Settings.pi

structure Compass where
  direction : Float
  timer : FrameTimer Float

namespace Compass

def start (now : Float) : Compass :=
  ⟨0.0, .start now⟩

def keyDown (c : Compass) (key : String) : Compass × Bool :=
  match ControlKey.ofName? key with
  | some k => ({ c with direction := k.direction }, true)
  | none => (c, false)

def keyUp (c : Compass) (key : String) : Compass × Bool :=
  (c, (ControlKey.ofName? key).isSome)

end Compass
end WireView
