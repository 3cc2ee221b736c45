import WireView.Drawing.Easel

/-!
# What a render loop drives

A logic answers keys, is set up when its loop starts, is updated and drawn once
a frame, and says whether the loop should go on.  Any of these may fail.  None
of them reaches the loop that drives it.

An answer to a key is whether the logic acted on it.
-/

namespace WireView

class LoopLogic (L : Type) where
  name : L -> String
  keyDown : String -> Act L Bool
  keyUp : String -> Act L Bool
  setUp : Float -> Act L (List Remark)
  update : Float -> Act L Unit
  draw : L -> Act Easel Unit
  isRunning : L -> Except Failure Bool

end WireView
