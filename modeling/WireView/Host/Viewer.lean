import WireView.Key
import WireView.Logic.LoopLogic
import WireView.Loop.FrameQueue
import WireView.Loop.Registry

/-!
# Viewers and their windows

A window offers a document to mount canvases in, a registry for keys and a frame
queue.  A viewer runs a loop on a window: while it runs, its keys are registered
there and, between two ticks, its next tick is pending under the handle that the
viewer keeps.

`Viewer.start` and `Viewer.halt` change a viewer and its window together; they
are the only places where a viewer's keys and ticks come and go, apart from the
tick itself.
-/

namespace WireView

inductive LoopState where
  | idle
  | running
  deriving DecidableEq, Repr

def LoopState.name : LoopState -> String
  | .idle => "idle"
  | .running => "running"

/-- What a frame queue runs: the tick of a viewer, or outside code. -/
inductive Callback (K : Type) where
  | tick (viewer : Nat)
  | outside (k : K)
  deriving DecidableEq, Repr

inductive Listener (K : Type) where
  | keys (motion : KeyMotion) (viewer : Nat)
  | outside (k : K)
  deriving DecidableEq, Repr

structure Document where
  body : Option Nat
  refusal : Option (Refusal × String) := none

structure Window (K : Type) where
  width : Int
  height : Int
  document : Option Document
  session : Nat
  queue : FrameQueue (Callback K) := {}
  registry : Registry (Listener K) := {}
  isClosed : Bool := false

structure Viewer (K L : Type) where
  window : Nat
  canvas : Nat
  easel : Easel
  logic : L
  devMode : Bool
  registry : Registry K := {}
  state : LoopState := .idle
  tickHandle : Option Nat := none
  isListening : Bool := false
  isClosed : Bool := false

def runningType : String := "running"

def frameType : String := "frame"

namespace Window

variable {K : Type} [DecidableEq K]

def subscribe (w : Window K) (g : Nat) : Window K :=
  let r := w.registry.add KeyMotion.down.type (.keys .down g)
  { w with registry := r.add KeyMotion.up.type (.keys .up g) }

def unsubscribe (w : Window K) (g : Nat) : Window K :=
  let r := w.registry.remove KeyMotion.down.type (.keys .down g)
  { w with registry := r.remove KeyMotion.up.type (.keys .up g) }

def dropTick (w : Window K) : Option Nat -> Window K
  | some h => { w with queue := w.queue.drop h }
  | none => w

end Window

namespace Viewer

variable {K L : Type} [DecidableEq K]

def requestTick (g : Nat) (v : Viewer K L) (w : Window K) :
    Viewer K L × Window K :=
  let (q, h) := w.queue.request (.tick g)
  ({ v with tickHandle := some h }, { w with queue := q })

def start (g : Nat) (v : Viewer K L) (w : Window K) : Viewer K L × Window K :=
  let (v, w) := requestTick g v (w.subscribe g)
  ({ v with isListening := true, state := .running }, w)

def unsubscribe (g : Nat) (v : Viewer K L) (w : Window K) :
    Viewer K L × Window K :=
  ({ v with isListening := false },
    if v.isListening then w.unsubscribe g else w)

def halt (g : Nat) (v : Viewer K L) (w : Window K) : Viewer K L × Window K :=
  let (v, w) := v.unsubscribe g w
  ({ v with tickHandle := none, state := .idle }, w.dropTick v.tickHandle)

def shut (g : Nat) (v : Viewer K L) (w : Window K) : Viewer K L × Window K :=
  let (v, w) := if v.state = .running then v.halt g w else (v, w)
  let (v, w) := v.unsubscribe g w
  ({ v with isClosed := true }, w)

end Viewer
end WireView
