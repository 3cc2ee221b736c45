import WireView.Projection.Config
import WireView.Text.Quoted

/-!
# Remarks

A remark is one line of the running log: what happened, which part reports it
and how important it is.
-/

namespace WireView

inductive LogLevel where
  | debug
  | info
  | warning
  | error
  | critical
  deriving DecidableEq, Repr

namespace LogLevel

def all : List LogLevel :=
  [debug, info, warning, error, critical]

def name : LogLevel -> String
  | debug => "DEBUG"
  | info => "INFO"
  | warning => "WARNING"
  | error => "ERROR"
  | critical => "CRITICAL"

def rank : LogLevel -> Nat
  | debug => 0
  | info => 1
  | warning => 2
  | error => 3
  | critical => 4

def ofName? (s : String) : Option LogLevel :=
  all.find? fun l => l.name == s

end LogLevel

inductive Remark where
  | reconfigured (config : ProjectionConfig Float)
  | frameRan (frame ran : Nat)
  | canvasCreated (width height : Int)
  | windowOpened (width height : Int) (title : String)
  | windowClosed
  | viewerCreated (width height : Nat) (logic : String) (devMode : Bool)
  | loopStarted
  | loopStopped
  | viewerClosed
  | spinReset
  | skipped (count : Nat)
  | runningChanged (isRunning : Bool)
  deriving DecidableEq, Repr

namespace Remark

def level : Remark -> LogLevel
  | reconfigured _ | frameRan _ _ | canvasCreated _ _ | spinReset | skipped _ =>
      .debug
  | _ => .info

def source : Remark -> String
  | reconfigured _ => "engine.projection"
  | frameRan _ _ => "engine.scheduler"
  | canvasCreated _ _ => "engine.document"
  | windowOpened _ _ _ | windowClosed => "engine.app"
  | viewerCreated _ _ _ _ | loopStarted | loopStopped | viewerClosed =>
      "game.game"
  | spinReset => "game.logic"
  | skipped _ => "game.renderer"
  | runningChanged _ => "game.cli"

def flag (b : Bool) : String :=
  if b then "True" else "False"

def size (width height : Int) : String :=
  toString width ++ "x" ++ toString height

def message : Remark -> String
  | reconfigured c => "Projection reconfigured: " ++ c.text
  | frameRan frame ran =>
      "Frame " ++ frame.repr ++ " ran " ++ ran.repr ++ " callback(s)"
  | canvasCreated w h => "Created " ++ size w h ++ " canvas"
  | windowOpened w h title =>
      "Opened " ++ size w h ++ " window " ++ Text.quoted title
  | windowClosed => "Window closed"
  | viewerCreated w h logic devMode =>
      "Game created: canvas " ++ size w h ++ ", logic=" ++ logic ++
        ", dev_mode=" ++ flag devMode
  | loopStarted => "Render loop started"
  | loopStopped => "Render loop stopped"
  | viewerClosed => "Game closed"
  | spinReset => "Rotation and intent reset"
  | skipped n =>
      "Skipped " ++ n.repr ++ " primitive(s) with undrawable coordinates"
  | runningChanged b => "running=" ++ flag b

def passes (threshold : LogLevel) (r : Remark) : Bool :=
  decide (threshold.rank ≤ r.level.rank)

end Remark
end WireView
