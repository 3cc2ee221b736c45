import WireView.Clock.RateMeter
import WireView.CommandLine
import WireView.Host.Machine
import WireView.Logic.Logic
import WireView.Reentrant.Agent

/-!
# Sessions

A session shows one viewer in one window until the window is closed.  Escape
closes the window, `r` resets the viewer, `p` stops it or lets it run again.  A
meter follows the frame rate, which the window's caption shows once a second.

Input arrives in batches, each with the clock reading at which it is polled;
when there are no more, the window is closed.
-/

namespace WireView

open Reentrant

inductive Hook where
  | keyBindings
  | meter
  | runningLog
  deriving DecidableEq, Repr

structure Session where
  host : Host Hook Logic
  meter : RateMeter Float
  window : Nat
  viewer : Nat
  lastCaption : Float
  rate : Option Int

namespace Session

abbrev SessionOp : Type := Host.Op Hook Logic

def binding (key : String) (g : Nat) (h : Host Hook Logic) : Option SessionOp :=
  if key = "Escape" then
    some (.post [.quit])
  else
    if key = "r" then some (.reset g)
  else if key = "p" then
    match h.viewers[g]? with
    | some v => some (if v.state = .running then .stop g else .run g)
    | none => none
  else none

/-- The meter after a tick; a filter strength of zero would leave it as it
is. -/
def tickMeter (m : RateMeter Float) (now : Float) : RateMeter Float :=
  match m.tick? now with
  | .ok m => m
  | .error _ => m

def answer (g : Nat) (c : Host.Callee Hook) (m : RateMeter Float)
    (h : Host Hook Logic) :
    RateMeter Float × Host Hook Logic × Option SessionOp :=
  match c with
  | .key .keyBindings _ e => (m, h, binding e.key g h)
  | .viewer .meter _ _ => (tickMeter m h.clock, h, none)
  | .viewer .runningLog _ v =>
      let isRunning := (h.viewers[v]?).any fun v => v.state == .running
      (m, h.remark (.runningChanged isRunning), none)
  | _ => (m, h, none)

def agent (g : Nat) :
    Agent (RateMeter Float) (Host Hook Logic) SessionOp (Host.Callee Hook) :=
  ⟨answer g⟩

def perform (op : SessionOp) : Act Session Host.Value := do
  let s ← get
  let C := Host.component Hook Logic
  let m :
      Machine (Host Hook Logic) (Host.Task Hook) (Host.Callee Hook)
        Host.Value :=
    ⟨s.host, [], .ok .nothing⟩
  let (meter, m) :=
    Machine.play C (agent s.viewer) s.host.input.length s.meter (m.issue C op)
  set { s with host := m.world, meter := meter }
  Act.ofResult m.result

def onHost (f : Host Hook Logic -> Host Hook Logic) : Act Session Unit :=
  modify fun s => { s with host := f s.host }

/-!
# From start to end
-/

def title : String := "Wireframe"

def pictureOf (now : Float) : Option CommandLine.Picture -> Logic
  | some .arrow => .arrow (.start now)
  | _ => .standard

/-- A session on a host with its window open and its viewer made, not yet
running. -/
def openOn (h : Host Hook Logic) (o : CommandLine.Options) (now : Float) :
    Except Failure Session := do
  let create : Act (Host Hook Logic) (Nat × Nat) := do
    let a ← Host.openWindow Settings.canvasWidth Settings.canvasHeight title
    let g ← Host.createViewer (some a) none o.devMode (pictureOf now o.picture)
    pure (a, g)
  let (h, r) := create.perform h
  let (a, g) ← r
  .ok
    { host := h
      meter := .start Settings.filterStrength now
      window := a
      viewer := g
      lastCaption := now
      rate := o.rate }

def open? (o : CommandLine.Options) (now : Float)
    (naming : Key.Naming := Key.printed) : Except Failure Session := do
  openOn (← Host.start? now naming) o now

def connect : Act Session Unit := do
  let s ← get
  let _ ← perform (.observe s.viewer frameType .meter)
  let _ ← perform (.observe s.viewer runningType .runningLog)
  let _ ← perform (.listen s.window KeyMotion.down.type .keyBindings)

def feed (now : Float) (events : List InputEvent) : Act Session Unit :=
  onHost fun h =>
    { h with
      clock := now
      input := h.input ++ events
      journal := .polled :: h.journal }

def captionText (rate : Float) : String :=
  title ++ " - " ++ Number.fixed 1 rate ++ " fps"

def refreshCaption : Act Session Unit := do
  let s ← get
  let now := s.host.clock
  if 1.0 ≤ now - s.lastCaption then
    set { s with
      host := s.host.note (.caption (captionText s.meter.rate))
      lastCaption := now }

def round : Act Session Bool := do
  let s ← get
  match ← perform (.poll s.window) with
  | .flag true =>
      let _ ← perform (.frame s.window)
      let _ ← perform (.swap s.window)
      refreshCaption
      onHost fun h => h.note (.paced s.rate)
      pure true
  | _ => pure false

def rounds : List (Float × List InputEvent) -> Act Session Unit
  | [] => do
      feed (← get).host.clock [.quit]
      let _ ← round
  | (now, events) :: rest => do
      feed now events
      if ← round then
        rounds rest

def present (batches : List (Float × List InputEvent)) : Act Session Unit := do
  let s ← get
  let close : Act Session Unit := do
    let _ ← perform (.close s.viewer)
  tryCatch
    (do
      let _ ← perform (.run s.viewer)
      rounds batches)
    fun e => do
      close
      throw e
  close

def run (batches : List (Float × List InputEvent)) : Act Session Unit := do
  connect
  present batches
  let s ← get
  let _ ← perform (.shutDown s.window)

end Session
end WireView
