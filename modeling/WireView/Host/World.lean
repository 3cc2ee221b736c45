import WireView.Host.Viewer
import WireView.Page.Tree

/-!
# The host

The host holds the windows and viewers, the canvases and containers they share,
the clock, the queue of input and the display.  Its journal notes all that can
be observed from outside, newest first.

Windows and viewers are numbered in the order of their creation.
-/

namespace WireView

inductive Note where
  | stroke (s : Stroke)
  | remark (r : Remark)
  | caption (text : String)
  | polled
  | paced (rate : Option Int)
  /-- A viewer's tick begins; it was requested under the handle. -/
  | tick (viewer handle : Nat)
  | key (viewer : Nat) (event : KeyEvent)
  deriving DecidableEq, Repr

/-- The display that all windows share; it has a size once a window has been
opened on it. -/
structure Display where
  isOpen : Bool := false
  session : Nat := 0
  size : Option (Nat × Nat) := none

/-- The size of the display for a window.  If neither width nor height is given,
it is that of the desktop.  If just one is missing, a first window has one pixel
instead and a further one leaves the display as it is. -/
def Display.sizeFor? (d : Display) (width height : Nat) :
    Except Failure (Nat × Nat) :=
  if width = 0 ∧ height = 0 then
    .ok (Settings.desktopWidth, Settings.desktopHeight)
  else
    match d.size with
    | some old =>
        if width = 0 ∨ height = 0 then
          .ok old
        else
          if Image.hasRoom width height then .ok (width, height)
        else .error .outOfMemory
    | none =>
        if Settings.windowLimit < width ∨ Settings.windowLimit < height then
          .error .windowTooLarge
        else .ok (max width 1, max height 1)

structure Host (K L : Type) where
  easel : Easel
  clock : Float := 0.0
  windows : Array (Window K) := #[]
  viewers : Array (Viewer K L) := #[]
  tree : Tree := {}
  current : Option Nat := none
  input : List InputEvent := []
  display : Display := {}
  /-- What the keyboard calls its keys. -/
  naming : Key.Naming := Key.printed
  /-- Of every key event that has been sent, whether its default is
  prevented. -/
  prevented : Array Bool := #[]
  journal : List Note := []

def EaselNote.toNote : EaselNote -> Note
  | .stroke s => .stroke s
  | .remark r => .remark r

namespace Host

variable {K L : Type}

def start? (clock : Float) (naming : Key.Naming := Key.printed) :
    Except Failure (Host K L) := do
  let e ← Easel.ofSize? Settings.canvasWidth Settings.canvasHeight
  .ok { easel := e, clock := clock, naming := naming }

def note (h : Host K L) (n : Note) : Host K L :=
  { h with journal := n :: h.journal }

def remark (h : Host K L) (r : Remark) : Host K L :=
  h.note (.remark r)

def onWindow (h : Host K L) (a : Nat) (f : Window K -> Window K) : Host K L :=
  { h with windows := h.windows.modify a f }

def onViewer (h : Host K L) (g : Nat) (f : Viewer K L -> Viewer K L) :
    Host K L :=
  { h with viewers := h.viewers.modify g f }

def onLoop (h : Host K L) (g : Nat)
    (f : Viewer K L -> Window K -> Viewer K L × Window K) : Host K L :=
  match h.viewers[g]? with
  | none => h
  | some v =>
      match h.windows[v.window]? with
      | none => h
      | some w =>
          let r := f v w
          (h.onViewer g fun _ => r.1).onWindow v.window fun _ => r.2

def listeners (h : Host K L) (a : Nat) (type : String) : List (Listener K) :=
  ((h.windows[a]?).map fun w => w.registry.listeners type).getD []

def observers (h : Host K L) (g : Nat) (type : String) : List K :=
  ((h.viewers[g]?).map fun v => v.registry.listeners type).getD []

/-!
# Key events

All listeners share a key event, and each of them may prevent its default.
Events are numbered in the order in which they are sent.
-/

def addEvent (h : Host K L) (e : KeyEvent) : Host K L :=
  { h with prevented := h.prevented.push e.defaultPrevented }

def prevent (h : Host K L) (n : Nat) : Host K L :=
  { h with prevented := h.prevented.modify n fun _ => true }

def isPrevented (h : Host K L) (n : Nat) : Bool :=
  (h.prevented[n]?).getD false

def latest (h : Host K L) (n : Nat) (e : KeyEvent) : KeyEvent :=
  { e with defaultPrevented := h.isPrevented n }

theorem isPrevented_addEvent (h : Host K L) (e : KeyEvent) :
    (h.addEvent e).isPrevented h.prevented.size = e.defaultPrevented := by
  simp [isPrevented, addEvent]

theorem isPrevented_prevent {h : Host K L} {n : Nat}
    (sent : n < h.prevented.size) :
    (h.prevent n).isPrevented n = true := by
  simp [isPrevented, prevent, Array.getElem_modify, sent]

/-!
# Logics
-/

def onLogic {α : Type} (h : Host K L) (g : Nat) (v : Viewer K L)
    (act : Act L α) : Host K L × Except Failure α :=
  let (l, r) := act.perform v.logic
  (h.onViewer g fun v => { v with logic := l }, r)

def onEasel (h : Host K L) (g : Nat) (v : Viewer K L) (act : Act Easel Unit) :
    Host K L × Except Failure Unit :=
  let (e, r) := act.perform v.easel
  let h := h.onViewer g fun v => { v with easel := { e with record := [] } }
  let paint (i : Image) : Image :=
    e.record.foldr (fun n i =>
      match n with
      | .stroke s => i.draw s
      | .remark _ => i) i
  ({ h with
      tree := h.tree.paint v.canvas paint
      journal := e.record.map EaselNote.toNote ++ h.journal }, r)

end Host
end WireView
