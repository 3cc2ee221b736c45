import WireView.Proofs.Drawing.Wireframes
import WireView.Proofs.Host.Lone
import WireView.Proofs.Host.Picture
import WireView.Proofs.Reentrant.Playing
import WireView.Session

/-!
# A session at work

A session of the cube has one window with one viewer in it.  The meter observes
the frames, the log observes the loop, and the key bindings hear every key that
is pressed before the viewer does.  What each task does to such a host, and to
what is to be seen on it, is told here.

A show is what is to be seen: whether the loop runs, how the cube is turned and
which arrow keys it follows, and whether the window is about to be closed.
-/

namespace WireView
namespace Session

open Host Reentrant Machine

structure Show where
  state : LoopState
  spin : Spin Float
  isLeaving : Bool

abbrev Carries (k : Nat) (ts : List (Host.Task Hook)) (m : RateMeter Float)
    (h : Host Hook Logic) (m' : RateMeter Float) (h' : Host Hook Logic) :
    Prop :=
  Completes (component Hook Logic) (agent 0) k ts m h m' h'

def hearers (state : LoopState) (motion : KeyMotion) : List (Listener Hook) :=
  (match motion with
    | .down => [.outside .keyBindings]
    | .up => []) ++ if state = .running then [.keys motion 0] else []

/-!
# The window and the viewer
-/

/-- The one window of a host and the one viewer in it, with a canvas that can be
shown, and a keyboard with a given naming.  The only input that may be queued is
the request to close the window. -/
structure Seat (naming : Key.Naming) (isLeaving : Bool) (h : Host Hook Logic)
    (v : Viewer Hook Logic) (w : Window Hook) : Prop where
  naming : h.naming = naming
  viewer : h.viewers[0]? = some v
  window : h.windows[0]? = some w
  place : v.window = 0
  meter : v.registry.listeners frameType = [.meter]
  log : v.registry.listeners runningType = [.runningLog]
  document : w.document = some { body := some 0 }
  session : w.session = 0
  display :
    h.display =
      { isOpen := true,
        size := some (Settings.canvasWidth, Settings.canvasHeight) }
  page : h.tree.containers = #[{ children := [0] }]
  width : (h.tree.image 0).width = Settings.canvasWidth
  height : (h.tree.image 0).height = Settings.canvasHeight
  quits : forall i, i ∈ h.input -> i = .quit
  queued : h.input.isEmpty = !isLeaving

def standing (h : Host Hook Logic) :
    Key.Naming × Array (Viewer Hook Logic) × Array (Window Hook)
      × Display × Tree × List InputEvent :=
  (h.naming, h.viewers, h.windows, h.display, h.tree, h.input)

variable {naming : Key.Naming} {isLeaving : Bool} {h h' : Host Hook Logic}
  {v : Viewer Hook Logic} {w : Window Hook}
variable {m : RateMeter Float} {x : Show} {spin : Spin Float}

namespace Seat

theorem of_standing (hs : Seat naming isLeaving h v w)
    (same : standing h' = standing h) :
    Seat naming isLeaving h' v w := by
  simp only [standing, Prod.mk.injEq] at same
  rcases same with ⟨hnaming, hviewers, hwindows, hdisplay, htree, hinput⟩
  rcases hs with
    ⟨naming, viewer, window, place, meter, log, document, session, display,
    page, width, height, quits, queued⟩
  rw [← hnaming] at naming
  rw [← hviewers] at viewer
  rw [← hwindows] at window
  rw [← hdisplay] at display
  rw [← htree] at page width height
  rw [← hinput] at quits queued
  exact ⟨naming, viewer, window, place, meter, log, document, session, display,
    page, width, height, quits, queued⟩

theorem onViewer (hs : Seat naming isLeaving h v w)
    {f : Viewer Hook Logic -> Viewer Hook Logic}
    (window : (f v).window = v.window)
    (registry : (f v).registry = v.registry) :
    Seat naming isLeaving (h.onViewer 0 f) (f v) w where
  naming := hs.naming
  viewer := by
    show (h.viewers.modify 0 f)[0]? = some (f v)
    rw [Array.getElem?_modify, if_pos rfl, hs.viewer]
    rfl
  window := hs.window
  place := window.trans hs.place
  meter :=
    (congrArg (fun r => Registry.listeners r frameType) registry).trans hs.meter
  log :=
    (congrArg (fun r => Registry.listeners r runningType) registry).trans hs.log
  document := hs.document
  session := hs.session
  display := hs.display
  page := hs.page
  width := hs.width
  height := hs.height
  quits := hs.quits
  queued := hs.queued

theorem onWindow (hs : Seat naming isLeaving h v w)
    {f : Window Hook -> Window Hook} (document : (f w).document = w.document)
    (session : (f w).session = w.session) :
    Seat naming isLeaving (h.onWindow 0 f) v (f w) where
  naming := hs.naming
  viewer := hs.viewer
  window := by
    show (h.windows.modify 0 f)[0]? = some (f w)
    rw [Array.getElem?_modify, if_pos rfl, hs.window]
    rfl
  place := hs.place
  meter := hs.meter
  log := hs.log
  document := document.trans hs.document
  session := session.trans hs.session
  display := hs.display
  page := hs.page
  width := hs.width
  height := hs.height
  quits := hs.quits
  queued := hs.queued

theorem onLoop (hs : Seat naming isLeaving h v w)
    {f : Viewer Hook Logic -> Window Hook -> Viewer Hook Logic × Window Hook}
    (window : (f v w).1.window = v.window)
    (registry : (f v w).1.registry = v.registry)
    (document : (f v w).2.document = w.document)
    (session : (f v w).2.session = w.session) :
    Seat naming isLeaving (h.onLoop 0 f) (f v w).1 (f v w).2 := by
  have hviewer :
      Seat naming isLeaving (h.onViewer 0 fun _ => (f v w).1) (f v w).1 w :=
    hs.onViewer (f := fun _ => (f v w).1) window registry
  have hwindow := hviewer.onWindow (f := fun _ => (f v w).2) document session
  unfold Host.onLoop
  simp only [hs.viewer, hs.place, hs.window]
  exact hwindow

theorem listeners (hs : Seat naming isLeaving h v w) (type : String) :
    h.listeners 0 type = w.registry.listeners type := by
  unfold Host.listeners
  rw [hs.window]
  rfl

theorem observers (hs : Seat naming isLeaving h v w) (type : String) :
    h.observers 0 type = v.registry.listeners type := by
  unfold Host.observers
  rw [hs.viewer]
  rfl

/-!
# Notifications
-/

theorem tell_log (hs : Seat naming isLeaving h v w) (m : RateMeter Float) :
    exists h',
      Carries 0 [announce 0 runningType h] m h m h'
        ∧ Seat naming isLeaving h' v w := by
  have hlisted : Hook.runningLog ∈ h.observers 0 runningType := by
    rw [hs.observers, hs.log]
    exact List.mem_singleton_self _
  have hcall :
      (component Hook Logic).resume (.notify 0 runningType [.runningLog]) h =
      (h,
        .call (.viewer .runningLog runningType 0) [.notify 0 runningType []]) :=
    notify_listed hlisted []
  refine ⟨h.remark
    (.runningChanged ((h.viewers[0]?).any fun v => v.state == .running)), ?_,
    hs.of_standing rfl⟩
  unfold announce
  rw [hs.observers, hs.log]
  exact .call hcall rfl (.done rfl)

theorem tell_meter (hs : Seat naming isLeaving h v w) (m : RateMeter Float) :
    Carries 0 [announce 0 frameType h] m h (tickMeter m h.clock) h := by
  have hlisted : Hook.meter ∈ h.observers 0 frameType := by
    rw [hs.observers, hs.meter]
    exact List.mem_singleton_self _
  have hcall : (component Hook Logic).resume (.notify 0 frameType [.meter]) h =
      (h, .call (.viewer .meter frameType 0) [.notify 0 frameType []]) :=
    notify_listed hlisted []
  unfold announce
  rw [hs.observers, hs.meter]
  exact .call hcall rfl (.done rfl)

end Seat

/-!
# What a viewer and its window show
-/

structure Presents (x : Show) (v : Viewer Hook Logic) (w : Window Hook) :
    Prop where
  shows : v.logic = .cube ⟨.cube, x.spin⟩
  state : v.state = x.state
  unclosed : v.isClosed = false
  listening : v.isListening = decide (x.state = .running)
  keys : forall motion : KeyMotion,
    w.registry.listeners motion.type = hearers x.state motion
  tick : match x.state with
    | .idle => v.tickHandle = none ∧ w.queue.pending = []
    | .running =>
        exists n, v.tickHandle = some n ∧ w.queue.pending = [(n, .tick 0)]

theorem listeners_subscribe
    (keys : forall motion : KeyMotion,
      w.registry.listeners motion.type = hearers .idle motion)
    (motion : KeyMotion) :
    (w.subscribe 0).registry.listeners motion.type =
      hearers .running motion := by
  have hdown := keys .down
  have hup := keys .up
  have hne : KeyMotion.up.type ≠ KeyMotion.down.type := by decide
  unfold Window.subscribe Registry.add
  rw [Registry.listeners_update, Registry.listeners_update,
    Registry.listeners_update]
  cases motion with
  | down =>
      rw [if_neg hne.symm, if_pos rfl, hdown]
      rfl
  | up =>
      rw [if_pos rfl, if_neg hne, hup]
      rfl

theorem listeners_unsubscribe
    (keys : forall motion : KeyMotion,
      w.registry.listeners motion.type = hearers .running motion)
    (motion : KeyMotion) :
    (w.unsubscribe 0).registry.listeners motion.type =
      hearers .idle motion := by
  have hdown := keys .down
  have hup := keys .up
  have hne : KeyMotion.up.type ≠ KeyMotion.down.type := by decide
  unfold Window.unsubscribe Registry.remove
  rw [Registry.listeners_update, Registry.listeners_update,
    Registry.listeners_update]
  cases motion with
  | down =>
      rw [if_neg hne.symm, if_pos rfl, hdown]
      rfl
  | up =>
      rw [if_pos rfl, if_neg hne, hup]
      rfl

namespace Presents

theorem start (hp : Presents ⟨.idle, spin, isLeaving⟩ v w) :
    let u : Viewer Hook Logic := { v with logic := .cube ⟨.cube, spin.reset⟩ }
    Presents ⟨.running, spin.reset, isLeaving⟩ (u.start 0 w).1
      (u.start 0 w).2 where
  shows := rfl
  state := rfl
  unclosed := hp.unclosed
  listening := rfl
  keys := listeners_subscribe hp.keys
  tick := by
    have hpending : w.queue.pending = [] := hp.tick.2
    refine ⟨w.queue.nextHandle, rfl, ?_⟩
    show w.queue.pending ++ [(w.queue.nextHandle, .tick 0)] = _
    rw [hpending]
    rfl

theorem halt (hp : Presents ⟨.running, spin, isLeaving⟩ v w) :
    Presents ⟨.idle, spin, isLeaving⟩ (v.halt 0 w).1 (v.halt 0 w).2 := by
  rcases hp.tick with ⟨n, hhandle, hpending⟩
  have hlistening : v.isListening = true := hp.listening
  have hwindow : (v.halt 0 w).2 = (w.unsubscribe 0).dropTick (some n) := by
    simp [Viewer.halt, Viewer.unsubscribe, hlistening, hhandle]
  constructor
  · exact hp.shows
  · rfl
  · exact hp.unclosed
  · rfl
  · rw [hwindow]
    exact listeners_unsubscribe hp.keys
  · refine ⟨rfl, ?_⟩
    rw [hwindow]
    show w.queue.pending.filter _ = []
    rw [hpending]
    simp

theorem ticked (hp : Presents ⟨.running, spin, isLeaving⟩ v w) (easel : Easel) :
    let u : Viewer Hook Logic :=
      { v with
        tickHandle := none, logic := .cube ⟨.cube, spin.update⟩,
        easel := easel }
    let spent : Window Hook :=
      { w with queue := { w.queue with pending := [] } }
    Presents ⟨.running, spin.update, isLeaving⟩ (u.requestTick 0 spent).1
      (u.requestTick 0 spent).2 where
  shows := rfl
  state := hp.state
  unclosed := hp.unclosed
  listening := hp.listening
  keys := hp.keys
  tick := ⟨w.queue.nextHandle, rfl, rfl⟩

theorem key (hp : Presents x v w) (turned : Spin Float) :
    Presents { x with spin := turned } { v with logic := .cube ⟨.cube, turned⟩ }
      w :=
  ⟨rfl, hp.state, hp.unclosed, hp.listening, hp.keys, hp.tick⟩

theorem beginFrame (hp : Presents x v w) :
    Presents x v { w with queue := w.queue.beginFrame } :=
  ⟨hp.shows, hp.state, hp.unclosed, hp.listening, hp.keys, hp.tick⟩

theorem leave (hp : Presents x v w) :
    Presents { x with isLeaving := true } v w :=
  ⟨hp.shows, hp.state, hp.unclosed, hp.listening, hp.keys, hp.tick⟩

end Presents

def Staged (naming : Key.Naming) (x : Show) (h : Host Hook Logic) : Prop :=
  exists v w, Seat naming x.isLeaving h v w ∧ Presents x v w

end Session
end WireView
