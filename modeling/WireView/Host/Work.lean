import WireView.Host.Mounting
import WireView.Reentrant.Machine

/-!
# The work of the host

A frame of a window takes the callbacks that were pending when it began, one at
a time.  Polling takes the whole input queue and sends its keys to the window's
listeners, up to the event that ends the session.  A viewer's tick tells its
observers, updates and draws its logic, and asks for the next tick if the loop
is still running and nobody has asked yet.

Each of these may call outside code between two pieces, so each is a task with
what is still to be done.  Setting up, updating, drawing and asking a logic are
pieces of their own.
-/

namespace WireView
namespace Host

open Reentrant

/-- The call of outside code: a frame callback, a listener for keys, an observer
of a viewer. -/
inductive Callee (K : Type) where
  | frame (k : K) (handle : Nat)
  | key (k : K) (number : Nat) (event : KeyEvent)
  | viewer (k : K) (type : String) (viewer : Nat)

inductive Value where
  | nothing
  | flag (b : Bool)
  | handle (h : Nat)
  | window (a : Nat)
  | viewer (g : Nat)
  | container (c : Nat)
  | canvas (k : Nat)
  | picture (i : Image)

inductive Task (K : Type) where
  | run (viewer : Nat)
  | setUp (viewer : Nat)
  | start (viewer : Nat)
  | stop (viewer : Nat)
  | notify (viewer : Nat) (type : String) (todo : List K)
  | press (window : Nat) (event : KeyEvent) (number : Nat)
      (todo : List (Listener K))
  | frame (window : Nat) (todo : List Nat) (ran : Nat)
  | poll (window : Nat) (todo : List InputEvent)
  | update (viewer : Nat)
  | draw (viewer : Nat)
  | rearm (viewer : Nat)

variable {K L : Type}

abbrev Outcome (K L : Type) : Type :=
  Host K L × Progress (Task K) (Callee K) Value

def ofAct {α : Type} (act : Act (Host K L) α) (value : α -> Value)
    (h : Host K L) : Outcome K L :=
  match act.perform h with
  | (h, .ok a) => (h, .done (value a))
  | (h, .error e) => (h, .fail e)

def afterLogic {α : Type} (r : Host K L × Except Failure α)
    (f : α -> Host K L -> Outcome K L) : Outcome K L :=
  match r with
  | (h, .ok a) => f a h
  | (h, .error e) => (h, .fail e)

def finish (h : Host K L) : Outcome K L :=
  (h, .done .nothing)

/-!
# The loop of a viewer
-/

section Loop

variable [LoopLogic L] [DecidableEq K]

def announce (g : Nat) (type : String) (h : Host K L) : Task K :=
  .notify g type (h.observers g type)

def run (g : Nat) (v : Viewer K L) (h : Host K L) : Outcome K L :=
  if v.state = .running then
    finish h
  else
    if v.isClosed then (h, .fail .viewerClosed)
  else (h, .push [.setUp g, .start g])

def setUp (g : Nat) (v : Viewer K L) (h : Host K L) : Outcome K L :=
  afterLogic (h.onLogic g v (LoopLogic.setUp h.clock)) fun remarks h =>
    finish (remarks.foldl remark h)

def start (g : Nat) (h : Host K L) : Outcome K L :=
  let h := (h.onLoop g fun v w => v.start g w).remark .loopStarted
  (h, .push [announce g runningType h])

def stop (g : Nat) (v : Viewer K L) (h : Host K L) : Outcome K L :=
  if v.state = .idle then finish h
  else
    let h := (h.onLoop g fun v w => v.halt g w).remark .loopStopped
    (h, .push [announce g runningType h])

/-- Begins a tick: its handle is spent, and only a new request replaces it. -/
def beginTick (g handle : Nat) (h : Host K L) : Host K L × List (Task K) :=
  let h :=
    (h.onViewer g fun v => { v with tickHandle := none }).note (.tick g handle)
  (h, [announce g frameType h, .update g, .draw g, .rearm g])

def update (g : Nat) (v : Viewer K L) (h : Host K L) : Outcome K L :=
  afterLogic (h.onLogic g v (LoopLogic.update h.clock)) fun _ h => finish h

def draw (g : Nat) (v : Viewer K L) (h : Host K L) : Outcome K L :=
  afterLogic (h.onEasel g v (LoopLogic.draw v.logic)) fun _ h => finish h

/-- Asks for the next tick, unless somebody has done so or the loop is to
end. -/
def rearm (g : Nat) (v : Viewer K L) (h : Host K L) : Outcome K L :=
  if v.tickHandle.isSome || v.state = .idle then finish h
  else
    match LoopLogic.isRunning v.logic with
    | .ok true => finish (h.onLoop g fun v w => v.requestTick g w)
    | .ok false => finish h
    | .error e => (h, .fail e)

/-!
# Events
-/

def notify (g : Nat) (type : String) (h : Host K L) : List K -> Outcome K L :=
  Registry.step (h.observers g type) (finish h)
    (fun k rest => (h, .call (.viewer k type g) [.notify g type rest]))
    (fun rest => (h, .push [.notify g type rest]))

/-- A logic that has acted on a key event has prevented its default. -/
def afterKey (n : Nat) :
    Host K L × Except Failure Bool -> Host K L × Except Failure Unit
  | (h, .ok acted) => (if acted then h.prevent n else h, .ok ())
  | (h, .error e) => (h, .error e)

def pressLogic (g : Nat) (motion : KeyMotion) (e : KeyEvent) (n : Nat)
    (h : Host K L) : Host K L × Except Failure Unit :=
  match h.viewers[g]? with
  | none => (h, .ok ())
  | some v =>
      let act := match motion with
        | .down => LoopLogic.keyDown (L := L) e.key
        | .up => LoopLogic.keyUp e.key
      afterKey n ((h.note (.key g (h.latest n e))).onLogic g v act)

/-- What a listener does about a key event in its turn. -/
def pressTurn (a : Nat) (e : KeyEvent) (n : Nat) (h : Host K L)
    (l : Listener K) (rest : List (Listener K)) : Outcome K L :=
  match l with
  | .outside k => (h, .call (.key k n (h.latest n e)) [.press a e n rest])
  | .keys motion g =>
      afterLogic (pressLogic g motion e n h) fun _ h =>
        (h, .push [.press a e n rest])

def press (a : Nat) (e : KeyEvent) (n : Nat) (h : Host K L) :
    List (Listener K) -> Outcome K L :=
  Registry.step (h.listeners a e.motion.type)
    (h, .done (.flag (h.isPrevented n))) (pressTurn a e n h)
    (fun rest => (h, .push [.press a e n rest]))

/-- Sends a key event to the listeners of a window. -/
def pressKey (a : Nat) (e : KeyEvent) (h : Host K L) : Host K L × Task K :=
  (h.addEvent e,
    .press a e h.prevented.size (h.listeners a e.motion.type))

def poll (a : Nat) (h : Host K L) : List InputEvent -> Outcome K L
  | [] => (h, .done (.flag true))
  | .quit :: _ => (h, .done (.flag false))
  | i :: todo =>
      match i.keyEvent? h.naming with
      | some e =>
          let (h, task) := pressKey a e h
          (h, .push [task, .poll a todo])
      | none => (h, .push [.poll a todo])

/-!
# Frames
-/

def takeCallback (h : Host K L) (a handle : Nat) :
    Option (Callback K × Host K L) := do
  let w ← h.windows[a]?
  let (c, q) ← w.queue.take handle
  some (c, h.onWindow a fun w => { w with queue := q })

def frameCount (h : Host K L) (a : Nat) : Nat :=
  ((h.windows[a]?).map fun w => w.queue.frameCount).getD 0

def frameTurn (a ran : Nat) (taken : Callback K × Host K L) (handle : Nat)
    (rest : List Nat) : Outcome K L :=
  match taken with
  | (.outside k, h) => (h, .call (.frame k handle) [.frame a rest (ran + 1)])
  | (.tick g, h) =>
      let (h, tasks) := beginTick g handle h
      (h, .push (tasks ++ [.frame a rest (ran + 1)]))

def frame (a : Nat) (ran : Nat) (h : Host K L) : List Nat -> Outcome K L :=
  FrameQueue.step (h.takeCallback a)
    (finish (if ran = 0 then h else h.remark (.frameRan (h.frameCount a) ran)))
    (frameTurn a ran) (fun rest => (h, .push [.frame a rest ran]))

/-!
# One turn
-/

section turn

variable {h : Host K L} {a n ran g handle : Nat} {e : KeyEvent} {type : String}

omit [LoopLogic L] in
theorem notify_listed {k : K} (listed : k ∈ h.observers g type)
    (rest : List K) :
    notify g type h (k :: rest) =
      (h, .call (.viewer k type g) [.notify g type rest]) :=
  Registry.step_listed listed rest

omit [LoopLogic L] in
theorem notify_unlisted {k : K} (unlisted : k ∉ h.observers g type)
    (rest : List K) :
    notify g type h (k :: rest) = (h, .push [.notify g type rest]) :=
  Registry.step_unlisted unlisted rest

theorem press_listed {l : Listener K} (listed : l ∈ h.listeners a e.motion.type)
    (rest : List (Listener K)) :
    press a e n h (l :: rest) = pressTurn a e n h l rest :=
  Registry.step_listed listed rest

theorem press_unlisted {l : Listener K}
    (unlisted : l ∉ h.listeners a e.motion.type) (rest : List (Listener K)) :
    press a e n h (l :: rest) = (h, .push [.press a e n rest]) :=
  Registry.step_unlisted unlisted rest

omit [LoopLogic L] [DecidableEq K] in
theorem frame_taken {t : Callback K × Host K L}
    (taken : h.takeCallback a handle = some t) (rest : List Nat) :
    frame a ran h (handle :: rest) = frameTurn a ran t handle rest :=
  FrameQueue.step_taken taken rest

omit [LoopLogic L] [DecidableEq K] in
theorem frame_gone (gone : h.takeCallback a handle = none) (rest : List Nat) :
    frame a ran h (handle :: rest) = (h, .push [.frame a rest ran]) :=
  FrameQueue.step_gone gone rest

end turn

def withViewer (g : Nat) (f : Viewer K L -> Host K L -> Outcome K L)
    (h : Host K L) : Outcome K L :=
  match h.viewers[g]? with
  | some v => f v h
  | none => finish h

def resume (t : Task K) (h : Host K L) : Outcome K L :=
  match t with
  | .run g => withViewer g (run g) h
  | .setUp g => withViewer g (setUp g) h
  | .start g => start g h
  | .stop g => withViewer g (stop g) h
  | .notify g type todo => notify g type h todo
  | .press a e n todo => press a e n h todo
  | .frame a todo ran => frame a ran h todo
  | .poll a todo => poll a h todo
  | .update g => withViewer g (update g) h
  | .draw g => withViewer g (draw g) h
  | .rearm g => withViewer g (rearm g) h

end Loop
end Host
end WireView
