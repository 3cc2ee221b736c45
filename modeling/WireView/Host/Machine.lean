import WireView.Host.Work

/-!
# The host as a component

All operations on the host, by its user or by outside code that it has called.
Most are single acts; running, stopping, pressing keys, polling and frames are
tasks that may call outside code.

Frames, polls and the steps of a loop weigh more than the dispatches and pieces
of logic that they leave behind, so the host comes to rest.
-/

namespace WireView
namespace Host

open Reentrant

inductive NewDocument where
  | absent
  | bodiless
  | fresh (refusal : Option (Refusal × String))

inductive Op (K L : Type) where
  | setClock (now : Float)
  | openWindow (width height : Int) (title : String)
  | shutDown (window : Nat)
  | setDocument (window : Nat) (document : NewDocument)
  | addContainer (container : Container)
  | addCanvas (width height : Int) (shares : List Int)
  | attach (container canvas : Nat)
  | detach (canvas : Nat)
  | createViewer (window container : Option Nat) (devMode : Bool) (logic : L)
  | run (viewer : Nat)
  | stop (viewer : Nat)
  | reset (viewer : Nat)
  | close (viewer : Nat)
  | listen (window : Nat) (type : String) (k : K)
  | unlisten (window : Nat) (type : String) (k : K)
  | observe (viewer : Nat) (type : String) (k : K)
  | unobserve (viewer : Nat) (type : String) (k : K)
  | press (window : Nat) (event : KeyEvent)
  | preventDefault (number : Nat)
  | post (events : List InputEvent)
  | poll (window : Nat)
  | request (window : Nat) (k : K)
  | cancel (window : Nat) (handle : Int)
  | frame (window : Nat)
  | swap (window : Nat)

variable {K L : Type}

def setDocument (a : Nat) (d : NewDocument) : Act (Host K L) Unit := do
  let give (d : Option Document) : Act (Host K L) Unit :=
    act fun h => h.onWindow a fun w => { w with document := d }
  match d with
  | .absent => give none
  | .bodiless => give (some { body := none })
  | .fresh refusal => do
      let c ← addContainer {}
      give (some { body := some c, refusal := refusal })

def request (h : Host K L) (a : Nat) (k : K) : Host K L × Value :=
  match h.windows[a]? with
  | none => (h, .nothing)
  | some w =>
      let (q, handle) := w.queue.request (.outside k)
      (h.onWindow a fun w => { w with queue := q }, .handle handle)

def beginFrame (a : Nat) (h : Host K L) : Outcome K L :=
  let h := h.onWindow a fun w => { w with queue := w.queue.beginFrame }
  let todo := ((h.windows[a]?).map fun w => w.queue.handles).getD []
  (h, .push [.frame a todo 0])

def post (h : Host K L) (events : List InputEvent) : Outcome K L :=
  if h.display.isOpen || events.isEmpty then
    finish { h with input := h.input ++ events }
  else (h, .fail .videoClosed)

def beginPoll (a : Nat) (h : Host K L) : Outcome K L :=
  if h.display.isOpen then
    ({ h with input := [] }, .push [.poll a h.input])
  else
    (h, .fail .videoClosed)

def andNothing (act : Act (Host K L) Unit) (h : Host K L) : Outcome K L :=
  ofAct act (fun _ => .nothing) h

/-- The weight of a task: first its frames, polls and loop steps, then its
dispatches. -/
def weight : Task K -> Nat × Nat
  | .run _ => (2, 0)
  | .start _ => (1, 0)
  | .stop _ => (1, 0)
  | .frame _ todo _ => (todo.length + 1, 0)
  | .poll _ todo => (todo.length + 1, 0)
  | .notify _ _ todo => (0, todo.length + 1)
  | .press _ _ _ todo => (0, todo.length + 1)
  | .setUp _ => (0, 1)
  | .update _ => (0, 1)
  | .draw _ => (0, 1)
  | .rearm _ => (0, 1)

/-- A piece of work leaves only lighter tasks behind. -/
def Leaves (bound : Nat × Nat) (o : Outcome K L) : Prop :=
  Lighter (totalWeight weight o.2.tasks) bound

theorem leaves_afterLogic {α : Type} {bound : Nat × Nat}
    (r : Host K L × Except Failure α) (f : α -> Host K L -> Outcome K L)
    (hb : Lighter (0, 0) bound) (hf : forall a h, Leaves bound (f a h)) :
    Leaves bound (afterLogic r f) := by
  rcases r with ⟨h, e | a⟩
  · exact hb
  · exact hf a h

theorem leaves_withViewer {bound : Nat × Nat} (g : Nat)
    (f : Viewer K L -> Host K L -> Outcome K L) (h : Host K L)
    (hb : Lighter (0, 0) bound) (hf : forall v, Leaves bound (f v h)) :
    Leaves bound (withViewer g f h) := by
  unfold withViewer
  split
  · exact hf _
  · exact hb

theorem lighter_zero_succ (n : Nat) : Lighter (0, 0) (0, n + 1) :=
  Or.inr ⟨rfl, Nat.succ_pos n⟩

theorem lighter_succ (n : Nat) : Lighter (0, 0) (n + 1, 0) :=
  Or.inl (Nat.succ_pos n)

theorem lighter_rest (n : Nat) : Lighter (0, n + 1) (0, n + 2) :=
  Or.inr ⟨rfl, Nat.lt_succ_self _⟩

section Component

variable [DecidableEq K] [LoopLogic L]

def perform (op : Op K L) (h : Host K L) : Outcome K L :=
  match op with
  | .setClock now => finish { h with clock := now }
  | .openWindow width height title =>
      ofAct (openWindow width height title) .window h
  | .shutDown a => andNothing (shutDown a) h
  | .setDocument a d => andNothing (setDocument a d) h
  | .addContainer c => ofAct (addContainer c) .container h
  | .addCanvas width height shares =>
      ofAct (addCanvas width height shares) .canvas h
  | .attach c k => andNothing (attachCanvas c k) h
  | .detach k => andNothing (detachCanvas k) h
  | .createViewer window container devMode logic =>
      ofAct (createViewer window container devMode logic) .viewer h
  | .run g => (h, .push [.run g])
  | .stop g => (h, .push [.stop g])
  | .reset g => (h, .push [.stop g, .run g])
  | .close g => andNothing (closeViewer g) h
  | .listen a type k =>
      finish (h.onWindow a fun w =>
        { w with registry := w.registry.add type (.outside k) })
  | .unlisten a type k =>
      finish (h.onWindow a fun w =>
        { w with registry := w.registry.remove type (.outside k) })
  | .observe g type k =>
      finish (h.onViewer g fun v =>
        { v with registry := v.registry.add type k })
  | .unobserve g type k =>
      finish (h.onViewer g fun v =>
        { v with registry := v.registry.remove type k })
  | .press a e =>
      let (h, task) := pressKey a e h
      (h, .push [task])
  | .preventDefault n => finish (h.prevent n)
  | .post events => h.post events
  | .poll a => beginPoll a h
  | .request a k =>
      let (h, value) := h.request a k
      (h, .done value)
  | .cancel a handle =>
      finish (h.onWindow a fun w => { w with queue := w.queue.cancel handle })
  | .frame a => beginFrame a h
  | .swap a => ofAct (swap a) .picture h

theorem leaves_resume (t : Task K) (h : Host K L) :
    Leaves (weight t) (resume t h) := by
  cases t with
  | run g =>
      refine leaves_withViewer g _ h (lighter_succ 1) fun v => ?_
      unfold run
      split
      · exact lighter_succ 1
      · split
        · exact lighter_succ 1
        · simp [Leaves, Progress.tasks, totalWeight, weight, Lighter]
  | setUp g =>
      refine leaves_withViewer g _ h (lighter_zero_succ 0) fun v => ?_
      exact leaves_afterLogic _ _ (lighter_zero_succ 0) fun _ _ =>
        lighter_zero_succ 0
  | start g =>
      simp [resume, start, announce, Leaves, Progress.tasks, totalWeight,
        weight, Lighter]
  | stop g =>
      refine leaves_withViewer g _ h (lighter_succ 0) fun v => ?_
      unfold stop
      split
      · exact lighter_succ 0
      · simp [announce, Leaves, Progress.tasks, totalWeight, weight, Lighter]
  | notify g type todo =>
      refine Registry.step_elim (motive := Leaves _) todo ?_ ?_ ?_
      · exact fun _ => lighter_zero_succ _
      · rintro k rest rfl _
        exact lighter_rest _
      · rintro k rest rfl _
        exact lighter_rest _
  | press a e n todo =>
      refine Registry.step_elim (motive := Leaves _) todo ?_ ?_ ?_
      · exact fun _ => lighter_zero_succ _
      · rintro l rest rfl _
        cases l with
        | outside k => exact lighter_rest _
        | keys motion g =>
            exact leaves_afterLogic _ _ (lighter_zero_succ _)
              fun _ _ => lighter_rest _
      · rintro l rest rfl _
        exact lighter_rest _
  | frame a todo ran =>
      refine FrameQueue.step_elim (motive := Leaves _) todo ?_ ?_ ?_
      · exact fun _ => lighter_succ _
      · rintro ⟨c, h'⟩ handle rest rfl _
        cases c <;>
          simp [frameTurn, beginTick, announce, Leaves, Progress.tasks,
            totalWeight, weight, Lighter]
      · rintro handle rest rfl _
        simp [Leaves, Progress.tasks, totalWeight, weight, Lighter]
  | poll a todo =>
      cases todo with
      | nil => exact lighter_succ 0
      | cons i todo =>
          cases i with
          | quit => exact lighter_succ _
          | key motion code =>
              simp [resume, poll, pressKey, InputEvent.keyEvent?, Leaves,
                Progress.tasks, totalWeight, weight, Lighter]
          | other =>
              simp [resume, poll, InputEvent.keyEvent?, Leaves, Progress.tasks,
                totalWeight, weight, Lighter]
  | update g =>
      refine leaves_withViewer g _ h (lighter_zero_succ 0) fun v => ?_
      exact leaves_afterLogic _ _ (lighter_zero_succ 0) fun _ _ =>
        lighter_zero_succ 0
  | draw g =>
      refine leaves_withViewer g _ h (lighter_zero_succ 0) fun v => ?_
      exact leaves_afterLogic _ _ (lighter_zero_succ 0) fun _ _ =>
        lighter_zero_succ 0
  | rearm g =>
      refine leaves_withViewer g _ h (lighter_zero_succ 0) fun v => ?_
      unfold rearm
      split
      · exact lighter_zero_succ 0
      · split <;> exact lighter_zero_succ 0

end Component

def component (K L : Type) [DecidableEq K] [LoopLogic L] :
    Component (Host K L) (Op K L) (Task K) (Callee K) Value where
  perform := perform
  resume := resume
  returned := .nothing
  weight := weight
  resume_lighter t h := leaves_resume t h

end Host
end WireView
