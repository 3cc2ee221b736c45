import WireView.Logic.Logic
import WireView.Proofs.Host.Effects

/-!
# A viewer on its own

A viewer that shows a wireframe and that nobody observes.  What each piece of
work does to it and to its window is told exactly; the rest of the host may be
anything.
-/

namespace WireView

def Spin.onKey (s : Spin Float) (motion : KeyMotion) (key : String) :
    Spin Float × Bool :=
  match motion with
  | .down => s.keyDown key
  | .up => s.keyUp key

namespace Host

open Reentrant

variable {K : Type} [DecidableEq K]

/-- A viewer without observers, and its window. -/
structure Lone (h : Host K Logic) (g : Nat) (v : Viewer K Logic)
    (w : Window K) : Prop where
  viewer : h.viewers[g]? = some v
  window : h.windows[v.window]? = some w
  unobserved : forall type, v.registry.listeners type = []

variable {h h' : Host K Logic} {g : Nat} {v : Viewer K Logic} {w : Window K}

namespace Lone

omit [DecidableEq K] in
theorem of_fittings (hl : Lone h g v w) (change : h'.fittings = h.fittings) :
    Lone h' g v w := by
  have hw : h'.windows = h.windows := congrArg Prod.fst change
  have hv : h'.viewers = h.viewers := congrArg Prod.snd change
  constructor
  · rw [hv]
    exact hl.viewer
  · rw [hw]
    exact hl.window
  · exact hl.unobserved

omit [DecidableEq K] in
theorem onViewer (hl : Lone h g v w) {f : Viewer K Logic -> Viewer K Logic}
    (window : (f v).window = v.window)
    (registry : (f v).registry = v.registry) :
    Lone (h.onViewer g f) g (f v) w := by
  constructor
  · show (h.viewers.modify g f)[g]? = some (f v)
    rw [Array.getElem?_modify, if_pos rfl, hl.viewer]
    rfl
  · rw [window]
    exact hl.window
  · rw [registry]
    exact hl.unobserved

omit [DecidableEq K] in
theorem onWindow (hl : Lone h g v w) (f : Window K -> Window K) :
    Lone (h.onWindow v.window f) g v (f w) := by
  constructor
  · exact hl.viewer
  · show (h.windows.modify v.window f)[v.window]? = some (f w)
    rw [Array.getElem?_modify, if_pos rfl, hl.window]
    rfl
  · exact hl.unobserved

omit [DecidableEq K] in
theorem onLoop (hl : Lone h g v w)
    {f : Viewer K Logic -> Window K -> Viewer K Logic × Window K}
    (window : (f v w).1.window = v.window)
    (registry : (f v w).1.registry = v.registry) :
    Lone (h.onLoop g f) g (f v w).1 (f v w).2 := by
  have hviewer : Lone (h.onViewer g fun _ => (f v w).1) g (f v w).1 w :=
    hl.onViewer window registry
  have hwindow := hviewer.onWindow fun _ => (f v w).2
  rw [window] at hwindow
  unfold Host.onLoop
  simp only [hl.viewer, hl.window]
  exact hwindow

omit [DecidableEq K] in
theorem announce (hl : Lone h g v w) (type : String) :
    Host.announce g type h = .notify g type [] := by
  have hnone : h.observers g type = [] := by
    unfold observers
    rw [hl.viewer]
    exact hl.unobserved type
  unfold Host.announce
  rw [hnone]

/-!
# Starting and stopping
-/

theorem run_running (hl : Lone h g v w) (running : v.state = .running) :
    resume (.run g) h = (h, .done .nothing) := by
  simp only [resume, withViewer, hl.viewer, run, if_pos running]
  rfl

theorem run_closed (hl : Lone h g v w) (idle : v.state ≠ .running)
    (closed : v.isClosed = true) :
    resume (.run g) h = (h, .fail .viewerClosed) := by
  simp only [resume, withViewer, hl.viewer, run, if_neg idle, if_pos closed]

theorem run_idle (hl : Lone h g v w) (idle : v.state ≠ .running)
    (unclosed : ¬ v.isClosed = true) :
    resume (.run g) h = (h, .push [.setUp g, .start g]) := by
  simp only [resume, withViewer, hl.viewer, run, if_neg idle, if_neg unclosed]

theorem setUp (hl : Lone h g v w) {scene : CubeShow}
    (shows : v.logic = .cube scene) :
    exists h', resume (.setUp g) h = (h', .done .nothing)
      ∧ Lone h' g
        { v with logic := .cube { scene with spin := scene.spin.reset } }
        w := by
  refine ⟨(h.onViewer g fun v =>
    { v with logic := .cube { scene with spin := scene.spin.reset } }).remark
      .spinReset, ?_, ?_⟩
  · simp only [resume, withViewer, hl.viewer, Host.setUp, Host.onLogic, shows]
    rfl
  · exact (hl.onViewer (f := fun v =>
      { v with logic := .cube { scene with spin := scene.spin.reset } }) rfl
        rfl).of_fittings rfl

theorem start (hl : Lone h g v w) :
    exists h', resume (.start g) h = (h', .push [.notify g runningType []])
      ∧ Lone h' g (v.start g w).1 (v.start g w).2 := by
  have hstarted :
      Lone ((h.onLoop g fun v w => v.start g w).remark .loopStarted) g
      (v.start g w).1 (v.start g w).2 :=
    (hl.onLoop (f := fun v w => v.start g w) rfl rfl).of_fittings rfl
  refine ⟨_, ?_, hstarted⟩
  simp only [resume, Host.start, hstarted.announce]

theorem stop_idle (hl : Lone h g v w) (idle : v.state = .idle) :
    resume (.stop g) h = (h, .done .nothing) := by
  simp only [resume, withViewer, hl.viewer, stop, if_pos idle]
  rfl

theorem stop_running (hl : Lone h g v w) (running : v.state ≠ .idle) :
    exists h', resume (.stop g) h = (h', .push [.notify g runningType []])
      ∧ Lone h' g (v.halt g w).1 (v.halt g w).2 := by
  have hhalted : Lone ((h.onLoop g fun v w => v.halt g w).remark .loopStopped) g
      (v.halt g w).1 (v.halt g w).2 :=
    (hl.onLoop (f := fun v w => v.halt g w) rfl rfl).of_fittings rfl
  refine ⟨_, ?_, hhalted⟩
  simp only [resume, withViewer, hl.viewer, stop, if_neg running,
    hhalted.announce]

/-!
# Frames
-/

theorem tick (hl : Lone h g v w) {n : Nat}
    (pending : w.queue.pending = [(n, .tick g)]) :
    exists h', resume (.frame v.window [n] 0) h =
        (h',
          .push [.notify g frameType [], .update g, .draw g, .rearm g,
            .frame v.window [] 1])
      ∧ Lone h' g { v with tickHandle := none }
          { w with queue := { w.queue with pending := [] } } := by
  have htake :
      w.queue.take n = some (.tick g, { w.queue with pending := [] }) := by
    simp [FrameQueue.take, FrameQueue.drop, pending]
  have htook :
      h.takeCallback v.window n = some (.tick g, h.onWindow v.window fun w' =>
        { w' with queue := { w.queue with pending := [] } }) := by
    simp only [takeCallback, hl.window, htake, Option.bind_eq_bind,
      Option.bind_some]
  have hwindow :=
    hl.onWindow fun w' => { w' with queue := { w.queue with pending := [] } }
  have hbegun : Lone (((h.onWindow v.window fun w' =>
      { w' with queue := { w.queue with pending := [] } }).onViewer g fun v =>
        { v with tickHandle := none }).note (.tick g n)) g
          { v with tickHandle := none }
      { w with queue := { w.queue with pending := [] } } :=
    (hwindow.onViewer (f := fun v => { v with tickHandle := none }) rfl
      rfl).of_fittings rfl
  refine ⟨_, ?_, hbegun⟩
  simp only [resume, frame_taken htook, frameTurn, beginTick, hbegun.announce]
  rfl

theorem update (hl : Lone h g v w) {scene : CubeShow}
    (shows : v.logic = .cube scene) :
    exists h', resume (.update g) h = (h', .done .nothing)
      ∧ Lone h' g
        { v with logic := .cube { scene with spin := scene.spin.update } }
        w := by
  refine ⟨h.onViewer g fun v =>
    { v with logic := .cube { scene with spin := scene.spin.update } }, ?_, ?_⟩
  · simp only [resume, withViewer, hl.viewer, Host.update, Host.onLogic, shows]
    rfl
  · exact hl.onViewer (f := fun v =>
      { v with logic := .cube { scene with spin := scene.spin.update } }) rfl
        rfl

theorem draw (hl : Lone h g v w) :
    exists h' easel, (resume (.draw g) h = (h', .done .nothing)
        ∨ exists e, resume (.draw g) h = (h', .fail e))
      ∧ Lone h' g { v with easel := easel } w := by
  let easel : Easel :=
    { ((LoopLogic.draw v.logic).perform v.easel).1 with record := [] }
  have hdrawn :
      Lone (h.onEasel g v (LoopLogic.draw v.logic)).1 g
        { v with easel := easel } w :=
    (hl.onViewer (f := fun v => { v with easel := easel }) rfl
      rfl).of_fittings rfl
  refine ⟨_, easel, ?_, hdrawn⟩
  simp only [resume, withViewer, hl.viewer, Host.draw, afterLogic]
  rcases h.onEasel g v (LoopLogic.draw v.logic) with ⟨h', e | u⟩
  · exact .inr ⟨e, rfl⟩
  · exact .inl rfl

theorem rearm (hl : Lone h g v w) {scene : CubeShow}
    (shows : v.logic = .cube scene) (running : v.state = .running)
    (spent : v.tickHandle = none) :
    exists h', resume (.rearm g) h = (h', .done .nothing)
      ∧ Lone h' g (v.requestTick g w).1 (v.requestTick g w).2 := by
  have hrearmed := hl.onLoop (f := fun v w => v.requestTick g w) rfl rfl
  refine ⟨_, ?_, hrearmed⟩
  have hfree : (v.tickHandle.isSome || decide (v.state = .idle)) = false := by
    rw [spent, running]
    rfl
  simp only [resume, withViewer, hl.viewer, Host.rearm, hfree, shows]
  rfl

theorem frame_end (hl : Lone h g v w) (a ran : Nat) :
    exists h',
      resume (.frame a [] ran) h = (h', .done .nothing) ∧ Lone h' g v w := by
  by_cases hran : ran = 0
  · refine ⟨h, ?_, hl⟩
    simp only [resume, frame, if_pos hran]
    rfl
  · refine ⟨h.remark (.frameRan (h.frameCount a) ran), ?_, hl.of_fittings rfl⟩
    simp only [resume, frame, if_neg hran]
    rfl

/-!
# Keys
-/

theorem press (hl : Lone h g v w) {scene : CubeShow}
    (shows : v.logic = .cube scene) {e : KeyEvent} {n : Nat}
    (sent : n < h.prevented.size)
    (heard : .keys e.motion g ∈ w.registry.listeners e.motion.type) :
    exists h', resume (.press v.window e n [.keys e.motion g]) h =
        (h', .push [.press v.window e n []])
      ∧ Lone h' g
          { v with
            logic := .cube
              { scene with spin := (scene.spin.onKey e.motion e.key).1 } } w
      ∧ h'.isPrevented n =
        ((scene.spin.onKey e.motion e.key).2 || h.isPrevented n) := by
  have hheard :
      Listener.keys e.motion g ∈ h.listeners v.window e.motion.type := by
    unfold listeners
    rw [hl.window]
    exact heard
  have hnoted : Lone (h.note (.key g (h.latest n e))) g v w :=
    hl.of_fittings rfl
  let turn (v : Viewer K Logic) : Viewer K Logic :=
    { v with
      logic := .cube
        { scene with spin := (scene.spin.onKey e.motion e.key).1 } }
  have hpressed :
      Lone ((h.note (.key g (h.latest n e))).onViewer g turn) g (turn v) w :=
    hnoted.onViewer rfl rfl
  have hlogic :
      pressLogic g e.motion e n h =
        afterKey n
          ((h.note (.key g (h.latest n e))).onViewer g turn,
            .ok (scene.spin.onKey e.motion e.key).2) := by
    simp only [pressLogic, hl.viewer, Host.onLogic, shows, turn]
    cases e.motion with
    | down => rfl
    | up => rfl
  have hresume : resume (.press v.window e n [.keys e.motion g]) h =
      afterLogic (pressLogic g e.motion e n h) fun _ h =>
        (h, .push [.press v.window e n []]) :=
    press_listed hheard []
  rw [hresume, hlogic]
  cases (scene.spin.onKey e.motion e.key).2 with
  | false => exact ⟨_, rfl, hpressed, rfl⟩
  | true =>
      exact ⟨_, rfl, hpressed.of_fittings rfl,
        isPrevented_prevent (h := Host.onViewer _ g _) sent⟩

end Lone
end Host
end WireView
