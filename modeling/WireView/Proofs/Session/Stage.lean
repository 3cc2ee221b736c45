import WireView.Proofs.Session.Seat

/-!
# What is staged

A key that is pressed reaches the key bindings first, which may start or stop
the loop, and then the viewer's own keys, if they were registered when it was
pressed and still are.  A frame updates the cube while the loop runs.
Everything else leaves the show as it is.
-/

namespace WireView

/-- Angles at which a wireframe can be drawn: none of them is infinite. -/
def Rotation.isDrawable (r : Rotation Float) : Bool :=
  r.toList.all fun angle => !Scalar.isInfinite angle

namespace Session

open Host Reentrant Machine

namespace Show

def bound (x : Show) (key : String) : Show :=
  if key = "Escape" then
    { x with isLeaving := true }
  else
    if key = "r" then { x with state := .running, spin := x.spin.reset }
  else if key = "p" then
    match x.state with
    | .idle => { x with state := .running, spin := x.spin.reset }
    | .running => { x with state := .idle }
  else x

def heard (x : Show) (motion : KeyMotion) (key : String) : Show :=
  match x.state with
  | .idle => x
  | .running => { x with spin := (x.spin.onKey motion key).1 }

def afterKey (x : Show) (motion : KeyMotion) (key : String) : Show :=
  let y := match motion with
    | .down => x.bound key
    | .up => x
  match x.state with
  | .idle => y
  | .running => y.heard motion key

def afterFrame (x : Show) : Show :=
  match x.state with
  | .idle => x
  | .running => { x with spin := x.spin.update }

end Show

variable {naming : Key.Naming} {isLeaving : Bool} {h : Host Hook Logic}
  {x y : Show} {spin : Spin Float}

theorem Staged.of_standing {h' : Host Hook Logic} (hs : Staged naming x h)
    (same : standing h' = standing h) :
    Staged naming x h' := by
  rcases hs with ⟨v, w, hseat, hshows⟩
  exact ⟨v, w, hseat.of_standing same, hshows⟩

/-!
# Starting and stopping
-/

theorem Staged.run (hs : Staged naming ⟨.idle, spin, isLeaving⟩ h)
    (m : RateMeter Float) :
    exists h',
      Carries 0 [.run 0] m h m h'
        ∧ Staged naming ⟨.running, spin.reset, isLeaving⟩ h' := by
  rcases hs with ⟨v, w, hseat, hshows⟩
  let u : Viewer Hook Logic := { v with logic := .cube ⟨.cube, spin.reset⟩ }
  let h₁ :=
    (h.onViewer 0 fun v => { v with logic := .cube ⟨.cube, spin.reset⟩ }).remark
      .spinReset
  let h₂ := (h₁.onLoop 0 fun v w => v.start 0 w).remark .loopStarted
  have hseat₁ : Seat naming isLeaving h₁ u w :=
    (hseat.onViewer
      (f := fun v => { v with logic := .cube ⟨.cube, spin.reset⟩ }) rfl
      rfl).of_standing
      rfl
  have hseat₂ : Seat naming isLeaving h₂ (u.start 0 w).1 (u.start 0 w).2 :=
    (hseat₁.onLoop (f := fun v w => v.start 0 w) rfl rfl rfl rfl).of_standing
      rfl
  rcases hseat₂.tell_log m with ⟨h₃, htell, hseat₃⟩
  have hidle : v.state = .idle := hshows.state
  have hnot : v.state ≠ .running := by
    rw [hidle]
    decide
  have hopen : ¬ v.isClosed = true := by
    rw [hshows.unclosed]
    decide
  have hrun :
      (component Hook Logic).resume (.run 0) h =
        (h, .push [.setUp 0, .start 0]) := by
    show withViewer 0 (Host.run 0) h = _
    simp only [withViewer, hseat.viewer, Host.run, if_neg hnot,
      if_neg hopen]
  have hsetUp :
      (component Hook Logic).resume (.setUp 0) h = (h₁, .done .nothing) := by
    show withViewer 0 (Host.setUp 0) h = _
    simp only [withViewer, hseat.viewer, Host.setUp, Host.onLogic,
      hshows.shows]
    rfl
  have hstart : (component Hook Logic).resume (.start 0) h₁ =
      (h₂, .push [announce 0 runningType h₂]) := rfl
  exact ⟨h₃, .push hrun (.seq (.done hsetUp) (.push hstart htell)), _, _,
    hseat₃, hshows.start⟩

theorem Staged.stop (hs : Staged naming ⟨.running, spin, isLeaving⟩ h)
    (m : RateMeter Float) :
    exists h',
      Carries 0 [.stop 0] m h m h'
        ∧ Staged naming ⟨.idle, spin, isLeaving⟩ h' := by
  rcases hs with ⟨v, w, hseat, hshows⟩
  let h₁ := (h.onLoop 0 fun v w => v.halt 0 w).remark .loopStopped
  have hfixed :
      (v.halt 0 w).2.document = w.document
        ∧ (v.halt 0 w).2.session = w.session := by
    unfold Viewer.halt Viewer.unsubscribe
    cases v.isListening <;> cases v.tickHandle <;> exact ⟨rfl, rfl⟩
  have hseat₁ : Seat naming isLeaving h₁ (v.halt 0 w).1 (v.halt 0 w).2 :=
    (hseat.onLoop (f := fun v w => v.halt 0 w) rfl rfl hfixed.1
      hfixed.2).of_standing rfl
  rcases hseat₁.tell_log m with ⟨h₂, htell, hseat₂⟩
  have hrunning : v.state = .running := hshows.state
  have hnot : v.state ≠ .idle := by
    rw [hrunning]
    decide
  have hstop : (component Hook Logic).resume (.stop 0) h =
      (h₁, .push [announce 0 runningType h₁]) := by
    show withViewer 0 (Host.stop 0) h = _
    simp only [withViewer, hseat.viewer, Host.stop, if_neg hnot]
    rfl
  exact ⟨h₂, .push hstop htell, _, _, hseat₂, hshows.halt⟩

theorem Staged.stop_idle (hs : Staged naming ⟨.idle, spin, isLeaving⟩ h)
    (m : RateMeter Float) :
    Carries 0 [.stop 0] m h m h := by
  rcases hs with ⟨v, w, hseat, hshows⟩
  have hstop :
      (component Hook Logic).resume (.stop 0) h = (h, .done .nothing) := by
    show withViewer 0 (Host.stop 0) h = _
    simp only [withViewer, hseat.viewer, Host.stop, if_pos hshows.state]
    rfl
  exact .done hstop

theorem Staged.reset (hs : Staged naming x h) (m : RateMeter Float) :
    exists h', Carries 0 [.stop 0, .run 0] m h m h'
      ∧ Staged naming { x with state := .running, spin := x.spin.reset }
        h' := by
  rcases x with ⟨state, spin, isLeaving⟩
  cases state with
  | idle =>
      rcases hs.run m with ⟨h', hrun, hrunning⟩
      exact ⟨h', .seq (hs.stop_idle m) hrun, hrunning⟩
  | running =>
      rcases hs.stop m with ⟨h₁, hstop, hidle⟩
      rcases hidle.run m with ⟨h', hrun, hrunning⟩
      exact ⟨h', .seq hstop hrun, hrunning⟩

/-!
# Keys
-/

theorem heard_by_nobody (e : KeyEvent) (n : Nat) (m : RateMeter Float)
    (h : Host Hook Logic) : Carries 0 [.press 0 e n []] m h m h :=
  .done (v := .flag (h.isPrevented n)) rfl

theorem Staged.heard (hs : Staged naming y h) (e : KeyEvent) (n : Nat)
    (m : RateMeter Float) :
    exists h', Carries 0 [.press 0 e n [.keys e.motion 0]] m h m h'
      ∧ Staged naming (y.heard e.motion e.key) h' := by
  rcases y with ⟨state, spin, isLeaving⟩
  rcases hs with ⟨v, w, hseat, hshows⟩
  have hkeys : h.listeners 0 e.motion.type = hearers state e.motion := by
    rw [hseat.listeners, hshows.keys]
  cases state with
  | idle =>
      have hunheard :
          Listener.keys e.motion 0 ∉ h.listeners 0 e.motion.type := by
        rw [hkeys]
        cases e.motion <;> decide
      have hpress :
          (component Hook Logic).resume (.press 0 e n [.keys e.motion 0]) h =
          (h, .push [.press 0 e n []]) := press_unlisted hunheard []
      exact ⟨h, .push hpress (heard_by_nobody e n m h), v, w, hseat, hshows⟩
  | running =>
      have hheard : Listener.keys e.motion 0 ∈ h.listeners 0 e.motion.type := by
        rw [hkeys]
        cases e.motion <;> decide
      let turned := spin.onKey e.motion e.key
      let h₁ := (h.note (.key 0 (h.latest n e))).onViewer 0 fun v =>
        { v with logic := .cube ⟨.cube, turned.1⟩ }
      let h₂ := if turned.2 then h₁.prevent n else h₁
      have hnoted :
          Seat naming isLeaving (h.note (.key 0 (h.latest n e))) v w :=
        hseat.of_standing rfl
      have hseat₁ : Seat naming isLeaving h₁
          { v with logic := .cube ⟨.cube, turned.1⟩ } w :=
        hnoted.onViewer (f := fun v =>
          { v with logic := .cube ⟨.cube, turned.1⟩ })
            rfl rfl
      have hseat₂ : Seat naming isLeaving h₂
          { v with logic := .cube ⟨.cube, turned.1⟩ } w := by
        unfold h₂
        split
        · exact hseat₁.of_standing rfl
        · exact hseat₁
      have hlogic : pressLogic 0 e.motion e n h = (h₂, .ok ()) := by
        simp only [pressLogic, hseat.viewer, Host.onLogic, hshows.shows]
        unfold h₂ h₁ turned
        cases e.motion <;> rfl
      have hpress :
          (component Hook Logic).resume (.press 0 e n [.keys e.motion 0]) h =
          (h₂, .push [.press 0 e n []]) := by
        show Host.press 0 e n h [.keys e.motion 0] = _
        rw [press_listed hheard, pressTurn, hlogic]
        rfl
      exact ⟨h₂, .push hpress (heard_by_nobody e n m h₂), _, _, hseat₂,
        hshows.key turned.1⟩

theorem Staged.leave (hs : Staged naming x h) :
    (component Hook Logic).perform (.post [.quit]) h
        = ({ h with input := h.input ++ [.quit] }, .done .nothing)
      ∧ Staged naming { x with isLeaving := true }
        { h with input := h.input ++ [.quit] } := by
  rcases hs with ⟨v, w, hseat, hshows⟩
  constructor
  · show h.post [.quit] = _
    unfold Host.post
    rw [hseat.display]
    rfl
  · refine ⟨v, w, ?_, hshows.leave⟩
    rcases hseat with
      ⟨naming, viewer, window, place, meter, log, document, session,
      display, page, width, height, quits, queued⟩
    refine ⟨naming, viewer, window, place, meter, log, document, session,
      display, page, width, height, ?_, ?_⟩
    · intro i hi
      exact (List.mem_append.mp hi).elim (quits i) List.eq_of_mem_singleton
    · show (h.input ++ [InputEvent.quit]).isEmpty = false
      cases h.input <;> rfl

theorem Staged.viewer (hs : Staged naming x h) :
    exists v,
      h.viewers[0]? = some v ∧ v.state = x.state
        ∧ v.logic.spin? = some x.spin := by
  rcases hs with ⟨v, w, hseat, hshows⟩
  refine ⟨v, hseat.viewer, hshows.state, ?_⟩
  rw [hshows.shows]
  rfl

theorem Staged.queued (hs : Staged naming x h) :
    h.input.isEmpty = !x.isLeaving := by
  rcases hs with ⟨v, w, hseat, _⟩
  exact hseat.queued

/-- A task that calls the key bindings: they use one operation at most, and what
follows finds their work done. -/
theorem Staged.bound (hs : Staged naming x h) {t : Host.Task Hook}
    {ts : List (Host.Task Hook)} {e : KeyEvent} {n : Nat} {m : RateMeter Float}
    {z : Show}
    (call : (component Hook Logic).resume t h =
      (h, .call (.key .keyBindings n e) ts))
    (after : forall {h₁ : Host Hook Logic},
      Staged naming (x.bound e.key) h₁ -> exists h',
        Carries 0 ts m h₁ m h' ∧ Staged naming z h') :
    exists k h', k ≤ 1 ∧ Carries k [t] m h m h' ∧ Staged naming z h' := by
  have hanswer :
      (agent 0).answer (.key .keyBindings n e) m h =
        (m, h, binding e.key 0 h) := rfl
  unfold binding at hanswer
  unfold Show.bound at after
  by_cases hescape : e.key = "Escape"
  · rw [if_pos hescape] at hanswer
    rw [if_pos hescape] at after
    rcases after hs.leave.2 with ⟨h', hafter, hstaged⟩
    exact ⟨1, h', Nat.le_refl 1, .call_done call hanswer hs.leave.1 hafter,
      hstaged⟩
  rw [if_neg hescape] at hanswer
  rw [if_neg hescape] at after
  by_cases hreset : e.key = "r"
  · rw [if_pos hreset] at hanswer
    rw [if_pos hreset] at after
    rcases hs.reset m with ⟨h₁, hinside, hfresh⟩
    rcases after hfresh with ⟨h', hafter, hstaged⟩
    exact ⟨1, h', Nat.le_refl 1, .call_push call hanswer rfl hinside hafter,
      hstaged⟩
  rw [if_neg hreset] at hanswer
  rw [if_neg hreset] at after
  by_cases hpause : e.key = "p"
  · rw [if_pos hpause] at hanswer
    rw [if_pos hpause] at after
    rcases hs.viewer with ⟨v, hviewer, hstate, _⟩
    simp only [hviewer, hstate] at hanswer
    rcases x with ⟨state, spin, isLeaving⟩
    cases state with
    | idle =>
        rcases hs.run m with ⟨h₁, hinside, hrunning⟩
        rcases after hrunning with ⟨h', hafter, hstaged⟩
        exact ⟨1, h', Nat.le_refl 1, .call_push call hanswer rfl hinside hafter,
          hstaged⟩
    | running =>
        rcases hs.stop m with ⟨h₁, hinside, hidle⟩
        rcases after hidle with ⟨h', hafter, hstaged⟩
        exact ⟨1, h', Nat.le_refl 1, .call_push call hanswer rfl hinside hafter,
          hstaged⟩
  · rw [if_neg hpause] at hanswer
    rw [if_neg hpause] at after
    rcases after hs with ⟨h', hafter, hstaged⟩
    exact ⟨0, h', Nat.zero_le 1, .call call hanswer hafter, hstaged⟩

theorem Staged.press (hs : Staged naming x h) (e : KeyEvent)
    (m : RateMeter Float) :
    exists k h',
      k ≤ 1 ∧ Carries k [(pressKey 0 e h).2] m (pressKey 0 e h).1 m h'
      ∧ Staged naming (x.afterKey e.motion e.key) h' := by
  rcases e with ⟨motion, key, prevented⟩
  let e : KeyEvent := ⟨motion, key, prevented⟩
  let n := h.prevented.size
  let h₀ := h.addEvent e
  have hs₀ : Staged naming x h₀ := hs.of_standing rfl
  have hkeys : h₀.listeners 0 e.motion.type = hearers x.state motion := by
    rcases hs₀ with ⟨v, w, hseat, hshows⟩
    rw [hseat.listeners, hshows.keys]
  -- what remains of the press once the key bindings have answered
  have hown : forall {y : Show} {h₁ : Host Hook Logic},
      Staged naming y h₁ -> exists h',
        Carries 0
            [.press 0 e n (if x.state = .running then [.keys motion 0] else [])]
            m h₁ m h'
          ∧ Staged naming
            (match x.state with | .idle => y | .running => y.heard motion key)
              h' := by
    intro y h₁ hy
    cases x.state with
    | idle => exact ⟨h₁, heard_by_nobody e n m h₁, hy⟩
    | running => exact hy.heard e n m
  have hpress :
      pressKey 0 e h = (h₀, .press 0 e n (hearers x.state motion)) := by
    rw [← hkeys]
    rfl
  rw [hpress]
  cases motion with
  | up =>
      rcases hown hs₀ with ⟨h', hrest, hstaged⟩
      exact ⟨0, h', Nat.zero_le 1, hrest, hstaged⟩
  | down =>
      have hlisted :
          Listener.outside Hook.keyBindings ∈ h₀.listeners 0 e.motion.type := by
        rw [hkeys]
        exact List.mem_cons_self
      have hcall :
          (component Hook Logic).resume (.press 0 e n (hearers x.state .down))
            h₀ =
            (h₀, .call (.key .keyBindings n (h₀.latest n e))
              [.press 0 e n
               (if x.state = .running then [.keys .down 0] else [])]) :=
        press_listed hlisted _
      exact hs₀.bound hcall hown

/-!
# Frames and pictures
-/

theorem draw_cube (e : Easel) (drawable : spin.rotation.isDrawable = true) :
    ((CubeShow.draw ⟨.cube, spin⟩).perform e).2 = .ok () := by
  simp only [Rotation.isDrawable, Rotation.toList, List.all_cons, List.all_nil,
    Bool.and_true, Bool.and_eq_true, Bool.not_eq_true'] at drawable
  rcases drawable with ⟨hx, hy, hz⟩
  let cleared : Easel :=
    { e with record := .stroke (.fill Settings.backgroundColor) :: e.record }
  have hclear : Easel.clear.perform e = (cleared, .ok ()) := rfl
  rcases Easel.exists_projected cleared.projector
    (Wireframe.cube : Wireframe Float).vertices hx hy hz with
    ⟨ps, hps, hlength⟩
  have hends := isSome_ends hlength
    (show forall edge, edge ∈ (Wireframe.cube : Wireframe Float).edges ->
      (-8 ≤ edge.1 ∧ edge.1 < 8) ∧ (-8 ≤ edge.2 ∧ edge.2 < 8) by decide)
  unfold CubeShow.draw Easel.drawWireframe
  simp only [Act.perform_bind, hclear, Act.perform_get, Act.perform_ofResult,
    hps, Easel.perform_drawProjected Easel.denotes_value? hends,
    Act.perform_pure]

theorem size_image_paint (t : Tree) (k j : Nat) {f : Image -> Image}
    (keeps : forall i, (f i).width = i.width ∧ (f i).height = i.height) :
    ((t.paint k f).image j).width = (t.image j).width
      ∧ ((t.paint k f).image j).height = (t.image j).height := by
  unfold Tree.image Tree.paint
  rw [Array.getElem?_modify]
  split
  · cases t.canvases[j]? with
    | none => exact ⟨rfl, rfl⟩
    | some c => exact keeps c.image
  · exact ⟨rfl, rfl⟩

theorem size_foldr {f : EaselNote -> Image -> Image}
    (keeps : forall n i, (f n i).width = i.width ∧ (f n i).height = i.height)
    (record : List EaselNote) (i : Image) :
    (record.foldr f i).width = i.width
      ∧ (record.foldr f i).height = i.height := by
  induction record with
  | nil => exact ⟨rfl, rfl⟩
  | cons n rest ih =>
      have hlast := keeps n (rest.foldr f i)
      exact ⟨hlast.1.trans ih.1, hlast.2.trans ih.2⟩

theorem Seat.onEasel {v : Viewer Hook Logic} {w : Window Hook}
    (hs : Seat naming isLeaving h v w) (act : Act Easel Unit) :
    exists easel,
      Seat naming isLeaving (h.onEasel 0 v act).1 { v with easel := easel }
        w := by
  let easel : Easel := { (act.perform v.easel).1 with record := [] }
  have hviewer := hs.onViewer (f := fun v => { v with easel := easel }) rfl rfl
  have hsize :
      ((h.onEasel 0 v act).1.tree.image 0).width = (h.tree.image 0).width
      ∧ ((h.onEasel 0 v act).1.tree.image 0).height =
        (h.tree.image 0).height := by
    refine size_image_paint h.tree v.canvas 0 fun i =>
      size_foldr (fun n j => ?_) _ i
    cases n with
    | stroke s => cases s <;> exact ⟨rfl, rfl⟩
    | remark r => exact ⟨rfl, rfl⟩
  rcases hviewer with
    ⟨naming, viewer, window, place, meter, log, document, session,
    display, page, width, height, quits, queued⟩
  exact ⟨easel, naming, viewer, window, place, meter, log, document, session,
    display, page, hsize.1.trans width, hsize.2.trans height, quits, queued⟩

section frame

variable {v : Viewer Hook Logic} {w : Window Hook}

theorem Seat.beginFrame (hs : Seat naming isLeaving h v w) :
    exists h', Host.beginFrame 0 h = (h', .push [.frame 0 w.queue.handles 0])
      ∧ Seat naming isLeaving h' v { w with queue := w.queue.beginFrame } := by
  have hbegun :=
    hs.onWindow (f := fun w => { w with queue := w.queue.beginFrame }) rfl rfl
  refine ⟨_, ?_, hbegun⟩
  simp only [Host.beginFrame, hbegun.window]
  rfl

theorem Seat.tick (hs : Seat naming isLeaving h v w) {n : Nat}
    (pending : w.queue.pending = [(n, .tick 0)]) :
    exists h', resume (.frame 0 [n] 0) h =
        (h',
          .push [announce 0 frameType h', .update 0, .draw 0, .rearm 0,
            .frame 0 [] 1])
      ∧ Seat naming isLeaving h' { v with tickHandle := none }
          { w with queue := { w.queue with pending := [] } } := by
  let spent : FrameQueue (Callback Hook) := { w.queue with pending := [] }
  have htake : w.queue.take n = some (.tick 0, spent) := by
    simp [spent, FrameQueue.take, FrameQueue.drop, pending]
  have htook : h.takeCallback 0 n =
      some (.tick 0, h.onWindow 0 fun w => { w with queue := spent }) := by
    simp only [takeCallback, hs.window, htake, Option.bind_eq_bind,
      Option.bind_some]
  refine ⟨((h.onWindow 0 fun w => { w with queue := spent }).onViewer 0
    fun v => { v with tickHandle := none }).note (.tick 0 n), ?_, ?_⟩
  · exact frame_taken htook []
  · exact ((hs.onWindow (f := fun w => { w with queue := spent }) rfl
      rfl).onViewer
      (f := fun v => { v with tickHandle := none }) rfl rfl).of_standing rfl

theorem Seat.update (hs : Seat naming isLeaving h v w)
    (shows : v.logic = .cube ⟨.cube, spin⟩) :
    exists h', resume (.update 0) h = (h', .done .nothing)
      ∧ Seat naming isLeaving h' { v with logic := .cube ⟨.cube, spin.update⟩ }
        w := by
  refine ⟨_, ?_,
    hs.onViewer (f := fun v => { v with logic := .cube ⟨.cube, spin.update⟩ })
      rfl rfl⟩
  simp only [resume, withViewer, hs.viewer, Host.update, Host.onLogic, shows]
  rfl

theorem Seat.draw (hs : Seat naming isLeaving h v w)
    (shows : v.logic = .cube ⟨.cube, spin⟩) :
    exists h' easel, (resume (.draw 0) h = (h', .done .nothing)
        ∨ spin.rotation.isDrawable = false ∧ exists e,
          resume (.draw 0) h = (h', .fail e))
      ∧ Seat naming isLeaving h' { v with easel := easel } w := by
  rcases hs.onEasel (CubeShow.draw ⟨.cube, spin⟩) with ⟨easel, hdrawn⟩
  refine ⟨_, easel, ?_, hdrawn⟩
  have hdraw : resume (.draw 0) h =
      afterLogic (h.onEasel 0 v (CubeShow.draw ⟨.cube, spin⟩)) fun _ h =>
        finish h := by
    simp only [resume, withViewer, hs.viewer, Host.draw, shows]
    rfl
  rw [hdraw]
  cases hresult : (h.onEasel 0 v (CubeShow.draw ⟨.cube, spin⟩)).2 with
  | ok u =>
      left
      rw [show h.onEasel 0 v (CubeShow.draw ⟨.cube, spin⟩) = (_, .ok u)
        from Prod.ext rfl hresult]
      rfl
  | error e =>
      right
      constructor
      · refine Bool.eq_false_iff.mpr fun hdrawable => ?_
        cases hresult.symm.trans (draw_cube v.easel hdrawable)
      · rw [show h.onEasel 0 v (CubeShow.draw ⟨.cube, spin⟩) = (_, .error e)
          from Prod.ext rfl hresult]
        exact ⟨e, rfl⟩

theorem Seat.rearm (hs : Seat naming isLeaving h v w)
    (shows : v.logic = .cube ⟨.cube, spin⟩) (running : v.state = .running)
    (spent : v.tickHandle = none) :
    exists h', resume (.rearm 0) h = (h', .done .nothing)
      ∧ Seat naming isLeaving h' (v.requestTick 0 w).1
        (v.requestTick 0 w).2 := by
  refine ⟨_, ?_, hs.onLoop (f := fun v w => v.requestTick 0 w) rfl rfl rfl rfl⟩
  have hfree : (v.tickHandle.isSome || decide (v.state = .idle)) = false := by
    rw [spent, running]
    rfl
  simp only [resume, withViewer, hs.viewer, Host.rearm, hfree, shows]
  rfl

theorem Seat.frame_end (hs : Seat naming isLeaving h v w) (ran : Nat) :
    exists h',
      resume (.frame 0 [] ran) h = (h', .done .nothing)
        ∧ Seat naming isLeaving h' v w := by
  refine ⟨if ran = 0 then h else h.remark (.frameRan (h.frameCount 0) ran),
    rfl, ?_⟩
  split
  · exact hs
  · exact hs.of_standing rfl

end frame

theorem Staged.frame_idle (hs : Staged naming ⟨.idle, spin, isLeaving⟩ h)
    (m : RateMeter Float) :
    exists h₁ h' ts,
      Host.beginFrame 0 h = (h₁, .push ts) ∧ Carries 0 ts m h₁ m h'
      ∧ Staged naming ⟨.idle, spin, isLeaving⟩ h' := by
  rcases hs with ⟨v, w, hseat, hshows⟩
  have hnone : w.queue.handles = [] := by
    rw [FrameQueue.handles, hshows.tick.2]
    rfl
  rcases hseat.beginFrame with ⟨h₁, hbegin, hseat₁⟩
  rcases hseat₁.frame_end 0 with ⟨h', hend, hseat'⟩
  rw [hnone] at hbegin
  exact ⟨h₁, h', _, hbegin, .done hend, v, _, hseat', hshows.beginFrame⟩

theorem Staged.frame_running (hs : Staged naming ⟨.running, spin, isLeaving⟩ h)
    (m : RateMeter Float) :
    exists h₁ ts, Host.beginFrame 0 h = (h₁, .push ts)
      ∧ ((exists m' h',
        Carries 0 ts m h₁ m' h'
          ∧ Staged naming ⟨.running, spin.update, isLeaving⟩ h')
        ∨ spin.update.rotation.isDrawable = false
          ∧ Fails (component Hook Logic) (agent 0) ts m h₁) := by
  rcases hs with ⟨v, w, hseat, hshows⟩
  rcases hshows.tick with ⟨n, hhandle, hpending⟩
  have hone : w.queue.handles = [n] := by
    rw [FrameQueue.handles, hpending]
    rfl
  rcases hseat.beginFrame with ⟨h₁, hbegin, hseat₁⟩
  rw [hone] at hbegin
  rcases hseat₁.tick hpending with ⟨h₂, htick, hseat₂⟩
  rcases hseat₂.update hshows.shows with ⟨h₃, hupdate, hseat₃⟩
  rcases hseat₃.draw rfl with ⟨h₄, easel, hdraw, hseat₄⟩
  refine ⟨h₁, _, hbegin, ?_⟩
  rcases hdraw with hdrawn | ⟨hundrawable, e, hfailed⟩
  · rcases hseat₄.rearm rfl hshows.state rfl with ⟨h₅, hrearm, hseat₅⟩
    rcases hseat₅.frame_end 1 with ⟨h₆, hend, hseat₆⟩
    have hrest :
        Carries 0 [.update 0, .draw 0, .rearm 0, .frame 0 [] 1]
          (tickMeter m h₂.clock) h₂
          (tickMeter m h₂.clock) h₆ :=
      .seq (.done hupdate)
        (.seq (.done hdrawn) (.seq (.done hrearm) (.done hend)))
    exact .inl
      ⟨_, h₆, .push htick (.seq (hseat₂.tell_meter m) hrest), _, _, hseat₆,
      hshows.beginFrame.ticked easel⟩
  · exact .inr ⟨hundrawable, .push htick (.seq (hseat₂.tell_meter m)
      (.seq (.done hupdate) (.fail hfailed _)))⟩

theorem Staged.swap (hs : Staged naming x h) :
    exists i, (Host.swap 0).perform h = (h, .ok i) := by
  rcases hs with ⟨v, w, hseat, hshows⟩
  have hpage : h.page 0 = { children := [0] } := by
    unfold page body?
    rw [hseat.window]
    simp only [Option.bind_some, hseat.document]
    rw [hseat.page]
    rfl
  have hcopies : Tree.CopiesDown Image.place? (h.page 0).x (h.page 0).y
      ((h.page 0).children.map h.tree.image) h.backdrop := by
    rw [hpage]
    apply Tree.copiesDown_of_near
    intro n j listed
    match n, listed with
    | 0, rfl =>
        unfold backdrop
        rw [Tree.top_zero, hseat.width, hseat.height, hseat.display]
        exact ⟨by constructor <;> decide, by constructor <;> decide⟩
  rcases Tree.stackBy_stacked hcopies with ⟨i, hstack, _⟩
  refine ⟨i, ?_⟩
  unfold Host.swap
  rw [perform_swapBy hseat.window (by rw [hseat.display])
    (by rw [hseat.display, hseat.session]), hstack]

end Session
end WireView
