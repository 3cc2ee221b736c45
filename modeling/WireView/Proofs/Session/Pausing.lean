import WireView.Proofs.Projection.Requests
import WireView.Proofs.Session.Happenings

/-!
# Pausing

The key that pauses a session stops its loop, and pressed again it lets the loop
run.  While the loop rests, the cube stays as it is, whatever other keys are
pressed and however often the window is repainted.  But a loop that starts sets
its logic up, so the cube does not go on from where it was: the session goes on
just as if it had been reset.
-/

namespace WireView
namespace Session

open Host Reentrant Machine

/-!
# Opening
-/

theorem open?_eq (o : CommandLine.Options) (now : Float) (naming : Key.Naming) :
    open? o now naming =
      (Easel.ofSize? Settings.canvasWidth Settings.canvasHeight) >>= fun e =>
        openOn { easel := e, clock := now, naming := naming } o now := by
  unfold open? start?
  cases Easel.ofSize? Settings.canvasWidth Settings.canvasHeight <;> rfl

def begin : Act Session Unit := do
  connect
  let _ ← perform (.run (← get).viewer)

theorem contains_title : title.contains (Char.ofNat 0) = false := by
  rw [String.contains_char_eq]
  decide

def fresh (state : LoopState) : Show :=
  ⟨state, .start Settings.rotationStep, false⟩

def hooked (h : Host Hook Logic) : Host Hook Logic :=
  let h := h.onViewer 0 fun v =>
    { v with registry := v.registry.add frameType .meter }
  let h := h.onViewer 0 fun v =>
    { v with registry := v.registry.add runningType .runningLog }
  h.onWindow 0 fun w =>
    { w with
      registry := w.registry.add KeyMotion.down.type (.outside .keyBindings) }

theorem perform_connect {s : Session} (viewer : s.viewer = 0)
    (window : s.window = 0) :
    connect.perform s = ({ s with host := hooked s.host }, .ok ()) := by
  let h₁ :=
    s.host.onViewer 0 fun v =>
      { v with registry := v.registry.add frameType .meter }
  let h₂ :=
    h₁.onViewer 0 fun v =>
      { v with registry := v.registry.add runningType .runningLog }
  have hmeter :
      (component Hook Logic).perform (.observe s.viewer frameType .meter)
          s.host =
        (h₁, .done .nothing) := by
    rw [viewer]
    rfl
  have hlog :
      (component Hook Logic).perform (.observe s.viewer runningType .runningLog)
          h₁ =
        (h₂, .done .nothing) := by
    rw [viewer]
    rfl
  have hkeys :
      (component Hook Logic).perform
        (.listen s.window KeyMotion.down.type .keyBindings) h₂ =
        (hooked s.host, .done .nothing) := by
    rw [window]
    rfl
  have hfirst := perform_done viewer hmeter
  have hsecond := perform_done (s := { s with host := h₁ }) viewer hlog
  have hthird := perform_done (s := { s with host := h₂ }) viewer hkeys
  unfold connect
  simp only [Act.perform_bind, Act.perform_get, hfirst, hsecond, hthird]
  rfl

/-- The host of a session of the cube that has just been opened. -/
def opened (e : Easel) (now : Float) (naming : Key.Naming) (devMode : Bool)
    (journal : List Note) : Host Hook Logic where
  easel := e
  naming := naming
  clock := now
  windows :=
    #[{ width := 480, height := 360, document := some { body := some 0 },
        session := 0 }]
  viewers :=
    #[{ window := 0, canvas := 0, easel := e, logic := .standard,
        devMode := devMode }]
  tree :=
    { containers := #[{ children := [0] }]
      canvases := #[{ image := .plain 480 360 Image.black, parent := some 0 }] }
  current := some 0
  display := { isOpen := true, size := some (480, 360) }
  journal := journal

theorem openOn_cube (e : Easel) {o : CommandLine.Options} (now : Float)
    (naming : Key.Naming) (cube : o.picture ≠ some .arrow) :
    exists s₀ journal,
      openOn { easel := e, clock := now, naming := naming } o now = .ok s₀
        ∧ s₀.viewer = 0 ∧ s₀.window = 0
      ∧ s₀.host = opened e now naming o.devMode journal := by
  have hlogic : pictureOf now o.picture = .standard := by
    rcases o with ⟨_ | _ | _, _⟩
    · rfl
    · rfl
    · exact absurd rfl cube
  unfold openOn Host.openWindow Host.showTitle
  simp only [Act.perform_bind, contains_title, hlogic]
  exact ⟨_, _, rfl, rfl, rfl, rfl⟩

theorem staged_hooked (e : Easel) (now : Float) (naming : Key.Naming)
    (devMode : Bool) (journal : List Note) :
    Staged naming (fresh .idle)
      (hooked (opened e now naming devMode journal)) := by
  refine ⟨_, _,
    ⟨rfl, rfl, rfl, rfl, ?_, ?_, rfl, rfl, rfl, rfl, rfl, rfl, nofun, rfl⟩, ?_⟩
  · rfl
  · rfl
  · refine ⟨rfl, rfl, rfl, rfl, ?_, rfl, rfl⟩
    intro motion
    cases motion
    · rfl
    · rfl

variable {e : Easel} {o : CommandLine.Options} {now : Float}
  {naming : Key.Naming} {s₀ s : Session} {x : Show}

theorem begun (cube : o.picture ≠ some .arrow)
    (opens : openOn { easel := e, clock := now, naming := naming } o now =
      .ok s₀) :
    exists s,
      begin.perform s₀ = (s, .ok ()) ∧ Showing naming (fresh .running) s := by
  rcases openOn_cube e now naming cube with
    ⟨s', journal, hopens, hviewer, hwindow, hhost⟩
  cases opens.symm.trans hopens
  let s₁ : Session := { s₀ with host := hooked s₀.host }
  have hconnect : connect.perform s₀ = (s₁, .ok ()) :=
    perform_connect hviewer hwindow
  have hready : Staged naming (fresh .idle) s₁.host := by
    show Staged naming (fresh .idle) (hooked s₀.host)
    rw [hhost]
    exact staged_hooked e now naming o.devMode journal
  rcases hready.run s₁.meter with ⟨h', hcarries, hrunning⟩
  have hoperation : (component Hook Logic).perform (.run s₁.viewer) s₁.host =
      (s₁.host, .push [.run 0]) := by
    show (s₁.host, Progress.push [Host.Task.run s₀.viewer]) = _
    rw [hviewer]
  rcases hcarries.issue hoperation (Nat.zero_le s₁.host.input.length)
    (.ok .nothing) with ⟨v, hplay⟩
  have hrun := perform_of_play (s := s₁) hviewer hplay
  refine ⟨{ s₁ with host := h' }, ?_, hviewer, hwindow, hrunning⟩
  unfold begin
  simp only [Act.perform_bind, Act.perform_get, hconnect, hrun]
  rfl

/-- The rounds of a session of the cube are made of its happenings, from its
beginning on. -/
theorem rounds_are_lived (cube : o.picture ≠ some .arrow)
    (opens : openOn { easel := e, clock := now, naming := naming } o now =
      .ok s₀)
    (batches : List (Float × List InputEvent)) :
    (do
      begin
      rounds batches : Act Session Unit).perform s₀ =
        (do
          begin
          if ← live (script batches) then
            rounds [] : Act Session Unit).perform s₀ := by
  rcases begun cube opens with ⟨s, hbegin, hshown⟩
  rw [Act.perform_bind, Act.perform_bind, hbegin]
  exact hshown.rounds batches

/-!
# What is to be seen
-/

def loopState? (s : Session) : Option LoopState :=
  (s.host.viewers[s.viewer]?).map Viewer.state

def spin? (s : Session) : Option (Spin Float) :=
  (s.host.viewers[s.viewer]?).bind fun v => v.logic.spin?

theorem Showing.seen (hs : Showing naming x s) :
    s.loopState? = some x.state ∧ s.spin? = some x.spin := by
  rcases hs.staged.viewer with ⟨v, hviewer, hstate, hspin⟩
  unfold loopState? spin?
  rw [hs.viewer, hviewer]
  exact ⟨congrArg some hstate, hspin⟩

/-!
# Pausing and going on
-/

def pauseKey : InputEvent := .key .down 112

def resetKey : InputEvent := .key .down 114

/-- Everything but the keys that are bound being pressed, and a request to close
the window. -/
def Happening.isQuiet (naming : Key.Naming) : Happening -> Bool
  | .event (.key .down code) =>
      !(["Escape", "r", "p"].contains (Key.name naming code))
  | .event .quit => false
  | _ => true

variable {spin : Spin Float} {isLeaving : Bool}

namespace Show

theorem name_pause (lettered : naming.IsLettered) : Key.name naming 112 = "p" :=
  (lettered 112 (by decide) (by decide)).trans (by decide)

theorem name_reset (lettered : naming.IsLettered) : Key.name naming 114 = "r" :=
  (lettered 114 (by decide) (by decide)).trans (by decide)

theorem pause_running (lettered : naming.IsLettered) :
    (⟨.running, spin, isLeaving⟩ : Show).afterEvent naming pauseKey =
      ⟨.idle, spin, isLeaving⟩ := by
  show afterKey ⟨.running, spin, isLeaving⟩ .down (Key.name naming 112) = _
  rw [name_pause lettered]
  rfl

theorem start_idle (lettered : naming.IsLettered) {i : InputEvent}
    (starts : i = pauseKey ∨ i = resetKey) :
    (⟨.idle, spin, isLeaving⟩ : Show).afterEvent naming i =
      ⟨.running, spin.reset, isLeaving⟩ := by
  rcases starts with rfl | rfl
  · show afterKey ⟨.idle, spin, isLeaving⟩ .down (Key.name naming 112) = _
    rw [name_pause lettered]
    rfl
  · show afterKey ⟨.idle, spin, isLeaving⟩ .down (Key.name naming 114) = _
    rw [name_reset lettered]
    rfl

/-- While the loop rests, nothing that is quiet changes the cube, or ends a
session that nobody has asked to end. -/
theorem after_quiet (spin : Spin Float) (isLeaving : Bool) {e : Happening}
    (quiet : e.isQuiet naming = true) :
    let x : Show := ⟨.idle, spin, isLeaving⟩
    (exists leaving,
      x.after naming e = ⟨.idle, spin, leaving⟩
        ∧ (isLeaving = false -> leaving = false))
      ∧ (isLeaving = false -> x.goesOn e = true) := by
  intro x
  cases e with
  | arrival now =>
      refine ⟨⟨false, rfl, fun _ => rfl⟩, fun hstays => ?_⟩
      show (!isLeaving) = true
      rw [hstays]
      rfl
  | repaint => exact ⟨⟨isLeaving, rfl, id⟩, fun _ => rfl⟩
  | event i =>
      cases i with
      | quit => cases quiet
      | other => exact ⟨⟨isLeaving, rfl, id⟩, fun _ => rfl⟩
      | key motion code =>
          refine ⟨⟨isLeaving, ?_, id⟩, fun _ => rfl⟩
          cases motion with
          | up => rfl
          | down =>
              have hunbound : Key.name naming code ∉ ["Escape", "r", "p"] := by
                simpa [Happening.isQuiet] using quiet
              simp only [List.mem_cons, List.not_mem_nil, or_false, not_or]
                at hunbound
              show bound _ (Key.name naming code) = _
              unfold bound
              rw [if_neg hunbound.1, if_neg hunbound.2.1, if_neg hunbound.2.2]

end Show

theorem Showing.live_quiet (hs : Showing naming ⟨.idle, spin, isLeaving⟩ s)
    {between : List Happening}
    (quiet : forall e, e ∈ between -> e.isQuiet naming = true) :
    exists q stays leaving, (Session.live between).perform s = (q, .ok stays)
      ∧ Showing naming ⟨.idle, spin, leaving⟩ q
      ∧ (isLeaving = false -> stays = true) := by
  induction between generalizing s isLeaving with
  | nil => exact ⟨s, true, isLeaving, rfl, hs, fun _ => rfl⟩
  | cons e rest ih =>
      have hquiet := quiet e List.mem_cons_self
      have hrest := fun e he => quiet e (List.mem_cons_of_mem _ he)
      rcases Show.after_quiet spin isLeaving hquiet with
        ⟨⟨leaving, hafter, hkeeps⟩, hopen⟩
      rcases hs.act e with ⟨s₁, hact, hshown⟩ | ⟨hundrawable, _⟩
      · rw [hafter] at hshown
        simp only [Session.live, Act.perform_bind, hact]
        cases hgoes : Show.goesOn ⟨.idle, spin, isLeaving⟩ e with
        | false =>
            refine ⟨s₁, false, leaving, rfl, hshown, fun hstays => ?_⟩
            exact hgoes.symm.trans (hopen hstays)
        | true =>
            rcases ih hshown hrest with ⟨q, stays, left, hlive, hshown', hstays⟩
            exact ⟨q, stays, left, hlive, hshown', fun h => hstays (hkeeps h)⟩
      · -- nothing is drawn while the loop rests
        cases e <;> cases hundrawable

theorem Showing.pause (lettered : naming.IsLettered)
    (hs : Showing naming ⟨.running, spin, isLeaving⟩ s) :
    exists p, (Session.take pauseKey).perform s = (p, .ok true)
      ∧ Showing naming ⟨.idle, spin, isLeaving⟩ p := by
  rcases hs.take (i := pauseKey) (by decide) with ⟨p, htake, hshown⟩
  rw [Show.pause_running lettered] at hshown
  exact ⟨p, htake, hshown⟩

theorem Showing.goOn (lettered : naming.IsLettered)
    (hs : Showing naming ⟨.idle, spin, isLeaving⟩ s) {i : InputEvent}
    (starts : i = pauseKey ∨ i = resetKey) :
    exists r, (Session.take i).perform s = (r, .ok true)
      ∧ Showing naming ⟨.running, spin.reset, isLeaving⟩ r := by
  have hstays : i ≠ .quit := by
    rcases starts with rfl | rfl <;> decide
  rcases hs.take hstays with ⟨r, htake, hshown⟩
  rw [Show.start_idle lettered starts] at hshown
  exact ⟨r, htake, hshown⟩

/-- However a session of the cube has come to run, pausing it stops the loop and
leaves the cube as it is.  Whatever is quiet happens then and leaves both as
they are, and unless the window was to be closed already it stays open.  Going
on starts the loop and, as resetting would, puts the cube and the intents to
rest: the rotation before the pause is gone unless it was zero. -/
theorem pause_goes_on_from_rest (lettered : naming.IsLettered)
    (cube : o.picture ≠ some .arrow)
    (opens : openOn { easel := e, clock := now, naming := naming } o now =
      .ok s₀)
    {past : List Happening}
    (lived : (do
      begin
      live past : Act Session Bool).perform s₀ = (s, .ok true))
    (running : s.loopState? = some .running) :
    exists spin p,
      s.spin? = some spin ∧ (take pauseKey).perform s = (p, .ok true)
      ∧ p.loopState? = some .idle ∧ p.spin? = some spin
      ∧ forall between, (forall e, e ∈ between -> e.isQuiet naming = true) ->
        exists q stays,
          (live between).perform p = (q, .ok stays)
          ∧ (s.host.input = [] -> stays = true)
          ∧ q.loopState? = some .idle ∧ q.spin? = some spin
          ∧ (exists r, (take pauseKey).perform q = (r, .ok true)
            ∧ r.loopState? = some .running
            ∧ r.spin? = some { spin with rotation := .zero, intents := {} })
          ∧ exists r, (take resetKey).perform q = (r, .ok true)
            ∧ r.loopState? = some .running
            ∧ r.spin? =
              some { spin with rotation := .zero, intents := {} } := by
  rcases begun cube opens with ⟨s₁, hbegin, hshown₁⟩
  rw [Act.perform_bind, hbegin] at lived
  have hshown := hshown₁.live lived
  generalize past.foldl (Show.after naming) (fresh .running) = shown at hshown
  rcases shown with ⟨state, spin, isLeaving⟩
  rcases hshown.seen with ⟨hstate, hspin⟩
  cases Option.some.inj (hstate.symm.trans running)
  rcases hshown.pause lettered with ⟨p, hpause, hpaused⟩
  have hqueued : s.host.input = [] -> isLeaving = false := by
    intro hnone
    have hqueued := hshown.staged.queued
    rw [hnone] at hqueued
    simpa using hqueued.symm
  refine ⟨spin, p, hspin, hpause, hpaused.seen.1, hpaused.seen.2,
    fun between quiet => ?_⟩
  rcases hpaused.live_quiet quiet with
    ⟨q, stays, leaving, hlive, hshown', hstays⟩
  rcases hshown'.goOn lettered (.inl rfl) with ⟨r, hgoOn, hrunning⟩
  rcases hshown'.goOn lettered (.inr rfl) with ⟨r', hreset, hrunning'⟩
  exact ⟨q, stays, hlive, fun h => hstays (hqueued h), hshown'.seen.1,
    hshown'.seen.2, ⟨r, hgoOn, hrunning.seen.1, hrunning.seen.2⟩, r', hreset,
    hrunning'.seen.1, hrunning'.seen.2⟩

/-!
# A cube that has been turned
-/

def squareEasel : Easel where
  width := 480
  height := 360
  projector := Projector.squareScreen

def turning : List Happening :=
  [.event (.key .down 1073741903), .repaint, .event (.key .up 1073741903)]

def turnedSpin : Spin Float :=
  ⟨Settings.rotationStep, ⟨0 + Settings.rotationStep * 1, 0, 0⟩, {}⟩

theorem turned :
    exists s₀ s, openOn { easel := squareEasel, clock := 0 } {} 0 = .ok s₀
    ∧ (do
      begin
      live turning : Act Session Bool).perform s₀ = (s, .ok true)
    ∧ Showing Key.printed ⟨.running, turnedSpin, false⟩ s := by
  rcases openOn_cube squareEasel (o := {}) 0 Key.printed (by decide) with
    ⟨s₀, journal, hopens, _⟩
  rcases begun (by decide) hopens with ⟨s₁, hbegin, hshown₁⟩
  have hlives : (fresh .running).lives Key.printed turning = true := by
    decide +kernel
  rcases hshown₁.lives hlives with ⟨s, hlive, hshown⟩
  refine ⟨s₀, s, hopens, ?_, hshown⟩
  rw [Act.perform_bind, hbegin]
  exact hlive

theorem turnedSpin_ne : turnedSpin.rotation ≠ .zero := by decide +kernel

/-- While it is paused, another arrow key is pressed and the window is
repainted. -/
theorem pause_with_turned_cube : exists s₀ s p q r,
    openOn { easel := squareEasel, clock := 0 } {} 0 = .ok s₀
      ∧ (do
        begin
        live turning : Act Session Bool).perform s₀ = (s, .ok true)
      ∧ s.spin? = some turnedSpin
      ∧ (take pauseKey).perform s = (p, .ok true)
      ∧ (live [.repaint, .arrival 1, .event (.key .down 1073741904)]).perform
        p = (q, .ok true)
      ∧ q.loopState? = some .idle ∧ q.spin? = some turnedSpin
      ∧ (take pauseKey).perform q = (r, .ok true)
      ∧ r.loopState? = some .running
      ∧ r.spin? = some (.start Settings.rotationStep) := by
  rcases turned with ⟨s₀, s, hopens, hlived, hshown⟩
  have hnone : s.host.input = [] := List.isEmpty_iff.mp hshown.staged.queued
  rcases pause_goes_on_from_rest Key.isLettered_printed (by decide) hopens
    hlived hshown.seen.1 with
    ⟨spin, p, hspin, hpause, _, _, hbetween⟩
  cases Option.some.inj (hspin.symm.trans hshown.seen.2)
  rcases hbetween [.repaint, .arrival 1, .event (.key .down 1073741904)]
    (by decide) with
    ⟨q, stays, hlive, hstays, hidle, hkept, ⟨r, hgoOn, hrunning, hrest⟩, _⟩
  rw [hstays hnone] at hlive
  exact ⟨s₀, s, p, q, r, hopens, hlived, hspin, hpause, hlive, hidle, hkept,
    hgoOn, hrunning, hrest⟩

/-- The rotation is another one after a pause than it was before. -/
theorem turned_cube_forgotten : exists s₀ s p q r,
    openOn { easel := squareEasel, clock := 0 } {} 0 = .ok s₀
      ∧ (do
        begin
        live turning : Act Session Bool).perform s₀ = (s, .ok true)
      ∧ s.loopState? = some .running
      ∧ (take pauseKey).perform s = (p, .ok true) ∧ p.loopState? = some .idle
      ∧ (live [.repaint]).perform p = (q, .ok true) ∧ q.loopState? = some .idle
      ∧ (take pauseKey).perform q = (r, .ok true) ∧ r.loopState? = some .running
      ∧ r.spin?.map Spin.rotation ≠ s.spin?.map Spin.rotation := by
  rcases turned with ⟨s₀, s, hopens, hlived, hshown⟩
  rcases hshown.pause Key.isLettered_printed with ⟨p, hpause, hpaused⟩
  have hlives :
      (⟨.idle, turnedSpin, false⟩ : Show).lives Key.printed [.repaint] = true :=
    rfl
  rcases hpaused.lives hlives with ⟨q, hlive, hkept⟩
  rcases hkept.goOn Key.isLettered_printed (.inl rfl) with ⟨r, hgoOn, hrunning⟩
  refine ⟨s₀, s, p, q, r, hopens, hlived, hshown.seen.1, hpause, hpaused.seen.1,
    hlive, hkept.seen.1, hgoOn, hrunning.seen.1, ?_⟩
  rw [hrunning.seen.2, hshown.seen.2]
  intro hsame
  exact turnedSpin_ne (Option.some.inj hsame).symm

end Session
end WireView
