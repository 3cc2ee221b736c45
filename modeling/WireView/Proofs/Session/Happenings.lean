import WireView.Proofs.Session.Stage

/-!
# What happens in a session

A round polls a whole batch of input and repaints the window.  Here the same is
told event by event, so that one can speak of a session in the middle of a
batch: the clock reaches a new reading and what was queued by then is polled, an
event of the batch is taken, the window is repainted.  A session of the cube
does in its rounds exactly what it does by these happenings, and each of them
changes its show as it should.
-/

namespace WireView
namespace Session

open Host Reentrant Machine

inductive Happening where
  | arrival (now : Float)
  | event (i : InputEvent)
  | repaint

def isOpen : Host.Value -> Bool
  | .flag b => b
  | _ => false

/-- Works off tasks, with a number of operations for the key bindings. -/
def workOff (budget : Nat) (ts : List (Host.Task Hook)) :
    Act Session Host.Value := do
  let s ← get
  let m :
      Machine (Host Hook Logic) (Host.Task Hook) (Host.Callee Hook)
        Host.Value :=
    ⟨s.host, levels ts, .ok .nothing⟩
  let (meter, m) :=
    Machine.play (component Hook Logic) (agent s.viewer) budget s.meter m
  set { s with host := m.world, meter := meter }
  Act.ofResult m.result

def take (i : InputEvent) : Act Session Bool := do
  let v ← workOff 1 [.poll (← get).window [i]]
  pure (isOpen v)

def pollWindow : Act Session Bool := do
  let v ← perform (.poll (← get).window)
  pure (isOpen v)

def arrive (now : Float) : Act Session Bool := do
  feed now []
  pollWindow

def repaint : Act Session Unit := do
  let s ← get
  let _ ← perform (.frame s.window)
  let _ ← perform (.swap s.window)
  refreshCaption
  onHost fun h => h.note (.paced s.rate)

def Happening.act : Happening -> Act Session Bool
  | arrival now => arrive now
  | event i => take i
  | repaint => do
      Session.repaint
      pure true

def live : List Happening -> Act Session Bool
  | [] => pure true
  | e :: rest => do
      if ← e.act then
        live rest
      else
        pure false

/-- What happens in the rounds for some batches of input. -/
def script : List (Float × List InputEvent) -> List Happening
  | [] => []
  | (now, events) :: rest =>
      .arrival now :: (events.map .event ++ .repaint :: script rest)

theorem live_append (first rest : List Happening) (s : Session) :
    (live (first ++ rest)).perform s =
      (do
        if ← live first then
          live rest
        else
          pure false : Act Session Bool).perform s := by
  induction first generalizing s with
  | nil => rfl
  | cons e first ih =>
      simp only [List.cons_append, live, Act.perform_bind]
      rcases e.act.perform s with ⟨s', f | b⟩
      · rfl
      · cases b with
        | false => rfl
        | true => exact (ih s').trans (Act.perform_bind ..)

/-!
# The show
-/

namespace Show

def afterEvent (naming : Key.Naming) (x : Show) : InputEvent -> Show
  | .key motion code => x.afterKey motion (Key.name naming code)
  | .quit => x
  | .other => x

def after (naming : Key.Naming) (x : Show) : Happening -> Show
  | .arrival _ => { x with isLeaving := false }
  | .event i => x.afterEvent naming i
  | .repaint => x.afterFrame

def goesOn (x : Show) : Happening -> Bool
  | .arrival _ => !x.isLeaving
  | .event i => decide (i ≠ .quit)
  | .repaint => true

def isDrawable (x : Show) : Happening -> Bool
  | .repaint => decide (x.state = .idle) || x.spin.update.rotation.isDrawable
  | _ => true

def lives (naming : Key.Naming) (x : Show) : List Happening -> Bool
  | [] => true
  | e :: rest =>
      x.isDrawable e && x.goesOn e && (x.after naming e).lives naming rest

end Show

structure Showing (naming : Key.Naming) (x : Show) (s : Session) : Prop where
  viewer : s.viewer = 0
  window : s.window = 0
  staged : Staged naming x s.host

variable {naming : Key.Naming} {x : Show} {s s' : Session}
  {h h' : Host Hook Logic}

theorem Showing.onHost (hs : Showing naming x s) {y : Show}
    (staged : Staged naming y h') :
    Showing naming y { s with host := h' } :=
  ⟨hs.viewer, hs.window, staged⟩

/-!
# Events
-/

theorem Staged.event (hs : Staged naming x h) {i : InputEvent}
    (stays : i ≠ .quit) (m : RateMeter Float) :
    exists k h',
      k ≤ 1 ∧ Staged naming (x.afterEvent naming i) h' ∧ forall todo r budget,
        exists r',
          play (component Hook Logic) (agent 0) (budget + k) m
            ⟨h, [.work (.poll 0 (i :: todo))], r⟩ =
            play (component Hook Logic) (agent 0) budget m
              ⟨h', [.work (.poll 0 todo)], r'⟩ := by
  cases i with
  | quit => exact absurd rfl stays
  | other =>
      refine ⟨0, h, Nat.zero_le 1, hs, fun todo r budget => ⟨r, ?_⟩⟩
      rw [play_work]
      rfl
  | key motion code =>
      have hnaming : h.naming = naming := by
        rcases hs with ⟨v, w, hseat, _⟩
        exact hseat.naming
      rcases hs.press { motion := motion, key := Key.name h.naming code } m with
        ⟨k, h', hk, hpress, hstaged⟩
      rw [hnaming] at hstaged
      refine ⟨k, h', hk, hstaged, fun todo r budget => ?_⟩
      rcases hpress [.work (.poll 0 todo)] r budget with ⟨v, hplay⟩
      refine ⟨.ok v, ?_⟩
      rw [play_work]
      exact hplay

theorem play_poll_nil (m : RateMeter Float) (r : Except Failure Host.Value)
    (budget : Nat) :
    play (component Hook Logic) (agent 0) budget m
      ⟨h, [.work (.poll 0 [])], r⟩ =
      (m, ⟨h, [], .ok (.flag true)⟩) := by
  rw [play_work]
  exact play_nil

theorem play_poll_quit (m : RateMeter Float) (r : Except Failure Host.Value)
    (budget : Nat) (todo : List InputEvent) :
    play (component Hook Logic) (agent 0) budget m
      ⟨h, [.work (.poll 0 (.quit :: todo))], r⟩ =
      (m, ⟨h, [], .ok (.flag false)⟩) := by
  rw [play_work]
  exact play_nil

theorem perform_of_play (viewer : s.viewer = 0) {op : SessionOp}
    {m : RateMeter Float} {r : Except Failure Host.Value}
    (plays : play (component Hook Logic) (agent 0) s.host.input.length s.meter
      (issue (component Hook Logic) op ⟨s.host, [], .ok .nothing⟩) =
        (m, ⟨h', [], r⟩)) :
    (perform op).perform s = ({ s with host := h', meter := m }, r) := by
  have hperform : (perform op).perform s =
      let p :=
        play (component Hook Logic) (agent s.viewer) s.host.input.length s.meter
          (issue (component Hook Logic) op ⟨s.host, [], .ok .nothing⟩)
      ({ s with host := p.2.world, meter := p.1 }, p.2.result) := rfl
  rw [← viewer] at plays
  rw [hperform, plays]

theorem perform_done (viewer : s.viewer = 0) {op : SessionOp} {v : Host.Value}
    (operation : (component Hook Logic).perform op s.host = (h', .done v)) :
    (perform op).perform s = ({ s with host := h' }, .ok v) := by
  refine perform_of_play (m := s.meter) viewer ?_
  unfold issue
  rw [operation]
  exact play_nil

theorem take_of_play (viewer : s.viewer = 0) (window : s.window = 0)
    {i : InputEvent} {m : RateMeter Float} {b : Bool}
    (plays : play (component Hook Logic) (agent 0) 1 s.meter
      ⟨s.host, [.work (.poll 0 [i])], .ok .nothing⟩ =
        (m, ⟨h', [], .ok (.flag b)⟩)) :
    (take i).perform s = ({ s with host := h', meter := m }, .ok b) := by
  have hwork : (workOff 1 [.poll s.window [i]]).perform s =
      let p := play (component Hook Logic) (agent s.viewer) 1 s.meter
        ⟨s.host, [.work (.poll s.window [i])], .ok .nothing⟩
      ({ s with host := p.2.world, meter := p.1 }, p.2.result) := rfl
  have hplays : play (component Hook Logic) (agent s.viewer) 1 s.meter
      ⟨s.host, [.work (.poll s.window [i])], .ok .nothing⟩ =
        (m, ⟨h', [], .ok (.flag b)⟩) := by
    rw [viewer, window]
    exact plays
  rw [hplays] at hwork
  unfold take
  rw [Act.perform_bind, Act.perform_get]
  dsimp only
  rw [Act.perform_bind, hwork]
  rfl

theorem Showing.take_quit (hs : Showing naming x s) :
    (take .quit).perform s = (s, .ok false) :=
  take_of_play hs.viewer hs.window (play_poll_quit s.meter _ 1 [])

theorem Showing.event (hs : Showing naming x s) {i : InputEvent}
    (stays : i ≠ .quit) :
    exists k h', k ≤ 1 ∧ Staged naming (x.afterEvent naming i) h'
      ∧ (take i).perform s = ({ s with host := h' }, .ok true)
      ∧ forall todo r budget, exists r',
        play (component Hook Logic) (agent 0) (budget + k) s.meter
            ⟨s.host, [.work (.poll 0 (i :: todo))], r⟩ =
          play (component Hook Logic) (agent 0) budget s.meter
            ⟨h', [.work (.poll 0 todo)], r'⟩ := by
  rcases hs.staged.event stays s.meter with ⟨k, h', hk, hstaged, hplay⟩
  refine ⟨k, h', hk, hstaged, ?_, hplay⟩
  rcases hplay [] (.ok .nothing) (1 - k) with ⟨r', htake⟩
  rw [Nat.sub_add_cancel hk, play_poll_nil] at htake
  exact take_of_play hs.viewer hs.window htake

theorem Showing.take (hs : Showing naming x s) {i : InputEvent}
    (stays : i ≠ .quit) :
    exists s',
      (Session.take i).perform s = (s', .ok true)
        ∧ Showing naming (x.afterEvent naming i) s' := by
  rcases hs.event stays with ⟨_, h', _, hstaged, htake, _⟩
  exact ⟨_, htake, hs.onHost hstaged⟩

theorem Showing.poll (hs : Showing naming x s) (todo : List InputEvent)
    {budget : Nat} (enough : todo.length ≤ budget) :
    exists h' b y,
      (live (todo.map .event)).perform s = ({ s with host := h' }, .ok b)
        ∧ Staged naming y h'
      ∧ forall r, play (component Hook Logic) (agent 0) budget s.meter
          ⟨s.host, [.work (.poll 0 todo)], r⟩ =
            (s.meter, ⟨h', [], .ok (.flag b)⟩) := by
  induction todo generalizing s x budget with
  | nil =>
      exact ⟨s.host, true, x, rfl, hs.staged,
        fun r => play_poll_nil s.meter r budget⟩
  | cons i todo ih =>
      by_cases hquit : i = .quit
      · subst hquit
        refine ⟨s.host, false, x, ?_, hs.staged,
          fun r => play_poll_quit s.meter r budget todo⟩
        simp only [List.map_cons, live, Happening.act, Act.perform_bind,
          hs.take_quit]
        rfl
      · rcases hs.event hquit with ⟨k, h₁, hk, hstaged, htake, hplay⟩
        -- the event has used one operation at most, so there is one left for
        -- each of the others
        have hroom : todo.length ≤ budget - k := by
          rw [List.length_cons] at enough
          omega
        rcases ih (hs.onHost hstaged) hroom with
          ⟨h', b, y, hlive, hstaged', hrest⟩
        refine ⟨h', b, y, ?_, hstaged', fun r => ?_⟩
        · simp only [List.map_cons, live, Happening.act, Act.perform_bind,
            htake]
          exact hlive
        · rcases hplay todo r (budget - k) with ⟨r', hfirst⟩
          rw [Nat.sub_add_cancel (by rw [List.length_cons] at enough; omega),
            hrest r'] at hfirst
          exact hfirst

theorem Staged.clear (hs : Staged naming x h) (now : Float)
    (journal : List Note) :
    Staged naming { x with isLeaving := false }
      { h with clock := now, input := [], journal := journal } := by
  rcases hs with ⟨v, w, hseat, hshows⟩
  rcases hseat with
    ⟨naming, viewer, window, place, meter, log, document, session, display,
    page, width, height, _, _⟩
  exact ⟨v, w,
    ⟨naming, viewer, window, place, meter, log, document, session, display,
      page, width, height, nofun, rfl⟩,
    hshows.shows, hshows.state, hshows.unclosed, hshows.listening, hshows.keys,
    hshows.tick⟩

theorem Showing.polled (hs : Showing naming x s) (now : Float)
    (events : List InputEvent) :
    let cleared : Session :=
      { s with
        host :=
          { s.host with
            clock := now, input := [], journal := .polled :: s.host.journal } }
    (do
      feed now events
      pollWindow : Act Session Bool).perform s =
        (live ((s.host.input ++ events).map .event)).perform cleared := by
  intro cleared
  let todo := s.host.input ++ events
  let fed : Session :=
    { s with
      host :=
        { s.host with
          clock := now, input := todo, journal := .polled :: s.host.journal } }
  have hcleared : Showing naming { x with isLeaving := false } cleared :=
    hs.onHost (hs.staged.clear now _)
  rcases hcleared.poll todo (Nat.le_refl _) with ⟨h', b, y, hlive, _, hplay⟩
  have hopen : fed.host.display.isOpen = true := by
    rcases hs.staged with ⟨v, w, hseat, _⟩
    show s.host.display.isOpen = true
    rw [hseat.display]
  have hbegin :
      beginPoll 0 fed.host = (cleared.host, .push [.poll 0 todo]) := by
    unfold beginPoll
    rw [if_pos hopen]
  have hissue :
      issue (component Hook Logic) (.poll s.window)
        ⟨fed.host, [], .ok .nothing⟩ =
        ⟨cleared.host, [.work (.poll 0 todo)], .ok .nothing⟩ := by
    show proceed [] _ (beginPoll s.window fed.host) = _
    rw [hs.window, hbegin]
    rfl
  have hperform : (perform (.poll s.window)).perform fed =
      ({ cleared with host := h' }, .ok (.flag b)) := by
    refine perform_of_play (s := fed) hs.viewer ?_
    rw [hissue]
    exact hplay _
  rw [hlive]
  show (pollWindow).perform fed = _
  unfold pollWindow
  rw [Act.perform_bind, Act.perform_get]
  dsimp only
  rw [Act.perform_bind, hperform]
  rfl

theorem Showing.arrive (hs : Showing naming x s) (now : Float) :
    exists s', (arrive now).perform s = (s', .ok (!x.isLeaving))
      ∧ Showing naming { x with isLeaving := false } s' := by
  have hpolled := hs.polled now []
  have hcleared := hs.onHost (hs.staged.clear now (.polled :: s.host.journal))
  rw [List.append_nil] at hpolled
  refine ⟨_, ?_, hcleared⟩
  unfold Session.arrive
  rw [hpolled]
  rcases hs.staged with ⟨v, w, hseat, _⟩
  have hqueued := hseat.queued
  cases hinput : s.host.input with
  | nil =>
      rw [hinput] at hqueued
      rw [← hqueued]
      rfl
  | cons i rest =>
      rw [hinput] at hqueued
      rw [← hqueued, hseat.quits i (by rw [hinput]; exact List.mem_cons_self)]
      simp only [List.map_cons, live, Happening.act, Act.perform_bind,
        hcleared.take_quit]
      rfl

/-!
# Repainting
-/

theorem Showing.perform_frame (hs : Showing naming x s) :
    (exists m h' v,
      (perform (.frame s.window)).perform s =
        ({ s with host := h', meter := m }, .ok v)
        ∧ Staged naming x.afterFrame h')
      ∨ x.isDrawable .repaint = false
        ∧ exists s' e,
          (perform (.frame s.window)).perform s = (s', .error e) := by
  rcases x with ⟨state, spin, isLeaving⟩
  have hop : perform (.frame s.window) = perform (.frame 0) := by rw [hs.window]
  rw [hop]
  cases state with
  | idle =>
      rcases hs.staged.frame_idle s.meter with
        ⟨h₁, h', ts, hbegin, hcarries, hstaged⟩
      have hoperation :
          (component Hook Logic).perform (.frame 0) s.host = (h₁, .push ts) :=
        hbegin
      rcases hcarries.issue hoperation (Nat.zero_le s.host.input.length)
        (.ok .nothing) with ⟨v, hplay⟩
      exact .inl ⟨s.meter, h', v, perform_of_play hs.viewer hplay, hstaged⟩
  | running =>
      rcases hs.staged.frame_running s.meter with ⟨h₁, ts, hbegin, hticks⟩
      have hoperation :
          (component Hook Logic).perform (.frame 0) s.host = (h₁, .push ts) :=
        hbegin
      rcases hticks with ⟨m, h', hcarries, hstaged⟩ | ⟨hundrawable, hfails⟩
      · rcases hcarries.issue hoperation (Nat.zero_le s.host.input.length)
          (.ok .nothing) with ⟨v, hplay⟩
        exact .inl ⟨m, h', v, perform_of_play hs.viewer hplay, hstaged⟩
      · rcases hfails.issue hoperation (.ok .nothing) with ⟨m, h', e, hplay⟩
        exact .inr ⟨hundrawable, _, e, perform_of_play hs.viewer hplay⟩

theorem Showing.perform_swap (hs : Showing naming x s) :
    exists v, (perform (.swap s.window)).perform s = (s, .ok v) := by
  rcases hs.staged.swap with ⟨i, hswap⟩
  have hoperation : (component Hook Logic).perform (.swap s.window) s.host =
      (s.host, .done (.picture i)) := by
    show ofAct (Host.swap s.window) .picture s.host = _
    unfold ofAct
    rw [hs.window, hswap]
  exact ⟨.picture i, perform_done hs.viewer hoperation⟩

theorem Showing.refreshCaption (hs : Showing naming x s) :
    exists s',
      refreshCaption.perform s = (s', .ok ()) ∧ Showing naming x s' := by
  unfold Session.refreshCaption
  rw [Act.perform_bind, Act.perform_get]
  dsimp only
  split
  · exact ⟨_, rfl, hs.viewer, hs.window, hs.staged.of_standing rfl⟩
  · exact ⟨s, rfl, hs⟩

theorem Showing.repaint (hs : Showing naming x s) :
    (exists s',
      repaint.perform s = (s', .ok ()) ∧ Showing naming x.afterFrame s')
      ∨ x.isDrawable .repaint = false ∧ exists s' e,
        repaint.perform s = (s', .error e) := by
  unfold Session.repaint
  rw [Act.perform_bind, Act.perform_get]
  dsimp only
  rw [Act.perform_bind]
  rcases hs.perform_frame with
    ⟨m, h', v, hframe, hstaged⟩ | ⟨hundrawable, s', e, hframe⟩
  · have hshown :
        Showing naming x.afterFrame { s with host := h', meter := m } :=
      ⟨hs.viewer, hs.window, hstaged⟩
    rcases hshown.perform_swap with ⟨i, hswap⟩
    rcases hshown.refreshCaption with ⟨s₁, hcaption, hshown₁⟩
    left
    refine ⟨{ s₁ with host := s₁.host.note (.paced s.rate) }, ?_,
      hshown₁.onHost (hshown₁.staged.of_standing rfl)⟩
    have hswap :
        (perform (.swap s.window)).perform { s with host := h', meter := m } =
        ({ s with host := h', meter := m }, .ok i) := hswap
    rw [hframe]
    dsimp only
    rw [Act.perform_bind, hswap]
    dsimp only
    rw [Act.perform_bind, hcaption]
    rfl
  · rw [hframe]
    exact .inr ⟨hundrawable, s', e, rfl⟩

/-!
# Living through happenings
-/

/-- Every happening changes the show as it should, unless the cube cannot be
drawn. -/
theorem Showing.act (hs : Showing naming x s) (e : Happening) :
    (exists s',
      e.act.perform s = (s', .ok (x.goesOn e))
        ∧ Showing naming (x.after naming e) s')
      ∨ x.isDrawable e = false ∧ exists s' f,
        e.act.perform s = (s', .error f) := by
  cases e with
  | arrival now => exact .inl (hs.arrive now)
  | event i =>
      left
      by_cases hquit : i = .quit
      · subst hquit
        exact ⟨s, hs.take_quit, hs⟩
      · rw [show x.goesOn (.event i) = true from decide_eq_true hquit]
        exact hs.take hquit
  | repaint =>
      rcases hs.repaint with
        ⟨s', hrepaint, hshown⟩ | ⟨hundrawable, s', f, hrepaint⟩
      · refine .inl ⟨s', ?_, hshown⟩
        simp only [Happening.act, Act.perform_bind, hrepaint]
        rfl
      · refine .inr ⟨hundrawable, s', f, ?_⟩
        simp only [Happening.act, Act.perform_bind, hrepaint]

theorem Showing.live (hs : Showing naming x s) {past : List Happening}
    (lived : (live past).perform s = (s', .ok true)) :
    Showing naming (past.foldl (Show.after naming) x) s' := by
  induction past generalizing s x with
  | nil =>
      cases lived
      exact hs
  | cons e rest ih =>
      simp only [Session.live, Act.perform_bind] at lived
      rcases hs.act e with ⟨s₁, hact, hshown⟩ | ⟨_, s₁, f, hact⟩
      · rw [hact] at lived
        cases hopen : x.goesOn e with
        | false =>
            rw [hopen] at lived
            cases lived
        | true =>
            rw [hopen] at lived
            exact ih hshown lived
      · rw [hact] at lived
        cases lived

theorem Showing.lives (hs : Showing naming x s) {past : List Happening}
    (lives : x.lives naming past = true) :
    exists s',
      (Session.live past).perform s = (s', .ok true)
        ∧ Showing naming (past.foldl (Show.after naming) x) s' := by
  induction past generalizing s x with
  | nil => exact ⟨s, rfl, hs⟩
  | cons e rest ih =>
      simp only [Show.lives, Bool.and_eq_true] at lives
      rcases lives with ⟨⟨hdrawable, hopen⟩, hrest⟩
      rcases hs.act e with ⟨s₁, hact, hshown⟩ | ⟨hundrawable, _⟩
      · rcases ih hshown hrest with ⟨s', hlive, hshown'⟩
        refine ⟨s', ?_, hshown'⟩
        simp only [Session.live, Act.perform_bind, hact, hopen]
        exact hlive
      · cases hdrawable.symm.trans hundrawable

/-!
# Rounds
-/

theorem perform_round (s : Session) :
    round.perform s = (do
      if ← pollWindow then
        Session.repaint
        pure true
      else
        pure false : Act Session Bool).perform s := by
  have hsame : exists h' m r, (perform (.poll s.window)).perform s =
      ({ s with host := h', meter := m }, r) := ⟨_, _, _, rfl⟩
  rcases hsame with ⟨h', m, r, hpoll⟩
  unfold round pollWindow
  simp only [Act.perform_bind, Act.perform_get, hpoll]
  cases r with
  | error e => rfl
  | ok v =>
      cases v with
      | flag b =>
          cases b with
          | false => rfl
          | true =>
              simp only [isOpen, Act.perform_pure, if_true, Session.repaint,
                bind_assoc]
              rfl
      | _ => rfl

theorem rounds_cons (s : Session) (now : Float) (events : List InputEvent)
    (rest : List (Float × List InputEvent)) :
    (Session.rounds ((now, events) :: rest)).perform s = (do
      if ← (do feed now events; pollWindow : Act Session Bool) then
        Session.repaint
        Session.rounds rest : Act Session Unit).perform s := by
  simp only [Session.rounds, Act.perform_bind, perform_round]
  rcases (feed now events).perform s with ⟨s₀, e | _⟩
  · rfl
  dsimp only
  rcases pollWindow.perform s₀ with ⟨t, e | b⟩
  · rfl
  cases b with
  | false => rfl
  | true =>
      simp only [if_true, Act.perform_bind]
      rcases Session.repaint.perform t with ⟨u, e | _⟩ <;> rfl

/-- New input is polled after what was queued before, which has been polled when
the clock reached the new reading. -/
theorem Showing.polled_after_arrival (hs : Showing naming x s) {s₁ : Session}
    {now : Float} {b : Bool}
    (arrived : (Session.arrive now).perform s = (s₁, .ok b))
    (events : List InputEvent) :
    (do
      feed now events
      pollWindow : Act Session Bool).perform s =
        (if b then Session.live (events.map .event) else pure false).perform
          s₁ := by
  have hqueued := (hs.polled now []).symm.trans arrived
  rw [List.append_nil] at hqueued
  rw [hs.polled now events, List.map_append, live_append, Act.perform_bind,
    hqueued]

theorem Showing.rounds (hs : Showing naming x s)
    (batches : List (Float × List InputEvent)) :
    (Session.rounds batches).perform s = (do
      if ← Session.live (script batches) then
        Session.rounds [] : Act Session Unit).perform s := by
  induction batches generalizing s x with
  | nil => rfl
  | cons batch rest ih =>
      rcases batch with ⟨now, events⟩
      rcases hs.arrive now with ⟨s₁, harrive, hshown₁⟩
      have hscript : (Session.live (script ((now, events) :: rest))).perform s =
          (if !x.isLeaving then
            Session.live (events.map .event ++ .repaint :: script rest)
            else pure false).perform s₁ := by
        simp only [script, Session.live, Happening.act, Act.perform_bind,
          harrive]
      rw [rounds_cons, Act.perform_bind, hs.polled_after_arrival harrive,
        Act.perform_bind, hscript]
      cases x.isLeaving with
      | true => rfl
      | false =>
          -- the window is still open, so the new events are taken and then it
          -- is repainted
          rcases hshown₁.poll events (Nat.le_refl _) with
            ⟨h₂, b, y, hlive, hstaged₂, _⟩
          have hshown₂ := hshown₁.onHost hstaged₂
          simp only [Bool.not_false, if_true, live_append, Act.perform_bind,
            hlive]
          cases b with
          | false => rfl
          | true =>
              rcases hshown₂.repaint with
                ⟨s₃, hrepaint, hshown₃⟩ | ⟨_, s₃, f, hrepaint⟩
              · simp only [if_true, Session.live, Happening.act,
                  Act.perform_bind, hrepaint, Act.perform_pure]
                exact (ih hshown₃).trans (Act.perform_bind ..)
              · simp only [if_true, Session.live, Happening.act,
                  Act.perform_bind, hrepaint]

end Session
end WireView
