import WireView.Proofs.Host.Lone
import WireView.Proofs.Host.Safety
import WireView.Proofs.Reentrant.Settling

/-!
# A viewer refines its spin

The user of a host starts, stops, resets and closes a viewer of a wireframe,
presses keys and lets frames pass, and nobody else is about.  Then the viewer
shows what its bare spin comes to by the calls that it should receive: a setup
at every start, the keys pressed while the loop runs, and an update for every
frame while it runs.

A frame that raises takes the tick with it.  The loop still counts as running,
and keys still reach it, but no frame updates it until it is started again.
-/

namespace WireView

open Reentrant Machine

/-!
# The specification
-/

inductive Command where
  | run
  | stop
  | reset
  | close
  | press (motion : KeyMotion) (key : String)
  | frame

inductive Phase where
  | idle
  | running
  | closed
  deriving DecidableEq

def Phase.after : Phase -> Command -> Phase
  | .closed, _ => .closed
  | _, .run => .running
  | _, .stop => .idle
  | _, .reset => .running
  | _, .close => .closed
  | p, .press _ _ => p
  | p, .frame => p

inductive Call where
  | setUp
  | key (motion : KeyMotion) (key : String)
  | update

namespace Spin

theorem onKey_acts (s : Spin Float) (motion : KeyMotion) (key : String) :
    (s.onKey motion key).2 = (ControlKey.ofName? key).isSome := by
  cases motion with
  | down =>
      simp only [onKey, keyDown]
      cases ControlKey.ofName? key <;> rfl
  | up =>
      simp only [onKey, keyUp]
      cases ControlKey.ofName? key <;> rfl

def receive (s : Spin Float) : Call -> Spin Float
  | .setUp => s.reset
  | .key motion key => (s.onKey motion key).1
  | .update => s.update

end Spin

/-- A bare spin, with the phase of its loop. -/
structure Bare where
  phase : Phase
  /-- A frame has raised since the loop was started. -/
  stalled : Bool
  spin : Spin Float

namespace Bare

def calls (b : Bare) : Command -> List Call
  | .run => if b.phase = .idle then [.setUp] else []
  | .reset => if b.phase = .closed then [] else [.setUp]
  | .press motion key => if b.phase = .running then [.key motion key] else []
  | .frame => if b.phase = .running ∧ b.stalled = false then [.update] else []
  | _ => []

def stalls (b : Bare) (raised : Bool) : Command -> Bool
  | .run => if b.phase = .idle then false else b.stalled
  | .reset => if b.phase = .closed then b.stalled else false
  | .frame => raised || b.stalled
  | _ => b.stalled

def after (b : Bare) (c : Command) (raised : Bool) : Bare :=
  ⟨b.phase.after c, b.stalls raised c, (b.calls c).foldl Spin.receive b.spin⟩

end Bare

/-!
# Serving commands
-/

def Command.op {K : Type} (a g : Nat) : Command -> Host.Op K Logic
  | .run => .run g
  | .stop => .stop g
  | .reset => .reset g
  | .close => .close g
  | .press motion key => .press a { motion := motion, key := key }
  | .frame => .frame a

namespace Host

variable {K : Type} [DecidableEq K]

def serve (a g : Nat) (m : HostMachine K Logic) (c : Command) :
    HostMachine K Logic :=
  (m.issue (component K Logic) (c.op a g)).settle (component K Logic)

def raised (m : HostMachine K Logic) : Bool :=
  match m.result with
  | .ok _ => false
  | .error _ => true

def follow (a g : Nat) :
    HostMachine K Logic × Bare -> List Command -> HostMachine K Logic × Bare
  | mb, [] => mb
  | (m, b), c :: cs =>
      let n := serve a g m c
      follow a g (n, b.after c (raised n)) cs

/-!
# What a viewer and its window look like
-/

def keysOf (g : Nat) (type : String) : List (Listener K) :=
  if type = KeyMotion.down.type then
    [.keys .down g]
  else
    if type = KeyMotion.up.type then [.keys .up g]
  else []

/-- A viewer of a scene and its window show a bare spin. -/
structure Plays (g : Nat) (scene : CubeShow) (b : Bare) (v : Viewer K Logic)
    (w : Window K) : Prop where
  shows : v.logic = .cube { scene with spin := b.spin }
  state : v.state = if b.phase = .running then .running else .idle
  closed : v.isClosed = decide (b.phase = .closed)
  listening : v.isListening = decide (b.phase = .running)
  listeners : forall type, w.registry.listeners type =
    if b.phase = .running then keysOf g type else []
  pending : b.phase = .running -> b.stalled = false ->
    exists n, v.tickHandle = some n ∧ w.queue.pending = [(n, .tick g)]
  spent : b.phase ≠ .running ∨ b.stalled = true ->
    v.tickHandle = none ∧ w.queue.pending = []

theorem listeners_subscribe {w : Window K} {g : Nat}
    (h : forall type, w.registry.listeners type = []) (type : String) :
    (w.subscribe g).registry.listeners type = keysOf g type := by
  unfold Window.subscribe Registry.add
  rw [Registry.listeners_update, Registry.listeners_update,
    Registry.listeners_update]
  unfold keysOf
  rw [h, h]
  by_cases hup : type = KeyMotion.up.type
  · subst hup
    rfl
  · rw [if_neg hup, if_neg hup]
    by_cases hdown : type = KeyMotion.down.type
    · rw [if_pos hdown, if_pos hdown]
      rfl
    · rw [if_neg hdown, if_neg hdown]
      exact h type

theorem listeners_unsubscribe {w : Window K} {g : Nat}
    (h : forall type, w.registry.listeners type = keysOf g type)
    (type : String) :
    (w.unsubscribe g).registry.listeners type = [] := by
  unfold Window.unsubscribe Registry.remove
  rw [Registry.listeners_update, Registry.listeners_update,
    Registry.listeners_update]
  by_cases hup : type = KeyMotion.up.type
  · subst hup
    have hne : KeyMotion.up.type ≠ KeyMotion.down.type := by decide
    rw [if_pos rfl, if_neg hne, h]
    simp [keysOf, if_neg hne]
  · rw [if_neg hup]
    by_cases hdown : type = KeyMotion.down.type
    · subst hdown
      rw [if_pos rfl, h]
      simp [keysOf]
    · rw [if_neg hdown, h]
      unfold keysOf
      rw [if_neg hdown, if_neg hup]

namespace Plays

variable {g : Nat} {scene : CubeShow} {b : Bare} {v : Viewer K Logic}
  {w : Window K}

omit [DecidableEq K] in
theorem idle_of_phase (hp : Plays g scene b v w) (phase : b.phase ≠ .running) :
    v.state = .idle := by
  rw [hp.state, if_neg phase]

omit [DecidableEq K] in
theorem not_running_of_phase (hp : Plays g scene b v w)
    (phase : b.phase ≠ .running) :
    v.state ≠ .running := by
  intro hrunning
  cases (hp.idle_of_phase phase).symm.trans hrunning

omit [DecidableEq K] in
theorem running_of_phase (hp : Plays g scene b v w)
    (phase : b.phase = .running) :
    v.state = .running := by
  rw [hp.state, if_pos phase]

theorem start (hp : Plays g scene b v w) (idle : b.phase = .idle) :
    let u : Viewer K Logic :=
      { v with logic := .cube { scene with spin := b.spin.reset } }
    Plays g scene ⟨.running, false, b.spin.reset⟩ (u.start g w).1
      (u.start g w).2 := by
  have hne : b.phase ≠ .running := by
    rw [idle]
    simp
  have hsilent : forall type, w.registry.listeners type = [] := by
    intro type
    rw [hp.listeners, if_neg hne]
  constructor
  · rfl
  · rfl
  · show v.isClosed = false
    rw [hp.closed, idle]
    rfl
  · rfl
  · intro type
    rw [if_pos rfl]
    exact listeners_subscribe hsilent type
  · intro _ _
    refine ⟨w.queue.nextHandle, rfl, ?_⟩
    show w.queue.pending ++ [(w.queue.nextHandle, .tick g)] = _
    rw [(hp.spent (.inl hne)).2]
    rfl
  · rintro (h | h)
    · exact absurd rfl h
    · cases h

omit [DecidableEq K] in
theorem queue_dropTick (hp : Plays g scene b v w) :
    (w.dropTick v.tickHandle).queue.pending = [] := by
  by_cases hpending : b.phase = .running ∧ b.stalled = false
  · rcases hp.pending hpending.1 hpending.2 with ⟨n, hhandle, hqueue⟩
    rw [hhandle]
    simp [Window.dropTick, FrameQueue.drop, hqueue]
  · have hspent : b.phase ≠ .running ∨ b.stalled = true := by
      rw [not_and_or, Bool.not_eq_false] at hpending
      exact hpending
    rcases hp.spent hspent with ⟨hhandle, hqueue⟩
    rw [hhandle]
    exact hqueue

theorem halt (hp : Plays g scene b v w) (running : b.phase = .running)
    (stalled : Bool) :
    Plays g scene ⟨.idle, stalled, b.spin⟩ (v.halt g w).1 (v.halt g w).2 := by
  have hlistening : v.isListening = true := by
    rw [hp.listening, running]
    rfl
  have hkeys : forall type, w.registry.listeners type = keysOf g type := by
    intro type
    rw [hp.listeners, if_pos running]
  have hwindow : (v.halt g w).2 = (w.unsubscribe g).dropTick v.tickHandle := by
    simp [Viewer.halt, Viewer.unsubscribe, hlistening]
  constructor
  · exact hp.shows
  · rfl
  · show v.isClosed = _
    rw [hp.closed, running]
    rfl
  · rfl
  · intro type
    have hregistry : (v.halt g w).2.registry = (w.unsubscribe g).registry := by
      rw [hwindow]
      cases v.tickHandle <;> rfl
    rw [hregistry]
    exact listeners_unsubscribe hkeys type
  · intro h
    cases h
  · intro _
    refine ⟨rfl, ?_⟩
    have hqueue := hp.queue_dropTick
    rw [hwindow]
    cases hhandle : v.tickHandle with
    | none =>
        rw [hhandle] at hqueue
        exact hqueue
    | some n =>
        rw [hhandle] at hqueue
        exact hqueue

theorem shut (hp : Plays g scene b v w) (stalled : Bool) :
    Plays g scene ⟨.closed, stalled, b.spin⟩ (v.shut g w).1 (v.shut g w).2 := by
  by_cases hrunning : b.phase = .running
  · have hhalted := hp.halt hrunning stalled
    rw [Viewer.shut_running (hp.running_of_phase hrunning)]
    exact ⟨hhalted.shows, hhalted.state, rfl, hhalted.listening,
      hhalted.listeners, by simp, fun _ => hhalted.spent (.inl (by simp))⟩
  · have hsilent : v.isListening = false := by
      rw [hp.listening]
      exact decide_eq_false hrunning
    have hidle := hp.idle_of_phase hrunning
    rw [Viewer.shut_idle hidle hsilent]
    refine ⟨hp.shows, hidle, rfl, rfl,
      ?_, by simp, fun _ => hp.spent (.inl hrunning)⟩
    intro type
    rw [hp.listeners, if_neg hrunning, if_neg (by simp)]

omit [DecidableEq K] in
theorem beginFrame (hp : Plays g scene b v w) :
    Plays g scene b v { w with queue := w.queue.beginFrame } :=
  ⟨hp.shows, hp.state, hp.closed, hp.listening, hp.listeners, hp.pending,
   hp.spent⟩

omit [DecidableEq K] in
theorem key (hp : Plays g scene b v w) (motion : KeyMotion) (key : String) :
    Plays g scene { b with spin := (b.spin.onKey motion key).1 }
      { v with
        logic := .cube { scene with spin := (b.spin.onKey motion key).1 } } w :=
  ⟨rfl, hp.state, hp.closed, hp.listening, hp.listeners, hp.pending, hp.spent⟩

omit [DecidableEq K] in
theorem stall (hp : Plays g scene b v w) (running : b.phase = .running)
    (easel : Easel) :
    Plays g scene ⟨.running, true, b.spin.update⟩
      { v with
        tickHandle := none
        logic := .cube { scene with spin := b.spin.update }
        easel := easel }
      { w with queue := { w.queue with pending := [] } } := by
  refine ⟨rfl, hp.running_of_phase running, ?_, ?_,
    ?_, by simp, fun _ => ⟨rfl, rfl⟩⟩
  · show v.isClosed = _
    rw [hp.closed, running]
  · show v.isListening = _
    rw [hp.listening, running]
  · intro type
    show w.registry.listeners type = _
    rw [hp.listeners, running]

omit [DecidableEq K] in
theorem requestTick (hp : Plays g scene b v w) (running : b.phase = .running)
    (stalled : b.stalled = true) :
    Plays g scene ⟨.running, false, b.spin⟩ (v.requestTick g w).1
      (v.requestTick g w).2 := by
  refine ⟨hp.shows, hp.running_of_phase running, ?_, ?_, ?_, ?_, by simp⟩
  · show v.isClosed = _
    rw [hp.closed, running]
  · show v.isListening = _
    rw [hp.listening, running]
  · intro type
    show w.registry.listeners type = _
    rw [hp.listeners, running]
  · intro _ _
    refine ⟨w.queue.nextHandle, rfl, ?_⟩
    show w.queue.pending ++ [(w.queue.nextHandle, .tick g)] = _
    rw [(hp.spent (.inr stalled)).2]
    rfl

end Plays

/-!
# One command
-/

section Serving

variable {g : Nat} {scene : CubeShow} {b : Bare} {v : Viewer K Logic}
  {w : Window K}
variable {h : Host K Logic} {r : Except Failure Value}

def Played (g : Nat) (scene : CubeShow) (window : Nat) (h : Host K Logic)
    (b : Bare) : Prop :=
  exists v w, v.window = window ∧ Lone h g v w ∧ Plays g scene b v w

theorem resume_notify (h : Host K Logic) (g : Nat) (type : String) :
    resume (.notify g type []) h = (h, .done .nothing) := rfl

theorem settle_run (hl : Lone h g v w) (hp : Plays g scene b v w)
    (raised : Bool) :
    exists h' r',
      settle (component K Logic) ⟨h, [.work (.run g)], r⟩ = ⟨h', [], r'⟩
      ∧ Played g scene v.window h' (b.after .run raised) := by
  rcases b with ⟨phase, stalled, spin⟩
  cases phase with
  | running =>
      refine ⟨h, .ok .nothing, ?_, v, w, rfl, hl, hp⟩
      rw [settle_done (hl.run_running (hp.running_of_phase rfl)), settle_nil]
  | closed =>
      have hidle : v.state ≠ .running := hp.not_running_of_phase (by simp)
      refine ⟨h, .error .viewerClosed, ?_, v, w, rfl, hl, hp⟩
      rw [settle_fail (hl.run_closed hidle hp.closed)]
      exact settle_nil
  | idle =>
      have hidle : v.state ≠ .running := hp.not_running_of_phase (by simp)
      have hopen : ¬ v.isClosed = true := by
        rw [hp.closed]
        simp
      rcases hl.setUp hp.shows with ⟨h1, hset, hl1⟩
      rcases hl1.start with ⟨h2, hstart, hl2⟩
      have hplayed : Played g scene v.window h2 ⟨.running, false, spin.reset⟩ :=
        ⟨_, _, by rfl, hl2, hp.start rfl⟩
      refine ⟨h2, .ok .nothing, ?_, hplayed⟩
      rw [settle_push (hl.run_idle hidle hopen)]
      show settle (component K Logic)
        ⟨h, [.work (.setUp g), .work (.start g)], r⟩ = _
      rw [settle_done hset, settle_push hstart]
      show settle (component K Logic)
        ⟨h2, [.work (.notify g runningType [])], _⟩ = _
      rw [settle_done (resume_notify h2 g runningType), settle_nil]

theorem settle_stop (hl : Lone h g v w) (hp : Plays g scene b v w)
    (raised : Bool) (rest : List (Level (Task K) (Callee K))) :
    exists h', settle (component K Logic) ⟨h, .work (.stop g) :: rest, r⟩ =
        settle (component K Logic) ⟨h', rest, .ok .nothing⟩
      ∧ Played g scene v.window h' (b.after .stop raised) := by
  rcases b with ⟨phase, stalled, spin⟩
  cases phase with
  | running =>
      have hrunning : v.state ≠ .idle := by
        rw [hp.running_of_phase rfl]
        simp
      rcases hl.stop_running hrunning with ⟨h1, hstop, hl1⟩
      have hplayed : Played g scene v.window h1 ⟨.idle, stalled, spin⟩ :=
        ⟨_, _, by rfl, hl1, hp.halt rfl stalled⟩
      refine ⟨h1, ?_, hplayed⟩
      rw [settle_push hstop]
      show settle (component K Logic)
        ⟨h1, .work (.notify g runningType []) :: rest, _⟩ = _
      rw [settle_done (resume_notify h1 g runningType)]
  | closed =>
      refine ⟨h, ?_, v, w, rfl, hl, hp⟩
      rw [settle_done (hl.stop_idle (hp.idle_of_phase (by simp)))]
  | idle =>
      refine ⟨h, ?_, v, w, rfl, hl, hp⟩
      rw [settle_done (hl.stop_idle (hp.idle_of_phase (by simp)))]

omit [DecidableEq K] in
theorem after_reset (b : Bare) (raised : Bool) :
    b.after .reset raised = (b.after .stop raised).after .run raised := by
  rcases b with ⟨phase, stalled, spin⟩
  cases phase <;> rfl

omit [DecidableEq K] in
theorem Lone.beginFrame (hl : Lone h g v w) :
    exists h', Host.beginFrame v.window h =
        (h', .push [.frame v.window w.queue.handles 0])
      ∧ Lone h' g v { w with queue := w.queue.beginFrame } := by
  have hbegun := hl.onWindow fun w => { w with queue := w.queue.beginFrame }
  refine ⟨_, ?_, hbegun⟩
  simp only [Host.beginFrame, hbegun.window]
  rfl

theorem settle_tick (hl : Lone h g v w) (hp : Plays g scene b v w)
    (running : b.phase = .running) (fresh : b.stalled = false) :
    exists h' r', settle (component K Logic)
        ⟨h, [.work (.frame v.window w.queue.handles 0)], r⟩ = ⟨h', [], r'⟩
      ∧ Played g scene v.window h'
        ⟨.running, raised ⟨h', [], r'⟩, b.spin.update⟩ := by
  rcases hp.pending running fresh with ⟨n, hhandle, hpending⟩
  have hhandles : w.queue.handles = [n] := by
    unfold FrameQueue.handles
    rw [hpending]
    rfl
  rcases hl.tick hpending with ⟨h1, htick, hl1⟩
  rcases hl1.update hp.shows with ⟨h2, hupdate, hl2⟩
  rcases hl2.draw with ⟨h3, easel, hdraw, hl3⟩
  have hstalled := hp.stall running easel
  have hbegun : settle (component K Logic)
      ⟨h, [.work (.frame v.window w.queue.handles 0)], r⟩ =
        settle (component K Logic) ⟨h2, [.work (.draw g), .work (.rearm g),
          .work (.frame v.window [] 1)], .ok .nothing⟩ := by
    rw [hhandles, settle_push htick]
    show settle (component K Logic)
      ⟨h1, [.work (.notify g frameType []), .work (.update g),
        .work (.draw g), .work (.rearm g), .work (.frame v.window [] 1)], r⟩ = _
    rw [settle_done (resume_notify h1 g frameType), settle_done hupdate]
  rw [hbegun]
  -- A failure to draw drops the rest of the tick, and with it the request for
  -- the next one.
  rcases hdraw with hdrawn | ⟨e, hfailed⟩
  · rcases hl3.rearm rfl (hp.running_of_phase running) rfl with
      ⟨h4, hrearm, hl4⟩
    rcases hl4.frame_end v.window 1 with ⟨h5, hend, hl5⟩
    refine ⟨h5, .ok .nothing, ?_, _, _, ?_, hl5, hstalled.requestTick rfl rfl⟩
    · rw [settle_done hdrawn, settle_done hrearm, settle_done hend, settle_nil]
    · rfl
  · refine ⟨h3, .error e, ?_, _, _, ?_, hl3, hstalled⟩
    · rw [settle_fail hfailed]
      exact settle_nil
    · rfl

omit [DecidableEq K] in
theorem Lone.pressKey (hl : Lone h g v w) (e : KeyEvent) :
    Host.pressKey v.window e h = (h.addEvent e,
      .press v.window e h.prevented.size
        (w.registry.listeners e.motion.type)) := by
  unfold Host.pressKey listeners
  rw [hl.window]
  rfl

theorem settle_heard (a : Nat) (e : KeyEvent) (n : Nat) :
    settle (component K Logic) ⟨h, [.work (.press a e n [])], r⟩ =
      ⟨h, [], .ok (.flag (h.isPrevented n))⟩ := by
  have hdone :
      resume (.press a e n []) h = (h, .done (.flag (h.isPrevented n))) := rfl
  rw [settle_done hdone, settle_nil]

theorem settle_press (hl : Lone h g v w) (hp : Plays g scene b v w)
    (motion : KeyMotion) (key : String) (raised : Bool) :
    exists h', settle (component K Logic)
        ⟨(Host.pressKey v.window { motion := motion, key := key } h).1,
          [.work (Host.pressKey v.window { motion := motion, key := key } h).2],
          r⟩ =
          ⟨h', [],
           .ok (.flag
             (decide (b.phase = .running ∧ (ControlKey.ofName? key).isSome)))⟩
      ∧ Played g scene v.window h' (b.after (.press motion key) raised) := by
  rcases b with ⟨phase, stalled, spin⟩
  rw [hl.pressKey, hp.listeners]
  have hsent : Lone (h.addEvent { motion := motion, key := key }) g v w :=
    hl.of_fittings rfl
  have hfresh := isPrevented_addEvent h { motion := motion, key := key }
  have hsilent :
      settle (component K Logic) ⟨h.addEvent { motion := motion, key := key },
        [.work
         (.press v.window { motion := motion, key := key } h.prevented.size
           [])], r⟩ =
          ⟨h.addEvent { motion := motion, key := key }, [],
           .ok (.flag false)⟩ := by
    rw [settle_heard, hfresh]
  cases phase with
  | running =>
      have hkeys : keysOf (K := K) g motion.type = [.keys motion g] := by
        cases motion <;> rfl
      have hheard :
          Listener.keys motion g ∈ w.registry.listeners motion.type := by
        rw [hp.listeners, if_pos rfl, hkeys]
        exact List.mem_singleton_self _
      rcases hsent.press (e := { motion := motion, key := key })
        (n := h.prevented.size)
        hp.shows (by simp [addEvent]) hheard with ⟨h1, hpress, hl1, hprevented⟩
      refine ⟨h1, ?_, _, _, ?_, hl1, hp.key motion key⟩
      · rw [if_pos rfl]
        show settle (component K Logic)
          ⟨h.addEvent { motion := motion, key := key },
          [.work (.press v.window _ h.prevented.size (keysOf g motion.type))],
          r⟩ = _
        rw [hkeys, settle_push hpress]
        apply (settle_heard v.window _ _).trans
        rw [hprevented, hfresh, Spin.onKey_acts]
        cases (ControlKey.ofName? key).isSome <;> rfl
      · rfl
  | closed => exact ⟨_, hsilent, v, w, rfl, hsent, hp⟩
  | idle => exact ⟨_, hsilent, v, w, rfl, hsent, hp⟩

theorem settle_frame (hl : Lone h g v w) (hp : Plays g scene b v w) :
    exists h' r', settle (component K Logic)
        ⟨h, [.work (.frame v.window w.queue.handles 0)], r⟩ = ⟨h', [], r'⟩
      ∧ Played g scene v.window h' (b.after .frame (raised ⟨h', [], r'⟩)) := by
  rcases b with ⟨phase, stalled, spin⟩
  have hquiet : v.tickHandle = none ∧ w.queue.pending = [] ->
      exists h', settle (component K Logic)
          ⟨h, [.work (.frame v.window w.queue.handles 0)], r⟩ =
            ⟨h', [], .ok .nothing⟩
        ∧ Played g scene v.window h' ⟨phase, stalled, spin⟩ := by
    rintro ⟨_, hpending⟩
    have hhandles : w.queue.handles = [] := by
      unfold FrameQueue.handles
      rw [hpending]
      rfl
    rcases hl.frame_end v.window 0 with ⟨h1, hend, hl1⟩
    refine ⟨h1, ?_, v, w, rfl, hl1, hp⟩
    rw [hhandles, settle_done hend, settle_nil]
  cases phase with
  | running =>
      cases stalled with
      | false =>
          rcases settle_tick hl hp rfl rfl with ⟨h1, r1, hsettle, hplayed⟩
          refine ⟨h1, r1, hsettle, ?_⟩
          show Played g scene v.window h1
            ⟨.running, raised ⟨h1, [], r1⟩ || false, spin.update⟩
          rw [Bool.or_false]
          exact hplayed
      | true =>
          rcases hquiet (hp.spent (.inr rfl)) with ⟨h1, hsettle, hplayed⟩
          exact ⟨h1, _, hsettle, hplayed⟩
  | closed =>
      rcases hquiet (hp.spent (.inl (by simp))) with ⟨h1, hsettle, hplayed⟩
      exact ⟨h1, _, hsettle, hplayed⟩
  | idle =>
      rcases hquiet (hp.spent (.inl (by simp))) with ⟨h1, hsettle, hplayed⟩
      exact ⟨h1, _, hsettle, hplayed⟩

theorem played_close (hl : Lone h g v w) (hp : Plays g scene b v w)
    (raised : Bool) :
    Played g scene v.window ((closeViewer g).perform h).1
      (b.after .close raised) := by
  have hafter : b.after .close raised = ⟨.closed, b.stalled, b.spin⟩ := by
    rcases b with ⟨phase, stalled, spin⟩
    cases phase <;> rfl
  rw [hafter]
  rcases fittings_closeViewer g h with ⟨hsame, hclosed⟩ | hshut
  · have hphase : b.phase = .closed := by
      have hv := hclosed v hl.viewer
      rw [hp.closed] at hv
      exact of_decide_eq_true hv
    refine ⟨v, w, rfl, hl.of_fittings hsame, ?_⟩
    rw [← hphase]
    exact hp
  · rcases Viewer.shut_keeps g v w with ⟨_, _, hwindow, hregistry⟩
    have hl1 := hl.onLoop (f := fun v w => v.shut g w) hwindow hregistry
    exact ⟨_, _, hwindow, hl1.of_fittings hshut, hp.shut b.stalled⟩

/-!
# All commands
-/

structure Shows (g : Nat) (scene : CubeShow) (a : Nat) (m : HostMachine K Logic)
    (b : Bare) : Prop where
  settled : m.stack = []
  played : Played g scene a m.world b

theorem shows_serve {a : Nat} {m : HostMachine K Logic}
    (hm : Shows g scene a m b) (c : Command) :
    Shows g scene a (serve a g m c) (b.after c (raised (serve a g m c))) := by
  rcases m with ⟨h, stack, r⟩
  rcases hm with ⟨hstack, v, w, rfl, hl, hp⟩
  cases hstack
  cases c with
  | run =>
      rcases settle_run (r := r) hl hp
        (raised (serve v.window g ⟨h, [], r⟩ .run)) with
        ⟨h1, r1, hsettle, hplayed⟩
      have hserve : serve v.window g ⟨h, [], r⟩ .run = ⟨h1, [], r1⟩ := hsettle
      rw [hserve] at hplayed ⊢
      exact ⟨rfl, hplayed⟩
  | stop =>
      rcases settle_stop (r := r) hl hp
        (raised (serve v.window g ⟨h, [], r⟩ .stop)) [] with
        ⟨h1, hsettle, hplayed⟩
      have hserve :
          serve v.window g ⟨h, [], r⟩ .stop = ⟨h1, [], .ok .nothing⟩ :=
        hsettle.trans settle_nil
      rw [hserve] at hplayed ⊢
      exact ⟨rfl, hplayed⟩
  | reset =>
      rcases settle_stop (r := r) hl hp
        (raised (serve v.window g ⟨h, [], r⟩ .reset))
        [.work (.run g)] with ⟨h1, hstop, v1, w1, hwindow, hl1, hp1⟩
      rcases settle_run (r := .ok .nothing) hl1 hp1
        (raised (serve v.window g ⟨h, [], r⟩ .reset)) with
          ⟨h2, r2, hrun, hplayed⟩
      have hserve : serve v.window g ⟨h, [], r⟩ .reset = ⟨h2, [], r2⟩ :=
        hstop.trans hrun
      rw [← after_reset, hwindow, hserve] at hplayed
      rw [hserve]
      exact ⟨rfl, hplayed⟩
  | close =>
      have hplayed :=
        played_close hl hp (raised (serve v.window g ⟨h, [], r⟩ .close))
      have hserve : exists r1, serve v.window g ⟨h, [], r⟩ .close =
          ⟨((closeViewer g).perform h).1, [], r1⟩ := by
        unfold serve issue
        show exists r1, settle (component K Logic) (proceed [] ⟨h, [], r⟩
          (ofAct (closeViewer g) (fun _ => .nothing) h)) = _
        unfold ofAct
        rcases (closeViewer g).perform h with ⟨h1, e | u⟩
        · exact ⟨.error e, settle_nil⟩
        · exact ⟨.ok .nothing, settle_nil⟩
      rcases hserve with ⟨r1, hserve⟩
      rw [hserve] at hplayed ⊢
      exact ⟨rfl, hplayed⟩
  | press motion key =>
      rcases settle_press (r := r) hl hp motion key
        (raised (serve v.window g ⟨h, [], r⟩ (.press motion key))) with
          ⟨h1, hsettle, hplayed⟩
      have hserve :
          serve v.window g ⟨h, [], r⟩ (.press motion key) = ⟨h1, [], _⟩ :=
        hsettle
      rw [hserve] at hplayed ⊢
      exact ⟨rfl, hplayed⟩
  | frame =>
      rcases hl.beginFrame with ⟨h1, hbegin, hl1⟩
      rcases settle_frame (r := r) hl1 hp.beginFrame with
        ⟨h2, r2, hsettle, hplayed⟩
      have hserve : serve v.window g ⟨h, [], r⟩ .frame = ⟨h2, [], r2⟩ := by
        unfold serve issue
        show settle (component K Logic)
          (proceed [] ⟨h, [], r⟩ (Host.beginFrame v.window h)) = _
        rw [hbegin]
        exact hsettle
      rw [hserve]
      exact ⟨rfl, hplayed⟩

theorem shows_follow {a : Nat} {m : HostMachine K Logic}
    (hm : Shows g scene a m b) (cs : List Command) :
    Shows g scene a (follow a g (m, b) cs).1 (follow a g (m, b) cs).2 := by
  induction cs generalizing m b with
  | nil => exact hm
  | cons c cs ih => exact ih (shows_serve hm c)

theorem phase_follow (a g : Nat) (m : HostMachine K Logic) (b : Bare)
    (cs : List Command) :
    (follow a g (m, b) cs).2.phase = cs.foldl Phase.after b.phase := by
  induction cs generalizing m b with
  | nil => rfl
  | cons c cs ih => exact ih _ _

theorem result_press {a : Nat} {m : HostMachine K Logic}
    (hm : Shows g scene a m b) (motion : KeyMotion) (key : String) :
    (serve a g m (.press motion key)).result =
      .ok (.flag
        (decide (b.phase = .running ∧ (ControlKey.ofName? key).isSome))) := by
  rcases m with ⟨h, stack, r⟩
  rcases hm with ⟨hstack, v, w, rfl, hl, hp⟩
  cases hstack
  rcases settle_press (r := r) hl hp motion key false with ⟨h1, hsettle, _⟩
  have hserve : serve v.window g ⟨h, [], r⟩ (.press motion key) = ⟨h1, [], _⟩ :=
    hsettle
  rw [hserve]

end Serving

/-- A new viewer of a scene, alone on its window, shows at all times what its
bare spin comes to by a setup at every start, the keys pressed while it runs,
and an update for every frame while it runs, until a frame raises and up to the
next start.  It runs as starting, stopping and closing alone would have it, and
prevents the default of a key just when it runs and the key is a control key. -/
theorem viewer_refines_spin {h : Host K Logic} {r : Except Failure Value}
    {g : Nat} {v : Viewer K Logic} {w : Window K} {scene : CubeShow}
    (viewer : h.viewers[g]? = some v) (window : h.windows[v.window]? = some w)
    (new : v.loop = ⟨v.window, .idle, none, false, false⟩)
    (shows : v.logic = .cube scene)
    (unobserved : forall type, v.registry.listeners type = [])
    (unheard : forall type, w.registry.listeners type = [])
    (empty : w.queue.pending = []) (cs : List Command) :
    let (m, b) := follow v.window g (⟨h, [], r⟩, ⟨.idle, false, scene.spin⟩) cs
    m.stack = []
      ∧ b.phase = cs.foldl Phase.after .idle
      ∧ (exists u, m.world.viewers[g]? = some u
          ∧ u.logic = .cube { scene with spin := b.spin }
          ∧ (u.state = .running ↔ b.phase = .running))
      ∧ forall motion key, (serve v.window g m (.press motion key)).result =
          .ok (.flag
            (decide
              (b.phase = .running ∧ (ControlKey.ofName? key).isSome))) := by
  have hplays : Plays g scene ⟨.idle, false, scene.spin⟩ v w := by
    have hstate : v.state = .idle := congrArg Loop.state new
    have hhandle : v.tickHandle = none := congrArg Loop.tickHandle new
    have hsilent : v.isListening = false := congrArg Loop.isListening new
    have hopen : v.isClosed = false := congrArg Loop.isClosed new
    exact ⟨shows, hstate, hopen, hsilent,
      unheard, by simp, fun _ => ⟨hhandle, empty⟩⟩
  have hshows := shows_follow (m := ⟨h, [], r⟩)
    ⟨rfl, v, w, rfl, ⟨viewer, window, unobserved⟩, hplays⟩ cs
  have hphase :=
    phase_follow v.window g ⟨h, [], r⟩ ⟨.idle, false, scene.spin⟩ cs
  rcases hfollow :
    follow v.window g (⟨h, [], r⟩, ⟨.idle, false, scene.spin⟩) cs with ⟨m, b⟩
  rw [hfollow] at hshows hphase
  rcases hshows.played with ⟨u, w', _, hl, hp⟩
  refine ⟨hshows.settled, hphase, ⟨u, hl.viewer, hp.shows, ?_⟩,
    result_press hshows⟩
  rw [hp.state]
  by_cases hrunning : b.phase = .running
  · simp [hrunning]
  · simp [hrunning]

/-- One frame with the right arrow held turns the cube by one step about the
first axis. -/
theorem held_arrow_turns_viewer :
    let scene : CubeShow := .start .cube Settings.rotationStep
    let commands : List Command :=
      [.run, .press .down "ArrowRight", .frame, .press .up "ArrowRight", .stop]
    let m :=
      (follow 0 0
        ((⟨oneViewer (.cube scene), [], .ok .nothing⟩ : HostMachine String
          Logic),
        ⟨.idle, false, scene.spin⟩) commands).1
    m.stack = [] ∧ exists u, m.world.viewers[0]? = some u
      ∧ u.logic = .cube { scene with spin :=
          ⟨Settings.rotationStep, ⟨0 + Settings.rotationStep * 1, 0, 0⟩,
           {}⟩ } := by
  intro scene commands m
  have hrefines :=
    viewer_refines_spin (h := oneViewer (.cube scene)) (r := .ok .nothing)
      (g := 0)
      rfl rfl rfl rfl (fun _ => rfl) (fun _ => rfl) rfl commands
  rcases hrefines with ⟨hstack, _, ⟨u, hviewer, hlogic, _⟩, _⟩
  exact ⟨hstack, u, hviewer, hlogic⟩

/-- Commands that are served within a bound on the work of each. -/
theorem foldl_serve {a g k : Nat} {m n : HostMachine K Logic}
    {cs : List Command}
    (h : cs.foldlM
      (fun m c =>
        settleWithin (component K Logic) k
          (m.issue (component K Logic) (c.op a g))) m = some n) :
    cs.foldl (serve a g) m = n := by
  induction cs generalizing m with
  | nil => exact Option.some.inj h
  | cons c cs ih =>
      rw [List.foldlM_cons] at h
      rcases Option.bind_eq_some_iff.mp h with ⟨m', hserve, hrest⟩
      rw [List.foldl_cons]
      unfold serve
      rw [settle_of_settleWithin hserve]
      exact ih hrest

def pitch (m : HostMachine K Logic) : Option (LoopState × Float) := do
  let u ← m.world.viewers[0]?
  let s ← u.logic.spin?
  some (u.state, s.rotation.ry)

/-- Two updates by a very large step end in a frame that raises, and the last
frame does not update the spin although the loop runs: the angle about the
second axis stays zero. -/
theorem raised_frame_stalls_viewer :
    let scene : CubeShow := .start ⟨[], []⟩ 1e308
    let commands : List Command :=
      [.run, .press .down "ArrowRight", .frame, .frame, .press .up "ArrowRight",
        .press .down "ArrowUp", .frame]
    let m := commands.foldl (serve 0 0)
      (⟨oneViewer (.cube scene), [], .ok .nothing⟩ : HostMachine String Logic)
    let b :=
      commands.foldl (fun b c => b.after c false)
        (⟨.idle, false, scene.spin⟩ : Bare)
    b.phase = .running ∧ pitch m = some (.running, 0)
      ∧ b.spin.rotation.ry ≠ 0 := by
  intro scene commands m b
  have hserved :
      (commands.foldlM (fun m c => settleWithin (component String Logic) 8
        (m.issue (component String Logic) (c.op 0 0)))
          ⟨oneViewer (.cube scene), [], .ok .nothing⟩).map pitch =
            some (some (.running, 0)) := by
    decide +kernel
  rcases Option.map_eq_some_iff.mp hserved with ⟨n, hn, hpitch⟩
  have hm : m = n := foldl_serve hn
  refine ⟨rfl, ?_, by decide +kernel⟩
  rw [hm]
  exact hpitch

end Host
end WireView
