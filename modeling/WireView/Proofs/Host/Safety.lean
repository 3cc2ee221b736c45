import WireView.Logic.Logic
import WireView.Proofs.Host.InStep
import WireView.Proofs.Host.Shape
import WireView.Proofs.Host.Steps

/-!
# Render loops are safe

Whatever outside code does, calls or throws, at every moment of a run every loop
is in step with its window.  Outside code must only leave the ticks alone, which
belong to the viewers.

A loop is started in two pieces of work, the first of which sets its logic up.
Between them nobody has control, so the loop is still idle at the second one.
-/

namespace WireView
namespace Host

open Reentrant Machine

variable {K L : Type} [LoopLogic L] [DecidableEq K]

/-!
# Steps keep loops in step
-/

section Steps

variable {h h' : Host K L}

omit [LoopLogic L] in
theorem coherent_of_fittings (hs : Coherent h.loops)
    (change : h'.fittings = h.fittings) :
    Coherent h'.loops := by
  rw [loops_of_fittings change]
  exact hs

omit [LoopLogic L] [DecidableEq K] in
theorem window_of_rack {a : Nat} {r : Rack K} (hr : h.loops.rack a = some r) :
    exists w, h.windows[a]? = some w ∧ w.rack = r :=
  Option.map_eq_some_iff.mp hr

omit [LoopLogic L] [DecidableEq K] in
theorem viewer_of_loop {g : Nat} {l : Loop} (hl : h.loops.loop g = some l) :
    exists v, h.viewers[g]? = some v ∧ v.loop = l :=
  Option.map_eq_some_iff.mp hl

omit [LoopLogic L] in
theorem coherent_onViewer (hs : Coherent h.loops) (g : Nat)
    {f : Viewer K L -> Viewer K L} (hf : forall v, (f v).loop = v.loop) :
    Coherent (h.onViewer g f).loops := by
  rw [loops_onViewer_same hf]
  exact hs

omit [LoopLogic L] in
theorem coherent_onLoop (hs : Coherent h.loops) (g : Nat)
    {f : Viewer K L -> Window K -> Viewer K L × Window K}
    (hf : forall v w, h.viewers[g]? = some v -> InStep g v.loop w.rack ->
      w.queue.WellFormed ->
      StaysInStep g v.loop (f v w).1.loop w.rack (f v w).2.rack) :
    Coherent (h.onLoop g f).loops := by
  cases hv : h.viewers[g]? with
  | none =>
      have hsame : h.onLoop g f = h := by
        simp [onLoop, hv]
      rw [hsame]
      exact hs
  | some v =>
      rcases hs.inStep g v.loop (loops_loop hv) with ⟨r, hr, hstep⟩
      rcases window_of_rack hr with ⟨w, hw, hwr⟩
      subst hwr
      have hw' : h.windows[v.window]? = some w := hw
      rw [loops_onLoop hv hw']
      exact hs.setLoop (loops_loop hv) hr (hf v w hv hstep (hs.queues _ _ hr))

omit [LoopLogic L] in
theorem coherent_onWindow (hs : Coherent h.loops) (a : Nat)
    {f : Window K -> Window K}
    (hf : forall w,
      h.windows[a]? = some w -> w.queue.WellFormed ->
        (f w).queue.WellFormed ∧ forall g, SameShare g w.rack (f w).rack) :
    Coherent (h.onWindow a f).loops := by
  cases hw : h.windows[a]? with
  | none =>
      rw [onWindow_absent hw]
      exact hs
  | some w =>
      have hr := loops_rack hw
      rcases hf w hw (hs.queues a _ hr) with ⟨queue, others⟩
      rw [loops_onWindow hw]
      exact hs.setRack hr queue others

omit [LoopLogic L] in
theorem coherent_tick (hs : Coherent h.loops) {a handle g : Nat} {w : Window K}
    {q : FrameQueue (Callback K)} (present : h.windows[a]? = some w)
    (taken : w.queue.take handle = some (.tick g, q)) :
    Coherent ((h.onWindow a fun w => { w with queue := q }).onViewer g fun v =>
      { v with tickHandle := none }).loops := by
  rcases FrameQueue.mem_of_take taken with ⟨hpending, rfl⟩
  have hr := loops_rack present
  rcases hs.owner_of_tick hr hpending with ⟨l, hl, hwin, hown, hstep⟩
  rcases viewer_of_loop hl with ⟨v, hv, rfl⟩
  have hv' : (h.onWindow a fun w' =>
      { w' with queue := w.queue.drop handle }).viewers[g]? = some v := hv
  have hholds : Holds g w.rack (some handle) v.isListening := by
    have hh : Holds g w.rack v.tickHandle v.isListening := hstep.holds
    rw [show v.tickHandle = some handle from hown] at hh
    exact hh
  have hstays : StaysInStep g v.loop { v.loop with tickHandle := none } w.rack
      ⟨w.queue.drop handle, w.registry⟩ := by
    constructor
    · rfl
    · exact FrameQueue.wellFormed_drop (hs.queues _ _ hr) handle
    · refine ⟨w.holds_drop hholds, ?_, hstep.listening, hstep.closed⟩
      intro hsome
      cases hsome
    · intro i hi
      apply Window.sameShare_drop
      intro hother
      exact hi (Callback.tick.inj
        (FrameQueue.entry_unique (hs.queues _ _ hr) hother hpending))
  rw [loops_onViewer hv', loops_onWindow present]
  subst hwin
  exact hs.setLoop hl hr hstays

/-- A loop that may be started: it is idle and has not been closed. -/
def Startable (s : Loops K) (g : Nat) : Prop :=
  forall l, s.loop g = some l -> l.state = .idle ∧ l.isClosed = false

theorem coherent_works {t : Task K} (hw : Works t h h') (hs : Coherent h.loops)
    (starts : forall g, t = .start g -> Startable h.loops g) :
    Coherent h'.loops := by
  cases hw with
  | quiet change => exact coherent_of_fittings hs change
  | think present thought change =>
      refine coherent_of_fittings (coherent_onViewer hs _ ?_) change
      intro v
      rfl
  | paint change =>
      refine coherent_of_fittings (coherent_onViewer hs _ ?_) change
      intro v
      rfl
  | start change =>
      refine coherent_of_fittings (coherent_onLoop hs _ ?_) change
      intro v w hv hstep queue
      have hidle := starts _ rfl v.loop (loops_loop hv)
      exact hstep.start queue hidle.1 hidle.2
  | stop present running change =>
      refine coherent_of_fittings (coherent_onLoop hs _ ?_) change
      intro v w hv hstep queue
      exact hstep.halt queue
  | take present taken change =>
      rcases FrameQueue.mem_of_take taken with ⟨hpending, rfl⟩
      refine coherent_of_fittings (coherent_onWindow hs _ ?_) change
      intro w hw queue
      rw [present] at hw
      cases hw
      refine ⟨FrameQueue.wellFormed_drop queue _, ?_⟩
      intro g
      apply Window.sameShare_drop
      intro htick
      cases FrameQueue.entry_unique queue hpending htick
  | tick present taken change =>
      exact coherent_of_fittings (coherent_tick hs present taken) change
  | rearm present spent running change =>
      refine coherent_of_fittings (coherent_onLoop hs _ ?_) change
      intro v w hv hstep queue
      rw [present] at hv
      cases hv
      exact hstep.requestTick queue running spent

def Spares (h : Host K L) (a : Nat) (handle : Int) : Prop :=
  forall w, h.windows[a]? = some w ->
    forall n g, (n, Callback.tick g) ∈ w.queue.pending -> handle ≠ n

omit [LoopLogic L] in
theorem coherent_operates {op : Op K L} (ho : Operates op h h')
    (hs : Coherent h.loops)
    (spares : forall a handle, op = .cancel a handle -> Spares h a handle) :
    Coherent h'.loops := by
  cases ho with
  | quiet change => exact coherent_of_fittings hs change
  | furnish kept change =>
      refine coherent_of_fittings (h := h.onWindow _ _) ?_ change
      rw [loops_onWindow_same kept]
      exact hs
  | opened queue registry change =>
      rw [loops_pushWindow change]
      unfold Window.rack
      rw [queue, registry]
      apply hs.newRack
      simp [loops]
  | created loop given present change =>
      rename_i v
      rcases present with ⟨w, hw⟩
      rw [loops_pushViewer change, loop]
      refine hs.newLoop ?_ ⟨w.rack, loops_rack hw⟩ rfl rfl rfl
      simp [loops]
  | closed change =>
      refine coherent_of_fittings (coherent_onLoop hs _ ?_) change
      intro v w hv hstep queue
      exact hstep.shut queue
  | listen change =>
      refine coherent_of_fittings (coherent_onWindow hs _ ?_) change
      intro w hw queue
      refine ⟨queue, fun g => ⟨rfl, ?_⟩⟩
      intro motion type
      show ((w.registry.add _ _).listeners type).count (.keys motion g) = _
      rw [Registry.count_add, if_neg (by simp)]
      rfl
  | unlisten change =>
      refine coherent_of_fittings (coherent_onWindow hs _ ?_) change
      intro w hw queue
      refine ⟨queue, fun g => ⟨rfl, ?_⟩⟩
      intro motion type
      show ((w.registry.remove _ _).listeners type).count (.keys motion g) = _
      rw [Registry.count_remove, if_neg (by simp)]
      rfl
  | observers edit change =>
      refine coherent_of_fittings (coherent_onViewer hs _ ?_) change
      intro v
      rfl
  | request present change =>
      refine coherent_of_fittings (coherent_onWindow hs _ ?_) change
      intro w hw queue
      rw [present] at hw
      cases hw
      refine ⟨FrameQueue.wellFormed_request queue _, ?_⟩
      intro g
      exact Window.sameShare_request _ (by simp)
  | cancel change =>
      refine coherent_of_fittings (coherent_onWindow hs _ ?_) change
      intro w hw queue
      refine ⟨FrameQueue.wellFormed_cancel queue _, ?_⟩
      intro g
      unfold FrameQueue.cancel
      split
      · rename_i hnat
        apply Window.sameShare_drop
        intro htick
        exact spares _ _ rfl w hw _ g htick (Int.toNat_of_nonneg hnat).symm
      · exact ⟨rfl, fun _ _ => rfl⟩
  | frame change =>
      refine coherent_of_fittings (coherent_onWindow hs _ ?_) change
      intro w hw queue
      exact ⟨FrameQueue.wellFormed_beginFrame queue,
        fun g => ⟨rfl, fun _ _ => rfl⟩⟩

theorem loops_of_works {t : Task K} (hw : Works t h h')
    (ht : (exists g, t = .run g) ∨ exists g, t = .setUp g) :
    h'.loops = h.loops := by
  cases hw with
  | quiet change => exact loops_of_fittings change
  | think present thought change =>
      rename_i g v l
      rw [loops_of_fittings change]
      exact loops_onViewer_same (f := fun v => { v with logic := l })
        (fun _ => rfl) h g
  | paint change => simp at ht
  | start change => simp at ht
  | stop present running change => simp at ht
  | take present taken change => simp at ht
  | tick present taken change => simp at ht
  | rearm present spent running change => simp at ht

end Steps

/-!
# The invariant
-/

structure Poised (h : Host K L) (stack : List (Level (Task K) (Callee K))) :
    Prop where
  shaped : Shaped stack
  ready : forall g, starting (segment stack) = some g -> Startable h.loops g

/-- Loops are in step, the stack is shaped, and what is about to start may
start. -/
structure Safe (h : Host K L) (stack : List (Level (Task K) (Callee K))) :
    Prop where
  coherent : Coherent h.loops
  shaped : Shaped stack
  ready : forall g, starting (segment stack) = some g -> Startable h.loops g

variable {h : Host K L} {rest : List (Level (Task K) (Callee K))}

omit [LoopLogic L] in
theorem Safe.poised {stack : List (Level (Task K) (Callee K))}
    (hs : Safe h stack) : Poised h stack :=
  ⟨hs.shaped, hs.ready⟩

omit [LoopLogic L] in
theorem Poised.safe {stack : List (Level (Task K) (Callee K))}
    (hp : Poised h stack) (coherent : Coherent h.loops) : Safe h stack :=
  ⟨coherent, hp.shaped, hp.ready⟩

theorem ready_run {g i : Nat} (hbelow : segment rest = [])
    (hi : starting (segment ((resume (.run g) h).2.over rest)) = some i) :
    Startable h.loops i := by
  have hrest : starting (segment rest) = none :=
    starting_below (t := .run g) hbelow (by simp)
  simp only [resume, withViewer] at hi
  split at hi
  · rename_i v hv
    unfold run at hi
    split at hi
    · exact absurd (hrest.symm.trans hi) (by simp)
    · split at hi
      · exact absurd ((starting_unwind rest).symm.trans hi) (by simp)
      · rename_i hstate hclosed
        cases hi
        intro l hl
        rw [loops_loop hv] at hl
        cases hl
        constructor
        · exact LoopState.idle_of_ne hstate
        · exact Bool.eq_false_iff.mpr hclosed
  · exact absurd (hrest.symm.trans hi) (by simp)

theorem poised_work {t : Task K} (hp : Poised h (.work t :: rest)) :
    Poised (resume t h).1 ((resume t h).2.over rest) := by
  have hworks := works_resume t h
  constructor
  · exact shaped_resume t h hp.shaped
  · intro i hi
    -- Only a run puts a setup on top, and only a setup uncovers a start.
    by_cases hrun : exists g, t = .run g
    · rw [loops_of_works hworks (.inl hrun)]
      rcases hrun with ⟨g, rfl⟩
      exact ready_run hp.shaped.1 hi
    · by_cases hset : exists g, t = .setUp g
      · rw [loops_of_works hworks (.inr hset)]
        rcases hset with ⟨g, rfl⟩
        rw [starting_setUp hp.shaped.1 hi]
        exact hp.ready g rfl
      · have hnone := starting_resume h hp.shaped.1 (fun g hg => hrun ⟨g, hg⟩)
          (fun g hg => hset ⟨g, hg⟩)
        rw [hnone] at hi
        cases hi

theorem poised_issue {op : Op K L} {stack : List (Level (Task K) (Callee K))}
    (hcontrol : HasControl stack) (hp : Poised h stack) :
    Poised (perform op h).1 ((perform op h).2.over stack) := by
  have hset := outset_perform op h
  constructor
  · exact shaped_outset hset hcontrol hp.shaped
  · intro i hi
    rw [starting_outset hset hcontrol] at hi
    cases hi

omit [LoopLogic L] [DecidableEq K] in
theorem poised_giveBack {c : Callee K} (hp : Poised h (.outside c :: rest)) :
    Poised h rest := by
  constructor
  · exact hp.shaped.2
  · intro i hi
    rcases hp.shaped.1 with ⟨t, ts, hsegment, hawaits⟩
    rw [hsegment, starting_awaits hawaits] at hi
    cases hi

omit [LoopLogic L] [DecidableEq K] in
theorem poised_throw {c : Callee K} (hp : Poised h (.outside c :: rest)) :
    Poised h (unwind rest) := by
  constructor
  · exact shaped_unwind hp.shaped.2
  · intro i hi
    rw [starting_unwind] at hi
    cases hi

theorem safe_work {t : Task K} (hs : Safe h (.work t :: rest)) :
    Safe (resume t h).1 ((resume t h).2.over rest) := by
  apply (poised_work hs.poised).safe
  apply coherent_works (works_resume t h) hs.coherent
  intro g ht
  subst ht
  exact hs.ready g rfl

theorem safe_issue {op : Op K L} {stack : List (Level (Task K) (Callee K))}
    (hcontrol : HasControl stack) (hs : Safe h stack)
    (spares : forall a handle, op = .cancel a handle -> Spares h a handle) :
    Safe (perform op h).1 ((perform op h).2.over stack) :=
  (poised_issue hcontrol hs.poised).safe
    (coherent_operates (operates_perform op h) hs.coherent spares)

omit [LoopLogic L] in
theorem safe_giveBack {c : Callee K} (hs : Safe h (.outside c :: rest)) :
    Safe h rest :=
  (poised_giveBack hs.poised).safe hs.coherent

omit [LoopLogic L] in
theorem safe_throw {c : Callee K} (hs : Safe h (.outside c :: rest)) :
    Safe h (unwind rest) :=
  (poised_throw hs.poised).safe hs.coherent

/-!
# Runs
-/

abbrev HostMachine (K L : Type) : Type :=
  Machine (Host K L) (Task K) (Callee K) Value

/-- Outside code does not withdraw the ticks of viewers. -/
def SparesTicks (m : HostMachine K L) (move : Move (Op K L)) : Prop :=
  forall a handle, move = .issue (.cancel a handle) -> Spares m.world a handle

/-- No loop runs, and no window has a tick or the keys of one. -/
structure Still (h : Host K L) : Prop where
  loops : forall (g : Nat) (v : Viewer K L), h.viewers[g]? = some v ->
    (exists w, h.windows[v.window]? = some w)
    ∧ v.state = .idle ∧ v.tickHandle = none ∧ v.isListening = false
  windows : forall (a : Nat) (w : Window K),
    h.windows[a]? = some w -> w.queue.WellFormed
    ∧ (forall n g, (n, Callback.tick g) ∉ w.queue.pending)
    ∧ forall type motion g, Listener.keys motion g ∉ w.registry.listeners type

omit [LoopLogic L] in
theorem Still.coherent {h : Host K L} (hs : Still h) : Coherent h.loops := by
  have hnone : forall g a r,
      h.loops.rack a = some r -> Holds g r none false := by
    intro g a r hr
    rcases window_of_rack hr with ⟨w, hw, rfl⟩
    rcases hs.windows a w hw with ⟨_, hticks, hkeys⟩
    constructor
    · apply List.eq_nil_iff_forall_not_mem.mpr
      intro n hn
      exact hticks n g (FrameQueue.mem_handlesOf.mp hn)
    · intro motion type
      exact List.count_eq_zero.mpr (hkeys type motion g)
  constructor
  · intro a r hr
    rcases window_of_rack hr with ⟨w, hw, rfl⟩
    exact (hs.windows a w hw).1
  · intro g l hl
    rcases viewer_of_loop hl with ⟨v, hv, rfl⟩
    rcases hs.loops g v hv with ⟨⟨w, hw⟩, hidle, hspent, hsilent⟩
    refine ⟨w.rack, loops_rack hw, ?_, ?_, ?_, fun _ => hidle⟩
    · show Holds g w.rack v.tickHandle v.isListening
      rw [hspent, hsilent]
      exact hnone g _ _ (loops_rack hw)
    · intro hsome
      have hh : v.tickHandle.isSome := hsome
      rw [hspent] at hh
      cases hh
    · show v.isListening = decide (v.state = .running)
      rw [hsilent, hidle]
      rfl
  · intro g a r hr _
    exact hnone g a r hr

variable {m n : HostMachine K L}

theorem safe_of_reaches (still : Still m.world) (unused : m.stack = [])
    (run : Reaches (component K L) SparesTicks m n) : Safe n.world n.stack := by
  refine run.keeps (P := Safe) ?_ ?_ ?_ ?_ ?_
  · rw [unused]
    exact ⟨still.coherent, trivial, by simp [Reentrant.segment, starting]⟩
  · intro k t rest _ _ hs
    exact safe_work hs
  · intro k op hcontrol hspares hs
    exact safe_issue hcontrol hs fun a handle hop =>
      hspares a handle (hop ▸ rfl)
  · intro w c rest hs
    exact safe_giveBack hs
  · intro k c rest e _ _ hs
    exact safe_throw hs

/-- At every moment of a run, whatever outside code does and wherever it throws,
the pending ticks of a viewer are exactly the one whose handle it keeps, it
keeps one only while it runs, and each of its two key listeners is registered
once while it runs and not at all otherwise. -/
theorem loops_in_step (still : Still m.world) (unused : m.stack = [])
    (run : Reaches (component K L) SparesTicks m n) {g : Nat} {v : Viewer K L}
    (hv : n.world.viewers[g]? = some v) :
    exists w, n.world.windows[v.window]? = some w
      ∧ w.queue.handlesOf (.tick g) = v.tickHandle.toList
      ∧ (v.tickHandle.isSome -> v.state = .running)
      ∧ forall motion type, (w.registry.listeners type).count (.keys motion g) =
          if v.state = .running ∧ type = motion.type then 1 else 0 := by
  have hs := (safe_of_reaches still unused run).coherent
  rcases hs.inStep g v.loop (loops_loop hv) with ⟨r, hr, hstep⟩
  rcases window_of_rack hr with ⟨w, hw, rfl⟩
  refine ⟨w, hw, hstep.holds.ticks, hstep.ticking, ?_⟩
  intro motion type
  have hkeys : (w.registry.listeners type).count (.keys motion g) =
      if v.isListening = true ∧ type = motion.type then 1 else 0 :=
        hstep.holds.keys motion type
  rw [hstep.listening_eq] at hkeys
  simpa only [decide_eq_true_eq] using hkeys

def oneViewer (logic : Logic) : Host String Logic :=
  let easel : Easel :=
    ⟨8, 6, ⟨Easel.surfaceConfig 8 6, .translation 0 0 0, .translation 0 0 0⟩,
     false, [], []⟩
  { easel := easel
    windows := #[{ width := 8, height := 6, document := none, session := 0 }]
    viewers :=
      #[{ window := 0, canvas := 0, easel := easel, logic := logic,
          devMode := false }] }

theorem still_oneViewer (logic : Logic) : Still (oneViewer logic) := by
  constructor
  · intro g v hv
    cases g with
    | zero =>
        cases hv
        exact ⟨⟨_, rfl⟩, rfl, rfl, rfl⟩
    | succ g => simp [oneViewer] at hv
  · intro a w hw
    cases a with
    | zero =>
        cases hw
        exact ⟨FrameQueue.wellFormed_empty, fun _ _ => List.not_mem_nil,
          fun _ _ _ => List.not_mem_nil⟩
    | succ a => simp [oneViewer] at hw

def sparing (_ : HostMachine K L) : Move (Op K L) -> Bool
  | .issue (.cancel _ _) => false
  | _ => true

omit [LoopLogic L] [DecidableEq K] in
theorem sparesTicks_of_sparing (k : HostMachine K L) (move : Move (Op K L))
    (h : sparing k move = true) : SparesTicks k move := by
  intro a handle hmove
  subst hmove
  cases h

/-- An observer of the first tick resets the loop and then throws: the second
tick is pending. -/
theorem reset_in_tick_in_step :
    exists (n : HostMachine String Logic) (v : Viewer String Logic),
      Reaches (component String Logic) SparesTicks
        ⟨oneViewer .standard, [], .ok .nothing⟩ n
        ∧ n.world.viewers[0]? = some v ∧ n.stack = [] ∧ v.state = .running
        ∧ v.tickHandle = some 2
        ∧ exists w, n.world.windows[v.window]? = some w
          ∧ w.queue.handlesOf (.tick 0) = [2] := by
  let moves : List (Move (Op String Logic)) :=
    [.issue (.observe 0 frameType "k"), .issue (.run 0), .work, .work, .work,
      .work, .issue (.frame 0), .work, .work, .issue (.reset 0), .work, .work,
      .work, .work, .work, .work, .throw .unsupported]
  have run : Reaches (component String Logic) SparesTicks
      ⟨oneViewer .standard, [], .ok .nothing⟩ _ :=
    reaches_of_foldlM sparesTicks_of_sparing
      (show moves.foldlM _ _ = _ from rfl)
  refine ⟨_, _, run, rfl, rfl, rfl, rfl, ?_⟩
  rcases loops_in_step (still_oneViewer _) rfl run (g := 0) rfl with
    ⟨w, hw, hticks, _⟩
  exact ⟨w, hw, hticks⟩

end Host
end WireView
