import WireView.Proofs.Host.Journal
import WireView.Proofs.Host.Queues

/-!
# Withdrawn ticks

Outside code may withdraw any handle, and with it the tick of a viewer.  The
loop is then out of step with its window: it waits for a tick that will never
come.

What a host holds in its queues is then part of what it would hold if nothing
had been withdrawn.  That whole host does the same work, and its loops are in
step, so nothing is pending or registered for a viewer but what a loop in step
would have.
-/

namespace WireView

open Reentrant Machine

variable {K L : Type}

/-- A window's queue is part of that of another window, which agrees with it
otherwise. -/
structure Rack.Within (r whole : Rack K) : Prop where
  registry : r.registry = whole.registry
  next : r.queue.nextHandle = whole.queue.nextHandle
  pending : forall e, e ∈ r.queue.pending -> e ∈ whole.queue.pending

namespace Rack.Within

variable {w w' : Window K}

theorem refl (r : Rack K) : r.Within r :=
  ⟨rfl, rfl, fun _ he => he⟩

theorem request (within : w.rack.Within w'.rack) (c : Callback K) :
    (⟨(w.queue.request c).1, w.registry⟩ : Rack K).Within
      ⟨(w'.queue.request c).1, w'.registry⟩ := by
  have hnext : w.queue.nextHandle = w'.queue.nextHandle := within.next
  constructor
  · exact within.registry
  · exact congrArg Nat.succ hnext
  · intro e he
    rcases List.mem_append.mp he with hold | hnew
    · exact List.mem_append_left _ (within.pending e hold)
    · rw [List.mem_singleton.mp hnew, hnext]
      exact List.mem_append_right _ List.mem_cons_self

theorem drop (within : w.rack.Within w'.rack) (n : Nat) :
    (⟨w.queue.drop n, w.registry⟩ : Rack K).Within
      ⟨w'.queue.drop n, w'.registry⟩ := by
  constructor
  · exact within.registry
  · exact within.next
  · intro e he
    rcases List.mem_filter.mp he with ⟨hmem, hne⟩
    exact List.mem_filter.mpr ⟨within.pending e hmem, hne⟩

theorem cancel (within : w.rack.Within w'.rack) (handle : Int) :
    (⟨w.queue.cancel handle, w.registry⟩ : Rack K).Within w'.rack := by
  unfold FrameQueue.cancel
  split
  · exact ⟨within.registry, within.next, fun e he =>
      within.pending e (List.mem_filter.mp he).1⟩
  · exact within

theorem dropTick (within : w.rack.Within w'.rack) (handle : Option Nat) :
    (w.dropTick handle).rack.Within (w'.dropTick handle).rack := by
  cases handle with
  | none => exact within
  | some n => exact within.drop n

theorem onRegistry (within : w.rack.Within w'.rack)
    (f : Registry (Listener K) -> Registry (Listener K)) :
    (⟨w.queue, f w.registry⟩ : Rack K).Within ⟨w'.queue, f w'.registry⟩ :=
  ⟨congrArg f within.registry, within.next, within.pending⟩

section Viewer

variable [DecidableEq K] {g : Nat} {v : Viewer K L}

theorem start (within : w.rack.Within w'.rack) :
    (v.start g w).1 = (v.start g w').1
      ∧ (v.start g w).2.rack.Within (v.start g w').2.rack := by
  have hnext : w.queue.nextHandle = w'.queue.nextHandle := within.next
  have hsubscribed : (w.subscribe g).rack.Within (w'.subscribe g).rack :=
    within.onRegistry fun r =>
      (r.add KeyMotion.down.type (.keys .down g)).add KeyMotion.up.type
        (.keys .up g)
  constructor
  · show
      ({ v with
          tickHandle := some w.queue.nextHandle, isListening := true,
          state := .running } : Viewer K L) = _
    rw [hnext]
    rfl
  · exact hsubscribed.request (.tick g)

theorem unsubscribe (within : w.rack.Within w'.rack) :
    (v.unsubscribe g w).1 = (v.unsubscribe g w').1
      ∧ (v.unsubscribe g w).2.rack.Within (v.unsubscribe g w').2.rack := by
  constructor
  · rfl
  · unfold Viewer.unsubscribe
    cases v.isListening with
    | false => exact within
    | true =>
        exact within.onRegistry fun r =>
          (r.remove KeyMotion.down.type (.keys .down g)).remove
            KeyMotion.up.type (.keys .up g)

theorem halt (within : w.rack.Within w'.rack) :
    (v.halt g w).1 = (v.halt g w').1
      ∧ (v.halt g w).2.rack.Within (v.halt g w').2.rack :=
  ⟨rfl, (unsubscribe within).2.dropTick v.tickHandle⟩

theorem shut (within : w.rack.Within w'.rack) :
    (v.shut g w).1 = (v.shut g w').1
      ∧ (v.shut g w).2.rack.Within (v.shut g w').2.rack := by
  cases hstate : v.state with
  | idle =>
      have hshut : forall u : Window K, v.shut g u =
          ({ (v.unsubscribe g u).1 with isClosed := true },
            (v.unsubscribe g u).2) := by
        intro u
        simp [Viewer.shut, hstate]
      rw [hshut, hshut]
      exact ⟨rfl, (unsubscribe within).2⟩
  | running =>
      rw [Viewer.shut_running hstate, Viewer.shut_running hstate]
      exact ⟨rfl, (halt within).2⟩

omit [DecidableEq K] in
theorem requestTick (within : w.rack.Within w'.rack) :
    (v.requestTick g w).1 = (v.requestTick g w').1
      ∧ (v.requestTick g w).2.rack.Within (v.requestTick g w').2.rack := by
  have hnext : w.queue.nextHandle = w'.queue.nextHandle := within.next
  constructor
  · show ({ v with tickHandle := some w.queue.nextHandle } : Viewer K L) = _
    rw [hnext]
    rfl
  · exact within.request (.tick g)

end Viewer

end Rack.Within

namespace Host

/-- The queues of a host are parts of those of another host, which agrees with
it in its viewers and in all else that its windows hold. -/
structure Within (h whole : Host K L) : Prop where
  viewers : h.viewers = whole.viewers
  size : h.windows.size = whole.windows.size
  windows : forall (a : Nat) (w : Window K), h.windows[a]? = some w ->
    exists w', whole.windows[a]? = some w' ∧ w.rack.Within w'.rack

namespace Within

variable {h h' whole : Host K L}

theorem refl (h : Host K L) : h.Within h :=
  ⟨rfl, rfl, fun _ w hw => ⟨w, hw, .refl w.rack⟩⟩

theorem of_fittings (within : h.Within whole)
    (change : h'.fittings = h.fittings) :
    h'.Within whole := by
  have hw : h'.windows = h.windows := congrArg Prod.fst change
  have hv : h'.viewers = h.viewers := congrArg Prod.snd change
  constructor
  · rw [hv, within.viewers]
  · rw [hw, within.size]
  · rw [hw]
    exact within.windows

theorem onViewer (within : h.Within whole) (g : Nat)
    (f : Viewer K L -> Viewer K L) :
    (h.onViewer g f).Within (whole.onViewer g f) :=
  ⟨congrArg (Array.modify · g f) within.viewers, within.size, within.windows⟩

theorem onWindow (within : h.Within whole) (a : Nat)
    {f f' : Window K -> Window K}
    (hf : forall (w w' : Window K),
      h.windows[a]? = some w -> whole.windows[a]? = some w' ->
        w.rack.Within w'.rack -> (f w).rack.Within (f' w').rack) :
    (h.onWindow a f).Within (whole.onWindow a f') := by
  constructor
  · exact within.viewers
  · show (h.windows.modify a f).size = (whole.windows.modify a f').size
    rw [Array.size_modify, Array.size_modify, within.size]
  · intro b w hb
    have hmodify : (h.windows.modify a f)[b]? = some w := hb
    rw [Array.getElem?_modify] at hmodify
    show exists w', (whole.windows.modify a f')[b]? = some w' ∧ _
    rw [Array.getElem?_modify]
    by_cases hab : a = b
    · subst hab
      rw [if_pos rfl] at hmodify ⊢
      rcases Option.map_eq_some_iff.mp hmodify with ⟨u, hu, rfl⟩
      rcases within.windows a u hu with ⟨u', hu', hwithin⟩
      rw [hu']
      exact ⟨_, rfl, hf u u' hu hu' hwithin⟩
    · rw [if_neg hab] at hmodify ⊢
      exact within.windows b w hmodify

theorem onLoop (within : h.Within whole) (g : Nat)
    {f : Viewer K L -> Window K -> Viewer K L × Window K}
    (hf : forall (v : Viewer K L) (w w' : Window K), w.rack.Within w'.rack ->
      (f v w).1 = (f v w').1 ∧ (f v w).2.rack.Within (f v w').2.rack) :
    (h.onLoop g f).Within (whole.onLoop g f) := by
  unfold Host.onLoop
  rw [← within.viewers]
  cases h.viewers[g]? with
  | none => exact within
  | some v =>
      dsimp only
      cases hw : h.windows[v.window]? with
      | none =>
          have hnone : whole.windows[v.window]? = none := by
            rw [Array.getElem?_eq_none_iff, ← within.size]
            exact Array.getElem?_eq_none_iff.mp hw
          rw [hnone]
          exact within
      | some w =>
          rcases within.windows _ w hw with ⟨w', hw', hrack⟩
          rw [hw']
          dsimp only
          rcases hf v w w' hrack with ⟨hviewer, hwindow⟩
          rw [hviewer]
          exact (within.onViewer g _).onWindow v.window fun _ _ _ _ _ => hwindow

theorem pushWindow (within : h.Within whole) {w : Window K}
    (change : h'.fittings = (h.windows.push w, h.viewers)) :
    h'.Within { whole with windows := whole.windows.push w } := by
  have hw : h'.windows = h.windows.push w := congrArg Prod.fst change
  have hv : h'.viewers = h.viewers := congrArg Prod.snd change
  constructor
  · rw [hv, within.viewers]
  · rw [hw, Array.size_push, Array.size_push, within.size]
  · intro a u hu
    rw [hw, Array.getElem?_push] at hu
    show exists u', (whole.windows.push w)[a]? = some u' ∧ _
    rw [Array.getElem?_push, ← within.size]
    split at hu
    · rename_i ha
      cases hu
      rw [if_pos ha]
      exact ⟨w, rfl, .refl w.rack⟩
    · rename_i ha
      rw [if_neg ha]
      exact within.windows a u hu

theorem pushViewer (within : h.Within whole) {v : Viewer K L}
    (change : h'.fittings = (h.windows, h.viewers.push v)) :
    h'.Within { whole with viewers := whole.viewers.push v } := by
  have hw : h'.windows = h.windows := congrArg Prod.fst change
  have hv : h'.viewers = h.viewers.push v := congrArg Prod.snd change
  constructor
  · rw [hv, within.viewers]
  · rw [hw, within.size]
  · rw [hw]
    exact within.windows

theorem onPart (within : h.Within whole) (a : Nat) {f : Window K -> Window K}
    (hf : forall w w' : Window K,
      w.rack.Within w'.rack -> (f w).rack.Within w'.rack) :
    (h.onWindow a f).Within whole := by
  have hwhole : whole.onWindow a id = whole := by
    unfold Host.onWindow
    rw [show whole.windows.modify a id = whole.windows from ?_]
    apply Array.ext_getElem?
    intro i
    rw [Array.getElem?_modify]
    split
    · exact Option.map_id_apply
    · rfl
  rw [← hwhole]
  exact within.onWindow a fun w w' _ _ hrack => hf w w' hrack

end Within

/-!
# The whole host does the same
-/

section Steps

variable [LoopLogic L] [DecidableEq K] {h h' whole : Host K L}

omit [LoopLogic L] in
theorem Within.take (within : h.Within whole) (hs : Coherent whole.loops)
    {a handle : Nat} {w : Window K} {c : Callback K}
    {q : FrameQueue (Callback K)} (present : h.windows[a]? = some w)
    (taken : w.queue.take handle = some (c, q)) :
    exists w', whole.windows[a]? = some w'
      ∧ w'.queue.take handle = some (c, w'.queue.drop handle)
      ∧ (h.onWindow a fun w => { w with queue := q }).Within
          (whole.onWindow a fun u =>
            { u with queue := w'.queue.drop handle }) := by
  rcases within.windows a w present with ⟨w', hw', hrack⟩
  rcases FrameQueue.mem_of_take taken with ⟨hpending, rfl⟩
  refine ⟨w', hw', ?_, ?_⟩
  · exact FrameQueue.take_of_mem (hs.queues a _ (loops_rack hw'))
      (hrack.pending _ hpending)
  · apply within.onWindow a
    intro u u' hu hu' hwithin
    cases present.symm.trans hu
    cases hw'.symm.trans hu'
    exact hwithin.drop handle

/-- The whole host works as its part does. -/
theorem Within.works (within : h.Within whole) (hs : Coherent whole.loops)
    {t : Task K} (hw : Works t h h') :
    exists whole', Works t whole whole' ∧ h'.Within whole' := by
  cases hw with
  | quiet change => exact ⟨whole, .quiet rfl, within.of_fittings change⟩
  | think present thought change =>
      rw [within.viewers] at present
      exact ⟨_, .think present thought rfl,
        (within.onViewer _ _).of_fittings change⟩
  | paint change =>
      exact ⟨_, .paint rfl, (within.onViewer _ _).of_fittings change⟩
  | start change =>
      refine ⟨_, .start rfl, Within.of_fittings (within.onLoop _ ?_) change⟩
      intro v w w' hrack
      exact hrack.start
  | stop present running change =>
      rw [within.viewers] at present
      refine ⟨_, .stop present running rfl,
        Within.of_fittings (within.onLoop _ ?_) change⟩
      intro v w w' hrack
      exact hrack.halt
  | take present taken change =>
      rcases within.take hs present taken with ⟨w', hw', htake, hwithin⟩
      exact ⟨_, .take hw' htake rfl, hwithin.of_fittings change⟩
  | tick present taken change =>
      rcases within.take hs present taken with ⟨w', hw', htake, hwithin⟩
      exact ⟨_, .tick hw' htake rfl, (hwithin.onViewer _ _).of_fittings change⟩
  | rearm present spent running change =>
      rw [within.viewers] at present
      refine ⟨_, .rearm present spent running rfl,
        Within.of_fittings (within.onLoop _ ?_) change⟩
      intro v w w' hrack
      exact hrack.requestTick

omit [LoopLogic L] in
theorem Within.operates (within : h.Within whole) (hs : Coherent whole.loops)
    {op : Op K L} (ho : Operates op h h') :
    exists whole', Coherent whole'.loops ∧ h'.Within whole' := by
  have hsame : forall {whole' : Host K L}, Operates op whole whole' ->
      (forall a handle, op ≠ .cancel a handle) -> h'.Within whole' ->
      exists whole', Coherent whole'.loops ∧ h'.Within whole' := by
    intro whole' ho' hcancel hwithin
    refine ⟨whole', coherent_operates ho' hs ?_, hwithin⟩
    intro a handle hop
    exact absurd hop (hcancel a handle)
  cases ho with
  | quiet change => exact ⟨whole, hs, within.of_fittings change⟩
  | furnish kept change =>
      refine ⟨whole, hs, Within.of_fittings (within.onPart _ ?_) change⟩
      intro w w' hrack
      rw [kept]
      exact hrack
  | opened queue registry change =>
      exact hsame (.opened queue registry rfl) nofun (within.pushWindow change)
  | created loop given present change =>
      rcases present with ⟨w, hw⟩
      rcases within.windows _ w hw with ⟨w', hw', _⟩
      exact hsame (.created loop given ⟨w', hw'⟩ rfl)
        nofun (within.pushViewer change)
  | closed change =>
      refine hsame (.closed rfl)
        nofun (Within.of_fittings (within.onLoop _ ?_) change)
      intro v w w' hrack
      exact hrack.shut
  | listen change =>
      refine hsame (.listen rfl)
        nofun (Within.of_fittings (within.onWindow _ ?_) change)
      intro w w' _ _ hrack
      exact hrack.onRegistry fun r => r.add _ _
  | unlisten change =>
      refine hsame (.unlisten rfl)
        nofun (Within.of_fittings (within.onWindow _ ?_) change)
      intro w w' _ _ hrack
      exact hrack.onRegistry fun r => r.remove _ _
  | observers edit change =>
      refine ⟨whole.onViewer _ _, coherent_onViewer hs _ ?_,
        (within.onViewer _ _).of_fittings change⟩
      intro v
      rfl
  | request present change =>
      rcases within.windows _ _ present with ⟨w', hw', hrack⟩
      refine hsame (.request hw' rfl)
        nofun (Within.of_fittings (within.onWindow _ ?_) change)
      intro u u' hu hu' hwithin
      cases present.symm.trans hu
      cases hw'.symm.trans hu'
      exact hwithin.request _
  | cancel change =>
      refine ⟨whole, hs, Within.of_fittings (within.onPart _ ?_) change⟩
      intro w w' hrack
      exact hrack.cancel _
  | frame change =>
      refine hsame (.frame rfl)
        nofun (Within.of_fittings (within.onWindow _ ?_) change)
      intro w w' _ _ hrack
      exact ⟨hrack.registry, hrack.next, hrack.pending⟩

end Steps

/-!
# The invariant
-/

section Steady

variable [LoopLogic L] [DecidableEq K]

/-- The host is part of one whose loops are in step, and what is about to start
may start. -/
structure Steady (h : Host K L) (stack : List (Level (Task K) (Callee K))) :
    Prop where
  poised : Poised h stack
  whole : exists whole, h.Within whole ∧ Coherent whole.loops

variable {h : Host K L} {rest : List (Level (Task K) (Callee K))}

omit [LoopLogic L] in
theorem Safe.steady {stack : List (Level (Task K) (Callee K))}
    (hs : Safe h stack) : Steady h stack :=
  ⟨hs.poised, h, .refl h, hs.coherent⟩

theorem steady_work {t : Task K} (hs : Steady h (.work t :: rest)) :
    Steady (resume t h).1 ((resume t h).2.over rest) := by
  refine ⟨poised_work hs.poised, ?_⟩
  rcases hs.whole with ⟨whole, hwithin, hcoherent⟩
  rcases hwithin.works hcoherent (works_resume t h) with
    ⟨whole', hworks, hwithin'⟩
  refine ⟨whole', hwithin', coherent_works hworks hcoherent ?_⟩
  rintro g rfl
  have hstartable := hs.poised.ready g rfl
  intro l hl
  apply hstartable
  unfold loops at hl ⊢
  rw [hwithin.viewers]
  exact hl

theorem steady_issue {op : Op K L} {stack : List (Level (Task K) (Callee K))}
    (hcontrol : HasControl stack) (hs : Steady h stack) :
    Steady (perform op h).1 ((perform op h).2.over stack) := by
  refine ⟨poised_issue hcontrol hs.poised, ?_⟩
  rcases hs.whole with ⟨whole, hwithin, hcoherent⟩
  rcases hwithin.operates hcoherent (operates_perform op h) with
    ⟨whole', hcoherent', hwithin'⟩
  exact ⟨whole', hwithin', hcoherent'⟩

variable {m n : HostMachine K L}
  {rule : HostMachine K L -> Move (Op K L) -> Prop}

theorem Steady.reaches (hs : Steady m.world m.stack)
    (run : Reaches (component K L) rule m n) :
    Steady n.world n.stack := by
  refine run.keeps (P := Steady) hs ?_ ?_ ?_ ?_
  · intro k t rest _ _ hk
    exact steady_work hk
  · intro k op hcontrol _ hk
    exact steady_issue hcontrol hk
  · intro w c rest hk
    exact ⟨poised_giveBack hk.poised, hk.whole⟩
  · intro k c rest e _ _ hk
    exact ⟨poised_throw hk.poised, hk.whole⟩

theorem Steady.move {move : Move (Op K L)} (hs : Steady m.world m.stack)
    (hmove : m.move? (component K L) move = some n) :
    Steady n.world n.stack := by
  have run : Reaches (component K L) anyMove m n :=
    Reaches.refl.step trivial hmove
  exact hs.reaches run

theorem steady_of_reaches (still : Still m.world) (unused : m.stack = [])
    (run : Reaches (component K L) rule m n) : Steady n.world n.stack :=
  (safe_of_reaches still unused .refl).steady.reaches run

namespace Steady

variable {stack : List (Level (Task K) (Callee K))} {g : Nat} {v : Viewer K L}

omit [LoopLogic L] in
theorem inStep (hs : Steady h stack) (hv : h.viewers[g]? = some v) :
    exists r : Rack K, InStep g v.loop r := by
  rcases hs.whole with ⟨whole, hwithin, hcoherent⟩
  rw [hwithin.viewers] at hv
  rcases hcoherent.inStep g v.loop (loops_loop hv) with ⟨r, _, hstep⟩
  exact ⟨r, hstep⟩

omit [LoopLogic L] in
theorem window (hs : Steady h stack) (hv : h.viewers[g]? = some v) :
    exists w, h.windows[v.window]? = some w := by
  rcases hs.whole with ⟨whole, hwithin, hcoherent⟩
  rw [hwithin.viewers] at hv
  rcases hcoherent.inStep g v.loop (loops_loop hv) with ⟨r, hr, _⟩
  rcases window_of_rack hr with ⟨w, hw, _⟩
  have hsize : v.window < h.windows.size := by
    rw [hwithin.size]
    exact (Array.getElem?_eq_some_iff.mp hw).1
  exact ⟨_, Array.getElem?_eq_getElem hsize⟩

omit [LoopLogic L] in
theorem idle_of_closed (hs : Steady h stack) (hv : h.viewers[g]? = some v)
    (closed : v.isClosed = true) : v.state = .idle := by
  rcases hs.inStep hv with ⟨r, hstep⟩
  exact hstep.closed closed

omit [LoopLogic L] in
theorem awake_of_pending (hs : Steady h stack) {a handle : Nat}
    (pending : (handle, .tick g) ∈ pendingIn a h) : Awake h g := by
  rcases hs.whole with ⟨whole, hwithin, hcoherent⟩
  rcases mem_pendingIn.mp pending with ⟨w, hw, hmem⟩
  rcases hwithin.windows a w hw with ⟨w', hw', hrack⟩
  unfold Awake
  rw [hwithin.viewers]
  exact awake_of_tick hcoherent hw' (hrack.pending _ hmem)

omit [LoopLogic L] in
theorem awake_of_listed (hs : Steady h stack) {a : Nat} {motion : KeyMotion}
    {type : String} (listed : .keys motion g ∈ h.listeners a type) :
    Awake h g := by
  rcases hs.whole with ⟨whole, hwithin, hcoherent⟩
  have hlisted : .keys motion g ∈ whole.listeners a type := by
    cases hw : h.windows[a]? with
    | none => simp [listeners, hw] at listed
    | some w =>
        rcases hwithin.windows a w hw with ⟨w', hw', hrack⟩
        have hregistry : w.registry = w'.registry := hrack.registry
        simpa [listeners, hw, hw', hregistry] using listed
  unfold Awake
  rw [hwithin.viewers]
  exact awake_of_keys hcoherent hlisted

omit [LoopLogic L] in
theorem heard_or_awake {h' : Host K L} {t : Task K} (hs : Steady h stack)
    (notes : Notes t h h') (g : Nat) : heard g h' = heard g h ∨ Awake h g := by
  cases notes with
  | silent same => exact .inl (same g)
  | tick present taken ticks keys =>
      rename_i i _ _ _
      by_cases hi : i = g
      · subst hi
        exact .inr (hs.awake_of_pending
          (mem_pendingIn.mpr ⟨_, present, (FrameQueue.mem_of_take taken).1⟩))
      · refine .inl (Prod.ext ?_ (keys g))
        rw [heard, ticks g, if_neg hi]
        rfl
  | key listed present ticks keys =>
      rename_i i _ _ _ _
      by_cases hi : i = g
      · subst hi
        exact .inr (hs.awake_of_listed listed)
      · refine .inl (Prod.ext (ticks g) ?_)
        rw [heard, keys g, if_neg hi]
        rfl

end Steady
end Steady
end Host
end WireView
