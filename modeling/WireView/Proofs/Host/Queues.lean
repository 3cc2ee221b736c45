import WireView.Proofs.Host.Safety
import WireView.Proofs.Reentrant.History

/-!
# What a step does to a queue

A callback leaves the queue of a window when a frame takes it, when it is
cancelled, or when it is the tick of a viewer that halts or shuts.  Nothing else
drops a callback, and what comes into a queue gets a new handle.
-/

namespace WireView

open Reentrant Machine

variable {K L : Type} [DecidableEq K]

/-!
# The queue of a viewer's window
-/

namespace Viewer

variable {goes : Nat × Callback K -> Prop} {g : Nat} {v : Viewer K L}
  {w : Window K}

theorem changes_start : w.queue.Changes goes (v.start g w).2.queue :=
  FrameQueue.changes_request (Callback.tick g)

omit [DecidableEq K] in
theorem changes_requestTick :
    w.queue.Changes goes (v.requestTick g w).2.queue :=
  FrameQueue.changes_request (Callback.tick g)

theorem changes_halt (hstep : InStep g v.loop w.rack)
    (queue : w.queue.WellFormed) (tick : forall e, e.2 = .tick g -> goes e) :
    w.queue.Changes goes (v.halt g w).2.queue := by
  have hqueue : (v.halt g w).2.queue =
      ((v.unsubscribe g w).2.dropTick v.tickHandle).queue := rfl
  rw [hqueue]
  cases hhandle : v.tickHandle with
  | none =>
      show w.queue.Changes goes (v.unsubscribe g w).2.queue
      rw [InStep.queue_unsubscribe]
      exact FrameQueue.changes_same rfl rfl
  | some n =>
      have hticks : w.queue.handlesOf (.tick g) = v.tickHandle.toList :=
        hstep.holds.ticks
      have hown : (n, .tick g) ∈ w.queue.pending := by
        rw [← FrameQueue.mem_handlesOf, hticks, hhandle]
        exact List.mem_singleton_self n
      show w.queue.Changes goes ((v.unsubscribe g w).2.queue.drop n)
      rw [InStep.queue_unsubscribe]
      apply FrameQueue.changes_drop
      rintro ⟨k, c⟩ hmem rfl
      exact tick _ (FrameQueue.entry_unique queue hmem hown)

theorem changes_shut (hstep : InStep g v.loop w.rack)
    (queue : w.queue.WellFormed) (tick : forall e, e.2 = .tick g -> goes e) :
    w.queue.Changes goes (v.shut g w).2.queue := by
  cases hstate : v.state with
  | idle =>
      have hsilent : v.isListening = false := by
        rw [hstep.listening_eq, hstate]
        rfl
      rw [shut_idle hstate hsilent]
      exact FrameQueue.changes_same rfl rfl
  | running =>
      rw [shut_running hstate]
      exact changes_halt hstep queue tick

end Viewer

namespace Host

/-- A step drops nothing from the queue of a window but callbacks that may
go. -/
def Requeues (goes : Nat × Callback K -> Prop) (a : Nat) (h h' : Host K L) :
    Prop :=
  forall w, h.windows[a]? = some w ->
    exists w', h'.windows[a]? = some w' ∧ w.queue.Changes goes w'.queue

variable {goes : Nat × Callback K -> Prop} {a : Nat} {h h' h'' : Host K L}

omit [DecidableEq K] in
theorem requeues_refl : Requeues goes a h h :=
  fun w hw => ⟨w, hw, FrameQueue.changes_same rfl rfl⟩

omit [DecidableEq K] in
theorem Requeues.same (hr : Requeues goes a h h')
    (same : h''.fittings = h'.fittings) :
    Requeues goes a h h'' := by
  have hwindows : h''.windows = h'.windows := congrArg Prod.fst same
  intro w hw
  rw [hwindows]
  exact hr w hw

omit [DecidableEq K] in
theorem Requeues.onViewer (hr : Requeues goes a h h') (g : Nat)
    (f : Viewer K L -> Viewer K L) :
    Requeues goes a h (h'.onViewer g f) := hr

def LaterQueue (a : Nat) (h h' : Host K L) : Prop :=
  forall w, h.windows[a]? = some w -> exists w',
    h'.windows[a]? = some w' ∧ w.queue.Later w'.queue

omit [DecidableEq K] in
theorem LaterQueue.trans (first : LaterQueue a h h')
    (second : LaterQueue a h' h'') :
    LaterQueue a h h'' := by
  intro w hw
  rcases first w hw with ⟨w', hw', hlater⟩
  rcases second w' hw' with ⟨w'', hw'', hlater'⟩
  exact ⟨w'', hw'', hlater.trans hlater'⟩

omit [DecidableEq K] in
theorem Requeues.later (hr : Requeues goes a h h') : LaterQueue a h h' := by
  intro w hw
  rcases hr w hw with ⟨w', hw', hchanges⟩
  exact ⟨w', hw', hchanges.toLater⟩

omit [DecidableEq K] in
theorem requeues_onWindow {b : Nat} {f : Window K -> Window K}
    (hf : forall w,
      h.windows[b]? = some w -> b = a -> w.queue.Changes goes (f w).queue) :
    Requeues goes a h (h.onWindow b f) := by
  intro w hw
  show exists w', (h.windows.modify b f)[a]? = some w' ∧ _
  rw [Array.getElem?_modify]
  by_cases hb : b = a
  · subst hb
    rw [if_pos rfl, hw]
    exact ⟨f w, rfl, hf w hw rfl⟩
  · rw [if_neg hb]
    exact ⟨w, hw, FrameQueue.changes_same rfl rfl⟩

theorem requeues_onLoop (hs : Coherent h.loops) {g : Nat}
    {f : Viewer K L -> Window K -> Viewer K L × Window K}
    (hf : forall (v : Viewer K L) (w : Window K),
      InStep g v.loop w.rack -> w.queue.WellFormed ->
        w.queue.Changes goes (f v w).2.queue) :
    Requeues goes a h (h.onLoop g f) := by
  unfold onLoop
  split
  · exact requeues_refl
  · rename_i v hv
    split
    · exact requeues_refl
    · rename_i w hw
      rcases hs.inStep g v.loop (loops_loop hv) with ⟨r, hr, hstep⟩
      cases (loops_rack hw).symm.trans hr
      apply requeues_onWindow (h := h.onViewer g fun _ => (f v w).1)
      intro w' hw' _
      cases hw.symm.trans hw'
      exact hf v w hstep (hs.queues _ _ hr)

/-!
# Pending callbacks
-/

def pendingIn (a : Nat) (h : Host K L) : List (Nat × Callback K) :=
  ((h.windows[a]?).map fun w => w.queue.pending).getD []

omit [DecidableEq K] in
theorem mem_pendingIn {e : Nat × Callback K} :
    e ∈ pendingIn a h ↔ exists w,
      h.windows[a]? = some w ∧ e ∈ w.queue.pending := by
  unfold pendingIn
  cases h.windows[a]? with
  | none => simp
  | some w => simp

theorem tick_unique (hs : Coherent h.loops) {g n n' : Nat}
    (hn : (n, .tick g) ∈ pendingIn a h) (hn' : (n', .tick g) ∈ pendingIn a h) :
    n = n' := by
  rcases mem_pendingIn.mp hn with ⟨w, hw, hmem⟩
  rcases mem_pendingIn.mp hn' with ⟨w', hw', hmem'⟩
  cases hw.symm.trans hw'
  rcases hs.owner_of_tick (loops_rack hw) hmem with ⟨l, hl, _, hhandle, _⟩
  rcases hs.owner_of_tick (loops_rack hw) hmem' with ⟨l', hl', _, hhandle', _⟩
  cases hl.symm.trans hl'
  exact Option.some.inj (hhandle.symm.trans hhandle')

theorem nodup_pendingIn (hs : Coherent h.loops) :
    ((pendingIn a h).map Prod.fst).Nodup := by
  unfold pendingIn
  cases hw : h.windows[a]? with
  | none => exact List.nodup_nil
  | some w => exact (hs.queues a _ (loops_rack hw)).increasing.imp Nat.ne_of_lt

theorem LaterQueue.old (hs : Coherent h.loops) (later : LaterQueue a h h')
    {n : Nat} {c : Callback K} (hnow : (n, c) ∈ pendingIn a h')
    (hbefore : n ∈ (pendingIn a h).map Prod.fst) : (n, c) ∈ pendingIn a h := by
  rcases List.mem_map.mp hbefore with ⟨e, he, rfl⟩
  rcases mem_pendingIn.mp he with ⟨w, hw, hmem⟩
  rcases later w hw with ⟨w', hw', hlater⟩
  rcases mem_pendingIn.mp hnow with ⟨w'', hw'', hnow⟩
  cases hw'.symm.trans hw''
  refine mem_pendingIn.mpr
    ⟨w, hw, hlater.old (hs.queues a _ (loops_rack hw)) hnow ?_⟩
  exact List.mem_map_of_mem hmem

omit [DecidableEq K] in
theorem Requeues.kept (hr : Requeues goes a h h') {e : Nat × Callback K}
    (pending : e ∈ pendingIn a h) : goes e ∨ e ∈ pendingIn a h' := by
  rcases mem_pendingIn.mp pending with ⟨w, hw, hmem⟩
  rcases hr w hw with ⟨w', hw', hchanges⟩
  exact (hchanges.kept e hmem).imp_right fun hnow =>
    mem_pendingIn.mpr ⟨w', hw', hnow⟩

/-!
# Pieces of work and operations
-/

variable [LoopLogic L]

/-- The callbacks that a piece of work may drop from the queue of a window. -/
inductive Drops : Task K -> Nat -> Nat × Callback K -> Prop where
  | turn {a handle ran : Nat} {todo : List Nat} {c : Callback K} :
      Drops (.frame a (handle :: todo) ran) a (handle, c)
  | halt {a g handle : Nat} : Drops (.stop g) a (handle, .tick g)

omit [LoopLogic L] [DecidableEq K] in
theorem requeues_take {b handle ran : Nat} {todo : List Nat} {w : Window K}
    {c : Callback K} {q : FrameQueue (Callback K)}
    (present : h.windows[b]? = some w)
    (taken : w.queue.take handle = some (c, q)) :
    Requeues (Drops (.frame b (handle :: todo) ran) a) a h
      (h.onWindow b fun w => { w with queue := q }) := by
  apply requeues_onWindow
  intro w' hw' hb
  cases present.symm.trans hw'
  rw [(FrameQueue.mem_of_take taken).2]
  subst hb
  apply FrameQueue.changes_drop
  rintro ⟨k, c⟩ _ rfl
  exact .turn

theorem requeues_works {t : Task K} (hw : Works t h h') (hs : Coherent h.loops)
    (a : Nat) :
    Requeues (Drops t a) a h h' := by
  cases hw with
  | quiet change => exact requeues_refl.same change
  | think present thought change =>
      exact (requeues_refl.onViewer _ _).same change
  | paint change => exact (requeues_refl.onViewer _ _).same change
  | start change =>
      exact (requeues_onLoop hs fun v w _ _ => Viewer.changes_start).same change
  | stop present running change =>
      refine (requeues_onLoop hs fun v w hstep queue => ?_).same change
      refine Viewer.changes_halt hstep queue ?_
      rintro ⟨handle, c⟩ rfl
      exact .halt
  | take present taken change =>
      exact (requeues_take present taken).same change
  | tick present taken change =>
      exact ((requeues_take present taken).onViewer _ _).same change
  | rearm present spent running change =>
      exact (requeues_onLoop hs fun v w _ _ => Viewer.changes_requestTick).same
        change

inductive Withdraws : Op K L -> Nat -> Nat × Callback K -> Prop where
  | cancel {a handle : Nat} {c : Callback K} :
      Withdraws (.cancel a handle) a (handle, c)
  | close {a g handle : Nat} : Withdraws (.close g) a (handle, .tick g)

omit [LoopLogic L] in
theorem requeues_operates {op : Op K L} (ho : Operates op h h')
    (hs : Coherent h.loops) (a : Nat) :
    Requeues (Withdraws op a) a h h' := by
  cases ho with
  | quiet change => exact requeues_refl.same change
  | furnish kept change =>
      refine (requeues_onWindow fun w _ _ => ?_).same change
      have hqueue : (_ : Window K).queue = w.queue :=
        congrArg Rack.queue (kept w)
      rw [hqueue]
      exact FrameQueue.changes_same rfl rfl
  | opened queue registry change =>
      have hwindows : h'.windows = h.windows.push _ := congrArg Prod.fst change
      intro w hw
      refine ⟨w, ?_, FrameQueue.changes_same rfl rfl⟩
      rcases Array.getElem?_eq_some_iff.mp hw with ⟨hsize, _⟩
      rw [hwindows, Array.getElem?_push, if_neg (Nat.ne_of_lt hsize), hw]
  | created loop given present change =>
      have hwindows : h'.windows = h.windows := congrArg Prod.fst change
      intro w hw
      exact ⟨w, hwindows ▸ hw, FrameQueue.changes_same rfl rfl⟩
  | closed change =>
      refine (requeues_onLoop hs fun v w hstep queue => ?_).same change
      refine Viewer.changes_shut hstep queue ?_
      rintro ⟨handle, c⟩ rfl
      exact .close
  | listen change =>
      refine (requeues_onWindow fun w _ _ => ?_).same change
      exact FrameQueue.changes_same rfl rfl
  | unlisten change =>
      refine (requeues_onWindow fun w _ _ => ?_).same change
      exact FrameQueue.changes_same rfl rfl
  | observers edit change => exact (requeues_refl.onViewer _ _).same change
  | request present change =>
      refine (requeues_onWindow fun w hw _ => ?_).same change
      cases present.symm.trans hw
      exact FrameQueue.changes_request _
  | cancel change =>
      refine (requeues_onWindow fun w hw hb => ?_).same change
      subst hb
      show w.queue.Changes _ (w.queue.cancel _)
      unfold FrameQueue.cancel
      split
      · rename_i hnat
        rcases Int.eq_ofNat_of_zero_le hnat with ⟨n, rfl⟩
        apply FrameQueue.changes_drop
        rintro ⟨k, c⟩ _ rfl
        exact .cancel
      · exact FrameQueue.changes_same rfl rfl
  | frame change =>
      refine (requeues_onWindow fun w _ _ => ?_).same change
      exact FrameQueue.changes_same rfl rfl

/-!
# Moves
-/

abbrev HostMoment (K L : Type) : Type :=
  Moment (Host K L) (Op K L) (Task K) (Callee K) Value

variable {m n : HostMachine K L} {move : Move (Op K L)}

def drops (t : HostMoment K L) (a : Nat) (e : Nat × Callback K) : Prop :=
  match t.move, t.machine.stack with
  | .work, .work task :: _ => Drops task a e
  | .issue op, _ => Withdraws op a e
  | _, _ => False

theorem requeues_move (hs : Safe m.world m.stack)
    (hmove : m.move? (component K L) move = some n) (a : Nat) :
    Requeues (drops ⟨m, move⟩ a) a m.world n.world := by
  cases move with
  | work =>
      rcases move?_work hmove with ⟨t, rest, hstack, rfl⟩
      have hdrops : drops ⟨m, .work⟩ a = Drops t a := by
        unfold drops
        rw [hstack]
      rw [hdrops, proceed_world]
      exact requeues_works (works_resume t m.world) hs.coherent a
  | issue op =>
      rcases move?_issue hmove with ⟨_, rfl⟩
      unfold Machine.issue
      rw [proceed_world]
      exact requeues_operates (operates_perform op m.world) hs.coherent a
  | giveBack =>
      rcases move?_giveBack hmove with ⟨c, rest, _, rfl⟩
      exact requeues_refl
  | throw e =>
      rcases move?_throw hmove with ⟨c, rest, _, rfl⟩
      exact requeues_refl

end Host
end WireView
