import WireView.Proofs.Host.Safety
import WireView.Proofs.Host.Views

/-!
# Ticks and keys in the journal

The journal tells which ticks of a viewer have begun and which key events have
reached its logic.  A tick is noted by the frame that takes it and a key by the
dispatch that comes to a viewer's listener; nothing else notes either.

A tick is taken from the queue and a key comes through a listener of the window,
and a window that is in step holds both only for viewers that run.
-/

namespace WireView
namespace Host

open Reentrant Machine

variable {K L : Type}

def ticksBegun (g : Nat) (h : Host K L) : List Nat :=
  h.journal.filterMap fun n => match n with
    | .tick i handle => if i = g then some handle else none
    | _ => none

def keysHeard (g : Nat) (h : Host K L) : List KeyEvent :=
  h.journal.filterMap fun n => match n with
    | .key i e => if i = g then some e else none
    | _ => none

def heard (g : Nat) (h : Host K L) : List Nat × List KeyEvent :=
  (ticksBegun g h, keysHeard g h)

theorem detached_heard (g : Nat) : Detached (heard g : Host K L -> _) where
  tree _ _ := rfl
  display _ _ := rfl
  caption _ _ := rfl
  remark _ _ := rfl
  windows _ _ := rfl
  viewers _ _ := rfl
  prevented _ _ := rfl
  current _ _ := rfl

theorem heard_onEasel (g i : Nat) (v : Viewer K L) (act : Act Easel Unit)
    (h : Host K L) :
    heard g (h.onEasel i v act).1 = heard g h := by
  have hnotes : forall (notes : List EaselNote) (journal : List Note),
      heard g { h with journal := notes.map EaselNote.toNote ++ journal } =
        heard g { h with journal := journal } := by
    intro notes journal
    induction notes with
    | nil => rfl
    | cons n notes ih =>
        cases n with
        | stroke s => exact ih
        | remark r => exact ih
  exact hnotes (act.perform v.easel).1.record h.journal

variable [LoopLogic L] [DecidableEq K]

/-!
# Pieces of work
-/

/-- What a piece of work notes of ticks and keys. -/
inductive Notes : Task K -> Host K L -> Host K L -> Prop where
  | silent {t : Task K} {h h' : Host K L}
      (same : forall g, heard g h' = heard g h) : Notes t h h'
  | tick {h h' : Host K L} {a handle ran i : Nat} {todo : List Nat}
      {w : Window K} {q : FrameQueue (Callback K)}
      (present : h.windows[a]? = some w)
      (taken : w.queue.take handle = some (.tick i, q))
      (ticks : forall g,
        ticksBegun g h' = (if i = g then [handle] else []) ++ ticksBegun g h)
      (keys : forall g, keysHeard g h' = keysHeard g h) :
      Notes (.frame a (handle :: todo) ran) h h'
  | key {h h' : Host K L} {a n i : Nat} {e : KeyEvent} {motion : KeyMotion}
      {todo : List (Listener K)} {v : Viewer K L}
      (listed : .keys motion i ∈ h.listeners a e.motion.type)
      (present : h.viewers[i]? = some v)
      (ticks : forall g, ticksBegun g h' = ticksBegun g h)
      (keys : forall g, keysHeard g h' =
        (if i = g then [h.latest n e] else []) ++ keysHeard g h) :
      Notes (.press a e n (.keys motion i :: todo)) h h'

omit [LoopLogic L] [DecidableEq K] in
theorem notes_withViewer {t : Task K} {h : Host K L} {g : Nat}
    {f : Viewer K L -> Host K L -> Outcome K L}
    (hf : forall v, Notes t h (f v h).1) :
    Notes t h (withViewer g f h).1 := by
  unfold withViewer
  split
  · exact hf _
  · exact .silent fun _ => rfl

omit [LoopLogic L] [DecidableEq K] in
theorem ticksBegun_note_tick (h : Host K L) (g i handle : Nat) :
    ticksBegun g (h.note (.tick i handle)) =
      (if i = g then [handle] else []) ++ ticksBegun g h := by
  show List.filterMap _ (_ :: h.journal) = _
  rw [List.filterMap_cons]
  by_cases hi : i = g
  · simp only [if_pos hi]
    rfl
  · simp only [if_neg hi]
    rfl

omit [LoopLogic L] [DecidableEq K] in
theorem keysHeard_of_key {h h' : Host K L} {i : Nat} {e : KeyEvent}
    (noted : h'.journal = .key i e :: h.journal) (g : Nat) :
    keysHeard g h' = (if i = g then [e] else []) ++ keysHeard g h := by
  unfold keysHeard
  rw [noted, List.filterMap_cons]
  by_cases hi : i = g
  · simp only [if_pos hi]
    rfl
  · simp only [if_neg hi]
    rfl

omit [LoopLogic L] [DecidableEq K] in
theorem notes_frame (a ran : Nat) (h : Host K L) (todo : List Nat) :
    Notes (.frame a todo ran) h (frame a ran h todo).1 := by
  refine frame_elim (motive := fun o => Notes (.frame a todo ran) h o.1)
    a ran h todo ?_ ?_ ?_ ?_ ?_
  · exact fun _ => .silent fun _ => rfl
  · exact fun _ => .silent fun _ => rfl
  · exact fun _ _ _ _ _ _ _ _ => .silent fun _ => rfl
  · rintro i w q handle rest rfl hw hq
    exact .tick hw hq (fun g => ticksBegun_note_tick _ g i handle) fun _ => rfl
  · exact fun _ _ _ => .silent fun _ => rfl

omit [DecidableEq K] in
theorem journal_pressLogic {h : Host K L} {i : Nat} {v : Viewer K L}
    (hv : h.viewers[i]? = some v) (motion : KeyMotion) (e : KeyEvent)
    (n : Nat) :
    (pressLogic i motion e n h).1.journal =
      .key i (h.latest n e) :: h.journal := by
  have hafter : forall r : Host K L × Except Failure Bool,
      (afterKey n r).1.journal = r.1.journal := by
    rintro ⟨h', f | acted⟩
    · rfl
    · cases acted <;> rfl
  unfold pressLogic
  rw [hv]
  exact hafter _

theorem notes_press (a : Nat) (e : KeyEvent) (n : Nat) (h : Host K L)
    (todo : List (Listener K)) :
    Notes (.press a e n todo) h (press a e n h todo).1 := by
  refine Registry.step_elim
    (motive := fun o : Outcome K L => Notes (.press a e n todo) h o.1)
    todo ?_ ?_ ?_
  · exact fun _ => .silent fun _ => rfl
  · rintro l rest rfl hl
    cases l with
    | outside k => exact .silent fun _ => rfl
    | keys motion i =>
        have hafter : (pressTurn a e n h (.keys motion i) rest).1 =
            (pressLogic i motion e n h).1 :=
          view_afterLogic (f := id) _ fun _ _ => rfl
        rw [hafter]
        cases hv : h.viewers[i]? with
        | none =>
            refine .silent fun g => ?_
            unfold pressLogic
            rw [hv]
        | some v =>
            have hnoted := journal_pressLogic hv motion e n
            refine .key hl hv (fun g => ?_) (keysHeard_of_key hnoted)
            unfold ticksBegun
            rw [hnoted]
            rfl
  · exact fun _ _ _ _ => .silent fun _ => rfl

theorem notes_resume (t : Task K) (h : Host K L) :
    Notes t h (resume t h).1 := by
  cases t with
  | run i =>
      apply notes_withViewer
      intro v
      unfold run
      split
      · exact .silent fun _ => rfl
      · split
        · exact .silent fun _ => rfl
        · exact .silent fun _ => rfl
  | setUp i =>
      apply notes_withViewer
      intro v
      refine .silent fun g => ?_
      exact view_afterLogic _ fun rs h =>
        view_foldl_remark (detached_heard g).remark rs h
  | start i =>
      have hstart : forall g,
          heard g (h.onLoop i fun v w => v.start i w) = heard g h :=
        fun g => (detached_heard g).onLoop h i _
      exact .silent hstart
  | stop i =>
      apply notes_withViewer
      intro v
      unfold stop
      split
      · exact .silent fun _ => rfl
      · have hhalt : forall g,
            heard g (h.onLoop i fun v w => v.halt i w) = heard g h :=
          fun g => (detached_heard g).onLoop h i _
        exact .silent hhalt
  | notify i type todo =>
      exact .silent fun g => congrArg (heard g) (world_notify i type h todo)
  | press a e n todo => exact notes_press a e n h todo
  | frame a todo ran => exact notes_frame a ran h todo
  | poll a todo =>
      cases todo with
      | nil => exact .silent fun _ => rfl
      | cons i todo =>
          cases i with
          | quit => exact .silent fun _ => rfl
          | key motion code => exact .silent fun _ => rfl
          | other => exact .silent fun _ => rfl
  | update i =>
      apply notes_withViewer
      intro v
      refine .silent fun g => ?_
      exact view_afterLogic _ fun _ _ => rfl
  | draw i =>
      apply notes_withViewer
      intro v
      refine .silent fun g => ?_
      exact (view_afterLogic _ fun _ _ => rfl).trans (heard_onEasel g i v _ h)
  | rearm i =>
      apply notes_withViewer
      intro v
      unfold rearm
      split
      · exact .silent fun _ => rfl
      · split
        · refine .silent fun g => ?_
          exact (detached_heard g).onLoop h i _
        · exact .silent fun _ => rfl
        · exact .silent fun _ => rfl

/-!
# Operations
-/

section Operations

open Act

omit [LoopLogic L] [DecidableEq K]

theorem silent_shutDown (g a : Nat) :
    Fixes (heard g) (shutDown a : Act (Host K L) Unit) := by
  refine fixes_act fun h => ?_
  split
  · rfl
  · split
    · rfl
    · rfl

theorem silent_closeViewer [DecidableEq K] (g i : Nat) :
    Fixes (heard g) (closeViewer i : Act (Host K L) Unit) :=
  (detached_heard g).closeViewer i

end Operations

theorem silent_perform (g : Nat) (op : Op K L) (h : Host K L) :
    heard g (perform op h).1 = heard g h := by
  cases op with
  | setClock now => rfl
  | shutDown a => exact view_ofAct (silent_shutDown g a) _ h
  | post events =>
      simp only [perform, post]
      split
      · rfl
      · rfl
  | poll a =>
      simp only [perform, beginPoll]
      split
      · rfl
      · rfl
  | _ => exact (detached_heard g).perform rfl h

variable {m n : HostMachine K L} {move : Move (Op K L)}

theorem notes_move (hmove : m.move? (component K L) move = some n) :
    (forall g, heard g n.world = heard g m.world)
      ∨ exists t rest, m.stack = .work t :: rest ∧ Notes t m.world n.world := by
  cases move with
  | work =>
      rcases move?_work hmove with ⟨t, rest, hs, rfl⟩
      refine .inr ⟨t, rest, hs, ?_⟩
      rw [proceed_world]
      exact notes_resume t m.world
  | issue op =>
      rcases move?_issue hmove with ⟨_, rfl⟩
      refine .inl fun g => ?_
      unfold Machine.issue
      rw [proceed_world]
      exact silent_perform g op m.world
  | giveBack =>
      rcases move?_giveBack hmove with ⟨c, rest, _, rfl⟩
      exact .inl fun _ => rfl
  | throw e =>
      rcases move?_throw hmove with ⟨c, rest, _, rfl⟩
      exact .inl fun _ => rfl

/-!
# Who is awake
-/

def Awake (h : Host K L) (g : Nat) : Prop :=
  exists v, h.viewers[g]? = some v ∧ v.state = .running ∧ v.isClosed = false

section Awake

variable {h h' : Host K L} {a g : Nat} {w : Window K}

omit [LoopLogic L] in
theorem awake_of_running {l : Loop} {r : Rack K}
    (present : h.loops.loop g = some l) (hstep : InStep g l r)
    (running : l.state = .running) : Awake h g := by
  rcases viewer_of_loop present with ⟨v, hv, rfl⟩
  refine ⟨v, hv, running, Bool.eq_false_iff.mpr fun hclosed => ?_⟩
  cases running.symm.trans (hstep.closed hclosed)

omit [LoopLogic L] in
theorem awake_of_tick (hs : Coherent h.loops) {handle : Nat}
    (hw : h.windows[a]? = some w)
    (pending : (handle, .tick g) ∈ w.queue.pending) : Awake h g := by
  rcases hs.owner_of_tick (loops_rack hw) pending with
    ⟨l, hl, _, hhandle, hstep⟩
  refine awake_of_running hl hstep (hstep.ticking ?_)
  rw [hhandle]
  rfl

omit [LoopLogic L] in
theorem awake_of_keys (hs : Coherent h.loops) {motion : KeyMotion}
    {type : String} (listed : .keys motion g ∈ h.listeners a type) :
    Awake h g := by
  cases hw : h.windows[a]? with
  | none => simp [listeners, hw] at listed
  | some w =>
      have hcount :
          0 < (w.rack.registry.listeners type).count (.keys motion g) := by
        apply List.count_pos_iff.mpr
        simpa [listeners, hw, Window.rack] using listed
      by_cases hhere : exists l, h.loops.loop g = some l ∧ l.window = a
      · rcases hhere with ⟨l, hl, rfl⟩
        rcases hs.inStep g l hl with ⟨r, hr, hstep⟩
        cases (loops_rack hw).symm.trans hr
        refine awake_of_running hl hstep ?_
        rw [hstep.holds.keys motion type, hstep.listening] at hcount
        by_contra hidle
        simp [hidle] at hcount
      · have hnone :=
          hs.elsewhere g a w.rack (loops_rack hw) fun l hl ha =>
            hhere ⟨l, hl, ha⟩
        rw [hnone.keys motion type] at hcount
        simp at hcount

omit [LoopLogic L] in
theorem heard_or_awake {t : Task K} (notes : Notes t h h')
    (hs : Coherent h.loops) (g : Nat) :
    heard g h' = heard g h ∨ Awake h g := by
  cases notes with
  | silent same => exact .inl (same g)
  | tick present taken ticks keys =>
      rename_i i _ _ _
      by_cases hi : i = g
      · subst hi
        exact .inr (awake_of_tick hs present (FrameQueue.mem_of_take taken).1)
      · refine .inl (Prod.ext ?_ (keys g))
        rw [heard, ticks g, if_neg hi]
        rfl
  | key listed present ticks keys =>
      rename_i i _ _ _ _
      by_cases hi : i = g
      · subst hi
        exact .inr (awake_of_keys hs listed)
      · refine .inl (Prod.ext (ticks g) ?_)
        rw [heard, keys g, if_neg hi]
        rfl

end Awake

end Host
end WireView
