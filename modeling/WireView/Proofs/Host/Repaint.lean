import WireView.Proofs.Host.Journal
import WireView.Proofs.Host.Queues
import WireView.Proofs.Reentrant.Course

/-!
# One tick a repaint

A frame takes the callbacks that were pending when it began, each in its turn.
The tick of a viewer is pending at most once, and one that is asked for during
the frame gets a new handle, so the frame begins it at most once.  It begins it
indeed unless the viewer is halted, or the frame fails, before its turn comes.

While a frame is under way its task lies just above the stack that the frame was
issued on, and what its callbacks do lies above this task.
-/

namespace WireView
namespace Host

open Reentrant Machine

variable {K L : Type}

variable [LoopLogic L] [DecidableEq K]

/-!
# What is left to be done
-/

/-- Work that neither goes on with a frame nor halts a loop. -/
def Task.isMinor : Task K -> Bool
  | .frame _ _ _ => false
  | .stop _ => false
  | _ => true

section Tasks

theorem minor_resume {t : Task K} (h : Host K L)
    (ht : forall a todo ran, t ≠ .frame a todo ran) :
    (resume t h).2.tasks.all Task.isMinor = true := by
  have hp := continues_resume t h
  generalize (resume t h).2 = p at hp
  cases hp with
  | callback a handle k todo ran => exact absurd rfl (ht _ _ _)
  | tick a handle g observers todo ran => exact absurd rfl (ht _ _ _)
  | spent a handle todo ran => exact absurd rfl (ht _ _ _)
  | _ => rfl

theorem tasks_perform {op : Op K L} (h : Host K L)
    (hframe : forall a, op ≠ .frame a) {u : Task K}
    (hu : u ∈ (perform op h).2.tasks) :
    u.isMinor = true ∨ exists g,
      u = .stop g ∧ (op = .stop g ∨ op = .reset g) := by
  have hbegun := begins_perform op h
  generalize (perform op h).2.tasks = tasks at hbegun hu
  cases hbegun with
  | nothing => cases hu
  | run g =>
      cases List.mem_singleton.mp hu
      exact .inl rfl
  | stop g => exact .inr ⟨g, List.mem_singleton.mp hu, .inl rfl⟩
  | reset g =>
      rcases List.mem_cons.mp hu with hu | hu
      · exact .inr ⟨g, hu, .inr rfl⟩
      · cases List.mem_singleton.mp hu
        exact .inl rfl
  | press a e todo =>
      cases List.mem_singleton.mp hu
      exact .inl rfl
  | poll a todo =>
      cases List.mem_singleton.mp hu
      exact .inl rfl
  | frame a todo => exact absurd rfl (hframe a)

end Tasks

/-!
# The turns of a frame
-/

section Turns

variable {h h' : Host K L} {a g : Nat}

omit [LoopLogic L] [DecidableEq K] in
theorem progress_beginFrame (a : Nat) (h : Host K L) :
    (beginFrame a h).2 = .push [.frame a ((pendingIn a h).map Prod.fst) 0] := by
  have htodo :
      (((h.windows.modify a fun w =>
        { w with queue := w.queue.beginFrame })[a]?).map
        fun w => w.queue.handles).getD [] = (pendingIn a h).map Prod.fst := by
    unfold pendingIn
    rw [Array.getElem?_modify, if_pos rfl]
    cases h.windows[a]? with
    | none => rfl
    | some w => rfl
  rw [← htodo]
  rfl

theorem ticksBegun_turn (hs : Coherent h.loops) (handle ran : Nat)
    (todo : List Nat) :
    ticksBegun g (resume (.frame a (handle :: todo) ran) h).1 =
      (if (handle, .tick g) ∈ pendingIn a h then [handle] else []) ++
        ticksBegun g h := by
  split
  · rename_i hpending
    rcases mem_pendingIn.mp hpending with ⟨w, hw, hmem⟩
    have htake : h.takeCallback a handle = some (.tick g,
        h.onWindow a fun w' => { w' with queue := w.queue.drop handle }) := by
      have hq : w.queue.take handle = some (.tick g, w.queue.drop handle) :=
        FrameQueue.take_of_mem (hs.queues a _ (loops_rack hw)) hmem
      simp [takeCallback, hw, hq]
    show ticksBegun g (frame a ran h (handle :: todo)).1 = _
    rw [frame_taken htake]
    exact (ticksBegun_note_tick _ g g handle).trans (by rw [if_pos rfl]; rfl)
  · rename_i hspent
    have hnotes := notes_resume (.frame a (handle :: todo) ran) h
    cases hnotes with
    | silent same => exact congrArg Prod.fst (same g)
    | tick present taken ticks keys =>
        rename_i i w q
        rw [ticks g, if_neg]
        rintro rfl
        exact hspent
          (mem_pendingIn.mpr ⟨w, present, (FrameQueue.mem_of_take taken).1⟩)

theorem over_turn (handle ran : Nat) (todo : List Nat) (h : Host K L)
    (rest : List (Level (Task K) (Callee K))) :
    exists above ran', (resume (.frame a (handle :: todo) ran) h).2.over rest =
        above ++ .work (.frame a todo ran') :: rest
      ∧ forall u, .work u ∈ above -> u.isMinor = true := by
  show exists above ran', (frame a ran h (handle :: todo)).2.over rest = _ ∧ _
  cases htake : h.takeCallback a handle with
  | none =>
      rw [frame_gone htake]
      exact ⟨[], ran, rfl, by simp⟩
  | some taken =>
      rw [frame_taken htake]
      rcases taken with ⟨c, h'⟩
      cases c with
      | outside k => exact ⟨[.outside _], ran + 1, rfl, by simp⟩
      | tick i =>
          refine ⟨levels (beginTick i handle h').2, ran + 1, ?_, ?_⟩
          · simp [frameTurn, beginTick, levels, Progress.over]
          · simp [levels, beginTick, announce, Task.isMinor]

end Turns

/-!
# The course of a frame
-/

/-- The handles whose turn is still to come in the frame that lies just above a
stack. -/
def unstarted (base stack : List (Level (Task K) (Callee K))) : List Nat :=
  match (stack.reverse.drop base.length).head? with
  | some (.work (.frame _ todo _)) => todo
  | _ => []

omit [LoopLogic L] [DecidableEq K] in
theorem unstarted_self (base : List (Level (Task K) (Callee K))) :
    unstarted base base = [] := by
  unfold unstarted
  rw [List.drop_eq_nil_of_le (Nat.le_of_eq List.length_reverse)]
  rfl

omit [LoopLogic L] [DecidableEq K] in
theorem unstarted_above (above base : List (Level (Task K) (Callee K)))
    (a ran : Nat) (todo : List Nat) :
    unstarted base (above ++ .work (.frame a todo ran) :: base) = todo := by
  unfold unstarted
  rw [List.reverse_append, List.reverse_cons, List.append_assoc,
    List.drop_left' List.length_reverse]
  rfl

def Halts (g : Nat) (t : HostMoment K L) : Prop :=
  t.move = .issue (.stop g) ∨ t.move = .issue (.reset g)
    ∨ t.move = .issue (.close g)

def Undisturbed (m : HostMachine K L) (move : Move (Op K L)) : Prop :=
  SparesTicks m move ∧ forall a, move ≠ .issue (.frame a)

/-- A viewer was halted while the turn of a handle was still to come. -/
def HaltedBefore (base : List (Level (Task K) (Callee K))) (g : Nat)
    (past : List (HostMoment K L)) (handle : Nat) : Prop :=
  exists t, t ∈ past ∧ Halts g t ∧ handle ∈ unstarted base t.machine.stack

def FailedBefore (base : List (Level (Task K) (Callee K)))
    (past : List (HostMoment K L)) (n : HostMachine K L) (handle : Nat) :
    Prop :=
  (n.stack = base ∧ exists e, n.result = .error e)
    ∧ exists t, past.head? = some t ∧ handle ∈ unstarted base t.machine.stack

/-- What a frame has done to the ticks of a viewer by some moment of its course;
those that are new have begun. -/
structure Repaint (m : HostMachine K L) (a g : Nat)
    (past : List (HostMoment K L)) (n : HostMachine K L) (new : List Nat) :
    Prop where
  begun : ticksBegun g n.world = new ++ ticksBegun g m.world
  later : LaterQueue a m.world n.world
  ahead :
    (unstarted m.stack n.stack).Sublist ((pendingIn a m.world).map Prod.fst)
  once : new = [] ∨ exists handle,
    new = [handle] ∧ (handle, .tick g) ∈ pendingIn a m.world
    ∧ handle ∉ unstarted m.stack n.stack
  account : forall handle, (handle, .tick g) ∈ pendingIn a m.world ->
    handle ∈ unstarted m.stack n.stack ∧ (handle, .tick g) ∈ pendingIn a n.world
      ∨ new = [handle] ∨ HaltedBefore m.stack g past handle
      ∨ FailedBefore m.stack past n handle

/-- A frame under way: its task lies just above the stack that it was issued on,
and what its callbacks do lies above its task.  A halt that is still to be done
has been asked for. -/
structure Inside (m : HostMachine K L) (a g : Nat)
    (past : List (HostMoment K L)) (n : HostMachine K L)
    (above : List (Level (Task K) (Callee K))) (todo : List Nat) (ran : Nat) :
    Prop where
  stack : n.stack = above ++ .work (.frame a todo ran) :: m.stack
  frameless : forall a todo ran, .work (.frame a todo ran) ∉ above
  asked : .work (.stop g) ∈ above ->
    exists t, t ∈ past ∧ Halts g t ∧ forall n,
      n ∈ todo -> n ∈ unstarted m.stack t.machine.stack

def Standing (m : HostMachine K L) (a g : Nat) (past : List (HostMoment K L))
    (n : HostMachine K L) : Prop :=
  n.stack = m.stack ∨ exists above todo ran, Inside m a g past n above todo ran

theorem minor_leaves {t : HostMoment K L}
    (spared : forall a, t.move ≠ .issue (.frame a))
    (above : forall a todo ran rest,
      t.machine.stack ≠ Level.work (.frame a todo ran) :: rest)
    {u : Task K} (hu : u ∈ t.leaves (component K L)) :
    u.isMinor = true ∨ exists g, u = .stop g ∧ Halts g t := by
  unfold Moment.leaves at hu
  split at hu
  · rename_i task rest hmove hstack
    refine .inl (List.all_eq_true.mp (minor_resume t.machine.world ?_) u hu)
    rintro a todo ran rfl
    exact above a todo ran rest hstack
  · rename_i op hmove
    have hframe : forall a, op ≠ .frame a := by
      rintro a rfl
      exact spared a hmove
    rcases tasks_perform t.machine.world hframe hu with
      hminor | ⟨g, rfl, rfl | rfl⟩
    · exact .inl hminor
    · exact .inr ⟨g, rfl, .inl hmove⟩
    · exact .inr ⟨g, rfl, .inr (.inl hmove)⟩
  · cases hu

variable {m n k : HostMachine K L} {a g : Nat} {past : List (HostMoment K L)}
  {new : List Nat}
variable {move : Move (Op K L)}

namespace Inside

variable {above above' : List (Level (Task K) (Callee K))} {todo : List Nat}
  {ran : Nat}

section Stack

omit [LoopLogic L] [DecidableEq K]

theorem unstarted_eq (inside : Inside m a g past n above todo ran) :
    unstarted m.stack n.stack = todo := by
  rw [inside.stack]
  exact unstarted_above above m.stack a ran todo

theorem underway (inside : Inside m a g past n above todo ran) :
    m.stack.length < n.stack.length := by
  rw [inside.stack, List.length_append]
  exact Nat.lt_of_lt_of_le (Nat.lt_succ_self _) (Nat.le_add_left _ _)

theorem top (inside : Inside m a g past n above todo ran) (hne : above ≠ [])
    {t : Task K} {rest : List (Level (Task K) (Callee K))}
    (htop : n.stack = .work t :: rest) :
    .work t ∈ above := by
  cases above with
  | nil => exact absurd rfl hne
  | cons l above =>
      cases inside.stack.symm.trans htop
      exact List.mem_cons_self

theorem not_frame (inside : Inside m a g past n above todo ran)
    (hne : above ≠ []) (b : Nat) (turns : List Nat) (ran' : Nat)
    (rest : List (Level (Task K) (Callee K))) :
    n.stack ≠ .work (.frame b turns ran') :: rest :=
  fun htop => inside.frameless b turns ran' (inside.top hne htop)

end Stack

theorem goes_on (inside : Inside m a g past n [] todo ran)
    (hmove : n.move? (component K L) move = some k) :
    k.world = (resume (.frame a todo ran) n.world).1
      ∧ k.stack = (resume (.frame a todo ran) n.world).2.over m.stack := by
  rcases move?_under_work hmove inside.stack with ⟨_, rfl⟩
  exact ⟨proceed_world .., proceed_stack ..⟩

theorem ticks (inside : Inside m a g past n above todo ran) (hne : above ≠ [])
    (hmove : n.move? (component K L) move = some k) :
    ticksBegun g k.world = ticksBegun g n.world := by
  rcases notes_move hmove with hsilent | ⟨t, rest, htask, hnotes⟩
  · exact congrArg Prod.fst (hsilent g)
  · cases hnotes with
    | silent same => exact congrArg Prod.fst (same g)
    | tick => exact absurd htask (inside.not_frame hne _ _ _ _)
    | key listed present ticks keys => exact ticks g

omit [LoopLogic L] [DecidableEq K] in
/-- A tick whose turn is still to come is dropped only by a halt of its
viewer. -/
theorem halted_of_drops (inside : Inside m a g past n above todo ran)
    (hne : above ≠ []) (allowed : Undisturbed n move) {handle : Nat}
    (hmem : handle ∈ todo) (hwaits : (handle, .tick g) ∈ pendingIn a n.world)
    (hdrops : drops ⟨n, move⟩ a (handle, .tick g)) :
    HaltedBefore m.stack g (⟨n, move⟩ :: past) handle := by
  unfold drops at hdrops
  split at hdrops
  · rename_i task rest _ htask
    cases hdrops with
    | turn => exact absurd htask (inside.not_frame hne _ _ _ _)
    | halt =>
        rcases inside.asked (inside.top hne htask) with ⟨t, ht, hhalts, hbefore⟩
        exact ⟨t, List.mem_cons_of_mem _ ht, hhalts, hbefore handle hmem⟩
  · rename_i op hmove
    cases hdrops with
    | cancel =>
        rcases mem_pendingIn.mp hwaits with ⟨w, hw, hpending⟩
        exact absurd rfl (allowed.1 a handle hmove w hw handle g hpending)
    | close =>
        refine ⟨_, List.mem_cons_self, .inr (.inr hmove), ?_⟩
        show handle ∈ unstarted m.stack n.stack
        rw [inside.unstarted_eq]
        exact hmem
  · cases hdrops

theorem next (inside : Inside m a g past n above todo ran) (hne : above ≠ [])
    (allowed : Undisturbed n move)
    (hstack : k.stack = above' ++ .work (.frame a todo ran) :: m.stack)
    (hwork : forall t,
      .work t ∈ above' ->
        t ∈ (Moment.mk n move).leaves (component K L) ∨ .work t ∈ above) :
    Inside m a g (⟨n, move⟩ :: past) k above' todo ran := by
  refine ⟨hstack, fun b turns ran' hmem => ?_, fun hmem => ?_⟩
  · rcases hwork _ hmem with hleft | hbefore
    · rcases minor_leaves allowed.2 (inside.not_frame hne) hleft with
        hminor | ⟨i, hstop, _⟩
      · cases hminor
      · cases hstop
    · exact inside.frameless b turns ran' hbefore
  · rcases hwork _ hmem with hleft | hbefore
    · rcases minor_leaves allowed.2 (inside.not_frame hne) hleft with
        hminor | ⟨i, hstop, hhalts⟩
      · cases hminor
      · cases hstop
        refine ⟨_, List.mem_cons_self, hhalts, fun handle hmem => ?_⟩
        show handle ∈ unstarted m.stack n.stack
        rw [inside.unstarted_eq]
        exact hmem
    · rcases inside.asked hbefore with ⟨t, ht, hasked⟩
      exact ⟨t, List.mem_cons_of_mem _ ht, hasked⟩

end Inside

namespace Repaint

omit [LoopLogic L] [DecidableEq K] in
theorem quiet (r : Repaint m a g past n new)
    (underway : m.stack.length < n.stack.length)
    (ticks : ticksBegun g k.world = ticksBegun g n.world)
    (later : LaterQueue a n.world k.world)
    (ahead : (unstarted m.stack k.stack).Sublist (unstarted m.stack n.stack))
    (waits : forall handle,
      handle ∈ unstarted m.stack n.stack ->
        (handle, .tick g) ∈ pendingIn a n.world ->
        handle ∈ unstarted m.stack k.stack
          ∧ (handle, .tick g) ∈ pendingIn a k.world
            ∨ HaltedBefore m.stack g (⟨n, move⟩ :: past) handle
            ∨ FailedBefore m.stack (⟨n, move⟩ :: past) k handle) :
    Repaint m a g (⟨n, move⟩ :: past) k new := by
  refine ⟨ticks.trans r.begun, r.later.trans later, ahead.trans r.ahead, ?_, ?_⟩
  · rcases r.once with hnone | ⟨handle, hnew, hpending, hstarted⟩
    · exact .inl hnone
    · exact .inr ⟨handle, hnew, hpending, fun hmem => hstarted (ahead.mem hmem)⟩
  · intro handle hpending
    rcases r.account handle hpending with
      ⟨hmem, hnow⟩ | hnew | ⟨t, ht, hhalts⟩ | ⟨hover, _⟩
    · exact (waits handle hmem hnow).imp_right .inr
    · exact .inr (.inl hnew)
    · exact .inr (.inr (.inl ⟨t, List.mem_cons_of_mem _ ht, hhalts⟩))
    · rw [hover.1] at underway
      exact absurd underway (Nat.lt_irrefl _)

omit [LoopLogic L] in
theorem tick (hs : Coherent m.world.loops) (r : Repaint m a g past n new)
    {handle : Nat}
    (turn : unstarted m.stack n.stack = handle :: unstarted m.stack k.stack)
    (pending : (handle, .tick g) ∈ pendingIn a n.world)
    (ticks : ticksBegun g k.world = handle :: ticksBegun g n.world)
    (later : LaterQueue a n.world k.world) :
    Repaint m a g (⟨n, move⟩ :: past) k [handle] := by
  have hmem : handle ∈ unstarted m.stack n.stack := by
    rw [turn]
    exact List.mem_cons_self
  have hpending : (handle, .tick g) ∈ pendingIn a m.world :=
    r.later.old hs pending (r.ahead.mem hmem)
  have hfirst : new = [] := by
    rcases r.once with hnone | ⟨n', _, hpending', hstarted⟩
    · exact hnone
    · rw [tick_unique hs hpending' hpending] at hstarted
      exact absurd hmem hstarted
  have hahead := r.ahead
  rw [turn] at hahead
  have hstarted : handle ∉ unstarted m.stack k.stack :=
    (List.nodup_cons.mp (hahead.nodup (nodup_pendingIn hs))).1
  refine ⟨?_, r.later.trans later, (List.sublist_cons_self _ _).trans hahead,
    .inr ⟨handle, rfl, hpending, hstarted⟩, ?_⟩
  · rw [ticks, r.begun, hfirst]
    rfl
  · intro n' hpending'
    rw [tick_unique hs hpending' hpending]
    exact .inr (.inl rfl)

theorem step_end (hs : Coherent n.world.loops) (r : Repaint m a g past n new)
    {ran : Nat} (inside : Inside m a g past n [] [] ran)
    (hmove : n.move? (component K L) move = some k) :
    Repaint m a g (⟨n, move⟩ :: past) k new
      ∧ Standing m a g (⟨n, move⟩ :: past) k := by
  rcases inside.goes_on hmove with ⟨hworld, hover⟩
  have hdone : k.stack = m.stack := hover
  have hrequeues := requeues_works (works_resume (.frame a [] ran) n.world) hs a
  rw [← hworld] at hrequeues
  refine ⟨r.quiet inside.underway ?_ hrequeues.later ?_ ?_, .inl hdone⟩
  · rw [hworld]
    cases notes_resume (.frame a [] ran) n.world with
    | silent same => exact congrArg Prod.fst (same g)
  · rw [hdone, unstarted_self]
    exact List.nil_sublist _
  · intro handle hmem
    rw [inside.unstarted_eq] at hmem
    cases hmem

theorem step_turn (hs : Coherent m.world.loops) (hs' : Coherent n.world.loops)
    (r : Repaint m a g past n new) {handle ran : Nat} {todo : List Nat}
    (inside : Inside m a g past n [] (handle :: todo) ran)
    (hmove : n.move? (component K L) move = some k) :
    exists new', Repaint m a g (⟨n, move⟩ :: past) k new'
      ∧ Standing m a g (⟨n, move⟩ :: past) k := by
  have hn := inside.unstarted_eq
  rcases inside.goes_on hmove with ⟨hworld, hover⟩
  have hrequeues :=
    requeues_works (works_resume (.frame a (handle :: todo) ran) n.world) hs' a
  have hbegun := ticksBegun_turn (a := a) (g := g) hs' handle ran todo
  rcases over_turn (a := a) handle ran todo n.world m.stack with
    ⟨above, ran', habove, hminor⟩
  rw [← hworld] at hrequeues hbegun
  rw [← hover] at habove
  have hk : unstarted m.stack k.stack = todo := by
    rw [habove]
    exact unstarted_above above m.stack a ran' todo
  have hstanding : Standing m a g (⟨n, move⟩ :: past) k := by
    refine .inr
      ⟨above, todo, ran', habove, fun _ _ _ hmem => ?_, fun hmem => ?_⟩
    · cases hminor _ hmem
    · cases hminor _ hmem
  by_cases hpending : (handle, .tick g) ∈ pendingIn a n.world
  · rw [if_pos hpending] at hbegun
    refine ⟨[handle], r.tick hs ?_ hpending hbegun hrequeues.later, hstanding⟩
    rw [hn, hk]
  · rw [if_neg hpending] at hbegun
    refine ⟨new, r.quiet inside.underway hbegun hrequeues.later ?_ ?_,
      hstanding⟩
    · rw [hn, hk]
      exact List.sublist_cons_self _ _
    · intro n' hmem hwaits
      rw [hn] at hmem
      rw [hk]
      rcases List.mem_cons.mp hmem with rfl | hmem
      · exact absurd hwaits hpending
      · rcases hrequeues.kept hwaits with hdrops | hkept
        · cases hdrops
          exact absurd hwaits hpending
        · exact .inl ⟨hmem, hkept⟩

theorem step_above (ready : HasControl m.stack) (hs : Safe n.world n.stack)
    (r : Repaint m a g past n new) {above : List (Level (Task K) (Callee K))}
    {todo : List Nat} {ran : Nat} (inside : Inside m a g past n above todo ran)
    (hne : above ≠ []) (allowed : Undisturbed n move)
    (hmove : n.move? (component K L) move = some k) :
    Repaint m a g (⟨n, move⟩ :: past) k new
      ∧ Standing m a g (⟨n, move⟩ :: past) k := by
  have hticks := inside.ticks hne hmove
  have hrequeues := requeues_move hs hmove a
  rcases move?_above hmove inside.stack hne with
    ⟨above', habove, hlevels⟩ | ⟨hunwound, hfailed⟩
  · have hwork : forall t, .work t ∈ above' ->
        t ∈ (Moment.mk n move).leaves (component K L) ∨ .work t ∈ above := by
      intro t ht
      exact (hlevels _ ht).imp_left Moment.work_mem_brings
    have inside' := inside.next hne allowed habove hwork
    refine ⟨r.quiet inside.underway hticks hrequeues.later ?_ ?_,
      .inr ⟨above', todo, ran, inside'⟩⟩
    · have hsame := inside'.unstarted_eq.trans inside.unstarted_eq.symm
      exact hsame ▸ List.Sublist.refl _
    · intro handle hmem hwaits
      rw [inside.unstarted_eq] at hmem
      rw [inside'.unstarted_eq]
      rcases hrequeues.kept hwaits with hdrops | hkept
      · exact .inr
          (.inl (inside.halted_of_drops hne allowed hmem hwaits hdrops))
      · exact .inl ⟨hmem, hkept⟩
  -- Nothing in the frame holds the failure up, so it ends the frame.
  · have hover : k.stack = m.stack := by
      rw [hunwound]
      exact unwind_of_hasControl ready
    refine ⟨r.quiet inside.underway hticks hrequeues.later ?_ ?_, .inl hover⟩
    · rw [hover, unstarted_self]
      exact List.nil_sublist _
    · intro handle hmem _
      exact .inr (.inr ⟨⟨hover, hfailed⟩, _, rfl, hmem⟩)

omit [LoopLogic L] [DecidableEq K] in
theorem length_le_one (r : Repaint m a g past n new) : new.length ≤ 1 := by
  rcases r.once with hnone | ⟨handle, hnew, _⟩
  · rw [hnone]
    exact Nat.zero_le 1
  · rw [hnew]
    exact Nat.le_refl 1

omit [LoopLogic L] [DecidableEq K] in
theorem pending_of_begun (r : Repaint m a g past n new) {handle : Nat}
    (hmem : handle ∈ new) :
    (handle, .tick g) ∈ pendingIn a m.world := by
  rcases r.once with hnone | ⟨handle', hnew, hpending, _⟩
  · rw [hnone] at hmem
    cases hmem
  · rw [hnew] at hmem
    rw [List.mem_singleton.mp hmem]
    exact hpending

theorem start (hs : Coherent m.world.loops) (a g : Nat) :
    Repaint m a g [] (m.issue (component K L) (.frame a)) []
      ∧ Standing m a g [] (m.issue (component K L) (.frame a)) := by
  have hworld :
      (m.issue (component K L) (.frame a)).world = (beginFrame a m.world).1 :=
    proceed_world ..
  have hstack : (m.issue (component K L) (.frame a)).stack =
      .work (.frame a ((pendingIn a m.world).map Prod.fst) 0) :: m.stack := by
    have hover : (m.issue (component K L) (.frame a)).stack =
        (beginFrame a m.world).2.over m.stack := proceed_stack ..
    rw [hover, progress_beginFrame]
    rfl
  have htodo : unstarted m.stack (m.issue (component K L) (.frame a)).stack =
      (pendingIn a m.world).map Prod.fst := by
    rw [hstack]
    exact unstarted_above [] m.stack a 0 _
  have hrequeues := requeues_operates (operates_perform (.frame a) m.world) hs a
  rw [show (perform (.frame a) m.world).1 = _ from hworld.symm] at hrequeues
  refine ⟨⟨?_, hrequeues.later, ?_, .inl rfl, ?_⟩,
    .inr ⟨[], _, 0, hstack, ?_, ?_⟩⟩
  · rw [hworld]
    rfl
  · exact htodo ▸ List.Sublist.refl _
  · intro handle hpending
    rcases hrequeues.kept hpending with hdrops | hkept
    · cases hdrops
    · refine .inl ⟨?_, hkept⟩
      rw [htodo]
      exact List.mem_map_of_mem hpending
  · exact fun _ _ _ => List.not_mem_nil
  · exact fun hmem => absurd hmem List.not_mem_nil

end Repaint

variable {m₀ m n : HostMachine K L}

theorem repaint_of_course (still : Still m₀.world) (unused : m₀.stack = [])
    (run : Reaches (component K L) SparesTicks m₀ m)
    (ready : HasControl m.stack) (a g : Nat) {past : List (HostMoment K L)}
    (course : History (component K L) (during m.stack Undisturbed)
      (m.issue (component K L) (.frame a)) past n) :
    (exists new, Repaint m a g past n new) ∧ Standing m a g past n := by
  have hs := (safe_of_reaches still unused run).coherent
  induction course with
  | start => exact ⟨⟨[], (Repaint.start hs a g).1⟩, (Repaint.start hs a g).2⟩
  | step course allowed hmove ih =>
      rename_i past n k move
      have hspared : History (component K L) (during m.stack SparesTicks)
          (m.issue (component K L) (.frame a)) past n :=
        course.weaken fun _ _ h => ⟨h.1.1, h.2⟩
      have hsafe := safe_of_reaches still unused (run.course ready ?_ hspared)
      · rcases ih with ⟨⟨new, r⟩, hover | ⟨above, todo, ran, inside⟩⟩
        · exact absurd hover (stack_ne_of_during allowed)
        · by_cases hne : above = []
          · subst hne
            cases todo with
            | nil =>
                rcases r.step_end hsafe.coherent inside hmove with
                  ⟨r', hstanding⟩
                exact ⟨⟨new, r'⟩, hstanding⟩
            | cons handle todo =>
                rcases r.step_turn hs hsafe.coherent inside hmove with
                  ⟨new', r', hstanding⟩
                exact ⟨⟨new', r'⟩, hstanding⟩
          · rcases r.step_above ready hsafe inside hne allowed.1 hmove with
              ⟨r', hstanding⟩
            exact ⟨⟨new, r'⟩, hstanding⟩
      · intro b handle hmove
        cases hmove

/-- Whatever listeners and callbacks do, and wherever they throw: a tick begins
and a key reaches the logic only while the viewer runs and is not closed.  As
long as no frame begins within it, a frame begins the tick of a viewer at most
once, and only one that was pending when the frame began; what has been asked
for since has no turn in this frame.  Of a tick that was pending then, the turn
is still to come, or it has begun, or the viewer was halted before its turn, or
the frame has failed before it. -/
theorem one_tick_per_frame (still : Still m₀.world) (unused : m₀.stack = [])
    (run : Reaches (component K L) SparesTicks m₀ m) (g : Nat) :
    (forall (move : Move (Op K L)) (n : HostMachine K L),
        m.move? (component K L) move = some n ->
          heard g n.world ≠ heard g m.world ->
        Awake m.world g)
      ∧ forall (a : Nat) (past : List (HostMoment K L)) (n : HostMachine K L),
          HasControl m.stack ->
          History (component K L) (during m.stack Undisturbed)
            (m.issue (component K L) (.frame a)) past n ->
          exists new, ticksBegun g n.world = new ++ ticksBegun g m.world
            ∧ new.length ≤ 1
            ∧ (forall handle,
              handle ∈ new -> (handle, .tick g) ∈ pendingIn a m.world)
            ∧ (forall handle, (handle, .tick g) ∈ pendingIn a n.world ->
                (handle, .tick g) ∉ pendingIn a m.world ->
                handle ∉ unstarted m.stack n.stack)
            ∧ forall handle, (handle, .tick g) ∈ pendingIn a m.world ->
                n.stack ≠ m.stack ∧ handle ∈ unstarted m.stack n.stack
                  ∨ new = [handle]
                  ∨ HaltedBefore m.stack g past handle
                  ∨ FailedBefore m.stack past n handle := by
  have hs := (safe_of_reaches still unused run).coherent
  constructor
  · intro move n hmove hheard
    rcases notes_move hmove with hsilent | ⟨t, rest, _, hnotes⟩
    · exact absurd (hsilent g) hheard
    · exact (heard_or_awake hnotes hs g).resolve_left hheard
  · intro a past n ready course
    rcases (repaint_of_course still unused run ready a g course).1 with ⟨new, r⟩
    refine ⟨new, r.begun, r.length_le_one, fun _ => r.pending_of_begun, ?_, ?_⟩
    · intro handle hnow hbefore hmem
      exact hbefore (r.later.old hs hnow (r.ahead.mem hmem))
    · intro handle hpending
      refine (r.account handle hpending).imp_left fun h =>
        ⟨fun hover => ?_, h.1⟩
      rw [hover, unstarted_self] at h
      cases h.1

def undisturbed (k : HostMachine K L) (move : Move (Op K L)) : Bool :=
  match move, k.stack with
  | .issue (.cancel _ _), _ => false
  | .issue (.frame _), _ => false
  | _, stack => !stack.isEmpty

omit [LoopLogic L] [DecidableEq K] in
theorem during_of_undisturbed (k : HostMachine K L) (move : Move (Op K L))
    (h : undisturbed k move = true) : during [] Undisturbed k move := by
  unfold undisturbed at h
  split at h
  · cases h
  · cases h
  · rename_i hcancel hframe
    refine ⟨⟨fun a handle hmove => absurd hmove (hcancel a handle), hframe⟩, ?_⟩
    cases hstack : k.stack with
    | nil => simp [hstack] at h
    | cons l rest => exact Nat.succ_pos _

/-- Another callback is pending before the tick: when it has come and gone, the
tick has begun. -/
theorem callback_before_tick :
    exists (m n : HostMachine String Logic)
        (past : List (HostMoment String Logic)),
      Reaches (component String Logic) SparesTicks
        ⟨oneViewer .standard, [], .ok .nothing⟩ m
        ∧ m.stack = [] ∧ pendingIn 0 m.world = [(1, .outside "k"), (2, .tick 0)]
        ∧ History (component String Logic) (during [] Undisturbed)
            (m.issue (component String Logic) (.frame 0)) past n
        ∧ ticksBegun 0 m.world = [] ∧ ticksBegun 0 n.world = [2] := by
  let moves : List (Move (Op String Logic)) :=
    [.issue (.request 0 "k"), .issue (.run 0), .work, .work, .work, .work]
  let turns : List (Move (Op String Logic)) := [.work, .giveBack, .work]
  have run : Reaches (component String Logic) SparesTicks
      ⟨oneViewer .standard, [], .ok .nothing⟩ _ :=
    reaches_of_foldlM sparesTicks_of_sparing
      (show moves.foldlM _ _ = _ from rfl)
  refine ⟨_, _, _, run, rfl, rfl,
    .of_foldlM during_of_undisturbed .start
      (show turns.foldlM _ _ = _ from rfl), rfl, ?_⟩
  have frame := (one_tick_per_frame (still_oneViewer _) rfl run 0).2 0
  rcases frame _ _ hasControl_nil
    (.of_foldlM during_of_undisturbed .start
      (show turns.foldlM _ _ = _ from rfl)) with
    ⟨new, hbegun, _, _, _, hfate⟩
  have hnew : new = [2] := by
    rcases hfate 2 (List.mem_cons_of_mem _ List.mem_cons_self) with
      ⟨_, hwaits⟩ | hnew | ⟨t, ht, hhalts, _⟩ | ⟨⟨hover, _⟩, _⟩
    · exact absurd hwaits (show 2 ∉ [] from List.not_mem_nil)
    · exact hnew
    · have hmove : t.move = .work ∨ t.move = .giveBack := by
        rcases List.mem_cons.mp ht with rfl | ht
        · exact .inl rfl
        · rcases List.mem_cons.mp ht with rfl | ht
          · exact .inr rfl
          · rw [List.mem_singleton.mp ht]
            exact .inl rfl
      rcases hmove with hmove | hmove
      · simp [Halts, hmove] at hhalts
      · simp [Halts, hmove] at hhalts
    · cases hover
  rw [hnew] at hbegun
  exact hbegun

end Host
end WireView
