import WireView.Proofs.Loop.Order
import WireView.Proofs.Loop.Turns

/-!
# Frames cut short

A callback that fails takes its frame with it.  What the frame has started is
spent for good, the failing callback included, and nothing else is lost: the
entries whose turn had not come are pending as before, ahead of those requested
meanwhile.  The next frame starts them in this order.
-/

namespace WireView
namespace Frames

open Reentrant
open Reentrant.Machine

variable {K : Type}

/-- The callbacks return without cancelling anything, and run no frames. -/
def Gentle (_ : FrameMachine K) (move : Move (Op K)) : Prop :=
  move ≠ .issue .run ∧ (forall e, move ≠ .throw e) ∧ forall h,
    move ≠ .issue (.cancel h)

instance (m : FrameMachine K) :
    (move : Move (Op K)) -> Decidable (Gentle m move)
  | .work => .isTrue ⟨nofun, nofun, nofun⟩
  | .issue (.request _) => .isTrue ⟨nofun, nofun, nofun⟩
  | .issue (.cancel h) => .isFalse fun hgentle => hgentle.2.2 h rfl
  | .issue .run => .isFalse fun hgentle => hgentle.1 rfl
  | .giveBack => .isTrue ⟨nofun, nofun, nofun⟩
  | .throw e => .isFalse fun hgentle => hgentle.2.1 e rfl

def Untouched (_ : FrameMachine K) (move : Move (Op K)) : Prop :=
  forall op, move ≠ .issue op

section

variable {m n : FrameMachine K} {past : List (FrameMoment K)}

/-- A handle that was issued and is not pending any more is never pending or
started again. -/
theorem spent_for_good {rule : FrameMachine K -> Move (Op K) -> Prop} {h : Nat}
    (issued : h < m.world.queue.nextHandle) (spent : h ∉ m.world.queue.handles)
    (course : History (component K) rule m past n) :
    h < n.world.queue.nextHandle ∧ h ∉ n.world.queue.handles
      ∧ h ∉ (inOrder started? past).map Prod.fst := by
  induction course with
  | start => exact ⟨issued, spent, List.not_mem_nil⟩
  | step _ _ hmove ih =>
      rename_i past k k' move _ _
      have effect := effect_of_move hmove
      refine ⟨Nat.lt_of_lt_of_le ih.1 effect.later.next, ?_, ?_⟩
      · intro hmem
        rcases FrameQueue.mem_handles.mp hmem with ⟨c, hc⟩
        rcases effect.later.fresh _ hc with hold | hnew
        · exact ih.2.1 (FrameQueue.mem_handles.mpr ⟨c, hold⟩)
        · exact Nat.not_lt_of_le hnew ih.1
      · cases hs : started? ⟨k, move⟩ with
        | none =>
            rw [inOrder_cons_none hs]
            exact ih.2.2
        | some e =>
            rcases e with ⟨first, c⟩
            rw [inOrder_cons_some hs, List.map_append, List.mem_append, not_or]
            refine ⟨ih.2.2, fun hmem => ?_⟩
            have heq : h = first := List.mem_singleton.mp hmem
            exact ih.2.1
              (FrameQueue.mem_handles.mpr
                ⟨c, heq ▸ (turn_of_started hmove hs).1⟩)

theorem pending_of_untouched
    (course : History (component K) Untouched m past n) :
    n.world.queue.pending =
      m.world.queue.pending.filter fun e =>
        e.1 ∉ (inOrder started? past).map Prod.fst := by
  induction course with
  | start =>
      exact (List.filter_eq_self.mpr fun e _ =>
        decide_eq_true List.not_mem_nil).symm
  | step _ hrule hmove ih =>
      rename_i past k k' move _
      cases effect_of_move hmove with
      | none pending next hr hs hc => rw [pending, inOrder_cons_none hs, ih]
      | request c queue hr hs hc =>
          cases move with
          | issue op => exact absurd rfl (hrule op)
          | _ => cases hr
      | cancel h c pending queue hr hs hc =>
          exact absurd (cancelled?_eq_some hc).1 (hrule _)
      | start h c pending queue hr hs hc =>
          rw [queue, inOrder_cons_some hs]
          show k.world.queue.pending.filter (fun e => e.1 ≠ h) = _
          rw [ih, List.filter_filter]
          apply List.filter_congr
          intro e _
          simp only [List.map_append, List.map_cons, List.map_nil,
            List.mem_append, List.mem_singleton, not_or, Bool.decide_and,
            Bool.and_comm]

theorem untouched_of_host (host : m.stack = [])
    (course : History (component K) Untouched m past n) :
    past = [] := by
  have hsame : past = [] ∧ n = m := by
    induction course with
    | start => exact ⟨rfl, rfl⟩
    | step _ hrule hmove ih =>
        rename_i move _
        rw [ih.2] at hmove
        cases move with
        | work =>
            rcases move?_work hmove with ⟨t, rest, hs, _⟩
            rw [host] at hs
            cases hs
        | issue op => exact absurd rfl (hrule op)
        | giveBack =>
            rcases move?_giveBack hmove with ⟨c, rest, hs, _⟩
            rw [host] at hs
            cases hs
        | throw e =>
            rcases move?_throw hmove with ⟨c, rest, hs, _⟩
            rw [host] at hs
            cases hs
  exact hsame.1

theorem started_of_gentle (queue : m.world.queue.WellFormed)
    (ready : HasControl m.stack)
    (course : History (component K) (during m.stack Gentle)
      (m.issue (component K) .run) past n)
    (ended : n.stack = m.stack) :
    inOrder started? past = m.world.queue.pending
      ∧ n.result = .ok (.ran m.world.queue.pending.length) := by
  have hcalm :
      History (component K) (during m.stack Calm) (m.issue (component K) .run)
        past n :=
    course.weaken fun _ _ h => ⟨⟨h.1.1, h.1.2.1⟩, h.2⟩
  have hcancelled : cancelled past = [] := by
    clear hcalm ended
    induction course with
    | start => rfl
    | step _ hrule _ ih =>
        rename_i k k' move _ _
        cases hc : cancelled? ⟨k, move⟩ with
        | none => exact (cancelled_quiet hc).trans ih
        | some e => exact absurd (cancelled?_eq_some hc).1 (hrule.1.2.2 _)
  rcases outcome_of_course queue ready hcalm ended with ⟨hstarted, hresult, _⟩
  rw [uncancelled_of_none hcancelled] at hstarted
  rw [hstarted] at hresult
  exact ⟨hstarted, hresult⟩

theorem account_of_throw {prev : FrameMachine K} {e : Failure}
    (queue : m.world.queue.WellFormed) (ready : HasControl m.stack)
    (course : History (component K) (during m.stack Single)
      (m.issue (component K) .run) (⟨prev, .throw e⟩ :: past) n) :
    exists c had left, prev.stack.head? = some (.outside c)
      ∧ (inOrder started? past).getLast? = some (c.handle, c.callback)
      ∧ Account m.world.queue past had left n.world.queue
      ∧ n = ⟨prev.world, m.stack, .error e⟩ := by
  cases course with
  | step hpast hrule hmove =>
      rcases underway_of_course queue ready hpast with
        ⟨had, left, account, stage⟩
      cases stage with
      | between stack =>
          rcases move?_under_work hmove stack with ⟨hwork, _⟩
          cases hwork
      | inside c last stack =>
          rcases move?_throw hmove with ⟨c', rest, hs, rfl⟩
          cases stack.symm.trans hs
          refine ⟨c, had, left, by rw [stack]; rfl, last, account, ?_⟩
          show (⟨prev.world, unwind m.stack, .error e⟩ : FrameMachine K) = _
          rw [unwind_of_hasControl ready]
      | finished ended stack result =>
          exact absurd stack (stack_ne_of_during hrule)
      | cut e' prev' earlier raised stack =>
          exact absurd stack (stack_ne_of_during hrule)

/-- A callback that fails ends its frame, which has been counted, with what it
raised.  Those of the entries pending at the beginning whose turn had come were
started unless they had been cancelled, the failing callback last; none of these
is pending any more, and none is ever started again.  The other ones are pending
unless they were cancelled, followed by what was requested during the frame and
not cancelled.  If nothing is requested or cancelled from then on, the next
frame, whose callbacks neither fail nor cancel nor run frames, comes to its end
and starts exactly these in this order, less what a frame suspended below has
started in between: without such a frame, all of them. -/
theorem failed_frame_loses_what_it_started {r : Except Failure Value}
    {prev : FrameMachine K} {e : Failure}
    (reached : Reaches (component K) anyMove ⟨{}, [], r⟩ m)
    (ready : HasControl m.stack)
    (course : History (component K) (during m.stack Single)
      (m.issue (component K) .run) (⟨prev, .throw e⟩ :: past) n) :
    n.stack = m.stack ∧ n.result = .error e
      ∧ n.world.queue.frameCount = m.world.queue.frameCount + 1
      ∧ (exists c had left, prev.stack.head? = some (.outside c)
          ∧ (inOrder started? past).getLast? = some (c.handle, c.callback)
          ∧ m.world.queue.pending = had ++ left
          ∧ inOrder turn? past = had.map Prod.fst
          ∧ inOrder started? past = uncancelled past had
          ∧ n.world.queue.pending =
              uncancelled past left ++
                uncancelled past (inOrder requested? past))
      ∧ (forall x, x ∈ inOrder started? past -> x.1 ∉ n.world.queue.handles
          ∧ forall later k, History (component K) anyMove n later k ->
              x.1 ∉ (inOrder started? later).map Prod.fst)
      ∧ forall between p,
          History (component K) Untouched n between p -> HasControl p.stack ->
          (m.stack = [] -> between = [])
            ∧ forall next k,
                History (component K) (during p.stack Gentle)
                  (p.issue (component K) .run) next k ->
                (exists l,
                  Reaches (component K) (during p.stack Yielding) k l
                    ∧ l.stack = p.stack)
                  ∧ (k.stack = p.stack ->
                      inOrder started? next = n.world.queue.pending.filter
                          (fun x => x.1 ∉
                            (inOrder started? between).map Prod.fst)
                        ∧ ((inOrder started? next).map Prod.fst).Nodup
                        ∧ k.result =
                          .ok (.ran (inOrder started? next).length)) := by
  rcases History.exists_of_reaches reached with ⟨before, hbefore⟩
  have queue := (balanced_of_history hbefore).wellFormed
  rcases account_of_throw queue ready course with
    ⟨c, had, left, hraising, hlast, account, hn⟩
  have hcount := frameCount_of_history (course.weaken fun _ _ h => h.1)
  have hqueue : n.world.queue.WellFormed :=
    wellFormed_of_history (FrameQueue.wellFormed_beginFrame queue) course
  refine ⟨by rw [hn], by rw [hn], hcount, ?_, ?_, ?_⟩
  · exact ⟨c, had, left, hraising, hlast, account.split, account.turns,
      account.starts, account.pending⟩
  · intro x hx
    have hhad : x ∈ had := by
      rw [account.starts] at hx
      exact (mem_uncancelled.mp hx).1
    have hspent := account.passed queue hhad
    have hissued : x.1 < m.world.queue.nextHandle := by
      apply queue.issued
      apply List.mem_map_of_mem
      rw [account.split]
      exact List.mem_append_left left hhad
    refine ⟨hspent, fun later k hlater => ?_⟩
    exact (spent_for_good (Nat.lt_of_lt_of_le hissued account.next) hspent
      hlater).2.2
  · intro between p hbetween hcontrol
    have hp : p.world.queue.WellFormed := wellFormed_of_history hqueue hbetween
    constructor
    · intro host
      exact untouched_of_host (hn ▸ host) hbetween
    · intro next k hnext
      have hsingle : History (component K) (during p.stack Single)
          (p.issue (component K) .run) next k :=
            hnext.weaken fun _ _ h => ⟨h.1.1, h.2⟩
      refine ⟨(underway_of_course hp hcontrol hsingle).ends, fun ended => ?_⟩
      rcases started_of_gentle hp hcontrol hnext ended with ⟨hstarted, hresult⟩
      refine ⟨hstarted.trans (pending_of_untouched hbetween), ?_, ?_⟩
      · rw [hstarted]
        exact hp.increasing.imp Nat.ne_of_lt
      · rw [hstarted]
        exact hresult

end

/-- The first of three callbacks makes two requests and takes one back, and the
second one fails: the third one and the other request are left, and the next
frame starts them. -/
theorem frame_after_a_failed_one :
    exists prev past n next k,
      History (component String) (during threeWaiting.stack Single)
          (threeWaiting.issue (component String) .run)
            (⟨prev, .throw .unsupported⟩ :: past) n
        ∧ n.result = .error .unsupported
        ∧ inOrder started? past = [(1, "a"), (2, "b")]
        ∧ n.world.queue.pending = [(3, "c"), (5, "e")]
        ∧ History (component String) (during n.stack Gentle)
          (n.issue (component String) .run) next k
        ∧ k.stack = n.stack
        ∧ inOrder started? next = [(3, "c"), (5, "e")]
        ∧ k.result = .ok (.ran 2) := by
  let frame : List (Move (Op String)) :=
    [.work, .issue (.request "d"), .issue (.request "e"), .issue (.cancel 4),
      .giveBack, .work, .throw .unsupported]
  let after : List (Move (Op String)) :=
    [.work, .giveBack, .work, .giveBack, .work]
  have course : History (component String) (during threeWaiting.stack Single)
      (threeWaiting.issue (component String) .run) _ _ :=
    .of_foldlM (fun _ _ h => of_decide_eq_true h) .start
      (show frame.foldlM _ _ = _ from rfl)
  have ready : HasControl threeWaiting.stack := hasControl_nil
  rcases failed_frame_loses_what_it_started reaches_threeWaiting ready
    course with
    ⟨_, hresult, _, _, _, hnext⟩
  have second := (hnext _ _ .start hasControl_nil).2 _ _
    (.of_foldlM (fun _ _ h => of_decide_eq_true h) .start
      (show after.foldlM _ _ = _ from rfl))
  rcases second.2 rfl with ⟨hstarted, _, hran⟩
  exact ⟨_, _, _, _, _, course, hresult, rfl, rfl,
    .of_foldlM (fun _ _ h => of_decide_eq_true h) .start
    (show after.foldlM _ _ = _ from rfl), rfl, hstarted, hran⟩

end Frames
end WireView
