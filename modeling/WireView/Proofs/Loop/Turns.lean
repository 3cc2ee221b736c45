import WireView.Proofs.Loop.Conservation
import WireView.Proofs.Reentrant.Course

/-!
# The turns of a frame

A frame takes the entries that are pending when it begins as its turns.  While
no other frame runs within it, its course is accounted for by a split of these
entries: those that had their turn were started unless they had been cancelled,
and those that are left are pending unless they have been.  What is requested
meanwhile is pending as well, and waits for another frame.

The account is kept by every move, whatever the callbacks request and cancel.
It is read off when the frame is over, and also when a callback fails.
-/

namespace WireView

namespace FrameQueue

variable {C : Type} {q : FrameQueue C} {n : Nat} {c : C} {rest : List (Nat × C)}

theorem drop_first (h : q.WellFormed) (first : q.pending = (n, c) :: rest) :
    (q.drop n).pending = rest := by
  have hinc := h.increasing
  unfold handles at hinc
  rw [first, List.map_cons, List.pairwise_cons] at hinc
  show q.pending.filter (fun e => e.1 ≠ n) = rest
  rw [first, List.filter_cons_of_neg (by simp)]
  apply List.filter_eq_self.mpr
  intro e he
  exact decide_eq_true (Nat.ne_of_gt (hinc.1 e.1 (List.mem_map_of_mem he)))

theorem take_of_not_mem (h : n ∉ q.handles) : q.take n = none := by
  cases htake : q.take n with
  | none => rfl
  | some taken => exact absurd (mem_handles.mpr ⟨_, (mem_of_take htake).1⟩) h

end FrameQueue

namespace Frames

open Reentrant
open Reentrant.Machine

variable {K : Type}

/-!
# Rules for a frame
-/

def Single (_ : FrameMachine K) (move : Move (Op K)) : Prop :=
  move ≠ .issue .run

instance (m : FrameMachine K) :
    (move : Move (Op K)) -> Decidable (Single m move)
  | .work => .isTrue nofun
  | .issue (.request _) => .isTrue nofun
  | .issue (.cancel _) => .isTrue nofun
  | .issue .run => .isFalse fun h => h rfl
  | .giveBack => .isTrue nofun
  | .throw _ => .isTrue nofun

/-- Moreover no callback fails. -/
def Calm (_ : FrameMachine K) (move : Move (Op K)) : Prop :=
  move ≠ .issue .run ∧ forall e, move ≠ .throw e

instance {m : FrameMachine K} : (move : Move (Op K)) -> Decidable (Calm m move)
  | .work => .isTrue ⟨nofun, nofun⟩
  | .issue (.request _) => .isTrue ⟨nofun, nofun⟩
  | .issue (.cancel _) => .isTrue ⟨nofun, nofun⟩
  | .issue .run => .isFalse fun h => h.1 rfl
  | .giveBack => .isTrue ⟨nofun, nofun⟩
  | .throw e => .isFalse fun h => h.2 e rfl

def Yielding (_ : FrameMachine K) (move : Move (Op K)) : Prop :=
  move = .work ∨ move = .giveBack

/-!
# What every move keeps
-/

section moves

variable {m n : FrameMachine K} {move : Move (Op K)}

theorem Effect.wellFormed {t : FrameMoment K} {q : FrameQueue K}
    (effect : Effect t q) (h : t.machine.world.queue.WellFormed) :
    q.WellFormed := by
  cases effect with
  | none pending next hr hs hc =>
      have hhandles : q.handles = t.machine.world.queue.handles :=
        congrArg (List.map _) pending
      constructor
      · exact hhandles ▸ h.increasing
      · rw [hhandles, next]
        exact h.issued
  | request k queue hr hs hc => exact queue ▸ FrameQueue.wellFormed_request h k
  | start n k pending queue hr hs hc =>
      exact queue ▸ FrameQueue.wellFormed_drop h n
  | cancel n k pending queue hr hs hc =>
      exact queue ▸ FrameQueue.wellFormed_drop h n

theorem Effect.later {t : FrameMoment K} {q : FrameQueue K}
    (effect : Effect t q) :
    t.machine.world.queue.Later q := by
  cases effect with
  | none pending next hr hs hc =>
      exact ⟨Nat.le_of_eq next.symm, fun e he => .inl (pending ▸ he)⟩
  | request k queue hr hs hc => exact queue ▸ FrameQueue.later_request _ k
  | start n k pending queue hr hs hc => exact queue ▸ FrameQueue.later_drop _ n
  | cancel n k pending queue hr hs hc => exact queue ▸ FrameQueue.later_drop _ n

theorem wellFormed_of_history {rule : FrameMachine K -> Move (Op K) -> Prop}
    {past : List (FrameMoment K)} (h : m.world.queue.WellFormed)
    (course : History (component K) rule m past n) :
    n.world.queue.WellFormed := by
  induction course with
  | start => exact h
  | step _ _ hmove ih => exact (effect_of_move hmove).wellFormed ih

theorem frameCount_of_move (hmove : m.move? (component K) move = some n)
    (single : Single m move) :
    n.world.queue.frameCount = m.world.queue.frameCount := by
  cases move with
  | work =>
      rcases move?_work hmove with ⟨⟨todo, ran⟩, rest, _, rfl⟩
      rw [proceed_world]
      show (resume ⟨todo, ran⟩ m.world).1.queue.frameCount = _
      cases todo with
      | nil => rfl
      | cons h todo =>
          cases htake : m.world.queue.take h with
          | none => rw [resume_gone htake]
          | some taken =>
              rw [resume_taken htake, (FrameQueue.mem_of_take htake).2]
              rfl
  | issue op =>
      rcases move?_issue hmove with ⟨_, rfl⟩
      cases op with
      | request k => rfl
      | cancel h =>
          show (m.world.queue.cancel h).frameCount = _
          unfold FrameQueue.cancel
          split <;> rfl
      | run => exact absurd rfl single
  | giveBack =>
      rcases move?_giveBack hmove with ⟨c, rest, _, rfl⟩
      rfl
  | throw e =>
      rcases move?_throw hmove with ⟨c, rest, _, rfl⟩
      rfl

theorem frameCount_of_history {past : List (FrameMoment K)}
    (course : History (component K) Single m past n) :
    n.world.queue.frameCount = m.world.queue.frameCount := by
  induction course with
  | start => rfl
  | step _ hrule hmove ih => exact (frameCount_of_move hmove hrule).trans ih

end moves

/-!
# What was not cancelled
-/

def uncancelled (past : List (FrameMoment K)) (entries : List (Nat × K)) :
    List (Nat × K) :=
  entries.filter fun e => e.1 ∉ (cancelled past).map Prod.fst

section uncancelled

variable {t : FrameMoment K} {past : List (FrameMoment K)} {e : Nat × K}
  {n : Nat} {k : K}

theorem mem_uncancelled {entries : List (Nat × K)} :
    e ∈ uncancelled past entries ↔
      e ∈ entries ∧ e.1 ∉ (cancelled past).map Prod.fst := by
  unfold uncancelled
  rw [List.mem_filter, decide_eq_true_iff]

theorem uncancelled_append (entries more : List (Nat × K)) :
    uncancelled past (entries ++ more) =
      uncancelled past entries ++ uncancelled past more :=
  List.filter_append ..

theorem uncancelled_cons (h : e.1 ∉ (cancelled past).map Prod.fst)
    (entries : List (Nat × K)) :
    uncancelled past (e :: entries) = e :: uncancelled past entries :=
  List.filter_cons_of_pos (decide_eq_true h)

theorem uncancelled_cons_of_cancelled (h : e.1 ∈ (cancelled past).map Prod.fst)
    (entries : List (Nat × K)) :
    uncancelled past (e :: entries) = uncancelled past entries :=
  List.filter_cons_of_neg fun hnot => of_decide_eq_true hnot h

theorem cancelled_quiet (hc : cancelled? t = none) :
    cancelled (t :: past) = cancelled past :=
  List.filterMap_cons_none hc

theorem uncancelled_quiet (hc : cancelled? t = none)
    (entries : List (Nat × K)) :
    uncancelled (t :: past) entries = uncancelled past entries := by
  unfold uncancelled
  rw [cancelled_quiet hc]

theorem uncancelled_cancel (hc : cancelled? t = some (n, k))
    (entries : List (Nat × K)) :
    uncancelled (t :: past) entries = (uncancelled past entries).filter fun e =>
      e.1 ≠ n := by
  have hcancelled : cancelled (t :: past) = (n, k) :: cancelled past :=
    List.filterMap_cons_some hc
  unfold uncancelled
  rw [hcancelled, List.filter_filter]
  apply List.filter_congr
  intro e _
  simp only [List.map_cons, List.mem_cons, not_or, Bool.decide_and]

theorem uncancelled_of_none (h : cancelled past = [])
    (entries : List (Nat × K)) :
    uncancelled past entries = entries := by
  unfold uncancelled
  rw [h]
  exact List.filter_eq_self.mpr fun e _ => decide_eq_true List.not_mem_nil

end uncancelled

/-!
# The account of a frame
-/

def turn? (t : FrameMoment K) : Option Nat :=
  match t.move, t.machine.stack with
  | .work, .work ⟨h :: _, _⟩ :: _ => some h
  | _, _ => none

/-- The entries that were pending when a frame began, split into those that had
their turn and those that are left, and what became of either. -/
structure Account (q : FrameQueue K) (past : List (FrameMoment K))
    (had left : List (Nat × K)) (r : FrameQueue K) : Prop where
  split : q.pending = had ++ left
  turns : inOrder turn? past = had.map Prod.fst
  starts : inOrder started? past = uncancelled past had
  pending :
    r.pending =
      uncancelled past left ++ uncancelled past (inOrder requested? past)
  next : q.nextHandle ≤ r.nextHandle
  young : forall e, e ∈ inOrder requested? past -> q.nextHandle ≤ e.1
  issued : forall e, e ∈ cancelled past -> e.1 < r.nextHandle

namespace Account

variable {q : FrameQueue K} {past : List (FrameMoment K)}
  {had left : List (Nat × K)}
variable {t : FrameMoment K} {n : Nat} {k : K}

theorem passed {r : FrameQueue K} (h : Account q past had left r)
    (queue : q.WellFormed) {e : Nat × K} (he : e ∈ had) : e.1 ∉ r.handles := by
  have hinc := queue.increasing
  unfold FrameQueue.handles at hinc
  rw [h.split, List.map_append, List.pairwise_append] at hinc
  have hissued : e.1 < q.nextHandle := by
    apply queue.issued
    unfold FrameQueue.handles
    rw [h.split]
    exact List.mem_map_of_mem (List.mem_append_left left he)
  intro hmem
  rcases FrameQueue.mem_handles.mp hmem with ⟨c, hc⟩
  rw [h.pending, List.mem_append] at hc
  rcases hc with hleft | hrequested
  · have hagain : e.1 ∈ left.map Prod.fst :=
      List.mem_map.mpr ⟨(e.1, c), (mem_uncancelled.mp hleft).1, rfl⟩
    exact Nat.lt_irrefl _ (hinc.2.2 e.1 (List.mem_map_of_mem he) e.1 hagain)
  · exact Nat.not_lt_of_le (h.young _ (mem_uncancelled.mp hrequested).1) hissued

theorem quiet {r : FrameQueue K}
    (h : Account q past had left t.machine.world.queue)
    (pending : r.pending = t.machine.world.queue.pending)
    (next : r.nextHandle = t.machine.world.queue.nextHandle)
    (hturn : turn? t = none) (hr : requested? t = none) (hs : started? t = none)
    (hc : cancelled? t = none) :
    Account q (t :: past) had left r := by
  constructor
  · exact h.split
  · rw [inOrder_cons_none hturn]
    exact h.turns
  · rw [inOrder_cons_none hs, uncancelled_quiet hc]
    exact h.starts
  · rw [inOrder_cons_none hr, uncancelled_quiet hc, uncancelled_quiet hc,
      pending]
    exact h.pending
  · rw [next]
    exact h.next
  · rw [inOrder_cons_none hr]
    exact h.young
  · rw [cancelled_quiet hc, next]
    exact h.issued

theorem request (h : Account q past had left t.machine.world.queue)
    (hturn : turn? t = none)
    (hr : requested? t = some (t.machine.world.queue.nextHandle, k))
    (hs : started? t = none) (hc : cancelled? t = none) :
    Account q (t :: past) had left (t.machine.world.queue.request k).1 := by
  have hnew :
      t.machine.world.queue.nextHandle ∉ (cancelled past).map Prod.fst := by
    intro hmem
    rcases List.mem_map.mp hmem with ⟨e, he, heq⟩
    exact absurd (h.issued e he) (heq ▸ Nat.lt_irrefl _)
  constructor
  · exact h.split
  · rw [inOrder_cons_none hturn]
    exact h.turns
  · rw [inOrder_cons_none hs, uncancelled_quiet hc]
    exact h.starts
  · show t.machine.world.queue.pending ++ [_] = _
    rw [inOrder_cons_some hr, uncancelled_quiet hc, uncancelled_quiet hc,
      uncancelled_append, uncancelled_cons hnew, ← List.append_assoc,
      ← h.pending]
    rfl
  · exact Nat.le_succ_of_le h.next
  · intro e he
    rw [inOrder_cons_some hr, List.mem_append, List.mem_singleton] at he
    rcases he with he | rfl
    · exact h.young e he
    · exact h.next
  · rw [cancelled_quiet hc]
    intro e he
    exact Nat.lt_succ_of_lt (h.issued e he)

theorem cancel (h : Account q past had left t.machine.world.queue)
    (queue : q.WellFormed) (wellFormed : t.machine.world.queue.WellFormed)
    (pending : (n, k) ∈ t.machine.world.queue.pending) (hturn : turn? t = none)
    (hr : requested? t = none) (hs : started? t = none)
    (hc : cancelled? t = some (n, k)) :
    Account q (t :: past) had left (t.machine.world.queue.drop n) := by
  have hmem : n ∈ t.machine.world.queue.handles :=
    FrameQueue.mem_handles.mpr ⟨k, pending⟩
  constructor
  · exact h.split
  · rw [inOrder_cons_none hturn]
    exact h.turns
  · rw [inOrder_cons_none hs, uncancelled_cancel hc, h.starts]
    symm
    apply List.filter_eq_self.mpr
    intro e he
    -- the cancelled entry is still pending, so it has not had its turn
    apply decide_eq_true
    intro heq
    exact h.passed queue (mem_uncancelled.mp he).1 (heq ▸ hmem)
  · rw [inOrder_cons_none hr, uncancelled_cancel hc, uncancelled_cancel hc,
      ← List.filter_append, ← h.pending]
    rfl
  · exact h.next
  · rw [inOrder_cons_none hr]
    exact h.young
  · intro e he
    have hcancelled : cancelled (t :: past) = (n, k) :: cancelled past :=
      List.filterMap_cons_some hc
    rw [hcancelled, List.mem_cons] at he
    rcases he with rfl | he
    · exact wellFormed.issued n hmem
    · exact h.issued e he

theorem skip (h : Account q past had ((n, k) :: left) t.machine.world.queue)
    (gone : n ∈ (cancelled past).map Prod.fst) (hturn : turn? t = some n)
    (hr : requested? t = none) (hs : started? t = none)
    (hc : cancelled? t = none) :
    Account q (t :: past) (had ++ [(n, k)]) left t.machine.world.queue := by
  constructor
  · rw [h.split, List.append_assoc]
    rfl
  · rw [inOrder_cons_some hturn, h.turns, List.map_append]
    rfl
  · rw [inOrder_cons_none hs, uncancelled_quiet hc, uncancelled_append,
      uncancelled_cons_of_cancelled gone, h.starts]
    exact (List.append_nil _).symm
  · rw [inOrder_cons_none hr, uncancelled_quiet hc, uncancelled_quiet hc,
      h.pending, uncancelled_cons_of_cancelled gone]
  · exact h.next
  · rw [inOrder_cons_none hr]
    exact h.young
  · rw [cancelled_quiet hc]
    exact h.issued

theorem start (h : Account q past had ((n, k) :: left) t.machine.world.queue)
    (wellFormed : t.machine.world.queue.WellFormed)
    (still : n ∉ (cancelled past).map Prod.fst) (hturn : turn? t = some n)
    (hr : requested? t = none) (hs : started? t = some (n, k))
    (hc : cancelled? t = none) :
    Account q (t :: past) (had ++ [(n, k)]) left
      (t.machine.world.queue.drop n) := by
  constructor
  · rw [h.split, List.append_assoc]
    rfl
  · rw [inOrder_cons_some hturn, h.turns, List.map_append]
    rfl
  · rw [inOrder_cons_some hs, uncancelled_quiet hc, uncancelled_append,
      uncancelled_cons still, h.starts]
    rfl
  · rw [inOrder_cons_none hr, uncancelled_quiet hc, uncancelled_quiet hc]
    apply FrameQueue.drop_first wellFormed
    rw [h.pending, uncancelled_cons still]
    rfl
  · exact h.next
  · rw [inOrder_cons_none hr]
    exact h.young
  · rw [cancelled_quiet hc]
    exact h.issued

theorem outside {r : FrameQueue K}
    (h : Account q past had left t.machine.world.queue) (queue : q.WellFormed)
    (wellFormed : t.machine.world.queue.WellFormed) (effect : Effect t r)
    (hturn : turn? t = none) (hs : started? t = none) :
    Account q (t :: past) had left r := by
  cases effect with
  | none pending next hr _ hc => exact h.quiet pending next hturn hr hs hc
  | request k queue' hr _ hc => exact queue' ▸ h.request hturn hr hs hc
  | start n k pending queue' hr hs' hc =>
      rw [hs] at hs'
      cases hs'
  | cancel n k pending queue' hr _ hc =>
      exact queue' ▸ h.cancel queue wellFormed pending hturn hr hs hc

theorem take_first {w : World K}
    (h : Account q past had ((n, k) :: left) w.queue)
    (wellFormed : w.queue.WellFormed)
    (still : n ∉ (cancelled past).map Prod.fst) :
    w.queue.take n = some (k, w.queue.drop n) := by
  apply FrameQueue.take_of_mem wellFormed
  rw [h.pending]
  exact List.mem_append_left _ (mem_uncancelled.mpr ⟨List.mem_cons_self, still⟩)

theorem take_cancelled {r : FrameQueue K} (h : Account q past had left r)
    (gone : n ∈ (cancelled past).map Prod.fst) : r.take n = none := by
  apply FrameQueue.take_of_not_mem
  intro hmem
  rcases FrameQueue.mem_handles.mp hmem with ⟨c, hc⟩
  rw [h.pending, List.mem_append] at hc
  rcases hc with hc | hc
  · exact (mem_uncancelled.mp hc).2 gone
  · exact (mem_uncancelled.mp hc).2 gone

end Account

/-!
# The stages of a frame
-/

/-- The stages of a frame that was issued on a stack and has turns left. -/
inductive Stage (base : List (Level Task (Callee K)))
    (past : List (FrameMoment K)) (left : List (Nat × K)) (n : FrameMachine K) :
    Prop where
  | between
      (stack : n.stack =
        .work ⟨left.map Prod.fst, (inOrder started? past).length⟩ :: base)
  | inside (c : Callee K)
      (last : (inOrder started? past).getLast? = some (c.handle, c.callback))
      (stack : n.stack = .outside c
        :: .work ⟨left.map Prod.fst, (inOrder started? past).length⟩ :: base)
  | finished (ended : left = []) (stack : n.stack = base)
      (result : n.result = .ok (.ran (inOrder started? past).length))
  | cut (e : Failure) (prev : FrameMachine K) (earlier : List (FrameMoment K))
      (raised : past = ⟨prev, .throw e⟩ :: earlier) (stack : n.stack = base)

def Underway (q : FrameQueue K) (base : List (Level Task (Callee K)))
    (past : List (FrameMoment K)) (n : FrameMachine K) : Prop :=
  exists had left,
    Account q past had left n.world.queue ∧ Stage base past left n

section stages

variable {q : FrameQueue K} {base : List (Level Task (Callee K))}
variable {past : List (FrameMoment K)} {had left : List (Nat × K)}
variable {m n : FrameMachine K} {move : Move (Op K)}

theorem underway_of_last (account : Account q past had [] n.world.queue)
    (stack : n.stack = .work ⟨[], (inOrder started? past).length⟩ :: base) :
    Underway q base (⟨n, .work⟩ :: past)
      (n.proceed base
        ((component K).resume ⟨[], (inOrder started? past).length⟩
          n.world)) := by
  have hturn : turn? (⟨n, .work⟩ : FrameMoment K) = none := by
    simp only [turn?, stack]
  have hs : started? (⟨n, .work⟩ : FrameMoment K) = none := by
    simp only [started?, Moment.call?, stack]
    rfl
  refine ⟨had, [], account.quiet rfl rfl hturn rfl hs rfl, .finished rfl rfl ?_⟩
  rw [inOrder_cons_none hs]
  rfl

theorem underway_of_turn {h : Nat} {k : K}
    (wellFormed : n.world.queue.WellFormed)
    (account : Account q past had ((h, k) :: left) n.world.queue)
    (stack : n.stack =
      .work ⟨h :: left.map Prod.fst, (inOrder started? past).length⟩ :: base) :
    Underway q base (⟨n, .work⟩ :: past) (n.proceed base
      ((component K).resume
        ⟨h :: left.map Prod.fst, (inOrder started? past).length⟩ n.world)) := by
  have hturn : turn? (⟨n, .work⟩ : FrameMoment K) = some h := by
    simp only [turn?, stack]
  have hcall : started? (⟨n, .work⟩ : FrameMoment K) =
      ((resume ⟨h :: left.map Prod.fst, (inOrder started? past).length⟩
        n.world).2.callee?).map
        fun c => (c.handle, c.callback) := by
    simp only [started?, Moment.call?, stack]
    rfl
  show Underway q base _ (n.proceed base (resume _ n.world))
  by_cases gone : h ∈ (cancelled past).map Prod.fst
  · rw [resume_gone (account.take_cancelled gone)] at hcall ⊢
    refine ⟨had ++ [(h, k)], left, ?_, .between ?_⟩
    · exact account.skip gone hturn rfl hcall rfl
    · rw [inOrder_cons_none hcall]
      rfl
  · rw [resume_taken (account.take_first wellFormed gone)] at hcall ⊢
    refine ⟨had ++ [(h, k)], left, ?_, .inside ⟨h, k⟩ ?_ ?_⟩
    · exact account.start wellFormed gone hturn rfl hcall rfl
    · rw [inOrder_cons_some hcall, List.getLast?_concat]
    · rw [inOrder_cons_some hcall, List.length_append]
      rfl

theorem underway_of_inside (ready : HasControl base) (queue : q.WellFormed)
    (wellFormed : n.world.queue.WellFormed)
    (account : Account q past had left n.world.queue) {c : Callee K}
    (last : (inOrder started? past).getLast? = some (c.handle, c.callback))
    (stack : n.stack =
      .outside c :: .work ⟨left.map Prod.fst, (inOrder started? past).length⟩ ::
        base)
    (single : Single n move) (hmove : n.move? (component K) move = some m) :
    Underway q base (⟨n, move⟩ :: past) m := by
  have hturn : turn? (⟨n, move⟩ : FrameMoment K) = none := by
    simp only [turn?, stack]
  have hs : started? (⟨n, move⟩ : FrameMoment K) = none := by
    cases move with
    | work =>
        rcases move?_work hmove with ⟨t, rest, hs, _⟩
        cases stack.symm.trans hs
    | issue op => cases op <;> rfl
    | giveBack => rfl
    | throw e => rfl
  refine ⟨had, left,
    account.outside queue wellFormed (effect_of_move hmove) hturn hs, ?_⟩
  have hstarted :
      inOrder started? (⟨n, move⟩ :: past) = inOrder started? past :=
    inOrder_cons_none hs
  cases move with
  | work =>
      rcases move?_work hmove with ⟨t, rest, hs, _⟩
      cases stack.symm.trans hs
  | issue op =>
      rcases move?_issue hmove with ⟨_, rfl⟩
      refine .inside c (hstarted ▸ last) ?_
      rw [hstarted]
      unfold issue
      rw [proceed_stack, stack]
      cases op with
      | request k => rfl
      | cancel h => rfl
      | run => exact absurd rfl single
  | giveBack =>
      rcases move?_giveBack hmove with ⟨c', rest, hs, rfl⟩
      cases stack.symm.trans hs
      exact .between (hstarted ▸ rfl)
  | throw e =>
      rcases move?_throw hmove with ⟨c', rest, hs, rfl⟩
      cases stack.symm.trans hs
      exact .cut e n past rfl (unwind_of_hasControl ready)

theorem underway_of_move (ready : HasControl base) (queue : q.WellFormed)
    (wellFormed : n.world.queue.WellFormed) (h : Underway q base past n)
    (allowed : during base Single n move)
    (hmove : n.move? (component K) move = some m) :
    Underway q base (⟨n, move⟩ :: past) m := by
  rcases h with ⟨had, left, account, stage⟩
  cases stage with
  | between stack =>
      rcases move?_under_work hmove stack with ⟨rfl, rfl⟩
      cases left with
      | nil => exact underway_of_last account stack
      | cons e left => exact underway_of_turn wellFormed account stack
  | inside c last stack =>
      exact underway_of_inside ready queue wellFormed account last stack
        allowed.1 hmove
  | finished ended stack result =>
      exact absurd stack (stack_ne_of_during allowed)
  | cut e prev earlier raised stack =>
      exact absurd stack (stack_ne_of_during allowed)

theorem underway_of_course (queue : m.world.queue.WellFormed)
    (ready : HasControl m.stack)
    (course : History (component K) (during m.stack Single)
      (m.issue (component K) .run) past n) :
    Underway m.world.queue m.stack past n := by
  induction course with
  | start =>
      refine ⟨[], m.world.queue.pending, ?_, .between rfl⟩
      constructor
      · rfl
      · rfl
      · rfl
      · show m.world.queue.pending = uncancelled [] m.world.queue.pending ++ []
        rw [uncancelled_of_none rfl, List.append_nil]
      · exact Nat.le_refl _
      · intro e he
        cases he
      · intro e he
        cases he
  | step hpast hrule hmove ih =>
      have hbegun : (m.issue (component K) .run).world.queue.WellFormed :=
        FrameQueue.wellFormed_beginFrame queue
      exact underway_of_move ready queue (wellFormed_of_history hbegun hpast) ih
        hrule hmove

section yielding

variable {w : World K} {rest : List (Level Task (Callee K))}
  {r : Except Failure Value}

theorem yielding_work {t : Task} (above : base.length ≤ rest.length) :
    Reaches (component K) (during base Yielding) ⟨w, .work t :: rest, r⟩
      (proceed rest ⟨w, .work t :: rest, r⟩ ((component K).resume t w)) :=
  Reaches.refl.step ⟨.inl rfl, Nat.lt_succ_of_le above⟩ rfl

theorem yielding_giveBack {c : Callee K} (above : base.length ≤ rest.length) :
    Reaches (component K) (during base Yielding) ⟨w, .outside c :: rest, r⟩
      ⟨w, rest, .ok (component K).returned⟩ :=
  Reaches.refl.step ⟨.inr rfl, Nat.lt_succ_of_le above⟩ rfl

theorem frame_ends (todo : List Nat) (ran : Nat) :
    exists k,
      Reaches (component K) (during base Yielding)
        ⟨w, .work ⟨todo, ran⟩ :: base, r⟩ k
      ∧ k.stack = base := by
  induction todo generalizing w ran r with
  | nil => exact ⟨_, yielding_work (Nat.le_refl _), rfl⟩
  | cons h todo ih =>
      have hfirst : Reaches (component K) (during base Yielding)
          ⟨w, .work ⟨h :: todo, ran⟩ :: base, r⟩ _ :=
            yielding_work (Nat.le_refl _)
      cases htake : w.queue.take h with
      | none =>
          have hresume : (component K).resume ⟨h :: todo, ran⟩ w = _ :=
            resume_gone htake todo ran
          rw [hresume] at hfirst
          rcases ih ran with ⟨k, hrest, hk⟩
          exact ⟨k, hfirst.trans hrest, hk⟩
      | some taken =>
          have hresume : (component K).resume ⟨h :: todo, ran⟩ w = _ :=
            resume_taken htake todo ran
          rw [hresume] at hfirst
          have hback := hfirst.trans (yielding_giveBack (Nat.le_succ _))
          rcases ih (ran + 1) with ⟨k, hrest, hk⟩
          exact ⟨k, hback.trans hrest, hk⟩

end yielding

theorem Underway.ends (h : Underway q base past n) :
    exists k,
      Reaches (component K) (during base Yielding) n k ∧ k.stack = base := by
  rcases h with ⟨had, left, _, stage⟩
  rcases n with ⟨w, level, r⟩
  cases stage with
  | between stack =>
      cases stack
      exact frame_ends _ _
  | inside c last stack =>
      cases stack
      rcases frame_ends (left.map Prod.fst) (inOrder started? past).length with
        ⟨k, hrest, hk⟩
      exact ⟨k, (yielding_giveBack (Nat.le_succ _)).trans hrest, hk⟩
  | finished ended stack result => exact ⟨_, .refl, stack⟩
  | cut e prev earlier raised stack => exact ⟨_, .refl, stack⟩

end stages

/-!
# What a frame runs
-/

/-- A cancel of the handle is issued before its turn comes. -/
def CancelledInTime (past : List (FrameMoment K)) (handle : Nat) : Prop :=
  exists later t earlier,
    past = later ++ t :: earlier ∧ t.move = .issue (.cancel handle)
    ∧ handle ∉ inOrder turn? earlier

section frames

variable {past : List (FrameMoment K)} {m n : FrameMachine K}

theorem cancelled?_eq_some {t : FrameMoment K} {e : Nat × K}
    (h : cancelled? t = some e) :
    t.move = .issue (.cancel e.1) ∧ e ∈ t.machine.world.queue.pending := by
  unfold cancelled? at h
  split at h
  · rename_i handle hmove
    have hhandle : (e.1 : Int) = handle :=
      of_decide_eq_true (List.find?_some h :)
    exact ⟨hhandle ▸ hmove, List.mem_of_find?_eq_some h⟩
  · cases h

theorem exists_cancelled? {t : FrameMoment K} {e : Nat × K}
    (hmove : t.move = .issue (.cancel e.1))
    (pending : e ∈ t.machine.world.queue.pending) :
    exists k, cancelled? t = some (e.1, k) := by
  cases hfind : t.machine.world.queue.pending.find? fun x =>
    (x.1 : Int) = e.1 with
  | none =>
      exact absurd (decide_eq_true rfl) (List.find?_eq_none.mp hfind e pending)
  | some x =>
      rcases x with ⟨handle, k⟩
      have hhandle : (handle : Int) = e.1 :=
        of_decide_eq_true (List.find?_some hfind :)
      refine ⟨k, ?_⟩
      unfold cancelled?
      rw [hmove]
      show t.machine.world.queue.pending.find? _ = _
      rw [hfind, Int.ofNat_inj.mp hhandle]

/-- Of the entries pending when a frame begins, those are cancelled for which a
cancel is issued before their turn. -/
theorem cancelled_iff_in_time (queue : m.world.queue.WellFormed)
    (ready : HasControl m.stack)
    (course : History (component K) (during m.stack Single)
      (m.issue (component K) .run) past n)
    {e : Nat × K} (he : e ∈ m.world.queue.pending) :
    e.1 ∈ (cancelled past).map Prod.fst ↔ CancelledInTime past e.1 := by
  constructor
  · intro hmem
    rcases List.mem_map.mp hmem with ⟨x, hx, heq⟩
    rcases List.mem_filterMap.mp hx with ⟨t, ht, hc⟩
    rcases List.append_of_mem ht with ⟨later, earlier, rfl⟩
    rcases cancelled?_eq_some hc with ⟨hmove, hpending⟩
    refine ⟨later, t, earlier, rfl, heq ▸ hmove, ?_⟩
    rcases course.upTo with ⟨k, hupTo⟩
    cases hupTo with
    | step hearlier _ _ =>
        rcases underway_of_course queue ready hearlier with
          ⟨had, left, account, _⟩
        intro hturn
        rw [account.turns] at hturn
        rcases List.mem_map.mp hturn with ⟨y, hy, hye⟩
        apply account.passed queue hy
        rw [hye, ← heq]
        exact List.mem_map_of_mem hpending
  · rintro ⟨later, t, earlier, rfl, hmove, hturn⟩
    have hsplit :
        cancelled (later ++ t :: earlier) =
          cancelled later ++ cancelled (t :: earlier) :=
      List.filterMap_append
    rw [hsplit, List.map_append]
    apply List.mem_append_right
    rcases course.upTo with ⟨k, hupTo⟩
    cases hupTo with
    | step hearlier _ _ =>
        rcases underway_of_course queue ready hearlier with
          ⟨had, left, account, _⟩
        have hleft : e ∈ left := by
          rw [account.split, List.mem_append] at he
          refine he.resolve_left fun hhad => hturn ?_
          rw [account.turns]
          exact List.mem_map_of_mem hhad
        by_cases hgone : e.1 ∈ (cancelled earlier).map Prod.fst
        · exact ((List.sublist_cons_self _ _).filterMap _ |>.map _).mem hgone
        · rcases exists_cancelled? hmove (account.pending ▸
            List.mem_append_left _ (mem_uncancelled.mpr ⟨hleft, hgone⟩)) with
              ⟨k, hc⟩
          have hnow :
              cancelled (⟨_, _⟩ :: earlier) = (e.1, k) :: cancelled earlier :=
            List.filterMap_cons_some hc
          rw [hnow]
          exact List.mem_cons_self

/-- What a frame comes to that no callback cuts short. -/
theorem outcome_of_course (queue : m.world.queue.WellFormed)
    (ready : HasControl m.stack)
    (course : History (component K) (during m.stack Calm)
      (m.issue (component K) .run) past n)
    (ended : n.stack = m.stack) :
    inOrder started? past = uncancelled past m.world.queue.pending
      ∧ n.result = .ok (.ran (inOrder started? past).length)
      ∧ n.world.queue.pending = uncancelled past (inOrder requested? past) := by
  have hsingle :
      History (component K) (during m.stack Single) (m.issue (component K) .run)
        past n :=
    course.weaken fun _ _ h => ⟨h.1.1, h.2⟩
  rcases underway_of_course queue ready hsingle with ⟨had, left, account, stage⟩
  cases stage with
  | between stack =>
      rw [stack] at ended
      exact absurd ended (List.cons_ne_self _ _)
  | inside c last stack =>
      have hlength := congrArg List.length (stack.symm.trans ended)
      simp only [List.length_cons] at hlength
      omega
  | finished none stack result =>
      subst none
      refine ⟨?_, result, account.pending⟩
      rw [account.starts, account.split, List.append_nil]
  | cut e prev earlier raised stack =>
      subst raised
      cases course with
      | step _ hrule _ => exact absurd rfl (hrule.1.2 e)

/-- A frame in which no frame runs and no callback fails counts itself first,
comes to its end when its callbacks return, and then has started, in order,
exactly the entries that were pending when it began and for which no cancel was
issued before their turn.  It returns their number, and leaves pending exactly
what was requested meanwhile and not cancelled.  No callback is started more
often than it was pending at the beginning. -/
theorem frame_runs_what_was_pending [DecidableEq K] {r : Except Failure Value}
    (reached : Reaches (component K) anyMove ⟨{}, [], r⟩ m)
    (ready : HasControl m.stack)
    (course : History (component K) (during m.stack Calm)
      (m.issue (component K) .run) past n) :
    n.world.queue.frameCount = m.world.queue.frameCount + 1
      ∧ (exists k,
        Reaches (component K) (during m.stack Yielding) n k ∧ k.stack = m.stack)
      ∧ (n.stack = m.stack ->
          inOrder started? past = uncancelled past m.world.queue.pending
            ∧ (forall e, e ∈ m.world.queue.pending ->
                (e ∈ inOrder started? past ↔ ¬ CancelledInTime past e.1))
            ∧ n.result = .ok (.ran (inOrder started? past).length)
            ∧ n.world.queue.pending = uncancelled past (inOrder requested? past)
            ∧ forall k, ((inOrder started? past).map Prod.snd).count k
                ≤ (m.world.queue.pending.map Prod.snd).count k) := by
  rcases History.exists_of_reaches reached with ⟨before, hbefore⟩
  have queue := (balanced_of_history hbefore).wellFormed
  have hsingle :
      History (component K) (during m.stack Single) (m.issue (component K) .run)
        past n :=
    course.weaken fun _ _ h => ⟨h.1.1, h.2⟩
  refine ⟨?_, (underway_of_course queue ready hsingle).ends, fun ended => ?_⟩
  · exact frameCount_of_history (hsingle.weaken fun _ _ h => h.1)
  · rcases outcome_of_course queue ready course ended with
      ⟨hstarted, hresult, hpending⟩
    refine ⟨hstarted, fun e he => ?_, hresult, hpending, fun k => ?_⟩
    · rw [hstarted, mem_uncancelled,
        cancelled_iff_in_time queue ready hsingle he]
      exact and_iff_right he
    · rw [hstarted]
      exact (List.filter_sublist.map Prod.snd).count_le k

end frames

def threeWaiting : FrameMachine String :=
  ⟨{ queue := { nextHandle := 4, pending := [(1, "a"), (2, "b"), (3, "c")] } },
   [], .ok (.handle 3)⟩

theorem reaches_threeWaiting :
    Reaches (component String) anyMove ⟨{}, [], .ok .nothing⟩ threeWaiting := by
  let requests : List (Move (Op String)) :=
    [.issue (.request "a"), .issue (.request "b"), .issue (.request "c")]
  have every : forall (k : FrameMachine String) (move : Move (Op String)),
      true = true -> anyMove k move := fun _ _ _ => trivial
  exact reaches_of_foldlM every (show requests.foldlM _ _ = _ from rfl)

/-- The first callback cancels the third, requests itself anew and cancels
itself too late, and the second one takes back a request. -/
theorem frame_of_requests_and_cancels :
    exists past n, History (component String) (during threeWaiting.stack Calm)
        (threeWaiting.issue (component String) .run) past n
      ∧ n.stack = threeWaiting.stack
      ∧ inOrder started? past = [(1, "a"), (2, "b")]
      ∧ n.world.queue.pending = [(4, "a")]
      ∧ n.result = .ok (.ran 2)
      ∧ n.world.queue.frameCount = threeWaiting.world.queue.frameCount + 1 := by
  let frame : List (Move (Op String)) :=
    [.work, .issue (.cancel 3), .issue (.request "a"), .issue (.cancel 1),
      .giveBack, .work, .issue (.request "d"), .issue (.cancel 5), .giveBack,
      .work, .work]
  have course : History (component String) (during threeWaiting.stack Calm)
      (threeWaiting.issue (component String) .run) _ _ :=
    .of_foldlM (fun _ _ h => of_decide_eq_true h) .start
      (show frame.foldlM _ _ = _ from rfl)
  have ready : HasControl threeWaiting.stack := hasControl_nil
  rcases (frame_runs_what_was_pending reaches_threeWaiting ready course).2.2
    rfl with
    ⟨hstarted, _, hresult, hpending, _⟩
  refine ⟨_, _, course, rfl, hstarted, hpending, hresult, ?_⟩
  exact (frame_runs_what_was_pending reaches_threeWaiting ready course).1

end Frames
end WireView
