import WireView.Proofs.Loop.Conservation
import WireView.Proofs.Reentrant.Course

/-!
# The order in which frame callbacks start

A frame takes its turns by increasing handle, but it is seldom alone: a frame
that runs within it takes over what is left of its turns, and a frame that fails
leaves callbacks pending for later ones.  What ties them together is that a
callback that is pending, and not among the turns of a suspended frame, is
younger than all of these turns.  So the callback that starts next is the oldest
one that is pending.
-/

namespace WireView
namespace Frames

open Reentrant
open Reentrant.Machine

variable {K : Type}

/-- Turns of a frame in their order: whatever else is pending was requested
after all of them. -/
structure Covers (q : FrameQueue K) (todo : List Nat) : Prop where
  increasing : todo.Pairwise (· < ·)
  issued : forall n, n ∈ todo -> n < q.nextHandle
  younger : forall p, p ∈ q.handles -> p ∈ todo ∨ forall n, n ∈ todo -> n < p

namespace Covers

variable {q : FrameQueue K} {todo : List Nat} {n : Nat}

theorem all (h : q.WellFormed) : Covers q q.handles :=
  ⟨h.increasing, h.issued, fun _ hp => .inl hp⟩

theorem request (h : Covers q todo) (k : K) : Covers (q.request k).1 todo := by
  constructor
  · exact h.increasing
  · intro n hn
    exact Nat.lt_succ_of_lt (h.issued n hn)
  · intro p hp
    rw [FrameQueue.handles_request, List.mem_append, List.mem_singleton] at hp
    rcases hp with hp | hp
    · exact h.younger p hp
    · right
      intro n hn
      rw [hp]
      exact h.issued n hn

theorem drop (h : Covers q todo) (n : Nat) : Covers (q.drop n) todo := by
  constructor
  · exact h.increasing
  · exact h.issued
  · intro p hp
    rw [FrameQueue.handles_drop] at hp
    exact h.younger p (List.mem_filter.mp hp).1

theorem tail (h : Covers q (n :: todo)) (spent : n ∉ q.handles) :
    Covers q todo := by
  rcases List.pairwise_cons.mp h.increasing with ⟨_, hincreasing⟩
  constructor
  · exact hincreasing
  · intro p hp
    exact h.issued p (List.mem_cons_of_mem n hp)
  · intro p hp
    rcases h.younger p hp with hmem | hyounger
    · rcases List.mem_cons.mp hmem with heq | hmem
      · exact absurd (heq ▸ hp) spent
      · exact .inl hmem
    · right
      intro i hi
      exact hyounger i (List.mem_cons_of_mem n hi)

theorem oldest (h : Covers q (n :: todo)) {p : Nat} (hp : p ∈ q.handles) :
    n ≤ p := by
  rcases List.pairwise_cons.mp h.increasing with ⟨hfirst, _⟩
  rcases h.younger p hp with hmem | hyounger
  · rcases List.mem_cons.mp hmem with heq | hmem
    · exact Nat.le_of_eq heq.symm
    · exact Nat.le_of_lt (hfirst p hmem)
  · exact Nat.le_of_lt (hyounger n List.mem_cons_self)

theorem effect {t : FrameMoment K} (h : Covers t.machine.world.queue todo)
    (effect : Effect t q) : Covers q todo := by
  cases effect with
  | none pending next hr hs hc =>
      constructor
      · exact h.increasing
      · rw [next]
        exact h.issued
      · unfold FrameQueue.handles
        rw [pending]
        exact h.younger
  | request k queue hr hs hc =>
      rw [queue]
      exact h.request k
  | start n k pending queue hr hs hc =>
      rw [queue]
      exact h.drop n
  | cancel n k pending queue hr hs hc =>
      rw [queue]
      exact h.drop n

end Covers

/-!
# Turns
-/

variable {m n : FrameMachine K} {move : Move (Op K)}

def InOrder (m : FrameMachine K) : Prop :=
  forall todo ran, .work ⟨todo, ran⟩ ∈ m.stack -> Covers m.world.queue todo

theorem turn_of_started {handle : Nat} {k : K}
    (hmove : m.move? (component K) move = some n)
    (hs : started? ⟨m, move⟩ = some (handle, k)) :
    (handle, k) ∈ m.world.queue.pending
      ∧ exists todo ran, .work ⟨handle :: todo, ran⟩ ∈ m.stack := by
  cases move with
  | work =>
      rcases move?_work hmove with ⟨⟨todo, ran⟩, rest, hstack, _⟩
      have hcall :
          (resume ⟨todo, ran⟩ m.world).2.callee? = some ⟨handle, k⟩ := by
        simp only [started?, Moment.call?, hstack, Option.map_eq_some_iff]
          at hs
        rcases hs with ⟨⟨handle', k'⟩, hcall, heq⟩
        cases heq
        exact hcall
      rw [hstack]
      cases todo with
      | nil => cases hcall
      | cons first todo =>
          cases htake : m.world.queue.take first with
          | none =>
              rw [resume_gone htake] at hcall
              cases hcall
          | some taken =>
              rw [resume_taken htake] at hcall
              cases hcall
              exact ⟨(FrameQueue.mem_of_take htake).1, todo, ran,
                List.mem_cons_self⟩
  | issue op =>
      cases op with
      | request k => cases hs
      | cancel handle => cases hs
      | run => cases hs
  | giveBack => cases hs
  | throw e => cases hs

theorem covers_resume {todo todo' : List Nat} {ran ran' : Nat} {w : World K}
    (h : Covers w.queue todo)
    (ht : ⟨todo', ran'⟩ ∈ (resume ⟨todo, ran⟩ w).2.tasks) :
    Covers (resume ⟨todo, ran⟩ w).1.queue todo' := by
  cases todo with
  | nil => cases ht
  | cons first todo =>
      cases htake : w.queue.take first with
      | none =>
          rw [resume_gone htake] at ht ⊢
          cases List.mem_singleton.mp ht
          exact h.tail (FrameQueue.not_mem_of_take htake)
      | some taken =>
          rcases taken with ⟨k, q⟩
          rw [resume_taken htake] at ht ⊢
          cases List.mem_singleton.mp ht
          rw [(FrameQueue.mem_of_take htake).2]
          refine (h.drop first).tail ?_
          rw [FrameQueue.handles_drop]
          simp

theorem inOrder_of_move (queue : m.world.queue.WellFormed) (h : InOrder m)
    (hmove : m.move? (component K) move = some n) : InOrder n := by
  intro todo ran hmem
  rcases work_of_move? hmove hmem with hleft | hbefore
  · cases move with
    | work =>
        rcases move?_work hmove with ⟨⟨todo', ran'⟩, rest, hstack, rfl⟩
        simp only [Moment.leaves, hstack] at hleft
        rw [proceed_world]
        refine covers_resume (h todo' ran' ?_) hleft
        rw [hstack]
        exact List.mem_cons_self
    | issue op =>
        rcases move?_issue hmove with ⟨_, rfl⟩
        cases op with
        | request k => cases hleft
        | cancel handle => cases hleft
        | run =>
            cases List.mem_singleton.mp hleft
            exact .all (FrameQueue.wellFormed_beginFrame queue)
    | giveBack => cases hleft
    | throw e => cases hleft
  · exact (h todo ran hbefore).effect (effect_of_move hmove)

/-!
# Callbacks that have started
-/

/-- The callbacks that have started did so in order, each as the oldest one that
was pending, and whatever is still pending is younger than all of them. -/
structure Ordered (past : List (FrameMoment K)) (q : FrameQueue K) : Prop where
  increasing : (started past).Pairwise fun later earlier => earlier.1 < later.1
  passed : forall e, e ∈ started past -> e.1 < q.nextHandle ∧ forall p,
    p ∈ q.handles -> e.1 < p
  oldest : forall t, t ∈ past -> forall handle k,
    started? t = some (handle, k) ->
    (handle, k) ∈ t.machine.world.queue.pending
      ∧ forall p, p ∈ t.machine.world.queue.handles -> handle ≤ p

theorem Ordered.quiet {past : List (FrameMoment K)} {t : FrameMoment K}
    {q : FrameQueue K} (h : Ordered past t.machine.world.queue)
    (hs : started? t = none) (later : t.machine.world.queue.Later q) :
    Ordered (t :: past) q := by
  have hstarted : started (t :: past) = started past := by
    simp [started, hs]
  constructor
  · rw [hstarted]
    exact h.increasing
  · intro e he
    rw [hstarted] at he
    rcases h.passed e he with ⟨hissued, hpassed⟩
    constructor
    · exact Nat.lt_of_lt_of_le hissued later.next
    · intro p hp
      rcases FrameQueue.mem_handles.mp hp with ⟨c, hc⟩
      rcases later.fresh _ hc with hold | hnew
      · exact hpassed p (FrameQueue.mem_handles.mpr ⟨c, hold⟩)
      · exact Nat.lt_of_lt_of_le hissued hnew
  · intro u hu handle k hstart
    rcases List.mem_cons.mp hu with rfl | hu
    · rw [hs] at hstart
      cases hstart
    · exact h.oldest u hu handle k hstart

theorem Ordered.start {past : List (FrameMoment K)} {t : FrameMoment K}
    {handle : Nat} {k : K} (h : Ordered past t.machine.world.queue)
    (queue : t.machine.world.queue.WellFormed)
    (hs : started? t = some (handle, k))
    (pending : (handle, k) ∈ t.machine.world.queue.pending)
    (oldest : forall p, p ∈ t.machine.world.queue.handles -> handle ≤ p) :
    Ordered (t :: past) (t.machine.world.queue.drop handle) := by
  have hstarted : started (t :: past) = (handle, k) :: started past := by
    simp [started, hs]
  have hmem : handle ∈ t.machine.world.queue.handles :=
    FrameQueue.mem_handles.mpr ⟨k, pending⟩
  constructor
  · rw [hstarted, List.pairwise_cons]
    constructor
    · intro e he
      exact (h.passed e he).2 handle hmem
    · exact h.increasing
  · intro e he
    have hrest : forall p, p ∈ (t.machine.world.queue.drop handle).handles ->
        p ∈ t.machine.world.queue.handles ∧ p ≠ handle := by
      intro p hp
      rw [FrameQueue.handles_drop, List.mem_filter] at hp
      exact ⟨hp.1, of_decide_eq_true hp.2⟩
    rw [hstarted] at he
    rcases List.mem_cons.mp he with rfl | he
    · constructor
      · exact queue.issued handle hmem
      · intro p hp
        rcases hrest p hp with ⟨hp, hne⟩
        exact Nat.lt_of_le_of_ne (oldest p hp) (Ne.symm hne)
    · constructor
      · exact (h.passed e he).1
      · intro p hp
        exact (h.passed e he).2 p (hrest p hp).1
  · intro u hu handle' k' hstart
    rcases List.mem_cons.mp hu with rfl | hu
    · rw [hs] at hstart
      cases hstart
      exact ⟨pending, oldest⟩
    · exact h.oldest u hu handle' k' hstart

theorem ordered_of_move {past : List (FrameMoment K)}
    (queue : m.world.queue.WellFormed) (turns : InOrder m)
    (h : Ordered past m.world.queue)
    (hmove : m.move? (component K) move = some n) :
    Ordered (⟨m, move⟩ :: past) n.world.queue := by
  cases effect_of_move hmove with
  | none pending next hr hs hc =>
      refine h.quiet hs ⟨Nat.le_of_eq next.symm, ?_⟩
      intro e he
      exact .inl (pending ▸ he)
  | request k queue hr hs hc =>
      rw [queue]
      exact h.quiet hs (FrameQueue.later_request _ k)
  | start handle k pending hqueue hr hs hc =>
      rcases turn_of_started hmove hs with ⟨_, todo, ran, hturn⟩
      rw [hqueue]
      refine h.start queue hs pending ?_
      intro p hp
      exact (turns _ ran hturn).oldest hp
  | cancel handle k pending queue hr hs hc =>
      rw [queue]
      exact h.quiet hs (FrameQueue.later_drop _ handle)

theorem ordered_of_history {r : Except Failure Value}
    {past : List (FrameMoment K)}
    (run : History (component K) anyMove ⟨{}, [], r⟩ past m) :
    InOrder m ∧ Ordered past m.world.queue := by
  induction run with
  | start =>
      constructor
      · intro todo ran hmem
        cases hmem
      · constructor
        · exact List.Pairwise.nil
        · intro e he
          cases he
        · intro t ht
          cases ht
  | step hpast _ hmove ih =>
      have queue := (balanced_of_history hpast).wellFormed
      exact ⟨inOrder_of_move queue ih.1 hmove,
        ordered_of_move queue ih.1 ih.2 hmove⟩

/-- Over a whole run, nested frames and failures included, callbacks start by
increasing handle: whenever one is started, it is the pending one with the
smallest handle. -/
theorem callbacks_start_oldest_first {r : Except Failure Value}
    {past : List (FrameMoment K)}
    (run : History (component K) anyMove ⟨{}, [], r⟩ past m) :
    ((inOrder started? past).map Prod.fst).Pairwise (· < ·)
      ∧ forall t, t ∈ past -> forall handle k, started? t = some (handle, k) ->
          (handle, k) ∈ t.machine.world.queue.pending
            ∧ forall p, p ∈ t.machine.world.queue.handles -> handle ≤ p := by
  have h := (ordered_of_history run).2
  constructor
  · have hreverse : inOrder started? past = (started past).reverse := rfl
    rw [hreverse, List.pairwise_map, List.pairwise_reverse]
    exact h.increasing
  · exact h.oldest

/-- The first of three callbacks requests a fourth one and runs a frame itself,
in which the second one fails.  The first one holds this up, and its own frame
goes on with the third. -/
theorem failed_frame_within_a_frame :
    exists past m,
      History (component String) anyMove ⟨{}, [], .ok .nothing⟩ past m
      ∧ inOrder started? past = [(1, "a"), (2, "b"), (3, "c"), (4, "d")]
      ∧ ((inOrder started? past).map Prod.fst).Pairwise (· < ·) := by
  have blank : History (component String) anyMove ⟨{}, [], .ok .nothing⟩ [] _ :=
    .start
  have requests := ((blank.next (.issue (.request "a")) trivial rfl).next
    (.issue (.request "b")) trivial rfl).next (.issue (.request "c")) trivial
      rfl
  have outer :=
    ((requests.next (.issue .run) trivial rfl).next .work trivial rfl).next
      (.issue (.request "d")) trivial rfl
  have inner :=
    ((outer.next (.issue .run) trivial rfl).next .work trivial rfl).next
      (.throw .unsupported) trivial rfl
  have rest :=
    ((((inner.next .giveBack trivial rfl).next .work trivial rfl).next
      .work trivial rfl).next .giveBack trivial rfl).next .work trivial rfl
  have last := (rest.next (.issue .run) trivial rfl).next .work trivial rfl
  exact ⟨_, _, last, rfl, (callbacks_start_oldest_first last).1⟩

end Frames
end WireView
