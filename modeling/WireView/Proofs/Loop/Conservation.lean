import WireView.Loop.Frames
import WireView.Proofs.Loop.Queue
import WireView.Proofs.Reentrant.History

/-!
# Conservation of frame callbacks

Every entry that was ever requested is pending, or its callback has been called,
or it was withdrawn while it was pending.  The history of a frame queue shows
this as a balance: the pending entries, the started ones and the cancelled ones
are together the requested ones in another order.  Since handles are issued in
increasing order, no handle occurs twice on either side.

Callbacks may use the queue themselves, and frames may nest and be cut short by
a failure.  None of this matters to the balance, which every single move keeps.
-/

namespace WireView
namespace Frames

open Reentrant
open Reentrant.Machine

variable {K : Type}

abbrev FrameMachine (K : Type) : Type :=
  Machine (World K) Task (Callee K) Value

abbrev FrameMoment (K : Type) : Type :=
  Moment (World K) (Op K) Task (Callee K) Value

/-!
# What a history tells
-/

/-- The entry that a request makes, under the handle that it returns. -/
def requested? (t : FrameMoment K) : Option (Nat × K) :=
  match t.move with
  | .issue (.request k) =>
      match (t.machine.issue (component K) (.request k)).result with
      | .ok (.handle n) => some (n, k)
      | _ => none
  | _ => none

def started? (t : FrameMoment K) : Option (Nat × K) :=
  (t.call? (component K)).map fun c => (c.handle, c.callback)

def cancelled? (t : FrameMoment K) : Option (Nat × K) :=
  match t.move with
  | .issue (.cancel n) =>
      t.machine.world.queue.pending.find? fun e => (e.1 : Int) = n
  | _ => none

def requested (past : List (FrameMoment K)) : List (Nat × K) :=
  past.filterMap requested?

def started (past : List (FrameMoment K)) : List (Nat × K) :=
  past.filterMap started?

def cancelled (past : List (FrameMoment K)) : List (Nat × K) :=
  past.filterMap cancelled?

/-- The handles of entries, as whole numbers like those that a cancel is
given. -/
def handlesIn (entries : List (Nat × K)) : List Int :=
  entries.map fun e => (e.1 : Int)

/-!
# What a move does to the queue
-/

/-- The ways in which a moment can change the queue, and what the history keeps
of each. -/
inductive Effect (t : FrameMoment K) (q : FrameQueue K) : Prop where
  | none
      (pending : q.pending = t.machine.world.queue.pending)
      (next : q.nextHandle = t.machine.world.queue.nextHandle)
      (hr : requested? t = none) (hs : started? t = none)
      (hc : cancelled? t = none)
  | request (k : K)
      (queue : q = (t.machine.world.queue.request k).1)
      (hr : requested? t = some (t.machine.world.queue.nextHandle, k))
      (hs : started? t = none) (hc : cancelled? t = none)
  | start (n : Nat) (k : K)
      (pending : (n, k) ∈ t.machine.world.queue.pending)
      (queue : q = t.machine.world.queue.drop n)
      (hr : requested? t = none) (hs : started? t = some (n, k))
      (hc : cancelled? t = none)
  | cancel (n : Nat) (k : K)
      (pending : (n, k) ∈ t.machine.world.queue.pending)
      (queue : q = t.machine.world.queue.drop n)
      (hr : requested? t = none) (hs : started? t = none)
      (hc : cancelled? t = some (n, k))

theorem cancel_of_not_pending {q : FrameQueue K} {n : Int}
    (h : n ∉ handlesIn q.pending) : q.cancel n = q := by
  unfold FrameQueue.cancel
  split
  · rename_i hn
    apply FrameQueue.drop_of_not_mem
    intro hmem
    rcases FrameQueue.mem_handles.mp hmem with ⟨k, hk⟩
    exact h (List.mem_map.mpr ⟨(n.toNat, k), hk, Int.toNat_of_nonneg hn⟩)
  · rfl

theorem effect_cancel (m : FrameMachine K) (n : Int) :
    Effect ⟨m, .issue (.cancel n)⟩ (m.world.queue.cancel n) := by
  cases hfind : m.world.queue.pending.find? fun e => (e.1 : Int) = n with
  | none =>
      have hout : n ∉ handlesIn m.world.queue.pending := by
        intro hmem
        rcases List.mem_map.mp hmem with ⟨e, he, heq⟩
        exact absurd (decide_eq_true heq) (List.find?_eq_none.mp hfind e he)
      rw [cancel_of_not_pending hout]
      exact .none rfl rfl rfl rfl hfind
  | some e =>
      rcases e with ⟨k, c⟩
      have hmem := List.mem_of_find?_eq_some hfind
      have hk : (k : Int) = n := of_decide_eq_true (List.find?_some hfind :)
      subst hk
      exact .cancel k c hmem rfl rfl rfl hfind

theorem effect_work {m : FrameMachine K} {t : Task}
    {rest : List (Level Task (Callee K))} (hstack : m.stack = .work t :: rest) :
    Effect ⟨m, .work⟩ ((component K).resume t m.world).1.queue := by
  have hcall : Moment.call? (component K) (⟨m, .work⟩ : FrameMoment K) =
      (resume t m.world).2.callee? := by
    simp only [Moment.call?, hstack]
    rfl
  rcases t with ⟨todo, ran⟩
  cases todo with
  | nil =>
      have hs : started? (⟨m, .work⟩ : FrameMoment K) = none := by
        rw [started?, hcall]
        rfl
      exact .none rfl rfl rfl hs rfl
  | cons n todo =>
      cases htake : m.world.queue.take n with
      | none =>
          have hresume := resume_gone htake todo ran
          have hs : started? (⟨m, .work⟩ : FrameMoment K) = none := by
            rw [started?, hcall, hresume]
            rfl
          show Effect _ (resume ⟨n :: todo, ran⟩ m.world).1.queue
          rw [hresume]
          exact .none rfl rfl rfl hs rfl
      | some taken =>
          rcases taken with ⟨k, q⟩
          rcases FrameQueue.mem_of_take htake with ⟨hmem, hq⟩
          have hresume := resume_taken htake todo ran
          have hs : started? (⟨m, .work⟩ : FrameMoment K) = some (n, k) := by
            rw [started?, hcall, hresume]
            rfl
          show Effect _ (resume ⟨n :: todo, ran⟩ m.world).1.queue
          rw [hresume]
          exact .start n k hmem hq rfl hs rfl

theorem effect_of_move {m n : FrameMachine K} {move : Move (Op K)}
    (h : m.move? (component K) move = some n) :
    Effect ⟨m, move⟩ n.world.queue := by
  cases move with
  | work =>
      rcases move?_work h with ⟨t, rest, hstack, rfl⟩
      rw [proceed_world]
      exact effect_work hstack
  | issue op =>
      rcases move?_issue h with ⟨_, rfl⟩
      unfold issue
      rw [proceed_world]
      cases op with
      | request k => exact .request k rfl rfl rfl rfl
      | cancel handle => exact effect_cancel m handle
      | run => exact .none rfl rfl rfl rfl rfl
  | giveBack =>
      rcases move?_giveBack h with ⟨c, rest, hstack, rfl⟩
      exact .none rfl rfl rfl rfl rfl
  | throw e =>
      rcases move?_throw h with ⟨c, rest, hstack, rfl⟩
      exact .none rfl rfl rfl rfl rfl

/-!
# The balance
-/

structure Balanced (past : List (FrameMoment K)) (q : FrameQueue K) : Prop where
  wellFormed : q.WellFormed
  balance :
    (q.pending ++ (started past ++ cancelled past)).Perm (requested past)
  issued : forall e, e ∈ requested past -> e.1 < q.nextHandle
  increasing : (requested past).Pairwise fun later earlier =>
    earlier.1 < later.1

theorem balanced_none {past : List (FrameMoment K)} {t : FrameMoment K}
    {q : FrameQueue K} (h : Balanced past t.machine.world.queue)
    (pending : q.pending = t.machine.world.queue.pending)
    (next : q.nextHandle = t.machine.world.queue.nextHandle)
    (hr : requested? t = none) (hs : started? t = none)
    (hc : cancelled? t = none) :
    Balanced (t :: past) q := by
  have hhandles : q.handles = t.machine.world.queue.handles := by
    unfold FrameQueue.handles
    rw [pending]
  refine ⟨⟨?_, ?_⟩, ?_, ?_, ?_⟩
  · rw [hhandles]
    exact h.wellFormed.increasing
  · rw [hhandles, next]
    exact h.wellFormed.issued
  · simpa [started, cancelled, requested, hr, hs, hc, pending] using h.balance
  · simpa [requested, hr, next] using h.issued
  · simpa [requested, hr] using h.increasing

theorem balanced_request {past : List (FrameMoment K)} {t : FrameMoment K}
    {k : K} (h : Balanced past t.machine.world.queue)
    (hr : requested? t = some (t.machine.world.queue.nextHandle, k))
    (hs : started? t = none) (hc : cancelled? t = none) :
    Balanced (t :: past) (t.machine.world.queue.request k).1 := by
  have hreq : requested (t :: past) =
      (t.machine.world.queue.nextHandle, k) :: requested past := by
    simp [requested, hr]
  refine ⟨FrameQueue.wellFormed_request h.wellFormed k, ?_, ?_, ?_⟩
  · have hmid : ((t.machine.world.queue.request k).1.pending
          ++ (started (t :: past) ++ cancelled (t :: past))).Perm
        ((t.machine.world.queue.nextHandle, k)
          :: (t.machine.world.queue.pending ++
            (started past ++ cancelled past))) := by
      simp only [FrameQueue.request, started, cancelled, List.filterMap_cons,
        hs, hc, List.append_assoc, List.singleton_append]
      exact List.perm_middle
    rw [hreq]
    exact hmid.trans (h.balance.cons _)
  · intro e he
    rw [hreq, List.mem_cons] at he
    show e.1 < t.machine.world.queue.nextHandle + 1
    rcases he with rfl | he
    · exact Nat.lt_succ_self _
    · exact Nat.lt_succ_of_lt (h.issued e he)
  · rw [hreq, List.pairwise_cons]
    exact ⟨h.issued, h.increasing⟩

theorem balanced_drop {past : List (FrameMoment K)} {t : FrameMoment K}
    {n : Nat} {k : K} (h : Balanced past t.machine.world.queue)
    (pending : (n, k) ∈ t.machine.world.queue.pending)
    (hr : requested? t = none)
    (moved : (started (t :: past) ++ cancelled (t :: past)).Perm
      ((n, k) :: (started past ++ cancelled past))) :
    Balanced (t :: past) (t.machine.world.queue.drop n) := by
  have hreq : requested (t :: past) = requested past := by
    simp [requested, hr]
  rcases FrameQueue.drop_of_mem h.wellFormed pending with
    ⟨before, after, hsplit, hdrop⟩
  refine ⟨FrameQueue.wellFormed_drop h.wellFormed n, ?_, ?_, ?_⟩
  · have hmid : ((t.machine.world.queue.drop n).pending
          ++ (started (t :: past) ++ cancelled (t :: past))).Perm
        (t.machine.world.queue.pending ++
          (started past ++ cancelled past)) := by
      refine (moved.append_left _).trans (List.perm_middle.trans ?_)
      rw [hsplit, hdrop]
      exact List.perm_middle.symm.append_right _
    rw [hreq]
    exact hmid.trans h.balance
  · intro e he
    exact h.issued e (hreq ▸ he)
  · rw [hreq]
    exact h.increasing

theorem balanced_step {past : List (FrameMoment K)} {t : FrameMoment K}
    {q : FrameQueue K} (h : Balanced past t.machine.world.queue)
    (effect : Effect t q) :
    Balanced (t :: past) q := by
  cases effect with
  | none pending next hr hs hc => exact balanced_none h pending next hr hs hc
  | request k queue hr hs hc =>
      subst queue
      exact balanced_request h hr hs hc
  | start n k pending queue hr hs hc =>
      subst queue
      apply balanced_drop h pending hr
      simp [started, cancelled, hs, hc]
  | cancel n k pending queue hr hs hc =>
      subst queue
      apply balanced_drop h pending hr
      simp only [started, cancelled, List.filterMap_cons, hs, hc]
      exact List.perm_middle

theorem balanced_of_history {r : Except Failure Value}
    {past : List (FrameMoment K)} {m : FrameMachine K}
    (run : History (component K) anyMove ⟨{}, [], r⟩ past m) :
    Balanced past m.world.queue := by
  induction run with
  | start =>
      refine ⟨FrameQueue.wellFormed_empty, List.Perm.nil, ?_, List.Pairwise.nil⟩
      intro e he
      cases he
  | step _ _ hmove ih => exact balanced_step ih (effect_of_move hmove)

/-!
# Where a handle stands
-/

theorem count_handles {past : List (FrameMoment K)} {q : FrameQueue K}
    (h : Balanced past q) (n : Int) :
    (handlesIn q.pending).count n + ((handlesIn (started past)).count n
      + (handlesIn (cancelled past)).count n) =
        (handlesIn (requested past)).count n := by
  have hperm : (handlesIn q.pending ++ (handlesIn (started past)
      ++ handlesIn (cancelled past))).Perm (handlesIn (requested past)) := by
    simpa [handlesIn] using h.balance.map fun e => (e.1 : Int)
  rw [← hperm.count_eq, List.count_append, List.count_append]

theorem nodup_requested {past : List (FrameMoment K)} {q : FrameQueue K}
    (h : Balanced past q) : (handlesIn (requested past)).Nodup := by
  unfold handlesIn
  rw [List.Nodup, List.pairwise_map]
  apply h.increasing.imp
  intro later earlier hlt
  omega

theorem disjoint_started_cancelled {past : List (FrameMoment K)}
    {q : FrameQueue K} (h : Balanced past q) {n : Int}
    (hc : n ∈ handlesIn (cancelled past)) :
    n ∉ handlesIn (started past) := by
  intro hs
  have hsum := count_handles h n
  have hle := List.nodup_iff_count.mp (nodup_requested h) n
  have hc' := List.count_pos_iff.mpr hc
  have hs' := List.count_pos_iff.mpr hs
  omega

theorem not_pending_of_spent {past : List (FrameMoment K)} {q : FrameQueue K}
    (h : Balanced past q) {n : Int}
    (spent : n ∈ handlesIn (started past) ∨ n ∈ handlesIn (cancelled past)
      ∨ n ∉ handlesIn (requested past)) : n ∉ handlesIn q.pending := by
  intro hp
  have hsum := count_handles h n
  have hle := List.nodup_iff_count.mp (nodup_requested h) n
  have hp' := List.count_pos_iff.mpr hp
  rcases spent with hs | hc | hr
  · have hs' := List.count_pos_iff.mpr hs
    omega
  · have hc' := List.count_pos_iff.mpr hc
    omega
  · have hr' := List.count_eq_zero.mpr hr
    omega

/-- How often a handle is pending, was started, and was cancelled while
pending. -/
def standing (past : List (FrameMoment K)) (q : FrameQueue K) (n : Int) :
    Nat × Nat × Nat :=
  ((handlesIn q.pending).count n, (handlesIn (started past)).count n,
    (handlesIn (cancelled past)).count n)

theorem standing_of_requested {past : List (FrameMoment K)} {q : FrameQueue K}
    (h : Balanced past q) {n : Int} (hn : n ∈ handlesIn (requested past)) :
    standing past q n ∈ [(1, 0, 0), (0, 1, 0), (0, 0, 1)] := by
  have hsum := count_handles h n
  rw [(nodup_requested h).count, if_pos hn] at hsum
  unfold standing
  generalize (handlesIn q.pending).count n = a at hsum ⊢
  generalize (handlesIn (started past)).count n = b at hsum ⊢
  generalize (handlesIn (cancelled past)).count n = c at hsum ⊢
  have hcases :
      a = 1 ∧ b = 0 ∧ c = 0 ∨ a = 0 ∧ b = 1 ∧ c = 0
        ∨ a = 0 ∧ b = 0 ∧ c = 1 := by
    omega
  rcases hcases with ⟨rfl, rfl, rfl⟩ | ⟨rfl, rfl, rfl⟩ | ⟨rfl, rfl, rfl⟩
  · decide
  · decide
  · decide

theorem request_result {past : List (FrameMoment K)} {m : FrameMachine K}
    (h : Balanced past m.world.queue) (k : K) :
    exists n, (m.issue (component K) (.request k)).result = .ok (.handle n)
      ∧ forall e, e ∈ requested past -> e.1 < n :=
  ⟨m.world.queue.nextHandle, rfl, h.issued⟩

theorem not_started_of_cancelled {later earlier : List (FrameMoment K)}
    {q : FrameQueue K} (h : Balanced (later ++ earlier) q) {n : Int}
    (hn : n ∈ handlesIn (cancelled earlier)) :
    n ∉ handlesIn (started later) := by
  have hcancelled : n ∈ handlesIn (cancelled (later ++ earlier)) := by
    unfold handlesIn cancelled at hn ⊢
    rw [List.filterMap_append, List.map_append]
    exact List.mem_append_right _ hn
  intro hlater
  apply disjoint_started_cancelled h hcancelled
  unfold handlesIn started at hlater ⊢
  rw [List.filterMap_append, List.map_append]
  exact List.mem_append_left _ hlater

theorem sameCourse_cancel {m : FrameMachine K} {n : Int}
    (h : n ∉ handlesIn m.world.queue.pending) :
    SameCourse (m.issue (component K) (.cancel n)) m := by
  constructor
  · show { m.world with queue := m.world.queue.cancel n } = m.world
    rw [cancel_of_not_pending h]
  · rfl

/-- Requests return increasing handles; each of them is pending, or was started
once, or was cancelled while pending, under the callback that it was requested
for; what is cancelled is never started; and a cancel that comes too late or too
early changes nothing for good. -/
theorem frame_callbacks_conserved {r : Except Failure Value}
    {past : List (FrameMoment K)} {m : FrameMachine K}
    (run : History (component K) anyMove ⟨{}, [], r⟩ past m) :
    (forall k, exists n,
      (m.issue (component K) (.request k)).result = .ok (.handle n)
        ∧ forall e, e ∈ requested past -> e.1 < n)
      ∧ (m.world.queue.pending ++ (started past ++ cancelled past)).Perm
        (requested past)
      ∧ (forall n, n ∈ handlesIn (requested past) ->
          standing past m.world.queue n ∈ [(1, 0, 0), (0, 1, 0), (0, 0, 1)])
      ∧ (forall later earlier n, past = later ++ earlier ->
          n ∈ handlesIn (cancelled earlier) -> n ∉ handlesIn (started later))
      ∧ (forall n, n ∈ handlesIn (started past) ∨ n ∈ handlesIn (cancelled past)
            ∨ n ∉ handlesIn (requested past) ->
          SameCourse (m.issue (component K) (.cancel n)) m
            ∧ forall moves : List (Move (Op K)),
                Option.Rel SameCourse
                  (moves.foldlM (fun k move => k.move? (component K) move)
                    (m.issue (component K) (.cancel n)))
                  (moves.foldlM (fun k move => k.move? (component K) move)
                    m)) := by
  have h := balanced_of_history run
  refine ⟨request_result h, h.balance, ?_, ?_, ?_⟩
  · intro n hn
    exact standing_of_requested h hn
  · intro later earlier n hsplit hn
    subst hsplit
    exact not_started_of_cancelled h hn
  · intro n spent
    have hsame := sameCourse_cancel (not_pending_of_spent h spent)
    exact ⟨hsame, fun moves => hsame.foldlM moves⟩

/-- Three requests: the callback of the first one cancels the second, makes the
third, cancels itself too late, and fails. -/
theorem frame_cut_short_conserved :
    exists past m,
      History (component String) anyMove ⟨{}, [], .ok .nothing⟩ past m
      ∧ requested past = [(3, "c"), (2, "b"), (1, "a")]
      ∧ m.world.queue.pending = [(3, "c")]
      ∧ standing past m.world.queue 1 = (0, 1, 0)
      ∧ standing past m.world.queue 2 = (0, 0, 1)
      ∧ standing past m.world.queue 3 = (1, 0, 0)
      ∧ SameCourse (m.issue (component String) (.cancel 1)) m := by
  have blank : History (component String) anyMove ⟨{}, [], .ok .nothing⟩ [] _ :=
    .start
  have requests := (blank.next (.issue (.request "a")) trivial rfl).next
    (.issue (.request "b")) trivial rfl
  have inside :=
    ((requests.next (.issue .run) trivial rfl).next .work trivial rfl).next
      (.issue (.cancel 2)) trivial rfl
  have run := ((inside.next (.issue (.request "c")) trivial rfl).next
    (.issue (.cancel 1)) trivial rfl).next (.throw .unsupported) trivial rfl
  refine ⟨_, _, run, rfl, rfl, rfl, rfl, rfl, ?_⟩
  exact ((frame_callbacks_conserved run).2.2.2.2 1 (.inl (by decide))).1

end Frames
end WireView
