import WireView.Loop.FrameQueue

/-!
# Laws of frame queues

The pending handles of a queue increase and are below the next one.  Under this
law, which every operation keeps, a handle is pending for one callback at most,
and taking or withdrawing it removes exactly its entry.
-/

namespace WireView
namespace FrameQueue

variable {C : Type}

structure WellFormed (q : FrameQueue C) : Prop where
  increasing : q.handles.Pairwise (· < ·)
  issued : forall n, n ∈ q.handles -> n < q.nextHandle

theorem wellFormed_empty : WellFormed ({} : FrameQueue C) := by
  constructor
  · exact List.Pairwise.nil
  · intro n h
    cases h

theorem mem_handles {q : FrameQueue C} {n : Nat} :
    n ∈ q.handles ↔ exists c, (n, c) ∈ q.pending := by
  unfold handles
  rw [List.mem_map]
  constructor
  · rintro ⟨⟨k, c⟩, hmem, rfl⟩
    exact ⟨c, hmem⟩
  · rintro ⟨c, hmem⟩
    exact ⟨(n, c), hmem, rfl⟩

/-!
# Handles after an operation
-/

@[simp] theorem handles_request (q : FrameQueue C) (c : C) :
    (q.request c).1.handles = q.handles ++ [q.nextHandle] := by
  simp [request, handles]

theorem handles_drop (q : FrameQueue C) (n : Nat) :
    (q.drop n).handles = q.handles.filter fun k => k ≠ n := by
  unfold drop handles
  rw [List.filter_map]
  rfl

theorem wellFormed_request {q : FrameQueue C} (h : q.WellFormed) (c : C) :
    (q.request c).1.WellFormed := by
  constructor
  · rw [handles_request, List.pairwise_append]
    refine ⟨h.increasing, List.pairwise_singleton _ _, ?_⟩
    intro n hn k hk
    rw [List.mem_singleton.mp hk]
    exact h.issued n hn
  · intro n hn
    rw [handles_request, List.mem_append, List.mem_singleton] at hn
    show n < q.nextHandle + 1
    rcases hn with hn | hn
    · exact Nat.lt_succ_of_lt (h.issued n hn)
    · exact hn ▸ Nat.lt_succ_self n

theorem wellFormed_drop {q : FrameQueue C} (h : q.WellFormed) (n : Nat) :
    (q.drop n).WellFormed := by
  constructor
  · rw [handles_drop]
    exact h.increasing.filter _
  · intro k hk
    rw [handles_drop] at hk
    exact h.issued k (List.mem_filter.mp hk).1

theorem wellFormed_cancel {q : FrameQueue C} (h : q.WellFormed) (n : Int) :
    (q.cancel n).WellFormed := by
  unfold cancel
  split
  · exact wellFormed_drop h _
  · exact h

theorem wellFormed_beginFrame {q : FrameQueue C} (h : q.WellFormed) :
    q.beginFrame.WellFormed :=
  ⟨h.increasing, h.issued⟩

/-!
# The entry of a handle
-/

theorem drop_of_mem {q : FrameQueue C} (h : q.WellFormed) {n : Nat} {c : C}
    (hmem : (n, c) ∈ q.pending) :
    exists before after, q.pending = before ++ (n, c) :: after
      ∧ (q.drop n).pending = before ++ after := by
  rcases List.append_of_mem hmem with ⟨before, after, hsplit⟩
  refine ⟨before, after, hsplit, ?_⟩
  have hinc := h.increasing
  unfold handles at hinc
  rw [hsplit, List.map_append, List.map_cons, List.pairwise_append,
    List.pairwise_cons] at hinc
  rcases hinc with ⟨_, ⟨hafter, _⟩, hbefore⟩
  have hkeepBefore : before.filter (fun e => e.1 ≠ n) = before := by
    apply List.filter_eq_self.mpr
    intro e he
    have hlt := hbefore e.1 (List.mem_map_of_mem he) n List.mem_cons_self
    exact decide_eq_true (Nat.ne_of_lt hlt)
  have hkeepAfter : after.filter (fun e => e.1 ≠ n) = after := by
    apply List.filter_eq_self.mpr
    intro e he
    have hlt := hafter e.1 (List.mem_map_of_mem he)
    exact decide_eq_true (Nat.ne_of_gt hlt)
  show q.pending.filter (fun e => e.1 ≠ n) = before ++ after
  rw [hsplit, List.filter_append, List.filter_cons_of_neg (by simp),
    hkeepBefore, hkeepAfter]

theorem drop_of_not_mem {q : FrameQueue C} {n : Nat} (h : n ∉ q.handles) :
    q.drop n = q := by
  have hkeep : q.pending.filter (fun e => e.1 ≠ n) = q.pending := by
    apply List.filter_eq_self.mpr
    intro e he
    apply decide_eq_true
    intro heq
    exact h (heq ▸ List.mem_map_of_mem he)
  unfold drop
  rw [hkeep]

theorem entry_unique {q : FrameQueue C} (h : q.WellFormed) {n : Nat} {c d : C}
    (hc : (n, c) ∈ q.pending) (hd : (n, d) ∈ q.pending) : c = d := by
  rcases drop_of_mem h hc with ⟨before, after, hsplit, hdrop⟩
  rw [hsplit, List.mem_append, List.mem_cons] at hd
  have hgone : forall e, e ∈ before ++ after -> e.1 ≠ n := by
    intro e he
    rw [← hdrop] at he
    simpa using (List.mem_filter.mp he).2
  rcases hd with hd | hd | hd
  · exact absurd rfl (hgone _ (List.mem_append_left after hd))
  · exact (Prod.mk.inj hd).2.symm
  · exact absurd rfl (hgone _ (List.mem_append_right before hd))

theorem mem_of_take {q r : FrameQueue C} {n : Nat} {c : C}
    (h : q.take n = some (c, r)) : (n, c) ∈ q.pending ∧ r = q.drop n := by
  unfold take at h
  rw [Option.map_eq_some_iff] at h
  rcases h with ⟨d, hlookup, heq⟩
  cases heq
  rcases List.lookup_eq_some_iff.mp hlookup with ⟨before, after, hsplit, _⟩
  refine ⟨?_, rfl⟩
  rw [hsplit]
  exact List.mem_append_right _ List.mem_cons_self

theorem not_mem_of_take {q : FrameQueue C} {n : Nat} (h : q.take n = none) :
    n ∉ q.handles := by
  unfold take at h
  rw [Option.map_eq_none_iff, List.lookup_eq_none_iff] at h
  intro hmem
  rcases mem_handles.mp hmem with ⟨c, hc⟩
  simpa using h (n, c) hc

theorem take_of_mem {q : FrameQueue C} (h : q.WellFormed) {n : Nat} {c : C}
    (hmem : (n, c) ∈ q.pending) : q.take n = some (c, q.drop n) := by
  cases htake : q.take n with
  | none => exact absurd (mem_handles.mpr ⟨c, hmem⟩) (not_mem_of_take htake)
  | some taken =>
      rcases taken with ⟨d, r⟩
      rcases mem_of_take htake with ⟨hd, hr⟩
      rw [entry_unique h hmem hd, hr]

/-!
# From one moment to a later one
-/

/-- A later state of a queue: entries that were not there before have handles
that were not issued before. -/
structure Later (q r : FrameQueue C) : Prop where
  next : q.nextHandle ≤ r.nextHandle
  fresh : forall e, e ∈ r.pending -> e ∈ q.pending ∨ q.nextHandle ≤ e.1

theorem Later.trans {q r s : FrameQueue C} (first : q.Later r)
    (second : r.Later s) :
    q.Later s := by
  refine ⟨Nat.le_trans first.next second.next, fun e he => ?_⟩
  rcases second.fresh e he with hr | hnew
  · exact first.fresh e hr
  · exact .inr (Nat.le_trans first.next hnew)

theorem Later.old {q r : FrameQueue C} (later : q.Later r) (h : q.WellFormed)
    {n : Nat} {c : C} (hnow : (n, c) ∈ r.pending) (hbefore : n ∈ q.handles) :
    (n, c) ∈ q.pending := by
  rcases later.fresh _ hnow with hold | hnew
  · exact hold
  · exact absurd (h.issued n hbefore) (Nat.not_lt_of_le hnew)

/-- A change of a queue that drops no entry, except for those that may go. -/
structure Changes (goes : Nat × C -> Prop) (q r : FrameQueue C) :
    Prop extends Later q r where
  kept : forall e, e ∈ q.pending -> goes e ∨ e ∈ r.pending

section Changes

variable {goes : Nat × C -> Prop} {q : FrameQueue C}

theorem changes_same {r : FrameQueue C} (next : r.nextHandle = q.nextHandle)
    (pending : r.pending = q.pending) : Changes goes q r := by
  refine ⟨⟨Nat.le_of_eq next.symm, fun e he => .inl ?_⟩, fun e he => .inr ?_⟩
  · rwa [← pending]
  · rwa [pending]

theorem later_request (q : FrameQueue C) (c : C) : Later q (q.request c).1 := by
  refine ⟨Nat.le_succ _, ?_⟩
  intro e he
  rcases List.mem_append.mp he with hold | hnew
  · exact .inl hold
  · rw [List.mem_singleton.mp hnew]
    exact .inr (Nat.le_refl _)

theorem later_drop (q : FrameQueue C) (n : Nat) : Later q (q.drop n) :=
  ⟨Nat.le_refl _, fun _ he => .inl (List.mem_filter.mp he).1⟩

theorem changes_request (c : C) : Changes goes q (q.request c).1 :=
  ⟨later_request q c, fun _ he => .inr (List.mem_append_left _ he)⟩

theorem changes_drop {n : Nat}
    (hn : forall e, e ∈ q.pending -> e.1 = n -> goes e) :
    Changes goes q (q.drop n) := by
  refine ⟨later_drop q n, ?_⟩
  intro e he
  by_cases hen : e.1 = n
  · exact .inl (hn e he hen)
  · exact .inr (List.mem_filter.mpr ⟨he, decide_eq_true hen⟩)

end Changes

/-!
# The handles of one callback
-/

section Callbacks

variable [DecidableEq C]

def handlesOf (q : FrameQueue C) (c : C) : List Nat :=
  (q.pending.filter fun e => e.2 = c).map Prod.fst

theorem mem_handlesOf {q : FrameQueue C} {c : C} {n : Nat} :
    n ∈ q.handlesOf c ↔ (n, c) ∈ q.pending := by
  unfold handlesOf
  rw [List.mem_map]
  constructor
  · rintro ⟨⟨k, d⟩, hmem, rfl⟩
    rcases List.mem_filter.mp hmem with ⟨hpending, heq⟩
    have hc : d = c := of_decide_eq_true heq
    exact hc ▸ hpending
  · intro hmem
    exact ⟨(n, c), List.mem_filter.mpr ⟨hmem, decide_eq_true rfl⟩, rfl⟩

theorem handlesOf_request_self (q : FrameQueue C) (c : C) :
    (q.request c).1.handlesOf c = q.handlesOf c ++ [q.nextHandle] := by
  simp [request, handlesOf]

theorem handlesOf_request_of_ne (q : FrameQueue C) {c d : C} (h : d ≠ c) :
    (q.request d).1.handlesOf c = q.handlesOf c := by
  simp [request, handlesOf, h]

theorem handlesOf_drop (q : FrameQueue C) (c : C) (n : Nat) :
    (q.drop n).handlesOf c = (q.handlesOf c).filter fun k => k ≠ n := by
  unfold handlesOf drop
  rw [List.filter_map, List.filter_filter, List.filter_filter]
  congr 2
  funext e
  exact Bool.and_comm _ _

theorem handlesOf_drop_of_not_mem {q : FrameQueue C} {c : C} {n : Nat}
    (h : (n, c) ∉ q.pending) : (q.drop n).handlesOf c = q.handlesOf c := by
  rw [handlesOf_drop]
  apply List.filter_eq_self.mpr
  intro k hk
  apply decide_eq_true
  intro heq
  exact h (heq ▸ mem_handlesOf.mp hk)

end Callbacks

end FrameQueue
end WireView
