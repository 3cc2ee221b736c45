import WireView.Proofs.Host.Closing
import WireView.Proofs.Host.Telling

/-!
# What an observer of a loop is told

An observer that has been subscribed since before the loop first ran is told of
every turn of the loop once, right after it: of its start, of its halt, of its
next start.  So what it sees alternates.  Closing a viewer halts its loop too,
but nobody is told of that.

The account of an observer says that what it has seen are the turns of the loop,
but for the last one if the observer is still to be told.  Each move keeps it.
-/

namespace WireView
namespace Host

open Reentrant Machine

variable {K L : Type}

def stateOf (g : Nat) (h : Host K L) : Option LoopState :=
  (h.viewers[g]?).map Viewer.state

def stateAfter (turns : Nat) : LoopState :=
  if turns % 2 = 0 then .idle else .running

def Alternates (states : List LoopState) : Prop :=
  forall i s, states[i]? = some s -> s = stateAfter (i + 1)

section Alternates

variable {states : List LoopState}

theorem eq_stateAfter_succ {s : LoopState} {n : Nat} (h : s ≠ stateAfter n) :
    s = stateAfter (n + 1) := by
  rcases Nat.mod_two_eq_zero_or_one n with hn | hn
  · have hidle : stateAfter n = .idle := if_pos hn
    have hrunning : stateAfter (n + 1) = .running := if_neg (by omega)
    rw [hidle] at h
    rw [hrunning]
    exact LoopState.running_of_ne h
  · have hrunning : stateAfter n = .running := if_neg (by omega)
    have hidle : stateAfter (n + 1) = .idle := if_pos (by omega)
    rw [hrunning] at h
    rw [hidle]
    exact LoopState.idle_of_ne h

theorem alternates_nil : Alternates [] := by
  intro i s h
  cases h

theorem Alternates.concat (h : Alternates states) :
    Alternates (states ++ [stateAfter (states.length + 1)]) := by
  intro i s hs
  rcases Nat.lt_trichotomy i states.length with hlt | heq | hgt
  · rw [List.getElem?_append_left hlt] at hs
    exact h i s hs
  · rw [heq, List.getElem?_concat_length] at hs
    rw [heq]
    exact (Option.some.inj hs).symm
  · rw [List.getElem?_eq_none] at hs
    · cases hs
    · rw [List.length_append]
      exact hgt

theorem Alternates.of_append {more : List LoopState}
    (h : Alternates (states ++ more)) :
    Alternates states := by
  intro i s hs
  apply h
  rw [List.getElem?_append_left (List.getElem?_eq_some_iff.mp hs).1]
  exact hs

end Alternates

variable [LoopLogic L] [DecidableEq K]

def seen? (g : Nat) (k : K) (t : HostMoment K L) : Option LoopState :=
  if told? g t = some k then stateOf g t.machine.world else none

/-- The state that a loop turns to at a moment, if it does and if that is not
the close of a viewer. -/
def turned? (g : Nat) (t : HostMoment K L) : Option LoopState :=
  match t.move with
  | .issue (.close _) => none
  | _ =>
      match t.machine.move? (component K L) t.move with
      | none => none
      | some n =>
          if stateOf g n.world = stateOf g t.machine.world then
            none
          else
            stateOf g n.world

def seen (g : Nat) (k : K) (past : List (HostMoment K L)) : List LoopState :=
  inOrder (seen? g k) past

def turns (g : Nat) (past : List (HostMoment K L)) : List LoopState :=
  inOrder (turned? g) past

/-- The rule of the observers, who leave the loop alone while they are told, and
of one of them, who stays subscribed. -/
structure Courteous (g : Nat) (k : K) (m : HostMachine K L)
    (move : Move (Op K L)) : Prop where
  considerate : Considerate g m move
  subscribed : move ≠ .issue (.unobserve g runningType k)

/-!
# Turns
-/

section Turns

variable {g : Nat} {k : K} {m n : HostMachine K L} {move : Move (Op K L)}
  {v v' : Viewer K L}
variable {past : List (HostMoment K L)}

omit [LoopLogic L] [DecidableEq K] in
theorem stateOf_present {h : Host K L} (hv : h.viewers[g]? = some v) :
    stateOf g h = some v.state := by
  unfold stateOf
  rw [hv]
  rfl

theorem turns_same (hmove : m.move? (component K L) move = some n)
    (hv : m.world.viewers[g]? = some v) (hv' : n.world.viewers[g]? = some v')
    (same : v'.state = v.state) :
    turns g (⟨m, move⟩ :: past) = turns g past := by
  apply inOrder_cons_none
  unfold turned?
  split
  · rfl
  · rw [hmove]
    dsimp only
    rw [stateOf_present hv, stateOf_present hv', same, if_pos rfl]

theorem turns_close (h : move = .issue (.close g)) :
    turns g (⟨m, move⟩ :: past) = turns g past := by
  subst h
  exact inOrder_cons_none rfl

theorem turns_work (hmove : m.move? (component K L) .work = some n)
    (hv : m.world.viewers[g]? = some v) (hv' : n.world.viewers[g]? = some v')
    (turned : v'.state ≠ v.state) :
    turns g (⟨m, .work⟩ :: past) = turns g past ++ [v'.state] := by
  apply inOrder_cons_some
  unfold turned?
  dsimp only
  rw [hmove]
  dsimp only
  rw [stateOf_present hv, stateOf_present hv', if_neg]
  intro h
  exact turned (Option.some.inj h)

theorem seen_cons (hv : m.world.viewers[g]? = some v) :
    seen g k (⟨m, move⟩ :: past) =
      seen g k past ++
        if told? g ⟨m, move⟩ = some k then [v.state] else [] := by
  unfold seen
  split
  · rename_i htold
    apply inOrder_cons_some
    unfold seen?
    rw [if_pos htold]
    exact stateOf_present hv
  · rename_i htold
    rw [List.append_nil]
    apply inOrder_cons_none
    unfold seen?
    rw [if_neg htold]

end Turns

/-!
# An observer
-/

/-- What an observer is still to be told of the state that the loop is in. -/
def owed (k : K) : List (Task K) -> LoopState -> List LoopState
  | .notify _ _ todo :: _, s => if k ∈ todo then [s] else []
  | _, _ => []

/-- What an observer will be told when the tasks are done, unless they fail. -/
def coming (k : K) : List (Task K) -> LoopState -> List LoopState
  | [], _ => []
  | .run _ :: rest, .idle => .running :: coming k rest .running
  | .start _ :: rest, _ => .running :: coming k rest .running
  | .stop _ :: rest, .running => .idle :: coming k rest .idle
  | .notify _ _ todo :: rest, s =>
      if k ∈ todo then s :: coming k rest s else coming k rest s
  | _ :: rest, s => coming k rest s

/-- The work on the loop follows a plan, and an observer is subscribed and told
once of each turn. -/
structure Attends (g : Nat) (k : K) (base : List (Level (Task K) (Callee K)))
    (plan : List (Task K)) (v : Viewer K L) (m : HostMachine K L) : Prop where
  conducted : Conducted g base plan v m
  once : (v.registry.listeners runningType).count k = 1
  fresh : forall todo, .notify g runningType todo ∈ plan -> todo.count k ≤ 1

section Attends

variable {g : Nat} {k : K} {m n : HostMachine K L} {move : Move (Op K L)}
  {v v' : Viewer K L}
variable {base : List (Level (Task K) (Callee K))} {plan plan' : List (Task K)}
  {called : Option K}

theorem once_of_move (hmove : m.move? (component K L) move = some n)
    (hv : m.world.viewers[g]? = some v) (hv' : n.world.viewers[g]? = some v')
    (subscribed : move ≠ .issue (.unobserve g runningType k))
    (once : (v.registry.listeners runningType).count k = 1) :
    (v'.registry.listeners runningType).count k = 1 := by
  cases move with
  | work =>
      rcases move?_work hmove with ⟨t, rest, _, rfl⟩
      rw [proceed_world] at hv'
      rcases becomes_resume t hv with ⟨u, hu, hbecomes⟩
      cases hv'.symm.trans hu
      have hregistry : v'.registry = v.registry := by
        cases hbecomes <;> rfl
      rw [hregistry]
      exact once
  | issue op =>
      rcases move?_issue hmove with ⟨_, rfl⟩
      unfold Machine.issue at hv'
      rw [proceed_world] at hv'
      rcases alters_perform op hv with ⟨u, hu, halters⟩
      cases hv'.symm.trans hu
      cases halters with
      | same => exact once
      | shut w =>
          rw [(Viewer.shut_keeps g v w).2.2.2]
          exact once
      | observe type j =>
          show ((v.registry.add type j).listeners runningType).count k = 1
          rw [Registry.count_add, once]
          exact ite_self 1
      | unobserve type j =>
          show ((v.registry.remove type j).listeners runningType).count k = 1
          rw [Registry.count_remove, if_neg, once]
          rintro ⟨rfl, rfl⟩
          exact subscribed rfl
  | giveBack =>
      rcases move?_giveBack hmove with ⟨c, rest, _, rfl⟩
      cases hv.symm.trans hv'
      exact once
  | throw e =>
      rcases move?_throw hmove with ⟨c, rest, _, rfl⟩
      cases hv.symm.trans hv'
      exact once

omit [LoopLogic L] in
theorem Advances.fresh (step : Advances g v plan called plan' v')
    (planned : Plan g plan)
    (once : (v.registry.listeners runningType).count k = 1)
    (fresh : forall todo,
      .notify g runningType todo ∈ plan -> todo.count k ≤ 1) :
    forall todo, .notify g runningType todo ∈ plan' -> todo.count k ≤ 1 := by
  intro todo hmem
  cases step with
  | already running => cases hmem
  | begun idle isOpen => simp at hmem
  | ready l => simp at hmem
  | started w =>
      cases List.mem_singleton.mp hmem
      exact Nat.le_of_eq once
  | resting idle => exact fresh todo (List.mem_cons_of_mem _ hmem)
  | stopped w running =>
      rcases List.mem_cons.mp hmem with heq | hmem
      · cases heq
        exact Nat.le_of_eq once
      · exact fresh todo (List.mem_cons_of_mem _ hmem)
  | told => exact fresh todo (List.mem_cons_of_mem _ hmem)
  | calls listed =>
      rcases List.mem_cons.mp hmem with heq | hmem
      · cases heq
        exact Nat.le_trans List.count_le_count_cons (fresh _ List.mem_cons_self)
      · exact fresh todo (List.mem_cons_of_mem _ hmem)
  | skips unlisted =>
      rcases List.mem_cons.mp hmem with heq | hmem
      · cases heq
        exact Nat.le_trans List.count_le_count_cons (fresh _ List.mem_cons_self)
      · exact fresh todo (List.mem_cons_of_mem _ hmem)

omit [LoopLogic L] in
theorem not_mem_of_fresh {todo : List K} (fresh : (k :: todo).count k ≤ 1) :
    k ∉ todo := by
  rw [List.count_cons_self] at fresh
  exact List.count_eq_zero.mp (Nat.le_zero.mp (Nat.le_of_succ_le_succ fresh))

omit [LoopLogic L] in
theorem owed_of_last {next : List (Task K)} (last : next = [] ∨ next = [.run g])
    (s : LoopState) :
    owed k next s = [] := by
  rcases last with rfl | rfl
  · rfl
  · rfl

omit [LoopLogic L] in
theorem owed_or_none (planned : Plan g plan) {s : LoopState} :
    owed k plan s = [] ∨ exists todo,
      .notify g runningType todo ∈ plan ∧ k ∈ todo
      ∧ owed k plan s = [s] := by
  cases planned with
  | tell todo last =>
      by_cases hk : k ∈ todo
      · exact .inr ⟨todo, List.mem_cons_self, hk, if_pos hk⟩
      · exact .inl (if_neg hk)
  | _ => exact .inl rfl

omit [LoopLogic L] in
theorem owed_first (op : Op K L) (s : LoopState) : owed k op.plan s = [] := by
  cases op <;> rfl

omit [LoopLogic L] in
theorem Advances.owed (step : Advances g v plan called plan' v')
    (planned : Plan g plan)
    (once : (v.registry.listeners runningType).count k = 1)
    (fresh : forall todo, .notify g runningType todo ∈ plan -> todo.count k ≤ 1)
    (starting : .start g ∈ plan -> v.state = .idle ∧ v.isClosed = false) :
    Host.owed k plan v.state ++
      (if v'.state = v.state then [] else [v'.state]) =
      (if called = some k then [v.state] else []) ++
        Host.owed k plan' v'.state := by
  have hlistens : k ∈ v.registry.listeners runningType :=
    List.count_pos_iff.mp (Nat.lt_of_lt_of_eq Nat.zero_lt_one once.symm)
  cases step with
  | already running => simp [Host.owed]
  | begun idle isOpen => simp [Host.owed]
  | ready l => simp [Host.owed]
  | started w =>
      have hidle := (starting List.mem_cons_self).1
      simp [Host.owed, hidle, hlistens, Viewer.start]
  | resting idle =>
      cases planned with
      | stop last =>
          rw [owed_of_last last]
          simp [Host.owed]
  | stopped w running => simp [Host.owed, running, hlistens, Viewer.halt]
  | told =>
      cases planned with
      | tell todo last =>
          rw [owed_of_last last]
          simp [Host.owed]
  | calls listed =>
      rename_i j todo next
      by_cases hj : j = k
      · subst hj
        have hlast := not_mem_of_fresh (fresh _ List.mem_cons_self)
        simp [Host.owed, hlast]
      · have hmem : k ∈ j :: todo ↔ k ∈ todo := by simp [Ne.symm hj]
        simp [Host.owed, hmem, hj]
  | skips unlisted =>
      rename_i j todo next
      have hj : k ≠ j := by
        rintro rfl
        exact unlisted hlistens
      simp [Host.owed, hj]

omit [LoopLogic L] in
theorem Advances.coming (step : Advances g v plan called plan' v')
    (once : (v.registry.listeners runningType).count k = 1)
    (fresh : forall todo,
      .notify g runningType todo ∈ plan -> todo.count k ≤ 1) :
    Host.coming k plan v.state =
      (if called = some k then [v.state] else []) ++
        Host.coming k plan' v'.state := by
  have hlistens : k ∈ v.registry.listeners runningType :=
    List.count_pos_iff.mp (Nat.lt_of_lt_of_eq Nat.zero_lt_one once.symm)
  cases step with
  | already running => simp [Host.coming, running]
  | begun idle isOpen => simp [Host.coming, idle]
  | ready l => simp [Host.coming]
  | started w => simp [Host.coming, hlistens, Viewer.start, Viewer.requestTick]
  | resting idle => simp [Host.coming, idle]
  | stopped w running => simp [Host.coming, running, hlistens, Viewer.halt]
  | told => simp [Host.coming]
  | calls listed =>
      rename_i j todo next
      by_cases hj : j = k
      · subst hj
        have hlast := not_mem_of_fresh (fresh _ List.mem_cons_self)
        simp [Host.coming, hlast]
      · have hmem : k ∈ j :: todo ↔ k ∈ todo := by simp [Ne.symm hj]
        simp [Host.coming, hmem, hj]
  | skips unlisted =>
      rename_i j todo next
      have hj : k ≠ j := by
        rintro rfl
        exact unlisted hlistens
      simp [Host.coming, hj]

omit [LoopLogic L] in
theorem Advances.isClosed (step : Advances g v plan called plan' v') :
    v'.isClosed = v.isClosed := by
  cases step <;> rfl

omit [LoopLogic L] in
theorem Advances.open_of_turn (step : Advances g v plan called plan' v')
    (closed : v.isClosed = true -> v.state = .idle)
    (starting : .start g ∈ plan -> v.state = .idle ∧ v.isClosed = false)
    (turned : v'.state ≠ v.state) : v.isClosed = false := by
  cases step with
  | started w => exact (starting List.mem_cons_self).2
  | stopped w running =>
      apply Bool.eq_false_iff.mpr
      intro hclosed
      exact absurd ((closed hclosed).symm.trans running) nofun
  | _ => exact absurd rfl turned

theorem Attends.step (hs : Steady m.world m.stack)
    (ha : Attends g k base plan v m) (courteous : Courteous g k m move)
    (hmove : m.move? (component K L) move = some n) :
    exists base' plan' v',
      (plan ≠ [] -> base' = base) ∧ Attends g k base' plan' v' n
      ∧ Goes g m move n plan v plan' v' := by
  rcases ha.conducted.step hs courteous.considerate hmove with
    ⟨base', plan', v', hbase, hc, hgoes⟩
  have honce :=
    once_of_move hmove ha.conducted.viewer hc.viewer courteous.subscribed
      ha.once
  refine ⟨base', plan', v', hbase, ⟨hc, honce, ?_⟩, hgoes⟩
  cases hgoes with
  | keeps untold state closed => exact ha.fresh
  | closes closing untold idle closed => exact nofun
  | begins issued untold =>
      exact fun todo hmem => absurd hmem ((plan_first _ g).2 todo)
  | advances step working told =>
      exact step.fresh ha.conducted.planned ha.once ha.fresh
  | fails fallible untold state closed failed => exact nofun

end Attends

/-!
# The account of an observer
-/

/-- The turns of the loop alternate, and the observer has seen them but for what
it is owed. -/
structure Account (g : Nat) (k : K) (past : List (HostMoment K L))
    (base : List (Level (Task K) (Callee K))) (plan : List (Task K))
    (v : Viewer K L) (n : HostMachine K L) : Prop where
  attends : Attends g k base plan v n
  told : turns g past = seen g k past ++ owed k plan v.state
  alternate : Alternates (turns g past)
  parity : v.isClosed = false -> v.state = stateAfter (turns g past).length

namespace Account

variable {g : Nat} {k : K} {m n : HostMachine K L} {move : Move (Op K L)}
  {v v' : Viewer K L}
variable {base base' : List (Level (Task K) (Callee K))}
  {plan plan' : List (Task K)}
variable {past : List (HostMoment K L)} {called : Option K}

theorem keep (ha : Account g k past base plan v m)
    (hmove : m.move? (component K L) move = some n)
    (attends : Attends g k base' plan' v' n) (untold : told? g ⟨m, move⟩ = none)
    (state : v'.state = v.state) (closed : v'.isClosed = v.isClosed)
    (owes : owed k plan' v'.state = owed k plan v.state) :
    Account g k (⟨m, move⟩ :: past) base' plan' v' n := by
  have hv := ha.attends.conducted.viewer
  have hturns : turns g (⟨m, move⟩ :: past) = turns g past :=
    turns_same hmove hv attends.conducted.viewer state
  have hseen : seen g k (⟨m, move⟩ :: past) = seen g k past := by
    rw [seen_cons hv, untold, if_neg nofun, List.append_nil]
  constructor
  · exact attends
  · rw [hturns, hseen, owes]
    exact ha.told
  · rw [hturns]
    exact ha.alternate
  · rw [hturns, state, closed]
    exact ha.parity

theorem advance (ha : Account g k past base plan v m)
    (hmove : m.move? (component K L) .work = some n)
    (attends : Attends g k base' plan' v' n)
    (step : Advances g v plan called plan' v')
    (told : told? g ⟨m, .work⟩ = called) :
    Account g k (⟨m, .work⟩ :: past) base' plan' v' n := by
  have hc := ha.attends.conducted
  have howed :=
    step.owed hc.planned ha.attends.once ha.attends.fresh hc.starting
  have hseen : seen g k (⟨m, .work⟩ :: past) =
      seen g k past ++ if told? g ⟨m, .work⟩ = some k then [v.state] else [] :=
        seen_cons hc.viewer
  rw [told] at hseen
  by_cases hstate : v'.state = v.state
  · have hturns : turns g (⟨m, .work⟩ :: past) = turns g past :=
      turns_same hmove hc.viewer attends.conducted.viewer hstate
    rw [if_pos hstate, List.append_nil] at howed
    constructor
    · exact attends
    · rw [hturns, hseen, ha.told, howed, List.append_assoc]
    · rw [hturns]
      exact ha.alternate
    · rw [hturns, hstate, step.isClosed]
      exact ha.parity
  · have hturns : turns g (⟨m, .work⟩ :: past) = turns g past ++ [v'.state] :=
      turns_work hmove hc.viewer attends.conducted.viewer hstate
    have hopen : v.isClosed = false :=
      step.open_of_turn hc.closed hc.starting hstate
    have hnext : v'.state = stateAfter ((turns g past).length + 1) := by
      rw [ha.parity hopen] at hstate
      exact eq_stateAfter_succ hstate
    rw [if_neg hstate] at howed
    constructor
    · exact attends
    · rw [hturns, hseen, ha.told, List.append_assoc, howed, List.append_assoc]
    · rw [hturns, hnext]
      exact ha.alternate.concat
    · intro _
      rw [hturns, List.length_append]
      exact hnext

theorem step (hs : Steady m.world m.stack) (ha : Account g k past base plan v m)
    (courteous : Courteous g k m move)
    (hmove : m.move? (component K L) move = some n) :
    exists base' plan' v',
      Account g k (⟨m, move⟩ :: past) base' plan' v' n := by
  rcases ha.attends.step hs courteous hmove with
    ⟨base', plan', v', _, hattends, hgoes⟩
  refine ⟨base', plan', v', ?_⟩
  cases hgoes with
  | keeps untold state closed =>
      exact ha.keep hmove hattends untold state closed (by rw [state])
  | closes closing untold idle closed =>
      have hturns : turns g (⟨m, move⟩ :: past) = turns g past :=
        turns_close closing
      have hseen : seen g k (⟨m, move⟩ :: past) = seen g k past := by
        rw [seen_cons ha.attends.conducted.viewer, untold, if_neg nofun,
          List.append_nil]
      refine ⟨hattends, ?_, ?_, ?_⟩
      · rw [hturns, hseen]
        exact ha.told
      · rw [hturns]
        exact ha.alternate
      · intro hopen
        exact absurd (hopen.symm.trans closed) Bool.false_ne_true
  | begins issued untold =>
      exact ha.keep hmove hattends untold rfl rfl (owed_first _ _)
  | advances step working told =>
      subst working
      exact ha.advance hmove hattends step told
  | fails fallible untold state closed failed =>
      apply ha.keep hmove hattends untold state closed
      rcases fallible with rfl | rfl
      · rfl
      · rfl

theorem start (shaped : Shaped m.stack) (ready : HasControl m.stack)
    (hv : m.world.viewers[g]? = some v) (idle : v.state = .idle)
    (once : (m.world.observers g runningType).count k = 1)
    (untold : forall j, .outside (.viewer j runningType g) ∉ m.stack) :
    Account g k [] m.stack [] v m := by
  have hclear : Clear g m.stack := by
    apply clear_of_shaped shaped untold
    intro u hu
    rw [segment_of_hasControl ready] at hu
    cases hu
  have hregistry :
      m.world.observers g runningType = v.registry.listeners runningType := by
    unfold observers
    rw [hv]
    rfl
  rw [hregistry] at once
  refine ⟨⟨⟨hv, .done, .next [], hclear, nofun, fun _ => idle, nofun⟩, once,
    nofun⟩, rfl,
    alternates_nil, fun _ => idle⟩

theorem of_history (hs : Steady m.world m.stack)
    (ha : Account g k [] base plan v m)
    (history : History (component K L) (Courteous g k) m past n) :
    exists base' plan' v', Account g k past base' plan' v' n := by
  induction history with
  | start => exact ⟨base, plan, v, ha⟩
  | step before courteous hmove ih =>
      rcases ih with ⟨base', plan', v', ha'⟩
      exact ha'.step (hs.reaches before.reaches) courteous hmove

end Account

/-!
# The course of an operation on the loop
-/

def shows : Op K L -> LoopState -> List LoopState
  | .run _, .idle => [.running]
  | .stop _, .running => [.idle]
  | .reset _, .idle => [.running]
  | .reset _, .running => [.idle, .running]
  | _, _ => []

section Course

variable {g : Nat} {k : K} {m n : HostMachine K L} {move : Move (Op K L)}
  {v v' : Viewer K L}
variable {base : List (Level (Task K) (Callee K))} {plan : List (Task K)}
variable {past : List (HostMoment K L)}

omit [LoopLogic L] in
theorem coming_first (op : Op K L) (s : LoopState) :
    coming k op.plan s = shows op s := by
  cases op <;> cases s <;> rfl

/-- In the course of an operation the observer has been told what was coming,
but for what is still to come, or the operation has failed. -/
theorem told_of_course (hs : Steady m.world m.stack)
    (ha : Attends g k base plan v m)
    (course : History (component K L) (during base (Courteous g k)) m past n) :
    (exists plan' v', Attends g k base plan' v' n
        ∧ coming k plan v.state = seen g k past ++ coming k plan' v'.state)
      ∨ n.stack = base ∧ exists e, n.result = .error e := by
  induction course with
  | start => exact .inl ⟨plan, v, ha, rfl⟩
  | step before allowed hmove ih =>
      rename_i past n n' move
      rcases ih with ⟨plan', v', ha', hcoming⟩ | ⟨hover, _⟩
      · have hplan : plan' ≠ [] := by
          rintro rfl
          exact stack_ne_of_during allowed ha'.conducted.stage.over
        rcases ha'.step (hs.reaches before.reaches) allowed.1 hmove with
          ⟨base', plan'', v'', hbase, ha'', hgoes⟩
        cases hbase hplan
        have hseen : seen g k (⟨n, move⟩ :: past) =
            seen g k past ++
              if told? g ⟨n, move⟩ = some k then [v'.state] else [] :=
          seen_cons ha'.conducted.viewer
        cases hgoes with
        | keeps untold state closed =>
            left
            refine ⟨plan', v'', ha'', ?_⟩
            rw [hseen, untold, if_neg nofun, List.append_nil, state]
            exact hcoming
        | closes closing untold idle closed => exact absurd rfl hplan
        | begins issued untold => exact absurd rfl hplan
        | advances step working told =>
            left
            refine ⟨plan'', v'', ha'', ?_⟩
            rw [hseen, told, hcoming, step.coming ha'.once ha'.fresh,
              List.append_assoc]
        | fails fallible untold state closed failed =>
            exact .inr ⟨ha''.conducted.stage.over, failed⟩
      · exact absurd hover (stack_ne_of_during allowed)

/-- An operation on the loop that is issued while nobody is told of it, and that
does not fail, tells the observer what it shows. -/
theorem told_of_operation (hs : Steady m.world m.stack)
    (ha : Attends g k base plan v m) {op : Op K L}
    (asked : op.steers g = true ∨ op = .close g) (ready : HasControl m.stack)
    (untold : forall j, .outside (.viewer j runningType g) ∉ m.stack)
    (course : History (component K L) (during m.stack (Courteous g k))
      (m.issue (component K L) op) past n)
    (ended : n.stack = m.stack) (returned : exists x, n.result = .ok x) :
    seen g k past = shows op v.state := by
  have hmove :
      m.move? (component K L) (.issue op) = some (m.issue (component K L) op) :=
    move?_of_hasControl op ready
  have hplan : plan = [] := ha.conducted.stage.rest ready untold
  subst hplan
  have hbase : m.stack = base := ha.conducted.stage.over
  subst hbase
  rcases asked with hsteers | rfl
  · have hs' :
        Steady (m.issue (component K L) op).world
          (m.issue (component K L) op).stack :=
      hs.move hmove
    have ha' : Attends g k m.stack op.plan v (m.issue (component K L) op) :=
      ⟨ha.conducted.begins hsteers ready, ha.once, fun todo hmem =>
        absurd hmem ((plan_first op g).2 todo)⟩
    rcases told_of_course hs' ha' course with
      ⟨plan', v', hattends, hcoming⟩ | ⟨_, e, hfailed⟩
    · have hplan : plan' = [] := hattends.conducted.stage.done ended
      rw [coming_first, hplan] at hcoming
      rw [hcoming]
      exact (List.append_nil _).symm
    · rcases returned with ⟨x, hx⟩
      rw [hfailed] at hx
      cases hx
  · have hdone : (m.issue (component K L) (.close g)).stack = m.stack := by
      rw [issue_close m ha.conducted.viewer]
    rw [course.of_done hdone]
    cases v.state with
    | idle => rfl
    | running => rfl

end Course

/-- An observer subscribes while the loop is idle.  Whoever is told of the loop
does not throw, and until it is done nobody runs, stops, resets or closes the
viewer; at any other time everybody may.  Then what the observer sees alternates
and begins with a loop that runs.  It is told of each turn of the loop that is
not made by a close, and of nothing else: only the last turn may still be to
come, while the observers are being told of it.  An operation on the viewer that
returns has told it of a start, of a halt or, if a running loop is reset, of
both; of nothing, if there was nothing to do, and of nothing, if it was a
close. -/
theorem notifications_alternate {m₀ m n : HostMachine K L} {g : Nat} {k : K}
    {v : Viewer K L} {past : List (HostMoment K L)} (still : Still m₀.world)
    (unused : m₀.stack = []) (run : Reaches (component K L) anyMove m₀ m)
    (ready : HasControl m.stack) (hv : m.world.viewers[g]? = some v)
    (idle : v.state = .idle)
    (once : (m.world.observers g runningType).count k = 1)
    (untold : forall j, .outside (.viewer j runningType g) ∉ m.stack)
    (history : History (component K L) (Courteous g k) m past n) :
    Alternates (seen g k past)
      ∧ (turns g past = seen g k past
          ∨ exists todo s,
            .work (.notify g runningType todo) ∈ n.stack ∧ k ∈ todo
              ∧ stateOf g n.world = some s
              ∧ turns g past = seen g k past ++ [s])
      ∧ forall op : Op K L,
          op.steers g = true ∨ op = .close g -> HasControl n.stack ->
          (forall j, .outside (.viewer j runningType g) ∉ n.stack) ->
          forall (during' : List (HostMoment K L)) (n' : HostMachine K L),
            History (component K L) (during n.stack (Courteous g k))
              (n.issue (component K L) op) during' n' ->
            n'.stack = n.stack -> (exists x, n'.result = .ok x) ->
            forall s,
              stateOf g n.world = some s -> seen g k during' = shows op s := by
  have hs := steady_of_reaches still unused run
  have hfirst := Account.start hs.poised.shaped ready hv idle once untold
  rcases hfirst.of_history hs history with ⟨base, plan, v', account⟩
  have hs' : Steady n.world n.stack := hs.reaches history.reaches
  refine ⟨?_, ?_, ?_⟩
  · have halternate := account.alternate
    rw [account.told] at halternate
    exact halternate.of_append
  · rcases owed_or_none account.attends.conducted.planned with
      hnone | ⟨todo, hmem, hk, howed⟩
    · left
      rw [account.told, hnone, List.append_nil]
    · right
      refine ⟨todo, v'.state, account.attends.conducted.stage.mem hmem, hk,
        stateOf_present account.attends.conducted.viewer, ?_⟩
      rw [account.told, howed]
  · intro op asked ready' untold' during' n' course ended returned s hstate
    rw [stateOf_present account.attends.conducted.viewer] at hstate
    cases hstate
    exact told_of_operation hs' account.attends asked ready' untold' course
      ended returned

def polite (m : HostMachine K L) : Move (Op K L) -> Bool
  | .issue (.unobserve _ _ _) => false
  | .issue _ => m.stack.isEmpty
  | .throw _ => false
  | _ => true

omit [LoopLogic L] [DecidableEq K] in
theorem courteous_of_polite (g : Nat) (k : K) (m : HostMachine K L)
    (move : Move (Op K L)) (h : polite m move = true) :
    Courteous g k m move := by
  constructor
  · constructor
    · rintro j hj op rfl
      have hempty : m.stack = [] := by
        cases op <;> first | exact List.isEmpty_iff.mp h | cases h
      rw [hempty] at hj
      cases hj
    · rintro e j rest rfl
      cases h
  · rintro rfl
    cases h

omit [LoopLogic L] [DecidableEq K] in
theorem during_of_polite (g : Nat) (k : K) (m : HostMachine K L)
    (move : Move (Op K L)) (h : (polite m move && !m.stack.isEmpty) = true) :
    during [] (Courteous g k) m move := by
  rw [Bool.and_eq_true, Bool.not_eq_true', List.isEmpty_eq_false_iff] at h
  exact ⟨courteous_of_polite g k m move h.1, List.length_pos_iff.mpr h.2⟩

def follow? (check : HostMachine K L -> Move (Op K L) -> Bool)
    (moves : List (Move (Op K L))) (m : HostMachine K L) :
    Option (List (HostMoment K L) × HostMachine K L) :=
  moves.foldlM (fun p move =>
      if check p.2 move then
        (p.2.move? (component K L) move).map fun k => (⟨p.2, move⟩ :: p.1, k)
      else none)
    ([], m)

theorem returned_of_toBool {r : Except Failure Value} (h : r.toBool = true) :
    exists x, r = .ok x := by
  cases r with
  | ok x => exact ⟨x, rfl⟩
  | error e => cases h

/-- A run and then a reset: the observer sees the loop run, and then rest and
run again. -/
theorem told_of_run_and_reset :
    exists (m n n' : HostMachine String Logic)
        (past course : List (HostMoment String Logic)),
      Reaches (component String Logic) anyMove
        ⟨oneViewer .standard, [], .ok .nothing⟩ m
        ∧ History (component String Logic) (Courteous 0 "k") m past n
        ∧ n.stack = []
        ∧ seen 0 "k" past = [.running] ∧ Alternates (seen 0 "k" past)
        ∧ History (component String Logic) (during [] (Courteous 0 "k"))
            (n.issue (component String Logic) (.reset 0)) course n'
        ∧ n'.stack = [] ∧ seen 0 "k" course = [.idle, .running] := by
  let m₀ : HostMachine String Logic := ⟨oneViewer .standard, [], .ok .nothing⟩
  let m := m₀.issue (component String Logic) (.observe 0 runningType "k")
  let starting : List (Move (Op String Logic)) :=
    [.issue (.run 0), .work, .work, .work, .work, .giveBack, .work]
  let resetting : List (Move (Op String Logic)) :=
    [.work, .work, .giveBack, .work, .work, .work, .work, .work, .giveBack,
     .work]
  have run : Reaches (component String Logic) anyMove m₀ m :=
    Reaches.refl.step trivial (move?_of_hasControl _ hasControl_nil)
  have hfollowed : ((follow? polite starting m).bind fun p =>
      (follow? (fun n move => polite n move && !n.stack.isEmpty) resetting
        (p.2.issue (component String Logic) (.reset 0))).map fun q =>
          (p.2.stack.isEmpty, stateOf 0 p.2.world, seen 0 "k" p.1,
            q.2.stack.isEmpty,
            q.2.result.toBool)) =
      some (true, some .running, [.running], true, true) := by
    decide +kernel
  rcases Option.bind_eq_some_iff.mp hfollowed with ⟨⟨past, n⟩, hstarted, hrest⟩
  rcases Option.map_eq_some_iff.mp hrest with ⟨⟨course, n'⟩, hreset, hfacts⟩
  simp only [Prod.mk.injEq, List.isEmpty_iff] at hfacts
  rcases hfacts with ⟨hrested, hstate, hseen, hover, hreturned⟩
  have history : History (component String Logic) (Courteous 0 "k") m past n :=
    .of_foldlM (courteous_of_polite 0 "k") .start hstarted
  have hcourse : History (component String Logic) (during [] (Courteous 0 "k"))
      (n.issue (component String Logic) (.reset 0)) course n' :=
    .of_foldlM (during_of_polite 0 "k") .start hreset
  rcases notifications_alternate (still_oneViewer _) rfl run hasControl_nil rfl
    rfl rfl
    (fun _ => List.not_mem_nil) history with ⟨halternates, _, htold⟩
  rw [hrested] at htold
  have hshown :=
    htold (.reset 0) (.inl rfl) hasControl_nil (fun _ => List.not_mem_nil)
      course n'
      hcourse hover (returned_of_toBool hreturned) .running hstate
  exact ⟨m, n, n', past, course, run, history, hrested, hseen, halternates,
    hcourse, hover, hshown⟩

/-!
# Observers that let others act
-/

/-- Those who are told of a loop neither throw nor start, stop or close anything
of it while they have control themselves; what they have begun may still do
so. -/
structure Restrained (g : Nat) (k : K) (m : HostMachine K L)
    (move : Move (Op K L)) : Prop where
  restrained : forall j rest,
    m.stack = .outside (.viewer j runningType g) :: rest ->
    (forall op, move = .issue op -> op.steers g = false ∧ op ≠ .close g)
      ∧ forall e, move ≠ .throw e
  subscribed : move ≠ .issue (.unobserve g runningType k)

def toldOnTop (g : Nat) : List (Level (Task K) (Callee K)) -> Bool
  | .outside (.viewer _ type i) :: _ => i = g && type = runningType
  | _ => false

def modest (g : Nat) (m : HostMachine K L) : Move (Op K L) -> Bool
  | .issue (.unobserve _ _ _) => false
  | .issue (.frame _) => true
  | .issue _ => !toldOnTop g m.stack
  | .throw _ => false
  | _ => true

omit [LoopLogic L] [DecidableEq K] in
theorem restrained_of_modest (g : Nat) (k : K) (m : HostMachine K L)
    (move : Move (Op K L)) (h : modest g m move = true) :
    Restrained g k m move := by
  constructor
  · intro j rest hstack
    have htop : toldOnTop g m.stack = true := by
      rw [hstack]
      simp [toldOnTop]
    constructor
    · rintro op rfl
      cases op with
      | frame a => exact ⟨rfl, nofun⟩
      | unobserve i type j' => cases h
      | _ => simp [modest, htop] at h
    · rintro e rfl
      cases h
  · rintro rfl
    cases h

/-- An observer that is told of the start begins a frame, and an observer of the
tick stops the loop.  The next observer in turn, whom nobody stopped from
listening, sees an idle loop twice. -/
theorem told_of_idle_twice :
    exists (m n : HostMachine String Logic)
        (past : List (HostMoment String Logic)),
      Reaches (component String Logic) anyMove
          ⟨oneViewer (.cube (.start ⟨[], []⟩ 0.5)), [], .ok .nothing⟩ m
        ∧ m.stack = [] ∧ stateOf 0 m.world = some .idle
        ∧ (m.world.observers 0 runningType).count "b" = 1
        ∧ History (component String Logic) (Restrained 0 "b") m past n
        ∧ n.stack = []
        ∧ seen 0 "b" past = [.idle, .idle]
        ∧ ¬ Alternates (seen 0 "b" past) := by
  let m₀ : HostMachine String Logic :=
    ⟨oneViewer (.cube (.start ⟨[], []⟩ 0.5)), [], .ok .nothing⟩
  let m₁ := m₀.issue (component String Logic) (.observe 0 runningType "a")
  let m₂ := m₁.issue (component String Logic) (.observe 0 runningType "b")
  let m := m₂.issue (component String Logic) (.observe 0 frameType "f")
  let moves : List (Move (Op String Logic)) :=
    [.issue (.run 0), .work, .work, .work, .work, .issue (.frame 0), .work,
      .work, .issue (.stop 0), .work, .work, .giveBack, .work, .giveBack, .work,
      .giveBack, .work, .work, .work, .work, .work, .giveBack, .work, .giveBack,
      .work]
  have run₁ : Reaches (component String Logic) anyMove m₀ m₁ :=
    Reaches.refl.step trivial (move?_of_hasControl _ hasControl_nil)
  have run₂ : Reaches (component String Logic) anyMove m₀ m₂ :=
    run₁.step trivial (move?_of_hasControl _ hasControl_nil)
  have run : Reaches (component String Logic) anyMove m₀ m :=
    run₂.step trivial (move?_of_hasControl _ hasControl_nil)
  have hfollowed :
      (follow? (modest 0) moves m).map
        (fun p => (p.2.stack.isEmpty, seen 0 "b" p.1)) =
        some (true, [.idle, .idle]) := by
    decide +kernel
  rcases Option.map_eq_some_iff.mp hfollowed with ⟨⟨past, n⟩, hmoves, hfacts⟩
  simp only [Prod.mk.injEq, List.isEmpty_iff] at hfacts
  rcases hfacts with ⟨hrested, hseen⟩
  have history : History (component String Logic) (Restrained 0 "b") m past n :=
    .of_foldlM (restrained_of_modest 0 "b") .start hmoves
  refine ⟨m, n, past, run, rfl, rfl, rfl, history, hrested, hseen, ?_⟩
  intro halternates
  rw [hseen] at halternates
  cases halternates 0 .idle rfl

end Host
end WireView
