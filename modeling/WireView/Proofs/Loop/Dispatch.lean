import WireView.Loop.Signals
import WireView.Proofs.Loop.Registry
import WireView.Proofs.Reentrant.Course

/-!
# What a dispatch calls

A dispatch lists the listeners of its type when it begins.  One after the other
has its turn, and is called if it is registered then.  The course of a dispatch
shows both, the turns and the calls that the dispatch itself makes; what the
listeners do in between lies higher on the stack.

Whether a listener is registered is asked of the live list.  One that is removed
and added again before its turn is called all the same, although its second
registration is younger than the dispatch.
-/

namespace WireView
namespace Signals

open Reentrant
open Reentrant.Machine

variable {K P : Type}

abbrev SignalMachine (K P : Type) : Type :=
  Machine (World K) (Task K P) (Callee K P) Value

abbrev SignalMoment (K P : Type) : Type :=
  Moment (World K) (Op K P) (Task K P) (Callee K P) Value

/-!
# What a move does to the registries
-/

theorem registry_onTarget (w : World K) (t u : Nat)
    (f : Registry K -> Registry K) :
    (w.onTarget t f).registry u = w.registry u
      ∨ u = t ∧ (w.onTarget t f).registry u = f (w.registry u) := by
  unfold World.registry World.onTarget
  rw [Array.getElem?_modify]
  by_cases ht : t = u
  · subst ht
    rw [if_pos rfl]
    cases w.targets[t]? with
    | none => exact .inl rfl
    | some r => exact .inr ⟨rfl, rfl⟩
  · rw [if_neg ht]
    exact .inl rfl

theorem registry_ofSize (size u : Nat) :
    (World.ofSize size : World K).registry u = {} := by
  unfold World.registry World.ofSize
  rw [Array.getElem?_replicate]
  split <;> rfl

def Op.adds? : Op K P -> Option (Nat × String × K)
  | .add t type k => some (t, type, k)
  | .subscribe t type k => some (t, type, k)
  | _ => none

variable [DecidableEq K]

/-- The ways in which an operation can change a registry. -/
inductive Registers (op : Op K P) (u : Nat) (r r' : Registry K) : Prop where
  | same (registry : r' = r)
  | add (type : String) (k : K) (adds : op.adds? = some (u, type, k))
    (registry : r' = r.add type k)
  | remove (type : String) (k : K) (registry : r' = r.remove type k)

theorem registers_add (op : Op K P) (w : World K) (t u : Nat) (type : String)
    (k : K) (h : op.adds? = some (t, type, k)) :
    Registers op u (w.registry u)
      ((w.onTarget t fun r => r.add type k).registry u) := by
  rcases registry_onTarget w t u fun r => r.add type k with hsame | ⟨rfl, hadd⟩
  · exact .same hsame
  · exact .add type k h hadd

theorem registers_remove (op : Op K P) (w : World K) (t u : Nat) (type : String)
    (k : K) :
    Registers op u (w.registry u)
      ((w.onTarget t fun r => r.remove type k).registry u) := by
  rcases registry_onTarget w t u fun r => r.remove type k with
    hsame | ⟨_, hremove⟩
  · exact .same hsame
  · exact .remove type k hremove

theorem registers_perform (op : Op K P) (w : World K) (u : Nat) :
    Registers op u (w.registry u) ((perform op w).1.registry u) := by
  cases op with
  | add t type k => exact registers_add _ w t u type k rfl
  | remove t type k => exact registers_remove _ w t u type k
  | count t type => exact .same rfl
  | dispatch t type payload => exact .same rfl
  | subscribe t type k => exact registers_add _ w t u type k rfl
  | dispose s =>
      show Registers _ u (w.registry u) ((w.dispose s).registry u)
      unfold World.dispose
      split
      · split
        · exact registers_remove _
            { w with
              subscriptions := w.subscriptions.modify s fun v =>
                { v with isActive := false } }
            _ u _ _
        · exact .same rfl
      · exact .same rfl
  | isActive s => exact .same rfl

theorem resume_world (t : Task K P) (w : World K) : (resume t w).1 = w := by
  refine Registry.step_elim
    (motive := fun r : World K × Progress (Task K P) (Callee K P) Value =>
      r.1 = w) t.todo ?_ ?_ ?_
  · exact fun _ => rfl
  · exact fun _ _ _ _ => rfl
  · exact fun _ _ _ _ => rfl

theorem registry_of_move {m n : SignalMachine K P} {move : Move (Op K P)}
    (h : m.move? (component K P) move = some n) (u : Nat) :
    n.world.registry u = m.world.registry u
      ∨ exists op,
        move = .issue op
          ∧ Registers op u (m.world.registry u) (n.world.registry u) := by
  cases move with
  | work =>
      rcases move?_work h with ⟨t, rest, _, rfl⟩
      rw [proceed_world]
      exact .inl
        (congrArg (fun w => World.registry w u) (resume_world t m.world))
  | issue op =>
      rcases move?_issue h with ⟨_, rfl⟩
      unfold issue
      rw [proceed_world]
      exact .inr ⟨op, rfl, registers_perform op m.world u⟩
  | giveBack =>
      rcases move?_giveBack h with ⟨c, rest, _, rfl⟩
      exact .inl rfl
  | throw e =>
      rcases move?_throw h with ⟨c, rest, _, rfl⟩
      exact .inl rfl

theorem distinct_of_move {m n : SignalMachine K P} {move : Move (Op K P)}
    (hmove : m.move? (component K P) move = some n) (u : Nat)
    (h : (m.world.registry u).Distinct) :
    (n.world.registry u).Distinct := by
  rcases registry_of_move hmove u with hsame | ⟨op, _, hop⟩
  · rw [hsame]
    exact h
  · cases hop with
    | same registry => exact registry ▸ h
    | add type l _ registry => exact registry ▸ h.add type l
    | remove type l registry => exact registry ▸ h.remove type l

omit [DecidableEq K] in
theorem distinct_ofSize (size u : Nat) :
    ((World.ofSize size : World K).registry u).Distinct := by
  intro type
  rw [registry_ofSize]
  exact List.nodup_nil

theorem distinct_of_reaches {size : Nat} {r : Except Failure Value}
    {m : SignalMachine K P}
    (reached : Reaches (component K P) anyMove ⟨World.ofSize size, [], r⟩ m)
    (u : Nat) :
    (m.world.registry u).Distinct := by
  apply reached.invariant (P := fun k => (k.world.registry u).Distinct)
  · exact distinct_ofSize size u
  · intro k k' move hk _ hmove
    exact distinct_of_move hmove u hk

/-!
# What the course of a dispatch shows
-/

section looks

variable (depth : Nat)

/-- The listener whose turn comes in a dispatch that was issued at a depth of
the stack, and whether it is registered then. -/
def turn? (t : SignalMoment K P) : Option (K × Bool) :=
  match t.move, t.machine.stack with
  | .work, .work ⟨tgt, type, _, k :: _⟩ :: below =>
      if below.length = depth then
        some (k, (t.machine.world.registry tgt).contains type k)
      else
        none
  | _, _ => none

/-- The listener that is called by a dispatch that was issued at a depth of the
stack, and what it receives. -/
def invoked? (t : SignalMoment K P) : Option (Callee K P) :=
  if t.machine.stack.length = depth + 1 then t.call? (component K P) else none

def raised? (t : SignalMoment K P) : Option Failure :=
  match t.move with
  | .throw e => if t.machine.stack.length = depth + 2 then some e else none
  | _ => none

def turns (past : List (SignalMoment K P)) : List (K × Bool) :=
  inOrder (turn? depth) past

def invoked (past : List (SignalMoment K P)) : List (Callee K P) :=
  inOrder (invoked? depth) past

def raised (past : List (SignalMoment K P)) : List Failure :=
  inOrder (raised? depth) past

end looks

def eventOf (tgt : Nat) (type : String) (payload : Option P) : Event P :=
  match payload with
  | some p => .payload p
  | none => .notice type tgt

/-- A dispatch with listeners to go: those before them have had their turns, and
the registered ones among these were called. -/
structure Account (d : Task K P) (depth : Nat) (past : List (SignalMoment K P))
    (todo : List K) : Prop where
  order : (turns depth past).map Prod.fst ++ todo = d.todo
  calls : invoked depth past = ((turns depth past).filter Prod.snd).map fun x =>
    ⟨x.1, d.event⟩

/-- The stages of a dispatch that was issued on a stack. -/
inductive Stage (d : Task K P) (base : List (Level (Task K P) (Callee K P)))
    (past : List (SignalMoment K P)) (n : SignalMachine K P) : Prop where
  | between (todo : List K) (account : Account d base.length past todo)
      (quiet : raised base.length past = [])
      (stack : n.stack = .work ⟨d.target, d.type, d.event, todo⟩ :: base)
  | inside (k : K) (above : List (Level (Task K P) (Callee K P)))
      (todo : List K)
      (account : Account d base.length past todo)
      (quiet : raised base.length past = [])
      (last : (invoked base.length past).getLast? = some ⟨k, d.event⟩)
      (stack : n.stack = above ++ .outside ⟨k, d.event⟩
        :: .work ⟨d.target, d.type, d.event, todo⟩ :: base)
  | finished (account : Account d base.length past [])
      (quiet : raised base.length past = [])
      (stack : n.stack = base) (result : n.result = .ok .nothing)
  | cut (e : Failure) (k : K) (todo : List K) (prev : SignalMachine K P)
      (earlier : List (SignalMoment K P))
      (split : past = ⟨prev, .throw e⟩ :: earlier)
      (account : Account d base.length past todo)
      (quiet : raised base.length earlier = [])
      (last : (invoked base.length past).getLast? = some ⟨k, d.event⟩)
      (stack : prev.stack = .outside ⟨k, d.event⟩
        :: .work ⟨d.target, d.type, d.event, todo⟩ :: base)
      (left : n = ⟨prev.world, base, .error e⟩)

variable {d : Task K P} {base : List (Level (Task K P) (Callee K P))}
variable {past : List (SignalMoment K P)} {m n : SignalMachine K P}

theorem Account.skip {depth : Nat} {todo : List K}
    (h : Account d depth past todo) {t : SignalMoment K P}
    (hturn : turn? depth t = none) (hcall : invoked? depth t = none) :
    Account d depth (t :: past) todo := by
  constructor
  · rw [turns, inOrder_cons_none hturn]
    exact h.order
  · rw [turns, invoked, inOrder_cons_none hturn, inOrder_cons_none hcall]
    exact h.calls

theorem stage_between {todo : List K} {move : Move (Op K P)}
    (account : Account d base.length past todo)
    (quiet : raised base.length past = [])
    (stack : n.stack = .work ⟨d.target, d.type, d.event, todo⟩ :: base)
    (hmove : n.move? (component K P) move = some m) :
    Stage d base (⟨n, move⟩ :: past) m := by
  rcases move?_under_work hmove stack with ⟨rfl, rfl⟩
  have hquiet : raised base.length (⟨n, .work⟩ :: past) = [] :=
    (inOrder_cons_none rfl).trans quiet
  have hcall : invoked? base.length (⟨n, .work⟩ : SignalMoment K P) =
      (resume ⟨d.target, d.type, d.event, todo⟩ n.world).2.callee? := by
    simp only [invoked?, stack, List.length_cons, if_pos, Moment.call?]
    rfl
  cases todo with
  | nil =>
      have hturn :
          turn? base.length (⟨n, .work⟩ : SignalMoment K P) = none := by
        simp only [turn?, stack]
      refine .finished (account.skip hturn (hcall.trans rfl)) hquiet ?_ rfl
      rw [proceed_stack]
      rfl
  | cons k todo =>
      have hturn : turn? base.length (⟨n, .work⟩ : SignalMoment K P) =
          some (k, (n.world.registry d.target).contains d.type k) := by
        simp only [turn?, stack, if_pos]
      have horder :
          (turns base.length (⟨n, .work⟩ :: past)).map Prod.fst ++ todo =
            d.todo := by
        rw [turns, inOrder_cons_some hturn, List.map_append,
          List.append_assoc]
        exact account.order
      cases hlisted : (n.world.registry d.target).contains d.type k with
      | true =>
          have hresume :=
            resume_listed (t := d) (Registry.contains_iff_mem.mp hlisted) todo
          have hinvoked : invoked base.length (⟨n, .work⟩ :: past) =
              invoked base.length past ++ [⟨k, d.event⟩] :=
            inOrder_cons_some (hcall.trans (by rw [hresume]; rfl))
          refine .inside k [] todo ⟨horder, ?_⟩ hquiet ?_ ?_
          · rw [hinvoked, account.calls, turns, turns, inOrder_cons_some hturn,
              hlisted]
            simp
          · rw [hinvoked, List.getLast?_concat]
          · rw [proceed_stack]
            show (resume _ n.world).2.over base = _
            rw [hresume]
            rfl
      | false =>
          have hresume :=
            resume_unlisted (t := d)
              (Registry.contains_eq_false.mp hlisted) todo
          have hinvoked :
              invoked base.length (⟨n, .work⟩ :: past) =
                invoked base.length past :=
            inOrder_cons_none (hcall.trans (by rw [hresume]; rfl))
          refine .between todo ⟨horder, ?_⟩ hquiet ?_
          · rw [hinvoked, account.calls, turns, turns, inOrder_cons_some hturn,
              hlisted]
            simp
          · rw [proceed_stack]
            show (resume _ n.world).2.over base = _
            rw [hresume]
            rfl

theorem stage_inside (ready : HasControl base) {k : K}
    {above : List (Level (Task K P) (Callee K P))} {todo : List K}
    {move : Move (Op K P)} (account : Account d base.length past todo)
    (quiet : raised base.length past = [])
    (last : (invoked base.length past).getLast? = some ⟨k, d.event⟩)
    (stack : n.stack =
      above ++
        .outside ⟨k, d.event⟩ :: .work ⟨d.target, d.type, d.event, todo⟩ ::
          base)
    (hmove : n.move? (component K P) move = some m) :
    Stage d base (⟨n, move⟩ :: past) m := by
  have hlength : n.stack.length = above.length + (base.length + 2) := by
    rw [stack, List.length_append]
    rfl
  have hcall : invoked? base.length (⟨n, move⟩ : SignalMoment K P) = none := by
    unfold invoked?
    rw [if_neg]
    show n.stack.length ≠ base.length + 1
    omega
  have hturn : turn? base.length (⟨n, move⟩ : SignalMoment K P) = none := by
    unfold turn?
    split
    · rename_i below _ hs
      have hbelow : n.stack.length = below.length + 1 := congrArg List.length hs
      rw [if_neg]
      omega
    · rfl
  have hinvoked :
      invoked base.length (⟨n, move⟩ :: past) = invoked base.length past :=
    inOrder_cons_none hcall
  have haccount := account.skip hturn hcall
  rcases move?_inside hmove stack with
    ⟨above', hstack, _, htop⟩ | ⟨_, rfl, rfl⟩ | ⟨rfl, e, rfl, rfl⟩
  · have hraise :
        raised? base.length (⟨n, move⟩ : SignalMoment K P) = none := by
      cases move with
      | throw e =>
          -- the listener itself does not throw here, so something lies above
          -- it
          have hne : above ≠ [] := by
            intro hnil
            rcases htop hnil with ⟨op, hop⟩
            cases hop
          have hpos := List.length_pos_iff.mpr hne
          simp only [raised?]
          rw [if_neg]
          omega
      | _ => rfl
    exact .inside k above' todo haccount
      ((inOrder_cons_none hraise).trans quiet)
      (hinvoked ▸ last) hstack
  · exact .between todo haccount ((inOrder_cons_none rfl).trans quiet) rfl
  · have hunwind :
        unwind (.work ⟨d.target, d.type, d.event, todo⟩ :: base) = base :=
      unwind_of_hasControl ready
    exact .cut e k todo n past rfl haccount quiet (hinvoked ▸ last) stack
      (by rw [hunwind])

theorem stage_of_course {start : SignalMachine K P} (ready : HasControl base)
    (begun : start.stack = .work d :: base)
    (course : History (component K P) (during base anyMove) start past n) :
    Stage d base past n := by
  induction course with
  | start => exact .between d.todo ⟨rfl, rfl⟩ rfl begun
  | step _ hrule hmove ih =>
      cases ih with
      | between todo account quiet stack =>
          exact stage_between account quiet stack hmove
      | inside k above todo account quiet last stack =>
          exact stage_inside ready account quiet last stack hmove
      | finished account quiet stack result =>
          exact absurd stack (stack_ne_of_during hrule)
      | cut e k todo prev earlier split account quiet last stack left =>
          exact absurd (congrArg Machine.stack left) (stack_ne_of_during hrule)

theorem Stage.account (stage : Stage d base past n) :
    exists todo, Account d base.length past todo := by
  cases stage with
  | between todo account quiet stack => exact ⟨todo, account⟩
  | inside k above todo account quiet last stack => exact ⟨todo, account⟩
  | finished account quiet stack result => exact ⟨[], account⟩
  | cut e k todo prev earlier split account quiet last stack left =>
      exact ⟨todo, account⟩

theorem Stage.outcome (stage : Stage d base past n) :
    raised base.length past = []
        ∧ (n.stack = base ->
          n.result = .ok .nothing
            ∧ (turns base.length past).map Prod.fst = d.todo)
      ∨ exists e k prev earlier, past = ⟨prev, .throw e⟩ :: earlier
        ∧ raised base.length earlier = []
        ∧ (invoked base.length past).getLast? = some ⟨k, d.event⟩
        ∧ prev.stack.head? = some (.outside ⟨k, d.event⟩)
        ∧ n = ⟨prev.world, base, .error e⟩ := by
  cases stage with
  | between todo account quiet stack =>
      refine .inl ⟨quiet, fun hover => ?_⟩
      rw [stack] at hover
      exact absurd hover (List.cons_ne_self _ _)
  | inside k above todo account quiet last stack =>
      refine .inl ⟨quiet, fun hover => ?_⟩
      have hlength := congrArg List.length (stack.symm.trans hover)
      simp only [List.length_append, List.length_cons] at hlength
      omega
  | finished account quiet stack result =>
      refine .inl ⟨quiet, fun _ => ⟨result, ?_⟩⟩
      rw [← account.order, List.append_nil]
  | cut e k todo prev earlier split account quiet last stack left =>
      refine .inr ⟨e, k, prev, earlier, split, quiet, last, ?_, left⟩
      rw [stack]
      rfl

/-!
# Turns and calls
-/

theorem Account.sublist {depth : Nat} {todo : List K}
    (h : Account d depth past todo) :
    ((invoked depth past).map Callee.listener).Sublist d.todo := by
  have hmap : (invoked depth past).map Callee.listener =
      ((turns depth past).filter Prod.snd).map Prod.fst := by
    rw [h.calls, List.map_map]
    rfl
  rw [hmap, ← h.order]
  exact (List.filter_sublist.map _).trans (List.sublist_append_left _ _)

/-- A dispatch calls, in order and with one event, exactly those of the
listeners listed when it began that are registered when their turn comes, each
once at most.  It goes on to the end of the list, or to the first listener that
raises: then it ends with what was raised, and leaves the world as that listener
left it. -/
theorem dispatch_calls_registered {size : Nat} {r : Except Failure Value}
    {tgt : Nat} {type : String} {payload : Option P}
    (reached : Reaches (component K P) anyMove ⟨World.ofSize size, [], r⟩ m)
    (ready : HasControl m.stack)
    (course : History (component K P) (during m.stack anyMove)
      (m.issue (component K P) (.dispatch tgt type payload)) past n) :
    ((m.world.registry tgt).listeners type).Nodup
      ∧ (turns m.stack.length past).map Prod.fst <+:
        (m.world.registry tgt).listeners type
      ∧ invoked m.stack.length past =
          ((turns m.stack.length past).filter Prod.snd).map
          (fun x => ⟨x.1, eventOf tgt type payload⟩)
      ∧ ((invoked m.stack.length past).map Callee.listener).Nodup
      ∧ (forall c, c ∈ invoked m.stack.length past ->
          c.listener ∈ (m.world.registry tgt).listeners type)
      ∧ (raised m.stack.length past = []
            ∧ (n.stack = m.stack -> n.result = .ok .nothing
              ∧ (turns m.stack.length past).map Prod.fst =
                (m.world.registry tgt).listeners type)
          ∨ exists e k prev earlier, past = ⟨prev, .throw e⟩ :: earlier
            ∧ raised m.stack.length earlier = []
            ∧ (invoked m.stack.length past).getLast? =
              some ⟨k, eventOf tgt type payload⟩
            ∧ prev.stack.head? = some (.outside ⟨k, eventOf tgt type payload⟩)
            ∧ n = ⟨prev.world, m.stack, .error e⟩) := by
  have hdistinct := distinct_of_reaches reached tgt type
  have hstage :
      Stage ⟨tgt, type, eventOf tgt type payload,
        (m.world.registry tgt).listeners type⟩
        m.stack past n := stage_of_course ready rfl course
  rcases hstage.account with ⟨todo, haccount⟩
  have hsublist := haccount.sublist
  refine ⟨hdistinct, ⟨todo, haccount.order⟩, haccount.calls,
    hsublist.nodup hdistinct, ?_, hstage.outcome⟩
  intro c hc
  exact hsublist.mem (List.mem_map_of_mem hc)

/-- A target to which listeners of one type were added in order. -/
def gathered (K P : Type) [DecidableEq K] (type : String) (ks : List K) :
    SignalMachine K P :=
  ks.foldl (fun m k => m.issue (component K P) (.add 0 type k))
    ⟨World.ofSize 1, [], .ok .nothing⟩

theorem reaches_gathered (type : String) (ks : List K) :
    Reaches (component K P) anyMove ⟨World.ofSize 1, [], .ok .nothing⟩
      (gathered K P type ks)
      ∧ (gathered K P type ks).stack = [] := by
  suffices h : forall m : SignalMachine K P, m.stack = [] ->
      Reaches (component K P) anyMove m
          (ks.foldl (fun m k => m.issue (component K P) (.add 0 type k)) m)
        ∧ (ks.foldl (fun m k => m.issue (component K P) (.add 0 type k))
          m).stack = [] from h _ rfl
  induction ks with
  | nil => exact fun m hm => ⟨.refl, hm⟩
  | cons k ks ih =>
      intro m hm
      have hfirst :
          Reaches (component K P) anyMove m
            (m.issue (component K P) (.add 0 type k)) :=
        Reaches.refl.step trivial
          (move?_of_hasControl _ (hm ▸ hasControl_nil))
      rcases ih (m.issue (component K P) (.add 0 type k)) hm with
        ⟨hrest, hstack⟩
      exact ⟨hfirst.trans hrest, hstack⟩

/-- Three listeners: the first one removes the second and adds a fourth, the
third one raises. -/
theorem dispatch_skips_and_stops :
    exists past n, History (component Nat Unit) (during [] anyMove)
        ((gathered Nat Unit "T" [1, 2, 3]).issue (component Nat Unit)
          (.dispatch 0 "T" none)) past n
      ∧ ((gathered Nat Unit "T" [1, 2, 3]).world.registry 0).listeners "T" =
        [1, 2, 3]
      ∧ turns 0 past = [(1, true), (2, false), (3, true)]
      ∧ invoked 0 past = [⟨1, .notice "T" 0⟩, ⟨3, .notice "T" 0⟩]
      ∧ (n.world.registry 0).listeners "T" = [1, 3, 4]
      ∧ n.result = .error .unsupported
      ∧ ((invoked 0 past).map Callee.listener).Nodup := by
  have begun : History (component Nat Unit) (during [] anyMove)
    ((gathered Nat Unit "T" [1, 2, 3]).issue (component Nat Unit)
      (.dispatch 0 "T" none)) [] _ := .start
  have inside := ((begun.next .work ⟨trivial, by decide⟩ rfl).next
    (.issue (.remove 0 "T" 2)) ⟨trivial, by decide⟩ rfl).next
    (.issue (.add 0 "T" 4)) ⟨trivial, by decide⟩ rfl
  have course := (((inside.next .giveBack ⟨trivial, by decide⟩ rfl).next
    .work ⟨trivial, by decide⟩ rfl).next .work ⟨trivial, by decide⟩ rfl).next
    (.throw .unsupported) ⟨trivial, by decide⟩ rfl
  have ready : HasControl (gathered Nat Unit "T" [1, 2, 3]).stack :=
    hasControl_nil
  refine ⟨_, _, course, rfl, rfl, rfl, rfl, rfl, ?_⟩
  exact (dispatch_calls_registered (reaches_gathered "T" [1, 2, 3]).1 ready
    course).2.2.2.1

/-!
# Registrations made during a dispatch
-/

def Adds (tgt : Nat) (type : String) (k : K) (t : SignalMoment K P) : Prop :=
  exists op, t.move = .issue op ∧ op.adds? = some (tgt, type, k)

theorem adds_of_registered {tgt : Nat} {type : String} {k : K}
    {move : Move (Op K P)} (hmove : m.move? (component K P) move = some n)
    (absent : (m.world.registry tgt).contains type k = false)
    (listed : (n.world.registry tgt).contains type k = true) :
    Adds tgt type k ⟨m, move⟩ := by
  rcases registry_of_move hmove tgt with hsame | ⟨op, rfl, hop⟩
  · rw [hsame, absent] at listed
    cases listed
  · cases hop with
    | same registry =>
        rw [registry, absent] at listed
        cases listed
    | add u l adds registry =>
        rw [registry] at listed
        rcases (Registry.contains_add _ _ _ _ _).mp listed with h | ⟨rfl, rfl⟩
        · rw [absent] at h
          cases h
        · exact ⟨op, rfl, adds⟩
    | remove u l registry =>
        rw [registry] at listed
        have h := Registry.contains_of_remove _ listed
        rw [absent] at h
        cases h

theorem exists_adds {rule : SignalMachine K P -> Move (Op K P) -> Prop}
    {tgt : Nat} {type : String} {k : K} {t : SignalMoment K P}
    {later earlier : List (SignalMoment K P)}
    (h : History (component K P) rule m (later ++ t :: earlier) n)
    (absent : (t.machine.world.registry tgt).contains type k = false)
    (listed : (n.world.registry tgt).contains type k = true) :
    exists v, v ∈ later ++ [t] ∧ Adds tgt type k v := by
  induction later generalizing n with
  | nil =>
      cases h with
      | step _ _ hmove =>
          exact ⟨_, List.mem_singleton.mpr rfl,
            adds_of_registered hmove absent listed⟩
  | cons u later ih =>
      cases h with
      | step hpast _ hmove =>
          rename_i prev move _
          cases hprev : (prev.world.registry tgt).contains type k with
          | true =>
              rcases ih hpast hprev with ⟨v, hv, hadds⟩
              exact ⟨v, List.mem_cons_of_mem _ hv, hadds⟩
          | false =>
              exact ⟨_, List.mem_cons_self,
                adds_of_registered hmove hprev listed⟩

theorem turn_of_invoked {move : Move (Op K P)} {c : Callee K P}
    (stage : Stage d base past n)
    (hmove : n.move? (component K P) move = some m)
    (hcall : invoked? base.length ⟨n, move⟩ = some c) :
    c.listener ∈ d.todo
      ∧ (n.world.registry d.target).contains d.type c.listener = true := by
  have hlength : n.stack.length = base.length + 1 := by
    unfold invoked? at hcall
    split at hcall
    · assumption
    · cases hcall
  cases stage with
  | between todo account quiet stack =>
      have hwork : move = .work := by
        cases move <;> simp [move?, stack] at hmove ⊢
      subst hwork
      simp only [invoked?, stack, List.length_cons, if_pos, Moment.call?]
        at hcall
      cases todo with
      | nil => cases hcall
      | cons k todo =>
          have hcalled :
              (resume { d with todo := k :: todo } n.world).2.callee? =
                some c := hcall
          by_cases listed : k ∈ (n.world.registry d.target).listeners d.type
          · rw [resume_listed listed] at hcalled
            cases hcalled
            rw [← account.order]
            exact ⟨List.mem_append_right _ List.mem_cons_self,
              Registry.contains_iff_mem.mpr listed⟩
          · rw [resume_unlisted listed] at hcalled
            cases hcalled
  | inside k above todo account quiet last stack =>
      rw [stack, List.length_append, List.length_cons, List.length_cons]
        at hlength
      omega
  | finished account quiet stack result =>
      rw [stack] at hlength
      omega
  | cut e k todo prev earlier split account quiet last stack left =>
      rw [left] at hlength
      exact absurd hlength (Nat.ne_of_lt (Nat.lt_succ_self _))

/-- If a listener is not registered at some moment of a dispatch and is called
by it later, then it was listed when the dispatch began, and it was added again
in between: a listener that is not added again waits for the next event. -/
theorem unregistered_called_only_if_added {tgt : Nat} {type : String}
    {payload : Option P} {t u : SignalMoment K P}
    {later between earlier : List (SignalMoment K P)} {c : Callee K P}
    (ready : HasControl m.stack)
    (course : History (component K P) (during m.stack anyMove)
      (m.issue (component K P) (.dispatch tgt type payload))
      (later ++ u :: (between ++ t :: earlier)) n)
    (absent : (t.machine.world.registry tgt).contains type c.listener = false)
    (called : invoked? m.stack.length u = some c) :
    c.listener ∈ (m.world.registry tgt).listeners type
      ∧ exists v, v ∈ between ++ [t] ∧ Adds tgt type c.listener v := by
  rcases course.upTo with ⟨k, hcourse⟩
  cases hcourse with
  | step hpast _ hmove =>
      have hstage :
          Stage ⟨tgt, type, eventOf tgt type payload,
            (m.world.registry tgt).listeners type⟩
            m.stack _ _ := stage_of_course ready rfl hpast
      rcases turn_of_invoked hstage hmove called with ⟨hlisted, hregistered⟩
      exact ⟨hlisted, exists_adds hpast absent hregistered⟩

/-- The first of two listeners removes the second and adds it again: the
dispatch that was under way calls it. -/
theorem readded_listener_is_called :
    exists later u between t earlier n,
        History (component Nat Unit) (during [] anyMove)
        ((gathered Nat Unit "T" [1, 2]).issue (component Nat Unit)
          (.dispatch 0 "T" none))
        (later ++ u :: (between ++ t :: earlier)) n
      ∧ (t.machine.world.registry 0).contains "T" 2 = false
      ∧ invoked? 0 u = some ⟨2, .notice "T" 0⟩
      ∧ exists v, v ∈ between ++ [t] ∧ Adds 0 "T" 2 v := by
  have begun : History (component Nat Unit) (during [] anyMove)
    ((gathered Nat Unit "T" [1, 2]).issue (component Nat Unit)
      (.dispatch 0 "T" none)) [] _ := .start
  have removed := (begun.next .work ⟨trivial, by decide⟩ rfl).next
    (.issue (.remove 0 "T" 2)) ⟨trivial, by decide⟩ rfl
  have called :=
    ((removed.next (.issue (.add 0 "T" 2)) ⟨trivial, by decide⟩ rfl).next
      .giveBack ⟨trivial, by decide⟩ rfl).next .work ⟨trivial, by decide⟩ rfl
  have course : History (component Nat Unit) (during [] anyMove)
    ((gathered Nat Unit "T" [1, 2]).issue (component Nat Unit)
      (.dispatch 0 "T" none))
    ([] ++ _ :: ([_] ++ _ :: _)) _ := called
  have ready : HasControl (gathered Nat Unit "T" [1, 2]).stack := hasControl_nil
  refine ⟨_, _, _, _, _, _, course, rfl, rfl, ?_⟩
  exact (unregistered_called_only_if_added ready course rfl rfl).2

end Signals
end WireView
