import WireView.Proofs.Loop.Dispatch

/-!
# Subscriptions and registrations

A subscription is over when it is disposed of, and an active one is meant to
have its listener registered.  The registry knows listeners, not subscriptions:
twins, which are two subscriptions of one listener for one type on one target,
share a registration, and the first of them to be disposed of takes it away.

In a run in which listeners come and go through subscriptions only, this is the
one way in which an active subscription loses its registration, and a listener
that keeps its registration is called by every dispatch that comes to its end.
-/

namespace WireView
namespace Signals

open Reentrant
open Reentrant.Machine

variable {K P : Type}

def Subscription.key (u : Subscription K) : Nat × String × K :=
  (u.target, u.type, u.listener)

def Op.isBare : Op K P -> Bool
  | .add _ _ _ => true
  | .remove _ _ _ => true
  | _ => false

/-- Listeners come and go through subscriptions only. -/
def ThroughSubscriptions (_ : SignalMachine K P) (move : Move (Op K P)) :
    Prop :=
  forall op, move = .issue op -> op.isBare = false

theorem registry_onTarget_of_lt {w : World K} {u : Nat} (h : u < w.targets.size)
    (t : Nat) (f : Registry K -> Registry K) :
    (w.onTarget t f).registry u =
      if u = t then f (w.registry u) else w.registry u := by
  unfold World.registry World.onTarget
  rw [Array.getElem?_modify, Array.getElem?_eq_getElem h]
  by_cases ht : t = u
  · rw [if_pos ht, if_pos ht.symm]
    rfl
  · rw [if_neg ht, if_neg (Ne.symm ht)]

variable [DecidableEq K]

def World.isListed (w : World K) (key : Nat × String × K) : Bool :=
  (w.registry key.1).contains key.2.1 key.2.2

/-- What a moment makes of the registration of a listener: it begins when a
subscription is made and ends when an active one is disposed of. -/
def switch? (key : Nat × String × K) (t : SignalMoment K P) : Option Bool :=
  match t.move with
  | .issue (.subscribe tgt type k) =>
      if (tgt, type, k) = key then some true else none
  | .issue (.dispose s) =>
      match t.machine.world.subscriptions[s]? with
      | some u => if u.isActive = true ∧ u.key = key then some false else none
      | none => none
  | _ => none

/-- An active twin of the subscription was disposed of, and no new one has been
made since. -/
def TwinEnded (past : List (SignalMoment K P)) (s : Nat)
    (key : Nat × String × K) : Prop :=
  exists later t earlier twin, past = later ++ t :: earlier
    ∧ t.move = .issue (.dispose twin) ∧ twin ≠ s ∧ switch? key t = some false
    ∧ forall v, v ∈ later -> switch? key v ≠ some true

/-!
# What a move does to a registration
-/

theorem isListed_add {w : World K} {key : Nat × String × K}
    (h : key.1 < w.targets.size) (tgt : Nat) (type : String) (k : K) :
    (w.onTarget tgt fun r => r.add type k).isListed key = true ↔
      w.isListed key = true ∨ (tgt, type, k) = key := by
  rcases key with ⟨u, type', l⟩
  unfold World.isListed
  rw [registry_onTarget_of_lt h]
  by_cases hu : u = tgt
  · subst hu
    rw [if_pos rfl, Registry.contains_add]
    simp only [Prod.mk.injEq, true_and, @eq_comm _ type' type, @eq_comm _ l k]
  · rw [if_neg hu]
    simp [Ne.symm hu]

theorem isListed_remove {w : World K} {key : Nat × String × K}
    (h : key.1 < w.targets.size) (distinct : (w.registry key.1).Distinct)
    (tgt : Nat) (type : String) (k : K) :
    (w.onTarget tgt fun r => r.remove type k).isListed key = true ↔
      w.isListed key = true ∧ (tgt, type, k) ≠ key := by
  rcases key with ⟨u, type', l⟩
  unfold World.isListed
  rw [registry_onTarget_of_lt h]
  by_cases hu : u = tgt
  · subst hu
    rw [if_pos rfl, Registry.contains_remove distinct]
    simp only [ne_eq, Prod.mk.injEq, true_and, @eq_comm _ type' type,
      @eq_comm _ l k]
  · rw [if_neg hu]
    simp [Ne.symm hu]

variable {m n : SignalMachine K P} {move : Move (Op K P)}
  {key : Nat × String × K}

theorem isListed_issue {op : Op K P}
    (through : ThroughSubscriptions m (.issue op))
    (h : key.1 < m.world.targets.size)
    (distinct : (m.world.registry key.1).Distinct) :
    (perform op m.world).1.isListed key =
      (switch? key ⟨m, .issue op⟩).getD (m.world.isListed key) := by
  cases op with
  | add tgt type k => cases through _ rfl
  | remove tgt type k => cases through _ rfl
  | count tgt type => rfl
  | dispatch tgt type payload => rfl
  | subscribe tgt type k =>
      have hadd := isListed_add h tgt type k
      by_cases hkey : (tgt, type, k) = key
      · simp only [switch?, if_pos hkey]
        exact hadd.mpr (.inr hkey)
      · simp only [switch?, if_neg hkey]
        rw [Bool.eq_iff_iff]
        exact hadd.trans (or_iff_left hkey)
  | dispose s =>
      show (m.world.dispose s).isListed key = _
      unfold World.dispose
      simp only [switch?]
      cases hs : m.world.subscriptions[s]? with
      | none => rfl
      | some u =>
          cases hactive : u.isActive with
          | false => simp [hactive]
          | true =>
              -- the flags play no part in what is registered
              have hremove :=
                isListed_remove h distinct u.target u.type u.listener
              by_cases hkey : u.key = key
              · simp only [hactive, hkey, and_self, if_true]
                exact Bool.eq_false_iff.mpr fun hlisted =>
                  (hremove.mp hlisted).2 hkey
              · simp only [hactive, hkey, and_false, if_false, if_true]
                rw [Bool.eq_iff_iff]
                exact hremove.trans (and_iff_left hkey)
  | isActive s => rfl

theorem isListed_of_move (through : ThroughSubscriptions m move)
    (hmove : m.move? (component K P) move = some n)
    (h : key.1 < m.world.targets.size)
    (distinct : (m.world.registry key.1).Distinct) :
    n.world.isListed key =
      (switch? key ⟨m, move⟩).getD (m.world.isListed key) := by
  cases move with
  | work =>
      rcases move?_work hmove with ⟨t, rest, _, rfl⟩
      rw [proceed_world]
      exact congrArg (World.isListed · key) (resume_world t m.world)
  | issue op =>
      rcases move?_issue hmove with ⟨_, rfl⟩
      unfold Machine.issue
      rw [proceed_world]
      exact isListed_issue through h distinct
  | giveBack =>
      rcases move?_giveBack hmove with ⟨c, rest, _, rfl⟩
      rfl
  | throw e =>
      rcases move?_throw hmove with ⟨c, rest, _, rfl⟩
      rfl

theorem targets_of_move (hmove : m.move? (component K P) move = some n) :
    n.world.targets.size = m.world.targets.size := by
  cases move with
  | work =>
      rcases move?_work hmove with ⟨t, rest, _, rfl⟩
      rw [proceed_world]
      exact congrArg (fun w => w.targets.size) (resume_world t m.world)
  | issue op =>
      rcases move?_issue hmove with ⟨_, rfl⟩
      unfold Machine.issue
      rw [proceed_world]
      cases op with
      | add tgt type k => exact Array.size_modify
      | remove tgt type k => exact Array.size_modify
      | count tgt type => rfl
      | dispatch tgt type payload => rfl
      | subscribe tgt type k => exact Array.size_modify
      | dispose s =>
          show (m.world.dispose s).targets.size = _
          unfold World.dispose
          split
          · split
            · exact Array.size_modify
            · rfl
          · rfl
      | isActive s => rfl
  | giveBack =>
      rcases move?_giveBack hmove with ⟨c, rest, _, rfl⟩
      rfl
  | throw e =>
      rcases move?_throw hmove with ⟨c, rest, _, rfl⟩
      rfl

theorem active_of_move {s : Nat} {u : Subscription K}
    (hmove : m.move? (component K P) move = some n)
    (known : n.world.subscriptions[s]? = some u) (active : u.isActive = true) :
    switch? u.key ⟨m, move⟩ = some true
      ∨ m.world.subscriptions[s]? = some u ∧ move ≠ .issue (.dispose s) := by
  cases move with
  | work =>
      rcases move?_work hmove with ⟨t, rest, _, rfl⟩
      rw [proceed_world] at known
      exact .inr ⟨resume_world t m.world ▸ known, nofun⟩
  | issue op =>
      rcases move?_issue hmove with ⟨_, rfl⟩
      unfold Machine.issue at known
      rw [proceed_world] at known
      cases op with
      | subscribe tgt type k =>
          have hpush :
              (m.world.subscriptions.push ⟨tgt, type, k, true⟩)[s]? = some u :=
            known
          rw [Array.getElem?_push] at hpush
          split at hpush
          · cases hpush
            exact .inl (if_pos rfl)
          · exact .inr ⟨hpush, nofun⟩
      | dispose twin =>
          have hdispose : (m.world.dispose twin).subscriptions[s]? = some u :=
            known
          unfold World.dispose at hdispose
          right
          split at hdispose
          · rename_i v hv
            split at hdispose
            · rename_i hactive
              have hmodify : (m.world.subscriptions.modify twin fun v =>
                  { v with isActive := false })[s]? = some u := hdispose
              rw [Array.getElem?_modify] at hmodify
              split at hmodify
              · rcases Option.map_eq_some_iff.mp hmodify with ⟨_, _, rfl⟩
                cases active
              · rename_i hne
                exact ⟨hmodify, fun h => hne (by cases h; rfl)⟩
            · rename_i hpassive
              refine ⟨hdispose, fun h => hpassive ?_⟩
              cases h
              cases hv.symm.trans hdispose
              exact active
          · rename_i hnone
            refine ⟨hdispose, fun h => ?_⟩
            cases h
            cases hnone.symm.trans hdispose
      | _ => exact .inr ⟨known, nofun⟩
  | giveBack =>
      rcases move?_giveBack hmove with ⟨c, rest, _, rfl⟩
      exact .inr ⟨known, nofun⟩
  | throw e =>
      rcases move?_throw hmove with ⟨c, rest, _, rfl⟩
      exact .inr ⟨known, nofun⟩

theorem dispose_of_switch? {t : SignalMoment K P}
    (h : switch? key t = some false) :
    exists s, t.move = .issue (.dispose s) := by
  unfold switch? at h
  split at h
  · split at h <;> cases h
  · rename_i s hmove
    exact ⟨s, hmove⟩
  · cases h

/-!
# Runs
-/

variable {past : List (SignalMoment K P)} {size : Nat}
  {r : Except Failure Value}

theorem targets_of_reaches {rule : SignalMachine K P -> Move (Op K P) -> Prop}
    (reached : Reaches (component K P) rule m n) :
    n.world.targets.size = m.world.targets.size := by
  apply reached.invariant
    (P := fun k => k.world.targets.size = m.world.targets.size) rfl
  intro k k' move hk _ hmove
  exact (targets_of_move hmove).trans hk

theorem targets_of_fresh {rule : SignalMachine K P -> Move (Op K P) -> Prop}
    (reached : Reaches (component K P) rule ⟨World.ofSize size, [], r⟩ m) :
    m.world.targets.size = size :=
  (targets_of_reaches reached).trans Array.size_replicate

theorem isListed_of_step
    (reached : Reaches (component K P) ThroughSubscriptions
      ⟨World.ofSize size, [], r⟩ m)
    (through : ThroughSubscriptions m move)
    (hmove : m.move? (component K P) move = some n) (h : key.1 < size) :
    n.world.isListed key =
      (switch? key ⟨m, move⟩).getD (m.world.isListed key) := by
  apply isListed_of_move through hmove ((targets_of_fresh reached).symm ▸ h)
  apply reached.invariant (P := fun k => (k.world.registry key.1).Distinct)
  · exact distinct_ofSize size key.1
  · intro k k' move hk _ hmove
    exact distinct_of_move hmove key.1 hk

theorem unlisted_of_twinEnded {s : Nat}
    (run : History (component K P) ThroughSubscriptions
      ⟨World.ofSize size, [], r⟩ past n)
    (h : key.1 < size) (ended : TwinEnded past s key) :
    n.world.isListed key = false := by
  rcases ended with ⟨later, t, earlier, twin, rfl, _, _, hoff, hlater⟩
  induction later generalizing n with
  | nil =>
      cases run with
      | step hrun hthrough hmove =>
          rw [isListed_of_step hrun.reaches hthrough hmove h, hoff]; rfl
  | cons v later ih =>
      cases run with
      | step hrun hthrough hmove =>
          rename_i prev move
          have hprev := ih hrun fun x hx => hlater x (List.mem_cons_of_mem _ hx)
          have hv := hlater _ List.mem_cons_self
          rw [isListed_of_step hrun.reaches hthrough hmove h, hprev]
          cases hswitch : switch? key ⟨prev, move⟩ with
          | none => rfl
          | some b =>
              cases b with
              | true => exact absurd hswitch hv
              | false => rfl

theorem TwinEnded.next {s : Nat} {t : SignalMoment K P}
    (h : TwinEnded past s key) (ht : switch? key t ≠ some true) :
    TwinEnded (t :: past) s key := by
  rcases h with ⟨later, t', earlier, twin, rfl, hmove, hne, hoff, hlater⟩
  refine ⟨t :: later, t', earlier, twin, rfl, hmove, hne, hoff, ?_⟩
  intro v hv
  rcases List.mem_cons.mp hv with rfl | hv
  · exact ht
  · exact hlater v hv

theorem twinEnded_of_unlisted {s : Nat} {u : Subscription K}
    (run : History (component K P) ThroughSubscriptions
      ⟨World.ofSize size, [], r⟩ past n)
    (known : n.world.subscriptions[s]? = some u) (active : u.isActive = true)
    (h : u.key.1 < size) (unlisted : n.world.isListed u.key = false) :
    TwinEnded past s u.key := by
  induction run with
  | start =>
      rw [show (World.ofSize size : World K).subscriptions = #[] from rfl]
        at known
      cases known
  | step hrun hthrough hmove ih =>
      rename_i past prev n move
      have hlisted := isListed_of_step hrun.reaches hthrough hmove h
      rw [unlisted] at hlisted
      rcases active_of_move hmove known active with hbegun | ⟨hknown, hmove'⟩
      · rw [hbegun] at hlisted
        cases hlisted
      · cases hswitch : switch? u.key ⟨prev, move⟩ with
        | none =>
            rw [hswitch] at hlisted
            refine (ih hknown hlisted.symm).next ?_
            rw [hswitch]
            exact nofun
        | some b =>
            cases b with
            | true =>
                rw [hswitch] at hlisted
                cases hlisted
            | false =>
                rcases dispose_of_switch? hswitch with ⟨twin, htwin⟩
                refine ⟨[], _, past, twin, rfl, htwin, ?_, hswitch, nofun⟩
                rintro rfl
                exact hmove' htwin

/-!
# The next dispatch
-/

variable {d : Task K P} {base : List (Level (Task K P) (Callee K P))}
  {start : SignalMachine K P}

theorem turn_of_stage {x : K × Bool} (stage : Stage d base past m)
    (hmove : m.move? (component K P) move = some n)
    (hturn : turn? base.length ⟨m, move⟩ = some x) :
    x.2 = m.world.isListed (d.target, d.type, x.1) := by
  have hlength : m.stack.length = base.length + 1 := by
    unfold turn? at hturn
    split at hturn
    · rename_i below _ hs
      split at hturn
      · rename_i hbelow
        rw [← hbelow]
        exact congrArg List.length hs
      · cases hturn
    · cases hturn
  cases stage with
  | between todo account quiet stack =>
      rcases move?_under_work hmove stack with ⟨rfl, _⟩
      cases todo with
      | nil =>
          simp only [turn?, stack] at hturn
          cases hturn
      | cons k todo =>
          simp only [turn?, stack, if_pos] at hturn
          cases hturn
          rfl
  | inside k above todo account quiet last stack =>
      rw [stack, List.length_append, List.length_cons, List.length_cons]
        at hlength
      omega
  | finished account quiet stack result =>
      rw [stack] at hlength
      omega
  | cut e k todo prev earlier split account quiet last stack left =>
      rw [left] at hlength
      exact absurd hlength (Nat.ne_of_lt (Nat.lt_succ_self _))

theorem Stage.turns_of_quiet (stage : Stage d base past n)
    (quiet : raised base.length past = []) (ended : n.stack = base) :
    (turns base.length past).map Prod.fst = d.todo := by
  cases stage with
  | between todo account _ stack =>
      rw [stack] at ended
      exact absurd ended (List.cons_ne_self _ _)
  | inside k above todo account _ last stack =>
      have hlength := congrArg List.length (stack.symm.trans ended)
      simp only [List.length_append, List.length_cons] at hlength
      omega
  | finished account _ _ _ => rw [← account.order, List.append_nil]
  | cut e k todo prev earlier split account _ last stack left =>
      have hraised :
          raised? base.length (⟨prev, .throw e⟩ : SignalMoment K P) =
            some e := by
        simp only [raised?, stack, List.length_cons, if_pos]
      rw [split, raised, inOrder_cons_some hraised] at quiet
      exact absurd quiet (List.concat_ne_nil _ _)

/-- A listener that is registered when a dispatch begins, and whose
subscriptions all stay, is still registered at every moment of it and when its
turn comes. -/
theorem registered_turn_of_course (ready : HasControl base)
    (begun : start.stack = .work d :: base)
    (reached : Reaches (component K P) ThroughSubscriptions
      ⟨World.ofSize size, [], r⟩ start)
    (course : History (component K P) (during base ThroughSubscriptions) start
      past n)
    {k : K} (h : d.target < size)
    (listed : start.world.isListed (d.target, d.type, k) = true)
    (kept : forall t,
      t ∈ past -> switch? (d.target, d.type, k) t ≠ some false) :
    n.world.isListed (d.target, d.type, k) = true
      ∧ forall x, x ∈ turns base.length past -> x.1 = k -> x.2 = true := by
  induction course with
  | start => exact ⟨listed, nofun⟩
  | step hcourse hrule hmove ih =>
      rename_i past prev n move
      rcases ih fun t ht => kept t (List.mem_cons_of_mem _ ht) with
        ⟨hprev, hturns⟩
      have hreached :
          Reaches (component K P) ThroughSubscriptions
            ⟨World.ofSize size, [], r⟩ prev :=
        reached.trans (hcourse.weaken fun _ _ h => h.1).reaches
      have hstage : Stage d base past prev :=
        stage_of_course ready begun (hcourse.weaken fun _ _ h => ⟨trivial, h.2⟩)
      constructor
      · rw [isListed_of_step hreached hrule.1 hmove h, hprev]
        have hv := kept _ List.mem_cons_self
        cases hswitch : switch? (d.target, d.type, k) ⟨prev, move⟩ with
        | none => rfl
        | some b =>
            cases b with
            | true => rfl
            | false => exact absurd hswitch hv
      · intro x hx hk
        cases hturn : turn? base.length (⟨prev, move⟩ : SignalMoment K P) with
        | none =>
            rw [turns, inOrder_cons_none hturn] at hx
            exact hturns x hx hk
        | some y =>
            rw [turns, inOrder_cons_some hturn] at hx
            rcases List.mem_append.mp hx with hx | hx
            · exact hturns x hx hk
            · cases List.mem_singleton.mp hx
              rw [turn_of_stage hstage hmove hturn, hk]
              exact hprev

theorem invoked_of_registered {tgt : Nat} {type : String} {k : K}
    {payload : Option P}
    (reached : Reaches (component K P) ThroughSubscriptions
      ⟨World.ofSize size, [], r⟩ m)
    (ready : HasControl m.stack) (h : tgt < size)
    (listed : m.world.isListed (tgt, type, k) = true)
    (course : History (component K P) (during m.stack ThroughSubscriptions)
      (m.issue (component K P) (.dispatch tgt type payload)) past n)
    (ended : n.stack = m.stack) (quiet : raised m.stack.length past = [])
    (kept : forall t, t ∈ past -> switch? (tgt, type, k) t ≠ some false) :
    ⟨k, eventOf tgt type payload⟩ ∈ invoked m.stack.length past := by
  have hallowed :
      ThroughSubscriptions m (.issue (.dispatch tgt type payload)) := by
    intro op hop
    cases hop
    rfl
  have hbegun :
      Reaches (component K P) ThroughSubscriptions ⟨World.ofSize size, [], r⟩
      (m.issue (component K P) (.dispatch tgt type payload)) :=
    reached.step hallowed (move?_of_hasControl _ ready)
  have hcourse : History (component K P) (during m.stack anyMove)
      (m.issue (component K P) (.dispatch tgt type payload)) past n :=
    course.weaken fun _ _ h => ⟨trivial, h.2⟩
  have hstage :
      Stage ⟨tgt, type, eventOf tgt type payload,
        (m.world.registry tgt).listeners type⟩
        m.stack past n := stage_of_course ready rfl hcourse
  have hmem : k ∈ (turns m.stack.length past).map Prod.fst := by
    rw [hstage.turns_of_quiet quiet ended]
    exact List.contains_iff_mem.mp listed
  rcases List.mem_map.mp hmem with ⟨⟨k', b⟩, hx, rfl⟩
  have hb : b = true :=
    (registered_turn_of_course (d := ⟨tgt, type, eventOf tgt type payload,
      (m.world.registry tgt).listeners type⟩) ready rfl hbegun course h listed
        kept).2 _ hx rfl
  rcases hstage.account with ⟨todo, haccount⟩
  rw [haccount.calls]
  exact List.mem_map.mpr ⟨_, List.mem_filter.mpr ⟨hx, hb⟩, rfl⟩

/-!
# The life of a subscription
-/

/-- In a run in which listeners come and go through subscriptions, an active
subscription has its listener registered unless an active twin was disposed of
and no subscription of that listener has been made since.  The disposal of a
subscription that is no twin leaves the registration alone, and the next
dispatch calls a registered listener, unless somebody raises or a subscription
of the listener is disposed of before the dispatch is over. -/
theorem registered_unless_twin_disposed {s : Nat} {u : Subscription K}
    (run : History (component K P) ThroughSubscriptions
      ⟨World.ofSize size, [], r⟩ past n)
    (known : n.world.subscriptions[s]? = some u) (active : u.isActive = true)
    (target : u.target < size) :
    (n.world.isListed u.key = false ↔ TwinEnded past s u.key)
      ∧ (forall t v, n.world.subscriptions[t]? = some v -> v.key ≠ u.key ->
          (n.world.dispose t).isListed u.key = n.world.isListed u.key)
      ∧ forall payload past' n',
          HasControl n.stack -> n.world.isListed u.key = true ->
          History (component K P) (during n.stack ThroughSubscriptions)
            (n.issue (component K P) (.dispatch u.target u.type payload)) past'
              n' ->
          n'.stack = n.stack -> raised n.stack.length past' = [] ->
          (forall t, t ∈ past' -> switch? u.key t ≠ some false) ->
          ⟨u.listener, eventOf u.target u.type payload⟩ ∈
            invoked n.stack.length past' := by
  refine ⟨?_, ?_, ?_⟩
  · constructor
    · exact twinEnded_of_unlisted run known active target
    · exact unlisted_of_twinEnded run target
  · intro t v hv hkey
    have hthrough : ThroughSubscriptions n (.issue (.dispose t)) := by
      intro op hop
      cases hop
      rfl
    have hsize : n.world.targets.size = size := targets_of_fresh run.reaches
    have hdistinct :=
      distinct_of_reaches (run.weaken fun _ _ _ => trivial).reaches u.target
    have hswitch :
        switch? u.key (⟨n, .issue (.dispose t)⟩ : SignalMoment K P) = none := by
      simp [switch?, hv, hkey]
    calc (n.world.dispose t).isListed u.key
        = (perform (.dispose t : Op K P) n.world).1.isListed u.key := rfl
      _ =
        (switch? u.key ⟨n, .issue (.dispose t)⟩).getD
          (n.world.isListed u.key) :=
          isListed_issue hthrough (hsize ▸ target) hdistinct
      _ = n.world.isListed u.key := by
          rw [hswitch]
          rfl
  · intro payload past' n' ready listed course ended quiet kept
    exact invoked_of_registered run.reaches ready target listed course ended
      quiet kept

def twinDisposed : SignalMachine Nat Unit :=
  [Op.subscribe 0 "T" 7, .subscribe 0 "T" 7, .dispose 0].foldl
    (fun m op => m.issue (component Nat Unit) op)
      ⟨World.ofSize 1, [], .ok .nothing⟩

theorem history_twinDisposed :
    exists past, History (component Nat Unit) ThroughSubscriptions
    ⟨World.ofSize 1, [], .ok .nothing⟩ past twinDisposed := by
  have begun : History (component Nat Unit) ThroughSubscriptions
    ⟨World.ofSize 1, [], .ok .nothing⟩ [] _ := .start
  have run :=
    ((begun.next (.issue (.subscribe 0 "T" 7)) (by rintro _ ⟨⟩; rfl) rfl).next
      (.issue (.subscribe 0 "T" 7)) (by rintro _ ⟨⟩; rfl) rfl).next
      (.issue (.dispose 0)) (by rintro _ ⟨⟩; rfl) rfl
  exact ⟨_, run⟩

/-- The second subscription is active and has lost its registration, for its
twin has ended. -/
theorem twin_disposed_ends_registration :
    exists past, History (component Nat Unit) ThroughSubscriptions
        ⟨World.ofSize 1, [], .ok .nothing⟩ past twinDisposed
      ∧ twinDisposed.world.isActive 1 = true
      ∧ twinDisposed.world.isListed (0, "T", 7) = false
      ∧ TwinEnded past 1 (0, "T", 7) := by
  rcases history_twinDisposed with ⟨past, run⟩
  have known : twinDisposed.world.subscriptions[1]? = some ⟨0, "T", 7, true⟩ :=
    rfl
  have unlisted : twinDisposed.world.isListed (0, "T", 7) = false := rfl
  have ended :=
    (registered_unless_twin_disposed run known rfl Nat.zero_lt_one).1.mp
      unlisted
  exact ⟨past, run, rfl, unlisted, ended⟩

/-- The next dispatch comes to its end and calls nobody. -/
theorem active_subscription_not_called :
    (exists past, History (component Nat Unit) ThroughSubscriptions
        ⟨World.ofSize 1, [], .ok .nothing⟩ past twinDisposed)
      ∧ twinDisposed.world.subscriptions[1]? = some ⟨0, "T", 7, true⟩
      ∧ twinDisposed.world.isListed (0, "T", 7) = false
      ∧ exists past n,
          History (component Nat Unit) (during [] ThroughSubscriptions)
          (twinDisposed.issue (component Nat Unit) (.dispatch 0 "T" none)) past
            n
        ∧ n.stack = [] ∧ n.result = .ok .nothing ∧ invoked 0 past = [] := by
  have begun : History (component Nat Unit) (during [] ThroughSubscriptions)
    (twinDisposed.issue (component Nat Unit) (.dispatch 0 "T" none)) [] _ :=
      .start
  have course := begun.next .work ⟨nofun, by decide⟩ rfl
  exact ⟨history_twinDisposed, rfl, rfl, _, _, course, rfl, rfl, rfl⟩

end Signals
end WireView
