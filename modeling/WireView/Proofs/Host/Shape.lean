import WireView.Host.Machine
import WireView.Proofs.Reentrant.Moves

/-!
# The shape of the host's stack

The work of one operation is a segment of the stack.  What may lie below a task
within its segment depends on the task alone: a loop that is being set up is
started next, a tick that tells its observers is updated, drawn and rearmed
next, and so on.  Outside code lies on the task that called it and will go on
with it.

Every stack that a run reaches has this shape, whatever the world is.
-/

namespace WireView
namespace Host

open Reentrant

variable {K L : Type}

/-- The work that a tick still has to do once its logic is updated and drawn. -/
def IsTail (g : Nat) (ts : List (Task K)) : Prop :=
  exists a todo ran, ts = [.rearm g, .frame a todo ran]

/-- What may be left of an operation when one of its tasks is done. -/
def Follows : Task K -> List (Task K) -> Prop
  | .run _, ts => ts = []
  | .setUp g, ts => ts = [.start g]
  | .start _, ts => ts = []
  | .stop g, ts => ts = [] ∨ ts = [.run g]
  | .notify g type _, ts =>
      (type = runningType ∧ (ts = [] ∨ ts = [.run g]))
        ∨ (type = frameType ∧ exists tail,
          IsTail g tail ∧ ts = .update g :: .draw g :: tail)
  | .press _ _ _ _, ts => ts = [] ∨ exists a todo, ts = [.poll a todo]
  | .frame _ _ _, ts => ts = []
  | .poll _ _, ts => ts = []
  | .update g, ts => exists tail, IsTail g tail ∧ ts = .draw g :: tail
  | .draw g, ts => IsTail g ts
  | .rearm _, ts => exists a todo ran, ts = [.frame a todo ran]

def Awaits : Callee K -> Task K -> Prop
  | .frame _ _, .frame _ _ _ => True
  | .key _ n e, .press _ f m _ => n = m ∧ e.motion = f.motion ∧ e.key = f.key
  | .viewer _ type g, .notify i kind _ => g = i ∧ type = kind
  | _, _ => False

def Shaped : List (Level (Task K) (Callee K)) -> Prop
  | [] => True
  | .outside c :: rest =>
      (exists t ts, segment rest = t :: ts ∧ Awaits c t) ∧ Shaped rest
  | .work t :: rest => Follows t (segment rest) ∧ Shaped rest

theorem shaped_unwind {stack : List (Level (Task K) (Callee K))}
    (h : Shaped stack) :
    Shaped (unwind stack) := by
  induction stack with
  | nil => exact h
  | cons l rest ih =>
      cases l with
      | outside c => exact h
      | work t => exact ih h.2

theorem shaped_push_one {t : Task K} {rest : List (Level (Task K) (Callee K))}
    (ht : Follows t (segment rest)) (hrest : Shaped rest) :
    Shaped (levels [t] ++ rest) :=
  ⟨ht, hrest⟩

theorem shaped_push_two {t u : Task K} {rest : List (Level (Task K) (Callee K))}
    (ht : Follows t (u :: segment rest)) (hu : Follows u (segment rest))
    (hrest : Shaped rest) : Shaped (levels [t, u] ++ rest) :=
  ⟨ht, hu, hrest⟩

theorem shaped_call {c : Callee K} {t : Task K}
    {rest : List (Level (Task K) (Callee K))} (hc : Awaits c t)
    (ht : Follows t (segment rest)) (hrest : Shaped rest) :
    Shaped (.outside c :: (levels [t] ++ rest)) :=
  ⟨⟨t, segment rest, rfl, hc⟩, ht, hrest⟩

/-!
# Pieces of work
-/

/-- How a piece of work goes on: it is over, or it fails, or it leaves the
listed tasks. -/
inductive Continues [DecidableEq K] (h : Host K L) :
    Task K -> Progress (Task K) (Callee K) Value -> Prop where
  | done {t : Task K} (value : Value) : Continues h t (.done value)
  | fail {t : Task K} (cause : Failure) : Continues h t (.fail cause)
  | run (g : Nat) : Continues h (.run g) (.push [.setUp g, .start g])
  | start (g : Nat) (todo : List K) :
      Continues h (.start g) (.push [.notify g runningType todo])
  | stop {g : Nat} {v : Viewer K L} (present : h.viewers[g]? = some v)
      (running : v.state ≠ .idle) (todo : List K) :
      Continues h (.stop g) (.push [.notify g runningType todo])
  | observer {g : Nat} {type : String} {k : K} (listed : k ∈ h.observers g type)
      (todo : List K) :
      Continues h (.notify g type (k :: todo))
        (.call (.viewer k type g) [.notify g type todo])
  | unlisted (g : Nat) (type : String) (k : K) (todo : List K) :
      Continues h (.notify g type (k :: todo)) (.push [.notify g type todo])
  | listener (a : Nat) (e : KeyEvent) (n : Nat) (k : K)
      (todo : List (Listener K)) :
      Continues h (.press a e n (.outside k :: todo))
        (.call (.key k n (h.latest n e)) [.press a e n todo])
  | pressed (a : Nat) (e : KeyEvent) (n : Nat) (l : Listener K)
      (todo : List (Listener K)) :
      Continues h (.press a e n (l :: todo)) (.push [.press a e n todo])
  | callback (a handle : Nat) (k : K) (todo : List Nat) (ran : Nat) :
      Continues h (.frame a (handle :: todo) ran)
        (.call (.frame k handle) [.frame a todo (ran + 1)])
  | tick (a handle g : Nat) (observers : List K) (todo : List Nat) (ran : Nat) :
      Continues h (.frame a (handle :: todo) ran)
        (.push
          [.notify g frameType observers, .update g, .draw g, .rearm g,
           .frame a todo (ran + 1)])
  | spent (a handle : Nat) (todo : List Nat) (ran : Nat) :
      Continues h (.frame a (handle :: todo) ran) (.push [.frame a todo ran])
  | key (a : Nat) (i : InputEvent) (e : KeyEvent) (n : Nat)
      (listeners : List (Listener K)) (todo : List InputEvent) :
      Continues h (.poll a (i :: todo))
        (.push [.press a e n listeners, .poll a todo])
  | ignored (a : Nat) (i : InputEvent) (todo : List InputEvent) :
      Continues h (.poll a (i :: todo)) (.push [.poll a todo])

section Continues

variable {h : Host K L} {t : Task K}

theorem continues_afterLogic [DecidableEq K] {α : Type}
    (r : Host K L × Except Failure α) {f : α -> Host K L -> Outcome K L}
    (hf : forall a h', Continues h t (f a h').2) :
    Continues h t (afterLogic r f).2 := by
  rcases r with ⟨h', e | a⟩
  · exact .fail e
  · exact hf a h'

theorem continues_withViewer [DecidableEq K] {g : Nat}
    {f : Viewer K L -> Host K L -> Outcome K L}
    (hf : forall v, h.viewers[g]? = some v -> Continues h t (f v h).2) :
    Continues h t (withViewer g f h).2 := by
  unfold withViewer
  split
  · exact hf _ ‹_›
  · exact .done _

theorem continues_resume [DecidableEq K] [LoopLogic L] (t : Task K)
    (h : Host K L) :
    Continues h t (resume t h).2 := by
  cases t with
  | run g =>
      apply continues_withViewer
      intro v _
      unfold run
      split
      · exact .done _
      · split
        · exact .fail _
        · exact .run g
  | setUp g =>
      apply continues_withViewer
      intro v _
      exact continues_afterLogic _ fun _ _ => .done _
  | start g => exact .start g _
  | stop g =>
      apply continues_withViewer
      intro v present
      unfold stop
      split
      · exact .done _
      · exact .stop present ‹_› _
  | notify g type todo =>
      refine Registry.step_elim
        (motive := fun o : Outcome K L => Continues h (.notify g type todo) o.2)
          todo ?_ ?_ ?_
      · exact fun _ => .done _
      · rintro k rest rfl listed
        exact .observer listed rest
      · rintro k rest rfl _
        exact .unlisted g type k rest
  | press a e n todo =>
      refine Registry.step_elim
        (motive := fun o : Outcome K L => Continues h (.press a e n todo) o.2)
          todo ?_ ?_ ?_
      · exact fun _ => .done _
      · rintro l rest rfl _
        cases l with
        | outside k => exact .listener a e n k rest
        | keys motion g =>
            exact continues_afterLogic _ fun _ _ => .pressed a e n _ rest
      · rintro l rest rfl _
        exact .pressed a e n l rest
  | frame a todo ran =>
      refine FrameQueue.step_elim
        (motive := fun o : Outcome K L => Continues h (.frame a todo ran) o.2)
          todo ?_ ?_ ?_
      · exact fun _ => .done _
      · rintro ⟨c, h'⟩ handle rest rfl _
        cases c with
        | outside k => exact .callback a handle k rest ran
        | tick g => exact .tick a handle g _ rest ran
      · rintro handle rest rfl _
        exact .spent a handle rest ran
  | poll a todo =>
      cases todo with
      | nil => exact .done _
      | cons i todo =>
          cases i with
          | quit => exact .done _
          | key motion code => exact .key a _ _ _ _ todo
          | other => exact .ignored a _ todo
  | update g =>
      apply continues_withViewer
      intro v _
      exact continues_afterLogic _ fun _ _ => .done _
  | draw g =>
      apply continues_withViewer
      intro v _
      exact continues_afterLogic _ fun _ _ => .done _
  | rearm g =>
      apply continues_withViewer
      intro v _
      unfold rearm
      split
      · exact .done _
      · split
        · exact .done _
        · exact .done _
        · exact .fail _

end Continues

variable {rest : List (Level (Task K) (Callee K))}

theorem shaped_continues [DecidableEq K] {h : Host K L} {t : Task K}
    {p : Progress (Task K) (Callee K) Value} (hp : Continues h t p)
    (hstack : Shaped (.work t :: rest)) : Shaped (p.over rest) := by
  rcases hstack with ⟨hbelow, hrest⟩
  cases hp with
  | done value => exact hrest
  | fail cause => exact shaped_unwind hrest
  | run g =>
      refine shaped_push_two ?_ hbelow hrest
      rw [show segment rest = [] from hbelow]
      rfl
  | start g todo => exact shaped_push_one (.inl ⟨rfl, .inl hbelow⟩) hrest
  | stop present running todo =>
      exact shaped_push_one (.inl ⟨rfl, hbelow⟩) hrest
  | observer listed todo =>
      exact shaped_call (t := .notify _ _ todo) ⟨rfl, rfl⟩ hbelow hrest
  | unlisted g type k todo =>
      exact shaped_push_one (t := .notify g type todo) hbelow hrest
  | listener a e n k todo =>
      exact shaped_call (t := .press a e n todo) ⟨rfl, rfl, rfl⟩ hbelow hrest
  | pressed a e n l todo =>
      exact shaped_push_one (t := .press a e n todo) hbelow hrest
  | callback a handle k todo ran =>
      exact shaped_call (t := .frame a todo (ran + 1)) trivial hbelow hrest
  | tick a handle g observers todo ran =>
      have hnone : segment rest = [] := hbelow
      have hframe : Shaped (levels [Task.frame a todo (ran + 1)] ++ rest) :=
        shaped_push_one hbelow hrest
      have htail :
          IsTail g
            (Task.rearm g :: .frame a todo (ran + 1) :: segment rest) := by
        rw [hnone]
        exact ⟨a, todo, ran + 1, rfl⟩
      have hrearm :
          Follows (.rearm g) (Task.frame a todo (ran + 1) :: segment rest) := by
        rw [hnone]
        exact ⟨a, todo, ran + 1, rfl⟩
      exact ⟨.inr ⟨rfl, _, htail, rfl⟩, ⟨_, htail, rfl⟩, htail, hrearm, hframe⟩
  | spent a handle todo ran =>
      exact shaped_push_one (t := .frame a todo ran) hbelow hrest
  | key a i e n listeners todo =>
      refine shaped_push_two ?_ hbelow hrest
      rw [show segment rest = [] from hbelow]
      exact .inr ⟨a, todo, rfl⟩
  | ignored a i todo => exact shaped_push_one (t := .poll a todo) hbelow hrest

/-!
# Operations
-/

inductive Opens : List (Task K) -> Prop where
  | run (g : Nat) : Opens [.run g]
  | stop (g : Nat) : Opens [.stop g]
  | reset (g : Nat) : Opens [.stop g, .run g]
  | press (a : Nat) (e : KeyEvent) (n : Nat) (todo : List (Listener K)) :
      Opens [.press a e n todo]
  | frame (a : Nat) (todo : List Nat) : Opens [.frame a todo 0]
  | poll (a : Nat) (todo : List InputEvent) : Opens [.poll a todo]

inductive Outset : Progress (Task K) (Callee K) Value -> Prop where
  | done (value : Value) : Outset (.done value)
  | fail (cause : Failure) : Outset (.fail cause)
  | push (ts : List (Task K)) (h : Opens ts) : Outset (.push ts)

theorem outset_ofAct {α : Type} (act : Act (Host K L) α) (value : α -> Value)
    (h : Host K L) : Outset (ofAct act value h).2 := by
  unfold ofAct
  split
  · exact .done _
  · exact .fail _

theorem shaped_opens {ts : List (Task K)} (h : Opens ts)
    (hbelow : segment rest = []) (hrest : Shaped rest) :
    Shaped (levels ts ++ rest) := by
  cases h with
  | run g => exact shaped_push_one hbelow hrest
  | stop g => exact shaped_push_one (.inl hbelow) hrest
  | reset g =>
      refine shaped_push_two (.inr ?_) hbelow hrest
      rw [hbelow]
  | press a e n todo => exact shaped_push_one (.inl hbelow) hrest
  | frame a todo => exact shaped_push_one hbelow hrest
  | poll a todo => exact shaped_push_one hbelow hrest

theorem shaped_outset {p : Progress (Task K) (Callee K) Value} (hp : Outset p)
    (hcontrol : HasControl rest) (hrest : Shaped rest) :
    Shaped (p.over rest) := by
  cases hp with
  | done value => exact hrest
  | fail cause => exact shaped_unwind hrest
  | push ts hts => exact shaped_opens hts (segment_of_hasControl hcontrol) hrest

/-!
# Starting a loop

Between setting a loop up and starting it nobody has control: what starts a loop
lies on top of the stack only right after its setup, and its setup only right
after the work that asked for it.
-/

/-- The loop whose setup or start is the next of some tasks. -/
def starting : List (Task K) -> Option Nat
  | .setUp g :: _ => some g
  | .start g :: _ => some g
  | _ => none

theorem starting_of_hasControl {stack : List (Level (Task K) (Callee K))}
    (h : HasControl stack) : starting (segment stack) = none := by
  rw [segment_of_hasControl h]
  rfl

theorem starting_unwind (stack : List (Level (Task K) (Callee K))) :
    starting (segment (unwind stack)) = none :=
  starting_of_hasControl (hasControl_unwind stack)

theorem starting_awaits {c : Callee K} {t : Task K} (h : Awaits c t)
    (ts : List (Task K)) :
    starting (t :: ts) = none := by
  cases t with
  | setUp g => cases c <;> cases h
  | start g => cases c <;> cases h
  | run g => rfl
  | stop g => rfl
  | notify g type todo => rfl
  | press a e todo => rfl
  | frame a todo ran => rfl
  | poll a todo => rfl
  | update g => rfl
  | draw g => rfl
  | rearm g => rfl

theorem starting_below {t : Task K} {ts : List (Task K)} (hbelow : Follows t ts)
    (ht : forall g, t ≠ .setUp g) : starting ts = none := by
  cases t with
  | setUp g => exact absurd rfl (ht g)
  | run g =>
      cases hbelow
      rfl
  | start g =>
      cases hbelow
      rfl
  | stop g =>
      rcases hbelow with hbelow | hbelow
      · cases hbelow
        rfl
      · cases hbelow
        rfl
  | notify g type todo =>
      rcases hbelow with ⟨_, hbelow | hbelow⟩ | ⟨_, tail, _, hbelow⟩
      · cases hbelow
        rfl
      · cases hbelow
        rfl
      · cases hbelow
        rfl
  | press a e todo =>
      rcases hbelow with hbelow | ⟨a, todo, hbelow⟩
      · cases hbelow
        rfl
      · cases hbelow
        rfl
  | frame a todo ran =>
      cases hbelow
      rfl
  | poll a todo =>
      cases hbelow
      rfl
  | update g =>
      rcases hbelow with ⟨tail, _, hbelow⟩
      cases hbelow
      rfl
  | draw g =>
      rcases hbelow with ⟨a, todo, ran, hbelow⟩
      cases hbelow
      rfl
  | rearm g =>
      rcases hbelow with ⟨a, todo, ran, hbelow⟩
      cases hbelow
      rfl

theorem starting_outset {p : Progress (Task K) (Callee K) Value} (hp : Outset p)
    {stack : List (Level (Task K) (Callee K))} (hcontrol : HasControl stack) :
    starting (segment (p.over stack)) = none := by
  have hstack := starting_of_hasControl hcontrol
  cases hp with
  | done value => exact hstack
  | fail cause => exact starting_unwind stack
  | push ts hts =>
      cases hts with
      | run g => rfl
      | stop g => rfl
      | reset g => rfl
      | press a e n todo => rfl
      | frame a todo => rfl
      | poll a todo => rfl

/-!
# Every piece and every operation
-/

section Work

variable [LoopLogic L] [DecidableEq K]

theorem outset_perform (op : Op K L) (h : Host K L) :
    Outset (perform op h).2 := by
  cases op with
  | setClock now => exact .done _
  | openWindow width height title => exact outset_ofAct _ _ h
  | shutDown a => exact outset_ofAct _ _ h
  | setDocument a d => exact outset_ofAct _ _ h
  | addContainer c => exact outset_ofAct _ _ h
  | addCanvas width height shares => exact outset_ofAct _ _ h
  | attach c k => exact outset_ofAct _ _ h
  | detach k => exact outset_ofAct _ _ h
  | createViewer window container devMode logic => exact outset_ofAct _ _ h
  | run g => exact .push _ (.run g)
  | stop g => exact .push _ (.stop g)
  | reset g => exact .push _ (.reset g)
  | close g => exact outset_ofAct _ _ h
  | listen a type k => exact .done _
  | unlisten a type k => exact .done _
  | observe g type k => exact .done _
  | unobserve g type k => exact .done _
  | press a e => exact .push _ (.press a e _ _)
  | preventDefault n => exact .done _
  | post events =>
      simp only [perform, post]
      split
      · exact .done _
      · exact .fail _
  | poll a =>
      simp only [perform, beginPoll]
      split
      · exact .push _ (.poll a _)
      · exact .fail _
  | request a k => exact .done _
  | cancel a handle => exact .done _
  | frame a => exact .push _ (.frame a _)
  | swap a => exact outset_ofAct _ _ h

theorem shaped_resume (t : Task K) (h : Host K L)
    (hstack : Shaped (.work t :: rest)) : Shaped ((resume t h).2.over rest) :=
  shaped_continues (continues_resume t h) hstack

theorem starting_setUp {g i : Nat} {h : Host K L}
    (hbelow : segment rest = [.start g])
    (hi : starting (segment ((resume (.setUp g) h).2.over rest)) = some i) :
    i = g := by
  have hp := continues_resume (.setUp g) h
  generalize (resume (.setUp g) h).2 = p at hp hi
  cases hp with
  | done value =>
      have hrest : starting (segment rest) = some g := by
        rw [hbelow]
        rfl
      exact Option.some.inj (hi.symm.trans hrest)
  | fail cause => exact absurd ((starting_unwind rest).symm.trans hi) nofun

theorem starting_resume {t : Task K} (h : Host K L)
    (hbelow : Follows t (segment rest)) (hrun : forall g, t ≠ .run g)
    (hset : forall g, t ≠ .setUp g) :
    starting (segment ((resume t h).2.over rest)) = none := by
  have hp := continues_resume t h
  generalize (resume t h).2 = p at hp
  cases hp with
  | done value => exact starting_below hbelow hset
  | fail cause => exact starting_unwind rest
  | run g => exact absurd rfl (hrun g)
  | _ => rfl

end Work

end Host
end WireView
