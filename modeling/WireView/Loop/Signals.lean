import WireView.Loop.Registry
import WireView.Reentrant.Machine

/-!
# Dispatching signals

The component of several targets, each with its registry.  Its outside code are
the listeners: a dispatch calls those that were listed when it began and still
are when their turn comes, in order and with one event.  Listeners may add and
remove listeners and dispatch themselves.

A subscription adds its listener when it is made and removes it when it is
disposed of, which happens once at most.
-/

namespace WireView
namespace Signals

open Reentrant

inductive Event (P : Type) where
  | notice (type : String) (target : Nat)
  | payload (p : P)

structure Subscription (K : Type) where
  target : Nat
  type : String
  listener : K
  isActive : Bool := true

structure World (K : Type) where
  targets : Array (Registry K) := #[]
  subscriptions : Array (Subscription K) := #[]

namespace World

variable {K : Type}

def ofSize (n : Nat) : World K :=
  { targets := Array.replicate n {} }

def registry (w : World K) (t : Nat) : Registry K :=
  (w.targets[t]?).getD {}

def onTarget (w : World K) (t : Nat) (f : Registry K -> Registry K) : World K :=
  { w with targets := w.targets.modify t f }

def isActive (w : World K) (s : Nat) : Bool :=
  ((w.subscriptions[s]?).map Subscription.isActive).getD false

variable [DecidableEq K]

def subscribe (w : World K) (t : Nat) (type : String) (k : K) : World K × Nat :=
  let w := w.onTarget t fun r => r.add type k
  ({ w with
      subscriptions := w.subscriptions.push
        { target := t, type := type, listener := k } },
    w.subscriptions.size)

def dispose (w : World K) (s : Nat) : World K :=
  match w.subscriptions[s]? with
  | some u =>
      if u.isActive then
        let w :=
          { w with
            subscriptions := w.subscriptions.modify s fun u =>
              { u with isActive := false } }
        w.onTarget u.target fun r => r.remove u.type u.listener
      else w
  | none => w

end World

inductive Op (K P : Type) where
  | add (target : Nat) (type : String) (k : K)
  | remove (target : Nat) (type : String) (k : K)
  | count (target : Nat) (type : String)
  | dispatch (target : Nat) (type : String) (payload : Option P)
  | subscribe (target : Nat) (type : String) (k : K)
  | dispose (subscription : Nat)
  | isActive (subscription : Nat)

structure Task (K P : Type) where
  target : Nat
  type : String
  event : Event P
  todo : List K

structure Callee (K P : Type) where
  listener : K
  event : Event P

inductive Value where
  | nothing
  | count (n : Nat)
  | subscription (s : Nat)
  | active (b : Bool)

variable {K P : Type} [DecidableEq K]

def perform :
    Op K P -> World K -> World K × Progress (Task K P) (Callee K P) Value
  | .add t type k, w => (w.onTarget t fun r => r.add type k, .done .nothing)
  | .remove t type k, w =>
      (w.onTarget t fun r => r.remove type k, .done .nothing)
  | .count t type, w => (w, .done (.count ((w.registry t).count type)))
  | .dispatch t type payload, w =>
      let event := match payload with
        | some p => Event.payload p
        | none => .notice type t
      (w, .push [⟨t, type, event, (w.registry t).listeners type⟩])
  | .subscribe t type k, w =>
      let (w, s) := w.subscribe t type k
      (w, .done (.subscription s))
  | .dispose s, w => (w.dispose s, .done .nothing)
  | .isActive s, w => (w, .done (.active (w.isActive s)))

def resume (t : Task K P) (w : World K) :
    World K × Progress (Task K P) (Callee K P) Value :=
  Registry.step ((w.registry t.target).listeners t.type) (w, .done .nothing)
    (fun k rest => (w, .call ⟨k, t.event⟩ [{ t with todo := rest }]))
    (fun rest => (w, .push [{ t with todo := rest }])) t.todo

section resume

variable {t : Task K P} {w : World K} {k : K}

theorem resume_listed (listed : k ∈ (w.registry t.target).listeners t.type)
    (todo : List K) :
    resume { t with todo := k :: todo } w =
      (w, .call ⟨k, t.event⟩ [{ t with todo := todo }]) :=
  Registry.step_listed listed todo

theorem resume_unlisted (unlisted : k ∉ (w.registry t.target).listeners t.type)
    (todo : List K) :
    resume { t with todo := k :: todo } w =
      (w, .push [{ t with todo := todo }]) :=
  Registry.step_unlisted unlisted todo

end resume

def component (K P : Type) [DecidableEq K] :
    Component (World K) (Op K P) (Task K P) (Callee K P) Value where
  perform := perform
  resume := resume
  returned := .nothing
  weight t := (0, t.todo.length + 1)
  resume_lighter := by
    rintro ⟨t, type, event, todo⟩ w
    refine Registry.step_elim
      (motive := fun r : World K × Progress (Task K P) (Callee K P) Value =>
        Lighter (totalWeight _ r.2.tasks) _) todo ?_ ?_ ?_
    · exact fun _ => .inr ⟨rfl, Nat.succ_pos _⟩
    · rintro k rest rfl _
      exact .inr ⟨rfl, Nat.lt_succ_self _⟩
    · rintro k rest rfl _
      exact .inr ⟨rfl, Nat.lt_succ_self _⟩

end Signals
end WireView
