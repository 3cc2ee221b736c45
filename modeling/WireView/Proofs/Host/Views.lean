import WireView.Proofs.Host.Steps

/-!
# What does not show in a view

Much of what a host does shows in its windows and viewers and in its key events
only.  A view that sees none of them, such as the page, the queue of input or
the notes of ticks and keys, is the same afterwards, whatever it does see.
Views that do not see the page and the display either are changed by hardly any
operation.
-/

namespace WireView
namespace Host

open Reentrant Act

variable {K L γ : Type} {f : Host K L -> γ}

/-- A view of a host that sees no windows and viewers, and no key events. -/
structure Unfitted (f : Host K L -> γ) : Prop where
  windows : forall h ws, f { h with windows := ws } = f h
  viewers : forall h vs, f { h with viewers := vs } = f h
  prevented : forall h ps, f { h with prevented := ps } = f h

/-- A view of a host that sees none of its windows and viewers, its page and its
display. -/
structure Detached (f : Host K L -> γ) : Prop extends Blind f, Unfitted f where
  current : forall h a, f { h with current := a } = f h

/-!
# Pieces of work
-/

theorem view_foldl_remark (remark : forall h r, f (h.remark r) = f h)
    (rs : List Remark) (h : Host K L) : f (rs.foldl Host.remark h) = f h := by
  induction rs generalizing h with
  | nil => rfl
  | cons r rs ih => exact (ih (h.remark r)).trans (remark h r)

theorem view_afterLogic {α : Type} (r : Host K L × Except Failure α)
    {k : α -> Host K L -> Outcome K L} (hk : forall a h, f (k a h).1 = f h) :
    f (afterLogic r k).1 = f r.1 := by
  rcases r with ⟨h, e | a⟩
  · rfl
  · exact hk a h

theorem view_withViewer {g : Nat} {k : Viewer K L -> Host K L -> Outcome K L}
    {h : Host K L} (hk : forall v, f (k v h).1 = f h) :
    f (withViewer g k h).1 = f h := by
  unfold withViewer
  split
  · exact hk _
  · rfl

namespace Unfitted

theorem onLoop (unfitted : Unfitted f) (h : Host K L) (g : Nat)
    (k : Viewer K L -> Window K -> Viewer K L × Window K) :
    f (h.onLoop g k) = f h := by
  unfold Host.onLoop
  split
  · rfl
  · split
    · rfl
    · exact (unfitted.windows _ _).trans (unfitted.viewers _ _)

theorem afterKey (unfitted : Unfitted f) (n : Nat)
    (r : Host K L × Except Failure Bool) :
    f (Host.afterKey n r).1 = f r.1 := by
  rcases r with ⟨h, e | acted⟩
  · rfl
  · cases acted with
    | false => rfl
    | true => exact unfitted.prevented h _

theorem pressLogic [LoopLogic L] (unfitted : Unfitted f)
    (key : forall h g e, f (h.note (.key g e)) = f h) (g : Nat)
    (motion : KeyMotion) (e : KeyEvent) (n : Nat) (h : Host K L) :
    f (Host.pressLogic g motion e n h).1 = f h := by
  unfold Host.pressLogic
  split
  · rfl
  · rw [unfitted.afterKey]
    exact (unfitted.viewers _ _).trans (key h g _)

end Unfitted

section work

variable (detached : Detached f)
  (journal : forall h notes, f { h with journal := notes } = f h)
include detached journal

namespace Detached

theorem onEasel (g : Nat) (v : Viewer K L) (act : Act Easel Unit)
    (h : Host K L) :
    f (h.onEasel g v act).1 = f h := by
  have hpainted : forall (h : Host K L) (t : Tree) (notes : List Note),
      f { h with tree := t, journal := notes } = f h := by
    intro h t notes
    exact (journal { h with tree := t } notes).trans (detached.tree h t)
  exact (hpainted _ _ _).trans (detached.viewers h _)

theorem frame (a ran : Nat) (todo : List Nat) (h : Host K L) :
    f (Host.frame a ran h todo).1 = f h := by
  refine frame_elim (motive := fun o => f o.1 = f h) a ran h todo ?_ ?_ ?_ ?_ ?_
  · exact fun _ => rfl
  · exact fun _ => detached.remark h _
  · exact fun _ _ _ _ _ _ _ _ => detached.windows h _
  · exact fun _ _ _ _ _ _ _ _ =>
      (journal _ _).trans ((detached.viewers _ _).trans (detached.windows h _))
  · exact fun _ _ _ => rfl

variable [LoopLogic L] [DecidableEq K]

theorem press (a : Nat) (e : KeyEvent) (n : Nat) (todo : List (Listener K))
    (h : Host K L) : f (Host.press a e n h todo).1 = f h := by
  refine Registry.step_elim (motive := fun o : Outcome K L => f o.1 = f h)
    todo ?_ ?_ ?_
  · exact fun _ => rfl
  · intro l rest _ _
    cases l with
    | outside k => rfl
    | keys motion g =>
        have hlogic :=
          detached.pressLogic (fun h g e => journal h _) g motion e n h
        exact (view_afterLogic _ fun _ _ => rfl).trans hlogic
  · exact fun _ _ _ _ => rfl

theorem resume (t : Task K) (h : Host K L) : f (Host.resume t h).1 = f h := by
  cases t with
  | run g =>
      apply view_withViewer
      intro v
      unfold run
      split
      · rfl
      · split
        · rfl
        · rfl
  | setUp g =>
      apply view_withViewer
      intro v
      have hremarks :=
        fun (rs : List Remark) h => view_foldl_remark detached.remark rs h
      exact (view_afterLogic _ hremarks).trans (detached.viewers h _)
  | start g => exact (detached.remark _ _).trans (detached.onLoop h g _)
  | stop g =>
      apply view_withViewer
      intro v
      unfold stop
      split
      · rfl
      · exact (detached.remark _ _).trans (detached.onLoop h g _)
  | notify g type todo => exact congrArg f (world_notify g type h todo)
  | press a e n todo => exact detached.press journal a e n todo h
  | frame a todo ran => exact detached.frame journal a ran todo h
  | poll a todo =>
      cases todo with
      | nil => rfl
      | cons i todo =>
          cases i with
          | quit => rfl
          | key motion code => exact detached.prevented h _
          | other => rfl
  | update g =>
      apply view_withViewer
      intro v
      exact (view_afterLogic _ fun _ _ => rfl).trans (detached.viewers h _)
  | draw g =>
      apply view_withViewer
      intro v
      exact (view_afterLogic _ fun _ _ => rfl).trans
        (detached.onEasel journal g v _ h)
  | rearm g =>
      apply view_withViewer
      intro v
      unfold rearm
      split
      · rfl
      · split
        · exact detached.onLoop h g _
        · rfl
        · rfl

end Detached

end work

/-!
# Operations
-/

theorem view_ofAct {α : Type} {a : Act (Host K L) α} (ha : Fixes f a)
    (value : α -> Value) (h : Host K L) : f (ofAct a value h).1 = f h := by
  rw [world_ofAct]
  exact ha h

def Op.onDevices : Op K L -> Bool
  | .setClock _ => true
  | .shutDown _ => true
  | .post _ => true
  | .poll _ => true
  | _ => false

namespace Detached

variable (detached : Detached f)
include detached

theorem openWindow (width height : Int) (title : String) :
    Fixes f (Host.openWindow width height title : Act (Host K L) Nat) := by
  refine fixes_bind (fixes_sizeDisplay detached.display width height) fun _ =>
    ?_
  refine fixes_bind (fixes_showTitle detached.caption title) fun _ => ?_
  have hopened :
      forall (h : Host K L) (t : Tree) (ws : Array (Window K)) (a : Option Nat),
        f { h with tree := t, windows := ws, current := a } = f h := by
    intro h t ws a
    calc
      f { h with tree := t, windows := ws, current := a }
          = f { h with tree := t, windows := ws } :=
            detached.current { h with tree := t, windows := ws } a
      _ = f { h with tree := t } := detached.windows { h with tree := t } ws
      _ = f h := detached.tree h t
  apply fixes_get_bind
  intro h
  exact (detached.remark _ _).trans (hopened h _ _ _)

theorem setDocument (a : Nat) (d : NewDocument) :
    Fixes f (Host.setDocument a d : Act (Host K L) Unit) := by
  have hgive : forall d : Option Document, Fixes f
      (act fun h => h.onWindow a fun w =>
        { w with document := d } : Act (Host K L) Unit) :=
    fun _ => fixes_act fun h => detached.windows h _
  cases d with
  | absent => exact hgive none
  | bodiless => exact hgive _
  | fresh refusal =>
      exact fixes_bind (fixes_addContainer detached.toBlind {}) fun c => hgive _

theorem createViewer [LoopLogic L] (window container : Option Nat)
    (devMode : Bool) (logic : L) :
    Fixes f
      (Host.createViewer window container devMode logic : Act (Host K L)
        Nat) := by
  refine fixes_bind (fixes_provideCanvas detached.toBlind window container)
    fun _ => ?_
  apply fixes_get_bind
  intro h
  exact (detached.remark _ _).trans (detached.viewers h _)

theorem closeViewer [DecidableEq K] (g : Nat) :
    Fixes f (Host.closeViewer g : Act (Host K L) Unit) := by
  apply fixes_get_bind
  intro h
  split
  · rfl
  · split
    · rfl
    · rename_i v _ _
      have hrest : Fixes f (do
          act fun h => h.onLoop g fun v w => v.shut g w
          detachCanvas v.canvas
          act fun h => h.remark .viewerClosed : Act (Host K L) Unit) := by
        refine fixes_bind (fixes_act fun h => detached.onLoop h g _) fun _ => ?_
        refine fixes_bind (fixes_detachCanvas detached.toBlind _) fun _ => ?_
        exact fixes_act fun h => detached.remark h _
      exact hrest h

theorem perform [LoopLogic L] [DecidableEq K] {op : Op K L}
    (other : op.onDevices = false) (h : Host K L) :
    f (Host.perform op h).1 = f h := by
  cases op with
  | setClock now => cases other
  | shutDown a => cases other
  | post events => cases other
  | poll a => cases other
  | openWindow width height title =>
      exact view_ofAct (detached.openWindow width height title) _ h
  | setDocument a d => exact view_ofAct (detached.setDocument a d) _ h
  | addContainer c =>
      exact view_ofAct (fixes_addContainer detached.toBlind c) _ h
  | addCanvas width height shares =>
      exact view_ofAct
        (fixes_addCanvas detached.toBlind width height shares) _ h
  | attach c k => exact view_ofAct (fixes_attachCanvas detached.toBlind c k) _ h
  | detach k => exact view_ofAct (fixes_detachCanvas detached.toBlind k) _ h
  | createViewer window container devMode logic =>
      exact view_ofAct
        (detached.createViewer window container devMode logic) _ h
  | run g => rfl
  | stop g => rfl
  | reset g => rfl
  | close g => exact view_ofAct (detached.closeViewer g) _ h
  | listen a type k => exact detached.windows h _
  | unlisten a type k => exact detached.windows h _
  | observe g type k => exact detached.viewers h _
  | unobserve g type k => exact detached.viewers h _
  | press a e => exact detached.prevented h _
  | preventDefault n => exact detached.prevented h _
  | request a k =>
      simp only [Host.perform, Host.request]
      split
      · rfl
      · exact detached.windows h _
  | cancel a handle => exact detached.windows h _
  | frame a => exact detached.windows h _
  | swap a => exact view_ofAct (fixes_swap a) _ h

end Detached
end Host
end WireView
