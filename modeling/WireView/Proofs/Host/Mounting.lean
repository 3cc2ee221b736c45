import WireView.Proofs.Host.Safety
import WireView.Proofs.Host.Viewers
import WireView.Proofs.Host.Views
import WireView.Proofs.Page.Tree

/-!
# What the host does to the page

An operation changes the page in one of a few ways, and work only paints on it.
As long as outside code attaches canvases that exist and adds containers that
are empty, the page stays sound, and every viewer's canvas exists.

A canvas that lies nowhere comes to lie somewhere only if it is attached.
-/

namespace WireView
namespace Host

open Reentrant Machine Act

variable {K L : Type}

/-- What an operation does to the page. -/
inductive Rearranges : Op K L -> Tree -> Tree -> Prop where
  | same {op : Op K L} {t : Tree} : Rearranges op t t
  | container {op : Op K L} {t : Tree} {v : Container}
      (given : op = .addContainer v ∨ v.children = []) :
      Rearranges op t (t.addContainer v).1
  | canvas {op : Op K L} {t : Tree} (i : Image) :
      Rearranges op t (t.addCanvas i).1
  | link {t : Tree} {c k : Nat} (free : t.parent k = none) :
      Rearranges (.attach c k) t (t.link c k)
  | mount {op : Op K L} {t : Tree} (i : Image) (c : Nat) :
      Rearranges op t ((t.addCanvas i).1.link c t.canvases.size)
  | unlink {op : Op K L} {t : Tree} {c k : Nat} (lies : t.parent k = some c) :
      Rearranges op t (t.unlink c k)

/-!
# Acts
-/

theorem tree_openWindow (width height : Int) (title : String) (h : Host K L) :
    ((openWindow width height title).perform h).1.tree = h.tree
      ∨ ((openWindow width height title).perform h).1.tree =
        (h.tree.addContainer {}).1 := by
  unfold openWindow
  rw [perform_bind]
  have hsized : ((sizeDisplay width height).perform h).1.tree = h.tree :=
    fixes_sizeDisplay (f := Host.tree) (fun _ _ => rfl) width height h
  rcases hp : (sizeDisplay width height).perform h with ⟨h', e | u⟩
  · rw [hp] at hsized
    exact .inl hsized
  · rw [hp] at hsized
    dsimp only at hsized ⊢
    rw [perform_bind]
    have htitled : ((showTitle title).perform h').1.tree = h'.tree :=
      fixes_showTitle (f := Host.tree) (fun _ _ => rfl) title h'
    rcases hq : (showTitle title).perform h' with ⟨h'', e | u⟩
    · rw [hq] at htitled
      exact .inl (htitled.trans hsized)
    · rw [hq] at htitled
      rw [← hsized, ← htitled]
      exact .inr rfl

theorem tree_addCanvas (width height : Int) (shares : List Int)
    (h : Host K L) :
    ((addCanvas width height shares).perform h).1.tree = h.tree
      ∨ exists i, ((addCanvas width height shares).perform h).1.tree =
        (h.tree.addCanvas i).1 := by
  unfold addCanvas
  rw [perform_bind, perform_ofResult]
  cases Image.ofSize? width height with
  | error e => exact .inl rfl
  | ok i =>
      dsimp only
      rw [perform_bind, perform_ofResult]
      cases Color.ofShares? shares with
      | error e => exact .inl rfl
      | ok color => exact .inr ⟨i.fill color, rfl⟩

theorem tree_shutDown (a : Nat) (h : Host K L) :
    ((shutDown a).perform h).1.tree = h.tree := by
  simp only [shutDown, act, perform_modify]
  split
  · rfl
  · split
    · rfl
    · rfl

theorem perform_createElement (d : Document) (width height : Int)
    (h : Host K L) :
    (exists e, (createElement d width height).perform h = (h, .error e))
      ∨ exists i h',
        (createElement d width height).perform h =
          (h', .ok h.tree.canvases.size)
        ∧ h'.tree = (h.tree.addCanvas i).1 := by
  unfold createElement
  split
  · exact .inl ⟨_, rfl⟩
  · rw [perform_bind, perform_ofResult]
    cases Image.ofSize? width height with
    | error e => exact .inl ⟨e, rfl⟩
    | ok i => exact .inr ⟨i, _, rfl, rfl⟩

theorem perform_makeCanvas (d : Document) (h : Host K L) :
    (exists e, (makeCanvas d).perform h = (h, .error e))
      ∨ exists i h', (makeCanvas d).perform h = (h', .ok h.tree.canvases.size)
        ∧ h'.tree = (h.tree.addCanvas i).1 := by
  unfold makeCanvas
  rw [perform_tryCatch]
  rcases perform_createElement d Settings.canvasWidth Settings.canvasHeight
    h with
    ⟨e, he⟩ | ⟨i, h', hi, htree⟩
  · rw [he]
    exact .inl ⟨_, rfl⟩
  · rw [hi]
    exact .inr ⟨i, h', rfl, htree⟩

theorem perform_attachCanvas (c k : Nat) (h : Host K L) :
    (exists e, (attachCanvas c k).perform h = (h, .error e))
      ∨ h.tree.parent k = none
        ∧ (attachCanvas c k).perform h =
          ({ h with tree := h.tree.link c k }, .ok ()) := by
  unfold attachCanvas
  rw [perform_bind, perform_get]
  dsimp only
  rw [perform_bind, perform_ofResult]
  unfold Tree.append?
  cases h.tree.refusal c with
  | some refusal => exact .inl ⟨_, rfl⟩
  | none =>
      cases hk : h.tree.parent k with
      | some p => exact .inl ⟨_, rfl⟩
      | none => exact .inr ⟨rfl, rfl⟩

theorem perform_mountCanvas (c k : Nat) (h : Host K L) :
    (exists e, (mountCanvas c k).perform h = (h, .error e))
      ∨ (mountCanvas c k).perform h =
        ({ h with tree := h.tree.link c k }, .ok ()) := by
  unfold mountCanvas
  rw [perform_tryCatch]
  rcases perform_attachCanvas c k h with ⟨e, he⟩ | ⟨_, hlink⟩
  · rw [he]
    exact .inl ⟨_, rfl⟩
  · rw [hlink]
    exact .inr rfl

theorem perform_provideCanvas (window container : Option Nat) (h : Host K L) :
    (exists h' e, (provideCanvas window container).perform h = (h', .error e)
        ∧ (h'.tree = h.tree ∨ exists i, h'.tree = (h.tree.addCanvas i).1))
      ∨ exists h' a i c, (provideCanvas window container).perform h =
          (h', .ok (a, h.tree.canvases.size))
        ∧ h'.tree = (h.tree.addCanvas i).1.link c h.tree.canvases.size := by
  unfold provideCanvas
  rw [perform_bind, perform_get]
  dsimp only
  split
  · exact .inl ⟨h, _, rfl, .inl rfl⟩
  · rename_i a _
    split
    · exact .inl ⟨h, _, rfl, .inl rfl⟩
    · rename_i d _
      rw [perform_bind]
      rcases perform_makeCanvas d h with ⟨e, he⟩ | ⟨i, h', hi, htree⟩
      · rw [he]
        exact .inl ⟨h, e, rfl, .inl rfl⟩
      · rw [hi]
        dsimp only
        split
        · exact .inl ⟨h', _, rfl, .inr ⟨i, htree⟩⟩
        · rename_i c _
          rw [perform_bind]
          rcases perform_mountCanvas c h.tree.canvases.size h' with
            ⟨e, he⟩ | hlink
          · rw [he]
            exact .inl ⟨h', e, rfl, .inr ⟨i, htree⟩⟩
          · rw [hlink]
            refine .inr ⟨_, a, i, c, rfl, ?_⟩
            show h'.tree.link c h.tree.canvases.size = _
            rw [htree]

theorem mounted_createViewer [LoopLogic L] (window container : Option Nat)
    (devMode : Bool) (logic : L) (h : Host K L) :
    (((createViewer window container devMode logic).perform h).1.viewers =
      h.viewers
        ∧ (((createViewer window container devMode logic).perform h).1.tree =
          h.tree
          ∨ exists i,
            ((createViewer window container devMode logic).perform h).1.tree =
              (h.tree.addCanvas i).1))
      ∨ exists (v : Viewer K L) (i : Image) (c : Nat),
        ((createViewer window container devMode logic).perform h).1.viewers =
          h.viewers.push v
          ∧ v.canvas = h.tree.canvases.size
          ∧ ((createViewer window container devMode logic).perform h).1.tree =
              (h.tree.addCanvas i).1.link c h.tree.canvases.size := by
  have hfittings :=
    fixes_provideCanvas (blind_fittings (K := K) (L := L)) window container h
  have hviewers := congrArg Prod.snd hfittings
  unfold createViewer
  rw [perform_bind]
  rcases perform_provideCanvas window container h with
    ⟨h', e, hp, htree⟩ | ⟨h', a, i, c, hp, htree⟩
  · rw [hp] at hviewers ⊢
    exact .inl ⟨hviewers, htree⟩
  · rw [hp] at hviewers ⊢
    have hviewers' : h'.viewers = h.viewers := hviewers
    refine .inr ⟨{
      window := a
      canvas := h.tree.canvases.size
      easel := h'.easel
      logic := logic
      devMode := devMode }, i, c, ?_, rfl, htree⟩
    rw [← hviewers']
    rfl

theorem perform_detachCanvas (k : Nat) (h : Host K L) :
    (detachCanvas k).perform h =
      ({ h with tree := h.tree.without k }, .ok ()) := by
  unfold detachCanvas
  rw [perform_bind, perform_get]
  dsimp only
  rw [perform_bind, perform_ofResult, Tree.remove?_eq]
  rfl

theorem unfitted_tree : Unfitted (Host.tree : Host K L -> Tree) :=
  ⟨fun _ _ => rfl, fun _ _ => rfl, fun _ _ => rfl⟩

theorem tree_onLoop (h : Host K L) (g : Nat)
    (f : Viewer K L -> Window K -> Viewer K L × Window K) :
    (h.onLoop g f).tree = h.tree :=
  unfitted_tree.onLoop h g f

theorem perform_closeViewer [DecidableEq K] {g : Nat} {v : Viewer K L}
    {h : Host K L} (hv : h.viewers[g]? = some v) :
    (closeViewer g).perform h =
      if v.isClosed then (h, .ok ())
      else
        let shut := h.onLoop g fun v w => v.shut g w
        ({ shut with tree := h.tree.without v.canvas }.remark .viewerClosed,
          .ok ()) := by
  unfold closeViewer
  rw [perform_bind, perform_get]
  dsimp only
  rw [hv]
  dsimp only
  split
  · rfl
  · show (detachCanvas v.canvas >>= fun _ => _).perform
      (h.onLoop g fun v w => v.shut g w) = _
    rw [perform_bind, perform_detachCanvas, tree_onLoop]
    rfl

/-!
# Operations and work
-/

section Steps

variable [LoopLogic L] [DecidableEq K]

omit [LoopLogic L] in
theorem tree_closeViewer (g : Nat) (h : Host K L) :
    ((closeViewer g).perform h).1.tree = h.tree
      ∨ exists k, ((closeViewer g).perform h).1.tree = h.tree.without k := by
  cases hv : h.viewers[g]? with
  | none =>
      left
      unfold closeViewer
      rw [perform_bind, perform_get]
      dsimp only
      rw [hv]
      rfl
  | some v =>
      rw [perform_closeViewer hv]
      split
      · exact .inl rfl
      · exact .inr ⟨v.canvas, rfl⟩

omit [LoopLogic L] [DecidableEq K] in
theorem rearranges_without (op : Op K L) (t : Tree) (k : Nat) :
    Rearranges op t (t.without k) := by
  unfold Tree.without
  split
  · exact .unlink ‹_›
  · exact .same

theorem rearranges_perform (op : Op K L) (h : Host K L) :
    Rearranges op h.tree (perform op h).1.tree := by
  cases op with
  | setClock now => exact .same
  | openWindow width height title =>
      simp only [perform, world_ofAct]
      rcases tree_openWindow width height title h with htree | htree
      · rw [htree]
        exact .same
      · rw [htree]
        exact .container (.inr rfl)
  | shutDown a =>
      simp only [perform, andNothing, world_ofAct, tree_shutDown]
      exact .same
  | setDocument a d =>
      simp only [perform, andNothing, world_ofAct]
      cases d with
      | absent => exact .same
      | bodiless => exact .same
      | fresh refusal => exact .container (.inr rfl)
  | addContainer c => exact .container (.inl rfl)
  | addCanvas width height shares =>
      simp only [perform, world_ofAct]
      rcases tree_addCanvas width height shares h with htree | ⟨i, htree⟩
      · rw [htree]
        exact .same
      · rw [htree]
        exact .canvas i
  | attach c k =>
      simp only [perform, andNothing, world_ofAct]
      rcases perform_attachCanvas c k h with ⟨e, he⟩ | ⟨hfree, hlink⟩
      · rw [he]
        exact .same
      · rw [hlink]
        exact .link hfree
  | detach k =>
      simp only [perform, andNothing, world_ofAct, perform_detachCanvas]
      exact rearranges_without _ _ k
  | createViewer window container devMode logic =>
      simp only [perform, world_ofAct]
      rcases mounted_createViewer window container devMode logic h with
        ⟨_, htree | ⟨i, htree⟩⟩ | ⟨v, i, c, _, _, htree⟩
      · rw [htree]
        exact .same
      · rw [htree]
        exact .canvas i
      · rw [htree]
        exact .mount i c
  | run g => exact .same
  | stop g => exact .same
  | reset g => exact .same
  | close g =>
      simp only [perform, andNothing, world_ofAct]
      rcases tree_closeViewer g h with htree | ⟨k, htree⟩
      · rw [htree]
        exact .same
      · rw [htree]
        exact rearranges_without _ _ k
  | listen a type k => exact .same
  | unlisten a type k => exact .same
  | observe g type k => exact .same
  | unobserve g type k => exact .same
  | press a e => exact .same
  | preventDefault n => exact .same
  | post events =>
      simp only [perform, post]
      split
      · exact .same
      · exact .same
  | poll a =>
      simp only [perform, beginPoll]
      split
      · exact .same
      · exact .same
  | request a k =>
      simp only [perform, request]
      split
      · exact .same
      · exact .same
  | cancel a handle => exact .same
  | frame a => exact .same
  | swap a =>
      simp only [perform, world_ofAct]
      rw [fixes_swap (f := Host.tree) a h]
      exact .same

/-- A page that is as it was but for what is painted on its canvases. -/
structure Painted (t t' : Tree) : Prop where
  parents : forall k, t'.parent k = t.parent k
  children : forall c, t'.children c = t.children c
  size : t'.canvases.size = t.canvases.size

theorem painted_of_eq {t t' : Tree} (h : t' = t) : Painted t t' := by
  subst h
  exact ⟨fun _ => rfl, fun _ => rfl, rfl⟩

omit [LoopLogic L] [DecidableEq K] in
theorem painted_afterLogic {α : Type} {t : Tree}
    (r : Host K L × Except Failure α) {f : α -> Host K L -> Outcome K L}
    (hr : Painted t r.1.tree) (hf : forall a h, (f a h).1.tree = h.tree) :
    Painted t (afterLogic r f).1.tree := by
  rcases r with ⟨h, e | a⟩
  · exact hr
  · show Painted t (f a h).1.tree
    rw [hf]
    exact hr

omit [LoopLogic L] [DecidableEq K] in
theorem painted_withViewer {g : Nat} {f : Viewer K L -> Host K L -> Outcome K L}
    (h : Host K L) (hf : forall v, Painted h.tree (f v h).1.tree) :
    Painted h.tree (withViewer g f h).1.tree := by
  unfold withViewer
  split
  · exact hf _
  · exact painted_of_eq rfl

omit [LoopLogic L] [DecidableEq K] in
theorem painted_onEasel (g : Nat) (v : Viewer K L) (act : Act Easel Unit)
    (h : Host K L) : Painted h.tree (h.onEasel g v act).1.tree :=
  ⟨Tree.parent_paint h.tree v.canvas _, Tree.children_paint h.tree v.canvas _,
   Array.size_modify⟩

omit [DecidableEq K] in
theorem tree_pressLogic (g : Nat) (motion : KeyMotion) (e : KeyEvent) (n : Nat)
    (h : Host K L) : (pressLogic g motion e n h).1.tree = h.tree :=
  unfitted_tree.pressLogic (fun _ _ _ => rfl) g motion e n h

theorem painted_press (a : Nat) (e : KeyEvent) (n : Nat) (h : Host K L)
    (todo : List (Listener K)) :
    Painted h.tree (press a e n h todo).1.tree := by
  refine Registry.step_elim
    (motive := fun o : Outcome K L => Painted h.tree o.1.tree)
    todo ?_ ?_ ?_
  · exact fun _ => painted_of_eq rfl
  · intro l rest _ _
    cases l with
    | outside k => exact painted_of_eq rfl
    | keys motion g =>
        exact painted_afterLogic _
          (painted_of_eq (tree_pressLogic g motion e n h))
          fun _ _ => rfl
  · exact fun _ _ _ _ => painted_of_eq rfl

theorem painted_resume (t : Task K) (h : Host K L) :
    Painted h.tree (resume t h).1.tree := by
  cases t with
  | run g =>
      apply painted_withViewer
      intro v
      unfold run
      split
      · exact painted_of_eq rfl
      · split
        · exact painted_of_eq rfl
        · exact painted_of_eq rfl
  | setUp g =>
      apply painted_withViewer
      intro v
      exact painted_afterLogic _ (painted_of_eq rfl) fun rs h =>
        view_foldl_remark (fun _ _ => rfl) rs h
  | start g => exact painted_of_eq (tree_onLoop h g _)
  | stop g =>
      apply painted_withViewer
      intro v
      unfold stop
      split
      · exact painted_of_eq rfl
      · exact painted_of_eq (tree_onLoop h g _)
  | notify g type todo =>
      exact painted_of_eq (congrArg Host.tree (world_notify g type h todo))
  | press a e n todo => exact painted_press a e n h todo
  | frame a todo ran =>
      refine frame_elim (motive := fun o => Painted h.tree o.1.tree)
        a ran h todo ?_ ?_ ?_ ?_ ?_
      · exact fun _ => painted_of_eq rfl
      · exact fun _ => painted_of_eq rfl
      · exact fun _ _ _ _ _ _ _ _ => painted_of_eq rfl
      · exact fun _ _ _ _ _ _ _ _ => painted_of_eq rfl
      · exact fun _ _ _ => painted_of_eq rfl
  | poll a todo =>
      cases todo with
      | nil => exact painted_of_eq rfl
      | cons i todo =>
          cases i with
          | quit => exact painted_of_eq rfl
          | key motion code => exact painted_of_eq rfl
          | other => exact painted_of_eq rfl
  | update g =>
      apply painted_withViewer
      intro v
      exact painted_afterLogic _ (painted_of_eq rfl) fun _ _ => rfl
  | draw g =>
      apply painted_withViewer
      intro v
      exact painted_afterLogic _ (painted_onEasel g v _ h) fun _ _ => rfl
  | rearm g =>
      apply painted_withViewer
      intro v
      unfold rearm
      split
      · exact painted_of_eq rfl
      · split
        · exact painted_of_eq (tree_onLoop h g _)
        · exact painted_of_eq rfl
        · exact painted_of_eq rfl

/-!
# The number of viewers
-/

variable {h h' : Host K L}

omit [LoopLogic L] [DecidableEq K] in
theorem size_onViewer (h : Host K L) (g : Nat) (f : Viewer K L -> Viewer K L) :
    (h.onViewer g f).viewers.size = h.viewers.size := Array.size_modify

omit [LoopLogic L] [DecidableEq K] in
theorem size_onLoop (h : Host K L) (g : Nat)
    (f : Viewer K L -> Window K -> Viewer K L × Window K) :
    (h.onLoop g f).viewers.size = h.viewers.size := by
  unfold onLoop
  split
  · rfl
  · split
    · rfl
    · exact size_onViewer h g _

theorem size_works {t : Task K} (hw : Works t h h') :
    h'.viewers.size = h.viewers.size := by
  cases hw with
  | quiet change => exact congrArg (fun f => f.2.size) change
  | think present thought change =>
      exact (congrArg (fun f => f.2.size) change).trans (size_onViewer h _ _)
  | paint change =>
      exact (congrArg (fun f => f.2.size) change).trans (size_onViewer h _ _)
  | start change =>
      exact (congrArg (fun f => f.2.size) change).trans (size_onLoop h _ _)
  | stop present running change =>
      exact (congrArg (fun f => f.2.size) change).trans (size_onLoop h _ _)
  | take present taken change => exact congrArg (fun f => f.2.size) change
  | tick present taken change =>
      exact (congrArg (fun f => f.2.size) change).trans (size_onViewer _ _ _)
  | rearm present spent running change =>
      exact (congrArg (fun f => f.2.size) change).trans (size_onLoop h _ _)

omit [LoopLogic L] in
theorem size_operates {op : Op K L} (ho : Operates op h h') :
    h'.viewers.size = h.viewers.size
      ∨ exists window container devMode logic,
        op = .createViewer window container devMode logic := by
  cases ho with
  | created loop given present change => exact .inr ⟨_, _, _, _, rfl⟩
  | closed change =>
      exact .inl
        ((congrArg (fun f => f.2.size) change).trans (size_onLoop h _ _))
  | observers edit change =>
      exact .inl
        ((congrArg (fun f => f.2.size) change).trans (size_onViewer h _ _))
  | quiet change => exact .inl (congrArg (fun f => f.2.size) change)
  | furnish kept change => exact .inl (congrArg (fun f => f.2.size) change)
  | opened queue registry change =>
      exact .inl (congrArg (fun f => f.2.size) change)
  | listen change => exact .inl (congrArg (fun f => f.2.size) change)
  | unlisten change => exact .inl (congrArg (fun f => f.2.size) change)
  | request present change => exact .inl (congrArg (fun f => f.2.size) change)
  | cancel change => exact .inl (congrArg (fun f => f.2.size) change)
  | frame change => exact .inl (congrArg (fun f => f.2.size) change)

/-!
# The invariant
-/

structure Mounted (h : Host K L) : Prop where
  sound : h.tree.Sound
  canvases : forall (g : Nat) (v : Viewer K L), h.viewers[g]? = some v ->
    v.canvas < h.tree.canvases.size

/-- Outside code attaches canvases that exist, and adds containers that are
empty. -/
structure Orderly (m : HostMachine K L) (move : Move (Op K L)) : Prop where
  attached : forall c k,
    move = .issue (.attach c k) -> k < m.world.tree.canvases.size
  empty : forall c, move = .issue (.addContainer c) -> c.children = []

section Rearranges

variable {op : Op K L} {t t' : Tree}

omit [LoopLogic L] [DecidableEq K] in
theorem Rearranges.size_le (hr : Rearranges op t t') :
    t.canvases.size ≤ t'.canvases.size := by
  cases hr with
  | same => exact Nat.le_refl _
  | container given => exact Nat.le_refl _
  | canvas i =>
      show _ ≤ (t.canvases.push _).size
      rw [Array.size_push]
      exact Nat.le_succ _
  | link free => exact Nat.le_of_eq Array.size_modify.symm
  | mount i c =>
      show _ ≤ ((t.canvases.push _).modify _ _).size
      rw [Array.size_modify, Array.size_push]
      exact Nat.le_succ _
  | unlink lies => exact Nat.le_of_eq Array.size_modify.symm

omit [LoopLogic L] [DecidableEq K] in
theorem fresh_canvas (t : Tree) (i : Image) :
    t.canvases.size < (t.addCanvas i).1.canvases.size
      ∧ (t.addCanvas i).1.parent t.canvases.size = none := by
  constructor
  · show _ < (t.canvases.push _).size
    rw [Array.size_push]
    exact Nat.lt_succ_self _
  · rw [Tree.parent_addCanvas]
    exact Tree.parent_of_size_le (Nat.le_refl _)

omit [LoopLogic L] [DecidableEq K] in
theorem Rearranges.sound (hr : Rearranges op t t') (hs : t.Sound)
    (attached : forall c k, op = .attach c k -> k < t.canvases.size)
    (empty : forall c, op = .addContainer c -> c.children = []) : t'.Sound := by
  cases hr with
  | same => exact hs
  | container given =>
      rcases given with rfl | hempty
      · exact hs.addContainer (empty _ rfl)
      · exact hs.addContainer hempty
  | canvas i => exact hs.addCanvas i
  | link free => exact hs.link (attached _ _ rfl) free
  | mount i c =>
      have hfresh := fresh_canvas t i
      exact (hs.addCanvas i).link hfresh.1 hfresh.2
  | unlink lies => exact hs.unlink lies

omit [LoopLogic L] [DecidableEq K] in
theorem Rearranges.parent_none (hr : Rearranges op t t') {k : Nat}
    (present : k < t.canvases.size) (free : t.parent k = none)
    (attached : forall c j, op = .attach c j -> j < t.canvases.size)
    (spared : forall c, op ≠ .attach c k) : t'.parent k = none := by
  cases hr with
  | same => exact free
  | container given => exact free
  | canvas i =>
      rw [Tree.parent_addCanvas]
      exact free
  | link _ =>
      rename_i c j _
      have hne : k ≠ j := by
        rintro rfl
        exact spared c rfl
      rw [Tree.parent_link (attached _ _ rfl), if_neg hne]
      exact free
  | mount i c =>
      rw [Tree.parent_link (fresh_canvas t i).1, if_neg (Nat.ne_of_lt present),
        Tree.parent_addCanvas]
      exact free
  | unlink lies =>
      rw [Tree.parent_unlink]
      split
      · rfl
      · exact free

end Rearranges

variable {m n : HostMachine K L} {move : Move (Op K L)}

theorem rearranges_of_move (hmove : m.move? (component K L) move = some n) :
    Painted m.world.tree n.world.tree
      ∨ exists op,
        move = .issue op ∧ Rearranges op m.world.tree n.world.tree := by
  cases move with
  | work =>
      rcases move?_work hmove with ⟨t, rest, _, rfl⟩
      rw [proceed_world]
      exact .inl (painted_resume t m.world)
  | issue op =>
      rcases move?_issue hmove with ⟨_, rfl⟩
      unfold Machine.issue
      rw [proceed_world]
      exact .inr ⟨op, rfl, rearranges_perform op m.world⟩
  | giveBack =>
      rcases move?_giveBack hmove with ⟨c, rest, _, rfl⟩
      exact .inl (painted_of_eq rfl)
  | throw e =>
      rcases move?_throw hmove with ⟨c, rest, _, rfl⟩
      exact .inl (painted_of_eq rfl)

theorem viewer_of_move (hmove : m.move? (component K L) move = some n) {g : Nat}
    {v' : Viewer K L} (hv' : n.world.viewers[g]? = some v') :
    (exists v, m.world.viewers[g]? = some v ∧ v.Later v')
      ∨ v'.canvas < n.world.tree.canvases.size := by
  cases hv : m.world.viewers[g]? with
  | some v =>
      rcases later_of_move hmove hv with ⟨v'', hv'', hlater⟩
      cases hv'.symm.trans hv''
      exact .inl ⟨v, rfl, hlater⟩
  | none =>
      have hgrown : n.world.viewers.size ≠ m.world.viewers.size := by
        intro hsize
        rw [Array.getElem?_eq_none (hsize ▸ Array.getElem?_eq_none_iff.mp hv)]
          at hv'
        cases hv'
      cases move with
      | work =>
          rcases move?_work hmove with ⟨t, rest, _, rfl⟩
          rw [proceed_world] at hgrown
          exact absurd (size_works (works_resume t m.world)) hgrown
      | issue op =>
          rcases move?_issue hmove with ⟨_, rfl⟩
          unfold Machine.issue at hgrown hv' ⊢
          rw [proceed_world] at hgrown hv' ⊢
          rcases size_operates (operates_perform op m.world) with
            hsize | ⟨window, container, devMode, logic, rfl⟩
          · exact absurd hsize hgrown
          · have hworld :
                ((component K L).perform
                  (.createViewer window container devMode logic)
                  m.world).1 =
                    ((createViewer window container devMode logic).perform
                      m.world).1 :=
              world_ofAct _ _ _
            rw [hworld] at hgrown hv' ⊢
            rcases mounted_createViewer window container devMode logic
              m.world with
              ⟨hsame, _⟩ | ⟨u, i, c, hpush, hcanvas, htree⟩
            · rw [hsame] at hgrown
              exact absurd rfl hgrown
            · rw [hpush, Array.getElem?_push] at hv'
              split at hv'
              · cases hv'
                rw [htree, hcanvas]
                exact .inr (Nat.lt_of_lt_of_le (fresh_canvas m.world.tree i).1
                  (Nat.le_of_eq Array.size_modify.symm))
              · rw [hv] at hv'
                cases hv'
      | giveBack =>
          rcases move?_giveBack hmove with ⟨c, rest, _, rfl⟩
          exact absurd rfl hgrown
      | throw e =>
          rcases move?_throw hmove with ⟨c, rest, _, rfl⟩
          exact absurd rfl hgrown

theorem mounted_of_move (hm : Mounted m.world) (orderly : Orderly m move)
    (hmove : m.move? (component K L) move = some n) : Mounted n.world := by
  have hpage :
      n.world.tree.Sound
        ∧ m.world.tree.canvases.size ≤ n.world.tree.canvases.size := by
    rcases rearranges_of_move hmove with hpainted | ⟨op, rfl, hr⟩
    · constructor
      · exact hm.sound.of_eq hpainted.parents hpainted.children
      · exact Nat.le_of_eq hpainted.size.symm
    · constructor
      · apply hr.sound hm.sound
        · intro c k hop
          exact orderly.attached c k (congrArg Move.issue hop)
        · intro c hop
          exact orderly.empty c (congrArg Move.issue hop)
      · exact hr.size_le
  constructor
  · exact hpage.1
  · intro g v' hv'
    rcases viewer_of_move hmove hv' with ⟨v, hv, hlater⟩ | hfresh
    · rw [hlater.canvas]
      exact Nat.lt_of_lt_of_le (hm.canvases g v hv) hpage.2
    · exact hfresh

theorem mounted_of_reaches (mounted : Mounted m.world)
    (run : Reaches (component K L) Orderly m n) : Mounted n.world :=
  run.invariant (P := fun k => Mounted k.world) mounted fun _ _ _ =>
    mounted_of_move

theorem unmounted_of_move (hm : Mounted m.world) (orderly : Orderly m move)
    (hmove : m.move? (component K L) move = some n) {k : Nat}
    (present : k < m.world.tree.canvases.size) (free : m.world.tree.Unmounted k)
    (spared : forall c, move ≠ .issue (.attach c k)) :
    n.world.tree.Unmounted k := by
  apply (mounted_of_move hm orderly hmove).sound.unmounted
  rcases rearranges_of_move hmove with hpainted | ⟨op, rfl, hr⟩
  · rw [hpainted.parents]
    exact free.1
  · apply hr.parent_none present free.1
    · intro c j hop
      exact orderly.attached c j (congrArg Move.issue hop)
    · intro c hop
      exact spared c (congrArg Move.issue hop)

end Steps
end Host
end WireView
