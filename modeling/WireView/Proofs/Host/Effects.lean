import WireView.Proofs.Act
import WireView.Proofs.Host.Loops

/-!
# What acts do to the fittings

The fittings of a host are its windows and viewers.  Acts on the page and on the
display leave them alone, as they leave alone any view of the host that does not
see the page; opening a window and creating a viewer add one.
-/

namespace WireView

open Reentrant

variable {K L : Type}

namespace Host

def fittings (h : Host K L) : Array (Window K) × Array (Viewer K L) :=
  (h.windows, h.viewers)

theorem loops_of_fittings {h h' : Host K L} (hf : h'.fittings = h.fittings) :
    h'.loops = h.loops := by
  have hw : h'.windows = h.windows := congrArg Prod.fst hf
  have hv : h'.viewers = h.viewers := congrArg Prod.snd hf
  unfold loops
  rw [hw, hv]

theorem loops_pushWindow {h h' : Host K L} {w : Window K}
    (change : h'.fittings = (h.windows.push w, h.viewers)) :
    h'.loops = h.loops.setRack h.windows.size w.rack := by
  have hw : h'.windows = h.windows.push w := congrArg Prod.fst change
  have hv : h'.viewers = h.viewers := congrArg Prod.snd change
  unfold loops Loops.setRack
  rw [hw, hv]
  congr 1
  funext i
  rw [Array.getElem?_push, Function.update_apply]
  split
  · rfl
  · rfl

theorem loops_pushViewer {h h' : Host K L} {v : Viewer K L}
    (change : h'.fittings = (h.windows, h.viewers.push v)) :
    h'.loops = h.loops.setLoop h.viewers.size v.loop := by
  have hw : h'.windows = h.windows := congrArg Prod.fst change
  have hv : h'.viewers = h.viewers.push v := congrArg Prod.snd change
  unfold loops Loops.setLoop
  rw [hw, hv]
  congr 1
  funext i
  rw [Array.getElem?_push, Function.update_apply]
  split
  · rfl
  · rfl

open Act

/-!
# Acts on the page and the display
-/

section page

variable {γ : Type} {f : Host K L -> γ}

/-- A view of a host that sees neither the page nor the display, and no titles
and remarks. -/
structure Blind (f : Host K L -> γ) : Prop where
  tree : forall h t, f { h with tree := t } = f h
  display : forall h d, f { h with display := d } = f h
  caption : forall h text, f (h.note (.caption text)) = f h
  remark : forall h r, f (h.remark r) = f h

theorem blind_fittings :
    Blind (fittings : Host K L -> Array (Window K) × Array (Viewer K L)) :=
  ⟨fun _ _ => rfl, fun _ _ => rfl, fun _ _ => rfl, fun _ _ => rfl⟩

theorem fixes_act {k : Host K L -> Host K L} (hk : forall h, f (k h) = f h) :
    Fixes f (act k) :=
  fixes_modify hk

theorem fixes_swapBy (place : Image.Placing) (a : Nat) :
    Fixes f (swapBy place a : Act (Host K L) Image) := by
  apply fixes_bind fixes_get
  intro s
  split
  · exact fixes_throw _
  · dsimp only
    split
    · refine fixes_bind (fixes_throw _) fun _ => ?_
      split
      · exact fixes_ofResult _
      · exact fixes_pure _
    · split
      · exact fixes_ofResult _
      · exact fixes_pure _

theorem fixes_swap (a : Nat) : Fixes f (swap a : Act (Host K L) Image) :=
  fixes_swapBy Image.place? a

theorem fixes_sizeDisplay
    (display : forall h d, f { h with display := d } = f h)
    (width height : Int) :
    Fixes f (sizeDisplay width height : Act (Host K L) Unit) := by
  refine fixes_bind (fixes_act fun h => display h _) ?_
  intro _
  split
  · rename_i w h _ _
    have hrest : Fixes f (do
        let size ← Act.ofResult ((← get).display.sizeFor? w.toNat h.toNat)
        act fun h =>
          { h with display := { h.display with size := some size } } :
            Act (Host K L) Unit) := by
      apply fixes_bind fixes_get
      intro s
      apply fixes_bind (fixes_ofResult _)
      intro size
      exact fixes_act fun h => display h _
    split
    · exact fixes_bind (fixes_throw _) fun _ => hrest
    · exact hrest
  · exact fixes_throw _

theorem fixes_showTitle
    (caption : forall h text, f (h.note (.caption text)) = f h)
    (title : String) : Fixes f (showTitle title : Act (Host K L) Unit) := by
  refine fixes_bind (fixes_act fun h => caption h title) ?_
  intro _
  split
  · exact fixes_throw _
  · exact fixes_pure _

variable (blind : Blind f)
include blind

theorem fixes_createElement (d : Document) (width height : Int) :
    Fixes f (createElement d width height : Act (Host K L) Nat) := by
  unfold createElement
  split
  · exact fixes_throw _
  · apply fixes_bind (fixes_ofResult _)
    intro i
    apply fixes_get_bind
    intro s
    exact (blind.remark _ _).trans (blind.tree s _)

theorem fixes_makeCanvas (d : Document) :
    Fixes f (makeCanvas d : Act (Host K L) Nat) :=
  fixes_tryCatch (fixes_createElement blind d _ _) fun _ => fixes_throw _

theorem fixes_attachCanvas (c k : Nat) :
    Fixes f (attachCanvas c k : Act (Host K L) Unit) := by
  apply fixes_get_bind
  intro s
  rw [perform_bind, perform_ofResult]
  cases s.tree.append? c k with
  | error e => rfl
  | ok t => exact blind.tree s t

theorem fixes_mountCanvas (c k : Nat) :
    Fixes f (mountCanvas c k : Act (Host K L) Unit) :=
  fixes_tryCatch (fixes_attachCanvas blind c k) fun _ => fixes_throw _

theorem fixes_detachCanvas (k : Nat) :
    Fixes f (detachCanvas k : Act (Host K L) Unit) := by
  apply fixes_get_bind
  intro s
  rw [perform_bind, perform_ofResult]
  cases s.tree.remove? k with
  | error e => rfl
  | ok t => exact blind.tree s t

theorem fixes_provideCanvas (window container : Option Nat) :
    Fixes f (provideCanvas window container : Act (Host K L) (Nat × Nat)) := by
  apply fixes_bind fixes_get
  intro s
  split
  · exact fixes_throw _
  · split
    · exact fixes_throw _
    · apply fixes_bind (fixes_makeCanvas blind _)
      intro k
      split
      · exact fixes_throw _
      · exact fixes_bind (fixes_mountCanvas blind _ _) fun _ => fixes_pure _

theorem fixes_addContainer (c : Container) :
    Fixes f (addContainer c : Act (Host K L) Nat) := by
  apply fixes_get_bind
  intro s
  exact blind.tree s _

theorem fixes_addCanvas (width height : Int) (shares : List Int) :
    Fixes f (addCanvas width height shares : Act (Host K L) Nat) := by
  apply fixes_bind (fixes_ofResult _)
  intro i
  apply fixes_bind (fixes_ofResult _)
  intro color
  apply fixes_get_bind
  intro s
  exact blind.tree s _

end page

/-!
# New windows and viewers
-/

theorem fittings_setDocument (a : Nat) (d : NewDocument) (h : Host K L) :
    exists document, ((setDocument a d).perform h).1.fittings =
      (h.onWindow a fun w => { w with document := document }).fittings := by
  cases d with
  | absent => exact ⟨none, rfl⟩
  | bodiless => exact ⟨_, rfl⟩
  | fresh refusal => exact ⟨_, rfl⟩

theorem fittings_shutDown (a : Nat) (h : Host K L) :
    ((shutDown a).perform h).1.fittings = h.fittings
      ∨ ((shutDown a).perform h).1.fittings =
          (h.onWindow a fun w => { w with isClosed := true }).fittings := by
  simp only [shutDown, act, perform_modify]
  split
  · exact .inl rfl
  · split
    · exact .inl rfl
    · exact .inr rfl

theorem fittings_openWindow (width height : Int) (title : String)
    (h : Host K L) :
    ((openWindow width height title).perform h).1.fittings = h.fittings
      ∨ exists w : Window K, w.queue = {} ∧ w.registry = {}
          ∧ ((openWindow width height title).perform h).1.fittings =
              (h.windows.push w, h.viewers) := by
  have hsized : (((sizeDisplay width height : Act (Host K L) Unit) >>= fun _ =>
      showTitle title).perform h).1.fittings = h.fittings :=
    fixes_bind (fixes_sizeDisplay blind_fittings.display width height)
      (fun _ => fixes_showTitle blind_fittings.caption title) h
  have hassoc : (openWindow width height title : Act (Host K L) Nat) =
      ((sizeDisplay width height >>= fun _ => showTitle title) >>= fun _ => do
        let h ← get
        let a := h.windows.size
        let mounted := h.tree.addContainer {}
        let w : Window K :=
          { width := width, height := height,
            document := some { body := some mounted.2 },
            session := h.display.session }
        set
          { h with
            tree := mounted.1, windows := h.windows.push w, current := some a }
        act fun h => h.remark (.windowOpened width height title)
        pure a) := by
    rw [bind_assoc]
    rfl
  rw [hassoc, perform_bind]
  rcases hp : ((sizeDisplay width height >>= fun _ => showTitle title) :
      Act (Host K L) Unit).perform h with ⟨h', e | u⟩
  · rw [hp] at hsized
    exact .inl hsized
  · rw [hp] at hsized
    have hw : h'.windows = h.windows := congrArg Prod.fst hsized
    have hv : h'.viewers = h.viewers := congrArg Prod.snd hsized
    refine .inr ⟨{
      width := width
      height := height
      document := some { body := some (h'.tree.addContainer {}).2 }
      session := h'.display.session }, rfl, rfl, ?_⟩
    rw [← hw, ← hv]
    rfl

theorem window_of_provideCanvas {window container : Option Nat}
    {h h' : Host K L} {a k : Nat}
    (hp : (provideCanvas window container).perform h = (h', .ok (a, k))) :
    exists w, h.windows[a]? = some w := by
  unfold provideCanvas at hp
  rw [perform_bind, perform_get] at hp
  dsimp only at hp
  split at hp
  · cases hp
  · rename_i b _
    split at hp
    · cases hp
    · rename_i d hd
      rcases Option.bind_eq_some_iff.mp hd with ⟨w, hw, _⟩
      rw [perform_bind] at hp
      split at hp
      · rename_i s j hmade
        split at hp
        · cases hp
        · rw [perform_bind] at hp
          split at hp
          · rw [perform_pure] at hp
            cases hp
            exact ⟨w, hw⟩
          · cases hp
      · cases hp

theorem fittings_createViewer [LoopLogic L] (window container : Option Nat)
    (devMode : Bool) (logic : L) (h : Host K L) :
    ((createViewer window container devMode logic).perform h).1.fittings =
      h.fittings
      ∨ exists v : Viewer K L, v.loop = ⟨v.window, .idle, none, false, false⟩
          ∧ v.logic = logic ∧ (exists w, h.windows[v.window]? = some w)
          ∧ ((createViewer window container devMode logic).perform
            h).1.fittings =
              (h.windows, h.viewers.push v) := by
  have hprovided :=
    fixes_provideCanvas (blind_fittings (K := K) (L := L)) window container h
  unfold createViewer
  rw [perform_bind]
  rcases hp : (provideCanvas window container).perform h with ⟨h', e | ⟨a, k⟩⟩
  · rw [hp] at hprovided
    exact .inl hprovided
  · rw [hp] at hprovided
    have hw : h'.windows = h.windows := congrArg Prod.fst hprovided
    have hv : h'.viewers = h.viewers := congrArg Prod.snd hprovided
    refine .inr ⟨{
      window := a
      canvas := k
      easel := h'.easel
      logic := logic
      devMode := devMode }, rfl, rfl, window_of_provideCanvas hp, ?_⟩
    rw [← hw, ← hv]
    rfl

theorem fittings_closeViewer [DecidableEq K] (g : Nat) (h : Host K L) :
    ((closeViewer g).perform h).1.fittings = h.fittings
        ∧ (forall v, h.viewers[g]? = some v -> v.isClosed = true)
      ∨ ((closeViewer g).perform h).1.fittings =
          (h.onLoop g fun v w => v.shut g w).fittings := by
  unfold closeViewer
  rw [perform_bind, perform_get]
  dsimp only
  split
  · rename_i hv
    refine .inl ⟨rfl, ?_⟩
    intro v hv'
    cases hv.symm.trans hv'
  · rename_i v hv
    split
    · rename_i hclosed
      refine .inl ⟨rfl, ?_⟩
      intro u hu
      cases hv.symm.trans hu
      exact hclosed
    · have hrest : Fixes fittings (do
          detachCanvas v.canvas
          act fun h => h.remark .viewerClosed : Act (Host K L) Unit) :=
        fixes_bind (fixes_detachCanvas blind_fittings _) fun _ =>
          fixes_act fun _ => rfl
      exact .inr (hrest _)

end Host
end WireView
