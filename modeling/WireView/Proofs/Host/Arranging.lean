import WireView.Proofs.Host.Mounting

/-!
# Arranging canvases

Containers and canvases are made, and canvases are placed and taken out in any
order. Whatever has been done before, container and canvas agree about where a
canvas lies. A canvas is placed last among its siblings, and to take it out
leaves the order of the others; what is refused changes nothing.
-/

namespace WireView
namespace Host

open Act

variable {K L : Type}

/-- The hosts that come to be from an empty page by making containers and
canvases, and by placing canvases and taking them out. -/
inductive Arranged : Host K L -> Prop where
  | empty {h : Host K L} : h.tree = {} -> Arranged h
  | container {h : Host K L} (x y : Int) : Arranged h ->
      Arranged ((addContainer { x := x, y := y }).perform h).1
  | canvas {h : Host K L} (d : Document) (width height : Int) : Arranged h ->
      Arranged ((createElement d width height).perform h).1
  | append {h : Host K L} {c k : Nat} :
      Arranged h -> c < h.tree.containers.size ->
      k < h.tree.canvases.size -> Arranged ((attachCanvas c k).perform h).1
  | removeChild {h : Host K L} (c k : Nat) : Arranged h ->
      Arranged ((removeChild c k).perform h).1
  | remove {h : Host K L} (k : Nat) :
      Arranged h -> Arranged ((detachCanvas k).perform h).1

structure Appended (t : Tree) (c k : Nat) (t' : Tree) : Prop where
  last : t'.children c = t.children c ++ [k]
  elsewhere : forall i, i ≠ c -> t'.children i = t.children i
  parents : forall j, t'.parent j = if j = k then some c else t.parent j

/-- The canvas lies nowhere, and the others stay where they are in the same
order. -/
structure TakenOut (t : Tree) (k : Nat) (t' : Tree) : Prop where
  children : forall c, t'.children c = (t.children c).filter (· ≠ k)
  parents : forall j, t'.parent j = if j = k then none else t.parent j

/-!
# Outcomes
-/

theorem attachCanvas_willing {c k : Nat} {h : Host K L}
    (willing : h.tree.refusal c = none) :
    (attachCanvas c k).perform h =
      if (h.tree.parent k).isSome then (h, .error .alreadyAttached)
      else ({ h with tree := h.tree.link c k }, .ok ()) := by
  unfold attachCanvas
  rw [perform_bind, perform_get]
  dsimp only
  rw [perform_bind, perform_ofResult]
  unfold Tree.append?
  rw [willing]
  cases h.tree.parent k <;> rfl

theorem perform_removeChild (c k : Nat) (h : Host K L) :
    (removeChild c k).perform h =
      if h.tree.parent k = some c then
        ({ h with tree := h.tree.unlink c k }, .ok ())
      else (h, .error .notAChild) := by
  unfold removeChild
  rw [perform_bind, perform_get]
  dsimp only
  rw [perform_bind, perform_ofResult]
  unfold Tree.removeChild?
  by_cases lies : h.tree.parent k = some c
  · rw [if_pos lies, if_pos lies]
    rfl
  · rw [if_neg lies, if_neg lies]

theorem appended_link {t : Tree} {c k : Nat} (place : c < t.containers.size)
    (present : k < t.canvases.size) : Appended t c k (t.link c k) := by
  constructor
  · rw [Tree.children_link, if_pos ⟨rfl, place⟩]
  · intro i hi
    rw [Tree.children_link, if_neg fun h => hi h.1]
  · exact Tree.parent_link present

theorem takenOut_without {t : Tree} (h : t.Sound) (k : Nat) :
    TakenOut t k (t.without k) := by
  constructor
  · intro c
    have hchildren := (h.without k).2.2 c
    rw [hchildren, (h.nodup c).erase_eq_filter]
    simp only [bne, ne_eq, decide_not, beq_eq_decide]
  · intro j
    unfold Tree.without
    split
    · exact Tree.parent_unlink t _ k j
    · rename_i free
      split
      · rename_i hj
        exact hj ▸ free
      · rfl

/-!
# What every arrangement keeps
-/

/-- Both sides of the page agree, and no container refuses a canvas. -/
structure WellKept (t : Tree) : Prop where
  agrees : t.Agrees
  willing : forall c, t.refusal c = none

namespace WellKept

variable {t : Tree}

theorem addContainer (h : WellKept t) (x y : Int) :
    WellKept (t.addContainer { x := x, y := y }).1 := by
  constructor
  · exact h.agrees.addContainer rfl
  · intro c
    have hc := h.willing c
    unfold Tree.refusal Tree.addContainer at *
    rw [Array.getElem?_push]
    split
    · rfl
    · exact hc

theorem addCanvas (h : WellKept t) (i : Image) : WellKept (t.addCanvas i).1 :=
  ⟨h.agrees.addCanvas i, h.willing⟩

theorem link (h : WellKept t) {c k : Nat} (place : c < t.containers.size)
    (present : k < t.canvases.size) (free : t.parent k = none) :
    WellKept (t.link c k) := by
  constructor
  · exact h.agrees.link place present free
  · intro i
    exact (t.refusal_rearranged c (· ++ [k]) _ i).trans (h.willing i)

theorem unlink (h : WellKept t) {c k : Nat} (lies : t.parent k = some c) :
    WellKept (t.unlink c k) := by
  constructor
  · exact h.agrees.unlink lies
  · intro i
    exact (t.refusal_rearranged c (·.erase k) _ i).trans (h.willing i)

theorem without (h : WellKept t) (k : Nat) : WellKept (t.without k) := by
  unfold Tree.without
  split
  · rename_i lies
    exact h.unlink lies
  · exact h

end WellKept

theorem Arranged.wellKept {h : Host K L} (arranged : Arranged h) :
    WellKept h.tree := by
  induction arranged with
  | empty hempty =>
      rw [hempty]
      exact ⟨Tree.Agrees.empty, fun _ => rfl⟩
  | container x y _ ih => exact ih.addContainer x y
  | canvas d width height _ ih =>
      rename_i h _
      rcases perform_createElement d width height h with
        ⟨e, he⟩ | ⟨i, h', hi, htree⟩
      · rw [he]
        exact ih
      · rw [hi, htree]
        exact ih.addCanvas i
  | append _ place present ih =>
      rw [attachCanvas_willing (ih.willing _)]
      split
      · exact ih
      · rename_i hfree
        exact ih.link place present (Option.not_isSome_iff_eq_none.mp hfree)
  | removeChild c k _ ih =>
      rw [perform_removeChild]
      split
      · rename_i lies
        exact ih.unlink lies
      · exact ih
  | remove k _ ih =>
      rw [perform_detachCanvas]
      exact ih.without k

/-- Whatever has been done to a page, a container lists a canvas once if it is
the parent of the canvas, and not at all otherwise, so a canvas lies in one
container at most.  A canvas is refused exactly if it has a parent already, and
taken from a container exactly if that is its parent; what is refused changes
nothing.  A placed canvas comes last, one that is taken out leaves the others in
order, and detaching a canvas always succeeds.  A new canvas lies nowhere. -/
theorem canvases_lie_where_listed {h : Host K L} (arranged : Arranged h) :
    (forall c k,
      (h.tree.children c).count k = if h.tree.parent k = some c then 1 else 0)
      ∧ (forall c c' k,
        k ∈ h.tree.children c -> k ∈ h.tree.children c' -> c = c')
      ∧ (forall c k, c < h.tree.containers.size -> k < h.tree.canvases.size ->
          (h.tree.parent k ≠ none ->
            (attachCanvas c k).perform h = (h, .error .alreadyAttached))
          ∧ (h.tree.parent k = none -> exists t,
            (attachCanvas c k).perform h = ({ h with tree := t }, .ok ())
              ∧ Appended h.tree c k t))
      ∧ (forall c k,
          (h.tree.parent k ≠ some c ->
            (removeChild c k).perform h = (h, .error .notAChild))
          ∧ (h.tree.parent k = some c -> exists t,
            (removeChild c k).perform h = ({ h with tree := t }, .ok ())
              ∧ TakenOut h.tree k t))
      ∧ (forall k, exists t,
          (detachCanvas k).perform h = ({ h with tree := t }, .ok ())
            ∧ TakenOut h.tree k t)
      ∧ forall d width height,
          (exists e, (createElement d width height).perform h = (h, .error e))
          ∨ exists h',
            (createElement d width height).perform h =
              (h', .ok h.tree.canvases.size)
            ∧ h'.tree.Unmounted h.tree.canvases.size
            ∧ (forall c, h'.tree.children c = h.tree.children c)
            ∧ forall k, h'.tree.parent k = h.tree.parent k := by
  have hkept := arranged.wellKept
  refine ⟨hkept.agrees.count, ?_, ?_, ?_, ?_, ?_⟩
  · intro c c' k hk hk'
    exact Option.some.inj
      ((hkept.agrees.parent hk).symm.trans (hkept.agrees.parent hk'))
  · intro c k place present
    rw [attachCanvas_willing (hkept.willing c)]
    constructor
    · intro hparent
      rw [if_pos (Option.isSome_iff_ne_none.mpr hparent)]
    · intro hfree
      rw [hfree]
      exact ⟨_, rfl, appended_link place present⟩
  · intro c k
    rw [perform_removeChild]
    constructor
    · intro hparent
      rw [if_neg hparent]
    · intro lies
      have hout := takenOut_without hkept.agrees.sound k
      unfold Tree.without at hout
      rw [lies] at hout
      rw [if_pos lies]
      exact ⟨_, rfl, hout⟩
  · intro k
    exact ⟨_, perform_detachCanvas k h, takenOut_without hkept.agrees.sound k⟩
  · intro d width height
    rcases perform_createElement d width height h with he | ⟨i, h', hi, htree⟩
    · exact .inl he
    · refine .inr ⟨h', hi, ?_, ?_, ?_⟩
      · rw [htree]
        exact (hkept.agrees.addCanvas i).sound.unmounted
          (fresh_canvas h.tree i).2
      · rw [htree]
        exact Tree.children_addCanvas h.tree i
      · rw [htree]
        exact Tree.parent_addCanvas h.tree i

def bareHost : Host String Logic :=
  { oneViewer .standard with tree := {} }

/-- Two canvases lie in the first of two containers: the second container
refuses the first canvas, which can be taken out. -/
theorem placed_canvas_refused :
    exists h : Host String Logic, Arranged h
      ∧ h.tree.children 0 = [0, 1] ∧ h.tree.parent 0 = some 0
      ∧ (attachCanvas 1 0).perform h = (h, .error .alreadyAttached)
      ∧ exists t, (detachCanvas 0).perform h = ({ h with tree := t }, .ok ())
        ∧ TakenOut h.tree 0 t ∧ t.children 0 = [1] := by
  have places :=
    ((Arranged.empty (h := bareHost) rfl).container 0 0).container 5 5
  have canvases :=
    (places.canvas { body := none } 4 3).canvas { body := none } 2 2
  have placed :=
    (canvases.append (c := 0) (k := 0) (by decide) (by decide)).append
      (c := 0) (k := 1) (by decide) (by decide)
  rcases canvases_lie_where_listed placed with ⟨_, _, happend, _, hdetach, _⟩
  rcases hdetach 0 with ⟨t, ht, hout⟩
  refine ⟨_, placed, rfl, rfl, (happend 1 0 (by decide) (by decide)).1 nofun, t,
    ht, hout, ?_⟩
  exact hout.children 0

end Host
end WireView
