import WireView.Page.Tree

/-!
# Both sides of the page

A canvas names its parent, and a container lists its children.  The page is
sound when a container lists no canvas twice, and only canvases that name it.

Everything that is done to a page in which only canvases that exist are placed
keeps it sound.  A canvas that is taken out is then in no container, and the
other children keep their order.
-/

namespace WireView
namespace Tree

/-- Containers list what names them as its parent, and that once at most. -/
def Sound (t : Tree) : Prop :=
  forall c k, (t.children c).count k ≤ if t.parent k = some c then 1 else 0

def Unmounted (t : Tree) (k : Nat) : Prop :=
  t.parent k = none ∧ forall c, k ∉ t.children c

variable {t : Tree}

theorem Sound.unmounted (h : t.Sound) {k : Nat} (free : t.parent k = none) :
    t.Unmounted k := by
  constructor
  · exact free
  · intro c hmem
    have hle := h c k
    rw [free, if_neg nofun] at hle
    exact absurd (List.count_pos_iff.mpr hmem) (Nat.not_lt_of_le hle)

/-!
# Children and parents after a change
-/

theorem children_addContainer (t : Tree) (v : Container) (c : Nat) :
    (t.addContainer v).1.children c =
      if c = t.containers.size then v.children else t.children c := by
  unfold children addContainer
  rw [Array.getElem?_push]
  split
  · rfl
  · rfl

theorem parent_addContainer (t : Tree) (v : Container) (k : Nat) :
    (t.addContainer v).1.parent k = t.parent k := rfl

theorem children_addCanvas (t : Tree) (i : Image) (c : Nat) :
    (t.addCanvas i).1.children c = t.children c := rfl

theorem parent_addCanvas (t : Tree) (i : Image) (k : Nat) :
    (t.addCanvas i).1.parent k = t.parent k := by
  unfold parent addCanvas
  rw [Array.getElem?_push]
  split
  · rename_i hk
    rw [Array.getElem?_eq_none (Nat.le_of_eq hk.symm)]
    rfl
  · rfl

theorem image_addCanvas (t : Tree) (i : Image) (k : Nat) :
    (t.addCanvas i).1.image k =
      if k = t.canvases.size then i else t.image k := by
  unfold image addCanvas
  rw [Array.getElem?_push]
  split
  · rfl
  · rfl

theorem parent_of_size_le {k : Nat} (h : t.canvases.size ≤ k) :
    t.parent k = none := by
  unfold parent
  rw [Array.getElem?_eq_none h]
  rfl

theorem children_paint (t : Tree) (k : Nat) (f : Image -> Image) (c : Nat) :
    (t.paint k f).children c = t.children c := rfl

theorem parent_paint (t : Tree) (k : Nat) (f : Image -> Image) (j : Nat) :
    (t.paint k f).parent j = t.parent j := by
  unfold parent paint
  rw [Array.getElem?_modify]
  split
  · cases t.canvases[j]? <;> rfl
  · rfl

theorem parent_link {c k : Nat} (h : k < t.canvases.size) (j : Nat) :
    (t.link c k).parent j = if j = k then some c else t.parent j := by
  unfold parent link
  rw [Array.getElem?_modify]
  by_cases hj : k = j
  · subst hj
    rw [if_pos rfl, if_pos rfl, Array.getElem?_eq_getElem h]
    rfl
  · rw [if_neg hj, if_neg (Ne.symm hj)]

theorem image_link (t : Tree) (c k j : Nat) :
    (t.link c k).image j = t.image j := by
  unfold image link
  rw [Array.getElem?_modify]
  split
  · cases t.canvases[j]? <;> rfl
  · rfl

theorem children_link (t : Tree) (c k i : Nat) :
    (t.link c k).children i =
      if i = c ∧ c < t.containers.size then t.children i ++ [k]
        else t.children i := by
  unfold children link
  rw [Array.getElem?_modify]
  by_cases hi : c = i
  · subst hi
    rw [if_pos rfl]
    by_cases hc : c < t.containers.size
    · rw [if_pos ⟨rfl, hc⟩, Array.getElem?_eq_getElem hc]
      rfl
    · rw [if_neg fun h => hc h.2, Array.getElem?_eq_none (Nat.le_of_not_lt hc)]
      rfl
  · rw [if_neg hi, if_neg fun h => hi h.1.symm]

theorem count_children_link (t : Tree) (c k i j : Nat) :
    ((t.link c k).children i).count j ≤
      (t.children i).count j + if i = c ∧ j = k then 1 else 0 := by
  rw [children_link]
  split
  · rename_i hi
    rw [List.count_append]
    apply Nat.add_le_add_left
    by_cases hj : j = k
    · subst hj
      simp [hi.1]
    · simp [Ne.symm hj]
  · exact Nat.le_add_right _ _

theorem parent_unlink (t : Tree) (c k j : Nat) :
    (t.unlink c k).parent j = if j = k then none else t.parent j := by
  unfold parent unlink
  rw [Array.getElem?_modify]
  by_cases hj : k = j
  · subst hj
    rw [if_pos rfl, if_pos rfl]
    cases t.canvases[k]? <;> rfl
  · rw [if_neg hj, if_neg (Ne.symm hj)]

theorem children_unlink (t : Tree) (c k i : Nat) :
    (t.unlink c k).children i =
      if i = c then (t.children i).erase k else t.children i := by
  unfold children unlink
  rw [Array.getElem?_modify]
  by_cases hi : c = i
  · subst hi
    rw [if_pos rfl, if_pos rfl]
    cases t.containers[c]? <;> rfl
  · rw [if_neg hi, if_neg (Ne.symm hi)]

theorem refusal_rearranged (t : Tree) (c : Nat) (f : List Nat -> List Nat)
    (ks : Array Canvas) (i : Nat) :
    ({ containers := t.containers.modify c fun v =>
         { v with children := f v.children }
       canvases := ks } : Tree).refusal i = t.refusal i := by
  unfold refusal
  rw [Array.getElem?_modify]
  split
  · cases t.containers[i]? <;> rfl
  · rfl

/-!
# What keeps a page sound
-/

theorem Sound.of_le (h : t.Sound) {t' : Tree}
    (parents : forall k, t'.parent k = t.parent k)
    (children : forall c k, (t'.children c).count k ≤ (t.children c).count k) :
    t'.Sound := by
  intro c k
  rw [parents]
  exact Nat.le_trans (children c k) (h c k)

theorem Sound.of_eq (h : t.Sound) {t' : Tree}
    (parents : forall k, t'.parent k = t.parent k)
    (children : forall c, t'.children c = t.children c) : t'.Sound :=
  h.of_le parents fun c k => Nat.le_of_eq (congrArg (List.count k) (children c))

theorem Sound.addContainer (h : t.Sound) {v : Container}
    (empty : v.children = []) :
    (t.addContainer v).1.Sound := by
  apply h.of_le fun k => parent_addContainer t v k
  intro c k
  rw [children_addContainer]
  split
  · rw [empty]
    exact Nat.zero_le _
  · exact Nat.le_refl _

theorem Sound.addCanvas (h : t.Sound) (i : Image) : (t.addCanvas i).1.Sound :=
  h.of_eq (parent_addCanvas t i) (children_addCanvas t i)

theorem Sound.paint (h : t.Sound) (k : Nat) (f : Image -> Image) :
    (t.paint k f).Sound :=
  h.of_eq (parent_paint t k f) (children_paint t k f)

theorem Sound.link (h : t.Sound) {c k : Nat} (present : k < t.canvases.size)
    (free : t.parent k = none) : (t.link c k).Sound := by
  intro i j
  have hcount := count_children_link t c k i j
  have hj := h i j
  rw [parent_link present]
  by_cases heq : j = k
  · subst heq
    rw [free, if_neg nofun] at hj
    rw [if_pos rfl]
    by_cases hi : i = c
    · subst hi
      rw [if_pos ⟨rfl, rfl⟩] at hcount
      rw [if_pos rfl]
      exact Nat.le_trans hcount (Nat.add_le_add_right hj 1)
    · rw [if_neg fun hh => hi hh.1] at hcount
      exact Nat.le_trans (Nat.le_trans hcount hj) (Nat.zero_le _)
  · rw [if_neg fun hh => heq hh.2] at hcount
    rw [if_neg heq]
    exact Nat.le_trans hcount hj

theorem Sound.unlink (h : t.Sound) {c k : Nat} (lies : t.parent k = some c) :
    (t.unlink c k).Sound := by
  intro i j
  have hj := h i j
  by_cases heq : j = k
  · subst heq
    rw [parent_unlink, if_pos rfl, if_neg nofun, children_unlink]
    rw [lies] at hj
    by_cases hi : i = c
    · subst hi
      rw [if_pos rfl] at hj
      rw [if_pos rfl, List.count_erase_self]
      exact Nat.sub_le_sub_right hj 1
    · rw [if_neg fun hh => hi (Option.some.inj hh).symm] at hj
      rw [if_neg hi]
      exact hj
  · rw [parent_unlink, if_neg heq, children_unlink]
    split
    · rw [List.count_erase_of_ne heq]
      exact hj
    · exact hj

def without (t : Tree) (k : Nat) : Tree :=
  match t.parent k with
  | some c => t.unlink c k
  | none => t

theorem remove?_eq (t : Tree) (k : Nat) : t.remove? k = .ok (t.without k) := by
  unfold remove? without
  cases h : t.parent k with
  | none => rfl
  | some c => simp only [removeChild?, h, if_pos]

theorem Sound.without (h : t.Sound) (k : Nat) :
    (t.without k).Sound ∧ (t.without k).Unmounted k
      ∧ forall c, (t.without k).children c = (t.children c).erase k := by
  unfold Tree.without
  cases hk : t.parent k with
  | none =>
      have hfree := h.unmounted hk
      exact ⟨h, hfree, fun c => (List.erase_of_not_mem (hfree.2 c)).symm⟩
  | some c =>
      have hsound := h.unlink hk
      have hgone : (t.unlink c k).parent k = none := by
        rw [parent_unlink, if_pos rfl]
      refine ⟨hsound, hsound.unmounted hgone, ?_⟩
      intro i
      rw [children_unlink]
      split
      · rfl
      · rename_i hi
        have hle := h i k
        rw [hk, if_neg fun hh => hi (Option.some.inj hh).symm] at hle
        exact (List.erase_of_not_mem
          (List.count_eq_zero.mp (Nat.le_zero.mp hle))).symm

/-!
# Pages on which both sides agree
-/

/-- What a container lists names it as its parent, and the other way round. -/
structure Agrees (t : Tree) : Prop where
  sound : t.Sound
  listed : forall {c k}, t.parent k = some c -> k ∈ t.children c

theorem lt_of_mem_children {c k : Nat} (h : k ∈ t.children c) :
    c < t.containers.size := by
  apply Nat.lt_of_not_le
  intro hc
  unfold children at h
  rw [Array.getElem?_eq_none hc] at h
  cases h

theorem Sound.nodup (h : t.Sound) (c : Nat) : (t.children c).Nodup := by
  rw [List.nodup_iff_count]
  intro k
  apply Nat.le_trans (h c k)
  split
  · exact Nat.le_refl 1
  · exact Nat.zero_le 1

namespace Agrees

theorem count (h : t.Agrees) (c k : Nat) :
    (t.children c).count k = if t.parent k = some c then 1 else 0 := by
  apply Nat.le_antisymm (h.sound c k)
  split
  · rename_i hparent
    exact List.count_pos_iff.mpr (h.listed hparent)
  · exact Nat.zero_le _

theorem parent (h : t.Agrees) {c k : Nat} (hk : k ∈ t.children c) :
    t.parent k = some c := by
  have hcount := List.count_pos_iff.mpr hk
  rw [h.count] at hcount
  split at hcount
  · assumption
  · exact absurd hcount (Nat.lt_irrefl 0)

theorem empty : ({} : Tree).Agrees := by
  constructor
  · intro c k
    exact Nat.zero_le _
  · intro c k hparent
    cases hparent

theorem addContainer (h : t.Agrees) {v : Container} (empty : v.children = []) :
    (t.addContainer v).1.Agrees := by
  constructor
  · exact h.sound.addContainer empty
  · intro c k hparent
    have hk : k ∈ t.children c := h.listed hparent
    rw [children_addContainer, if_neg (Nat.ne_of_lt (lt_of_mem_children hk))]
    exact hk

theorem addCanvas (h : t.Agrees) (i : Image) : (t.addCanvas i).1.Agrees := by
  constructor
  · exact h.sound.addCanvas i
  · intro c k hparent
    rw [parent_addCanvas] at hparent
    exact h.listed hparent

theorem link (h : t.Agrees) {c k : Nat} (place : c < t.containers.size)
    (present : k < t.canvases.size) (free : t.parent k = none) :
    (t.link c k).Agrees := by
  constructor
  · exact h.sound.link present free
  · intro i j hparent
    rw [parent_link present] at hparent
    rw [children_link]
    by_cases hj : j = k
    · rw [if_pos hj] at hparent
      cases hparent
      rw [if_pos ⟨rfl, place⟩, hj]
      exact List.mem_append_right _ (List.mem_singleton.mpr rfl)
    · rw [if_neg hj] at hparent
      split
      · exact List.mem_append_left _ (h.listed hparent)
      · exact h.listed hparent

theorem unlink (h : t.Agrees) {c k : Nat} (lies : t.parent k = some c) :
    (t.unlink c k).Agrees := by
  constructor
  · exact h.sound.unlink lies
  · intro i j hparent
    rw [parent_unlink] at hparent
    by_cases hj : j = k
    · rw [if_pos hj] at hparent
      cases hparent
    · rw [if_neg hj] at hparent
      rw [children_unlink]
      split
      · exact (List.mem_erase_of_ne hj).mpr (h.listed hparent)
      · exact h.listed hparent

end Agrees
end Tree
end WireView
