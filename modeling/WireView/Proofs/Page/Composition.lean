import WireView.Page.Tree

/-!
# Images one below the other

A stack of images hangs down from a corner: each image begins where the one
before it ends, and all begin in the same column.  So no two of them meet,
however high and wide they are, and what is shown at a position does not depend
on the order in which they are placed.

How an image is placed is left open.  All that is used is that placing an image
copies those of its pixels that fall inside; `Image.place?` does so near the
target.
-/

namespace WireView

/-!
# Copying an image
-/

namespace Image

theorem at?_inside {i : Image} {p q : Int}
    (h : 0 ≤ p ∧ p < i.width ∧ 0 ≤ q ∧ q < i.height) :
    i.at? p q = some (i.pixel p.toNat q.toNat) :=
  if_pos h

theorem at?_outside {i : Image} {p q : Int}
    (h : ¬ (0 ≤ p ∧ p < i.width ∧ 0 ≤ q ∧ q < i.height)) : i.at? p q = none :=
  if_neg h

theorem at?_plain (width height : Nat) (c : Color) {p q : Int}
    (inside : ((plain width height c).at? p q).isSome) :
    (plain width height c).at? p q = some c := by
  unfold at? at inside ⊢
  split at inside
  · rename_i h
    rw [if_pos h]
    rfl
  · cases inside

/-- `r` is `i` with the pixels of `j` in it that fall inside when its corner is
at `(x, y)`. -/
structure Copied (i j : Image) (x y : Int) (r : Image) : Prop where
  width : r.width = i.width
  height : r.height = i.height
  shows : forall p q, r.at? p q = (i.at? p q).map fun c =>
    (j.at? (p - x) (q - y)).getD c

/-- Placing copies the image, clipped to the target. -/
def CopiesAt (place : Placing) (i j : Image) (x y : Int) : Prop :=
  exists r, place i j x y = .ok r ∧ Copied i j x y r

theorem place?_copies {i j : Image} {x y : Int}
    (across : Span.Near j.width i.width x)
    (down : Span.Near j.height i.height y) : CopiesAt place? i j x y := by
  have hx : Number.lowHalf? x = some x :=
    Number.lowHalf?_eq_self (by have := across.low; omega)
      (by have := across.high; omega)
  have hy : Number.lowHalf? y = some y :=
    Number.lowHalf?_eq_self (by have := down.low; omega)
      (by have := down.high; omega)
  refine ⟨i.copy j (.clip j.width i.width x) (.clip j.height i.height y), ?_,
    rfl, rfl, ?_⟩
  · unfold place?
    rw [hx, hy]
  · intro p q
    by_cases inside : 0 ≤ p ∧ p < i.width ∧ 0 ≤ q ∧ q < i.height
    · rw [at?_inside inside, Option.map_some,
        at?_inside (i := i.copy j _ _) inside]
      obtain ⟨p, rfl⟩ := Int.eq_ofNat_of_zero_le inside.1
      obtain ⟨q, rfl⟩ := Int.eq_ofNat_of_zero_le inside.2.2.1
      have hp : p < i.width := by omega
      have hq : q < i.height := by omega
      have hcovers :=
        and_congr (Span.clip_covers_iff across hp)
          (Span.clip_covers_iff down hq)
      rw [Int.toNat_natCast, Int.toNat_natCast,
        pixel_copy i j _ _ hp (Span.clip_target_le across)
          (Span.clip_source_le across)
          (Span.clip_source_le down)]
      split
      · rename_i covered
        have hcolumn := Span.clip_source across hp covered.1
        have hrow := Span.clip_source down hq covered.2
        have hwithin := hcovers.mp covered
        rw [at?_inside (by omega), Option.getD_some, ← hcolumn, ← hrow,
          Int.toNat_natCast, Int.toNat_natCast]
      · rename_i uncovered
        rw [hcovers] at uncovered
        rw [at?_outside (by omega), Option.getD_none]
    · rw [at?_outside inside, at?_outside (i := i.copy j _ _) inside]
      rfl

end Image

/-!
# Where images lie in a stack
-/

namespace Tree

/-- Where an image begins in a stack: as far down as all those before it are
high. -/
def top (y : Int) (images : List Image) (n : Nat) : Int :=
  (images.take n).foldl (fun y i => y + i.height) y

@[simp] theorem top_zero (y : Int) (images : List Image) : top y images 0 = y :=
  rfl

@[simp] theorem top_cons_succ (y : Int) (i : Image) (images : List Image)
    (n : Nat) :
    top y (i :: images) (n + 1) = top (y + i.height) images n := rfl

theorem le_top (y : Int) (images : List Image) (n : Nat) :
    y ≤ top y images n := by
  induction images generalizing y n with
  | nil => simp [top]
  | cons i images ih =>
      cases n with
      | zero => exact Int.le_of_eq (top_zero y _).symm
      | succ n =>
          rw [top_cons_succ]
          exact Int.le_trans (by omega) (ih (y + i.height) n)

theorem bottom_le_top {y : Int} {images : List Image} {m n : Nat} {i : Image}
    (listed : images[m]? = some i) (before : m < n) :
    top y images m + i.height ≤ top y images n := by
  induction images generalizing y m n with
  | nil => cases listed
  | cons j images ih =>
      cases n with
      | zero => exact absurd before (Nat.not_lt_zero m)
      | succ n =>
          rw [top_cons_succ]
          cases m with
          | zero =>
              cases listed
              rw [top_zero]
              exact le_top _ images n
          | succ m =>
              rw [top_cons_succ]
              exact ih listed (Nat.lt_of_succ_lt_succ before)

/-- Image `j` is the `n`-th of a stack with its corner at `(x, y)` and lies at
position `(p, q)`. -/
structure Covers (x y : Int) (images : List Image) (n : Nat) (j : Image)
    (p q : Int) : Prop where
  listed : images[n]? = some j
  across : 0 ≤ p - x ∧ p - x < j.width
  down : top y images n ≤ q ∧ q < top y images n + j.height

section Covers

variable {x y p q : Int} {images : List Image} {i j : Image} {m n : Nat}

theorem Covers.alone (hm : Covers x y images m i p q)
    (hn : Covers x y images n j p q) : m = n := by
  rcases Nat.lt_trichotomy m n with hlt | heq | hgt
  · have hbelow := bottom_le_top (y := y) hm.listed hlt
    exact absurd (Int.lt_of_lt_of_le hm.down.2 hbelow)
      (Int.not_lt.mpr hn.down.1)
  · exact heq
  · have hbelow := bottom_le_top (y := y) hn.listed hgt
    exact absurd (Int.lt_of_lt_of_le hn.down.2 hbelow)
      (Int.not_lt.mpr hm.down.1)

theorem covers_cons_zero :
    Covers x y (i :: images) 0 j p q ↔
      i = j ∧ (0 ≤ p - x ∧ p - x < j.width) ∧ y ≤ q ∧ q < y + j.height := by
  constructor
  · rintro ⟨listed, across, down⟩
    rw [top_zero] at down
    exact ⟨Option.some.inj listed, across, down⟩
  · rintro ⟨rfl, across, down⟩
    exact ⟨rfl, across, by rw [top_zero]; exact down⟩

theorem covers_cons_succ :
    Covers x y (i :: images) (n + 1) j p q ↔
      Covers x (y + i.height) images n j p q := by
  constructor
  · rintro ⟨listed, across, down⟩
    rw [top_cons_succ] at down
    exact ⟨listed, across, down⟩
  · rintro ⟨listed, across, down⟩
    exact ⟨listed, across, by rw [top_cons_succ]; exact down⟩

end Covers

/-!
# What a stack shows
-/

/-- `r` is the target with a stack of images on it that hangs down from the
corner `(x, y)`. -/
structure Stacked (x y : Int) (images : List Image) (target r : Image) :
    Prop where
  width : r.width = target.width
  height : r.height = target.height
  alone : forall m n i j p q,
    Covers x y images m i p q -> Covers x y images n j p q -> m = n
  covered : forall n j p q,
    Covers x y images n j p q -> (target.at? p q).isSome ->
    r.at? p q = j.at? (p - x) (q - top y images n)
  uncovered : forall p q,
    (forall n j, ¬ Covers x y images n j p q) -> r.at? p q = target.at? p q

theorem Stacked.cons {x y : Int} {j target r out : Image} {images : List Image}
    (first : Image.Copied target j x y r)
    (rest : Stacked x (y + j.height) images r out) :
    Stacked x y (j :: images) target out where
  width := rest.width.trans first.width
  height := rest.height.trans first.height
  alone := fun _ _ _ _ _ _ => Covers.alone
  covered := by
    intro n i p q hcovers inside
    rcases Option.isSome_iff_exists.mp inside with ⟨c, hc⟩
    have hshown := first.shows p q
    rw [hc, Option.map_some] at hshown
    cases n with
    | zero =>
        -- what lies below does not reach up to the first image
        have hbare : forall n k, ¬ Covers x (y + j.height) images n k p q := by
          intro n k hk
          exact absurd (hcovers.alone (covers_cons_succ.mpr hk))
            (Nat.succ_ne_zero n).symm
        rcases covers_cons_zero.mp hcovers with ⟨rfl, across, down⟩
        rw [rest.uncovered p q hbare, hshown, top_zero,
          Image.at?_inside (by omega)]
        rfl
    | succ n =>
        rw [top_cons_succ]
        exact rest.covered n i p q (covers_cons_succ.mp hcovers)
          (by rw [hshown]; rfl)
  uncovered := by
    intro p q hbare
    have houtside : j.at? (p - x) (q - y) = none := by
      apply Image.at?_outside
      intro inside
      exact hbare 0 j (covers_cons_zero.mpr ⟨rfl, by omega, by omega⟩)
    rw [rest.uncovered p q fun n k hk =>
        hbare (n + 1) k (covers_cons_succ.mpr hk), first.shows, houtside]
    exact Option.map_id'

/-- Each image of a stack is copied where it belongs, whatever has been copied
before. -/
def CopiesDown (place : Image.Placing) (x y : Int) (images : List Image)
    (target : Image) : Prop :=
  forall n j, images[n]? = some j ->
    forall i : Image, i.width = target.width -> i.height = target.height ->
      Image.CopiesAt place i j x (top y images n)

theorem stackBy_stacked {place : Image.Placing} {x y : Int}
    {images : List Image} {target : Image}
    (copies : CopiesDown place x y images target) :
    exists r,
      stackBy place target x y images = .ok r
        ∧ Stacked x y images target r := by
  induction images generalizing y target with
  | nil =>
      refine ⟨target, rfl, rfl, rfl, fun _ _ _ _ _ _ => Covers.alone, ?_,
        fun _ _ _ => rfl⟩
      intro n j p q hcovers
      cases hcovers.listed
  | cons j images ih =>
      have hfirst := copies 0 j rfl target rfl rfl
      rw [top_zero] at hfirst
      rcases hfirst with ⟨r, hplace, hcopied⟩
      have hrest : CopiesDown place x (y + j.height) images r := by
        intro n k hk i hwidth hheight
        rw [← top_cons_succ]
        exact copies (n + 1) k hk i (hwidth.trans hcopied.width)
          (hheight.trans hcopied.height)
      rcases ih hrest with ⟨out, hstack, hstacked⟩
      refine ⟨out, ?_, .cons hcopied hstacked⟩
      rw [stackBy, hplace]
      exact hstack

theorem composeBy_stacked {t : Tree} {place : Image.Placing} {c : Nat}
    {v : Container} {target : Image} (present : t.containers[c]? = some v)
    (copies : CopiesDown place v.x v.y (v.children.map t.image) target) :
    exists r, t.composeBy place c target = .ok r
      ∧ Stacked v.x v.y (v.children.map t.image) target r := by
  unfold composeBy
  rw [present]
  exact stackBy_stacked copies

theorem copiesDown_of_near {x y : Int} {images : List Image} {target : Image}
    (near : forall n j,
      images[n]? = some j ->
        Span.Near j.width target.width x
          ∧ Span.Near j.height target.height (top y images n)) :
    CopiesDown Image.place? x y images target := by
  intro n j listed i hwidth hheight
  rcases near n j listed with ⟨across, down⟩
  exact Image.place?_copies (hwidth ▸ across) (hheight ▸ down)

theorem compose?_stacked {t : Tree} {c : Nat} {v : Container} {target : Image}
    (present : t.containers[c]? = some v)
    (near : forall n j,
      (v.children.map t.image)[n]? = some j ->
        Span.Near j.width target.width v.x
          ∧ Span.Near j.height target.height
            (top v.y (v.children.map t.image) n)) :
    exists r, t.compose? c target = .ok r
      ∧ Stacked v.x v.y (v.children.map t.image) target r :=
  composeBy_stacked present (copiesDown_of_near near)

end Tree
end WireView
