import WireView.Host.Mounting
import WireView.Proofs.Host.Safety
import WireView.Proofs.Page.Composition

/-!
# Pictures of windows

A window's picture is the background, and on it the canvases of its document's
body, one below the other.  So the background is seen where no mounted canvas
lies, and everywhere else the canvas that lies there, which is just one.

All this rests only on how images are placed: each is copied where it belongs,
and clipped to the target.
-/

namespace WireView
namespace Host

open WireView.Tree

variable {K L : Type}

/-- What a window shows: the body of its document.  A window without one shows
an empty page. -/
def page (h : Host K L) (a : Nat) : Container :=
  ((h.body? a).bind fun c => h.tree.containers[c]?).getD {}

def backdrop (h : Host K L) : Image :=
  .plain (h.display.size.getD (0, 0)).1 (h.display.size.getD (0, 0)).2
    Settings.windowColor

theorem perform_swapBy {h : Host K L} {place : Image.Placing} {a : Nat}
    {w : Window K} (present : h.windows[a]? = some w)
    (isOpen : h.display.isOpen = true)
    (session : h.display.session = w.session) :
    (swapBy place a : Act (Host K L) Image).perform h =
      (h, stackBy place h.backdrop (h.page a).x (h.page a).y
        ((h.page a).children.map h.tree.image)) := by
  unfold swapBy page
  rw [Act.perform_bind, Act.perform_get]
  simp only [present, isOpen, session, bne_self_eq_false, Bool.not_true,
    Bool.or_self]
  cases h.body? a with
  | none => rfl
  | some c =>
      show (h, h.tree.composeBy place c h.backdrop) = _
      unfold composeBy
      rw [Option.bind_some]
      cases h.tree.containers[c]? <;> rfl

/-- Composing a container shows its canvases one below the other from its corner
down, wherever that is and whatever their sizes are.  A position of the target
shows the pixel of the canvas that lies there, of which there is one at most;
where none lies, the target is as it was.  The picture of a window shows the
canvases of its body, and the background exactly where none of them lies. -/
theorem canvases_hang_one_below_the_other (place : Image.Placing) :
    (forall (t : Tree) (c : Nat) (v : Container) (target : Image),
      t.containers[c]? = some v ->
        CopiesDown place v.x v.y (v.children.map t.image) target ->
        exists r, t.composeBy place c target = .ok r
          ∧ Stacked v.x v.y (v.children.map t.image) target r)
      ∧ forall (h : Host K L) (a : Nat) (w : Window K),
        h.windows[a]? = some w ->
        h.display.isOpen = true -> h.display.session = w.session ->
        CopiesDown place (h.page a).x (h.page a).y
          ((h.page a).children.map h.tree.image) h.backdrop ->
        exists r, (swapBy place a : Act (Host K L) Image).perform h = (h, .ok r)
          ∧ Stacked (h.page a).x (h.page a).y
            ((h.page a).children.map h.tree.image) h.backdrop r
          ∧ forall p q, (h.backdrop.at? p q).isSome ->
            (forall n j, ¬ Covers (h.page a).x (h.page a).y
              ((h.page a).children.map h.tree.image) n j p q) ->
            r.at? p q = some Settings.windowColor := by
  constructor
  · intro t c v target present copies
    exact composeBy_stacked present copies
  · intro h a w present isOpen session copies
    rcases stackBy_stacked copies with ⟨r, hstack, hstacked⟩
    refine ⟨r, ?_, hstacked, ?_⟩
    · rw [perform_swapBy present isOpen session, hstack]
    · intro p q inside bare
      rw [hstacked.uncovered p q bare]
      exact Image.at?_plain _ _ _ inside

def hungPage : Tree :=
  { containers := #[{ x := -1, y := -2, children := [0, 1, 2] }]
    canvases := #[
      { image := .plain 3 4 ⟨255, 0, 0⟩, parent := some 0 },
      { image := .plain 0 2 Image.black, parent := some 0 },
      { image := .plain 6 2 ⟨0, 255, 0⟩, parent := some 0 }] }

def hungHost : Host String Logic :=
  { oneViewer .standard with
    windows :=
      #[{ width := 4, height := 6, document := some { body := some 0 },
          session := 0 }]
    tree := hungPage
    display := { isOpen := true, size := some (4, 6) } }

theorem hungPage_copied {target : Image} (width : target.width = 4)
    (height : target.height = 6) :
    CopiesDown Image.place? (-1) (-2) ([0, 1, 2].map hungPage.image)
      target := by
  apply copiesDown_of_near
  intro n j listed
  rw [width, height]
  match n, listed with
  | 0, rfl => exact ⟨by constructor <;> decide, by constructor <;> decide⟩
  | 1, rfl => exact ⟨by constructor <;> decide, by constructor <;> decide⟩
  | 2, rfl => exact ⟨by constructor <;> decide, by constructor <;> decide⟩

/-- Parts of the first and the third canvas are seen, and between them the
background beside the first one. -/
theorem page_that_hangs_outside :
    (exists r, hungPage.composeBy Image.place? 0 (.plain 4 6 ⟨9, 9, 9⟩) = .ok r
        ∧ r.at? 0 0 = some ⟨255, 0, 0⟩ ∧ r.at? 3 4 = some ⟨0, 255, 0⟩)
      ∧ exists r,
          (swapBy Image.place? 0 : Act (Host String Logic) Image).perform
            hungHost =
          (hungHost, .ok r)
        ∧ r.at? 1 1 = some ⟨255, 0, 0⟩ ∧ r.at? 0 5 = some ⟨0, 255, 0⟩
        ∧ r.at? 2 1 = some Settings.windowColor := by
  rcases canvases_hang_one_below_the_other (K := String) (L := Logic)
    Image.place? with
    ⟨hcompose, hswap⟩
  constructor
  · rcases hcompose hungPage 0 _ (.plain 4 6 ⟨9, 9, 9⟩) rfl
      (hungPage_copied rfl rfl) with
      ⟨r, hr, hstacked⟩
    refine ⟨r, hr, ?_, ?_⟩
    · exact hstacked.covered 0 _ 0 0 ⟨rfl, by decide, by decide⟩ rfl
    · exact hstacked.covered 2 _ 3 4 ⟨rfl, by decide, by decide⟩ rfl
  · rcases hswap hungHost 0 _ rfl rfl rfl (hungPage_copied rfl rfl) with
      ⟨r, hr, hstacked, hbare⟩
    refine ⟨r, hr, ?_, ?_, ?_⟩
    · exact hstacked.covered 0 _ 1 1 ⟨rfl, by decide, by decide⟩ rfl
    · exact hstacked.covered 2 _ 0 5 ⟨rfl, by decide, by decide⟩ rfl
    · apply hbare 2 1 rfl
      intro n j hcovers
      match n, hcovers.listed with
      | 0, rfl => exact absurd hcovers.across (by decide)
      | 1, rfl => exact absurd hcovers.across (by decide)
      | 2, rfl => exact absurd hcovers.down (by decide)

end Host
end WireView
