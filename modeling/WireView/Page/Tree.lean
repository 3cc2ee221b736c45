import WireView.Page.Image

/-!
# Containers and canvases

A container holds canvases one below the other; a canvas lies in one container
at most.  Both sides keep the relation: the container lists its children, the
canvas names its parent.  Containers and canvases are numbered in the order of
their creation and never go away.

A container may refuse to take children.
-/

namespace WireView

structure Canvas where
  image : Image
  parent : Option Nat := none

structure Container where
  x : Int := 0
  y : Int := 0
  children : List Nat := []
  refusal : Option (Refusal × String) := none

structure Tree where
  containers : Array Container := #[]
  canvases : Array Canvas := #[]

namespace Tree

def addContainer (t : Tree) (c : Container) : Tree × Nat :=
  ({ t with containers := t.containers.push c }, t.containers.size)

def addCanvas (t : Tree) (i : Image) : Tree × Nat :=
  ({ t with canvases := t.canvases.push { image := i } }, t.canvases.size)

def children (t : Tree) (c : Nat) : List Nat :=
  ((t.containers[c]?).map Container.children).getD []

def parent (t : Tree) (k : Nat) : Option Nat :=
  (t.canvases[k]?).bind Canvas.parent

def image (t : Tree) (k : Nat) : Image :=
  ((t.canvases[k]?).map Canvas.image).getD (.plain 0 0 Image.black)

def paint (t : Tree) (k : Nat) (f : Image -> Image) : Tree :=
  { t with
    canvases := t.canvases.modify k fun v => { v with image := f v.image } }

def link (t : Tree) (c k : Nat) : Tree :=
  { containers := t.containers.modify c fun v =>
      { v with children := v.children ++ [k] }
    canvases := t.canvases.modify k fun v => { v with parent := some c } }

def unlink (t : Tree) (c k : Nat) : Tree :=
  { containers := t.containers.modify c fun v =>
      { v with children := v.children.erase k }
    canvases := t.canvases.modify k fun v => { v with parent := none } }

def refusal (t : Tree) (c : Nat) : Option (Refusal × String) :=
  (t.containers[c]?).bind Container.refusal

def append? (t : Tree) (c k : Nat) : Except Failure Tree :=
  match t.refusal c with
  | some (how, text) => .error (.refused how text)
  | none =>
      if (t.parent k).isSome then .error .alreadyAttached else .ok (t.link c k)

def removeChild? (t : Tree) (c k : Nat) : Except Failure Tree :=
  if t.parent k = some c then .ok (t.unlink c k) else .error .notAChild

def remove? (t : Tree) (k : Nat) : Except Failure Tree :=
  match t.parent k with
  | some c => t.removeChild? c k
  | none => .ok t

/-- Places images one below the other, from the corner `(x, y)` down. -/
def stackBy (place : Image.Placing) (target : Image) (x : Int) :
    Int -> List Image -> Except Failure Image
  | _, [] => .ok target
  | y, i :: rest => do
      stackBy place (← place target i x y) x (y + i.height) rest

def composeBy (t : Tree) (place : Image.Placing) (c : Nat) (target : Image) :
    Except Failure Image :=
  match t.containers[c]? with
  | some v => stackBy place target v.x v.y (v.children.map t.image)
  | none => .ok target

def compose? (t : Tree) (c : Nat) (target : Image) : Except Failure Image :=
  t.composeBy Image.place? c target

end Tree
end WireView
