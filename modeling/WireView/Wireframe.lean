import WireView.Space.Vec4

/-!
# Wireframes

A wireframe is a list of vertices and a list of edges between their positions.
-/

namespace WireView

structure Wireframe (α : Type) where
  vertices : List (Vec4 α)
  edges : List (Int × Int)

namespace Wireframe

variable {α : Type} [OfNat α 1] [Neg α]

def cube : Wireframe α where
  vertices :=
    [ .point (-1) (-1) (-1), .point 1 (-1) (-1), .point 1 1 (-1),
      .point (-1) 1 (-1), .point (-1) (-1) 1, .point 1 (-1) 1, .point 1 1 1,
      .point (-1) 1 1 ]
  edges :=
    [ (0, 1), (1, 2), (2, 3), (3, 0),
      (4, 5), (5, 6), (6, 7), (7, 4),
      (0, 4), (1, 5), (2, 6), (3, 7) ]

end Wireframe
end WireView
