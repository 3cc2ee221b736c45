import WireView.Drawing.Easel
import WireView.Proofs.Number.Nearest
import WireView.Proofs.Projection.Batch

/-!
# What is drawn of a wireframe

A point can be marked when both of its coordinates denote numbers below the
limit; its mark is the pixel nearest to it.  An edge is drawn when both of its
ends can be marked, as the line between the marks, and a vertex when it can be
marked itself, as a circle about the mark.

Drawing makes these strokes in the order of the edges and then of the vertices,
passes over everything else, and remarks how much that was.  It fails only if an
edge ends at no vertex.

What coordinates denote is a parameter: for doubles it is their rational value,
if any.
-/

namespace WireView

/-!
# Lists drawn from one end to the other
-/

def missed {β γ : Type} (f : β -> Option γ) (xs : List β) : Nat :=
  xs.countP fun x => (f x).isNone

theorem missed_cons_some {β γ : Type} {f : β -> Option γ} {x : β} {y : γ}
    (h : f x = some y) (xs : List β) : missed f (x :: xs) = missed f xs :=
  List.countP_cons_of_neg (by simp [h])

theorem missed_cons_none {β γ : Type} {f : β -> Option γ} {x : β}
    (h : f x = none) (xs : List β) : missed f (x :: xs) = missed f xs + 1 :=
  List.countP_cons_of_pos (by simp [h])

theorem missed_eq_zero {β γ : Type} {f : β -> Option γ} {xs : List β}
    (h : forall x, x ∈ xs -> (f x).isSome = true) : missed f xs = 0 := by
  apply List.countP_eq_zero.mpr
  intro x hx
  rw [Option.isNone_iff_eq_none, ← Option.not_isSome_iff_eq_none, not_not]
  exact h x hx

theorem length_filterMap_add_missed {β γ : Type} (f : β -> Option γ)
    (xs : List β) :
    (xs.filterMap f).length + missed f xs = xs.length := by
  induction xs with
  | nil => rfl
  | cons x xs ih =>
      cases h : f x with
      | none =>
          rw [List.filterMap_cons_none h, missed_cons_none h, List.length_cons,
            ← ih, add_assoc]
      | some y =>
          rw [List.filterMap_cons_some h, missed_cons_some h, List.length_cons,
            List.length_cons, ← ih, add_right_comm]

def counted? {β : Type} (xs : List β) (i : Int) : Option β :=
  if 0 ≤ i then xs[i.toNat]? else xs.reverse[(-i - 1).toNat]?

theorem isSome_counted? {β : Type} {xs : List β} {i : Int}
    (low : -(xs.length : Int) ≤ i) (high : i < xs.length) :
    (counted? xs i).isSome = true := by
  unfold counted?
  split
  · rw [isSome_getElem?]
    omega
  · rw [isSome_getElem?, List.length_reverse]
    omega

theorem isSome_ends {β : Type} {xs : List β} {n : Nat} (length : xs.length = n)
    {edges : List (Int × Int)}
    (ends : forall edge, edge ∈ edges ->
      (-(n : Int) ≤ edge.1 ∧ edge.1 < n) ∧ (-(n : Int) ≤ edge.2 ∧ edge.2 < n)) :
    forall edge, edge ∈ edges ->
      (counted? xs edge.1).isSome = true
        ∧ (counted? xs edge.2).isSome = true := by
  subst length
  intro edge hedge
  rcases ends edge hedge with ⟨⟨hlow, hhigh⟩, hlow', hhigh'⟩
  exact ⟨isSome_counted? hlow hhigh, isSome_counted? hlow' hhigh'⟩

theorem mem_of_counted {β : Type} {xs : List β} {i : Int} {x : β}
    (h : counted? xs i = some x) :
    x ∈ xs := by
  unfold counted? at h
  split at h
  · exact List.mem_of_getElem? h
  · exact List.mem_reverse.mp (List.mem_of_getElem? h)

theorem vertexAt?_eq {α : Type} {ps : List (ScreenPoint α)} {i : Int}
    {p : ScreenPoint α} (h : counted? ps i = some p) :
    Easel.vertexAt? ps i = .ok p := by
  unfold counted? at h
  unfold Easel.vertexAt? position?
  split at h
  · rename_i hi
    have hlt : i.toNat < ps.length := (List.getElem?_eq_some_iff.mp h).1
    have hin : 0 ≤ i ∧ i < ps.length := by omega
    rw [if_neg (not_lt.mpr hi), if_pos hin]
    dsimp only [bind, Except.bind]
    rw [h]
  · rename_i hi
    have hlt : (-i - 1).toNat < ps.reverse.length :=
      (List.getElem?_eq_some_iff.mp h).1
    rw [List.length_reverse] at hlt
    have hin :
        0 ≤ i + (ps.length : Int) ∧ i + (ps.length : Int) < ps.length := by
      omega
    have hplace :
        (i + (ps.length : Int)).toNat = ps.length - 1 - (-i - 1).toNat := by
      omega
    rw [List.getElem?_reverse hlt, ← hplace] at h
    rw [if_pos (not_le.mp hi), if_pos hin]
    dsimp only [bind, Except.bind]
    rw [h]

/-!
# Marks
-/

section marks

variable {α K : Type} [Field K] [LinearOrder K] [FloorRing K]

/-- The bound and the rounding of coordinates are those of the numbers that they
denote. -/
structure Denotes [Coordinate α] (value? : α -> Option K) : Prop where
  isBelow_iff (limit : Nat) (a : α) :
    Coordinate.isBelow limit a = true ↔ exists x,
      value? a = some x ∧ |x| < limit
  round_eq {a : α} {x : K} : value? a = some x ->
    Coordinate.round a = .ok (Number.nearest x)

def ScreenPoint.mark? (value? : α -> Option K) (p : ScreenPoint α) :
    Option Pixel := do
  let x ← value? p.x
  let y ← value? p.y
  if |x| < coordinateLimit ∧ |y| < coordinateLimit then
    some ⟨Number.nearest x, Number.nearest y⟩
  else
    none

theorem ScreenPoint.mark?_eq_some {value? : α -> Option K} {p : ScreenPoint α}
    {c : Pixel} :
    p.mark? value? = some c ↔ exists x y,
      value? p.x = some x ∧ value? p.y = some y
      ∧ |x| < coordinateLimit ∧ |y| < coordinateLimit
      ∧ c = ⟨Number.nearest x, Number.nearest y⟩ := by
  unfold mark?
  cases value? p.x with
  | none => simp
  | some x =>
      cases value? p.y with
      | none => simp
      | some y => simp [and_assoc, eq_comm]

variable [Coordinate α] {value? : α -> Option K}

theorem Denotes.isDrawable_iff (h : Denotes value?) (p : ScreenPoint α) :
    p.isDrawable = true ↔ exists x y, value? p.x = some x ∧ value? p.y = some y
      ∧ |x| < ScreenPoint.coordinateLimit
      ∧ |y| < ScreenPoint.coordinateLimit := by
  unfold ScreenPoint.isDrawable
  rw [Bool.and_eq_true, h.isBelow_iff, h.isBelow_iff]
  constructor
  · rintro ⟨⟨x, hx, hxlow⟩, y, hy, hylow⟩
    exact ⟨x, y, hx, hy, hxlow, hylow⟩
  · rintro ⟨x, y, hx, hy, hxlow, hylow⟩
    exact ⟨⟨x, hx, hxlow⟩, y, hy, hylow⟩

theorem Denotes.isSome_mark? (h : Denotes value?) (p : ScreenPoint α) :
    (p.mark? value?).isSome = p.isDrawable := by
  rw [Bool.eq_iff_iff, h.isDrawable_iff, Option.isSome_iff_exists]
  constructor
  · rintro ⟨c, hc⟩
    rcases ScreenPoint.mark?_eq_some.mp hc with ⟨x, y, hx, hy, hxlow, hylow, _⟩
    exact ⟨x, y, hx, hy, hxlow, hylow⟩
  · rintro ⟨x, y, hx, hy, hxlow, hylow⟩
    exact ⟨_, ScreenPoint.mark?_eq_some.mpr ⟨x, y, hx, hy, hxlow, hylow, rfl⟩⟩

theorem Denotes.pixel?_eq (h : Denotes value?) {p : ScreenPoint α} {c : Pixel}
    (marked : p.mark? value? = some c) : p.pixel? = .ok c := by
  rcases ScreenPoint.mark?_eq_some.mp marked with ⟨x, y, hx, hy, _, _, rfl⟩
  unfold ScreenPoint.pixel?
  rw [h.round_eq hx, h.round_eq hy]
  rfl

end marks

/-!
# Strokes
-/

def Stroke.pixels : Stroke -> List Pixel
  | .line _ p q _ => [p, q]
  | .circle _ c _ => [c]
  | .blit _ c => [c]
  | .fill _ | .font _ _ | .render _ _ => []

namespace Easel

def after (e : Easel) (strokes : List Stroke) : Easel :=
  { e with record := (strokes.map .stroke).reverse ++ e.record }

theorem after_cons (e : Easel) (s : Stroke) (strokes : List Stroke) :
    (e.after [s]).after strokes = e.after (s :: strokes) := by
  unfold after
  simp

theorem after_append (e : Easel) (first rest : List Stroke) :
    (e.after first).after rest = e.after (first ++ rest) := by
  unfold after
  simp

section strokes

variable {α K : Type} [Field K] [LinearOrder K] [FloorRing K]
  (value? : α -> Option K)

def lineFor? (ps : List (ScreenPoint α)) (edge : Int × Int) :
    Option Stroke := do
  let a ← (← counted? ps edge.1).mark? value?
  let b ← (← counted? ps edge.2).mark? value?
  some (.line Settings.lineColor a b Settings.lineWidth)

def circleFor? (p : ScreenPoint α) : Option Stroke := do
  let c ← p.mark? value?
  some (.circle Settings.pointColor c Settings.pointRadius)

def strokesFor (ps : List (ScreenPoint α)) (edges : List (Int × Int)) :
    List Stroke :=
  edges.filterMap (lineFor? value? ps) ++ ps.filterMap (circleFor? value?)

def undrawn (ps : List (ScreenPoint α)) (edges : List (Int × Int)) : Nat :=
  missed (lineFor? value? ps) edges + missed (circleFor? value?) ps

theorem length_strokesFor_add_undrawn (ps : List (ScreenPoint α))
    (edges : List (Int × Int)) :
    (strokesFor value? ps edges).length + undrawn value? ps edges =
      edges.length + ps.length := by
  have hedges := length_filterMap_add_missed (lineFor? value? ps) edges
  have hpoints := length_filterMap_add_missed (circleFor? value?) ps
  unfold strokesFor undrawn
  rw [List.length_append]
  omega

variable {value?}

theorem undrawn_eq_zero {ps : List (ScreenPoint α)} {edges : List (Int × Int)}
    (ends : forall edge, edge ∈ edges ->
      (counted? ps edge.1).isSome = true ∧ (counted? ps edge.2).isSome = true)
    (marked : forall p, p ∈ ps -> (p.mark? value?).isSome = true) :
    undrawn value? ps edges = 0 := by
  have hlines : missed (lineFor? value? ps) edges = 0 := by
    refine missed_eq_zero fun edge hedge => ?_
    rcases ends edge hedge with ⟨hi, hj⟩
    rcases Option.isSome_iff_exists.mp hi with ⟨p, hp⟩
    rcases Option.isSome_iff_exists.mp hj with ⟨q, hq⟩
    rcases Option.isSome_iff_exists.mp (marked p (mem_of_counted hp)) with
      ⟨a, ha⟩
    rcases Option.isSome_iff_exists.mp (marked q (mem_of_counted hq)) with
      ⟨b, hb⟩
    unfold lineFor?
    rw [hp, hq]
    dsimp only [bind, Option.bind]
    rw [ha, hb]
    rfl
  have hcircles : missed (circleFor? value?) ps = 0 := by
    refine missed_eq_zero fun p hp => ?_
    rcases Option.isSome_iff_exists.mp (marked p hp) with ⟨c, hc⟩
    unfold circleFor?
    rw [hc]
    rfl
  unfold undrawn
  rw [hlines, hcircles]

theorem mark_of_mem_pixels {ps : List (ScreenPoint α)}
    {edges : List (Int × Int)} {s : Stroke} {c : Pixel}
    (hs : s ∈ strokesFor value? ps edges) (hc : c ∈ s.pixels) :
    exists p, p ∈ ps ∧ p.mark? value? = some c := by
  rcases List.mem_append.mp hs with hs | hs <;>
    rcases List.mem_filterMap.mp hs with ⟨t, ht, hdrawn⟩
  · unfold lineFor? at hdrawn
    rcases Option.bind_eq_some_iff.mp hdrawn with ⟨p, hp, hdrawn⟩
    rcases Option.bind_eq_some_iff.mp hdrawn with ⟨a, ha, hdrawn⟩
    rcases Option.bind_eq_some_iff.mp hdrawn with ⟨q, hq, hdrawn⟩
    rcases Option.bind_eq_some_iff.mp hdrawn with ⟨b, hb, hdrawn⟩
    cases hdrawn
    rcases List.mem_pair.mp hc with rfl | rfl
    · exact ⟨p, mem_of_counted hp, ha⟩
    · exact ⟨q, mem_of_counted hq, hb⟩
  · rcases Option.bind_eq_some_iff.mp hdrawn with ⟨a, ha, hdrawn⟩
    cases hdrawn
    cases List.mem_singleton.mp hc
    exact ⟨t, ht, ha⟩

variable [Coordinate α]

theorem perform_drawPoint (denotes : Denotes value?) {p : ScreenPoint α}
    {s : Stroke} (drawn : circleFor? value? p = some s) (e : Easel) :
    (drawPoint p).perform e = (e.after [s], .ok ()) := by
  rcases Option.bind_eq_some_iff.mp drawn with ⟨c, hc, hs⟩
  cases hs
  unfold drawPoint
  rw [denotes.pixel?_eq hc]
  rfl

theorem perform_edge (denotes : Denotes value?) {ps : List (ScreenPoint α)}
    {edge : Int × Int} {p q : ScreenPoint α} (hp : counted? ps edge.1 = some p)
    (hq : counted? ps edge.2 = some q) (e : Easel) :
    match lineFor? value? ps edge with
    | some s => (p.isDrawable && q.isDrawable) = true
        ∧ (drawLine p q).perform e = (e.after [s], .ok ())
    | none => (p.isDrawable && q.isDrawable) = false := by
  unfold lineFor?
  rw [hp, hq, ← denotes.isSome_mark? p, ← denotes.isSome_mark? q]
  dsimp only [bind, Option.bind]
  cases ha : p.mark? value? with
  | none => rfl
  | some a =>
      cases hb : q.mark? value? with
      | none => rfl
      | some b =>
          refine ⟨rfl, ?_⟩
          unfold drawLine
          rw [denotes.pixel?_eq ha, denotes.pixel?_eq hb]
          rfl

theorem perform_drawEdges (denotes : Denotes value?) (ps : List (ScreenPoint α))
    {edges : List (Int × Int)}
    (ends : forall edge, edge ∈ edges ->
      (counted? ps edge.1).isSome = true ∧ (counted? ps edge.2).isSome = true)
    (skipped : Nat) (e : Easel) :
    (drawEdges ps edges skipped).perform e
      = (e.after (edges.filterMap (lineFor? value? ps)),
        .ok (skipped + missed (lineFor? value? ps) edges)) := by
  induction edges generalizing skipped e with
  | nil => rfl
  | cons edge rest ih =>
      rcases edge with ⟨i, j⟩
      rcases ends (i, j) List.mem_cons_self with ⟨hi, hj⟩
      rcases Option.isSome_iff_exists.mp hi with ⟨p, hp⟩
      rcases Option.isSome_iff_exists.mp hj with ⟨q, hq⟩
      have hrest := fun skipped e =>
        ih (fun edge hedge => ends edge (List.mem_cons_of_mem _ hedge))
          skipped e
      have hedge := perform_edge denotes hp hq e
      unfold drawEdges
      rw [vertexAt?_eq hp, vertexAt?_eq hq]
      simp only [Act.perform_bind, Act.perform_ofResult]
      cases hline : lineFor? value? ps (i, j) with
      | some s =>
          rw [hline] at hedge
          rw [if_pos hedge.1, List.filterMap_cons_some hline,
            missed_cons_some hline, ← after_cons]
          simp only [Act.perform_bind, hedge.2]
          exact hrest skipped (e.after [s])
      | none =>
          rw [hline] at hedge
          rw [if_neg (Bool.eq_false_iff.mp hedge),
            List.filterMap_cons_none hline, missed_cons_none hline, hrest,
            add_right_comm, add_assoc]

theorem perform_drawPoints (denotes : Denotes value?)
    (ps : List (ScreenPoint α)) (skipped : Nat) (e : Easel) :
    (drawPoints ps skipped).perform e
      = (e.after (ps.filterMap (circleFor? value?)),
        .ok (skipped + missed (circleFor? value?) ps)) := by
  induction ps generalizing skipped e with
  | nil => rfl
  | cons p rest ih =>
      have hdrawable := denotes.isSome_mark? p
      unfold drawPoints
      rw [← hdrawable]
      cases hmark : p.mark? value? with
      | some c =>
          have hcircle : circleFor? value? p
              = some (.circle Settings.pointColor c Settings.pointRadius) := by
            unfold circleFor?
            rw [hmark]
            rfl
          rw [if_pos Option.isSome_some, List.filterMap_cons_some hcircle,
            missed_cons_some hcircle, ← after_cons]
          simp only [Act.perform_bind, perform_drawPoint denotes hcircle]
          exact ih skipped _
      | none =>
          have hcircle : circleFor? value? p = none := by
            unfold circleFor?
            rw [hmark]
            rfl
          rw [if_neg (by simp), List.filterMap_cons_none hcircle,
            missed_cons_none hcircle, ih, add_right_comm, add_assoc]

def remarkOn (skipped : Nat) : List EaselNote :=
  if skipped = 0 then [] else [.remark (.skipped skipped)]

theorem perform_drawProjected (denotes : Denotes value?)
    {ps : List (ScreenPoint α)} {edges : List (Int × Int)}
    (ends : forall edge,
      edge ∈ edges ->
        (counted? ps edge.1).isSome = true ∧ (counted? ps edge.2).isSome = true)
    (e : Easel) :
    (drawProjected ps edges).perform e
      = ({ e with record := remarkOn (undrawn value? ps edges)
            ++ ((strokesFor value? ps edges).map .stroke).reverse ++ e.record },
            .ok ()) := by
  unfold drawProjected
  simp only [Act.perform_bind, perform_drawEdges denotes ps ends,
    perform_drawPoints denotes, after_append, Nat.zero_add]
  show Act.perform (if undrawn value? ps edges ≠ 0 then _ else _)
    (e.after (strokesFor value? ps edges)) = _
  unfold remarkOn
  by_cases h : undrawn value? ps edges = 0
  · rw [if_neg (not_not.mpr h), if_pos h]
    rfl
  · rw [if_pos h, if_neg h]
    rfl

end strokes

/-!
# Doubles
-/

theorem denotes_value? : Denotes Number.value? where
  isBelow_iff limit x :=
    Number.Reading.isBelow_iff limit (Number.Reading.ofFloat x)
  round_eq h := Number.Reading.round_eq h

theorem exists_projected (p : Projector Float) (vs : List (Vec4 Float))
    {rx ry rz : Float} (hx : Scalar.isInfinite rx = false)
    (hy : Scalar.isInfinite ry = false) (hz : Scalar.isInfinite rz = false) :
    exists ps, p.projectAll? vs rx ry rz = .ok ps ∧ ps.length = vs.length := by
  have hturns : exists t, Projector.turns? rx ry rz = .ok t := by
    unfold Projector.turns? Turn.ofAngle?
    rw [hx, hy, hz]
    exact ⟨_, rfl⟩
  rcases hturns with ⟨t, ht⟩
  refine ⟨_, ?_, List.length_map (p.projectInBatch t.1 t.2.1 t.2.2)⟩
  rw [Projector.projectAll_eq, ht]
  rfl

/-- A wireframe whose edges end at vertices is drawn without a failure at angles
that are not infinite: a line for every edge with two drawable ends, then a
circle for every drawable vertex, and a remark on how many others there are, if
there are any; the projected vertices are given as they are.  A point is
drawable if both of its coordinates are finite and below the limit, and the
pixels of the strokes are the nearest ones to drawable points, which are within
the limit. -/
theorem wireframe_drawn_where_drawable (e : Easel) (model : Wireframe Float)
    {rx ry rz : Float}
    (ends : forall edge, edge ∈ model.edges ->
      (-(model.vertices.length : Int) ≤ edge.1
          ∧ edge.1 < model.vertices.length)
        ∧ (-(model.vertices.length : Int) ≤ edge.2
          ∧ edge.2 < model.vertices.length))
    (hx : Scalar.isInfinite rx = false) (hy : Scalar.isInfinite ry = false)
    (hz : Scalar.isInfinite rz = false) :
    exists ps skipped, e.projector.projectAll? model.vertices rx ry rz = .ok ps
      ∧ ps.length = model.vertices.length
      ∧ (drawWireframe model rx ry rz).perform e
        = ({ e with record := remarkOn skipped
              ++ ((strokesFor Number.value? ps model.edges).map
                .stroke).reverse ++ e.record }, .ok ps)
      ∧ (strokesFor Number.value? ps model.edges).length + skipped
        = model.edges.length + model.vertices.length
      ∧ (forall p, p ∈ ps ->
          (p.isDrawable = true ↔ p.x.isFinite = true ∧ p.y.isFinite = true
            ∧ (forall x, Number.value? p.x = some x -> |x| < 2 ^ 31 - 1)
            ∧ forall y, Number.value? p.y = some y -> |y| < 2 ^ 31 - 1))
      ∧ forall s, s ∈ strokesFor Number.value? ps model.edges ->
        forall c, c ∈ s.pixels -> exists p x y,
          p ∈ ps ∧ Number.value? p.x = some x ∧ Number.value? p.y = some y
          ∧ c = ⟨Number.nearest x, Number.nearest y⟩
          ∧ |c.x| ≤ 2 ^ 31 - 1 ∧ |c.y| ≤ 2 ^ 31 - 1 := by
  rcases exists_projected e.projector model.vertices hx hy hz with
    ⟨ps, hps, hlength⟩
  have hends := isSome_ends hlength ends
  have hlimit : ((ScreenPoint.coordinateLimit : Nat) : ℚ) = 2 ^ 31 - 1 := by
    norm_num [ScreenPoint.coordinateLimit]
  refine ⟨ps, undrawn Number.value? ps model.edges, hps, hlength, ?_, ?_, ?_,
    ?_⟩
  · unfold drawWireframe
    simp only [Act.perform_bind, Act.perform_get, Act.perform_ofResult, hps,
      perform_drawProjected denotes_value? hends, Act.perform_pure]
  · rw [length_strokesFor_add_undrawn, hlength]
  · intro p _
    rw [denotes_value?.isDrawable_iff, hlimit, ← Number.isSome_value?,
      ← Number.isSome_value?]
    cases Number.value? p.x <;> cases Number.value? p.y <;> simp
  · intro s hs c hc
    rcases mark_of_mem_pixels hs hc with ⟨p, hp, hmark⟩
    rcases ScreenPoint.mark?_eq_some.mp hmark with
      ⟨x, y, hvx, hvy, hxlow, hylow, rfl⟩
    exact ⟨p, x, y, hp, hvx, hvy, rfl, Number.abs_nearest_le hxlow,
      Number.abs_nearest_le hylow⟩

/-- Two vertices joined by an edge that counts from the end and one that counts
from the start. -/
theorem edges_counted_from_end :
    let e : Easel :=
      { width := 480, height := 360, projector := Projector.squareScreen }
    let model : Wireframe Float :=
      ⟨[.point 1 1 0, .point 0 0 1], [(-1, -2), (0, 1)]⟩
    exists (ps : List (ScreenPoint Float)) (strokes : List Stroke)
        (skipped : Nat),
      (drawWireframe model 0 0 0).perform e
        = ({ e with
              record := remarkOn skipped ++ (strokes.map .stroke).reverse },
          .ok ps)
      ∧ ps.length = 2 ∧ strokes.length + skipped = 4 := by
  intro e model
  have hrest : Scalar.isInfinite (0 : Float) = false := by decide
  rcases wireframe_drawn_where_drawable e model (by decide) hrest hrest
    hrest with
    ⟨ps, skipped, _, hlength, hdrawn, hcount, _⟩
  refine ⟨ps, _, skipped, ?_, hlength, hcount⟩
  rw [hdrawn]
  exact congrArg (fun r => (({ e with record := r } : Easel), Except.ok ps))
    (List.append_nil _)

end Easel
end WireView
