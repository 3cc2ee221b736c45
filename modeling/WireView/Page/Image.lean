import WireView.Drawing.Stroke
import WireView.Page.Span

/-!
# Images

An image is a grid of opaque pixels.  Filling paints all of it; placing another
image at an offset copies the pixels that fall inside.  Of the strokes, only a
fill changes pixels.  Sizes and corners from outside are coordinates of 32 bits.
-/

namespace WireView

structure Image where
  width : Nat
  height : Nat
  pixel : Nat -> Nat -> Color

namespace Image

def plain (width height : Nat) (c : Color) : Image :=
  ⟨width, height, fun _ _ => c⟩

def black : Color := ⟨0, 0, 0⟩

def rowLimit : Nat := 2147483648

def memoryLimit : Nat := 34359738368

def hasRoom (width height : Nat) : Bool :=
  decide (4 * width < rowLimit ∧ 4 * width * height < memoryLimit)

def ofSize? (width height : Int) : Except Failure Image :=
  match Number.lowHalf? width, Number.lowHalf? height with
  | some w, some h =>
      if w < 0 ∨ h < 0 then
        .error .surfaceSize
      else
        if hasRoom w.toNat h.toNat then .ok (plain w.toNat h.toNat black)
      else .error .outOfMemory
  | _, _ => .error .surfaceSizeTooLarge

def fill (i : Image) (c : Color) : Image :=
  plain i.width i.height c

def at? (i : Image) (x y : Int) : Option Color :=
  if 0 ≤ x ∧ x < i.width ∧ 0 ≤ y ∧ y < i.height then
    some (i.pixel x.toNat y.toNat)
  else
    none

def colorAt? (i : Image) (x y : Int) : Except Failure Color := do
  match i.at? (← Number.half? x) (← Number.half? y) with
  | some c => .ok c
  | none => .error (.outOfRange .pixel)

/-- The pixel that comes `n`-th when an image is read row by row. -/
def cell? (i : Image) (n : Nat) : Option Color :=
  if n < i.width * i.height then
    some (i.pixel (n % i.width) (n / i.width))
  else
    none

/-- `i` with the spans of `j` copied into it.  Rows lie one behind the other, so
a span that goes further than its row runs on into the next one. -/
def copy (i j : Image) (across down : Span) : Image :=
  { i with
    pixel := fun x y =>
      let n := y * i.width + x
      let row := min ((n - across.target) / i.width - down.target)
        (down.length - 1)
      let column := n - across.target - (down.target + row) * i.width
      if across.target + down.target * i.width ≤ n ∧ 0 < down.length
          ∧ column < across.length then
        (j.cell? ((down.source + row) * j.width + across.source + column)).getD
          (i.pixel x y)
      else
        i.pixel x y }

/-- A way to place an image on another so that its corner is at given
coordinates. -/
abbrev Placing : Type :=
  Image -> Image -> Int -> Int -> Except Failure Image

def place? (i j : Image) (x y : Int) : Except Failure Image :=
  match Number.lowHalf? x, Number.lowHalf? y with
  | some x, some y =>
      .ok (i.copy j (.clip j.width i.width x) (.clip j.height i.height y))
  | _, _ => .error .placeTooLarge

theorem cell?_eq_pixel (i : Image) {x y : Nat} (hx : x < i.width)
    (hy : y < i.height) :
    i.cell? (y * i.width + x) = some (i.pixel x y) := by
  have before : y * i.width + x < i.width * i.height := by
    have step : (y + 1) * i.width ≤ i.height * i.width :=
      Nat.mul_le_mul_right _ hy
    rw [Nat.add_mul, Nat.one_mul] at step
    rw [Nat.mul_comm i.width]
    omega
  have column : (y * i.width + x) % i.width = x := by
    rw [Nat.add_comm, Nat.add_mul_mod_self_right, Nat.mod_eq_of_lt hx]
  have row : (y * i.width + x) / i.width = y := by
    rw [Nat.add_comm, Nat.add_mul_div_right _ _ (by omega), Nat.div_eq_of_lt hx,
      Nat.zero_add]
  rw [cell?, if_pos before, column, row]

theorem pixel_copy (i j : Image) (across down : Span) {x y : Nat}
    (hx : x < i.width)
    (within : 0 < across.length -> across.target + across.length ≤ i.width)
    (columns : 0 < across.length -> across.source + across.length ≤ j.width)
    (rows : 0 < down.length -> down.source + down.length ≤ j.height) :
    (i.copy j across down).pixel x y =
      if across.covers x = true ∧ down.covers y = true then
        j.pixel (across.source + (x - across.target))
          (down.source + (y - down.target))
      else
        i.pixel x y := by
  obtain ⟨sx, tx, lx⟩ := across
  obtain ⟨sy, ty, ly⟩ := down
  obtain ⟨iw, ih, ip⟩ := i
  simp only [copy, Span.covers, decide_eq_true_eq] at *
  have row_le {a b : Nat} (h : a ≤ b) : a * iw ≤ b * iw :=
    Nat.mul_le_mul_right _ h
  have row_lt {a b : Nat} (h : a < b) : a * iw + iw ≤ b * iw := by
    have := row_le (Nat.succ_le_of_lt h)
    rwa [Nat.succ_mul] at this
  by_cases left : tx ≤ x
  · have line : (y * iw + x - tx) / iw = y := by
      have : y * iw + x - tx = (x - tx) + y * iw := by omega
      rw [this, Nat.add_mul_div_right _ _ (by omega),
        Nat.div_eq_of_lt (by omega), Nat.zero_add]
    rw [line]
    by_cases above : ty ≤ y
    · by_cases below : y < ty + ly
      · have row : min (y - ty) (ly - 1) = y - ty := by omega
        have back : ty + (y - ty) = y := by omega
        have start : tx + ty * iw ≤ y * iw + x := by
          have := row_le above
          omega
        have column : y * iw + x - tx - y * iw = x - tx := by omega
        rw [row, back, column]
        by_cases right : x < tx + lx
        · have sourceColumn : sx + (x - tx) < j.width := by omega
          have sourceRow : sy + (y - ty) < j.height := by omega
          rw [if_pos ⟨start, by omega, by omega⟩,
            if_pos ⟨⟨left, right⟩, above, below⟩, Nat.add_assoc,
            j.cell?_eq_pixel sourceColumn sourceRow]
          rfl
        · rw [if_neg (by omega), if_neg (by omega)]
      · rw [if_neg, if_neg (by omega)]
        rintro ⟨_, some, short⟩
        have row : min (y - ty) (ly - 1) = ly - 1 := by omega
        rw [row] at short
        have := row_lt (show ty + (ly - 1) < y by omega)
        omega
    · rw [if_neg, if_neg (by omega)]
      rintro ⟨start, _⟩
      have := row_lt (show y < ty by omega)
      omega
  · rw [if_neg, if_neg (by omega)]
    rintro ⟨start, _, short⟩
    have later : ty < y := by
      rcases Nat.lt_or_ge ty y with later | early
      · exact later
      · have := row_le early
        omega
    have next := row_lt (show y - 1 < y by omega)
    have line : (y * iw + x - tx) / iw ≤ y - 1 := by
      have : (y * iw + x - tx) / iw < y :=
        (Nat.div_lt_iff_lt_mul (by omega)).mpr (by omega)
      omega
    have :=
      row_le (show ty + min ((y * iw + x - tx) / iw - ty) (ly - 1) ≤
        y - 1 by omega)
    omega

def rows (i : Image) : List (List Color) :=
  (List.range i.height).map fun y => (List.range i.width).map fun x =>
    i.pixel x y

def draw (i : Image) : Stroke -> Image
  | .fill c => i.fill c
  | _ => i

end Image
end WireView
