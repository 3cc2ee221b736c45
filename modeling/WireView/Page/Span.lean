import WireView.Number.Word

/-!
# Spans

A copy between two images takes a span along each axis: where it starts in the
source, where it starts in the target, and how far it goes.  Clipping cuts away
what lies before the target and what lies beyond it.

Clipping is done in words of 32 bits, and a start counts modulo `2 ^ 16`.  Near
the target this does not show.  A source placed at the least coordinate is not
clipped at all unless it is smaller than the target.
-/

namespace WireView

structure Span where
  source : Nat
  target : Nat
  length : Nat
  deriving DecidableEq, Repr

namespace Span

def startLimit : Int := 65536

/-- The span of a source of the given size that is placed at `start` on a target
with the given room. -/
def clip (size room : Nat) (start : Int) : Span :=
  let cut := max 0 (Number.signedHalf (-start))
  let start := Number.signedHalf (start + cut)
  let length := Number.signedHalf (size - cut)
  let beyond := max 0 (Number.signedHalf (start + length - room))
  let length := Number.signedHalf (length - beyond)
  ⟨(cut % startLimit).toNat, (start % startLimit).toNat, length.toNat⟩

def covers (s : Span) (p : Nat) : Bool :=
  decide (s.target ≤ p ∧ p < s.target + s.length)

/-- Sizes and distances for which clipping is exact. -/
structure Near (size room : Nat) (start : Int) : Prop where
  size_le : size ≤ 65536
  room_le : room ≤ 65536
  low : -1073741824 ≤ start
  high : start < 1073741824

section Near

variable {size room : Nat} {start : Int}

theorem clip_of_near (near : Near size room start) :
    clip size room start =
      ⟨(max 0 (-start) % 65536).toNat, (max 0 start % 65536).toNat,
        (min (start + size) room - max 0 start).toNat⟩ := by
  obtain ⟨hs, hr, low, high⟩ := near
  have cut : Number.signedHalf (-start) = -start :=
    Number.signedHalf_eq_self (by omega) (by omega)
  have begun : Number.signedHalf (start + max 0 (-start)) = max 0 start := by
    rw [Number.signedHalf_eq_self (by omega) (by omega)]
    omega
  have rest :
      Number.signedHalf (size - max 0 (-start)) = size - max 0 (-start) :=
    Number.signedHalf_eq_self (by omega) (by omega)
  have beyond :
      Number.signedHalf (max 0 start + (size - max 0 (-start)) - room) =
        max 0 start + (size - max 0 (-start)) - room :=
    Number.signedHalf_eq_self (by omega) (by omega)
  simp only [clip, startLimit, cut, begun, rest, beyond]
  rw [Number.signedHalf_eq_self (by omega) (by omega)]
  congr 2
  omega

theorem clip_covers_iff (near : Near size room start) {p : Nat}
    (inside : p < room) :
    (clip size room start).covers p = true ↔ start ≤ p ∧ p < start + size := by
  rw [clip_of_near near]
  obtain ⟨hs, hr, low, high⟩ := near
  simp only [covers, decide_eq_true_eq]
  omega

theorem clip_source (near : Near size room start) {p : Nat} (inside : p < room)
    (covered : (clip size room start).covers p = true) :
    (((clip size room start).source +
      (p - (clip size room start).target) : Nat) : Int) = p - start := by
  have range := (clip_covers_iff near inside).mp covered
  rw [clip_of_near near]
  obtain ⟨hs, hr, low, high⟩ := near
  simp only
  omega

theorem clip_target_le (near : Near size room start)
    (kept : 0 < (clip size room start).length) :
    (clip size room start).target + (clip size room start).length ≤ room := by
  rw [clip_of_near near] at kept ⊢
  obtain ⟨hs, hr, low, high⟩ := near
  simp only at kept ⊢
  omega

theorem clip_source_le (near : Near size room start)
    (kept : 0 < (clip size room start).length) :
    (clip size room start).source + (clip size room start).length ≤ size := by
  rw [clip_of_near near] at kept ⊢
  obtain ⟨hs, hr, low, high⟩ := near
  simp only at kept ⊢
  omega

end Near
end Span
end WireView
