import Mathlib
import WireView.Number.Rounding

/-!
# Nearest whole numbers

The nearest whole number, from halfway the even one, is the only one that is
within a half and even if it is a whole half away.  A reading of a double
denotes a rational number or none.  Rounding a reading gives the number nearest
to what it denotes, and a reading is below a limit if it denotes a number whose
magnitude is.  Truncating drops the fraction of what is denoted.
-/

namespace WireView
namespace Number

section nearest

variable {K : Type} [Field K] [LinearOrder K] [IsStrictOrderedRing K]
  [FloorRing K]

/-- The nearest whole number, from halfway the even one. -/
def nearest (x : K) : Int :=
  if Int.fract x = 1 - Int.fract x ∧ Even ⌊x⌋ then ⌊x⌋ else round x

theorem halfway_iff (x : K) :
    Int.fract x = 1 - Int.fract x ↔ Int.fract x = 1 / 2 := by
  constructor <;> intro h <;> linarith

theorem nearest_close (x : K) : |x - nearest x| ≤ 1 / 2 := by
  unfold nearest
  split
  · rename_i h
    rw [Int.self_sub_floor, (halfway_iff x).mp h.1, abs_of_pos one_half_pos]
  · exact abs_sub_round x

theorem nearest_even {x : K} (h : |x - nearest x| = 1 / 2) :
    Even (nearest x) := by
  unfold nearest at h ⊢
  split
  · rename_i hhalf
    exact hhalf.2
  · rename_i hhalf
    rw [if_neg hhalf] at h
    have hfract : Int.fract x = 1 / 2 := by
      rw [abs_sub_round_eq_min] at h
      rcases min_choice (Int.fract x) (1 - Int.fract x) with hmin | hmin <;>
        rw [hmin] at h
      · exact h
      · linarith
    have hodd : Odd ⌊x⌋ := Int.not_even_iff_odd.mp fun heven =>
      hhalf ⟨(halfway_iff x).mpr hfract, heven⟩
    have hround : round x = ⌊x⌋ + 1 := by
      rw [round_eq, ← Int.floor_add_fract x, hfract, add_assoc, add_halves]
      norm_num
    rw [hround]
    exact hodd.add_one

theorem eq_nearest {x : K} {n : Int} (close : |x - n| ≤ 1 / 2)
    (even : |x - n| = 1 / 2 -> Even n) : nearest x = n := by
  by_contra hne
  have hclose := nearest_close x
  have hgap : (1 : K) ≤ |(nearest x : K) - n| := by
    have hone : 1 ≤ |nearest x - n| := Int.one_le_abs (sub_ne_zero.mpr hne)
    exact_mod_cast hone
  have htriangle : |(nearest x : K) - n| ≤ |x - nearest x| + |x - n| := by
    have h := abs_sub_le (nearest x : K) x n
    rwa [abs_sub_comm (nearest x : K) x] at h
  have hfirst : |x - nearest x| = 1 / 2 := by linarith
  have hsecond : |x - n| = 1 / 2 := by linarith
  have hsum : |(nearest x : K) - n| = 1 := by linarith
  have hone : |nearest x - n| = 1 := by exact_mod_cast hsum
  have hparity : Even (nearest x - n) :=
    (nearest_even hfirst).sub (even hsecond)
  rcases abs_eq (by decide) |>.mp hone with h | h <;> rw [h] at hparity
  · exact absurd hparity (by decide)
  · exact absurd hparity (by decide)

theorem abs_nearest_le {x : K} {limit : Nat} (h : |x| < limit) :
    |nearest x| ≤ limit := by
  have hclose := nearest_close x
  have hbound : |(nearest x : K)| < limit + 1 := by
    have htriangle := abs_sub_abs_le_abs_sub (nearest x : K) x
    rw [abs_sub_comm] at htriangle
    linarith
  have hint : |nearest x| < (limit : Int) + 1 := by exact_mod_cast hbound
  omega

end nearest

/-!
# What a reading denotes
-/

def sign (negative : Bool) : ℚ :=
  if negative then -1 else 1

def Reading.value? : Reading -> Option ℚ
  | finite s m q => some (sign s * (m * 2 ^ q))
  | _ => none

def value? (x : Float) : Option ℚ :=
  (Reading.ofFloat x).value?

theorem isSome_value? (x : Float) : (value? x).isSome = x.isFinite := by
  show (Reading.ofUnpacked x.toModel.unpack).value?.isSome =
    x.toModel.unpack.isFinite
  cases x.toModel.unpack <;> rfl

theorem abs_sign_mul (s : Bool) (x : ℚ) : |sign s * x| = |x| := by
  cases s <;> simp [sign]

theorem quotient_eq (m : Nat) (q : Int) :
    ((quotient m q).1 : ℚ) / (quotient m q).2 = m * 2 ^ q := by
  unfold quotient
  split
  · rename_i hq
    lift q to Nat using hq
    simp
  · rename_i hq
    rcases Int.eq_ofNat_of_zero_le (show 0 ≤ -q by omega) with ⟨k, hk⟩
    rw [hk, show q = -(k : Int) by omega, zpow_neg, zpow_natCast]
    simp [div_eq_mul_inv]

theorem divNearest_tie {n d : Nat} (hd : 0 < d)
    (h : 2 * n = 2 * (divNearest n d * d) + d
      ∨ 2 * n + d = 2 * (divNearest n d * d)) :
    divNearest n d % 2 = 0 := by
  apply divNearest_half
  have hdm := Nat.div_add_mod n d
  have hlt := Nat.mod_lt n hd
  have hc : d * (n / d) = n / d * d := Nat.mul_comm _ _
  unfold divNearest at h
  split at h
  · omega
  · rw [Nat.add_mul, Nat.one_mul] at h
    omega

theorem nearest_quotient (n : Nat) {d : Nat} (hd : 0 < d) :
    |(n : ℚ) / d - divNearest n d| ≤ 1 / 2
      ∧ (|(n : ℚ) / d - divNearest n d| = 1 / 2 -> Even (divNearest n d)) := by
  have hpos : (0 : ℚ) < d := by exact_mod_cast hd
  have hgap : (n : ℚ) / d - divNearest n d = (n - divNearest n d * d) / d := by
    field_simp
  rw [hgap, abs_div, abs_of_pos hpos, div_le_iff₀ hpos, div_eq_iff hpos.ne']
  constructor
  · rcases divNearest_close n hd with ⟨hlow, hhigh⟩
    have hlow' : (2 : ℚ) * n ≤ 2 * (divNearest n d * d) + d := by
      exact_mod_cast hlow
    have hhigh' : (2 : ℚ) * (divNearest n d * d) ≤ 2 * n + d := by
      exact_mod_cast hhigh
    rw [abs_le]
    constructor <;> linarith
  · intro h
    apply Nat.even_iff.mpr
    apply divNearest_tie hd
    rcases abs_choice ((n : ℚ) - divNearest n d * d) with hsign | hsign <;>
      rw [hsign] at h
    · left
      have htie : (2 : ℚ) * n = 2 * (divNearest n d * d) + d := by linarith
      exact_mod_cast htie
    · right
      have htie : (2 : ℚ) * n + d = 2 * (divNearest n d * d) := by linarith
      exact_mod_cast htie

theorem cast_signed (s : Bool) (n : Nat) :
    ((signed s n : Int) : ℚ) = sign s * n := by
  cases s <;> simp [signed, sign]

theorem even_signed {n : Nat} (s : Bool) (h : Even n) : Even (signed s n) := by
  have hint : Even (n : Int) := Int.even_coe_nat n |>.mpr h
  cases s
  · exact hint
  · exact hint.neg

namespace Reading

theorem isBelow_iff (limit : Nat) (r : Reading) :
    r.isBelow limit = true ↔ exists x, r.value? = some x ∧ |x| < limit := by
  cases r with
  | nan => simp [isBelow, value?]
  | infinite s => simp [isBelow, value?]
  | finite s m q =>
      have hpos : (0 : ℚ) < (quotient m q).2 := by
        exact_mod_cast quotient_den_pos m q
      have hvalue :
          |sign s * ((m : ℚ) * 2 ^ q)| =
            (quotient m q).1 / (quotient m q).2 := by
        rw [abs_sign_mul, ← quotient_eq, abs_of_nonneg (by positivity)]
      have hlt : |sign s * ((m : ℚ) * 2 ^ q)| < limit
          ↔ (quotient m q).1 < limit * (quotient m q).2 := by
        rw [hvalue, div_lt_iff₀ hpos]
        exact_mod_cast Iff.rfl
      simpa [isBelow, value?] using hlt.symm

theorem round_eq {r : Reading} {x : ℚ} (h : r.value? = some x) :
    r.round = .ok (nearest x) := by
  cases r with
  | nan => cases h
  | infinite s => cases h
  | finite s m q =>
      cases h
      rcases nearest_quotient (quotient m q).1 (quotient_den_pos m q) with
        ⟨hclose, heven⟩
      have hgap : sign s * ((m : ℚ) * 2 ^ q)
            - (signed s (divNearest (quotient m q).1 (quotient m q).2) : Int)
          = sign s * ((quotient m q).1 / (quotient m q).2
            - divNearest (quotient m q).1 (quotient m q).2) := by
        rw [cast_signed, ← quotient_eq, mul_sub]
      refine congrArg Except.ok
        (eq_nearest ?_ fun h => even_signed s (heven ?_)).symm
      · rw [hgap, abs_sign_mul]
        exact hclose
      · rw [hgap, abs_sign_mul] at h
        exact h

end Reading

/-!
# Dropping the fraction
-/

def towardsZero (x : ℚ) : Int :=
  if 0 ≤ x then ⌊x⌋ else ⌈x⌉

theorem towardsZero_signed (s : Bool) {x : ℚ} (hx : 0 ≤ x) :
    towardsZero (sign s * x) = signed s ⌊x⌋.toNat := by
  have hfloor : ((⌊x⌋.toNat : Nat) : Int) = ⌊x⌋ :=
    Int.toNat_of_nonneg (Int.floor_nonneg.mpr hx)
  unfold towardsZero
  cases s with
  | false =>
      have hsame : sign false * x = x := one_mul x
      rw [hsame, if_pos hx]
      exact hfloor.symm
  | true =>
      have hneg : sign true * x = -x := neg_one_mul x
      rw [hneg]
      split
      · rename_i hle
        have hzero : x = 0 := le_antisymm (neg_nonneg.mp hle) hx
        rw [hzero]
        rfl
      · rw [Int.ceil_neg]
        exact congrArg Neg.neg hfloor.symm

theorem Reading.truncate_eq {r : Reading} {x : ℚ} (h : r.value? = some x) :
    r.truncate = .ok (towardsZero x) := by
  cases r with
  | nan => cases h
  | infinite s => cases h
  | finite s m q =>
      cases h
      have hpos : (0 : ℚ) ≤ m * 2 ^ q := by positivity
      have hfloor :
          ⌊(m : ℚ) * 2 ^ q⌋.toNat = (quotient m q).1 / (quotient m q).2 := by
        rw [← quotient_eq, Rat.floor_natCast_div_natCast]
        rfl
      rw [towardsZero_signed s hpos, hfloor]
      rfl

end Number
end WireView
