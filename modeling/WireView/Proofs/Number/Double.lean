import Mathlib
import WireView.Scalar

/-!
# Laws of doubles

A double is the packed form of what it unpacks to, so a law of arithmetic is
shown on the unpacked numbers, by cases on what they are, and carried over.  The
laws here are about zeros: which sums and products are negative zeros, and what
a leading zero does to a sum.

One times a double is that double: its product has more digits than fit, and
rounding drops nothing but zeros of them.
-/

namespace WireView
namespace Double

open Float.Model (Format UnpackedFloat totalExponent)
open Float.Model.UnpackedFloat

abbrev format : Format := Format.binary64

/-!
# Bit patterns
-/

theorem toNat_implicit (m : BitVec 52) :
    (1#1 ++ m).toNat = 2 ^ 52 + m.toNat := by
  rw [BitVec.toNat_append, ← Nat.shiftLeft_add_eq_or_of_lt m.isLt]
  rfl

inductive Unpacks (b : BitVec format.numBits) : UnpackedFloat -> Prop where
  | infinity (he : unpackExponent b = -1#_) (hm : unpackMantissa b = 0#_) :
      Unpacks b (.infinity (Sign.ofBitVec (unpackSign b)))
  | nan (he : unpackExponent b = -1#_) (hm : unpackMantissa b ≠ 0#_) :
      Unpacks b .notANumber
  | zero (he : unpackExponent b = 0#_) (hm : unpackMantissa b = 0#_) :
      Unpacks b (.zero (Sign.ofBitVec (unpackSign b)))
  | subnormal (he : unpackExponent b = 0#_)
      (hm : 0 < (unpackMantissa b).toNat) :
      Unpacks b
        (.finite (Sign.ofBitVec (unpackSign b))
          (unpackMantissa b).toNat (-1074) hm)
  | normal (he : 0 < (unpackExponent b).toNat)
      (hmax : (unpackExponent b).toNat < 2047)
      (hm : 0 < (1#1 ++ unpackMantissa b).toNat) :
      Unpacks b
        (.finite (Sign.ofBitVec (unpackSign b)) (1#1 ++ unpackMantissa b).toNat
          ((unpackExponent b).toNat - 1075) hm)

theorem unpacks (b : BitVec format.numBits) : Unpacks b (unpack format b) := by
  simp only [unpack]
  split
  · rename_i he
    split
    · rename_i hm
      exact .infinity he hm
    · rename_i hm
      exact .nan he hm
  · rename_i hmax
    split
    · rename_i he
      split
      · rename_i hm
        exact .zero he hm
      · rename_i hm
        have hexp : ((unpackExponent b).toNat : Int)
            - ((format.exponentBias : Int) +
              (format.mantissaBitsWithoutImplicit : Int)) + 1 = -1074 := by
          rw [he]
          rfl
        simp only [hexp]
        exact .subnormal he _
    · rename_i he
      have hlt := (unpackExponent b).isLt
      have hne : (unpackExponent b).toNat ≠ 2047 :=
        fun h => hmax (BitVec.eq_of_toNat_eq h)
      have hpos : (unpackExponent b).toNat ≠ 0 :=
        fun h => he (BitVec.eq_of_toNat_eq h)
      have hfull : 2 ^ format.exponentBits = 2048 := rfl
      exact .normal (by omega) (by omega) _

/-!
# Doubles and what they unpack to
-/

def view (x : Float) : UnpackedFloat :=
  x.toModel.unpack

def ofView (f : UnpackedFloat) : Float :=
  .ofModel (.pack f)

theorem ofView_view (x : Float) : ofView (view x) = x := by
  apply Float.toBits_inj.mp
  exact UInt64.toBitVec_inj.mp (pack_unpack_of_valid x.toModel.valid)

theorem view_ofView_zero (s : Sign) : view (ofView (.zero s)) = .zero s := by
  cases s <;> rfl

theorem view_ofView_nan : view (ofView .notANumber) = .notANumber := rfl

theorem view_ofView_view (x : Float) : view (ofView (view x)) = view x := by
  rw [ofView_view]

theorem add_eq (x y : Float) : x + y = ofView (add format (view x) (view y)) :=
  rfl
theorem mul_eq (x y : Float) : x * y = ofView (mul format (view x) (view y)) :=
  rfl

def minus : UnpackedFloat -> Bool
  | .notANumber => false
  | .infinity s => s == .negative
  | .zero s => s == .negative
  | .finite s _ _ _ => s == .negative

theorem pack_eq_components (f : UnpackedFloat) :
    exists s e m,
      pack format f = packComponents format s e m
        ∧ (s == .negative) = minus f := by
  cases f with
  | notANumber => exact ⟨_, _, _, rfl, rfl⟩
  | infinity s => exact ⟨_, _, _, rfl, rfl⟩
  | zero s => exact ⟨_, _, _, rfl, rfl⟩
  | finite s m e hm =>
      simp only [pack]
      split
      · exact ⟨_, _, _, rfl, rfl⟩
      · split
        · exact ⟨_, _, _, rfl, rfl⟩
        · exact ⟨_, _, _, rfl, rfl⟩

theorem toNat_packComponents (s : Sign) (e : BitVec 11) (m : BitVec 52) :
    (packComponents format s e m).toNat / 2 ^ 63 = s.toBitVec.toNat := by
  have hlt : (packComponents format s e m).toNat < 2 ^ 64 :=
    (packComponents format s e m).isLt
  have hsign := @unpackSign_packComponents format s e m
  rw [unpackSign_def] at hsign
  rw [← hsign, BitVec.extractLsb'_toNat, Nat.shiftRight_eq_div_pow]
  refine (Nat.mod_eq_of_lt ?_).symm
  show _ / 2 ^ 63 < 2 ^ 1
  omega

theorem hasMinusSign_eq (x : Float) : hasMinusSign x = minus (view x) := by
  rcases pack_eq_components (view x) with ⟨s, e, m, hpack, hs⟩
  have hbits : x.toBits.toBitVec = packComponents format s e m := by
    rw [← hpack]
    exact congrArg (fun y : Float => y.toBits.toBitVec) (ofView_view x).symm
  have hnat : (x.toBits >>> 63).toNat = s.toBitVec.toNat := by
    rw [UInt64.toNat_shiftRight, ← toNat_packComponents s e m, ← hbits,
      Nat.shiftRight_eq_div_pow]
    rfl
  rw [← hs]
  unfold hasMinusSign
  cases s with
  | positive =>
      have hne : x.toBits >>> 63 ≠ 1 := by
        intro h
        rw [h] at hnat
        cases hnat
      exact decide_eq_false hne
  | negative => exact decide_eq_true (UInt64.toNat_inj.mp hnat)

/-!
# Sums
-/

theorem view_zero : view 0 = .zero .positive := rfl

theorem zero_add {x : Float} (h : view x ≠ .zero .negative) : 0 + x = x := by
  have hadd : add format (.zero .positive) (view x) = view x := by
    revert h
    generalize view x = f
    intro h
    cases f with
    | zero s =>
        cases s with
        | positive => rfl
        | negative => exact absurd rfl h
    | _ => rfl
  rw [add_eq, view_zero, hadd, ofView_view]

theorem zero_add_negZero {x : Float} (h : view x = .zero .negative) :
    0 + x = 0 := by
  rw [add_eq, view_zero, h]
  rfl

theorem negZero_add {x : Float} (h : view x = .zero .negative) (y : Float) :
    x + y = y := by
  have hadd : add format (.zero .negative) (view y) = view y := by
    cases view y with
    | zero s => cases s <;> rfl
    | _ => rfl
  rw [add_eq, h, hadd, ofView_view]

/-- A leading zero changes a sum of four in no other case than that of four
negative zeros. -/
theorem zero_add_four {a b c d : Float}
    (h :
      ¬(view a = .zero .negative ∧ view b = .zero .negative
        ∧ view c = .zero .negative ∧ view d = .zero .negative)) :
    0 + a + b + c + d = a + b + c + d := by
  by_cases ha : view a = .zero .negative
  · rw [zero_add_negZero ha, negZero_add ha]
    by_cases hb : view b = .zero .negative
    · rw [zero_add_negZero hb, negZero_add hb]
      by_cases hc : view c = .zero .negative
      · rw [zero_add_negZero hc, negZero_add hc,
          zero_add fun hd => h ⟨ha, hb, hc, hd⟩]
      · rw [zero_add hc]
    · rw [zero_add hb]
  · rw [zero_add ha]

/-- A zero of either sign, or no number. -/
def Hollow (f : UnpackedFloat) : Prop :=
  (exists s, f = .zero s) ∨ f = .notANumber

theorem Hollow.view_ofView {f : UnpackedFloat} (h : Hollow f) :
    view (ofView f) = f := by
  rcases h with ⟨s, rfl⟩ | rfl
  · exact view_ofView_zero s
  · exact view_ofView_nan

theorem hollow_zero_mul (x : Float) : Hollow (view (0 * x)) := by
  have h : Hollow (mul format (.zero .positive) (view x)) := by
    cases view x with
    | notANumber => exact .inr rfl
    | infinity s => exact .inr rfl
    | zero s => exact .inl ⟨_, rfl⟩
    | finite s m e hm => exact .inl ⟨_, rfl⟩
  rw [mul_eq, view_zero, h.view_ofView]
  exact h

theorem hollow_add {x y : Float} (hx : Hollow (view x)) (hy : Hollow (view y)) :
    Hollow (view (x + y)) := by
  have h : Hollow (add format (view x) (view y)) := by
    rcases hx with ⟨s, hx⟩ | hx <;> rcases hy with ⟨t, hy⟩ | hy <;> rw [hx, hy]
    · cases s <;> cases t <;> exact .inl ⟨_, rfl⟩
    · exact .inr rfl
    · exact .inr rfl
    · exact .inr rfl
  rw [add_eq, h.view_ofView]
  exact h

theorem minus_add {x y : Float} (hx : Hollow (view x))
    (hy : minus (view y) = false) :
    minus (view (x + y)) = false := by
  rw [add_eq]
  rcases hx with ⟨s, hx⟩ | hx
  · have hadd : add format (.zero s) (view y) = view y := by
      revert hy
      cases view y with
      | zero t =>
          cases t with
          | positive => intro _; cases s <;> rfl
          | negative => intro h; cases h
      | _ => intro _; rfl
    rw [hx, hadd, view_ofView_view]
    exact hy
  · have hadd : add format .notANumber (view y) = .notANumber := by
      cases view y <;> rfl
    rw [hx, hadd, view_ofView_nan]
    rfl

theorem view_zero_mul {x : Float} (hx : minus (view x) = false) :
    view (0 * x) = .zero .positive ∨ view (0 * x) = .notANumber := by
  have h : mul format (.zero .positive) (view x) = .zero .positive
      ∨ mul format (.zero .positive) (view x) = .notANumber := by
    revert hx
    cases view x with
    | notANumber => exact fun _ => .inr rfl
    | infinity s => exact fun _ => .inr rfl
    | zero s =>
        cases s with
        | positive => exact fun _ => .inl rfl
        | negative => intro h; cases h
    | finite s m e hm =>
        cases s with
        | positive => exact fun _ => .inl rfl
        | negative => intro h; cases h
  rw [mul_eq, view_zero]
  rcases h with h | h
  · rw [h]
    exact .inl (view_ofView_zero _)
  · rw [h]
    exact .inr view_ofView_nan

theorem add_ne_negZero {x y : Float}
    (hy : view y = .zero .positive ∨ view y = .notANumber) :
    view (x + y) ≠ .zero .negative := by
  rw [add_eq]
  rcases hy with hy | hy
  · have hadd : add format (view x) (.zero .positive) = .zero .positive
        ∨ add format (view x) (.zero .positive) = view x ∧ forall s,
          view x ≠ .zero s := by
      cases view x with
      | zero s => cases s <;> exact .inl rfl
      | notANumber => exact .inr ⟨rfl, fun s h => by cases h⟩
      | infinity s => exact .inr ⟨rfl, fun s h => by cases h⟩
      | finite s m e hm => exact .inr ⟨rfl, fun s h => by cases h⟩
    rw [hy]
    rcases hadd with h | ⟨h, hne⟩
    · rw [h, view_ofView_zero]
      intro h
      cases h
    · rw [h, view_ofView_view]
      exact hne _
  · rw [hy]
    have hadd : add format (view x) .notANumber = .notANumber := by
      cases view x <;> rfl
    rw [hadd, view_ofView_nan]
    intro h
    cases h

/-!
# Products with one
-/

theorem repeat_shiftRightOne (k m : Nat) :
    Nat.repeat ExtendedMantissa.shiftRightOne k ⟨2 ^ k * m, false, false⟩ =
      ⟨m, false, false⟩ := by
  induction k generalizing m with
  | zero => simp [Nat.repeat]
  | succ k ih =>
      have h : 2 ^ (k + 1) * m = 2 ^ k * (2 * m) := by
        rw [Nat.pow_succ, Nat.mul_assoc]
      rw [Nat.repeat, h, ih]
      simp [ExtendedMantissa.shiftRightOne]

/-- The exponent is the one that the format gives to a number of this size. -/
def Canonical : UnpackedFloat -> Prop
  | .finite _ m e _ => format.targetExponent (totalExponent m e) = e
  | _ => True

theorem canonical_unpack (b : BitVec format.numBits) :
    Canonical (unpack format b) := by
  have h := unpacks b
  generalize unpack format b = f at h ⊢
  have hbits : (format.mantissaBits : Int) = 53 := rfl
  have hmin : format.minExponent = -1074 := rfl
  have hlt : (unpackMantissa b).toNat < 2 ^ 52 := (unpackMantissa b).isLt
  cases h with
  | subnormal he hm =>
      have hlog := (Nat.log2_lt (Nat.ne_of_gt hm)).mpr hlt
      simp only [Canonical, Format.targetExponent, totalExponent, hbits, hmin]
      omega
  | normal he hmax hm =>
      have hnat := toNat_implicit (unpackMantissa b)
      have hlog : (1#1 ++ unpackMantissa b).toNat.log2 = 52 :=
        (Nat.log2_eq_iff (by omega)).mpr ⟨by omega, by omega⟩
      simp only [Canonical, Format.targetExponent, totalExponent, hbits, hmin,
        hlog]
      omega
  | _ => trivial

theorem log2_two_pow_mul {m : Nat} (hm : 0 < m) (k : Nat) :
    (2 ^ k * m).log2 = k + m.log2 := by
  have hne := Nat.ne_of_gt hm
  have hlow : 2 ^ m.log2 ≤ m := (Nat.le_log2 hne).mp (Nat.le_refl _)
  have hhigh : m < 2 ^ (m.log2 + 1) := (Nat.log2_lt hne).mp (Nat.lt_succ_self _)
  refine (Nat.log2_eq_iff
    (Nat.ne_of_gt (Nat.mul_pos (Nat.two_pow_pos k) hm))).mpr ⟨?_, ?_⟩
  · rw [Nat.pow_add]
    exact Nat.mul_le_mul_left _ hlow
  · rw [Nat.add_assoc, Nat.pow_add]
    exact Nat.mul_lt_mul_of_pos_left hhigh (Nat.two_pow_pos k)

theorem shiftToTargetExponent_canonical {m : Nat} {e : Int} (k : Nat)
    (hm : 0 < m) (hc : format.targetExponent (totalExponent m e) = e) :
    shiftToTargetExponent format (2 ^ k * m) (e - k) .exact =
      (⟨m, false, false⟩, e) := by
  have htotal : totalExponent (2 ^ k * m) (e - k) = totalExponent m e := by
    simp only [totalExponent, log2_two_pow_mul hm]
    omega
  have hshift : (e - (e - k)).toNat = k := by omega
  have hrepeat := repeat_shiftRightOne k m
  simp only [shiftToTargetExponent, htotal, hc, shiftToExponent, hshift]
  refine Prod.ext hrepeat ?_
  show e - k + k = e
  omega

/-- Rounding loses nothing of a number that is canonical after a shift. -/
theorem roundWithAccuracy_canonical {s : Sign} {m : Nat} {e : Int} (k : Nat)
    (hm : 0 < m) (hc : format.targetExponent (totalExponent m e) = e) :
    roundWithAccuracy format s (2 ^ k * m) (e - k) .exact =
      .finite s m e hm := by
  have hfirst := shiftToTargetExponent_canonical k hm hc
  have hsecond :
      shiftToTargetExponent format m e .exact = (⟨m, false, false⟩, e) := by
    simpa using shiftToTargetExponent_canonical 0 hm hc
  have hrounded : ExtendedMantissa.roundedMantissa ⟨m, false, false⟩ = m := rfl
  simp only [roundWithAccuracy, hfirst, hrounded, hsecond]
  rw [dif_neg (Nat.ne_of_gt hm)]

theorem view_one : view 1 = .finite .positive (2 ^ 52) (-52) (by decide) := rfl

theorem one_mul (x : Float) : 1 * x = x := by
  have h : mul format (view 1) (view x) = view x := by
    have hc : Canonical (view x) := canonical_unpack _
    revert hc
    rw [view_one]
    cases view x with
    | notANumber => exact fun _ => rfl
    | infinity s => cases s <;> exact fun _ => rfl
    | zero s => cases s <;> exact fun _ => rfl
    | finite s m e hm =>
        intro hc
        have hs : Sign.positive * s = s := by cases s <;> rfl
        have he : (-52 : Int) + e = e - (52 : Nat) := by omega
        show roundWithAccuracy format
          (Sign.positive * s) (2 ^ 52 * m) (-52 + e) .exact = _
        rw [hs, he]
        exact roundWithAccuracy_canonical 52 hm hc
  rw [mul_eq, h, ofView_view]

/-!
# Reciprocals
-/

theorem isZero_iff (x : Float) :
    Scalar.isZero x = true ↔ exists s, view x = .zero s := by
  show UnpackedFloat.beq (view x) (view 0.0) = true ↔ _
  have hzero : view 0.0 = .zero .positive := rfl
  rw [hzero]
  cases view x with
  | notANumber => simp [UnpackedFloat.beq, UnpackedFloat.compare]
  | infinity s => cases s <;> simp [UnpackedFloat.beq, UnpackedFloat.compare]
  | zero s => simp [UnpackedFloat.beq, UnpackedFloat.compare]
  | finite s m e hm =>
      cases s <;> simp [UnpackedFloat.beq, UnpackedFloat.compare]

theorem reciprocal_eq (w : Float) : Scalar.reciprocal w = 1 / w := by
  unfold Scalar.reciprocal
  split
  · rename_i hzero
    rcases (isZero_iff w).mp hzero with ⟨s, hs⟩
    have hw : w = ofView (.zero s) := by rw [← hs, ofView_view]
    subst hw
    cases s <;> rfl
  · rfl

/-!
# Equality up to the signs of zeros
-/

/-- Equal, or zeros of whatever signs. -/
def Alike (x y : Float) : Prop :=
  x = y ∨ exists s t, view x = .zero s ∧ view y = .zero t

theorem Alike.refl (x : Float) : Alike x x := .inl rfl

theorem Alike.trans {x y z : Float} (hxy : Alike x y) (hyz : Alike y z) :
    Alike x z := by
  rcases hxy with rfl | ⟨s, t, hx, hy⟩
  · exact hyz
  · rcases hyz with rfl | ⟨_, u, _, hz⟩
    · exact .inr ⟨s, t, hx, hy⟩
    · exact .inr ⟨s, u, hx, hz⟩

theorem alike_ofView {f g : UnpackedFloat}
    (h : f = g ∨ exists s t, f = .zero s ∧ g = .zero t) :
    Alike (ofView f) (ofView g) := by
  rcases h with rfl | ⟨s, t, rfl, rfl⟩
  · exact .refl _
  · exact .inr ⟨s, t, view_ofView_zero s, view_ofView_zero t⟩

theorem add_zero_zero (s t : Sign) :
    exists u, add format (.zero s) (.zero t) = .zero u := by
  cases s <;> cases t <;> exact ⟨_, rfl⟩

theorem Alike.add {x x' y y' : Float} (hx : Alike x x') (hy : Alike y y') :
    Alike (x + y) (x' + y') := by
  rw [add_eq, add_eq]
  apply alike_ofView
  rcases hx with rfl | ⟨s, s', hx, hx'⟩ <;>
    rcases hy with rfl | ⟨t, t', hy, hy'⟩
  · exact .inl rfl
  · rw [hy, hy']
    cases view x with
    | zero s =>
        rcases add_zero_zero s t with ⟨u, hu⟩
        rcases add_zero_zero s t' with ⟨u', hu'⟩
        exact .inr ⟨u, u', hu, hu'⟩
    | _ => exact .inl rfl
  · rw [hx, hx']
    cases view y with
    | zero t =>
        rcases add_zero_zero s t with ⟨u, hu⟩
        rcases add_zero_zero s' t with ⟨u', hu'⟩
        exact .inr ⟨u, u', hu, hu'⟩
    | _ => exact .inl rfl
  · rw [hx, hx', hy, hy']
    rcases add_zero_zero s t with ⟨u, hu⟩
    rcases add_zero_zero s' t' with ⟨u', hu'⟩
    exact .inr ⟨u, u', hu, hu'⟩

theorem Alike.mul {x x' y y' : Float} (hx : Alike x x') (hy : Alike y y') :
    Alike (x * y) (x' * y') := by
  rw [mul_eq, mul_eq]
  apply alike_ofView
  rcases hx with rfl | ⟨s, s', hx, hx'⟩ <;>
    rcases hy with rfl | ⟨t, t', hy, hy'⟩
  · exact .inl rfl
  · rw [hy, hy']
    cases view x with
    | notANumber => exact .inl rfl
    | infinity s => exact .inl rfl
    | zero s => exact .inr ⟨_, _, rfl, rfl⟩
    | finite s m e hm => exact .inr ⟨_, _, rfl, rfl⟩
  · rw [hx, hx']
    cases view y with
    | notANumber => exact .inl rfl
    | infinity s => exact .inl rfl
    | zero s => exact .inr ⟨_, _, rfl, rfl⟩
    | finite s m e hm => exact .inr ⟨_, _, rfl, rfl⟩
  · rw [hx, hx', hy, hy']
    exact .inr ⟨_, _, rfl, rfl⟩

theorem alike_zero_add (x : Float) : Alike (0 + x) x := by
  by_cases h : view x = .zero .negative
  · rw [zero_add_negZero h]
    exact .inr ⟨_, _, view_zero, h⟩
  · rw [zero_add h]
    exact .refl x

end Double
end WireView
