import WireView.Proofs.Act
import WireView.Proofs.Number.Exact
import WireView.Session

/-!
# The mean frame time

Each tick moves the frame time of a meter by a fixed share towards the latest
frame, so in exact arithmetic it is a weighted mean of all frames and the zero
that it starts from: the weight of a frame falls by the same factor with each
frame after it.

A filter strength of one or more makes this a mean indeed: no weight is
negative, and the frame time stays between nothing and the longest frame.
-/

namespace WireView

open Finset (Icc)

namespace RateMeter

/-!
# Ticks of a meter that is kept
-/

section ticks

variable {α : Type} [Add α] [Sub α] [Div α] [Scalar α]

def tick (now : α) : Act (RateMeter α) Unit := do
  let m ← get
  set (← Act.ofResult (m.tick? now))

theorem perform_tick (m : RateMeter α) (now : α) :
    (tick now).perform m =
      match m.tick? now with
      | .ok n => (n, .ok ())
      | .error e => (m, .error e) := by
  unfold tick
  rw [Act.perform_bind, Act.perform_get]
  show Act.perform (Act.ofResult (m.tick? now) >>= set) m = _
  rw [Act.perform_bind, Act.perform_ofResult]
  cases m.tick? now <;> rfl

def after [OfNat α 0] (strength : α) (clock : Nat -> α) : Nat -> RateMeter α
  | 0 => .start strength (clock 0)
  | n + 1 => ((tick (clock (n + 1))).perform (after strength clock n)).1

end ticks

theorem tickMeter_eq (m : RateMeter Float) (now : Float) :
    Session.tickMeter m now = ((tick now).perform m).1 := by
  rw [perform_tick]
  unfold Session.tickMeter
  cases m.tick? now <;> rfl

section exact

variable {K : Type} [Field K] [Scalar K] [Scalar.Exact K]

theorem tick_of_ne {m : RateMeter K} (h : m.strength ≠ 0) (now : K) :
    (tick now).perform m
      = (⟨m.strength, m.frameTime + (now - m.last - m.frameTime) / m.strength,
        now⟩, .ok ()) := by
  rw [perform_tick, tick?, Scalar.divide?_of_ne h]
  rfl

theorem tick_of_zero {m : RateMeter K} (h : m.strength = 0) (now : K) :
    (tick now).perform m = (m, .error .divisionByZero) := by
  rw [perform_tick, tick?, Scalar.divide?,
    if_pos ((Scalar.Exact.isZero_iff _).mpr h)]
  rfl

theorem after_of_zero (t : Nat -> K) (n : Nat) :
    after 0 t n = .start 0 (t 0) := by
  induction n with
  | zero => rfl
  | succ n ih =>
      rw [after, ih, tick_of_zero rfl]

/-!
# Weights
-/

def weighted (s : K) (t : Nat -> K) (n : Nat) : K :=
  ∑ i ∈ Icc 1 n, 1 / s * (1 - 1 / s) ^ (n - i) * (t i - t (i - 1))

omit [Scalar K] [Scalar.Exact K] in
theorem weighted_succ (s : K) (t : Nat -> K) (n : Nat) :
    weighted s t (n + 1)
      = (1 - 1 / s) * weighted s t n + 1 / s * (t (n + 1) - t n) := by
  have hfall : forall i, i ∈ Icc 1 n ->
      1 / s * (1 - 1 / s) ^ (n + 1 - i) * (t i - t (i - 1))
        = (1 - 1 / s) *
          (1 / s * (1 - 1 / s) ^ (n - i) * (t i - t (i - 1))) := by
    intro i hi
    rw [Nat.succ_sub (Finset.mem_Icc.mp hi).2, pow_succ]
    ring
  rw [weighted, Finset.sum_Icc_succ_top (Nat.le_add_left 1 n),
    Finset.sum_congr rfl hfall, ← Finset.mul_sum, ← weighted, Nat.sub_self,
    pow_zero, mul_one, Nat.add_sub_cancel]

theorem after_eq {s : K} (hs : s ≠ 0) (t : Nat -> K) (n : Nat) :
    after s t n = ⟨s, weighted s t n, t n⟩ := by
  induction n with
  | zero => rfl
  | succ n ih =>
      rw [after, ih, tick_of_ne hs]
      dsimp only
      rw [weighted_succ]
      congr 1
      ring

omit [Scalar K] [Scalar.Exact K] in
theorem weighted_constant {s d : K} {t : Nat -> K} {n : Nat}
    (constant : forall i, i < n -> t (i + 1) - t i = d) :
    weighted s t n = d * (1 - (1 - 1 / s) ^ n) := by
  induction n with
  | zero => simp [weighted]
  | succ n ih =>
      rw [weighted_succ, ih fun i hi => constant i (hi.trans n.lt_succ_self),
        constant n n.lt_succ_self]
      ring

end exact

/-!
# Means
-/

variable {K : Type} [Field K] [LinearOrder K] [IsStrictOrderedRing K]

section bounds

variable {s : K} {t : Nat -> K} {n : Nat}

theorem shares (hs : 1 ≤ s) : 0 ≤ 1 / s ∧ 0 ≤ 1 - 1 / s := by
  have hpos : 0 < s := zero_lt_one.trans_le hs
  exact ⟨(one_div_pos.mpr hpos).le, sub_nonneg.mpr ((div_le_one hpos).mpr hs)⟩

theorem weighted_nonneg (hs : 1 ≤ s)
    (forward : forall i, i < n -> t i ≤ t (i + 1)) :
    0 ≤ weighted s t n := by
  rcases shares hs with ⟨hlatest, hearlier⟩
  induction n with
  | zero => exact le_of_eq (by simp [weighted])
  | succ n ih =>
      have hbefore := ih fun i hi => forward i (hi.trans n.lt_succ_self)
      have hframe : 0 ≤ t (n + 1) - t n :=
        sub_nonneg.mpr (forward n n.lt_succ_self)
      rw [weighted_succ]
      exact add_nonneg (mul_nonneg hearlier hbefore) (mul_nonneg hlatest hframe)

theorem weighted_le (hs : 1 ≤ s) {d : K} (hd : 0 ≤ d)
    (short : forall i, i < n -> t (i + 1) - t i ≤ d) : weighted s t n ≤ d := by
  rcases shares hs with ⟨hlatest, hearlier⟩
  induction n with
  | zero => exact le_of_eq_of_le (by simp [weighted]) hd
  | succ n ih =>
      have hbefore := ih fun i hi => short i (hi.trans n.lt_succ_self)
      calc
        weighted s t (n + 1)
            = (1 - 1 / s) * weighted s t n + 1 / s * (t (n + 1) - t n) :=
              weighted_succ s t n
        _ ≤ (1 - 1 / s) * d + 1 / s * d :=
            add_le_add (mul_le_mul_of_nonneg_left hbefore hearlier)
              (mul_le_mul_of_nonneg_left (short n n.lt_succ_self) hlatest)
        _ = d := by ring

omit [IsStrictOrderedRing K] in
theorem exists_longest (t : Nat -> K) (hn : n ≠ 0) :
    exists j, j < n ∧ forall i, i < n -> t (i + 1) - t i ≤ t (j + 1) - t j := by
  have hany : (Finset.range n).Nonempty := Finset.nonempty_range_iff.mpr hn
  rcases Finset.exists_max_image (Finset.range n) (fun i => t (i + 1) - t i)
    hany with ⟨j, hj, hmax⟩
  exact ⟨j, Finset.mem_range.mp hj,
    fun i hi => hmax i (Finset.mem_range.mpr hi)⟩

end bounds

/-!
# Rates
-/

omit [IsStrictOrderedRing K] in
theorem rate_cases (m : RateMeter K) :
    (m.frameTime ≤ 0 ∧ m.rate = 0)
      ∨ (0 < m.frameTime ∧ m.rate = 1 / m.frameTime) := by
  unfold rate
  rcases le_or_gt m.frameTime 0 with h | h
  · exact .inl ⟨h, if_pos h⟩
  · exact .inr ⟨h, if_neg h.not_ge⟩

theorem le_rate {m : RateMeter K} {d : K} (h : m.frameTime ≤ d) :
    m.rate = 0 ∨ 0 < d ∧ 1 / d ≤ m.rate := by
  rcases rate_cases m with ⟨_, hrate⟩ | ⟨hpos, hrate⟩
  · exact .inl hrate
  · rw [hrate]
    exact .inr ⟨hpos.trans_le h, one_div_le_one_div_of_le hpos h⟩

variable [Scalar K] [Scalar.Exact K]

/-- The frame time is the mean of the frames in which the weight of a frame
falls with each frame after it.  For a filter strength of one or more and a
clock that does not go back, it lies between nothing and the longest frame so
far, and the rate is zero or at least that of the longest frame.  Under frames
of one length it rises towards that length.  With a filter strength of zero no
tick works, and none leaves a trace. -/
theorem weighted_mean_of_frames (s : K) (t : Nat -> K) :
    (s ≠ 0 -> forall n, ((tick (t (n + 1))).perform (after s t n)).2 = .ok ()
        ∧ (after s t n).frameTime
          = ∑ i ∈ Icc 1 n, 1 / s * (1 - 1 / s) ^ (n - i) * (t i - t (i - 1))
        ∧ (after s t n).last = t n)
      ∧ (1 ≤ s -> forall n, (forall i, i < n -> t i ≤ t (i + 1)) ->
          let m := after s t n
          0 ≤ m.frameTime
            ∧ (m.frameTime = 0 ∧ m.rate = 0
              ∨ 0 < m.frameTime ∧ m.rate = 1 / m.frameTime)
            ∧ (n = 0 -> m.frameTime = 0)
            ∧ (n ≠ 0 -> exists j,
              j < n ∧ (forall i, i < n -> t (i + 1) - t i ≤ t (j + 1) - t j)
              ∧ m.frameTime ≤ t (j + 1) - t j
              ∧ (m.rate = 0
                ∨ 0 < t (j + 1) - t j ∧ 1 / (t (j + 1) - t j) ≤ m.rate)))
      ∧ (s ≠ 0 -> forall d n,
        0 < d -> (forall i, i < n -> t (i + 1) - t i = d) ->
          (after s t n).frameTime = d * (1 - (1 - 1 / s) ^ n)
            ∧ (1 ≤ s -> (after s t n).frameTime ≤ d
              ∧ forall k,
                k ≤ n -> (after s t k).frameTime ≤ (after s t n).frameTime))
      ∧ (s = 0 -> (forall n, after s t n = .start 0 (t 0))
          ∧ forall (m : RateMeter K) (now : K), m.strength = s ->
            (tick now).perform m = (m, .error .divisionByZero)) := by
  refine ⟨?_, ?_, ?_, ?_⟩
  · intro hs n
    rw [after_eq hs]
    exact ⟨by rw [tick_of_ne hs], rfl, rfl⟩
  · intro hs n forward m
    have hm : m = ⟨s, weighted s t n, t n⟩ :=
      after_eq (zero_lt_one.trans_le hs).ne' t n
    have hnonneg : 0 ≤ m.frameTime := by
      rw [hm]
      exact weighted_nonneg hs forward
    refine ⟨hnonneg, ?_, ?_, fun hn => ?_⟩
    · rcases rate_cases m with ⟨hle, hrate⟩ | hdivides
      · exact .inl ⟨le_antisymm hle hnonneg, hrate⟩
      · exact .inr hdivides
    · rintro rfl
      rfl
    · rcases exists_longest t hn with ⟨j, hj, hlongest⟩
      have hframe : 0 ≤ t (j + 1) - t j := sub_nonneg.mpr (forward j hj)
      have hle : m.frameTime ≤ t (j + 1) - t j := by
        rw [hm]
        exact weighted_le hs hframe hlongest
      exact ⟨j, hj, hlongest, hle, le_rate hle⟩
  · intro hs d n hd constant
    have hall : forall k,
        k ≤ n -> (after s t k).frameTime = d * (1 - (1 - 1 / s) ^ k) := by
      intro k hk
      rw [after_eq hs]
      exact weighted_constant fun i hi => constant i (hi.trans_le hk)
    refine ⟨hall n n.le_refl, fun hone => ?_⟩
    rcases shares hone with ⟨hlatest, hearlier⟩
    have hfall : 1 - 1 / s ≤ 1 := sub_le_self 1 hlatest
    constructor
    · rw [after_eq hs]
      exact weighted_le hone hd.le fun i hi => (constant i hi).le
    · intro k hk
      rw [hall k hk, hall n n.le_refl]
      exact mul_le_mul_of_nonneg_left
        (sub_le_sub_left (pow_le_pow_of_le_one hearlier hfall hk) 1) hd.le
  · rintro rfl
    exact ⟨after_of_zero t, fun m now hm => tick_of_zero hm now⟩

/-- Two ticks a second apart, of a meter of strength two that has been created a
second before: the frame time has come three quarters of the way.  Without a
strength both ticks fail. -/
theorem two_seconds_metered :
    letI := Scalar.reals Real.cos Real.sin
    let t : Nat -> ℝ := fun n => n
    ((tick (t 3)).perform (after 2 t 2)).2 = .ok ()
      ∧ (after 2 t 2).frameTime = 3 / 4
      ∧ (after 2 t 2).last = 2
      ∧ (after 2 t 1).frameTime ≤ (after 2 t 2).frameTime
      ∧ (after 2 t 2).frameTime ≤ 1 ∧ (after 2 t 2).rate = 4 / 3
      ∧ (exists j, j < 2 ∧ (after 2 t 2).frameTime ≤ t (j + 1) - t j)
      ∧ after 0 t 2 = .start 0 (t 0)
      ∧ (tick (t 3)).perform (after 0 t 2) =
        (after 0 t 2, .error .divisionByZero) := by
  let := Scalar.reals Real.cos Real.sin
  have := Scalar.exact_reals Real.cos Real.sin
  intro t
  have hframe : forall i, i < 2 -> t (i + 1) - t i = 1 := by
    intro i _
    simp only [t, Nat.cast_add, Nat.cast_one, add_sub_cancel_left]
  have hforward : forall i, i < 2 -> t i ≤ t (i + 1) := by
    intro i hi
    rw [← sub_nonneg, hframe i hi]
    exact zero_le_one
  rcases weighted_mean_of_frames 2 t with ⟨hmean, hbounds, hconstant, _⟩
  rcases weighted_mean_of_frames 0 t with ⟨_, _, _, hidle⟩
  rcases hmean two_ne_zero 2 with ⟨hserved, _, hlast⟩
  rcases hconstant two_ne_zero 1 2 one_pos hframe with ⟨hclosed, hrises⟩
  rcases hrises one_le_two with ⟨hbelow, hmonotone⟩
  rcases hbounds one_le_two 2 hforward with ⟨_, hrate, _, hlongest⟩
  rcases hlongest two_ne_zero with ⟨j, hj, _, hle, _⟩
  rcases hidle rfl with ⟨hstart, hfails⟩
  have htime : (after 2 t 2).frameTime = 3 / 4 := by
    rw [hclosed]
    norm_num
  have hreciprocal : (after 2 t 2).rate = 4 / 3 := by
    rw [htime] at hrate
    rcases hrate with ⟨hzero, _⟩ | ⟨_, hrate⟩
    · norm_num at hzero
    · rw [hrate]
      norm_num
  refine ⟨hserved, htime, ?_, hmonotone 1 one_le_two, hbelow, hreciprocal,
    ⟨j, hj, hle⟩, hstart 2, ?_⟩
  · rw [hlast]
    norm_num [t]
  · exact hfails (after 0 t 2) (t 3) (congrArg strength (hstart 2))

end RateMeter
end WireView
