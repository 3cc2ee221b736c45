import WireView.Clock.FrameTimer
import WireView.Proofs.Act
import WireView.Proofs.Number.Exact

/-!
# The time that a timer has measured

A timer is ticked and reset in any order, at whatever the clock shows: it may
stand still or go back.  What the timer holds is told by the history of these
calls.  Its fields live for different times: the last reading until the next
call, the time between two readings until the next call, and the rate until the
next tick that takes any time.

A history lists its calls from the newest to the oldest.
-/

namespace WireView
namespace FrameTimer

inductive Stamp (α : Type) where
  | reset (now : α)
  | tick (now : α)

def Stamp.now {α : Type} : Stamp α -> α
  | .reset now => now
  | .tick now => now

/-!
# Reading a history
-/

section histories

variable {α : Type}

def lastReading (created : α) : List (Stamp α) -> α
  | [] => created
  | c :: _ => c.now

def resetReading (created : α) : List (Stamp α) -> α
  | [] => created
  | .reset now :: _ => now
  | .tick _ :: earlier => resetReading created earlier

variable [OfNat α 0] [OfNat α 1] [Sub α] [Div α] [LT α] [DecidableLT α]

def after (created : α) : List (Stamp α) -> FrameTimer α
  | [] => .start created
  | .reset now :: earlier => (after created earlier).reset now
  | .tick now :: earlier => (after created earlier).tick now

/-- A tick in its steps, with what it gives.  The rate is worked out after the
rest has changed, by a division that a zero would make fail. -/
def ticking [Scalar α] (now : α) : Act (FrameTimer α) α := do
  modify fun t => { t with last := now, delta := now - t.last }
  let t ← get
  if 0 < t.delta then
    let rate ← Act.ofResult (Scalar.divide? 1 t.delta)
    set { t with rate := rate }
  pure t.delta

def given [Scalar α] (created : α) : List (Stamp α) -> List α
  | [] => []
  | .reset _ :: earlier => given created earlier
  | .tick now :: earlier =>
      match ((ticking now).perform (after created earlier)).2 with
      | .ok delta => delta :: given created earlier
      | .error _ => given created earlier

def givenSinceReset [Scalar α] (created : α) : List (Stamp α) -> List α
  | [] => []
  | .reset _ :: _ => []
  | .tick now :: earlier =>
      match ((ticking now).perform (after created earlier)).2 with
      | .ok delta => delta :: givenSinceReset created earlier
      | .error _ => givenSinceReset created earlier

end histories

/-!
# What the fields hold
-/

section exact

variable {K : Type} [Field K] [LinearOrder K]
variable {created : K} {history : List (Stamp K)}

theorem last_after (created : K) (history : List (Stamp K)) :
    (after created history).last = lastReading created history := by
  cases history with
  | nil => rfl
  | cons c earlier => cases c <;> rfl

variable [Scalar K] [Scalar.Exact K]

theorem perform_ticking (t : FrameTimer K) (now : K) :
    (ticking now).perform t = (t.tick now, .ok (now - t.last)) := by
  unfold ticking tick
  simp only [Act.perform_bind, Act.perform_modify, Act.perform_get]
  by_cases hpos : 0 < now - t.last
  · rw [if_pos hpos, if_pos hpos]
    simp only [Act.perform_bind, Scalar.divide?_of_ne hpos.ne',
      Act.perform_ofResult, Act.perform_set, Act.perform_pure]
  · rw [if_neg hpos, if_neg hpos]
    rfl

omit [Scalar.Exact K] in
@[simp] theorem given_nil (created : K) : given created [] = [] := rfl

omit [Scalar.Exact K] in
@[simp] theorem given_reset (created now : K) (earlier : List (Stamp K)) :
    given created (.reset now :: earlier) = given created earlier := rfl

theorem given_tick (now : K) (earlier : List (Stamp K)) :
    given created (.tick now :: earlier)
      = (now - lastReading created earlier) :: given created earlier := by
  rw [given, perform_ticking, last_after]

theorem givenSinceReset_tick (now : K) (earlier : List (Stamp K)) :
    givenSinceReset created (.tick now :: earlier)
      = (now - lastReading created earlier) ::
        givenSinceReset created earlier := by
  rw [givenSinceReset, perform_ticking, last_after]

theorem sum_givenSinceReset (created : K) (history : List (Stamp K)) :
    (givenSinceReset created history).sum
      = lastReading created history - resetReading created history := by
  induction history with
  | nil => exact (sub_self created).symm
  | cons c earlier ih =>
      cases c with
      | reset now => exact (sub_self now).symm
      | tick now =>
          rw [givenSinceReset_tick, List.sum_cons, ih]
          exact sub_add_sub_cancel now _ _

theorem delta_after (created : K) (history : List (Stamp K)) :
    (after created history).delta =
      (givenSinceReset created history).head?.getD 0 := by
  cases history with
  | nil => rfl
  | cons c earlier =>
      cases c with
      | reset now => rfl
      | tick now =>
          rw [givenSinceReset_tick, ← last_after]
          rfl

theorem rate_after (created : K) (history : List (Stamp K)) :
    (after created history).rate
      = (((given created history).find? fun d => decide (0 < d)).map fun d =>
        1 / d).getD 0 := by
  induction history with
  | nil => rfl
  | cons c earlier ih =>
      cases c with
      | reset now => exact ih
      | tick now =>
          rw [given_tick, ← last_after]
          show (if 0 < now - (after created earlier).last then _ else
            (after created earlier).rate) = _
          by_cases hpos : 0 < now - (after created earlier).last
          · rw [if_pos hpos]
            simp only [List.find?_cons, decide_eq_true hpos, Option.map_some,
              Option.getD_some]
          · rw [if_neg hpos]
            simp only [List.find?_cons, decide_eq_false hpos]
            exact ih

/-- After any calls the timer holds the latest reading.  What the ticks since
the last reset have given adds up to the time from that reset to the latest
reading; the latest of it is the time that the timer holds, which is none if
there was no tick.  The rate is the reciprocal of the latest time that any tick
has given and that was positive, across resets and across ticks that took no
time or less; if there was none it is zero.  No tick fails: it gives the time
since the latest reading, and divides by nothing that is not positive. -/
theorem timer_of_history (created : K) (history : List (Stamp K)) :
    let t := after created history
    t.last = lastReading created history
      ∧ (givenSinceReset created history).sum =
        t.last - resetReading created history
      ∧ t.delta = (givenSinceReset created history).head?.getD 0
      ∧ t.rate =
        (((given created history).find? fun d => decide (0 < d)).map fun d =>
          1 / d).getD 0
      ∧ forall now,
        (ticking now).perform t = (t.tick now, .ok (now - t.last)) := by
  intro t
  have hlast : t.last = lastReading created history :=
    last_after created history
  refine ⟨hlast, ?_, delta_after created history, rate_after created history,
    perform_ticking t⟩
  rw [hlast]
  exact sum_givenSinceReset created history

end exact

/-- A clock that stands still and goes back: the rate is still that of the first
tick, which took two seconds, although the timer has been reset since and has
measured minus four seconds since then. -/
theorem rate_outlives_reset :
    letI := Scalar.reals Real.cos Real.sin
    let history : List (Stamp ℝ) :=
      [.tick 16, .tick 17, .reset 20, .tick 12, .tick 12]
    let t := after 10 history
    t.last = 16 ∧ (givenSinceReset 10 history).sum = -4 ∧ t.delta = -1
      ∧ t.rate = 1 / 2
      ∧ (ticking 16).perform t = (t.tick 16, .ok 0) := by
  let := Scalar.reals Real.cos Real.sin
  have := Scalar.exact_reals Real.cos Real.sin
  intro history t
  rcases timer_of_history (10 : ℝ) history with
    ⟨hlast, hsum, hdelta, hrate, hticks⟩
  have hlast' : t.last = 16 := hlast
  have hgiven : given 10 history = [16 - 17, 17 - 20, 12 - 12, 12 - 10] := by
    simp only [history, given_tick, given_reset, given_nil, lastReading,
      Stamp.now]
  refine ⟨hlast', ?_, ?_, ?_, ?_⟩
  · rw [hsum]
    show t.last - 20 = -4
    rw [hlast']
    norm_num
  · show t.delta = -1
    rw [hdelta]
    simp only [history, givenSinceReset_tick, lastReading, Stamp.now,
      List.head?_cons, Option.getD_some]
    norm_num
  · show t.rate = 1 / 2
    rw [hrate, hgiven]
    norm_num
  · show (ticking 16).perform t = _
    rw [hticks, hlast', sub_self]

end FrameTimer
end WireView
