import Mathlib.Data.Int.Cast.Lemmas
import WireView.Proofs.Host.Refinement

/-!
# What a history of keys comes to

A spin takes setups, keys and updates in any order.  What its intents are is
told by the history alone: each is what the last event on its axis since the
last setup has made of it.  In exact arithmetic the angles are told too: each is
the step as often as the intents at the updates since the last setup have added
to it.

A history lists its calls from the newest to the oldest.
-/

namespace WireView

/-!
# Reading a history
-/

namespace Axis

def direction? : Axis -> String -> Option Int
  | .horizontal, "ArrowLeft" => some (-1)
  | .horizontal, "ArrowRight" => some 1
  | .vertical, "ArrowDown" => some (-1)
  | .vertical, "ArrowUp" => some 1
  | _, _ => none

def told? (a : Axis) : Call -> Option Int
  | .key .down key => a.direction? key
  | .key .up key => (a.direction? key).map fun _ => 0
  | _ => none

end Axis

namespace Call

def sinceSetUp : List Call -> List Call
  | [] => []
  | .setUp :: _ => []
  | c :: earlier => c :: sinceSetUp earlier

end Call

/-- What the last event on an axis since the last setup says about it; at first
it is at rest. -/
def Axis.held (a : Axis) (history : List Call) : Int :=
  ((Call.sinceSetUp history).findSome? a.told?).getD 0

namespace Call

def updates : List Call -> List (Int × Int)
  | [] => []
  | .setUp :: _ => []
  | .update :: earlier =>
      (Axis.horizontal.held earlier, Axis.vertical.held earlier) ::
        updates earlier
  | .key _ _ :: earlier => updates earlier

end Call

namespace Axis

variable (a : Axis)

theorem held_setUp (earlier : List Call) : a.held (.setUp :: earlier) = 0 := rfl

theorem held_update (earlier : List Call) :
    a.held (.update :: earlier) = a.held earlier :=
  rfl

theorem held_key (motion : KeyMotion) (key : String) (earlier : List Call) :
    a.held (.key motion key :: earlier)
      = (a.told? (.key motion key)).getD (a.held earlier) := by
  unfold held
  rw [Call.sinceSetUp, List.findSome?_cons]
  · cases a.told? (.key motion key) <;> rfl
  · exact nofun

theorem direction?_eq (key : String) :
    a.direction? key
      = (ControlKey.ofName? key).bind fun k =>
        if k.axis = a then some k.press.sign else none := by
  cases hkey : ControlKey.ofName? key with
  | some k =>
      have hname : k.name = key := by
        have found := List.find?_some hkey
        exact eq_of_beq found
      subst hname
      cases k <;> cases a <;> rfl
  | none =>
      show a.direction? key = none
      unfold direction?
      split
      · exact absurd hkey (by decide)
      · exact absurd hkey (by decide)
      · exact absurd hkey (by decide)
      · exact absurd hkey (by decide)
      · rfl

end Axis

def Call.isControl : Call -> Bool
  | .key _ name =>
      (Axis.horizontal.direction? name).isSome ||
        (Axis.vertical.direction? name).isSome
  | _ => false

theorem Call.isControl_key (motion : KeyMotion) (key : String) :
    (Call.key motion key).isControl = (ControlKey.ofName? key).isSome := by
  simp only [isControl, Axis.direction?_eq]
  cases ControlKey.ofName? key with
  | none => rfl
  | some k => cases k <;> rfl

/-!
# What a call does
-/

def Intents.along (i : Intents) : Axis -> Intent
  | .horizontal => i.x
  | .vertical => i.y

theorem Intents.along_set (i : Intents) (a b : Axis) (v : Intent) :
    (i.set b v).along a = if b = a then v else i.along a := by
  cases a <;> cases b <;> rfl

theorem Intent.sign_injective : Function.Injective Intent.sign := by
  intro v w h
  cases v <;> cases w <;> first | rfl | cases h

theorem Intent.sign_eq_zero_iff (v : Intent) : v.sign = 0 ↔ v = .rest := by
  cases v <;> decide

namespace Spin

section Calls

variable {α : Type} [OfNat α 0] [OfNat α 1] [Neg α] [Mul α] [Add α]

def hear (s : Spin α) : Call -> Spin α
  | .setUp => s.reset
  | .key .down key => (s.keyDown key).1
  | .key .up key => (s.keyUp key).1
  | .update => s.update

theorem receive_eq_hear (s : Spin Float) (c : Call) :
    s.receive c = s.hear c := by
  cases c with
  | setUp => rfl
  | key motion key => cases motion <;> rfl
  | update => rfl

/-- What a new spin makes of a history. -/
def after (step : α) : List Call -> Spin α
  | [] => .start step
  | c :: earlier => (after step earlier).hear c

theorem update_eq (s : Spin α) :
    s.update = { s with rotation := s.update.rotation } := by
  unfold update
  dsimp only
  split
  · rfl
  · split
    · rfl
    · split
      · rfl
      · rfl

theorem hear_key_eq (s : Spin α) (motion : KeyMotion) (key : String) :
    s.hear (.key motion key) =
      { s with intents := (s.hear (.key motion key)).intents } := by
  cases motion with
  | down =>
      simp only [hear, keyDown]
      cases ControlKey.ofName? key <;> rfl
  | up =>
      simp only [hear, keyUp]
      cases ControlKey.ofName? key <;> rfl

theorem rotation_hear_key (s : Spin α) (motion : KeyMotion) (key : String) :
    (s.hear (.key motion key)).rotation = s.rotation := by
  rw [hear_key_eq]

theorem sign_hear_key (s : Spin α) (motion : KeyMotion) (key : String)
    (a : Axis) :
    ((s.hear (.key motion key)).intents.along a).sign
      = (a.told? (.key motion key)).getD (s.intents.along a).sign := by
  cases motion with
  | down =>
      simp only [hear, keyDown, Axis.told?, Axis.direction?_eq]
      cases ControlKey.ofName? key with
      | none => rfl
      | some k =>
          simp only [Intents.along_set, Option.bind_some]
          split
          · rfl
          · rfl
  | up =>
      simp only [hear, keyUp, Axis.told?, Axis.direction?_eq]
      cases ControlKey.ofName? key with
      | none => rfl
      | some k =>
          simp only [Intents.along_set, Option.bind_some]
          split
          · rfl
          · rfl

theorem along_hear_key (s : Spin α) (motion : KeyMotion) {key : String}
    {a : Axis} (foreign : a.direction? key = none) :
    (s.hear (.key motion key)).intents.along a = s.intents.along a := by
  apply Intent.sign_injective
  rw [sign_hear_key]
  cases motion with
  | down => rw [Axis.told?, foreign, Option.getD_none]
  | up => rw [Axis.told?, foreign, Option.map_none, Option.getD_none]

theorem hear_key_of_not_control (s : Spin α) (motion : KeyMotion) {key : String}
    (foreign : (Call.key motion key).isControl = false) :
    s.hear (.key motion key) = s := by
  have hforeign :
      Axis.horizontal.direction? key = none
        ∧ Axis.vertical.direction? key = none := by
    simpa [Call.isControl] using foreign
  have hx : (s.hear (.key motion key)).intents.x = s.intents.x :=
    along_hear_key s motion hforeign.1
  have hy : (s.hear (.key motion key)).intents.y = s.intents.y :=
    along_hear_key s motion hforeign.2
  have hintents : (s.hear (.key motion key)).intents = s.intents := by
    rw [show (s.hear (.key motion key)).intents = ⟨_, _⟩ from rfl, hx, hy]
  rw [hear_key_eq, hintents]

theorem step_hear (s : Spin α) (c : Call) : (s.hear c).step = s.step := by
  cases c with
  | setUp => rfl
  | key motion key => rw [hear_key_eq]
  | update =>
      show s.update.step = s.step
      rw [update_eq]

theorem step_after (step : α) (history : List Call) :
    (after step history).step = step := by
  induction history with
  | nil => rfl
  | cons c earlier ih => exact (step_hear _ c).trans ih

theorem sign_after (step : α) (history : List Call) (a : Axis) :
    ((after step history).intents.along a).sign = a.held history := by
  induction history with
  | nil => cases a <;> rfl
  | cons c earlier ih =>
      cases c with
      | setUp =>
          rw [Axis.held_setUp]
          cases a <;> rfl
      | key motion key =>
          rw [after, sign_hear_key, ih, Axis.held_key]
      | update =>
          show ((after step earlier).update.intents.along a).sign = _
          rw [update_eq, Axis.held_update]
          exact ih

end Calls

end Spin

/-!
# Angles
-/

namespace Call

def sumOver (kind : Int × Int -> Bool) (share : Int × Int -> Int)
    (history : List Call) : Int :=
  (((updates history).filter kind).map share).sum

/-- How far a history has turned about each axis, in steps: about the first one
while only the horizontal intent was held, about the second one while only the
vertical intent was, and about the third one by the vertical intent while both
were. -/
def turns (history : List Call) : Rotation Int where
  rx := sumOver (fun p => p.1 ≠ 0 ∧ p.2 = 0) Prod.fst history
  ry := sumOver (fun p => p.1 = 0 ∧ p.2 ≠ 0) Prod.snd history
  rz := sumOver (fun p => p.1 ≠ 0 ∧ p.2 ≠ 0) Prod.snd history

theorem sumOver_update (kind : Int × Int -> Bool) (share : Int × Int -> Int)
    (earlier : List Call) :
    sumOver kind share (.update :: earlier)
      = sumOver kind share earlier
        + let p := (Axis.horizontal.held earlier, Axis.vertical.held earlier)
          if kind p then share p else 0 := by
  unfold sumOver
  rw [updates, List.filter_cons]
  dsimp only
  split
  · rw [List.map_cons, List.sum_cons, add_comm]
  · rw [add_zero]

end Call

/-- One angle is a step further or a step back, and the other two are the
same. -/
inductive Rotation.Nudged {R : Type} [Ring R] (step : R) :
    Rotation R -> Rotation R -> Prop where
  | first (r : Rotation R) (n : Int) (unit : n = 1 ∨ n = -1) :
      Nudged step r { r with rx := r.rx + step * n }
  | second (r : Rotation R) (n : Int) (unit : n = 1 ∨ n = -1) :
      Nudged step r { r with ry := r.ry + step * n }
  | third (r : Rotation R) (n : Int) (unit : n = 1 ∨ n = -1) :
      Nudged step r { r with rz := r.rz + step * n }

section Exact

variable {R : Type} [Ring R]

theorem Intent.scale_eq (step : R) (v : Intent) :
    v.scale step = step * (v.sign : R) := by
  cases v with
  | backward => simp [scale, sign]
  | rest => simp [scale, sign]
  | forward => simp [scale, sign]

theorem Intent.unit_of_ne {v : Intent} (h : v ≠ .rest) :
    v.sign = 1 ∨ v.sign = -1 := by
  cases v with
  | backward => exact .inr rfl
  | rest => exact absurd rfl h
  | forward => exact .inl rfl

namespace Spin

theorem rotation_update (s : Spin R) :
    let x := s.intents.x.sign
    let y := s.intents.y.sign
    s.update.rotation =
      ⟨s.rotation.rx + s.step * ((if x ≠ 0 ∧ y = 0 then x else 0 : Int) : R),
        s.rotation.ry + s.step * ((if x = 0 ∧ y ≠ 0 then y else 0 : Int) : R),
        s.rotation.rz + s.step *
          ((if x ≠ 0 ∧ y ≠ 0 then y else 0 : Int) : R)⟩ := by
  intro x y
  have hx : x = 0 ↔ s.intents.x = .rest := s.intents.x.sign_eq_zero_iff
  have hy : y = 0 ↔ s.intents.y = .rest := s.intents.y.sign_eq_zero_iff
  unfold update
  simp only [ne_eq, hx, hy, Intent.scale_eq]
  by_cases hx' : s.intents.x = .rest
  · by_cases hy' : s.intents.y = .rest
    · simp [hx', hy']
    · simp [hx', hy', y]
  · by_cases hy' : s.intents.y = .rest
    · simp [hx', hy', x]
    · simp [hx', hy', y]

theorem update_nudges (s : Spin R) :
    s.intents = {} ∧ s.update = s
      ∨ s.intents ≠ {} ∧ s.rotation.Nudged s.step s.update.rotation := by
  unfold update
  simp only [Intent.scale_eq]
  by_cases hx : s.intents.x = .rest
  · by_cases hy : s.intents.y = .rest
    · left
      have hrest : s.intents = {} := by
        rcases hi : s.intents with ⟨x, y⟩
        rw [hi] at hx hy
        rw [show x = .rest from hx, show y = .rest from hy]
      rw [hrest]
      exact ⟨rfl, rfl⟩
    · right
      refine ⟨fun h => hy (congrArg Intents.y h), ?_⟩
      simp only [hx, hy, ne_eq, not_true, false_and, if_false,
        not_false_eq_true, if_true]
      exact .second _ _ (Intent.unit_of_ne hy)
  · right
    refine ⟨fun h => hx (congrArg Intents.x h), ?_⟩
    by_cases hy : s.intents.y = .rest
    · simp only [hx, hy, ne_eq, not_true, and_false, if_false,
        not_false_eq_true, if_true]
      exact .first _ _ (Intent.unit_of_ne hx)
    · simp only [hx, hy, ne_eq, not_false_eq_true, and_self, if_true]
      exact .third _ _ (Intent.unit_of_ne hy)

theorem rotation_after (step : R) (history : List Call) :
    (after step history).rotation
      = ⟨step * ((Call.turns history).rx : R),
        step * ((Call.turns history).ry : R),
          step * ((Call.turns history).rz : R)⟩ := by
  induction history with
  | nil =>
      simp [after, start, Rotation.zero, Call.turns, Call.sumOver, Call.updates]
  | cons c earlier ih =>
      cases c with
      | setUp =>
          simp [after, hear, reset, Rotation.zero, Call.turns, Call.sumOver,
            Call.updates]
      | key motion key =>
          rw [after, hear_key_eq]
          exact ih
      | update =>
          have hx := sign_after step earlier .horizontal
          have hy := sign_after step earlier .vertical
          rw [after, hear, rotation_update, ih, step_after]
          unfold Call.turns
          simp only [Call.sumOver_update, decide_eq_true_eq]
          rw [show (after step earlier).intents.x.sign = _ from hx,
            show (after step earlier).intents.y.sign = _ from hy]
          simp only [Int.cast_add, mul_add]

end Spin
end Exact

/-!
# The logic that spins a cube
-/

namespace Logic

def answer (now : Float) : Call -> Act Logic Bool
  | .setUp => do
      let _ ← LoopLogic.setUp (L := Logic) now
      pure false
  | .key .down key => LoopLogic.keyDown key
  | .key .up key => LoopLogic.keyUp key
  | .update => do
      LoopLogic.update (L := Logic) now
      pure false

/-- Lets a logic have the calls of a history, each at its reading of the
clock. -/
def answerAll : List (Float × Call) -> Act Logic Unit
  | [] => pure ()
  | (now, c) :: earlier => do
      answerAll earlier
      let _ ← answer now c

theorem perform_answer (now : Float) (scene : CubeShow) (c : Call) :
    (answer now c).perform (.cube scene)
      = (.cube { scene with spin := scene.spin.hear c }, .ok c.isControl) := by
  rw [← Spin.receive_eq_hear]
  cases c with
  | setUp => rfl
  | update => rfl
  | key motion key =>
      rw [Call.isControl_key, ← scene.spin.onKey_acts motion key]
      cases motion with
      | down => rfl
      | up => rfl

theorem perform_answerAll (model : Wireframe Float) (step : Float)
    (history : List (Float × Call)) :
    (answerAll history).perform (.cube (.start model step))
      = (.cube ⟨model, .after step (history.map Prod.snd)⟩, .ok ()) := by
  induction history with
  | nil => rfl
  | cons moment earlier ih =>
      rw [answerAll, Act.perform_bind, ih]
      dsimp only
      rw [Act.perform_bind, perform_answer]
      rfl

end Logic

/-- On a viewer that shows a cube, just the control keys have their default
prevented. -/
theorem Host.acted_pressLogic {K : Type} {h : Host K Logic} {g : Nat}
    {v : Viewer K Logic} {scene : CubeShow} (viewer : h.viewers[g]? = some v)
    (shows : v.logic = .cube scene) (motion : KeyMotion) (e : KeyEvent)
    (n : Nat) :
    (pressLogic g motion e n h).2 = .ok ()
      ∧ (pressLogic g motion e n h).1.prevented =
        if (Call.key motion e.key).isControl then (h.prevent n).prevented
        else h.prevented := by
  have hanswer := Logic.perform_answer 0 scene (.key motion e.key)
  have hacted : forall act : Act Logic Bool,
      act.perform (.cube scene) =
        (.cube { scene with spin := scene.spin.hear (.key motion e.key) },
          .ok (Call.key motion e.key).isControl) ->
      (afterKey n ((h.note (.key g (h.latest n e))).onLogic g v act)).2 = .ok ()
        ∧ (afterKey n
          ((h.note (.key g (h.latest n e))).onLogic g v act)).1.prevented =
          if (Call.key motion e.key).isControl then (h.prevent n).prevented
          else h.prevented := by
    intro act hact
    unfold Host.onLogic
    rw [shows, hact]
    cases (Call.key motion e.key).isControl with
    | false => exact ⟨rfl, rfl⟩
    | true => exact ⟨rfl, rfl⟩
  unfold pressLogic
  rw [viewer]
  cases motion with
  | down => exact hacted _ hanswer
  | up => exact hacted _ hanswer

namespace Spin

/-- Whatever has been pressed, released, updated and set up, and in whatever
order: each intent is where the last event on its axis since the last setup
points, and each angle is the step as often as the updates since then have
turned about its axis.  An update turns about one axis at most, and by one step.
A key of one axis leaves the other one alone, and any other key changes nothing.
The logic that spins a cube is such a spin, whatever it shows and however the
clock goes, and a viewer with such a logic prevents the default of just the
control keys. -/
theorem history_determines_spin :
    (forall {R : Type} [Ring R] (step : R) (history : List Call),
      let s := after step history
      s.step = step
        ∧ s.intents.x.sign = Axis.horizontal.held history
        ∧ s.intents.y.sign = Axis.vertical.held history
        ∧ s.rotation.rx = step * ((Call.turns history).rx : R)
        ∧ s.rotation.ry = step * ((Call.turns history).ry : R)
        ∧ s.rotation.rz = step * ((Call.turns history).rz : R)
        ∧ (s.intents = {} ∧ s.update = s
          ∨ s.intents ≠ {} ∧ s.rotation.Nudged step s.update.rotation))
      ∧ (forall {R : Type} [Ring R] (s : Spin R) (motion : KeyMotion)
          (key : String),
        let t := s.hear (.key motion key)
        t.step = s.step ∧ t.rotation = s.rotation
          ∧ (Axis.horizontal.direction? key = none -> t.intents.x = s.intents.x)
          ∧ (Axis.vertical.direction? key = none -> t.intents.y = s.intents.y)
          ∧ ((Call.key motion key).isControl = false -> t = s))
      ∧ (forall (model : Wireframe Float) (step : Float)
          (history : List (Float × Call)),
        let calls := history.map Prod.snd
        let s := after step calls
        (Logic.answerAll history).perform (.cube (.start model step)) =
          (.cube ⟨model, s⟩, .ok ())
          ∧ s.step = step
          ∧ s.intents.x.sign = Axis.horizontal.held calls
          ∧ s.intents.y.sign = Axis.vertical.held calls
          ∧ forall now motion key,
            (Logic.answer now (.key motion key)).perform (.cube ⟨model, s⟩)
                = (.cube ⟨model, s.hear (.key motion key)⟩,
                  .ok (Call.key motion key).isControl)
              ∧ ((Call.key motion key).isControl = false ->
                s.hear (.key motion key) = s))
      ∧ forall {K : Type} {h : Host K Logic} {g : Nat} {v : Viewer K Logic}
          {scene : CubeShow},
        h.viewers[g]? = some v -> v.logic = .cube scene ->
          forall (motion : KeyMotion) (e : KeyEvent) (n : Nat),
            (Host.pressLogic g motion e n h).2 = .ok ()
              ∧ (Host.pressLogic g motion e n h).1.prevented =
                if (Call.key motion e.key).isControl then
                  (h.prevent n).prevented
                else h.prevented := by
  refine ⟨?_, ?_, ?_, Host.acted_pressLogic⟩
  · intro R _ step history s
    have hrotation := rotation_after step history
    have hnudged := update_nudges s
    rw [show s.step = step from step_after step history] at hnudged
    refine ⟨step_after step history, sign_after step history .horizontal,
      sign_after step history .vertical, ?_, ?_, ?_, hnudged⟩
    · exact congrArg Rotation.rx hrotation
    · exact congrArg Rotation.ry hrotation
    · exact congrArg Rotation.rz hrotation
  · intro R _ s motion key t
    exact ⟨step_hear s _, rotation_hear_key s motion key,
      along_hear_key s motion (a := .horizontal),
      along_hear_key s motion (a := .vertical),
      hear_key_of_not_control s motion⟩
  · intro model step history calls s
    refine ⟨Logic.perform_answerAll model step history, step_after step calls,
      sign_after step calls .horizontal, sign_after step calls .vertical, ?_⟩
    intro now motion key
    exact ⟨Logic.perform_answer now ⟨model, s⟩ (.key motion key),
      hear_key_of_not_control s motion⟩

/-- The right arrow is pressed while the left one is held, and the release of
the left one ends the intent of the right one; then up is pressed, and left
again. -/
def rollOver : List Call :=
  [.update, .key .down "ArrowLeft", .key .up "a", .update, .key .down "ArrowUp",
    .update, .key .up "ArrowLeft", .update, .key .down "ArrowRight",
    .key .down "ArrowLeft", .setUp, .update, .key .down "ArrowDown"]

/-- The one update with right alone, the one with up alone and the one with left
and up count; those at rest and the one before the setup do not. -/
theorem angles_of_rollOver :
    let s := after (7 : Int) rollOver
    s.intents.signs = [-1, 1] ∧ s.rotation = ⟨7, 7, 7⟩
      ∧ (s.hear (.key .up "ArrowDown")).intents.x = s.intents.x
      ∧ s.hear (.key .down "Escape") = s
      ∧ (let sent : Host String Logic :=
          { Host.oneViewer .standard with prevented := #[false] }
        (Host.pressLogic 0 .down ⟨.down, "Escape", false⟩ 0 sent).1.prevented =
          #[false]
          ∧ (Host.pressLogic 0 .down ⟨.down, "ArrowUp", false⟩ 0
            sent).1.prevented
            = #[true]) := by
  intro s
  rcases history_determines_spin with ⟨hhistory, hkey, _, hprevents⟩
  rcases hhistory (7 : Int) rollOver with ⟨_, hx, hy, hrx, hry, hrz, _⟩
  refine ⟨?_, ?_, (hkey s .up "ArrowDown").2.2.1 rfl,
    (hkey s .down "Escape").2.2.2.2 rfl, (hprevents rfl rfl .down _ 0).2,
    (hprevents rfl rfl .down _ 0).2⟩
  · show [s.intents.x.sign, s.intents.y.sign] = _
    rw [hx, hy]
    decide
  · show (⟨s.rotation.rx, s.rotation.ry, s.rotation.rz⟩ : Rotation Int) = _
    rw [hrx, hry, hrz]
    decide

end Spin
end WireView
