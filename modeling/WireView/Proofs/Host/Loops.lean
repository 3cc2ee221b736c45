import Mathlib.Logic.Function.Basic
import WireView.Host.Machine

/-!
# The loops of a host

Of a viewer only its loop matters to its ticks and keys, of a window only its
queue and its registry.  Most of what a host does leaves these alone; what does
not is listed here with the change that it makes.
-/

namespace WireView

open Reentrant

theorem LoopState.idle_of_ne {s : LoopState} (h : s ≠ .running) :
    s = .idle := by
  cases s with
  | idle => rfl
  | running => exact absurd rfl h

theorem LoopState.running_of_ne {s : LoopState} (h : s ≠ .idle) :
    s = .running := by
  cases s with
  | idle => exact absurd rfl h
  | running => rfl

structure Loop where
  window : Nat
  state : LoopState
  tickHandle : Option Nat
  isListening : Bool
  isClosed : Bool

structure Rack (K : Type) where
  queue : FrameQueue (Callback K)
  registry : Registry (Listener K)

/-- The loops of all viewers, and what they are hung up on. -/
structure Loops (K : Type) where
  loop : Nat -> Option Loop
  rack : Nat -> Option (Rack K)

variable {K L : Type}

def Viewer.loop (v : Viewer K L) : Loop :=
  ⟨v.window, v.state, v.tickHandle, v.isListening, v.isClosed⟩

def Window.rack (w : Window K) : Rack K :=
  ⟨w.queue, w.registry⟩

def Host.loops (h : Host K L) : Loops K where
  loop g := (h.viewers[g]?).map Viewer.loop
  rack a := (h.windows[a]?).map Window.rack

namespace Loops

def setLoop (s : Loops K) (g : Nat) (l : Loop) : Loops K :=
  { s with loop := Function.update s.loop g (some l) }

def setRack (s : Loops K) (a : Nat) (r : Rack K) : Loops K :=
  { s with rack := Function.update s.rack a (some r) }

theorem setLoop_loop (s : Loops K) (g i : Nat) (l : Loop) :
    (s.setLoop g l).loop i = if i = g then some l else s.loop i :=
  Function.update_apply s.loop g (some l) i

theorem setRack_rack (s : Loops K) (a i : Nat) (r : Rack K) :
    (s.setRack a r).rack i = if i = a then some r else s.rack i :=
  Function.update_apply s.rack a (some r) i

end Loops

namespace Host

/-!
# Changes of one viewer or window
-/

theorem loops_loop {h : Host K L} {g : Nat} {v : Viewer K L}
    (hv : h.viewers[g]? = some v) :
    h.loops.loop g = some v.loop := by
  simp [loops, hv]

theorem loops_rack {h : Host K L} {a : Nat} {w : Window K}
    (hw : h.windows[a]? = some w) :
    h.loops.rack a = some w.rack := by
  simp [loops, hw]

theorem loops_onViewer {h : Host K L} {g : Nat} {v : Viewer K L}
    (hv : h.viewers[g]? = some v) (f : Viewer K L -> Viewer K L) :
    (h.onViewer g f).loops = h.loops.setLoop g (f v).loop := by
  unfold loops onViewer Loops.setLoop
  congr 1
  funext i
  rw [Array.getElem?_modify, Function.update_apply]
  by_cases hi : i = g
  · subst hi
    simp [hv]
  · rw [if_neg hi, if_neg (Ne.symm hi)]

theorem loops_onWindow {h : Host K L} {a : Nat} {w : Window K}
    (hw : h.windows[a]? = some w) (f : Window K -> Window K) :
    (h.onWindow a f).loops = h.loops.setRack a (f w).rack := by
  unfold loops onWindow Loops.setRack
  congr 1
  funext i
  rw [Array.getElem?_modify, Function.update_apply]
  by_cases hi : i = a
  · subst hi
    simp [hw]
  · rw [if_neg hi, if_neg (Ne.symm hi)]

theorem loops_onViewer_same {f : Viewer K L -> Viewer K L}
    (hf : forall v, (f v).loop = v.loop) (h : Host K L) (g : Nat) :
    (h.onViewer g f).loops = h.loops := by
  unfold loops onViewer
  congr 1
  funext i
  rw [Array.getElem?_modify]
  by_cases hi : g = i
  · rw [if_pos hi, Option.map_map]
    exact congrFun (congrArg Option.map (funext hf)) _
  · rw [if_neg hi]

theorem loops_onWindow_same {f : Window K -> Window K}
    (hf : forall w, (f w).rack = w.rack) (h : Host K L) (a : Nat) :
    (h.onWindow a f).loops = h.loops := by
  unfold loops onWindow
  congr 1
  funext i
  rw [Array.getElem?_modify]
  by_cases hi : a = i
  · rw [if_pos hi, Option.map_map]
    exact congrFun (congrArg Option.map (funext hf)) _
  · rw [if_neg hi]

theorem onWindow_absent {h : Host K L} {a : Nat} (hw : h.windows[a]? = none)
    (f : Window K -> Window K) : h.onWindow a f = h := by
  unfold onWindow
  have hsame : h.windows.modify a f = h.windows := by
    apply Array.ext_getElem?
    intro i
    rw [Array.getElem?_modify]
    by_cases hi : a = i
    · subst hi
      simp [hw]
    · rw [if_neg hi]
  rw [hsame]

theorem loops_onLoop {h : Host K L} {g : Nat} {v : Viewer K L} {w : Window K}
    (hv : h.viewers[g]? = some v) (hw : h.windows[v.window]? = some w)
    (f : Viewer K L -> Window K -> Viewer K L × Window K) :
    (h.onLoop g f).loops =
      (h.loops.setLoop g (f v w).1.loop).setRack v.window (f v w).2.rack := by
  unfold onLoop
  simp only [hv, hw]
  have hw' : (h.onViewer g fun _ => (f v w).1).windows[v.window]? = some w := hw
  rw [loops_onWindow hw', loops_onViewer hv]

theorem loop_onViewer_of_ne {h : Host K L} {f : Viewer K L -> Viewer K L}
    {g i : Nat} (hg : g ≠ i) :
    (h.onViewer i f).loops.loop g = h.loops.loop g := by
  unfold onViewer loops
  show Option.map Viewer.loop (h.viewers.modify i f)[g]? = _
  rw [Array.getElem?_modify, if_neg (Ne.symm hg)]

theorem loop_onLoop {h : Host K L}
    {f : Viewer K L -> Window K -> Viewer K L × Window K} {g i : Nat} {l : Loop}
    (hl : (h.onLoop i f).loops.loop g = some l) :
    h.loops.loop g = some l
      ∨ g = i ∧ exists v w,
        h.viewers[g]? = some v ∧ h.windows[v.window]? = some w
        ∧ l = (f v w).1.loop := by
  cases hv : h.viewers[i]? with
  | none =>
      have hsame : h.onLoop i f = h := by
        simp [onLoop, hv]
      rw [hsame] at hl
      exact .inl hl
  | some v =>
      cases hw : h.windows[v.window]? with
      | none =>
          have hsame : h.onLoop i f = h := by
            simp [onLoop, hv, hw]
          rw [hsame] at hl
          exact .inl hl
      | some w =>
          rw [loops_onLoop hv hw] at hl
          have hset : (h.loops.setLoop i (f v w).1.loop).loop g = some l := hl
          rw [Loops.setLoop_loop] at hset
          split at hset
          · rename_i hg
            subst hg
            cases hset
            exact .inr ⟨rfl, v, w, hv, hw, rfl⟩
          · exact .inl hset

end Host
end WireView
