import WireView.Proofs.Host.InStep
import WireView.Proofs.Host.Steps
import WireView.Proofs.Reentrant.Moves

/-!
# What becomes of a viewer

A step changes a viewer in one of a few ways.  No viewer goes away, a viewer
keeps its window and its canvas, and a closed viewer does not open again.  A
loop changes its state when it starts, halts or is shut, and in no other way.
-/

namespace WireView

variable {K L : Type}

/-- A later state of a viewer. -/
structure Viewer.Later (v v' : Viewer K L) : Prop where
  window : v'.window = v.window
  canvas : v'.canvas = v.canvas
  closed : v.isClosed = true -> v'.isClosed = true

structure Viewer.Calm (v v' : Viewer K L) : Prop where
  state : v'.state = v.state
  closed : v'.isClosed = v.isClosed
  registry : v'.registry = v.registry

namespace Host

open Reentrant Machine

section Changes

variable {h : Host K L} {g i : Nat} {v : Viewer K L}

theorem viewer_onViewer (hv : h.viewers[g]? = some v)
    (f : Viewer K L -> Viewer K L) :
    (h.onViewer i f).viewers[g]? = some (if i = g then f v else v) := by
  unfold onViewer
  rw [Array.getElem?_modify, hv]
  split
  · rfl
  · rfl

theorem viewer_onLoop (hv : h.viewers[g]? = some v)
    (f : Viewer K L -> Window K -> Viewer K L × Window K) :
    (h.onLoop i f).viewers[g]? = some v
      ∨ i = g ∧ exists w, h.windows[v.window]? = some w
        ∧ (h.onLoop i f).viewers[g]? = some (f v w).1 := by
  unfold onLoop
  split
  · exact .inl hv
  · rename_i u hu
    split
    · exact .inl hv
    · rename_i w hw
      have hset : (h.onViewer i fun _ => (f u w).1).viewers[g]? = _ :=
        viewer_onViewer hv _
      by_cases hi : i = g
      · subst hi
        cases hv.symm.trans hu
        rw [if_pos rfl] at hset
        exact .inr ⟨rfl, w, hw, hset⟩
      · rw [if_neg hi] at hset
        exact .inl hset

theorem viewer_onLoop_of_window {w : Window K} (hv : h.viewers[g]? = some v)
    (hw : h.windows[v.window]? = some w)
    (f : Viewer K L -> Window K -> Viewer K L × Window K) :
    (h.onLoop g f).viewers[g]? = some (f v w).1 := by
  unfold onLoop
  rw [hv]
  dsimp only
  rw [hw]
  exact (viewer_onViewer hv _).trans (by rw [if_pos rfl])

end Changes

variable [LoopLogic L] [DecidableEq K]

/-- What a piece of work makes of a viewer. -/
inductive Becomes (g : Nat) (v : Viewer K L) :
    Task K -> Viewer K L -> Prop where
  | same {t : Task K} : Becomes g v t v
  | think {t : Task K} (l : L) : Becomes g v t { v with logic := l }
  | paint {t : Task K} (e : Easel) : Becomes g v t { v with easel := e }
  | start (w : Window K) : Becomes g v (.start g) (v.start g w).1
  | halt (w : Window K) (running : v.state ≠ .idle) :
      Becomes g v (.stop g) (v.halt g w).1
  | tick {t : Task K} : Becomes g v t { v with tickHandle := none }
  | request {t : Task K} (w : Window K) : Becomes g v t (v.requestTick g w).1

inductive Alters (g : Nat) (v : Viewer K L) : Op K L -> Viewer K L -> Prop where
  | same {op : Op K L} : Alters g v op v
  | shut (w : Window K) : Alters g v (.close g) (v.shut g w).1
  | observe (type : String) (k : K) :
      Alters g v (.observe g type k)
        { v with registry := v.registry.add type k }
  | unobserve (type : String) (k : K) :
      Alters g v (.unobserve g type k)
        { v with registry := v.registry.remove type k }

variable {h h' : Host K L} {g : Nat} {v v' : Viewer K L}

theorem becomes_works {t : Task K} (hw : Works t h h')
    (hv : h.viewers[g]? = some v) :
    exists v', h'.viewers[g]? = some v' ∧ Becomes g v t v' := by
  have hviewer : forall {k : Host K L} {i : Nat} {f : Viewer K L -> Viewer K L},
      k.viewers[g]? = some v -> h'.fittings = (k.onViewer i f).fittings ->
      (i = g -> Becomes g v t (f v)) -> exists v',
        h'.viewers[g]? = some v' ∧ Becomes g v t v' := by
    intro k i f hk change hf
    have hviewers : h'.viewers = (k.onViewer i f).viewers :=
      congrArg Prod.snd change
    rw [hviewers, viewer_onViewer hk]
    refine ⟨_, rfl, ?_⟩
    split
    · exact hf ‹_›
    · exact .same
  have hloop :
      forall {i : Nat} {f : Viewer K L -> Window K -> Viewer K L × Window K},
        h'.fittings = (h.onLoop i f).fittings ->
        (i = g -> forall w, Becomes g v t (f v w).1) ->
        exists v', h'.viewers[g]? = some v' ∧ Becomes g v t v' := by
    intro i f change hf
    have hviewers : h'.viewers = (h.onLoop i f).viewers :=
      congrArg Prod.snd change
    rw [hviewers]
    rcases viewer_onLoop hv f with hsame | ⟨hi, w, _, hset⟩
    · exact ⟨v, hsame, .same⟩
    · exact ⟨_, hset, hf hi w⟩
  cases hw with
  | quiet change =>
      have hviewers : h'.viewers = h.viewers := congrArg Prod.snd change
      exact ⟨v, hviewers ▸ hv, .same⟩
  | think present thought change => exact hviewer hv change fun _ => .think _
  | paint change => exact hviewer hv change fun _ => .paint _
  | start change =>
      apply hloop change
      rintro rfl w
      exact .start w
  | stop present running change =>
      apply hloop change
      rintro rfl w
      cases hv.symm.trans present
      exact .halt w running
  | take present taken change =>
      have hviewers : h'.viewers = h.viewers := congrArg Prod.snd change
      exact ⟨v, hviewers ▸ hv, .same⟩
  | tick present taken change =>
      exact hviewer (k := h.onWindow _ _) hv change fun _ => .tick
  | rearm present spent running change =>
      apply hloop change
      rintro rfl w
      exact .request w

theorem becomes_resume (t : Task K) (hv : h.viewers[g]? = some v) :
    exists v', (resume t h).1.viewers[g]? = some v' ∧ Becomes g v t v' :=
  becomes_works (works_resume t h) hv

omit [LoopLogic L] in
theorem alters_operates {op : Op K L} (ho : Operates op h h')
    (hv : h.viewers[g]? = some v) :
    exists v', h'.viewers[g]? = some v' ∧ Alters g v op v' := by
  have hsame : h'.viewers = h.viewers ->
      exists v', h'.viewers[g]? = some v' ∧ Alters g v op v' := by
    intro hviewers
    exact ⟨v, hviewers ▸ hv, .same⟩
  cases ho with
  | quiet change => exact hsame (congrArg Prod.snd change)
  | furnish kept change => exact hsame (congrArg Prod.snd change)
  | opened queue registry change => exact hsame (congrArg Prod.snd change)
  | created loop given present change =>
      rename_i u
      have hviewers : h'.viewers = h.viewers.push u := congrArg Prod.snd change
      rcases Array.getElem?_eq_some_iff.mp hv with ⟨hsize, _⟩
      refine ⟨v, ?_, .same⟩
      rw [hviewers, Array.getElem?_push, if_neg (Nat.ne_of_lt hsize), hv]
  | closed change =>
      rename_i i
      have hviewers :
          h'.viewers = (h.onLoop i fun v w => v.shut i w).viewers :=
        congrArg Prod.snd change
      rw [hviewers]
      rcases viewer_onLoop (i := i) hv fun v w => v.shut i w with
        hkept | ⟨rfl, w, _, hshut⟩
      · exact ⟨v, hkept, .same⟩
      · exact ⟨_, hshut, .shut w⟩
  | listen change => exact hsame (congrArg Prod.snd change)
  | unlisten change => exact hsame (congrArg Prod.snd change)
  | observers edit change =>
      rename_i i f
      have hviewers : h'.viewers = (h.onViewer i fun v =>
          { v with registry := f v.registry }).viewers :=
        congrArg Prod.snd change
      rw [hviewers, viewer_onViewer hv]
      refine ⟨_, rfl, ?_⟩
      split
      · subst i
        cases edit with
        | observe _ type k => exact .observe type k
        | unobserve _ type k => exact .unobserve type k
      · exact .same
  | request present change => exact hsame (congrArg Prod.snd change)
  | cancel change => exact hsame (congrArg Prod.snd change)
  | frame change => exact hsame (congrArg Prod.snd change)

theorem alters_perform (op : Op K L) (hv : h.viewers[g]? = some v) :
    exists v', (perform op h).1.viewers[g]? = some v' ∧ Alters g v op v' :=
  alters_operates (operates_perform op h) hv

/-!
# What a viewer keeps
-/

omit [LoopLogic L] in
theorem Becomes.later {t : Task K} (h : Becomes g v t v') : v.Later v' := by
  cases h <;> exact ⟨rfl, rfl, id⟩

omit [LoopLogic L] in
theorem Becomes.calm {t : Task K} (h : Becomes g v t v') (starts : t ≠ .start g)
    (stops : t ≠ .stop g) : v.Calm v' := by
  cases h with
  | start w => exact absurd rfl starts
  | halt w running => exact absurd rfl stops
  | _ => exact ⟨rfl, rfl, rfl⟩

omit [LoopLogic L] in
theorem shut_later (g : Nat) (v : Viewer K L) (w : Window K) :
    v.Later (v.shut g w).1 ∧ (v.shut g w).1.isClosed = true := by
  cases hstate : v.state with
  | idle =>
      have hshut :
          (v.shut g w).1 =
            { v with isListening := false, isClosed := true } := by
        simp [Viewer.shut, Viewer.unsubscribe, hstate]
      rw [hshut]
      exact ⟨⟨rfl, rfl, fun _ => rfl⟩, rfl⟩
  | running =>
      rw [Viewer.shut_running hstate]
      exact ⟨⟨rfl, rfl, fun _ => rfl⟩, rfl⟩

omit [LoopLogic L] in
theorem Alters.later {op : Op K L} (h : Alters g v op v') : v.Later v' := by
  cases h with
  | shut w => exact (shut_later g v w).1
  | _ => exact ⟨rfl, rfl, id⟩

theorem later_of_move {m n : Machine (Host K L) (Task K) (Callee K) Value}
    {move : Move (Op K L)} (hmove : m.move? (component K L) move = some n)
    (hv : m.world.viewers[g]? = some v) :
    exists v', n.world.viewers[g]? = some v' ∧ v.Later v' := by
  cases move with
  | work =>
      rcases move?_work hmove with ⟨t, rest, _, rfl⟩
      rw [proceed_world]
      rcases becomes_resume t hv with ⟨v', hv', hbecomes⟩
      exact ⟨v', hv', hbecomes.later⟩
  | issue op =>
      rcases move?_issue hmove with ⟨_, rfl⟩
      unfold Machine.issue
      rw [proceed_world]
      rcases alters_perform op hv with ⟨v', hv', halters⟩
      exact ⟨v', hv', halters.later⟩
  | giveBack =>
      rcases move?_giveBack hmove with ⟨c, rest, _, rfl⟩
      exact ⟨v, hv, rfl, rfl, id⟩
  | throw e =>
      rcases move?_throw hmove with ⟨c, rest, _, rfl⟩
      exact ⟨v, hv, rfl, rfl, id⟩

end Host
end WireView
