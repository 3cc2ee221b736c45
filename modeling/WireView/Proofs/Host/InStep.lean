import WireView.Proofs.Host.Loops
import WireView.Proofs.Loop.Queue
import WireView.Proofs.Loop.Registry

/-!
# Loops in step

A loop is in step with the window it hangs on when the window's queue and
registry hold for it what it believes they do: its next tick under the handle
that it keeps, its keys once each while it runs, and nothing else.

All loops of a host are in step with their windows, and windows hold nothing for
loops that hang elsewhere.  A change of one loop and its window keeps this if it
keeps that one loop in step and leaves alone what the window holds for others.
-/

namespace WireView

variable {K L : Type} [DecidableEq K]

/-- What a window holds for a loop: its tick under a handle, if any, and its
keys. -/
structure Holds (g : Nat) (r : Rack K) (handle : Option Nat)
    (listening : Bool) : Prop where
  ticks : r.queue.handlesOf (.tick g) = handle.toList
  keys : forall motion type,
    (r.registry.listeners type).count (.keys motion g) =
    if listening = true ∧ type = motion.type then 1 else 0

structure InStep (g : Nat) (l : Loop) (r : Rack K) : Prop where
  holds : Holds g r l.tickHandle l.isListening
  ticking : l.tickHandle.isSome -> l.state = .running
  listening : l.isListening = decide (l.state = .running)
  closed : l.isClosed -> l.state = .idle

/-- A window that holds for a loop what another one does. -/
structure SameShare (g : Nat) (r r' : Rack K) : Prop where
  ticks : r'.queue.handlesOf (.tick g) = r.queue.handlesOf (.tick g)
  keys : forall motion type,
    (r'.registry.listeners type).count (.keys motion g) =
    (r.registry.listeners type).count (.keys motion g)

theorem SameShare.holds {g : Nat} {r r' : Rack K} {handle : Option Nat}
    {listening : Bool} (same : SameShare g r r')
    (h : Holds g r handle listening) : Holds g r' handle listening := by
  constructor
  · rw [same.ticks, h.ticks]
  · intro motion type
    rw [same.keys, h.keys]

theorem SameShare.inStep {g : Nat} {l : Loop} {r r' : Rack K}
    (same : SameShare g r r') (h : InStep g l r) : InStep g l r' :=
  ⟨same.holds h.holds, h.ticking, h.listening, h.closed⟩

structure StaysInStep (g : Nat) (l l' : Loop) (r r' : Rack K) : Prop where
  window : l'.window = l.window
  queue : r'.queue.WellFormed
  own : InStep g l' r'
  others : forall i, i ≠ g -> SameShare i r r'

/-- All loops are in step, and no window holds anything for a loop that hangs
elsewhere. -/
structure Coherent (s : Loops K) : Prop where
  queues : forall a r, s.rack a = some r -> r.queue.WellFormed
  inStep : forall g l, s.loop g = some l -> exists r,
    s.rack l.window = some r ∧ InStep g l r
  elsewhere : forall g a r, s.rack a = some r ->
    (forall l, s.loop g = some l -> l.window ≠ a) -> Holds g r none false

namespace Coherent

variable {s : Loops K}

theorem setRack (hs : Coherent s) {a : Nat} {r r' : Rack K}
    (ha : s.rack a = some r) (queue : r'.queue.WellFormed)
    (others : forall g, SameShare g r r') :
    Coherent (s.setRack a r') := by
  constructor
  · intro b q hb
    rw [Loops.setRack_rack] at hb
    split at hb
    · cases hb
      exact queue
    · exact hs.queues b q hb
  · intro g l hl
    rcases hs.inStep g l hl with ⟨q, hq, hstep⟩
    rw [Loops.setRack_rack]
    split
    · rename_i hb
      rw [hb, ha] at hq
      cases hq
      exact ⟨r', rfl, (others g).inStep hstep⟩
    · exact ⟨q, hq, hstep⟩
  · intro g b q hb haway
    rw [Loops.setRack_rack] at hb
    split at hb
    · rename_i hba
      cases hb
      exact (others g).holds (hs.elsewhere g a r ha (hba ▸ haway))
    · exact hs.elsewhere g b q hb haway

theorem setLoop (hs : Coherent s) {g : Nat} {l l' : Loop} {r r' : Rack K}
    (hl : s.loop g = some l) (hr : s.rack l.window = some r)
    (h : StaysInStep g l l' r r') :
    Coherent ((s.setLoop g l').setRack l.window r') := by
  rcases h with ⟨window, queue, own, others⟩
  have hloop : forall i, ((s.setLoop g l').setRack l.window r').loop i =
      if i = g then some l' else s.loop i :=
        fun i => Loops.setLoop_loop s g i l'
  have hrack : forall a, ((s.setLoop g l').setRack l.window r').rack a =
      if a = l.window then some r' else s.rack a :=
    fun a => Loops.setRack_rack (s.setLoop g l') l.window a r'
  constructor
  · intro a q ha
    rw [hrack] at ha
    split at ha
    · cases ha
      exact queue
    · exact hs.queues a q ha
  · intro i k hk
    rw [hloop] at hk
    split at hk
    · rename_i hi
      subst hi
      cases hk
      rw [window, hrack, if_pos rfl]
      exact ⟨r', rfl, own⟩
    · rename_i hi
      rcases hs.inStep i k hk with ⟨q, hq, hstep⟩
      rw [hrack]
      split
      · rename_i hwin
        rw [hwin, hr] at hq
        cases hq
        exact ⟨r', rfl, (others i hi).inStep hstep⟩
      · exact ⟨q, hq, hstep⟩
  · intro i a q ha haway
    have hi : a = l.window -> i ≠ g := by
      intro hal hig
      refine haway l' ?_ (window.trans hal.symm)
      rw [hloop, if_pos hig]
    -- The changed loop hangs where it hung before, so nothing new hangs at this
    -- window.
    have haway' : a ≠ l.window ∨ i ≠ g -> forall k,
        s.loop i = some k -> k.window ≠ a := by
      intro hor k hk
      by_cases hig : i = g
      · subst hig
        rw [hl] at hk
        cases hk
        rcases hor with hor | hor
        · exact fun heq => hor heq.symm
        · exact absurd rfl hor
      · apply haway k
        rw [hloop, if_neg hig]
        exact hk
    rw [hrack] at ha
    split at ha
    · rename_i hal
      cases ha
      subst hal
      exact (others i (hi rfl)).holds
        (hs.elsewhere i l.window r hr (haway' (.inr (hi rfl))))
    · rename_i hal
      exact hs.elsewhere i a q ha (haway' (.inl hal))

theorem owner_of_tick (hs : Coherent s) {a n g : Nat} {r : Rack K}
    (ha : s.rack a = some r) (hn : (n, .tick g) ∈ r.queue.pending) :
    exists l,
      s.loop g = some l ∧ l.window = a ∧ l.tickHandle = some n
        ∧ InStep g l r := by
  have hmem : n ∈ r.queue.handlesOf (.tick g) := FrameQueue.mem_handlesOf.mpr hn
  have hhere : exists l, s.loop g = some l ∧ l.window = a := by
    by_contra hno
    have hnone : r.queue.handlesOf (.tick g) = [] :=
      (hs.elsewhere g a r ha fun l hl hwin => hno ⟨l, hl, hwin⟩).ticks
    rw [hnone] at hmem
    cases hmem
  rcases hhere with ⟨l, hl, hwin⟩
  rcases hs.inStep g l hl with ⟨q, hq, hstep⟩
  rw [hwin, ha] at hq
  cases hq
  rw [hstep.holds.ticks] at hmem
  exact ⟨l, hl, hwin, Option.mem_toList.mp hmem, hstep⟩

theorem newRack (hs : Coherent s) {a : Nat} (ha : s.rack a = none) :
    Coherent (s.setRack a ⟨{}, {}⟩) := by
  constructor
  · intro b q hb
    rw [Loops.setRack_rack] at hb
    split at hb
    · cases hb
      exact FrameQueue.wellFormed_empty
    · exact hs.queues b q hb
  · intro g l hl
    rcases hs.inStep g l hl with ⟨q, hq, hstep⟩
    rw [Loops.setRack_rack]
    split
    · rename_i hb
      rw [hb, ha] at hq
      cases hq
    · exact ⟨q, hq, hstep⟩
  · intro g b q hb haway
    rw [Loops.setRack_rack] at hb
    split at hb
    · cases hb
      exact ⟨rfl, fun _ _ => rfl⟩
    · exact hs.elsewhere g b q hb haway

theorem newLoop (hs : Coherent s) {g : Nat} {l : Loop} (hg : s.loop g = none)
    (window : exists r, s.rack l.window = some r) (state : l.state = .idle)
    (spent : l.tickHandle = none) (silent : l.isListening = false) :
    Coherent (s.setLoop g l) := by
  have hnone : forall a r, s.rack a = some r -> Holds g r none false := by
    intro a r ha
    apply hs.elsewhere g a r ha
    intro k hk
    rw [hg] at hk
    cases hk
  constructor
  · exact hs.queues
  · intro i k hk
    rw [Loops.setLoop_loop] at hk
    split at hk
    · rename_i hi
      cases hk
      subst hi
      rcases window with ⟨r, hr⟩
      refine ⟨r, hr, ?_, ?_, ?_, fun _ => state⟩
      · rw [spent, silent]
        exact hnone _ r hr
      · intro h
        rw [spent] at h
        cases h
      · rw [silent, state]
        rfl
    · exact hs.inStep i k hk
  · intro i a r ha haway
    by_cases hi : i = g
    · subst hi
      exact hnone a r ha
    · apply hs.elsewhere i a r ha
      intro k hk
      apply haway k
      rw [Loops.setLoop_loop, if_neg hi]
      exact hk

end Coherent

/-!
# Starting, halting and shutting
-/

namespace Window

theorem count_subscribe (w : Window K) (g i : Nat) (motion : KeyMotion)
    (type : String) :
    ((w.subscribe g).registry.listeners type).count (.keys motion i) =
      if i = g ∧ type = motion.type then
        max 1 ((w.registry.listeners type).count (.keys motion i))
      else (w.registry.listeners type).count (.keys motion i) := by
  unfold subscribe
  rw [Registry.count_add, Registry.count_add]
  cases motion with
  | down => simp [and_comm]
  | up => simp [and_comm]

theorem count_unsubscribe (w : Window K) (g i : Nat) (motion : KeyMotion)
    (type : String) :
    ((w.unsubscribe g).registry.listeners type).count (.keys motion i) =
      if i = g ∧ type = motion.type then
        (w.registry.listeners type).count (.keys motion i) - 1
      else (w.registry.listeners type).count (.keys motion i) := by
  unfold unsubscribe
  rw [Registry.count_remove, Registry.count_remove]
  cases motion with
  | down => simp [and_comm]
  | up => simp [and_comm]

variable {g i : Nat} {w : Window K} {handle : Option Nat} {listening : Bool}

theorem holds_subscribe (h : Holds g w.rack handle listening) :
    Holds g (w.subscribe g).rack handle true := by
  constructor
  · exact h.ticks
  · intro motion type
    have hkeys := h.keys motion type
    show ((w.subscribe g).registry.listeners type).count (.keys motion g) = _
    rw [count_subscribe]
    by_cases htype : type = motion.type
    · rw [if_pos ⟨rfl, htype⟩, if_pos ⟨rfl, htype⟩]
      apply Nat.max_eq_left
      show (w.rack.registry.listeners type).count (.keys motion g) ≤ 1
      rw [hkeys]
      split
      · exact Nat.le_refl 1
      · exact Nat.zero_le 1
    · rw [if_neg fun hh => htype hh.2, if_neg fun hh => htype hh.2]
      rw [if_neg fun hh => htype hh.2] at hkeys
      exact hkeys

theorem holds_unsubscribe (h : Holds g w.rack handle listening) :
    Holds g (w.unsubscribe g).rack handle false := by
  constructor
  · exact h.ticks
  · intro motion type
    have hkeys : (w.registry.listeners type).count (.keys motion g) = _ :=
      h.keys motion type
    show ((w.unsubscribe g).registry.listeners type).count (.keys motion g) = 0
    rw [count_unsubscribe, hkeys]
    by_cases htype : type = motion.type
    · rw [if_pos ⟨rfl, htype⟩]
      split
      · rfl
      · rfl
    · rw [if_neg fun hh => htype hh.2, if_neg fun hh => htype hh.2]

theorem sameShare_subscribe (w : Window K) (hi : i ≠ g) :
    SameShare i w.rack (w.subscribe g).rack := by
  constructor
  · rfl
  · intro motion type
    show ((w.subscribe g).registry.listeners type).count (.keys motion i) = _
    rw [count_subscribe, if_neg fun hh => hi hh.1]
    rfl

theorem sameShare_unsubscribe (w : Window K) (hi : i ≠ g) :
    SameShare i w.rack (w.unsubscribe g).rack := by
  constructor
  · rfl
  · intro motion type
    show ((w.unsubscribe g).registry.listeners type).count (.keys motion i) = _
    rw [count_unsubscribe, if_neg fun hh => hi hh.1]
    rfl

theorem holds_request (h : Holds g w.rack none listening) :
    Holds g ⟨(w.queue.request (.tick g)).1, w.registry⟩
      (some w.queue.nextHandle) listening := by
  constructor
  · have hticks : w.queue.handlesOf (.tick g) = [] := h.ticks
    rw [FrameQueue.handlesOf_request_self, hticks]
    rfl
  · exact h.keys

theorem sameShare_request (w : Window K) {c : Callback K} (hc : c ≠ .tick i) :
    SameShare i w.rack ⟨(w.queue.request c).1, w.registry⟩ :=
  ⟨FrameQueue.handlesOf_request_of_ne _ hc, fun _ _ => rfl⟩

theorem holds_drop {n : Nat} (h : Holds g w.rack (some n) listening) :
    Holds g ⟨w.queue.drop n, w.registry⟩ none listening := by
  constructor
  · have hticks : w.queue.handlesOf (.tick g) = [n] := h.ticks
    rw [FrameQueue.handlesOf_drop, hticks]
    simp
  · exact h.keys

theorem sameShare_drop {n : Nat} (hn : (n, .tick i) ∉ w.queue.pending) :
    SameShare i w.rack ⟨w.queue.drop n, w.registry⟩ :=
  ⟨FrameQueue.handlesOf_drop_of_not_mem hn, fun _ _ => rfl⟩

theorem holds_dropTick (h : Holds g w.rack handle listening) :
    Holds g (w.dropTick handle).rack none listening := by
  cases handle with
  | none => exact h
  | some n => exact holds_drop h

theorem sameShare_dropTick (h : Holds g w.rack handle listening)
    (queue : w.queue.WellFormed) (hi : i ≠ g) :
    SameShare i w.rack (w.dropTick handle).rack := by
  cases handle with
  | none => exact ⟨rfl, fun _ _ => rfl⟩
  | some n =>
      have hticks : w.queue.handlesOf (.tick g) = [n] := h.ticks
      have hown : (n, .tick g) ∈ w.queue.pending := by
        rw [← FrameQueue.mem_handlesOf, hticks]
        exact List.mem_singleton_self n
      apply sameShare_drop
      intro hother
      exact hi (Callback.tick.inj (FrameQueue.entry_unique queue hother hown))

omit [DecidableEq K] in
theorem wellFormed_dropTick (queue : w.queue.WellFormed) (handle : Option Nat) :
    (w.dropTick handle).queue.WellFormed := by
  cases handle with
  | none => exact queue
  | some n => exact FrameQueue.wellFormed_drop queue n

end Window

namespace Viewer

variable {g : Nat} {v : Viewer K L} {w : Window K}

theorem shut_running (running : v.state = .running) :
    v.shut g w =
      ({ (v.halt g w).1 with isClosed := true }, (v.halt g w).2) := by
  unfold shut
  rw [if_pos running]
  rfl

theorem shut_idle (idle : v.state = .idle) (silent : v.isListening = false) :
    v.shut g w = ({ v with isListening := false, isClosed := true }, w) := by
  have hne : v.state ≠ .running := by
    rw [idle]
    simp
  unfold shut
  rw [if_neg hne]
  simp [unsubscribe, silent]

theorem shut_keeps (g : Nat) (v : Viewer K L) (w : Window K) :
    (v.shut g w).1.state = .idle ∧ (v.shut g w).1.logic = v.logic
      ∧ (v.shut g w).1.window = v.window
      ∧ (v.shut g w).1.registry = v.registry := by
  cases hstate : v.state with
  | idle => simp [shut, unsubscribe, hstate]
  | running =>
      rw [shut_running hstate]
      exact ⟨rfl, rfl, rfl, rfl⟩

end Viewer

theorem SameShare.trans {g : Nat} {r r' r'' : Rack K} (first : SameShare g r r')
    (second : SameShare g r' r'') : SameShare g r r'' :=
  ⟨second.ticks.trans first.ticks, fun motion type =>
    (second.keys motion type).trans (first.keys motion type)⟩

namespace InStep

variable {g : Nat} {v : Viewer K L} {w : Window K}

theorem spent_of_idle (h : InStep g v.loop w.rack) (idle : v.state = .idle) :
    v.tickHandle = none := by
  cases hh : v.tickHandle with
  | none => rfl
  | some n =>
      have hrun : v.state = .running := h.ticking (by simp [Viewer.loop, hh])
      rw [idle] at hrun
      cases hrun

theorem listening_eq (h : InStep g v.loop w.rack) :
    v.isListening = decide (v.state = .running) :=
  h.listening

theorem start (h : InStep g v.loop w.rack) (queue : w.queue.WellFormed)
    (idle : v.state = .idle) (unclosed : v.isClosed = false) :
    StaysInStep g v.loop (v.start g w).1.loop w.rack (v.start g w).2.rack := by
  have hholds : Holds g w.rack none v.isListening := by
    have hh : Holds g w.rack v.tickHandle v.isListening := h.holds
    rw [h.spent_of_idle idle] at hh
    exact hh
  constructor
  · rfl
  · exact FrameQueue.wellFormed_request queue _
  · refine ⟨(w.subscribe g).holds_request (Window.holds_subscribe hholds),
      fun _ => rfl, rfl, ?_⟩
    intro hclosed
    have hc : v.isClosed = true := hclosed
    rw [unclosed] at hc
    cases hc
  · intro i hi
    refine (Window.sameShare_subscribe w hi).trans
      ((w.subscribe g).sameShare_request ?_)
    intro heq
    exact hi (Callback.tick.inj heq).symm

theorem requestTick (h : InStep g v.loop w.rack) (queue : w.queue.WellFormed)
    (running : v.state ≠ .idle) (spent : v.tickHandle = none) :
    StaysInStep g v.loop (v.requestTick g w).1.loop w.rack
      (v.requestTick g w).2.rack := by
  have hrunning : v.state = .running := by
    cases hstate : v.state with
    | idle => exact absurd hstate running
    | running => rfl
  have hholds : Holds g w.rack none v.isListening := by
    have hh : Holds g w.rack v.tickHandle v.isListening := h.holds
    rw [spent] at hh
    exact hh
  constructor
  · rfl
  · exact FrameQueue.wellFormed_request queue _
  · exact ⟨w.holds_request hholds, fun _ => hrunning, h.listening, h.closed⟩
  · intro i hi
    apply w.sameShare_request
    intro heq
    exact hi (Callback.tick.inj heq).symm

theorem holds_unsubscribe {handle : Option Nat}
    (h : Holds g w.rack handle v.isListening) :
    Holds g (v.unsubscribe g w).2.rack handle false := by
  unfold Viewer.unsubscribe
  cases hl : v.isListening with
  | true => exact Window.holds_unsubscribe h
  | false =>
      rw [hl] at h
      exact h

theorem sameShare_unsubscribe {i : Nat} (hi : i ≠ g) :
    SameShare i w.rack (v.unsubscribe g w).2.rack := by
  unfold Viewer.unsubscribe
  cases v.isListening with
  | true => exact w.sameShare_unsubscribe hi
  | false => exact ⟨rfl, fun _ _ => rfl⟩

theorem queue_unsubscribe : (v.unsubscribe g w).2.queue = w.queue := by
  unfold Viewer.unsubscribe
  cases v.isListening with
  | true => rfl
  | false => rfl

theorem halt (h : InStep g v.loop w.rack) (queue : w.queue.WellFormed) :
    StaysInStep g v.loop (v.halt g w).1.loop w.rack (v.halt g w).2.rack := by
  have hholds : Holds g (v.unsubscribe g w).2.rack v.tickHandle false :=
    holds_unsubscribe h.holds
  have hqueue : (v.unsubscribe g w).2.queue.WellFormed := by
    rw [queue_unsubscribe]
    exact queue
  constructor
  · rfl
  · exact Window.wellFormed_dropTick hqueue v.tickHandle
  · refine ⟨Window.holds_dropTick hholds, ?_, rfl, fun _ => rfl⟩
    intro hsome
    cases hsome
  · intro i hi
    exact (sameShare_unsubscribe hi).trans
      (Window.sameShare_dropTick hholds hqueue hi)

theorem shut (h : InStep g v.loop w.rack) (queue : w.queue.WellFormed) :
    StaysInStep g v.loop (v.shut g w).1.loop w.rack (v.shut g w).2.rack := by
  cases hstate : v.state with
  | idle =>
      have hsilent : v.isListening = false := by
        rw [h.listening_eq, hstate]
        rfl
      rw [Viewer.shut_idle hstate hsilent]
      constructor
      · rfl
      · exact queue
      · exact ⟨hsilent ▸ h.holds, h.ticking, hsilent ▸ h.listening,
          fun _ => hstate⟩
      · intro i _
        exact ⟨rfl, fun _ _ => rfl⟩
  | running =>
      rw [Viewer.shut_running hstate]
      have hhalt := h.halt queue
      constructor
      · exact hhalt.window
      · exact hhalt.queue
      · exact ⟨hhalt.own.holds, hhalt.own.ticking, hhalt.own.listening,
          fun _ => rfl⟩
      · exact hhalt.others

end InStep

end WireView
