import WireView.Proofs.Host.Safety

/-!
# Render loops stay alive

When nothing raises, a loop that runs has its next tick pending, or the tick
that will ask for it is still on the stack.  Such a tick asks for the next one
unless somebody has done so meanwhile or the loop has been stopped, whatever its
observers and the other callbacks did while it ran.

This holds of logics that never end their loops by themselves.
-/

namespace WireView

open Reentrant Machine

def Logic.isUnending : Logic -> Bool
  | .cube _ => true
  | .arrow _ => true
  | .bare => false
  | .countdown _ _ => false

theorem Logic.isRunning_of_unending {l : Logic} (h : l.isUnending = true) :
    LoopLogic.isRunning l = .ok true := by
  cases l with
  | cube c => rfl
  | arrow a => rfl
  | bare => cases h
  | countdown n c => cases h

theorem Logic.isUnending_onKey (spin : Spin Float -> Spin Float × Bool)
    (compass : Compass -> Compass × Bool) (l : Logic) :
    ((onKey spin compass).perform l).1.isUnending = l.isUnending := by
  cases l with
  | cube c => rfl
  | arrow a => rfl
  | bare => rfl
  | countdown n c => rfl

namespace Host

variable {K : Type} [DecidableEq K]

theorem Thinks.isUnending {l l' : Logic} (h : Thinks l l') :
    l'.isUnending = l.isUnending := by
  cases h with
  | setUp now => cases l <;> rfl
  | update now => cases l <;> rfl
  | keyDown key =>
      exact Logic.isUnending_onKey (fun s => s.keyDown key)
        (fun a => a.keyDown key) l
  | keyUp key =>
      exact Logic.isUnending_onKey (fun s => s.keyUp key)
        (fun a => a.keyUp key) l

/-!
# Logics keep their kind
-/

def unending (h : Host K Logic) (g : Nat) : Option Bool :=
  (h.viewers[g]?).map fun v => v.logic.isUnending

section Unending

variable {h h' : Host K Logic}

omit [DecidableEq K] in
theorem unending_of_fittings (change : h'.fittings = h.fittings) :
    h'.unending = h.unending := by
  have hv : h'.viewers = h.viewers := congrArg Prod.snd change
  unfold unending
  rw [hv]

omit [DecidableEq K] in
theorem unending_onViewer (g : Nat) {f : Viewer K Logic -> Viewer K Logic}
    (hf : forall v, h.viewers[g]? = some v ->
      (f v).logic.isUnending = v.logic.isUnending) :
    (h.onViewer g f).unending = h.unending := by
  funext i
  unfold unending onViewer
  rw [Array.getElem?_modify]
  by_cases hi : g = i
  · subst hi
    rw [if_pos rfl]
    cases hv : h.viewers[g]? with
    | none => rfl
    | some v => exact congrArg some (hf v hv)
  · rw [if_neg hi]

omit [DecidableEq K] in
theorem unending_onLoop (g : Nat)
    {f : Viewer K Logic -> Window K -> Viewer K Logic × Window K}
    (hf : forall v w, (f v w).1.logic = v.logic) :
    (h.onLoop g f).unending = h.unending := by
  unfold onLoop
  split
  · rfl
  · rename_i v hv
    split
    · rfl
    · rename_i w hw
      have hviewer :
          (h.onViewer g fun _ => (f v w).1).unending = h.unending := by
        apply unending_onViewer g
        intro u hu
        rw [hv] at hu
        cases hu
        rw [hf]
      exact hviewer

theorem unending_works {t : Task K} (hw : Works t h h') :
    h'.unending = h.unending := by
  cases hw with
  | quiet change => exact unending_of_fittings change
  | think present thought change =>
      rw [unending_of_fittings change]
      apply unending_onViewer _
      intro u hu
      rw [present] at hu
      cases hu
      exact thought.isUnending
  | paint change =>
      rw [unending_of_fittings change]
      exact unending_onViewer _ fun _ _ => rfl
  | start change =>
      rw [unending_of_fittings change]
      exact unending_onLoop _ fun _ _ => rfl
  | stop present running change =>
      rw [unending_of_fittings change]
      exact unending_onLoop _ fun _ _ => rfl
  | take present taken change =>
      rw [unending_of_fittings change]
      rfl
  | tick present taken change =>
      rw [unending_of_fittings change]
      exact unending_onViewer _ fun _ _ => rfl
  | rearm present spent running change =>
      rw [unending_of_fittings change]
      exact unending_onLoop _ fun _ _ => rfl

theorem unending_operates {op : Op K Logic} (ho : Operates op h h') {i : Nat}
    (hi : i < h.viewers.size) : h'.unending i = h.unending i := by
  cases ho with
  | quiet change => rw [unending_of_fittings change]
  | furnish kept change =>
      rw [unending_of_fittings change]
      rfl
  | opened queue registry change =>
      have hv : h'.viewers = h.viewers := congrArg Prod.snd change
      unfold unending
      rw [hv]
  | created loop given present change =>
      rename_i v
      have hv : h'.viewers = h.viewers.push v := congrArg Prod.snd change
      unfold unending
      rw [hv, Array.getElem?_push, if_neg (Nat.ne_of_lt hi)]
  | closed change =>
      rw [unending_of_fittings change]
      refine congrFun (unending_onLoop _ ?_) i
      intro v w
      exact (Viewer.shut_keeps _ v w).2.1
  | listen change =>
      rw [unending_of_fittings change]
      rfl
  | unlisten change =>
      rw [unending_of_fittings change]
      rfl
  | observers edit change =>
      rw [unending_of_fittings change]
      refine congrFun (unending_onViewer _ ?_) i
      intro v _
      rfl
  | request present change =>
      rw [unending_of_fittings change]
      rfl
  | cancel change =>
      rw [unending_of_fittings change]
      rfl
  | frame change =>
      rw [unending_of_fittings change]
      rfl

end Unending

/-!
# Who has to ask for the next tick
-/

/-- A loop that runs without a pending tick, and whose logic would have it go
on. -/
structure Due (h : Host K Logic) (g : Nat) (l : Loop) : Prop where
  unending : h.unending g = some true
  present : h.loops.loop g = some l
  running : l.state = .running
  spent : l.tickHandle = none

section Due

variable {h h' : Host K Logic} {g : Nat} {l : Loop}

theorem due_works {t : Task K} (hw : Works t h h') (hd : Due h' g l) :
    Due h g l ∨ exists a handle todo ran w q, t = .frame a (handle :: todo) ran
      ∧ h.windows[a]? = some w ∧ w.queue.take handle = some (.tick g, q) := by
  have hkind : h.unending g = some true := by
    rw [← unending_works hw]
    exact hd.unending
  have hsame : h.loops.loop g = some l -> Due h g l :=
    fun hl => ⟨hkind, hl, hd.running, hd.spent⟩
  have hpresent := hd.present
  cases hw with
  | quiet change =>
      rw [loops_of_fittings change] at hpresent
      exact .inl (hsame hpresent)
  | think present thought change =>
      rw [loops_of_fittings change, loops_onViewer_same (by intro v; rfl)]
        at hpresent
      exact .inl (hsame hpresent)
  | paint change =>
      rw [loops_of_fittings change, loops_onViewer_same (by intro v; rfl)]
        at hpresent
      exact .inl (hsame hpresent)
  | start change =>
      rw [loops_of_fittings change] at hpresent
      rcases loop_onLoop hpresent with hl | ⟨_, v, w, _, _, hl⟩
      · exact .inl (hsame hl)
      · have hspent := hd.spent
        rw [hl] at hspent
        cases hspent
  | stop present running change =>
      rw [loops_of_fittings change] at hpresent
      rcases loop_onLoop hpresent with hl | ⟨_, v, w, _, _, hl⟩
      · exact .inl (hsame hl)
      · have hrunning := hd.running
        rw [hl] at hrunning
        cases hrunning
  | take present taken change =>
      rw [loops_of_fittings change] at hpresent
      have hl : h.loops.loop g = some l := hpresent
      exact .inl (hsame hl)
  | tick present taken change =>
      rename_i a handle ran i todo w q
      by_cases hi : g = i
      · subst hi
        exact .inr ⟨a, handle, todo, ran, w, q, rfl, present, taken⟩
      · rw [loops_of_fittings change] at hpresent
        have hl : h.loops.loop g = some l := by
          rw [← hpresent]
          exact (loop_onViewer_of_ne hi).symm
        exact .inl (hsame hl)
  | rearm present spent running change =>
      rw [loops_of_fittings change] at hpresent
      rcases loop_onLoop hpresent with hl | ⟨_, v, w, _, _, hl⟩
      · exact .inl (hsame hl)
      · have hspent := hd.spent
        rw [hl] at hspent
        cases hspent

theorem due_operates {op : Op K Logic} (ho : Operates op h h')
    (hd : Due h' g l) :
    Due h g l := by
  have hpresent := hd.present
  have hl : h.loops.loop g = some l := by
    cases ho with
    | quiet change =>
        rw [loops_of_fittings change] at hpresent
        exact hpresent
    | furnish kept change =>
        rw [loops_of_fittings change] at hpresent
        exact hpresent
    | opened queue registry change =>
        rw [loops_pushWindow change] at hpresent
        exact hpresent
    | created loop given present change =>
        rw [loops_pushViewer change, Loops.setLoop_loop] at hpresent
        split at hpresent
        · have hrunning := hd.running
          rw [← Option.some.inj hpresent, loop] at hrunning
          cases hrunning
        · exact hpresent
    | closed change =>
        rw [loops_of_fittings change] at hpresent
        rcases loop_onLoop hpresent with hl | ⟨rfl, v, w, _, _, hl⟩
        · exact hl
        · have hidle : (v.shut g w).1.state = .idle :=
            (Viewer.shut_keeps g v w).1
          have hrunning := hd.running
          rw [hl] at hrunning
          cases hidle.symm.trans hrunning
    | listen change =>
        rw [loops_of_fittings change] at hpresent
        exact hpresent
    | unlisten change =>
        rw [loops_of_fittings change] at hpresent
        exact hpresent
    | observers edit change =>
        rw [loops_of_fittings change, loops_onViewer_same (by intro v; rfl)]
          at hpresent
        exact hpresent
    | request present change =>
        rw [loops_of_fittings change] at hpresent
        exact hpresent
    | cancel change =>
        rw [loops_of_fittings change] at hpresent
        exact hpresent
    | frame change =>
        rw [loops_of_fittings change] at hpresent
        exact hpresent
  have hsize : g < h.viewers.size := by
    rcases viewer_of_loop hl with ⟨v, hv, _⟩
    exact (Array.getElem?_eq_some_iff.mp hv).1
  have hkind : h.unending g = some true := by
    rw [← unending_operates ho hsize]
    exact hd.unending
  exact ⟨hkind, hl, hd.running, hd.spent⟩

theorem not_due_rearm (hs : Coherent h.loops) :
    ¬ Due (resume (.rearm g) h).1 g l := by
  intro hd
  have hkind : h.unending g = some true := by
    rw [← unending_works (works_resume (.rearm g) h)]
    exact hd.unending
  rcases Option.map_eq_some_iff.mp hkind with ⟨v, hv, hunending⟩
  have hrearm : resume (.rearm g) h = rearm g v h := by
    simp only [resume, withViewer, hv]
  rw [hrearm] at hd
  unfold rearm at hd
  split at hd
  · rename_i hasked
    have hl : some v.loop = some l := (loops_loop hv).symm.trans hd.present
    cases hl
    have hspent : v.tickHandle = none := hd.spent
    have hrunning : v.state = .running := hd.running
    rw [hspent, hrunning] at hasked
    cases hasked
  · rw [Logic.isRunning_of_unending hunending] at hd
    rcases hs.inStep g v.loop (loops_loop hv) with ⟨r, hr, _⟩
    rcases window_of_rack hr with ⟨w, hw, rfl⟩
    have hw' : h.windows[v.window]? = some w := hw
    have hpresent := hd.present
    simp only [finish] at hpresent
    rw [loops_onLoop hv hw'] at hpresent
    have hset :
        (h.loops.setLoop g (v.requestTick g w).1.loop).loop g = some l :=
      hpresent
    rw [Loops.setLoop_loop, if_pos rfl] at hset
    have hspent := hd.spent
    rw [← Option.some.inj hset] at hspent
    cases hspent

end Due

/-!
# The invariant
-/

def UsesLogic : Task K -> Prop
  | .setUp _ => True
  | .update _ => True
  | .draw _ => True
  | .rearm _ => True
  | .press _ _ _ _ => True
  | _ => False

theorem usesLogic_of_fail {t : Task K} {h : Host K Logic} {e : Failure}
    (hfail : (resume t h).2 = .fail e) :
    UsesLogic t ∨ exists g, t = .run g := by
  cases t with
  | run g => exact .inr ⟨g, rfl⟩
  | setUp g => exact .inl trivial
  | start g => cases hfail
  | stop g =>
      simp only [resume, withViewer] at hfail
      split at hfail
      · unfold stop at hfail
        split at hfail
        · cases hfail
        · cases hfail
      · cases hfail
  | notify g type todo => exact absurd hfail (notify_ne_fail g type h todo e)
  | press a e n todo => exact .inl trivial
  | frame a todo ran => exact absurd hfail (frame_ne_fail a ran h todo e)
  | poll a todo =>
      cases todo with
      | nil => cases hfail
      | cons i todo =>
          cases i with
          | quit => cases hfail
          | key motion code => cases hfail
          | other => cases hfail
  | update g => exact .inl trivial
  | draw g => exact .inl trivial
  | rearm g => exact .inl trivial

/-- Nothing raises, and outside code does not withdraw ticks. -/
structure Smooth (m : HostMachine K Logic) (move : Move (Op K Logic)) :
    Prop where
  spares : SparesTicks m move
  outside : forall e, move ≠ .throw e
  logic : forall t rest,
    move = .work -> m.stack = .work t :: rest -> UsesLogic t ->
    forall e, (resume t m.world).2 ≠ .fail e

/-- A tick that is due is asked for by one that is still under way. -/
structure Alive (h : Host K Logic) (stack : List (Level (Task K) (Callee K))) :
    Prop where
  safe : Safe h stack
  asked : forall g l, Due h g l -> .work (.rearm g) ∈ stack

variable {h : Host K Logic} {rest : List (Level (Task K) (Callee K))}

theorem alive_work {t : Task K} (ha : Alive h (.work t :: rest))
    (logic : UsesLogic t -> forall e, (resume t h).2 ≠ .fail e) :
    Alive (resume t h).1 ((resume t h).2.over rest) := by
  have hkept : forall l, l ∈ rest -> l ∈ (resume t h).2.over rest := by
    intro l hl
    apply mem_over hl
    intro e hfail
    rcases usesLogic_of_fail hfail with huses | ⟨g, rfl⟩
    · exact absurd hfail (logic huses e)
    · exact hasControl_of_segment ha.safe.shaped.1
  refine ⟨safe_work ha.safe, ?_⟩
  intro g l hd
  rcases due_works (works_resume t h) hd with
    hdue | ⟨a, handle, todo, ran, w, q, rfl, hw, htake⟩
  -- The loop was due before, so whoever is to ask is below: on top it would
  -- have asked.
  · have hne : t ≠ .rearm g := by
      intro ht
      subst ht
      exact not_due_rearm ha.safe.coherent hd
    rcases List.mem_cons.mp (ha.asked g l hdue) with htop | hbelow
    · exact absurd (Level.work.inj htop).symm hne
    · exact hkept _ hbelow
  -- The loop has become due because its tick begins, and the tick puts its
  -- rearm on the stack.
  · have htook : h.takeCallback a handle =
        some (.tick g, h.onWindow a fun w => { w with queue := q }) := by
      simp [takeCallback, hw, htake]
    have hpush : (resume (.frame a (handle :: todo) ran) h).2 =
        .push ((beginTick g handle
          (h.onWindow a fun w => { w with queue := q })).2
          ++ [.frame a todo (ran + 1)]) :=
      congrArg Prod.snd (frame_taken htook todo)
    rw [hpush]
    refine List.mem_append_left rest (List.mem_map_of_mem ?_)
    simp [beginTick]

theorem alive_issue {op : Op K Logic} {stack : List (Level (Task K) (Callee K))}
    (hcontrol : HasControl stack) (ha : Alive h stack)
    (spares : forall a handle, op = .cancel a handle -> Spares h a handle) :
    Alive (perform op h).1 ((perform op h).2.over stack) := by
  refine ⟨safe_issue hcontrol ha.safe spares, ?_⟩
  intro g l hd
  exact mem_over (ha.asked g l (due_operates (operates_perform op h) hd))
    fun _ _ => hcontrol

theorem alive_giveBack {c : Callee K} (ha : Alive h (.outside c :: rest)) :
    Alive h rest := by
  refine ⟨safe_giveBack ha.safe, ?_⟩
  intro g l hd
  rcases List.mem_cons.mp (ha.asked g l hd) with htop | hbelow
  · cases htop
  · exact hbelow

/-!
# Runs
-/

variable {m n : HostMachine K Logic}

omit [DecidableEq K] in
theorem Still.not_due {h : Host K Logic} (hs : Still h) {g : Nat} {l : Loop} :
    ¬ Due h g l := by
  intro hd
  rcases viewer_of_loop hd.present with ⟨v, hv, rfl⟩
  have hidle : v.state = .idle := (hs.loops g v hv).2.1
  cases hidle.symm.trans hd.running

theorem alive_of_reaches (still : Still m.world) (unused : m.stack = [])
    (run : Reaches (component K Logic) Smooth m n) : Alive n.world n.stack := by
  refine run.keeps (P := Alive) ?_ ?_ ?_ ?_ ?_
  · refine ⟨safe_of_reaches still unused .refl, ?_⟩
    intro g l hd
    exact absurd hd still.not_due
  · intro k t rest hstack hsmooth ha
    exact alive_work ha (hsmooth.logic t rest rfl hstack)
  · intro k op hcontrol hsmooth ha
    exact alive_issue hcontrol ha fun a handle hop =>
      hsmooth.spares a handle (hop ▸ rfl)
  · intro w c rest ha
    exact alive_giveBack ha
  · intro k c rest e _ hsmooth _
    exact absurd rfl (hsmooth.outside e)

/-- When nothing raises and no tick of a viewer is under way, a viewer that
shows the cube or the arrow has exactly one tick pending while it runs, under
the handle that it keeps, and none while it is idle. -/
theorem loop_neither_stalls_nor_doubles (still : Still m.world)
    (unused : m.stack = []) (run : Reaches (component K Logic) Smooth m n)
    {g : Nat} {v : Viewer K Logic} (hv : n.world.viewers[g]? = some v)
    (kind : (exists scene, v.logic = .cube scene) ∨ exists compass,
      v.logic = .arrow compass)
    (between : .work (.rearm g) ∉ n.stack) :
    exists w, n.world.windows[v.window]? = some w
      ∧ (v.state = .running ->
          exists handle,
            v.tickHandle = some handle ∧ w.queue.handlesOf (.tick g) = [handle])
      ∧ (v.state = .idle ->
        v.tickHandle = none ∧ w.queue.handlesOf (.tick g) = []) := by
  have ha := alive_of_reaches still unused run
  rcases ha.safe.coherent.inStep g v.loop (loops_loop hv) with ⟨r, hr, hstep⟩
  rcases window_of_rack hr with ⟨w, hw, rfl⟩
  have hticks : w.queue.handlesOf (.tick g) = v.tickHandle.toList :=
    hstep.holds.ticks
  refine ⟨w, hw, ?_, ?_⟩
  · intro hrunning
    cases hhandle : v.tickHandle with
    | none =>
        have hkind : v.logic.isUnending = true := by
          rcases kind with ⟨scene, hlogic⟩ | ⟨compass, hlogic⟩
          · rw [hlogic]
            rfl
          · rw [hlogic]
            rfl
        have hdue : Due n.world g v.loop := by
          refine ⟨?_, loops_loop hv, hrunning, hhandle⟩
          unfold unending
          rw [hv, Option.map_some, hkind]
        exact absurd (ha.asked g v.loop hdue) between
    | some handle =>
        rw [hhandle] at hticks
        exact ⟨handle, rfl, hticks⟩
  · intro hidle
    have hspent := hstep.spent_of_idle hidle
    rw [hspent] at hticks
    exact ⟨hspent, hticks⟩

def smoothly (k : HostMachine K Logic) (move : Move (Op K Logic)) : Bool :=
  match move, k.stack with
  | .work, .work t :: _ =>
      match (resume t k.world).2 with
      | .fail _ => false
      | _ => true
  | .issue (.cancel _ _), _ => false
  | .throw _, _ => false
  | _, _ => true

theorem smooth_of_smoothly (k : HostMachine K Logic) (move : Move (Op K Logic))
    (h : smoothly k move = true) : Smooth k move := by
  constructor
  · intro a handle hmove
    subst hmove
    cases h
  · intro e hmove
    subst hmove
    cases h
  · intro t rest hmove hstack _ e hfail
    subst hmove
    simp [smoothly, hstack, hfail] at h

/-- An observer resets the loop during its first tick: once the tick is over,
exactly the tick that the new start has asked for is pending. -/
theorem reset_in_tick_alive :
    exists (n : HostMachine String Logic) (v : Viewer String Logic),
      Reaches (component String Logic) Smooth
          ⟨oneViewer (.cube (.start ⟨[], []⟩ 0.5)), [], .ok .nothing⟩ n
        ∧ n.stack = [] ∧ n.world.viewers[0]? = some v ∧ v.state = .running
        ∧ exists w,
          n.world.windows[v.window]? = some w
            ∧ w.queue.handlesOf (.tick 0) = [2] := by
  let moves : List (Move (Op String Logic)) :=
    [.issue (.observe 0 frameType "k"), .issue (.run 0), .work, .work, .work,
      .work, .issue (.frame 0), .work, .work, .issue (.reset 0), .work, .work,
      .work, .work, .work, .work, .giveBack, .work, .work, .work, .work, .work]
  have run : Reaches (component String Logic) Smooth
      ⟨oneViewer (.cube (.start ⟨[], []⟩ 0.5)), [], .ok .nothing⟩ _ :=
    reaches_of_foldlM smooth_of_smoothly (show moves.foldlM _ _ = _ from rfl)
  refine ⟨_, _, run, rfl, rfl, rfl, ?_⟩
  rcases loop_neither_stalls_nor_doubles (still_oneViewer _) rfl run (g := 0)
    rfl
    (.inl ⟨_, rfl⟩) List.not_mem_nil with ⟨w, hw, hrunning, _⟩
  rcases hrunning rfl with ⟨handle, hhandle, hticks⟩
  cases hhandle
  exact ⟨w, hw, hticks⟩

end Host
end WireView
