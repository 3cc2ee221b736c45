import WireView.Proofs.Host.Conduct
import WireView.Proofs.Host.Outlook
import WireView.Proofs.Host.Repaint

/-!
# Ticks that fail

A tick spends its handle first and asks for the next one last.  Whoever raises
in between, an observer of the tick or the logic, takes with it what the tick
has still to do, and the frame.  The loop is left as it is at that moment: if
nobody has stopped or started it during the tick, it runs and has no tick
pending, and it does not get one by being run again.
-/

namespace WireView
namespace Host

open Reentrant Machine

variable {K L : Type} [LoopLogic L] [DecidableEq K]

/-!
# What is left undone
-/

/-- The work that a move takes off the stack by a failure. -/
def abandoned (m : HostMachine K L) (move : Move (Op K L)) : List (Task K) :=
  match move, m.stack with
  | .work, .work t :: rest =>
      match (resume t m.world).2 with
      | .fail _ => t :: segment rest
      | _ => []
  | .throw _, .outside _ :: rest => segment rest
  | _, _ => []

/-- Where a tick of a viewer is left by a failure: an observer of the tick
throws, or its logic fails to be updated, to be drawn, or to say whether it
runs. -/
inductive Raises (g : Nat) (e : Failure) (m : HostMachine K L) :
    Move (Op K L) -> Prop where
  | observer (k : K) (rest : List (Level (Task K) (Callee K)))
      (stack : m.stack = .outside (.viewer k frameType g) :: rest) :
      Raises g e m (.throw e)
  | logic (t : Task K) (rest : List (Level (Task K) (Callee K)))
      (stack : m.stack = .work t :: rest)
      (piece : t = .update g ∨ t = .draw g ∨ t = .rearm g)
      (fails : (resume t m.world).2 = .fail e) : Raises g e m .work

section Fail

variable {h : Host K L} {t : Task K} {e : Failure}

omit [LoopLogic L] [DecidableEq K] in
theorem world_of_afterLogic {α : Type} {r : Host K L × Except Failure α}
    {f : α -> Host K L -> Outcome K L} (hfail : (afterLogic r f).2 = .fail e)
    (hf : forall a h, (f a h).2 ≠ .fail e) : (afterLogic r f).1 = r.1 := by
  rcases r with ⟨h, e' | a⟩
  · rfl
  · exact absurd hfail (hf a h)

theorem loops_of_fail {g : Nat}
    (piece : t = .update g ∨ t = .draw g ∨ t = .rearm g)
    (hfail : (resume t h).2 = .fail e) : (resume t h).1.loops = h.loops := by
  have hviewer : forall {f : Viewer K L -> Host K L -> Outcome K L},
      (forall v, (f v h).2 = .fail e -> (f v h).1.loops = h.loops) ->
      (withViewer g f h).2 = .fail e ->
        (withViewer g f h).1.loops = h.loops := by
    intro f hf
    unfold withViewer
    split
    · exact hf _
    · nofun
  rcases piece with rfl | rfl | rfl
  · refine hviewer (fun v hv => ?_) hfail
    refine (congrArg Host.loops (world_of_afterLogic hv fun _ _ => nofun)).trans
      ?_
    unfold Host.onLogic
    exact loops_onViewer_same (by intro v; rfl) h g
  · refine hviewer (fun v hv => ?_) hfail
    refine (congrArg Host.loops (world_of_afterLogic hv fun _ _ => nofun)).trans
      ?_
    unfold Host.onEasel
    exact loops_onViewer_same (by intro v; rfl) h g
  · refine hviewer (fun v => ?_) hfail
    unfold rearm
    split
    · nofun
    · split
      · nofun
      · nofun
      · exact fun _ => rfl

end Fail

section Abandoned

variable {m n : HostMachine K L} {move : Move (Op K L)} {g : Nat}

omit [LoopLogic L] [DecidableEq K] in
theorem eq_of_rearm_mem_tail {i : Nat} {ts : List (Task K)} (tail : IsTail i ts)
    (h : .rearm g ∈ ts) :
    g = i := by
  rcases tail with ⟨a, todo, ran, rfl⟩
  simpa using h

omit [LoopLogic L] [DecidableEq K] in
theorem rearm_follows {t : Task K} {ts : List (Task K)} (hbelow : Follows t ts)
    (h : .rearm g ∈ ts) :
    (exists todo, t = .notify g frameType todo) ∨ t = .update g
      ∨ t = .draw g := by
  cases t with
  | run i =>
      cases hbelow
      cases h
  | setUp i =>
      cases hbelow
      simp at h
  | start i =>
      cases hbelow
      cases h
  | stop i =>
      rcases hbelow with rfl | rfl
      · cases h
      · simp at h
  | notify i type todo =>
      rcases hbelow with ⟨_, rfl | rfl⟩ | ⟨rfl, tail, htail, rfl⟩
      · cases h
      · simp at h
      · have hmem : .rearm g ∈ tail := by simpa using h
        cases eq_of_rearm_mem_tail htail hmem
        exact .inl ⟨todo, rfl⟩
  | press a e todo =>
      rcases hbelow with rfl | ⟨b, todo', rfl⟩
      · cases h
      · simp at h
  | frame a todo ran =>
      cases hbelow
      cases h
  | poll a todo =>
      cases hbelow
      cases h
  | update i =>
      rcases hbelow with ⟨tail, htail, rfl⟩
      have hmem : .rearm g ∈ tail := by simpa using h
      cases eq_of_rearm_mem_tail htail hmem
      exact .inr (.inl rfl)
  | draw i =>
      cases eq_of_rearm_mem_tail hbelow h
      exact .inr (.inr rfl)
  | rearm i =>
      rcases hbelow with ⟨a, todo, ran, rfl⟩
      simp at h

/-- A tick is left at the points listed, and what is raised there reaches
whoever ran the frame.  It changes no loop and no window. -/
theorem raises_of_abandoned (shaped : Shaped m.stack)
    (hmove : m.move? (component K L) move = some n)
    (left : .rearm g ∈ abandoned m move) :
    exists e, Raises g e m move ∧ n.result = .error e ∧ HasControl n.stack
      ∧ n.world.loops = m.world.loops := by
  cases move with
  | work =>
      rcases move?_work hmove with ⟨t, rest, hstack, rfl⟩
      rw [hstack] at shaped
      simp only [abandoned, hstack] at left
      split at left
      · rename_i e hfail
        have hstop :
            (m.proceed rest ((component K L).resume t m.world)).stack =
              unwind rest := by
          rw [proceed_stack]
          show (resume t m.world).2.over rest = _
          rw [hfail]
          rfl
        have hpiece : t = .update g ∨ t = .draw g ∨ t = .rearm g := by
          rcases List.mem_cons.mp left with heq | hbelow
          · exact .inr (.inr heq.symm)
          · rcases rearm_follows shaped.1 hbelow with
              ⟨todo, rfl⟩ | hupdate | hdraw
            · exact absurd hfail (notify_ne_fail g frameType _ todo _)
            · exact .inl hupdate
            · exact .inr (.inl hdraw)
        refine ⟨e, .logic t rest hstack hpiece hfail, proceed_fail hfail, ?_,
          ?_⟩
        · rw [hstop]
          exact hasControl_unwind rest
        · rw [proceed_world]
          exact loops_of_fail hpiece hfail
      · cases left
  | issue op => cases left
  | giveBack => cases left
  | throw e =>
      rcases move?_throw hmove with ⟨c, rest, hstack, rfl⟩
      simp only [abandoned, hstack] at left
      rw [hstack] at shaped
      rcases shaped with ⟨⟨t, ts, hsegment, hawaits⟩, hrest⟩
      refine ⟨e, ?_, rfl, hasControl_unwind rest, rfl⟩
      -- outside code goes back to the work that called it, which tells of the
      -- tick
      cases rest with
      | nil => cases hsegment
      | cons l below =>
          cases l with
          | outside c' => cases hsegment
          | work t' =>
              cases hsegment
              have htold : exists todo, t = .notify g frameType todo := by
                rcases List.mem_cons.mp left with heq | hbelow
                · subst heq
                  cases c <;> cases hawaits
                · rcases rearm_follows hrest.1 hbelow with htold | rfl | rfl
                  · exact htold
                  · cases c <;> cases hawaits
                  · cases c <;> cases hawaits
              rcases htold with ⟨todo, rfl⟩
              cases c with
              | frame k handle => cases hawaits
              | key k a event => cases hawaits
              | viewer k type i =>
                  rcases hawaits with ⟨rfl, rfl⟩
                  exact .observer k _ hstack

end Abandoned

/-!
# Loops that nobody steers
-/

def Unsteered (g : Nat) (_ : HostMachine K L) (move : Move (Op K L)) : Prop :=
  forall op, move = .issue op -> op.steers g = false ∧ op ≠ .close g

section Unsteered

variable {h h' : Host K L} {g : Nat} {v : Viewer K L} {t : Task K}

theorem loop_works (hw : Works t h h') (hv : h.viewers[g]? = some v) :
    h'.loops.loop g = some v.loop ∨ t = .start g ∨ t = .stop g ∨ t = .rearm g
      ∨ exists a handle, (handle, .tick g) ∈ pendingIn a h := by
  have honLoop :
      forall {i : Nat} {f : Viewer K L -> Window K -> Viewer K L × Window K},
        h'.fittings = (h.onLoop i f).fittings ->
          h'.loops.loop g = some v.loop ∨ i = g := by
    intro i f change
    rw [loops_of_fittings change]
    rcases viewer_onLoop (i := i) hv f with hsame | ⟨hi, _⟩
    · exact .inl (loops_loop hsame)
    · exact .inr hi
  cases hw with
  | quiet change =>
      rw [loops_of_fittings change]
      exact .inl (loops_loop hv)
  | think present thought change =>
      rw [loops_of_fittings change, loops_onViewer_same (by intro v; rfl)]
      exact .inl (loops_loop hv)
  | paint change =>
      rw [loops_of_fittings change, loops_onViewer_same (by intro v; rfl)]
      exact .inl (loops_loop hv)
  | start change => exact (honLoop change).imp_right fun hi => .inl (by rw [hi])
  | stop present running change =>
      exact (honLoop change).imp_right fun hi => .inr (.inl (by rw [hi]))
  | take present taken change =>
      rw [loops_of_fittings change]
      exact .inl (loops_loop (h := h.onWindow _ _) hv)
  | tick present taken change =>
      rename_i a handle ran i todo w q
      by_cases hi : g = i
      · subst hi
        refine .inr (.inr (.inr (.inr ⟨a, handle, ?_⟩)))
        exact mem_pendingIn.mpr ⟨w, present, (FrameQueue.mem_of_take taken).1⟩
      · rw [loops_of_fittings change, loop_onViewer_of_ne hi]
        exact .inl (loops_loop (h := h.onWindow _ _) hv)
  | rearm present spent running change =>
      exact (honLoop change).imp_right fun hi => .inr (.inr (.inl (by rw [hi])))

theorem loop_perform (op : Op K L) (hv : h.viewers[g]? = some v)
    (hop : op ≠ .close g) :
    (perform op h).1.loops.loop g = some v.loop := by
  rcases alters_perform op hv with ⟨v', hv', halters⟩
  rw [loops_loop hv']
  cases halters with
  | same => rfl
  | shut w => exact absurd rfl hop
  | observe type k => rfl
  | unobserve type k => rfl

theorem pending_of_rearm (hu : .rearm g ∈ (resume t h).2.tasks) :
    exists a handle, (handle, .tick g) ∈ pendingIn a h := by
  have hturn : exists a handle todo ran, t = .frame a (handle :: todo) ran := by
    have hp := continues_resume t h
    generalize (resume t h).2 = p at hp hu
    cases hp with
    | tick a handle i observers todo ran => exact ⟨a, handle, todo, ran, rfl⟩
    | _ => simp [Progress.tasks] at hu
  rcases hturn with ⟨a, handle, todo, ran, rfl⟩
  refine frame_elim (motive := fun o : Outcome K L => .rearm g ∈ o.2.tasks ->
    exists a handle, (handle, .tick g) ∈ pendingIn a h) a ran h (handle :: todo)
    ?_ ?_ ?_ ?_ ?_ hu
  · intro _ hu
    simp [finish, Progress.tasks] at hu
  · intro _ hu
    simp [finish, Progress.tasks] at hu
  · rintro k w q handle rest _ hw hq hu
    simp [Progress.tasks] at hu
  · rintro i w q handle rest _ hw hq hu
    have hi : g = i := by
      simpa [frameTurn, beginTick, announce, Progress.tasks] using hu
    subst hi
    exact ⟨a, handle, mem_pendingIn.mpr ⟨w, hw, (FrameQueue.mem_of_take hq).1⟩⟩
  · rintro handle rest _ hu
    simp [Progress.tasks] at hu

variable {tail : List (Level (Task K) (Callee K))} {m n : HostMachine K L}
  {move : Move (Op K L)}

/-- A loop that runs and has spent its tick, which is not over yet or has been
left.  What lies above the end of the tick neither starts nor stops the loop nor
asks for a tick of it. -/
structure Unaided (g : Nat) (tail : List (Level (Task K) (Callee K)))
    (m : HostMachine K L) : Prop where
  loop : exists l,
    m.world.loops.loop g = some l ∧ l.state = .running ∧ l.tickHandle = none
  stack : m.stack.length < tail.length
    ∨ exists above, m.stack = above ++ tail
      ∧ forall u, .work u ∈ above -> u.concerns g = false ∧ u ≠ .rearm g

theorem not_pending_of_spent (steady : Steady m.world m.stack) {l : Loop}
    (hl : m.world.loops.loop g = some l) (spent : l.tickHandle = none)
    (a handle : Nat) : (handle, .tick g) ∉ pendingIn a m.world := by
  intro hmem
  have hown := (steady.owner_of_pending hl hmem).2.1
  rw [spent] at hown
  cases hown

section Spent

variable (steady : Steady m.world m.stack)
  (hv : m.world.viewers[g]? = some v) (spent : v.tickHandle = none)
  (clear : forall t rest, m.stack = .work t :: rest ->
    t.concerns g = false ∧ t ≠ .rearm g)
  (unsteered : Unsteered g m move)
  (hmove : m.move? (component K L) move = some n)

include steady hv spent clear unsteered hmove

theorem loop_of_spent : n.world.loops.loop g = some v.loop := by
  have hl : m.world.loops.loop g = some v.loop := loops_loop hv
  cases move with
  | work =>
      rcases move?_work hmove with ⟨t, rest, hs, rfl⟩
      rw [proceed_world]
      have ht := clear t rest hs
      rcases loop_works (works_resume t m.world) hv with
        hsame | rfl | rfl | rfl | ⟨a, handle, hpending⟩
      · exact hsame
      · exact absurd ht.1 (by simp [Task.concerns])
      · exact absurd ht.1 (by simp [Task.concerns])
      · exact absurd rfl ht.2
      · exact absurd hpending (not_pending_of_spent steady hl spent a handle)
  | issue op =>
      rcases move?_issue hmove with ⟨_, rfl⟩
      unfold Machine.issue
      rw [proceed_world]
      exact loop_perform op hv (unsteered op rfl).2
  | giveBack =>
      rcases move?_giveBack hmove with ⟨c, rest, _, rfl⟩
      exact hl
  | throw e =>
      rcases move?_throw hmove with ⟨c, rest, _, rfl⟩
      exact hl

theorem clear_of_spent {u : Task K}
    (hu : u ∈ (Moment.mk m move).leaves (component K L)) :
    u.concerns g = false ∧ u ≠ .rearm g := by
  cases move with
  | work =>
      rcases move?_work hmove with ⟨t, rest, hs, _⟩
      simp only [Moment.leaves, hs] at hu
      refine ⟨unconcerned_resume m.world (clear t rest hs).1 hu, ?_⟩
      rintro rfl
      rcases pending_of_rearm hu with ⟨a, handle, hpending⟩
      exact not_pending_of_spent steady (loops_loop hv) spent a handle hpending
  | issue op =>
      refine ⟨unconcerned_perform m.world (unsteered op rfl).1 hu, ?_⟩
      rintro rfl
      have hbegun := begins_perform op m.world
      have hmem : .rearm g ∈ (perform op m.world).2.tasks := hu
      generalize (perform op m.world).2.tasks = tasks at hbegun hmem
      cases hbegun <;> simp at hmem
  | giveBack => cases hu
  | throw e => cases hu

end Spent

theorem unaided_of_move (steady : Steady m.world m.stack)
    (h : Unaided g (.work (.rearm g) :: tail) m)
    (allowed : during (.work (.rearm g) :: tail) (Unsteered g) m move)
    (hmove : m.move? (component K L) move = some n) :
    Unaided g (.work (.rearm g) :: tail) n := by
  rcases h.loop with ⟨l, hl, hrunning, spent⟩
  rcases viewer_of_loop hl with ⟨v, hv, rfl⟩
  rcases h.stack with hlow | ⟨above, hstack, hclear⟩
  · exact absurd allowed.2 (Nat.not_lt_of_lt hlow)
  have hne : above ≠ [] := by
    rintro rfl
    exact stack_ne_of_during allowed hstack
  have htop : forall t rest, m.stack = .work t :: rest ->
      t.concerns g = false ∧ t ≠ .rearm g := by
    intro t rest hs
    cases above with
    | nil => exact absurd rfl hne
    | cons l above =>
        rw [hstack] at hs
        cases hs
        exact hclear t List.mem_cons_self
  constructor
  · exact ⟨v.loop, loop_of_spent steady hv spent htop allowed.1 hmove, hrunning,
      spent⟩
  · rcases move?_above hmove hstack hne with
      ⟨above', hstack', hlevels⟩ | ⟨hunwound, _⟩
    · refine .inr ⟨above', hstack', fun u hu => ?_⟩
      rcases hlevels _ hu with hbrought | hbefore
      · exact clear_of_spent steady hv spent htop allowed.1 hmove
          (Moment.work_mem_brings hbrought)
      · exact hclear u hbefore
    · left
      rw [hunwound]
      have hdropped : (unwind tail).length ≤ tail.length :=
        (List.dropWhile_sublist _).length_le
      exact Nat.lt_succ_of_le hdropped

theorem unaided_of_course (steady : Steady m.world m.stack)
    (h : Unaided g (.work (.rearm g) :: tail) m) {past : List (HostMoment K L)}
    (course : History (component K L)
      (during (.work (.rearm g) :: tail) (Unsteered g)) m past n) :
    Unaided g (.work (.rearm g) :: tail) n := by
  induction course with
  | start => exact h
  | step hpast hrule hmove ih =>
      exact unaided_of_move (steady.reaches hpast.reaches) ih hrule hmove

/-- A frame begins the tick of a viewer in its turn; what it puts below the end
of the tick is the rest of the frame. -/
inductive BeginsTick (g : Nat) (m n : HostMachine K L) :
    List (Level (Task K) (Callee K)) -> Prop where
  | turn {a handle ran : Nat} {todo : List Nat}
      {rest : List (Level (Task K) (Callee K))} {h : Host K L}
      (stack : m.stack = .work (.frame a (handle :: todo) ran) :: rest)
      (taken : m.world.takeCallback a handle = some (.tick g, h))
      (move : m.move? (component K L) .work = some n) :
      BeginsTick g m n (.work (.frame a todo (ran + 1)) :: rest)

theorem unaided_of_begins (steady : Steady m.world m.stack)
    (begins : BeginsTick g m n tail) :
    Unaided g (.work (.rearm g) :: tail) n := by
  cases begins with
  | turn stack taken hmove =>
      rename_i a handle ran todo rest h
      rcases move?_under_work hmove stack with ⟨_, rfl⟩
      have hresume :
          (component K L).resume (.frame a (handle :: todo) ran) m.world =
          ((beginTick g handle h).1,
            .push ((beginTick g handle h).2 ++ [.frame a todo (ran + 1)])) :=
        frame_taken taken todo
      rcases takeCallback_eq taken with ⟨w, q, hw, hq, rfl⟩
      have hpending : (handle, .tick g) ∈ pendingIn a m.world :=
        mem_pendingIn.mpr ⟨w, hw, (FrameQueue.mem_of_take hq).1⟩
      rcases steady.awake_of_pending hpending with ⟨v, hv, hrunning, _⟩
      rw [hresume]
      refine ⟨⟨{ v.loop with tickHandle := none }, ?_, hrunning, rfl⟩,
        .inr ⟨levels
          [announce g frameType _, .update g, .draw g], rfl, ?_⟩⟩
      · rw [proceed_world]
        have hv' :
            (m.world.onWindow a fun w => { w with queue := q }).viewers[g]? =
              some v := hv
        have hspent :=
          viewer_onViewer (i := g) hv' fun v => { v with tickHandle := none }
        rw [if_pos rfl] at hspent
        exact loops_loop hspent
      · intro u hu
        have hframe : (frameType = runningType) = False := eq_false frameType_ne
        simp only [levels, List.map_cons, List.map_nil, List.mem_cons,
          Level.work.injEq, List.not_mem_nil, or_false] at hu
        rcases hu with rfl | rfl | rfl
        · exact ⟨by simp [announce, Task.concerns, hframe], fun h => by cases h⟩
        · exact ⟨rfl, fun h => by cases h⟩
        · exact ⟨rfl, fun h => by cases h⟩

end Unsteered

/-!
# After a failed tick
-/

section After

variable {m₀ m n : HostMachine K L} {move : Move (Op K L)} {g : Nat}
  {v : Viewer K L}

/-- A tick that is pending is begun by the next frame, unless its viewer is
halted or the frame fails before its turn. -/
theorem next_frame_ticks (still : Still m₀.world) (unused : m₀.stack = [])
    (run : Reaches (component K L) SparesTicks m₀ m)
    (ready : HasControl m.stack) {a handle : Nat}
    (pending : (handle, .tick g) ∈ pendingIn a m.world)
    {past : List (HostMoment K L)}
    (course : History (component K L) (during m.stack Undisturbed)
      (m.issue (component K L) (.frame a)) past n)
    (ended : n.stack = m.stack) :
    ticksBegun g n.world = handle :: ticksBegun g m.world
      ∨ HaltedBefore m.stack g past handle
      ∨ FailedBefore m.stack past n handle := by
  rcases (repaint_of_course still unused run ready a g course).1 with ⟨new, r⟩
  rcases r.account handle pending with ⟨hwaits, _⟩ | hnew | hrest
  · rw [ended, unstarted_self] at hwaits
    cases hwaits
  · rw [r.begun, hnew]
    exact .inl rfl
  · exact .inr hrest

structure Manageable (m₀ : HostMachine K L) (g : Nat) (p : HostMachine K L)
    (u : Viewer K L) : Prop where
  run_running : u.state = .running ->
    after p (.run g) = ⟨p.world, p.stack, .ok .nothing⟩
  stop_running : u.state = .running ->
    exists l, (after p (.stop g)).world.loops.loop g = some l
      ∧ l.state = .idle ∧ Tickless g (after p (.stop g)).world
  run_idle : u.state = .idle -> u.isClosed = false ->
    (forall e, (resume (.setUp g) p.world).2 ≠ .fail e) ->
    exists l handle, (after p (.run g)).world.loops.loop g = some l
      ∧ l.state = .running ∧ l.tickHandle = some handle
      ∧ SoleTick g (after p (.run g)).world l.window handle
  next_frame : forall handle past q,
    (handle, .tick g) ∈ pendingIn u.window p.world ->
    Reaches (component K L) SparesTicks m₀ p ->
    History (component K L) (during p.stack Undisturbed)
      (p.issue (component K L) (.frame u.window)) past q ->
    q.stack = p.stack ->
    ticksBegun g q.world = handle :: ticksBegun g p.world
      ∨ HaltedBefore p.stack g past handle ∨ FailedBefore p.stack past q handle

theorem manageable (still : Still m₀.world) (unused : m₀.stack = [])
    {p : HostMachine K L} {u : Viewer K L} (steady : Steady p.world p.stack)
    (ready : HasControl p.stack) (hu : p.world.viewers[g]? = some u) :
    Manageable m₀ g p u where
  run_running := settle_run_running ready hu
  stop_running := settle_stop_running steady ready hu
  run_idle := settle_run_idle steady ready hu
  next_frame := fun _ _ _ pending spares course ended =>
    next_frame_ticks still unused spares ready pending course ended

/-- A tick that is left by what an observer of it or the logic raises, at
whatever moment of whatever run, leaves loops, queues and key listeners exactly
as they are then, and what was raised reaches whoever has run the frame.  So the
loop is idle, or it runs and one tick of it is pending under its handle, or it
runs and none is pending.  It comes to the last if nobody runs, stops, resets or
closes the viewer during the tick.  From then on the loop can be run and stopped
as ever: to run it while it is idle makes it tick in the next frame, to run it
while it runs does nothing. -/
theorem failed_tick_leaves_loop_as_it_is (still : Still m₀.world)
    (unused : m₀.stack = []) (run : Reaches (component K L) anyMove m₀ m)
    (hv : m.world.viewers[g]? = some v)
    (hmove : m.move? (component K L) move = some n)
    (left : .rearm g ∈ abandoned m move) :
    (exists e, Raises g e m move ∧ n.result = .error e ∧ HasControl n.stack)
      ∧ n.world.loops = m.world.loops
      ∧ Outlook g n.world v.loop
      ∧ (forall k b tail past,
        Reaches (component K L) anyMove m₀ k -> BeginsTick g k b tail ->
          History (component K L)
            (during (.work (.rearm g) :: tail) (Unsteered g)) b past m ->
          v.state = .running ∧ Tickless g n.world)
      ∧ forall p u, Reaches (component K L) anyMove n p -> HasControl p.stack ->
          p.world.viewers[g]? = some u -> Manageable m₀ g p u := by
  have hm := steady_of_reaches still unused run
  rcases raises_of_abandoned hm.poised.shaped hmove left with
    ⟨e, hraises, hresult, hcontrol, hloops⟩
  have hn : Steady n.world n.stack := hm.move hmove
  have hloop : n.world.loops.loop g = some v.loop := by
    rw [hloops]
    exact loops_loop hv
  refine ⟨⟨e, hraises, hresult, hcontrol⟩, hloops, hn.outlook hloop, ?_, ?_⟩
  · intro k b tail past reached begins course
    have hk := steady_of_reaches still unused reached
    have hb : Steady b.world b.stack := by
      cases begins with
      | turn stack taken hbegins => exact hk.move hbegins
    rcases (unaided_of_course hb (unaided_of_begins hk begins) course).loop with
      ⟨l, hl, hrunning, hspent⟩
    cases (loops_loop hv).symm.trans hl
    exact ⟨hrunning, not_pending_of_spent hn hloop hspent⟩
  · intro p u reached ready hu
    exact manageable still unused (hn.reaches reached) ready hu

end After

/-- An observer of the first tick throws: the loop runs, its logic would have it
go on, no tick of it is pending, and running it again does nothing. -/
theorem failed_tick_stalls_viewer :
    exists (m n : HostMachine String Logic) (v : Viewer String Logic),
      Reaches (component String Logic) anyMove
        ⟨oneViewer .standard, [], .ok .nothing⟩ m
        ∧ m.move? (component String Logic) (.throw .unsupported) = some n
        ∧ .rearm 0 ∈ abandoned m (.throw .unsupported)
        ∧ n.world.viewers[0]? = some v
        ∧ LoopLogic.isRunning v.logic = .ok true
        ∧ ¬ (v.state = .idle ∨ exists a handle,
          (handle, .tick 0) ∈ pendingIn a n.world)
        ∧ after n (.run 0) = ⟨n.world, n.stack, .ok .nothing⟩ := by
  let moves : List (Move (Op String Logic)) :=
    [.issue (.observe 0 frameType "k"), .issue (.run 0), .work, .work, .work,
      .work, .issue (.frame 0), .work, .work]
  have every :
      forall (k : HostMachine String Logic) (move : Move (Op String Logic)),
        true = true -> anyMove k move := fun _ _ _ => trivial
  have run : Reaches (component String Logic) anyMove
      ⟨oneViewer .standard, [], .ok .nothing⟩ _ :=
    reaches_of_foldlM every (show moves.foldlM _ _ = _ from rfl)
  have steady := steady_of_reaches (still_oneViewer .standard) rfl run
  refine ⟨_, _, _, run, rfl, List.mem_cons_of_mem _ (List.mem_cons_of_mem _
    (List.mem_cons_of_mem _ List.mem_cons_self)), rfl, rfl, ?_,
    settle_run_running hasControl_nil rfl rfl⟩
  rintro (hidle | ⟨a, handle, hpending⟩)
  · cases hidle
  · have hmoved := steady.move
      (show Machine.move? (component String Logic) _
        (.throw .unsupported) = _ from rfl)
    cases (hmoved.owner_of_pending (loops_loop rfl) hpending).2.1

/-- An observer of the first tick resets the loop and throws: the tick that the
new start has asked for is the only one that is pending. -/
theorem failed_tick_after_reset :
    exists (m n : HostMachine String Logic) (v : Viewer String Logic),
      Reaches (component String Logic) anyMove
        ⟨oneViewer .standard, [], .ok .nothing⟩ m
        ∧ m.move? (component String Logic) (.throw .unsupported) = some n
        ∧ .rearm 0 ∈ abandoned m (.throw .unsupported)
        ∧ m.world.viewers[0]? = some v
        ∧ n.result = .error .unsupported
        ∧ v.loop.state = .running ∧ v.loop.tickHandle = some 2
        ∧ SoleTick 0 n.world v.loop.window 2 := by
  let moves : List (Move (Op String Logic)) :=
    [.issue (.observe 0 frameType "k"), .issue (.run 0), .work, .work, .work,
      .work, .issue (.frame 0), .work, .work, .issue (.reset 0), .work, .work,
      .work, .work, .work, .work]
  have every :
      forall (k : HostMachine String Logic) (move : Move (Op String Logic)),
        true = true -> anyMove k move := fun _ _ _ => trivial
  have run : Reaches (component String Logic) anyMove
      ⟨oneViewer .standard, [], .ok .nothing⟩ _ :=
    reaches_of_foldlM every (show moves.foldlM _ _ = _ from rfl)
  rcases failed_tick_leaves_loop_as_it_is (g := 0) (still_oneViewer _) rfl run
    rfl
    (show Machine.move? (component String Logic) _ (.throw .unsupported) = _
      from rfl)
    (List.mem_cons_of_mem _
      (List.mem_cons_of_mem _ (List.mem_cons_of_mem _ List.mem_cons_self)))
    with ⟨⟨_, hraises, hresult, _⟩, _, houtlook, _⟩
  cases hraises
  exact ⟨_, _, _, run, rfl,
    List.mem_cons_of_mem _ (List.mem_cons_of_mem _ (List.mem_cons_of_mem _
      List.mem_cons_self)), rfl, hresult,
        houtlook.ticking_of_pending (a := 0) List.mem_cons_self⟩

end Host
end WireView
