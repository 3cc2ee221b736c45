import WireView.Proofs.Host.Telling
import WireView.Proofs.Host.Withdrawal
import WireView.Proofs.Reentrant.Settling

/-!
# What a loop has to expect

Whatever outside code has done, a loop is in one of three conditions: it is idle
and no tick of it is pending, or it runs and one tick is pending under the
handle that it keeps, or it runs and none is pending.  The last one is a dead
end: running the loop once more does nothing, since it runs already.  Stopping
it leads back to the first one, and from there it can be started.
-/

namespace WireView
namespace Host

open Reentrant Machine

variable {K L : Type}

def Tickless (g : Nat) (h : Host K L) : Prop :=
  forall a handle, (handle, .tick g) ∉ pendingIn a h

def SoleTick (g : Nat) (h : Host K L) (a handle : Nat) : Prop :=
  forall b i, (i, .tick g) ∈ pendingIn b h ↔ b = a ∧ i = handle

inductive Outlook (g : Nat) (h : Host K L) (l : Loop) : Prop where
  | idle (state : l.state = .idle) (spent : l.tickHandle = none)
    (tickless : Tickless g h)
  | ticking (handle : Nat) (state : l.state = .running)
      (own : l.tickHandle = some handle)
      (sole : SoleTick g h l.window handle)
  | stalled (state : l.state = .running) (tickless : Tickless g h)

variable [DecidableEq K]

section Outlook

variable {g : Nat} {h : Host K L} {stack : List (Level (Task K) (Callee K))}
  {l : Loop}

theorem Steady.owner_of_pending [LoopLogic L] (hs : Steady h stack)
    (hl : h.loops.loop g = some l) {a handle : Nat}
    (pending : (handle, .tick g) ∈ pendingIn a h) :
    l.window = a ∧ l.tickHandle = some handle ∧ l.state = .running := by
  rcases hs.whole with ⟨whole, hwithin, hcoherent⟩
  rcases mem_pendingIn.mp pending with ⟨w, hw, hmem⟩
  rcases hwithin.windows a w hw with ⟨w', hw', hrack⟩
  rcases hcoherent.owner_of_tick (loops_rack hw') (hrack.pending _ hmem) with
    ⟨l', hl', hwindow, hhandle, hstep⟩
  have hsame : whole.loops.loop g = some l := by
    rw [← hl]
    unfold loops
    rw [hwithin.viewers]
  cases hsame.symm.trans hl'
  exact ⟨hwindow, hhandle, hstep.ticking (by rw [hhandle]; rfl)⟩

theorem Steady.outlook [LoopLogic L] (hs : Steady h stack)
    (hl : h.loops.loop g = some l) :
    Outlook g h l := by
  by_cases hpending : exists a handle, (handle, .tick g) ∈ pendingIn a h
  · rcases hpending with ⟨a, handle, hmem⟩
    rcases hs.owner_of_pending hl hmem with ⟨rfl, hhandle, hrunning⟩
    refine .ticking handle hrunning hhandle fun b i => ⟨fun hi => ?_, ?_⟩
    · rcases hs.owner_of_pending hl hi with ⟨hwindow, hown, _⟩
      exact ⟨hwindow.symm, Option.some.inj (hown.symm.trans hhandle)⟩
    · rintro ⟨rfl, rfl⟩
      exact hmem
  · have htickless : Tickless g h :=
      fun a handle hmem => hpending ⟨a, handle, hmem⟩
    cases hstate : l.state with
    | running => exact .stalled hstate htickless
    | idle =>
        rcases viewer_of_loop hl with ⟨v, hv, rfl⟩
        rcases hs.inStep hv with ⟨r, hstep⟩
        refine .idle hstate ?_ htickless
        cases hhandle : v.loop.tickHandle with
        | none => rfl
        | some handle =>
            exact absurd (hstep.ticking (by rw [hhandle]; rfl))
              (by rw [hstate]; nofun)

omit [DecidableEq K] in
theorem Outlook.tickless_of_idle (h' : Outlook g h l) (idle : l.state = .idle) :
    Tickless g h := by
  cases h' with
  | idle state spent tickless => exact tickless
  | ticking handle state own sole => cases idle.symm.trans state
  | stalled state tickless => cases idle.symm.trans state

omit [DecidableEq K] in
theorem Outlook.ticking_of_pending (h' : Outlook g h l) {a handle : Nat}
    (pending : (handle, .tick g) ∈ pendingIn a h) :
    l.state = .running ∧ l.tickHandle = some handle
      ∧ SoleTick g h l.window handle := by
  cases h' with
  | idle state spent tickless => exact absurd pending (tickless a handle)
  | ticking i state own sole =>
      rcases (sole a handle).mp pending with ⟨_, rfl⟩
      exact ⟨state, own, sole⟩
  | stalled state tickless => exact absurd pending (tickless a handle)

end Outlook

/-!
# Running and stopping a loop
-/

variable [LoopLogic L] {g : Nat} {m : HostMachine K L} {v : Viewer K L}

/-- An operation, and all that is done before somebody has control again. -/
abbrev after (m : HostMachine K L) (op : Op K L) : HostMachine K L :=
  (m.issue (component K L) op).settle (component K L)

theorem settle_notify {h : Host K L} {type : String}
    {rest : List (Level (Task K) (Callee K))} (ready : HasControl rest)
    (todo : List K) (r : Except Failure Value) :
    exists stack r',
      settle (component K L) ⟨h, .work (.notify g type todo) :: rest, r⟩ =
      ⟨h, stack, r'⟩ := by
  induction todo generalizing r with
  | nil =>
      rw [settle_done
        (show (component K L).resume (.notify g type []) h = (h, .done .nothing)
          from rfl),
        settle_rest ready]
      exact ⟨_, _, rfl⟩
  | cons k todo ih =>
      by_cases hlisted : k ∈ h.observers g type
      · have hresume : (component K L).resume (.notify g type (k :: todo)) h =
            (h, .call (.viewer k type g) [.notify g type todo]) :=
          notify_listed hlisted todo
        rw [settle_work, hresume]
        show exists stack r', settle (component K L)
          ⟨h,
           .outside (.viewer k type g) ::
             (levels [Task.notify g type todo] ++ rest), r⟩ = _
        rw [settle_rest (hasControl_outside _ _)]
        exact ⟨_, _, rfl⟩
      · have hresume : (component K L).resume (.notify g type (k :: todo)) h =
            (h, .push [.notify g type todo]) :=
          notify_unlisted hlisted todo
        rw [settle_push hresume]
        exact ih r

theorem settle_run_running (ready : HasControl m.stack)
    (hv : m.world.viewers[g]? = some v) (running : v.state = .running) :
    after m (.run g) = ⟨m.world, m.stack, .ok .nothing⟩ := by
  have hresume :
      (component K L).resume (.run g) m.world = (m.world, .done .nothing) := by
    show withViewer g (run g) m.world = _
    rw [withViewer_of_present hv]
    unfold run
    rw [if_pos running]
    rfl
  show settle _ ⟨m.world, .work (.run g) :: m.stack, m.result⟩ = _
  rw [settle_done hresume]
  exact settle_rest ready

omit [LoopLogic L] [DecidableEq K] in
theorem window_onLoop {h : Host K L} {w : Window K}
    (hv : h.viewers[g]? = some v) (hw : h.windows[v.window]? = some w)
    (f : Viewer K L -> Window K -> Viewer K L × Window K) :
    (h.onLoop g f).windows[v.window]? = some (f v w).2 := by
  unfold onLoop
  simp only [hv, hw]
  show (h.windows.modify v.window fun _ => (f v w).2)[v.window]? = _
  rw [Array.getElem?_modify, if_pos rfl, hw]
  rfl

theorem settle_run_idle (hs : Steady m.world m.stack)
    (ready : HasControl m.stack) (hv : m.world.viewers[g]? = some v)
    (idle : v.state = .idle) (isOpen : v.isClosed = false)
    (setUp : forall e, (resume (.setUp g) m.world).2 ≠ .fail e) :
    exists l handle,
      (after m (.run g)).world.loops.loop g = some l
        ∧ l.state = .running ∧ l.tickHandle = some handle
        ∧ SoleTick g (after m (.run g)).world l.window handle := by
  have hrun :
      (component K L).resume (.run g) m.world =
        (m.world, .push [.setUp g, .start g]) := by
    show withViewer g (run g) m.world = _
    rw [withViewer_of_present hv]
    unfold run
    rw [idle, if_neg nofun, isOpen, if_neg nofun]
  have hbegun : Steady m.world (.work (.run g) :: m.stack) :=
    @steady_issue _ _ _ _ _ (.run g) _ ready hs
  have hready :
      Steady m.world (.work (.setUp g) :: .work (.start g) :: m.stack) := by
    have hwork := steady_work hbegun
    rw [show resume (.run g) m.world = _ from hrun] at hwork
    exact hwork
  rcases resume_setUp hv with ⟨logic, hset, hdone | ⟨e, hfail⟩⟩
  · have hwork := steady_work hready
    rcases hprep : resume (.setUp g) m.world with ⟨h, p⟩
    rw [hprep] at hset hdone hwork
    cases hdone
    rcases hwork.window hset with ⟨w, hw⟩
    rcases resume_start hset hw with ⟨hstarted, hpush⟩
    have hstart :
        (component K L).resume (.start g) h = ((resume (.start g) h).1,
          .push [.notify g runningType (v.registry.listeners runningType)]) :=
      Prod.ext rfl hpush
    have hlast := steady_work hwork
    rw [hpush] at hlast
    have hpending :
        (w.queue.nextHandle, .tick g) ∈
          pendingIn v.window (resume (.start g) h).1 := by
      refine mem_pendingIn.mpr
        ⟨_, window_onLoop hset hw fun v w => v.start g w, ?_⟩
      exact List.mem_append_right _ List.mem_cons_self
    have hsettle : exists stack r,
        after m (.run g) = ⟨(resume (.start g) h).1, stack, r⟩ := by
      show exists stack r,
        settle _ ⟨m.world, .work (.run g) :: m.stack, m.result⟩ = _
      rw [settle_push hrun]
      show exists stack r,
        settle _ ⟨m.world, .work (.setUp g) :: .work (.start g) :: m.stack, _⟩ =
          _
      rw [settle_done
        (show (component K L).resume (.setUp g) m.world = _ from hprep),
        settle_push hstart]
      exact settle_notify ready _ _
    rcases hsettle with ⟨stack, r, hsettle⟩
    rw [hsettle]
    have hloop := loops_loop hstarted
    exact ⟨_, _, hloop, (hlast.outlook hloop).ticking_of_pending hpending⟩
  · exact absurd hfail (setUp e)

theorem settle_stop_running (hs : Steady m.world m.stack)
    (ready : HasControl m.stack) (hv : m.world.viewers[g]? = some v)
    (running : v.state = .running) :
    exists l, (after m (.stop g)).world.loops.loop g = some l
      ∧ l.state = .idle ∧ Tickless g (after m (.stop g)).world := by
  rcases hs.window hv with ⟨w, hw⟩
  rcases resume_stop hv hw (by rw [running]; nofun) with ⟨hhalted, hpush⟩
  have hbegun : Steady m.world (.work (.stop g) :: m.stack) :=
    @steady_issue _ _ _ _ _ (.stop g) _ ready hs
  have hstop :
      (component K L).resume (.stop g) m.world = ((resume (.stop g) m.world).1,
        .push [.notify g runningType (v.registry.listeners runningType)]) :=
    Prod.ext rfl hpush
  have hlast := steady_work hbegun
  rw [hpush] at hlast
  have hsettle : exists stack r,
      after m (.stop g) = ⟨(resume (.stop g) m.world).1, stack, r⟩ := by
    show exists stack r,
      settle _ ⟨m.world, .work (.stop g) :: m.stack, m.result⟩ = _
    rw [settle_push hstop]
    exact settle_notify ready _ _
  rcases hsettle with ⟨stack, r, hsettle⟩
  rw [hsettle]
  have hloop := loops_loop hhalted
  exact ⟨_, hloop, rfl, (hlast.outlook hloop).tickless_of_idle rfl⟩

end Host
end WireView
