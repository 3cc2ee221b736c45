import WireView.Proofs.Host.Conduct
import WireView.Proofs.Host.Mounting
import WireView.Proofs.Host.Withdrawal
import WireView.Proofs.Reentrant.Settling

/-!
# Closing a viewer

A viewer can be closed whenever outside code has control, also while it is being
started or stopped and in the middle of a tick or of a key.  What was
interrupted goes on afterwards, but it finds the viewer closed: a closed viewer
is idle, nothing is pending or registered for it, and neither running nor
resetting starts it again.
-/

namespace WireView
namespace Host

open Reentrant Machine

variable {K L : Type}

def Closed (h : Host K L) (g : Nat) : Prop :=
  exists v, h.viewers[g]? = some v ∧ v.isClosed = true

/-- The viewer is closed and idle, and no window has its tick or its keys. -/
structure Released (h : Host K L) (g : Nat) : Prop where
  idle : exists v,
    h.viewers[g]? = some v ∧ v.isClosed = true ∧ v.state = .idle
      ∧ v.tickHandle = none
  ticks : forall a handle, (handle, .tick g) ∉ pendingIn a h
  keys : forall a type motion, .keys motion g ∉ h.listeners a type

variable [LoopLogic L] [DecidableEq K]

/-- The observers of a loop begin to be told, at a moment that does not go on
with telling them. -/
def Announces (g : Nat) (t : HostMoment K L) : Prop :=
  (exists todo, .notify g runningType todo ∈ t.leaves (component K L))
    ∧ forall todo rest,
      t.machine.stack ≠ .work (.notify g runningType todo) :: rest

/-!
# A closed viewer
-/

section Closed

variable {h : Host K L} {g : Nat} {m n k : HostMachine K L}
  {move : Move (Op K L)}
variable {stack : List (Level (Task K) (Callee K))}

theorem closed_of_move (closed : Closed m.world g)
    (hmove : m.move? (component K L) move = some n) : Closed n.world g := by
  rcases closed with ⟨v, hv, hclosed⟩
  rcases later_of_move hmove hv with ⟨v', hv', hlater⟩
  exact ⟨v', hv', hlater.closed hclosed⟩

omit [LoopLogic L] [DecidableEq K] in
theorem not_awake_of_closed (closed : Closed h g) : ¬ Awake h g := by
  rintro ⟨v, hv, _, hopen⟩
  rcases closed with ⟨u, hu, hclosed⟩
  cases hu.symm.trans hv
  exact Bool.false_ne_true (hopen.symm.trans hclosed)

omit [LoopLogic L] in
theorem Steady.released (hs : Steady h stack) (closed : Closed h g) :
    Released h g := by
  have hasleep := not_awake_of_closed closed
  rcases closed with ⟨v, hv, hclosed⟩
  have hidle := hs.idle_of_closed hv hclosed
  constructor
  · refine ⟨v, hv, hclosed, hidle, ?_⟩
    rcases hs.inStep hv with ⟨r, hstep⟩
    apply Option.not_isSome_iff_eq_none.mp
    intro hsome
    have hrunning : v.state = .running := hstep.ticking hsome
    rw [hidle] at hrunning
    cases hrunning
  · intro a handle pending
    exact hasleep (hs.awake_of_pending pending)
  · intro a type motion listed
    exact hasleep (hs.awake_of_listed listed)

theorem quiet_of_closed (hs : Steady n.world n.stack)
    (closed : Closed n.world g)
    (hmove : n.move? (component K L) move = some k) :
    heard g k.world = heard g n.world ∧ ¬ Announces g ⟨n, move⟩ := by
  have hasleep := not_awake_of_closed closed
  constructor
  · rcases notes_move hmove with hsilent | ⟨t, rest, _, hnotes⟩
    · exact hsilent g
    · exact (hs.heard_or_awake hnotes g).resolve_right hasleep
  · rintro ⟨⟨todo, htold⟩, hfresh⟩
    cases move with
    | issue op =>
        have hop :
            Task.notify g runningType todo ∈ (perform op n.world).2.tasks :=
          htold
        have hbegun := begins_perform op n.world
        generalize (perform op n.world).2.tasks = tasks at hop hbegun
        cases hbegun <;> simp at hop
    | giveBack => simp [Moment.leaves] at htold
    | throw e => simp [Moment.leaves] at htold
    | work =>
        rcases move?_work hmove with ⟨t, rest, hstack, _⟩
        simp only [Moment.leaves, hstack] at htold
        rcases told_resume htold with
          ⟨todo', rfl⟩ | rfl | ⟨rfl, v, hv, hrunning⟩
        · exact hfresh todo' rest hstack
        -- What is about to start is open.
        · rcases closed with ⟨v, hv, hclosed⟩
          have hstart : starting (segment n.stack) = some g := by
            rw [hstack]
            rfl
          have hopen : v.isClosed = false :=
            (hs.poised.ready g hstart v.loop (loops_loop hv)).2
          exact Bool.false_ne_true (hopen.symm.trans hclosed)
        · rcases closed with ⟨u, hu, hclosed⟩
          cases hv.symm.trans hu
          exact hrunning (hs.idle_of_closed hv hclosed)

theorem quiet_of_history {rule : HostMachine K L -> Move (Op K L) -> Prop}
    (hs : Steady m.world m.stack) (closed : Closed m.world g)
    {past : List (HostMoment K L)}
    (history : History (component K L) rule m past n) :
    Closed n.world g ∧ heard g n.world = heard g m.world
      ∧ forall t, t ∈ past -> ¬ Announces g t := by
  induction history with
  | start => exact ⟨closed, rfl, fun _ ht => absurd ht List.not_mem_nil⟩
  | step before _ hmove ih =>
      rcases ih with ⟨hclosed, hheard, hquiet⟩
      rcases quiet_of_closed (hs.reaches before.reaches) hclosed hmove with
        ⟨hsame, hmute⟩
      refine ⟨closed_of_move hclosed hmove, hsame.trans hheard, ?_⟩
      intro t ht
      rcases List.mem_cons.mp ht with rfl | ht
      · exact hmute
      · exact hquiet t ht

/-!
# Using a closed viewer
-/

theorem resume_run_closed (released : Released h g) :
    (component K L).resume (.run g) h = (h, .fail .viewerClosed) := by
  rcases released.idle with ⟨v, hv, hclosed, hidle, _⟩
  show withViewer g (run g) h = _
  rw [withViewer_of_present hv]
  unfold run
  rw [hidle, if_neg nofun, if_pos hclosed]

theorem resume_stop_closed (released : Released h g) :
    (component K L).resume (.stop g) h = (h, .done .nothing) := by
  rcases released.idle with ⟨v, hv, _, hidle, _⟩
  show withViewer g (stop g) h = _
  rw [withViewer_of_present hv]
  unfold stop
  rw [if_pos hidle]
  rfl

theorem use_of_released (released : Released n.world g)
    (ready : HasControl n.stack) :
    (n.issue (component K L) (.run g)).settle (component K L) =
        ⟨n.world, n.stack, .error .viewerClosed⟩
      ∧ (n.issue (component K L) (.reset g)).settle (component K L) =
        ⟨n.world, n.stack, .error .viewerClosed⟩
      ∧ n.issue (component K L) (.close g) =
        ⟨n.world, n.stack, .ok .nothing⟩ := by
  have hrun : forall r,
      settle (component K L) ⟨n.world, .work (.run g) :: n.stack, r⟩ =
      ⟨n.world, n.stack, .error .viewerClosed⟩ := by
    intro r
    rw [settle_fail (resume_run_closed released), unwind_of_hasControl ready]
    exact settle_rest ready
  refine ⟨hrun n.result, ?_, ?_⟩
  · show settle (component K L)
      ⟨n.world, .work (.stop g) :: .work (.run g) :: n.stack, n.result⟩ = _
    rw [settle_done (resume_stop_closed released)]
    exact hrun _
  · rcases released.idle with ⟨v, hv, hclosed, _⟩
    have hperform :
        (component K L).perform (.close g) n.world =
          (n.world, .done .nothing) := by
      show andNothing (closeViewer g) n.world = _
      unfold andNothing ofAct
      rw [perform_closeViewer hv, if_pos hclosed]
    unfold Machine.issue
    rw [hperform]
    rfl

/-!
# The canvas of a viewer
-/

theorem unmounted_of_history {v : Viewer K L} (mounted : Mounted m.world)
    (hv : m.world.viewers[g]? = some v) (free : m.world.tree.Unmounted v.canvas)
    {past : List (HostMoment K L)}
    (history : History (component K L) Orderly m past n)
    (spared : forall t, t ∈ past -> forall c,
      t.move ≠ .issue (.attach c v.canvas)) :
    Mounted n.world
      ∧ (exists u, n.world.viewers[g]? = some u ∧ u.canvas = v.canvas)
      ∧ n.world.tree.Unmounted v.canvas := by
  induction history with
  | start => exact ⟨mounted, ⟨v, hv, rfl⟩, free⟩
  | step before orderly hmove ih =>
      rcases ih fun t ht => spared t (List.mem_cons_of_mem _ ht) with
        ⟨hmounted, ⟨u, hu, hcanvas⟩, hfree⟩
      have hpresent : v.canvas < _ := hcanvas ▸ hmounted.canvases g u hu
      refine ⟨mounted_of_move hmounted orderly hmove, ?_, ?_⟩
      · rcases later_of_move hmove hu with ⟨u', hu', hlater⟩
        exact ⟨u', hu', hlater.canvas.trans hcanvas⟩
      · exact unmounted_of_move hmounted orderly hmove hpresent hfree
          (spared _ List.mem_cons_self)

end Closed

/-!
# The close itself
-/

section Close

variable {m₀ m : HostMachine K L} {g : Nat} {v : Viewer K L}

theorem issue_close (m : HostMachine K L) (hv : m.world.viewers[g]? = some v) :
    m.issue (component K L) (.close g) =
      ⟨((closeViewer g).perform m.world).1, m.stack, .ok .nothing⟩ := by
  have hperform : (component K L).perform (.close g) m.world =
      (((closeViewer g).perform m.world).1, .done .nothing) := by
    show andNothing (closeViewer g) m.world = _
    unfold andNothing ofAct
    rw [perform_closeViewer hv]
    cases v.isClosed with
    | true => rfl
    | false => rfl
  unfold Machine.issue
  rw [hperform]
  rfl

omit [LoopLogic L] in
theorem closed_closeViewer {h : Host K L} {w : Window K}
    (hv : h.viewers[g]? = some v) (hw : h.windows[v.window]? = some w) :
    Closed ((closeViewer g).perform h).1 g := by
  rw [perform_closeViewer hv]
  cases hclosed : v.isClosed with
  | true => exact ⟨v, hv, hclosed⟩
  | false =>
      refine ⟨(v.shut g w).1, ?_, (shut_later g v w).2⟩
      exact viewer_onLoop_of_window hv hw fun v w => v.shut g w

omit [LoopLogic L] in
theorem page_closeViewer {h : Host K L} (mounted : Mounted h)
    (hv : h.viewers[g]? = some v) (isOpen : v.isClosed = false) :
    ((closeViewer g).perform h).1.tree.Unmounted v.canvas
      ∧ forall c, ((closeViewer g).perform h).1.tree.children c =
          (h.tree.children c).erase v.canvas := by
  have htree :
      ((closeViewer g).perform h).1.tree = h.tree.without v.canvas := by
    rw [perform_closeViewer hv, if_neg (isOpen ▸ Bool.false_ne_true)]
    rfl
  rw [htree]
  exact (mounted.sound.without v.canvas).2

/-- Closing is final and complete, wherever outside code does it.  It is done in
one step: the stack is as it was, and nobody has been told.  The viewer is
closed and idle, nothing is pending or registered for it, and, if it was open,
its canvas lies nowhere and the other canvases lie in their order.  Whatever
comes later, this stays so: no tick begins, no key reaches the logic, the
observers of the loop are not told again, and running and resetting fail and
change nothing.  The canvas stays where it is not, unless it is attached by
hand; a viewer that is closed already leaves the page alone when it is closed
again. -/
theorem closed_for_good (still : Still m₀.world) (mounted : Mounted m₀.world)
    (unused : m₀.stack = []) (run : Reaches (component K L) Orderly m₀ m)
    (ready : HasControl m.stack) (hv : m.world.viewers[g]? = some v) :
    exists c, m.move? (component K L) (.issue (.close g)) = some c
      ∧ c.stack = m.stack ∧ c.result = .ok .nothing
      ∧ Released c.world g ∧ heard g c.world = heard g m.world
      ∧ (v.isClosed = true -> c.world = m.world)
      ∧ (v.isClosed = false -> c.world.tree.Unmounted v.canvas
          ∧ forall i,
            c.world.tree.children i = (m.world.tree.children i).erase v.canvas)
      ∧ (forall (past : List (HostMoment K L)) (n : HostMachine K L),
          History (component K L) anyMove c past n ->
          Released n.world g ∧ heard g n.world = heard g m.world
            ∧ (forall t, t ∈ past -> ¬ Announces g t)
            ∧ (HasControl n.stack ->
                (n.issue (component K L) (.run g)).settle (component K L) =
                    ⟨n.world, n.stack, .error .viewerClosed⟩
                  ∧ (n.issue (component K L) (.reset g)).settle
                    (component K L) =
                    ⟨n.world, n.stack, .error .viewerClosed⟩
                  ∧ n.issue (component K L) (.close g) =
                    ⟨n.world, n.stack, .ok .nothing⟩))
      ∧ forall (past : List (HostMoment K L)) (n : HostMachine K L),
          History (component K L) Orderly c past n ->
          (forall t, t ∈ past -> forall i,
            t.move ≠ .issue (.attach i v.canvas)) ->
          c.world.tree.Unmounted v.canvas ->
            n.world.tree.Unmounted v.canvas := by
  have hsteady := steady_of_reaches still unused run
  have hmounted := mounted_of_reaches mounted run
  have hmove :
      m.move? (component K L) (.issue (.close g)) =
        some (m.issue (component K L) (.close g)) :=
    move?_of_hasControl _ ready
  have hissue := issue_close m hv
  have hworld :
      (m.issue (component K L) (.close g)).world =
        ((closeViewer g).perform m.world).1 :=
    congrArg Machine.world hissue
  rcases hsteady.window hv with ⟨w, hw⟩
  have hclosed : Closed (m.issue (component K L) (.close g)).world g := by
    rw [hworld]
    exact closed_closeViewer hv hw
  have hsteady' : Steady (m.issue (component K L) (.close g)).world
      (m.issue (component K L) (.close g)).stack :=
    hsteady.move hmove
  have hheard :
      heard g (m.issue (component K L) (.close g)).world = heard g m.world := by
    rw [hworld]
    exact silent_closeViewer g g m.world
  refine ⟨m.issue (component K L) (.close g), hmove, ?_, ?_, ?_, hheard, ?_, ?_,
    ?_, ?_⟩
  · rw [hissue]
  · rw [hissue]
  · exact hsteady'.released hclosed
  · intro closed
    rw [hworld, perform_closeViewer hv, if_pos closed]
  · intro isOpen
    rw [hworld]
    exact page_closeViewer hmounted hv isOpen
  · intro past n history
    rcases quiet_of_history hsteady' hclosed history with
      ⟨hstill, hsame, hquiet⟩
    have hreleased := (hsteady'.reaches history.reaches).released hstill
    exact ⟨hreleased, hsame.trans hheard, hquiet, use_of_released hreleased⟩
  · intro past n history spared free
    have horderly : Orderly m (.issue (.close g)) := ⟨nofun, nofun⟩
    rcases later_of_move hmove hv with ⟨u, hu, hlater⟩
    rw [← hlater.canvas] at spared free ⊢
    have hmounted' := mounted_of_move hmounted horderly hmove
    exact (unmounted_of_history hmounted' hu free history spared).2.2

end Close

/-!
# An open viewer on a page
-/

def sharedPage : Tree :=
  let blank := Image.plain 1 1 Image.black
  let page :=
    ((({} : Tree).addContainer {}).1.addCanvas blank).1.addCanvas blank
  (page.1.link 0 1).link 0 0

theorem sound_sharedPage : sharedPage.Sound := by
  have hempty : ({} : Tree).Sound := by
    intro c k
    simp [Tree.children]
  have hplaced :=
    ((hempty.addContainer (v := {}) rfl).addCanvas
      (.plain 1 1 Image.black)).addCanvas
      (.plain 1 1 Image.black)
  exact (hplaced.link (c := 0) (k := 1) (Nat.lt_succ_self 1) rfl).link
    (Nat.zero_lt_succ 1) rfl

def pageViewer : Host String Logic :=
  { oneViewer .standard with tree := sharedPage }

theorem still_pageViewer : Still pageViewer :=
  ⟨(still_oneViewer .standard).loops, (still_oneViewer .standard).windows⟩

theorem mounted_pageViewer : Mounted pageViewer := by
  constructor
  · exact sound_sharedPage
  · intro g v hv
    cases g with
    | zero =>
        cases hv
        exact Nat.zero_lt_succ 1
    | succ g => simp [pageViewer, oneViewer] at hv

def tidy (m : HostMachine K L) : Move (Op K L) -> Bool
  | .issue (.attach _ k) => k < m.world.tree.canvases.size
  | .issue (.addContainer c) => c.children.isEmpty
  | _ => true

omit [LoopLogic L] [DecidableEq K] in
theorem orderly_of_tidy (m : HostMachine K L) (move : Move (Op K L))
    (h : tidy m move = true) :
    Orderly m move := by
  constructor
  · rintro c k rfl
    exact of_decide_eq_true h
  · rintro c rfl
    exact List.isEmpty_iff.mp h

/-- An observer that is told of the start closes the viewer: nothing is pending,
the canvas is gone from its place, and neither a frame nor a key reaches the
viewer any more. -/
theorem close_while_told_of_start :
    exists (m c n : HostMachine String Logic) (v : Viewer String Logic)
        (past : List (HostMoment String Logic)),
      Reaches (component String Logic) Orderly ⟨pageViewer, [], .ok .nothing⟩ m
        ∧ m.stack =
          [.outside (.viewer "k" runningType 0),
           .work (.notify 0 runningType [])]
        ∧ m.world.viewers[0]? = some v ∧ v.state = .running ∧ v.isClosed = false
        ∧ pendingIn 0 m.world = [(1, .tick 0)]
        ∧ m.world.tree.children 0 = [1, 0]
        ∧ m.move? (component String Logic) (.issue (.close 0)) = some c
        ∧ Released c.world 0 ∧ c.world.tree.children 0 = [1]
        ∧ History (component String Logic) anyMove c past n
        ∧ past.length = 8 ∧ n.stack = [] ∧ heard 0 n.world = ([], []) := by
  let moves : List (Move (Op String Logic)) :=
    [.issue (.observe 0 runningType "k"), .issue (.run 0), .work, .work, .work,
     .work]
  let later : List (Move (Op String Logic)) :=
    [.giveBack, .work, .issue (.frame 0), .work,
      .issue (.press 0 ⟨.down, "ArrowUp", false⟩), .work, .issue (.stop 0),
      .work]
  have run :
      Reaches (component String Logic) Orderly ⟨pageViewer, [], .ok .nothing⟩
        _ :=
    reaches_of_foldlM orderly_of_tidy (show moves.foldlM _ _ = _ from rfl)
  rcases closed_for_good still_pageViewer mounted_pageViewer rfl run
    (hasControl_outside _ _)
    (g := 0) rfl with ⟨_, hmove, _, _, hreleased, _, _, hpage, hlater, _⟩
  cases hmove
  have every :
      forall (k : HostMachine String Logic) (move : Move (Op String Logic)),
        true = true -> anyMove k move := fun _ _ _ => trivial
  rcases hlater _ _
    (.of_foldlM every .start (show later.foldlM _ _ = _ from rfl)) with
    ⟨_, hheard, _, _⟩
  have hchildren := (hpage rfl).2 0
  exact ⟨_, _, _, _, _, run, rfl, rfl, rfl, rfl, rfl, rfl, rfl, hreleased,
    hchildren, .of_foldlM every .start (show later.foldlM _ _ = _ from rfl),
    rfl, rfl, hheard⟩

/-- A viewer is closed, its canvas is put back by hand, and closing the viewer
once more does nothing: its canvas has a parent. -/
theorem closed_canvas_put_back :
    exists (m c : HostMachine String Logic),
      Reaches (component String Logic) Orderly ⟨pageViewer, [], .ok .nothing⟩ m
        ∧ m.move? (component String Logic) (.issue (.close 0)) = some c
        ∧ c.stack = [] ∧ c.result = .ok .nothing
        ∧ c.world.tree.parent 0 = some 0
        ∧ c.world.tree.children 0 = [1, 0] := by
  let moves : List (Move (Op String Logic)) :=
    [.issue (.close 0), .issue (.attach 0 0)]
  have run :
      Reaches (component String Logic) Orderly ⟨pageViewer, [], .ok .nothing⟩
        _ :=
    reaches_of_foldlM orderly_of_tidy (show moves.foldlM _ _ = _ from rfl)
  exact ⟨_, _, run, rfl, rfl, rfl, rfl, rfl⟩

end Host
end WireView
