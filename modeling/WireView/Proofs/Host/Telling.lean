import WireView.Proofs.Host.Conduct
import WireView.Proofs.Host.Withdrawal

/-!
# Telling the observers of a loop

Running, stopping and resetting a viewer leave work on its loop, which ends with
the telling of its observers.  As long as those who are told do not throw and
leave the loop alone, no other work on it begins before: what is left of it is
one of a few plans.  A move takes the next step of the plan, or it has no part
in it.
-/

namespace WireView
namespace Host

open Reentrant Machine

variable {K L : Type}

/-- What may be left of the work on a loop, the next task first. -/
inductive Plan (g : Nat) : List (Task K) -> Prop where
  | done : Plan g []
  | run : Plan g [.run g]
  | setUp : Plan g [.setUp g, .start g]
  | start : Plan g [.start g]
  | stop {next : List (Task K)} (last : next = [] ∨ next = [.run g]) :
      Plan g (.stop g :: next)
  | tell (todo : List K) {next : List (Task K)}
      (last : next = [] ∨ next = [.run g]) :
      Plan g (.notify g runningType todo :: next)

def Op.plan : Op K L -> List (Task K)
  | .run g => [.run g]
  | .stop g => [.stop g]
  | .reset g => [.stop g, .run g]
  | _ => []

/-- Where the work on a loop stands, over the stack that it was asked for on:
its next task is on top, or an observer that has been told is under way. -/
inductive Stage (g : Nat) (base : List (Level (Task K) (Callee K))) :
    List (Task K) -> List (Level (Task K) (Callee K)) -> Prop where
  | next (plan : List (Task K)) : Stage g base plan (levels plan ++ base)
  | telling {above : List (Level (Task K) (Callee K))} (k : K) (todo : List K)
      (next : List (Task K)) (inside : Clear g above) :
      Stage g base (.notify g runningType todo :: next)
        (above ++ .outside (.viewer k runningType g)
          :: (levels (.notify g runningType todo :: next) ++ base))

theorem Stage.done {g : Nat} {base stack : List (Level (Task K) (Callee K))}
    {plan : List (Task K)} (h : Stage g base plan stack)
    (ended : stack = base) : plan = [] := by
  have hlength := congrArg List.length ended
  cases h with
  | next =>
      have hnone : plan.length = 0 := by simpa [levels] using hlength
      exact List.length_eq_zero_iff.mp hnone
  | telling k todo next inside =>
      simp only [List.length_append, List.length_cons] at hlength
      omega

theorem Stage.over {g : Nat} {base stack : List (Level (Task K) (Callee K))}
    (h : Stage g base [] stack) : stack = base := by
  cases h with
  | next => rfl

theorem Stage.mem {g : Nat} {base stack : List (Level (Task K) (Callee K))}
    {plan : List (Task K)} (h : Stage g base plan stack) {t : Task K}
    (ht : t ∈ plan) : .work t ∈ stack := by
  cases h with
  | next => exact List.mem_append_left _ (List.mem_map_of_mem ht)
  | telling k todo next inside =>
      apply List.mem_append_right
      apply List.mem_cons_of_mem
      exact List.mem_append_left _ (List.mem_map_of_mem ht)

theorem Stage.rest {g : Nat} {base stack : List (Level (Task K) (Callee K))}
    {plan : List (Task K)} (h : Stage g base plan stack)
    (ready : HasControl stack)
    (untold : forall k, .outside (.viewer k runningType g) ∉ stack) :
    plan = [] := by
  cases h with
  | next =>
      cases plan with
      | nil => rfl
      | cons t ts => exact absurd rfl (ready t _)
  | telling k todo next inside =>
      exact absurd (List.mem_append_right _ List.mem_cons_self) (untold k)

/-- A step of the work on a loop, the observer that it calls, what is left, and
the viewer then. -/
inductive Advances [DecidableEq K] (g : Nat) (v : Viewer K L) :
    List (Task K) -> Option K -> List (Task K) -> Viewer K L -> Prop where
  | already (running : v.state = .running) : Advances g v [.run g] none [] v
  | begun (idle : v.state = .idle) (isOpen : v.isClosed = false) :
      Advances g v [.run g] none [.setUp g, .start g] v
  | ready (l : L) :
      Advances g v [.setUp g, .start g] none [.start g] { v with logic := l }
  | started (w : Window K) :
      Advances g v [.start g] none
        [.notify g runningType (v.registry.listeners runningType)]
        (v.start g w).1
  | resting {next : List (Task K)} (idle : v.state = .idle) :
      Advances g v (.stop g :: next) none next v
  | stopped {next : List (Task K)} (w : Window K)
      (running : v.state = .running) :
      Advances g v (.stop g :: next) none
        (.notify g runningType (v.registry.listeners runningType) :: next)
          (v.halt g w).1
  | told {next : List (Task K)} :
      Advances g v (.notify g runningType [] :: next) none next v
  | calls {k : K} {todo : List K} {next : List (Task K)}
      (listed : k ∈ v.registry.listeners runningType) :
      Advances g v (.notify g runningType (k :: todo) :: next) (some k)
        (.notify g runningType todo :: next) v
  | skips {k : K} {todo : List K} {next : List (Task K)}
      (unlisted : k ∉ v.registry.listeners runningType) :
      Advances g v (.notify g runningType (k :: todo) :: next) none
        (.notify g runningType todo :: next) v

variable [LoopLogic L] [DecidableEq K]

def told? (g : Nat) (t : HostMoment K L) : Option K :=
  match t.call? (component K L) with
  | some (.viewer k type i) =>
      if i = g ∧ type = runningType then some k else none
  | _ => none

/-- Those who are told of a loop do not throw, and until they are done nobody
starts or stops the loop or closes the viewer. -/
structure Considerate (g : Nat) (m : HostMachine K L) (move : Move (Op K L)) :
    Prop where
  reserved : forall k, .outside (.viewer k runningType g) ∈ m.stack ->
    forall op, move = .issue op -> op.steers g = false ∧ op ≠ .close g
  lenient : forall e k rest,
    move = .throw e -> m.stack ≠ .outside (.viewer k runningType g) :: rest

/-!
# Stacks on which nobody is told
-/

section Clear

variable {g : Nat} {stack : List (Level (Task K) (Callee K))}

omit [LoopLogic L] [DecidableEq K] in
theorem unconcerned_follows {t : Task K} {ts : List (Task K)}
    (follows : Follows t ts) (ht : t.concerns g = false) :
    forall u, u ∈ ts -> u.concerns g = false := by
  have hlast : forall i : Nat, i ≠ g ->
      forall u : Task K, u ∈ [Task.run i] -> u.concerns g = false := by
    intro i hi u hu
    rw [List.mem_singleton.mp hu]
    exact decide_eq_false hi
  have htail : forall {i : Nat} {tail : List (Task K)}, IsTail i tail ->
      forall u, u ∈ tail -> u.concerns g = false := by
    rintro i tail ⟨a, todo, ran, rfl⟩ u hu
    simp only [List.mem_cons, List.not_mem_nil, or_false] at hu
    rcases hu with rfl | rfl
    · rfl
    · rfl
  intro u hu
  cases t with
  | run i =>
      rw [show ts = [] from follows] at hu
      cases hu
  | setUp i =>
      rw [show ts = [.start i] from follows] at hu
      rw [List.mem_singleton.mp hu]
      exact ht
  | start i =>
      rw [show ts = [] from follows] at hu
      cases hu
  | stop i =>
      rcases follows with rfl | rfl
      · cases hu
      · exact hlast i (of_decide_eq_false ht) u hu
  | notify i type todo =>
      rcases follows with ⟨rfl, rfl | rfl⟩ | ⟨rfl, tail, htail', rfl⟩
      · cases hu
      · apply hlast i _ u hu
        rintro rfl
        simp [Task.concerns] at ht
      · rcases List.mem_cons.mp hu with rfl | hu
        · rfl
        · rcases List.mem_cons.mp hu with rfl | hu
          · rfl
          · exact htail htail' u hu
  | press a e todo =>
      rcases follows with rfl | ⟨b, todo', rfl⟩
      · cases hu
      · rw [List.mem_singleton.mp hu]
        rfl
  | frame a todo ran =>
      rw [show ts = [] from follows] at hu
      cases hu
  | poll a todo =>
      rw [show ts = [] from follows] at hu
      cases hu
  | update i =>
      rcases follows with ⟨tail, htail', rfl⟩
      rcases List.mem_cons.mp hu with rfl | hu
      · rfl
      · exact htail htail' u hu
  | draw i => exact htail follows u hu
  | rearm i =>
      rcases follows with ⟨a, todo, ran, rfl⟩
      rw [List.mem_singleton.mp hu]
      rfl

omit [LoopLogic L] [DecidableEq K] in
theorem told_of_awaits {c : Callee K} {t : Task K} (awaits : Awaits c t)
    (concerns : t.concerns g = true) :
    exists k, c = .viewer k runningType g := by
  cases c with
  | frame k handle =>
      cases t with
      | frame a todo ran => cases concerns
      | _ => cases awaits
  | key k a e =>
      cases t with
      | press b e' todo => cases concerns
      | _ => cases awaits
  | viewer k type i =>
      cases t with
      | notify j kind todo =>
          rcases awaits with ⟨rfl, rfl⟩
          have heq : i = g ∧ type = runningType := by
            simpa [Task.concerns] using concerns
          rcases heq with ⟨rfl, rfl⟩
          exact ⟨k, rfl⟩
      | _ => cases awaits

omit [LoopLogic L] [DecidableEq K] in
theorem clear_of_shaped (shaped : Shaped stack)
    (untold : forall k, .outside (.viewer k runningType g) ∉ stack)
    (top : forall u, u ∈ segment stack -> u.concerns g = false) :
    Clear g stack := by
  refine ⟨?_, untold⟩
  induction stack with
  | nil => exact fun u hu => absurd hu List.not_mem_nil
  | cons l rest ih =>
      have huntold : forall k, .outside (.viewer k runningType g) ∉ rest :=
        fun k hk => untold k (List.mem_cons_of_mem _ hk)
      cases l with
      | work t =>
          intro u hu
          rcases List.mem_cons.mp hu with heq | hu
          · cases heq
            exact top t List.mem_cons_self
          · exact ih shaped.2 huntold
              (fun u hu => top u (List.mem_cons_of_mem _ hu)) u hu
      | outside c =>
          rcases shaped with ⟨⟨t, ts, hsegment, hawaits⟩, hrest⟩
          have hfollows : Follows t ts := by
            cases rest with
            | nil => cases hsegment
            | cons l below =>
                cases l with
                | outside c => cases hsegment
                | work t' =>
                    cases hsegment
                    exact hrest.1
          have ht : t.concerns g = false := by
            apply Bool.eq_false_iff.mpr
            intro hconcerns
            rcases told_of_awaits hawaits hconcerns with ⟨k, rfl⟩
            exact untold k List.mem_cons_self
          intro u hu
          rcases List.mem_cons.mp hu with heq | hu
          · cases heq
          · apply ih hrest huntold _ u hu
            rw [hsegment]
            intro u hu
            rcases List.mem_cons.mp hu with rfl | hu
            · exact ht
            · exact unconcerned_follows hfollows ht u hu

end Clear

/-!
# Moves apart from a loop
-/

section Apart

variable {g : Nat} {m n : HostMachine K L} {move : Move (Op K L)}
  {v : Viewer K L}

theorem told?_of_callee {t : HostMoment K L}
    (h : forall k, t.call? (component K L) ≠ some (.viewer k runningType g)) :
    told? g t = none := by
  unfold told?
  split
  · rename_i k type i hcall
    rw [if_neg]
    rintro ⟨rfl, rfl⟩
    exact h k hcall
  · rfl

theorem Apart.viewer (apart : Apart g m move)
    (hmove : m.move? (component K L) move = some n)
    (hv : m.world.viewers[g]? = some v) :
    exists v', n.world.viewers[g]? = some v'
      ∧ (v'.state = v.state ∧ v'.isClosed = v.isClosed
        ∨ move = .issue (.close g) ∧ v'.state = .idle
          ∧ v'.isClosed = true) := by
  cases move with
  | work =>
      rcases move?_work hmove with ⟨t, rest, hstack, rfl⟩
      rw [proceed_world]
      rcases becomes_resume t hv with ⟨v', hv', hbecomes⟩
      have hcalm : v.Calm v' := by
        apply hbecomes.calm
        · rintro rfl
          have hnot := apart.work _ rest hstack
          simp [Task.concerns] at hnot
        · rintro rfl
          have hnot := apart.work _ rest hstack
          simp [Task.concerns] at hnot
      exact ⟨v', hv', .inl ⟨hcalm.state, hcalm.closed⟩⟩
  | issue op =>
      rcases move?_issue hmove with ⟨_, rfl⟩
      unfold Machine.issue
      rw [proceed_world]
      rcases alters_perform op hv with ⟨v', hv', halters⟩
      refine ⟨v', hv', ?_⟩
      cases halters with
      | shut w =>
          exact .inr ⟨rfl, (Viewer.shut_keeps g v w).1, (shut_later g v w).2⟩
      | same => exact .inl ⟨rfl, rfl⟩
      | observe type k => exact .inl ⟨rfl, rfl⟩
      | unobserve type k => exact .inl ⟨rfl, rfl⟩
  | giveBack =>
      rcases move?_giveBack hmove with ⟨c, rest, _, rfl⟩
      exact ⟨v, hv, .inl ⟨rfl, rfl⟩⟩
  | throw e =>
      rcases move?_throw hmove with ⟨c, rest, _, rfl⟩
      exact ⟨v, hv, .inl ⟨rfl, rfl⟩⟩

end Apart

/-!
# The next step of a plan
-/

section Advances

variable {g : Nat} {h : Host K L} {v : Viewer K L} {w : Window K}

theorem resume_start (hv : h.viewers[g]? = some v)
    (hw : h.windows[v.window]? = some w) :
    (resume (.start g) h).1.viewers[g]? = some (v.start g w).1
      ∧ (resume (.start g) h).2 =
        .push [.notify g runningType (v.registry.listeners runningType)] := by
  have hstarted :
      ((h.onLoop g fun v w => v.start g w).remark .loopStarted).viewers[g]? =
      some (v.start g w).1 :=
    viewer_onLoop_of_window hv hw fun v w => v.start g w
  refine ⟨hstarted, ?_⟩
  simp only [resume, start, announce, observers, hstarted]
  rfl

theorem resume_stop (hv : h.viewers[g]? = some v)
    (hw : h.windows[v.window]? = some w) (running : v.state ≠ .idle) :
    (resume (.stop g) h).1.viewers[g]? = some (v.halt g w).1
      ∧ (resume (.stop g) h).2 =
        .push [.notify g runningType (v.registry.listeners runningType)] := by
  have hhalted :
      ((h.onLoop g fun v w => v.halt g w).remark .loopStopped).viewers[g]? =
      some (v.halt g w).1 := viewer_onLoop_of_window hv hw fun v w => v.halt g w
  have hresume : resume (.stop g) h = stop g v h := withViewer_of_present hv _
  rw [hresume]
  unfold stop
  rw [if_neg running]
  refine ⟨hhalted, ?_⟩
  simp only [announce, observers, hhalted]
  rfl

theorem resume_setUp (hv : h.viewers[g]? = some v) :
    exists l, (resume (.setUp g) h).1.viewers[g]? = some { v with logic := l }
      ∧ ((resume (.setUp g) h).2 = .done .nothing ∨ exists e,
        (resume (.setUp g) h).2 = .fail e) := by
  have hresume : resume (.setUp g) h = setUp g v h := withViewer_of_present hv _
  rw [hresume]
  unfold setUp Host.onLogic
  have hset : forall l,
      (h.onViewer g fun v => { v with logic := l }).viewers[g]? =
      some { v with logic := l } := by
    intro l
    rw [viewer_onViewer hv, if_pos rfl]
  rcases (LoopLogic.setUp (L := L) h.clock).perform v.logic with
    ⟨l, e | remarks⟩
  · exact ⟨l, hset l, .inr ⟨e, rfl⟩⟩
  · refine ⟨l, ?_, .inl rfl⟩
    have hfittings :=
      fittings_foldl_remark remarks
        (h.onViewer g fun v => { v with logic := l })
    have hviewers := congrArg Prod.snd hfittings
    exact (congrArg (·[g]?) hviewers).trans (hset l)

theorem advances_resume {t : Task K} {ts : List (Task K)}
    (plan : Plan g (t :: ts)) (hv : h.viewers[g]? = some v)
    (hw : h.windows[v.window]? = some w)
    (base : List (Level (Task K) (Callee K))) :
    (exists called plan' v', Advances g v (t :: ts) called plan' v'
        ∧ (resume t h).1.viewers[g]? = some v'
        ∧ (resume t h).2.over (levels ts ++ base) =
          (called.map fun k => .outside (.viewer k runningType g)).toList ++
            (levels plan' ++ base)
        ∧ (resume t h).2.callee? = called.map fun k => .viewer k runningType g)
      ∨ exists e v', (t = .run g ∨ t = .setUp g) ∧ (resume t h).2 = .fail e
          ∧ (resume t h).1.viewers[g]? = some v'
          ∧ v'.state = v.state ∧ v'.isClosed = v.isClosed := by
  cases plan with
  | run =>
      have hresume : resume (.run g) h = run g v h := withViewer_of_present hv _
      rw [hresume]
      unfold run
      split
      · exact .inl ⟨none, [], v, .already ‹_›, hv, rfl, rfl⟩
      · rename_i hstate
        have hidle : v.state = .idle := LoopState.idle_of_ne hstate
        split
        · exact .inr ⟨_, v, .inl rfl, rfl, hv, rfl, rfl⟩
        · rename_i hopen
          exact .inl
            ⟨none, _, v, .begun hidle (Bool.eq_false_iff.mpr hopen), hv, rfl,
             rfl⟩
  | setUp =>
      rcases resume_setUp hv with ⟨l, hset, hdone | ⟨e, hfail⟩⟩
      · rw [hdone]
        exact .inl ⟨none, _, _, .ready l, hset, rfl, rfl⟩
      · exact .inr ⟨e, _, .inr rfl, hfail, hset, rfl, rfl⟩
  | start =>
      rcases resume_start hv hw with ⟨hstarted, hpush⟩
      rw [hpush]
      exact .inl ⟨none, _, _, .started w, hstarted, rfl, rfl⟩
  | stop last =>
      cases hstate : v.state with
      | idle =>
          have hresume : resume (.stop g) h = stop g v h :=
            withViewer_of_present hv _
          rw [hresume]
          unfold stop
          rw [if_pos hstate]
          exact .inl ⟨none, ts, v, .resting hstate, hv, rfl, rfl⟩
      | running =>
          rcases resume_stop hv hw (by rw [hstate]; exact nofun) with
            ⟨hhalted, hpush⟩
          rw [hpush]
          exact .inl ⟨none, _, _, .stopped w hstate, hhalted, rfl, rfl⟩
  | tell todo last =>
      have hobservers :
          h.observers g runningType = v.registry.listeners runningType := by
        unfold observers
        rw [hv]
        rfl
      cases todo with
      | nil => exact .inl ⟨none, ts, v, .told, hv, rfl, rfl⟩
      | cons k todo =>
          by_cases listed : k ∈ v.registry.listeners runningType
          · have hresume : resume (.notify g runningType (k :: todo)) h = _ :=
              notify_listed (hobservers ▸ listed) todo
            rw [hresume]
            exact .inl ⟨some k, _, v, .calls listed, hv, rfl, rfl⟩
          · have hresume : resume (.notify g runningType (k :: todo)) h = _ :=
              notify_unlisted (hobservers ▸ listed) todo
            rw [hresume]
            exact .inl ⟨none, _, v, .skips listed, hv, rfl, rfl⟩

end Advances

/-!
# Steps of a plan
-/

section Plan

variable {g : Nat} {v v' : Viewer K L} {plan plan' : List (Task K)}
  {called : Option K}

omit [LoopLogic L] [DecidableEq K] in
theorem planned_of_last {next : List (Task K)}
    (last : next = [] ∨ next = [.run g]) :
    Plan g next ∧ .start g ∉ next := by
  rcases last with rfl | rfl
  · exact ⟨.done, List.not_mem_nil⟩
  · exact ⟨.run, by simp⟩

omit [LoopLogic L] in
theorem Advances.planned (step : Advances g v plan called plan' v')
    (planned : Plan g plan) :
    Plan g plan' := by
  cases step with
  | already running => exact .done
  | begun idle isOpen => exact .setUp
  | ready l => exact .start
  | started w => exact .tell _ (.inl rfl)
  | resting idle =>
      cases planned with
      | stop last => exact (planned_of_last last).1
  | stopped w running =>
      cases planned with
      | stop last => exact .tell _ last
  | told =>
      cases planned with
      | tell todo last => exact (planned_of_last last).1
  | calls listed =>
      cases planned with
      | tell todo last => exact .tell _ last
  | skips unlisted =>
      cases planned with
      | tell todo last => exact .tell _ last

omit [LoopLogic L] in
theorem Advances.starting (step : Advances g v plan called plan' v')
    (planned : Plan g plan)
    (starting : .start g ∈ plan -> v.state = .idle ∧ v.isClosed = false)
    (hmem : .start g ∈ plan') :
    v'.state = .idle ∧ v'.isClosed = false := by
  cases step with
  | already running => cases hmem
  | begun idle isOpen => exact ⟨idle, isOpen⟩
  | ready l => exact starting (List.mem_cons_of_mem _ hmem)
  | started w => simp at hmem
  | resting idle =>
      cases planned with
      | stop last => exact absurd hmem (planned_of_last last).2
  | stopped w running =>
      cases planned with
      | stop last =>
          rcases List.mem_cons.mp hmem with heq | hmem
          · cases heq
          · exact absurd hmem (planned_of_last last).2
  | told =>
      cases planned with
      | tell todo last => exact absurd hmem (planned_of_last last).2
  | calls listed =>
      exact starting (List.mem_cons_of_mem _ (by simpa using hmem))
  | skips unlisted =>
      exact starting (List.mem_cons_of_mem _ (by simpa using hmem))

omit [LoopLogic L] in
theorem Advances.closed (step : Advances g v plan called plan' v')
    (closed : v.isClosed = true -> v.state = .idle)
    (starting : .start g ∈ plan -> v.state = .idle ∧ v.isClosed = false) :
    v'.isClosed = true -> v'.state = .idle := by
  cases step with
  | started w =>
      intro hclosed
      have hopen := (starting List.mem_cons_self).2
      exact absurd (hopen.symm.trans hclosed) Bool.false_ne_true
  | stopped w running => exact fun _ => rfl
  | _ => exact closed

end Plan

/-!
# The next move
-/

/-- What a move does to the work on a loop and to the viewer: it has no part in
the work, it closes the viewer or begins the work while there is none, or it is
the next step. -/
inductive Goes (g : Nat) (m : HostMachine K L) (move : Move (Op K L))
    (n : HostMachine K L) :
    List (Task K) -> Viewer K L -> List (Task K) -> Viewer K L -> Prop where
  | keeps {plan : List (Task K)} {v v' : Viewer K L}
      (untold : told? g ⟨m, move⟩ = none) (state : v'.state = v.state)
      (closed : v'.isClosed = v.isClosed) :
      Goes g m move n plan v plan v'
  | closes {v v' : Viewer K L} (closing : move = .issue (.close g))
      (untold : told? g ⟨m, move⟩ = none) (idle : v'.state = .idle)
      (closed : v'.isClosed = true) :
      Goes g m move n [] v [] v'
  | begins {v : Viewer K L} {op : Op K L} (issued : move = .issue op)
      (untold : told? g ⟨m, move⟩ = none) : Goes g m move n [] v op.plan v
  | advances {plan plan' : List (Task K)} {v v' : Viewer K L}
      {called : Option K} (step : Advances g v plan called plan' v')
      (working : move = .work) (told : told? g ⟨m, move⟩ = called) :
      Goes g m move n plan v plan' v'
  | fails {t : Task K} {plan : List (Task K)} {v v' : Viewer K L}
      (fallible : t = .run g ∨ t = .setUp g) (untold : told? g ⟨m, move⟩ = none)
      (state : v'.state = v.state) (closed : v'.isClosed = v.isClosed)
      (failed : exists e, n.result = .error e) :
      Goes g m move n (t :: plan) v [] v'

theorem perform_of_steers {g : Nat} {op : Op K L} (steers : op.steers g = true)
    (h : Host K L) :
    perform op h = (h, .push op.plan) ∧ Plan g op.plan := by
  cases op with
  | run i =>
      have hi : i = g := of_decide_eq_true steers
      subst hi
      exact ⟨rfl, .run⟩
  | stop i =>
      have hi : i = g := of_decide_eq_true steers
      subst hi
      exact ⟨rfl, .stop (.inl rfl)⟩
  | reset i =>
      have hi : i = g := of_decide_eq_true steers
      subst hi
      exact ⟨rfl, .stop (.inr rfl)⟩
  | _ => cases steers

omit [LoopLogic L] [DecidableEq K] in
theorem plan_first (op : Op K L) (g : Nat) :
    .start g ∉ op.plan ∧ forall todo, .notify g runningType todo ∉ op.plan := by
  cases op <;> simp [Op.plan]

/-- The work on the loop of a viewer follows a plan, and what is about to start
may start. -/
structure Conducted (g : Nat) (base : List (Level (Task K) (Callee K)))
    (plan : List (Task K)) (v : Viewer K L) (m : HostMachine K L) : Prop where
  viewer : m.world.viewers[g]? = some v
  planned : Plan g plan
  stage : Stage g base plan m.stack
  clear : Clear g base
  ready : plan ≠ [] -> HasControl base
  closed : v.isClosed = true -> v.state = .idle
  starting : .start g ∈ plan -> v.state = .idle ∧ v.isClosed = false

namespace Conducted

variable {g : Nat} {m n : HostMachine K L} {move : Move (Op K L)}
  {v : Viewer K L}
variable {base : List (Level (Task K) (Callee K))} {plan : List (Task K)}

omit [LoopLogic L] [DecidableEq K] in
theorem keep (hc : Conducted g base plan v m) {v' : Viewer K L}
    (viewer : n.world.viewers[g]? = some v') (stage : Stage g base plan n.stack)
    (state : v'.state = v.state) (closed : v'.isClosed = v.isClosed) :
    Conducted g base plan v' n := by
  refine ⟨viewer, hc.planned, stage, hc.clear, hc.ready, ?_, ?_⟩
  · rw [state, closed]
    exact hc.closed
  · rw [state, closed]
    exact hc.starting

theorem begins (hc : Conducted g m.stack [] v m) {op : Op K L}
    (steers : op.steers g = true) (ready : HasControl m.stack) :
    Conducted g m.stack op.plan v (m.issue (component K L) op) := by
  rcases perform_of_steers steers m.world with ⟨hperform, hplan⟩
  have hissue :
      m.issue (component K L) op =
        ⟨m.world, levels op.plan ++ m.stack, m.result⟩ := by
    unfold Machine.issue
    rw [show (component K L).perform op m.world = _ from hperform]
    rfl
  rw [hissue]
  exact ⟨hc.viewer, hplan, .next op.plan, hc.clear, fun _ => ready, hc.closed,
    fun hmem => absurd hmem (plan_first op g).1⟩

theorem step_rest (hc : Conducted g base [] v m)
    (hmove : m.move? (component K L) move = some n) :
    exists base' plan' v',
      Conducted g base' plan' v' n ∧ Goes g m move n [] v plan' v' := by
  have hstack : m.stack = base := hc.stage.over
  subst hstack
  by_cases hsteers : exists op, move = .issue op ∧ op.steers g = true
  · rcases hsteers with ⟨op, rfl, hop⟩
    rcases move?_issue hmove with ⟨hcontrol, rfl⟩
    have huntold : told? g (⟨m, .issue op⟩ : HostMoment K L) = none := by
      apply told?_of_callee
      intro k hcall
      have hcallee :
          (perform op m.world).2.callee? = some (.viewer k runningType g) :=
        hcall
      rw [callee_perform] at hcallee
      cases hcallee
    exact ⟨m.stack, op.plan, v, hc.begins hop hcontrol, .begins rfl huntold⟩
  · have apart : Apart g m move := by
      constructor
      · intro op hop
        apply Bool.eq_false_iff.mpr
        intro hsteer
        exact hsteers ⟨op, hop, hsteer⟩
      · intro t rest hstack
        apply hc.clear.work
        rw [hstack]
        exact List.mem_cons_self
    have huntold := told?_of_callee (apart.brings hmove).2
    rcases apart.viewer hmove hc.viewer with
      ⟨v', hv', ⟨hstate, hclosed⟩ | ⟨hclose, hidle, hclosed⟩⟩
    · refine ⟨n.stack, [], v',
        ⟨hv', .done, .next [], apart.clear hc.clear hmove, nofun, ?_, nofun⟩,
        .keeps huntold hstate hclosed⟩
      rw [hstate, hclosed]
      exact hc.closed
    · exact ⟨n.stack, [], v',
        ⟨hv', .done, .next [], apart.clear hc.clear hmove, nofun,
          fun _ => hidle, nofun⟩, .closes hclose huntold hidle hclosed⟩

theorem step_told (hc : Conducted g base plan v m)
    (considerate : Considerate g m move)
    (hmove : m.move? (component K L) move = some n)
    {above : List (Level (Task K) (Callee K))} {k : K} {todo : List K}
    {next : List (Task K)} (hplan : plan = .notify g runningType todo :: next)
    (inside : Clear g above)
    (hstack : m.stack =
      above ++ .outside (.viewer k runningType g) :: (levels plan ++ base)) :
    exists v', Conducted g base plan v' n ∧ Goes g m move n plan v plan v' := by
  subst hplan
  have hcallee : .outside (.viewer k runningType g) ∈ m.stack := by
    rw [hstack]
    exact List.mem_append_right _ List.mem_cons_self
  have apart : Apart g m move := by
    constructor
    · intro op hop
      exact (considerate.reserved k hcallee op hop).1
    · intro t rest htop
      apply inside.work
      cases above with
      | nil =>
          rw [hstack] at htop
          cases htop
      | cons l above =>
          rw [hstack] at htop
          cases htop
          exact List.mem_cons_self
  have huntold := told?_of_callee (apart.brings hmove).2
  rcases apart.viewer hmove hc.viewer with
    ⟨v', hv', ⟨hstate, hclosed⟩ | ⟨hclose, _⟩⟩
  · have hstage :
        Stage g base (.notify g runningType todo :: next) n.stack := by
      rcases move?_inside hmove hstack with
        ⟨above', hstack', hlevels, _⟩ | ⟨rfl, rfl, rfl⟩ | ⟨rfl, e, rfl, rfl⟩
      · rw [hstack']
        exact .telling k todo next
          (inside.of_mem_or (apart.brings hmove).1 hlevels)
      · exact .next _
      · exact absurd hstack (considerate.lenient e k _ rfl)
    exact ⟨v', hc.keep hv' hstage hstate hclosed, .keeps huntold hstate hclosed⟩
  · exact absurd hclose fun h => (considerate.reserved k hcallee _ h).2 rfl

theorem step_next {t : Task K} {ts : List (Task K)}
    (hc : Conducted g base (t :: ts) v m) {w : Window K}
    (hw : m.world.windows[v.window]? = some w)
    (hmove : m.move? (component K L) move = some n)
    (hstack : m.stack = levels (t :: ts) ++ base) :
    exists plan' v',
      Conducted g base plan' v' n ∧ Goes g m move n (t :: ts) v plan' v' := by
  have htop : m.stack = .work t :: (levels ts ++ base) := hstack
  rcases move?_under_work hmove htop with ⟨rfl, rfl⟩
  have hcall :
      (⟨m, .work⟩ : HostMoment K L).call? (component K L) =
        (resume t m.world).2.callee? := by
    simp only [Moment.call?, htop]
    rfl
  have hready : HasControl base := hc.ready (List.cons_ne_nil _ _)
  rcases advances_resume hc.planned hc.viewer hw base with
    ⟨called, plan', v', step, hv', hover, hcallee⟩
      | ⟨e, v', hfallible, hfail, hv', hstate, hclosed⟩
  · have htold : told? g (⟨m, .work⟩ : HostMoment K L) = called := by
      unfold told?
      rw [hcall, hcallee]
      cases called with
      | none => rfl
      | some k => exact if_pos ⟨rfl, rfl⟩
    have hstage :
        Stage g base plan' ((resume t m.world).2.over (levels ts ++ base)) := by
      rw [hover]
      cases step with
      | calls listed =>
          have hnone : Clear g ([] : List (Level (Task K) (Callee K))) :=
            ⟨fun _ h => absurd h List.not_mem_nil, fun _ => List.not_mem_nil⟩
          exact Stage.telling _ _ _ hnone
      | _ => exact .next _
    refine ⟨plan', v',
      ⟨?_, step.planned hc.planned, ?_, hc.clear, fun _ => hready,
        step.closed hc.closed hc.starting,
        step.starting hc.planned hc.starting⟩,
        .advances step rfl htold⟩
    · rw [proceed_world]
      exact hv'
    · rw [proceed_stack]
      exact hstage
  · have hunwound : unwind (levels ts ++ base) = base := by
      rw [unwind_levels, unwind_of_hasControl hready]
    have huntold : told? g (⟨m, .work⟩ : HostMoment K L) = none := by
      unfold told?
      rw [hcall, hfail]
      rfl
    have hstage :
        Stage g base [] ((resume t m.world).2.over (levels ts ++ base)) := by
      rw [hfail]
      show Stage g base [] (unwind (levels ts ++ base))
      rw [hunwound]
      exact .next []
    refine ⟨[], v',
      ⟨?_, .done, ?_, hc.clear, fun _ => hready, ?_,
       fun h => absurd h List.not_mem_nil⟩,
      .fails hfallible huntold hstate hclosed ⟨e, proceed_fail hfail⟩⟩
    · rw [proceed_world]
      exact hv'
    · rw [proceed_stack]
      exact hstage
    · rw [hstate, hclosed]
      exact hc.closed

/-- A move keeps to the plan: it has no part in the work on the loop, or it
begins such work where there was none, or it takes its next step. -/
theorem step (hs : Steady m.world m.stack) (hc : Conducted g base plan v m)
    (considerate : Considerate g m move)
    (hmove : m.move? (component K L) move = some n) :
    exists base' plan' v',
      (plan ≠ [] -> base' = base) ∧ Conducted g base' plan' v' n
      ∧ Goes g m move n plan v plan' v' := by
  rcases hs.window hc.viewer with ⟨w, hw⟩
  have hstage := hc.stage
  generalize hstack : m.stack = stack at hstage
  cases hstage with
  | next =>
      cases plan with
      | nil =>
          rcases hc.step_rest hmove with ⟨base', plan', v', hc', hgoes⟩
          exact ⟨base', plan', v', fun hne => absurd rfl hne, hc', hgoes⟩
      | cons t ts =>
          rcases hc.step_next hw hmove hstack with ⟨plan', v', hc', hgoes⟩
          exact ⟨base, plan', v', fun _ => rfl, hc', hgoes⟩
  | telling k todo next inside =>
      rcases hc.step_told considerate hmove rfl inside hstack with
        ⟨v', hc', hgoes⟩
      exact ⟨base, _, v', fun _ => rfl, hc', hgoes⟩

end Conducted

end Host
end WireView
