import WireView.Proofs.Host.Effects

/-!
# What a step does to the fittings

A piece of work or an operation changes windows and viewers in one of a few
ways, each under a condition.  What a change keeps is shown way by way, without
going back to how the work is done.
-/

namespace WireView
namespace Host

open Reentrant

variable {K L : Type} [LoopLogic L] [DecidableEq K]

/-- What a logic may turn into by being used. -/
inductive Thinks : L -> L -> Prop where
  | setUp (now : Float) (l : L) :
      Thinks l ((LoopLogic.setUp (L := L) now).perform l).1
  | update (now : Float) (l : L) :
      Thinks l ((LoopLogic.update (L := L) now).perform l).1
  | keyDown (key : String) (l : L) :
      Thinks l ((LoopLogic.keyDown (L := L) key).perform l).1
  | keyUp (key : String) (l : L) :
      Thinks l ((LoopLogic.keyUp (L := L) key).perform l).1

/-- What a piece of work does to windows and viewers. -/
inductive Works : Task K -> Host K L -> Host K L -> Prop where
  | quiet {t : Task K} {h h' : Host K L} (change : h'.fittings = h.fittings) :
      Works t h h'
  | think {t : Task K} {h h' : Host K L} {g : Nat} {v : Viewer K L} {l : L}
      (present : h.viewers[g]? = some v) (thought : Thinks v.logic l)
      (change : h'.fittings =
        (h.onViewer g fun v => { v with logic := l }).fittings) :
      Works t h h'
  | paint {h h' : Host K L} {g : Nat} {e : Easel}
      (change : h'.fittings =
        (h.onViewer g fun v => { v with easel := e }).fittings) :
      Works (.draw g) h h'
  | start {h h' : Host K L} {g : Nat}
      (change : h'.fittings = (h.onLoop g fun v w => v.start g w).fittings) :
      Works (.start g) h h'
  | stop {h h' : Host K L} {g : Nat} {v : Viewer K L}
      (present : h.viewers[g]? = some v) (running : v.state ≠ .idle)
      (change : h'.fittings = (h.onLoop g fun v w => v.halt g w).fittings) :
      Works (.stop g) h h'
  | take {h h' : Host K L} {a handle ran : Nat} {todo : List Nat} {w : Window K}
      {k : K} {q : FrameQueue (Callback K)} (present : h.windows[a]? = some w)
      (taken : w.queue.take handle = some (.outside k, q))
      (change : h'.fittings =
        (h.onWindow a fun w => { w with queue := q }).fittings) :
      Works (.frame a (handle :: todo) ran) h h'
  | tick {h h' : Host K L} {a handle ran g : Nat} {todo : List Nat}
      {w : Window K} {q : FrameQueue (Callback K)}
      (present : h.windows[a]? = some w)
      (taken : w.queue.take handle = some (.tick g, q))
      (change : h'.fittings =
        ((h.onWindow a fun w => { w with queue := q }).onViewer g fun v =>
          { v with tickHandle := none }).fittings) :
      Works (.frame a (handle :: todo) ran) h h'
  | rearm {h h' : Host K L} {g : Nat} {v : Viewer K L}
      (present : h.viewers[g]? = some v) (spent : v.tickHandle = none)
      (running : v.state ≠ .idle)
      (change : h'.fittings =
        (h.onLoop g fun v w => v.requestTick g w).fittings) :
      Works (.rearm g) h h'

/-- The operations on what a viewer tells, and how they edit it. -/
inductive Observing : Op K L -> Nat -> (Registry K -> Registry K) -> Prop where
  | observe (g : Nat) (type : String) (k : K) :
      Observing (.observe g type k) g fun r => r.add type k
  | unobserve (g : Nat) (type : String) (k : K) :
      Observing (.unobserve g type k) g fun r => r.remove type k

/-- What an operation does to windows and viewers. -/
inductive Operates : Op K L -> Host K L -> Host K L -> Prop where
  | quiet {op : Op K L} {h h' : Host K L} (change : h'.fittings = h.fittings) :
      Operates op h h'
  | furnish {op : Op K L} {h h' : Host K L} {a : Nat} {f : Window K -> Window K}
      (kept : forall w, (f w).rack = w.rack)
      (change : h'.fittings = (h.onWindow a f).fittings) : Operates op h h'
  | opened {width height : Int} {title : String} {h h' : Host K L}
      {w : Window K} (queue : w.queue = {}) (registry : w.registry = {})
      (change : h'.fittings = (h.windows.push w, h.viewers)) :
      Operates (.openWindow width height title) h h'
  | created {window container : Option Nat} {devMode : Bool} {logic : L}
      {h h' : Host K L} {v : Viewer K L}
      (loop : v.loop = ⟨v.window, .idle, none, false, false⟩)
      (given : v.logic = logic)
      (present : exists w, h.windows[v.window]? = some w)
      (change : h'.fittings = (h.windows, h.viewers.push v)) :
      Operates (.createViewer window container devMode logic) h h'
  | closed {g : Nat} {h h' : Host K L}
      (change : h'.fittings = (h.onLoop g fun v w => v.shut g w).fittings) :
      Operates (.close g) h h'
  | listen {a : Nat} {type : String} {k : K} {h h' : Host K L}
      (change : h'.fittings = (h.onWindow a fun w =>
        { w with registry := w.registry.add type (.outside k) }).fittings) :
      Operates (.listen a type k) h h'
  | unlisten {a : Nat} {type : String} {k : K} {h h' : Host K L}
      (change : h'.fittings = (h.onWindow a fun w =>
        { w with registry := w.registry.remove type (.outside k) }).fittings) :
      Operates (.unlisten a type k) h h'
  | observers {op : Op K L} {g : Nat} {f : Registry K -> Registry K}
      {h h' : Host K L} (edit : Observing op g f)
      (change : h'.fittings =
        (h.onViewer g fun v => { v with registry := f v.registry }).fittings) :
      Operates op h h'
  | request {a : Nat} {k : K} {w : Window K} {h h' : Host K L}
      (present : h.windows[a]? = some w)
      (change : h'.fittings = (h.onWindow a fun w' =>
        { w' with queue := (w.queue.request (.outside k)).1 }).fittings) :
      Operates (.request a k) h h'
  | cancel {a : Nat} {handle : Int} {h h' : Host K L}
      (change : h'.fittings = (h.onWindow a fun w =>
        { w with queue := w.queue.cancel handle }).fittings) :
      Operates (.cancel a handle) h h'
  | frame {a : Nat} {h h' : Host K L}
      (change : h'.fittings = (h.onWindow a fun w =>
        { w with queue := w.queue.beginFrame }).fittings) :
      Operates (.frame a) h h'

/-!
# Pieces of work
-/

section Work

omit [LoopLogic L] [DecidableEq K]

theorem fittings_foldl_remark (rs : List Remark) (h : Host K L) :
    (rs.foldl remark h).fittings = h.fittings := by
  induction rs generalizing h with
  | nil => rfl
  | cons r rs ih =>
      rw [List.foldl_cons, ih]
      rfl

theorem fittings_afterLogic {α : Type} (r : Host K L × Except Failure α)
    {f : α -> Host K L -> Outcome K L}
    (hf : forall a h, (f a h).1.fittings = h.fittings) :
    (afterLogic r f).1.fittings = r.1.fittings := by
  rcases r with ⟨h, e | a⟩
  · rfl
  · exact hf a h

theorem fittings_afterKey (n : Nat) (r : Host K L × Except Failure Bool) :
    (afterKey n r).1.fittings = r.1.fittings := by
  rcases r with ⟨h, f | acted⟩
  · rfl
  · cases acted <;> rfl

theorem takeCallback_eq {h h' : Host K L} {a handle : Nat} {c : Callback K}
    (htake : h.takeCallback a handle = some (c, h')) :
    exists w q, h.windows[a]? = some w ∧ w.queue.take handle = some (c, q)
      ∧ h' = h.onWindow a fun w => { w with queue := q } := by
  unfold takeCallback at htake
  rcases Option.bind_eq_some_iff.mp htake with ⟨w, hw, hrest⟩
  rcases Option.bind_eq_some_iff.mp hrest with ⟨⟨c', q⟩, hq, heq⟩
  cases heq
  exact ⟨w, q, hw, hq, rfl⟩

/-- A frame is over, or its next callback is called or begins a tick, or it is
gone. -/
theorem frame_elim {motive : Outcome K L -> Prop} (a ran : Nat) (h : Host K L)
    (todo : List Nat) (ended : todo = [] -> motive (finish h))
    (remarked : todo = [] ->
      motive (finish (h.remark (.frameRan (h.frameCount a) ran))))
    (called : forall k w q handle rest,
      todo = handle :: rest -> h.windows[a]? = some w ->
        w.queue.take handle = some (.outside k, q) ->
        motive (h.onWindow a fun w => { w with queue := q },
          .call (.frame k handle) [.frame a rest (ran + 1)]))
    (ticked : forall g w q handle rest,
      todo = handle :: rest -> h.windows[a]? = some w ->
        w.queue.take handle = some (.tick g, q) ->
        motive (frameTurn a ran
          (.tick g, h.onWindow a fun w => { w with queue := q }) handle rest))
    (passed : forall handle rest,
      todo = handle :: rest -> motive (h, .push [.frame a rest ran])) :
    motive (frame a ran h todo) := by
  refine FrameQueue.step_elim todo ?_ ?_ ?_
  · intro hnil
    by_cases hran : ran = 0
    · rw [if_pos hran]
      exact ended hnil
    · rw [if_neg hran]
      exact remarked hnil
  · rintro ⟨c, h'⟩ handle rest htodo htake
    rcases takeCallback_eq htake with ⟨w, q, hw, hq, rfl⟩
    cases c with
    | outside k => exact called k w q handle rest htodo hw hq
    | tick g => exact ticked g w q handle rest htodo hw hq
  · exact fun handle rest htodo _ => passed handle rest htodo

end Work

omit [LoopLogic L] in
theorem world_notify (g : Nat) (type : String) (h : Host K L) (todo : List K) :
    (notify g type h todo).1 = h := by
  refine Registry.step_elim (motive := fun o : Outcome K L => o.1 = h)
    todo ?_ ?_ ?_
  · exact fun _ => rfl
  · exact fun _ _ _ _ => rfl
  · exact fun _ _ _ _ => rfl

omit [LoopLogic L] in
theorem notify_ne_fail (g : Nat) (type : String) (h : Host K L) (todo : List K)
    (e : Failure) : (notify g type h todo).2 ≠ .fail e := by
  refine Registry.step_elim (motive := fun o : Outcome K L => o.2 ≠ .fail e)
    todo ?_ ?_ ?_
  · exact nofun
  · exact nofun
  · exact nofun

omit [LoopLogic L] [DecidableEq K] in
theorem frame_ne_fail (a ran : Nat) (h : Host K L) (todo : List Nat)
    (e : Failure) :
    (frame a ran h todo).2 ≠ .fail e := by
  refine frame_elim (motive := fun o => o.2 ≠ .fail e)
    a ran h todo ?_ ?_ ?_ ?_ ?_
  · exact nofun
  · exact nofun
  · exact nofun
  · exact nofun
  · exact nofun

theorem works_withViewer {t : Task K} {h : Host K L} {g : Nat}
    {f : Viewer K L -> Host K L -> Outcome K L}
    (hf : forall v, h.viewers[g]? = some v -> Works t h (f v h).1) :
    Works t h (withViewer g f h).1 := by
  unfold withViewer
  split
  · exact hf _ ‹_›
  · exact .quiet rfl

theorem Works.same {t : Task K} {h h' h'' : Host K L} (hw : Works t h h')
    (hsame : h''.fittings = h'.fittings) : Works t h h'' := by
  cases hw with
  | quiet change => exact .quiet (hsame.trans change)
  | think present thought change =>
      exact .think present thought (hsame.trans change)
  | paint change => exact .paint (hsame.trans change)
  | start change => exact .start (hsame.trans change)
  | stop present running change =>
      exact .stop present running (hsame.trans change)
  | take present taken change => exact .take present taken (hsame.trans change)
  | tick present taken change => exact .tick present taken (hsame.trans change)
  | rearm present spent running change =>
      exact .rearm present spent running (hsame.trans change)

theorem works_pressLogic (t : Task K) (g : Nat) (motion : KeyMotion)
    (e : KeyEvent) (n : Nat) (h : Host K L) :
    Works t h (pressLogic g motion e n h).1 := by
  unfold pressLogic
  cases hv : h.viewers[g]? with
  | none => exact .quiet rfl
  | some v =>
      have hact : forall act : Act L Bool,
          Thinks v.logic (act.perform v.logic).1 ->
          Works t h ((h.note (.key g (h.latest n e))).onLogic g v act).1 := by
        intro act thought
        exact .think hv thought rfl
      cases motion with
      | down =>
          apply (hact _ (.keyDown e.key v.logic)).same
          exact fittings_afterKey n _
      | up =>
          apply (hact _ (.keyUp e.key v.logic)).same
          exact fittings_afterKey n _

theorem works_press (a : Nat) (e : KeyEvent) (n : Nat) (h : Host K L)
    (todo : List (Listener K)) :
    Works (.press a e n todo) h (press a e n h todo).1 := by
  refine Registry.step_elim
    (motive := fun o : Outcome K L => Works (.press a e n todo) h o.1)
    todo ?_ ?_ ?_
  · exact fun _ => .quiet rfl
  · intro l rest _ _
    cases l with
    | outside k => exact .quiet rfl
    | keys motion g =>
        exact (works_pressLogic _ g motion e n h).same
          (fittings_afterLogic _ fun _ _ => rfl)
  · exact fun _ _ _ _ => .quiet rfl

theorem works_frame (a ran : Nat) (h : Host K L) (todo : List Nat) :
    Works (.frame a todo ran) h (frame a ran h todo).1 := by
  refine frame_elim (motive := fun o => Works (.frame a todo ran) h o.1)
    a ran h todo ?_ ?_ ?_ ?_ ?_
  · exact fun _ => .quiet rfl
  · exact fun _ => .quiet rfl
  · rintro k w q handle rest rfl hw hq
    exact .take hw hq rfl
  · rintro g w q handle rest rfl hw hq
    exact .tick hw hq rfl
  · exact fun _ _ _ => .quiet rfl

theorem works_resume (t : Task K) (h : Host K L) :
    Works t h (resume t h).1 := by
  cases t with
  | run g =>
      apply works_withViewer
      intro v _
      unfold run
      split
      · exact .quiet rfl
      · split
        · exact .quiet rfl
        · exact .quiet rfl
  | setUp g =>
      apply works_withViewer
      intro v hv
      have hset : Works (.setUp g) h
          (h.onLogic g v (LoopLogic.setUp (L := L) h.clock)).1 :=
        .think hv (.setUp h.clock v.logic) rfl
      exact hset.same
        (fittings_afterLogic _ fun rs h => fittings_foldl_remark rs h)
  | start g => exact .start rfl
  | stop g =>
      apply works_withViewer
      intro v hv
      unfold stop
      split
      · exact .quiet rfl
      · exact .stop hv ‹_› rfl
  | notify g type todo =>
      exact .quiet (congrArg fittings (world_notify g type h todo))
  | press a e n todo => exact works_press a e n h todo
  | frame a todo ran => exact works_frame a ran h todo
  | poll a todo =>
      cases todo with
      | nil => exact .quiet rfl
      | cons i todo =>
          cases i with
          | quit => exact .quiet rfl
          | key motion code => exact .quiet rfl
          | other => exact .quiet rfl
  | update g =>
      apply works_withViewer
      intro v hv
      have hupdate : Works (.update g) h
          (h.onLogic g v (LoopLogic.update (L := L) h.clock)).1 :=
        .think hv (.update h.clock v.logic) rfl
      exact hupdate.same (fittings_afterLogic _ fun _ _ => rfl)
  | draw g =>
      apply works_withViewer
      intro v hv
      have hdraw :
          Works (.draw g) h (h.onEasel g v (LoopLogic.draw v.logic)).1 :=
        .paint rfl
      exact hdraw.same (fittings_afterLogic _ fun _ _ => rfl)
  | rearm g =>
      apply works_withViewer
      intro v hv
      unfold rearm
      split
      · exact .quiet rfl
      · rename_i hfree
        rw [Bool.or_eq_true, decide_eq_true_eq, not_or,
          Option.not_isSome_iff_eq_none] at hfree
        split
        · exact .rearm hv hfree.1 hfree.2 rfl
        · exact .quiet rfl
        · exact .quiet rfl

/-!
# Operations
-/

omit [LoopLogic L] [DecidableEq K] in
theorem world_ofAct {α : Type} (act : Act (Host K L) α) (value : α -> Value)
    (h : Host K L) :
    (ofAct act value h).1 = (act.perform h).1 := by
  unfold ofAct
  rcases act.perform h with ⟨h', e | x⟩
  · rfl
  · rfl

omit [LoopLogic L] in
theorem operates_of_fixes {α : Type} {op : Op K L} {act : Act (Host K L) α}
    (hact : Act.Fixes fittings act) (value : α -> Value) (h : Host K L) :
    Operates op h (ofAct act value h).1 := by
  rw [world_ofAct]
  exact .quiet (hact h)

omit [LoopLogic L] in
theorem operates_request (a : Nat) (k : K) (h : Host K L) :
    Operates (.request a k) h (h.request a k).1 := by
  unfold request
  split
  · exact .quiet rfl
  · exact .request ‹_› rfl

theorem operates_perform (op : Op K L) (h : Host K L) :
    Operates op h (perform op h).1 := by
  cases op with
  | setClock now => exact .quiet rfl
  | openWindow width height title =>
      simp only [perform, world_ofAct]
      rcases fittings_openWindow width height title h with
        hsame | ⟨w, hq, hr, hadd⟩
      · exact .quiet hsame
      · exact .opened hq hr hadd
  | shutDown a =>
      simp only [perform, andNothing, world_ofAct]
      rcases fittings_shutDown a h with hsame | hclosed
      · exact .quiet hsame
      · exact .furnish (f := fun w => { w with isClosed := true })
          (fun _ => rfl) hclosed
  | setDocument a d =>
      simp only [perform, andNothing, world_ofAct]
      rcases fittings_setDocument a d h with ⟨document, hset⟩
      exact .furnish (f := fun w => { w with document := document })
        (fun _ => rfl) hset
  | addContainer c =>
      exact operates_of_fixes (fixes_addContainer blind_fittings c) _ h
  | addCanvas width height shares =>
      exact operates_of_fixes
        (fixes_addCanvas blind_fittings width height shares) _ h
  | attach c k =>
      exact operates_of_fixes (fixes_attachCanvas blind_fittings c k) _ h
  | detach k =>
      exact operates_of_fixes (fixes_detachCanvas blind_fittings k) _ h
  | createViewer window container devMode logic =>
      simp only [perform, world_ofAct]
      rcases fittings_createViewer window container devMode logic h with
        hsame | ⟨v, hloop, hlogic, hwindow, hadd⟩
      · exact .quiet hsame
      · exact .created hloop hlogic hwindow hadd
  | run g => exact .quiet rfl
  | stop g => exact .quiet rfl
  | reset g => exact .quiet rfl
  | close g =>
      simp only [perform, andNothing, world_ofAct]
      rcases fittings_closeViewer g h with ⟨hsame, _⟩ | hclosed
      · exact .quiet hsame
      · exact .closed hclosed
  | listen a type k => exact .listen rfl
  | unlisten a type k => exact .unlisten rfl
  | observe g type k => exact .observers (.observe g type k) rfl
  | unobserve g type k => exact .observers (.unobserve g type k) rfl
  | press a e => exact .quiet rfl
  | preventDefault n => exact .quiet rfl
  | post events =>
      simp only [perform, post]
      split
      · exact .quiet rfl
      · exact .quiet rfl
  | poll a =>
      simp only [perform, beginPoll]
      split
      · exact .quiet rfl
      · exact .quiet rfl
  | request a k => exact operates_request a k h
  | cancel a handle => exact .cancel rfl
  | frame a => exact .frame rfl
  | swap a => exact operates_of_fixes (fixes_swap a) _ h

/-!
# What an operation begins
-/

inductive Begins : Op K L -> List (Task K) -> Prop where
  | nothing {op : Op K L} : Begins op []
  | run (g : Nat) : Begins (.run g) [.run g]
  | stop (g : Nat) : Begins (.stop g) [.stop g]
  | reset (g : Nat) : Begins (.reset g) [.stop g, .run g]
  | press (a : Nat) (e : KeyEvent) (n : Nat) (todo : List (Listener K)) :
      Begins (.press a e) [.press a e n todo]
  | poll (a : Nat) (todo : List InputEvent) : Begins (.poll a) [.poll a todo]
  | frame (a : Nat) (todo : List Nat) : Begins (.frame a) [.frame a todo 0]

omit [LoopLogic L] [DecidableEq K] in
theorem tasks_ofAct {α : Type} (act : Act (Host K L) α) (value : α -> Value)
    (h : Host K L) :
    (ofAct act value h).2.tasks = [] := by
  unfold ofAct
  split
  · rfl
  · rfl

theorem begins_perform (op : Op K L) (h : Host K L) :
    Begins op (perform op h).2.tasks := by
  have hact : forall {α : Type} (act : Act (Host K L) α) (value : α -> Value),
      Begins op (ofAct act value h).2.tasks := by
    intro α act value
    rw [tasks_ofAct]
    exact .nothing
  cases op with
  | setClock now => exact .nothing
  | openWindow width height title => exact hact _ _
  | shutDown a => exact hact _ _
  | setDocument a d => exact hact _ _
  | addContainer c => exact hact _ _
  | addCanvas width height shares => exact hact _ _
  | attach c k => exact hact _ _
  | detach k => exact hact _ _
  | createViewer window container devMode logic => exact hact _ _
  | run g => exact .run g
  | stop g => exact .stop g
  | reset g => exact .reset g
  | close g => exact hact _ _
  | listen a type k => exact .nothing
  | unlisten a type k => exact .nothing
  | observe g type k => exact .nothing
  | unobserve g type k => exact .nothing
  | press a e => exact .press a e _ _
  | preventDefault n => exact .nothing
  | post events =>
      simp only [perform, post]
      split
      · exact .nothing
      · exact .nothing
  | poll a =>
      simp only [perform, beginPoll]
      split
      · exact .poll a _
      · exact .nothing
  | request a k => exact .nothing
  | cancel a handle => exact .nothing
  | frame a => exact .frame a _
  | swap a => exact hact _ _

end Host
end WireView
