import WireView.Proofs.Host.Input
import WireView.Proofs.Reentrant.Ending

/-!
# What polling sends

A poll takes the batch of input that is queued when it begins.  One after the
other, the keys of the batch are sent to the listeners that are registered at
that moment, until the batch is done or bids to quit.  The listeners may do
whatever they like in between: what they do lies higher on the stack, and the
batch that is still to be sent lies below it.

The course of a poll shows the events that it sends, the turns of the listeners
and the calls of those that are registered when their turn comes.  All of them
get the event itself, as those before them have left it.
-/

namespace WireView
namespace Host

open Reentrant Machine

variable {K L : Type}

/-!
# Keys
-/

/-- The key events of a batch of input up to its first quit, under the names
that the keyboard has for its keys and none of them prevented. -/
def keysBeforeQuit (naming : Key.Naming) (batch : List InputEvent) :
    List KeyEvent :=
  (batch.takeWhile fun i => i ≠ .quit).filterMap fun
    | .key motion code => some ⟨motion, Key.name naming code, false⟩
    | _ => none

theorem keysBeforeQuit_quit (naming : Key.Naming) (todo : List InputEvent) :
    keysBeforeQuit naming (.quit :: todo) = [] := rfl

theorem keysBeforeQuit_key (naming : Key.Naming) (motion : KeyMotion)
    (code : Nat) (todo : List InputEvent) :
    keysBeforeQuit naming (.key motion code :: todo)
      = ⟨motion, Key.name naming code, false⟩ :: keysBeforeQuit naming todo :=
        rfl

theorem keysBeforeQuit_other (naming : Key.Naming) (todo : List InputEvent) :
    keysBeforeQuit naming (.other :: todo) = keysBeforeQuit naming todo := rfl

theorem quit_mem_cons (i : InputEvent) (h : i ≠ .quit)
    (todo : List InputEvent) :
    .quit ∈ i :: todo ↔ .quit ∈ todo :=
  List.mem_cons.trans (or_iff_right h.symm)

namespace Polling

structure Sending (K : Type) where
  window : Nat
  number : Nat
  event : KeyEvent
  listeners : List (Listener K)

/-- A listener that is to hear of a key event of a window. -/
structure Due (K : Type) where
  listener : Listener K
  window : Nat
  number : Nat
  motion : KeyMotion
  key : String

def due (a : Nat) (e : KeyEvent) (i : Nat) (l : Listener K) : Due K :=
  ⟨l, a, i, e.motion, e.key⟩

def Sending.due (s : Sending K) : List (Due K) :=
  s.listeners.map (Polling.due s.window s.event s.number)

/-- The turn of a listener, with the event as it has become by then. -/
structure Turn (K : Type) where
  listener : Listener K
  window : Nat
  number : Nat
  event : KeyEvent
  registered : Bool

def Turn.due (x : Turn K) : Due K :=
  Polling.due x.window x.event x.number x.listener

def Turn.callee? (x : Turn K) : Option (Callee K) :=
  match x.listener with
  | .outside k => if x.registered then some (.key k x.number x.event) else none
  | .keys _ _ => none

variable [LoopLogic L] [DecidableEq K]

/-!
# What the course of a poll shows
-/

section looks

variable (depth : Nat)

def sent? (t : HostMoment K L) : Option (Sending K) :=
  if t.machine.stack.length = depth + 1 then
    match t.leaves (component K L) with
    | .press a e i todo :: _ => some ⟨a, i, e, todo⟩
    | _ => none
  else none

def turn? (t : HostMoment K L) : Option (Turn K) :=
  match t.move, t.machine.stack with
  | .work, .work (.press a e i (l :: _)) :: below =>
      if below.length = depth + 1 then
        some ⟨l, a, i, t.machine.world.latest i e,
          (t.machine.world.listeners a e.motion.type).contains l⟩
      else none
  | _, _ => none

def called? (t : HostMoment K L) : Option (Callee K) :=
  if t.machine.stack.length = depth + 2 then t.call? (component K L) else none

def raised? (t : HostMoment K L) : Option Failure :=
  match t.move, t.machine.stack with
  | .throw e, _ => if t.machine.stack.length = depth + 3 then some e else none
  | .work, .work task :: below =>
      if below.length = depth + 1 then
        match (resume task t.machine.world).2 with
        | .fail e => some e
        | _ => none
      else none
  | _, _ => none

def sent (past : List (HostMoment K L)) : List (Sending K) :=
  inOrder (sent? depth) past

def turns (past : List (HostMoment K L)) : List (Turn K) :=
  inOrder (turn? depth) past

def called (past : List (HostMoment K L)) : List (Callee K) :=
  inOrder (called? depth) past

def raised (past : List (HostMoment K L)) : List Failure :=
  inOrder (raised? depth) past

end looks

/-!
# The stages of a poll
-/

/-- A poll of a batch with input to go, and with listeners to go of the event
that it has sent last. -/
structure Account (naming : Key.Naming) (a : Nat) (batch : List InputEvent)
    (depth : Nat) (past : List (HostMoment K L)) (todo : List InputEvent)
    (left : List (Due K)) : Prop where
  events : (sent depth past).map Sending.event ++ keysBeforeQuit naming todo =
    keysBeforeQuit naming batch
  quit : .quit ∈ todo ↔ .quit ∈ batch
  current : forall t s, t ∈ past -> sent? depth t = some s ->
    s.window = a ∧ s.number = t.machine.world.prevented.size
      ∧ s.listeners = t.machine.world.listeners a s.event.motion.type
  turns :
    (turns depth past).map Turn.due ++ left =
      (sent depth past).flatMap Sending.due
  calls : called depth past = (Polling.turns depth past).filterMap Turn.callee?

/-- The stages of a poll that was issued on a stack. -/
inductive Stage (naming : Key.Naming) (a : Nat) (batch : List InputEvent)
    (base : List (Level (Task K) (Callee K)))
    (past : List (HostMoment K L)) (n : HostMachine K L) : Prop where
  | between (todo : List InputEvent)
      (account : Account naming a batch base.length past todo [])
      (quiet : raised base.length past = [])
      (stack : n.stack = .work (.poll a todo) :: base)
  | sending (todo : List InputEvent) (e : KeyEvent) (i : Nat)
      (ls : List (Listener K))
      (account : Account naming a batch base.length past todo
        (ls.map (due a e i)))
      (quiet : raised base.length past = [])
      (stack : n.stack =
        .work (.press a e i ls) :: .work (.poll a todo) :: base)
  | inside (todo : List InputEvent) (e : KeyEvent) (i : Nat)
      (ls : List (Listener K))
      (c : Callee K) (above : List (Level (Task K) (Callee K)))
      (account : Account naming a batch base.length past todo
        (ls.map (due a e i)))
      (quiet : raised base.length past = [])
      (stack : n.stack
        = above ++
          .outside c :: .work (.press a e i ls) :: .work (.poll a todo) :: base)
  | finished (todo : List InputEvent) (ended : keysBeforeQuit naming todo = [])
      (account : Account naming a batch base.length past todo [])
      (quiet : raised base.length past = []) (stack : n.stack = base)
      (result : n.result = .ok (.flag (decide (.quit ∉ batch))))
  | cut (f : Failure) (todo : List InputEvent) (left : List (Due K))
      (account : Account naming a batch base.length past todo left)
      (last : raised base.length past = [f]) (stack : n.stack = base)
      (result : n.result = .error f)

variable {naming : Key.Naming} {a i : Nat} {batch todo : List InputEvent}
variable {base : List (Level (Task K) (Callee K))}
variable {past : List (HostMoment K L)} {m n : HostMachine K L}
  {t : HostMoment K L}
variable {depth : Nat} {left : List (Due K)}

namespace Account

theorem start (naming : Key.Naming) (a : Nat) (batch : List InputEvent)
    (depth : Nat) :
    Account naming a batch depth ([] : List (HostMoment K L)) batch [] := by
  constructor
  · exact List.nil_append _
  · exact Iff.rfl
  · intro t s ht
    cases ht
  · rfl
  · rfl

theorem skip (h : Account naming a batch depth past todo left)
    (hsent : sent? depth t = none) (hturn : turn? depth t = none)
    (hcall : called? depth t = none) :
    Account naming a batch depth (t :: past) todo left := by
  constructor
  · rw [sent, inOrder_cons_none hsent]
    exact h.events
  · exact h.quit
  · intro u s hu hs
    rcases List.mem_cons.mp hu with rfl | hu
    · cases hsent.symm.trans hs
    · exact h.current u s hu hs
  · rw [Polling.turns, inOrder_cons_none hturn, sent, inOrder_cons_none hsent]
    exact h.turns
  · rw [called, inOrder_cons_none hcall, Polling.turns, inOrder_cons_none hturn]
    exact h.calls

theorem pass (h : Account naming a batch depth past (.other :: todo) left) :
    Account naming a batch depth past todo left := by
  have hevents := h.events
  rw [keysBeforeQuit_other] at hevents
  exact ⟨hevents, (quit_mem_cons .other nofun todo).symm.trans h.quit,
    h.current, h.turns, h.calls⟩

theorem send {motion : KeyMotion} {code : Nat} {e : KeyEvent}
    (h : Account naming a batch depth past (.key motion code :: todo) [])
    (fresh : e = ⟨motion, Key.name naming code, false⟩)
    (hsent : sent? depth t = some ⟨a, t.machine.world.prevented.size, e,
      t.machine.world.listeners a e.motion.type⟩)
    (hturn : turn? depth t = none) (hcall : called? depth t = none) :
    Account naming a batch depth (t :: past) todo
      ((t.machine.world.listeners a e.motion.type).map
        (due a e t.machine.world.prevented.size)) := by
  have hsend :
      inOrder (sent? depth) (t :: past) = inOrder (sent? depth) past ++ [_] :=
    inOrder_cons_some hsent
  have hsame : Polling.turns depth (t :: past) = Polling.turns depth past :=
    inOrder_cons_none hturn
  constructor
  · rw [sent, hsend, List.map_append, List.append_assoc, ← h.events,
      keysBeforeQuit_key, fresh]
    rfl
  · exact (quit_mem_cons (.key motion code) nofun todo).symm.trans h.quit
  · intro u s hu hs
    rcases List.mem_cons.mp hu with rfl | hu
    · cases hsent.symm.trans hs
      exact ⟨rfl, rfl, rfl⟩
    · exact h.current u s hu hs
  · rw [hsame, sent, hsend, List.flatMap_append]
    have hturns := h.turns
    rw [List.append_nil] at hturns
    rw [hturns]
    simp only [sent, Sending.due, List.flatMap_cons, List.flatMap_nil,
      List.append_nil]
  · rw [called, inOrder_cons_none hcall, hsame]
    exact h.calls

theorem turn {x : Turn K}
    (h : Account naming a batch depth past todo (x.due :: left))
    (hturn : turn? depth t = some x) (hsent : sent? depth t = none)
    (hcall : called? depth t = x.callee?) :
    Account naming a batch depth (t :: past) todo left := by
  have hsame : sent depth (t :: past) = sent depth past :=
    inOrder_cons_none hsent
  have hnext :
      Polling.turns depth (t :: past) = Polling.turns depth past ++ [x] :=
    inOrder_cons_some hturn
  constructor
  · rw [hsame]
    exact h.events
  · exact h.quit
  · intro u s hu hs
    rcases List.mem_cons.mp hu with rfl | hu
    · cases hsent.symm.trans hs
    · exact h.current u s hu hs
  · rw [hnext, hsame, List.map_append, List.append_assoc]
    exact h.turns
  · rw [hnext, List.filterMap_append, ← h.calls]
    cases hx : x.callee? with
    | none =>
        rw [called, inOrder_cons_none (hcall.trans hx),
          List.filterMap_cons_none hx]
        exact (List.append_nil _).symm
    | some c =>
        rw [called, inOrder_cons_some (hcall.trans hx),
          List.filterMap_cons_some hx]
        rfl

end Account

/-!
# Steps of a poll
-/

theorem stage_between (named : n.world.naming = naming)
    (account : Account naming a batch base.length past todo [])
    (quiet : raised base.length past = [])
    (stack : n.stack = .work (.poll a todo) :: base) {move : Move (Op K L)}
    (hmove : n.move? (component K L) move = some m) :
    Stage naming a batch base (⟨n, move⟩ :: past) m := by
  rcases move?_under_work hmove stack with ⟨rfl, rfl⟩
  have hturn : turn? base.length (⟨n, .work⟩ : HostMoment K L) = none := by
    simp only [turn?, stack]
  have hcall : called? base.length (⟨n, .work⟩ : HostMoment K L) = none := by
    unfold called?
    rw [stack, if_neg]
    exact Nat.ne_of_lt (Nat.lt_succ_self _)
  have hraise : raised? base.length (⟨n, .work⟩ : HostMoment K L) = none := by
    simp only [raised?, stack]
    rw [if_neg]
    exact Nat.ne_of_lt (Nat.lt_succ_self _)
  have hquiet : raised base.length (⟨n, .work⟩ :: past) = [] :=
    (inOrder_cons_none hraise).trans quiet
  have hsent : sent? base.length (⟨n, .work⟩ : HostMoment K L) =
      match (resume (.poll a todo) n.world).2.tasks with
      | .press a e i todo :: _ => some ⟨a, i, e, todo⟩
      | _ => none := by
    simp only [sent?, Moment.leaves, stack, List.length_cons, if_pos]
    rfl
  cases todo with
  | nil =>
      have hlast : decide (InputEvent.quit ∉ batch) = true :=
        decide_eq_true fun hquit => List.not_mem_nil (account.quit.mpr hquit)
      refine .finished [] rfl (account.skip (hsent.trans rfl) hturn hcall)
        hquiet ?_ ?_
      · rw [proceed_stack]
        rfl
      · rw [hlast]
        rfl
  | cons i todo =>
      cases i with
      | quit =>
          have hlast : decide (InputEvent.quit ∉ batch) = false :=
            decide_eq_false fun hquit =>
              hquit (account.quit.mp List.mem_cons_self)
          refine .finished (.quit :: todo) (keysBeforeQuit_quit naming todo)
            (account.skip (hsent.trans rfl) hturn hcall) hquiet ?_ ?_
          · rw [proceed_stack]
            rfl
          · rw [hlast]
            rfl
      | key motion code =>
          refine .sending todo ⟨motion, Key.name n.world.naming code, false⟩ _ _
            (account.send (named ▸ rfl) (hsent.trans rfl) hturn hcall) hquiet ?_
          rw [proceed_stack]
          rfl
      | other =>
          refine .between todo (account.pass.skip (hsent.trans rfl) hturn hcall)
            hquiet ?_
          rw [proceed_stack]
          rfl

inductive TurnGoes (a : Nat) (e : KeyEvent) (i : Nat) (x : Turn K)
    (ls : List (Listener K)) : Outcome K L -> Prop where
  | on (h' : Host K L) (silent : x.callee? = none) :
      TurnGoes a e i x ls (h', .push [.press a e i ls])
  | calls {c : Callee K} (h' : Host K L) (callee : x.callee? = some c) :
      TurnGoes a e i x ls (h', .call c [.press a e i ls])
  | raises {f : Failure} (h' : Host K L) (silent : x.callee? = none) :
      TurnGoes a e i x ls (h', .fail f)

theorem turnGoes_press (a : Nat) (e : KeyEvent) (i : Nat) (h : Host K L)
    (l : Listener K) (ls : List (Listener K)) :
    TurnGoes a e i
      ⟨l, a, i, h.latest i e, (h.listeners a e.motion.type).contains l⟩ ls
      (press a e i h (l :: ls)) := by
  by_cases hlisted : l ∈ h.listeners a e.motion.type
  · rw [press_listed hlisted]
    cases l with
    | outside k => exact .calls h (if_pos (List.contains_iff_mem.mpr hlisted))
    | keys motion g =>
        rw [pressTurn]
        rcases pressLogic g motion e i h with ⟨h', f | u⟩
        · exact .raises h' rfl
        · exact .on h' rfl
  · rw [press_unlisted hlisted]
    refine .on h ?_
    cases l with
    | outside k => exact if_neg fun h => hlisted (List.contains_iff_mem.mp h)
    | keys motion g => rfl

theorem stage_sending (ready : HasControl base) {e : KeyEvent}
    {ls : List (Listener K)}
    (account : Account naming a batch base.length past todo
      (ls.map (due a e i)))
    (quiet : raised base.length past = [])
    (stack : n.stack = .work (.press a e i ls) :: .work (.poll a todo) :: base)
    {move : Move (Op K L)} (hmove : n.move? (component K L) move = some m) :
    Stage naming a batch base (⟨n, move⟩ :: past) m := by
  rcases move?_under_work hmove stack with ⟨rfl, rfl⟩
  have hsent : sent? base.length (⟨n, .work⟩ : HostMoment K L) = none := by
    unfold sent?
    rw [stack, if_neg]
    exact Nat.ne_of_gt (Nat.lt_succ_self _)
  have hcall : called? base.length (⟨n, .work⟩ : HostMoment K L) =
      (press a e i n.world ls).2.callee? := by
    simp only [called?, stack, List.length_cons, if_pos, Moment.call?]
    rfl
  have hraise : raised? base.length (⟨n, .work⟩ : HostMoment K L) =
      match (press a e i n.world ls).2 with
      | .fail f => some f
      | _ => none := by
    simp only [raised?, stack, List.length_cons, if_pos]
    rfl
  show Stage naming a batch base _ (n.proceed _ (press a e i n.world ls))
  cases ls with
  | nil =>
      have hturn : turn? base.length (⟨n, .work⟩ : HostMoment K L) = none := by
        simp only [turn?, stack]
      refine .between todo (account.skip hsent hturn (hcall.trans rfl))
        ((inOrder_cons_none (hraise.trans rfl)).trans quiet) ?_
      rw [proceed_stack]
      rfl
  | cons l ls =>
      have hturn : turn? base.length (⟨n, .work⟩ : HostMoment K L) =
          some ⟨l, a, i, n.world.latest i e,
            (n.world.listeners a e.motion.type).contains l⟩ := by
        simp only [turn?, stack, List.length_cons, if_pos]
      have hgoes := turnGoes_press a e i n.world l ls
      generalize press a e i n.world (l :: ls) = o at hgoes hcall hraise ⊢
      cases hgoes with
      | on h' silent =>
          have hnext :=
            Account.turn account hturn hsent (hcall.trans silent.symm)
          refine .sending todo e i ls hnext
            ((inOrder_cons_none hraise).trans quiet) ?_
          rw [proceed_stack]
          rfl
      | calls h' callee =>
          rename_i c
          have hnext :=
            Account.turn account hturn hsent (hcall.trans callee.symm)
          refine .inside todo e i ls c [] hnext
            ((inOrder_cons_none hraise).trans quiet) ?_
          rw [proceed_stack]
          rfl
      | raises h' silent =>
          rename_i f
          have hnext :=
            Account.turn account hturn hsent (hcall.trans silent.symm)
          refine .cut f todo _ hnext ?_ ?_ rfl
          · rw [raised, inOrder_cons_some hraise]
            exact congrArg (· ++ [f]) quiet
          · rw [proceed_stack]
            exact unwind_of_hasControl ready

theorem stage_inside (ready : HasControl base) {e : KeyEvent}
    {ls : List (Listener K)} {c : Callee K}
    {above : List (Level (Task K) (Callee K))}
    (account : Account naming a batch base.length past todo
      (ls.map (due a e i)))
    (quiet : raised base.length past = [])
    (stack : n.stack =
      above ++
        .outside c :: .work (.press a e i ls) :: .work (.poll a todo) :: base)
    {move : Move (Op K L)} (hmove : n.move? (component K L) move = some m) :
    Stage naming a batch base (⟨n, move⟩ :: past) m := by
  have hlength : n.stack.length = above.length + (base.length + 3) := by
    rw [stack, List.length_append]
    rfl
  have hsent : sent? base.length (⟨n, move⟩ : HostMoment K L) = none := by
    unfold sent?
    rw [if_neg]
    show n.stack.length ≠ base.length + 1
    omega
  have hcall : called? base.length (⟨n, move⟩ : HostMoment K L) = none := by
    unfold called?
    rw [if_neg]
    show n.stack.length ≠ base.length + 2
    omega
  have hturn : turn? base.length (⟨n, move⟩ : HostMoment K L) = none := by
    unfold turn?
    split
    · rename_i below _ hs
      have hbelow : n.stack.length = below.length + 1 := congrArg List.length hs
      rw [if_neg]
      omega
    · rfl
  have hnext := account.skip hsent hturn hcall
  rcases move?_inside hmove stack with
    ⟨above', hstack, _, htop⟩ | ⟨_, rfl, rfl⟩ | ⟨rfl, f, rfl, rfl⟩
  · have hraise : raised? base.length (⟨n, move⟩ : HostMoment K L) = none := by
      unfold raised?
      split
      · -- the listener itself does not throw here, so something lies above it
        rename_i f hthrow
        have hne : above ≠ [] := by
          intro hnil
          rcases htop hnil with ⟨op, hop⟩
          cases hthrow.symm.trans hop
        have hpos := List.length_pos_iff.mpr hne
        rw [if_neg]
        show n.stack.length ≠ base.length + 3
        omega
      · rename_i below _ hs
        have hbelow : n.stack.length = below.length + 1 :=
          congrArg List.length hs
        rw [if_neg]
        omega
      · rfl
    exact .inside todo e i ls c above' hnext
      ((inOrder_cons_none hraise).trans quiet) hstack
  · exact .sending todo e i ls hnext ((inOrder_cons_none rfl).trans quiet) rfl
  · have hraise :
        raised? base.length (⟨n, .throw f⟩ : HostMoment K L) = some f := by
      unfold raised?
      exact if_pos (hlength.trans (Nat.zero_add _))
    refine .cut f todo _ hnext ?_ (unwind_of_hasControl ready) rfl
    rw [raised, inOrder_cons_some hraise]
    exact congrArg (· ++ [f]) quiet

theorem issue_poll (a : Nat) (isOpen : m.world.display.isOpen = true) :
    m.issue (component K L) (.poll a) =
      ⟨{ m.world with input := [] }, .work (.poll a m.world.input) :: m.stack,
       m.result⟩ := by
  have hperform : (component K L).perform (.poll a) m.world =
      ({ m.world with input := [] }, .push [.poll a m.world.input]) :=
        if_pos isOpen
  unfold Machine.issue
  rw [hperform]
  rfl

theorem stage_of_course (ready : HasControl m.stack)
    (isOpen : m.world.display.isOpen = true)
    (course : History (component K L) (during m.stack anyMove)
      (m.issue (component K L) (.poll a)) past n) :
    Stage m.world.naming a m.world.input m.stack past n := by
  induction course with
  | start =>
      exact .between m.world.input (.start _ a m.world.input m.stack.length) rfl
        (congrArg Machine.stack (issue_poll a isOpen))
  | step before hrule hmove ih =>
      cases ih with
      | between todo account quiet stack =>
          have hnamed := naming_of_history before
          rw [issue_poll a isOpen] at hnamed
          exact stage_between hnamed account quiet stack hmove
      | sending todo e i ls account quiet stack =>
          exact stage_sending ready account quiet stack hmove
      | inside todo e i ls c above account quiet stack =>
          exact stage_inside ready account quiet stack hmove
      | finished todo ended account quiet stack result =>
          exact absurd stack (stack_ne_of_during hrule)
      | cut f todo left account last stack result =>
          exact absurd stack (stack_ne_of_during hrule)

theorem Stage.account (stage : Stage naming a batch base past n) :
    exists todo left, Account naming a batch base.length past todo left := by
  cases stage with
  | between todo account => exact ⟨todo, _, account⟩
  | sending todo e i ls account => exact ⟨todo, _, account⟩
  | inside todo e i ls c above account => exact ⟨todo, _, account⟩
  | finished todo ended account => exact ⟨todo, _, account⟩
  | cut f todo left account => exact ⟨todo, left, account⟩

/-- A poll that no listener has cut short has sent everything when it is
over. -/
theorem Stage.outcome (stage : Stage naming a batch base past n) :
    raised base.length past = []
        ∧ (n.stack = base -> n.result = .ok (.flag (decide (.quit ∉ batch)))
          ∧ (sent base.length past).map Sending.event =
            keysBeforeQuit naming batch
          ∧ (turns base.length past).map Turn.due =
            (sent base.length past).flatMap Sending.due)
      ∨ exists f,
        raised base.length past = [f] ∧ n.stack = base
          ∧ n.result = .error f := by
  have hbusy : base.length < n.stack.length -> n.stack ≠ base := by
    intro hunder hover
    rw [hover] at hunder
    exact Nat.lt_irrefl _ hunder
  cases stage with
  | between todo account quiet stack =>
      refine .inl ⟨quiet, fun hover => absurd hover (hbusy ?_)⟩
      rw [stack]
      exact Nat.lt_succ_self _
  | sending todo e i ls account quiet stack =>
      refine .inl ⟨quiet, fun hover => absurd hover (hbusy ?_)⟩
      rw [stack]
      exact Nat.lt_succ_of_lt (Nat.lt_succ_self _)
  | inside todo e i ls c above account quiet stack =>
      refine .inl ⟨quiet, fun hover => absurd hover (hbusy ?_)⟩
      rw [stack, List.length_append]
      simp only [List.length_cons]
      omega
  | finished todo ended account quiet stack result =>
      have hevents := account.events
      have hturns := account.turns
      rw [ended, List.append_nil] at hevents
      rw [List.append_nil] at hturns
      exact .inl ⟨quiet, fun _ => ⟨result, hevents, hturns⟩⟩
  | cut f todo left account last stack result =>
      exact .inr ⟨f, last, stack, result⟩

/-- A poll sends the keys of the batch that it takes, up to the first quit, in
their order and once each, under the names that the keyboard has for them,
whichever these are.  Each is sent fresh, as an event of its own, to the window
that is polled, and to the listeners that are registered when it is sent; these
have their turns one after the other, and outside code is called in its turn if
it is still registered.  Unless a listener raises, which ends the poll, the poll
sends all of them and answers whether there was no quit in the batch.  From
whatever point, it comes to its end if nothing more is asked for.  Input that is
posted meanwhile waits for the next poll. -/
theorem poll_sends_keys_before_quit (ready : HasControl m.stack)
    (isOpen : m.world.display.isOpen = true)
    (course : History (component K L) (during m.stack anyMove)
      (m.issue (component K L) (.poll a)) past n) :
    let depth := m.stack.length
    let keys := keysBeforeQuit m.world.naming m.world.input
    (sent depth past).map Sending.event <+: keys
      ∧ (forall t s, t ∈ past -> sent? depth t = some s ->
          s.window = a ∧ s.number = t.machine.world.prevented.size
            ∧ s.listeners = t.machine.world.listeners a s.event.motion.type)
      ∧ (turns depth past).map Turn.due <+:
        (sent depth past).flatMap Sending.due
      ∧ called depth past = (turns depth past).filterMap Turn.callee?
      ∧ (raised depth past = []
          ∧ (n.stack = m.stack ->
            n.result = .ok (.flag (decide (.quit ∉ m.world.input)))
              ∧ (sent depth past).map Sending.event = keys
              ∧ (turns depth past).map Turn.due
                = (sent depth past).flatMap Sending.due)
        ∨ exists f,
          raised depth past = [f] ∧ n.stack = m.stack ∧ n.result = .error f)
      ∧ (exists k, Reaches (component K L) (during m.stack yielding) n k
        ∧ k.stack = m.stack)
      ∧ ((forall t, t ∈ past -> sparesInput t.move = true) ->
        n.world.input = posted past) := by
  intro depth keys
  have hstage := stage_of_course ready isOpen course
  rcases hstage.account with ⟨todo, left, haccount⟩
  refine ⟨⟨_, haccount.events⟩, haccount.current, ⟨_, haccount.turns⟩,
    haccount.calls, hstage.outcome, operation_ends ready course, fun spares =>
      ?_⟩
  rw [input_of_history course spares, issue_poll a isOpen]
  rfl

/-- A keyboard with a key that prints nothing and has a name all the same. -/
def tabbed : Key.Naming := fun code =>
  if code = 9 then "tab" else Key.printed code

/-- A window with three listeners for keys that go down and one for keys that go
up, and a batch of input with a quit in it. -/
def awaiting : HostMachine String Logic :=
  let world : Host String Logic :=
    { oneViewer .standard with
      display := { isOpen := true }
      naming := tabbed
      input := [.key .down 9, .other, .key .up 27, .quit, .key .down 114] }
  [("keydown", "a"), ("keydown", "b"), ("keydown", "c"), ("keyup", "d")].foldl
    (fun m l => m.issue (component String Logic) (.listen 0 l.1 l.2))
    ⟨world, [], .ok .nothing⟩

/-- The first listener posts a key, removes the second and prevents the default
of the event: the two keys before the quit are sent, the second listener is
passed over, the third gets the event as prevented and the fourth gets a fresh
one, the poll answers that the window is to close, and what was posted is still
there. -/
theorem poll_with_busy_listener :
    exists past n, History (component String Logic) (during [] anyMove)
        (awaiting.issue (component String Logic) (.poll 0)) past n
      ∧ n.stack = [] ∧ raised 0 past = []
      ∧ called 0 past =
        [.key "a" 0 ⟨.down, "tab", false⟩, .key "c" 0 ⟨.down, "tab", true⟩,
        .key "d" 1 ⟨.up, "Escape", false⟩]
      ∧ (sent 0 past).map Sending.event
        = [⟨.down, "tab", false⟩, ⟨.up, "Escape", false⟩]
      ∧ n.result = .ok (.flag false)
      ∧ n.world.input = [.key .down 32] := by
  let moves : List (Move (Op String Logic)) :=
    [.work, .work, .issue (.post [.key .down 32]),
      .issue (.unlisten 0 "keydown" "b"), .issue (.preventDefault 0), .giveBack,
      .work, .work, .giveBack, .work, .work, .work, .work, .giveBack, .work,
      .work]
  have allowed :
      forall (k : HostMachine String Logic) (move : Move (Op String Logic)),
        decide (0 < k.stack.length) = true -> during [] anyMove k move :=
    fun _ _ h => ⟨trivial, of_decide_eq_true h⟩
  have course : History (component String Logic) (during [] anyMove)
      (awaiting.issue (component String Logic) (.poll 0)) _ _ :=
    .of_foldlM allowed .start (show moves.foldlM _ _ = _ from rfl)
  have ready : HasControl awaiting.stack := hasControl_nil
  rcases poll_sends_keys_before_quit ready rfl course with
    ⟨_, _, _, hcalled, houtcome, _, hinput⟩
  rcases houtcome with ⟨hquiet, hover⟩ | ⟨f, hraised, _⟩
  · rcases hover rfl with ⟨hresult, hsent, _⟩
    exact ⟨_, _, course, rfl, hquiet, hcalled, hsent, hresult,
      hinput (List.all_eq_true.mp rfl)⟩
  · cases hraised

end Polling
end Host
end WireView
