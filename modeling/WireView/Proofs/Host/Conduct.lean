import WireView.Proofs.Host.Shape
import WireView.Proofs.Host.Viewers
import WireView.Proofs.Reentrant.Course

/-!
# Work on a loop

Some work concerns the loop of one viewer: it starts or stops that loop, or
tells the observers that it has been started or stopped.  Such work comes from
an operation that asks for it or from other work on the same loop, and from
nothing else.
-/

namespace WireView
namespace Host

open Reentrant Machine

variable {K L : Type}

def Task.concerns (g : Nat) : Task K -> Bool
  | .run i => i = g
  | .setUp i => i = g
  | .start i => i = g
  | .stop i => i = g
  | .notify i type _ => i = g && type = runningType
  | _ => false

def Op.steers (g : Nat) : Op K L -> Bool
  | .run i => i = g
  | .stop i => i = g
  | .reset i => i = g
  | _ => false

variable [LoopLogic L] [DecidableEq K]

theorem frameType_ne : frameType ≠ runningType := by
  decide

theorem unconcerned_resume {t : Task K} (h : Host K L) {g : Nat}
    (ht : t.concerns g = false) {u : Task K} (hu : u ∈ (resume t h).2.tasks) :
    u.concerns g = false := by
  have hother : forall {i : Nat} {type : String} {todo : List K}, i ≠ g ->
      (Task.notify i type todo).concerns g = false := by
    intro i type todo hi
    simp [Task.concerns, hi]
  have hp := continues_resume t h
  generalize (resume t h).2 = p at hp hu
  cases hp with
  | done value => cases hu
  | fail cause => cases hu
  | run i =>
      rcases List.mem_cons.mp hu with rfl | hu
      · exact ht
      · rw [List.mem_singleton.mp hu]
        exact ht
  | start i todo =>
      rw [List.mem_singleton.mp hu]
      exact hother (of_decide_eq_false ht)
  | stop present running todo =>
      rw [List.mem_singleton.mp hu]
      exact hother (of_decide_eq_false ht)
  | observer listed todo =>
      rw [List.mem_singleton.mp hu]
      exact ht
  | unlisted i type k todo =>
      rw [List.mem_singleton.mp hu]
      exact ht
  | tick a handle i observers todo ran =>
      have hframe : (frameType = runningType) = False := eq_false frameType_ne
      simp only [Progress.tasks, List.mem_cons, List.not_mem_nil, or_false]
        at hu
      rcases hu with rfl | rfl | rfl | rfl | rfl
      · simp [Task.concerns, hframe]
      · rfl
      · rfl
      · rfl
      · rfl
  | key a i e listeners todo =>
      rcases List.mem_cons.mp hu with rfl | hu
      · rfl
      · rw [List.mem_singleton.mp hu]
        rfl
  | _ =>
      rw [List.mem_singleton.mp hu]
      rfl

theorem unconcerned_perform {op : Op K L} (h : Host K L) {g : Nat}
    (hop : op.steers g = false) {u : Task K} (hu : u ∈ (perform op h).2.tasks) :
    u.concerns g = false := by
  have hbegun := begins_perform op h
  generalize (perform op h).2.tasks = tasks at hbegun hu
  cases hbegun with
  | nothing => cases hu
  | run i =>
      rw [List.mem_singleton.mp hu]
      exact hop
  | stop i =>
      rw [List.mem_singleton.mp hu]
      exact hop
  | reset i =>
      rcases List.mem_cons.mp hu with rfl | hu
      · exact hop
      · rw [List.mem_singleton.mp hu]
        exact hop
  | press a e todo =>
      rw [List.mem_singleton.mp hu]
      rfl
  | poll a todo =>
      rw [List.mem_singleton.mp hu]
      rfl
  | frame a todo =>
      rw [List.mem_singleton.mp hu]
      rfl

/-!
# What work on a loop does
-/

omit [DecidableEq K] [LoopLogic L] in
theorem withViewer_of_present {g : Nat} {v : Viewer K L} {h : Host K L}
    (hv : h.viewers[g]? = some v) (f : Viewer K L -> Host K L -> Outcome K L) :
    withViewer g f h = f v h := by
  unfold withViewer
  rw [hv]

theorem told_resume {t : Task K} {h : Host K L} {g : Nat} {todo : List K}
    (told : .notify g runningType todo ∈ (resume t h).2.tasks) :
    (exists todo', t = .notify g runningType todo') ∨ t = .start g
      ∨ t = .stop g ∧ exists v, h.viewers[g]? = some v ∧ v.state ≠ .idle := by
  have hp := continues_resume t h
  generalize (resume t h).2 = p at hp told
  cases hp with
  | start i todo' =>
      cases List.mem_singleton.mp told
      exact .inr (.inl rfl)
  | stop present running todo' =>
      cases List.mem_singleton.mp told
      exact .inr (.inr ⟨rfl, _, present, running⟩)
  | observer listed todo' =>
      cases List.mem_singleton.mp told
      exact .inl ⟨_, rfl⟩
  | unlisted i type k todo' =>
      cases List.mem_singleton.mp told
      exact .inl ⟨_, rfl⟩
  | tick a handle i observers todo' ran =>
      have hframe : (runningType = frameType) = False :=
        eq_false frameType_ne.symm
      simp [Progress.tasks, hframe] at told
  | _ => simp [Progress.tasks] at told

theorem callee_resume {t : Task K} {h : Host K L} {k : K} {type : String}
    {g : Nat} (call : (resume t h).2.callee? = some (.viewer k type g)) :
    exists todo, t = .notify g type (k :: todo) ∧ k ∈ h.observers g type := by
  have hp := continues_resume t h
  generalize (resume t h).2 = p at hp call
  cases hp with
  | observer listed todo =>
      cases call
      exact ⟨todo, rfl, listed⟩
  | _ => cases call

theorem callee_perform (op : Op K L) (h : Host K L) :
    (perform op h).2.callee? = none := by
  have hset := outset_perform op h
  generalize (perform op h).2 = p at hset
  cases hset with
  | done value => rfl
  | fail cause => rfl
  | push ts hts => rfl

/-!
# Stacks that a loop has no part in
-/

/-- Nothing on the stack is work on the loop of the viewer, and nobody is being
told of it. -/
structure Clear (g : Nat) (stack : List (Level (Task K) (Callee K))) :
    Prop where
  work : forall t, .work t ∈ stack -> t.concerns g = false
  told : forall k, .outside (.viewer k runningType g) ∉ stack

section Clear

variable {g : Nat} {stack stack' : List (Level (Task K) (Callee K))}
variable {m n : Machine (Host K L) (Task K) (Callee K) Value}
  {move : Move (Op K L)}

omit [LoopLogic L] [DecidableEq K] in
theorem Clear.of_mem_or (h : Clear g stack)
    {new : List (Level (Task K) (Callee K))} (hnew : Clear g new)
    (sub : forall l, l ∈ stack' -> l ∈ new ∨ l ∈ stack) : Clear g stack' := by
  constructor
  · intro t ht
    exact (sub _ ht).elim (hnew.work t) (h.work t)
  · intro k hk
    exact (sub _ hk).elim (hnew.told k) (h.told k)

/-- The move is not about the loop of a viewer: nobody asks for it to be started
or stopped, and the work that is done does not concern it. -/
structure Apart (g : Nat) (m : Machine (Host K L) (Task K) (Callee K) Value)
    (move : Move (Op K L)) : Prop where
  steers : forall op, move = .issue op -> op.steers g = false
  work : forall t rest, m.stack = .work t :: rest -> t.concerns g = false

theorem Apart.brings (apart : Apart g m move)
    (hmove : m.move? (component K L) move = some n) :
    Clear g ((Moment.mk m move).brings (component K L))
      ∧ forall k,
        (Moment.mk m move).call? (component K L) ≠
          some (.viewer k runningType g) := by
  have htold : forall k,
      (Moment.mk m move).call? (component K L) ≠
        some (.viewer k runningType g) := by
    intro k call
    cases move with
    | work =>
        rcases move?_work hmove with ⟨t, rest, hstack, _⟩
        simp only [Moment.call?, hstack] at call
        rcases callee_resume call with ⟨todo, rfl, _⟩
        have hnot := apart.work _ rest hstack
        simp [Task.concerns] at hnot
    | issue op =>
        have hcall :
            (perform op m.world).2.callee? = some (.viewer k runningType g) :=
          call
        rw [callee_perform] at hcall
        cases hcall
    | giveBack => cases call
    | throw e => cases call
  refine ⟨⟨?_, fun k hk => htold k (Moment.outside_mem_brings hk)⟩, htold⟩
  intro u hu
  have hleft := Moment.work_mem_brings hu
  cases move with
  | work =>
      rcases move?_work hmove with ⟨t, rest, hstack, _⟩
      simp only [Moment.leaves, hstack] at hleft
      exact unconcerned_resume m.world (apart.work t rest hstack) hleft
  | issue op => exact unconcerned_perform m.world (apart.steers op rfl) hleft
  | giveBack => cases hleft
  | throw e => cases hleft

theorem Apart.clear (apart : Apart g m move) (clear : Clear g m.stack)
    (hmove : m.move? (component K L) move = some n) : Clear g n.stack :=
  clear.of_mem_or (apart.brings hmove).1 fun _ hl => level_of_move? hmove hl

end Clear

end Host
end WireView
