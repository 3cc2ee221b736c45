import WireView.Proofs.Reentrant.Course

/-!
# Playing task by task

What an agent and a machine make of some tasks can be told without knowing what
lies below them on the stack: they complete the tasks with so many operations of
the agent, or they fail on the way. There is one rule for each way in which a
piece of work ends.
-/

namespace WireView
namespace Reentrant
namespace Machine

variable {State World Op Task Callee Value : Type}
variable {C : Component World Op Task Callee Value}
  {A : Agent State World Op Callee}
variable {s s₁ s₂ s' : State} {w w₁ w₂ w₃ w₄ w' : World}
  {rest : List (Level Task Callee)}
variable {r : Except Failure Value} {budget : Nat}

/-!
# One level of the stack
-/

theorem play_nil : play C A budget s ⟨w, [], r⟩ = (s, ⟨w, [], r⟩) := by
  rw [play]

theorem play_work {t : Task} : play C A budget s ⟨w, .work t :: rest, r⟩ =
    play C A budget s
      (proceed rest ⟨w, .work t :: rest, r⟩ (C.resume t w)) := by
  rw [play]
  rfl

theorem play_silent {c : Callee} (answer : A.answer c s w = (s', w', none)) :
    play C A budget s ⟨w, .outside c :: rest, r⟩ =
      play C A budget s' ⟨w', rest, .ok C.returned⟩ := by
  rw [play]
  simp only [answer]
  rfl

theorem play_acting {c : Callee} {op : Op}
    (answer : A.answer c s w = (s', w', some op)) :
    play C A (budget + 1) s ⟨w, .outside c :: rest, r⟩ =
      play C A budget s'
        (proceed rest ⟨w', rest, .ok C.returned⟩ (C.perform op w')) := by
  rw [play]
  simp only [answer]
  rfl

/-!
# Completing tasks
-/

def Completes (C : Component World Op Task Callee Value)
    (A : Agent State World Op Callee) (k : Nat) (ts : List Task) (s : State)
    (w : World) (s' : State) (w' : World) : Prop :=
  forall rest r budget, exists v,
    play C A (budget + k) s ⟨w, levels ts ++ rest, r⟩ =
    play C A budget s' ⟨w', rest, .ok v⟩

/-- Tasks of which one fails before the agent has done any operation. -/
def Fails (C : Component World Op Task Callee Value)
    (A : Agent State World Op Callee) (ts : List Task) (s : State) (w : World) :
    Prop :=
  forall rest r budget, exists s' w' e,
    play C A budget s ⟨w, levels ts ++ rest, r⟩ =
    play C A budget s' ⟨w', unwind rest, .error e⟩

section completes

variable {t : Task} {ts us : List Task} {c : Callee} {op : Op} {v : Value}
  {j k : Nat}

theorem Completes.done (work : C.resume t w = (w', .done v)) :
    Completes C A 0 [t] s w s w' := by
  intro rest r budget
  refine ⟨v, ?_⟩
  show play C A budget s ⟨w, .work t :: rest, r⟩ = _
  rw [play_work, work]
  rfl

theorem Completes.push (work : C.resume t w = (w₁, .push ts))
    (after : Completes C A k ts s w₁ s' w') :
    Completes C A k [t] s w s' w' := by
  intro rest r budget
  rcases after rest r budget with ⟨v, hafter⟩
  refine ⟨v, ?_⟩
  show play C A (budget + k) s ⟨w, .work t :: rest, r⟩ = _
  rw [play_work, work]
  exact hafter

theorem Completes.call (work : C.resume t w = (w₁, .call c ts))
    (answer : A.answer c s w₁ = (s₁, w₂, none))
    (after : Completes C A k ts s₁ w₂ s' w') :
    Completes C A k [t] s w s' w' := by
  intro rest r budget
  rcases after rest (.ok C.returned) budget with ⟨v, hafter⟩
  refine ⟨v, ?_⟩
  show play C A (budget + k) s ⟨w, .work t :: rest, r⟩ = _
  rw [play_work, work]
  exact (play_silent answer).trans hafter

theorem Completes.call_done (work : C.resume t w = (w₁, .call c ts))
    (answer : A.answer c s w₁ = (s₁, w₂, some op))
    (operation : C.perform op w₂ = (w₃, .done v))
    (after : Completes C A k ts s₁ w₃ s' w') :
    Completes C A (k + 1) [t] s w s' w' := by
  intro rest r budget
  rcases after rest (.ok v) budget with ⟨u, hafter⟩
  refine ⟨u, ?_⟩
  show play C A (budget + k + 1) s ⟨w, .work t :: rest, r⟩ = _
  rw [play_work, work]
  refine (play_acting answer).trans ?_
  rw [operation]
  exact hafter

theorem Completes.call_push (work : C.resume t w = (w₁, .call c ts))
    (answer : A.answer c s w₁ = (s₁, w₂, some op))
    (operation : C.perform op w₂ = (w₃, .push us))
    (inside : Completes C A j us s₁ w₃ s₂ w₄)
    (after : Completes C A k ts s₂ w₄ s' w') :
    Completes C A (k + j + 1) [t] s w s' w' := by
  intro rest r budget
  rcases inside (levels ts ++ rest) (.ok C.returned) (budget + k) with
    ⟨u, hinside⟩
  rcases after rest (.ok u) budget with ⟨v, hafter⟩
  refine ⟨v, ?_⟩
  rw [← Nat.add_assoc, ← Nat.add_assoc]
  show play C A (budget + k + j + 1) s ⟨w, .work t :: rest, r⟩ = _
  rw [play_work, work]
  refine (play_acting answer).trans ?_
  rw [operation]
  exact hinside.trans hafter

theorem Completes.seq (first : Completes C A j [t] s w s₁ w₁)
    (after : Completes C A k ts s₁ w₁ s' w') :
    Completes C A (k + j) (t :: ts) s w s' w' := by
  intro rest r budget
  rcases first (levels ts ++ rest) r (budget + k) with ⟨u, hfirst⟩
  rcases after rest (.ok u) budget with ⟨v, hafter⟩
  rw [← Nat.add_assoc]
  exact ⟨v, hfirst.trans hafter⟩

theorem issue_push (operation : C.perform op w = (w₁, .push ts)) :
    issue C op ⟨w, [], r⟩ = ⟨w₁, levels ts, r⟩ := by
  unfold issue
  rw [operation]
  show (⟨w₁, levels ts ++ [], r⟩ : Machine World Task Callee Value) = _
  rw [List.append_nil]

theorem Completes.issue (h : Completes C A k ts s w₁ s' w')
    (operation : C.perform op w = (w₁, .push ts)) (enough : k ≤ budget)
    (r : Except Failure Value) : exists v,
      play C A budget s (Machine.issue C op ⟨w, [], r⟩) =
        (s', ⟨w', [], .ok v⟩) := by
  rcases h [] r (budget - k) with ⟨v, hplay⟩
  rw [List.append_nil, Nat.sub_add_cancel enough, play_nil,
    ← issue_push operation] at hplay
  exact ⟨v, hplay⟩

theorem Fails.fail {e : Failure} (work : C.resume t w = (w', .fail e))
    (ts : List Task) :
    Fails C A (t :: ts) s w := by
  intro rest r budget
  refine ⟨s, w', e, ?_⟩
  show play C A budget s ⟨w, .work t :: (levels ts ++ rest), r⟩ = _
  rw [play_work, work]
  show play C A budget s ⟨w', unwind (levels ts ++ rest), .error e⟩ = _
  rw [unwind_levels]

theorem Fails.push (work : C.resume t w = (w₁, .push ts))
    (after : Fails C A ts s w₁) :
    Fails C A [t] s w := by
  intro rest r budget
  rcases after rest r budget with ⟨s', w', e, hafter⟩
  refine ⟨s', w', e, ?_⟩
  show play C A budget s ⟨w, .work t :: rest, r⟩ = _
  rw [play_work, work]
  exact hafter

theorem Fails.seq (first : Completes C A 0 [t] s w s₁ w₁)
    (after : Fails C A ts s₁ w₁) :
    Fails C A (t :: ts) s w := by
  intro rest r budget
  rcases first (levels ts ++ rest) r budget with ⟨u, hfirst⟩
  rcases after rest (.ok u) budget with ⟨s', w', e, hafter⟩
  exact ⟨s', w', e, hfirst.trans hafter⟩

theorem Fails.issue (h : Fails C A ts s w₁)
    (operation : C.perform op w = (w₁, .push ts)) (r : Except Failure Value) :
    exists s' w' e,
      play C A budget s (Machine.issue C op ⟨w, [], r⟩) =
        (s', ⟨w', [], .error e⟩) := by
  rcases h [] r budget with ⟨s', w', e, hplay⟩
  rw [List.append_nil, ← issue_push operation] at hplay
  exact ⟨s', w', e, hplay.trans play_nil⟩

end completes

end Machine
end Reentrant
end WireView
