/-!
# Registries

A registry lists the listeners of each type of event, in the order in which they
were added.  A listener that is listed already stays where it is.
-/

namespace WireView

structure Registry (L : Type) where
  lists : List (String × List L) := []

namespace Registry

variable {L : Type}

def listeners (r : Registry L) (type : String) : List L :=
  (r.lists.lookup type).getD []

def count (r : Registry L) (type : String) : Nat :=
  (r.listeners type).length

def put (type : String) (ls : List L) :
    List (String × List L) -> List (String × List L)
  | [] => [(type, ls)]
  | (t, old) :: rest =>
      if t = type then (type, ls) :: rest else (t, old) :: put type ls rest

def update (r : Registry L) (type : String) (f : List L -> List L) :
    Registry L :=
  ⟨put type (f (r.listeners type)) r.lists⟩

theorem lookup_put (type u : String) (ls : List L)
    (lists : List (String × List L)) :
    (put type ls lists).lookup u =
      if u = type then some ls else lists.lookup u := by
  induction lists with
  | nil =>
      by_cases h : u = type
      · simp [put, h]
      · simp [put, h, List.lookup_cons, beq_false_of_ne h]
  | cons entry rest ih =>
      obtain ⟨t, old⟩ := entry
      by_cases ht : t = type
      · subst ht
        by_cases h : u = t
        · simp [put, h]
        · simp [put, h, List.lookup_cons, beq_false_of_ne h]
      · by_cases hu : u = t
        · subst hu
          simp [put, ht]
        · simp [put, ht, List.lookup_cons, beq_false_of_ne hu, ih]

theorem listeners_update (r : Registry L) (type u : String)
    (f : List L -> List L) :
    (r.update type f).listeners u =
      if u = type then f (r.listeners type) else r.listeners u := by
  unfold update listeners
  rw [lookup_put]
  by_cases h : u = type <;> simp [h]

variable [DecidableEq L]

/-- One step of a dispatch to listeners of a list that may have changed since:
the next one is called if it is listed still, and passed over if it is not. -/
def step {R : Type} (listed : List L) (ended : R) (call : L -> List L -> R)
    (pass : List L -> R) : List L -> R
  | [] => ended
  | l :: todo => if l ∈ listed then call l todo else pass todo

section step

variable {R : Type} {listed : List L} {ended : R} {call : L -> List L -> R}
variable {pass : List L -> R} {l : L}

theorem step_listed (h : l ∈ listed) (todo : List L) :
    step listed ended call pass (l :: todo) = call l todo :=
  if_pos h

theorem step_unlisted (h : l ∉ listed) (todo : List L) :
    step listed ended call pass (l :: todo) = pass todo :=
  if_neg h

theorem step_elim {motive : R -> Prop} (todo : List L)
    (ended_of_nil : todo = [] -> motive ended)
    (call_of_listed : forall l rest, todo = l :: rest -> l ∈ listed ->
      motive (call l rest))
    (pass_of_unlisted : forall l rest, todo = l :: rest -> l ∉ listed ->
      motive (pass rest)) :
    motive (step listed ended call pass todo) := by
  cases todo with
  | nil => exact ended_of_nil rfl
  | cons l rest =>
      by_cases h : l ∈ listed
      · rw [step_listed h]
        exact call_of_listed l rest rfl h
      · rw [step_unlisted h]
        exact pass_of_unlisted l rest rfl h

end step

def contains (r : Registry L) (type : String) (l : L) : Bool :=
  (r.listeners type).contains l

def add (r : Registry L) (type : String) (l : L) : Registry L :=
  r.update type fun ls => if l ∈ ls then ls else ls ++ [l]

def remove (r : Registry L) (type : String) (l : L) : Registry L :=
  r.update type fun ls => ls.erase l

end Registry
end WireView
