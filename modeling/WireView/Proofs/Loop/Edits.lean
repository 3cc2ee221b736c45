import WireView.Proofs.Loop.Subscriptions

/-!
# Registries as ordered sets

An edit adds a listener for a type or removes one.  A registry that starts empty
is what its edits have made of it: a listener is listed if its latest edit added
it, once, and behind those that entered the list before.

A listener enters the list when it is added and is not listed yet; it stays
where it is until it is removed.
-/

namespace WireView
namespace Registry

variable {L : Type}

inductive Edit (L : Type) where
  | add (type : String) (l : L)
  | remove (type : String) (l : L)
  deriving DecidableEq

def Edit.type : Edit L -> String
  | .add type _ => type
  | .remove type _ => type

def Edit.listener : Edit L -> L
  | .add _ l => l
  | .remove _ l => l

variable [DecidableEq L]

def edit (r : Registry L) : Edit L -> Registry L
  | .add type l => r.add type l
  | .remove type l => r.remove type l

def ofEdits : List (Edit L) -> Registry L
  | [] => {}
  | e :: es => (ofEdits es).edit e

def Edit.verdict? (type : String) (l : L) (e : Edit L) : Option Bool :=
  if e = .add type l then
    some true
  else if e = .remove type l then
    some false
  else
    none

def latest? (type : String) (l : L) (es : List (Edit L)) : Option Bool :=
  es.findSome? (Edit.verdict? type l)

/-- The listener entered the list when so many edits had been made: it was added
while its latest edit was no addition, and it has not been removed since. -/
def Enters (es : List (Edit L)) (type : String) (l : L) (time : Nat) : Prop :=
  exists later earlier,
    es = later ++ .add type l :: earlier ∧ earlier.length = time
    ∧ latest? type l earlier ≠ some true ∧ Edit.remove type l ∉ later

theorem Edit.verdict?_add (type : String) (l : L) :
    (Edit.add type l).verdict? type l = some true := if_pos rfl

theorem Edit.verdict?_remove (type : String) (l : L) :
    (Edit.remove type l).verdict? type l = some false := by
  unfold Edit.verdict?
  rw [if_neg nofun, if_pos rfl]

theorem Edit.verdict?_of_ne {e : Edit L} {type : String} {l : L}
    (h : e ≠ .remove type l) :
    e.verdict? type l = some true ∨ e.verdict? type l = none := by
  unfold Edit.verdict?
  by_cases hadd : e = .add type l
  · exact .inl (if_pos hadd)
  · rw [if_neg hadd, if_neg h]
    exact .inr rfl

theorem latest?_cons (type : String) (l : L) (e : Edit L) (es : List (Edit L)) :
    latest? type l (e :: es) = (e.verdict? type l).or (latest? type l es) := by
  unfold latest?
  rw [List.findSome?_cons]
  cases e.verdict? type l <;> rfl

/-!
# A single edit
-/

theorem Distinct.edit {r : Registry L} (h : r.Distinct) (e : Edit L) :
    (r.edit e).Distinct := by
  cases e with
  | add type l => exact h.add type l
  | remove type l => exact h.remove type l

theorem contains_edit {r : Registry L} (h : r.Distinct) (e : Edit L)
    (type : String) (l : L) :
    (r.edit e).contains type l =
      (e.verdict? type l).getD (r.contains type l) := by
  cases e with
  | add u k =>
      have hadd := r.contains_add u type k l
      by_cases hsame : Edit.add u k = .add type l
      · cases hsame
        rw [Edit.verdict?_add]
        exact hadd.mpr (.inr ⟨rfl, rfl⟩)
      · rw [Edit.verdict?, if_neg hsame, if_neg nofun, Bool.eq_iff_iff]
        refine hadd.trans (or_iff_left fun hboth => hsame ?_)
        rw [hboth.1, hboth.2]
  | remove u k =>
      have hremove := contains_remove h u type k l
      by_cases hsame : Edit.remove u k = .remove type l
      · cases hsame
        rw [Edit.verdict?_remove]
        exact Bool.eq_false_iff.mpr fun hlisted =>
          (hremove.mp hlisted).2 ⟨rfl, rfl⟩
      · rw [Edit.verdict?, if_neg nofun, if_neg hsame, Bool.eq_iff_iff]
        refine hremove.trans (and_iff_left fun hboth => hsame ?_)
        rw [hboth.1, hboth.2]

theorem listeners_add (r : Registry L) (type : String) (l : L) :
    (r.add type l).listeners type =
      if l ∈ r.listeners type then r.listeners type
        else r.listeners type ++ [l] :=
  (r.listeners_update type type _).trans (if_pos rfl)

theorem listeners_remove (r : Registry L) (type : String) (l : L) :
    (r.remove type l).listeners type = (r.listeners type).erase l :=
  (r.listeners_update type type _).trans (if_pos rfl)

theorem listeners_edit_of_ne (r : Registry L) {e : Edit L} {type : String}
    (h : e.type ≠ type) :
    (r.edit e).listeners type = r.listeners type := by
  cases e with
  | add u l => exact (r.listeners_update u type _).trans (if_neg (Ne.symm h))
  | remove u l => exact (r.listeners_update u type _).trans (if_neg (Ne.symm h))

theorem listeners_remove_of_not_mem {r : Registry L} {type : String} {l : L}
    (h : l ∉ r.listeners type) (u : String) :
    (r.remove type l).listeners u = r.listeners u := by
  by_cases htype : type = u
  · subst htype
    rw [listeners_remove, List.erase_of_not_mem h]
  · exact r.listeners_edit_of_ne (e := .remove type l) htype

/-- An edit puts a listener behind the others that was not among them, or it
leaves a part of the list. -/
theorem listeners_edit (r : Registry L) (e : Edit L) (type : String) :
    ((r.edit e).listeners type).Sublist (r.listeners type)
      ∨ exists l, e = .add type l ∧ l ∉ r.listeners type
        ∧ (r.edit e).listeners type = r.listeners type ++ [l] := by
  by_cases htype : e.type = type
  · subst htype
    cases e with
    | add u l =>
        have hlist := r.listeners_add u l
        by_cases hl : l ∈ r.listeners u
        · rw [if_pos hl] at hlist
          exact .inl (hlist ▸ .refl _)
        · rw [if_neg hl] at hlist
          exact .inr ⟨l, rfl, hl, hlist⟩
    | remove u l => exact .inl (r.listeners_remove u l ▸ List.erase_sublist)
  · exact .inl (r.listeners_edit_of_ne htype ▸ .refl _)

theorem filter_listeners_edit {r : Registry L} (h : r.Distinct) (e : Edit L)
    (type : String) :
    ((r.edit e).listeners type).filter (· ≠ e.listener) =
      (r.listeners type).filter (· ≠ e.listener) := by
  by_cases htype : e.type = type
  · subst htype
    cases e with
    | add u l =>
        show ((r.add u l).listeners u).filter (· ≠ l) =
          (r.listeners u).filter (· ≠ l)
        rw [listeners_add]
        split
        · rfl
        · rw [List.filter_append, List.filter_cons_of_neg (by simp),
            List.filter_nil, List.append_nil]
    | remove u l =>
        show ((r.remove u l).listeners u).filter (· ≠ l) =
          (r.listeners u).filter (· ≠ l)
        rw [listeners_remove, (h u).erase_eq_filter, List.filter_filter]
        apply List.filter_congr
        intro k _
        by_cases hk : k = l <;> simp [hk]
  · rw [r.listeners_edit_of_ne htype]

/-!
# All edits
-/

theorem distinct_ofEdits (es : List (Edit L)) : (ofEdits es).Distinct := by
  induction es with
  | nil => exact fun _ => List.nodup_nil
  | cons e es ih => exact ih.edit e

theorem contains_ofEdits (es : List (Edit L)) (type : String) (l : L) :
    (ofEdits es).contains type l = (latest? type l es).getD false := by
  induction es with
  | nil => rfl
  | cons e es ih =>
      rw [ofEdits, contains_edit (distinct_ofEdits es), ih, latest?_cons]
      cases e.verdict? type l <;> rfl

theorem mem_ofEdits (es : List (Edit L)) (type : String) (l : L) :
    l ∈ (ofEdits es).listeners type ↔ latest? type l es = some true := by
  have hcontains := contains_ofEdits es type l
  rw [← List.contains_iff_mem]
  show (ofEdits es).contains type l = true ↔ _
  rw [hcontains]
  cases latest? type l es with
  | none => exact ⟨nofun, nofun⟩
  | some b => exact ⟨fun h => congrArg some h, Option.some.inj⟩

/-!
# The order of the list
-/

section order

variable {es : List (Edit L)} {type : String} {l : L} {i j : Nat}

theorem Enters.lt_length (h : Enters es type l i) : i < es.length := by
  rcases h with ⟨later, earlier, rfl, rfl, _, _⟩
  rw [List.length_append, List.length_cons]
  omega

theorem Enters.next (h : Enters es type l i) {e : Edit L}
    (he : e ≠ .remove type l) :
    Enters (e :: es) type l i := by
  rcases h with ⟨later, earlier, rfl, hi, hbefore, hlater⟩
  refine ⟨e :: later, earlier, rfl, hi, hbefore, fun hmem => ?_⟩
  rcases List.mem_cons.mp hmem with heq | hmem
  · exact he heq.symm
  · exact hlater hmem

theorem ne_remove_of_mem {e : Edit L}
    (h : l ∈ (ofEdits (e :: es)).listeners type) :
    e ≠ .remove type l := by
  rintro rfl
  have hlatest := (mem_ofEdits _ type l).mp h
  rw [latest?_cons, Edit.verdict?_remove] at hlatest
  cases hlatest

theorem latest?_of_added {later earlier : List (Edit L)}
    (h : Edit.remove type l ∉ later) :
    latest? type l (later ++ .add type l :: earlier) = some true := by
  induction later with
  | nil => rw [List.nil_append, latest?_cons, Edit.verdict?_add, Option.some_or]
  | cons e later ih =>
      have hlater := ih fun hmem => h (List.mem_cons_of_mem _ hmem)
      have he : e ≠ .remove type l := fun heq => h (heq ▸ List.mem_cons_self)
      rw [List.cons_append, latest?_cons, hlater]
      rcases Edit.verdict?_of_ne he with hadd | hnone
      · rw [hadd, Option.some_or]
      · rw [hnone, Option.none_or]

theorem Enters.unique (hi : Enters es type l i) (hj : Enters es type l j) :
    i = j := by
  -- of two entries the one with the shorter past would be an addition of a
  -- listed listener
  have hle : forall {i j},
      Enters es type l i -> Enters es type l j -> j ≤ i := by
    intro i j hi hj
    apply Nat.le_of_not_lt
    intro hlt
    rcases hi with ⟨later, earlier, rfl, hlength, _, hlater⟩
    rcases hj with ⟨later', earlier', hsplit, hlength', hbefore, _⟩
    rcases List.append_eq_append_iff.mp hsplit with
      ⟨as, hlater', htail⟩ | ⟨as, hlater', htail⟩
    · have hlong := congrArg List.length htail
      rw [List.length_append, List.length_cons, List.length_cons] at hlong
      omega
    · cases as with
      | nil =>
          have hlong := congrArg List.length htail
          rw [List.nil_append, List.length_cons, List.length_cons] at hlong
          omega
      | cons a as =>
          rw [List.cons_append, List.cons.injEq] at htail
          apply hbefore
          rw [htail.2]
          apply latest?_of_added
          intro hmem
          apply hlater
          rw [hlater']
          exact List.mem_append_right _ (List.mem_cons_of_mem _ hmem)
  exact Nat.le_antisymm (hle hj hi) (hle hi hj)

theorem exists_enters (h : l ∈ (ofEdits es).listeners type) :
    exists i, Enters es type l i := by
  induction es with
  | nil => cases h
  | cons e es ih =>
      have hkept := ne_remove_of_mem h
      by_cases hlisted : l ∈ (ofEdits es).listeners type
      · rcases ih hlisted with ⟨i, hi⟩
        exact ⟨i, hi.next hkept⟩
      · rcases (ofEdits es).listeners_edit e type with
          hsub | ⟨k, rfl, _, happend⟩
        · exact absurd (hsub.mem h) hlisted
        · rw [ofEdits, happend] at h
          have hl := (List.mem_append.mp h).resolve_left hlisted
          cases List.mem_singleton.mp hl
          refine ⟨es.length, [], es, rfl, rfl, fun hadded => ?_, nofun⟩
          exact hlisted ((mem_ofEdits es type l).mpr hadded)

theorem ordered_ofEdits (es : List (Edit L)) (type : String) :
    ((ofEdits es).listeners type).Pairwise fun k l =>
      exists i j, Enters es type k i ∧ Enters es type l j ∧ i < j := by
  induction es with
  | nil => exact .nil
  | cons e es ih =>
      -- the listeners that are still listed were not removed by the edit
      have hkept : forall {ls : List L},
          ls.Sublist ((ofEdits es).listeners type) ->
          (forall l, l ∈ ls -> l ∈ (ofEdits (e :: es)).listeners type) ->
          ls.Pairwise fun k l => exists i j,
            Enters (e :: es) type k i ∧ Enters (e :: es) type l j ∧ i < j := by
        intro ls hsub hlisted
        apply (ih.sublist hsub).imp_of_mem
        intro k l hk hl hbefore
        rcases hbefore with ⟨i, j, hi, hj, hlt⟩
        exact ⟨i, j, hi.next (ne_remove_of_mem (hlisted k hk)),
          hj.next (ne_remove_of_mem (hlisted l hl)), hlt⟩
      rcases (ofEdits es).listeners_edit e type with
        hsub | ⟨k, rfl, hfresh, happend⟩
      · exact hkept hsub fun _ h => h
      · rw [ofEdits, happend, List.pairwise_append]
        refine ⟨hkept (List.Sublist.refl _) ?_, List.pairwise_singleton _ _, ?_⟩
        · intro l hl
          rw [ofEdits, happend]
          exact List.mem_append_left _ hl
        · intro l hl k' hk'
          cases List.mem_singleton.mp hk'
          rcases exists_enters hl with ⟨i, hi⟩
          refine ⟨i, es.length, hi.next nofun, ?_, hi.lt_length⟩
          exact ⟨[], es, rfl, rfl,
            fun h => hfresh ((mem_ofEdits es type k).mpr h), nofun⟩

end order
end Registry

namespace Signals

open Reentrant
open Reentrant.Machine
open Registry (Edit ofEdits latest? Enters)

variable {K P : Type}

/-- The edit of a target's registry that a moment makes.  Subscriptions edit it
as well. -/
def edit? (u : Nat) (t : SignalMoment K P) : Option (Edit K) :=
  match t.move with
  | .issue (.add tgt type k) => if tgt = u then some (.add type k) else none
  | .issue (.remove tgt type k) =>
      if tgt = u then some (.remove type k) else none
  | .issue (.subscribe tgt type k) =>
      if tgt = u then some (.add type k) else none
  | .issue (.dispose s) =>
      match t.machine.world.subscriptions[s]? with
      | some v =>
          if v.isActive ∧ v.target = u then
            some (.remove v.type v.listener)
          else
            none
      | none => none
  | _ => none

def edits (u : Nat) (past : List (SignalMoment K P)) : List (Edit K) :=
  past.filterMap (edit? u)

variable [DecidableEq K]
variable {m n : SignalMachine K P} {move : Move (Op K P)} {u : Nat}

theorem registry_onTarget_edit {w : World K} (h : u < w.targets.size)
    (tgt : Nat) (e : Edit K) :
    (w.onTarget tgt fun r => r.edit e).registry u =
      ((if tgt = u then some e else none).map (w.registry u).edit).getD
        (w.registry u) := by
  rw [registry_onTarget_of_lt h]
  by_cases htgt : tgt = u
  · rw [if_pos htgt, if_pos htgt.symm]
    rfl
  · rw [if_neg htgt, if_neg (Ne.symm htgt)]
    rfl

theorem registry_perform (op : Op K P) (h : u < m.world.targets.size) :
    (perform op m.world).1.registry u =
      ((edit? u ⟨m, .issue op⟩).map (m.world.registry u).edit).getD
        (m.world.registry u) := by
  cases op with
  | add tgt type k => exact registry_onTarget_edit h tgt (.add type k)
  | remove tgt type k => exact registry_onTarget_edit h tgt (.remove type k)
  | count tgt type => rfl
  | dispatch tgt type payload => rfl
  | subscribe tgt type k => exact registry_onTarget_edit h tgt (.add type k)
  | dispose s =>
      show (m.world.dispose s).registry u = _
      unfold World.dispose
      simp only [edit?]
      cases m.world.subscriptions[s]? with
      | none => rfl
      | some v =>
          cases hactive : v.isActive with
          | false => simp [hactive]
          | true =>
              simp only [hactive, if_true, true_and]
              exact registry_onTarget_edit (w := { m.world with
                subscriptions := m.world.subscriptions.modify s fun v =>
                  { v with isActive := false } })
                h v.target (.remove v.type v.listener)
  | isActive s => rfl

theorem registry_edit_of_move (hmove : m.move? (component K P) move = some n)
    (h : u < m.world.targets.size) :
    n.world.registry u =
      ((edit? u ⟨m, move⟩).map (m.world.registry u).edit).getD
        (m.world.registry u) := by
  cases move with
  | work =>
      rcases move?_work hmove with ⟨t, rest, _, rfl⟩
      rw [proceed_world]
      exact congrArg (World.registry · u) (resume_world t m.world)
  | issue op =>
      rcases move?_issue hmove with ⟨_, rfl⟩
      unfold Machine.issue
      rw [proceed_world]
      exact registry_perform op h
  | giveBack =>
      rcases move?_giveBack hmove with ⟨c, rest, _, rfl⟩
      rfl
  | throw e =>
      rcases move?_throw hmove with ⟨c, rest, _, rfl⟩
      rfl

/-!
# Runs
-/

variable {past : List (SignalMoment K P)} {size : Nat}
  {r : Except Failure Value}
variable {rule : SignalMachine K P -> Move (Op K P) -> Prop}

theorem registry_of_history
    (run : History (component K P) rule ⟨World.ofSize size, [], r⟩ past n)
    (target : u < size) : n.world.registry u = ofEdits (edits u past) := by
  induction run with
  | start => exact registry_ofSize size u
  | step hrun hrule hmove ih =>
      rename_i past m n move
      have hsize : m.world.targets.size = size := targets_of_fresh hrun.reaches
      rw [registry_edit_of_move hmove (hsize.symm ▸ target), ih]
      unfold edits
      rw [List.filterMap_cons]
      cases edit? u ⟨m, move⟩ <;> rfl

/-- In a run from fresh targets, the listeners of a type are those whose latest
edit was their addition, each listed once and in the order in which they entered
the list; they are counted as such.  A move leaves the list alone unless it
edits the type, and an edit leaves all listeners but its own in place, and these
too if it removes one that is not listed. -/
theorem listeners_in_order_of_entry
    (run : History (component K P) anyMove ⟨World.ofSize size, [], r⟩ past n)
    (target : u < size) (type : String) :
    (forall l,
      l ∈ (n.world.registry u).listeners type ↔
        latest? type l (edits u past) = some true)
      ∧ ((n.world.registry u).listeners type).Nodup
      ∧ (forall l, l ∈ (n.world.registry u).listeners type ->
          exists i, Enters (edits u past) type l i ∧ forall j,
            Enters (edits u past) type l j -> j = i)
      ∧ ((n.world.registry u).listeners type).Pairwise (fun k l => exists i j,
          Enters (edits u past) type k i ∧ Enters (edits u past) type l j
            ∧ i < j)
      ∧ (n.issue (component K P) (.count u type)).result =
          .ok (.count ((n.world.registry u).listeners type).length)
      ∧ forall move n', n.move? (component K P) move = some n' ->
          ((forall e, edit? u ⟨n, move⟩ = some e -> e.type ≠ type) ->
            (n'.world.registry u).listeners type =
              (n.world.registry u).listeners type)
          ∧ forall e, edit? u ⟨n, move⟩ = some e ->
              ((n'.world.registry u).listeners type).filter (· ≠ e.listener) =
                  ((n.world.registry u).listeners type).filter (· ≠ e.listener)
                ∧ forall u' k,
                    e = .remove u' k -> k ∉ (n.world.registry u).listeners u' ->
                    (n'.world.registry u).listeners type =
                      (n.world.registry u).listeners type := by
  have hregistry := registry_of_history run target
  refine ⟨?_, ?_, ?_, ?_, rfl, ?_⟩
  · rw [hregistry]
    exact Registry.mem_ofEdits _ type
  · rw [hregistry]
    exact Registry.distinct_ofEdits _ type
  · rw [hregistry]
    intro l hl
    rcases Registry.exists_enters hl with ⟨i, hi⟩
    exact ⟨i, hi, fun j hj => hj.unique hi⟩
  · rw [hregistry]
    exact Registry.ordered_ofEdits _ type
  · intro move n' hmove
    have hdistinct : (n.world.registry u).Distinct := by
      rw [hregistry]
      exact Registry.distinct_ofEdits _
    have hsize : n.world.targets.size = size := targets_of_fresh run.reaches
    have hnext := registry_edit_of_move hmove (hsize.symm ▸ target)
    rw [hnext]
    constructor
    · intro hother
      cases hedit : edit? u ⟨n, move⟩ with
      | none => rfl
      | some e => exact Registry.listeners_edit_of_ne _ (hother e hedit)
    · intro e hedit
      rw [hedit]
      constructor
      · exact Registry.filter_listeners_edit hdistinct e type
      · rintro u' k rfl hk
        exact Registry.listeners_remove_of_not_mem hk type

/-- Two listeners are added, and the first of them once more; called by a
dispatch, it removes the second, adds a third and then the second again, which
has lost its place. -/
theorem readded_listener_enters_last :
    exists past n,
      History (component Nat Unit) anyMove ⟨World.ofSize 1, [], .ok .nothing⟩
        past n
      ∧ edits 0 past =
        [.add "T" 2, .add "T" 3, .remove "T" 2, .add "T" 1, .add "T" 2,
         .add "T" 1]
      ∧ (n.world.registry 0).listeners "T" = [1, 3, 2]
      ∧ [1, 3, 2].Pairwise fun k l => exists i j,
          Enters (edits 0 past) "T" k i ∧ Enters (edits 0 past) "T" l j
            ∧ i < j := by
  have begun :
      History (component Nat Unit) anyMove ⟨World.ofSize 1, [], .ok .nothing⟩ []
        _ := .start
  have added := ((begun.next (.issue (.add 0 "T" 1)) trivial rfl).next
    (.issue (.add 0 "T" 2)) trivial rfl).next (.issue (.add 0 "T" 1)) trivial
      rfl
  have called :=
    (added.next (.issue (.dispatch 0 "T" none)) trivial rfl).next .work trivial
      rfl
  have run := ((called.next (.issue (.remove 0 "T" 2)) trivial rfl).next
    (.issue (.add 0 "T" 3)) trivial rfl).next (.issue (.add 0 "T" 2)) trivial
      rfl
  have listed := listeners_in_order_of_entry run Nat.zero_lt_one "T"
  exact ⟨_, _, run, rfl, rfl, listed.2.2.2.1⟩

end Signals
end WireView
