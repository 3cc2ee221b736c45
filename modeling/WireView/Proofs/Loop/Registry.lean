import WireView.Loop.Registry

/-!
# How often a listener is registered

Adding a listener brings its count in one list up to one, removing it takes one
occurrence away, and neither touches other listeners or other lists.  So no list
comes to hold a listener twice.
-/

namespace WireView
namespace Registry

variable {L : Type} [DecidableEq L]

theorem count_add (r : Registry L) (type u : String) (l k : L) :
    ((r.add type l).listeners u).count k =
      if u = type ∧ k = l then max 1 ((r.listeners u).count k)
      else (r.listeners u).count k := by
  unfold add
  rw [listeners_update]
  by_cases hu : u = type
  · subst hu
    rw [if_pos rfl]
    by_cases hl : l ∈ r.listeners u
    · rw [if_pos hl]
      split
      · rename_i hk
        rw [hk.2]
        exact (Nat.max_eq_right (List.count_pos_iff.mpr hl)).symm
      · rfl
    · rw [if_neg hl, List.count_append]
      by_cases hk : k = l
      · subst hk
        rw [if_pos ⟨rfl, rfl⟩, List.count_eq_zero.mpr hl,
          List.count_singleton_self]
        rfl
      · rw [if_neg (fun h => hk h.2),
          List.count_eq_zero.mpr (fun h => hk (List.mem_singleton.mp h))]
        rfl
  · rw [if_neg hu, if_neg (fun h => hu h.1)]

theorem count_remove (r : Registry L) (type u : String) (l k : L) :
    ((r.remove type l).listeners u).count k =
      if u = type ∧ k = l then (r.listeners u).count k - 1
      else (r.listeners u).count k := by
  unfold remove
  rw [listeners_update]
  by_cases hu : u = type
  · subst hu
    rw [if_pos rfl]
    by_cases hk : k = l
    · subst hk
      rw [if_pos ⟨rfl, rfl⟩, List.count_erase_self]
    · rw [if_neg (fun h => hk h.2), List.count_erase_of_ne hk]
  · rw [if_neg hu, if_neg (fun h => hu h.1)]

def Distinct (r : Registry L) : Prop :=
  forall type, (r.listeners type).Nodup

theorem Distinct.add {r : Registry L} (h : r.Distinct) (type : String) (l : L) :
    (r.add type l).Distinct := by
  intro u
  rw [List.nodup_iff_count]
  intro k
  have hk := List.nodup_iff_count.mp (h u) k
  rw [count_add]
  split
  · exact Nat.max_le.mpr ⟨Nat.le_refl 1, hk⟩
  · exact hk

theorem Distinct.remove {r : Registry L} (h : r.Distinct) (type : String)
    (l : L) :
    (r.remove type l).Distinct := by
  intro u
  rw [List.nodup_iff_count]
  intro k
  have hk := List.nodup_iff_count.mp (h u) k
  rw [count_remove]
  split
  · exact Nat.le_trans (Nat.sub_le _ 1) hk
  · exact hk

theorem contains_iff_mem {r : Registry L} {type : String} {l : L} :
    r.contains type l = true ↔ l ∈ r.listeners type :=
  List.contains_iff_mem

theorem contains_eq_false {r : Registry L} {type : String} {l : L} :
    r.contains type l = false ↔ l ∉ r.listeners type := by
  rw [← contains_iff_mem, Bool.not_eq_true]

theorem contains_iff_count (r : Registry L) (type : String) (l : L) :
    r.contains type l = true ↔ 0 < (r.listeners type).count l := by
  rw [contains_iff_mem, List.count_pos_iff]

theorem contains_add (r : Registry L) (type u : String) (l k : L) :
    (r.add type l).contains u k = true ↔
      r.contains u k = true ∨ u = type ∧ k = l := by
  rw [contains_iff_count, contains_iff_count, count_add]
  split
  · rename_i heq
    exact iff_of_true (Nat.lt_of_lt_of_le Nat.zero_lt_one (Nat.le_max_left 1 _))
      (.inr heq)
  · rename_i hne
    exact ⟨.inl, fun h => h.resolve_right hne⟩

theorem contains_remove {r : Registry L} (h : r.Distinct) (type u : String)
    (l k : L) :
    (r.remove type l).contains u k = true ↔
      r.contains u k = true ∧ ¬ (u = type ∧ k = l) := by
  rw [contains_iff_count, contains_iff_count, count_remove]
  split
  · rename_i heq
    have hle := List.nodup_iff_count.mp (h u) k
    constructor
    · intro hlt
      exact absurd (Nat.sub_le_of_le_add hle) (Nat.not_le_of_lt hlt)
    · intro hboth
      exact absurd heq hboth.2
  · rename_i hne
    exact ⟨fun hlt => ⟨hlt, hne⟩, fun hboth => hboth.1⟩

theorem contains_of_remove (r : Registry L) {type u : String} {l k : L}
    (h : (r.remove type l).contains u k = true) : r.contains u k = true := by
  rw [contains_iff_count] at h ⊢
  rw [count_remove] at h
  split at h
  · exact Nat.lt_of_lt_of_le h (Nat.sub_le _ 1)
  · exact h

end Registry
end WireView
