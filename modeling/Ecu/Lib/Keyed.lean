import Mathlib.Data.List.Dedup
import Mathlib.Data.List.Nodup

/-!
# Lists in which an entry takes the place of those of its key

`put` takes out the entries that have the key of a new one and puts the new one at the end. Afterwards this is the entry
of its key, those of the other keys are what they were, and if each key had one entry at most, it still has.
-/

namespace Keyed

variable {α κ : Type} [DecidableEq κ] (key : α → κ)

def put (x : α) (xs : List α) : List α :=
  xs.filter (key · ≠ key x) ++ [x]

variable {key} {x : α} {xs : List α}

theorem find?_put_self : (put key x xs).find? (key · = key x) = some x := by
  have none : (xs.filter (key · ≠ key x)).find? (key · = key x) = none := by
    rw [List.find?_eq_none]
    intro y mem
    simpa using (List.mem_filter.1 mem).2
  rw [put, List.find?_append, none, Option.none_or]
  simp

theorem filter_put_of_ne {k : κ} (other : k ≠ key x) : (put key x xs).filter (key · = k) = xs.filter (key · = k) := by
  rw [put, List.filter_append, List.filter_filter, List.filter_cons_of_neg (by simpa using Ne.symm other),
    List.filter_nil,
    List.append_nil]
  apply List.filter_congr
  intro y _
  by_cases own : key y = k
  · simp [own, other]
  · simp [own]

theorem mem_put {y : α} : y ∈ put key x xs ↔ (y ∈ xs ∧ key y ≠ key x) ∨ y = x := by
  simp [put]

theorem mem_keys_put {k : κ} : k ∈ (put key x xs).map key ↔ k ∈ xs.map key ∨ k = key x := by
  constructor
  · intro mem
    obtain ⟨y, there, rfl⟩ := List.mem_map.1 mem
    rcases mem_put.1 there with ⟨old, -⟩ | rfl
    · exact .inl (List.mem_map_of_mem old)
    · exact .inr rfl
  · rintro (mem | rfl)
    · obtain ⟨y, old, rfl⟩ := List.mem_map.1 mem
      by_cases own : key y = key x
      · exact List.mem_map.2 ⟨x, mem_put.2 (.inr rfl), own.symm⟩
      · exact List.mem_map_of_mem (mem_put.2 (.inl ⟨old, own⟩))
    · exact List.mem_map_of_mem (mem_put.2 (.inr rfl))

theorem nodup_put (nodup : (xs.map key).Nodup) : ((put key x xs).map key).Nodup := by
  rw [put, List.map_append, List.map_singleton]
  apply List.Nodup.append
  · exact nodup.sublist (List.filter_sublist.map key)
  · exact List.nodup_singleton _
  · intro k mem last
    obtain ⟨y, inside, rfl⟩ := List.mem_map.1 mem
    have apart := (List.mem_filter.1 inside).2
    rw [List.mem_singleton] at last
    simp [last] at apart

/-- Each key has one entry at most. -/
theorem length_filter_le_one (nodup : (xs.map key).Nodup) (k : κ) : (xs.filter (key · = k)).length ≤ 1 := by
  have only : ((xs.filter (key · = k)).map key).Nodup := nodup.sublist (List.filter_sublist.map key)
  have same : (xs.filter (key · = k)).map key = List.replicate (xs.filter (key · = k)).length k := by
    rw [List.eq_replicate_iff]
    refine ⟨List.length_map _, fun l mem => ?_⟩
    obtain ⟨y, inside, rfl⟩ := List.mem_map.1 mem
    simpa using (List.mem_filter.1 inside).2
  rw [same] at only
  exact List.nodup_replicate.1 only

/-- The entries are counted by their keys. -/
theorem length_filter_key (nodup : (xs.map key).Nodup) {keys : List κ} (same : ∀ k, k ∈ xs.map key ↔ k ∈ keys)
    (P : κ → Prop) [DecidablePred P] : (xs.filter (P <| key ·)).length = (keys.dedup.filter P).length := by
  have perm : (xs.map key).Perm keys.dedup := by
    rw [List.perm_ext_iff_of_nodup nodup keys.nodup_dedup]
    intro k
    rw [List.mem_dedup, same k]
  have filtered := (perm.filter P).length_eq
  rwa [List.filter_map, List.length_map] at filtered

end Keyed
