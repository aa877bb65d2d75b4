import Mathlib.Data.List.Nodup
import Mathlib.Data.List.Induction

/-!
# What is seen first

A reader that keeps each item it has not met before ends with `List.eraseDups` of what it reads; one that has room for
so many items only ends with the first ones of these. A list without repetitions is kept as it is.
-/

namespace FirstSeen

variable {α : Type} [BEq α] [LawfulBEq α]

theorem eraseDups_concat (xs : List α) (x : α) :
    (xs ++ [x]).eraseDups = if xs.elem x then xs.eraseDups else xs.eraseDups ++ [x] := by
  rw [List.eraseDups_append, List.removeAll]
  by_cases seen : xs.elem x = true
  · rw [if_pos seen, List.filter_cons_of_neg (by simpa using seen), List.filter_nil, List.eraseDups_nil,
      List.append_nil]
  · rw [if_neg seen, List.filter_cons_of_pos (by simpa using seen), List.filter_nil, List.eraseDups_cons,
      List.filter_nil, List.eraseDups_nil]

theorem eraseDups_of_nodup {xs : List α} (distinct : xs.Nodup) : xs.eraseDups = xs := by
  induction xs using List.reverseRecOn with
  | nil => rfl
  | append_singleton xs x ih =>
    rw [List.nodup_append] at distinct
    rw [eraseDups_concat, if_neg, ih distinct.1]
    intro seen
    exact distinct.2.2 x (List.mem_of_elem_eq_true seen) x (List.mem_singleton_self x) rfl

/-- The reader keeps what it has not met. -/
theorem foldl_new (xs : List α) :
    xs.foldl (fun seen x => if x ∈ seen then seen else seen ++ [x]) [] = xs.eraseDups := by
  induction xs using List.reverseRecOn with
  | nil => rfl
  | append_singleton xs x ih =>
    rw [List.foldl_append, ih, List.foldl_cons, List.foldl_nil, eraseDups_concat]
    by_cases seen : x ∈ xs
    · rw [if_pos (List.mem_eraseDups.2 seen), if_pos (List.elem_eq_true_of_mem seen)]
    · rw [if_neg (mt List.mem_eraseDups.1 seen), if_neg (mt List.mem_of_elem_eq_true seen)]

/-- The reader with room for so many items. -/
theorem foldl_room (room : Nat) (xs : List α) :
    xs.foldl (fun seen x => if x ∈ seen ∨ room ≤ seen.length then seen else seen ++ [x]) [] =
      xs.eraseDups.take room := by
  induction xs using List.reverseRecOn with
  | nil => exact List.take_nil.symm
  | append_singleton xs x ih =>
    rw [List.foldl_append, ih, List.foldl_cons, List.foldl_nil, eraseDups_concat, List.length_take]
    by_cases full : room ≤ xs.eraseDups.length
    · rw [if_pos (.inr (Nat.le_min.2 ⟨Nat.le_refl room, full⟩))]
      split_ifs
      · rfl
      · rw [List.take_append_of_le_length full]
    · have whole : xs.eraseDups.take room = xs.eraseDups := List.take_of_length_le (Nat.le_of_not_le full)
      rw [whole]
      by_cases seen : x ∈ xs
      · rw [if_pos (.inl (List.mem_eraseDups.2 seen)), if_pos (List.elem_eq_true_of_mem seen), whole]
      · rw [if_neg (mt List.mem_of_elem_eq_true seen), if_neg, List.take_of_length_le]
        · rw [List.length_append, List.length_singleton]
          omega
        · rw [List.mem_eraseDups]
          rintro (inside | less)
          · exact seen inside
          · exact full (Nat.le_trans less (Nat.min_le_right _ _))

end FirstSeen
