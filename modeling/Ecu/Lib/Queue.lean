import Mathlib

/-!
# First come, first served

A queue is joined at its end, served at its head, and left from anywhere by those who give up. Whoever stays in it sees
those in front get fewer, and only they are served.
-/

namespace Queue

variable {α : Type} [DecidableEq α]

/-- Those in front of `x`. -/
def front (l : List α) (x : α) : List α :=
  l.takeWhile (· ≠ x)

/-- What may happen to the queue, with the one who is served. -/
inductive Move : List α → List α → Option α → Prop where
  | stays (l : List α) : Move l l none
  | joins (l : List α) (y : α) : Move l (l ++ [y]) none
  | leaves (l : List α) (y : α) : Move l (l.filter (· ≠ y)) none
  | serves (y : α) (l : List α) : Move (y :: l) l (some y)

theorem front_cons_self (x : α) (l : List α) : front (x :: l) x = [] := by
  rw [front, List.takeWhile_cons_of_neg (by simp)]

theorem front_cons_of_ne {x y : α} (ne : y ≠ x) (l : List α) : front (y :: l) x = y :: front l x := by
  rw [front, List.takeWhile_cons_of_pos (by simpa using ne)]
  rfl

theorem front_append {l : List α} {x : α} (mem : x ∈ l) (later : List α) : front (l ++ later) x = front l x := by
  induction l with
  | nil => exact absurd mem List.not_mem_nil
  | cons y l ih =>
    by_cases same : y = x
    · rw [same, List.cons_append, front_cons_self, front_cons_self]
    · have mem := (List.mem_cons.1 mem).resolve_left (Ne.symm same)
      rw [List.cons_append, front_cons_of_ne same, front_cons_of_ne same, ih mem]

theorem front_filter {x y : α} (ne : x ≠ y) (l : List α) : front (l.filter (· ≠ y)) x = (front l x).filter (· ≠ y) := by
  induction l with
  | nil => rfl
  | cons z l ih =>
    by_cases gone : z = y
    · have other : z ≠ x := fun same => ne (same.symm.trans gone)
      rw [front_cons_of_ne other, List.filter_cons_of_neg (by simp [gone]), List.filter_cons_of_neg (by simp [gone]), ih]
    · rw [List.filter_cons_of_pos (by simpa using gone)]
      by_cases same : z = x
      · rw [same, front_cons_self, front_cons_self]
        rfl
      · rw [front_cons_of_ne same, front_cons_of_ne same, List.filter_cons_of_pos (by simpa using gone), ih]

theorem front_subset (l : List α) (x : α) : front l x ⊆ l :=
  (List.takeWhile_prefix _).subset

/-- Nobody comes in front of one who stays, and who is served was in front. -/
theorem Move.front {l l' : List α} {served : Option α} (move : Move l l' served) (nodup : l.Nodup) {x : α} (mem : x ∈ l)
    (stays : x ∈ l') :
    (Queue.front l' x).Sublist (Queue.front l x) ∧
      ∀ y, served = some y → y ∈ Queue.front l x ∧ y ∉ Queue.front l' x := by
  cases move with
  | stays => exact ⟨List.Sublist.refl _, fun y eq => by cases eq⟩
  | joins l y =>
    rw [front_append mem]
    exact ⟨List.Sublist.refl _, fun y eq => by cases eq⟩
  | leaves l y =>
    have ne : x ≠ y := by simpa using (List.mem_filter.1 stays).2
    rw [front_filter ne]
    exact ⟨List.filter_sublist, fun y eq => by cases eq⟩
  | serves y l =>
    have first := (List.nodup_cons.1 nodup).1
    have ne : y ≠ x := fun same => first (same ▸ stays)
    rw [front_cons_of_ne ne]
    refine ⟨List.sublist_cons_self _ _, fun z eq => ?_⟩
    cases eq
    exact ⟨List.mem_cons_self, fun again => first (front_subset _ _ again)⟩

/-- What is known of two stretches of time one after the other: who is in front at the end was there all the time, and
whoever has been served last was in front. -/
structure Orderly (l l' : List α) (x : α) (owner owner' : Option α) : Prop where
  sublist : (front l' x).Sublist (front l x)
  served : owner' = owner ∨ ∃ y ∈ front l x, y ∉ front l' x ∧ owner' = some y

theorem Orderly.refl (l : List α) (x : α) (owner : Option α) : Orderly l l x owner owner :=
  ⟨List.Sublist.refl _, .inl rfl⟩

theorem Orderly.trans {l₁ l₂ l₃ : List α} {x : α} {o₁ o₂ o₃ : Option α} (first : Orderly l₁ l₂ x o₁ o₂)
    (second : Orderly l₂ l₃ x o₂ o₃) : Orderly l₁ l₃ x o₁ o₃ := by
  refine ⟨second.sublist.trans first.sublist, ?_⟩
  obtain same | ⟨y, mem, gone, eq⟩ := second.served
  · obtain before | ⟨y, mem, gone, eq⟩ := first.served
    · exact .inl (same.trans before)
    · exact .inr ⟨y, mem, fun again => gone (second.sublist.subset again), same.trans eq⟩
  · exact .inr ⟨y, first.sublist.subset mem, gone, eq⟩

end Queue
