import Mathlib.Data.List.Basic

/-!
# First match in a list

`modifyFirst f` replaces the first element on which the partial function `f` is defined; nested
lists are handled by using it as its own argument. `splitFirst p` returns the first element
that satisfies `p` with what follows it. Both come with their inversion lemmas (what lies before
the match does not match) and with transport along a representation map.
-/

namespace FirstMatch

variable {α β : Type}

/-- Replace the first element `a` with `f a = some b` by `b`. -/
def modifyFirst (f : α → Option α) : List α → Option (List α)
  | [] => none
  | a :: rest =>
    match f a with
    | some b => some (b :: rest)
    | none => (modifyFirst f rest).map (a :: ·)

/-- The first element that satisfies `p`, and what follows it. -/
def splitFirst (p : α → Bool) : List α → Option (α × List α)
  | [] => none
  | a :: rest => if p a then some (a, rest) else splitFirst p rest

theorem modifyFirst_none {f : α → Option α} {l : List α} :
    modifyFirst f l = none ↔ ∀ a ∈ l, f a = none := by
  induction l with
  | nil => simp [modifyFirst]
  | cons a rest ih =>
    rw [modifyFirst]
    cases hit : f a with
    | some b => simp [hit]
    | none => simp [hit, ih]

/-- Everything before the match is passed over. -/
theorem modifyFirst_append {f : α → Option α} {before : List α} (passed : ∀ a ∈ before, f a = none)
    (rest : List α) :
    modifyFirst f (before ++ rest) = (modifyFirst f rest).map (before ++ ·) := by
  induction before with
  | nil => simp
  | cons a before ih =>
    rw [List.cons_append, modifyFirst, passed a List.mem_cons_self,
      ih fun b mem => passed b (List.mem_cons_of_mem _ mem)]
    cases modifyFirst f rest <;> rfl

theorem modifyFirst_hit {f : α → Option α} {before : List α} {a b : α}
    (passed : ∀ a ∈ before, f a = none) (hit : f a = some b) (rest : List α) :
    modifyFirst f (before ++ a :: rest) = some (before ++ b :: rest) := by
  rw [modifyFirst_append passed, modifyFirst, hit]
  rfl

/-- Inversion: a replacement happened at the first match. -/
theorem modifyFirst_some {f : α → Option α} {l l' : List α} (done : modifyFirst f l = some l') :
    ∃ before a b rest, l = before ++ a :: rest ∧ l' = before ++ b :: rest ∧ f a = some b ∧
      ∀ x ∈ before, f x = none := by
  induction l generalizing l' with
  | nil => cases done
  | cons a rest ih =>
    rw [modifyFirst] at done
    cases hit : f a with
    | some b =>
      rw [hit] at done
      cases done
      exact ⟨[], a, b, rest, rfl, rfl, hit, by simp⟩
    | none =>
      rw [hit] at done
      obtain ⟨tail, found, rfl⟩ := Option.map_eq_some_iff.1 done
      obtain ⟨before, x, y, after, rfl, rfl, hxy, passed⟩ := ih found
      refine ⟨a :: before, x, y, after, rfl, rfl, hxy, ?_⟩
      intro z mem
      rcases List.mem_cons.1 mem with rfl | mem
      · exact hit
      · exact passed z mem

/-- Transport along a representation: `f` on represented elements is `g` below. -/
theorem modifyFirst_map {f : β → Option β} {g : α → Option α} (rep : α → β)
    (agree : ∀ a, f (rep a) = (g a).map rep) (l : List α) :
    modifyFirst f (l.map rep) = (modifyFirst g l).map (List.map rep) := by
  induction l with
  | nil => rfl
  | cons a rest ih =>
    rw [List.map_cons, modifyFirst, modifyFirst, agree a, ih]
    cases g a with
    | some b => rfl
    | none => cases modifyFirst g rest <;> rfl

theorem splitFirst_none {p : α → Bool} {l : List α} :
    splitFirst p l = none ↔ ∀ a ∈ l, p a = false := by
  induction l with
  | nil => simp [splitFirst]
  | cons a rest ih =>
    rw [splitFirst]
    cases hit : p a <;> simp [hit, ih]

theorem splitFirst_hit {p : α → Bool} {before : List α} {a : α}
    (passed : ∀ x ∈ before, p x = false) (hit : p a = true) (rest : List α) :
    splitFirst p (before ++ a :: rest) = some (a, rest) := by
  induction before with
  | nil => simp [splitFirst, hit]
  | cons x before ih =>
    rw [List.cons_append, splitFirst, passed x List.mem_cons_self,
      ih fun b mem => passed b (List.mem_cons_of_mem _ mem)]
    rfl

/-- The index of a match is the number of elements before it. -/
theorem findIdx_hit {p : α → Bool} {before : List α} {a : α} (passed : ∀ x ∈ before, p x = false)
    (hit : p a = true) (rest : List α) : (before ++ a :: rest).findIdx p = before.length := by
  induction before with
  | nil => simp [List.findIdx_cons, hit]
  | cons x before ih =>
    rw [List.cons_append, List.findIdx_cons, passed x List.mem_cons_self,
      ih fun b mem => passed b (List.mem_cons_of_mem _ mem)]
    rfl

theorem findIdx?_hit {p : α → Bool} {before : List α} {a : α} (passed : ∀ x ∈ before, p x = false)
    (hit : p a = true) (rest : List α) : (before ++ a :: rest).findIdx? p = some before.length := by
  rw [List.findIdx?_eq_some_of_exists ⟨a, by simp, hit⟩, findIdx_hit passed hit]

end FirstMatch
