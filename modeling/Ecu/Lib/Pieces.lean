import Mathlib.Data.List.Forall2

/-!
# A text of one piece for each item

A loop that puts out a piece for the items it selects makes a text of this kind (`Made.foldl`). Its length follows from
the number of the items where all pieces have one width (`Made.length_eq`).
-/

namespace Pieces

variable {α β σ : Type}

/-- The text consists of one piece for each item, in their order; `R` says which pieces an item can have. -/
def Made (R : α → List β → Prop) (items : List α) (text : List β) : Prop :=
  ∃ pieces, List.Forall₂ R items pieces ∧ text = pieces.flatten

variable {R : α → List β → Prop} {items : List α}

theorem Made.nil : Made R [] [] :=
  ⟨[], .nil, rfl⟩

theorem Made.single {a : α} {piece : List β} (own : R a piece) : Made R [a] piece :=
  ⟨[piece], .cons own .nil, List.flatten_singleton.symm⟩

theorem Made.append {others : List α} {first second : List β} (left : Made R items first)
    (right : Made R others second) : Made R (items ++ others) (first ++ second) := by
  obtain ⟨before, inFirst, rfl⟩ := left
  obtain ⟨after, inSecond, rfl⟩ := right
  exact ⟨before ++ after, List.rel_append inFirst inSecond, List.flatten_append.symm⟩

theorem Made.length_eq {width : Nat} (wide : ∀ a piece, R a piece → piece.length = width) {text : List β}
    (made : Made R items text) : text.length = width * items.length := by
  obtain ⟨pieces, each, rfl⟩ := made
  induction each with
  | nil => rfl
  | cons own _ ih => rw [List.flatten_cons, List.length_append, wide _ _ own, ih, List.length_cons, Nat.mul_succ,
      Nat.add_comm]

/-- The loop adds a piece for each item with the property, and nothing for the others. -/
theorem Made.foldl (out : σ → List β) {step : σ → α → σ} {P : α → Prop} [DecidablePred P]
    (taken : ∀ a ∈ items, P a → ∀ s, ∃ piece, R a piece ∧ out (step s a) = out s ++ piece)
    (left : ∀ a ∈ items, ¬ P a → ∀ s, out (step s a) = out s) (s : σ) :
    ∃ text, Made R (items.filter P) text ∧ out (items.foldl step s) = out s ++ text := by
  induction items generalizing s with
  | nil => exact ⟨[], .nil, (List.append_nil _).symm⟩
  | cons a items ih =>
    obtain ⟨text, made, rest⟩ := ih (fun b mem => taken b (List.mem_cons_of_mem a mem))
      (fun b mem => left b (List.mem_cons_of_mem a mem)) (step s a)
    rw [List.foldl_cons, rest]
    by_cases here : P a
    · obtain ⟨piece, own, added⟩ := taken a List.mem_cons_self here s
      rw [List.filter_cons_of_pos (by simpa using here), added, List.append_assoc]
      exact ⟨piece ++ text, (Made.single own).append made, rfl⟩
    · rw [List.filter_cons_of_neg (by simpa using here), left a List.mem_cons_self here s]
      exact ⟨text, made, rfl⟩

end Pieces
