import Mathlib.Data.List.Basic

/-!
# Reading layouts

A reader takes a value from the front of a text and leaves the rest. `cut` splits off parts of
given widths, `many` reads one value after the other; what was printed is read back
(`cut_flatten`, `many_flatMap`).
-/

namespace Layout

variable {α β γ : Type}

abbrev Reader (α β : Type) := List α → Option (β × List α)

/-- The parts of the given widths. -/
def cut : List Nat → Reader α (List (List α))
  | [], text => some ([], text)
  | w :: ws, text =>
    if text.length < w then none
    else (cut ws (text.drop w)).map fun (parts, rest) => (text.take w :: parts, rest)

/-- `n` values. -/
def many (read : Reader α β) : Nat → Reader α (List β)
  | 0, text => some ([], text)
  | n + 1, text =>
    (read text).bind fun (value, rest) => (many read n rest).map fun (values, rest) => (value :: values, rest)

theorem cut_cons {part : List α} {w : Nat} (width : part.length = w) (ws : List Nat) (text : List α) :
    cut (w :: ws) (part ++ text) = (cut ws text).map fun (parts, rest) => (part :: parts, rest) := by
  rw [cut, if_neg (by rw [List.length_append]; omega), List.drop_left' width, List.take_left' width]

/-- The parts of a text are cut out again by their widths. -/
theorem cut_flatten (parts : List (List α)) (rest : List α) :
    cut (parts.map List.length) (parts.flatten ++ rest) = some (parts, rest) := by
  induction parts with
  | nil => rfl
  | cons part parts ih =>
    rw [List.map_cons, List.flatten_cons, List.append_assoc, cut_cons rfl, ih]
    rfl

/-- A reader that reads each printed value reads their sequence. -/
theorem many_flatMap (read : Reader α β) (print : γ → List α) (value : γ → β) (cs : List γ)
    (reads : ∀ c ∈ cs, ∀ rest, read (print c ++ rest) = some (value c, rest)) (rest : List α) :
    many read cs.length (cs.flatMap print ++ rest) = some (cs.map value, rest) := by
  induction cs with
  | nil => rfl
  | cons c cs ih =>
    have later := ih fun d mem => reads d (List.mem_cons_of_mem c mem)
    rw [List.length_cons, many, List.flatMap_cons, List.append_assoc, reads c List.mem_cons_self]
    dsimp only [Option.bind_some]
    rw [later]
    rfl

/-- Where the rest cannot be read, the values end there only for their own number. -/
theorem many_ends_iff {read : Reader α β} {print : γ → List α} {value : γ → β} {cs : List γ}
    (reads : ∀ c ∈ cs, ∀ rest, read (print c ++ rest) = some (value c, rest)) (some : ∀ c ∈ cs, print c ≠ [])
    {tail : List α} (unread : read tail = none) (n : Nat) :
    (∃ values, many read n (cs.flatMap print ++ tail) = Option.some (values, tail)) ↔ n = cs.length := by
  constructor
  · rintro ⟨values, ended⟩
    induction cs generalizing n values with
    | nil =>
      cases n with
      | zero => rfl
      | succ n =>
        rw [many, List.flatMap_nil, List.nil_append, unread] at ended
        cases ended
    | cons c cs ih =>
      cases n with
      | zero =>
        have same := congrArg List.length (Prod.mk.inj (Option.some.inj ended)).2
        have part := List.length_pos_iff.2 (some c List.mem_cons_self)
        rw [List.flatMap_cons, List.length_append, List.length_append] at same
        omega
      | succ n =>
        rw [many, List.flatMap_cons, List.append_assoc, reads c List.mem_cons_self] at ended
        obtain ⟨⟨later, rest⟩, ends, same⟩ := Option.map_eq_some_iff.1 ended
        obtain rfl := (Prod.mk.inj same).2
        rw [List.length_cons, ih (fun d mem => reads d (List.mem_cons_of_mem c mem))
          (fun d mem => some d (List.mem_cons_of_mem c mem)) n later ends]
  · rintro rfl
    exact ⟨_, many_flatMap read print value cs reads tail⟩

end Layout
