import Ecu.Lib.Lines
import Mathlib.Data.List.Induction

/-!
# The lines of a text

`split` cuts a text behind each delimiter; a last line may be open. Unlike `readLines` it knows no buffer: the two agree
where each line fits (`readLines_split`). A text that is empty or ended can be continued line by line
(`split_append_iff`), and lines that are taken out leave the others as they are (`split_sublist`).
-/

namespace Lines

variable {α : Type} [DecidableEq α]

/-- The lines of a text, each with its delimiter. -/
def split (nl : α) : List α → List (List α)
  | [] => []
  | c :: text =>
    if c = nl then [c] :: split nl text
    else
      match split nl text with
      | [] => [[c]]
      | line :: lines => (c :: line) :: lines

/-- The delimiter ends the line and does not stand in it. -/
def Ended (nl : α) (line : List α) : Prop :=
  ∃ body, line = body ++ [nl] ∧ nl ∉ body

/-- The text has no open line. -/
def Closed (nl : α) (text : List α) : Prop :=
  text = [] ∨ text.getLast? = some nl

variable {nl : α}

theorem split_open {tail : List α} (open_ : nl ∉ tail) : split nl tail = remainder tail := by
  induction tail with
  | nil => rfl
  | cons c tail ih =>
    have other : c ≠ nl := fun same => open_ (same ▸ List.mem_cons_self)
    rw [split, if_neg other, ih fun mem => open_ (List.mem_cons_of_mem c mem)]
    cases tail <;> rfl

theorem split_ended {line : List α} (ended : Ended nl line) (text : List α) :
    split nl (line ++ text) = line :: split nl text := by
  obtain ⟨body, rfl, clean⟩ := ended
  rw [List.append_assoc, List.singleton_append]
  induction body with
  | nil => exact if_pos rfl
  | cons c body ih =>
    have other : c ≠ nl := fun same => clean (same ▸ List.mem_cons_self)
    rw [List.cons_append, split, if_neg other, ih fun mem => clean (List.mem_cons_of_mem c mem)]
    rfl

/-- Ended lines and an open one are cut where they end. -/
theorem split_flatten {lines : List (List α)} (ended : ∀ line ∈ lines, Ended nl line) {tail : List α}
    (open_ : nl ∉ tail) : split nl (lines.flatten ++ tail) = lines ++ remainder tail := by
  induction lines with
  | nil => exact split_open open_
  | cons line lines ih =>
    rw [List.flatten_cons, List.append_assoc, split_ended (ended line List.mem_cons_self),
      ih fun l mem => ended l (List.mem_cons_of_mem line mem)]
    rfl

/-- Each text is of this form. -/
theorem exists_cut (nl : α) (text : List α) : ∃ (lines : List (List α)) (tail : List α),
    text = lines.flatten ++ tail ∧ (∀ line ∈ lines, Ended nl line) ∧ nl ∉ tail := by
  induction text with
  | nil => exact ⟨[], [], rfl, fun _ none => absurd none List.not_mem_nil, List.not_mem_nil⟩
  | cons c text ih =>
    obtain ⟨lines, tail, rfl, ended, open_⟩ := ih
    by_cases isNl : c = nl
    · rw [isNl]
      exact ⟨[nl] :: lines, tail, rfl,
        List.forall_mem_cons.2 ⟨⟨[], rfl, List.not_mem_nil⟩, ended⟩, open_⟩
    · cases lines with
      | nil =>
        exact ⟨[], c :: tail, rfl, ended, List.not_mem_cons_of_ne_of_not_mem (Ne.symm isNl) open_⟩
      | cons line lines =>
        obtain ⟨⟨body, same, clean⟩, others⟩ := List.forall_mem_cons.1 ended
        refine ⟨(c :: line) :: lines, tail, rfl, List.forall_mem_cons.2 ⟨⟨c :: body, ?_, ?_⟩, others⟩, open_⟩
        · rw [same, List.cons_append]
        · exact List.not_mem_cons_of_ne_of_not_mem (Ne.symm isNl) clean

omit [DecidableEq α] in
theorem flatten_remainder (tail : List α) : (remainder tail).flatten = tail := by
  unfold remainder
  split_ifs with none
  · exact none.symm
  · exact List.flatten_singleton

theorem flatten_split (nl : α) (text : List α) : (split nl text).flatten = text := by
  obtain ⟨lines, tail, rfl, ended, open_⟩ := exists_cut nl text
  rw [split_flatten ended open_, List.flatten_append, flatten_remainder]

theorem split_ne_nil {text line : List α} (mem : line ∈ split nl text) : line ≠ [] := by
  obtain ⟨lines, tail, rfl, ended, open_⟩ := exists_cut nl text
  rw [split_flatten ended open_] at mem
  rcases List.mem_append.1 mem with inside | last
  · obtain ⟨body, rfl, -⟩ := ended line inside
    exact List.append_ne_nil_of_right_ne_nil body (List.cons_ne_nil nl [])
  · unfold remainder at last
    split_ifs at last with none
    · cases last
    · rwa [List.mem_singleton.1 last]

/-- A reader whose buffer holds each line reads the lines. -/
theorem readLines_split {size : Nat} (room : 0 < size) {text : List α}
    (short : ∀ line ∈ split nl text, line.length < size) : readLines nl size text = split nl text := by
  obtain ⟨lines, tail, rfl, ended, open_⟩ := exists_cut nl text
  rw [split_flatten ended open_] at short ⊢
  refine readLines_flatten_append (fun line mem => ?_) open_ ?_
  · exact ⟨ended line mem, short line (List.mem_append_left _ mem)⟩
  · by_cases none : tail = []
    · rw [none]
      exact room
    · refine short tail (List.mem_append_right _ ?_)
      rw [remainder, if_neg none]
      exact List.mem_singleton_self tail

theorem takeLine_length (room : Nat) (text : List α) : (takeLine nl room text).1.length ≤ room := by
  induction text generalizing room with
  | nil => cases room <;> exact Nat.zero_le _
  | cons c text ih =>
    cases room with
    | zero => exact Nat.le_refl 0
    | succ room =>
      rw [takeLine]
      split_ifs
      · exact Nat.le_add_left 1 room
      · exact Nat.succ_le_succ (ih room)

/-- What is read fits the buffer with its terminator. -/
theorem readLines_fit {size : Nat} (room : 0 < size) {text line : List α} (mem : line ∈ readLines nl size text) :
    line.length < size := by
  have each (fuel : Nat) (text : List α) : ∀ line ∈ readLoop nl size fuel text, line.length < size := by
    induction fuel generalizing text with
    | zero => exact fun _ none => absurd none List.not_mem_nil
    | succ fuel ih =>
      cases text with
      | nil => exact fun _ none => absurd none List.not_mem_nil
      | cons c text =>
        have first := @takeLine_length α _ nl (size - 1) (c :: text)
        exact List.forall_mem_cons.2 ⟨by omega, ih _⟩
  exact each text.length text line mem

/-- Some of the lines are the lines of what they make up. -/
theorem split_sublist {text : List α} {kept : List (List α)} (sub : kept.Sublist (split nl text)) :
    split nl kept.flatten = kept := by
  obtain ⟨lines, tail, rfl, ended, open_⟩ := exists_cut nl text
  rw [split_flatten ended open_] at sub
  obtain ⟨front, last, rfl, inLines, inLast⟩ := List.sublist_append_iff.1 sub
  have each : ∀ line ∈ front, Ended nl line := fun line mem => ended line (inLines.subset mem)
  have oneOrNone : last = [] ∨ last = [tail] ∧ tail ≠ [] := by
    unfold remainder at inLast
    split_ifs at inLast with none
    · exact .inl (List.sublist_nil.1 inLast)
    · exact (List.sublist_singleton.1 inLast).imp_right fun same => ⟨same, none⟩
  rw [List.flatten_append]
  rcases oneOrNone with rfl | ⟨rfl, some⟩
  · exact split_flatten each List.not_mem_nil
  · rw [List.flatten_singleton, split_flatten each open_, remainder, if_neg some]

omit [DecidableEq α] in
theorem closed_flatten {lines : List (List α)} (ended : ∀ line ∈ lines, Ended nl line) : Closed nl lines.flatten := by
  induction lines using List.reverseRecOn with
  | nil => exact .inl rfl
  | append_singleton lines line =>
    obtain ⟨body, rfl, -⟩ := ended line (List.mem_append_right _ (List.mem_singleton_self line))
    refine .inr ?_
    rw [List.flatten_append, List.flatten_singleton, ← List.append_assoc, List.getLast?_concat]

omit [DecidableEq α] in
theorem closed_append {lines : List (List α)} {tail : List α} (open_ : nl ∉ tail)
    (closed : Closed nl (lines.flatten ++ tail)) : tail = [] := by
  by_contra some
  rcases closed with none | last
  · exact some (List.append_eq_nil_iff.1 none).2
  · rw [List.getLast?_append_of_ne_nil _ some] at last
    exact open_ (List.mem_of_getLast? last)

/-- A text behind one without an open line adds its lines. -/
theorem split_append {text : List α} (closed : Closed nl text) (more : List α) :
    split nl (text ++ more) = split nl text ++ split nl more := by
  obtain ⟨lines, tail, rfl, ended, open_⟩ := exists_cut nl text
  obtain rfl := closed_append open_ closed
  obtain ⟨lines', tail', rfl, ended', open'⟩ := exists_cut nl more
  have all : ∀ line ∈ lines ++ lines', Ended nl line :=
    fun line mem => (List.mem_append.1 mem).elim (ended line) (ended' line)
  rw [split_flatten ended open_, split_flatten ended' open', List.append_nil, ← List.append_assoc,
    ← List.flatten_append, split_flatten all open', show remainder ([] : List α) = [] from if_pos rfl,
    List.append_nil, List.append_assoc]

/-- A line by itself. -/
theorem split_single_iff {line : List α} : split nl line = [line] ↔ line ≠ [] ∧ nl ∉ line.dropLast := by
  constructor
  · intro single
    have some : line ≠ [] := @split_ne_nil α _ nl line line (single ▸ List.mem_singleton_self line)
    refine ⟨some, ?_⟩
    obtain ⟨lines, tail, same, ended, open_⟩ := exists_cut nl line
    have cut := split_flatten ended open_
    rw [← same, single] at cut
    cases lines with
    | nil =>
      rw [same, List.flatten_nil, List.nil_append]
      exact fun mem => open_ ((List.dropLast_sublist tail).subset mem)
    | cons first lines =>
      obtain ⟨rfl, -⟩ := List.cons.inj cut
      obtain ⟨body, shape, clean⟩ := ended line List.mem_cons_self
      rw [shape, List.dropLast_concat]
      exact clean
  · rintro ⟨some, clean⟩
    by_cases last : line.getLast some = nl
    · have ended : Ended nl line := ⟨line.dropLast, by rw [← last, List.dropLast_concat_getLast some], clean⟩
      have cut := split_ended ended []
      rwa [List.append_nil] at cut
    · have open_ : nl ∉ line := by
        rw [← List.dropLast_concat_getLast some]
        intro mem
        rcases List.mem_append.1 mem with inside | same
        · exact clean inside
        · exact last (List.mem_singleton.1 same).symm
      rw [split_open open_, remainder, if_neg some]

/-- A text adds itself as one line exactly if it is one, and there is no open line in front of it. -/
theorem split_append_iff {text line : List α} :
    split nl (text ++ line) = split nl text ++ [line] ↔ Closed nl text ∧ split nl line = [line] := by
  constructor
  · intro added
    obtain ⟨lines, tail, same, ended, open_⟩ := exists_cut nl (text ++ line)
    have cut := split_flatten ended open_
    rw [← same, added] at cut
    have inside : ∀ l ∈ split nl text, Ended nl l := by
      unfold remainder at cut
      split_ifs at cut with none
      · rw [List.append_nil] at cut
        exact fun l mem => ended l (cut ▸ List.mem_append_left _ mem)
      · rw [(List.append_inj' cut rfl).1]
        exact ended
    have closed : Closed nl text := by
      rw [← flatten_split nl text]
      exact closed_flatten inside
    refine ⟨closed, ?_⟩
    rw [split_append closed] at added
    exact List.append_cancel_left added
  · rintro ⟨closed, single⟩
    rw [split_append closed, single]

end Lines
