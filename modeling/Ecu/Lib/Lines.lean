import Mathlib.Data.List.Basic

/-!
# Line-wise reading of a text

`takeLine` is one bounded read up to and including a delimiter, the reading discipline of
`fgets`: it stops after the delimiter or when the buffer is full, whichever comes first.
`readLines` repeats it to the end of the text. A text made of whole lines that fit the buffer
is read back line by line (`readLines_flatten`). Nothing here depends on an alphabet or on a
particular delimiter.
-/

namespace Lines

variable {α : Type} [DecidableEq α]

/-- Read at most `room` items, stopping after the first delimiter. -/
def takeLine (nl : α) : Nat → List α → List α × List α
  | 0, text => ([], text)
  | _ + 1, [] => ([], [])
  | room + 1, c :: text =>
    if c = nl then ([c], text)
    else ((c :: (takeLine nl room text).1), (takeLine nl room text).2)

/-- `fuel` successive reads with a buffer of `size` items, one of them kept for the terminator. -/
def readLoop (nl : α) (size : Nat) : Nat → List α → List (List α)
  | 0, _ => []
  | _ + 1, [] => []
  | fuel + 1, c :: text =>
    (takeLine nl (size - 1) (c :: text)).1 ::
      readLoop nl size fuel (takeLine nl (size - 1) (c :: text)).2

/-- Every read of a text from its first item to its end. Each read takes at least one item when
the buffer has room for one, so the length of the text bounds the number of reads. -/
def readLines (nl : α) (size : Nat) (text : List α) : List (List α) :=
  readLoop nl size text.length text

/-- A whole line that a buffer of `size` items holds together with its terminator. -/
structure IsLine (nl : α) (size : Nat) (line : List α) : Prop where
  shape : ∃ body, line = body ++ [nl] ∧ nl ∉ body
  fits : line.length < size

variable {nl : α} {size : Nat}

theorem takeLine_append (room : Nat) (text : List α) :
    (takeLine nl room text).1 ++ (takeLine nl room text).2 = text := by
  induction text generalizing room with
  | nil => cases room <;> rfl
  | cons c text ih =>
    cases room with
    | zero => rfl
    | succ room =>
      rw [takeLine]
      split
      · rfl
      · simp only [List.cons_append, ih]

theorem takeLine_shorter {room : Nat} (some_room : 0 < room) (c : α) (text : List α) :
    (takeLine nl room (c :: text)).2.length ≤ text.length := by
  obtain ⟨room, rfl⟩ := Nat.exists_eq_succ_of_ne_zero (Nat.pos_iff_ne_zero.1 some_room)
  rw [takeLine]
  split
  · exact Nat.le_refl _
  · have whole : ((takeLine nl room text).1 ++ (takeLine nl room text).2).length = text.length :=
      congrArg List.length (takeLine_append room text)
    rw [List.length_append] at whole
    exact whole ▸ Nat.le_add_left _ _

/-- A whole line that fits is exactly one read. -/
theorem takeLine_body {room : Nat} (body rest : List α) (clean : nl ∉ body)
    (fits : body.length < room) :
    takeLine nl room (body ++ nl :: rest) = (body ++ [nl], rest) := by
  induction body generalizing room with
  | nil =>
    obtain ⟨room, rfl⟩ := Nat.exists_eq_succ_of_ne_zero (Nat.pos_iff_ne_zero.1 fits)
    simp [takeLine]
  | cons c body ih =>
    obtain ⟨room, rfl⟩ := Nat.exists_eq_succ_of_ne_zero (Nat.ne_of_gt (Nat.zero_lt_of_lt fits))
    have other : c ≠ nl := fun same => clean (same ▸ List.mem_cons_self)
    have later : takeLine nl room (body ++ nl :: rest) = (body ++ [nl], rest) :=
      ih (fun mem => clean (List.mem_cons_of_mem _ mem))
      (Nat.lt_of_succ_lt_succ fits)
    simp only [List.cons_append, takeLine, if_neg other, later]

/-- The reads do not depend on spare fuel. -/
theorem readLoop_fuel (room : 1 < size) {fuel : Nat} {text : List α} (enough : text.length ≤ fuel) :
    readLoop nl size fuel text = readLines nl size text := by
  unfold readLines
  induction fuel using Nat.strongRecOn generalizing text with
  | ind fuel ih =>
    cases text with
    | nil => cases fuel <;> rfl
    | cons c text =>
      cases fuel with
      | zero => simp at enough
      | succ fuel =>
        simp only [readLoop, List.length_cons]
        have less : (takeLine nl (size - 1) (c :: text)).2.length ≤ text.length :=
          takeLine_shorter (Nat.sub_pos_of_lt room) c text
        have bound : text.length ≤ fuel := Nat.le_of_succ_le_succ enough
        rw [ih fuel (Nat.lt_succ_self _) (Nat.le_trans less bound)]
        by_cases top : text.length = fuel
        · rw [top, ih fuel (Nat.lt_succ_self _) (Nat.le_trans less bound)]
        · rw [ih text.length (by omega) less]

theorem readLines_cons (room : 1 < size) (c : α) (text : List α) :
    readLines nl size (c :: text) = (takeLine nl (size - 1) (c :: text)).1 ::
      readLines nl size (takeLine nl (size - 1) (c :: text)).2 := by
  conv => lhs; rw [readLines, List.length_cons, readLoop]
  rw [readLoop_fuel room (takeLine_shorter (Nat.sub_pos_of_lt room) c text)]

/-- One whole line in front is read first. -/
theorem readLines_line {line : List α} (whole : IsLine nl size line) (text : List α) :
    readLines nl size (line ++ text) = line :: readLines nl size text := by
  obtain ⟨⟨body, rfl, clean⟩, fits⟩ := whole
  rw [List.length_append, List.length_singleton] at fits
  have room : 1 < size := by omega
  have first : takeLine nl (size - 1) (body ++ nl :: text) = (body ++ [nl], text) :=
    takeLine_body body text clean (by omega)
  rw [List.append_assoc, List.singleton_append]
  cases body with
  | nil => rw [List.nil_append] at first ⊢; rw [readLines_cons room, first]
  | cons c body =>
    rw [List.cons_append] at first ⊢
    rw [readLines_cons room, first]

/-- A text made of whole lines is read back line by line. -/
theorem readLines_flatten {lines : List (List α)} (whole : ∀ line ∈ lines, IsLine nl size line) :
    readLines nl size lines.flatten = lines := by
  induction lines with
  | nil => rfl
  | cons line lines ih =>
    rw [List.flatten_cons, readLines_line (whole line List.mem_cons_self),
      ih fun l mem => whole l (List.mem_cons_of_mem _ mem)]

omit [DecidableEq α] in
theorem IsLine.mono {size' : Nat} (more : size ≤ size') {line : List α} (whole : IsLine nl size line) :
    IsLine nl size' line :=
  ⟨whole.shape, Nat.lt_of_lt_of_le whole.fits more⟩

/-- What stands behind the last delimiter, if anything. -/
def remainder (tail : List α) : List (List α) :=
  if tail = [] then [] else [tail]

theorem readLines_remainder {tail : List α} (open_ : nl ∉ tail) (fits : tail.length < size) :
    readLines nl size tail = remainder tail := by
  cases tail with
  | nil => rfl
  | cons c tail =>
    have room : 1 < size := by
      rw [List.length_cons] at fits
      omega
    have whole : ∀ (room : Nat) (text : List α), nl ∉ text → text.length ≤ room → takeLine nl room text =
      (text, []) := by
      intro room text clean small
      induction text generalizing room with
      | nil => cases room <;> rfl
      | cons c text ih =>
        obtain ⟨room, rfl⟩ : ∃ less, room = less + 1 := ⟨room - 1, by rw [List.length_cons] at small; omega⟩
        have other : c ≠ nl := fun same => clean (same ▸ List.mem_cons_self)
        have later := ih room (fun mem => clean (List.mem_cons_of_mem c mem)) (Nat.le_of_succ_le_succ small)
        rw [takeLine, if_neg other, later]
    rw [readLines_cons room, whole (size - 1) (c :: tail) open_ (by omega), remainder, if_neg (List.cons_ne_nil c tail)]
    rfl

/-- Whole lines, and a last one that is not ended. -/
theorem readLines_flatten_append {lines : List (List α)} (whole : ∀ line ∈ lines, IsLine nl size line)
    {tail : List α} (open_ : nl ∉ tail) (fits : tail.length < size) :
    readLines nl size (lines.flatten ++ tail) = lines ++ remainder tail := by
  induction lines with
  | nil => exact readLines_remainder open_ fits
  | cons line lines ih =>
    rw [List.flatten_cons, List.append_assoc, readLines_line (whole line List.mem_cons_self),
      ih fun l mem => whole l (List.mem_cons_of_mem _ mem)]
    rfl

/-! ## Texts made of lines of a kind -/

/-- The text consists of lines that have the property. -/
def MadeOf (P : List α → Prop) (text : List α) : Prop :=
  ∃ lines : List (List α), text = lines.flatten ∧ ∀ line ∈ lines, P line

section MadeOf

omit [DecidableEq α]

variable {P : List α → Prop}

theorem MadeOf.nil : MadeOf P [] :=
  ⟨[], rfl, fun _ mem => absurd mem List.not_mem_nil⟩

theorem MadeOf.single {line : List α} (kind : P line) : MadeOf P line :=
  ⟨[line], List.flatten_singleton.symm, fun _ mem => List.mem_singleton.1 mem ▸ kind⟩

theorem MadeOf.mono {Q : List α → Prop} (more : ∀ line, P line → Q line) {text : List α} (made : MadeOf P text) :
    MadeOf Q text := by
  obtain ⟨lines, same, each⟩ := made
  exact ⟨lines, same, fun line mem => more line (each line mem)⟩

theorem MadeOf.append {a b : List α} (left : MadeOf P a) (right : MadeOf P b) : MadeOf P (a ++ b) := by
  obtain ⟨first, rfl, inFirst⟩ := left
  obtain ⟨second, rfl, inSecond⟩ := right
  refine ⟨first ++ second, List.flatten_append.symm, ?_⟩
  intro line mem
  rcases List.mem_append.1 mem with mem | mem
  · exact inFirst line mem
  · exact inSecond line mem

theorem MadeOf.flatten {texts : List (List α)} (each : ∀ text ∈ texts, MadeOf P text) : MadeOf P texts.flatten := by
  induction texts with
  | nil => exact MadeOf.nil
  | cons text texts ih =>
    rw [List.flatten_cons]
    exact (each text List.mem_cons_self).append (ih fun t mem => each t (List.mem_cons_of_mem text mem))

end MadeOf

omit [DecidableEq α] in
/-- A text that ends with a delimiter consists of whole lines, each of them a part of it. -/
theorem madeOf_ended {nl : α} (n : Nat) {text : List α} (less : text.length ≤ n) (ended : text.getLast? = some nl) :
    MadeOf (fun line => (∃ body, line = body ++ [nl] ∧ nl ∉ body) ∧ line <:+: text) text := by
  induction n generalizing text with
  | zero =>
    rw [List.length_eq_zero_iff.1 (Nat.le_zero.1 less)] at ended
    cases ended
  | succ n ih =>
    obtain ⟨body, rest, rfl, whole⟩ := List.eq_append_cons_of_mem (List.mem_of_getLast? ended)
    have split : body ++ nl :: rest = (body ++ [nl]) ++ rest := by
      rw [List.append_assoc, List.singleton_append]
    cases rest with
    | nil => exact MadeOf.single ⟨⟨body, rfl, whole⟩, List.infix_rfl⟩
    | cons c rest =>
      have fewer : (c :: rest).length ≤ n := by
        rw [List.length_append, List.length_cons] at less
        omega
      rw [split, List.getLast?_append_of_ne_nil _ (List.cons_ne_nil c rest)] at ended
      have later := ih fewer ended
      have inside : c :: rest <:+: body ++ nl :: c :: rest := split ▸ (List.suffix_append _ _).isInfix
      obtain ⟨lines, same, parts⟩ := later
      refine ⟨(body ++ [nl]) :: lines, ?_, ?_⟩
      · rw [List.flatten_cons, ← same, split]
      · intro line mem
        rcases List.mem_cons.1 mem with rfl | mem
        · exact ⟨⟨body, rfl, whole⟩, split ▸ (List.prefix_append _ _).isInfix⟩
        · exact ⟨(parts line mem).1, (parts line mem).2.trans inside⟩

end Lines
