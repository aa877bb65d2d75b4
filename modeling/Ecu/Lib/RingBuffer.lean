import Mathlib

/-!
# A ring that drops what is oldest

A ring of `n` places has one place to write and one to read; it is empty where they are the same, so it holds at most
`n - 1` elements. What it holds (`contents`) is a queue: `take` gives the first element, `put` appends one and drops the
first where there are `n - 1`. So a ring that is only written to holds the last of what was written (`contents_puts`).
-/

structure RingBuffer (α : Type) where
  buffer : Nat → α
  putIndex : Nat
  getIndex : Nat

namespace RingBuffer

variable {α : Type} (n : Nat)

/-- The place behind a place. -/
def next (i : Nat) : Nat :=
  if n ≤ i + 1 then 0 else i + 1

def put (r : RingBuffer α) (x : α) : RingBuffer α where
  buffer := Function.update r.buffer r.putIndex x
  putIndex := next n r.putIndex
  getIndex := if next n r.putIndex = r.getIndex then next n r.getIndex else r.getIndex

def take (r : RingBuffer α) : Option (α × RingBuffer α) :=
  if r.getIndex ≠ r.putIndex then some (r.buffer r.getIndex, { r with getIndex := next n r.getIndex }) else none

/-- How many elements there are. -/
def length (r : RingBuffer α) : Nat :=
  if r.getIndex ≤ r.putIndex then r.putIndex - r.getIndex else n - (r.getIndex - r.putIndex)

/-- The elements of some places, one after the other. -/
def cells (b : Nat → α) : Nat → Nat → List α
  | _, 0 => []
  | i, k + 1 => b i :: cells b (next n i) k

/-- What is in the ring, the oldest first. -/
def contents (r : RingBuffer α) : List α :=
  cells n r.buffer r.getIndex (r.length n)

/-- Both places are places of the ring. -/
structure Valid (r : RingBuffer α) : Prop where
  put : r.putIndex < n
  get : r.getIndex < n

/-- The place some places further on. -/
def shift (i k : Nat) : Nat :=
  if i + k < n then i + k else i + k - n

variable {n} {r r' : RingBuffer α} {x : α}

theorem next_lt {i : Nat} (inside : i < n) : next n i < n := by
  rw [next]
  split_ifs
  · omega
  · omega

theorem shift_next {i k : Nat} (inside : i < n) (few : k + 1 < n) : shift n (next n i) k = shift n i (k + 1) := by
  rw [shift, shift, next]
  split_ifs
  all_goals omega

@[simp] theorem cells_length (b : Nat → α) (i k : Nat) : (cells n b i k).length = k := by
  induction k generalizing i with
  | zero => rfl
  | succ k ih => rw [cells, List.length_cons, ih]

@[simp] theorem contents_length (r : RingBuffer α) : (r.contents n).length = r.length n :=
  cells_length _ _ _

/-- The last of some places. -/
theorem cells_concat {b : Nat → α} {i k : Nat} (inside : i < n) (few : k < n) :
    cells n b i (k + 1) = cells n b i k ++ [b (shift n i k)] := by
  induction k generalizing i with
  | zero =>
    have here : shift n i 0 = i := if_pos inside
    rw [here]
    rfl
  | succ k ih =>
    rw [cells, ih (next_lt inside) (by omega), shift_next inside few]
    rfl

/-- Only the elements at the places matter. -/
theorem cells_congr {b b' : Nat → α} {i k : Nat} (inside : i < n) (few : k ≤ n)
    (same : ∀ j < k, b' (shift n i j) = b (shift n i j)) : cells n b' i k = cells n b i k := by
  induction k with
  | zero => rfl
  | succ k ih =>
    rw [cells_concat inside few, cells_concat inside few, same k (Nat.lt_succ_self k),
      ih (by omega) fun j less => same j (Nat.lt_succ_of_lt less)]

theorem Valid.length_lt (valid : r.Valid n) : r.length n < n := by
  have put := valid.put
  have get := valid.get
  rw [length]
  split_ifs
  · omega
  · omega

/-- What is written comes behind what is there. -/
theorem cells_update (valid : r.Valid n) (x : α) :
    cells n (Function.update r.buffer r.putIndex x) r.getIndex (r.length n + 1) = r.contents n ++ [x] := by
  have put := valid.put
  have get := valid.get
  have less := valid.length_lt
  have place : shift n r.getIndex (r.length n) = r.putIndex := by
    rw [shift, length]
    split_ifs
    all_goals omega
  have others (j : Nat) (before : j < r.length n) : shift n r.getIndex j ≠ r.putIndex := by
    rw [length] at before
    rw [shift]
    split_ifs at before ⊢
    all_goals omega
  rw [cells_concat get less, place, Function.update_self, contents,
    cells_congr get (Nat.le_of_lt less) fun j before => Function.update_of_ne (others j before) x r.buffer]

/-- One element more, and the oldest is dropped where there is no room. -/
theorem contents_put (valid : r.Valid n) (x : α) : (r.put n x).contents n = (r.contents n ++ [x]).rtake (n - 1) := by
  have put := valid.put
  have get := valid.get
  have all := cells_update valid x
  rw [List.rtake, List.length_append, List.length_singleton, contents_length, ← all]
  by_cases full : next n r.putIndex = r.getIndex
  · have length_eq : r.length n = n - 1 ∧ (r.put n x).length n = n - 1 := by
      rw [length, length, RingBuffer.put, if_pos full, ← full]
      dsimp only [next]
      split_ifs
      all_goals omega
    rw [length_eq.1, show n - 1 + 1 - (n - 1) = 1 by omega, cells, List.drop_one, List.tail_cons, contents, length_eq.2]
    rw [RingBuffer.put, if_pos full]
  · have length_eq : (r.put n x).length n = r.length n + 1 ∧ r.length n + 1 ≤ n - 1 := by
      rw [length, length, RingBuffer.put, if_neg full]
      dsimp only [next] at full ⊢
      split_ifs at full ⊢
      all_goals omega
    rw [show r.length n + 1 - (n - 1) = 0 by omega, List.drop_zero, contents, length_eq.1, RingBuffer.put, if_neg full]

theorem Valid.put_valid (valid : r.Valid n) (x : α) : (r.put n x).Valid n := by
  refine ⟨next_lt valid.put, ?_⟩
  rw [RingBuffer.put]
  dsimp only
  split_ifs
  · exact next_lt valid.get
  · exact valid.get

theorem take_none (valid : r.Valid n) : r.take n = none ↔ r.contents n = [] := by
  have put := valid.put
  have get := valid.get
  rw [take, contents, ← List.length_eq_zero_iff, cells_length, length]
  split_ifs
  all_goals simp only [false_iff, true_iff]
  all_goals omega

/-- The first element. -/
theorem take_some (valid : r.Valid n) (taken : r.take n = some (x, r')) :
    r.contents n = x :: r'.contents n ∧ r'.Valid n := by
  have put := valid.put
  have get := valid.get
  rw [take] at taken
  split_ifs at taken with some_
  cases taken
  have length_eq : r.length n = ({ r with getIndex := next n r.getIndex } : RingBuffer α).length n + 1 := by
    rw [length, length]
    dsimp only [next]
    split_ifs
    all_goals omega
  exact ⟨by rw [contents, length_eq, cells, contents], put, next_lt get⟩

/-! ## The last elements -/

/-- The last elements of a list and then of a longer one. -/
theorem rtake_append_rtake (k : Nat) (as bs : List α) : (as.rtake k ++ bs).rtake k = (as ++ bs).rtake k := by
  rw [List.rtake, List.rtake, List.rtake, List.length_append, List.length_append, List.length_drop]
  by_cases few : as.length ≤ k
  · rw [show as.length - k = 0 by omega, List.drop_zero, Nat.sub_zero]
  · rw [← List.drop_append_of_le_length (show as.length - k ≤ as.length by omega), List.drop_drop]
    congr 1
    omega

theorem rtake_of_length_le {k : Nat} {as : List α} (few : as.length ≤ k) : as.rtake k = as := by
  rw [List.rtake, Nat.sub_eq_zero_of_le few, List.drop_zero]

/-- Some elements written one after the other. -/
def puts (n : Nat) (r : RingBuffer α) (xs : List α) : RingBuffer α :=
  xs.foldl (put n) r

theorem Valid.puts_valid (valid : r.Valid n) (xs : List α) : (r.puts n xs).Valid n := by
  induction xs generalizing r with
  | nil => exact valid
  | cons x xs ih => exact ih (valid.put_valid x)

theorem contents_puts (valid : r.Valid n) (xs : List α) :
    (r.puts n xs).contents n = (r.contents n ++ xs).rtake (n - 1) := by
  induction xs generalizing r with
  | nil =>
    have few := valid.length_lt
    rw [List.append_nil, rtake_of_length_le (by rw [contents_length]; omega)]
    rfl
  | cons x xs ih =>
    rw [puts, List.foldl_cons]
    refine (ih (valid.put_valid x)).trans ?_
    rw [contents_put valid, rtake_append_rtake, List.append_assoc]
    rfl

/-! ## What goes in and what comes out -/

/-- From `before` in the queue to `after`, with `got` put in and `out` taken out: nothing is taken out of order or twice,
and nothing is lost as long as there is room for all. -/
def Flow (n : Nat) (before got out after : List α) : Prop :=
  ∃ passed, before ++ got = passed ++ after ∧ out.Sublist passed ∧ ((before ++ got).length < n → out = passed)

variable {before middle after got got' out out' : List α}

theorem Flow.refl (queue : List α) : Flow n queue [] [] queue :=
  ⟨[], List.append_nil queue, List.Sublist.slnil, fun _ => rfl⟩

theorem Flow.trans (first : Flow n before got out middle) (second : Flow n middle got' out' after) :
    Flow n before (got ++ got') (out ++ out') after := by
  obtain ⟨passed, split, sub, all⟩ := first
  obtain ⟨passed', split', sub', all'⟩ := second
  have whole : before ++ (got ++ got') = passed ++ (middle ++ got') := by
    rw [← List.append_assoc, split, List.append_assoc]
  refine ⟨passed ++ passed', ?_, sub.append sub', fun room => ?_⟩
  · rw [whole, split', List.append_assoc]
  · rw [whole, List.length_append] at room
    have room' : (before ++ got).length < n := by
      rw [split, List.length_append]
      rw [List.length_append] at room
      omega
    rw [all room', all' (by omega)]

theorem flow_puts (valid : r.Valid n) (xs : List α) : Flow n (r.contents n) xs [] ((r.puts n xs).contents n) := by
  rw [contents_puts valid]
  refine ⟨(r.contents n ++ xs).rdrop (n - 1), (List.take_append_drop _ _).symm, List.nil_sublist _, fun room => ?_⟩
  rw [List.rdrop, Nat.sub_eq_zero_of_le (by omega), List.take_zero]

theorem flow_take (valid : r.Valid n) (taken : r.take n = some (x, r')) :
    Flow n (r.contents n) [] [x] (r'.contents n) := by
  obtain ⟨first, -⟩ := take_some valid taken
  exact ⟨[x], by rw [first, List.append_nil]; rfl, List.Sublist.refl [x], fun _ => rfl⟩

/-- Where at least as many are taken out as were there, only what was put in is left. -/
theorem Flow.suffix (flow : Flow n before got out after) (many : before.length ≤ out.length ∨ after = []) :
    after <:+ got := by
  obtain ⟨passed, split, sub, -⟩ := flow
  rcases many with many | rfl
  · have whole : after <:+ before ++ got := ⟨passed, split.symm⟩
    have sum := congrArg List.length split
    have shorter := sub.length_le
    rw [List.length_append, List.length_append] at sum
    exact List.suffix_of_suffix_length_le whole (List.suffix_append before got) (by omega)
  · exact List.nil_suffix

/-- What is left over comes from the end of what went in. -/
theorem Flow.late (flow : Flow n before got out after) {late : List α} (last : before <:+ late) :
    after <:+ late ++ got := by
  obtain ⟨passed, split, -, -⟩ := flow
  have whole : after <:+ before ++ got := ⟨passed, split.symm⟩
  obtain ⟨front, rfl⟩ := last
  rw [List.append_assoc]
  exact whole.trans (List.suffix_append front _)

end RingBuffer
