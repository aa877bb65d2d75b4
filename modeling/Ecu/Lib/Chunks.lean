import Mathlib.Data.List.Basic

/-!
# Chunks of a list

A list cut into pieces of one size, the last one perhaps shorter. A loop that takes a piece and goes on with the rest
makes the chunks (`chunks_cons`); put end to end they are the list (`flatten_chunks`).
-/

namespace Chunks

variable {α : Type}

/-- The pieces of `size` items. -/
def chunks (size : Nat) (l : List α) : List (List α) :=
  (List.range ((l.length + size - 1) / size)).map fun i => (l.drop (i * size)).take size

variable {size : Nat}

theorem chunks_nil (some : 0 < size) : chunks size ([] : List α) = [] := by
  rw [chunks, List.length_nil, Nat.zero_add, Nat.div_eq_of_lt (Nat.sub_lt some Nat.one_pos), List.range_zero,
    List.map_nil]

theorem chunks_cons (some : 0 < size) {l : List α} (more : l ≠ []) :
    chunks size l = l.take size :: chunks size (l.drop size) := by
  have positive : 0 < l.length := List.length_pos_iff.2 more
  have count : (l.length + size - 1) / size = ((l.drop size).length + size - 1) / size + 1 := by
    rw [List.length_drop]
    rcases Nat.lt_or_ge size l.length with longer | shorter
    · have shape : l.length + size - 1 = l.length - size + size - 1 + size := by omega
      rw [shape, Nat.add_div_right _ some]
    · have shape : l.length + size - 1 = l.length - 1 + size := by omega
      rw [shape, Nat.add_div_right _ some, Nat.sub_eq_zero_of_le shorter, Nat.zero_add,
        Nat.div_eq_of_lt (Nat.lt_of_lt_of_le (Nat.sub_lt positive Nat.one_pos) shorter),
        Nat.div_eq_of_lt (Nat.sub_lt some Nat.one_pos)]
  rw [chunks, count, List.range_succ_eq_map, List.map_cons, List.map_map, Nat.zero_mul, List.drop_zero]
  congr 1
  rw [chunks]
  apply List.map_congr_left
  intro i _
  rw [Function.comp_apply, List.drop_drop, Nat.succ_mul, Nat.add_comm]

/-- What fits in one piece is one piece. -/
theorem chunks_short (some : 0 < size) {l : List α} (more : l ≠ []) (short : l.length ≤ size) :
    chunks size l = [l] := by
  rw [chunks_cons some more, List.take_of_length_le short, List.drop_of_length_le short, chunks_nil some]

/-- The pieces that are not shorter. -/
theorem whole_chunks (some : 0 < size) (l : List α) : (chunks size l).filter (fun piece => piece.length = size) =
    (List.range (l.length / size)).map fun i => (l.drop (i * size)).take size := by
  induction h : l.length / size generalizing l with
  | zero =>
    have short : l.length < size := (Nat.div_eq_zero_iff_lt some).1 h
    by_cases more : l = []
    · rw [more, chunks_nil some, List.filter_nil, List.range_zero, List.map_nil]
    · have less : ¬ l.length = size := by omega
      rw [chunks_short some more (Nat.le_of_lt short), List.filter_cons_of_neg (by simpa using less), List.filter_nil,
        List.range_zero, List.map_nil]
  | succ n ih =>
    have long : size ≤ l.length := by
      have quotient : 0 < l.length / size := by omega
      exact (Nat.div_pos_iff.1 quotient).2
    have more : l ≠ [] := by
      rintro rfl
      simp only [List.length_nil] at long
      omega
    have first : (l.take size).length = size := List.length_take_of_le long
    have rest : (l.drop size).length / size = n := by
      have taken := Nat.sub_mul_div l.length size 1
      rw [Nat.mul_one, h, Nat.add_sub_cancel] at taken
      rw [List.length_drop, taken]
    rw [chunks_cons some more, List.filter_cons_of_pos (by simpa using first), ih _ rest, List.range_succ_eq_map,
      List.map_cons, List.map_map, Nat.zero_mul, List.drop_zero]
    congr 1
    apply List.map_congr_left
    intro i _
    rw [Function.comp_apply, List.drop_drop, Nat.succ_mul, Nat.add_comm]

/-- Pieces of the size put end to end are cut into the pieces. -/
theorem chunks_flatten (some : 0 < size) {pieces : List (List α)} (whole : ∀ piece ∈ pieces, piece.length = size) :
    chunks size pieces.flatten = pieces := by
  induction pieces with
  | nil => exact chunks_nil some
  | cons piece pieces ih =>
    have length := whole piece List.mem_cons_self
    have more : piece ++ pieces.flatten ≠ [] := by
      intro none
      rw [(List.append_eq_nil_iff.1 none).1, List.length_nil] at length
      omega
    rw [List.flatten_cons, chunks_cons some more, List.take_left' length, List.drop_left' length,
      ih fun p mem => whole p (List.mem_cons_of_mem piece mem)]

/-- Nothing is lost or added. -/
theorem flatten_chunks (some : 0 < size) (l : List α) : (chunks size l).flatten = l := by
  induction h : l.length using Nat.strongRecOn generalizing l with
  | ind n ih =>
    by_cases more : l = []
    · rw [more, chunks_nil some, List.flatten_nil]
    · have less : (l.drop size).length < n := by
        have positive := List.length_pos_iff.2 more
        rw [List.length_drop]
        omega
      rw [chunks_cons some more, List.flatten_cons, ih _ less _ rfl, List.take_append_drop]

/-- No piece is empty or too long. -/
theorem length_chunks (some : 0 < size) {l piece : List α} (mem : piece ∈ chunks size l) :
    0 < piece.length ∧ piece.length ≤ size := by
  obtain ⟨i, below, rfl⟩ := List.mem_map.1 mem
  have inside := List.mem_range.1 below
  rw [Nat.lt_div_iff_mul_lt some] at inside
  rw [List.length_take, List.length_drop]
  omega

end Chunks
