import Mathlib.Data.List.Basic

/-!
# Bounded reads from what a connection delivers

A connection delivers a stream in segments. A read takes at most `limit` elements of the first segment and
leaves the others where they are: it never reaches over the end of a segment. `reads` are the results of
reading on until everything is taken, where the limit may depend on how much has been read;
`EndsAt` says when one of the reads with a fixed limit ends after exactly `n` elements.
-/

namespace Delivery

variable {α : Type}

/-- One read: its result, and what is left. -/
def pull (limit : Nat) : List (List α) → List α × List (List α)
  | [] => ([], [])
  | seg :: rest =>
    if seg.length ≤ limit then (seg, rest) else (seg.take limit, seg.drop limit :: rest)

/-- No segment is empty. -/
def Proper (segs : List (List α)) : Prop :=
  ∀ seg ∈ segs, seg ≠ []

instance [DecidableEq α] (segs : List (List α)) : Decidable (Proper segs) :=
  List.decidableBAll _ segs

theorem Proper.tail {seg : List α} {rest : List (List α)} (proper : Proper (seg :: rest)) : Proper rest :=
  fun s mem => proper s (List.mem_cons_of_mem seg mem)

theorem Proper.head {seg : List α} {rest : List (List α)} (proper : Proper (seg :: rest)) : seg ≠ [] :=
  proper seg List.mem_cons_self

theorem pull_flatten (limit : Nat) (segs : List (List α)) :
    (pull limit segs).1 ++ (pull limit segs).2.flatten = segs.flatten := by
  cases segs with
  | nil => rfl
  | cons seg rest =>
    rw [pull]
    split_ifs
    · rfl
    · simp only [List.flatten_cons]
      rw [← List.append_assoc, List.take_append_drop]

theorem pull_length_le (limit : Nat) (segs : List (List α)) : (pull limit segs).1.length ≤ limit := by
  cases segs with
  | nil => exact Nat.zero_le limit
  | cons seg rest =>
    rw [pull]
    split_ifs with fits
    · exact fits
    · exact List.length_take_le limit seg

theorem pull_ne_nil {limit : Nat} (positive : 0 < limit) {segs : List (List α)} (proper : Proper segs)
    (more : segs ≠ []) : (pull limit segs).1 ≠ [] := by
  cases segs with
  | nil => exact absurd rfl more
  | cons seg rest =>
    have head := List.length_pos_iff.2 proper.head
    apply List.length_pos_iff.1
    rw [pull]
    split_ifs with fits
    · exact head
    · rw [List.length_take]
      omega

theorem Proper.pull {segs : List (List α)} (proper : Proper segs) (limit : Nat) :
    Proper (pull limit segs).2 := by
  cases segs with
  | nil => exact proper
  | cons seg rest =>
    rw [Delivery.pull]
    split_ifs with fits
    · exact proper.tail
    · intro s mem
      rcases List.mem_cons.1 mem with rfl | mem
      · apply List.length_pos_iff.1
        rw [List.length_drop]
        omega
      · exact proper.tail s mem

/-! ## All the reads -/

/-- The results of at most `fuel` reads; after `n` elements the limit is `limit n`. -/
def reads (limit : Nat → Nat) : Nat → Nat → List (List α) → List (List α)
  | 0, _, _ => []
  | _ + 1, _, [] => []
  | fuel + 1, n, seg :: rest =>
    let out := pull (limit n) (seg :: rest)
    out.1 :: reads limit fuel (n + out.1.length) out.2

theorem reads_proper {limit : Nat → Nat} (positive : ∀ n, 0 < limit n) (fuel n : Nat)
    {segs : List (List α)} (proper : Proper segs) : Proper (reads limit fuel n segs) := by
  induction fuel generalizing n segs with
  | zero => exact fun _ mem => nomatch mem
  | succ fuel ih =>
    cases segs with
    | nil => exact fun _ mem => nomatch mem
    | cons seg rest =>
      intro s mem
      rcases List.mem_cons.1 mem with rfl | mem
      · exact pull_ne_nil (positive n) proper (List.cons_ne_nil _ _)
      · exact ih _ (proper.pull (limit n)) s mem

/-- With fuel for one element a read everything is read. -/
theorem reads_flatten {limit : Nat → Nat} (positive : ∀ n, 0 < limit n) {fuel : Nat} (n : Nat)
    {segs : List (List α)} (proper : Proper segs) (enough : segs.flatten.length ≤ fuel) :
    (reads limit fuel n segs).flatten = segs.flatten := by
  induction fuel generalizing n segs with
  | zero =>
    rw [List.length_eq_zero_iff.1 (Nat.le_zero.1 enough)]
    rfl
  | succ fuel ih =>
    cases segs with
    | nil => rfl
    | cons seg rest =>
      have whole := pull_flatten (limit n) (seg :: rest)
      have some := List.length_pos_iff.2 (pull_ne_nil (positive n) proper (List.cons_ne_nil _ _))
      have left : (pull (limit n) (seg :: rest)).2.flatten.length ≤ fuel := by
        have lengths := congrArg List.length whole
        rw [List.length_append] at lengths
        omega
      rw [reads, List.flatten_cons, ih _ (proper.pull (limit n)) left, whole]

/-! ## Where reads end -/

/-- With a fixed limit, some read ends after `n` elements: at the end of a segment, or a multiple of the limit
behind its start. -/
def EndsAt (limit : Nat) : Nat → List (List α) → Prop
  | n, [] => n = 0
  | n, seg :: rest =>
    if seg.length < n then EndsAt limit (n - seg.length) rest else n = seg.length ∨ n % limit = 0

instance EndsAt.decidable (limit : Nat) : (n : Nat) → (segs : List (List α)) → Decidable (EndsAt limit n segs)
  | n, [] => inferInstanceAs (Decidable (n = 0))
  | n, seg :: rest =>
    have := EndsAt.decidable limit (n - seg.length) rest
    inferInstanceAs (Decidable (if seg.length < n then _ else _))

/-- The first read ends there, or it falls short and a later one does. -/
theorem endsAt_pull {limit n : Nat} (limited : 0 < limit) (positive : 0 < n) {segs : List (List α)} :
    EndsAt limit n segs ↔
      (pull limit segs).1.length = n ∨
        (pull limit segs).1.length < n ∧
          EndsAt limit (n - (pull limit segs).1.length) (pull limit segs).2 := by
  cases segs with
  | nil =>
    simp only [EndsAt, pull, List.length_nil]
    omega
  | cons seg rest =>
    by_cases fits : seg.length ≤ limit
    case pos =>
      have first : pull limit (seg :: rest) = (seg, rest) := if_pos fits
      rw [first, EndsAt]
      by_cases short : seg.length < n
      · simp [short, Nat.ne_of_lt short]
      · have whole : n = seg.length ∨ n % limit = 0 ↔ seg.length = n := by
          constructor
          · rintro (same | multiple)
            · exact same.symm
            · have := Nat.le_of_dvd positive (Nat.dvd_of_mod_eq_zero multiple)
              omega
          · exact fun same => .inl same.symm
        simp [short, whole]
    case neg =>
      have first : pull limit (seg :: rest) = (seg.take limit, seg.drop limit :: rest) := if_neg fits
      have taken : (seg.take limit).length = limit := List.length_take_of_le (by omega)
      rw [first, taken, EndsAt]
      rcases Nat.lt_trichotomy n limit with less | rfl | more
      · have : n % limit = n := Nat.mod_eq_of_lt less
        simp only [this]
        split_ifs <;> omega
      · simp [Nat.not_lt.2 (Nat.le_of_not_le fits)]
      · have rest_mod : (n - limit) % limit = n % limit := (Nat.mod_eq_sub_mod (Nat.le_of_lt more)).symm
        have moved : seg.length - limit < n - limit ↔ seg.length < n := by omega
        have left : n - limit - (seg.length - limit) = n - seg.length := by omega
        have same : n - limit = seg.length - limit ↔ n = seg.length := by omega
        simp only [EndsAt, List.length_drop, moved, left, same, rest_mod]
        constructor
        · exact fun ends => .inr ⟨more, ends⟩
        · rintro (equal | ⟨-, ends⟩)
          · omega
          · exact ends

end Delivery
