import Mathlib

/-!
# An arena cut into blocks

An arena is a list of blocks that follow one another without a gap, each behind a header of `head` bytes. Where a block
lies follows from the blocks in front of it, so blocks cannot overlap (`spans_apart`). A first fit takes the first free
block from a place on that is large enough; free neighbours are joined (`Coalesced`), and an arena in which nothing is
used is then one block (`eq_single_of_unused`).
-/

namespace Blocks

structure Block where
  size : Nat
  used : Bool
deriving DecidableEq

variable (head : Nat)

/-- The bytes of some blocks with their headers. -/
def extent : List Block → Nat
  | [] => 0
  | b :: bs => head + b.size + extent bs

/-- The blocks that are used, or those that are free, each with its first byte and its size. -/
def spans (u : Bool) : Nat → List Block → List (Nat × Nat)
  | _, [] => []
  | p, b :: bs =>
    if b.used = u then (p + head, b.size) :: spans u (p + head + b.size) bs else spans u (p + head + b.size) bs

/-- The bytes of the used blocks with their headers. -/
def taken : List Block → Nat
  | [] => 0
  | b :: bs => (if b.used then head + b.size else 0) + taken bs

/-- Where the blocks begin. -/
def starts : Nat → List Block → List Nat
  | _, [] => []
  | p, b :: bs => p :: starts (p + head + b.size) bs

/-- Where the first free block begins, or the end of the arena. -/
def firstFree : Nat → List Block → Nat
  | p, [] => p
  | p, b :: bs => if b.used then firstFree (p + head + b.size) bs else p

/-- No two neighbours are free. -/
def Coalesced (bs : List Block) : Prop :=
  bs.IsChain fun a b => a.used = true ∨ b.used = true

variable {head}

theorem extent_append (as bs : List Block) : extent head (as ++ bs) = extent head as + extent head bs := by
  induction as with
  | nil => rw [List.nil_append, extent, Nat.zero_add]
  | cons a as ih => rw [List.cons_append, extent, extent, ih, ← Nat.add_assoc]

theorem taken_append (as bs : List Block) : taken head (as ++ bs) = taken head as + taken head bs := by
  induction as with
  | nil => rw [List.nil_append, taken, Nat.zero_add]
  | cons a as ih => rw [List.cons_append, taken, taken, ih, ← Nat.add_assoc]

theorem taken_used (n : Nat) (bs : List Block) : taken head (⟨n, true⟩ :: bs) = head + n + taken head bs :=
  rfl

theorem taken_free (n : Nat) (bs : List Block) : taken head (⟨n, false⟩ :: bs) = taken head bs :=
  Nat.zero_add _

theorem spans_append (u : Bool) (p : Nat) (as bs : List Block) :
    spans head u p (as ++ bs) = spans head u p as ++ spans head u (p + extent head as) bs := by
  induction as generalizing p with
  | nil => rfl
  | cons a as ih =>
    rw [List.cons_append, spans, spans, ih, extent, ← Nat.add_assoc, ← Nat.add_assoc]
    split_ifs
    · rfl
    · rfl

theorem spans_used (u : Bool) (p n : Nat) (bs : List Block) :
    spans head u p (⟨n, u⟩ :: bs) = (p + head, n) :: spans head u (p + head + n) bs :=
  if_pos rfl

theorem spans_other {u v : Bool} (ne : v ≠ u) (p n : Nat) (bs : List Block) :
    spans head u p (⟨n, v⟩ :: bs) = spans head u (p + head + n) bs :=
  if_neg ne

theorem starts_append (p : Nat) (as bs : List Block) :
    starts head p (as ++ bs) = starts head p as ++ starts head (p + extent head as) bs := by
  induction as generalizing p with
  | nil => rfl
  | cons a as ih => rw [List.cons_append, starts, starts, ih, extent, ← Nat.add_assoc, ← Nat.add_assoc, List.cons_append]

/-- A block behind its header. -/
theorem mem_spans {u : Bool} {p q n : Nat} {bs : List Block} : (q, n) ∈ spans head u p bs ↔
    ∃ before after, bs = before ++ ⟨n, u⟩ :: after ∧ q = p + extent head before + head := by
  constructor
  · intro mem
    induction bs generalizing p with
    | nil => cases mem
    | cons b bs ih =>
      rw [spans] at mem
      have later (mem : (q, n) ∈ spans head u (p + head + b.size) bs) :
          ∃ before after, b :: bs = before ++ ⟨n, u⟩ :: after ∧ q = p + extent head before + head := by
        obtain ⟨before, after, rfl, rfl⟩ := ih mem
        exact ⟨b :: before, after, rfl, by rw [extent]; omega⟩
      split_ifs at mem with kind
      · rcases List.mem_cons.1 mem with here | mem
        · cases here
          exact ⟨[], bs, by rw [← kind]; rfl, rfl⟩
        · exact later mem
      · exact later mem
  · rintro ⟨before, after, rfl, rfl⟩
    rw [spans_append, spans_used]
    exact List.mem_append_right _ List.mem_cons_self

theorem mem_starts {p r : Nat} {bs : List Block} : r ∈ starts head p bs ↔
    ∃ before b after, bs = before ++ b :: after ∧ r = p + extent head before := by
  constructor
  · intro mem
    induction bs generalizing p with
    | nil => cases mem
    | cons b bs ih =>
      rw [starts] at mem
      rcases List.mem_cons.1 mem with rfl | mem
      · exact ⟨[], b, bs, rfl, rfl⟩
      · obtain ⟨before, c, after, rfl, rfl⟩ := ih mem
        exact ⟨b :: before, c, after, rfl, by rw [extent]; omega⟩
  · rintro ⟨before, b, after, rfl, rfl⟩
    rw [starts_append, starts]
    exact List.mem_append_right _ List.mem_cons_self

theorem spans_bounds {u : Bool} {p q n : Nat} {bs : List Block} (mem : (q, n) ∈ spans head u p bs) :
    p + head ≤ q ∧ q + n ≤ p + extent head bs := by
  obtain ⟨before, after, rfl, rfl⟩ := mem_spans.1 mem
  rw [extent_append, extent]
  exact ⟨by omega, by dsimp only; omega⟩

theorem starts_bounds {p r : Nat} {bs : List Block} (mem : r ∈ starts head p bs) :
    p ≤ r ∧ r + head ≤ p + extent head bs := by
  obtain ⟨before, b, after, rfl, rfl⟩ := mem_starts.1 mem
  rw [extent_append, extent]
  omega

/-- Blocks do not overlap, and a header lies between them. -/
theorem spans_apart (head : Nat) (u : Bool) (p : Nat) (bs : List Block) :
    (spans head u p bs).Pairwise fun a b => a.1 + a.2 + head ≤ b.1 := by
  induction bs generalizing p with
  | nil => exact List.Pairwise.nil
  | cons b bs ih =>
    rw [spans]
    split_ifs
    · refine List.pairwise_cons.2 ⟨fun other mem => ?_, ih _⟩
      have low := (spans_bounds mem).1
      dsimp only
      omega
    · exact ih _

/-- No block lies over a header. -/
theorem span_off_starts {u : Bool} {p q n r : Nat} {bs : List Block} (mem : (q, n) ∈ spans head u p bs)
    (start : r ∈ starts head p bs) :
    q + n ≤ r ∨ r + head ≤ q := by
  obtain ⟨before, after, rfl, rfl⟩ := mem_spans.1 mem
  rw [starts_append, starts] at start
  rcases List.mem_append.1 start with mem | mem
  · have bounds := starts_bounds mem
    omega
  · rcases List.mem_cons.1 mem with rfl | mem
    · omega
    · have bounds := starts_bounds mem
      dsimp only at bounds
      omega

/-- Two blocks of one kind are the same or apart. -/
theorem spans_cases {u : Bool} {p : Nat} {bs : List Block} {a b : Nat × Nat} (mem : a ∈ spans head u p bs)
    (mem' : b ∈ spans head u p bs) : a = b ∨ a.1 + a.2 + head ≤ b.1 ∨ b.1 + b.2 + head ≤ a.1 := by
  induction bs generalizing p with
  | nil => cases mem
  | cons c bs ih =>
    rw [spans] at mem mem'
    split_ifs at mem mem' with kind
    · rcases List.mem_cons.1 mem with rfl | mem
      · rcases List.mem_cons.1 mem' with rfl | mem'
        · exact .inl rfl
        · exact .inr (.inl (by have low := (spans_bounds mem').1; dsimp only; omega))
      · rcases List.mem_cons.1 mem' with rfl | mem'
        · exact .inr (.inr (by have low := (spans_bounds mem).1; dsimp only; omega))
        · exact ih mem mem'
    · exact ih mem mem'

/-- The bytes of two blocks and their headers do not meet. -/
def Apart (head : Nat) (a b : Nat × Nat) : Prop :=
  a.1 + a.2 + head ≤ b.1 ∨ b.1 + b.2 + head ≤ a.1

theorem Apart.ne (positive : 0 < head) {a b : Nat × Nat} (apart : Apart head a b) : a.1 ≠ b.1 := by
  unfold Apart at apart
  omega

/-- One block more. -/
theorem mem_insert {u : Bool} {p : Nat} {bs bs' : List Block} {front rest : List (Nat × Nat)} {x : Nat × Nat}
    (without : spans head u p bs = front ++ rest) (within : spans head u p bs' = front ++ x :: rest) :
    (∀ a, a ∈ spans head u p bs' ↔ a = x ∨ a ∈ spans head u p bs) ∧ ∀ a ∈ spans head u p bs, Apart head a x := by
  rw [without, within]
  refine ⟨fun a => ?_, fun a mem => ?_⟩
  · rw [List.mem_append, List.mem_append, List.mem_cons]
    exact or_left_comm
  · have apart := spans_apart head u p bs'
    rw [within] at apart
    obtain ⟨-, behind, between⟩ := List.pairwise_append.1 apart
    rcases List.mem_append.1 mem with mem | mem
    · exact .inl (between a mem x List.mem_cons_self)
    · exact .inr ((List.pairwise_cons.1 behind).1 a mem)

/-- The others. -/
theorem mem_rest (positive : 0 < head) {u : Bool} {p : Nat} {bs : List Block} {front rest : List (Nat × Nat)}
    {x : Nat × Nat} (within : spans head u p bs = front ++ x :: rest) (a : Nat × Nat) :
    a ∈ front ++ rest ↔ a ∈ spans head u p bs ∧ a ≠ x := by
  have apart := spans_apart head u p bs
  rw [within] at apart ⊢
  obtain ⟨-, behind, between⟩ := List.pairwise_append.1 apart
  rw [List.mem_append, List.mem_append, List.mem_cons]
  constructor
  · rintro (mem | mem)
    · refine ⟨.inl mem, fun same => ?_⟩
      have less := between a mem x List.mem_cons_self
      rw [same] at less
      omega
    · refine ⟨.inr (.inr mem), fun same => ?_⟩
      have less := (List.pairwise_cons.1 behind).1 a mem
      rw [same] at less
      omega
  · rintro ⟨mem | mem | mem, other⟩
    · exact .inl mem
    · exact absurd mem other
    · exact .inr mem

/-- One block less. -/
theorem mem_remove (positive : 0 < head) {u : Bool} {p : Nat} {bs bs' : List Block} {front rest : List (Nat × Nat)}
    {x : Nat × Nat} (within : spans head u p bs = front ++ x :: rest) (without : spans head u p bs' = front ++ rest)
    (a : Nat × Nat) : a ∈ spans head u p bs' ↔ a ∈ spans head u p bs ∧ a ≠ x := by
  rw [without]
  exact mem_rest positive within a

theorem length_le_extent (head : Nat) (positive : 0 < head) (bs : List Block) : bs.length ≤ extent head bs := by
  induction bs with
  | nil => exact Nat.le_refl 0
  | cons b bs ih =>
    rw [extent, List.length_cons]
    omega

theorem firstFree_bounds (head p : Nat) (bs : List Block) :
    p ≤ firstFree head p bs ∧ firstFree head p bs ≤ p + extent head bs := by
  induction bs generalizing p with
  | nil => exact ⟨Nat.le_refl p, Nat.le_refl p⟩
  | cons b bs ih =>
    have later := ih (p + head + b.size)
    rw [firstFree, extent]
    split_ifs
    · omega
    · omega

/-- It is the first of the free ones. -/
theorem firstFree_le {p q n : Nat} {bs : List Block} (mem : (q, n) ∈ spans head false p bs) :
    firstFree head p bs + head ≤ q := by
  induction bs generalizing p with
  | nil => cases mem
  | cons b bs ih =>
    rw [firstFree]
    rw [spans] at mem
    split_ifs at mem with kind
    · rw [kind, if_neg Bool.false_ne_true]
      rcases List.mem_cons.1 mem with here | mem
      · cases here
        exact Nat.le_refl _
      · have low := (spans_bounds mem).1
        omega
    · rw [Bool.not_eq_false] at kind
      rw [if_pos kind]
      exact ih mem

/-- What comes behind a free block does not matter. -/
theorem firstFree_stop (p : Nat) (before : List Block) (n n' : Nat) (after after' : List Block) :
    firstFree head p (before ++ ⟨n, false⟩ :: after) = firstFree head p (before ++ ⟨n', false⟩ :: after') := by
  induction before generalizing p with
  | nil => rfl
  | cons b before ih =>
    rw [List.cons_append, List.cons_append, firstFree, firstFree, ih]

/-- Where the first free block is one of some blocks, what comes behind them does not matter. -/
theorem firstFree_left {p : Nat} {before after : List Block}
    (lt : firstFree head p (before ++ after) < p + extent head before) (after' : List Block) :
    firstFree head p (before ++ after') = firstFree head p (before ++ after) := by
  induction before generalizing p with
  | nil =>
    have low := (firstFree_bounds head p after).1
    rw [List.nil_append, extent] at lt
    omega
  | cons b before ih =>
    rw [List.cons_append, firstFree, extent] at lt
    rw [List.cons_append, List.cons_append, firstFree, firstFree]
    split_ifs at lt ⊢
    · exact ih (by omega)
    · rfl

/-- Where it is none of them, they are all used. -/
theorem firstFree_skip (positive : 0 < head) {p : Nat} {before after : List Block}
    (le : p + extent head before ≤ firstFree head p (before ++ after)) (after' : List Block) :
    firstFree head p (before ++ after') = firstFree head (p + extent head before) after' := by
  induction before generalizing p with
  | nil => rfl
  | cons b before ih =>
    rw [List.cons_append, firstFree, extent] at le
    rw [List.cons_append, firstFree, extent]
    split_ifs at le ⊢
    · rw [ih (by omega), Nat.add_assoc, Nat.add_assoc, Nat.add_assoc]
    · omega

/-- A block that becomes free may be the first one. -/
theorem firstFree_freed (head : Nat) (positive : 0 < head) (p : Nat) (before : List Block) (n : Nat) (after : List Block) :
    firstFree head p (before ++ ⟨n, false⟩ :: after) =
      if p + extent head before < firstFree head p (before ++ ⟨n, true⟩ :: after) then p + extent head before
      else firstFree head p (before ++ ⟨n, true⟩ :: after) := by
  induction before generalizing p with
  | nil =>
    have low := (firstFree_bounds head (p + head + n) after).1
    rw [List.nil_append, List.nil_append, firstFree, firstFree, if_neg Bool.false_ne_true, if_pos rfl, extent,
      if_pos (by dsimp only; omega), Nat.add_zero]
  | cons b before ih =>
    rw [List.cons_append, List.cons_append, firstFree, firstFree, extent]
    split_ifs with used less less
    · rw [ih, if_pos (by omega)]
      omega
    · rw [ih, if_neg (by omega)]
    · omega
    · rfl

theorem firstFree_cases (head p : Nat) (bs : List Block) :
    (∃ before n after, bs = before ++ ⟨n, false⟩ :: after ∧ (∀ b ∈ before, b.used = true) ∧
      firstFree head p bs = p + extent head before) ∨
    ((∀ b ∈ bs, b.used = true) ∧ firstFree head p bs = p + extent head bs) := by
  induction bs generalizing p with
  | nil => exact .inr ⟨List.forall_mem_nil _, rfl⟩
  | cons b bs ih =>
    rw [firstFree]
    split_ifs with used
    · rcases ih (p + head + b.size) with ⟨before, n, after, rfl, all, first⟩ | ⟨all, first⟩
      · refine .inl ⟨b :: before, n, after, rfl, List.forall_mem_cons.2 ⟨used, all⟩, ?_⟩
        rw [first, extent]
        omega
      · refine .inr ⟨List.forall_mem_cons.2 ⟨used, all⟩, ?_⟩
        rw [first, extent]
        omega
    · rw [Bool.not_eq_true] at used
      exact .inl ⟨[], b.size, bs, by rw [← used]; rfl, List.forall_mem_nil _, rfl⟩

/-! ## Free neighbours -/

theorem coalesced_append_cons {before after : List Block} {b : Block} : Coalesced (before ++ b :: after) ↔
    Coalesced (before ++ [b]) ∧ Coalesced (b :: after) :=
  List.isChain_split

theorem Coalesced.left {before after : List Block} (coalesced : Coalesced (before ++ after)) : Coalesced before :=
  List.IsChain.left_of_append coalesced

theorem Coalesced.right {before after : List Block} (coalesced : Coalesced (before ++ after)) : Coalesced after :=
  List.IsChain.right_of_append coalesced

/-- A used block may follow anything. -/
theorem Coalesced.snoc_used {before : List Block} {b : Block} (coalesced : Coalesced before) (used : b.used = true) :
    Coalesced (before ++ [b]) :=
  List.isChain_append.2 ⟨coalesced, List.isChain_singleton b, fun _ _ c mem => by
    cases mem
    exact .inr used⟩

theorem Coalesced.cons_used {after : List Block} {b : Block} (coalesced : Coalesced after) (used : b.used = true) :
    Coalesced (b :: after) :=
  List.isChain_cons.2 ⟨fun _ _ => .inl used, coalesced⟩

/-- What stands next to a free block may stand next to another. -/
theorem Coalesced.resize {before after : List Block} {n n' : Nat}
    (coalesced : Coalesced (before ++ ⟨n, false⟩ :: after)) :
    Coalesced (before ++ ⟨n', false⟩ :: after) := by
  obtain ⟨front, rest⟩ := coalesced_append_cons.1 coalesced
  obtain ⟨first, single, last⟩ := List.isChain_append.1 front
  obtain ⟨next, rest⟩ := List.isChain_cons.1 rest
  refine coalesced_append_cons.2 ⟨List.isChain_append.2 ⟨first, List.isChain_singleton _, ?_⟩,
    List.isChain_cons.2 ⟨next, rest⟩⟩
  intro a mem b here
  cases here
  exact last a mem ⟨n, false⟩ rfl

theorem Coalesced.resize_head {after : List Block} {n n' : Nat} (coalesced : Coalesced (⟨n, false⟩ :: after)) :
    Coalesced (⟨n', false⟩ :: after) :=
  List.isChain_cons.2 (List.isChain_cons.1 coalesced)

/-- Where nothing is used there is one block. -/
theorem eq_single_of_unused {bs : List Block} (coalesced : Coalesced bs) (unused : spans head true 0 bs = [])
    (some : bs ≠ []) : ∃ n, bs = [⟨n, false⟩] := by
  have free : ∀ b ∈ bs, b.used = false := by
    intro b mem
    by_contra used
    rw [Bool.not_eq_false] at used
    obtain ⟨before, after, rfl⟩ := List.append_of_mem mem
    have here : (0 + extent head before + head, b.size) ∈ spans head true 0 (before ++ b :: after) :=
      mem_spans.2 ⟨before, after, by rw [← used], rfl⟩
    rw [unused] at here
    cases here
  cases bs with
  | nil => exact absurd rfl some
  | cons b bs =>
    have first := free b List.mem_cons_self
    cases bs with
    | nil => exact ⟨b.size, by rw [← first]⟩
    | cons c bs =>
      have next := free c (List.mem_cons_of_mem b List.mem_cons_self)
      rcases (List.isChain_cons_cons.1 coalesced).1 with used | used
      · rw [first] at used
        cases used
      · rw [next] at used
        cases used

end Blocks
