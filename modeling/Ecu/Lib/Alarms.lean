import Mathlib

/-!
# Alarms in the order of their times

A queue is kept in the order of the times for which its members are set. A new one is put behind all that are not later,
so that of two with the same time the one set first is in front. A clock of `m` ticks wraps around; of two times that
are near enough to each other the difference still tells which is the later one.
-/

namespace Alarms

/-! ## A clock that wraps around -/

/-- The ticks from `b` to `a`. -/
def gap (m a b : Nat) : Nat :=
  (a + (m - b % m)) % m

theorem gap_of_le {m a b : Nat} (le : b ≤ a) (near : a - b < m) : gap m (a % m) (b % m) = a - b := by
  have pos : 0 < m := Nat.zero_lt_of_lt near
  have less := Nat.mod_lt b pos
  rw [gap, Nat.mod_mod, Nat.add_mod, Nat.mod_mod, ← Nat.add_mod]
  have split : a + (m - b % m) = a - b + m * (b / m + 1) := by
    have parts := Nat.div_add_mod b m
    rw [Nat.mul_add, Nat.mul_one]
    omega
  rw [split, Nat.add_mul_mod_self_left, Nat.mod_eq_of_lt near]

theorem gap_of_lt {m a b : Nat} (lt : a < b) (near : b - a < m) : gap m (a % m) (b % m) = m - (b - a) := by
  have pos : 0 < m := Nat.zero_lt_of_lt near
  have less := Nat.mod_lt b pos
  rw [gap, Nat.mod_mod, Nat.add_mod, Nat.mod_mod, ← Nat.add_mod]
  have split : a + (m - b % m) + (b - a) = m * (b / m + 1) := by
    have parts := Nat.div_add_mod b m
    rw [Nat.mul_add, Nat.mul_one]
    omega
  by_cases large : m ≤ a + (m - b % m)
  · have : a + (m - b % m) = m - (b - a) + m * (b / m) := by
      rw [Nat.mul_add, Nat.mul_one] at split
      omega
    rw [this, Nat.add_mul_mod_self_left, Nat.mod_eq_of_lt]
    omega
  · have small := Nat.mod_eq_of_lt (Nat.lt_of_not_le large)
    rw [small]
    have zero : b / m = 0 := by
      rw [Nat.mul_add, Nat.mul_one] at split
      by_contra some
      have : m ≤ m * (b / m) := Nat.le_mul_of_pos_right m (Nat.pos_of_ne_zero some)
      omega
    rw [zero] at split
    omega

/-- Less than half a turn from `b` to `a` is what is not before `b`. -/
theorem gap_lt_iff {m half a b : Nat} (after : a < b + half) (before : b + half ≤ a + m) (le : half ≤ m) :
    gap m (a % m) (b % m) < half ↔ b ≤ a := by
  by_cases order : b ≤ a
  · refine iff_of_true ?_ order
    rw [gap_of_le order (by omega)]
    omega
  · refine iff_of_false ?_ order
    have lt := Nat.lt_of_not_le order
    by_cases near : b - a < m
    · rw [gap_of_lt lt near]
      omega
    · omega

/-! ## The queue -/

section Queue

variable {ι : Type}

/-- Behind all that are not later. -/
def place (time : ι → Nat) (a : ι) : List ι → List ι
  | [] => [a]
  | b :: q => if time a < time b then a :: b :: q else b :: place time a q

def Sorted (time : ι → Nat) (q : List ι) : Prop :=
  q.Pairwise fun a b => time a ≤ time b

variable {time : ι → Nat} {a b : ι} {q : List ι}

theorem place_perm (time : ι → Nat) (a : ι) (q : List ι) : (place time a q).Perm (a :: q) := by
  induction q with
  | nil => exact List.Perm.refl _
  | cons b q ih =>
    rw [place]
    split_ifs
    · exact List.Perm.refl _
    · exact (ih.cons b).trans (List.Perm.swap a b q)

theorem mem_place : b ∈ place time a q ↔ b = a ∨ b ∈ q := by
  rw [(place_perm time a q).mem_iff, List.mem_cons]

theorem place_nodup (nodup : q.Nodup) (new : a ∉ q) : (place time a q).Nodup :=
  (place_perm time a q).nodup_iff.2 (List.nodup_cons.2 ⟨new, nodup⟩)

theorem place_sorted (sorted : Sorted time q) : Sorted time (place time a q) := by
  induction q with
  | nil => exact List.pairwise_singleton _ a
  | cons b q ih =>
    obtain ⟨first, rest⟩ := List.pairwise_cons.1 sorted
    rw [place]
    split_ifs with earlier
    · refine List.pairwise_cons.2 ⟨fun c mem => ?_, sorted⟩
      rcases List.mem_cons.1 mem with rfl | mem
      · exact earlier.le
      · exact earlier.le.trans (first c mem)
    · refine List.pairwise_cons.2 ⟨fun c mem => ?_, ih rest⟩
      rcases mem_place.1 mem with rfl | mem
      · exact Nat.le_of_not_lt earlier
      · exact first c mem

theorem Sorted.congr {time' : ι → Nat} (sorted : Sorted time q) (same : ∀ b ∈ q, time' b = time b) :
    Sorted time' q :=
  List.Pairwise.imp_of_mem (fun mem mem' le => by rwa [same _ mem, same _ mem']) sorted

/-- One is in front of another. -/
def Before (a b : ι) (q : List ι) : Prop :=
  [a, b].Sublist q

theorem Before.cons_of_ne {c : ι} (before : Before a b (c :: q)) (ne : c ≠ a) : Before a b q := by
  cases before with
  | cons _ sub => exact sub
  | cons_cons _ _ => exact absurd rfl ne

/-- A new one does not come in front of what is not later. -/
theorem place_behind (mem : b ∈ q) (sorted : Sorted time q) (le : time b ≤ time a) : Before b a (place time a q) := by
  induction q with
  | nil => exact absurd mem List.not_mem_nil
  | cons c q ih =>
    obtain ⟨first, rest⟩ := List.pairwise_cons.1 sorted
    have notLater : ¬ time a < time c := by
      rcases List.mem_cons.1 mem with rfl | mem
      · exact Nat.not_lt.2 le
      · exact Nat.not_lt.2 ((first b mem).trans le)
    rw [place, if_neg notLater]
    rcases List.mem_cons.1 mem with rfl | mem
    · exact List.Sublist.cons_cons b (List.singleton_sublist.2 (mem_place.2 (.inl rfl)))
    · exact List.Sublist.cons c (ih mem rest)

theorem place_sublist (time : ι → Nat) (a : ι) (q : List ι) : q.Sublist (place time a q) := by
  induction q with
  | nil => exact List.nil_sublist _
  | cons b q ih =>
    rw [place]
    split_ifs
    · exact List.sublist_cons_self a _
    · exact List.Sublist.cons_cons b ih

end Queue

end Alarms
