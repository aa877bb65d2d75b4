import Mathlib

/-!
# The smallest key seen, with 0 for none

A loop keeps an element with its key and takes the next one if its key is smaller, or if the key kept is 0, with which
the loop starts. A key that is 0 therefore makes it start again: over keys that are not negative it ends with the
smallest of those behind the last 0 (`foldl_keep`). A negative key is never given up for one that is not
(`foldl_negative`).
-/

namespace Smallest

variable {α : Type*}

/-! ## The first of the smallest -/

/-- `argmin` by place: the keys in front are larger, those behind are not smaller. -/
theorem argmin_split_iff {β : Type*} [LinearOrder β] {f : α → β} {l : List α} {m : α} : l.argmin f = some m ↔
    ∃ front rest, l = front ++ m :: rest ∧ (∀ a ∈ front, f m < f a) ∧ ∀ a ∈ rest, f m ≤ f a := by
  constructor
  · intro least
    induction l with
    | nil => cases least
    | cons a l ih =>
      rw [List.argmin_cons] at least
      cases here : l.argmin f with
      | none =>
        rw [here] at least
        obtain rfl := Option.some.inj least
        rw [List.argmin_eq_none.1 here]
        exact ⟨[], [], rfl, by simp, by simp⟩
      | some c =>
        rw [here] at least ih
        dsimp only at least
        split_ifs at least with less
        · obtain rfl := Option.some.inj least
          obtain ⟨front, rest, rfl, larger, others⟩ := ih rfl
          exact ⟨a :: front, rest, rfl, List.forall_mem_cons.2 ⟨less, larger⟩, others⟩
        · obtain rfl := Option.some.inj least
          exact ⟨[], l, rfl, by simp, fun b mem => (not_lt.1 less).trans (List.le_of_mem_argmin mem here)⟩
  · rintro ⟨front, rest, rfl, larger, others⟩
    induction front with
    | nil =>
      rw [List.nil_append, List.argmin_cons]
      cases here : rest.argmin f with
      | none => rfl
      | some c => exact if_neg (not_lt.2 (others c (List.argmin_mem here)))
    | cons a front ih =>
      obtain ⟨less, larger⟩ := List.forall_mem_cons.1 larger
      rw [List.cons_append, List.argmin_cons, ih larger]
      exact if_pos less

/-! ## The loop -/

variable (key : α → Int)

/-- A round, on the key and the element that are kept. -/
def keep (s : Int × α) (a : α) : Int × α :=
  if key a < s.1 ∨ s.1 = 0 then (key a, a) else s

/-- The elements behind the last one with the key 0. -/
def behindZero (l : List α) : List α :=
  l.rtakeWhile fun a => key a ≠ 0

variable {key} (start : α)

theorem foldl_keep_snoc (l : List α) (a : α) :
    (l ++ [a]).foldl (keep key) (0, start) = keep key (l.foldl (keep key) (0, start)) a := by
  rw [List.foldl_append, List.foldl_cons, List.foldl_nil]

/-- What is kept is an element with its key. -/
theorem foldl_mem (l : List α) : (l.foldl (keep key) (0, start)).1 ≠ 0 →
    (l.foldl (keep key) (0, start)).2 ∈ l ∧
      key (l.foldl (keep key) (0, start)).2 = (l.foldl (keep key) (0, start)).1 := by
  induction l using List.reverseRecOn with
  | nil => exact fun other => absurd rfl other
  | append_singleton l a ih =>
    rw [foldl_keep_snoc]
    generalize l.foldl (keep key) (0, start) = s at ih
    unfold keep
    split_ifs with taken
    · exact fun _ => ⟨List.mem_append_right _ (List.mem_singleton_self _), rfl⟩
    · exact fun other => ⟨List.mem_append_left _ (ih other).1, (ih other).2⟩

/-- A negative key stays. -/
theorem foldl_negative {l : List α} {a : α} (mem : a ∈ l) (negative : key a < 0) :
    (l.foldl (keep key) (0, start)).1 < 0 := by
  induction l using List.reverseRecOn with
  | nil => cases mem
  | append_singleton l last ih =>
    rw [foldl_keep_snoc]
    generalize l.foldl (keep key) (0, start) = s at ih
    unfold keep
    rcases List.mem_append.1 mem with before | isLast
    · have less := ih before
      split_ifs with taken
      · rcases taken with smaller | zero
        · exact smaller.trans less
        · exact absurd less (by omega)
      · exact less
    · obtain rfl := List.mem_singleton.1 isLast
      split_ifs with taken
      · exact negative
      · obtain ⟨notLess, notZero⟩ := not_or.1 taken
        omega

theorem behindZero_snoc (l : List α) (a : α) : behindZero key (l ++ [a]) =
    if key a = 0 then [] else behindZero key l ++ [a] := by
  unfold behindZero
  rw [List.rtakeWhile_concat]
  by_cases zero : key a = 0
  · rw [if_pos zero, if_neg (by simpa using zero)]
  · rw [if_neg zero, if_pos (by simpa using zero)]

theorem behindZero_mem {l : List α} {a : α} (mem : a ∈ behindZero key l) : a ∈ l ∧ key a ≠ 0 :=
  ⟨(List.rtakeWhile_suffix _ _).subset mem, by simpa using List.mem_rtakeWhile_imp mem⟩

/-- Without negative keys the first of the smallest behind the last 0 is kept. -/
theorem foldl_keep {l : List α} (notNegative : ∀ a ∈ l, 0 ≤ key a) :
    (∀ m, (behindZero key l).argmin key = some m → l.foldl (keep key) (0, start) = (key m, m)) ∧
      ((behindZero key l).argmin key = none → (l.foldl (keep key) (0, start)).1 = 0) := by
  induction l using List.reverseRecOn with
  | nil => exact ⟨fun m found => (by cases found), fun _ => rfl⟩
  | append_singleton l a ih =>
    obtain ⟨found, missing⟩ := ih fun a mem => notNegative a (List.mem_append_left _ mem)
    have last := notNegative a (List.mem_append_right _ (List.mem_singleton_self _))
    rw [foldl_keep_snoc, behindZero_snoc, keep]
    by_cases zero : key a = 0
    · rw [if_pos zero, List.argmin_nil]
      refine ⟨fun m none => (by cases none), fun _ => ?_⟩
      split_ifs with taken
      · exact zero
      · obtain ⟨notLess, notZero⟩ := not_or.1 taken
        cases here : (behindZero key l).argmin key with
        | none => exact absurd (missing here) notZero
        | some m =>
          have least := notNegative m (List.mem_append_left _ (behindZero_mem (List.argmin_mem here)).1)
          rw [found m here] at notLess notZero
          dsimp only at notLess notZero
          omega
    · rw [if_neg zero, List.argmin_concat]
      cases here : (behindZero key l).argmin key with
      | none =>
        refine ⟨fun m same => ?_, fun none => by cases none⟩
        obtain rfl := Option.some_inj.1 same
        exact if_pos (.inr (missing here))
      | some m =>
        have notZero := (behindZero_mem (List.argmin_mem here)).2
        rw [found m here]
        dsimp only
        by_cases less : key a < key m
        · rw [if_pos less, if_pos (.inl less)]
          exact ⟨fun b same => Option.some_inj.1 same ▸ rfl, fun none => by cases none⟩
        · rw [if_neg less, if_neg (not_or.2 ⟨less, notZero⟩)]
          exact ⟨fun b same => Option.some_inj.1 same ▸ rfl, fun none => by cases none⟩

end Smallest
