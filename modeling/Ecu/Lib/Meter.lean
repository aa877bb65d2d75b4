import Mathlib.Algebra.Order.Group.Defs
import Mathlib.Algebra.Order.Group.Unbundled.Basic
import Mathlib.Algebra.BigOperators.Group.List.Lemmas

/-!
# Meters that are read again and again

A meter shows accumulated amounts, one for each channel, and a time. What was used between two
readings is the difference, as long as the second continues the first; a meter that has restarted
shows what was used since. `Rules` says which readings are rejected and which continue the ones
before. Differences telescope (`sum_differences`); a cap on each of them can only lose
(`sum_capped_le`), and loses nothing exactly when no difference exceeds it (`sum_capped_eq_iff`).
-/

namespace Meter

variable {ι G : Type} [AddCommGroup G]

/-! ## Differences -/

/-- The differences of successive amounts, from a first one on. -/
def differences (base : G) : List G → List G
  | [] => []
  | x :: xs => (x - base) :: differences x xs

/-- Differences telescope. -/
theorem sum_differences (base : G) (xs : List G) : (differences base xs).sum = xs.getLastD base - base := by
  induction xs generalizing base with
  | nil => simp [differences]
  | cons x xs ih =>
    rw [differences, List.sum_cons, ih, List.getLastD_cons, add_comm, sub_add_sub_cancel]

variable [LinearOrder G]

/-- A cap can only lose. -/
theorem sum_capped_le [IsOrderedAddMonoid G] (cap : G) (ds : List G) : (ds.map (min · cap)).sum ≤ ds.sum := by
  induction ds with
  | nil => exact le_refl 0
  | cons d ds ih => exact add_le_add (min_le_left d cap) ih

/-- It loses nothing exactly when nothing exceeds it. -/
theorem sum_capped_eq_iff [IsOrderedAddMonoid G] (cap : G) (ds : List G) : (ds.map (min · cap)).sum = ds.sum ↔ ∀ d ∈ ds,
    d ≤ cap := by
  induction ds with
  | nil => simp
  | cons d ds ih =>
    rw [List.map_cons, List.sum_cons, List.sum_cons, List.forall_mem_cons, ← ih]
    constructor
    · intro same
      have rest := sum_capped_le cap ds
      have first := min_le_left d cap
      have firstEq : min d cap = d := by
        apply le_antisymm first
        by_contra less
        exact absurd same (ne_of_lt (add_lt_add_of_lt_of_le (not_le.1 less) rest))
      rw [firstEq] at same
      exact ⟨min_eq_left_iff.1 firstEq, add_left_cancel same⟩
    · rintro ⟨small, same⟩
      rw [min_eq_left small, same]

/-! ## Readings -/

/-- The amounts on the channels, and the time. -/
structure Reading (ι G : Type) where
  acc : ι → G
  time : Int

variable (ι G) in
/-- How successive readings are judged. -/
structure Rules where
  /-- The reading is not used. -/
  rejects : Reading ι G → Reading ι G → Prop
  /-- The reading continues the one before. -/
  continues : Reading ι G → Reading ι G → Prop
  /-- The most that counts for one reading. -/
  cap : G
  decidableRejects : ∀ base r, Decidable (rejects base r)
  grows : ∀ base r, continues base r → ∀ i, base.acc i ≤ r.acc i
  cap_nonneg : 0 ≤ cap

namespace Rules

variable (rules : Rules ι G)

instance (base r : Reading ι G) : Decidable (rules.rejects base r) :=
  rules.decidableRejects base r

/-- The readings that are used, after the reading `base`. -/
def accepted : Reading ι G → List (Reading ι G) → List (Reading ι G)
  | _, [] => []
  | base, r :: rs => if rules.rejects base r then accepted base rs else r :: accepted r rs

/-- Every reading that is used continues the one used before. -/
def Advancing (base : Reading ι G) (rs : List (Reading ι G)) : Prop :=
  List.IsChain rules.continues (base :: rules.accepted base rs)

/-- What was used on a channel from one accepted reading to the next. -/
def used (i : ι) (base : Reading ι G) (rs : List (Reading ι G)) : List G :=
  differences (base.acc i) ((rules.accepted base rs).map (·.acc i))

theorem accepted_cons_rejected {base r : Reading ι G} (rejected : rules.rejects base r) (rs : List (Reading ι G)) :
    rules.accepted base (r :: rs) = rules.accepted base rs := by
  rw [accepted, if_pos rejected]

theorem accepted_cons {base r : Reading ι G} (used : ¬ rules.rejects base r) (rs : List (Reading ι G)) :
    rules.accepted base (r :: rs) = r :: rules.accepted r rs := by
  rw [accepted, if_neg used]

theorem Advancing.head {rules : Rules ι G} {base r : Reading ι G} {rs : List (Reading ι G)}
    (advancing : rules.Advancing base (r :: rs)) (used : ¬ rules.rejects base r) :
    rules.continues base r ∧ rules.Advancing r rs := by
  rw [Advancing, rules.accepted_cons used] at advancing
  exact List.isChain_cons_cons.1 advancing

/-- The sum of what was used is the last accepted amount less the first one. -/
theorem sum_used (i : ι) (base : Reading ι G) (rs : List (Reading ι G)) :
    (rules.used i base rs).sum = ((rules.accepted base rs).getLastD base).acc i - base.acc i := by
  rw [used, sum_differences, List.getLastD_map]

end Rules

end Meter
