import Mathlib.Data.List.Induction
import Mathlib.Data.List.TakeWhile
import Mathlib.Tactic.Ring

/-!
# Fixed-width decimal fields

A number is printed as `%d` prints it and brought to a width `w`: shorter texts get zeros on the
left, longer ones keep their first `w` characters. A reader takes the field for a number when it
is made of digits. The field gives its number back exactly when the number is not negative and below
`10 ^ w` (`read_fixed_iff`); otherwise the reader fails or finds another number.
-/

namespace Decimal

def zero : UInt8 := 0x30
def minus : UInt8 := 0x2D

/-- `%d` of a natural number. -/
def text (n : Nat) : List UInt8 :=
  (Nat.toDigits 10 n).map Char.toUInt8

/-- `%d`. -/
def intText (v : Int) : List UInt8 :=
  if v < 0 then minus :: text v.natAbs else text v.natAbs

/-- Zeros on the left up to the width, at most the width's characters of a longer text. -/
def fit (w : Nat) (t : List UInt8) : List UInt8 :=
  List.replicate (w - t.length) zero ++ t.take w

def fixed (w : Nat) (v : Int) : List UInt8 :=
  fit w (intText v)

def IsDigit (b : UInt8) : Prop :=
  0x30 ≤ b ∧ b ≤ 0x39

instance (b : UInt8) : Decidable (IsDigit b) :=
  inferInstanceAs (Decidable (_ ∧ _))

instance (bytes : List UInt8) : Decidable (∀ b ∈ bytes, IsDigit b) :=
  List.decidableBAll _ bytes

def value (bytes : List UInt8) : Nat :=
  bytes.foldl (fun n b => 10 * n + (b.toNat - 48)) 0

/-- The number that a field shows. -/
def read? (bytes : List UInt8) : Option Int :=
  if bytes ≠ [] ∧ ∀ b ∈ bytes, IsDigit b then some (value bytes) else none

/-! ## Texts -/

theorem digit_val {c : Char} (isDigit : c.isDigit) :
    IsDigit c.toUInt8 ∧ c.toUInt8.toNat = c.toNat := by
  have bounds : 48 ≤ c.toNat ∧ c.toNat ≤ 57 := by
    simpa [Char.isDigit, UInt32.le_iff_toNat_le] using isDigit
  have same : c.toUInt8.toNat = c.toNat := by
    show c.toNat % 256 = c.toNat
    omega
  refine ⟨⟨?_, ?_⟩, same⟩
  · exact UInt8.le_iff_toNat_le.2 (by rw [same]; exact bounds.1)
  · exact UInt8.le_iff_toNat_le.2 (by rw [same]; exact bounds.2)

theorem text_digits (n : Nat) : ∀ b ∈ text n, IsDigit b := by
  intro b mem
  obtain ⟨c, inDigits, rfl⟩ := List.mem_map.1 mem
  exact (digit_val (Nat.isDigit_of_mem_toDigits (by decide) (by decide) inDigits)).1

theorem text_ne_nil (n : Nat) : text n ≠ [] := by
  simp [text]

theorem length_text_le_iff {n w : Nat} (positive : 0 < w) : (text n).length ≤ w ↔ n < 10 ^ w := by
  rw [text, List.length_map]
  exact Nat.length_toDigits_le_iff (by decide) positive

theorem foldl_value (cs : List Char) (digits : ∀ c ∈ cs, c.isDigit) (n : Nat) :
    (cs.map Char.toUInt8).foldl (fun n b => 10 * n + (b.toNat - 48)) n = Nat.ofDigitChars 10 cs n := by
  induction cs generalizing n with
  | nil => rfl
  | cons c cs ih =>
    rw [List.map_cons, List.foldl_cons, ih (fun d mem => digits d (List.mem_cons_of_mem c mem)),
      (digit_val (digits c List.mem_cons_self)).2, Nat.ofDigitChars_cons]
    rfl

theorem value_text (n : Nat) : value (text n) = n := by
  rw [value, text, foldl_value _ fun c mem => Nat.isDigit_of_mem_toDigits (by decide) (by decide) mem]
  exact Nat.ofDigitChars_ten_toDigits

theorem read_text (n : Nat) : read? (text n) = some (n : Int) := by
  rw [read?, if_pos ⟨text_ne_nil n, text_digits n⟩, value_text]

/-! ## Values -/

theorem foldl_lt (bytes : List UInt8) (digits : ∀ b ∈ bytes, IsDigit b) (n : Nat) :
    bytes.foldl (fun n b => 10 * n + (b.toNat - 48)) n < 10 ^ bytes.length * (n + 1) := by
  induction bytes generalizing n with
  | nil => simp
  | cons b bytes ih =>
    have low : b.toNat - 48 ≤ 9 := by
      have upper := UInt8.le_iff_toNat_le.1 (digits b List.mem_cons_self).2
      have : (0x39 : UInt8).toNat = 57 := rfl
      omega
    calc List.foldl _ (10 * n + (b.toNat - 48)) bytes
        < 10 ^ bytes.length * (10 * n + (b.toNat - 48) + 1) :=
          ih (fun d mem => digits d (List.mem_cons_of_mem b mem)) _
      _ ≤ 10 ^ bytes.length * (10 * (n + 1)) := Nat.mul_le_mul_left _ (by omega)
      _ = 10 ^ (b :: bytes).length * (n + 1) := by rw [List.length_cons, pow_succ]; ring

/-- A field of `w` digits shows a number below `10 ^ w`. -/
theorem value_lt (bytes : List UInt8) (digits : ∀ b ∈ bytes, IsDigit b) :
    value bytes < 10 ^ bytes.length := by
  have bound := foldl_lt bytes digits 0
  rwa [Nat.zero_add, Nat.mul_one] at bound

theorem value_zeros (k : Nat) (bytes : List UInt8) :
    value (List.replicate k zero ++ bytes) = value bytes := by
  unfold value
  rw [List.foldl_append]
  congr 1
  induction k with
  | zero => rfl
  | succ k ih => exact ih

theorem read_zeros (k : Nat) {bytes : List UInt8} {v : Int} (reads : read? bytes = some v) :
    read? (List.replicate k zero ++ bytes) = some v := by
  unfold read? at reads
  split at reads
  · rename_i shape
    have digits : ∀ b ∈ List.replicate k zero ++ bytes, IsDigit b := by
      intro b mem
      rcases List.mem_append.1 mem with mem | mem
      · rw [List.eq_of_mem_replicate mem]
        decide
      · exact shape.2 b mem
    rw [read?, if_pos ⟨fun empty => shape.1 (List.append_eq_nil_iff.1 empty).2, digits⟩, value_zeros]
    exact reads
  · cases reads

theorem read_some {bytes : List UInt8} {v : Int} (reads : read? bytes = some v) :
    0 ≤ v ∧ v < 10 ^ bytes.length ∧ ∀ b ∈ bytes, IsDigit b := by
  unfold read? at reads
  split at reads
  · rename_i shape
    cases reads
    have bound := value_lt bytes shape.2
    exact ⟨Int.natCast_nonneg _, by exact_mod_cast bound, shape.2⟩
  · cases reads

/-! ## Fields -/

theorem fit_length (w : Nat) (t : List UInt8) : (fit w t).length = w := by
  rw [fit, List.length_append, List.length_replicate, List.length_take]
  omega

@[simp] theorem fixed_length (w : Nat) (v : Int) : (fixed w v).length = w :=
  fit_length w _

theorem read_fit {w : Nat} {t : List UInt8} {v : Int} (short : t.length ≤ w) (reads : read? t = some v) :
    read? (fit w t) = some v := by
  rw [fit, List.take_of_length_le short]
  exact read_zeros _ reads

/-- A field gives its number back exactly when the number has no sign and no more digits than the
field. -/
theorem read_fixed_iff {w : Nat} (positive : 0 < w) (v : Int) :
    read? (fixed w v) = some v ↔ 0 ≤ v ∧ v < 10 ^ w := by
  constructor
  · intro reads
    have range := read_some reads
    rw [fixed_length] at range
    exact ⟨range.1, range.2.1⟩
  · intro ⟨nonneg, small⟩
    have cast : (v.natAbs : Int) = v := Int.natAbs_of_nonneg nonneg
    have short : (text v.natAbs).length ≤ w := by
      apply (length_text_le_iff positive).2
      rw [← cast] at small
      exact_mod_cast small
    rw [fixed, intText, if_neg (not_lt.2 nonneg)]
    apply read_fit short
    rw [read_text, cast]

/-- The characters of a field: digits and perhaps a sign. -/
theorem fixed_chars (w : Nat) (v : Int) : ∀ b ∈ fixed w v, IsDigit b ∨ b = minus := by
  intro b mem
  rcases List.mem_append.1 mem with mem | mem
  · rw [List.eq_of_mem_replicate mem]
    exact .inl (by decide)
  · have inText := List.mem_of_mem_take mem
    unfold intText at inText
    split at inText
    · rcases List.mem_cons.1 inText with sign | inText
      · exact .inr sign
      · exact .inl (text_digits _ b inText)
    · exact .inl (text_digits _ b inText)

theorem value_snoc (bytes : List UInt8) (b : UInt8) : value (bytes ++ [b]) = 10 * value bytes + (b.toNat - 48) := by
  rw [value, List.foldl_append]
  rfl

theorem value_append (front bytes : List UInt8) :
    value (front ++ bytes) = value front * 10 ^ bytes.length + value bytes := by
  induction bytes using List.reverseRecOn with
  | nil => rw [List.append_nil, List.length_nil, Nat.pow_zero, Nat.mul_one]; rfl
  | append_singleton bytes b ih =>
    rw [← List.append_assoc, value_snoc, value_snoc, ih, List.length_append, List.length_singleton, Nat.pow_succ]
    ring

/-- Digits of one length are told apart by their number. -/
theorem eq_of_value {a b : List UInt8} (digits : ∀ c ∈ a, IsDigit c) (digits' : ∀ c ∈ b, IsDigit c)
    (width : a.length = b.length) (same : value a = value b) : a = b := by
  induction a using List.reverseRecOn generalizing b with
  | nil => exact (List.length_eq_zero_iff.1 width.symm).symm
  | append_singleton a c ih =>
    rcases List.eq_nil_or_concat b with rfl | ⟨b, d, shape⟩
    · rw [List.length_append, List.length_nil] at width
      exact absurd width (Nat.succ_ne_zero _)
    · rw [List.concat_eq_append] at shape
      subst shape
      have first := digits c (List.mem_append_right a (List.mem_singleton_self c))
      have second := digits' d (List.mem_append_right b (List.mem_singleton_self d))
      have low (e : UInt8) (digit : IsDigit e) : 48 ≤ e.toNat ∧ e.toNat ≤ 57 :=
        ⟨UInt8.le_iff_toNat_le.1 digit.1, UInt8.le_iff_toNat_le.1 digit.2⟩
      have lowFirst := low c first
      have lowSecond := low d second
      rw [value_snoc, value_snoc] at same
      rw [List.length_append, List.length_append, List.length_singleton, List.length_singleton] at width
      have last : c = d := UInt8.toNat_inj.1 (by omega)
      have front := ih (fun e mem => digits e (List.mem_append_left [c] mem))
        (fun e mem => digits' e (List.mem_append_left [d] mem)) (Nat.succ.inj width) (by omega)
      rw [front, last]

/-- What is printed in a field of digits for its number is the field. -/
theorem fixed_value {field : List UInt8} (digits : ∀ b ∈ field, IsDigit b) (some : 0 < field.length) :
    fixed field.length (value field) = field := by
  have reads := (read_fixed_iff some (value field : Int)).2
    ⟨Int.natCast_nonneg _, by exact_mod_cast value_lt field digits⟩
  refine eq_of_value (read_some reads).2.2 digits (fit_length _ _) ?_
  unfold read? at reads
  split at reads
  · exact_mod_cast Option.some_inj.1 reads
  · cases reads

/-- A number that is not too large has digits only, and they give it back. -/
theorem value_fixed {w n : Nat} (some : 0 < w) (small : n < 10 ^ w) :
    (∀ b ∈ fixed w (n : Int), IsDigit b) ∧ value (fixed w (n : Int)) = n := by
  have reads := (read_fixed_iff some (n : Int)).2 ⟨Int.natCast_nonneg n, by exact_mod_cast small⟩
  refine ⟨(read_some reads).2.2, ?_⟩
  unfold read? at reads
  split at reads
  · exact_mod_cast Option.some_inj.1 reads
  · cases reads

/-- As many digits as the field has. -/
theorem text_eq_fixed {w n : Nat} (low : 10 ^ w ≤ n) (high : n < 10 ^ (w + 1)) : text n = fixed (w + 1) (n : Int) := by
  have long : (text n).length = w + 1 := by
    apply Nat.le_antisymm ((length_text_le_iff (Nat.succ_pos w)).2 high)
    by_contra less
    rcases Nat.eq_zero_or_pos w with rfl | positive
    · exact text_ne_nil n (List.length_eq_zero_iff.1 (by omega))
    · exact absurd ((length_text_le_iff positive).1 (by omega)) (Nat.not_lt.2 low)
  rw [fixed, fit, intText, if_neg (Int.not_lt.2 (Int.natCast_nonneg n)), Int.natAbs_natCast, long, Nat.sub_self,
    List.replicate_zero, List.nil_append, ← long, List.take_length]

theorem fixed_injective {w a b : Nat} (some : 0 < w) (left : a < 10 ^ w) (right : b < 10 ^ w)
    (same : fixed w (a : Int) = fixed w (b : Int)) : a = b := by
  have readLeft := (read_fixed_iff some (a : Int)).2 ⟨Int.natCast_nonneg _, by exact_mod_cast left⟩
  have readRight := (read_fixed_iff some (b : Int)).2 ⟨Int.natCast_nonneg _, by exact_mod_cast right⟩
  rw [same, readRight] at readLeft
  exact_mod_cast (Option.some_inj.1 readLeft).symm

end Decimal
