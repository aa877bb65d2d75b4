import Mathlib.Data.Rat.Floor
import Mathlib.Tactic.FieldSimp
import Mathlib.Tactic.Linarith
import Mathlib.Tactic.Positivity
import Ecu.Lib.Decimal

/-!
# Numbers with a fixed number of decimals

`print` shows a rational number with `p` decimals, rounded half to even, the way `%lf` does. `parse` reads a
number up to the first character that does not belong to it. What is read back is the rounded number
(`parse_print`), whatever follows the text.
-/

namespace FixedPoint

open Decimal

/-- The nearest integer; the even one of two. -/
def halfEven (x : ℚ) : Int :=
  if x - ⌊x⌋ < 1 / 2 then ⌊x⌋
  else if 1 / 2 < x - ⌊x⌋ then ⌊x⌋ + 1
  else if ⌊x⌋ % 2 = 0 then ⌊x⌋ else ⌊x⌋ + 1

theorem halfEven_cases (x : ℚ) : halfEven x = ⌊x⌋ ∨ halfEven x = ⌊x⌋ + 1 ∧ (⌊x⌋ : ℚ) < x := by
  unfold halfEven
  split_ifs with low high even
  · exact .inl rfl
  · exact .inr ⟨rfl, by linarith⟩
  · exact .inl rfl
  · exact .inr ⟨rfl, by linarith⟩

theorem halfEven_nonneg {x : ℚ} (nonneg : 0 ≤ x) : 0 ≤ halfEven x := by
  have floor : 0 ≤ ⌊x⌋ := Int.floor_nonneg.2 nonneg
  rcases halfEven_cases x with same | ⟨up, -⟩
  · omega
  · omega

/-- An integer bound is kept. -/
theorem halfEven_le {x : ℚ} {n : Int} (below : x ≤ n) : halfEven x ≤ n := by
  rcases halfEven_cases x with same | ⟨up, above⟩
  · rw [same]
    exact_mod_cast (Int.floor_le x).trans below
  · have less : (⌊x⌋ : ℚ) < n := lt_of_lt_of_le above below
    have := Int.cast_lt.1 less
    omega

theorem halfEven_intCast (n : Int) : halfEven n = n := by
  have low := halfEven_cases (n : ℚ)
  rw [Int.floor_intCast] at low
  rcases low with same | ⟨-, less⟩
  · exact same
  · exact absurd less (lt_irrefl (n : ℚ))

theorem halfEven_natCast (n : Nat) : halfEven n = n :=
  halfEven_intCast n

theorem halfEven_zero : halfEven 0 = 0 := by
  rcases halfEven_cases 0 with same | ⟨-, above⟩
  · rw [same, Int.floor_zero]
  · rw [Int.floor_zero] at above
    exact absurd above (by norm_num)

/-- The number that is shown. -/
def rounded (p : Nat) (x : ℚ) : ℚ :=
  halfEven (x * 10 ^ p) / 10 ^ p

theorem rounded_nonneg (p : Nat) {x : ℚ} (nonneg : 0 ≤ x) : 0 ≤ rounded p x := by
  have whole : (0 : ℚ) ≤ halfEven (x * 10 ^ p) := by
    exact_mod_cast halfEven_nonneg (mul_nonneg nonneg (by positivity))
  exact div_nonneg whole (by positivity)

theorem rounded_le (p : Nat) {x : ℚ} {n : Int} (below : x ≤ n) : rounded p x ≤ n := by
  have positive : (0 : ℚ) < 10 ^ p := by positivity
  have scaled : x * 10 ^ p ≤ ((n * 10 ^ p : Int) : ℚ) := by
    push_cast
    exact mul_le_mul_of_nonneg_right below positive.le
  have whole : (halfEven (x * 10 ^ p) : ℚ) ≤ ((n * 10 ^ p : Int) : ℚ) := by
    exact_mod_cast halfEven_le scaled
  rw [rounded, div_le_iff₀ positive]
  push_cast at whole
  exact whole

/-- The numbers that are shown as they are. -/
theorem rounded_eq_iff {p : Nat} {x : ℚ} : rounded p x = x ↔ ∃ n : Int, x = n / 10 ^ p := by
  have scale : (10 : ℚ) ^ p ≠ 0 := by positivity
  constructor
  · intro same
    exact ⟨halfEven (x * 10 ^ p), same.symm⟩
  · rintro ⟨n, rfl⟩
    rw [rounded, div_mul_cancel₀ _ scale, halfEven_intCast]

theorem rounded_rounded (p : Nat) (x : ℚ) : rounded p (rounded p x) = rounded p x :=
  rounded_eq_iff.2 ⟨halfEven (x * 10 ^ p), rfl⟩

theorem rounded_add {p : Nat} {x y : ℚ} (left : rounded p x = x) (right : rounded p y = y) :
    rounded p (x + y) = x + y := by
  obtain ⟨m, rfl⟩ := rounded_eq_iff.1 left
  obtain ⟨n, rfl⟩ := rounded_eq_iff.1 right
  refine rounded_eq_iff.2 ⟨m + n, ?_⟩
  rw [Int.cast_add, add_div]

/-! ## Texts -/

def dot : UInt8 := 0x2E
def plus : UInt8 := 0x2B

/-- The digits of a rounded number without its sign. -/
def digits (p n : Nat) : List UInt8 :=
  text (n / 10 ^ p) ++ dot :: fixed p (n % 10 ^ p : Nat)

/-- `%lf` with `p` decimals. -/
def print (p : Nat) (x : ℚ) : List UInt8 :=
  let n := (halfEven (x * 10 ^ p)).natAbs
  if x < 0 then minus :: digits p n else digits p n

def isDigit (b : UInt8) : Bool :=
  0x30 ≤ b && b ≤ 0x39

/-- Digits with decimals behind a point. -/
def parseDigits (s : List UInt8) : ℚ :=
  match s.dropWhile isDigit with
  | 0x2E :: rest =>
    value (s.takeWhile isDigit) + value (rest.takeWhile isDigit) / 10 ^ (rest.takeWhile isDigit).length
  | _ => value (s.takeWhile isDigit)

/-- A number with a sign or without. -/
def parse : List UInt8 → ℚ
  | 0x2D :: rest => -parseDigits rest
  | 0x2B :: rest => parseDigits rest
  | rest => parseDigits rest

theorem isDigit_iff {b : UInt8} : isDigit b = true ↔ IsDigit b := by
  rw [isDigit, Bool.and_eq_true, decide_eq_true_iff, decide_eq_true_iff]
  rfl

/-- A run of digits before something else. -/
theorem takeWhile_digits {run rest : List UInt8} (all : ∀ b ∈ run, IsDigit b)
    (stops : ∀ b ∈ rest.head?, ¬ IsDigit b) :
    (run ++ rest).takeWhile isDigit = run ∧ (run ++ rest).dropWhile isDigit = rest := by
  have taken : ∀ b ∈ run, isDigit b = true := fun b mem => isDigit_iff.2 (all b mem)
  rw [List.takeWhile_append_of_pos taken, List.dropWhile_append_of_pos taken]
  cases rest with
  | nil => exact ⟨List.append_nil run, rfl⟩
  | cons b rest =>
    have stop : ¬ isDigit b = true := fun digit => stops b rfl (isDigit_iff.1 digit)
    rw [List.takeWhile_cons_of_neg stop, List.dropWhile_cons_of_neg stop, List.append_nil]
    exact ⟨rfl, rfl⟩

/-- A number that begins with a digit has no sign. -/
theorem parse_unsigned {b : UInt8} (first : IsDigit b) (tail : List UInt8) :
    parse (b :: tail) = parseDigits (b :: tail) := by
  unfold parse
  split
  · rename_i same
    rw [(List.cons.inj same).1] at first
    exact absurd first (by decide)
  · rename_i same
    rw [(List.cons.inj same).1] at first
    exact absurd first (by decide)
  · rfl

theorem parse_of_digits {s : List UInt8} (digits : ∀ b ∈ s, IsDigit b) : parse s = parseDigits s := by
  cases s with
  | nil => rfl
  | cons b tail => exact parse_unsigned (digits b List.mem_cons_self) tail

theorem parse_digits (p n : Nat) (rest : List UInt8) :
    parse (digits p n ++ rest) = parseDigits (digits p n ++ rest) := by
  obtain ⟨b, tail, whole⟩ := List.exists_cons_of_ne_nil (text_ne_nil (n / 10 ^ p))
  have first : IsDigit b := text_digits (n / 10 ^ p) b (by rw [whole]; exact List.mem_cons_self)
  rw [digits, whole, List.cons_append, List.cons_append]
  exact parse_unsigned first _

/-- A number ends where a character does not belong to it. -/
theorem parse_stop {stop : UInt8} (other : ¬ IsDigit stop) (noDot : stop ≠ dot) (noMinus : stop ≠ minus)
    (noPlus : stop ≠ plus) (s rest : List UInt8) : parse (s ++ stop :: rest) = parse s := by
  have digits (s : List UInt8) : parseDigits (s ++ stop :: rest) = parseDigits s := by
    have split (s : List UInt8) : (s ++ stop :: rest).takeWhile isDigit = s.takeWhile isDigit ∧
        (s ++ stop :: rest).dropWhile isDigit = s.dropWhile isDigit ++ stop :: rest := by
      induction s with
      | nil =>
        have stops : ¬ isDigit stop = true := mt isDigit_iff.1 other
        rw [List.nil_append, List.takeWhile_cons_of_neg stops, List.dropWhile_cons_of_neg stops]
        exact ⟨rfl, rfl⟩
      | cons b s ih =>
        by_cases digit : isDigit b = true
        · rw [List.cons_append, List.takeWhile_cons_of_pos digit, List.dropWhile_cons_of_pos digit, ih.1, ih.2,
            List.takeWhile_cons_of_pos digit, List.dropWhile_cons_of_pos digit]
          exact ⟨rfl, rfl⟩
        · rw [List.cons_append, List.takeWhile_cons_of_neg digit, List.dropWhile_cons_of_neg digit,
            List.takeWhile_cons_of_neg digit, List.dropWhile_cons_of_neg digit]
          exact ⟨rfl, rfl⟩
    rw [parseDigits, parseDigits, (split s).1, (split s).2]
    cases s.dropWhile isDigit with
    | nil =>
      rw [List.nil_append]
      split
      · rename_i same
        exact absurd (List.cons.inj same).1 noDot
      · rfl
    | cons b tail =>
      rw [List.cons_append]
      by_cases point : b = dot
      · subst point
        change (_ : ℚ) + value ((tail ++ stop :: rest).takeWhile isDigit) / 10 ^ _ =
          _ + value (tail.takeWhile isDigit) / 10 ^ _
        rw [(split tail).1]
      · split
        · rename_i same
          exact absurd (List.cons.inj same).1 point
        · split
          · rename_i same
            exact absurd (List.cons.inj same).1 point
          · rfl
  cases s with
  | nil =>
    rw [List.nil_append]
    unfold parse
    split
    · rename_i same
      exact absurd (List.cons.inj same).1 noMinus
    · rename_i same
      exact absurd (List.cons.inj same).1 noPlus
    · exact digits []
  | cons b s =>
    rw [List.cons_append]
    unfold parse
    split
    · rename_i same
      obtain ⟨rfl, rfl⟩ := List.cons.inj same
      exact congrArg Neg.neg (digits s)
    · rename_i same
      obtain ⟨rfl, rfl⟩ := List.cons.inj same
      exact digits s
    · rename_i minus plus
      split
      · rename_i same
        obtain ⟨rfl, rfl⟩ := List.cons.inj same
        exact absurd rfl (minus _)
      · rename_i same
        obtain ⟨rfl, rfl⟩ := List.cons.inj same
        exact absurd rfl (plus _)
      · exact digits (b :: s)

section Read

variable {p : Nat} (positive : 0 < p) {rest : List UInt8} (stops : ∀ b ∈ rest.head?, ¬ IsDigit b)

include positive

theorem fixed_decimals (n : Nat) :
    (∀ b ∈ fixed p (n % 10 ^ p : Nat), IsDigit b) ∧ value (fixed p (n % 10 ^ p : Nat)) = n % 10 ^ p := by
  have small : n % 10 ^ p < 10 ^ p := Nat.mod_lt _ (by positivity)
  have reads := (read_fixed_iff positive (n % 10 ^ p : Nat)).2 ⟨Int.natCast_nonneg _, by exact_mod_cast small⟩
  refine ⟨(read_some reads).2.2, ?_⟩
  unfold read? at reads
  split at reads
  · exact_mod_cast Option.some_inj.1 reads
  · cases reads

include stops

theorem parseDigits_digits (n : Nat) : parseDigits (digits p n ++ rest) = n / 10 ^ p := by
  obtain ⟨decimals, shown⟩ := fixed_decimals positive n
  have point : ∀ b ∈ (dot :: (fixed p (n % 10 ^ p : Nat) ++ rest)).head?, ¬ IsDigit b := by
    intro b first
    rw [List.head?_cons, Option.mem_some_iff] at first
    rw [← first]
    decide
  have whole := takeWhile_digits (text_digits (n / 10 ^ p)) point
  have part := takeWhile_digits decimals stops
  have shape : digits p n ++ rest = text (n / 10 ^ p) ++ dot :: (fixed p (n % 10 ^ p : Nat) ++ rest) := by
    rw [digits, List.append_assoc, List.cons_append]
  have parsed : parseDigits (digits p n ++ rest) =
      value (text (n / 10 ^ p)) + value (fixed p (n % 10 ^ p : Nat)) / 10 ^ (fixed p (n % 10 ^ p : Nat)).length := by
    rw [parseDigits, shape, whole.2, whole.1]
    change _ + (value ((fixed p (n % 10 ^ p : Nat) ++ rest).takeWhile isDigit) : ℚ) / _ = _
    rw [part.1]
  have split : ((n / 10 ^ p : Nat) : ℚ) * 10 ^ p + (n % 10 ^ p : Nat) = n := by
    exact_mod_cast Nat.div_add_mod' n (10 ^ p)
  rw [parsed, value_text, shown, fixed_length, eq_div_iff (by positivity), add_mul, div_mul_cancel₀ _ (by positivity)]
  exact split

/-- What is printed is read back as the rounded number. -/
theorem parse_print (x : ℚ) : parse (print p x ++ rest) = rounded p x := by
  have scale : (0 : ℚ) < 10 ^ p := by positivity
  have signed : x < 0 → halfEven (x * 10 ^ p) ≤ 0 := fun negative => by
    apply halfEven_le
    rw [Int.cast_zero]
    exact le_of_lt (mul_neg_of_neg_of_pos negative scale)
  have unsigned : ¬ x < 0 → 0 ≤ halfEven (x * 10 ^ p) := fun high =>
    halfEven_nonneg (mul_nonneg (not_lt.1 high) scale.le)
  unfold print rounded
  dsimp only
  generalize halfEven (x * 10 ^ p) = h at signed unsigned ⊢
  split_ifs with negative
  · obtain ⟨n, rfl⟩ : ∃ n : Nat, h = -n := ⟨h.natAbs, by have := signed negative; omega⟩
    change -parseDigits (digits p _ ++ rest) = _
    rw [parseDigits_digits positive stops, Int.natAbs_neg, Int.natAbs_natCast]
    push_cast
    rw [neg_div]
  · obtain ⟨n, rfl⟩ := Int.eq_ofNat_of_zero_le (unsigned negative)
    rw [Int.natAbs_natCast, parse_digits, parseDigits_digits positive stops, Int.cast_natCast]

end Read

/-! ## Shape -/

theorem print_chars (p : Nat) (x : ℚ) : ∀ b ∈ print p x, IsDigit b ∨ b = minus ∨ b = dot := by
  have inDigits : ∀ n, ∀ b ∈ digits p n, IsDigit b ∨ b = minus ∨ b = dot := by
    intro n b mem
    rcases List.mem_append.1 mem with whole | mem
    · exact .inl (text_digits _ b whole)
    · rcases List.mem_cons.1 mem with rfl | part
      · exact .inr (.inr rfl)
      · exact (fixed_chars p _ b part).imp id .inl
  intro b mem
  unfold print at mem
  dsimp only at mem
  split_ifs at mem
  · rcases List.mem_cons.1 mem with rfl | mem
    · exact .inr (.inl rfl)
    · exact inDigits _ b mem
  · exact inDigits _ b mem

/-- A number that has no more decimals is printed as it is. -/
theorem print_exact (p n : Nat) : print p (n / 10 ^ p) = digits p n := by
  have scale : (10 : ℚ) ^ p ≠ 0 := by positivity
  have whole : halfEven ((n / 10 ^ p : ℚ) * 10 ^ p) = n := by
    rw [div_mul_cancel₀ _ scale]
    exact halfEven_natCast n
  unfold print
  dsimp only
  rw [if_neg (not_lt.2 (by positivity)), whole, Int.natAbs_natCast]

/-- The width of a number without a sign. -/
theorem print_length_le (p : Nat) {k n : Nat} (positive : 0 < k) (small : n < 10 ^ k) {x : ℚ} (nonneg : 0 ≤ x)
    (below : x ≤ n) : (print p x).length ≤ k + 1 + p := by
  have scale : (0 : ℚ) < 10 ^ p := by positivity
  have high : halfEven (x * 10 ^ p) ≤ (n * 10 ^ p : Nat) := by
    apply halfEven_le
    push_cast
    exact mul_le_mul_of_nonneg_right below scale.le
  have low : 0 ≤ halfEven (x * 10 ^ p) := halfEven_nonneg (mul_nonneg nonneg scale.le)
  have whole : (halfEven (x * 10 ^ p)).natAbs / 10 ^ p < 10 ^ k := by
    have bound : (halfEven (x * 10 ^ p)).natAbs ≤ n * 10 ^ p := by omega
    exact lt_of_le_of_lt (Nat.div_le_of_le_mul (Nat.mul_comm n (10 ^ p) ▸ bound)) small
  have width := (length_text_le_iff positive).2 whole
  unfold print
  dsimp only
  rw [if_neg (not_lt.2 nonneg), digits, List.length_append, List.length_cons, fixed_length]
  omega

end FixedPoint
