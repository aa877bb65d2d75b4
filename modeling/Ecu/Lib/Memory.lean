import Mathlib

/-!
# Byte memory

A memory gives the byte at every address. Numbers lie in it with their lowest byte first: `load` reads the number in `n`
bytes, `store` writes it. A store changes nothing outside its bytes (`store_outside`), and what it has written is what
is read (`load_store`). `copy` is a `memcpy` between places that do not overlap.
-/

namespace Memory

abbrev Mem := Nat → UInt8

/-- The number in the `n` bytes from address `a`. -/
def load (m : Mem) (a : Nat) : Nat → Nat
  | 0 => 0
  | n + 1 => (m a).toNat + 256 * load m (a + 1) n

/-- The memory with `v` in the `n` bytes from address `a`. -/
def store (m : Mem) (a : Nat) : Nat → Nat → Mem
  | 0, _ => m
  | n + 1, v => store (Function.update m a (UInt8.ofNat v)) (a + 1) n (v / 256)

/-- `n` bytes copied from `src` to `dst`. -/
def copy (m : Mem) (dst src n : Nat) : Mem :=
  fun x => if dst ≤ x ∧ x < dst + n then m (src + (x - dst)) else m x

/-- `n` bytes from `dst` set to `b`. -/
def fill (m : Mem) (dst : Nat) (b : UInt8) (n : Nat) : Mem :=
  fun x => if dst ≤ x ∧ x < dst + n then b else m x

/-- Only the bytes read matter. -/
theorem load_congr {m m' : Mem} {a n : Nat} (same : ∀ x, a ≤ x → x < a + n → m' x = m x) :
    load m' a n = load m a n := by
  induction n generalizing a with
  | zero => rfl
  | succ n ih =>
    rw [load, load, same a (Nat.le_refl a) (by omega), ih fun x low high => same x (by omega) (by omega)]

theorem store_outside {m : Mem} {a n v x : Nat} (outside : x < a ∨ a + n ≤ x) : store m a n v x = m x := by
  induction n generalizing m a v with
  | zero => rfl
  | succ n ih => rw [store, ih (by omega), Function.update_of_ne (by omega)]

theorem load_store_outside {m : Mem} {a n v b k : Nat} (outside : b + k ≤ a ∨ a + n ≤ b) :
    load (store m a n v) b k = load m b k :=
  load_congr fun x low high => store_outside (by omega)

theorem load_store {m : Mem} {a n v : Nat} (small : v < 256 ^ n) : load (store m a n v) a n = v := by
  induction n generalizing m a v with
  | zero =>
    rw [Nat.pow_zero] at small
    rw [load]
    omega
  | succ n ih =>
    have high : v / 256 < 256 ^ n := by
      rw [Nat.pow_succ] at small
      omega
    have low : (UInt8.ofNat v).toNat = v % 256 := UInt8.toNat_ofNat'
    rw [load, store, store_outside (.inl (Nat.lt_succ_self a)), Function.update_self, ih high, low]
    omega

theorem copy_outside {m : Mem} {dst src n x : Nat} (outside : x < dst ∨ dst + n ≤ x) : copy m dst src n x = m x :=
  if_neg (by omega)

theorem copy_inside {m : Mem} {dst src n i : Nat} (inside : i < n) : copy m dst src n (dst + i) = m (src + i) := by
  rw [copy, if_pos (by omega), Nat.add_sub_cancel_left]

theorem fill_outside {m : Mem} {dst n x : Nat} {b : UInt8} (outside : x < dst ∨ dst + n ≤ x) :
    fill m dst b n x = m x :=
  if_neg (by omega)

theorem fill_inside {m : Mem} {dst n i : Nat} {b : UInt8} (inside : i < n) : fill m dst b n (dst + i) = b :=
  if_pos (by omega)

end Memory
