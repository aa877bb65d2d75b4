import Ecu.Lib.Memory

/-!
# An allocator, as its users see it

Its users hold blocks, each known by a number and with bytes of its own (`Store`). They know neither where a new block
will be nor what it holds; but it is new, a block that is resized keeps its bytes, and no call touches the blocks that
it does not name (`Serves`). An implementation keeps the bytes of all blocks in one memory; `contents` is what the
users see of it, and a call that leaves the bytes of the other blocks alone is seen as a change of one block
(`contents_grant`, `contents_drop`).
-/

namespace Allocator

open Memory

inductive Call where
  | malloc (size : Nat)
  | calloc (count size : Nat)
  | realloc (old : Option Nat) (size : Nat)
  | free (old : Option Nat)
  | write (q i : Nat) (v : UInt8)
deriving DecidableEq

/-- The call asks for memory. -/
def Call.Asks : Call → Prop
  | .malloc _ | .calloc _ _ | .realloc _ _ => True
  | .free _ | .write _ _ _ => False

/-- The blocks in use and their bytes. -/
abbrev Store := Nat → Option (List UInt8)

section Owned

variable {β : Type} (s : Nat → Option β)

/-- A block is no longer in use. -/
def drop : Option Nat → Nat → Option β
  | none => s
  | some q => Function.update s q none

/-- A block is in use now, in the place of an old one or as a new one. -/
def grant (old : Option Nat) (v : β) : Option Nat → Nat → Option β
  | none => s
  | some q => Function.update (drop s old) q (some v)

/-- A number that may be given out for a block in the place of an old one. -/
def Fresh (old : Option Nat) (q : Nat) : Prop :=
  old = some q ∨ s q = none

end Owned

/-- What a call may give back, and what is in use then. -/
inductive Serves (s : Store) : Call → Option Nat → Store → Prop
  /-- No memory. -/
  | refused {a : Call} (asks : a.Asks) : Serves s a none s
  | malloc {size q : Nat} {bytes : List UInt8} (fresh : Fresh s none q) (length : bytes.length = size) :
    Serves s (.malloc size) (some q) (grant s none bytes (some q))
  | calloc {count size q : Nat} (fresh : Fresh s none q) :
    Serves s (.calloc count size) (some q) (grant s none (List.replicate (count * size) 0) (some q))
  | realloc {old : Option Nat} {size q : Nat} {bytes : List UInt8} (fresh : Fresh s old q)
    (length : bytes.length = size)
    (kept : ∀ p ∈ old, ∀ before ∈ s p, bytes.take before.length = before.take size) :
    Serves s (.realloc old size) (some q) (grant s old bytes (some q))
  | free {old : Option Nat} : Serves s (.free old) none (drop s old)
  | write {q i : Nat} {v : UInt8} {bytes : List UInt8} (held : s q = some bytes) (inside : i < bytes.length) :
    Serves s (.write q i v) none (Function.update s q (some (bytes.set i v)))

/-! ## One memory for all blocks -/

/-- The bytes of a block. -/
def window (m : Mem) (q n : Nat) : List UInt8 :=
  (List.range n).map fun i => m (q + i)

/-- What the users see: the bytes of every block, as many as were asked for. -/
def contents (m : Mem) (owned : Nat → Option Nat) : Store :=
  fun q => (owned q).map (window m q)

variable {m m' : Mem} {owned : Nat → Option Nat}

@[simp] theorem window_length (m : Mem) (q n : Nat) : (window m q n).length = n := by
  rw [window, List.length_map, List.length_range]

theorem window_getElem {q n i : Nat} (inside : i < (window m q n).length) : (window m q n)[i] = m (q + i) := by
  simp only [window, List.getElem_map, List.getElem_range]

theorem window_congr {q n : Nat} (same : ∀ i < n, m' (q + i) = m (q + i)) : window m' q n = window m q n :=
  List.map_congr_left fun i mem => same i (List.mem_range.1 mem)

/-- A part of a block's bytes, in one memory or another. -/
theorem window_take {p q n k : Nat} (same : ∀ i < min n k, m' (q + i) = m (p + i)) :
    (window m' q k).take n = (window m p n).take k := by
  rw [window, window, ← List.map_take, ← List.map_take, List.take_range, List.take_range, Nat.min_comm k n]
  exact List.map_congr_left fun i mem => same i (List.mem_range.1 mem)

theorem window_fill {q n : Nat} (b : UInt8) : window (fill m q b n) q n = List.replicate n b := by
  refine List.eq_replicate_iff.2 ⟨window_length _ q n, fun x mem => ?_⟩
  obtain ⟨i, inside, rfl⟩ := List.mem_map.1 mem
  exact fill_inside (List.mem_range.1 inside)

theorem window_update (q n i : Nat) (v : UInt8) :
    window (Function.update m (q + i) v) q n = (window m q n).set i v := by
  refine List.ext_getElem (by simp) fun j low high => ?_
  rw [List.getElem_set, window_getElem, window_getElem]
  split_ifs with here
  · rw [here, Function.update_self]
  · rw [Function.update_of_ne (by omega)]

theorem fresh_contents {old : Option Nat} {q : Nat} (fresh : Fresh owned old q) : Fresh (contents m owned) old q :=
  fresh.imp_right fun none => by rw [contents, none]; rfl

/-- The bytes of a block that is in use are as they were. -/
def Untouched (m m' : Mem) (owned : Nat → Option Nat) : Prop :=
  ∀ q n, owned q = some n → ∀ i < n, m' (q + i) = m (q + i)

theorem contents_congr (same : Untouched m m' owned) : contents m' owned = contents m owned := by
  funext q
  rw [contents, contents]
  cases held : owned q with
  | none => rfl
  | some n => exact congrArg some (window_congr (same q n held))

theorem contents_drop_eq (old : Option Nat) : contents m (drop owned old) = drop (contents m owned) old := by
  cases old with
  | none => rfl
  | some q =>
    funext p
    by_cases here : p = q
    · rw [here, contents, drop, drop, Function.update_self, Function.update_self]
      rfl
    · rw [contents, drop, drop, Function.update_of_ne here, Function.update_of_ne here]
      rfl

theorem contents_drop {old : Option Nat} (same : Untouched m m' (drop owned old)) :
    contents m' (drop owned old) = drop (contents m owned) old :=
  (contents_congr same).trans (contents_drop_eq old)

theorem contents_grant {old : Option Nat} {q n : Nat}
    (same : ∀ p k, p ≠ q → drop owned old p = some k → ∀ i < k, m' (p + i) = m (p + i)) :
    contents m' (grant owned old n (some q)) = grant (contents m owned) old (window m' q n) (some q) := by
  funext p
  rw [contents, grant, grant, ← contents_drop_eq]
  by_cases here : p = q
  · rw [here, Function.update_self, Function.update_self]
    rfl
  · rw [Function.update_of_ne here, Function.update_of_ne here, contents]
    cases held : drop owned old p with
    | none => rfl
    | some k => exact congrArg some (window_congr (same p k here held))

end Allocator
