import Ecu.Kernel.HeapRealloc
import Ecu.Lib.Allocator

/-!
# The heap over whole runs

Threads call the heap one after the other and write into what they were given (`Legal`). In every state that is reached
no assertion fails, no loop runs for ever, and the calls do what the users of an allocator rely on (`calls_serve`): the
headers in the memory describe an arena in which the used blocks are those in use.
-/

namespace Ecu.Kernel

open Memory Blocks Allocator Heap

/-- The heap, and how many bytes were asked for at every address given out. -/
structure Client where
  heap : Heap
  owned : Nat → Option Nat

namespace Client

/-- The call is over: a block of `size` bytes was given out, in the place of an old one. -/
def granted (c : Client) (old : Option Nat) (size : Nat) (result : Option Nat × Heap) : Option Nat × Client :=
  (result.1, ⟨result.2, grant c.owned old size result.1⟩)

def call (c : Client) : Call → Option (Option Nat × Client)
  | .malloc size => (c.heap.rtMalloc size).map (c.granted none size)
  | .calloc count size => (c.heap.rtCalloc count size).map (c.granted none (count * size))
  | .realloc old size => (c.heap.rtRealloc old size).map (c.granted old size)
  | .free old => (c.heap.rtFree old).map fun h => (none, ⟨h, drop c.owned old⟩)
  | .write q i v => some (none, { c with heap := { c.heap with bytes := Function.update c.heap.bytes (q + i) v } })

/-- Sizes stay below 2^32 with what `RT_ALIGN` adds; only what was given out is freed, resized or written to. -/
def Legal (c : Client) : Call → Prop
  | .malloc size => size + 7 < 2 ^ 32
  | .calloc count size => count * size + 7 < 2 ^ 32
  | .realloc old size => size + 7 < 2 ^ 32 ∧ ∀ q ∈ old, c.owned q ≠ none
  | .free old => ∀ q ∈ old, c.owned q ≠ none
  | .write q i _ => ∃ n, c.owned q = some n ∧ i < n

/-- What the threads see. -/
def view (c : Client) : Store :=
  contents c.heap.bytes c.owned

/-- After `rt_system_heap_init`. -/
def start (bytes : Mem) (memSize : Nat) : Client :=
  ⟨Heap.init bytes memSize, fun _ => none⟩

/-- The states that are reached by calls of which each is legal and as `Ok` has it. -/
inductive Reached (Ok : Client → Call → Prop) (bytes : Mem) (memSize : Nat) : Client → Prop where
  | start : Reached Ok bytes memSize (start bytes memSize)
  | call {c c' : Client} {a : Call} {r : Option Nat} (before : Reached Ok bytes memSize c) (legal : c.Legal a)
    (ok : Ok c a) (made : c.call a = some (r, c')) : Reached Ok bytes memSize c'

/-- The call cuts a block in such a way that later searches pass over the rest of it. -/
def Hides (c : Client) : Call → Prop
  | .realloc (some q) size => c.heap.Hides q size
  | _ => False

/-! ## The blocks in use -/

/-- The blocks given out are these, and large enough. -/
structure Matches (owned : Nat → Option Nat) (blocks : Nat × Nat → Prop) : Prop where
  large : ∀ {q n}, owned q = some n → ∃ k, n ≤ k ∧ blocks (q, k)
  held : ∀ {q k}, blocks (q, k) → owned q ≠ none

variable {owned : Nat → Option Nat} {blocks : Nat × Nat → Prop}

theorem Matches.congr {blocks' : Nat × Nat → Prop} (m : Matches owned blocks) (same : ∀ a, blocks' a ↔ blocks a) :
    Matches owned blocks' where
  large holds := by
    obtain ⟨k, large, block⟩ := m.large holds
    exact ⟨k, large, (same _).2 block⟩
  held block := m.held ((same _).1 block)

theorem Matches.drop {q n : Nat} (m : Matches owned blocks) (only : ∀ k, blocks (q, k) → k = n) :
    Matches (drop owned (some q)) fun a => blocks a ∧ a ≠ (q, n) where
  large {p j} holds := by
    by_cases here : p = q
    · rw [here, Allocator.drop, Function.update_self] at holds
      cases holds
    · rw [Allocator.drop, Function.update_of_ne here] at holds
      obtain ⟨k, large, block⟩ := m.large holds
      exact ⟨k, large, block, fun same => here (congrArg Prod.fst same)⟩
  held {p k} block := by
    by_cases here : p = q
    · rw [here] at block
      exact absurd (by rw [only k block.1]) block.2
    · rw [Allocator.drop, Function.update_of_ne here]
      exact m.held block.1

theorem Matches.add {q n k : Nat} (m : Matches owned blocks) (fits : n ≤ k) :
    Matches (Function.update owned q (some n)) fun a => a = (q, k) ∨ blocks a where
  large {p j} holds := by
    by_cases here : p = q
    · rw [here, Function.update_self] at holds
      cases holds
      exact ⟨k, fits, .inl (by rw [here])⟩
    · rw [Function.update_of_ne here] at holds
      obtain ⟨k', large, block⟩ := m.large holds
      exact ⟨k', large, .inr block⟩
  held {p j} block := by
    by_cases here : p = q
    · rw [here, Function.update_self]
      exact Option.some_ne_none n
    · rw [Function.update_of_ne here]
      rcases block with same | block
      · exact absurd (congrArg Prod.fst same) here
      · exact m.held block

/-! ## The invariant -/

structure Good (memSize : Nat) (c : Client) (bs : List Block) : Prop where
  valid : Valid c.heap bs
  blocks : Matches c.owned fun a => a ∈ live bs
  size : c.heap.memSizeAligned = memSize
  unused : live bs = [] → IsFree bs c.heap.lfree

variable {memSize : Nat} {c : Client} {bs : List Block}

/-- A block given out lies in a block of the arena. -/
theorem Good.block {q n : Nat} (good : Good memSize c bs) (held : c.owned q = some n) :
    ∃ k, n ≤ k ∧ (q, k) ∈ live bs :=
  good.blocks.large held

theorem Good.only {q n k : Nat} (mem : (q, n) ∈ live bs) (mem' : (q, k) ∈ live bs) : k = n := by
  rcases spans_cases mem' mem with same | apart
  · exact congrArg Prod.snd same
  · dsimp only at apart
    omega

/-- Nothing is given out at an address where a new block lies. -/
theorem Good.new {q k : Nat} (good : Good memSize c bs) (apart : ∀ a ∈ live bs, Apart 16 a (q, k)) :
    c.owned q = none := by
  cases held : c.owned q with
  | none => rfl
  | some n =>
    obtain ⟨j, -, mem⟩ := good.block held
    exact absurd rfl ((apart _ mem).ne (by decide))

/-- Bytes that are kept in the blocks of the arena are kept in what was given out. -/
theorem Good.untouched {m : Mem} (good : Good memSize c bs)
    (kept : ∀ a ∈ live bs, ∀ x, a.1 ≤ x → x < a.1 + a.2 → m x = c.heap.bytes x) :
    Untouched c.heap.bytes m c.owned := by
  intro q n held i less
  obtain ⟨k, large, mem⟩ := good.block held
  exact kept _ mem _ (by dsimp only; omega) (by dsimp only; omega)

/-- What holds after a call that was served. -/
structure Served (memSize : Nat) (c : Client) (bs : List Block) (a : Call) (r : Option Nat) (c' : Client)
    (bs' : List Block) : Prop where
  good : Good memSize c' bs'
  serves : Serves c.view a r c'.view
  lowest : Lowest c.heap bs → (Lowest c'.heap bs' ↔ ¬ c.Hides a)

theorem Good.refused {a : Call} (good : Good memSize c bs) (asks : a.Asks) (shown : ¬ c.Hides a) :
    Served memSize c bs a none c bs :=
  ⟨good, .refused asks, fun low => iff_of_true low shown⟩

/-- A new block, whatever is in it. -/
theorem Good.allocated {q k size : Nat} {h : Heap} {bs' : List Block} {m : Mem} (good : Good memSize c bs)
    (allocated : Allocated c.heap bs q k h bs') (fits : size ≤ k) (same : ∀ x, x < q ∨ q + k ≤ x → m x = h.bytes x) :
    Good memSize ⟨{ h with bytes := m }, grant c.owned none size (some q)⟩ bs' ∧
      view ⟨{ h with bytes := m }, grant c.owned none size (some q)⟩ =
        grant c.view none (window m q size) (some q) := by
  have new : (q, k) ∈ live bs' := (allocated.live _).2 (.inl rfl)
  constructor
  · refine ⟨allocated.valid.write fun x on => same x ?_, (good.blocks.add fits).congr allocated.live,
      allocated.size.trans good.size, fun none => ?_⟩
    · by_contra inside
      exact off_header allocated.valid.represents new (x := x) (by dsimp only; omega) (by dsimp only; omega) on
    · rw [none] at new
      cases new
  · refine contents_grant fun p j _ held i less => ?_
    obtain ⟨j', large, mem⟩ := good.block held
    have apart := allocated.apart _ mem
    unfold Apart at apart
    dsimp only at apart
    refine (same _ (by omega)).trans ?_
    exact allocated.kept _ ((allocated.live _).2 (.inr mem)) _ (by dsimp only; omega) (by dsimp only; omega)

theorem malloc_served {size : Nat} (good : Good memSize c bs) (small : size + 7 < 2 ^ 32) :
    ∃ r c' bs', c.call (.malloc size) = some (r, c') ∧ Served memSize c bs (.malloc size) r c' bs' := by
  by_cases none : size = 0
  · have refused : c.heap.rtMalloc size = some (Option.none, c.heap) := if_pos none
    exact ⟨Option.none, c, bs, by rw [call, refused]; rfl, good.refused trivial id⟩
  rcases malloc_spec good.valid (Nat.pos_of_ne_zero none) small with
    ⟨refused, -⟩ | ⟨q, -, k, h, bs', made, -, large, allocated⟩
  · exact ⟨Option.none, c, bs, by rw [call, refused]; rfl, good.refused trivial id⟩
  · have fits := Nat.le_trans (request_bounds small).1 large
    obtain ⟨good', seen⟩ := good.allocated allocated fits (m := h.bytes) fun x _ => rfl
    refine ⟨some q, _, bs', by rw [call, made]; rfl, good', ?_, fun low =>
      iff_of_true (allocated.lowest low) id⟩
    rw [seen]
    exact .malloc (fresh_contents (.inr (good.new allocated.apart))) (window_length _ _ _)

theorem calloc_served {count size : Nat} (good : Good memSize c bs) (small : count * size + 7 < 2 ^ 32) :
    ∃ r c' bs', c.call (.calloc count size) = some (r, c') ∧ Served memSize c bs (.calloc count size) r c' bs' := by
  have total : count * size % 2 ^ 32 = count * size := Nat.mod_eq_of_lt (by omega)
  by_cases none : count * size = 0
  · have refused : c.heap.rtMalloc (count * size) = some (Option.none, c.heap) := if_pos none
    exact ⟨Option.none, c, bs, by rw [call, rtCalloc, total, refused]; rfl, good.refused trivial id⟩
  rcases malloc_spec good.valid (Nat.pos_of_ne_zero none) small with
    ⟨refused, -⟩ | ⟨q, -, k, h, bs', made, -, large, allocated⟩
  · exact ⟨Option.none, c, bs, by rw [call, rtCalloc, total, refused]; rfl, good.refused trivial id⟩
  · have fits := Nat.le_trans (request_bounds small).1 large
    obtain ⟨good', seen⟩ := good.allocated allocated fits (m := fill h.bytes q 0 (count * size))
      fun x outside => fill_outside (by omega)
    refine ⟨some q, _, bs', by rw [call, rtCalloc, total, made]; rfl, good', ?_, fun low =>
      iff_of_true (allocated.lowest low) id⟩
    rw [window_fill] at seen
    rw [seen]
    exact .calloc (fresh_contents (.inr (good.new allocated.apart)))

/-- Without an old block `rt_realloc` is `rt_malloc`. -/
theorem realloc_new_served {size : Nat} (good : Good memSize c bs) (small : size + 7 < 2 ^ 32) :
    ∃ r c' bs', c.call (.realloc none size) = some (r, c') ∧ Served memSize c bs (.realloc none size) r c' bs' := by
  have bounds := (rtAlign_bounds small).1
  have limit := good.valid.represents.small
  have fin : c.heap.heapEnd = c.heap.memSizeAligned + 16 := rfl
  by_cases large : c.heap.memSizeAligned < rtAlign size
  · have refused : c.heap.rtRealloc none size = some (none, c.heap) := if_pos large
    exact ⟨none, c, bs, by rw [call, refused]; rfl, good.refused trivial id⟩
  have same : c.heap.rtRealloc none size = c.heap.rtMalloc (rtAlign size) := if_neg large
  by_cases nothing : rtAlign size = 0
  · have refused : c.heap.rtMalloc (rtAlign size) = some (none, c.heap) := if_pos nothing
    exact ⟨none, c, bs, by rw [call, same, refused]; rfl, good.refused trivial id⟩
  have small' : rtAlign size + 7 < 2 ^ 32 := by omega
  rcases malloc_spec good.valid (Nat.pos_of_ne_zero nothing) small' with
    ⟨refused, -⟩ | ⟨q, -, k, h, bs', made, -, much, allocated⟩
  · exact ⟨none, c, bs, by rw [call, same, refused]; rfl, good.refused trivial id⟩
  · have fits := (request_bounds small').1
    obtain ⟨good', seen⟩ := good.allocated allocated (show size ≤ k by omega) (m := h.bytes) fun x _ => rfl
    refine ⟨some q, _, bs', by rw [call, same, made]; rfl, good', ?_, fun low =>
      iff_of_true (allocated.lowest low) id⟩
    rw [seen]
    exact .realloc (fresh_contents (.inr (good.new allocated.apart))) (window_length _ _ _)
      fun p old => by cases old

/-- The block at `q` is now one of `k` bytes at `q'`, which holds what fits of the old one. -/
theorem Good.resized {q q' n k j size : Nat} {h : Heap} {bs' : List Block} (good : Good memSize c bs)
    (valid : Valid h bs') (live' : ∀ a, a ∈ live bs' ↔ a = (q', k) ∨ a ∈ live bs ∧ a ≠ (q, n)) (mem : (q, n) ∈ live bs)
    (held : c.owned q = some j) (fits : size ≤ k) (same : h.memSizeAligned = c.heap.memSizeAligned)
    (kept : ∀ a ∈ live bs, a ≠ (q, n) → ∀ x, a.1 ≤ x → x < a.1 + a.2 → h.bytes x = c.heap.bytes x)
    (copied : ∀ i < min n size, h.bytes (q' + i) = c.heap.bytes (q + i)) (fresh : Fresh c.owned (some q) q') :
    Good memSize ⟨h, grant c.owned (some q) size (some q')⟩ bs' ∧
      Serves c.view (.realloc (some q) size) (some q') (view ⟨h, grant c.owned (some q) size (some q')⟩) := by
  have only (k' : Nat) (mem' : (q, k') ∈ live bs) : k' = n := Good.only mem mem'
  constructor
  · refine ⟨valid, ((good.blocks.drop only).add fits).congr live', same.trans good.size, fun none => ?_⟩
    have new : (q', k) ∈ live bs' := (live' _).2 (.inl rfl)
    rw [none] at new
    cases new
  · have seen : view ⟨h, grant c.owned (some q) size (some q')⟩ =
        grant c.view (some q) (window h.bytes q' size) (some q') := by
      refine contents_grant fun p i other held' x less => ?_
      by_cases here : p = q
      · rw [here, Allocator.drop, Function.update_self] at held'
        cases held'
      · rw [Allocator.drop, Function.update_of_ne here] at held'
        obtain ⟨i', large, mem'⟩ := good.block held'
        exact kept _ mem' (fun same => here (congrArg Prod.fst same)) _ (by dsimp only; omega) (by dsimp only; omega)
    rw [seen]
    refine .realloc (fresh_contents fresh) (window_length _ _ _) fun p old before seen => ?_
    cases old
    rw [view, contents, held] at seen
    cases seen
    obtain ⟨n', large, mem'⟩ := good.block held
    rw [only n' mem'] at large
    rw [window_length]
    exact window_take fun i less => copied i (by omega)

theorem realloc_served {q size : Nat} (good : Good memSize c bs) (small : size + 7 < 2 ^ 32)
    (owned : c.owned q ≠ none) : ∃ r c' bs', c.call (.realloc (some q) size) = some (r, c') ∧
      Served memSize c bs (.realloc (some q) size) r c' bs' := by
  obtain ⟨j, held⟩ := Option.ne_none_iff_exists'.1 owned
  obtain ⟨n, large, mem⟩ := good.block held
  obtain ⟨r, h, bs', made, done⟩ := realloc_spec good.valid mem small
  refine ⟨r, ⟨h, grant c.owned (some q) size r⟩, bs', by rw [call, made]; rfl, ?_⟩
  cases done with
  | none shown => exact good.refused trivial shown
  | same valid live' fits same kept lowest =>
    obtain ⟨good', serves⟩ := good.resized valid live' mem held fits same
      (fun a there other x low high => kept a ((live' a).2 (.inr ⟨there, other⟩)) x low high)
      (fun i less => kept _ ((live' _).2 (.inl rfl)) _ (by dsimp only; omega) (by dsimp only; omega)) (.inl rfl)
    exact ⟨good', serves, lowest⟩
  | moved valid live' apart fits same kept copied shown lowest =>
    obtain ⟨good', serves⟩ := good.resized valid live' mem held fits same kept copied (.inr (good.new apart))
    exact ⟨good', serves, fun low => iff_of_true (lowest low) shown⟩

theorem free_served {old : Option Nat} (good : Good memSize c bs) (owned : ∀ q ∈ old, c.owned q ≠ none) :
    ∃ r c' bs', c.call (.free old) = some (r, c') ∧ Served memSize c bs (.free old) r c' bs' := by
  cases old with
  | none => exact ⟨none, c, bs, rfl, good, .free, fun low => iff_of_true low id⟩
  | some q =>
    obtain ⟨j, held⟩ := Option.ne_none_iff_exists'.1 (owned q rfl)
    obtain ⟨n, large, mem⟩ := good.block held
    obtain ⟨h, bs', made, released⟩ := release_spec good.valid mem
    have good' : Good memSize ⟨h, Allocator.drop c.owned (some q)⟩ bs' :=
      ⟨released.valid, (good.blocks.drop fun k mem' => Good.only mem mem').congr released.live,
        released.size.trans good.size, fun _ => released.lfree⟩
    refine ⟨none, _, bs', by rw [call, made]; rfl, good', ?_, fun low =>
      iff_of_true (released.lowest low) id⟩
    have seen : contents h.bytes (Allocator.drop c.owned (some q)) =
        Allocator.drop (contents c.heap.bytes c.owned) (some q) := by
      refine contents_drop fun p i held' x less => ?_
      obtain ⟨i', large', mem'⟩ := good'.block held'
      exact released.kept _ mem' _ (by dsimp only; omega) (by dsimp only; omega)
    change Serves c.view (.free (some q)) none (contents h.bytes (Allocator.drop c.owned (some q)))
    rw [seen]
    exact .free

theorem write_served {q i : Nat} {v : UInt8} (good : Good memSize c bs) (owned : ∃ n, c.owned q = some n ∧ i < n) :
    ∃ r c' bs', c.call (.write q i v) = some (r, c') ∧ Served memSize c bs (.write q i v) r c' bs' := by
  obtain ⟨n, held, inside⟩ := owned
  obtain ⟨k, large, mem⟩ := good.block held
  have off {x : Nat} (on : c.heap.OnHeader bs x) : x ≠ q + i := by
    rintro rfl
    exact off_header good.valid.represents mem (by dsimp only; omega) (by dsimp only; omega) on
  refine ⟨none, _, bs, rfl, ⟨good.valid.write fun x on => Function.update_of_ne (off on) _ _, good.blocks, good.size,
    good.unused⟩, ?_, fun low => iff_of_true low id⟩
  have seen : contents (Function.update c.heap.bytes (q + i) v) (grant c.owned none n (some q)) =
      grant c.view none (window (Function.update c.heap.bytes (q + i) v) q n) (some q) := by
    refine contents_grant fun p j other held' x less => Function.update_of_ne ?_ _ _
    obtain ⟨j', large', mem'⟩ := good.block held'
    rcases spans_cases mem' mem with same | apart
    · exact absurd (congrArg Prod.fst same) other
    · dsimp only at apart
      omega
  have same : grant c.owned none n (some q) = c.owned := by
    change Function.update c.owned q (some n) = c.owned
    rw [← held, Function.update_eq_self]
  rw [same, window_update] at seen
  change Serves c.view (.write q i v) none (contents (Function.update c.heap.bytes (q + i) v) c.owned)
  rw [seen]
  refine .write ?_ (by rw [window_length]; exact inside)
  rw [view, contents, held]
  rfl

theorem call_served {a : Call} (good : Good memSize c bs) (legal : c.Legal a) :
    ∃ r c' bs', c.call a = some (r, c') ∧ Served memSize c bs a r c' bs' := by
  cases a with
  | malloc size => exact malloc_served good legal
  | calloc count size => exact calloc_served good legal
  | realloc old size =>
    cases old with
    | none => exact realloc_new_served good legal.1
    | some q => exact realloc_served good legal.1 (legal.2 q rfl)
  | free old => exact free_served good legal
  | write q i v => exact write_served good legal

/-! ## Runs -/

theorem header_of_sets {h : Heap} {p q n : Nat} (small : p + 16 + n < 2 ^ 32) (low : q < 2 ^ 32) :
    ((((h.set .magic p heapMagic).set .next p (p + 16 + n)).set .prev p q).set .used p 0).Header p q ⟨n, false⟩ where
  magic := (get_set_of_ne (.inl ⟨by decide, rfl⟩)).trans ((get_set_of_ne (.inl ⟨by decide, rfl⟩)).trans
    ((get_set_of_ne (.inl ⟨by decide, rfl⟩)).trans (get_set_self (by decide))))
  used := get_set_self (by decide)
  next := (get_set_of_ne (.inl ⟨by decide, rfl⟩)).trans ((get_set_of_ne (.inl ⟨by decide, rfl⟩)).trans
    (get_set_self small))
  prev := (get_set_of_ne (.inl ⟨by decide, rfl⟩)).trans (get_set_self low)

theorem init_eq (bytes : Mem) (memSize : Nat) : Heap.init bytes memSize =
    ((((((((⟨bytes, 0, memSize, 0, 0⟩ : Heap).set .magic 0 heapMagic).set .next 0 (0 + 16 + memSize)).set .prev 0 0).set
      .used 0 0).set .magic (memSize + 16) heapMagic).set .used (memSize + 16) 1).set .next (memSize + 16)
        (memSize + 16)).set .prev (memSize + 16) (memSize + 16) := by
  rw [Nat.zero_add, Nat.add_comm 16 memSize]
  rfl

theorem init_represents (bytes : Mem) (small : memSize + 32 < 2 ^ 32) :
    (Heap.init bytes memSize).Represents [⟨memSize, false⟩] := by
  have header := header_of_sets (h := ⟨bytes, 0, memSize, 0, 0⟩) (p := 0) (q := 0) (n := memSize) (by omega) (by decide)
  have apart : 0 + 12 ≤ memSize + 16 := by omega
  have fin : (Heap.init bytes memSize).heapEnd = memSize + 16 := rfl
  refine ⟨?_, ?_, ?_, by omega⟩
  · rw [init_eq]
    exact ⟨(((header.set (.inr apart)).set (.inr apart)).set (.inr apart)).set (.inr apart), trivial⟩
  · rw [fin, extent, extent]
    dsimp only
    omega
  · rw [fin, init_eq]
    exact (get_set_of_ne (.inl ⟨by decide, rfl⟩)).trans ((get_set_of_ne (.inl ⟨by decide, rfl⟩)).trans
      (get_set_self (by decide)))

theorem start_good (bytes : Mem) (aligned : 8 ∣ memSize) (room : 16 ≤ memSize) (small : memSize + 32 < 2 ^ 32) :
    Good memSize (start bytes memSize) [⟨memSize, false⟩] := by
  have free : IsFree [⟨memSize, false⟩] 0 := ⟨memSize, List.mem_cons_self⟩
  refine ⟨⟨init_represents bytes small, List.isChain_singleton _, ?_, .inl free, rfl, ?_, room⟩, ⟨?_, ?_⟩, rfl,
    fun _ => free⟩
  · exact List.forall_mem_singleton.2 aligned
  · exact List.forall_mem_nil _
  · intro q n held
    cases held
  · intro q k mem
    cases mem

section Reached

variable {Ok : Client → Call → Prop} {bytes : Mem} {beginAddr endAddr : Nat}

/-- What `rt_system_heap_init` takes is aligned and below 2^32. -/
theorem sizeOf_bounds (made : Heap.sizeOf beginAddr endAddr = some memSize) (address : endAddr < 2 ^ 32) :
    8 ∣ memSize ∧ memSize + 32 < 2 ^ 32 := by
  rw [Heap.sizeOf] at made
  split_ifs at made with enough
  rw [rtAlign, sizeofStructMem] at made enough
  have same := Option.some.inj made
  omega

theorem Reached.good (made : Heap.sizeOf beginAddr endAddr = some memSize) (address : endAddr < 2 ^ 32)
    (room : 16 ≤ memSize) (reached : Reached Ok bytes memSize c) : ∃ bs, Good memSize c bs := by
  obtain ⟨aligned, small⟩ := sizeOf_bounds made address
  induction reached with
  | start => exact ⟨_, start_good bytes aligned room small⟩
  | call before legal ok done ih =>
    obtain ⟨bs, good⟩ := ih
    obtain ⟨r, c', bs', made, served⟩ := call_served good legal
    rw [made] at done
    cases done
    exact ⟨bs', served.good⟩

/-- As long as no part of a block is hidden `lfree` is the lowest free block. -/
theorem Reached.lowest (made : Heap.sizeOf beginAddr endAddr = some memSize) (address : endAddr < 2 ^ 32)
    (room : 16 ≤ memSize) (reached : Reached (fun c a => ¬ c.Hides a) bytes memSize c) :
    ∃ bs, Good memSize c bs ∧ Lowest c.heap bs := by
  obtain ⟨aligned, small⟩ := sizeOf_bounds made address
  induction reached with
  | start => exact ⟨_, start_good bytes aligned room small, rfl⟩
  | call before legal shown done ih =>
    obtain ⟨bs, good, low⟩ := ih
    obtain ⟨r, c', bs', made, served⟩ := call_served good legal
    rw [made] at done
    cases done
    exact ⟨bs', served.good, (served.lowest low).2 shown⟩

/-- In every state reached every legal call is served: no assertion fails and no loop runs for ever. -/
theorem calls_serve (made : Heap.sizeOf beginAddr endAddr = some memSize) (address : endAddr < 2 ^ 32)
    (room : 16 ≤ memSize) (reached : Reached Ok bytes memSize c) (a : Call) (legal : c.Legal a) :
    ∃ r c', c.call a = some (r, c') ∧ Serves c.view a r c'.view := by
  obtain ⟨bs, good⟩ := reached.good made address room
  obtain ⟨r, c', bs', done, served⟩ := call_served good legal
  exact ⟨r, c', done, served.serves⟩

theorem calls_serve_start : ∃ r c', (start (fun _ => 0) 96).call (.calloc 3 7) = some (r, c') ∧
    Serves (start (fun _ => 0) 96).view (.calloc 3 7) r c'.view := by
  have made : Heap.sizeOf 0x20000000 0x20000080 = some 96 := by decide
  have reached : Reached (fun _ _ => True) (fun _ => 0) 96 (start (fun _ => 0) 96) := .start
  exact calls_serve made (by decide) (by decide) reached (.calloc 3 7) (by decide : 3 * 7 + 7 < 2 ^ 32)

theorem Reached.next {a : Call} (before : Reached Ok bytes memSize c) (legal : c.Legal a) (ok : Ok c a)
    (made : (c.call a).isSome) : Reached Ok bytes memSize (((c.call a).map Prod.snd).getD c) := by
  obtain ⟨⟨r, c'⟩, done⟩ := Option.isSome_iff_exists.1 made
  rw [done]
  exact .call before legal ok done

/-- Two blocks, of which the first is the larger one. -/
theorem two_blocks : ∃ c, Reached (fun c a => ¬ c.Hides a) (fun _ => 0) 128 c ∧ c.owned 16 = some 64 ∧
    c.owned 96 = some 16 ∧ c.heap.Hides 16 16 ∧
    ((c.call (.realloc (some 16) 16)).bind fun r => r.2.heap.rtMalloc 32).map Prod.fst = some none := by
  have reached : Reached (fun c a => ¬ c.Hides a) (fun _ => 0) 128 (start (fun _ => 0) 128) := .start
  have first := reached.next (a := .malloc 64) (by decide : 64 + 7 < 2 ^ 32) id (by decide +kernel)
  have second := first.next (a := .malloc 16) (by decide : 16 + 7 < 2 ^ 32) id (by decide +kernel)
  refine ⟨_, second, ?_, ?_, ⟨?_, ?_⟩, ?_⟩
  · decide +kernel
  · decide +kernel
  · decide +kernel
  · unfold KeepsLowest
    decide +kernel
  · decide +kernel

/-- What was given out is aligned, lies in the heap and does not overlap. -/
theorem blocks_apart (made : Heap.sizeOf beginAddr endAddr = some memSize) (address : endAddr < 2 ^ 32)
    (room : 16 ≤ memSize) (reached : Reached Ok bytes memSize c) {q n : Nat} (held : c.owned q = some n) :
    8 ∣ q ∧ 16 ≤ q ∧ q + n ≤ memSize + 16 ∧
      ∀ q' n', c.owned q' = some n' → q ≠ q' → q + n + 16 ≤ q' ∨ q' + n' + 16 ≤ q := by
  obtain ⟨bs, good⟩ := reached.good made address room
  obtain ⟨k, large, mem⟩ := good.block held
  have bounds := spans_bounds mem
  have fin : c.heap.heapEnd = c.heap.memSizeAligned + 16 := rfl
  rw [good.valid.represents.whole, fin, good.size] at bounds
  have place : 8 ∣ q := by
    obtain ⟨before, after, rfl, rfl⟩ := mem_spans.1 mem
    have dvd := dvd_extent fun b mem => good.valid.aligned b (List.mem_append_left _ mem)
    omega
  refine ⟨place, by omega, by omega, fun q' n' held' other => ?_⟩
  obtain ⟨k', large', mem'⟩ := good.block held'
  rcases spans_cases mem mem' with same | apart
  · exact absurd (congrArg Prod.fst same) other
  · dsimp only at apart
    omega

theorem blocks_apart_two : ∃ c : Client, c.owned 16 = some 64 ∧ c.owned 96 = some 16 ∧ 8 ∣ 16 ∧ 16 ≤ 16 ∧ 16 + 64 ≤ 128 + 16 ∧
    ∀ q' n', c.owned q' = some n' → 16 ≠ q' → 16 + 64 + 16 ≤ q' ∨ q' + n' + 16 ≤ 16 := by
  have made : Heap.sizeOf 0x20000000 0x200000a0 = some 128 := by decide
  obtain ⟨c, reached, first, second, -⟩ := two_blocks
  exact ⟨c, first, second, blocks_apart made (by decide) (by decide) reached first⟩

/-- `used_mem` is what the used blocks take up; where nothing is in use the heap is one free block again. -/
theorem nothing_lost (made : Heap.sizeOf beginAddr endAddr = some memSize) (address : endAddr < 2 ^ 32)
    (room : 16 ≤ memSize) (reached : Reached Ok bytes memSize c) : ∃ bs, c.heap.Represents bs ∧
      c.heap.usedMem = taken 16 bs ∧ (∀ q, c.owned q ≠ none ↔ ∃ k, (q, k) ∈ live bs) ∧
      ((∀ q, c.owned q = none) → bs = [⟨memSize, false⟩] ∧ c.heap.lfree = 0 ∧ c.heap.usedMem = 0) := by
  obtain ⟨bs, good⟩ := reached.good made address room
  have whole := good.valid.represents.whole
  have fin : c.heap.heapEnd = memSize + 16 := by rw [heapEnd, good.size, sizeofStructMem]
  refine ⟨bs, good.valid.represents, good.valid.usedMem, fun q => ?_, fun none => ?_⟩
  · constructor
    · intro held
      obtain ⟨n, held⟩ := Option.ne_none_iff_exists'.1 held
      obtain ⟨k, -, mem⟩ := good.block held
      exact ⟨k, mem⟩
    · rintro ⟨k, mem⟩
      exact good.blocks.held mem
  · have unused : live bs = [] :=
      List.eq_nil_iff_forall_not_mem.2 fun a mem => good.blocks.held mem (none a.1)
    obtain ⟨n, rfl⟩ := eq_single_of_unused good.valid.coalesced unused fun nil => by
      rw [nil, extent] at whole
      omega
    rw [extent, extent] at whole
    dsimp only at whole
    have size : n = memSize := by omega
    subst size
    refine ⟨rfl, ?_, good.valid.usedMem⟩
    obtain ⟨k, mem⟩ := good.unused unused
    have bounds := spans_bounds mem
    rw [extent, extent] at bounds
    rcases List.mem_singleton.1 mem with here
    have place := congrArg Prod.fst here
    dsimp only at place
    omega

theorem nothing_lost_start : ∃ bs, (start (fun _ => 0) 96).heap.Represents bs ∧
    (start (fun _ => 0) 96).heap.usedMem = taken 16 bs ∧
    (∀ q, (start (fun _ => 0) 96).owned q ≠ none ↔ ∃ k, (q, k) ∈ live bs) ∧
    ((∀ q, (start (fun _ => 0) 96).owned q = none) → bs = [⟨96, false⟩] ∧ (start (fun _ => 0) 96).heap.lfree = 0 ∧
      (start (fun _ => 0) 96).heap.usedMem = 0) := by
  have made : Heap.sizeOf 0x20000000 0x20000080 = some 96 := by decide
  have reached : Reached (fun _ _ => True) (fun _ => 0) 96 (start (fun _ => 0) 96) := .start
  exact nothing_lost made (by decide) (by decide) reached

/-- `rt_malloc` takes the first of all free blocks that it can, and gives nothing only where there is none. -/
theorem malloc_first_fit (made : Heap.sizeOf beginAddr endAddr = some memSize) (address : endAddr < 2 ^ 32)
    (room : 16 ≤ memSize) (reached : Reached (fun c a => ¬ c.Hides a) bytes memSize c) {size : Nat} (some_ : 0 < size)
    (small : size + 7 < 2 ^ 32) : ∃ bs h, c.heap.Represents bs ∧ c.heap.rtMalloc size =
      some (((spans 16 false 0 bs).find? (c.heap.fits (request size))).map Prod.fst, h) := by
  obtain ⟨bs, good, low⟩ := reached.lowest made address room
  have same : c.heap.firstFit bs size = (spans 16 false 0 bs).find? (c.heap.fits (request size)) := by
    refine List.find?_congr fun a mem => ?_
    have first := firstFree_le mem
    rw [← low] at first
    rw [decide_eq_true first, Bool.true_and]
  refine ⟨bs, ?_⟩
  rw [← same]
  rcases malloc_spec good.valid some_ small with ⟨refused, none⟩ | ⟨q, n, k, h, bs', done, found, -, -⟩
  · exact ⟨c.heap, good.valid.represents, by rw [refused, none]; rfl⟩
  · exact ⟨h, good.valid.represents, by rw [done, found]; rfl⟩

theorem malloc_first_fit_two : ∃ (c : Client) (bs : List Block) (h : Heap), c.owned 96 = some 16 ∧ c.heap.Represents bs ∧ c.heap.rtMalloc 8 =
    some (((spans 16 false 0 bs).find? (c.heap.fits (request 8))).map Prod.fst, h) := by
  have made : Heap.sizeOf 0x20000000 0x200000a0 = some 128 := by decide
  obtain ⟨c, reached, -, second, -⟩ := two_blocks
  obtain ⟨bs, h, found⟩ := malloc_first_fit made (by decide) (by decide) reached (by decide : 0 < 8) (by decide)
  exact ⟨c, bs, h, second, found⟩

/-- `rt_realloc` leaves `lfree` at the lowest free block unless it cuts a block behind which `lfree` does not lie. -/
theorem realloc_lowest_iff (made : Heap.sizeOf beginAddr endAddr = some memSize) (address : endAddr < 2 ^ 32)
    (room : 16 ≤ memSize) (reached : Reached (fun c a => ¬ c.Hides a) bytes memSize c) {q size : Nat}
    (legal : c.Legal (.realloc (some q) size)) : ∃ r c' bs', c.call (.realloc (some q) size) = some (r, c') ∧
      c'.heap.Represents bs' ∧ (c'.heap.lfree = firstFree 16 0 bs' ↔ ¬ c.heap.Hides q size) := by
  obtain ⟨bs, good, low⟩ := reached.lowest made address room
  obtain ⟨r, c', bs', done, served⟩ := call_served good legal
  exact ⟨r, c', bs', done, served.good.valid.represents, served.lowest low⟩

/-- A part of 32 bytes is cut off, and then there is no block of 32 bytes to be had. -/
theorem realloc_lowest_iff_two : ∃ (c : Client) (r : Option Nat) (c' : Client) (bs' : List Block),
    c.call (.realloc (some 16) 16) = some (r, c') ∧
    c'.heap.Represents bs' ∧ c'.heap.lfree ≠ firstFree 16 0 bs' ∧ (c'.heap.rtMalloc 32).map Prod.fst = some none := by
  have made : Heap.sizeOf 0x20000000 0x200000a0 = some 128 := by decide
  obtain ⟨c, reached, first, -, hides, refused⟩ := two_blocks
  have legal : c.Legal (.realloc (some 16) 16) :=
    ⟨by decide, fun q mem => by cases mem; rw [first]; exact Option.some_ne_none 64⟩
  obtain ⟨r, c', bs', done, represents, lowest⟩ :=
    realloc_lowest_iff made (by decide) (by decide) reached legal
  rw [done, Option.bind_some] at refused
  exact ⟨c, r, c', bs', done, represents, fun low => lowest.1 low hides, refused⟩

end Reached

end Client

end Ecu.Kernel
