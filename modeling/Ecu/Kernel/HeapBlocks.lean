import Ecu.Kernel.Heap
import Ecu.Lib.Blocks

/-!
# The headers describe blocks

A heap represents an arena when the headers at the beginnings of its blocks say where the next and the last one are. The
three things that the calls do to the headers keep that up: a block is used or freed (`Represents.set_used`), cut in two
(`Represents.split`) or joined with its neighbour (`Represents.combine`).
-/

namespace Ecu.Kernel.Heap

open Memory Blocks

/-! ## One field -/

section Fields

variable (h : Heap) (f : Field) (p v : Nat)

@[simp] theorem set_lfree : (h.set f p v).lfree = h.lfree := rfl
@[simp] theorem set_memSizeAligned : (h.set f p v).memSizeAligned = h.memSizeAligned := rfl
@[simp] theorem set_heapEnd : (h.set f p v).heapEnd = h.heapEnd := rfl
@[simp] theorem set_usedMem : (h.set f p v).usedMem = h.usedMem := rfl
@[simp] theorem count_bytes : (h.count v).bytes = h.bytes := rfl
@[simp] theorem count_lfree : (h.count v).lfree = h.lfree := rfl
@[simp] theorem count_memSizeAligned : (h.count v).memSizeAligned = h.memSizeAligned := rfl
@[simp] theorem count_usedMem : (h.count v).usedMem = h.usedMem + v := rfl

variable {h f p v}

theorem get_set_self (small : v < 256 ^ f.width) : (h.set f p v).get f p = v :=
  load_store small

/-- The other fields of a header, and the other headers. -/
theorem get_set_of_ne {g : Field} {r : Nat} (other : (g ≠ f ∧ r = p) ∨ p + 12 ≤ r ∨ r + 12 ≤ p) :
    (h.set f p v).get g r = h.get g r := by
  refine load_store_outside ?_
  rcases other with ⟨ne, rfl⟩ | apart
  · cases f
    all_goals
      cases g
      all_goals first
        | exact absurd rfl ne
        | (dsimp only [Field.offset, Field.width]; omega)
  · have bounds (g : Field) : g.offset + g.width ≤ 12 := by
      cases g
      all_goals exact Nat.le_of_ble_eq_true rfl
    have f_bounds := bounds f
    have g_bounds := bounds g
    omega

theorem set_bytes {x : Nat} (outside : x < p ∨ p + 12 ≤ x) : (h.set f p v).bytes x = h.bytes x := by
  refine store_outside ?_
  cases f
  all_goals
    dsimp only [Field.offset, Field.width]
    omega

/-- A field depends only on the bytes of its header. -/
theorem get_congr {h' : Heap} {g : Field} {r : Nat} (same : ∀ x, r ≤ x → x < r + 12 → h'.bytes x = h.bytes x) :
    h'.get g r = h.get g r := by
  refine load_congr fun x low high => same x ?_ ?_
  · omega
  · cases g
    all_goals
      dsimp only [Field.offset, Field.width] at high
      omega

end Fields

/-! ## Headers -/

/-- The header at `p` describes a block, and the block in front of it begins at `q`. -/
structure Header (h : Heap) (p q : Nat) (b : Block) : Prop where
  magic : h.magic p = heapMagic
  used : h.used p = b.used.toNat
  next : h.next p = p + 16 + b.size
  prev : h.prev p = q

/-- The headers from `p` on. -/
def Headers (h : Heap) : Nat → Nat → List Block → Prop
  | _, _, [] => True
  | p, q, b :: bs => h.Header p q b ∧ h.Headers (p + 16 + b.size) p bs

/-- Where the last of some blocks begins. -/
def lastStart : Nat → Nat → List Block → Nat
  | _, q, [] => q
  | p, _, b :: bs => lastStart (p + 16 + b.size) p bs

/-- The blocks are those of the heap. -/
structure Represents (h : Heap) (bs : List Block) : Prop where
  headers : h.Headers 0 0 bs
  whole : extent 16 bs = h.heapEnd
  endUsed : h.used h.heapEnd = 1
  small : h.heapEnd + 16 < 2 ^ 32

/-- A byte of a header. -/
def OnHeader (h : Heap) (bs : List Block) (x : Nat) : Prop :=
  ∃ r, (r ∈ starts 16 0 bs ∨ r = h.heapEnd) ∧ r ≤ x ∧ x < r + 16

variable {h h' : Heap}

theorem Header.congr {p q : Nat} {b : Block} (same : ∀ x, p ≤ x → x < p + 12 → h'.bytes x = h.bytes x)
    (header : h.Header p q b) : h'.Header p q b where
  magic := (get_congr same).trans header.magic
  used := (get_congr same).trans header.used
  next := (get_congr same).trans header.next
  prev := (get_congr same).trans header.prev

theorem Headers.congr {p q : Nat} {bs : List Block}
    (same : ∀ r ∈ starts 16 p bs, ∀ x, r ≤ x → x < r + 12 → h'.bytes x = h.bytes x) (headers : h.Headers p q bs) :
    h'.Headers p q bs := by
  induction bs generalizing p q with
  | nil => trivial
  | cons b bs ih =>
    obtain ⟨header, headers⟩ := headers
    exact ⟨header.congr (same p List.mem_cons_self), ih (fun r mem => same r (List.mem_cons_of_mem p mem)) headers⟩

/-- A write to a header elsewhere. -/
theorem Headers.set {p q s v : Nat} {f : Field} {bs : List Block} (headers : h.Headers p q bs)
    (apart : s + 12 ≤ p ∨ p + extent 16 bs ≤ s) : (h.set f s v).Headers p q bs := by
  refine headers.congr fun r mem x low high => set_bytes ?_
  have bounds := starts_bounds mem
  omega

theorem Header.set {p q s v : Nat} {f : Field} {b : Block} (header : h.Header p q b)
    (apart : s + 12 ≤ p ∨ p + 12 ≤ s) : (h.set f s v).Header p q b :=
  header.congr fun x low high => set_bytes (by omega)

theorem headers_append {p q : Nat} {as bs : List Block} : h.Headers p q (as ++ bs) ↔
    h.Headers p q as ∧ h.Headers (p + extent 16 as) (lastStart p q as) bs := by
  induction as generalizing p q with
  | nil => exact ⟨fun headers => ⟨trivial, headers⟩, And.right⟩
  | cons a as ih =>
    rw [List.cons_append, Headers, Headers, ih, extent, lastStart, ← Nat.add_assoc, ← Nat.add_assoc, and_assoc]

theorem lastStart_append (p q : Nat) (as : List Block) (b : Block) :
    lastStart p q (as ++ [b]) = p + extent 16 as := by
  induction as generalizing p q with
  | nil => rfl
  | cons a as ih => rw [List.cons_append, lastStart, ih, extent, ← Nat.add_assoc, ← Nat.add_assoc]

/-- The parts of a heap around one of its blocks. -/
theorem Represents.parts {before after : List Block} {b : Block} (rep : h.Represents (before ++ b :: after)) :
    h.Headers 0 0 before ∧ h.Header (extent 16 before) (lastStart 0 0 before) b ∧
      h.Headers (extent 16 before + 16 + b.size) (extent 16 before) after ∧
      extent 16 before + 16 + b.size + extent 16 after = h.heapEnd := by
  obtain ⟨first, header, rest⟩ := headers_append.1 rep.headers
  rw [Nat.zero_add] at header rest
  refine ⟨first, header, rest, ?_⟩
  rw [← rep.whole, extent_append, extent]
  omega

theorem headers_of_parts {before after : List Block} {b : Block} (first : h.Headers 0 0 before)
    (header : h.Header (extent 16 before) (lastStart 0 0 before) b)
    (rest : h.Headers (extent 16 before + 16 + b.size) (extent 16 before) after) :
    h.Headers 0 0 (before ++ b :: after) := by
  refine headers_append.2 ⟨first, ?_⟩
  rw [Nat.zero_add]
  exact ⟨header, rest⟩

/-- Another block names the same one in front of it. -/
theorem Headers.relink {p q q' : Nat} {bs : List Block} (headers : h.Headers p q bs) (small : q' < 2 ^ 32) :
    (h.set .prev p q').Headers p q' bs := by
  cases bs with
  | nil => trivial
  | cons b bs =>
    obtain ⟨header, rest⟩ := headers
    refine ⟨⟨?_, ?_, ?_, get_set_self small⟩, rest.set (.inl (by omega))⟩
    · exact (get_set_of_ne (.inl ⟨by decide, rfl⟩)).trans header.magic
    · exact (get_set_of_ne (.inl ⟨by decide, rfl⟩)).trans header.used
    · exact (get_set_of_ne (.inl ⟨by decide, rfl⟩)).trans header.next

/-! ## What the calls do to headers -/

variable {before after : List Block}

/-- A write to the header of a block that keeps its size. -/
theorem Represents.set_here {b b' : Block} {f : Field} {v : Nat} (rep : h.Represents (before ++ b :: after))
    (header : (h.set f (extent 16 before) v).Header (extent 16 before) (lastStart 0 0 before) b')
    (size : b'.size = b.size) : (h.set f (extent 16 before) v).Represents (before ++ b' :: after) := by
  obtain ⟨first, -, rest, whole⟩ := rep.parts
  refine ⟨headers_of_parts (first.set (.inr (by omega))) header ?_, ?_, ?_, rep.small⟩
  · rw [size]
    exact rest.set (.inl (by omega))
  · rw [set_heapEnd, ← rep.whole, extent_append, extent_append, extent, extent, size]
  · exact (get_set_of_ne (.inr (.inl (by rw [set_heapEnd]; omega)))).trans rep.endUsed

theorem Represents.set_used {n : Nat} {u : Bool} (rep : h.Represents (before ++ ⟨n, u⟩ :: after)) (v : Bool) :
    (h.set .used (extent 16 before) v.toNat).Represents (before ++ ⟨n, v⟩ :: after) := by
  obtain ⟨-, header, -, -⟩ := rep.parts
  refine rep.set_here ⟨?_, ?_, ?_, ?_⟩ rfl
  · exact (get_set_of_ne (.inl ⟨by decide, rfl⟩)).trans header.magic
  · exact get_set_self (by cases v <;> decide)
  · exact (get_set_of_ne (.inl ⟨by decide, rfl⟩)).trans header.next
  · exact (get_set_of_ne (.inl ⟨by decide, rfl⟩)).trans header.prev

theorem Represents.set_magic {b : Block} (rep : h.Represents (before ++ b :: after)) :
    (h.set .magic (extent 16 before) heapMagic).Represents (before ++ b :: after) := by
  obtain ⟨-, header, -, -⟩ := rep.parts
  refine rep.set_here ⟨?_, ?_, ?_, ?_⟩ rfl
  · exact get_set_self (by decide)
  · exact (get_set_of_ne (.inl ⟨by decide, rfl⟩)).trans header.used
  · exact (get_set_of_ne (.inl ⟨by decide, rfl⟩)).trans header.next
  · exact (get_set_of_ne (.inl ⟨by decide, rfl⟩)).trans header.prev

/-- Other variables do not matter to the headers. -/
theorem Represents.of_bytes {bs : List Block} (rep : h.Represents bs) (bytes : h'.bytes = h.bytes)
    (size : h'.memSizeAligned = h.memSizeAligned) : h'.Represents bs := by
  have same (g : Field) (r : Nat) : h'.get g r = h.get g r := get_congr fun x _ _ => by rw [bytes]
  have fin : h'.heapEnd = h.heapEnd := by rw [heapEnd, size, heapEnd]
  refine ⟨rep.headers.congr fun r _ x _ _ => by rw [bytes], fin ▸ rep.whole, ?_, fin ▸ rep.small⟩
  rw [fin]
  exact (same _ _).trans rep.endUsed

theorem Represents.count {bs : List Block} (rep : h.Represents bs) (n : Nat) : (h.count n).Represents bs :=
  rep.of_bytes rfl rfl

/-- The size of a block grows, and the block behind it is told. -/
theorem Represents.link {b b' : Block} {r : Nat} (middle : List Block)
    (rep : h.Represents (before ++ b :: (middle ++ after))) (used : b'.used = b.used)
    (size : b'.size = b.size + extent 16 middle) (behind : r = extent 16 before + 16 + b'.size) :
    ((h.set .next (extent 16 before) r).set .prev r (extent 16 before)).Represents (before ++ b' :: after) := by
  obtain ⟨first, header, rest, whole⟩ := rep.parts
  obtain ⟨-, rest⟩ := headers_append.1 rest
  rw [extent_append] at whole
  have small := rep.small
  have place : extent 16 before + 16 + b.size + extent 16 middle = r := by omega
  rw [place] at rest
  have header' : (h.set .next (extent 16 before) r).Header (extent 16 before) (lastStart 0 0 before) b' := by
    refine ⟨?_, ?_, (get_set_self (by dsimp only [Field.width]; omega)).trans behind, ?_⟩
    · exact (get_set_of_ne (.inl ⟨by decide, rfl⟩)).trans header.magic
    · exact (get_set_of_ne (.inl ⟨by decide, rfl⟩)).trans (header.used.trans (by rw [used]))
    · exact (get_set_of_ne (.inl ⟨by decide, rfl⟩)).trans header.prev
  refine ⟨headers_of_parts ?_ (header'.set (.inr (by omega))) ?_, ?_, ?_, small⟩
  · exact (first.set (.inr (by omega))).set (.inr (by omega))
  · rw [← behind]
    exact Headers.relink (rest.set (.inl (by omega))) (by omega)
  · rw [set_heapEnd, set_heapEnd, ← whole, extent_append, extent, size]
    omega
  · rw [set_heapEnd, set_heapEnd]
    refine ((get_set_of_ne ?_).trans (get_set_of_ne ?_)).trans rep.endUsed
    · by_cases last : h.heapEnd = r
      · exact .inl ⟨by decide, last⟩
      · refine .inr (.inl ?_)
        cases after with
        | nil => exact absurd (by rw [extent] at whole; omega) last
        | cons c after =>
          rw [extent] at whole
          omega
    · exact .inr (.inl (by omega))

theorem combine_eq (mem : Nat) {nmem r : Nat} (here : h.next nmem = r) (small : r < 2 ^ 32) : h.combine mem nmem =
    ((({ h with lfree := if h.lfree = nmem then mem else h.lfree } : Heap).set .next mem r).set .prev r mem) := by
  have behind : (({ h with lfree := if h.lfree = nmem then mem else h.lfree } : Heap).set .next mem r).next mem = r :=
    get_set_self small
  rw [combine]
  change (({ h with lfree := _ } : Heap).set .next mem (h.next nmem)).set .prev
    ((({ h with lfree := _ } : Heap).set .next mem (h.next nmem)).next mem) mem = _
  rw [here, behind]

/-- A free block takes in the free one behind it. -/
theorem Represents.combine {m n : Nat} {u v : Bool} (rep : h.Represents (before ++ ⟨m, u⟩ :: ⟨n, v⟩ :: after)) :
    (h.combine (extent 16 before) (extent 16 before + 16 + m)).Represents
      (before ++ ⟨m + 16 + n, u⟩ :: after) := by
  obtain ⟨-, -, ⟨header, -⟩, whole⟩ := rep.parts
  dsimp only [extent] at whole
  have small := rep.small
  rw [combine_eq _ header.next (by dsimp only; omega)]
  refine Represents.link [⟨n, v⟩] (rep.of_bytes rfl rfl) rfl ?_ ?_
  · dsimp only [extent]
    omega
  · dsimp only
    omega

/-- The header that `split` puts into a block. -/
def withHeader (h : Heap) (ptr2 next prev : Nat) : Heap :=
  (((h.set .magic ptr2 heapMagic).set .used ptr2 0).set .next ptr2 next).set .prev ptr2 prev

theorem withHeader_header {ptr2 n prev : Nat} (small : ptr2 + 16 + n < 2 ^ 32) (low : prev < 2 ^ 32) :
    (h.withHeader ptr2 (ptr2 + 16 + n) prev).Header ptr2 prev ⟨n, false⟩ where
  magic := ((get_set_of_ne (.inl ⟨by decide, rfl⟩)).trans (get_set_of_ne (.inl ⟨by decide, rfl⟩))).trans
    ((get_set_of_ne (.inl ⟨by decide, rfl⟩)).trans (get_set_self (by decide)))
  used := ((get_set_of_ne (.inl ⟨by decide, rfl⟩)).trans (get_set_of_ne (.inl ⟨by decide, rfl⟩))).trans
    (get_set_self (by decide))
  next := (get_set_of_ne (.inl ⟨by decide, rfl⟩)).trans (get_set_self small)
  prev := get_set_self low

theorem withHeader_bytes {ptr2 next prev x : Nat} (outside : x < ptr2 ∨ ptr2 + 12 ≤ x) :
    (h.withHeader ptr2 next prev).bytes x = h.bytes x := by
  rw [withHeader, set_bytes outside, set_bytes outside, set_bytes outside, set_bytes outside]

theorem split_eq {mem ptr2 r : Nat} (here : h.next mem = r) (apart : mem + 12 ≤ ptr2) (small : r < 2 ^ 32) :
    h.split mem ptr2 = if r ≠ h.heapEnd then
      ((h.withHeader ptr2 r mem).set .next mem ptr2).set .prev r ptr2
    else (h.withHeader ptr2 r mem).set .next mem ptr2 := by
  have first : ((h.set .magic ptr2 heapMagic).set .used ptr2 0).next mem = r :=
    ((get_set_of_ne (.inr (.inr apart))).trans (get_set_of_ne (.inr (.inr apart)))).trans here
  have behind : ((h.withHeader ptr2 r mem).set .next mem ptr2).next ptr2 = r :=
    ((get_set_of_ne (.inr (.inl apart))).trans (get_set_of_ne (.inl ⟨by decide, rfl⟩))).trans (get_set_self small)
  rw [split, first]
  change (if ((h.withHeader ptr2 r mem).set .next mem ptr2).next ptr2 ≠ h.heapEnd then
    ((h.withHeader ptr2 r mem).set .next mem ptr2).set .prev
      (((h.withHeader ptr2 r mem).set .next mem ptr2).next ptr2) ptr2 else _) = _
  rw [behind]
  rfl

theorem split_other (h : Heap) (mem ptr2 : Nat) : (h.split mem ptr2).lfree = h.lfree ∧
    (h.split mem ptr2).memSizeAligned = h.memSizeAligned ∧ (h.split mem ptr2).usedMem = h.usedMem ∧
    (h.split mem ptr2).maxMem = h.maxMem := by
  dsimp only [split]
  split_ifs
  · exact ⟨rfl, rfl, rfl, rfl⟩
  · exact ⟨rfl, rfl, rfl, rfl⟩

/-- A block is cut in two, and the second part is free. -/
theorem Represents.split {k n : Nat} {u : Bool} (rep : h.Represents (before ++ ⟨k + 16 + n, u⟩ :: after)) :
    (h.split (extent 16 before) (extent 16 before + 16 + k)).Represents
      (before ++ ⟨k, u⟩ :: ⟨n, false⟩ :: after) := by
  obtain ⟨first, header, rest, whole⟩ := rep.parts
  have small := rep.small
  dsimp only at rest whole
  have next : h.next (extent 16 before) = extent 16 before + 16 + k + 16 + n := by
    have next := header.next
    dsimp only at next
    omega
  have place : extent 16 before + 16 + (k + 16 + n) = extent 16 before + 16 + k + 16 + n := by omega
  rw [place] at rest whole
  rw [split_eq next (by omega) (by omega)]
  generalize made : h.withHeader (extent 16 before + 16 + k) (extent 16 before + 16 + k + 16 + n) (extent 16 before) = g
  have bytes {x : Nat} (outside : x < extent 16 before + 16 + k ∨ extent 16 before + 16 + k + 12 ≤ x) :
      g.bytes x = h.bytes x := by
    rw [← made, withHeader_bytes outside]
  have fin : g.heapEnd = h.heapEnd := by rw [← made]; rfl
  have second : g.Header (extent 16 before + 16 + k) (extent 16 before) ⟨n, false⟩ := by
    rw [← made]
    exact withHeader_header (by omega) (by omega)
  have first : g.Headers 0 0 before := first.congr fun r mem x low high => bytes (by
    have bounds := starts_bounds mem
    omega)
  have header : g.Header (extent 16 before) (lastStart 0 0 before) ⟨k + 16 + n, u⟩ :=
    header.congr fun x low high => bytes (by omega)
  have rest : g.Headers (extent 16 before + 16 + k + 16 + n) (extent 16 before) after :=
    rest.congr fun r mem x low high => bytes (by
      have bounds := starts_bounds mem
      omega)
  have endUsed : g.used h.heapEnd = 1 := (get_congr fun x low high => bytes (by omega)).trans rep.endUsed
  have cut : (g.set .next (extent 16 before) (extent 16 before + 16 + k)).Header (extent 16 before)
      (lastStart 0 0 before) ⟨k, u⟩ := by
    refine ⟨?_, ?_, get_set_self (by dsimp only [Field.width]; omega), ?_⟩
    · exact (get_set_of_ne (.inl ⟨by decide, rfl⟩)).trans header.magic
    · exact (get_set_of_ne (.inl ⟨by decide, rfl⟩)).trans header.used
    · exact (get_set_of_ne (.inl ⟨by decide, rfl⟩)).trans header.prev
  have parts {g' : Heap} (end_ : g'.heapEnd = h.heapEnd) (first : g'.Headers 0 0 before)
      (cut : g'.Header (extent 16 before) (lastStart 0 0 before) ⟨k, u⟩)
      (second : g'.Header (extent 16 before + 16 + k) (extent 16 before) ⟨n, false⟩)
      (rest : g'.Headers (extent 16 before + 16 + k + 16 + n) (extent 16 before + 16 + k) after)
      (endUsed : g'.used h.heapEnd = 1) : g'.Represents (before ++ ⟨k, u⟩ :: ⟨n, false⟩ :: after) := by
    refine ⟨headers_of_parts first cut ⟨second, rest⟩, ?_, end_ ▸ endUsed, end_ ▸ small⟩
    rw [end_, ← whole, extent_append, extent, extent]
    dsimp only
    omega
  have first := Headers.set (f := .next) (s := extent 16 before) (v := extent 16 before + 16 + k) first
    (.inr (by omega))
  have second := Header.set (f := .next) (s := extent 16 before) (v := extent 16 before + 16 + k) second
    (.inl (by omega))
  have rest := Headers.set (f := .next) (s := extent 16 before) (v := extent 16 before + 16 + k) rest
    (.inl (by omega))
  split_ifs with last
  · refine parts fin (first.set (.inr (by omega))) (cut.set (.inr (by omega))) (second.set (.inr (by omega)))
      (rest.relink (by omega)) ?_
    refine (get_set_of_ne ?_).trans ((get_set_of_ne (.inr (.inl (by omega)))).trans endUsed)
    refine .inr (.inl ?_)
    cases after with
    | nil => exact absurd (by rw [extent] at whole; omega) last
    | cons c after =>
      rw [extent] at whole
      omega
  · rw [ne_eq, not_not] at last
    have none : after = [] := by
      cases after with
      | nil => rfl
      | cons c after =>
        rw [extent] at whole
        omega
    subst none
    exact parts fin first cut second trivial ((get_set_of_ne (.inr (.inl (by omega)))).trans endUsed)

end Ecu.Kernel.Heap
