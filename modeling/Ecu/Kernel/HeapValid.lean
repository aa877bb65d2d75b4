import Ecu.Kernel.HeapBlocks

/-!
# What `rt_malloc`, `rt_free` and `rt_realloc` do to the blocks

`Valid` is the invariant of the heap: the headers describe an arena without free neighbours, `lfree` is a free block or
the end, and `used_mem` is what the used blocks take up. `plug_holes` only joins free blocks (`Joined`), so it changes
neither the used ones nor the bytes behind headers.
-/

namespace Ecu.Kernel.Heap

open Memory Blocks

/-- A free block begins here. -/
def IsFree (bs : List Block) (p : Nat) : Prop :=
  ∃ n, (p + 16, n) ∈ spans 16 false 0 bs

/-- The used blocks, each with its first byte and its size. -/
abbrev live (bs : List Block) : List (Nat × Nat) :=
  spans 16 true 0 bs

structure Valid (h : Heap) (bs : List Block) : Prop where
  represents : h.Represents bs
  coalesced : Coalesced bs
  aligned : ∀ b ∈ bs, 8 ∣ b.size
  lfree : IsFree bs h.lfree ∨ h.lfree = h.heapEnd
  usedMem : h.usedMem = taken 16 bs
  inside : ∀ a ∈ live bs, a.1 < h.heapEnd
  room : 16 ≤ h.memSizeAligned

/-- `lfree` is the lowest free block. -/
def Lowest (h : Heap) (bs : List Block) : Prop :=
  h.lfree = firstFree 16 0 bs

variable {h h' h'' : Heap} {bs bs' bs'' before after : List Block}

/-! ## Free blocks are joined -/

/-- Some free blocks are now one with the block in front of them. -/
structure Joined (h : Heap) (bs : List Block) (h' : Heap) (bs' : List Block) : Prop where
  represents : h'.Represents bs'
  live : live bs' = live bs
  taken : taken 16 bs' = taken 16 bs
  aligned : (∀ b ∈ bs, 8 ∣ b.size) → ∀ b ∈ bs', 8 ∣ b.size
  headers : ∀ x, h'.OnHeader bs' x → h.OnHeader bs x
  bytes : ∀ x, ¬ h.OnHeader bs x → h'.bytes x = h.bytes x
  size : h'.memSizeAligned = h.memSizeAligned
  usedMem : h'.usedMem = h.usedMem
  lfree : IsFree bs h.lfree → IsFree bs' h'.lfree
  endFree : h.lfree = h.heapEnd → h'.lfree = h.lfree
  first : firstFree 16 0 bs' = firstFree 16 0 bs
  lowest : h.lfree = firstFree 16 0 bs → h'.lfree = h.lfree

theorem Joined.refl (rep : h.Represents bs) : Joined h bs h bs where
  represents := rep
  live := rfl
  taken := rfl
  aligned := id
  headers _ := id
  bytes _ _ := rfl
  size := rfl
  usedMem := rfl
  lfree := id
  endFree _ := rfl
  first := rfl
  lowest _ := rfl

theorem Joined.heapEnd (joined : Joined h bs h' bs') : h'.heapEnd = h.heapEnd := by
  rw [Heap.heapEnd, joined.size, Heap.heapEnd]

theorem Joined.trans (joined : Joined h bs h' bs') (later : Joined h' bs' h'' bs'') : Joined h bs h'' bs'' where
  represents := later.represents
  live := later.live.trans joined.live
  taken := later.taken.trans joined.taken
  aligned all := later.aligned (joined.aligned all)
  headers x on := joined.headers x (later.headers x on)
  bytes x off := (later.bytes x fun on => off (joined.headers x on)).trans (joined.bytes x off)
  size := later.size.trans joined.size
  usedMem := later.usedMem.trans joined.usedMem
  lfree free := later.lfree (joined.lfree free)
  endFree last := (later.endFree ((joined.endFree last).trans (last.trans joined.heapEnd.symm))).trans
    (joined.endFree last)
  first := later.first.trans joined.first
  lowest low := (later.lowest ((joined.lowest low).trans (low.trans joined.first.symm))).trans (joined.lowest low)

/-- A byte off the headers is none of one header. -/
theorem outside_of_off {r x : Nat} (start : r ∈ starts 16 0 bs ∨ r = h.heapEnd) (off : ¬ h.OnHeader bs x) :
    x < r ∨ r + 12 ≤ x := by
  by_contra inside
  exact off ⟨r, start, by omega, by omega⟩

theorem start_mem {b : Block} : extent 16 before ∈ starts 16 0 (before ++ b :: after) :=
  mem_starts.2 ⟨before, b, after, rfl, (Nat.zero_add _).symm⟩

/-- The place behind a block. -/
theorem next_start {b : Block} (rep : h.Represents (before ++ b :: after)) :
    extent 16 before + 16 + b.size ∈ starts 16 0 (before ++ b :: after) ∨
      extent 16 before + 16 + b.size = h.heapEnd := by
  cases after with
  | nil =>
    obtain ⟨-, -, -, whole⟩ := rep.parts
    exact .inr whole
  | cons c after =>
    refine .inl (mem_starts.2 ⟨before ++ [b], c, after, by simp, ?_⟩)
    rw [extent_append, extent, extent]
    omega

theorem isFree_combine {m n p : Nat} (free : IsFree (before ++ ⟨m, false⟩ :: ⟨n, false⟩ :: after) p) :
    IsFree (before ++ ⟨m + 16 + n, false⟩ :: after)
      (if p = extent 16 before + 16 + m then extent 16 before else p) := by
  obtain ⟨k, mem⟩ := free
  rw [spans_append, spans_used, spans_used, Nat.zero_add] at mem
  rw [IsFree, spans_append, spans_used, Nat.zero_add,
    show extent 16 before + 16 + (m + 16 + n) = extent 16 before + 16 + m + 16 + n by omega]
  rcases List.mem_append.1 mem with mem | mem
  · have bounds := spans_bounds mem
    rw [if_neg (by omega)]
    exact ⟨k, List.mem_append_left _ mem⟩
  rcases List.mem_cons.1 mem with here | mem
  · have here := congrArg Prod.fst here
    dsimp only at here
    rw [if_neg (by omega), here]
    exact ⟨m + 16 + n, List.mem_append_right _ List.mem_cons_self⟩
  rcases List.mem_cons.1 mem with here | mem
  · have here := congrArg Prod.fst here
    dsimp only at here
    rw [if_pos (by omega)]
    exact ⟨m + 16 + n, List.mem_append_right _ List.mem_cons_self⟩
  · have bounds := spans_bounds mem
    rw [if_neg (by omega)]
    exact ⟨k, List.mem_append_right _ (List.mem_cons_of_mem _ mem)⟩

theorem joined_combine {m n : Nat} (rep : h.Represents (before ++ ⟨m, false⟩ :: ⟨n, false⟩ :: after)) :
    Joined h (before ++ ⟨m, false⟩ :: ⟨n, false⟩ :: after)
      (h.combine (extent 16 before) (extent 16 before + 16 + m)) (before ++ ⟨m + 16 + n, false⟩ :: after) := by
  obtain ⟨-, -, ⟨header, -⟩, whole⟩ := rep.parts
  dsimp only [extent] at whole
  have small := rep.small
  have behind : extent 16 before + 16 + m + 16 + n ∈ starts 16 0 (before ++ ⟨m, false⟩ :: ⟨n, false⟩ :: after) ∨
      extent 16 before + 16 + m + 16 + n = h.heapEnd := by
    have rep' : h.Represents ((before ++ [⟨m, false⟩]) ++ ⟨n, false⟩ :: after) := by rwa [List.append_assoc]
    have next := next_start rep'
    rw [extent_append, List.append_assoc] at next
    dsimp only [extent] at next
    rwa [show extent 16 before + (16 + m + 0) + 16 + n = extent 16 before + 16 + m + 16 + n by omega] at next
  have equation := combine_eq (extent 16 before) header.next (by dsimp only; omega)
  have later : extent 16 before + 16 + (m + 16 + n) = extent 16 before + 16 + m + 16 + n := by omega
  exact {
    represents := rep.combine
    live := by
      rw [live, live, spans_append, spans_append, spans_other Bool.false_ne_true, spans_other Bool.false_ne_true,
        spans_other Bool.false_ne_true, Nat.zero_add, later]
    taken := by
      rw [taken_append, taken_append, taken_free, taken_free, taken_free]
    aligned := by
      intro all
      have first := all ⟨m, false⟩ (by simp)
      have second := all ⟨n, false⟩ (by simp)
      dsimp only at first second
      refine List.forall_mem_append.2 ⟨fun b mem => all b (List.mem_append_left _ mem),
        List.forall_mem_cons.2 ⟨?_, fun b mem => all b (by simp [mem])⟩⟩
      dsimp only
      omega
    headers := by
      rintro x ⟨r, start, low, high⟩
      refine ⟨r, start.imp_left fun start => ?_, low, high⟩
      rw [starts_append, starts, Nat.zero_add] at start
      rw [starts_append, starts, starts, Nat.zero_add]
      dsimp only at start ⊢
      rw [later] at start
      rcases List.mem_append.1 start with start | start
      · exact List.mem_append_left _ start
      · refine List.mem_append_right _ ?_
        rcases List.mem_cons.1 start with rfl | start
        · exact List.mem_cons_self
        · exact List.mem_cons_of_mem _ (List.mem_cons_of_mem _ start)
    bytes := by
      intro x off
      rw [equation, set_bytes (outside_of_off behind off), set_bytes (outside_of_off (.inl start_mem) off)]
    size := by rw [equation]; rfl
    usedMem := by rw [equation]; rfl
    lfree := by
      rw [equation]
      exact isFree_combine
    endFree := by
      intro last
      rw [equation]
      exact if_neg (by rw [last]; dsimp only; omega)
    first := firstFree_stop 0 before (m + 16 + n) m after (⟨n, false⟩ :: after)
    lowest := by
      intro low
      have mem : (0 + extent 16 before + 16, m) ∈ spans 16 false 0 (before ++ ⟨m, false⟩ :: ⟨n, false⟩ :: after) :=
        mem_spans.2 ⟨before, ⟨n, false⟩ :: after, rfl, rfl⟩
      have le := firstFree_le mem
      rw [equation]
      exact if_neg (by rw [low]; dsimp only; omega) }

theorem joined_plugForward {m : Nat} (rep : h.Represents (before ++ ⟨m, false⟩ :: after))
    (coalesced : Coalesced after) : ∃ m' after',
      Joined h (before ++ ⟨m, false⟩ :: after) (h.plugForward (extent 16 before)) (before ++ ⟨m', false⟩ :: after') ∧
        Coalesced (⟨m', false⟩ :: after') := by
  obtain ⟨-, header, rest, whole⟩ := rep.parts
  dsimp only at rest whole
  have next : h.next (extent 16 before) = extent 16 before + 16 + m := header.next
  rw [plugForward, next]
  cases after with
  | nil =>
    refine ⟨m, [], ?_, List.isChain_singleton _⟩
    rw [extent] at whole
    rw [if_neg fun free => free.2.2 (by omega)]
    exact Joined.refl rep
  | cons b after =>
    obtain ⟨n, u⟩ := b
    have used : h.used (extent 16 before + 16 + m) = u.toNat := rest.1.used
    dsimp only [extent] at whole
    cases u with
    | true =>
      refine ⟨m, ⟨n, true⟩ :: after, ?_, List.isChain_cons_cons.2 ⟨.inr rfl, coalesced⟩⟩
      rw [if_neg fun free => by rw [used] at free; cases free.2.1]
      exact Joined.refl rep
    | false =>
      refine ⟨m + 16 + n, after, ?_, coalesced.resize_head⟩
      rw [if_pos ⟨by omega, used, by omega⟩]
      exact joined_combine rep

theorem joined_plugBackward {m : Nat} (rep : h.Represents (before ++ ⟨m, false⟩ :: after))
    (front : Coalesced before) (back : Coalesced (⟨m, false⟩ :: after)) : ∃ bs',
      Joined h (before ++ ⟨m, false⟩ :: after) (h.plugBackward (extent 16 before)) bs' ∧ Coalesced bs' := by
  obtain ⟨first, header, -, -⟩ := rep.parts
  have prev : h.prev (extent 16 before) = lastStart 0 0 before := header.prev
  rw [plugBackward, prev]
  rcases List.eq_nil_or_concat before with rfl | ⟨before, b, rfl⟩
  · refine ⟨⟨m, false⟩ :: after, ?_, back⟩
    rw [if_neg fun free => free.1 rfl]
    exact Joined.refl rep
  · obtain ⟨n, u⟩ := b
    rw [List.concat_eq_append] at *
    rw [lastStart_append, Nat.zero_add]
    have place : extent 16 (before ++ [⟨n, u⟩]) = extent 16 before + 16 + n := by
      rw [extent_append, extent, extent]
      dsimp only
      omega
    have used : h.used (extent 16 before) = u.toNat := by
      have header := (headers_append.1 first).2.1
      rw [Nat.zero_add] at header
      exact header.used
    rw [place, List.append_assoc]
    rw [List.append_assoc] at rep
    cases u with
    | true =>
      refine ⟨before ++ ([⟨n, true⟩] ++ ⟨m, false⟩ :: after), ?_, ?_⟩
      · rw [if_neg fun free => by rw [used] at free; cases free.2]
        exact Joined.refl rep
      · exact coalesced_append_cons.2 ⟨front, back.cons_used rfl⟩
    | false =>
      refine ⟨before ++ ⟨n + 16 + m, false⟩ :: after, ?_, ?_⟩
      · rw [if_pos ⟨by omega, used⟩]
        exact joined_combine rep
      · have joined : Coalesced (before ++ ⟨n, false⟩ :: after) :=
          coalesced_append_cons.2 ⟨front, back.resize_head⟩
        exact joined.resize

/-- A free block between others is joined with them. -/
theorem joined_plugHoles {m : Nat} (rep : h.Represents (before ++ ⟨m, false⟩ :: after)) (front : Coalesced before)
    (back : Coalesced after) : ∃ h' bs', h.plugHoles (extent 16 before) = some h' ∧
      Joined h (before ++ ⟨m, false⟩ :: after) h' bs' ∧ Coalesced bs' := by
  obtain ⟨-, header, -, whole⟩ := rep.parts
  dsimp only at whole
  have used : h.used (extent 16 before) = 0 := header.used
  obtain ⟨m', after', joined, back⟩ := joined_plugForward rep back
  obtain ⟨bs', joined', coalesced⟩ := joined_plugBackward joined.represents front back
  refine ⟨_, bs', ?_, joined.trans joined', coalesced⟩
  rw [plugHoles, if_pos ⟨by omega, used⟩]

end Ecu.Kernel.Heap
