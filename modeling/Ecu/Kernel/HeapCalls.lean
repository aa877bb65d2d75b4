import Ecu.Kernel.HeapValid

/-!
# The calls

Each call ends, and says by which blocks of the arena. `rt_free` takes its block out of the used ones; `rt_malloc` puts
one in that is at least as large as asked for, the first fit from `lfree` on; the last free block fits only where some
of it is left.
-/

namespace Ecu.Kernel.Heap

open Memory Blocks

variable {h h' : Heap} {bs bs' before after : List Block}

/-! ## `rt_free` -/

theorem dvd_extent (aligned : ∀ b ∈ bs, 8 ∣ b.size) : 8 ∣ extent 16 bs := by
  induction bs with
  | nil => exact Nat.dvd_zero 8
  | cons b bs ih =>
    have first := aligned b List.mem_cons_self
    have rest := ih fun c mem => aligned c (List.mem_cons_of_mem b mem)
    rw [extent]
    omega

/-- What is left untouched by a call: the bytes off the headers of an arena. -/
def Untouched (h : Heap) (bs : List Block) (h' : Heap) : Prop :=
  h'.memSizeAligned = h.memSizeAligned ∧ ∀ x, ¬ h.OnHeader bs x → h'.bytes x = h.bytes x

/-- Headers lie where they lie, whether the block is used or not. -/
theorem onHeader_used {n x : Nat} {u v : Bool} (on : h.OnHeader (before ++ ⟨n, u⟩ :: after) x) :
    h.OnHeader (before ++ ⟨n, v⟩ :: after) x := by
  obtain ⟨r, start, low, high⟩ := on
  refine ⟨r, start.imp_left fun start => ?_, low, high⟩
  rw [starts_append] at start ⊢
  exact start

theorem isFree_freed {n p : Nat} (free : IsFree (before ++ ⟨n, true⟩ :: after) p) :
    IsFree (before ++ ⟨n, false⟩ :: after) p := by
  obtain ⟨k, mem⟩ := free
  rw [spans_append, spans_other Bool.noConfusion] at mem
  rw [IsFree, spans_append, spans_used]
  refine ⟨k, ?_⟩
  rcases List.mem_append.1 mem with mem | mem
  · exact List.mem_append_left _ mem
  · exact List.mem_append_right _ (List.mem_cons_of_mem _ mem)

theorem isFree_here {n : Nat} : IsFree (before ++ ⟨n, false⟩ :: after) (extent 16 before) :=
  ⟨n, mem_spans.2 ⟨before, after, rfl, by rw [Nat.zero_add]⟩⟩

theorem release_represents {n : Nat} (rep : h.Represents (before ++ ⟨n, true⟩ :: after)) :
    (h.release (extent 16 before)).Represents (before ++ ⟨n, false⟩ :: after) :=
  (rep.set_used false).set_magic.of_bytes rfl rfl

theorem release_usedMem {n : Nat} (rep : h.Represents (before ++ ⟨n, true⟩ :: after)) :
    (h.release (extent 16 before)).usedMem = h.usedMem - (16 + n) := by
  obtain ⟨-, header, -, -⟩ := ((rep.set_used false).set_magic).parts
  have next := header.next
  change h.usedMem - (((h.set .used (extent 16 before) 0).set .magic (extent 16 before) heapMagic).next
    (extent 16 before) - extent 16 before) = _
  change ((h.set .used (extent 16 before) 0).set .magic (extent 16 before) heapMagic).next (extent 16 before) = _
    at next
  rw [next]
  dsimp only
  omega

/-- The block is no longer used, and nothing else has changed. -/
theorem free_spec {n : Nat} (valid : Valid h (before ++ ⟨n, true⟩ :: after)) : ∃ h' bs',
    h.rtFree (some (extent 16 before + 16)) = some h' ∧ Valid h' bs' ∧
      live bs' = live before ++ spans 16 true (extent 16 before + 16 + n) after ∧
      Untouched h (before ++ ⟨n, true⟩ :: after) h' ∧ IsFree bs' h'.lfree ∧
      (Lowest h (before ++ ⟨n, true⟩ :: after) → Lowest h' bs') := by
  have rep := valid.represents
  obtain ⟨-, header, -, whole⟩ := rep.parts
  dsimp only at whole
  have place : 8 ∣ extent 16 before := dvd_extent fun b mem => valid.aligned b (List.mem_append_left _ mem)
  have inside : extent 16 before + 16 < h.heapEnd :=
    valid.inside (extent 16 before + 16, n) (mem_spans.2 ⟨before, after, rfl, by rw [Nat.zero_add]⟩)
  have used : h.used (extent 16 before) = 1 := header.used
  have magic : h.magic (extent 16 before) = heapMagic := header.magic
  obtain ⟨h', bs', plugged, joined, coalesced⟩ := joined_plugHoles (release_represents rep)
    valid.coalesced.left (List.IsChain.tail valid.coalesced.right)
  have live' : live bs' = live before ++ spans 16 true (extent 16 before + 16 + n) after := by
    rw [joined.live, live, spans_append, spans_other Bool.false_ne_true, Nat.zero_add]
  have live : live (before ++ ⟨n, true⟩ :: after) =
      live before ++ (extent 16 before + 16, n) :: spans 16 true (extent 16 before + 16 + n) after := by
    rw [Heap.live, spans_append, spans_used, Nat.zero_add]
  have lowered : (h.release (extent 16 before)).lfree =
      if extent 16 before < h.lfree then extent 16 before else h.lfree := rfl
  have free : IsFree bs' h'.lfree := by
    refine joined.lfree ?_
    rw [lowered]
    split_ifs with lower
    · exact isFree_here
    · exact isFree_freed (valid.lfree.resolve_right fun last => lower (by omega))
  have first := firstFree_freed 16 (by decide) 0 before n after
  rw [Nat.zero_add] at first
  refine ⟨h', bs', ?_, ⟨joined.represents, coalesced, joined.aligned ?_, .inl free, ?_, ?_, ?_⟩, live', ⟨joined.size,
    fun x off => ?_⟩, free, fun low => ?_⟩
  · rw [rtFree, if_pos ⟨by omega, inside⟩]
    dsimp only
    rw [show extent 16 before + 16 - sizeofStructMem = extent 16 before from Nat.add_sub_cancel _ 16,
      if_pos ⟨by rw [used]; exact Nat.one_ne_zero, magic⟩, plugged]
  · refine List.forall_mem_append.2 ⟨fun b mem => valid.aligned b (List.mem_append_left _ mem),
      List.forall_mem_cons.2 ⟨?_, fun b mem => valid.aligned b (by simp [mem])⟩⟩
    exact valid.aligned ⟨n, true⟩ (by simp)
  · rw [joined.usedMem, release_usedMem rep, joined.taken, valid.usedMem, taken_append, taken_append, taken_used,
      taken_free]
    omega
  · rw [joined.heapEnd, live']
    intro a mem
    refine valid.inside a ?_
    rw [live]
    rcases List.mem_append.1 mem with mem | mem
    · exact List.mem_append_left _ mem
    · exact List.mem_append_right _ (List.mem_cons_of_mem _ mem)
  · rw [joined.size]
    exact valid.room
  · have off' : ¬ (h.release (extent 16 before)).OnHeader (before ++ ⟨n, false⟩ :: after) x :=
      mt onHeader_used off
    rw [joined.bytes x off']
    change ((h.set .used (extent 16 before) 0).set .magic (extent 16 before) heapMagic).bytes x = _
    rw [set_bytes (outside_of_off (.inl start_mem) off), set_bytes (outside_of_off (.inl start_mem) off)]
  · have low : h.lfree = firstFree 16 0 (before ++ ⟨n, true⟩ :: after) := low
    rw [← low] at first
    rw [Lowest, joined.first, first, joined.lowest (lowered.trans first.symm), lowered]

/-! ## The loops of `rt_malloc` -/

theorem sub32_eq {a b : Nat} (le : b ≤ a) (small : a < 2 ^ 32) : sub32 a b = a - b := by
  rw [sub32]
  omega

theorem place_cons (b : Block) : extent 16 (before ++ [b]) = extent 16 before + 16 + b.size := by
  rw [extent_append, extent, extent]
  omega

/-- The size of a block as the calls compute it. -/
theorem sub32_next {b : Block} (rep : h.Represents (before ++ b :: after)) :
    sub32 (h.next (extent 16 before)) (extent 16 before + sizeofStructMem) = b.size := by
  obtain ⟨-, header, -, whole⟩ := rep.parts
  have small := rep.small
  rw [header.next, sizeofStructMem, sub32_eq (by omega) (by omega)]
  omega

/-- Whether a free block can be taken for `size` bytes: the last one only where some of it is left. -/
def fits (h : Heap) (size : Nat) (a : Nat × Nat) : Bool :=
  decide (size ≤ a.2 ∧ a.1 + size < h.heapEnd)

theorem fits_iff {size : Nat} {a : Nat × Nat} : h.fits size a = true ↔ size ≤ a.2 ∧ a.1 + size < h.heapEnd :=
  decide_eq_true_iff

/-- The search finds the first free block that can be taken. -/
theorem search_spec {rest : List Block} {fuel size : Nat} (rep : h.Represents (before ++ rest))
    (enough : rest.length < fuel) (within : size ≤ h.memSizeAligned) :
    h.search size fuel (extent 16 before) =
      some (((spans 16 false (extent 16 before) rest).find? (h.fits size)).map fun a => a.1 - 16) := by
  have small := rep.small
  have size_eq : h.heapEnd = h.memSizeAligned + 16 := rfl
  induction rest generalizing before fuel with
  | nil =>
    obtain _ | fuel := fuel
    · cases enough
    · have whole := rep.whole
      rw [List.append_nil] at whole
      rw [search, sub32_eq within (by omega), if_neg (by omega)]
      rfl
  | cons b rest ih =>
    obtain _ | fuel := fuel
    · cases enough
    obtain ⟨-, header, -, whole⟩ := rep.parts
    have next := header.next
    have used := header.used
    have rep' : h.Represents ((before ++ [b]) ++ rest) := by rwa [List.append_assoc]
    have later := ih rep' (Nat.lt_of_succ_lt_succ enough)
    rw [place_cons] at later
    rw [search, sub32_eq within (by omega), sub32_next rep]
    split_ifs with low found
    · have free : b.used = false := by
        cases kind : b.used with
        | false => rfl
        | true =>
          rw [used, kind] at found
          cases found.1
      rw [spans, if_pos free, List.find?_cons_of_pos (fits_iff.2 ⟨found.2, by dsimp only; omega⟩)]
      rfl
    · rw [next, later, spans]
      split_ifs with free
      · rw [List.find?_cons_of_neg fun can => found ⟨?_, (fits_iff.1 can).1⟩]
        rw [used, free]
        rfl
      · rfl
    · rw [List.find?_eq_none.2 fun a mem can => ?_]
      · rfl
      · have bounds := spans_bounds mem
        have can := fits_iff.1 can
        omega

/-- The first free block from here on, or the end. -/
theorem advance_spec {rest : List Block} {fuel : Nat} (rep : h.Represents (before ++ rest))
    (enough : rest.length < fuel) :
    h.advance fuel (extent 16 before) = some (firstFree 16 (extent 16 before) rest) := by
  induction rest generalizing before fuel with
  | nil =>
    obtain _ | fuel := fuel
    · cases enough
    · have whole := rep.whole
      rw [List.append_nil] at whole
      rw [advance, if_neg fun more => more.2 whole]
      rfl
  | cons b rest ih =>
    obtain _ | fuel := fuel
    · cases enough
    obtain ⟨-, header, -, whole⟩ := rep.parts
    have next := header.next
    have used := header.used
    rw [advance, firstFree]
    split_ifs with more kind kind
    · rw [next, ← place_cons]
      exact ih (by rwa [List.append_assoc]) (Nat.lt_of_succ_lt_succ enough)
    · rw [Bool.not_eq_true] at kind
      rw [used, kind] at more
      exact absurd rfl more.1
    · refine absurd ⟨?_, by omega⟩ more
      rw [used, kind]
      exact Nat.one_ne_zero
    · rfl

/-! ## `rt_malloc` -/

/-- A free block at `before` is now used, with what is left of it behind. -/
structure Occupied (h : Heap) (before : List Block) (n : Nat) (after : List Block) (g : Heap) (k : Nat)
    (after' : List Block) : Prop where
  represents : g.Represents (before ++ ⟨k, true⟩ :: after')
  coalesced : Coalesced (⟨k, true⟩ :: after')
  aligned : ∀ b ∈ ⟨k, true⟩ :: after', 8 ∣ b.size
  others : spans 16 true (extent 16 before + 16 + k) after' = spans 16 true (extent 16 before + 16 + n) after
  usedMem : g.usedMem = h.usedMem + (16 + k)
  taken : taken 16 after' = taken 16 after
  lfree : g.lfree = h.lfree
  size : g.memSizeAligned = h.memSizeAligned
  free : ∀ q m, (q, m) ∈ spans 16 false (extent 16 before + 16 + n) after →
    (q, m) ∈ spans 16 false (extent 16 before + 16 + k) after'
  bytes : ∀ x, ¬ h.OnHeader (before ++ ⟨k, true⟩ :: after') x → g.bytes x = h.bytes x

theorem split_bytes {k n x : Nat} {u : Bool} (rep : h.Represents (before ++ ⟨k + 16 + n, u⟩ :: after))
    (off : ¬ h.OnHeader (before ++ ⟨k, u⟩ :: ⟨n, false⟩ :: after) x) :
    (h.split (extent 16 before) (extent 16 before + 16 + k)).bytes x = h.bytes x := by
  obtain ⟨-, header, -, whole⟩ := rep.parts
  have small := rep.small
  have next := header.next
  dsimp only at next whole
  have here : x < extent 16 before ∨ extent 16 before + 12 ≤ x := outside_of_off (.inl start_mem) off
  have second : x < extent 16 before + 16 + k ∨ extent 16 before + 16 + k + 12 ≤ x := by
    refine outside_of_off (.inl ?_) off
    rw [starts_append, starts, starts, Nat.zero_add]
    exact List.mem_append_right _ (List.mem_cons_of_mem _ List.mem_cons_self)
  rw [split_eq next (by omega) (by omega)]
  split_ifs with last
  · have third : extent 16 before + 16 + (k + 16 + n) ∈ starts 16 0 (before ++ ⟨k, u⟩ :: ⟨n, false⟩ :: after) := by
      cases after with
      | nil => exact absurd whole last
      | cons c after =>
        rw [starts_append, starts, starts, starts, Nat.zero_add]
        refine List.mem_append_right _ (List.mem_cons_of_mem _ (List.mem_cons_of_mem _ ?_))
        dsimp only
        rw [show extent 16 before + 16 + k + 16 + n = extent 16 before + 16 + (k + 16 + n) by omega]
        exact List.mem_cons_self
    rw [set_bytes (outside_of_off (.inl third) off), set_bytes here, withHeader_bytes second]
  · rw [set_bytes here, withHeader_bytes second]

theorem occupy_split {b : Block} {size : Nat} (rep : h.Represents (before ++ b :: after)) (much : size + 32 ≤ b.size) :
    h.occupy (extent 16 before) size = (((h.split (extent 16 before) (extent 16 before + 16 + size)).set .used
      (extent 16 before) 1).count (size + 16)).set .magic (extent 16 before) heapMagic := by
  rw [occupy, if_pos (by rw [sub32_next rep]; exact much)]
  rfl

theorem occupy_whole {b : Block} {size : Nat} (rep : h.Represents (before ++ b :: after)) (few : ¬ size + 32 ≤ b.size) :
    h.occupy (extent 16 before) size = ((h.set .used (extent 16 before) 1).count
      ((h.set .used (extent 16 before) 1).next (extent 16 before) - extent 16 before)).set .magic (extent 16 before)
        heapMagic := by
  rw [occupy, if_neg (by rw [sub32_next rep]; exact few)]

theorem occupy_spec {n size : Nat} (valid : Valid h (before ++ ⟨n, false⟩ :: after)) (large : size ≤ n)
    (aligned : 8 ∣ size) : ∃ k after', size ≤ k ∧
      Occupied h before n after (h.occupy (extent 16 before) size) k after' := by
  have rep := valid.represents
  have back : Coalesced after := List.IsChain.tail valid.coalesced.right
  have sizes : ∀ b ∈ after, 8 ∣ b.size := fun b mem => valid.aligned b (by simp [mem])
  have dvd : 8 ∣ n := valid.aligned ⟨n, false⟩ (by simp)
  obtain ⟨-, -, -, whole⟩ := rep.parts
  dsimp only at whole
  by_cases much : size + 32 ≤ n
  · rw [occupy_split rep much]
    obtain ⟨m, rfl⟩ : ∃ m, n = size + 16 + m := ⟨n - (size + 16), by omega⟩
    obtain ⟨lfree, memSize, usedMem, -⟩ := split_other h (extent 16 before)
      (extent 16 before + 16 + size)
    have cut := (rep.split).set_used true
    refine ⟨size, ⟨m, false⟩ :: after, Nat.le_refl size, (cut.count _).set_magic, ?_, ?_, ?_, ?_, taken_free _ _,
      ?_, ?_, ?_, ?_⟩
    · have resized : Coalesced (⟨m, false⟩ :: after) := valid.coalesced.right.resize_head
      exact resized.cons_used rfl
    · refine List.forall_mem_cons.2 ⟨aligned, List.forall_mem_cons.2 ⟨?_, sizes⟩⟩
      dsimp only
      omega
    · rw [spans_other Bool.false_ne_true, show extent 16 before + 16 + size + 16 + m =
        extent 16 before + 16 + (size + 16 + m) by omega]
    · rw [set_usedMem, count_usedMem, set_usedMem, usedMem]
      omega
    · rw [set_lfree, count_lfree, set_lfree, lfree]
    · rw [set_memSizeAligned, count_memSizeAligned, set_memSizeAligned, memSize]
    · intro q k mem
      rw [spans_used, show extent 16 before + 16 + size + 16 + m = extent 16 before + 16 + (size + 16 + m) by omega]
      exact List.mem_cons_of_mem _ mem
    · intro x off
      have here := outside_of_off (.inl start_mem) off
      rw [set_bytes here, count_bytes, set_bytes here, split_bytes rep (mt onHeader_used off)]
  · rw [occupy_whole rep much]
    have used := rep.set_used true
    refine ⟨n, after, large, (used.count _).set_magic, back.cons_used rfl, List.forall_mem_cons.2 ⟨dvd, sizes⟩,
      rfl, ?_, rfl, rfl, rfl, fun q m mem => mem, ?_⟩
    · obtain ⟨-, header, -, -⟩ := used.parts
      have next : (h.set .used (extent 16 before) 1).next (extent 16 before) = extent 16 before + 16 + n := header.next
      rw [set_usedMem, count_usedMem, set_usedMem, next]
      omega
    · intro x off
      have here := outside_of_off (.inl start_mem) off
      rw [set_bytes here, count_bytes, set_bytes here]

theorem rtAlign_bounds {size : Nat} (small : size + 7 < 2 ^ 32) : size ≤ rtAlign size ∧ 8 ∣ rtAlign size := by
  rw [rtAlign, Nat.mod_eq_of_lt small]
  omega

theorem request_bounds {size : Nat} (small : size + 7 < 2 ^ 32) :
    size ≤ request size ∧ rtAlign size ≤ request size ∧ 16 ≤ request size ∧ 8 ∣ request size := by
  have bounds := rtAlign_bounds small
  rw [request, minSizeAligned]
  split_ifs with few
  · exact ⟨by omega, by omega, Nat.le_refl 16, by decide⟩
  · exact ⟨bounds.1, Nat.le_refl _, by omega, bounds.2⟩

/-- Another block of the arena is used, the one with these bytes. -/
structure Allocated (h : Heap) (bs : List Block) (q k : Nat) (h' : Heap) (bs' : List Block) : Prop where
  valid : Valid h' bs'
  live : ∀ a, a ∈ live bs' ↔ a = (q, k) ∨ a ∈ live bs
  apart : ∀ a ∈ Heap.live bs, Apart 16 a (q, k)
  place : 8 ∣ q
  size : h'.memSizeAligned = h.memSizeAligned
  bytes : ∀ x, ¬ h'.OnHeader bs' x → h'.bytes x = h.bytes x
  lowest : Lowest h bs → Lowest h' bs'

theorem lfree_cases (valid : Valid h bs) : ∃ before rest, bs = before ++ rest ∧ h.lfree = extent 16 before := by
  rcases valid.lfree with ⟨n, mem⟩ | last
  · obtain ⟨before, after, rfl, place⟩ := mem_spans.1 mem
    exact ⟨before, _, rfl, by omega⟩
  · exact ⟨bs, [], (List.append_nil bs).symm, last.trans valid.represents.whole.symm⟩

/-- Where `rt_malloc` leaves `lfree` once the block at `before` is used. -/
def lowered (h : Heap) (before : List Block) (k : Nat) (after' : List Block) : Nat :=
  if extent 16 before = h.lfree then firstFree 16 (extent 16 before + 16 + k) after' else h.lfree

theorem allocated_of_occupied {n k : Nat} {g : Heap} {after' : List Block}
    (valid : Valid h (before ++ ⟨n, false⟩ :: after)) (occupied : Occupied h before n after g k after') (some : 0 < k) :
    Allocated h (before ++ ⟨n, false⟩ :: after) (extent 16 before + 16) k
      { g with lfree := lowered h before k after' } (before ++ ⟨k, true⟩ :: after') := by
  have fin : g.heapEnd = h.heapEnd := by rw [heapEnd, occupied.size, heapEnd]
  obtain ⟨-, -, -, whole⟩ := occupied.represents.parts
  dsimp only at whole
  have live : live (before ++ ⟨n, false⟩ :: after) = live before ++ spans 16 true (extent 16 before + 16 + n) after := by
    rw [Heap.live, spans_append, spans_other Bool.false_ne_true, Nat.zero_add]
  have live' : Heap.live (before ++ ⟨k, true⟩ :: after') =
      Heap.live before ++ (extent 16 before + 16, k) :: spans 16 true (extent 16 before + 16 + n) after := by
    rw [Heap.live, spans_append, spans_used, Nat.zero_add, occupied.others]
  have inserted := mem_insert live live'
  refine ⟨⟨occupied.represents.of_bytes rfl rfl, ?_, ?_, ?_, ?_, ?_, ?_⟩, inserted.1, inserted.2, ?_, occupied.size,
    fun x off => occupied.bytes x fun on => off ?_, fun low => ?_⟩
  · exact coalesced_append_cons.2 ⟨valid.coalesced.left.snoc_used rfl, occupied.coalesced⟩
  · exact List.forall_mem_append.2 ⟨fun b mem => valid.aligned b (List.mem_append_left _ mem), occupied.aligned⟩
  · dsimp only [lowered]
    split_ifs with lowest
    · rcases firstFree_cases 16 (extent 16 before + 16 + k) after' with
        ⟨middle, m, tail, rfl, -, first⟩ | ⟨-, first⟩
      · refine .inl ⟨m, mem_spans.2 ⟨before ++ ⟨k, true⟩ :: middle, tail, by simp, ?_⟩⟩
        rw [first, extent_append, extent]
        dsimp only
        omega
      · exact .inr (first.trans whole)
    · refine valid.lfree.imp (fun free => ?_) fun last => last.trans fin.symm
      obtain ⟨m, mem⟩ := free
      refine ⟨m, ?_⟩
      rw [spans_append, spans_used, Nat.zero_add] at mem
      rw [spans_append, spans_other Bool.noConfusion, Nat.zero_add]
      rcases List.mem_append.1 mem with mem | mem
      · exact List.mem_append_left _ mem
      · rcases List.mem_cons.1 mem with here | mem
        · have here := congrArg Prod.fst here
          dsimp only at here
          omega
        · exact List.mem_append_right _ (occupied.free _ _ mem)
  · change g.usedMem = _
    rw [occupied.usedMem, valid.usedMem, taken_append, taken_append, taken_free, taken_used, occupied.taken]
    omega
  · rw [live']
    intro a mem
    change a.1 < g.heapEnd
    rcases List.mem_append.1 mem with mem | mem
    · exact fin ▸ valid.inside a (live ▸ List.mem_append_left _ mem)
    · rcases List.mem_cons.1 mem with rfl | mem
      · dsimp only
        omega
      · exact fin ▸ valid.inside a (live ▸ List.mem_append_right _ mem)
  · exact occupied.size ▸ valid.room
  · have dvd := dvd_extent fun b mem => valid.aligned b (List.mem_append_left _ mem)
    omega
  · obtain ⟨r, start, low, high⟩ := on
    exact ⟨r, start.imp_right fun last => last.trans fin.symm, low, high⟩
  · have low : h.lfree = firstFree 16 0 (before ++ ⟨n, false⟩ :: after) := low
    have mem : (extent 16 before + 16, n) ∈ spans 16 false 0 (before ++ ⟨n, false⟩ :: after) :=
      mem_spans.2 ⟨before, after, rfl, by rw [Nat.zero_add]⟩
    have le := firstFree_le mem
    dsimp only [Lowest, lowered]
    split_ifs with here
    · have skip : 0 + extent 16 before ≤ firstFree 16 0 (before ++ ⟨n, false⟩ :: after) := by
        rw [← low, ← here, Nat.zero_add]
      rw [firstFree_skip (by decide) skip, firstFree, if_pos rfl, Nat.zero_add]
    · rw [low]
      exact (firstFree_left (by omega) _).symm

theorem take_spec {n size : Nat} (valid : Valid h (before ++ ⟨n, false⟩ :: after)) (fits : size ≤ n) (dvd : 8 ∣ size)
    (some_ : 0 < size) : ∃ k h' bs', h.take (extent 16 before) size = some (some (extent 16 before + 16), h') ∧
      size ≤ k ∧ Allocated h (before ++ ⟨n, false⟩ :: after) (extent 16 before + 16) k h' bs' := by
  obtain ⟨k, after', more, occupied⟩ := occupy_spec valid fits dvd
  obtain ⟨g, made⟩ : ∃ g, h.occupy (extent 16 before) size = g := ⟨_, rfl⟩
  rw [made] at occupied
  obtain ⟨-, -, -, whole⟩ := occupied.represents.parts
  dsimp only at whole
  have place := dvd_extent fun b mem => valid.aligned b (List.mem_append_left _ mem)
  have lowest : (if extent 16 before = g.lfree then g.advance g.rounds g.lfree else some g.lfree) =
      some (lowered h before k after') := by
    rw [occupied.lfree, lowered]
    split_ifs with here
    · have count := length_le_extent 16 (by decide) (⟨k, true⟩ :: after')
      rw [← here, advance_spec occupied.represents, firstFree, if_pos rfl]
      dsimp only [extent] at count
      rw [rounds]
      omega
    · rfl
  refine ⟨k, _, _, ?_, more, allocated_of_occupied valid occupied (by omega)⟩
  rw [take, made, lowest]
  exact if_pos ⟨by rw [sizeofStructMem]; omega, by omega⟩

/-- The block that `rt_malloc` takes. -/
def firstFit (h : Heap) (bs : List Block) (size : Nat) : Option (Nat × Nat) :=
  (spans 16 false 0 bs).find? fun a => decide (h.lfree + 16 ≤ a.1) && h.fits (request size) a

theorem firstFit_eq {front rest : List Block} {size : Nat} (place : h.lfree = extent 16 front) :
    h.firstFit (front ++ rest) size = (spans 16 false (extent 16 front) rest).find? (h.fits (request size)) := by
  rw [firstFit, spans_append, List.find?_append, List.find?_eq_none.2 fun a mem can => ?_, Option.none_or, Nat.zero_add]
  · refine List.find?_congr fun a mem => ?_
    rw [decide_eq_true (place ▸ (spans_bounds mem).1), Bool.true_and]
  · have bounds := spans_bounds mem
    have behind := of_decide_eq_true (Bool.and_eq_true_iff.1 can).1
    omega

/-- `rt_malloc` takes the first fit, or there is none and nothing has changed. -/
theorem malloc_spec {size : Nat} (valid : Valid h bs) (some_ : 0 < size) (small : size + 7 < 2 ^ 32) :
    (h.rtMalloc size = some (none, h) ∧ h.firstFit bs size = none) ∨
    ∃ q n k h' bs', h.rtMalloc size = some (some q, h') ∧ h.firstFit bs size = some (q, n) ∧ request size ≤ k ∧
      Allocated h bs q k h' bs' := by
  have rep := valid.represents
  have fin : h.heapEnd = h.memSizeAligned + 16 := rfl
  obtain ⟨-, aligned, least, dvd⟩ := request_bounds small
  rw [rtMalloc, if_neg (by omega)]
  by_cases large : h.memSizeAligned < rtAlign size
  · rw [if_pos large]
    refine .inl ⟨rfl, List.find?_eq_none.2 fun a mem can => ?_⟩
    have can := (fits_iff.1 (Bool.and_eq_true_iff.1 can).2).2
    have low := (spans_bounds mem).1
    omega
  have within : request size ≤ h.memSizeAligned := by
    have room := valid.room
    rw [request, minSizeAligned]
    split_ifs
    · exact room
    · omega
  have count := length_le_extent 16 (by decide) bs
  rw [rep.whole] at count
  rw [if_neg large]
  obtain ⟨front, rest, rfl, place⟩ := lfree_cases valid
  rw [List.length_append] at count
  have enough : rest.length < h.rounds := by
    rw [rounds]
    omega
  rw [place, search_spec rep enough within, firstFit_eq place]
  cases found : (spans 16 false (extent 16 front) rest).find? (h.fits (request size)) with
  | none => exact .inl ⟨rfl, rfl⟩
  | some a =>
    obtain ⟨q, n⟩ := a
    obtain ⟨middle, after, rfl, rfl⟩ := mem_spans.1 (List.mem_of_find?_eq_some found)
    have large := (fits_iff.1 (List.find?_some found)).1
    rw [← List.append_assoc] at valid ⊢
    obtain ⟨k, h', bs', taken, more, allocated⟩ := take_spec valid large dvd (by omega)
    rw [extent_append] at taken allocated
    exact .inr ⟨_, n, k, h', bs', taken, rfl, more, allocated⟩

end Ecu.Kernel.Heap
