import Ecu.Kernel.HeapCalls

/-!
# `rt_realloc`

A block is left alone, cut, or copied into a new one. The part that is cut off is free, and `plug_holes` joins it with
what follows; but `lfree` is lowered only together with a join, so that a part in front of every other free block is
passed over by later searches (`shrink_lowest_iff`).
-/

namespace Ecu.Kernel.Heap

open Memory Blocks

variable {h h' : Heap} {bs bs' before after : List Block}

/-! ## The bytes of blocks -/

/-- Every byte of a used block is the one that it was. -/
def Kept (h h' : Heap) (bs' : List Block) : Prop :=
  ∀ a ∈ live bs', ∀ x, a.1 ≤ x → x < a.1 + a.2 → h'.bytes x = h.bytes x

theorem off_header (rep : h.Represents bs) {a : Nat × Nat} (mem : a ∈ live bs) {x : Nat} (low : a.1 ≤ x)
    (high : x < a.1 + a.2) : ¬ h.OnHeader bs x := by
  rintro ⟨r, start | rfl, below, above⟩
  · have apart := span_off_starts mem start
    omega
  · have bounds := spans_bounds mem
    rw [rep.whole] at bounds
    omega

/-- Bytes off the headers may be anything. -/
theorem Represents.write {bytes : Mem} (rep : h.Represents bs) (same : ∀ x, h.OnHeader bs x → bytes x = h.bytes x) :
    ({ h with bytes := bytes } : Heap).Represents bs := by
  have last : ({ h with bytes := bytes } : Heap).used h.heapEnd = h.used h.heapEnd :=
    get_congr fun x low high => same x ⟨h.heapEnd, .inr rfl, low, by omega⟩
  exact ⟨rep.headers.congr fun r mem x low high => same x ⟨r, .inl mem, low, by omega⟩, rep.whole,
    last.trans rep.endUsed, rep.small⟩

theorem Valid.write {bytes : Mem} (valid : Valid h bs) (same : ∀ x, h.OnHeader bs x → bytes x = h.bytes x) :
    Valid { h with bytes := bytes } bs where
  represents := valid.represents.write same
  coalesced := valid.coalesced
  aligned := valid.aligned
  lfree := valid.lfree
  usedMem := valid.usedMem
  inside := valid.inside
  room := valid.room

theorem Allocated.kept {q k : Nat} (allocated : Allocated h bs q k h' bs') : Kept h h' bs' :=
  fun _ mem x low high => allocated.bytes x (off_header allocated.valid.represents mem low high)

/-- A block of the arena is no longer used. -/
structure Released (h : Heap) (bs : List Block) (q n : Nat) (h' : Heap) (bs' : List Block) : Prop where
  valid : Valid h' bs'
  live : ∀ a, a ∈ live bs' ↔ a ∈ live bs ∧ a ≠ (q, n)
  size : h'.memSizeAligned = h.memSizeAligned
  kept : Kept h h' bs'
  lfree : IsFree bs' h'.lfree
  lowest : Lowest h bs → Lowest h' bs'

theorem release_spec {q n : Nat} (valid : Valid h bs) (mem : (q, n) ∈ live bs) : ∃ h' bs',
    h.rtFree (some q) = some h' ∧ Released h bs q n h' bs' := by
  obtain ⟨before, after, rfl, rfl⟩ := mem_spans.1 mem
  obtain ⟨h', bs', freed, valid', live', ⟨size, bytes⟩, free, lowest⟩ := free_spec valid
  rw [Nat.zero_add]
  have within : live (before ++ ⟨n, true⟩ :: after) =
      live before ++ (extent 16 before + 16, n) :: spans 16 true (extent 16 before + 16 + n) after := by
    rw [live, spans_append, spans_used, Nat.zero_add]
  have live := mem_remove (by decide) within live'
  refine ⟨h', bs', freed, valid', live, size, fun a mem x low high => ?_, free, lowest⟩
  exact bytes x (off_header valid.represents ((live a).1 mem).1 low high)

/-! ## A block is cut -/

theorem shrink_eq {mem n m : Nat} : h.shrink mem n m =
    (({ h with usedMem := h.usedMem - (n - m) } : Heap).split mem (mem + 16 + m)).plugHoles (mem + 16 + m) :=
  rfl

/-- Behind a used block only the half for the next block does something. -/
theorem plugHoles_lfree {n m : Nat} (rep : h.Represents ((before ++ [⟨n, true⟩]) ++ ⟨m, false⟩ :: after))
    (back : Coalesced after) (made : h.plugHoles (extent 16 (before ++ [⟨n, true⟩])) = some h') :
    h'.lfree = (h.plugForward (extent 16 (before ++ [⟨n, true⟩]))).lfree := by
  obtain ⟨m', after', joined, -⟩ := joined_plugForward rep back
  obtain ⟨first, header, -, -⟩ := joined.represents.parts
  have prev := header.prev
  rw [lastStart_append, Nat.zero_add] at prev
  have used := ((headers_append.1 first).2.1).used
  rw [Nat.zero_add] at used
  rw [plugHoles] at made
  split_ifs at made
  rw [← Option.some.inj made, plugBackward, prev, if_neg fun free => ?_]
  have unused := free.2
  rw [used] at unused
  cases unused

/-- Whether `lfree` is still the lowest free block after a block is cut. -/
def KeepsLowest (h : Heap) (mem next : Nat) : Prop :=
  h.lfree < mem ∨ h.lfree = next ∧ next ≠ h.heapEnd

/-- The part cut off is found by later searches only where `lfree` lies in front or right behind. -/
theorem shrink_lowest_iff {m k : Nat} (valid : Valid h (before ++ ⟨m + 16 + k, true⟩ :: after))
    (low : Lowest h (before ++ ⟨m + 16 + k, true⟩ :: after)) {g : Heap} (lfree : g.lfree = h.lfree)
    (size : g.memSizeAligned = h.memSizeAligned)
    (rep : g.Represents ((before ++ [⟨m, true⟩]) ++ ⟨k, false⟩ :: after))
    (made : g.plugHoles (extent 16 (before ++ [⟨m, true⟩])) = some h')
    (joined : Joined g ((before ++ [⟨m, true⟩]) ++ ⟨k, false⟩ :: after) h' bs') :
    Lowest h' bs' ↔ h.KeepsLowest (extent 16 before) (extent 16 before + 16 + (m + 16 + k)) := by
  have low : h.lfree = firstFree 16 0 (before ++ ⟨m + 16 + k, true⟩ :: after) := low
  have fin : g.heapEnd = h.heapEnd := by rw [heapEnd, size, heapEnd]
  have back : Coalesced after := List.IsChain.tail valid.coalesced.right
  have place : extent 16 (before ++ [⟨m, true⟩]) = extent 16 before + 16 + m := place_cons _
  rw [Lowest, joined.first]
  by_cases front : h.lfree < extent 16 before
  · have same : firstFree 16 0 ((before ++ [⟨m, true⟩]) ++ ⟨k, false⟩ :: after) = h.lfree := by
      rw [List.append_assoc, low]
      exact firstFree_left (by omega) _
    refine iff_of_true ?_ (.inl front)
    rw [same, joined.lowest (lfree.trans same.symm), lfree]
  · obtain ⟨-, header, rest, whole⟩ := rep.parts
    dsimp only at rest whole
    have next : g.next (extent 16 (before ++ [⟨m, true⟩])) = extent 16 before + 16 + (m + 16 + k) := by
      refine header.next.trans ?_
      rw [place]
      dsimp only
      omega
    have part : extent 16 (before ++ [⟨m, true⟩]) + 16 + k = extent 16 before + 16 + (m + 16 + k) := by omega
    rw [part] at rest whole
    have positive : 0 < 16 := by decide
    have skip : 0 + extent 16 before ≤ firstFree 16 0 (before ++ ⟨m + 16 + k, true⟩ :: after) := by
      rw [← low]
      omega
    have first : firstFree 16 0 ((before ++ [⟨m, true⟩]) ++ ⟨k, false⟩ :: after) = extent 16 before + 16 + m := by
      rw [List.append_assoc, firstFree_skip positive skip]
      simp [firstFree]
    have lowest : h.lfree = firstFree 16 (extent 16 before + 16 + (m + 16 + k)) after := by
      rw [low, firstFree_skip positive skip, firstFree, if_pos rfl, Nat.zero_add]
    rw [first, plugHoles_lfree rep back made, plugForward, next, place, KeepsLowest]
    have above := (firstFree_bounds 16 (extent 16 before + 16 + (m + 16 + k)) after).1
    cases after with
    | nil =>
      rw [extent, Nat.add_zero] at whole
      rw [if_neg fun free => free.2.2 whole, lfree]
      refine iff_of_false (by omega) ?_
      rintro (less | ⟨-, inside⟩)
      · exact front less
      · exact inside (whole.trans fin)
    | cons b after =>
      obtain ⟨j, u⟩ := b
      have used : g.used (extent 16 before + 16 + (m + 16 + k)) = u.toNat := rest.1.used
      dsimp only [extent] at whole
      rw [firstFree] at lowest
      cases u with
      | true =>
        rw [if_pos rfl] at lowest
        have beyond := (firstFree_bounds 16 (extent 16 before + 16 + (m + 16 + k) + 16 + j) after).1
        dsimp only at lowest
        have taken : g.used (extent 16 before + 16 + (m + 16 + k)) ≠ 0 := used ▸ Nat.one_ne_zero
        rw [if_neg fun free => taken free.2.1, lfree]
        refine iff_of_false (by omega) ?_
        rintro (less | ⟨here, -⟩)
        · exact front less
        · omega
      | false =>
        rw [if_neg Bool.false_ne_true] at lowest
        rw [if_pos ⟨by omega, used, by omega⟩]
        refine iff_of_true ?_ (.inr ⟨lowest, by omega⟩)
        change (if g.lfree = extent 16 before + 16 + (m + 16 + k) then _ else g.lfree) = _
        rw [if_pos (lfree.trans lowest)]

/-- The block is smaller, and the rest of it is free. -/
theorem shrink_spec {m k : Nat} (valid : Valid h (before ++ ⟨m + 16 + k, true⟩ :: after)) (aligned : 8 ∣ m) : ∃ h' bs',
    h.shrink (extent 16 before) (m + 16 + k) m = some h' ∧ Valid h' bs' ∧
      live bs' = live before ++ (extent 16 before + 16, m) ::
        spans 16 true (extent 16 before + 16 + (m + 16 + k)) after ∧
      h'.memSizeAligned = h.memSizeAligned ∧ Kept h h' bs' ∧
      (Lowest h (before ++ ⟨m + 16 + k, true⟩ :: after) →
        (Lowest h' bs' ↔ h.KeepsLowest (extent 16 before) (extent 16 before + 16 + (m + 16 + k)))) := by
  have rep : ({ h with usedMem := h.usedMem - (m + 16 + k - m) } : Heap).Represents
      (before ++ ⟨m + 16 + k, true⟩ :: after) := valid.represents.of_bytes rfl rfl
  have cut := rep.split
  obtain ⟨lfree, size, usedMem, -⟩ := split_other { h with usedMem := h.usedMem - (m + 16 + k - m) }
    (extent 16 before) (extent 16 before + 16 + m)
  have bytes (x : Nat) (off : ¬ h.OnHeader (before ++ ⟨m, true⟩ :: ⟨k, false⟩ :: after) x) := split_bytes rep off
  rw [shrink_eq]
  generalize ({ h with usedMem := h.usedMem - (m + 16 + k - m) } : Heap).split (extent 16 before)
    (extent 16 before + 16 + m) = g at *
  have fin : g.heapEnd = h.heapEnd := by rw [heapEnd, size, heapEnd]
  have cut' : g.Represents ((before ++ [⟨m, true⟩]) ++ ⟨k, false⟩ :: after) := by rwa [List.append_assoc]
  obtain ⟨h', bs', made, joined, coalesced⟩ := joined_plugHoles cut' (valid.coalesced.left.snoc_used rfl)
    (List.IsChain.tail valid.coalesced.right)
  rw [← place_cons (b := ⟨m, true⟩)]
  have live : live bs' = live before ++ (extent 16 before + 16, m) ::
      spans 16 true (extent 16 before + 16 + (m + 16 + k)) after := by
    rw [joined.live, List.append_assoc, Heap.live, spans_append, List.singleton_append, spans_used,
      spans_other Bool.false_ne_true, Nat.zero_add,
      show extent 16 before + 16 + m + 16 + k = extent 16 before + 16 + (m + 16 + k) by omega]
  refine ⟨h', bs', made, ⟨joined.represents, coalesced, joined.aligned ?_, ?_, ?_, ?_, ?_⟩, live,
    joined.size.trans size, ?_, fun low => shrink_lowest_iff valid low lfree size cut' made joined⟩
  · rw [List.append_assoc]
    refine List.forall_mem_append.2 ⟨fun b mem => valid.aligned b (List.mem_append_left _ mem), ?_⟩
    have whole := valid.aligned ⟨m + 16 + k, true⟩ (by simp)
    dsimp only at whole
    refine List.forall_mem_cons.2 ⟨aligned, List.forall_mem_cons.2 ⟨?_, fun b mem => valid.aligned b (by simp [mem])⟩⟩
    dsimp only
    omega
  · refine valid.lfree.imp (fun free => joined.lfree ?_) fun last => ?_
    · obtain ⟨j, mem⟩ := free
      rw [spans_append, spans_other Bool.noConfusion] at mem
      rw [lfree, List.append_assoc]
      refine ⟨j, ?_⟩
      rw [spans_append, List.singleton_append, spans_other Bool.noConfusion, spans_used]
      rcases List.mem_append.1 mem with mem | mem
      · exact List.mem_append_left _ mem
      · refine List.mem_append_right _ (List.mem_cons_of_mem _ ?_)
        rwa [show 0 + extent 16 before + 16 + m + 16 + k = 0 + extent 16 before + 16 + (m + 16 + k) by omega]
    · rw [joined.endFree (lfree.trans (last.trans fin.symm)), lfree, last, joined.heapEnd, fin]
  · rw [joined.usedMem, usedMem, joined.taken, List.append_assoc, taken_append, List.singleton_append, taken_used,
      taken_free, valid.usedMem, taken_append, taken_used]
    dsimp only
    omega
  · rw [live, joined.heapEnd, fin]
    intro a mem
    have inside := valid.inside
    rw [Heap.live, spans_append, spans_used, Nat.zero_add] at inside
    rcases List.mem_append.1 mem with mem | mem
    · exact inside a (List.mem_append_left _ mem)
    · rcases List.mem_cons.1 mem with rfl | mem
      · exact inside (extent 16 before + 16, m + 16 + k) (List.mem_append_right _ List.mem_cons_self)
      · exact inside a (List.mem_append_right _ (List.mem_cons_of_mem _ mem))
  · rw [joined.size, size]
    exact valid.room
  · intro a mem x low high
    rw [joined.live] at mem
    have off := off_header cut' mem low high
    rw [joined.bytes x off]
    refine bytes x fun on => off ?_
    obtain ⟨r, start, below, above⟩ := on
    exact ⟨r, by rw [List.append_assoc, fin]; exact start, below, above⟩

/-! ## The call -/

/-- The call cuts a block, and the part cut off is passed over by later searches. -/
def Hides (h : Heap) (q newsize : Nat) : Prop :=
  rtAlign newsize + 28 < sub32 (h.next (q - 16)) q ∧ ¬ h.KeepsLowest (q - 16) (h.next (q - 16))

/-- What `rt_realloc` does with a used block. -/
inductive Reallocated (h : Heap) (bs : List Block) (q n newsize : Nat) : Option Nat → Heap → List Block → Prop
  /-- There is no room for a larger one. -/
  | none (shown : ¬ h.Hides q newsize) : Reallocated h bs q n newsize none h bs
  /-- The block keeps its place. -/
  | same {m : Nat} {h' : Heap} {bs' : List Block} (valid : Valid h' bs')
    (live : ∀ a, a ∈ live bs' ↔ a = (q, m) ∨ a ∈ live bs ∧ a ≠ (q, n)) (fits : newsize ≤ m)
    (size : h'.memSizeAligned = h.memSizeAligned) (kept : Kept h h' bs')
    (lowest : Lowest h bs → (Lowest h' bs' ↔ ¬ h.Hides q newsize)) : Reallocated h bs q n newsize (some q) h' bs'
  /-- Its bytes are copied into a new one. -/
  | moved {q' m : Nat} {h' : Heap} {bs' : List Block} (valid : Valid h' bs')
    (live : ∀ a, a ∈ live bs' ↔ a = (q', m) ∨ a ∈ live bs ∧ a ≠ (q, n)) (fresh : ∀ a ∈ Heap.live bs, Apart 16 a (q', m))
    (fits : newsize ≤ m) (size : h'.memSizeAligned = h.memSizeAligned)
    (kept : ∀ a ∈ Heap.live bs, a ≠ (q, n) → ∀ x, a.1 ≤ x → x < a.1 + a.2 → h'.bytes x = h.bytes x)
    (copied : ∀ i < min n newsize, h'.bytes (q' + i) = h.bytes (q + i)) (shown : ¬ h.Hides q newsize)
    (lowest : Lowest h bs → Lowest h' bs') : Reallocated h bs q n newsize (some q') h' bs'

theorem not_hides {q n newsize : Nat} (rep : h.Represents bs) (mem : (q, n) ∈ live bs)
    (few : ¬ rtAlign newsize + 28 < n) : ¬ h.Hides q newsize := by
  obtain ⟨before, after, rfl, rfl⟩ := mem_spans.1 mem
  rintro ⟨much, -⟩
  have payload := sub32_next rep
  rw [sizeofStructMem] at payload
  rw [Nat.zero_add, Nat.add_sub_cancel, payload] at much
  exact few much

theorem reallocated_shrink {n newsize : Nat} (valid : Valid h (before ++ ⟨n, true⟩ :: after))
    (small : newsize + 7 < 2 ^ 32) (much : rtAlign newsize + 28 < n) : ∃ h' bs',
      h.shrink (extent 16 before) n (rtAlign newsize) = some h' ∧
        Reallocated h (before ++ ⟨n, true⟩ :: after) (extent 16 before + 16) n newsize (some (extent 16 before + 16))
          h' bs' := by
  have bounds := rtAlign_bounds small
  have aligned := valid.aligned ⟨n, true⟩ (by simp)
  have payload := sub32_next valid.represents
  obtain ⟨-, header, -, -⟩ := valid.represents.parts
  have next : h.next (extent 16 before) = extent 16 before + 16 + n := header.next
  have within : live (before ++ ⟨n, true⟩ :: after) =
      live before ++ (extent 16 before + 16, n) :: spans 16 true (extent 16 before + 16 + n) after := by
    rw [live, spans_append, spans_used, Nat.zero_add]
  obtain ⟨k, rfl⟩ : ∃ k, n = rtAlign newsize + 16 + k := ⟨n - (rtAlign newsize + 16), by omega⟩
  obtain ⟨h', bs', cut, valid', live', size, kept, lowest⟩ := shrink_spec valid bounds.2
  refine ⟨h', bs', cut, .same valid' (fun a => ?_) bounds.1 size kept fun low => ?_⟩
  · rw [live', ← mem_rest (by decide) within, List.mem_append, List.mem_append, List.mem_cons]
    exact or_left_comm
  · have cuts : rtAlign newsize + 28 < sub32 (extent 16 before + 16 + (rtAlign newsize + 16 + k))
        (extent 16 before + sizeofStructMem) := by
      rw [← next, payload]
      exact much
    rw [lowest low, Hides, Nat.add_sub_cancel, next, not_and_not_right]
    exact ⟨fun keeps _ => keeps, fun keeps => keeps cuts⟩

theorem reallocated_move {q n q' k newsize : Nat} {h₁ : Heap} {bs₁ : List Block}
    (mem : (q, n) ∈ live bs) (small : newsize + 7 < 2 ^ 32) (more : rtAlign newsize ≤ k)
    (shown : ¬ h.Hides q newsize) (allocated : Allocated h bs q' k h₁ bs₁) : ∃ h' bs',
      ({ h₁ with bytes := copy h₁.bytes q' q (min n (rtAlign newsize)) } : Heap).rtFree (some q) = some h' ∧
        Reallocated h bs q n newsize (some q') h' bs' := by
  have bounds := rtAlign_bounds small
  have new : (q', k) ∈ live bs₁ := (allocated.live _).2 (.inl rfl)
  have old : (q, n) ∈ live bs₁ := (allocated.live _).2 (.inr mem)
  have apart := allocated.apart _ mem
  have copied : Valid { h₁ with bytes := copy h₁.bytes q' q (min n (rtAlign newsize)) } bs₁ := by
    refine allocated.valid.write fun x on => copy_outside ?_
    by_contra inside
    exact off_header allocated.valid.represents new (x := x) (by dsimp only; omega) (by dsimp only; omega) on
  obtain ⟨h', bs', freed, released⟩ := release_spec copied old
  have kept := allocated.kept
  refine ⟨h', bs', freed, .moved released.valid (fun a => ?_) allocated.apart (by omega) (released.size.trans
    allocated.size) ?_ ?_ shown fun low => released.lowest (allocated.lowest low)⟩
  · rw [released.live, allocated.live]
    constructor
    · rintro ⟨rfl | there, other⟩
      · exact .inl rfl
      · exact .inr ⟨there, other⟩
    · rintro (rfl | ⟨there, other⟩)
      · exact ⟨.inl rfl, fun same => apart.ne (by decide) (congrArg Prod.fst same).symm⟩
      · exact ⟨.inr there, other⟩
  · intro a there other x low high
    have there' : a ∈ live bs₁ := (allocated.live a).2 (.inr there)
    have away := allocated.apart a there
    unfold Apart at away
    rw [released.kept a ((released.live a).2 ⟨there', other⟩) x low high]
    exact (copy_outside (by omega)).trans (kept a there' x low high)
  · intro i less
    have stays : (q', k) ∈ live bs' :=
      (released.live _).2 ⟨new, fun same => apart.ne (by decide) (congrArg Prod.fst same).symm⟩
    rw [released.kept _ stays (q' + i) (by dsimp only; omega) (by dsimp only; omega)]
    exact (copy_inside (by omega)).trans (kept _ old (q + i) (by dsimp only; omega) (by dsimp only; omega))

theorem resize_spec {q n newsize : Nat} (valid : Valid h bs) (mem : (q, n) ∈ live bs) (small : newsize + 7 < 2 ^ 32)
    (fits : rtAlign newsize ≤ h.memSizeAligned) :
    ∃ r h' bs', h.resize q n (rtAlign newsize) = some (r, h') ∧ Reallocated h bs q n newsize r h' bs' := by
  have bounds := rtAlign_bounds small
  have limit := valid.represents.small
  have fin : h.heapEnd = h.memSizeAligned + 16 := rfl
  rw [resize]
  split_ifs with same much
  · have shown : ¬ h.Hides q newsize := not_hides valid.represents mem (by omega)
    refine ⟨some q, h, bs, rfl, .same valid (fun a => ?_) bounds.1 rfl (fun _ _ _ _ _ => rfl) fun low =>
      iff_of_true low shown⟩
    subst same
    by_cases here : a = (q, rtAlign newsize)
    · rw [here]
      exact iff_of_true mem (.inl rfl)
    · exact ⟨fun there => .inr ⟨there, here⟩, fun there => (there.resolve_left here).1⟩
  · obtain ⟨before, after, rfl, rfl⟩ := mem_spans.1 mem
    rw [Nat.zero_add, sizeofStructMem, Nat.add_sub_cancel]
    obtain ⟨h', bs', cut, done⟩ := reallocated_shrink valid small much
    exact ⟨_, h', bs', by rw [cut]; rfl, done⟩
  · have shown : ¬ h.Hides q newsize := not_hides valid.represents mem much
    by_cases none : rtAlign newsize = 0
    · have nothing : h.rtMalloc (rtAlign newsize) = some (Option.none, h) := if_pos none
      rw [nothing]
      exact ⟨Option.none, h, bs, rfl, .none shown⟩
    · rcases malloc_spec valid (Nat.pos_of_ne_zero none) (by omega) with
        ⟨nothing, -⟩ | ⟨q', -, k, h₁, bs₁, made, -, more, allocated⟩
      · rw [nothing]
        exact ⟨Option.none, h, bs, rfl, .none shown⟩
      · have request := (request_bounds (show rtAlign newsize + 7 < 2 ^ 32 by omega)).1
        obtain ⟨h', bs', freed, done⟩ := reallocated_move mem small (Nat.le_trans request more) shown allocated
        rw [made]
        exact ⟨some q', h', bs', by dsimp only; rw [freed]; rfl, done⟩

theorem realloc_spec {q n newsize : Nat} (valid : Valid h bs) (mem : (q, n) ∈ live bs) (small : newsize + 7 < 2 ^ 32) :
    ∃ r h' bs', h.rtRealloc (some q) newsize = some (r, h') ∧ Reallocated h bs q n newsize r h' bs' := by
  have inside := valid.inside _ mem
  have payload : sub32 (h.next (q - sizeofStructMem)) (q - sizeofStructMem + sizeofStructMem) = n := by
    obtain ⟨before, after, rfl, rfl⟩ := mem_spans.1 mem
    rw [Nat.zero_add]
    exact sub32_next valid.represents
  have bounds := spans_bounds mem
  have fin : h.heapEnd = h.memSizeAligned + 16 := rfl
  rw [valid.represents.whole] at bounds
  by_cases large : h.memSizeAligned < rtAlign newsize
  · exact ⟨none, h, bs, if_pos large, .none (not_hides valid.represents mem (by omega))⟩
  · have same : h.rtRealloc (some q) newsize = h.resize q n (rtAlign newsize) := by
      rw [rtRealloc, if_neg large]
      dsimp only at inside ⊢
      rw [if_neg (by omega), payload]
    rw [same]
    exact resize_spec valid mem small (Nat.le_of_not_lt large)

end Ecu.Kernel.Heap
