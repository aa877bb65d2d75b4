import Ecu.Lib.Memory
import Mathlib

/-!
# The heap (`mem.c`)

The heap is one piece of memory. Each block of it stands behind a `struct heap_mem` of twelve bytes that names the
blocks next to it; `heap_end` is a header without a block. An address is its distance from `heap_ptr`, which is aligned.
A call gives nothing where an assertion fails or where a loop has made as many rounds as the heap has bytes. The
semaphore makes calls atomic, so there are no threads here.
-/

namespace Ecu.Kernel

open Memory

def heapMagic : Nat := 0x1ea0

/-- `SIZEOF_STRUCT_MEM` -/
def sizeofStructMem : Nat := 16

def minSize : Nat := 12

def minSizeAligned : Nat := 16

/-- The difference of two `rt_size_t`. -/
def sub32 (a b : Nat) : Nat := (a + (2 ^ 32 - b % 2 ^ 32)) % 2 ^ 32

/-- `RT_ALIGN(size, RT_ALIGN_SIZE)`, in 32 bits. -/
def rtAlign (size : Nat) : Nat := (size + 7) % 2 ^ 32 / 8 * 8

/-- The bytes that a block for `size` bytes has to have. -/
def request (size : Nat) : Nat :=
  if rtAlign size < minSizeAligned then minSizeAligned else rtAlign size

/-- The fields of `struct heap_mem`. -/
inductive Field where
  | magic | used | next | prev
deriving DecidableEq

def Field.offset : Field → Nat
  | magic => 0
  | used => 2
  | next => 4
  | prev => 8

def Field.width : Field → Nat
  | magic => 2
  | used => 2
  | next => 4
  | prev => 4

/-- The variables of `mem.c`. -/
structure Heap where
  bytes : Mem
  lfree : Nat
  memSizeAligned : Nat
  usedMem : Nat
  maxMem : Nat

namespace Heap

variable (h : Heap)

def heapEnd : Nat := h.memSizeAligned + sizeofStructMem

/-! ## `struct heap_mem` -/

def get (f : Field) (p : Nat) : Nat := load h.bytes (p + f.offset) f.width
def set (f : Field) (p v : Nat) : Heap := { h with bytes := store h.bytes (p + f.offset) f.width v }

abbrev magic : Nat → Nat := h.get .magic
abbrev used : Nat → Nat := h.get .used
abbrev next : Nat → Nat := h.get .next
abbrev prev : Nat → Nat := h.get .prev

/-- Either half of `plug_holes`, for two free blocks next to each other. -/
def combine (mem nmem : Nat) : Heap :=
  let h := { h with lfree := if h.lfree = nmem then mem else h.lfree }
  let h := h.set .next mem (h.next nmem)
  h.set .prev (h.next mem) mem

def plugForward (mem : Nat) : Heap :=
  let nmem := h.next mem
  if mem ≠ nmem ∧ h.used nmem = 0 ∧ nmem ≠ h.heapEnd then h.combine mem nmem else h

def plugBackward (mem : Nat) : Heap :=
  let pmem := h.prev mem
  if pmem ≠ mem ∧ h.used pmem = 0 then h.combine pmem mem else h

/-- `plug_holes` -/
def plugHoles (mem : Nat) : Option Heap :=
  if mem < h.heapEnd ∧ h.used mem = 0 then some ((h.plugForward mem).plugBackward mem) else none

/-- `mem2` is put between `mem` and the block behind it. -/
def split (mem ptr2 : Nat) : Heap :=
  let h := h.set .magic ptr2 heapMagic
  let h := h.set .used ptr2 0
  let h := h.set .next ptr2 (h.next mem)
  let h := h.set .prev ptr2 mem
  let h := h.set .next mem ptr2
  if h.next ptr2 ≠ h.heapEnd then h.set .prev (h.next ptr2) ptr2 else h

/-- The size that `rt_system_heap_init` takes; it refuses a memory without room for two headers. -/
def sizeOf (beginAddr endAddr : Nat) : Option Nat :=
  let beginAlign := rtAlign beginAddr
  let endAlign := endAddr / 8 * 8
  if 2 * sizeofStructMem < endAlign ∧ beginAlign ≤ endAlign - 2 * sizeofStructMem then
    some (endAlign - beginAlign - 2 * sizeofStructMem)
  else none

/-- `rt_system_heap_init`, on a memory of `memSize` bytes and two headers. -/
def init (bytes : Mem) (memSize : Nat) : Heap :=
  let h : Heap := ⟨bytes, 0, memSize, 0, 0⟩
  let h := h.set .magic 0 heapMagic
  let h := h.set .next 0 h.heapEnd
  let h := h.set .prev 0 0
  let h := h.set .used 0 0
  let h := h.set .magic h.heapEnd heapMagic
  let h := h.set .used h.heapEnd 1
  let h := h.set .next h.heapEnd h.heapEnd
  h.set .prev h.heapEnd h.heapEnd

/-! ## `rt_malloc` -/

/-- The search for a block: its header, or nothing. -/
def search (size : Nat) : Nat → Nat → Option (Option Nat)
  | 0, _ => none
  | fuel + 1, ptr =>
    if ptr < sub32 h.memSizeAligned size then
      if h.used ptr = 0 ∧ size ≤ sub32 (h.next ptr) (ptr + sizeofStructMem) then some (some ptr)
      else search size fuel (h.next ptr)
    else some none

/-- `RT_MEM_STATS` -/
def count (n : Nat) : Heap :=
  { h with usedMem := h.usedMem + n, maxMem := max h.maxMem (h.usedMem + n) }

/-- The block is used; what is too much for it is left as a free block. -/
def occupy (mem size : Nat) : Heap :=
  let h :=
    if size + sizeofStructMem + minSizeAligned ≤ sub32 (h.next mem) (mem + sizeofStructMem) then
      ((h.split mem (mem + sizeofStructMem + size)).set .used mem 1).count (size + sizeofStructMem)
    else
      let h := h.set .used mem 1
      h.count (h.next mem - mem)
  h.set .magic mem heapMagic

/-- Where the lowest free block is, from a place on. -/
def advance : Nat → Nat → Option Nat
  | 0, _ => none
  | fuel + 1, lfree => if h.used lfree ≠ 0 ∧ lfree ≠ h.heapEnd then advance fuel (h.next lfree) else some lfree

/-- Enough rounds for every loop through the blocks. -/
def rounds : Nat := h.heapEnd + 1

/-- What `rt_malloc` does with the block it has found. -/
def take (mem size : Nat) : Option (Option Nat × Heap) :=
  let h := h.occupy mem size
  match (if mem = h.lfree then h.advance h.rounds h.lfree else some h.lfree) with
  | none => none
  | some lfree =>
    if mem + sizeofStructMem + size ≤ h.heapEnd ∧ mem % 8 = 0 then
      some (some (mem + sizeofStructMem), { h with lfree := lfree })
    else none

def rtMalloc (size : Nat) : Option (Option Nat × Heap) :=
  if size = 0 then some (none, h)
  else if h.memSizeAligned < rtAlign size then some (none, h)
  else
    match h.search (request size) h.rounds h.lfree with
    | none => none
    | some none => some (none, h)
    | some (some mem) => h.take mem (request size)

/-! ## `rt_free`, `rt_realloc`, `rt_calloc` -/

/-- A block that is given back, before `plug_holes`. -/
def release (mem : Nat) : Heap :=
  let h := h.set .used mem 0
  let h := h.set .magic mem heapMagic
  let h := { h with lfree := if mem < h.lfree then mem else h.lfree }
  { h with usedMem := h.usedMem - (h.next mem - mem) }

def rtFree : Option Nat → Option Heap
  | none => some h
  | some rmem =>
    if rmem % 8 = 0 ∧ rmem < h.heapEnd then
      let mem := rmem - sizeofStructMem
      if h.used mem ≠ 0 ∧ h.magic mem = heapMagic then (h.release mem).plugHoles mem else none
    else none

/-- A block that is to keep its place is cut. -/
def shrink (mem size newsize : Nat) : Option Heap :=
  let h := { h with usedMem := h.usedMem - (size - newsize) }
  let ptr2 := mem + sizeofStructMem + newsize
  (h.split mem ptr2).plugHoles ptr2

/-- A block of `size` bytes is to have `newsize`. -/
def resize (rmem size newsize : Nat) : Option (Option Nat × Heap) :=
  if size = newsize then some (some rmem, h)
  else if newsize + sizeofStructMem + minSize < size then
    (h.shrink (rmem - sizeofStructMem) size newsize).map fun h => (some rmem, h)
  else
    match h.rtMalloc newsize with
    | none => none
    | some (none, h) => some (none, h)
    | some (some nmem, h) =>
      let h := { h with bytes := copy h.bytes nmem rmem (min size newsize) }
      (h.rtFree (some rmem)).map fun h => (some nmem, h)

def rtRealloc (rmem : Option Nat) (newsize : Nat) : Option (Option Nat × Heap) :=
  if h.memSizeAligned < rtAlign newsize then some (none, h)
  else
    match rmem with
    | none => h.rtMalloc (rtAlign newsize)
    | some rmem =>
      if h.heapEnd ≤ rmem then some (some rmem, h)
      else
        let mem := rmem - sizeofStructMem
        h.resize rmem (sub32 (h.next mem) (mem + sizeofStructMem)) (rtAlign newsize)

def rtCalloc (count size : Nat) : Option (Option Nat × Heap) :=
  let total := count * size % 2 ^ 32
  match h.rtMalloc total with
  | none => none
  | some (none, h) => some (none, h)
  | some (some p, h) => some (some p, { h with bytes := fill h.bytes p 0 total })

end Heap

end Ecu.Kernel
