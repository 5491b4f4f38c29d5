import LibAmqp.Fault
import LibAmqp.Lib.Chain

/-!
# The memory pool (`Memory/Pool.c`, `Memory/PoolInternal.h`)

A pool hands out objects of one type from blocks of `allocationsPerBlock` slots. Each block has a
64-bit mask of its free slots and is on a doubly linked list while it has a live object; a slot
keeps a header (its block and index) between two guards. `Lib.Heap` holds the blocks, which come
zero filled from `amqp_malloc`; the objects are of any type `α`, `zero` being the one of zero
bytes. The pool's debug chain (`LIBAMQP_DEBUG_ALLOCATIONS`) is left out.
-/

namespace Amqp

open Lib

/-- A pooled object: its block and its index there. -/
structure Slot where
  block : Nat
  index : Nat
  deriving DecidableEq, Repr

namespace Memory

def leadingMask : BitVec 32 := 0x1d32a441
def trailingMask : BitVec 64 := 0x53d0cabf1d2d6c40

structure AllocationHeader where
  block : Nat
  index : Nat
  leadingGuard : BitVec 32

/-- `trailingGuard` is `data.fragments[pool->object_size_in_fragments]`. -/
structure Allocation (α : Type) where
  header : AllocationHeader
  data : α
  trailingGuard : BitVec 64

structure Block (α : Type) where
  next : Nat
  previous : Nat
  mask : BitVec 64
  allocations : Nat → Allocation α

structure MemoryPool (α : Type) where
  blockList : Nat
  allocationsPerBlock : Nat
  allocationsMask : BitVec 64
  outstandingAllocations : Nat
  totalAllocationCalls : Nat
  initializerCallback : α → α
  zero : α
  blocks : Heap (Block α)

/-- `mask.bytes[i]` of the mask union (little endian). -/
def maskByte (mask : BitVec 64) (i : Nat) : BitVec 8 := mask.extractLsb' (8 * i) 8

/-- `mask.bytes[i] = b`. -/
def setMaskByte (mask : BitVec 64) (i : Nat) (b : BitVec 8) : BitVec 64 :=
  (mask &&& ~~~(0xff#64 <<< (8 * i))) ||| (b.setWidth 64 <<< (8 * i))

section
variable {α : Type}

/-- `find_block_with_free_space`; `fuel` bounds the walk along the list. -/
def findBlockWithFreeSpace (blocks : Heap (Block α)) : Nat → Nat → Except Fault Nat
  | 0, _ => .error .outOfFuel
  | fuel + 1, result =>
    if result = 0 then .ok 0
    else match blocks.get result with
      | none => .error .wildPointer
      | some b => if b.mask = 0#64 then findBlockWithFreeSpace blocks fuel b.next else .ok result

/-- `allocate_block`: zero filled by `amqp_malloc`. -/
def zeroBlock (zero : α) : Block α where
  next := 0
  previous := 0
  mask := 0
  allocations _ := ⟨⟨0, 0, 0⟩, zero, 0⟩

/-- A block as `allocate_new_memory_block` leaves it, at address `result` before `head`. -/
def newBlock (pool : MemoryPool α) (result head : Nat) : Block α where
  next := head
  previous := 0
  mask := BitVec.allOnes 64 &&& pool.allocationsMask
  allocations i :=
    if i < pool.allocationsPerBlock then ⟨⟨result, i, leadingMask⟩, pool.zero, trailingMask⟩
    else (zeroBlock pool.zero).allocations i

/-- `allocate_new_memory_block`, on `&pool->block_list`. -/
def allocateNewMemoryBlock (M : Malloc) (pool : MemoryPool α) : Nat × MemoryPool α :=
  let (result, blocks) := pool.blocks.malloc M (zeroBlock pool.zero)
  let blocks :=
    if pool.blockList ≠ 0 then blocks.modify pool.blockList ({ · with previous := result })
    else blocks
  (result, { pool with
    blockList := result
    blocks := blocks.set result (newBlock pool result pool.blockList) })

/-- The loop of `find_first_free_allocation`. -/
def findFirstFreeAllocation.go (byte : BitVec 8) : Nat → Nat → BitVec 8 → Except Fault Nat
  | 0, _, _ => .error .abort
  | k + 1, i, mask => if byte &&& mask ≠ 0#8 then .ok i else go byte k (i + 1) (mask <<< 1)

def findFirstFreeAllocation (byte : BitVec 8) : Except Fault Nat :=
  findFirstFreeAllocation.go byte 8 0 0x01

/-- The loop of `find_free_allocation_within_block`: the slot's index and the mask without it. -/
def findFreeAllocationWithinBlock.go (mask : BitVec 64) : Nat → Nat → Except Fault (Nat × BitVec 64)
  | 0, _ => .error .abort
  | k + 1, i =>
    if maskByte mask i ≠ 0#8 then do
      let j ← findFirstFreeAllocation (maskByte mask i)
      .ok (i * 8 + j, setMaskByte mask i (maskByte mask i &&& ~~~(1#8 <<< j)))
    else go mask k (i + 1)

def findFreeAllocationWithinBlock (pool : MemoryPool α) (block : Block α) :
    Except Fault (Nat × BitVec 64) :=
  if block.mask = 0#64 then .error .assertFailed
  else findFreeAllocationWithinBlock.go block.mask (pool.allocationsPerBlock / 8 + 1) 0

namespace MemoryPool

/-- The object in a slot. -/
def load (pool : MemoryPool α) (s : Slot) : Option α :=
  (pool.blocks.get s.block).map fun b => (b.allocations s.index).data

/-- Write the object in a slot; its header and guards stay. -/
def store (pool : MemoryPool α) (s : Slot) (v : α) : MemoryPool α :=
  { pool with
    blocks := pool.blocks.modify s.block fun b =>
      { b with allocations := fun i =>
          if i = s.index then { b.allocations i with data := v } else b.allocations i } }

end MemoryPool

/-- `allocate_object`. -/
def allocateObject (M : Malloc) (pool : MemoryPool α) : Except Fault (Slot × MemoryPool α) := do
  let found ← findBlockWithFreeSpace pool.blocks (pool.blocks.dom.length + 1) pool.blockList
  let (block, pool) := if found = 0 then allocateNewMemoryBlock M pool else (found, pool)
  match pool.blocks.get block with
  | none => .error .wildPointer
  | some b =>
    let (index, mask) ← findFreeAllocationWithinBlock pool b
    let pool := { pool with blocks := pool.blocks.set block { b with mask := mask } }
    if (b.allocations index).header.block ≠ block then .error .fatalProgramError
    else .ok (⟨block, index⟩, pool)

/-- `amqp__allocate`. -/
def amqpAllocate (M : Malloc) (pool : MemoryPool α) : Except Fault (Slot × MemoryPool α) := do
  let (result, pool) ← allocateObject M pool
  match pool.load result with
  | none => .error .wildPointer
  | some v =>
    let pool := pool.store result (pool.initializerCallback v)
    .ok (result, { pool with
      outstandingAllocations := pool.outstandingAllocations + 1
      totalAllocationCalls := pool.totalAllocationCalls + 1 })

/-- `delete_object`: the slot's own header says which block and index to mark free; a block
without live objects leaves the list and is freed. -/
def deleteObject (pool : MemoryPool α) (s : Slot) : Except Fault (MemoryPool α) :=
  match pool.blocks.get s.block with
  | none => .error .wildPointer
  | some holder =>
    let allocation := holder.allocations s.index
    if allocation.header.leadingGuard ≠ leadingMask then .error .fatalProgramError
    else if allocation.trailingGuard ≠ trailingMask then .error .fatalProgramError
    else
      let block := allocation.header.block
      let i := allocation.header.index / 8
      let j := allocation.header.index % 8
      match pool.blocks.get block with
      | none => .error .wildPointer
      | some b =>
        let b := { b with mask := setMaskByte b.mask i (maskByte b.mask i ||| (1#8 <<< j)) }
        let blocks := pool.blocks.set block b
        if ~~~b.mask &&& pool.allocationsMask = 0#64 then
          let blocks :=
            if b.next ≠ 0 then blocks.modify b.next ({ · with previous := b.previous }) else blocks
          let (blocks, blockList) :=
            if b.previous ≠ 0 then
              (blocks.modify b.previous ({ · with next := b.next }), pool.blockList)
            else (blocks, b.next)
          .ok { pool with blockList := blockList, blocks := blocks.free block }
        else .ok { pool with blocks := blocks }

/-- `amqp_deallocate` of a non-null object, after the destroyer callback. -/
def amqpDeallocate (pool : MemoryPool α) (s : Slot) : Except Fault (MemoryPool α) := do
  let pool ← deleteObject pool s
  .ok { pool with outstandingAllocations := pool.outstandingAllocations - 1 }

/-- `pool->allocations_mask` as `amqp_initialize_pool_suggesting_block_size` computes it. -/
def allocationsMaskFor (allocationsPerBlock : Nat) : BitVec 64 :=
  ((1#64 <<< allocationsPerBlock) &&& ~~~1#64) - 1

/-- A pool after its initialisation with `n` slots a block. -/
def initializePool (n : Nat) (zero : α) (initializer : α → α) : MemoryPool α where
  blockList := 0
  allocationsPerBlock := n
  allocationsMask := allocationsMaskFor n
  outstandingAllocations := 0
  totalAllocationCalls := 0
  initializerCallback := initializer
  zero := zero
  blocks := Heap.empty

end
end Memory
end Amqp
