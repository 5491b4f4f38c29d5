import LibAmqp.Memory.Pool
import Mathlib.Data.Nat.Log

/-!
# Configuring a pool (`Memory/Pool.c`)

`amqp_initialize_pool_suggesting_block_size` chooses the size of a block and how many slots it has.
Sizes are `size_t` and wrap; the two loops take fuel. `LIBAMQP_DEBUG_ALLOCATIONS` makes the header
of a slot larger, so that the build is a parameter.
-/

namespace Amqp.Memory

open Lib

def longBit : Nat := 64
def sizeTBytes : BitVec 64 := 8
def minFragments : BitVec 64 := 2

/-- What the initialisation computes of an `amqp_memory_pool_t`. -/
structure PoolConfiguration where
  allocationsPerBlock : BitVec 32
  allocationsMask : BitVec 64
  blockSize : BitVec 64
  offsetToFirstAllocation : BitVec 64
  offsetToAllocationData : BitVec 64
  objectSizeInFragments : BitVec 64
  allocationSizeInBytes : BitVec 64
  deriving DecidableEq

/-- `calculate_block_offset_to_first_allocation`: the header is 24 bytes, `long double` is aligned
to 16. -/
def calculateBlockOffsetToFirstAllocation : BitVec 64 := 32

/-- `calculate_offset_to_allocation_data`. -/
def calculateOffsetToAllocationData (debugAllocations : Bool) : BitVec 64 :=
  if debugAllocations then 48 else 16

def byteCountRoundedToSizeTArraySize (n : BitVec 64) : BitVec 64 :=
  let result := (n - 1) / sizeTBytes + 1
  if result < minFragments then minFragments else result

/-- `calculate_allocation_t_size_in_bytes`. -/
def calculateAllocationTSizeInBytes (offsetToAllocationData objectSizeInFragments : BitVec 64) :
    BitVec 64 :=
  -- one more word for the trailing guard
  let count := objectSizeInFragments + 1
  offsetToAllocationData + count * sizeTBytes

def preferredBlockSize : BitVec 64 := 2048

/-- The loop of `adjust_block_size`. -/
def adjustBlockSize.go (blockSize : BitVec 64) : Nat → BitVec 64 → Except Fault (BitVec 64)
  | 0, _ => .error .outOfFuel
  | fuel + 1, size =>
    let nextSize := size >>> 1
    if nextSize < blockSize then .ok size else go blockSize fuel nextSize

def adjustBlockSize (fuel : Nat) (blockSize : BitVec 64) : Except Fault (BitVec 64) :=
  adjustBlockSize.go blockSize fuel (preferredBlockSize * 2)

/-- The `do` loop of the initialisation: how many slots a block has, and its size. The division by
zero stops the process; `LONG_BIT` is a `size_t`, and so the comparison is one of `size_t`s. -/
def fitAllocations (allocationSizeInBytes : BitVec 64) :
    Nat → BitVec 64 → Except Fault (BitVec 32 × BitVec 64)
  | 0, _ => .error .outOfFuel
  | fuel + 1, blockSize =>
    if allocationSizeInBytes = 0 then .error .abort
    else
      let allocationsPerBlock :=
        ((blockSize - calculateBlockOffsetToFirstAllocation) / allocationSizeInBytes).setWidth 32
      if longBit < (allocationsPerBlock.signExtend 64).toNat then
        fitAllocations allocationSizeInBytes fuel (blockSize / 2)
      else .ok (allocationsPerBlock, blockSize)

/-- `amqp_initialize_pool_suggesting_block_size`. -/
def amqpInitializePoolSuggestingBlockSize (debugAllocations : Bool) (fuel : Nat)
    (pooledObjectSize suggestedBlockSize : BitVec 64) : Except Fault PoolConfiguration := do
  let blockSize ← adjustBlockSize fuel suggestedBlockSize
  let offset := calculateOffsetToAllocationData debugAllocations
  let fragments := byteCountRoundedToSizeTArraySize pooledObjectSize
  let allocationSize := calculateAllocationTSizeInBytes offset fragments
  let (allocationsPerBlock, blockSize) ← fitAllocations allocationSize fuel blockSize
  .ok {
    allocationsPerBlock := allocationsPerBlock
    allocationsMask := allocationsMaskFor allocationsPerBlock.toNat
    blockSize := blockSize
    offsetToFirstAllocation := calculateBlockOffsetToFirstAllocation
    offsetToAllocationData := offset
    objectSizeInFragments := fragments
    allocationSizeInBytes := allocationSize }

/-! ## What a pool needs -/

/-- The bytes of one slot: its header, the object in whole words, the guard. -/
def slotSize (debugAllocations : Bool) (objectSize : Nat) : Nat :=
  (if debugAllocations then 48 else 16) + 8 * (max 2 ((objectSize + 7) / 8) + 1)

/-- The initialisation returns, and the pool can work with what it chose. -/
def Usable (debugAllocations : Bool) (pooledObjectSize suggestedBlockSize : BitVec 64) : Prop :=
  ∃ fuel pool n,
    amqpInitializePoolSuggestingBlockSize debugAllocations fuel pooledObjectSize
      suggestedBlockSize = .ok pool ∧
    pool.allocationsPerBlock.toInt = n ∧ 1 ≤ n ∧ n ≤ 64 ∧
    pool.allocationsMask = BitVec.ofNat 64 (2 ^ n.toNat - 1) ∧
    32 + n.toNat * slotSize debugAllocations pooledObjectSize.toNat ≤ pool.blockSize.toNat

/-- The block that is suggested, as large as the next power of two but not above 4096, has room for
one slot. -/
def HasRoom (debugAllocations : Bool) (pooledObjectSize suggestedBlockSize : BitVec 64) : Prop :=
  32 + slotSize debugAllocations pooledObjectSize.toNat ≤
    min 4096 (2 ^ Nat.clog 2 suggestedBlockSize.toNat)

end Amqp.Memory
