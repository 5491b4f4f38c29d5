import LibAmqp.Buffer.IoVec

/-!
# Copying out of a buffer (`Buffer/Buffer.c`)

`amqp_buffer_block_copy` copies a range, fragment by fragment. A destination is the memory from some
address on; reading beyond a fragment or in one that is not allocated is a fault.
-/

namespace Amqp.Buffer

/-- Memory from some address on. -/
abbrev Memory := Nat → UInt8

/-- `memcpy` of bytes to `at` bytes behind the address. -/
def memcpy (destination : Memory) (offset : Nat) (source : List UInt8) : Memory := fun i =>
  if offset ≤ i ∧ i < offset + source.length then source.getD (i - offset) 0 else destination i

/-- The `n` bytes at `&buffer->fragments[block][offset]`. -/
def fragmentBytes (b : Buffer) (block offset n : Nat) : Except Fault (List UInt8) :=
  if n = 0 ∨ offset + n ≤ amqpBufferFragmentSize ∧
      block * amqpBufferFragmentSize + offset + n ≤ b.capacity then
    .ok ((List.range n).map fun k => b.fragments block (offset + k))
  else .error .readPastSize

/-- The end of `amqp_buffer_block_copy`: whole fragments from the one behind `block` on, then the tail.
The tail is taken from the last fragment that was copied, not from the one behind it. -/
def blockCopy.go (b : Buffer) (destination : Memory) (offset size block : Nat) : Except Fault Memory :=
  if amqpBufferFragmentSize < size then do
    let whole ← b.fragmentBytes (block + 1) 0 amqpBufferFragmentSize
    blockCopy.go b (memcpy destination offset whole) (offset + amqpBufferFragmentSize)
      (size - amqpBufferFragmentSize) (block + 1)
  else do
    let tail ← b.fragmentBytes block 0 size
    .ok (memcpy destination offset tail)
termination_by size
decreasing_by
  simp only [amqpBufferFragmentSize] at *
  omega

/-- `amqp_buffer_block_copy`. -/
def blockCopy (b : Buffer) (destination : Memory) (start size : Nat) : Except Fault Memory := do
  let block := start >>> amqpFragmentIndexBits
  let offset := start &&& amqpFragmentIndexMask
  let firstFragmentSize := amqpBufferFragmentSize - offset
  if size ≤ firstFragmentSize then
    let bytes ← b.fragmentBytes block offset size
    .ok (memcpy destination 0 bytes)
  else
    let bytes ← b.fragmentBytes block offset firstFragmentSize
    blockCopy.go b (memcpy destination 0 bytes) firstFragmentSize (size - firstFragmentSize) block

/-! ## What a copy should be -/

/-- The destination holds what `amqp_unchecked_getc_at` reads in the range, and nothing else of it has
changed. -/
def copied (b : Buffer) (destination : Memory) (start size : Nat) : Memory := fun i =>
  if i < size then b.byteAt (start + i) else destination i

/-- The fragment that a range ends in begins with the same bytes as the one before, as far as the range
goes, if the range begins before it. -/
def Repeats (b : Buffer) (start size : Nat) : Prop :=
  ∀ i < size, let last := (start + size - 1) / amqpBufferFragmentSize * amqpBufferFragmentSize
    start < last → last ≤ start + i →
      b.byteAt (start + i - amqpBufferFragmentSize) = b.byteAt (start + i)

end Amqp.Buffer
