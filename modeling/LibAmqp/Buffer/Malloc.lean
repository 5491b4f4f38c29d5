import LibAmqp.Buffer.Copy

/-!
# Blocks of `amqp_malloc` (`Memory/Memory.c`)

What `amqp_malloc` gives is followed by one more word, the guard. A fragment of a buffer is such a block,
so what is read behind its end is the guard first, and then memory that is not the block's.
-/

namespace Amqp

open Buffer

/-- A block of `amqp_malloc`: the words that can be used, and the bytes from the first of them on. -/
structure MallocBlock where
  count : Nat
  bytes : Buffer.Memory

/-- `byte_count_rounded_to_size_t_array_size` of `Memory.c`. -/
def wordsFor (n : BitVec 64) : BitVec 64 := (n - 1) / 8 + 1

/-- `mask` of `Memory.c`. -/
def guardMask : BitVec 64 := 0x996e796d586067ca

/-- `amqp__malloc`: words of zero bytes, and one behind them that tells their number. -/
def amqpMalloc (n : BitVec 64) : MallocBlock :=
  let count := wordsFor n
  let guard := guardMask ^^^ count
  { count := count.toNat
    bytes i :=
      if i < 8 * count.toNat then 0 else UInt8.ofNat (guard.toNat / 256 ^ (i - 8 * count.toNat)) }

namespace Buffer

/-- The bytes from the beginning of a fragment on, with the guard (low byte first) behind them. -/
def fragmentMemory (b : Buffer) (block : Nat) : Memory := fun i =>
  if i < amqpBufferFragmentSize then b.fragments block i
  else (amqpMalloc (BitVec.ofNat 64 amqpBufferFragmentSize)).bytes i

/-- A fragment and its guard. -/
def fragmentBlockSize : Nat := amqpBufferFragmentSize + 8

end Buffer
end Amqp
