import LibAmqp.Fault
import LibAmqp.Lib.Bytes

/-!
# Buffers (`Buffer/Buffer.c`, `Buffer/BufferInlines.h`)

A buffer keeps its bytes in fragments of 4096, a read index and a write index (`limit.index`,
`limit.size`). The unchecked reads and writes fault where C would leave the received bytes or the
allocated ones; `limit` is written out as two fields. The I/O vectors and the reference count are
left out.
-/

namespace Amqp

open Lib

def amqpFragmentIndexBits : Nat := 12
def amqpFragmentIndexMask : Nat := 0xfff
def amqpBufferMaxSize : Nat := 0x10000

structure Buffer where
  /-- where the `amqp_buffer_t` itself is; types keep it to find their bytes -/
  address : Nat
  capacity : Nat
  fragments : Nat → Nat → UInt8
  index : Nat
  size : Nat
  /-- `amqp_buffer_grow` never goes beyond `AMQP_BUFFER_MAX_SIZE` -/
  capacity_le : capacity ≤ amqpBufferMaxSize

namespace Buffer

/-- The byte at an index. -/
def byteAt (b : Buffer) (i : Nat) : UInt8 :=
  b.fragments (i >>> amqpFragmentIndexBits) (i &&& amqpFragmentIndexMask)

/-- The `n` bytes from an index on. -/
def bytes (b : Buffer) (i n : Nat) : List UInt8 := (List.range n).map fun k => b.byteAt (i + k)

/-- A buffer of the largest capacity that has received these bytes. -/
def received (bytes : List UInt8) : Buffer where
  address := 1
  capacity := amqpBufferMaxSize
  fragments block offset := bytes.getD (block * (amqpFragmentIndexMask + 1) + offset) 0
  index := 0
  size := bytes.length
  capacity_le := Nat.le_refl _

/-! ## Reading -/

def checkAvailable (b : Buffer) (desired : Nat) : Bool :=
  b.index < b.size && desired ≤ b.size - b.index

def atEnd (b : Buffer) : Bool := b.index == b.size

def advanceReadIndex (b : Buffer) (amount : Nat) : Buffer := { b with index := b.index + amount }

/-- `amqp_unchecked_getc_at`. -/
def uncheckedGetcAt (b : Buffer) (i : Nat) : Except Fault UInt8 :=
  if i < b.size then .ok (b.byteAt i) else .error .readPastSize

/-- `amqp_buffer_unchecked_getc`. -/
def uncheckedGetc (b : Buffer) : Except Fault (UInt8 × Buffer) := do
  let c ← b.uncheckedGetcAt b.index
  .ok (c, b.advanceReadIndex 1)

/-- `amqp_buffer_getc`: `none` is its `-1`. -/
def getc (b : Buffer) : Except Fault (Option UInt8 × Buffer) :=
  if b.index < b.size then do
    let (c, b) ← b.uncheckedGetc
    .ok (some c, b)
  else .ok (none, b)

/-- `n` unchecked reads from an index on. -/
def uncheckedRead (b : Buffer) : Nat → Nat → Except Fault (List UInt8)
  | _, 0 => .ok []
  | i, n + 1 => do
    let c ← b.uncheckedGetcAt i
    let cs ← b.uncheckedRead (i + 1) n
    .ok (c :: cs)

/-- `amqp_ntoh_8`, `amqp_ntoh_16`, `amqp_ntoh_32` and `amqp_ntoh_64`, by the number of bytes. -/
def ntoh (b : Buffer) (n offset : Nat) : Except Fault Nat := do
  .ok (ofBigEndian (← b.uncheckedRead offset n))

/-- The `uint32_t` the code returns as `-1`. -/
def sizeError : Nat := 0xffffffff

/-- `amqp_buffer_read_size_field`. -/
def readSizeField (b : Buffer) (width : Nat) : Except Fault (Nat × Buffer) :=
  match width with
  | 4 =>
    if b.checkAvailable 4 then do
      let result ← b.ntoh 4 b.index
      .ok (result, b.advanceReadIndex 4)
    else .ok (sizeError, b)
  | 1 => do
    match ← b.getc with
    | (some c, b) => .ok (c.toNat, b)
    | (none, b) => .ok (sizeError, b)
  | _ => .error .abort

/-! ## Writing -/

def checkFreeSpace (b : Buffer) (needed : Nat) : Bool := b.size + needed ≤ b.capacity

/-- `amqp_unchecked_putc_at`. -/
def uncheckedPutcAt (b : Buffer) (c : UInt8) (i : Nat) : Except Fault Buffer :=
  if i < b.capacity then
    .ok { b with fragments := fun block offset =>
      if block = i >>> amqpFragmentIndexBits ∧ offset = i &&& amqpFragmentIndexMask then c
      else b.fragments block offset }
  else .error .writePastCapacity

/-- `amqp_unchecked_putc`. -/
def uncheckedPutc (b : Buffer) (c : UInt8) : Except Fault Buffer := do
  let b ← b.uncheckedPutcAt c b.size
  .ok { b with size := b.size + 1 }

/-- `amqp_buffer_putc`; no caller looks at its result. -/
def putc (b : Buffer) (c : UInt8) : Except Fault Buffer :=
  if b.size < b.capacity then b.uncheckedPutc c else .ok b

/-- The unchecked writes of `amqp_hton_16`, `amqp_hton_32` and `amqp_hton_64`. -/
def uncheckedWrite (b : Buffer) : List UInt8 → Except Fault Buffer
  | [] => .ok b
  | c :: cs => do (← b.uncheckedPutc c).uncheckedWrite cs

/-- `amqp_hton_16`, `amqp_hton_32` and `amqp_hton_64`, by the number of bytes. -/
def hton (b : Buffer) (n value : Nat) : Except Fault Buffer := b.uncheckedWrite (toBigEndian n value)

/-- The loop of `amqp_buffer_puts`. -/
def puts.go (b : Buffer) : List UInt8 → Except Fault Buffer
  | [] => .ok b
  | c :: cs => do puts.go (← b.putc c) cs

/-- `amqp_buffer_puts`; no caller in the codec looks at its result. -/
def puts (b : Buffer) (source : List UInt8) : Except Fault Buffer :=
  if b.capacity ≤ b.size + source.length then .ok b else puts.go b source

def setWriteIndex (b : Buffer) (value : Nat) : Buffer := { b with size := value }

/-- `amqp_buffer_backup`. -/
def backup (b : Buffer) (amount : Nat) : Except Fault Buffer :=
  if amount ≤ b.size then .ok { b with size := b.size - amount } else .error .assertFailed

end Buffer
end Amqp
