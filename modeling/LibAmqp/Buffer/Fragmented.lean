import LibAmqp.Buffer.IoVec
import LibAmqp.Lib.Queue

/-!
# Buffers that grow (`Buffer/Buffer.c`, `Buffer/BufferInlines.h`)

A buffer together with which of its fragments it has allocated: here a read or a write faults only where
the pointer to its fragment is not set. The operations give the `int` that C returns.
-/

namespace Amqp

open Buffer

structure Fragmented extends Buffer where
  /-- `fragments[block]` points to memory of `amqp_malloc` -/
  allocated : Nat → Bool

namespace Fragmented

/-- A new buffer, after `amqp_initialize_amqp_buffer_t`. -/
def new (address : Nat) : Fragmented where
  address := address
  capacity := amqpBufferFragmentSize
  fragments _ _ := 0
  index := 0
  size := 0
  capacity_le := by decide
  allocated block := block == 0

/-! ## Growing -/

/-- `fragments[block] = amqp_malloc(context, AMQP_BUFFER_FRAGMENT_SIZE)`: zero bytes. -/
def allocate (b : Fragmented) (block : Nat) : Fragmented := { b with
  fragments := fun k => if k = block then fun _ => 0 else b.fragments k
  allocated := fun k => k == block || b.allocated k }

/-- The loop of `amqp_buffer_grow`. -/
def grow.go (neededBlocks : Nat) (block : Nat) (b : Fragmented) : Except Fault Fragmented :=
  if block < neededBlocks then
    if block < amqpBufferFragments then grow.go neededBlocks (block + 1) (b.allocate block)
    else .error .writePastCapacity
  else .ok b
termination_by neededBlocks - block

/-- `(new_size - 1) / AMQP_BUFFER_FRAGMENT_SIZE + 1`. -/
def neededBlocks (newSize : Nat) : Nat := (newSize - 1) / amqpBufferFragmentSize + 1

theorem neededBlocks_le {newSize : Nat} (h : newSize ≤ amqpBufferMaxSize) :
    neededBlocks newSize * amqpBufferFragmentSize ≤ amqpBufferMaxSize := by
  simp only [neededBlocks, amqpBufferFragmentSize, amqpFragmentIndexMask, amqpBufferMaxSize] at *
  omega

/-- `amqp_buffer_grow`. -/
def grow (b : Fragmented) (newSize : Nat) : Except Fault (Nat × Fragmented) :=
  let newSize := min newSize amqpBufferMaxSize
  if b.capacity < newSize then do
    let b ← grow.go (neededBlocks newSize) (b.capacity / amqpBufferFragmentSize) b
    let b := { b with
      capacity := neededBlocks newSize * amqpBufferFragmentSize
      capacity_le := neededBlocks_le (Nat.min_le_right _ _) }
    .ok (b.capacity, b)
  else .ok (b.capacity, b)

/-! ## Writing -/

/-- An `int`, converted to an `unsigned char`. -/
def byteOf (c : Int) : UInt8 := UInt8.ofNat (c % 256).toNat

/-- `amqp_unchecked_putc_at`. -/
def uncheckedPutcAt (b : Fragmented) (c : Int) (i : Nat) : Except Fault (Int × Fragmented) :=
  if b.allocated (i >>> amqpFragmentIndexBits) then
    let b := { b with fragments := fun block offset =>
      if block = i >>> amqpFragmentIndexBits ∧ offset = i &&& amqpFragmentIndexMask then byteOf c
      else b.fragments block offset }
    .ok ((byteOf c).toNat, b)
  else .error .wildPointer

/-- `amqp_buffer_putc`. -/
def putc (b : Fragmented) (c : Int) : Except Fault (Int × Fragmented) :=
  if b.size < b.capacity then do
    let (r, b) ← b.uncheckedPutcAt c b.size
    .ok (r, { b with size := b.size + 1 })
  else .ok (-1, b)

/-- The loop of `amqp_buffer_puts`. -/
def puts.go (b : Fragmented) : List UInt8 → Except Fault Fragmented
  | [] => .ok b
  | c :: cs => do
    let (_, b) ← b.putc c.toNat
    puts.go b cs

/-- `amqp_buffer_puts`. -/
def puts (b : Fragmented) (source : List UInt8) : Except Fault (Int × Fragmented) :=
  if b.capacity ≤ (b.size + source.length) % 2 ^ 64 then .ok (0, b)
  else do
    let b ← puts.go b source
    .ok ((BitVec.ofNat 32 source.length).toInt, b)

/-! ## Reading -/

/-- `amqp_unchecked_getc_at`. -/
def uncheckedGetcAt (b : Fragmented) (i : Nat) : Except Fault Int :=
  if b.allocated (i >>> amqpFragmentIndexBits) then .ok (b.byteAt i).toNat else .error .wildPointer

/-- `amqp_buffer_getc`. -/
def getc (b : Fragmented) : Except Fault (Int × Fragmented) :=
  if b.index < b.size then do
    let r ← b.uncheckedGetcAt b.index
    .ok (r, { b with index := b.index + 1 })
  else .ok (-1, b)

/-! ## Sequences of calls -/

inductive Op
  | grow (newSize : Nat)
  | putc (c : Int)
  | puts (source : List UInt8)
  | getc

/-- A `size_t` that is less than 2^32 where bytes are put. -/
def Op.InRange : Op → Prop
  | puts source => source.length < 2 ^ 32
  | _ => True

def step (b : Fragmented) : Op → Except Fault (Int × Fragmented)
  | .grow newSize => do
    let (r, b) ← b.grow newSize
    .ok ((r : Int), b)
  | .putc c => b.putc c
  | .puts source => b.puts source
  | .getc => b.getc

/-- The calls with their results. -/
def run (b : Fragmented) : List Op → Except Fault (List (Op × Int) × Fragmented)
  | [] => .ok ([], b)
  | op :: ops => do
    let (r, b) ← b.step op
    let (results, b) ← b.run ops
    .ok ((op, r) :: results, b)

/-! ## What is expected -/

/-- The bytes that a call appended. -/
def appended : Op × Int → List UInt8
  | (.putc c, r) => if r = -1 then [] else [byteOf c]
  | (.puts source, r) => if r = 0 then [] else source
  | _ => []

/-- The bytes that a call returned. -/
def returned : Op × Int → List UInt8
  | (.getc, r) => if r = -1 then [] else [byteOf r]
  | _ => []

/-- The bytes that were appended to a buffer. -/
def contents (b : Fragmented) : List UInt8 := b.bytes 0 b.size

/-- `index <= size <= capacity <= 65536`, and as many fragments as the capacity says. -/
structure Sized (b : Fragmented) : Prop where
  index_le : b.index ≤ b.size
  size_le : b.size ≤ b.capacity
  capacity_le_max : b.capacity ≤ amqpBufferMaxSize
  whole : b.capacity % amqpBufferFragmentSize = 0
  allocated_iff : ∀ block, b.allocated block = true ↔ block < b.capacity / amqpBufferFragmentSize

/-- What each call does. `amqp_buffer_puts` does not fill a buffer up. -/
def Does (b : Fragmented) (op : Op) (r : Int) (b' : Fragmented) : Prop :=
  match op with
  | .grow newSize => r = b'.capacity ∧ b.capacity ≤ b'.capacity ∧ min newSize amqpBufferMaxSize ≤ b'.capacity ∧
      b'.index = b.index ∧ b'.size = b.size ∧ b'.contents = b.contents
  | .putc c =>
    if b.size < b.capacity then
      r = (byteOf c).toNat ∧ b'.index = b.index ∧ b'.capacity = b.capacity ∧
        b'.contents = b.contents ++ [byteOf c]
    else r = -1 ∧ b' = b
  | .puts source =>
    if b.size + source.length < b.capacity then
      r = source.length ∧ b'.index = b.index ∧ b'.capacity = b.capacity ∧
        b'.contents = b.contents ++ source
    else r = 0 ∧ b' = b
  | .getc =>
    if b.index < b.size then
      r = (b.byteAt b.index).toNat ∧ b'.contents = b.contents ∧ b'.index = b.index + 1 ∧
        b'.capacity = b.capacity
    else r = -1 ∧ b' = b

/-- The storage positions of a vector. -/
def positions (v : IoVec) : List Nat :=
  List.range' (v.block * amqpBufferFragmentSize + v.offset) v.length

/-- Vectors make up a range, and lie in the memory of the buffer. -/
structure Spans (b : Fragmented) (vectors : List IoVec) (start n : Nat) : Prop where
  length_le : vectors.length ≤ amqpBufferFragments
  inside : ∀ v ∈ vectors, 0 < v.length ∧ v.offset + v.length ≤ amqpBufferFragmentSize ∧
    b.allocated v.block = true
  positions : vectors.flatMap positions = List.range' start n

/-- Vectors of both kinds make up their range; what `readv` delivers goes to its positions and nowhere else,
and what `sendmsg` takes is what `amqp_unchecked_getc_at` reads there. -/
structure Moves (b : Fragmented) : Prop where
  write : ∀ n, 1 ≤ n → n ≤ b.capacity - b.size →
    ∃ vectors, b.toBuffer.writeIoVec n = .ok vectors ∧ b.Spans vectors b.size n ∧
      ∀ bytes : List UInt8, bytes.length ≤ n → ∀ j,
        ({ b.toBuffer with fragments := scatter vectors bytes b.fragments } : Buffer).byteAt j =
          if b.size ≤ j ∧ j < b.size + bytes.length then bytes.getD (j - b.size) 0 else b.byteAt j
  read : b.index < b.size →
    ∃ vectors, b.toBuffer.readIoVec = .ok vectors ∧ b.Spans vectors b.index (b.size - b.index) ∧
      b.toBuffer.gather vectors = (List.range' b.index (b.size - b.index)).map b.byteAt

/-- The queue that a buffer is. -/
structure Represents (b : Fragmented) (q : Lib.Queue UInt8) : Prop where
  capacity : q.capacity = b.capacity
  entered : q.entered = b.contents
  left : q.left = b.index

end Fragmented
end Amqp
