import LibAmqp.Buffer.Buffer

/-!
# I/O vectors (`Buffer/Buffer.c`, `Buffer/BufferWrite.c`)

A range of a buffer is handed to `readv` and `sendmsg` as one vector for each fragment it lies in.
-/

namespace Amqp.Buffer

def amqpBufferFragmentSize : Nat := amqpFragmentIndexMask + 1
def amqpBufferFragments : Nat := amqpBufferMaxSize / amqpBufferFragmentSize

/-- `struct iovec`: it begins at `fragments[block][offset]`. -/
structure IoVec where
  block : Nat
  offset : Nat
  length : Nat
  deriving DecidableEq, Repr

/-- The loop of `amqp_buffer_fill_io_vec`; `slots` members of `io_vectors` are left. -/
def fillIoVec.go : (slots n block : Nat) → Except Fault (List IoVec)
  | _, 0, _ => .ok []
  | 0, _ + 1, _ => .error .writePastCapacity
  | slots + 1, n + 1, block => do
    let available := if amqpBufferFragmentSize < n + 1 then amqpBufferFragmentSize else n + 1
    let rest ← fillIoVec.go slots (n + 1 - available) (block + 1)
    .ok (⟨block + 1, 0, available⟩ :: rest)

/-- `amqp_buffer_fill_io_vec`. -/
def fillIoVec (n block offset : Nat) : Except Fault (List IoVec) :=
  let available := amqpBufferFragmentSize - offset
  if n ≤ available then .ok [⟨block, offset, n⟩]
  else do
    let rest ← fillIoVec.go (amqpBufferFragments - 1) (n - available) block
    .ok (⟨block, offset, available⟩ :: rest)

/-- `amqp_buffer_write_io_vec`. -/
def writeIoVec (b : Buffer) (n : Nat) : Except Fault (List IoVec) :=
  if n ≤ b.capacity - b.size then
    fillIoVec n (b.size >>> amqpFragmentIndexBits) (b.size &&& amqpFragmentIndexMask)
  else .error .assertFailed

/-- `amqp_buffer_read_io_vec`. -/
def readIoVec (b : Buffer) : Except Fault (List IoVec) :=
  if b.size - b.index ≤ b.capacity - b.index then
    fillIoVec (b.size - b.index) (b.index >>> amqpFragmentIndexBits) (b.index &&& amqpFragmentIndexMask)
  else .error .assertFailed

/-- The bytes that vectors hold. -/
def gather (b : Buffer) (vectors : List IoVec) : List UInt8 :=
  vectors.flatMap fun v => (List.range v.length).map fun k => b.fragments v.block (v.offset + k)

/-- The fragments once bytes have been read into vectors. -/
def scatter : List IoVec → List UInt8 → (Nat → Nat → UInt8) → Nat → Nat → UInt8
  | [], _, fragments => fragments
  | v :: vectors, bytes, fragments => scatter vectors (bytes.drop v.length) fun block offset =>
    if block = v.block ∧ v.offset ≤ offset ∧ offset < v.offset + min v.length bytes.length then
      bytes.getD (offset - v.offset) 0
    else fragments block offset

/-- `sendmsg` over the unread bytes: it takes `n` of them, or all if there are fewer. -/
def send (b : Buffer) (n : Nat) : Except Fault (List UInt8) := do
  .ok ((b.gather (← b.readIoVec)).take n)

/-- `readv` of `bytes` into the free space, of which `needed` bytes are offered, and
`amqp_buffer_advance_write_point`. -/
def receive (b : Buffer) (needed : Nat) (bytes : List UInt8) : Except Fault Buffer := do
  let vectors ← b.writeIoVec needed
  .ok { b with fragments := scatter vectors bytes b.fragments, size := b.size + bytes.length }

/-- The unread bytes. -/
def unread (b : Buffer) : List UInt8 := b.bytes b.index (b.size - b.index)

/-- A buffer with bytes behind those it has. -/
def append (b : Buffer) (bytes : List UInt8) : Buffer := { b with
  fragments := fun block offset =>
    let i := block * amqpBufferFragmentSize + offset
    if offset < amqpBufferFragmentSize ∧ b.size ≤ i ∧ i < b.size + bytes.length then
      bytes.getD (i - b.size) 0
    else b.fragments block offset
  size := b.size + bytes.length }

/-- What every buffer meets that was made by the operations. -/
structure Sound (b : Buffer) : Prop where
  index_le : b.index ≤ b.size
  size_le : b.size ≤ b.capacity

instance (b : Buffer) : Decidable b.Sound :=
  decidable_of_iff (b.index ≤ b.size ∧ b.size ≤ b.capacity) ⟨fun h => ⟨h.1, h.2⟩, fun h => ⟨h.1, h.2⟩⟩

end Amqp.Buffer
