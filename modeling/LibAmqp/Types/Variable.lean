import LibAmqp.Buffer.Malloc
import LibAmqp.Codec.Type

/-!
# Variables (`AmqpTypes/AmqpVariable.c`, `AmqpTypes/AmqpVariableInternal.h`)

The contents of a symbol, a string or a binary are a C array or the bytes of a decoded type. `int`
and `size_t` are 32 and 64 bits wide: `toInt` is the conversion of a size to an `int`, `ofInt` that of
an `int` to a size.
-/

namespace Amqp

open Buffer

def toInt (n : Nat) : Int := (BitVec.ofNat 32 n).toInt
def ofInt (n : Int) : Nat := (BitVec.ofInt 64 n).toNat

/-- What the initialisers make of an `amqp_variable_t`; a type comes with the buffer that its value
points to. -/
inductive Variable
  /-- `amqp_variable_initialize_as_null` -/
  | null
  /-- `amqp_variable_initialize_from_type` -/
  | ofType (type : AmqpType) (buffer : Buffer)
  /-- `amqp_variable_initialize`: an array of as many bytes as `size` says -/
  | ofData (data : List UInt8)

namespace Variable

/-- `variable->size`. -/
def size : Variable → Nat
  | null => 0
  | ofType type _ => type.position.size
  | ofData data => data.length

/-- The bytes of a variable, read one by one. -/
def contents : Variable → List UInt8
  | null => []
  | ofType type buffer => buffer.bytes type.position.index type.position.size
  | ofData data => data

/-- A variable that the library makes: a type is one of variable width and lies in its buffer. -/
def Valid : Variable → Prop
  | null => True
  | ofType type buffer =>
    type.typeIsVariable = true ∧ type.position.index + type.position.size ≤ buffer.capacity
  | ofData data => data.length < 2 ^ 64

/-! ## Comparison -/

/-- An `amqp_memory_t` as `amqp_block_compare` sees it: the bytes behind `fragments[0]` that are
allocated there. -/
structure Block where
  fragment : Memory
  size : Nat

/-- `data_to_block`. Fragment 0 of a buffer has no more than its 4096 bytes and the guard;
`&variable->block` is followed by `variable->data`, which is its only fragment. -/
def dataToBlock : Variable → Except Fault Block
  | null => .ok ⟨fun _ => 0, 0⟩
  | ofType type buffer =>
    if type.typeIsVariable then .ok ⟨buffer.fragmentMemory 0, fragmentBlockSize⟩
    else .error .assertFailed
  | ofData data => .ok ⟨fun i => data.getD i 0, data.length⟩

def dataOffset : Variable → Nat
  | ofType type _ => type.position.index
  | _ => 0

end Variable

/-- `memcmp`: only the sign of its result is defined. -/
def Variable.memcmp : List UInt8 → List UInt8 → Int
  | x :: xs, y :: ys => if x < y then -1 else if y < x then 1 else Variable.memcmp xs ys
  | _, _ => 0

/-- `amqp_block_compare`. -/
def Variable.blockCompare (lhs : Variable.Block) (lhsOffset : Nat) (rhs : Variable.Block) (rhsOffset n : Nat) :
    Except Fault Int :=
  if n = 0 ∨ lhsOffset + n ≤ lhs.size ∧ rhsOffset + n ≤ rhs.size then
    .ok (Variable.memcmp ((List.range n).map fun i => lhs.fragment (lhsOffset + i))
      ((List.range n).map fun i => rhs.fragment (rhsOffset + i)))
  else .error .readPastSize

/-- The number of bytes that the comparisons look at: `n`, which is an `int`. -/
def comparedSize (lhs rhs : Nat) : Nat :=
  let n := toInt lhs
  ofInt (if rhs < ofInt n then toInt rhs else n)

/-- `rc != 0 ? rc : lhs->size - rhs->size`, converted to an `int`. -/
def comparison (rc : Int) (lhs rhs : Nat) : Int :=
  if rc ≠ 0 then rc else toInt (2 ^ 64 + lhs - rhs)

/-- `amqp_variable_compare`. -/
def Variable.compare (lhs rhs : Variable) : Except Fault Int := do
  let rc ← Variable.blockCompare (← lhs.dataToBlock) lhs.dataOffset (← rhs.dataToBlock) rhs.dataOffset
    (comparedSize lhs.size rhs.size)
  .ok (comparison rc lhs.size rhs.size)

/-- `amqp_variable_compare_with_bytes`. -/
def Variable.compareWithBytes (lhs : Variable) (rhs : List UInt8) : Except Fault Int := do
  let rc ← Variable.blockCompare (← lhs.dataToBlock) lhs.dataOffset ⟨fun i => rhs.getD i 0, rhs.length⟩ 0
    (comparedSize lhs.size rhs.length)
  .ok (comparison rc lhs.size rhs.length)

/-! ## Hash -/

/-- The `n` bytes that `amqp_hash` reads from `amqp_buffer_pointer` on. -/
def pointedBytes (b : Buffer) (block offset n : Nat) : Except Fault (List UInt8) :=
  if n = 0 ∨ block * amqpBufferFragmentSize < b.capacity ∧ offset + n ≤ fragmentBlockSize then
    .ok ((List.range n).map fun k => b.fragmentMemory block (offset + k))
  else .error .readPastSize

/-- `amqp_variable_hash`. `amqp_hash` is a function of the bytes; its length is an `int`. -/
def Variable.hash (amqpHash : List UInt8 → BitVec 32) : Variable → Except Fault (BitVec 32)
  | .ofType type buffer =>
    let size := (toInt type.position.size).toNat
    let block := type.position.index >>> amqpFragmentIndexBits
    let offset := type.position.index &&& amqpFragmentIndexMask
    do .ok (amqpHash (← pointedBytes buffer block offset size))
  | .ofData data => .ok (amqpHash (data.take (toInt data.length).toNat))
  | .null => .ok (amqpHash [])

/-! ## What is expected of them -/

/-- The sign of a number is that of the lexicographic comparison, the shorter prefix first. -/
structure Orders (rc : Int) (xs ys : List UInt8) : Prop where
  negative : rc < 0 ↔ xs < ys
  zero : rc = 0 ↔ xs = ys
  positive : 0 < rc ↔ ys < xs

namespace Variable

/-- `amqp_block_compare` finds `n` bytes in memory: for a type in the block of fragment 0. -/
def Reaches (v : Variable) (n : Nat) : Prop :=
  match v with
  | ofType type _ => n = 0 ∨ type.position.index + n ≤ fragmentBlockSize
  | _ => n ≤ v.size

/-- What it finds there: of a type that goes over the end of fragment 0, or lies behind it, other bytes than
its own. -/
def found (v : Variable) (n : Nat) : List UInt8 :=
  match v with
  | ofType type buffer => (List.range n).map fun i => buffer.fragmentMemory 0 (type.position.index + i)
  | _ => v.contents.take n

/-- A type lies in fragment 0 as far as `n` bytes of it go. -/
def InFirst (v : Variable) (n : Nat) : Prop :=
  match v with
  | ofType type _ => n = 0 ∨ type.position.index + n ≤ amqpBufferFragmentSize
  | _ => n ≤ v.size

/-- What is found of the two can be read and orders them as their contents do, or is the same, and the
difference of the sizes, cut to an `int`, decides right. -/
def Comparable (lhs rhs : Variable) : Prop :=
  let n := comparedSize lhs.size rhs.size
  lhs.Reaches n ∧ rhs.Reaches n ∧
    if lhs.found n = rhs.found n then Orders (toInt (2 ^ 64 + lhs.size - rhs.size)) lhs.contents rhs.contents
    else (lhs.found n < rhs.found n ↔ lhs.contents < rhs.contents) ∧
      (rhs.found n < lhs.found n ↔ rhs.contents < lhs.contents)

/-- `amqp_hash` finds its bytes in memory: for a type in the block of the fragment in which it begins. -/
def HashReaches : Variable → Prop
  | ofType type _ => type.position.size = 0 ∨
      type.position.index % amqpBufferFragmentSize + type.position.size ≤ fragmentBlockSize
  | _ => True

/-- The bytes that are hashed: of a type that goes over the end of a fragment, the guard instead of its
last bytes. -/
def hashed : Variable → List UInt8
  | ofType type buffer => (List.range type.position.size).map fun k =>
      buffer.fragmentMemory (type.position.index / amqpBufferFragmentSize)
        (type.position.index % amqpBufferFragmentSize + k)
  | v => v.contents.take (toInt v.size).toNat

/-- A type is in one fragment. -/
def InOne : Variable → Prop
  | ofType type _ => type.position.size = 0 ∨
      type.position.index % amqpBufferFragmentSize + type.position.size ≤ amqpBufferFragmentSize
  | _ => True

end Variable

end Amqp
