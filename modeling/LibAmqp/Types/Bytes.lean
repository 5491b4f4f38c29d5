import LibAmqp.Types.Variable

/-!
# The bytes of a variable (`AmqpTypes/AmqpVariable.c`, `AmqpTypes/AmqpString.c`, `Memory/Memory.c`)

Copies into a buffer of the caller and into one of `amqp_malloc`, as which `amqp_string_to_cstr` and
`amqp_symbol_to_cstr` return a string.
-/

namespace Amqp

open Buffer

/-- `amqp_type_copy_to`, for a type of this buffer. -/
def amqpTypeCopyTo (type : AmqpType) (b : Buffer) (destination : Buffer.Memory) (amount : Nat) :
    Except Fault (Nat × Buffer.Memory) :=
  if type.typeIsVariable then do
    let size := if amount < type.position.size then amount else type.position.size
    let destination ← b.blockCopy destination type.position.index size
    .ok (size, destination)
  else .error .assertFailed

/-- `amqp_variable_to_bytes`, also `amqp_symbol_to_bytes` and `amqp_string_to_bytes`. -/
def Variable.toBytes (destination : Buffer.Memory) (bufferSize : Nat) :
    Variable → Except Fault (Int × Buffer.Memory)
  | null => .error .assertFailed
  | ofType type buffer => do
    let (size, destination) ← amqpTypeCopyTo type buffer destination bufferSize
    .ok (toInt size, destination)
  | ofData data =>
    let size := if bufferSize ≤ data.length then bufferSize else data.length
    .ok (toInt size, memcpy destination 0 (data.take size))

/-! ## Allocated strings -/

/-- `amqp_variable_clone_data`. -/
def Variable.cloneData (v : Variable) : Except Fault (Option MallocBlock) :=
  match v with
  | null => .ok none
  | v => do
    let block := amqpMalloc (BitVec.ofNat 64 v.size)
    let (_, bytes) ← v.toBytes block.bytes v.size
    .ok (some { block with bytes := bytes })

/-- `amqp_string_to_cstr` and `amqp_symbol_to_cstr`. -/
def Variable.toCstr (v : Variable) : Except Fault (Option MallocBlock) :=
  match v with
  | null => .ok none
  | v => v.cloneData

/-- What `strlen` finds. -/
def Strlen (bytes : Buffer.Memory) (n : Nat) : Prop := bytes n = 0 ∧ ∀ i < n, bytes i ≠ 0

/-- The copy of a type is right as far as `n` bytes of it go. -/
def Variable.CopiesRight (v : Variable) (n : Nat) : Prop :=
  match v with
  | ofType type buffer => buffer.Repeats type.position.index n
  | _ => True

/-- The string is the contents and at least one zero byte, all of them in the words of the block, and
its length is that of the contents. -/
def Variable.Terminated (v : Variable) : Prop :=
  ∃ block, v.toCstr = .ok (some block) ∧ v.size < 8 * block.count ∧
    (∀ i < v.size, block.bytes i = v.contents.getD i 0) ∧
    (∀ i, v.size ≤ i → i < 8 * block.count → block.bytes i = 0) ∧ Strlen block.bytes v.size

end Amqp
