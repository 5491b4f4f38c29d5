import LibAmqp.Buffer.Buffer
import LibAmqp.Codec.Context
import LibAmqp.Transport.Field

/-!
# Printing a type (`Codec/Type/TypePrint.c`)

`amqp_type_print` writes a type for debugging. What it writes is left out: the model has what it
reads on the way, and where that stops the process. A type's bytes are in the buffer it was decoded
from. `config.formatted_print` is 0, as in every context the library creates. `fuel` bounds the
nesting; one more than the types in use is enough of it.
-/

namespace Amqp

/-- The recursion of the print methods. -/
abbrev Print := Context → Option Slot → Except Fault Unit

/-- An assertion. -/
def assertTrue (p : Bool) : Except Fault Unit := if p then .ok () else .error .assertFailed

/-- `amqp_type_get_byte_at` for every byte of a type. -/
def printBytes (b : Buffer) (t : AmqpType) : Except Fault Unit :=
  if t.position.size = 0 then .ok ()
  else if !t.typeIsVariable then .error .assertFailed
  else if t.value.word ≠ b.address then .error .wildPointer
  else do
    let _ ← b.uncheckedRead t.position.index t.position.size
    .ok ()

/-- The loops of `amqp_type_method_list_print` and `amqp_type_method_array_print`. -/
def printElements (print : Print) (c : Context) (elements : Nat) : Nat → Nat → Except Fault Unit
  | 0, _ => .ok ()
  | n + 1, i => do
    print c (← c.getElement elements i)
    printElements print c elements n (i + 1)

/-- The loop of `amqp_type_method_map_print`, from entry `i` on: a pair at a time, while the first of
the pair is below the count. -/
def printEntries (print : Print) (c : Context) (entries : Nat) : Nat → Nat → Except Fault Unit
  | 0, _ => .ok ()
  | 1, i => do
    print c (← c.getElement entries i)
    print c (← c.getElement entries (i + 1))
  | n + 2, i => do
    print c (← c.getElement entries i)
    print c (← c.getElement entries (i + 1))
    printEntries print c entries n (i + 2)

/-- The print method of a type, by its decoder. -/
def TypeDecoder.print (print : Print) (c : Context) (b : Buffer) (t : AmqpType) :
    TypeDecoder → Except Fault Unit
  | .describedType => do
    print c (← c.getElement t.value.elements 0)
    print c (← c.getElement t.value.elements 1)
  | .null | .booleanTrue | .booleanFalse | .boolean | .uuid => .ok ()
  | .ubyte => assertTrue (PrimitiveType.ubyte.test t)
  | .byte => assertTrue (PrimitiveType.byte.test t)
  | .ushort => assertTrue (PrimitiveType.ushort.test t)
  | .short => assertTrue (PrimitiveType.short.test t)
  | .uint | .uint0 | .smallUint => assertTrue (PrimitiveType.uint.test t)
  | .int | .smallInt => assertTrue (PrimitiveType.int.test t)
  | .ulong | .ulong0 | .smallUlong => assertTrue (PrimitiveType.ulong.test t)
  | .long | .smallLong => assertTrue (PrimitiveType.long.test t)
  | .float => assertTrue (t.typedefFlagsTest isFloat)
  | .double => assertTrue (t.typedefFlagsTest isDouble)
  | .char => assertTrue (t.typedefFlagsTest isChar)
  | .timestamp => assertTrue (t.typedefFlagsTest isTimestamp)
  | .decimal32 | .decimal64 | .decimal128 | .extensionType => .error .notImplemented
  | .binaryVbin8 | .binaryVbin32 | .stringStr8Utf8 | .stringStr32Utf8 | .symbolSym8
  | .symbolSym32 => printBytes b t
  | .list0 | .list8 | .list32 => printElements print c t.value.elements t.value.count 0
  | .map8 | .map32 => printEntries print c t.value.elements t.value.count 0
  | .array8 | .array32 => printElements print c t.value.elements t.value.count 0

/-- `amqp_nested_type_print`: a null pointer or a type without metadata is followed. -/
def amqpNestedTypePrint (b : Buffer) : Nat → Print
  | 0, _, _ => .error .outOfFuel
  | _ + 1, _, none => .error .wildPointer
  | fuel + 1, c, some s => do
    let t ← c.load s
    match t.constructor.metaData with
    | none => .error .wildPointer
    | some m =>
      if t.typeIsInvalid then printBytes b t
      else m.typeDecoder.print (amqpNestedTypePrint b fuel) c b t

/-- `amqp_type_print`. -/
def amqpTypePrint (b : Buffer) (c : Context) (type : Option Slot) : Except Fault Unit :=
  amqpNestedTypePrint b (c.types.outstandingAllocations + 1) c type

end Amqp
