import LibAmqp.Buffer.Buffer
import LibAmqp.Codec.Context

/-!
# The encoder (`Codec/Encode/Encode.c`)

An `amqp_encode_*` call writes a type to a buffer and links it into the innermost open container,
which `context->encode.container` points to; `amqp_complete_type` closes that container and writes its
size and count over the place kept for them. Integers are bit vectors of the width of the C type.

`amqp_encode_char`, `amqp_encode_decimal32` and `amqp_encode_decimal64` only return null and are left
out, as are the variants that take the length of a C string from `strlen`.
-/

namespace Amqp

open Lib

/-- What an `amqp_encode_*` call returns: the type, or null when the buffer has no room. -/
abbrev Encoding := Except Fault (Option Slot × Context × Buffer)

/-! ## Containers -/

/-- `allocate_elements`: there is memory for a first array of 16 pointers. -/
def allocateElements (c : Context) (elements count : Nat) : Except Fault (Nat × Context) :=
  if elements = 0 then .ok (c.newArray 1) else c.reallocArray elements count

/-- The flags for member `count` of a described type. -/
def setMemberRole (c : Context) (type : Slot) (count : Nat) : Except Fault Context :=
  match count with
  | 0 => c.modify type (·.typedefFlagsSet isDescriptor)
  | 1 => c.modify type (·.typedefFlagsSet isDescribed)
  | _ => .error .abort

/-- `amqp_add_element_to_container`. -/
def addElementToContainer (c : Context) (container type : Slot) : Except Fault Context := do
  let count := (← c.load container).value.count
  let c ← c.modify container fun t => { t with value := { t.value with word := count + 1 } }
  let c ← c.modify type (·.typedefFlagsSet isContained)
  let c ← if (← c.load container).typeIsComposite then setMemberRole c type count else .ok c
  let (elements, c) ← allocateElements c (← c.load container).value.elements (count + 1)
  let c ← c.modify container fun t => { t with value := { t.value with elements := elements } }
  c.setElement elements count type

/-- `is_i_contained_within_array`. -/
def isIContainedWithinArray (c : Context) : Except Fault Bool :=
  match c.container with
  | none => .ok false
  | some container => do .ok (← c.load container).typeIsArray

/-- `push_container`. -/
def pushContainer (c : Context) (type : Slot) : Except Fault Context := do
  let c ← c.modify type fun t => { t.typedefFlagsSet isIncomplete with savedContainer := c.container }
  .ok { c with container := some type }

/-- `pop_container`. -/
def popContainer (c : Context) : Except Fault (Slot × Context) :=
  match c.container with
  | none => .error .wildPointer
  | some result => do
    let saved := (← c.load result).savedContainer
    let c ← c.modify result fun t => { t.typedefFlagsClear isIncomplete with savedContainer := none }
    .ok (result, { c with container := saved })

/-! ## Constructors -/

/-- `initialize_constructor`. -/
def initializeConstructor (extra : TypedefFlags) (m : EncodingMetaData) (k : TypeConstructor) :
    TypeConstructor :=
  { k with
    formatCode := m.formatCode
    metaData := some m
    typedefFlags := m.typedefFlags ||| isEncoded ||| extra }

/-- `emit_constructor`. -/
def emitConstructor (b : Buffer) (m : EncodingMetaData) : Except Fault Buffer := b.putc m.formatCode

/-- `amqp_type_match`. -/
def amqpTypeMatch (lhs rhs : AmqpType) : Bool :=
  lhs.constructor.formatCode == rhs.constructor.formatCode

/-- The part of `initialize_type` that puts a type into the enclosing container: only the first
element of an array writes its constructor. -/
def enterContainer (c : Context) (b : Buffer) (m : EncodingMetaData) (container type : Slot) :
    Except Fault (Context × Buffer) := do
  let enclosing ← c.load container
  if !enclosing.typeIsArray then do
    let b ← emitConstructor b m
    .ok (← addElementToContainer c container type, b)
  else if enclosing.value.count = 0 then do
    let b ← emitConstructor b m
    let c ← c.modify container fun t => { t with value := { t.value with constructor := some type } }
    .ok (← addElementToContainer c container type, b)
  else match enclosing.value.constructor with
    | none => .error .wildPointer
    | some first => do
      if amqpTypeMatch (← c.load first) (← c.load type) then
        .ok (← addElementToContainer c container type, b)
      else do
        let c ← c.modify type (·.markInvalid .arrayElementTypeIncorrect)
        let c ← c.modify container (·.markInvalid .arrayElementTypeIncorrect)
        .ok (← addElementToContainer c container type, b)

/-- `initialize_type` up to its last step. -/
def placeType (c : Context) (b : Buffer) (extra : TypedefFlags) (m : EncodingMetaData) :
    Except Fault (Slot × Context × Buffer) := do
  let enclosing := c.container
  let (type, c) ← c.allocateType
  let c ← c.modify type fun t =>
    { t with constructor := initializeConstructor extra m t.constructor }
  match enclosing with
  | none => do .ok (type, c, ← emitConstructor b m)
  | some container => do
    let (c, b) ← enterContainer c b m container type
    .ok (type, c, b)

/-- `initialize_type`. -/
def initializeType (c : Context) (b : Buffer) (extra : TypedefFlags) (m : EncodingMetaData) :
    Except Fault (Slot × Context × Buffer) := do
  let (type, c, b) ← placeType c b extra m
  if (← c.load type).typeIsContainer then do
    .ok (type, ← pushContainer c type, b)
  else .ok (type, c, b)

/-! ## Fixed width types -/

/-- `amqp_encode_fixed`. -/
def amqpEncodeFixed (c : Context) (b : Buffer) (m : EncodingMetaData) : Encoding :=
  if !b.checkFreeSpace (m.width + 1) then .ok (none, c, b)
  else do
    let (type, c, b) ← initializeType c b 0 m
    let c ← c.modify type fun t => { t with position := ⟨b.size, m.width⟩ }
    .ok (some type, c, b)

/-- What a call does with the type when there is one. -/
def thenWrite (r : Encoding) (write : Buffer → Except Fault Buffer) : Encoding := do
  match ← r with
  | (none, c, b) => .ok (none, c, b)
  | (some type, c, b) => do .ok (some type, c, ← write b)

/-- `amqp_encode_fixed_one_byte`, `amqp_encode_fixed_two_byte`, `amqp_encode_fixed_four_byte` and
`amqp_encode_fixed_eight_byte`, by the number of bytes. -/
def amqpEncodeFixedBytes (n : Nat) (c : Context) (b : Buffer) (m : EncodingMetaData) (value : Nat) :
    Encoding :=
  thenWrite (amqpEncodeFixed c b m) fun b => b.hton n value

def amqpEncodeNull (c : Context) (b : Buffer) : Encoding := amqpEncodeFixed c b .null

/-- `amqp_encode_boolean`: the result is written to without a look whether it is null. -/
def amqpEncodeBoolean (c : Context) (b : Buffer) (value : BitVec 32) : Encoding := do
  let (result, c, b) ←
    if ← isIContainedWithinArray c then
      amqpEncodeFixedBytes 1 c b .boolean (if value ≠ 0 then 1 else 0)
    else amqpEncodeFixed c b (if value ≠ 0 then .booleanTrue else .booleanFalse)
  match result with
  | none => .error .wildPointer
  | some type => do
    let c ← c.modify type fun t => { t with value := t.value.setLow 1 (value.toNat % 256) }
    .ok (some type, c, b)

def amqpEncodeUbyte (c : Context) (b : Buffer) (value : BitVec 8) : Encoding :=
  amqpEncodeFixedBytes 1 c b .ubyte value.toNat

def amqpEncodeByte (c : Context) (b : Buffer) (value : BitVec 8) : Encoding :=
  amqpEncodeFixedBytes 1 c b .byte value.toNat

def amqpEncodeUshort (c : Context) (b : Buffer) (value : BitVec 16) : Encoding :=
  amqpEncodeFixedBytes 2 c b .ushort value.toNat

def amqpEncodeShort (c : Context) (b : Buffer) (value : BitVec 16) : Encoding :=
  amqpEncodeFixedBytes 2 c b .short value.toNat

/-- `value == (signed char) (value & 0xff)`. -/
def fitsSignedChar {w : Nat} (value : BitVec w) : Bool := (value.setWidth 8).signExtend w == value

def amqpEncodeSmallInt (c : Context) (b : Buffer) (value : BitVec 32) : Encoding :=
  amqpEncodeFixedBytes 1 c b .intSmallInt (value.toNat % 256)

def amqpEncodeInt (c : Context) (b : Buffer) (value : BitVec 32) : Encoding :=
  if fitsSignedChar value then amqpEncodeSmallInt c b value
  else amqpEncodeFixedBytes 4 c b .int value.toNat

def amqpEncodeSmallUint (c : Context) (b : Buffer) (value : BitVec 32) : Encoding :=
  amqpEncodeFixedBytes 1 c b .uintSmallUint (value.toNat % 256)

def amqpEncodeUint0 (c : Context) (b : Buffer) : Encoding := amqpEncodeFixed c b .uintUint0

def amqpEncodeUint (c : Context) (b : Buffer) (value : BitVec 32) : Encoding :=
  if value.toNat = 0 then amqpEncodeUint0 c b
  else if value.toNat < 255 then amqpEncodeSmallUint c b value
  else amqpEncodeFixedBytes 4 c b .uint value.toNat

def amqpEncodeUlong0 (c : Context) (b : Buffer) : Encoding := amqpEncodeFixed c b .ulongUlong0

def amqpEncodeSmallUlong (c : Context) (b : Buffer) (value : BitVec 64) : Encoding :=
  amqpEncodeFixedBytes 1 c b .ulongSmallUlong (value.toNat % 256)

def amqpEncodeUlong (c : Context) (b : Buffer) (value : BitVec 64) : Encoding :=
  if value.toNat = 0 then amqpEncodeUlong0 c b
  else if value.toNat < 255 then amqpEncodeSmallUlong c b value
  else amqpEncodeFixedBytes 8 c b .ulong value.toNat

def amqpEncodeSmallLong (c : Context) (b : Buffer) (value : BitVec 64) : Encoding :=
  amqpEncodeFixedBytes 1 c b .longSmallLong (value.toNat % 256)

def amqpEncodeLong (c : Context) (b : Buffer) (value : BitVec 64) : Encoding :=
  if fitsSignedChar value then amqpEncodeSmallLong c b value
  else amqpEncodeFixedBytes 8 c b .long value.toNat

def amqpEncodeTimestamp (c : Context) (b : Buffer) (value : BitVec 64) : Encoding :=
  amqpEncodeFixedBytes 8 c b .timestampMs64 value.toNat

/-- `amqp_encode_float`, of the bits of the number. -/
def amqpEncodeFloat (c : Context) (b : Buffer) (bits : BitVec 32) : Encoding :=
  amqpEncodeFixedBytes 4 c b .floatIeee754 bits.toNat

/-- `amqp_encode_double`, of the bits of the number. -/
def amqpEncodeDouble (c : Context) (b : Buffer) (bits : BitVec 64) : Encoding :=
  amqpEncodeFixedBytes 8 c b .doubleIeee754 bits.toNat

def amqpEncodeUuid (c : Context) (b : Buffer) (value : Vector UInt8 16) : Encoding :=
  thenWrite (amqpEncodeFixed c b .uuid) fun b => b.puts value.toList

/-! ## Variable width types -/

/-- The size field of a variable width type. -/
def writeSizeField (b : Buffer) (width size : Nat) : Except Fault Buffer :=
  match width with
  | 1 => b.uncheckedPutc (UInt8.ofNat (size % 256))
  | 4 => b.hton 4 size
  | _ => .error .abort

/-- `amqp_encode_simple_variable`. -/
def amqpEncodeSimpleVariable (c : Context) (b : Buffer) (m : EncodingMetaData) (value : List UInt8) :
    Encoding :=
  if !b.checkFreeSpace (m.width + 1 + value.length) then .ok (none, c, b)
  else do
    let (type, c, b) ← initializeType c b 0 m
    let c ← c.modify type fun t => { t with value := { t.value with word := b.address } }
    let b ← writeSizeField b m.width value.length
    let c ← c.modify type fun t => { t with position := ⟨b.size, value.length⟩ }
    .ok (some type, c, ← b.puts value)

def amqpEncodeBinaryVbin8 (c : Context) (b : Buffer) (value : List UInt8) : Encoding :=
  amqpEncodeSimpleVariable c b .binaryVbin8 value

def amqpEncodeBinaryVbin32 (c : Context) (b : Buffer) (value : List UInt8) : Encoding :=
  amqpEncodeSimpleVariable c b .binaryVbin32 value

def amqpEncodeBinary (c : Context) (b : Buffer) (value : List UInt8) : Encoding :=
  if value.length < 256 then amqpEncodeBinaryVbin8 c b value else amqpEncodeBinaryVbin32 c b value

/-- `amqp_encode_symbol_sym8n`. -/
def amqpEncodeSymbolSym8 (c : Context) (b : Buffer) (value : List UInt8) : Encoding :=
  amqpEncodeSimpleVariable c b .symbolSym8 value

/-- `amqp_encode_symbol_sym32n`. -/
def amqpEncodeSymbolSym32 (c : Context) (b : Buffer) (value : List UInt8) : Encoding :=
  amqpEncodeSimpleVariable c b .symbolSym32 value

/-- `amqp_encode_symboln`. -/
def amqpEncodeSymbol (c : Context) (b : Buffer) (value : List UInt8) : Encoding :=
  if value.length < 256 then amqpEncodeSymbolSym8 c b value else amqpEncodeSymbolSym32 c b value

/-- `encode_string_utf8`, for `amqp_encode_string` and `amqp_encode_stringn`. -/
def amqpEncodeString (c : Context) (b : Buffer) (value : List UInt8) : Encoding :=
  amqpEncodeSimpleVariable c b (if value.length < 256 then .stringStr8Utf8 else .stringStr32Utf8)
    value

/-! ## Compound types -/

/-- The place for a size and a count: `1` or `4` for the size of an empty container, then zero. -/
def reserveFields (c : Context) (b : Buffer) (type : Slot) (width : Nat) :
    Except Fault (Context × Buffer) :=
  let mark (c : Context) (b : Buffer) := c.modify type fun t => { t with position.index := b.size }
  match width with
  | 0 => do .ok (← mark c b, b)
  | 1 => do
    let b ← b.uncheckedPutc 1
    .ok (← mark c b, ← b.uncheckedPutc 0)
  | 4 => do
    let b ← b.hton 4 4
    .ok (← mark c b, ← b.hton 4 0)
  | _ => .error .abort

/-- `encode_compound_type`. -/
def encodeCompoundType (c : Context) (b : Buffer) (extra : TypedefFlags) (m : EncodingMetaData) :
    Encoding :=
  if !b.checkFreeSpace (m.width * 2 + 2) then .error .abort
  else do
    let (type, c, b) ← initializeType c b extra m
    let (c, b) ← reserveFields c b type m.width
    .ok (some type, c, b)

def amqpEncodeList8 (c : Context) (b : Buffer) : Encoding := encodeCompoundType c b isList .list8
def amqpEncodeList32 (c : Context) (b : Buffer) : Encoding := encodeCompoundType c b isList .list32
def amqpEncodeArray8 (c : Context) (b : Buffer) : Encoding := encodeCompoundType c b isArray .array8
def amqpEncodeArray32 (c : Context) (b : Buffer) : Encoding :=
  encodeCompoundType c b isArray .array32
def amqpEncodeMap8 (c : Context) (b : Buffer) : Encoding := encodeCompoundType c b isMap .map8
def amqpEncodeMap32 (c : Context) (b : Buffer) : Encoding := encodeCompoundType c b isMap .map32

def amqpStartEncodeDescribedType (c : Context) (b : Buffer) : Encoding :=
  encodeCompoundType c b isComposite .described

/-- The size and count of a container, written where they were kept free. -/
def writeFields (b : Buffer) (width index size count : Nat) : Except Fault Buffer :=
  match width with
  | 1 => do
    let b ← (b.setWriteIndex (index - 1)).uncheckedPutc (UInt8.ofNat (size % 256))
    b.uncheckedPutc (UInt8.ofNat (count % 256))
  | 4 => do
    let b ← (b.setWriteIndex (index - 4)).hton 4 size
    b.hton 4 count
  | _ => .error .fatalProgramError

/-- `complete_container_type`; the container of a described type that overflowed is marked too. -/
def completeContainerType (c : Context) (b : Buffer) (type : Slot) : Encoding := do
  let saved := b.size
  let c ← c.modify type fun t => { t with position.size := saved - t.position.index }
  let t ← c.load type
  match t.constructor.metaData with
  | none => .error .wildPointer
  | some m =>
    if m.width = 0 then
      if 2 < t.value.count then do
        let c ← c.modify type (·.markInvalid .describedTypeOverflow)
        match c.container with
        | none => .error .assertFailed
        | some container => do
          let c ← c.modify container (·.markInvalid .describedTypeOverflow)
          .ok (some type, c, b.setWriteIndex saved)
      else .ok (some type, c, b.setWriteIndex saved)
    else do
      let b ← writeFields b m.width t.position.index t.position.size t.value.count
      .ok (some type, c, b.setWriteIndex saved)

/-- `complete_empty_list`. -/
def completeEmptyList (c : Context) (b : Buffer) (type : Slot) : Encoding := do
  let t ← c.load type
  match t.constructor.metaData with
  | none => .error .wildPointer
  | some old => do
    let b ← b.backup (old.width * 2 + 1)
    let b ← b.putc EncodingMetaData.list0.formatCode
    let c ← c.modify type fun t => { t with
      constructor := { t.constructor with
        metaData := some .list0, formatCode := EncodingMetaData.list0.formatCode }
      position := ⟨b.size, EncodingMetaData.list0.width⟩ }
    .ok (some type, c, b)

/-- `amqp_complete_type`; `type` may be null for the innermost container. -/
def amqpCompleteType (c : Context) (b : Buffer) (type : Option Slot) : Encoding := do
  let (top, c) ← popContainer c
  if type.isSome && type != some top then
    if !c.continueOnUsageError then .error .apiUsageError
    else match type with
      | none => .ok (none, c, b)
      | some type => do
        let c ← c.modify type (·.markInvalid .completeWrongContainer)
        let c ← c.modify top (·.markInvalid .completeWrongContainer)
        .ok (none, c, b)
  else if (← isIContainedWithinArray c) || !(← c.load top).typeIsEmptyList then
    completeContainerType c b top
  else completeEmptyList c b top

/-- `amqp_encode_list_0`. -/
def amqpEncodeList0 (c : Context) (b : Buffer) : Encoding := do
  let (type, c, b) ← amqpEncodeList8 c b
  match type with
  | none => .ok (none, c, b)
  | some type => do
    let (_, c, b) ← amqpCompleteType c b (some type)
    .ok (some type, c, b)

end Amqp
