import LibAmqp.Buffer.Buffer
import LibAmqp.Codec.Context

/-!
# The decoder (`Codec/Decode/Decode.c`)

A decoder function fills in the type it is given and says whether that worked. Here it takes the
type by value and returns it, and `amqpDecode` writes it to its slot at the end: nobody else reads
a type while it is being decoded. Decoders that only read the buffer leave the context out. The
recursion through elements goes by `decodeTypeIntoResult`, whose fuel bounds the nesting;
`amqpDecode` gives it one more than the bytes left. Messages (`context->debug.level`) are left out.
-/

namespace Amqp

open Lib

/-- What a decoder that needs no context returns: success, the buffer and the type. -/
abbrev Decoding := Except Fault (Bool × Buffer × AmqpType)

/-- `decode_error`, without the message. -/
def decodeError (b : Buffer) (type : AmqpType) (code : ErrorCode) : Bool × Buffer × AmqpType :=
  (false, b, type.markInvalid code)

/-! ## Fixed width types -/

def amqpDecodeFixedZeroWidth (b : Buffer) (type : AmqpType) : Decoding :=
  .ok (true, b, { type with position := ⟨b.index, 0⟩ })

def amqpDecodeNull (b : Buffer) (_ : EncodingMetaData) (type : AmqpType) : Decoding :=
  amqpDecodeFixedZeroWidth b type

def amqpDecodeBooleanTrue (b : Buffer) (_ : EncodingMetaData) (type : AmqpType) : Decoding := do
  let (_, b, type) ← amqpDecodeFixedZeroWidth b type
  .ok (true, b, { type with value := type.value.setLow 1 1 })

/-- The value is left as it is. -/
def amqpDecodeBooleanFalse (b : Buffer) (_ : EncodingMetaData) (type : AmqpType) : Decoding :=
  amqpDecodeFixedZeroWidth b type

/-- A little endian word of a uuid's bytes. -/
def uuidWord (bytes : List UInt8) : Nat := ofBigEndian bytes.reverse

/-- The bytes of a fixed width type into its value union; other widths abort. -/
def readFixedValue (b : Buffer) (width index : Nat) (value : Value) : Except Fault Value :=
  match width with
  | 1 => do .ok (value.setLow 1 (← b.ntoh 1 index))
  | 2 => do .ok (value.setLow 2 (← b.ntoh 2 index))
  | 4 => do .ok (value.setLow 4 (← b.ntoh 4 index))
  | 8 => do .ok (value.setLow 8 (← b.ntoh 8 index))
  | 16 => do
    let uuid ← b.uncheckedRead index 16
    .ok { value with word := uuidWord (uuid.take 8), elements := uuidWord (uuid.drop 8) }
  | _ => .error .abort

def amqpDecodeFixedWidth (b : Buffer) (m : EncodingMetaData) (type : AmqpType) : Decoding :=
  if b.checkAvailable m.width then do
    let index := b.index
    let b := b.advanceReadIndex m.width
    let value ← readFixedValue b m.width index type.value
    .ok (true, b, { type with position := ⟨index, m.width⟩, value := value })
  else .ok (decodeError b type .bufferWouldOverrun)

/-- A fixed width or zero width decoder that sets the value again when it worked. -/
def thenSetValue (r : Decoding) (f : Value → Value) : Decoding := do
  let (rc, b, type) ← r
  .ok (rc, b, if rc then { type with value := f type.value } else type)

/-- A one byte two's complement number in `n` bytes. -/
def signExtend (n v : Nat) : Nat := if v < 128 then v else v + (256 ^ n - 256)

def amqpDecodeUint0 (b : Buffer) (_ : EncodingMetaData) (type : AmqpType) : Decoding :=
  thenSetValue (amqpDecodeFixedZeroWidth b type) fun v => v.setLow 4 0

def amqpDecodeUlong0 (b : Buffer) (_ : EncodingMetaData) (type : AmqpType) : Decoding :=
  thenSetValue (amqpDecodeFixedZeroWidth b type) fun v => v.setLow 8 0

def amqpDecodeSmallUint (b : Buffer) (m : EncodingMetaData) (type : AmqpType) : Decoding :=
  thenSetValue (amqpDecodeFixedWidth b m type) fun v => v.setLow 4 (v.low 1)

def amqpDecodeSmallInt (b : Buffer) (m : EncodingMetaData) (type : AmqpType) : Decoding :=
  thenSetValue (amqpDecodeFixedWidth b m type) fun v => v.setLow 4 (signExtend 4 (v.low 1))

def amqpDecodeSmallUlong (b : Buffer) (m : EncodingMetaData) (type : AmqpType) : Decoding :=
  thenSetValue (amqpDecodeFixedWidth b m type) fun v => v.setLow 8 (v.low 1)

def amqpDecodeSmallLong (b : Buffer) (m : EncodingMetaData) (type : AmqpType) : Decoding :=
  thenSetValue (amqpDecodeFixedWidth b m type) fun v => v.setLow 8 (signExtend 8 (v.low 1))

/-- `amqp_validate_char`, of a `wchar_t` that is signed. -/
def amqpValidateChar (c : Nat) : Bool :=
  2 ^ 31 ≤ c || c < 0xd800 || (0xdfff < c && c ≤ 0x10ffff)

def amqpDecodeChar (b : Buffer) (m : EncodingMetaData) (type : AmqpType) : Decoding := do
  let (rc, b, type) ← amqpDecodeFixedWidth b m type
  if rc && !amqpValidateChar (type.value.low 4) then
    .ok (decodeError b type .invalidUtf32Character)
  else .ok (rc, b, type)

def amqpDecodeDecimal128 (_ : Buffer) (_ : EncodingMetaData) (_ : AmqpType) : Decoding :=
  .error .notImplemented

/-! ## Variable width types -/

/-- `get_variable_type_size`; the size is `sizeError` for its `-1`. -/
def getVariableTypeSize (b : Buffer) (m : EncodingMetaData) (type : AmqpType) :
    Except Fault (Nat × Buffer × AmqpType) := do
  let (size, b) ← b.readSizeField m.width
  if size = Buffer.sizeError then
    .ok (Buffer.sizeError, b, type.markInvalid .bufferWouldOverrun)
  else if !b.checkAvailable size then
    .ok (Buffer.sizeError, b, type.markInvalid .bufferWouldOverrun)
  else .ok (size, b, type)

/-- `get_variable_type_count`. -/
def getVariableTypeCount (b : Buffer) (m : EncodingMetaData) (type : AmqpType) :
    Except Fault (Nat × Buffer × AmqpType) := do
  let (count, b) ← b.readSizeField m.width
  if count = Buffer.sizeError then
    .ok (count, b, type.markInvalid .variableTypeMalformed)
  else .ok (count, b, type)

def amqpConstructVariableType (b : Buffer) (m : EncodingMetaData) (type : AmqpType) : Decoding := do
  let (size, b, type) ← getVariableTypeSize b m type
  if size = Buffer.sizeError then .ok (false, b, type)
  else .ok (true, b.advanceReadIndex size,
    { type with position := ⟨b.index, size⟩, value := { type.value with word := b.address } })

/-- The character loops of the symbol and string decoders: the bytes of a variable type, checked
one by one. -/
def checkCharacters (b : Buffer) (bad : UInt8 → Bool) : Nat → Nat → Except Fault Bool
  | _, 0 => .ok true
  | i, n + 1 => do
    if bad (← b.uncheckedGetcAt i) then .ok false else checkCharacters b bad (i + 1) n

def decodeCharacters (b : Buffer) (m : EncodingMetaData) (type : AmqpType) (bad : UInt8 → Bool)
    (code : ErrorCode) : Decoding := do
  let (rc, b, type) ← amqpConstructVariableType b m type
  if rc then do
    if ← checkCharacters b bad type.position.index type.position.size then .ok (rc, b, type)
    else .ok (decodeError b type code)
  else .ok (rc, b, type)

def amqpDecodeSymbol (b : Buffer) (m : EncodingMetaData) (type : AmqpType) : Decoding :=
  decodeCharacters b m type (fun c => c &&& 0x80 != 0) .invalidSymbolCharacter

def amqpDecodeStringUtf8 (b : Buffer) (m : EncodingMetaData) (type : AmqpType) : Decoding :=
  decodeCharacters b m type (fun c => c == 0) .invalidUtf8Character

/-! ## Constructors -/

/-- `decode_type_constructor`; past the end `amqp_buffer_getc` gives `-1`, which is stored as
`0xff`. -/
def decodeTypeConstructor (b : Buffer) (constructor : TypeConstructor) :
    Except Fault (Bool × Buffer × TypeConstructor) := do
  let (c, b) ← b.getc
  let formatCode := c.getD 0xff
  let constructor := { constructor with formatCode := formatCode }
  match amqpTypeMetaDataLookup formatCode with
  | none => .ok (false, b, constructor)
  | some m => .ok (true, b, { constructor with
      metaData := some m, typedefFlags := m.typedefFlags, extensionTypeCode := 0 })

/-- `decode_type_constructor_into_result`. -/
def decodeTypeConstructorIntoResult (b : Buffer) (type : AmqpType) : Decoding := do
  let (rc, b, constructor) ← decodeTypeConstructor b type.constructor
  let type := { type with constructor := constructor }
  if rc then .ok (rc, b, type) else .ok (decodeError b type .unknownFormatCode)

/-! ## Containers -/

/-- `amqp_construct_container_type`: the elements are still to be read. -/
def amqpConstructContainerType (b : Buffer) (m : EncodingMetaData) (type : AmqpType) : Decoding := do
  let (size, b, type) ← getVariableTypeSize b m type
  if size = Buffer.sizeError then .ok (false, b, type)
  else .ok (true, b, { type with position := ⟨b.index, size⟩ })

/-- What a container decoder returns. -/
abbrev ContainerDecoding := Except Fault (Bool × Context × Buffer × AmqpType)

/-- The recursion of the decoder: `decode_type_into_result`. -/
abbrev Recurse := Context → Buffer → AmqpType → ContainerDecoding

/-- `amqp_decode`, over the decoder of what follows the constructor. -/
def amqpDecodeWith (recurse : Recurse) (c : Context) (b : Buffer) :
    Except Fault (Option Slot × Context × Buffer) :=
  if b.atEnd then .ok (none, c, b)
  else do
    let start := b.index
    let (s, c) ← c.allocateType
    let (rc, b, type) ← decodeTypeConstructorIntoResult b (← c.load s)
    if rc then do
      let (_, c, b, type) ← recurse c b type
      .ok (some s, (c.store s type).log ⟨s, start, b.index⟩, b)
    else .ok (some s, (c.store s type).log ⟨s, start, b.index⟩, b)

/-- The element loops of lists, maps and arrays, from element `i` on: an element that is not there
leaves its entry null. -/
def decodeElements (decode : Context → Buffer → Except Fault (Option Slot × Context × Buffer))
    (elements : Nat) : Nat → Nat → Context → Buffer → Except Fault (Context × Buffer)
  | 0, _, c, b => .ok (c, b)
  | n + 1, i, c, b => do
    match ← decode c b with
    | (some element, c, b) => do
      let c ← c.setElement elements i element
      let c ← c.modify element (·.typedefFlagsSet isContained)
      decodeElements decode elements n (i + 1) c b
    | (none, c, b) => decodeElements decode elements n (i + 1) c b

/-- The body that `amqp_decode_list_list` and `amqp_decode_map_map` share; `is_even` has no
caller. -/
def decodeCompound (recurse : Recurse) (c : Context) (b : Buffer) (m : EncodingMetaData)
    (type : AmqpType) : ContainerDecoding := do
  let (rc, b, type) ← amqpConstructContainerType b m type
  if rc then do
    let (count, b, type) ← getVariableTypeCount b m type
    if count = Buffer.sizeError then .ok (false, c, b, type)
    else do
      let (elements, c) ← c.allocateArray count
      let type := { type with value := { type.value with word := count, elements := elements } }
      let (c, b) ← decodeElements (amqpDecodeWith recurse) elements count 0 c b
      .ok (true, c, b, type)
  else .ok (false, c, b, type)

def amqpDecodeListList : Recurse → Context → Buffer → EncodingMetaData → AmqpType →
    ContainerDecoding := decodeCompound

def amqpDecodeMapMap : Recurse → Context → Buffer → EncodingMetaData → AmqpType →
    ContainerDecoding := decodeCompound

/-- `amqp_decode_list_0`: `elements` is left as it is. -/
def amqpDecodeList0 (b : Buffer) (_ : EncodingMetaData) (type : AmqpType) : Decoding :=
  thenSetValue (amqpDecodeFixedZeroWidth b type) fun v => { v with word := 0 }

/-- `amqp_decode_described_type`. -/
def amqpDecodeDescribedType (recurse : Recurse) (c : Context) (b : Buffer) (_ : EncodingMetaData)
    (type : AmqpType) : ContainerDecoding := do
  let (elements, c) ← c.allocateArray 2
  let type := { type with
    position := ⟨b.index, 0⟩
    value := { type.value with word := 2, elements := elements } }
  match ← amqpDecodeWith recurse c b with
  | (none, c, b) => .ok (false, c, b, type.markInvalid .noDescriptor)
  | (some descriptor, c, b) => do
    let c ← c.setElement elements 0 descriptor
    let c ← c.modify descriptor (·.typedefFlagsSet (isContained ||| isDescriptor))
    match ← amqpDecodeWith recurse c b with
    | (none, c, b) => .ok (false, c, b, type.markInvalid .noDescribedType)
    | (some described, c, b) => do
      let c ← c.setElement elements 1 described
      let c ← c.modify described (·.typedefFlagsSet (isContained ||| isDescribed))
      if !(← c.load descriptor).typeIsValid then
        .ok (false, c, b, type.markInvalid .descriptorInvalid)
      else if !(← c.load described).typeIsValid then
        .ok (false, c, b, type.markInvalid .describedInvalid)
      else .ok (true, c, b, type)

/-- `create_array_element` on a new slot's contents. -/
def createArrayElement (constructor : TypeConstructor) (type : AmqpType) : AmqpType :=
  { type with constructor := constructor }

/-- `amqp_decode_array_element`; its result is never null. -/
def amqpDecodeArrayElement (recurse : Recurse) (constructor : TypeConstructor) (c : Context)
    (b : Buffer) : Except Fault (Option Slot × Context × Buffer) := do
  let start := b.index
  let (s, c) ← c.allocateType
  let (_, c, b, type) ← recurse c b (createArrayElement constructor (← c.load s))
  .ok (some s, (c.store s type).log ⟨s, start, b.index⟩, b)

/-- `amqp_decode_array`: the elements' constructor is read into a type of its own. -/
def amqpDecodeArray (recurse : Recurse) (c : Context) (b : Buffer) (m : EncodingMetaData)
    (type : AmqpType) : ContainerDecoding := do
  let (rc, b, type) ← amqpConstructContainerType b m type
  if rc then do
    let (count, b, type) ← getVariableTypeCount b m type
    if count = Buffer.sizeError then .ok (false, c, b, type)
    else do
      let (s, c) ← c.allocateType
      let type := { type with value := { type.value with word := count, constructor := some s } }
      let holder ← c.load s
      let (rc, b, constructor) ← decodeTypeConstructor b holder.constructor
      let c := c.store s { holder with constructor := constructor }
      if !rc then .ok (false, c, b, type.markInvalid .unknownArrayElementFormatCode)
      else if 0 < count then do
        let (elements, c) ← c.allocateArray count
        let type := { type with value := { type.value with elements := elements } }
        let (c, b) ←
          decodeElements (amqpDecodeArrayElement recurse constructor) elements count 0 c b
        .ok (true, c, b, type)
      else .ok (true, c, b, type)
  else .ok (false, c, b, type)

/-! ## Dispatch -/

/-- A decoder that leaves the context alone, as a container decoder. -/
def liftDecoding (c : Context) (r : Decoding) : ContainerDecoding := do
  let (rc, b, type) ← r
  .ok (rc, c, b, type)

/-- `(*type_decoder)(context, buffer, meta_data, type)`. -/
def TypeDecoder.call (recurse : Recurse) (c : Context) (b : Buffer) (m : EncodingMetaData)
    (type : AmqpType) : TypeDecoder → ContainerDecoding
  | .describedType => amqpDecodeDescribedType recurse c b m type
  | .null => liftDecoding c (amqpDecodeNull b m type)
  | .booleanTrue => liftDecoding c (amqpDecodeBooleanTrue b m type)
  | .booleanFalse => liftDecoding c (amqpDecodeBooleanFalse b m type)
  | .uint0 => liftDecoding c (amqpDecodeUint0 b m type)
  | .ulong0 => liftDecoding c (amqpDecodeUlong0 b m type)
  | .list0 => liftDecoding c (amqpDecodeList0 b m type)
  | .extensionType => .error .notImplemented
  | .smallUint => liftDecoding c (amqpDecodeSmallUint b m type)
  | .smallUlong => liftDecoding c (amqpDecodeSmallUlong b m type)
  | .smallInt => liftDecoding c (amqpDecodeSmallInt b m type)
  | .smallLong => liftDecoding c (amqpDecodeSmallLong b m type)
  | .char => liftDecoding c (amqpDecodeChar b m type)
  | .decimal128 => liftDecoding c (amqpDecodeDecimal128 b m type)
  | .ubyte | .byte | .boolean | .ushort | .short | .uint | .int | .float | .decimal32 | .ulong
  | .long | .double | .timestamp | .decimal64 | .uuid => liftDecoding c (amqpDecodeFixedWidth b m type)
  | .binaryVbin8 | .binaryVbin32 => liftDecoding c (amqpConstructVariableType b m type)
  | .stringStr8Utf8 | .stringStr32Utf8 => liftDecoding c (amqpDecodeStringUtf8 b m type)
  | .symbolSym8 | .symbolSym32 => liftDecoding c (amqpDecodeSymbol b m type)
  | .list8 | .list32 => amqpDecodeListList recurse c b m type
  | .map8 | .map32 => amqpDecodeMapMap recurse c b m type
  | .array8 | .array32 => amqpDecodeArray recurse c b m type

/-- `decode_type_into_result`, with its two asserts on a failure. -/
def decodeTypeIntoResult : Nat → Recurse
  | 0, _, _, _ => .error .outOfFuel
  | fuel + 1, c, b, type =>
    match type.constructor.metaData with
    | none => .error .wildPointer
    | some m => do
      let (rc, c, b, type) ← m.typeDecoder.call (decodeTypeIntoResult fuel) c b m type
      if rc then .ok (rc, c, b, type)
      else if type.invalidCause.isSome && type.typeIsInvalid then .ok (rc, c, b, type)
      else .error .assertFailed

/-- `amqp_decode`: `none` for its `NULL`. -/
def amqpDecode (c : Context) (b : Buffer) : Except Fault (Option Slot × Context × Buffer) :=
  amqpDecodeWith (decodeTypeIntoResult (b.size - b.index + 1)) c b

end Amqp
