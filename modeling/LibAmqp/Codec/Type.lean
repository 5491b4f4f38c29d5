import LibAmqp.Fault
import LibAmqp.Memory.Pool

/-!
# Types and their encodings (`Codec/Type/Type.h`, `Codec/Type/EncodingMetaData.c`)

`AmqpType` is an `amqp_type_t`, one node of a decoded or encoded tree; nodes live in the type pool
and refer to each other by `Slot`. `EncodingMetaData` is an entry of the table of format codes;
its names, category and print methods are left out, as only messages use them.
-/

namespace Amqp

/-! ## Flags -/

abbrev TypedefFlags := BitVec 32

def isNull : TypedefFlags := 0x00000001
def isBoolean : TypedefFlags := 0x00000002
def isUnsigned : TypedefFlags := 0x00000004
def isByte : TypedefFlags := 0x00000008
def isShort : TypedefFlags := 0x00000010
def isInt : TypedefFlags := 0x00000020
def isLong : TypedefFlags := 0x00000040
def isFloat : TypedefFlags := 0x00000080
def isDouble : TypedefFlags := 0x00000100
def isTimestamp : TypedefFlags := 0x00000200
def isUuid : TypedefFlags := 0x00000400
def isDecimal32 : TypedefFlags := 0x00000800
def isDecimal64 : TypedefFlags := 0x00001000
def isDecimal128 : TypedefFlags := 0x00002000
def isChar : TypedefFlags := 0x00004000
def isFixedMask : TypedefFlags := 0x00007fff
def isBinary : TypedefFlags := 0x00008000
def isString : TypedefFlags := 0x00010000
def isSymbol : TypedefFlags := 0x00020000
def isVariableMask : TypedefFlags := 0x00038000
def isList : TypedefFlags := 0x00040000
def isMap : TypedefFlags := 0x00080000
def isArray : TypedefFlags := 0x00100000
def isComposite : TypedefFlags := 0x00200000
def isContainerMask : TypedefFlags := 0x003c0000
def isDescriptor : TypedefFlags := 0x00400000
def isDescribed : TypedefFlags := 0x00800000
def isExtension : TypedefFlags := 0x01000000
def isInvalid : TypedefFlags := 0x02000000
def isEncoded : TypedefFlags := 0x10000000
def isIncomplete : TypedefFlags := 0x20000000
def isContained : TypedefFlags := 0x40000000

/-! ## The table of format codes -/

/-- The decoder functions the table points to. -/
inductive TypeDecoder
  | describedType | null | booleanTrue | booleanFalse | uint0 | ulong0 | list0 | extensionType
  | ubyte | byte | smallUint | smallUlong | smallInt | smallLong | boolean | ushort | short
  | uint | int | float | char | decimal32 | ulong | long | double | timestamp | decimal64
  | decimal128 | uuid | binaryVbin8 | stringStr8Utf8 | symbolSym8 | binaryVbin32
  | stringStr32Utf8 | symbolSym32 | list8 | map8 | list32 | map32 | array8 | array32
  deriving DecidableEq, Repr

structure EncodingMetaData where
  formatCode : UInt8
  width : Nat
  typeDecoder : TypeDecoder
  typedefFlags : TypedefFlags
  deriving DecidableEq, Repr

namespace EncodingMetaData

def described : EncodingMetaData := ⟨0x00, 0, .describedType, isComposite⟩
def null : EncodingMetaData := ⟨0x40, 0, .null, isNull⟩
def booleanTrue : EncodingMetaData := ⟨0x41, 0, .booleanTrue, isBoolean⟩
def booleanFalse : EncodingMetaData := ⟨0x42, 0, .booleanFalse, isBoolean⟩
def uintUint0 : EncodingMetaData := ⟨0x43, 0, .uint0, isInt ||| isUnsigned⟩
def ulongUlong0 : EncodingMetaData := ⟨0x44, 0, .ulong0, isLong ||| isUnsigned⟩
def list0 : EncodingMetaData := ⟨0x45, 0, .list0, isList⟩
def extensionFixed0 : EncodingMetaData := ⟨0x4F, 0, .extensionType, isExtension⟩
def ubyte : EncodingMetaData := ⟨0x50, 1, .ubyte, isByte ||| isUnsigned⟩
def byte : EncodingMetaData := ⟨0x51, 1, .byte, isByte⟩
def uintSmallUint : EncodingMetaData := ⟨0x52, 1, .smallUint, isInt ||| isUnsigned⟩
def ulongSmallUlong : EncodingMetaData := ⟨0x53, 1, .smallUlong, isLong ||| isUnsigned⟩
def intSmallInt : EncodingMetaData := ⟨0x54, 1, .smallInt, isInt⟩
def longSmallLong : EncodingMetaData := ⟨0x55, 1, .smallLong, isLong⟩
def boolean : EncodingMetaData := ⟨0x56, 1, .boolean, isBoolean⟩
def extensionFixed1 : EncodingMetaData := ⟨0x5F, 1, .extensionType, isExtension⟩
def ushort : EncodingMetaData := ⟨0x60, 2, .ushort, isShort ||| isUnsigned⟩
def short : EncodingMetaData := ⟨0x61, 2, .short, isShort⟩
def extensionFixed2 : EncodingMetaData := ⟨0x6F, 2, .extensionType, isExtension⟩
def uint : EncodingMetaData := ⟨0x70, 4, .uint, isInt ||| isUnsigned⟩
def int : EncodingMetaData := ⟨0x71, 4, .int, isInt⟩
def floatIeee754 : EncodingMetaData := ⟨0x72, 4, .float, isFloat⟩
def charUtf32 : EncodingMetaData := ⟨0x73, 4, .char, isChar⟩
def decimal32Ieee754 : EncodingMetaData := ⟨0x74, 4, .decimal32, isDecimal32⟩
def extensionFixed4 : EncodingMetaData := ⟨0x7F, 4, .extensionType, isExtension⟩
def ulong : EncodingMetaData := ⟨0x80, 8, .ulong, isLong ||| isUnsigned⟩
def long : EncodingMetaData := ⟨0x81, 8, .long, isLong⟩
def doubleIeee754 : EncodingMetaData := ⟨0x82, 8, .double, isDouble⟩
def timestampMs64 : EncodingMetaData := ⟨0x83, 8, .timestamp, isTimestamp⟩
def decimal64Ieee754 : EncodingMetaData := ⟨0x84, 8, .decimal64, isDecimal64⟩
def extensionFixed8 : EncodingMetaData := ⟨0x8F, 8, .extensionType, isExtension⟩
def decimal128Ieee754 : EncodingMetaData := ⟨0x94, 16, .decimal128, isDecimal128⟩
def uuid : EncodingMetaData := ⟨0x98, 16, .uuid, isUuid⟩
def extensionFixed16 : EncodingMetaData := ⟨0x9F, 16, .extensionType, isExtension⟩
def binaryVbin8 : EncodingMetaData := ⟨0xA0, 1, .binaryVbin8, isBinary⟩
def stringStr8Utf8 : EncodingMetaData := ⟨0xA1, 1, .stringStr8Utf8, isString⟩
def symbolSym8 : EncodingMetaData := ⟨0xA3, 1, .symbolSym8, isSymbol⟩
def extensionVariable1 : EncodingMetaData := ⟨0xAF, 1, .extensionType, isExtension⟩
def binaryVbin32 : EncodingMetaData := ⟨0xB0, 4, .binaryVbin32, isBinary⟩
def stringStr32Utf8 : EncodingMetaData := ⟨0xB1, 4, .stringStr32Utf8, isString⟩
def symbolSym32 : EncodingMetaData := ⟨0xB3, 4, .symbolSym32, isSymbol⟩
def extensionVariable4 : EncodingMetaData := ⟨0xBF, 4, .extensionType, isExtension⟩
def list8 : EncodingMetaData := ⟨0xC0, 1, .list8, isList⟩
def map8 : EncodingMetaData := ⟨0xC1, 1, .map8, isMap⟩
def extensionCompound1 : EncodingMetaData := ⟨0xCF, 1, .extensionType, isExtension⟩
def list32 : EncodingMetaData := ⟨0xD0, 4, .list32, isList⟩
def map32 : EncodingMetaData := ⟨0xD1, 4, .map32, isMap⟩
def extensionCompound4 : EncodingMetaData := ⟨0xDF, 4, .extensionType, isExtension⟩
def array8 : EncodingMetaData := ⟨0xE0, 1, .array8, isArray⟩
def extensionArray1 : EncodingMetaData := ⟨0xEF, 1, .extensionType, isExtension⟩
def array32 : EncodingMetaData := ⟨0xF0, 4, .array32, isArray⟩
def extensionArray4 : EncodingMetaData := ⟨0xFF, 4, .extensionType, isExtension⟩

end EncodingMetaData

open EncodingMetaData in
/-- `amqp__type_lookup_table`. -/
def typeLookupTable : Array EncodingMetaData := #[
  described, null, booleanTrue, booleanFalse, uintUint0, ulongUlong0, list0, extensionFixed0,
  ubyte, byte, uintSmallUint, ulongSmallUlong, intSmallInt, longSmallLong, boolean,
  extensionFixed1, ushort, short, extensionFixed2, uint, int, floatIeee754, charUtf32,
  decimal32Ieee754, extensionFixed4, ulong, long, doubleIeee754, timestampMs64,
  decimal64Ieee754, extensionFixed8, decimal128Ieee754, uuid, extensionFixed16, binaryVbin8,
  stringStr8Utf8, symbolSym8, extensionVariable1, binaryVbin32, stringStr32Utf8, symbolSym32,
  extensionVariable4, list8, map8, extensionCompound1, list32, map32, extensionCompound4, array8,
  extensionArray1, array32, extensionArray4]

/-- The binary search of `amqp_type_meta_data_lookup`; `fuel` bounds the halvings. -/
def amqpTypeMetaDataLookup.go (formatCode : UInt8) : Nat → Nat → Nat → Option EncodingMetaData
  | 0, _, _ => none
  | fuel + 1, s, e =>
    if s < e then
      let m := s + (e - s) / 2
      match typeLookupTable[m]? with
      | none => none
      | some candidate =>
        if candidate.formatCode = formatCode then some candidate
        else if formatCode < candidate.formatCode then go formatCode fuel s m
        else go formatCode fuel (m + 1) e
    else none

def amqpTypeMetaDataLookup (formatCode : UInt8) : Option EncodingMetaData :=
  amqpTypeMetaDataLookup.go formatCode (typeLookupTable.size + 1) 0 typeLookupTable.size

/-! ## Types -/

/-- The error codes a type's `invalid_cause` takes (`Context/ErrorHandling.h`); none is zero. -/
inductive ErrorCode
  | bufferWouldOverrun | unknownFormatCode | unknownArrayElementFormatCode
  | invalidSymbolCharacter | invalidUtf8Character | invalidUtf32Character
  | variableTypeMalformed | arrayElementTypeIncorrect | describedTypeOverflow
  | completeWrongContainer | noDescriptor | noDescribedType | descriptorInvalid
  | describedInvalid
  deriving DecidableEq, Repr

structure BufferPosition where
  index : Nat
  size : Nat
  deriving DecidableEq, Repr

structure TypeConstructor where
  metaData : Option EncodingMetaData
  typedefFlags : TypedefFlags
  formatCode : UInt8
  extensionTypeCode : UInt8
  deriving DecidableEq, Repr

/-- The value union, by its words: bytes 0 to 7 (`b1`, `b2`, `b4`, `b8`, the `count` of a compound,
the `buffer` of a variable and the first half of a uuid), bytes 8 to 15 (the address of an element
array, the second half of a uuid) and bytes 16 to 23 (an array's `constructor`). -/
structure Value where
  word : Nat
  elements : Nat
  constructor : Option Slot
  deriving DecidableEq, Repr

/-- `invalidCause` is `none` for the 0 of `invalid_cause`. -/
structure AmqpType where
  invalidCause : Option ErrorCode
  constructor : TypeConstructor
  position : BufferPosition
  value : Value
  savedContainer : Option Slot
  deriving DecidableEq, Repr

/-- A type of zero bytes, as a new block of the pool has it. -/
def AmqpType.zero : AmqpType where
  invalidCause := none
  constructor := ⟨none, 0, 0, 0⟩
  position := ⟨0, 0⟩
  value := ⟨0, 0, none⟩
  savedContainer := none

namespace Value

/-- Overwrite the low `n` bytes of the first word. -/
def setLow (v : Value) (n value : Nat) : Value :=
  { v with word := v.word / 256 ^ n * 256 ^ n + value }

/-- Read the low `n` bytes of the first word. -/
def low (v : Value) (n : Nat) : Nat := v.word % 256 ^ n

/-- `value.compound.count`, and that of every container. -/
def count (v : Value) : Nat := v.word

end Value

namespace AmqpType

def typedefFlagsSet (t : AmqpType) (flags : TypedefFlags) : AmqpType :=
  { t with constructor.typedefFlags := t.constructor.typedefFlags ||| flags }

def typedefFlagsClear (t : AmqpType) (bits : TypedefFlags) : AmqpType :=
  { t with constructor.typedefFlags := t.constructor.typedefFlags &&& ~~~bits }

/-- `amqp_typedef_flags_test`: some bit of the mask is set. -/
def typedefFlagsTest (t : AmqpType) (bits : TypedefFlags) : Bool :=
  t.constructor.typedefFlags &&& bits != 0#32

/-- `amqp_mark_type_invalid`. -/
def markInvalid (t : AmqpType) (cause : ErrorCode) : AmqpType :=
  { t.typedefFlagsSet isInvalid with invalidCause := some cause }

def typeIsInvalid (t : AmqpType) : Bool := t.typedefFlagsTest (isInvalid ||| isIncomplete)
def typeIsValid (t : AmqpType) : Bool := !t.typeIsInvalid
def typeIsContainer (t : AmqpType) : Bool := t.typedefFlagsTest isContainerMask
def typeIsVariable (t : AmqpType) : Bool := t.typedefFlagsTest isVariableMask
def typeIsFixed (t : AmqpType) : Bool := t.typedefFlagsTest isFixedMask
def typeIsList (t : AmqpType) : Bool := t.typedefFlagsTest isList
def typeIsMap (t : AmqpType) : Bool := t.typedefFlagsTest isMap
def typeIsArray (t : AmqpType) : Bool := t.typedefFlagsTest isArray
def typeIsComposite (t : AmqpType) : Bool := t.typedefFlagsTest isComposite
def typeIsEncoded (t : AmqpType) : Bool := t.typedefFlagsTest isEncoded

/-- `amqp_type_is_empty_list`. -/
def typeIsEmptyList (t : AmqpType) : Bool := t.typeIsList && t.value.count == 0

/-- `amqp_initialize_amqp_type_t`, the type pool's initializer callback. -/
def initializeAmqpType (t : AmqpType) : AmqpType := { t with constructor.extensionTypeCode := 0xff }

end AmqpType
end Amqp
