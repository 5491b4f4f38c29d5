import LibAmqp.Codec.Encode
import LibAmqp.Codec.Outline

/-!
# Values and their bytes

The encodable format as values: scalars, and lists, maps, arrays and described values of values. A
`Values` is a list of them, a single value being a list of one, so that a property of values is
proved by plain induction.

* `Values.encode`: the `amqp_encode_*` and `amqp_complete_type` calls that write the values.
* `Values.parts`: the format code of each value and the bytes behind it, as these calls leave them.
* `Values.Legal`: the values the format has room for.
-/

namespace Amqp

open Lib

/-! ## Values -/

/-- A value without elements. Integers are the bits of the C type. -/
inductive Scalar
  | null
  | boolean (value : Bool)
  | ubyte (value : BitVec 8)
  | byte (value : BitVec 8)
  | ushort (value : BitVec 16)
  | short (value : BitVec 16)
  | uint (value : BitVec 32)
  | int (value : BitVec 32)
  | ulong (value : BitVec 64)
  | long (value : BitVec 64)
  | timestamp (value : BitVec 64)
  | float (bits : BitVec 32)
  | double (bits : BitVec 64)
  | uuid (value : Vector UInt8 16)
  | binary (value : List UInt8)
  | string (value : List UInt8)
  | symbol (value : List UInt8)
  deriving DecidableEq

/-- The containers, with the width of their size and count. -/
inductive Former
  | list8 | list32 | map8 | map32 | array8 | array32 | described
  deriving DecidableEq, Repr

inductive Values
  | nil
  | scalar (v : Scalar) (rest : Values)
  | container (k : Former) (elements rest : Values)
  deriving DecidableEq

namespace Values

def length : Values → Nat
  | nil => 0
  | scalar _ rest => rest.length + 1
  | container _ _ rest => rest.length + 1

end Values

/-! ## Calls -/

def Scalar.encode (c : Context) (b : Buffer) : Scalar → Encoding
  | null => amqpEncodeNull c b
  | boolean v => amqpEncodeBoolean c b (if v then 1 else 0)
  | ubyte v => amqpEncodeUbyte c b v
  | byte v => amqpEncodeByte c b v
  | ushort v => amqpEncodeUshort c b v
  | short v => amqpEncodeShort c b v
  | uint v => amqpEncodeUint c b v
  | int v => amqpEncodeInt c b v
  | ulong v => amqpEncodeUlong c b v
  | long v => amqpEncodeLong c b v
  | timestamp v => amqpEncodeTimestamp c b v
  | float v => amqpEncodeFloat c b v
  | double v => amqpEncodeDouble c b v
  | uuid v => amqpEncodeUuid c b v
  | binary v => amqpEncodeBinary c b v
  | string v => amqpEncodeString c b v
  | symbol v => amqpEncodeSymbol c b v

namespace Former

def start (c : Context) (b : Buffer) : Former → Encoding
  | list8 => amqpEncodeList8 c b
  | list32 => amqpEncodeList32 c b
  | map8 => amqpEncodeMap8 c b
  | map32 => amqpEncodeMap32 c b
  | array8 => amqpEncodeArray8 c b
  | array32 => amqpEncodeArray32 c b
  | described => amqpStartEncodeDescribedType c b

def metaData : Former → EncodingMetaData
  | list8 => .list8
  | list32 => .list32
  | map8 => .map8
  | map32 => .map32
  | array8 => .array8
  | array32 => .array32
  | described => .described

def isArray : Former → Bool
  | array8 | array32 => true
  | _ => false

def isList : Former → Bool
  | list8 | list32 => true
  | _ => false

end Former

/-- Write values one after the other, each container closed when its elements are written. -/
def Values.encode (c : Context) (b : Buffer) : Values → Except Fault (Context × Buffer)
  | nil => .ok (c, b)
  | scalar v rest => do
    let (_, c, b) ← v.encode c b
    rest.encode c b
  | container k elements rest => do
    let (type, c, b) ← k.start c b
    let (c, b) ← elements.encode c b
    let (_, c, b) ← amqpCompleteType c b type
    rest.encode c b

/-! ## Bytes -/

/-- A value on the wire: its format code, and the bytes behind its constructor. -/
structure Part where
  code : UInt8
  body : List UInt8
  deriving DecidableEq, Repr

/-- Values with their constructors. -/
def spelled (parts : List Part) : List UInt8 := parts.flatMap fun p => p.code :: p.body

/-- The elements of an array, behind the constructor of the first. -/
def spelledArray (parts : List Part) : List UInt8 :=
  (parts.head?.map Part.code).toList ++ parts.flatMap Part.body

/-- The bytes behind the constructor of a type without elements: a payload, with its size in front if
that varies. -/
def leafBody (m : EncodingMetaData) (payload : List UInt8) : List UInt8 :=
  if m.kind = .variableWidth then toBigEndian m.width payload.length ++ payload else payload

namespace Scalar

/-- The encoding of a scalar and its payload; only an array has booleans of one byte. -/
def encoding (inArray : Bool) : Scalar → EncodingMetaData × List UInt8
  | null => (.null, [])
  | boolean v =>
    if inArray then (.boolean, [if v then 1 else 0])
    else (if v then .booleanTrue else .booleanFalse, [])
  | ubyte v => (.ubyte, toBigEndian 1 v.toNat)
  | byte v => (.byte, toBigEndian 1 v.toNat)
  | ushort v => (.ushort, toBigEndian 2 v.toNat)
  | short v => (.short, toBigEndian 2 v.toNat)
  | uint v =>
    if v.toNat = 0 then (.uintUint0, [])
    else if v.toNat < 255 then (.uintSmallUint, toBigEndian 1 v.toNat)
    else (.uint, toBigEndian 4 v.toNat)
  | int v =>
    if fitsSignedChar v then (.intSmallInt, toBigEndian 1 v.toNat) else (.int, toBigEndian 4 v.toNat)
  | ulong v =>
    if v.toNat = 0 then (.ulongUlong0, [])
    else if v.toNat < 255 then (.ulongSmallUlong, toBigEndian 1 v.toNat)
    else (.ulong, toBigEndian 8 v.toNat)
  | long v =>
    if fitsSignedChar v then (.longSmallLong, toBigEndian 1 v.toNat)
    else (.long, toBigEndian 8 v.toNat)
  | timestamp v => (.timestampMs64, toBigEndian 8 v.toNat)
  | float v => (.floatIeee754, toBigEndian 4 v.toNat)
  | double v => (.doubleIeee754, toBigEndian 8 v.toNat)
  | uuid v => (.uuid, v.toList)
  | binary v => (if v.length < 256 then .binaryVbin8 else .binaryVbin32, v)
  | string v => (if v.length < 256 then .stringStr8Utf8 else .stringStr32Utf8, v)
  | symbol v => (if v.length < 256 then .symbolSym8 else .symbolSym32, v)

def part (inArray : Bool) (v : Scalar) : Part :=
  ⟨(v.encoding inArray).1.formatCode,
    leafBody (v.encoding inArray).1 (v.encoding inArray).2⟩

/-- Variable width values are not empty, strings have no NUL and symbols are ASCII. -/
def legal : Scalar → Bool
  | binary v => !v.isEmpty
  | string v => !v.isEmpty && v.all fun c => c != 0
  | symbol v => !v.isEmpty && v.all fun c => c &&& 0x80 == 0
  | _ => true

end Scalar

namespace Former

/-- What a container has behind its fields. -/
def content (k : Former) (parts : List Part) : List UInt8 :=
  if k.isArray then spelledArray parts else spelled parts

/-- A container that was completed: an empty list outside an array is a `list_0`. -/
def part (k : Former) (inArray : Bool) (parts : List Part) : Part :=
  if !inArray && k.isList && parts.isEmpty then ⟨EncodingMetaData.list0.formatCode, []⟩
  else
    let w := k.metaData.width
    ⟨k.metaData.formatCode,
      if w = 0 then k.content parts
      else toBigEndian w ((k.content parts).length + w) ++ toBigEndian w parts.length ++
        k.content parts⟩

/-- The elements a container may have: two for a described value, some of one format code for an
array, and for a container of one byte fields a size and a count that fit. -/
def Admits (k : Former) (parts : List Part) : Prop :=
  (k = described → parts.length = 2) ∧
  (k.isArray = true → parts ≠ [] ∧ ∀ p ∈ parts, some p.code = parts.head?.map Part.code) ∧
  (k.metaData.width = 1 → (k.content parts).length + 1 ≤ 255 ∧ parts.length ≤ 255)

instance (k : Former) (parts : List Part) : Decidable (k.Admits parts) :=
  inferInstanceAs (Decidable ((_ → _) ∧ (_ → _ ∧ ∀ p ∈ parts, _) ∧ (_ → _)))

end Former

namespace Values

def parts (inArray : Bool) : Values → List Part
  | nil => []
  | scalar v rest => v.part inArray :: rest.parts inArray
  | container k elements rest => k.part inArray (elements.parts k.isArray) :: rest.parts inArray

/-- The bytes of values outside an array. -/
def wire (vs : Values) : List UInt8 := spelled (vs.parts false)

/-- Values of the encodable format. -/
def Legal : Values → Prop
  | nil => True
  | scalar v rest => v.legal = true ∧ rest.Legal
  | container k elements rest =>
    k.Admits (elements.parts k.isArray) ∧ elements.Legal ∧ rest.Legal

/-- The counts of containers with four byte fields are below the `-1` the decoder takes for an
error. Only an array of values that have no bytes can have more elements than a buffer has bytes. -/
def CountsFit : Values → Prop
  | nil => True
  | scalar _ rest => rest.CountsFit
  | container k elements rest =>
    (k.metaData.width = 4 → elements.length < Buffer.sizeError) ∧ elements.CountsFit ∧ rest.CountsFit

instance decidableLegal : ∀ vs : Values, Decidable vs.Legal
  | nil => isTrue trivial
  | scalar v rest =>
    have := decidableLegal rest
    inferInstanceAs (Decidable (v.legal = true ∧ rest.Legal))
  | container _ elements rest =>
    have := decidableLegal elements
    have := decidableLegal rest
    inferInstanceAs (Decidable (_ ∧ elements.Legal ∧ rest.Legal))

instance decidableCountsFit : ∀ vs : Values, Decidable vs.CountsFit
  | nil => isTrue trivial
  | scalar _ rest => decidableCountsFit rest
  | container _ elements rest =>
    have := decidableCountsFit elements
    have := decidableCountsFit rest
    inferInstanceAs (Decidable (_ ∧ elements.CountsFit ∧ rest.CountsFit))

@[simp] theorem length_parts (inArray : Bool) :
    ∀ vs : Values, (vs.parts inArray).length = vs.length
  | nil => rfl
  | scalar _ rest => by simp [parts, length, length_parts inArray rest]
  | container _ _ rest => by simp [parts, length, length_parts inArray rest]

end Values
end Amqp
