import LibAmqp.Buffer.Proof.Bytes
import LibAmqp.Codec.Type
import LibAmqp.Lib.Forest

/-!
# The outline of some bytes

What the bytes from an index on say, without pools, slots or stores: a forest of items, one for
each type that is met, with the read index before and after it, the position it claims, whether it
is accepted, and its children. `walkDecode` follows `amqp_decode`: a container takes its declared
size and its declared count at their word, a child that is missing leaves a hole, and a format code
that nothing decodes is an item that is not accepted.

The decoder's result is this outline laid out in the pool.
-/

namespace Amqp

open Lib

/-- The bytes a decoder sees: those below `size`. -/
structure Input where
  byte : Nat → UInt8
  size : Nat

namespace Input

def bytes (inp : Input) (i n : Nat) : List UInt8 := (List.range n).map fun k => inp.byte (i + k)

/-- A size or count field, and the index after it. -/
def field (inp : Input) (width i : Nat) : Option Nat × Nat :=
  Buffer.readField inp.byte inp.size width i

/-- At least one byte is left, and `n` of them. -/
def Available (inp : Input) (i n : Nat) : Prop := i < inp.size ∧ i + n ≤ inp.size

instance (inp : Input) (i n : Nat) : Decidable (inp.Available i n) :=
  inferInstanceAs (Decidable (_ ∧ _))

end Input

/-- The ways in which a format code's bytes are laid out. -/
inductive Kind
  | zero | fixed | variableWidth | compound | array | described | unsupported
  deriving DecidableEq, Repr

def TypeDecoder.kind : TypeDecoder → Kind
  | .describedType => .described
  | .null | .booleanTrue | .booleanFalse | .uint0 | .ulong0 | .list0 => .zero
  | .extensionType | .decimal128 => .unsupported
  | .ubyte | .byte | .smallUint | .smallUlong | .smallInt | .smallLong | .boolean | .ushort
  | .short | .uint | .int | .float | .char | .decimal32 | .ulong | .long | .double | .timestamp
  | .decimal64 | .uuid => .fixed
  | .binaryVbin8 | .stringStr8Utf8 | .symbolSym8 | .binaryVbin32 | .stringStr32Utf8
  | .symbolSym32 => .variableWidth
  | .list8 | .map8 | .list32 | .map32 => .compound
  | .array8 | .array32 => .array

abbrev EncodingMetaData.kind (m : EncodingMetaData) : Kind := m.typeDecoder.kind

/-- The code point of a char. -/
def validChar (bytes : List UInt8) : Bool :=
  let c := ofBigEndian bytes
  2 ^ 31 ≤ c || c < 0xd800 || (0xdfff < c && c ≤ 0x10ffff)

/-- The bytes of a value are what its type allows. -/
def TypeDecoder.wellSpelled (bytes : List UInt8) : TypeDecoder → Bool
  | .char => validChar bytes
  | .symbolSym8 | .symbolSym32 => bytes.all fun c => c &&& 0x80 == 0
  | .stringStr8Utf8 | .stringStr32Utf8 => bytes.all fun c => c != 0
  | _ => true

/-- One type among the bytes. -/
structure Item where
  code : UInt8
  /-- the read index before its first byte and after its last -/
  start : Nat
  stop : Nat
  accepted : Bool
  /-- `position.index` and `position.size` -/
  index : Nat
  size : Nat
  deriving DecidableEq, Repr

namespace Item

def metaData (item : Item) : Option EncodingMetaData := amqpTypeMetaDataLookup item.code

def kind (item : Item) : Option Kind := item.metaData.map (·.kind)

end Item

/-- A type and what it contains. -/
abbrev Outline := Item × Forest Item

/-- How the bytes after a constructor are walked: metadata, start of the type, read index. -/
abbrev Walk := EncodingMetaData → Nat → Nat → Outline

/-- The read index after a type that may be missing. -/
def stopOf (tree : Option Outline) (i : Nat) : Nat := tree.elim i (·.1.stop)

/-- A type that is there and accepted. -/
def acceptedOf (tree : Option Outline) : Bool := tree.elim false (·.1.accepted)

/-- `amqp_decode` at an index. -/
def walkDecode (into : Walk) (inp : Input) (i : Nat) : Option Outline :=
  if i < inp.size then
    match amqpTypeMetaDataLookup (inp.byte i) with
    | none => some (⟨inp.byte i, i, i + 1, false, i + 1, 0⟩, .nil)
    | some m => some (into m i (i + 1))
  else none

/-- `n` types one after the other, each where the last one stopped. -/
def walkMany (next : Nat → Option Outline) : Nat → Nat → Forest Item × Nat
  | 0, i => (.nil, i)
  | n + 1, i =>
    let (rest, j) := walkMany next n (stopOf (next i) i)
    (.cons (next i) rest, j)

/-- The constructor of an array's elements and the index after it; past the end the decoder takes
`0xff` for it. -/
def arrayConstructor (inp : Input) (i : Nat) : UInt8 × Nat :=
  if i < inp.size then (inp.byte i, i + 1) else (0xff, i)

/-- A container's size and count fields, given what to do from the first element on: the position
that starts at `i`, the size, the count and the index of the first element. -/
def walkContainer (inp : Input) (m : EncodingMetaData) (start i : Nat)
    (elements : Nat → Nat → Nat → Nat → Outline) : Outline :=
  match inp.field m.width i with
  | (none, j) => (⟨m.formatCode, start, j, false, j, 0⟩, .nil)
  | (some size, j) =>
    if inp.Available j size then
      match inp.field m.width j with
      | (none, k) => (⟨m.formatCode, start, k, false, j, size⟩, .nil)
      | (some count, k) => elements j size count k
    else (⟨m.formatCode, start, j, false, j, 0⟩, .nil)

/-- A described type: a descriptor and a value, both accepted. -/
def walkDescribed (next : Nat → Option Outline) (m : EncodingMetaData) (start i : Nat) : Outline :=
  let descriptor := next i
  let described := next (stopOf descriptor i)
  (⟨m.formatCode, start, stopOf described (stopOf descriptor i),
    acceptedOf descriptor && acceptedOf described, i, 0⟩, .cons descriptor (.cons described .nil))

/-- What follows a constructor; `fuel` bounds the nesting. -/
def walkInto (inp : Input) : Nat → Walk
  | 0, m, start, i => (⟨m.formatCode, start, i, false, i, 0⟩, .nil)
  | fuel + 1, m, start, i =>
    match m.kind with
    | .unsupported => (⟨m.formatCode, start, i, false, i, 0⟩, .nil)
    | .zero => (⟨m.formatCode, start, i, true, i, 0⟩, .nil)
    | .fixed =>
      if inp.Available i m.width then
        (⟨m.formatCode, start, i + m.width, m.typeDecoder.wellSpelled (inp.bytes i m.width), i,
          m.width⟩, .nil)
      else (⟨m.formatCode, start, i, false, i, 0⟩, .nil)
    | .variableWidth =>
      match inp.field m.width i with
      | (none, j) => (⟨m.formatCode, start, j, false, j, 0⟩, .nil)
      | (some size, j) =>
        if inp.Available j size then
          (⟨m.formatCode, start, j + size, m.typeDecoder.wellSpelled (inp.bytes j size), j, size⟩,
            .nil)
        else (⟨m.formatCode, start, j, false, j, 0⟩, .nil)
    | .compound => walkContainer inp m start i fun j size count k =>
      let (kids, l) := walkMany (walkDecode (walkInto inp fuel) inp) count k
      (⟨m.formatCode, start, l, true, j, size⟩, kids)
    | .array => walkContainer inp m start i fun j size count k =>
      match amqpTypeMetaDataLookup (arrayConstructor inp k).1 with
      | none => (⟨m.formatCode, start, (arrayConstructor inp k).2, false, j, size⟩, .nil)
      | some element =>
        let (kids, l) := walkMany (fun i => some (walkInto inp fuel element i i)) count
          (arrayConstructor inp k).2
        (⟨m.formatCode, start, l, true, j, size⟩, kids)
    | .described => walkDescribed (walkDecode (walkInto inp fuel) inp) m start i

/-- The outline `amqp_decode` follows from an index on, `none` when no byte is left. -/
def outline (inp : Input) (i : Nat) : Option Outline :=
  walkDecode (walkInto inp (inp.size - i + 1)) inp i

end Amqp
