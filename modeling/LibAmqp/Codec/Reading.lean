import LibAmqp.Codec.Proof.Layout

/-!
# What some bytes say

An outline knows where its bytes are. Its reading does not: of each type it keeps the format code,
whether the type is accepted, the bytes of its value and, for an array, the constructor of the
elements. That is all a reader of the decoded types can see, so bytes that are moved read the same.
-/

namespace Amqp

open Lib

/-- The flags a format code stands for; none if nothing knows it. -/
def codeFlags (code : UInt8) : TypedefFlags :=
  (amqpTypeMetaDataLookup code).elim 0#32 EncodingMetaData.typedefFlags

structure Glimpse where
  code : UInt8
  accepted : Bool
  bytes : List UInt8
  elementCode : Option UInt8
  deriving DecidableEq, Repr

namespace Glimpse

def metaData (g : Glimpse) : Option EncodingMetaData := amqpTypeMetaDataLookup g.code

/-- `amqp_typedef_flags_test`, by the format code. -/
def is (g : Glimpse) (mask : TypedefFlags) : Bool := codeFlags g.code &&& mask != 0#32

/-- The value union of a number, a boolean or an empty list; a rejected one is left as it was. -/
def number (g : Glimpse) : Value :=
  match g.metaData with
  | some m =>
    if g.accepted then m.typeDecoder.fill 0 g.bytes AmqpType.zero.value else AmqpType.zero.value
  | none => AmqpType.zero.value

end Glimpse

/-- A list of types, as far as they are there. -/
abbrev Reading := Forest Glimpse

def Item.glimpse (inp : Input) (item : Item) : Glimpse where
  code := item.code
  accepted := item.accepted
  bytes := inp.bytes item.index item.size
  elementCode := item.metaData.bind fun m =>
    if m.kind = .array then item.elementCode inp m else none

/-- What an outline says. -/
def read (inp : Input) (O : Forest Item) : Reading := O.map (Item.glimpse inp)

/-- What the types of a layout say. -/
def Layout.reading (inp : Input) (F : Layout) : Reading := read inp F.outline

/-- What the bytes from an index on say. -/
def Input.reading (inp : Input) (i : Nat) : Reading := read inp (.cons (outline inp i) .nil)

/-! ## Printing -/

/-- Printing a type does not stop the process, given its number of elements and whether these can be
printed. A type that is not accepted is printed by its bytes, if it is a text; a map is printed by
its pairs. -/
def Glimpse.printable (g : Glimpse) (count : Nat) (elements : Bool) : Bool :=
  match g.metaData with
  | none => false
  | some m =>
    if g.accepted then
      m.typeDecoder != .decimal32 && m.typeDecoder != .decimal64 &&
        (!g.is isMap || count % 2 == 0) && elements
    else g.bytes.isEmpty || m.kind == .variableWidth

/-- Printing the types does not stop the process. -/
def Reading.printable : Reading → Bool
  | .nil => true
  | .hole _ => false
  | .node g kids rest => g.printable kids.length (printable kids) && printable rest

end Amqp
