import LibAmqp.Codec.InPlace
import LibAmqp.Codec.Proof.Regain

/-!
# Arrays of single values

The general encoders take a format code by the value, an array has the one of its first element. So values
on both sides of a threshold do not go into one array.

* `ArrayRoundTrips`: an `array_32` of values, encoded and decoded.
* `Uniform`: the values are on one side of the thresholds.
-/

namespace Amqp

/-- Calls for single values. -/
def CallTree.leaves : List Leaf → CallTree
  | [] => nil
  | l :: ls => leaf l (leaves ls)

def Values.scalars : List Scalar → Values
  | [] => nil
  | v :: vs => scalar v (scalars vs)

/-- The types whose general encoders go into an array. -/
inductive ElementType
  | boolean | int | uint | long | ulong | string | symbol | binary
  deriving DecidableEq, Repr

namespace ElementType

def admits : ElementType → Scalar → Bool
  | boolean, .boolean _ | int, .int _ | uint, .uint _ | long, .long _ | ulong, .ulong _
  | string, .string _ | symbol, .symbol _ | binary, .binary _ => true
  | _, _ => false

open EncodingMetaData in
/-- The encodings of its values in an array. -/
def encodings : ElementType → List EncodingMetaData
  | boolean => [.boolean]
  | int => [intSmallInt, .int]
  | uint => [uintUint0, uintSmallUint, .uint]
  | long => [longSmallLong, .long]
  | ulong => [ulongUlong0, ulongSmallUlong, .ulong]
  | string => [stringStr8Utf8, stringStr32Utf8]
  | symbol => [symbolSym8, symbolSym32]
  | binary => [binaryVbin8, binaryVbin32]

def isText : ElementType → Bool
  | string | symbol | binary => true
  | _ => false

end ElementType

namespace Scalar

/-- A value of its type: strings have no NUL and symbols are ASCII. -/
def spelled : Scalar → Bool
  | string v => v.all fun c => c != 0
  | symbol v => v.all fun c => c &&& 0x80 == 0
  | _ => true

/-- A binary, a string or a symbol of no bytes. -/
def isEmptyText : Scalar → Bool
  | binary v | string v | symbol v => v.isEmpty
  | _ => false

/-- The width of the format code that the general encoder takes for a value. -/
def codeWidth : Scalar → Nat
  | uint v => if v.toNat = 0 then 0 else if v.toNat < 255 then 1 else 4
  | ulong v => if v.toNat = 0 then 0 else if v.toNat < 255 then 1 else 8
  | int v => if fitsSignedChar v then 1 else 4
  | long v => if fitsSignedChar v then 1 else 8
  | binary v | string v | symbol v => if v.length < 256 then 1 else 4
  | _ => 1

end Scalar

/-- The calls for an `array_32` of values. -/
def arrayCalls (vs : List Scalar) : CallTree := .container .array32 (.leaves (vs.map .scalar)) .nil

/-- The array is valid when it is completed, and `amqp_decode` returns the values in their order and leaves
the read index at the end. -/
def ArrayRoundTrips (c : Context) (b : Buffer) (vs : List Scalar) : Prop :=
  ∃ array types c1 b1, (arrayCalls vs).encode c b = .ok (array :: types, c1, b1) ∧
    c1.isValid array = true ∧
    Regains c1 { b1 with index := b.size } b1.size (.container .array32 (.scalars vs) .nil)

/-- The values need one width, and there are bytes behind a text that is empty. Values without bytes may be
more than the count of the array has room for. -/
def Uniform (vs : List Scalar) : Prop :=
  (∀ v ∈ vs, ∀ w ∈ vs, v.codeWidth = w.codeWidth) ∧
    (∀ v ∈ vs.getLast?, v.isEmptyText = false) ∧ vs.length < Buffer.sizeError

instance (vs : List Scalar) : Decidable (Uniform vs) := inferInstanceAs (Decidable (_ ∧ _ ∧ _))

end Amqp
