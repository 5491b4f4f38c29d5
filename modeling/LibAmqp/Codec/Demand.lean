import LibAmqp.Codec.Context
import LibAmqp.Codec.Outline

/-!
# The memory an outline takes

What `amqp_decode` allocates for some bytes, said of their outline: a type for each item, one more for
the constructor of an array's elements, and the element arrays. A container that declares `n` elements
gets an array for all of them, whatever is there.
-/

namespace Amqp

open Lib

namespace Item

/-- The constructor of an array's elements, if the bytes of the array got as far. -/
def elementCode (inp : Input) (m : EncodingMetaData) (item : Item) : Option UInt8 :=
  if item.accepted || item.stop == item.index + m.width + 1 then
    some (arrayConstructor inp (item.index + m.width)).1
  else none

/-- An item of `count` elements has an element array. -/
def hasArray (m : EncodingMetaData) (count : Nat) (item : Item) : Bool :=
  match m.kind with
  | .compound => item.accepted
  | .array => item.accepted && 0 < count
  | .described => true
  | _ => false

/-- The words of its element array. -/
def words (item : Item) (elements : Forest Item) : Nat :=
  match item.metaData with
  | some m =>
    if item.hasArray m elements.length then Context.arrayWords (Context.arrayLength elements.length)
    else 0
  | none => 0

/-- The types it takes, without those of its elements. -/
def types (inp : Input) (item : Item) (_ : Forest Item) : Nat :=
  match item.metaData with
  | some m => if m.kind = .array ∧ (item.elementCode inp m).isSome then 2 else 1
  | none => 1

end Item

end Amqp
