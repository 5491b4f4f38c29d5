import LibAmqp.Codec.Calls

/-!
# Values that are decoded in place

`CallTree.InPlace`: the decoder takes every value for what it is and leaves the read index behind its
own bytes. Three things can prevent that.

* A size or a count does not fit its field, or the bytes of a text are none of its type.
* A value without bytes, behind its size, has nothing behind it: `amqp_buffer_check_available` wants
  the read index to be below the limit.
* An array without elements has bytes behind it: the decoder takes the first for the constructor.
-/

namespace Amqp

open Lib

namespace Leaf

/-- The number is what its last byte widens to, where that is the only one written. -/
def exact : Leaf → Bool
  | smallUint v => v.toNat < 256
  | smallUlong v => v.toNat < 256
  | smallInt v => fitsSignedChar v
  | smallLong v => fitsSignedChar v
  | _ => true

/-- The size fits its field. -/
def sizeFits (l : Leaf) : Bool :=
  (l.encoding false).1.kind != .variableWidth ||
    (l.encoding false).2.length < 256 ^ (l.encoding false).1.width

/-- Taken for what it is; `behind` says whether there are bytes behind it. -/
def inPlace (behind : Bool) (l : Leaf) : Bool :=
  l.exact && ((l.encoding false).1.kind != .variableWidth ||
    (l.sizeFits && (l.encoding false).1.typeDecoder.wellSpelled (l.encoding false).2 &&
      (behind || !(l.encoding false).2.isEmpty)))

end Leaf

/-- The decoder takes as many elements as were written, and no constructor that was not. -/
def Former.Counts (k : Former) (behind : Bool) (n : Nat) : Prop :=
  if k = .described then n = 2
  else (k.isArray = true → n = 0 → behind = false) ∧ n < 256 ^ k.metaData.width ∧ n ≠ Buffer.sizeError

instance (k : Former) (behind : Bool) (n : Nat) : Decidable (k.Counts behind n) :=
  inferInstanceAs (Decidable (if k = .described then n = 2 else _ ∧ _ ∧ _))

/-- The bytes of a value: an element of an array is without its constructor. -/
def Part.bytes (inArray : Bool) (p : Part) : List UInt8 := (if inArray then [] else [p.code]) ++ p.body

namespace CallTree

/-- The bytes of values, one behind the other. -/
def bytes (inArray : Bool) (cs : CallTree) : List UInt8 := (cs.parts inArray).flatMap (Part.bytes inArray)

/-- Decoded in place; `behind` says whether there are bytes behind the values. -/
def InPlace (inArray behind : Bool) : CallTree → Prop
  | nil => True
  | leaf l rest =>
    l.inPlace (behind || !(rest.bytes inArray).isEmpty) = true ∧ rest.InPlace inArray behind
  | container k elements rest =>
    k.Counts (behind || !(rest.bytes inArray).isEmpty) elements.length ∧
      elements.InPlace k.isArray (behind || !(rest.bytes inArray).isEmpty) ∧
      rest.InPlace inArray behind

/-- Every size and every count fits the width of its field. -/
def SizesFit : CallTree → Prop
  | nil => True
  | leaf l rest => l.sizeFits = true ∧ rest.SizesFit
  | container k elements rest =>
    (k.metaData.width ≠ 0 →
      (k.content (elements.parts k.isArray)).length + k.metaData.width < 256 ^ k.metaData.width ∧
        elements.length < 256 ^ k.metaData.width) ∧
      elements.SizesFit ∧ rest.SizesFit

/-- No array is empty. -/
def NoEmptyArray : CallTree → Prop
  | nil => True
  | leaf _ rest => rest.NoEmptyArray
  | container k elements rest =>
    (k.isArray = true → elements.length ≠ 0) ∧ elements.NoEmptyArray ∧ rest.NoEmptyArray

/-- The index before and after each value, elements before their container. -/
def bounds (inArray : Bool) (i : Nat) : CallTree → List (Nat × Nat)
  | nil => []
  | leaf l rest =>
    let j := i + ((l.part inArray).bytes inArray).length
    (i, j) :: rest.bounds inArray j
  | container k elements rest =>
    let j := i + ((k.part inArray (elements.parts k.isArray)).bytes inArray).length
    elements.bounds k.isArray (j - (elements.bytes k.isArray).length) ++ (i, j) :: rest.bounds inArray j

instance decidableInPlace : ∀ (inArray behind : Bool) (cs : CallTree), Decidable (cs.InPlace inArray behind)
  | _, _, nil => isTrue trivial
  | inArray, behind, leaf _ rest =>
    have := decidableInPlace inArray behind rest
    inferInstanceAs (Decidable (_ ∧ rest.InPlace inArray behind))
  | inArray, behind, container k elements rest =>
    have := decidableInPlace k.isArray (behind || !(rest.bytes inArray).isEmpty) elements
    have := decidableInPlace inArray behind rest
    inferInstanceAs (Decidable (_ ∧ elements.InPlace _ _ ∧ rest.InPlace inArray behind))

end CallTree
end Amqp
