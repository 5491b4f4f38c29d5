import LibAmqp.Codec.Decode

/-!
# Chars

A char is four bytes, a number in big endian. What the decoder makes of the number is compared with
`Nat.isValidChar`: the Unicode scalar values.
-/

namespace Amqp

open Lib

/-- The number in the four bytes at an index. -/
def Buffer.payload (b : Buffer) (i : Nat) : Nat := ofBigEndian (b.bytes i 4)

/-- A type that is valid if the number is a scalar value, and otherwise invalid for that reason. -/
def AmqpType.Judged (t : AmqpType) (n : Nat) : Prop :=
  (t.typeIsValid = true ↔ n.isValidChar) ∧
    (¬ n.isValidChar → t.typeIsInvalid = true ∧ t.invalidCause = some .invalidUtf32Character)

/-- The decoder returned a type that is judged by the number. -/
def CharValidated (result : Except Fault (Option Slot × Context × Buffer)) (n : Nat) : Prop :=
  ∃ s c b t, result = .ok (some s, c, b) ∧ c.types.load s = some t ∧ t.Judged n

/-- The constructor of an array of chars. -/
def charConstructor : TypeConstructor := ⟨some .charUtf32, isChar, 0x73, 0⟩

end Amqp
