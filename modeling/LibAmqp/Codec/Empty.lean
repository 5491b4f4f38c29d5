import LibAmqp.Codec.Array

/-!
# Values that may be empty

Values as in `Values.Legal`, where texts may have no bytes and arrays no elements.
`amqp_buffer_check_available` refuses a read of no bytes at the end of a buffer, and the decoder of an array
reads a constructor that an array without elements does not have.

* `Values.Encodable`: the values that the encoders have room for, empty ones among them.
* `Values.Stands`: nothing in the values depends on what follows.
-/

namespace Amqp

open Lib

/-- As in `Former.Admits`, but an array may have no elements. -/
def Former.AdmitsNone (k : Former) (parts : List Part) : Prop :=
  (k = described → parts.length = 2) ∧
  (k.isArray = true → ∀ p ∈ parts, some p.code = parts.head?.map Part.code) ∧
  (k.metaData.width = 1 → (k.content parts).length + 1 ≤ 255 ∧ parts.length ≤ 255)

instance (k : Former) (parts : List Part) : Decidable (k.AdmitsNone parts) :=
  inferInstanceAs (Decidable ((_ → _) ∧ (_ → ∀ p ∈ parts, _) ∧ (_ → _)))

namespace Values

/-- Values that can be encoded, empty ones among them. -/
def Encodable : Values → Prop
  | nil => True
  | scalar v rest => v.spelled = true ∧ rest.Encodable
  | container k elements rest =>
    k.AdmitsNone (elements.parts k.isArray) ∧ elements.Encodable ∧ rest.Encodable

instance decidableEncodable : ∀ vs : Values, Decidable vs.Encodable
  | nil => isTrue trivial
  | scalar v rest =>
    have := decidableEncodable rest
    inferInstanceAs (Decidable (v.spelled = true ∧ rest.Encodable))
  | container _ elements rest =>
    have := decidableEncodable elements
    have := decidableEncodable rest
    inferInstanceAs (Decidable (_ ∧ elements.Encodable ∧ rest.Encodable))

/-- The last bytes are those of a text without bytes: of the size before it. -/
def endsEmpty : Values → Bool
  | nil => false
  | scalar v nil => v.isEmptyText
  | scalar _ rest => rest.endsEmpty
  | container _ elements nil => elements.endsEmpty
  | container _ _ rest => rest.endsEmpty

/-- No array is empty, no text without bytes is the last, and the counts fit. -/
def Stands (vs : Values) : Prop := vs.CountsFit ∧ vs.calls.NoEmptyArray ∧ vs.endsEmpty = false

end Values

end Amqp
