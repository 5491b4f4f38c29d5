import LibAmqp.Codec.Encode

/-!
# The elements of a container

`amqp_add_element_to_container` for one type after the other. The length of the element array is nowhere
kept: both functions that allocate it round the count up, to a multiple of 16.
-/

namespace Amqp

open Lib

/-- `amqp_add_element_to_container` for each of some types. -/
def addElements (c : Context) (container : Slot) : List Slot → Except Fault Context
  | [] => .ok c
  | type :: types => do addElements (← addElementToContainer c container type) container types

/-- A container has these elements and no others, in an array with room for them. -/
def HoldsElements (c : Context) (container : Slot) (types : List Slot) : Prop :=
  ∃ t array, c.types.load container = some t ∧ t.value.count = types.length ∧
    c.arrays.get t.value.elements = some array ∧ types.length ≤ array.length ∧
      array = types.map some ++ List.replicate (array.length - types.length) none

/-- The array that `amqp_add_element_to_container` is about to write to has an entry at the index. -/
def WritesInside (c : Context) (container : Slot) : Prop :=
  ∃ t elements c' array, c.types.load container = some t ∧
    allocateElements c t.value.elements (t.value.count + 1) = .ok (elements, c') ∧
      c'.arrays.get elements = some array ∧ t.value.count < array.length

/-- The elements can be added, the container has them then, and no write was outside an array. -/
def GrowsElements (c : Context) (container : Slot) (types : List Slot) : Prop :=
  (∃ c', addElements c container types = .ok c' ∧ HoldsElements c' container types) ∧
    ∀ before type after, types = before ++ type :: after →
      ∃ c', addElements c container before = .ok c' ∧ WritesInside c' container

end Amqp
