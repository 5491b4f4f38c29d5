import LibAmqp.Codec.Type
import Mathlib.Algebra.Ring.Nat

/-!
# The context of the codec (`Context/Context.h`, `Codec/Type/Type.c`, `Memory/Memory.c`)

What `amqp_context_t` gives the codec: the pool of types, the memory the element arrays are
allocated from, the innermost container being encoded and whether a usage error stops the process,
which nothing in the repository changes from its default. `amqp_malloc` writes to what `malloc` returns
without a look at it: without the memory for a new array, or for a new block of the pool, the process
is lost. `limit` is how much memory there is. It, `trace`, `released` and `freed` are no part of the C
context: the last three record, for the results, the read index around each decoded type and what was
given back.
-/

namespace Amqp

open Lib Memory

/-- A type that was decoded: the read index before its first byte and after its last. -/
structure Decoded where
  slot : Slot
  start : Nat
  stop : Nat
  deriving DecidableEq, Repr

/-- The memory that `malloc` has: whether element arrays of so many words and so many blocks of the pool
of types fit into it, and then fewer do as well. -/
structure Limit where
  fits : (words blocks : Nat) → Bool
  mono : ∀ {words words' blocks blocks' : Nat}, words ≤ words' → blocks ≤ blocks' →
    fits words' blocks' = true → fits words blocks = true

/-- More memory than anything takes. -/
def Limit.unlimited : Limit := ⟨fun _ _ => true, fun _ _ h => h⟩

structure Context where
  types : MemoryPool AmqpType
  arrays : Heap (List (Option Slot))
  malloc : Malloc
  limit : Limit
  container : Option Slot
  continueOnUsageError : Bool
  trace : List Decoded
  /-- the types given back to the pool, in order -/
  released : List Slot
  /-- the element arrays given back, in order -/
  freed : List Nat

namespace Context

/-- A context before its first use, with `n` types to a block of the pool and all the memory it takes. -/
def create (M : Malloc) (n : Nat) : Context where
  types := initializePool n AmqpType.zero AmqpType.initializeAmqpType
  arrays := Heap.empty
  malloc := M
  limit := .unlimited
  container := none
  continueOnUsageError := false
  trace := []
  released := []
  freed := []

/-- `*type`. -/
def load (c : Context) (s : Slot) : Except Fault AmqpType :=
  match c.types.load s with
  | some t => .ok t
  | none => .error .wildPointer

/-- `*type = t`. -/
def store (c : Context) (s : Slot) (t : AmqpType) : Context := { c with types := c.types.store s t }

/-- A change to `*type`. -/
def modify (c : Context) (s : Slot) (f : AmqpType → AmqpType) : Except Fault Context := do
  .ok (c.store s (f (← c.load s)))

/-- The words that `amqp_malloc` takes for an array of `n` pointers: there are a count and a mask before
them, and a guard behind. -/
def arrayWords (n : Nat) : Nat := n + 3

/-- The words of the element arrays. -/
def words (c : Context) : Nat :=
  (c.arrays.dom.map fun a => arrayWords ((c.arrays.get a).getD []).length).sum

/-- What was allocated fits into the memory. -/
def isGranted (c : Context) : Bool := c.limit.fits c.words c.types.blocks.dom.length

theorem isGranted_unlimited {c : Context} (h : c.limit = .unlimited) : c.isGranted = true := by
  rw [isGranted, h]
  rfl

/-- `amqp_allocate_type`; a new block of the pool takes memory. -/
def allocateType (c : Context) : Except Fault (Slot × Context) := do
  let (s, types) ← amqpAllocate c.malloc c.types
  let c' := { c with types := types }
  if c.types.blocks.dom.length < types.blocks.dom.length ∧ c'.isGranted = false then .error .wildPointer
  else .ok (s, c')

theorem of_allocateType {c c' : Context} {s : Slot} (h : c.allocateType = .ok (s, c')) :
    ∃ types, amqpAllocate c.malloc c.types = .ok (s, types) ∧ c' = { c with types := types } := by
  obtain ⟨⟨s1, types⟩, hcall, h⟩ := Fault.bind_eq_ok.1 h
  dsimp only at h
  split at h
  · cases h
  · cases h
    exact ⟨types, hcall, rfl⟩

/-- The number of pointers in an element array for `count` types. -/
def arrayLength (count : Nat) : Nat := (count / 16 + 1) * 16

/-- A new element array, zero filled. -/
def newArray (c : Context) (count : Nat) : Nat × Context :=
  let (a, arrays) := c.arrays.malloc c.malloc (List.replicate (arrayLength count) none)
  (a, { c with arrays := arrays })

/-- `amqp_allocate_amqp_type_t_array`. -/
def allocateArray (c : Context) (count : Nat) : Except Fault (Nat × Context) :=
  let (a, c) := c.newArray count
  if c.isGranted then .ok (a, c) else .error .wildPointer

/-- `amqp_realloc_amqp_type_t_array`: a larger array when `count` reaches the next step of 16. It grows
with the calls of the application, not by what a peer declares, and has the memory. -/
def reallocArray (c : Context) (elements count : Nat) : Except Fault (Nat × Context) :=
  let oldN := ((count - 1) / 16 + 1) * 16
  let newN := (count / 16 + 1) * 16
  if oldN < newN then
    match c.arrays.get elements with
    | none => .error .wildPointer
    | some old =>
      let (a, arrays) := (c.arrays.free elements).malloc c.malloc
        (old.take newN ++ List.replicate (newN - old.length) none)
      .ok (a, { c with arrays := arrays })
  else .ok (elements, c)

/-- `elements[i] = s`. -/
def setElement (c : Context) (elements i : Nat) (s : Slot) : Except Fault Context :=
  match c.arrays.get elements with
  | none => .error .wildPointer
  | some array =>
    if i < array.length then
      .ok { c with arrays := c.arrays.set elements (array.set i (some s)) }
    else .error .wildPointer

/-- `elements[i]`. -/
def getElement (c : Context) (elements i : Nat) : Except Fault (Option Slot) :=
  match c.arrays.get elements with
  | none => .error .wildPointer
  | some array =>
    match array[i]? with
    | some s => .ok s
    | none => .error .wildPointer

/-- `AMQP_FREE(context, array)`. -/
def freeArray (c : Context) (elements : Nat) : Except Fault Context :=
  match c.arrays.get elements with
  | none => .error .wildPointer
  | some _ => .ok { c with arrays := c.arrays.free elements, freed := c.freed ++ [elements] }

/-- `amqp_deallocate` of a type, after the destroyer callback. -/
def deleteType (c : Context) (s : Slot) : Except Fault Context := do
  .ok { c with types := ← amqpDeallocate c.types s, released := c.released ++ [s] }

def log (c : Context) (d : Decoded) : Context := { c with trace := c.trace ++ [d] }

end Context
end Amqp
