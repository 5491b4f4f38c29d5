import LibAmqp.Buffer.Proof.Write
import LibAmqp.Codec.Wire

/-!
# Sequences of encoder calls

`Leaf` has the calls for a single value, also those that fix the format code.

* `EncodeCall`: every call of the encoder, in whatever order an application makes them.
  `amqp_encode_list_0` is two of these calls.
* `CallTree`: calls that match, each container completed when its elements are written.
-/

namespace Amqp

open Lib Buffer

/-- A call for a value without elements. -/
inductive Leaf
  /-- the general call of a type -/
  | scalar (v : Scalar)
  | uint0
  | ulong0
  | smallUint (value : BitVec 32)
  | smallInt (value : BitVec 32)
  | smallUlong (value : BitVec 64)
  | smallLong (value : BitVec 64)
  | binaryVbin8 (value : List UInt8)
  | binaryVbin32 (value : List UInt8)
  | symbolSym8 (value : List UInt8)
  | symbolSym32 (value : List UInt8)
  deriving DecidableEq

namespace Leaf

def encode (c : Context) (b : Buffer) : Leaf → Encoding
  | scalar v => v.encode c b
  | uint0 => amqpEncodeUint0 c b
  | ulong0 => amqpEncodeUlong0 c b
  | smallUint v => amqpEncodeSmallUint c b v
  | smallInt v => amqpEncodeSmallInt c b v
  | smallUlong v => amqpEncodeSmallUlong c b v
  | smallLong v => amqpEncodeSmallLong c b v
  | binaryVbin8 v => amqpEncodeBinaryVbin8 c b v
  | binaryVbin32 v => amqpEncodeBinaryVbin32 c b v
  | symbolSym8 v => amqpEncodeSymbolSym8 c b v
  | symbolSym32 v => amqpEncodeSymbolSym32 c b v

/-- The encoding of a value and its payload; a size or number that does not fit is cut. -/
def encoding (inArray : Bool) : Leaf → EncodingMetaData × List UInt8
  | scalar v => v.encoding inArray
  | uint0 => (.uintUint0, [])
  | ulong0 => (.ulongUlong0, [])
  | smallUint v => (.uintSmallUint, toBigEndian 1 v.toNat)
  | smallInt v => (.intSmallInt, toBigEndian 1 v.toNat)
  | smallUlong v => (.ulongSmallUlong, toBigEndian 1 v.toNat)
  | smallLong v => (.longSmallLong, toBigEndian 1 v.toNat)
  | binaryVbin8 v => (.binaryVbin8, v)
  | binaryVbin32 v => (.binaryVbin32, v)
  | symbolSym8 v => (.symbolSym8, v)
  | symbolSym32 v => (.symbolSym32, v)

/-- The value on the wire. -/
def part (inArray : Bool) (l : Leaf) : Part :=
  ⟨(l.encoding inArray).1.formatCode, leafBody (l.encoding inArray).1 (l.encoding inArray).2⟩

/-- `amqp_encode_boolean`. -/
def isBoolean : Leaf → Bool
  | scalar (.boolean _) => true
  | _ => false

end Leaf

/-- The value that a call is given. -/
def Leaf.value : Leaf → Scalar
  | scalar v => v
  | uint0 => .uint 0
  | ulong0 => .ulong 0
  | smallUint v => .uint v
  | smallInt v => .int v
  | smallUlong v => .ulong v
  | smallLong v => .long v
  | binaryVbin8 v | binaryVbin32 v => .binary v
  | symbolSym8 v | symbolSym32 v => .symbol v

inductive EncodeCall
  | leaf (l : Leaf)
  | start (k : Former)
  /-- `amqp_complete_type`; null closes the innermost container -/
  | complete (type : Option Slot)
  deriving DecidableEq

def EncodeCall.encode (c : Context) (b : Buffer) : EncodeCall → Encoding
  | leaf l => l.encode c b
  | start k => k.start c b
  | complete type => amqpCompleteType c b type

/-- A call on some buffer. -/
def EncodeCall.step (c : Context) (i : Buffer × EncodeCall) : Except Fault Context := do
  let (_, c, _) ← i.2.encode c i.1
  .ok c

/-- What a call returned is a type, and the type is valid. -/
def Context.isValid (c : Context) (type : Option Slot) : Bool :=
  (type.bind c.types.load).elim false fun t => t.typeIsValid

/-! ## Calls that match -/

inductive CallTree
  | nil
  | leaf (l : Leaf) (rest : CallTree)
  | container (k : Former) (elements rest : CallTree)
  deriving DecidableEq

namespace CallTree

def length : CallTree → Nat
  | nil => 0
  | leaf _ rest => rest.length + 1
  | container _ _ rest => rest.length + 1

/-- The calls. They return every type that they make, the root and its descendants, or null. -/
def encode (c : Context) (b : Buffer) :
    CallTree → Except Fault (List (Option Slot) × Context × Buffer)
  | nil => .ok ([], c, b)
  | leaf l rest => do
    let (type, c, b) ← l.encode c b
    let (types, c, b) ← rest.encode c b
    .ok (type :: types, c, b)
  | container k elements rest => do
    let (type, c, b) ← k.start c b
    let (inner, c, b) ← elements.encode c b
    let (_, c, b) ← amqpCompleteType c b type
    let (types, c, b) ← rest.encode c b
    .ok (type :: (inner ++ types), c, b)

/-- The values on the wire. -/
def parts (inArray : Bool) : CallTree → List Part
  | nil => []
  | leaf l rest => l.part inArray :: rest.parts inArray
  | container k elements rest => k.part inArray (elements.parts k.isArray) :: rest.parts inArray

/-- The bytes of values outside an array. -/
def wire (cs : CallTree) : List UInt8 := spelled (cs.parts false)

/-- The values that the calls are given. -/
def values : CallTree → Values
  | nil => .nil
  | leaf l rest => .scalar l.value rest.values
  | container k elements rest => .container k elements.values rest.values

/-- No described type gets a third member. -/
def NoThird : CallTree → Prop
  | nil => True
  | leaf _ rest => rest.NoThird
  | container k elements rest =>
    (k = .described → elements.length ≤ 2) ∧ elements.NoThird ∧ rest.NoThird

/-- The elements of every array have one format code. -/
def OneCode : CallTree → Prop
  | nil => True
  | leaf _ rest => rest.OneCode
  | container k elements rest =>
    (k.isArray = true → ∃ code, ∀ p ∈ elements.parts true, p.code = code) ∧
      elements.OneCode ∧ rest.OneCode

@[simp] theorem length_parts (inArray : Bool) :
    ∀ cs : CallTree, (cs.parts inArray).length = cs.length
  | nil => rfl
  | leaf _ rest => by simp [parts, length, length_parts inArray rest]
  | container _ _ rest => by simp [parts, length, length_parts inArray rest]

theorem length_values : ∀ cs : CallTree, cs.length = cs.values.length
  | nil => rfl
  | leaf _ rest => by simp [length, values, Values.length, length_values rest]
  | container _ _ rest => by simp [length, values, Values.length, length_values rest]

end CallTree

/-- The calls of the general encoders. -/
def Values.calls : Values → CallTree
  | nil => .nil
  | scalar v rest => .leaf (.scalar v) rest.calls
  | container k elements rest => .container k elements.calls rest.calls

namespace Values

@[simp] theorem parts_calls (inArray : Bool) (vs : Values) :
    vs.calls.parts inArray = vs.parts inArray := by
  induction vs generalizing inArray with
  | nil => rfl
  | scalar v rest ih => rw [calls, CallTree.parts, parts, ih]; rfl
  | container k elements rest ihe ihr => rw [calls, CallTree.parts, parts, ihe, ihr]

@[simp] theorem values_calls (vs : Values) : vs.calls.values = vs := by
  induction vs with
  | nil => rfl
  | scalar v rest ih => rw [calls, CallTree.values, ih]; rfl
  | container k elements rest ihe ihr => rw [calls, CallTree.values, ihe, ihr]

@[simp] theorem wire_calls (vs : Values) : vs.calls.wire = vs.wire := by
  rw [CallTree.wire, parts_calls, wire]

@[simp] theorem length_calls (vs : Values) : vs.calls.length = vs.length := by
  rw [← CallTree.length_parts false, parts_calls, length_parts]

/-- The general encoders, and the types that they return. -/
theorem encode_calls (vs : Values) : ∀ (c : Context) (b : Buffer),
    vs.encode c b = (do let (_, c, b) ← vs.calls.encode c b; .ok (c, b)) := by
  induction vs with
  | nil => exact fun c b => rfl
  | scalar v rest ih =>
    intro c b
    rw [encode, calls, CallTree.encode]
    show (v.encode c b >>= _) = _
    cases h : v.encode c b with
    | error e => simp [Leaf.encode, h]
    | ok x =>
      simp only [Leaf.encode, h, Fault.ok_bind, ih]
      cases rest.calls.encode x.2.1 x.2.2 <;> rfl
  | container k elements rest ihe ihr =>
    intro c b
    rw [encode, calls, CallTree.encode]
    cases k.start c b with
    | error e => rfl
    | ok x =>
      simp only [Fault.ok_bind, ihe]
      cases elements.calls.encode x.2.1 x.2.2 with
      | error e => rfl
      | ok y =>
        simp only [Fault.ok_bind]
        cases amqpCompleteType y.2.1 y.2.2 x.1 with
        | error e => rfl
        | ok z =>
          simp only [Fault.ok_bind, ihr]
          cases rest.calls.encode z.2.1 z.2.2 <;> rfl

end Values

/-! ## Whole encodings -/

namespace Context

/-- `context->encode.container`, and what it points to. -/
def enclosing (c : Context) : Option AmqpType := c.container.bind c.types.load

def withinArray (c : Context) : Bool := c.enclosing.elim false fun t => t.typeIsArray

/-- The next value writes its constructor: only the later elements of an array do not. -/
def constructorDue (c : Context) : Bool :=
  c.enclosing.elim true fun t => !t.typeIsArray || t.value.count == 0

/-- A described type is open that has its two members. -/
def describedFull (c : Context) : Bool :=
  c.enclosing.elim false fun t => t.typeIsComposite && 2 ≤ t.value.count

end Context

namespace Leaf

/-- The bytes of a value where the context has it go. -/
def bytes (c : Context) (l : Leaf) : List UInt8 :=
  (if c.constructorDue then [(l.part c.withinArray).code] else []) ++ (l.part c.withinArray).body

/-- The call returns null and changes nothing, or it returns a type and the buffer has all the bytes of
the value behind those that it had. -/
def AllOrNothing (c : Context) (b : Buffer) (l : Leaf) : Prop :=
  l.encode c b = .ok (none, c, b) ∨
    ∃ type c' b', l.encode c b = .ok (some type, c', b') ∧ Appends b b' (l.bytes c)

/-- The buffer has room for the constructor and the rest, as the calls check it. -/
def fits (c : Context) (b : Buffer) (l : Leaf) : Bool :=
  b.size + 1 + (l.part c.withinArray).body.length ≤ b.capacity

/-- The payload is copied by `amqp_buffer_puts`, which does not fill a buffer up. -/
def isCopied (inArray : Bool) (l : Leaf) : Bool :=
  ((l.encoding inArray).1.kind = .variableWidth || (l.encoding inArray).1.width = 16) &&
    !(l.encoding inArray).2.isEmpty

/-- The payload would fill the buffer up. -/
def fillsUp (c : Context) (b : Buffer) (l : Leaf) : Bool :=
  l.isCopied c.withinArray && c.constructorDue &&
    b.size + 1 + (l.part c.withinArray).body.length == b.capacity

/-- The call works: a boolean has room, and a value that has room does not go behind the members of a
described type nor fill the buffer up. -/
def Works (c : Context) (b : Buffer) (l : Leaf) : Prop :=
  if l.fits c b then c.describedFull = false ∧ l.fillsUp c b = false else l.isBoolean = false

instance (c : Context) (b : Buffer) (l : Leaf) : Decidable (l.Works c b) :=
  inferInstanceAs (Decidable (if l.fits c b then _ else _))

end Leaf

end Amqp
