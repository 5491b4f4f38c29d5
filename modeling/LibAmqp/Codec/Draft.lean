import LibAmqp.Codec.Calls

/-!
# The encoder without its memory

A `Draft` is what the encoder's calls have built so far, by the order in which the types were made: type
`i` is the one that call made as number `i`. There is no pool, no element array and no leftover: each
type lists its members, and the open containers are a stack. The calls below follow those of
`Encode.lean`; that they do the same is `Proof/Draft.lean`.
-/

namespace Amqp

/-- What the encoder reads of a type. -/
structure DraftType where
  metaData : EncodingMetaData
  flags : TypedefFlags
  code : UInt8
  cause : Option ErrorCode
  members : List Nat
  /-- the first element of an array, which has its constructor -/
  first : Option Nat
  deriving DecidableEq, Repr

namespace DraftType

def setFlags (r : DraftType) (flags : TypedefFlags) : DraftType := { r with flags := r.flags ||| flags }

def clearFlags (r : DraftType) (bits : TypedefFlags) : DraftType :=
  { r with flags := r.flags &&& ~~~bits }

def test (r : DraftType) (bits : TypedefFlags) : Bool := r.flags &&& bits != 0#32

def markInvalid (r : DraftType) (cause : ErrorCode) : DraftType :=
  { r.setFlags isInvalid with cause := some cause }

def isValid (r : DraftType) : Bool := !r.test (isInvalid ||| isIncomplete)

end DraftType

/-- An open container: the type and where its elements start. -/
structure Frame where
  id : Nat
  index : Nat
  deriving DecidableEq, Repr

structure Draft where
  types : List DraftType
  /-- the open containers, the innermost first -/
  stack : List Frame
  continueOnUsageError : Bool

/-- What a call returns: the type it made, if any. -/
abbrev Drafting := Except Fault (Option Nat × Draft × Buffer)

namespace Draft

/-- Nothing made yet. -/
def empty : Draft := ⟨[], [], false⟩

def load (d : Draft) (i : Nat) : Except Fault DraftType :=
  match d.types[i]? with
  | some r => .ok r
  | none => .error .wildPointer

def modify (d : Draft) (i : Nat) (g : DraftType → DraftType) : Draft :=
  { d with types := d.types.modify i g }

/-- `amqp_allocate_type` and `initialize_constructor`. -/
def make (d : Draft) (extra : TypedefFlags) (m : EncodingMetaData) : Draft :=
  { d with types := d.types ++
    [⟨m, m.typedefFlags ||| isEncoded ||| extra, m.formatCode, none, [], none⟩] }

def memberRole (d : Draft) (type count : Nat) : Except Fault Draft :=
  match count with
  | 0 => .ok (d.modify type (·.setFlags isDescriptor))
  | 1 => .ok (d.modify type (·.setFlags isDescribed))
  | _ => .error .abort

/-- `amqp_add_element_to_container`. -/
def addElement (d : Draft) (container type : Nat) : Except Fault Draft := do
  let r ← d.load container
  let d := d.modify type (·.setFlags isContained)
  let d ← if r.test isComposite then d.memberRole type r.members.length else .ok d
  .ok (d.modify container fun r => { r with members := r.members ++ [type] })

/-- `is_i_contained_within_array`. -/
def inArray (d : Draft) : Except Fault Bool :=
  match d.stack with
  | [] => .ok false
  | F :: _ => do .ok ((← d.load F.id).test isArray)

def enterContainer (d : Draft) (b : Buffer) (m : EncodingMetaData) (container type : Nat) :
    Except Fault (Draft × Buffer) := do
  let r ← d.load container
  if !r.test isArray then do
    let b ← emitConstructor b m
    .ok (← d.addElement container type, b)
  else if r.members.length = 0 then do
    let b ← emitConstructor b m
    .ok (← (d.modify container fun r => { r with first := some type }).addElement container type, b)
  else match r.first with
    | none => .error .wildPointer
    | some first => do
      if (← d.load first).code == (← d.load type).code then
        .ok (← d.addElement container type, b)
      else do
        let d := d.modify type (·.markInvalid .arrayElementTypeIncorrect)
        let d := d.modify container (·.markInvalid .arrayElementTypeIncorrect)
        .ok (← d.addElement container type, b)

/-- `initialize_type`, up to `push_container`. -/
def place (d : Draft) (b : Buffer) (extra : TypedefFlags) (m : EncodingMetaData) :
    Except Fault (Draft × Buffer) :=
  match d.stack with
  | [] => do .ok (d.make extra m, ← emitConstructor b m)
  | F :: _ => (d.make extra m).enterContainer b m F.id d.types.length

/-- `amqp_encode_fixed`. -/
def encodeFixed (d : Draft) (b : Buffer) (m : EncodingMetaData) : Drafting :=
  if !b.checkFreeSpace (m.width + 1) then .ok (none, d, b)
  else do
    let (d', b) ← d.place b 0 m
    .ok (some d.types.length, d', b)

/-- What a call does with the type when there is one. -/
def thenWrite (r : Drafting) (write : Buffer → Except Fault Buffer) : Drafting := do
  match ← r with
  | (none, d, b) => .ok (none, d, b)
  | (some type, d, b) => do .ok (some type, d, ← write b)

/-- `amqp_encode_fixed`, and the write of the value. -/
def fixed (d : Draft) (b : Buffer) (m : EncodingMetaData) (write : Buffer → Except Fault Buffer) :
    Drafting := thenWrite (d.encodeFixed b m) write

/-- `amqp_encode_boolean`. -/
def boolean (d : Draft) (b : Buffer) (value : BitVec 32) : Drafting := do
  let (result, d, b) ←
    if ← d.inArray then d.fixed b .boolean fun b => b.hton 1 (if value ≠ 0 then 1 else 0)
    else d.encodeFixed b (if value ≠ 0 then .booleanTrue else .booleanFalse)
  match result with
  | none => .error .wildPointer
  | some type => .ok (some type, d, b)

/-- `amqp_encode_simple_variable`. -/
def variableWidth (d : Draft) (b : Buffer) (m : EncodingMetaData) (value : List UInt8) : Drafting :=
  if !b.checkFreeSpace (m.width + 1 + value.length) then .ok (none, d, b)
  else do
    let (d', b) ← d.place b 0 m
    let b ← writeSizeField b m.width value.length
    .ok (some d.types.length, d', ← b.puts value)

/-- The place for a size and a count, and the index between them. -/
def reserve (b : Buffer) (width : Nat) : Except Fault (Nat × Buffer) :=
  match width with
  | 0 => .ok (b.size, b)
  | 1 => do
    let b ← b.uncheckedPutc 1
    .ok (b.size, ← b.uncheckedPutc 0)
  | 4 => do
    let b ← b.hton 4 4
    .ok (b.size, ← b.hton 4 0)
  | _ => .error .abort

/-- `encode_compound_type`. -/
def compound (d : Draft) (b : Buffer) (extra : TypedefFlags) (m : EncodingMetaData) : Drafting :=
  if !b.checkFreeSpace (m.width * 2 + 2) then .error .abort
  else do
    let (d', b) ← d.place b extra m
    let (index, b) ← reserve b m.width
    let d' := d'.modify d.types.length (·.setFlags isIncomplete)
    .ok (some d.types.length, { d' with stack := ⟨d.types.length, index⟩ :: d'.stack }, b)

/-- `complete_container_type`; no described type has a third member. -/
def completeContainer (d : Draft) (b : Buffer) (F : Frame) (r : DraftType) : Drafting :=
  if r.metaData.width = 0 then .ok (some F.id, d, b)
  else do
    let saved := b.size
    let b ← writeFields b r.metaData.width F.index (saved - F.index) r.members.length
    .ok (some F.id, d, b.setWriteIndex saved)

/-- `complete_empty_list`. -/
def completeEmptyList (d : Draft) (b : Buffer) (F : Frame) (r : DraftType) : Drafting := do
  let b ← b.backup (r.metaData.width * 2 + 1)
  let b ← b.putc EncodingMetaData.list0.formatCode
  .ok (some F.id, d.modify F.id fun r =>
    { r with metaData := .list0, code := EncodingMetaData.list0.formatCode }, b)

/-- `amqp_complete_type`. -/
def complete (d : Draft) (b : Buffer) (type : Option Nat) : Drafting :=
  match d.stack with
  | [] => .error .wildPointer
  | F :: rest => do
    let r ← d.load F.id
    let d : Draft := { d.modify F.id (·.clearFlags isIncomplete) with stack := rest }
    if type.isSome && type != some F.id then
      if !d.continueOnUsageError then .error .apiUsageError
      else match type with
        | none => .ok (none, d, b)
        | some type =>
          .ok (none, (d.modify type (·.markInvalid .completeWrongContainer)).modify F.id
            (·.markInvalid .completeWrongContainer), b)
    else if (← d.inArray) || !(r.test isList && r.members.length == 0) then
      d.completeContainer b F r
    else d.completeEmptyList b F r

/-- The calls without elements but for `amqp_encode_boolean`, by what they write. -/
def leaf (d : Draft) (b : Buffer) (m : EncodingMetaData) (payload : List UInt8) : Drafting :=
  if m.kind = .variableWidth then d.variableWidth b m payload
  else d.fixed b m fun b => if m.width = 16 then b.puts payload else b.uncheckedWrite payload

end Draft

def Scalar.draft (d : Draft) (b : Buffer) (v : Scalar) : Drafting :=
  match v with
  | .boolean v => d.boolean b (if v then 1 else 0)
  | v => d.leaf b (v.encoding false).1 (v.encoding false).2

def Leaf.draft (d : Draft) (b : Buffer) : Leaf → Drafting
  | scalar v => v.draft d b
  | l => d.leaf b (l.encoding false).1 (l.encoding false).2

/-- The calls of `CallTree.encode`, and the types that they return. -/
def CallTree.draft (d : Draft) (b : Buffer) : CallTree → Except Fault (List (Option Nat) × Draft × Buffer)
  | nil => .ok ([], d, b)
  | leaf l rest => do
    let (type, d, b) ← l.draft d b
    let (types, d, b) ← rest.draft d b
    .ok (type :: types, d, b)
  | container k elements rest => do
    let (type, d, b) ← d.compound b k.metaData.typedefFlags k.metaData
    let (inner, d, b) ← elements.draft d b
    let (_, d, b) ← d.complete b type
    let (types, d, b) ← rest.draft d b
    .ok (type :: (inner ++ types), d, b)

end Amqp
