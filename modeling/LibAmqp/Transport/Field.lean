import LibAmqp.Codec.Context

/-!
# Fields of performatives (`AmqpTypes/Decode`, `AmqpTypes/AmqpMultiple.c`, `AmqpTypes/AmqpWildcard.c`)

A field decoder looks at one element of a performative's field list, a decoded type or null, and
fills in the memory of one field of the frame. `FieldDecoder` names the decoders the performatives
use, `FieldDecoder.decode` runs one and `FieldDecoder.cleanup` is what the frame's cleanup function
does with the field. The decoders do not change the types; what they allocate, the symbols of a
multiple field, is in a heap of its own. Messages are left out.
-/

namespace Amqp

open Lib

/-! ## What a field holds -/

/-- The destroyers that `leader.fn_table` points to. -/
inductive FnTable
  | variable | map | multipleSymbol | wildcard
  deriving DecidableEq, Repr

/-- The decoders of `context->reference.plugins.messaging.decode`. -/
inductive MessagingDecoder
  | source | target | deliveryState
  deriving DecidableEq, Repr

/-- An `amqp_symbol_t`, `amqp_string_t`, `amqp_binary_t`, `amqp_map_t`, `amqp_multiple_symbol_t` or
`amqp_wildcard_t`: they all start with a leader and the type they stand for. -/
structure TypeRef where
  fnTable : Option FnTable
  type : Option Slot
  size : Int
  /-- `v.data`, `entries`, `symbols` or `messaging_type`, which the destroyer gives back -/
  data : Nat
  messageTypeDecoder : Option MessagingDecoder
  deriving DecidableEq, Repr

/-- Zero bytes, and also what the `initialize_as_null` functions leave. -/
def TypeRef.null : TypeRef := ⟨none, none, 0, 0, none⟩

/-- `amqp_symbol_is_null` and its siblings. -/
def TypeRef.isNull (r : TypeRef) : Bool := r.type.isNone && r.data == 0

/-- The memory of one field of a performative: a number with its `is_null` flag, a reference to a
type, or the members of an `amqp_error_t`. -/
structure Field where
  ref : TypeRef
  value : Int
  isNull : Bool
  condition : TypeRef
  description : TypeRef
  info : TypeRef
  deriving DecidableEq, Repr

def Field.zero : Field := ⟨.null, 0, false, .null, .null, .null⟩

/-- The symbols of multiple fields, by their address. -/
abbrev SymbolHeap := Heap (List TypeRef)

/-! ## Reading a type -/

/-- `amqp_type_is_null`, of a pointer that may be null. -/
def amqpTypeIsNull (c : Context) : Option Slot → Except Fault Bool
  | none => .ok true
  | some s => do .ok ((← c.load s).typedefFlagsTest isNull)

/-- The other `amqp_type_is_` functions assert that the pointer is not null. -/
def loadType (c : Context) : Option Slot → Except Fault AmqpType
  | none => .error .assertFailed
  | some s => c.load s

/-- The types of `AMQP_FIELD_DECODE_FN`. -/
inductive ReferenceType
  | symbol | binary | string | map
  deriving DecidableEq, Repr

namespace ReferenceType

def mask : ReferenceType → TypedefFlags
  | symbol => isSymbol
  | binary => isBinary
  | string => isString
  | map => isMap

/-- `amqp_ ## ft ## _initialize_from_type`: the size of a map is its count. -/
def initializeFromType (ft : ReferenceType) (s : Slot) (t : AmqpType) : TypeRef :=
  match ft with
  | map => ⟨some .map, some s, t.value.count, 0, none⟩
  | _ => ⟨some .variable, some s, t.position.size, 0, none⟩

end ReferenceType

/-- The types of `AMQP_PRIMITIVE_FIELD_DECODE_FN`. -/
inductive PrimitiveType
  | ubyte | ushort | uint | ulong | byte | short | int | long | boolean
  deriving DecidableEq, Repr

namespace PrimitiveType

/-- The flag of a primitive type, and whether it is unsigned; a boolean may be either. -/
def flags : PrimitiveType → TypedefFlags × Option Bool
  | ubyte => (isByte, some true)
  | ushort => (isShort, some true)
  | uint => (isInt, some true)
  | ulong => (isLong, some true)
  | byte => (isByte, some false)
  | short => (isShort, some false)
  | int => (isInt, some false)
  | long => (isLong, some false)
  | boolean => (isBoolean, none)

/-- `amqp_type_is_ubyte` and its siblings. -/
def test (ft : PrimitiveType) (t : AmqpType) : Bool :=
  t.typedefFlagsTest ft.flags.1 &&
    match ft.flags.2 with
    | some unsigned => t.typedefFlagsTest isUnsigned == unsigned
    | none => true

/-- `amqp_type_to_ubyte` and its siblings, after their assertion; a boolean is read as a signed
byte. -/
def read (v : Value) : PrimitiveType → Int
  | ubyte => v.low 1
  | ushort => v.low 2
  | uint => v.low 4
  | ulong => v.low 8
  | byte | boolean => (BitVec.ofNat 8 (v.low 1)).toInt
  | short => (BitVec.ofNat 16 (v.low 2)).toInt
  | int => (BitVec.ofNat 32 (v.low 4)).toInt
  | long => (BitVec.ofNat 64 (v.low 8)).toInt

end PrimitiveType

/-! ## Field decoders -/

/-- What a field decoder returns: success, the field and the symbols. -/
abbrev FieldDecoding := Except Fault (Bool × Field × SymbolHeap)

/-- `amqp_decode_type_ ## ft`. -/
def amqpDecodeType (ft : ReferenceType) (c : Context) (field : Option Slot) (r : TypeRef) :
    Except Fault (Bool × TypeRef) := do
  if ← amqpTypeIsNull c field then .ok (true, .null)
  else match field with
    | none => .error .assertFailed
    | some s => do
      let t ← c.load s
      if t.typedefFlagsTest ft.mask then .ok (true, ft.initializeFromType s t) else .ok (false, r)

/-- `amqp_decode_mandatory_type_ ## ft`. -/
def amqpDecodeMandatoryType (ft : ReferenceType) (c : Context) (field : Option Slot) (r : TypeRef) :
    Except Fault (Bool × TypeRef) := do
  let (rc, r) ← amqpDecodeType ft c field r
  .ok (rc && !r.isNull, r)

/-- `decode_primitive_ ## ft`. -/
def decodePrimitive (ft : PrimitiveType) (c : Context) (field : Option Slot) (f : Field) :
    Except Fault (Bool × Field) := do
  let t ← loadType c field
  if ft.test t then .ok (true, { f with value := ft.read t.value }) else .ok (false, f)

/-- `amqp_decode_primitive_ ## ft`: the null flag is only ever set. -/
def amqpDecodePrimitive (ft : PrimitiveType) (default : Int) (c : Context) (field : Option Slot)
    (f : Field) : Except Fault (Bool × Field) := do
  if ← amqpTypeIsNull c field then .ok (true, { f with value := default, isNull := true })
  else decodePrimitive ft c field f

/-- `amqp_decode_mandatory_primitive_ ## ft`. -/
def amqpDecodeMandatoryPrimitive (ft : PrimitiveType) (c : Context) (field : Option Slot)
    (f : Field) : Except Fault (Bool × Field) := do
  if ← amqpTypeIsNull c field then .ok (false, f) else decodePrimitive ft c field f

/-- The check of a range restricted code behind its decoder. -/
def restrictRange (limit : Int) (r : Except Fault (Bool × Field)) : Except Fault (Bool × Field) := do
  let (rc, f) ← r
  .ok (rc && f.value ≤ limit, f)

def amqpSaslCodeTempSystemError : Int := 4
def amqpSenderSettleModeMixed : Int := 2
def amqpReceiverSettleModeFirst : Int := 0
def amqpReceiverSettleModeSecond : Int := 1

def amqpDecodeMandatoryPrimitiveSaslCode (c : Context) (field : Option Slot) (f : Field) :
    Except Fault (Bool × Field) :=
  restrictRange amqpSaslCodeTempSystemError (amqpDecodeMandatoryPrimitive .ubyte c field f)

def amqpDecodePrimitiveSenderSettleMode (default : Int) (c : Context) (field : Option Slot)
    (f : Field) : Except Fault (Bool × Field) :=
  restrictRange amqpSenderSettleModeMixed (amqpDecodePrimitive .ubyte default c field f)

def amqpDecodePrimitiveReceiverSettleMode (default : Int) (c : Context) (field : Option Slot)
    (f : Field) : Except Fault (Bool × Field) :=
  restrictRange amqpReceiverSettleModeSecond (amqpDecodePrimitive .ubyte default c field f)

/-- `amqp_symbol_initialize_from_type`, with its assertion. -/
def amqpSymbolInitializeFromType (c : Context) : Option Slot → Except Fault TypeRef
  | none => .error .assertFailed
  | some s => do
    let t ← c.load s
    if t.typedefFlagsTest isSymbol then .ok (ReferenceType.symbol.initializeFromType s t)
    else .error .assertFailed

/-- The loop over the elements of an array of symbols. -/
def symbolsFromArray (c : Context) (elements : Nat) : Nat → Nat → Except Fault (List TypeRef)
  | 0, _ => .ok []
  | n + 1, i => do
    let symbol ← amqpSymbolInitializeFromType c (← c.getElement elements i)
    let rest ← symbolsFromArray c elements n (i + 1)
    .ok (symbol :: rest)

/-- `AMQP_MALLOC_ARRAY(context, amqp_symbol_t, n)` with its contents. -/
def allocateSymbols (c : Context) (symbols : SymbolHeap) (contents : List TypeRef) :
    Nat × SymbolHeap := symbols.malloc c.malloc contents

/-- `amqp_multiple_symbol_initialize`. The `int` of a count of `2 ^ 31` or more is negative, and no
array of that size can be allocated. -/
def amqpMultipleSymbolInitialize (c : Context) (symbols : SymbolHeap) (type : Option Slot)
    (r : TypeRef) : Except Fault (Bool × TypeRef × SymbolHeap) := do
  let r := { r with fnTable := some .multipleSymbol, type := type }
  if ← amqpTypeIsNull c type then .ok (true, { r with size := 0, data := 0 }, symbols)
  else do
    let t ← loadType c type
    if t.typedefFlagsTest isSymbol then do
      let symbol ← amqpSymbolInitializeFromType c type
      let (a, symbols) := allocateSymbols c symbols [symbol]
      .ok (true, { r with size := 1, data := a }, symbols)
    else if t.typedefFlagsTest isArray then do
      if (← loadType c t.value.constructor).typedefFlagsTest isSymbol then do
        let count := t.value.count
        if 2 ^ 31 ≤ count then .error .wildPointer
        else if 0 < count then do
          let contents ← symbolsFromArray c t.value.elements count 0
          let (a, symbols) := allocateSymbols c symbols contents
          .ok (true, { r with size := count, data := a }, symbols)
        else .ok (true, { r with size := count, data := 0 }, symbols)
      else .ok (false, r, symbols)
    else .ok (false, r, symbols)

/-- `amqp_decode_multiple_type_symbol`. -/
def amqpDecodeMultipleTypeSymbol : Context → SymbolHeap → Option Slot → TypeRef →
    Except Fault (Bool × TypeRef × SymbolHeap) := amqpMultipleSymbolInitialize

/-- `amqp_decode_mandatory_multiple_type_symbol`: an empty array counts as null. -/
def amqpDecodeMandatoryMultipleTypeSymbol (c : Context) (symbols : SymbolHeap) (field : Option Slot)
    (r : TypeRef) : Except Fault (Bool × TypeRef × SymbolHeap) := do
  let (rc, r, symbols) ← amqpDecodeMultipleTypeSymbol c symbols field r
  .ok (rc && r.size != 0, r, symbols)

/-- `amqp_field_from_list`, of a list that is not null. -/
def amqpFieldFromList (c : Context) (list : Slot) (fieldNumber : Nat) : Except Fault (Option Slot) := do
  let t ← c.load list
  if t.typeIsList then
    if fieldNumber < t.value.count then c.getElement t.value.elements fieldNumber else .ok none
  else .error .assertFailed

/-- `amqp_decode_type_amqp_error`: the null flag is only ever set. -/
def amqpDecodeTypeAmqpError (c : Context) (field : Option Slot) (f : Field) :
    Except Fault (Bool × Field) := do
  if ← amqpTypeIsNull c field then
    .ok (true, { f with isNull := true, condition := .null, description := .null, info := .null })
  else do
    let t ← loadType c field
    if t.typeIsComposite then do
      let list ← c.getElement t.value.elements 1
      let described ← loadType c list
      match list, described.typeIsList with
      | some s, true => do
        let (rc, condition) ← amqpDecodeMandatoryType .symbol c (← amqpFieldFromList c s 0) f.condition
        let f := { f with condition := condition }
        if rc then do
          let (rc, description) ← amqpDecodeType .string c (← amqpFieldFromList c s 1) f.description
          let f := { f with description := description }
          if rc then do
            let (rc, info) ← amqpDecodeType .map c (← amqpFieldFromList c s 2) f.info
            .ok (rc, { f with info := info })
          else .ok (false, f)
        else .ok (false, f)
      | _, _ => .ok (false, f)
    else .ok (false, f)

/-- `decode_type_wildcard`. -/
def decodeTypeWildcard (decoder : MessagingDecoder) (c : Context) (field : Option Slot) :
    Except Fault (Bool × TypeRef) := do
  if ← amqpTypeIsNull c field then .ok (true, .null)
  else .ok (true, ⟨some .wildcard, field, 0, 0, some decoder⟩)

/-- The field decoders of the performatives. -/
inductive FieldDecoder
  | type (ft : ReferenceType)
  | mandatoryType (ft : ReferenceType)
  | primitive (ft : PrimitiveType) (default : Int)
  | mandatoryPrimitive (ft : PrimitiveType)
  | mandatorySaslCode
  | senderSettleMode (default : Int)
  | receiverSettleMode (default : Int)
  | multipleSymbol
  | mandatoryMultipleSymbol
  | amqpError
  | wildcard (decoder : MessagingDecoder)
  deriving DecidableEq, Repr

/-- A decoder that only sets the reference of a field. -/
def liftRef (f : Field) (symbols : SymbolHeap) (r : Except Fault (Bool × TypeRef)) : FieldDecoding := do
  let (rc, ref) ← r
  .ok (rc, { f with ref := ref }, symbols)

/-- A decoder that allocates nothing. -/
def liftField (symbols : SymbolHeap) (r : Except Fault (Bool × Field)) : FieldDecoding := do
  let (rc, f) ← r
  .ok (rc, f, symbols)

/-- A decoder of multiple symbols. -/
def liftMultiple (f : Field) (r : Except Fault (Bool × TypeRef × SymbolHeap)) : FieldDecoding := do
  let (rc, ref, symbols) ← r
  .ok (rc, { f with ref := ref }, symbols)

def FieldDecoder.decode (c : Context) (symbols : SymbolHeap) (field : Option Slot) (f : Field) :
    FieldDecoder → FieldDecoding
  | type ft => liftRef f symbols (amqpDecodeType ft c field f.ref)
  | mandatoryType ft => liftRef f symbols (amqpDecodeMandatoryType ft c field f.ref)
  | primitive ft default => liftField symbols (amqpDecodePrimitive ft default c field f)
  | mandatoryPrimitive ft => liftField symbols (amqpDecodeMandatoryPrimitive ft c field f)
  | mandatorySaslCode => liftField symbols (amqpDecodeMandatoryPrimitiveSaslCode c field f)
  | senderSettleMode default =>
    liftField symbols (amqpDecodePrimitiveSenderSettleMode default c field f)
  | receiverSettleMode default =>
    liftField symbols (amqpDecodePrimitiveReceiverSettleMode default c field f)
  | multipleSymbol => liftMultiple f (amqpDecodeMultipleTypeSymbol c symbols field f.ref)
  | mandatoryMultipleSymbol =>
    liftMultiple f (amqpDecodeMandatoryMultipleTypeSymbol c symbols field f.ref)
  | amqpError => liftField symbols (amqpDecodeTypeAmqpError c field f)
  | wildcard decoder => liftRef f symbols (decodeTypeWildcard decoder c field)

/-- The body of the performative decoders: one field decoder after the other, up to the first that
fails. -/
def decodeFields (c : Context) (list : Slot) : List FieldDecoder → Nat → SymbolHeap →
    (Nat → Field) → Except Fault (Bool × (Nat → Field) × SymbolHeap)
  | [], _, symbols, fields => .ok (true, fields, symbols)
  | d :: ds, i, symbols, fields => do
    let (rc, f, symbols) ← d.decode c symbols (← amqpFieldFromList c list i) (fields i)
    let fields := fun k => if k = i then f else fields k
    if rc then decodeFields c list ds (i + 1) symbols fields else .ok (false, fields, symbols)

/-! ## Cleanup -/

/-- `amqp_type_cleanup` of what a field refers to. The destroyer of a wildcard has nothing to give
back: no decoder sets its `messaging_type`. -/
def TypeRef.cleanup (r : TypeRef) (symbols : SymbolHeap) : Except Fault (SymbolHeap × List Nat) :=
  match r.fnTable with
  | none | some .wildcard => .ok (symbols, [])
  | some _ =>
    if r.data = 0 then .ok (symbols, [])
    else match symbols.get r.data with
      | none => .error .wildPointer
      | some _ => .ok (symbols.free r.data, [r.data])

/-- `amqp_amqp_error_cleanup`. -/
def amqpAmqpErrorCleanup (f : Field) (symbols : SymbolHeap) :
    Except Fault (SymbolHeap × List Nat) := do
  if f.isNull then .ok (symbols, [])
  else do
    let (symbols, freed1) ← f.condition.cleanup symbols
    let (symbols, freed2) ← f.description.cleanup symbols
    let (symbols, freed3) ← f.info.cleanup symbols
    .ok (symbols, freed1 ++ freed2 ++ freed3)

/-- What a frame's cleanup function does with a field: the symbols left and the addresses given
back. -/
def FieldDecoder.cleanup (f : Field) (symbols : SymbolHeap) : FieldDecoder →
    Except Fault (SymbolHeap × List Nat)
  | type _ | mandatoryType _ | multipleSymbol | mandatoryMultipleSymbol | wildcard _ =>
    f.ref.cleanup symbols
  | amqpError => amqpAmqpErrorCleanup f symbols
  | primitive _ _ | mandatoryPrimitive _ | mandatorySaslCode | senderSettleMode _
  | receiverSettleMode _ => .ok (symbols, [])

/-- The cleanup functions of the performatives, from field `i` on. -/
def cleanupFields (fields : Nat → Field) : List FieldDecoder → Nat → SymbolHeap →
    Except Fault (SymbolHeap × List Nat)
  | [], _, symbols => .ok (symbols, [])
  | d :: ds, i, symbols => do
    let (symbols, freed1) ← d.cleanup (fields i) symbols
    let (symbols, freed2) ← cleanupFields fields ds (i + 1) symbols
    .ok (symbols, freed1 ++ freed2)

end Amqp
