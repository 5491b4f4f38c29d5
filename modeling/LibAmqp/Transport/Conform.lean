import LibAmqp.Transport.Field

/-!
# What a schema asks of a list of fields

The schema of a performative as its author reads it: which fields have to be there, what types the
others may have, and what each field is set to. It speaks about the decoded types in memory and
knows nothing of the order in which the decoders look at them, of the symbols they allocate or of
how they fail.
-/

namespace Amqp

open Lib

variable (c : Context)

/-- The type of a field that is there and not null. -/
def presentType (field : Option Slot) : Option (Slot × AmqpType) :=
  field.bind fun s => (c.types.load s).bind fun t =>
    if t.typedefFlagsTest isNull then none else some (s, t)

/-- Element `i` of a list or a described type, null if there is none. -/
def elementAt (t : AmqpType) (i : Nat) : Option Slot :=
  if i < t.value.count then ((c.arrays.get t.value.elements).bind fun l => l[i]?).join else none

/-- A field that may be left out or null; if it is there, it satisfies `p`. -/
def OptionalField (field : Option Slot) (p : AmqpType → Prop) : Prop :=
  ∀ s t, presentType c field = some (s, t) → p t

/-- A field that is there and satisfies `p`. -/
def MandatoryField (field : Option Slot) (p : AmqpType → Prop) : Prop :=
  ∃ s t, presentType c field = some (s, t) ∧ p t

/-- A type is a decoded one or among the elements of a valid container that is. -/
inductive Contains : Slot → Slot → Prop
  | self (s : Slot) : Contains s s
  | element {s e r : Slot} {t : AmqpType} {i : Nat} : c.types.load s = some t →
    t.typeIsValid = true → t.typeIsContainer = true → elementAt c t i = some e → Contains e r →
    Contains s r

def ElementsValid (t : AmqpType) : Prop :=
  ∀ i s u, elementAt c t i = some s → c.types.load s = some u → u.typeIsValid = true

/-- The elements of a list are valid, and those of the arrays among them. -/
structure ListValid (l : AmqpType) : Prop where
  elements : ElementsValid c l
  arrays : ∀ i s u, elementAt c l i = some s → c.types.load s = some u → u.typeIsArray = true →
    ElementsValid c u

/-! ## Types -/

/-- A symbol, or an array whose constructor is that of symbols. -/
def IsSymbols (t : AmqpType) : Prop :=
  t.typedefFlagsTest isSymbol = true ∨
    t.typedefFlagsTest isArray = true ∧ ∃ s k, t.value.constructor = some s ∧
      c.types.load s = some k ∧ k.typedefFlagsTest isSymbol = true

/-- An error: a described list of a symbol, a string that may be left out and a map that may be. -/
def IsError (t : AmqpType) : Prop :=
  t.typeIsComposite = true ∧ ∃ s l, elementAt c t 1 = some s ∧ c.types.load s = some l ∧
    l.typeIsList = true ∧
    MandatoryField c (elementAt c l 0) (fun t => t.typedefFlagsTest isSymbol = true) ∧
    OptionalField c (elementAt c l 1) (fun t => t.typedefFlagsTest isString = true) ∧
    OptionalField c (elementAt c l 2) (fun t => t.typedefFlagsTest isMap = true)

/-- The number in a field, or what stands for one that is left out. -/
def numberOf (ft : PrimitiveType) (default : Int) (field : Option Slot) : Int :=
  match presentType c field with
  | none => default
  | some (_, t) => ft.read t.value

/-- What the schema asks of a field. -/
def FieldDecoder.Conforms (field : Option Slot) : FieldDecoder → Prop
  | type ft => OptionalField c field fun t => t.typedefFlagsTest ft.mask = true
  | mandatoryType ft => MandatoryField c field fun t => t.typedefFlagsTest ft.mask = true
  | primitive ft _ => OptionalField c field fun t => ft.test t = true
  | mandatoryPrimitive ft => MandatoryField c field fun t => ft.test t = true
  | mandatorySaslCode => MandatoryField c field (fun t => PrimitiveType.ubyte.test t = true) ∧
      numberOf c .ubyte 0 field ≤ amqpSaslCodeTempSystemError
  | senderSettleMode default =>
      OptionalField c field (fun t => PrimitiveType.ubyte.test t = true) ∧
      numberOf c .ubyte default field ≤ amqpSenderSettleModeMixed
  | receiverSettleMode default =>
      OptionalField c field (fun t => PrimitiveType.ubyte.test t = true) ∧
      numberOf c .ubyte default field ≤ amqpReceiverSettleModeSecond
  | multipleSymbol => OptionalField c field (IsSymbols c)
  | mandatoryMultipleSymbol => MandatoryField c field fun t =>
      IsSymbols c t ∧ (t.typedefFlagsTest isArray = true → t.value.count ≠ 0)
  | amqpError => OptionalField c field (IsError c)
  | wildcard _ => True

/-! ## Values -/

/-- What stands for a text or a map. -/
def referenceOf (ft : ReferenceType) (field : Option Slot) : TypeRef :=
  match presentType c field with
  | none => .null
  | some (s, t) => ft.initializeFromType s t

/-- The symbols of a multiple field: the one it is, or those of the array in their order. -/
def symbolsOf (field : Option Slot) : List TypeRef :=
  match presentType c field with
  | none => []
  | some (s, t) =>
    if t.typedefFlagsTest isSymbol then [ReferenceType.symbol.initializeFromType s t]
    else (List.range t.value.count).map fun i => referenceOf c .symbol (elementAt c t i)

/-- What a field is set to when the schema is met. -/
def FieldDecoder.Holds (symbols : SymbolHeap) (field : Option Slot) (f : Field) : FieldDecoder → Prop
  | type ft | mandatoryType ft => f.ref = referenceOf c ft field
  | primitive ft default =>
    f.value = numberOf c ft default field ∧ f.isNull = (presentType c field).isNone
  | mandatoryPrimitive ft => f.value = numberOf c ft 0 field ∧ f.isNull = false
  | mandatorySaslCode => f.value = numberOf c .ubyte 0 field ∧ f.isNull = false
  | senderSettleMode default | receiverSettleMode default =>
    f.value = numberOf c .ubyte default field ∧ f.isNull = (presentType c field).isNone
  | multipleSymbol | mandatoryMultipleSymbol =>
    f.ref.type = field ∧ f.ref.size = (symbolsOf c field).length ∧
      if symbolsOf c field = [] then f.ref.data = 0
      else symbols.get f.ref.data = some (symbolsOf c field)
  | amqpError => f.isNull = (presentType c field).isNone ∧
    match presentType c field with
    | none => f.condition = .null ∧ f.description = .null ∧ f.info = .null
    | some (_, t) => ∃ s l, elementAt c t 1 = some s ∧ c.types.load s = some l ∧
        f.condition = referenceOf c .symbol (elementAt c l 0) ∧
        f.description = referenceOf c .string (elementAt c l 1) ∧
        f.info = referenceOf c .map (elementAt c l 2)
  | wildcard decoder => f.ref =
    match presentType c field with
    | none => .null
    | some (s, _) => ⟨some .wildcard, some s, 0, 0, some decoder⟩

end Amqp
