import LibAmqp.Codec.Reading
import LibAmqp.Lib.Verdict
import LibAmqp.Transport.Field

/-!
# What a performative accepts

The verdict of the field decoders on a list of fields, by what the bytes of the list say: a field
that is missing or null is left to its default, any other has to be of the field's type. A multiple
field that is an array without a constructor, and an error whose description is missing, stop the
process.
-/

namespace Amqp

open Lib

/-- A type of a list of fields and its elements, if it is there. -/
abbrev FieldReading := Option (Glimpse × Reading)

/-- The field, unless it is missing or null. -/
def FieldReading.present (o : FieldReading) : FieldReading := o.filter fun e => !e.1.is isNull

/-- A field that may be left out and, if it is there, has to satisfy `p`. -/
def FieldReading.optional (o : FieldReading) (p : Glimpse → Reading → Verdict) : Verdict :=
  match o.present with
  | none => .accepted
  | some (g, kids) => p g kids

/-- A field that has to be there and satisfy `p`. -/
def FieldReading.mandatory (o : FieldReading) (p : Glimpse → Reading → Verdict) : Verdict :=
  match o.present with
  | none => .refused
  | some (g, kids) => p g kids

/-- The type of a primitive field. -/
def PrimitiveType.fits (ft : PrimitiveType) (g : Glimpse) : Bool :=
  g.is ft.flags.1 &&
    match ft.flags.2 with
    | some unsigned => g.is isUnsigned == unsigned
    | none => true

/-- The value of a primitive field. -/
def PrimitiveType.valueOf (ft : PrimitiveType) (default : Int) (o : FieldReading) : Int :=
  match o.present with
  | none => default
  | some (g, _) => ft.read g.number

/-- A range restricted code: its default is checked too. -/
def rangeVerdict (limit default : Int) (o : FieldReading) (v : Verdict) : Verdict :=
  v.andThen (.ofBool (PrimitiveType.ubyte.valueOf default o ≤ limit))

/-- A symbol or an array of symbols. -/
def symbolsVerdict (g : Glimpse) (kids : Reading) : Verdict :=
  if g.is isSymbol then .accepted
  else if g.is isArray then
    match g.elementCode with
    | none => .stops
    | some code =>
      if codeFlags code &&& isSymbol != 0#32 then
        if 2 ^ 31 ≤ kids.length then .stops else .accepted
      else .refused
  else .refused

/-- A described list of a symbol, a string that may be left out and a map that may be. -/
def errorVerdict (g : Glimpse) (kids : Reading) : Verdict :=
  if g.is isComposite then
    match kids.nth 1 with
    | none => .stops
    | some (list, fields) =>
      if list.is isList then
        ((FieldReading.mandatory (fields.nth 0) fun g _ => .ofBool (g.is isSymbol)).andThen
          (FieldReading.optional (fields.nth 1) fun g _ => .ofBool (g.is isString))).andThen
          (FieldReading.optional (fields.nth 2) fun g _ => .ofBool (g.is isMap))
      else .refused
  else .refused

def FieldDecoder.verdict (o : FieldReading) : FieldDecoder → Verdict
  | type ft => o.optional fun g _ => .ofBool (g.is ft.mask)
  | mandatoryType ft => o.mandatory fun g _ => .ofBool (g.is ft.mask)
  | primitive ft _ => o.optional fun g _ => .ofBool (ft.fits g)
  | mandatoryPrimitive ft => o.mandatory fun g _ => .ofBool (ft.fits g)
  | mandatorySaslCode => rangeVerdict amqpSaslCodeTempSystemError 0 o
      (o.mandatory fun g _ => .ofBool (PrimitiveType.ubyte.fits g))
  | senderSettleMode default => rangeVerdict amqpSenderSettleModeMixed default o
      (o.optional fun g _ => .ofBool (PrimitiveType.ubyte.fits g))
  | receiverSettleMode default => rangeVerdict amqpReceiverSettleModeSecond default o
      (o.optional fun g _ => .ofBool (PrimitiveType.ubyte.fits g))
  | multipleSymbol => o.optional symbolsVerdict
  | mandatoryMultipleSymbol => (o.mandatory symbolsVerdict).andThen
      (o.mandatory fun g kids => .ofBool (g.is isSymbol || kids.length != 0))
  | amqpError => o.optional errorVerdict
  | wildcard _ => .accepted

/-- The verdict on a list of fields, from field `i` on: that of the first field that is not
accepted. -/
def fieldsVerdict (list : Reading) : List FieldDecoder → Nat → Verdict
  | [], _ => .accepted
  | d :: ds, i => (d.verdict (list.nth i)).andThen (fieldsVerdict list ds (i + 1))

end Amqp
