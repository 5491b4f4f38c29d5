import LibAmqp.Codec.Proof.Container
import LibAmqp.Transport.Frame
import LibAmqp.Transport.Schema

/-!
# What the bytes of a frame say

The verdict of the frame decoder, by the header and by what the body says: no objects, no pools.
`domain` is the descriptor domain that the frame object has before, which is the one that is tested;
`lookup` is what the table of descriptors has for the body's symbol.
-/

namespace Amqp

open Lib

/-! ## Bodies -/

/-- The descriptor a body is decoded by. -/
def descriptorOf (lookup : Option Descriptor) (domain : Nat) (g : Glimpse) : Option Descriptor :=
  if g.is isSymbol then lookup
  else if PrimitiveType.ulong.fits g && domain == amqpDescriptorDomain then
    some ⟨g.number.low 8 >>> 32, g.number.low 8 % 2 ^ 32, .none⟩
  else none

/-- The verdict on what is described; anything but a list is printed. -/
def remainderVerdict (id : Nat) (g : Glimpse) (kids : Reading) : Verdict :=
  if g.is isList then
    match Performative.ofDescriptorId id with
    | some p => fieldsVerdict kids p.fields 0
    | none => .refused
  else if Reading.printable (.node g kids .nil) then .refused
  else .stops

/-- The verdict on a descriptor and what it describes. -/
def describedVerdict (lookup : Option Descriptor) (domain : Nat) (kids : Reading) : Verdict :=
  match kids.nth 0, kids.nth 1 with
  | some (descriptor, _), some (described, fields) =>
    match descriptorOf lookup domain descriptor with
    | some d => remainderVerdict d.id described fields
    | none => .refused
  | _, _ => .stops

/-- What is refused is printed, if the debug level is above 2. -/
def printedVerdict (debugLevel : Nat) (printable : Bool) (v : Verdict) : Verdict :=
  if v = .refused ∧ 2 < debugLevel ∧ printable = false then .stops else v

/-- The verdict on the type of a frame's body. -/
def bodyVerdict (lookup : Option Descriptor) (domain debugLevel : Nat) (g : Glimpse)
    (kids : Reading) : Verdict :=
  if g.accepted = false then .refused
  else if g.is isComposite = false then .stops
  else printedVerdict debugLevel (Reading.printable (.node g kids .nil))
    (describedVerdict lookup domain kids)

/-! ## Headers -/

/-- The data offset of a frame, in bytes. -/
def Buffer.dataOffset (b : Buffer) : Nat := (b.byteAt 4).toNat * amqpFrameHeaderDataOffsetMultiplier

/-- A header that is accepted. -/
def Buffer.HeaderAccepted (b : Buffer) : Prop :=
  amqpFrameHeaderSize ≤ b.dataOffset ∧ (b.byteAt 5 = amqpFrameType ∨ b.byteAt 5 = amqpSaslFrameType)

instance (b : Buffer) : Decidable b.HeaderAccepted := inferInstanceAs (Decidable (_ ∧ _))

/-- The buffer behind the header. -/
def Buffer.body (b : Buffer) : Buffer := b.advanceReadIndex b.dataOffset

/-- What the table has for the symbol a body starts with. -/
def Buffer.symbolLookup (hash : HashFunction) (table : DescriptorTable) (b : Buffer) :
    Option Descriptor :=
  (b.outline.bind fun o => o.2.nth 0).bind fun d =>
    amqpDescriptorLookup hash table b d.1.index d.1.size

/-- The performative a body is described as. -/
def Buffer.performative (hash : HashFunction) (table : DescriptorTable) (domain : Nat) (b : Buffer) :
    Option Performative :=
  (b.outline.bind fun o => o.2.nth 0).bind fun d =>
    (descriptorOf (b.symbolLookup hash table) domain (d.1.glimpse b.input)).bind fun d =>
      Performative.ofDescriptorId d.id

/-- The verdict on a frame: on its header, on where the body starts and on the body. There is no body
when the header ends the buffer. -/
def frameVerdict (hash : HashFunction) (table : DescriptorTable) (domain debugLevel : Nat)
    (b : Buffer) : Verdict :=
  if b.HeaderAccepted then
    if b.size < b.body.index then .stops
    else if (Forest.cons b.body.outline .nil).All Item.Supported then
      match b.body.outline with
      | none => .accepted
      | some o => bodyVerdict (b.body.symbolLookup hash table) domain debugLevel
          (o.1.glimpse b.input) (read b.input o.2)
    else .stops
  else .refused

/-- The verdict of `amqp_decode_sasl_frame`, with a frame object of zero bytes. -/
def saslFrameVerdict (hash : HashFunction) (table : DescriptorTable) (debugLevel : Nat)
    (b : Buffer) : Verdict :=
  ((frameVerdict hash table 0 debugLevel b).andThen (.ofBool (!b.body.outline.isNone))).andThen
    (.ofBool (!(b.byteAt 5 != amqpSaslFrameType)))

/-- The verdict of `amqp_decode_amqp_frame`, with a frame object of zero bytes. -/
def amqpFrameVerdict (hash : HashFunction) (table : DescriptorTable) (debugLevel : Nat)
    (b : Buffer) : Verdict :=
  (frameVerdict hash table 0 debugLevel b).andThen
    (.ofBool (!(b.body.outline.isSome && b.byteAt 5 != amqpFrameType)))

end Amqp
