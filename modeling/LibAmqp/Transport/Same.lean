import LibAmqp.Transport.Conform
import LibAmqp.Transport.Frame

/-!
# Frames that are the same

Two runs of the frame decoder have their types in different slots and their symbols at different
addresses. What they decoded is the same when it looks the same from the frame: the same numbers and
null flags, and references to types of the same format code with the same bytes and, for containers,
the same elements.
-/

namespace Amqp

open Lib

/-- Where decoded types are found: their context, the buffer they were decoded from and the symbols of
multiple fields. -/
structure TypeMemory where
  context : Context
  buffer : Buffer
  symbols : SymbolHeap

section
variable (x y : TypeMemory)

/-- Two types, or null pointers, look the same. -/
inductive SameType : Option Slot → Option Slot → Prop
  | null : SameType none none
  | type {s s' : Slot} {t t' : AmqpType} : x.context.types.load s = some t →
    y.context.types.load s' = some t' → t.constructor.metaData = t'.constructor.metaData →
    t.typeIsValid = t'.typeIsValid →
    (t.constructor.metaData ≠ none → x.buffer.bytes t.position.index t.position.size =
      y.buffer.bytes t'.position.index t'.position.size) →
    (t.typeIsValid = true → t.typeIsContainer = true → ∀ i,
      SameType (elementAt x.context t i) (elementAt y.context t' i)) →
    SameType (some s) (some s')

/-- Two references look the same. -/
structure SameRef (r r' : TypeRef) : Prop where
  fnTable : r.fnTable = r'.fnTable
  size : r.size = r'.size
  decoder : r.messageTypeDecoder = r'.messageTypeDecoder
  type : SameType x y r.type r'.type

/-- The symbols a multiple field has. -/
def TypeRef.symbols (heap : SymbolHeap) (r : TypeRef) : List TypeRef :=
  if r.data = 0 then [] else (heap.get r.data).getD []

/-- Two fields of a performative look the same. -/
def FieldDecoder.SameField (f f' : Field) : FieldDecoder → Prop
  | type _ | mandatoryType _ | wildcard _ => SameRef x y f.ref f'.ref
  | primitive _ _ | mandatoryPrimitive _ | mandatorySaslCode | senderSettleMode _
  | receiverSettleMode _ => f.value = f'.value ∧ f.isNull = f'.isNull
  | multipleSymbol | mandatoryMultipleSymbol =>
    f.ref.size = f'.ref.size ∧ SameType x y f.ref.type f'.ref.type ∧
      List.Forall₂ (SameRef x y) (f.ref.symbols x.symbols) (f'.ref.symbols y.symbols)
  | amqpError => f.isNull = f'.isNull ∧ SameRef x y f.condition f'.condition ∧
      SameRef x y f.description f'.description ∧ SameRef x y f.info f'.info

/-- Two frames look the same, but for how they were described. -/
structure SameFrame (frame frame' : AmqpFrame) : Prop where
  dataOffset : frame.dataOffset = frame'.dataOffset
  frameType : frame.frameType = frame'.frameType
  word : frame.word = frame'.word
  id : frame.descriptor.id = frame'.descriptor.id
  dispatch : frame.dispatch = frame'.dispatch
  cleanup : frame.cleanup = frame'.cleanup
  fields : ∀ p, frame.cleanup = some p → ∀ (i : Nat) (d : FieldDecoder), p.fields[i]? = some d →
    d.SameField x y (frame.fields i) (frame'.fields i)

end

def FrameContext.memory (x : FrameContext) (b : Buffer) : TypeMemory := ⟨x.toContext, b, x.symbols⟩

/-- Two decodes had the same outcome: both were lost, both refused their frame, or both returned
frames that look the same. -/
def SameOutcome : FrameDecoding → FrameDecoding → Prop
  | .error _, .error _ => True
  | .ok (none, _, _), .ok (none, _, _) => True
  | .ok (some s, x, b), .ok (some s', x', b') => ∃ frame frame', x.frames.load s = some frame ∧
      x'.frames.load s' = some frame' ∧ SameFrame (x.memory b) (x'.memory b') frame frame'
  | _, _ => False

end Amqp
