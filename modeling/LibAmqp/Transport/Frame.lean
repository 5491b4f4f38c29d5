import LibAmqp.Codec.Decode
import LibAmqp.Codec.Print
import LibAmqp.Codec.Release
import LibAmqp.Transport.Descriptor

/-!
# Frames (`Transport/Frame/Frame.c`, `Transport/Frame/FramePool.c`, `Transport/Decode`)

A frame is decoded into an object of the frame pool. Its initializer does nothing, so the object
starts with the leftovers of the frame that had the slot before, and the decoder sets its members
only on some paths. The decoder takes the frame by value and returns it, as `amqpDecode` does a type.

The union of the performatives is one sequence of fields, by field number: what another performative
left in the object is read as if its fields lay at the same places. No result looks at such
leftovers.
-/

namespace Amqp

open Lib Memory

/-! ## Performatives -/

inductive Performative
  | saslMechanisms | saslInit | saslChallenge | saslResponse | saslOutcome
  | amqpOpen | amqpBegin | amqpAttach | amqpFlow | amqpTransfer | amqpDisposition | amqpDetach
  | amqpEnd | amqpClose
  deriving DecidableEq, Repr

def amqpNoDefaultValue : Int := 0

def saslMechanismsFields : List FieldDecoder := [
  .mandatoryMultipleSymbol] -- sasl_server_mechanisms

def saslInitFields : List FieldDecoder := [
  .mandatoryType .symbol, -- mechanism
  .type .binary, -- initial_response
  .type .string] -- hostname

def saslChallengeFields : List FieldDecoder := [
  .mandatoryType .binary] -- challenge

def saslResponseFields : List FieldDecoder := [
  .mandatoryType .binary] -- response

def saslOutcomeFields : List FieldDecoder := [
  .mandatorySaslCode, -- code
  .type .binary] -- additional_data

def amqpOpenFields : List FieldDecoder := [
  .mandatoryType .string, -- container_id
  .type .string, -- hostname
  .primitive .uint 4294967295, -- max_frame_size
  .primitive .ushort 65535, -- channel_max
  .primitive .uint amqpNoDefaultValue, -- idle_time_out
  .multipleSymbol, -- outgoing_locales
  .multipleSymbol, -- incoming_locales
  .multipleSymbol, -- offered_capabilities
  .multipleSymbol, -- desired_capabilities
  .type .map] -- properties

def amqpBeginFields : List FieldDecoder := [
  .primitive .ushort amqpNoDefaultValue, -- remote_channel
  .mandatoryPrimitive .uint, -- next_outgoing_id
  .mandatoryPrimitive .uint, -- incoming_window
  .mandatoryPrimitive .uint, -- outgoing_window
  .primitive .uint 4294967295, -- handle_max
  .multipleSymbol, -- offered_capabilities
  .multipleSymbol, -- desired_capabilities
  .type .map] -- properties

def amqpAttachFields : List FieldDecoder := [
  .mandatoryType .string, -- name
  .mandatoryPrimitive .uint, -- handle
  .mandatoryPrimitive .boolean, -- role
  .senderSettleMode amqpSenderSettleModeMixed, -- snd_settle_mode
  .receiverSettleMode amqpReceiverSettleModeFirst, -- rcv_settle_mode
  .wildcard .source, -- source
  .wildcard .target, -- target
  .type .map, -- unsettled
  .primitive .boolean 0, -- incomplete_unsettled
  .primitive .uint amqpNoDefaultValue, -- initial_delivery_count
  .primitive .ulong amqpNoDefaultValue, -- max_message_size
  .multipleSymbol, -- offered_capabilities
  .multipleSymbol, -- desired_capabilities
  .type .map] -- properties

def amqpFlowFields : List FieldDecoder := [
  .primitive .uint amqpNoDefaultValue, -- next_incoming_id
  .mandatoryPrimitive .uint, -- incoming_window
  .mandatoryPrimitive .uint, -- next_outgoing_id
  .mandatoryPrimitive .uint, -- outgoing_window
  .primitive .uint amqpNoDefaultValue, -- handle
  .primitive .uint amqpNoDefaultValue, -- delivery_count
  .primitive .uint amqpNoDefaultValue, -- link_credit
  .primitive .uint amqpNoDefaultValue, -- available
  .primitive .boolean 0, -- drain
  .primitive .boolean 0, -- echo
  .type .map] -- properties

def amqpTransferFields : List FieldDecoder := [
  .mandatoryPrimitive .uint, -- handle
  .primitive .uint amqpNoDefaultValue, -- delivery_id
  .type .binary, -- delivery_tag
  .primitive .uint amqpNoDefaultValue, -- message_format
  .primitive .boolean amqpNoDefaultValue, -- settled
  .primitive .boolean 0, -- more
  .receiverSettleMode amqpNoDefaultValue, -- rcv_settle_mode
  .wildcard .deliveryState, -- state
  .primitive .boolean 0, -- resume
  .primitive .boolean 0, -- aborted
  .primitive .boolean 0] -- batchable

def amqpDispositionFields : List FieldDecoder := [
  .mandatoryPrimitive .boolean, -- role
  .mandatoryPrimitive .uint, -- first
  .primitive .uint amqpNoDefaultValue, -- last
  .primitive .boolean 0, -- settled
  .wildcard .deliveryState, -- state
  .primitive .boolean 0] -- batchable

def amqpDetachFields : List FieldDecoder := [
  .mandatoryPrimitive .uint, -- handle
  .primitive .boolean 0, -- closed
  .amqpError] -- error

def amqpEndFields : List FieldDecoder := [
  .amqpError] -- error

def amqpCloseFields : List FieldDecoder := [
  .amqpError] -- error

namespace Performative

def fields : Performative → List FieldDecoder
  | saslMechanisms => saslMechanismsFields
  | saslInit => saslInitFields
  | saslChallenge => saslChallengeFields
  | saslResponse => saslResponseFields
  | saslOutcome => saslOutcomeFields
  | amqpOpen => amqpOpenFields
  | amqpBegin => amqpBeginFields
  | amqpAttach => amqpAttachFields
  | amqpFlow => amqpFlowFields
  | amqpTransfer => amqpTransferFields
  | amqpDisposition => amqpDispositionFields
  | amqpDetach => amqpDetachFields
  | amqpEnd => amqpEndFields
  | amqpClose => amqpCloseFields

/-- `amqp_descriptor_id_t` of the performatives. -/
def descriptorId : Performative → Nat
  | amqpOpen => 0x10
  | amqpBegin => 0x11
  | amqpAttach => 0x12
  | amqpFlow => 0x13
  | amqpTransfer => 0x14
  | amqpDisposition => 0x15
  | amqpDetach => 0x16
  | amqpEnd => 0x17
  | amqpClose => 0x18
  | saslMechanisms => 0x40
  | saslInit => 0x41
  | saslChallenge => 0x42
  | saslResponse => 0x43
  | saslOutcome => 0x44

/-- The cases of the switch in `decode_remainder`, in its order. -/
def all : List Performative := [
  saslMechanisms, saslInit, saslChallenge, saslResponse, saslOutcome, amqpOpen, amqpBegin,
  amqpAttach, amqpFlow, amqpTransfer, amqpDisposition, amqpDetach, amqpEnd, amqpClose]

/-- The case of the switch that a descriptor id selects. -/
def ofDescriptorId (id : Nat) : Option Performative := all.find? fun p => p.descriptorId == id

def isSasl : Performative → Bool
  | saslMechanisms | saslInit | saslChallenge | saslResponse | saslOutcome => true
  | _ => false

end Performative

/-! ## Frames -/

def amqpFrameHeaderSize : Nat := 8
def amqpFrameHeaderDataOffsetMultiplier : Nat := 4
def amqpFrameType : UInt8 := 0
def amqpSaslFrameType : UInt8 := 1

/-- The functions `dispatch` points to. -/
inductive Dispatch
  | emptyFrame
  | performative (p : Performative)
  deriving DecidableEq, Repr

/-- `cleanup` is the cleanup function of a performative, null for none. -/
structure AmqpFrame where
  dataOffset : Nat
  frameType : UInt8
  /-- `type_specific.word`, the channel of an AMQP frame -/
  word : Nat
  type : Option Slot
  descriptor : Descriptor
  fields : Nat → Field
  dispatch : Option Dispatch
  cleanup : Option Performative

def AmqpFrame.zero : AmqpFrame :=
  ⟨0, 0, 0, none, ⟨0, 0, .none⟩, fun _ => .zero, none, none⟩

/-- What `amqp_context_t` gives the frame decoder. `freedSymbols` and `releasedFrames` record what was
given back. -/
structure FrameContext extends Context where
  frames : MemoryPool AmqpFrame
  symbols : SymbolHeap
  descriptors : DescriptorTable
  debugLevel : Nat
  freedSymbols : List Nat
  releasedFrames : List Slot

/-- `amqp_create_context`, as far as frames go; `n` and `k` are the types and frames to a block. -/
def FrameContext.create (hash : HashFunction) (M : Malloc) (n k : Nat) : FrameContext where
  toContext := Context.create M n
  frames := initializePool k AmqpFrame.zero id
  symbols := Heap.empty
  descriptors := amqpLoadDescriptors hash
  debugLevel := 10
  freedSymbols := []
  releasedFrames := []

/-- `amqp_allocate_frame`, and what is in the object. -/
def FrameContext.allocateFrame (x : FrameContext) : Except Fault (Slot × AmqpFrame × FrameContext) := do
  let (s, frames) ← amqpAllocate x.malloc x.frames
  match frames.load s with
  | some frame => .ok (s, frame, { x with frames := frames })
  | none => .error .wildPointer

/-! ## Decoding -/

/-- `decode_header`: the read index moves before anything is checked. -/
def decodeHeader (b : Buffer) (frame : AmqpFrame) : Except Fault (Bool × Buffer × AmqpFrame) :=
  if b.size < amqpFrameHeaderSize then .error .assertFailed
  else do
    let dataOffset := (← b.uncheckedGetcAt 4).toNat * amqpFrameHeaderDataOffsetMultiplier
    let frameType ← b.uncheckedGetcAt 5
    let word ← b.ntoh 2 6
    let frame := { frame with dataOffset := dataOffset, frameType := frameType, word := word }
    let b := b.advanceReadIndex dataOffset
    if dataOffset < amqpFrameHeaderSize then .ok (false, b, frame)
    else if frameType ≠ amqpFrameType ∧ frameType ≠ amqpSaslFrameType then .ok (false, b, frame)
    else .ok (true, b, frame)

/-- `decode_symbolic_descriptor`. -/
def decodeSymbolicDescriptor (hash : HashFunction) (x : FrameContext) (b : Buffer)
    (frame : AmqpFrame) (type : AmqpType) : Except Fault (Bool × AmqpFrame) :=
  if type.value.word ≠ b.address then .error .wildPointer
  else match amqpDescriptorLookup hash x.descriptors b type.position.index type.position.size with
    | some descriptor => .ok (true, { frame with descriptor := descriptor })
    | none => .ok (false, frame)

/-- `decode_descriptor`: the domain that is tested is the one the frame had before. -/
def decodeDescriptor (hash : HashFunction) (x : FrameContext) (b : Buffer) (frame : AmqpFrame)
    (type : Option Slot) : Except Fault (Bool × AmqpFrame) := do
  let t ← loadType x.toContext type
  if t.typedefFlagsTest isSymbol then decodeSymbolicDescriptor hash x b frame t
  else if !PrimitiveType.ulong.test t then .ok (false, frame)
  else
    let code := t.value.low 8
    if frame.descriptor.domain ≠ amqpDescriptorDomain then .ok (false, frame)
    else .ok (true, { frame with descriptor := ⟨code >>> 32, code % 2 ^ 32, .none⟩ })

/-- What the performative decoders have in common: they set the dispatch and cleanup functions and
decode their fields. -/
def decodeListFrame (p : Performative) (x : FrameContext) (frame : AmqpFrame) (fieldList : Slot) :
    Except Fault (Bool × AmqpFrame × FrameContext) := do
  let (rc, fields, symbols) ← decodeFields x.toContext fieldList p.fields 0 x.symbols frame.fields
  .ok (rc, { frame with dispatch := some (.performative p), cleanup := some p, fields := fields },
    { x with symbols := symbols })

def amqpDecodeSaslMechanismsFrame := decodeListFrame .saslMechanisms
def amqpDecodeSaslInitFrame := decodeListFrame .saslInit
def amqpDecodeSaslChallengeFrame := decodeListFrame .saslChallenge
def amqpDecodeSaslResponseFrame := decodeListFrame .saslResponse
def amqpDecodeSaslOutcomeFrame := decodeListFrame .saslOutcome
def amqpDecodeAmqpOpenFrame := decodeListFrame .amqpOpen
def amqpDecodeAmqpBeginFrame := decodeListFrame .amqpBegin
def amqpDecodeAmqpAttachFrame := decodeListFrame .amqpAttach
def amqpDecodeAmqpFlowFrame := decodeListFrame .amqpFlow
def amqpDecodeAmqpTransferFrame := decodeListFrame .amqpTransfer
def amqpDecodeAmqpDispositionFrame := decodeListFrame .amqpDisposition
def amqpDecodeAmqpDetachFrame := decodeListFrame .amqpDetach
def amqpDecodeAmqpEndFrame := decodeListFrame .amqpEnd
def amqpDecodeAmqpCloseFrame := decodeListFrame .amqpClose

/-- The calls of the switch in `decode_remainder`. -/
def Performative.decode : Performative → FrameContext → AmqpFrame → Slot →
    Except Fault (Bool × AmqpFrame × FrameContext)
  | saslMechanisms => amqpDecodeSaslMechanismsFrame
  | saslInit => amqpDecodeSaslInitFrame
  | saslChallenge => amqpDecodeSaslChallengeFrame
  | saslResponse => amqpDecodeSaslResponseFrame
  | saslOutcome => amqpDecodeSaslOutcomeFrame
  | amqpOpen => amqpDecodeAmqpOpenFrame
  | amqpBegin => amqpDecodeAmqpBeginFrame
  | amqpAttach => amqpDecodeAmqpAttachFrame
  | amqpFlow => amqpDecodeAmqpFlowFrame
  | amqpTransfer => amqpDecodeAmqpTransferFrame
  | amqpDisposition => amqpDecodeAmqpDispositionFrame
  | amqpDetach => amqpDecodeAmqpDetachFrame
  | amqpEnd => amqpDecodeAmqpEndFrame
  | amqpClose => amqpDecodeAmqpCloseFrame

/-- `decode_remainder`: what is not a list is printed. -/
def decodeRemainder (x : FrameContext) (b : Buffer) (frame : AmqpFrame) (type : Option Slot) :
    Except Fault (Bool × AmqpFrame × FrameContext) :=
  match type with
  | none => .error .assertFailed
  | some s => do
    if (← x.load s).typeIsList then
      match Performative.ofDescriptorId frame.descriptor.id with
      | some p => p.decode x frame s
      | none => .ok (false, { frame with descriptor.id := 0 }, x)
    else do
      amqpTypePrint b x.toContext type
      .ok (false, frame, x)

/-- `amqp_type_dump` at level 2. -/
def amqpTypeDump (x : FrameContext) (b : Buffer) (type : Option Slot) : Except Fault Unit :=
  if 2 < x.debugLevel then amqpTypePrint b x.toContext type else .ok ()

/-- `decode_performative`. -/
def decodePerformative (hash : HashFunction) (x : FrameContext) (b : Buffer) (frame : AmqpFrame)
    (s : Slot) : Except Fault (Bool × AmqpFrame × FrameContext) := do
  let t ← x.load s
  if !t.typeIsValid then .ok (false, frame, x)
  else if !t.typeIsComposite then .error .assertFailed
  else do
    let (rc, frame) ← decodeDescriptor hash x b frame (← x.getElement t.value.elements 0)
    let (rc, frame, x) ←
      if rc then do decodeRemainder x b frame (← x.getElement t.value.elements 1)
      else .ok (false, frame, x)
    if rc then .ok (true, frame, x)
    else do
      amqpTypeDump x b (some s)
      .ok (false, frame, x)

/-- `decode_frame`: a frame without a body keeps the type and the descriptor id it had. -/
def decodeFrame (hash : HashFunction) (x : FrameContext) (b : Buffer) (frame : AmqpFrame) :
    Except Fault (Bool × AmqpFrame × FrameContext × Buffer) := do
  let (rc, b, frame) ← decodeHeader b frame
  if rc then do
    let (type, c, b) ← amqpDecode x.toContext b
    let x := { x with toContext := c }
    match type with
    | none => .ok (true, { frame with
        descriptor.kind := .emptyFrame, dispatch := some .emptyFrame }, x, b)
    | some s => do
      let (rc, frame, x) ← decodePerformative hash x b { frame with type := some s } s
      .ok (rc, frame, x, b)
  else .ok (false, frame, x, b)

/-- The cleanup function of a frame; without one there is a message only. -/
def callCleanup (x : FrameContext) (frame : AmqpFrame) : Except Fault FrameContext :=
  if frame.descriptor.id ≠ 0 then
    match frame.cleanup with
    | some p => do
      let (symbols, freed) ← cleanupFields frame.fields p.fields 0 x.symbols
      .ok { x with symbols := symbols, freedSymbols := x.freedSymbols ++ freed }
    | none => .ok x
  else .ok x

/-- `amqp_frame_cleanup`. -/
def amqpFrameCleanup (x : FrameContext) (s : Slot) : Except Fault FrameContext :=
  match x.frames.load s with
  | none => .error .wildPointer
  | some frame => do
    let x := { x with toContext := ← amqpDeallocateType x.toContext frame.type }
    let x ← callCleanup x frame
    .ok { x with
      frames := ← amqpDeallocate x.frames s
      releasedFrames := x.releasedFrames ++ [s] }

/-- What the frame decoders return: the frame or null, the context and the buffer. -/
abbrev FrameDecoding := Except Fault (Option Slot × FrameContext × Buffer)

/-- `amqp_decode_frame`. -/
def amqpDecodeFrame (hash : HashFunction) (x : FrameContext) (b : Buffer) : FrameDecoding := do
  let (s, frame, x) ← x.allocateFrame
  let (rc, frame, x, b) ← decodeFrame hash x b frame
  let x := { x with frames := x.frames.store s frame }
  if rc then .ok (some s, x, b)
  else do .ok (none, ← amqpFrameCleanup x s, b)

/-- A frame that was decoded is cleaned up again if it is refused. -/
def refuseFrame (refused : AmqpFrame → Bool) (r : FrameDecoding) : FrameDecoding := do
  match ← r with
  | (none, x, b) => .ok (none, x, b)
  | (some s, x, b) =>
    match x.frames.load s with
    | none => .error .wildPointer
    | some frame =>
      if refused frame then do .ok (none, ← amqpFrameCleanup x s, b) else .ok (some s, x, b)

/-- `amqp_decode_sasl_frame`: no frames without a descriptor id, then none of another type. -/
def amqpDecodeSaslFrame (hash : HashFunction) (x : FrameContext) (b : Buffer) : FrameDecoding :=
  refuseFrame (fun frame => frame.frameType != amqpSaslFrameType)
    (refuseFrame (fun frame => frame.descriptor.id == 0) (amqpDecodeFrame hash x b))

/-- `amqp_decode_amqp_frame`: no frames of another type that have a descriptor id. -/
def amqpDecodeAmqpFrame (hash : HashFunction) (x : FrameContext) (b : Buffer) : FrameDecoding :=
  refuseFrame (fun frame => frame.descriptor.id != 0 && frame.frameType != amqpFrameType)
    (amqpDecodeFrame hash x b)

end Amqp
