import LibAmqp.Buffer.Fragmented
import LibAmqp.Transport.Frame
import LibAmqp.Transport.Mechanisms
import Mathlib.Data.Nat.Pairing

/-!
# Encoding of frames (`Transport/Frame/FrameEncode.c`, `Plugin/SaslPlain`, `Plugin/SaslAnonymous`)

A frame is written into a new buffer: the header is skipped first and filled in when the size is known.
The types of the performative are given back as soon as it is complete. The buffer is taken by value and
returned, as `amqpDecodeFrame` does a frame; its slot in the pool of buffers is all that is released.

The challenge frame is not implemented.
-/

namespace Amqp

open Lib Memory Buffer

/-! ## Buffers -/

/-- `amqp_buffer_advance_write_point`. -/
def Buffer.advanceWritePoint (b : Buffer) (amount : Nat) : Buffer := { b with size := b.size + amount }

/-- An `amqp_buffer_t` of zero bytes. -/
def Buffer.zero : Buffer := ⟨0, 0, fun _ _ => 0, 0, 0, Nat.zero_le _⟩

theorem amqpBufferFragmentSize_le : amqpBufferFragmentSize ≤ amqpBufferMaxSize := by decide

/-- `amqp_initialize_amqp_buffer_t`: the memory of `amqp_malloc` is zero bytes. -/
def initializeAmqpBuffer (b : Buffer) : Buffer := { b with
  fragments := fun block => if block = 0 then fun _ => 0 else b.fragments block
  capacity := amqpBufferFragmentSize
  index := 0
  size := 0
  capacity_le := amqpBufferFragmentSize_le }

/-- What `amqp_context_t` gives the frame encoders. -/
structure EncodeContext extends Context where
  buffers : MemoryPool Buffer

/-- `amqp_create_context`, as far as encoding goes; `n` and `k` are the types and buffers to a block. -/
def EncodeContext.create (M : Malloc) (n k : Nat) : EncodeContext where
  toContext := Context.create M n
  buffers := initializePool k Buffer.zero initializeAmqpBuffer

/-- Where the object in a slot is: no two are at one address. -/
def bufferAddress (s : Slot) : Nat := Nat.pair s.block s.index

/-- `amqp_allocate_buffer`, and what is in the object. -/
def amqpAllocateBuffer (x : EncodeContext) : Except Fault (Slot × Buffer × EncodeContext) := do
  let (s, buffers) ← amqpAllocate x.malloc x.buffers
  match buffers.load s with
  | some b => .ok (s, { b with address := bufferAddress s }, { x with buffers := buffers })
  | none => .error .wildPointer

/-- `amqp_deallocate_buffer`. -/
def amqpDeallocateBuffer (x : EncodeContext) (s : Slot) : Except Fault EncodeContext := do
  .ok { x with buffers := ← amqpDeallocate x.buffers s }

/-! ## Connections -/

/-- The codes of `ErrorHandling.h` that a frame encoder fails with. -/
inductive EncodeError
  | noHostName | saslPluginsRegistered
  deriving DecidableEq, Repr

/-- The arguments of `amqp_connection_failed`. -/
structure ConnectionFailure where
  errorCode : EncodeError
  failureFlag : Nat
  message : String
  deriving DecidableEq, Repr

def amqpConnectionSaslError : Nat := 0x0200

/-- `amqp_sasl_identity_t`: what the hooks return, none for a hook that is not set. -/
structure SaslIdentity where
  login : Option (List UInt8)
  password : Option (List UInt8)
  email : Option (List UInt8)

/-- The functions `initial_response_encoder` points to. -/
inductive InitialResponseEncoder
  | base | plain | anonymous
  deriving DecidableEq, Repr

/-- An instance of a plugin, `amqp_sasl_plugin_t`. -/
structure SaslPluginInstance where
  mechanismName : List UInt8
  initialResponseEncoder : InitialResponseEncoder
  outcome : BitVec 32

/-- `amqp_session_values_t`. -/
structure SessionValues where
  channel : BitVec 16
  nextOutgoingId : BitVec 32
  incommingWindow : BitVec 32
  outgoingWindow : BitVec 32
  handleMax : BitVec 32

/-- `amqp_session_t`, as far as the begin frame goes. -/
structure AmqpSession where
  own : SessionValues
  remoteDefined : Bool
  remote : SessionValues

/-- What the frame encoders read of `amqp_connection_t`; `plugins` are those of its context. -/
structure EncodingConnection where
  isClient : Bool
  hostname : Option (List UInt8)
  localContainerId : List UInt8
  maxFrameSize : BitVec 32
  channelMax : BitVec 16
  idleTimeOut : BitVec 32
  identityHooks : SaslIdentity
  plugins : List SaslPlugin

/-- `amqp_connection_target_host`, or `unknown-host`. -/
def amqpConnectionTargetHost (connection : EncodingConnection) : List UInt8 :=
  connection.hostname.getD
    [0x75, 0x6e, 0x6b, 0x6e, 0x6f, 0x77, 0x6e, 0x2d, 0x68, 0x6f, 0x73, 0x74]

/-! ## Initial responses -/

/-- `encode_initial_response` of the plain plugin. -/
def encodeInitialResponse (c : Context) (b : Buffer) (login password : List UInt8) : Encoding :=
  if login.length < 256 ∧ password.length < 256 then
    amqpEncodeBinary c b (0 :: login ++ 0 :: password)
  else .error .assertFailed

/-- `amqp_sasl_plugin_initial_response_encode`. -/
def initialResponseEncode (c : Context) (b : Buffer) (plugin : SaslPluginInstance)
    (identity : SaslIdentity) : Encoding :=
  match plugin.initialResponseEncoder with
  | .base => .error .notImplemented
  | .plain =>
    match identity.login, identity.password with
    | some login, some password => encodeInitialResponse c b login password
    | _, _ => .error .assertFailed
  | .anonymous =>
    match identity.email with
    | some email => amqpEncodeBinary c b email
    | none => .error .assertFailed

/-! ## Fields -/

/-- What a fields encoder returns: why the connection failed, where C has a result of 0. -/
abbrev FieldsEncoding := Except Fault (Option ConnectionFailure × Context × Buffer)

def amqpSaslMechanismsFieldEncoder (connection : EncodingConnection) (c : Context) (b : Buffer) :
    FieldsEncoding :=
  if connection.plugins.length = 0 then
    .ok (some ⟨.saslPluginsRegistered, amqpConnectionSaslError,
      "Cannot construct SASL Mechanisms list. No SASL plugins registered."⟩, c, b)
  else do
    let (_, c, b) ← amqpSaslMechanismsEncode c b connection.plugins
    .ok (none, c, b)

def amqpSaslInitFieldEncoder (connection : EncodingConnection) (plugin : SaslPluginInstance)
    (c : Context) (b : Buffer) : FieldsEncoding :=
  if connection.hostname.isNone then
    .ok (some ⟨.noHostName, amqpConnectionSaslError,
      "Cannot initialize SASL Init frame. No hostname provided."⟩, c, b)
  else do
    let (_, c, b) ← amqpEncodeSymbol c b plugin.mechanismName
    let (_, c, b) ← initialResponseEncode c b plugin connection.identityHooks
    let (_, c, b) ← amqpEncodeString c b (amqpConnectionTargetHost connection)
    .ok (none, c, b)

def amqpSaslCodeSystemError : BitVec 32 := 2

/-- The code of the plugin, in the byte it is converted to. -/
def outcomeCode (plugin : Option SaslPluginInstance) : BitVec 8 :=
  (plugin.elim amqpSaslCodeSystemError (·.outcome)).setWidth 8

def amqpSaslOutcomeFieldEncoder (plugin : Option SaslPluginInstance) (c : Context) (b : Buffer) :
    FieldsEncoding := do
  let (_, c, b) ← amqpEncodeUbyte c b (outcomeCode plugin)
  .ok (none, c, b)

def amqpOpenFieldEncoder (connection : EncodingConnection) (c : Context) (b : Buffer) :
    FieldsEncoding := do
  let (_, c, b) ← amqpEncodeString c b connection.localContainerId
  let (_, c, b) ←
    if connection.isClient then amqpEncodeString c b (amqpConnectionTargetHost connection)
    else amqpEncodeNull c b
  let (_, c, b) ← amqpEncodeUint c b connection.maxFrameSize
  let (_, c, b) ← amqpEncodeUshort c b connection.channelMax
  let (_, c, b) ← amqpEncodeUint c b connection.idleTimeOut
  .ok (none, c, b)

def amqpCloseFieldEncoder (c : Context) (b : Buffer) : FieldsEncoding := .ok (none, c, b)

def amqpBeginFieldEncoder (session : AmqpSession) (c : Context) (b : Buffer) : FieldsEncoding := do
  let (_, c, b) ←
    if session.remoteDefined then amqpEncodeUshort c b session.remote.channel
    else amqpEncodeNull c b
  let (_, c, b) ← amqpEncodeUint c b session.own.nextOutgoingId
  let (_, c, b) ← amqpEncodeUint c b session.own.incommingWindow
  let (_, c, b) ← amqpEncodeUint c b session.own.outgoingWindow
  let (_, c, b) ← amqpEncodeUint c b session.own.handleMax
  .ok (none, c, b)

/-! ## Frames -/

/-- `encode_frame_list`: the list is completed also when an encoder failed. -/
def encodeFrameList (c : Context) (b : Buffer) (fieldsEncoder : Context → Buffer → FieldsEncoding) :
    FieldsEncoding := do
  let (list, c, b) ← amqpEncodeList8 c b
  let (rc, c, b) ← fieldsEncoder c b
  let (_, c, b) ← amqpCompleteType c b list
  .ok (rc, c, b)

/-- `encode_performative`. -/
def encodePerformative (c : Context) (b : Buffer) (id : BitVec 64)
    (fieldsEncoder : Context → Buffer → FieldsEncoding) : FieldsEncoding := do
  let (frame, c, b) ← amqpStartEncodeDescribedType c b
  let (_, c, b) ← amqpEncodeUlong c b id
  let (rc, c, b) ← encodeFrameList c b fieldsEncoder
  let (_, c, b) ← amqpCompleteType c b frame
  let c ← amqpDeallocateType c frame
  .ok (rc, c, b)

/-- What a frame encoder returns: the buffer and its slot, or why the connection failed, where C returns
null. -/
abbrev FrameEncoding := Except Fault (Except ConnectionFailure (Slot × Buffer) × EncodeContext)

/-- The header of a frame, written over the first bytes. -/
def writeFrameHeader (b : Buffer) (performativeOffset : Nat) (frameType : UInt8)
    (frameTypeSpecific : BitVec 16) : Except Fault Buffer := do
  let frameSize := b.size
  let b := b.setWriteIndex 0
  let b ← b.hton 4 frameSize
  let b ← b.uncheckedPutc (UInt8.ofNat (performativeOffset / amqpFrameHeaderDataOffsetMultiplier))
  let b ← b.uncheckedPutc frameType
  let b ← b.hton 2 frameTypeSpecific.toNat
  .ok (b.setWriteIndex frameSize)

/-- `amqp_encode_frame`. -/
def amqpEncodeFrame (x : EncodeContext) (id : BitVec 64) (frameType : UInt8)
    (frameTypeSpecific : BitVec 16) (fieldsEncoder : Context → Buffer → FieldsEncoding) :
    FrameEncoding := do
  let (s, b, x) ← amqpAllocateBuffer x
  let b := b.advanceWritePoint 8
  let performativeOffset := b.size
  let (rc, c, b) ← encodePerformative x.toContext b id fieldsEncoder
  let x := { x with toContext := c }
  match rc with
  | none => do
    let b ← writeFrameHeader b performativeOffset frameType frameTypeSpecific
    .ok (.ok (s, b), x)
  | some failure => do
    let x ← amqpDeallocateBuffer x s
    .ok (.error failure, x)

def defaultTypeSpecificField : BitVec 16 := 0
def channelZero : BitVec 16 := 0

/-- The descriptor that a performative is sent with. -/
def Performative.descriptor (p : Performative) : BitVec 64 := BitVec.ofNat 64 p.descriptorId

def amqpEncodeSaslMechanismsFrame (connection : EncodingConnection) (x : EncodeContext) :
    FrameEncoding :=
  amqpEncodeFrame x Performative.saslMechanisms.descriptor amqpSaslFrameType defaultTypeSpecificField
    (amqpSaslMechanismsFieldEncoder connection)

def amqpEncodeSaslInitFrame (connection : EncodingConnection) (plugin : SaslPluginInstance)
    (x : EncodeContext) : FrameEncoding :=
  amqpEncodeFrame x Performative.saslInit.descriptor amqpSaslFrameType defaultTypeSpecificField
    (amqpSaslInitFieldEncoder connection plugin)

def amqpEncodeSaslOutcomeFrame (plugin : Option SaslPluginInstance) (x : EncodeContext) :
    FrameEncoding :=
  amqpEncodeFrame x Performative.saslOutcome.descriptor amqpSaslFrameType defaultTypeSpecificField
    (amqpSaslOutcomeFieldEncoder plugin)

def amqpEncodeAmqpOpen (connection : EncodingConnection) (x : EncodeContext) : FrameEncoding :=
  amqpEncodeFrame x Performative.amqpOpen.descriptor amqpFrameType channelZero
    (amqpOpenFieldEncoder connection)

def amqpEncodeAmqpClose (x : EncodeContext) : FrameEncoding :=
  amqpEncodeFrame x Performative.amqpClose.descriptor amqpFrameType channelZero amqpCloseFieldEncoder

def amqpEncodeAmqpBegin (session : AmqpSession) (x : EncodeContext) : FrameEncoding :=
  amqpEncodeFrame x Performative.amqpBegin.descriptor amqpFrameType session.own.channel
    (amqpBeginFieldEncoder session)

/-- `amqp_encode_empty_frame`: a header only. -/
def amqpEncodeEmptyFrame (x : EncodeContext) : FrameEncoding := do
  let (s, b, x) ← amqpAllocateBuffer x
  let b ← b.hton 4 8
  let b ← b.uncheckedPutc 2
  let b ← b.uncheckedPutc amqpFrameType
  let b ← b.hton 2 0
  .ok (.ok (s, b), x)

end Amqp
