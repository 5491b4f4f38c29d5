import LibAmqp.Codec.InPlace
import LibAmqp.Transport.Encode

/-!
# Frames as they are meant

What a frame says, for the one who sends it and for the one who receives it: a performative and the values
of its fields. The bytes are those of the header and of one described list.

* `SentFrame.WellFormed`: the frames that are decoded as they were sent.
* `FieldDecoder.Receives`: what the field of the decoded frame holds.
* `FrameRequest`: the frames that a connection sends.
-/

namespace Amqp

open Lib

/-! ## Values of fields -/

/-- The bytes of a text of this type. -/
def Scalar.text (ft : ReferenceType) (v : Scalar) : Option (List UInt8) :=
  match ft, v with
  | .symbol, .symbol v | .string, .string v | .binary, .binary v => some v
  | _, _ => none

/-- The number that a value of this type stands for. -/
def Scalar.number (ft : PrimitiveType) (v : Scalar) : Option Int :=
  match ft, v with
  | .ubyte, .ubyte v => some v.toNat
  | .ushort, .ushort v => some v.toNat
  | .uint, .uint v => some v.toNat
  | .ulong, .ulong v => some v.toNat
  | .byte, .byte v => some v.toInt
  | .short, .short v => some v.toInt
  | .int, .int v => some v.toInt
  | .long, .long v => some v.toInt
  | .boolean, .boolean v => some (if v then 1 else 0)
  | _, _ => none

/-- The value of a field: one without elements, null also for a field that is missing, or an array of
symbols. -/
inductive FieldValue
  | scalar (v : Scalar)
  | symbols (names : List (List UInt8))
  deriving DecidableEq

namespace FieldValue

def isNull : FieldValue → Bool
  | scalar .null => true
  | _ => false

def text (ft : ReferenceType) : FieldValue → Option (List UInt8)
  | scalar v => v.text ft
  | symbols _ => none

def number (ft : PrimitiveType) : FieldValue → Option Int
  | scalar v => v.number ft
  | symbols _ => none

/-- The symbols of a multiple field. -/
def names : FieldValue → List (List UInt8)
  | scalar v => (v.text .symbol).toList
  | symbols names => names

end FieldValue

/-- The values that the decoder of a field takes. What it takes for an error or a wildcard besides null is
left out: no frame is sent with one. -/
def FieldDecoder.takes (v : FieldValue) : FieldDecoder → Bool
  | type ft => v.isNull || (v.text ft).isSome
  | mandatoryType ft => (v.text ft).isSome
  | primitive ft _ => v.isNull || (v.number ft).isSome
  | mandatoryPrimitive ft => (v.number ft).isSome
  | mandatorySaslCode => (v.number .ubyte).any (· ≤ amqpSaslCodeTempSystemError)
  | senderSettleMode default =>
    (if v.isNull then some default else v.number .ubyte).any (· ≤ amqpSenderSettleModeMixed)
  | receiverSettleMode default =>
    (if v.isNull then some default else v.number .ubyte).any (· ≤ amqpReceiverSettleModeSecond)
  | multipleSymbol => v.isNull || !v.names.isEmpty
  | mandatoryMultipleSymbol => !v.names.isEmpty
  | amqpError | wildcard _ => v.isNull

/-- A reference to a text, null for none. -/
def TypeRef.Refers (c : Context) (b : Buffer) (r : TypeRef) : Option (List UInt8) → Prop
  | some bytes => r.Spells c b bytes
  | none => r = .null

/-- A multiple field with these symbols. -/
def TypeRef.HasSymbols (c : Context) (b : Buffer) (symbols : SymbolHeap) (r : TypeRef)
    (names : List (List UInt8)) : Prop :=
  r.size = names.length ∧ if names = [] then r.data = 0 else
    ∃ contents, symbols.get r.data = some contents ∧ List.Forall₂ (TypeRef.Spells c b) contents names

/-- What a decoded field holds of the value that was sent. -/
def FieldDecoder.Receives (c : Context) (b : Buffer) (symbols : SymbolHeap) (v : FieldValue)
    (f : Field) : FieldDecoder → Prop
  | type ft | mandatoryType ft => f.ref.Refers c b (v.text ft)
  | primitive ft default => f.value = (v.number ft).getD default ∧ f.isNull = v.isNull
  | mandatoryPrimitive ft => f.value = (v.number ft).getD 0 ∧ f.isNull = false
  | mandatorySaslCode => f.value = (v.number .ubyte).getD 0 ∧ f.isNull = false
  | senderSettleMode default | receiverSettleMode default =>
    f.value = (v.number .ubyte).getD default ∧ f.isNull = v.isNull
  | multipleSymbol | mandatoryMultipleSymbol => f.ref.HasSymbols c b symbols v.names
  | amqpError => f.isNull = true
  | wildcard _ => f.ref = .null

/-! ## Frames -/

/-- The fields of a frame: a value each, or the mechanisms that a server announces. -/
inductive FrameFields
  | scalars (vs : List Scalar)
  | mechanisms (names : List (List UInt8))

namespace FrameFields

/-- The calls of the encoder. -/
def calls : FrameFields → CallTree
  | scalars vs => .leaves (vs.map .scalar)
  | mechanisms names => mechanismsCalls names

/-- The value of field `i`. -/
def value (i : Nat) : FrameFields → FieldValue
  | scalars vs => .scalar (vs.getD i .null)
  | mechanisms [name] => if i = 0 then .scalar (.symbol name) else .scalar .null
  | mechanisms names => if i = 0 then .symbols names else .scalar .null

/-- Every value is well spelled, and the last is no empty text: nothing is behind that, and the decoder
looks for a byte there. The fields are counted in a byte. -/
def WellFormed : FrameFields → Prop
  | scalars vs => vs.length < 256 ∧ (∀ v ∈ vs, v.spelled = true) ∧
      ∀ v, vs.getLast? = some v → v.isEmptyText = false
  | mechanisms names => names ≠ [] ∧ (names.length = 1 ∨ ∀ name ∈ names, name.length ≤ 254) ∧
      ∀ name ∈ names, name ≠ [] ∧ (Scalar.symbol name).spelled = true

end FrameFields

/-- A frame as its sender means it. -/
structure SentFrame where
  performative : Performative
  word : BitVec 16
  fields : FrameFields

namespace SentFrame

def frameType (m : SentFrame) : UInt8 :=
  if m.performative.isSasl then amqpSaslFrameType else amqpFrameType

/-- The calls of the encoder: a list of the fields, described by the performative. -/
def calls (m : SentFrame) : CallTree :=
  .container .described (.leaf (.scalar (.ulong m.performative.descriptor))
    (.container .list8 m.fields.calls .nil)) .nil

def size (m : SentFrame) : Nat := amqpFrameHeaderSize + m.calls.wire.length

def header (m : SentFrame) : List UInt8 :=
  toBigEndian 4 m.size ++ [2, m.frameType] ++ toBigEndian 2 m.word.toNat

/-- The bytes of the frame. -/
def bytes (m : SentFrame) : List UInt8 := m.header ++ m.calls.wire

/-- The frame fits a new buffer, where a container is only begun with 16 bytes to spare, and is decoded as
it was sent. -/
structure WellFormed (m : SentFrame) : Prop where
  room : m.size + 16 ≤ Buffer.amqpBufferFragmentSize
  fields : m.fields.WellFormed
  takes : ∀ (i : Nat) (d : FieldDecoder), m.performative.fields[i]? = some d →
    d.takes (m.fields.value i) = true

/-- A buffer with the bytes of the frame, to be read from the start. -/
structure Arrives (m : SentFrame) (b : Buffer) : Prop where
  index : b.index = 0
  size : b.size = m.size
  bytes : b.bytes 0 b.size = m.bytes

/-- The decoder of the state of a connection in which such a frame is read. -/
def decode (hash : HashFunction) (m : SentFrame) (x : FrameContext) (b : Buffer) : FrameDecoding :=
  if m.performative.isSasl then amqpDecodeSaslFrame hash x b else amqpDecodeAmqpFrame hash x b

/-- The decoded frame says what was sent. -/
structure Received (m : SentFrame) (x : FrameContext) (b : Buffer) (frame : AmqpFrame) : Prop where
  dataOffset : frame.dataOffset = amqpFrameHeaderSize
  frameType : frame.frameType = m.frameType
  word : frame.word = m.word.toNat
  descriptor : frame.descriptor = ⟨0, m.performative.descriptorId, .none⟩
  dispatch : frame.dispatch = some (.performative m.performative)
  fields : ∀ (i : Nat) (d : FieldDecoder), m.performative.fields[i]? = some d →
    d.Receives x.toContext b x.symbols (m.fields.value i) (frame.fields i)

end SentFrame

/-! ## Requests -/

/-- The frames that a connection sends. -/
inductive FrameRequest
  | saslMechanisms
  | saslInit (plugin : SaslPluginInstance)
  | saslOutcome (plugin : Option SaslPluginInstance)
  | amqpOpen
  | amqpClose
  | amqpBegin (session : AmqpSession)

namespace FrameRequest

/-- The encoder of a frame. -/
def encode (connection : EncodingConnection) (x : EncodeContext) : FrameRequest → FrameEncoding
  | saslMechanisms => amqpEncodeSaslMechanismsFrame connection x
  | saslInit plugin => amqpEncodeSaslInitFrame connection plugin x
  | saslOutcome plugin => amqpEncodeSaslOutcomeFrame plugin x
  | amqpOpen => amqpEncodeAmqpOpen connection x
  | amqpClose => amqpEncodeAmqpClose x
  | amqpBegin session => amqpEncodeAmqpBegin session x

/-- What a client identifies itself with, if its plugin can. -/
def initialResponse (identity : SaslIdentity) (plugin : SaslPluginInstance) : Option (List UInt8) :=
  match plugin.initialResponseEncoder with
  | .base => none
  | .plain => identity.login.bind fun login => identity.password.bind fun password =>
      if login.length < 256 ∧ password.length < 256 then some (0 :: login ++ 0 :: password) else none
  | .anonymous => identity.email

/-- What a frame is to say, if there is one to be sent. -/
def frame (connection : EncodingConnection) : FrameRequest → Option SentFrame
  | saslMechanisms =>
    if connection.plugins = [] then none
    else some ⟨.saslMechanisms, 0, .mechanisms (connection.plugins.map (·.mechanismName))⟩
  | saslInit plugin => connection.hostname.bind fun hostname =>
      (initialResponse connection.identityHooks plugin).map fun response =>
        ⟨.saslInit, 0, .scalars [.symbol plugin.mechanismName, .binary response, .string hostname]⟩
  | saslOutcome plugin => some ⟨.saslOutcome, 0, .scalars [.ubyte (outcomeCode plugin)]⟩
  | amqpOpen => some ⟨.amqpOpen, 0, .scalars [.string connection.localContainerId,
      if connection.isClient then .string (amqpConnectionTargetHost connection) else .null,
      .uint connection.maxFrameSize, .ushort connection.channelMax, .uint connection.idleTimeOut]⟩
  | amqpClose => some ⟨.amqpClose, 0, .scalars []⟩
  | amqpBegin session => some ⟨.amqpBegin, session.own.channel, .scalars [
      if session.remoteDefined then .ushort session.remote.channel else .null,
      .uint session.own.nextOutgoingId, .uint session.own.incommingWindow,
      .uint session.own.outgoingWindow, .uint session.own.handleMax]⟩

/-- Why there is none: a server without plugins, a client without a hostname. -/
def failure (connection : EncodingConnection) : FrameRequest → Option ConnectionFailure
  | saslMechanisms =>
    if connection.plugins = [] then some ⟨.saslPluginsRegistered, amqpConnectionSaslError,
      "Cannot construct SASL Mechanisms list. No SASL plugins registered."⟩
    else none
  | saslInit _ =>
    if connection.hostname = none then some ⟨.noHostName, amqpConnectionSaslError,
      "Cannot initialize SASL Init frame. No hostname provided."⟩
    else none
  | _ => none

/-- A C string that is not empty. -/
def IsText (bytes : List UInt8) : Prop := bytes ≠ [] ∧ ∀ x ∈ bytes, x ≠ 0

/-- What makes a frame one that the peer can read: the names of mechanisms are ASCII, and short if there are
more of them than one; texts are C strings, the last one not empty; the outcome is one that there is. -/
def Sound (connection : EncodingConnection) : FrameRequest → Prop
  | saslMechanisms => MechanismNames connection.plugins ∧
      (connection.plugins.length = 1 ∨ ∀ p ∈ connection.plugins, p.mechanismName.length ≤ 254)
  | saslInit plugin => (Scalar.symbol plugin.mechanismName).spelled = true ∧
      ∀ hostname, connection.hostname = some hostname → IsText hostname
  | saslOutcome plugin => (outcomeCode plugin).toNat ≤ amqpSaslCodeTempSystemError
  | amqpOpen => (∀ x ∈ connection.localContainerId, x ≠ 0) ∧
      ∀ x ∈ amqpConnectionTargetHost connection, x ≠ 0
  | amqpClose | amqpBegin _ => True

end FrameRequest
end Amqp
