import LibAmqp.Lib.Bytes
import LibAmqp.Lib.Dispatch

/-!
# The state of a connection (`Transport/Connection/ConnectionState.h`)

A connection is ten state machines. Each has a name and a table of function pointers that is filled
in anew at every transition: with the defaults first, then with the functions of the new state. Where
one machine alone writes a pointer, its state stands for the pointer here; `shutdown`, `timeout` and
`reject` have more than one writer, or are not reset, and are kept as they are.

Memory that is freed keeps its contents: a connection that was accepted is destroyed when it ends,
and the functions that led there still look at it on their way back; and `connect_event_handler` takes
the descriptor from a watcher that it has freed. The results about runs of a connection rest on this
(*kept memory*).
-/

namespace Amqp

open Lib

/-- The ways a connection stops the process. -/
inductive ConnectionFault
  /-- `not_implemented(commence_write_while_writing)` -/
  | writeWhileWriting
  /-- `default_commence_write` -/
  | illegalWrite
  | notImplemented
  /-- `illegal_state` of one of the machines, `amqp_fatal_program_error` -/
  | illegalState
  | illegalProgramState
  | assertFailed
  | abort
  /-- a null pointer was called -/
  | wildPointer
  /-- the bound of the model on the depth of calls -/
  | outOfFuel
  deriving DecidableEq, Repr

/-! ## What goes over the wire -/

/-- `AMQP_PROTOCOL_VERSION`. -/
def protocolVersion (id major minor release : Nat) : Nat :=
  id * 2 ^ 24 + major * 2 ^ 16 + minor * 2 ^ 8 + release

def amqpVersionProtocolId (version : Nat) : Nat := version / 2 ^ 24 % 256

def amqpProtocolId : Nat := 0
def amqpTlsProtocolId : Nat := 2
def amqpSaslProtocolId : Nat := 3

def amqpPreferredVersion : Nat := protocolVersion amqpProtocolId 1 0 0
def amqpTlsPreferredVersion : Nat := protocolVersion amqpTlsProtocolId 1 0 0
def amqpSaslPreferredVersion : Nat := protocolVersion amqpSaslProtocolId 1 0 0

/-- `amqp_negotiator_encode_version`. -/
def encodeVersion (version : Nat) : List UInt8 := [0x41, 0x4d, 0x51, 0x50] ++ toBigEndian 4 version

/-- `amqp_negotiator_decode_version`, from the unread bytes. -/
def decodeVersion : List UInt8 → Nat
  | 0x41 :: 0x4d :: 0x51 :: 0x50 :: id :: major :: minor :: release :: _ =>
    ofBigEndian [id, major, minor, release]
  | _ => 0

@[simp] theorem decodeVersion_take (l : List UInt8) : decodeVersion (l.take 8) = decodeVersion l := by
  fun_cases decodeVersion l with
  | case1 => simp [decodeVersion]
  | case2 l hno =>
    unfold decodeVersion
    split
    · next heq =>
      have hl := List.take_append_drop 8 l
      rw [heq] at hl
      exact (hno _ _ _ _ _ hl.symm).elim
    · rfl

/-- What the handlers look at of a decoded frame: the mechanisms by their names, the outcome's code
and whether it has additional data, whether an open has a hostname and its idle time-out, and whether
a close has an error. -/
inductive PeerFrame
  | saslMechanisms (names : List (List UInt8))
  | saslInit (mechanism : List UInt8)
  | saslChallenge
  | saslResponse
  | saslOutcome (code : Nat) (additionalData : Bool)
  | amqpOpen (hostname : Bool) (idleTimeOut : Nat)
  | amqpBegin | amqpAttach | amqpFlow | amqpTransfer | amqpDisposition | amqpDetach | amqpEnd
  | amqpClose (error : Bool)
  | empty
  deriving DecidableEq, Repr

/-- `amqp_decode_sasl_frame` and `amqp_decode_amqp_frame`: the frame in a buffer, if there is one, and
the read index behind it. -/
structure FrameDecoders where
  sasl : List UInt8 → Option (PeerFrame × Nat)
  amqp : List UInt8 → Option (PeerFrame × Nat)

/-- What is sent. -/
inductive Message
  | header (version : Nat)
  | saslMechanisms | saslInit | saslOutcome | amqpOpen | amqpClose | emptyFrame
  deriving DecidableEq, Repr

/-- What happened: messages that went over the wire (a header is eight bytes), frames that were
released by `amqp_frame_cleanup`, and the end in `connection_halt`. -/
inductive Mark
  | sent (m : Message)
  | receivedHeader (bytes : List UInt8)
  | receivedFrame (f : PeerFrame)
  | released
  | halted
  deriving DecidableEq, Repr

/-! ## SASL plugins -/

/-- The results of `amqp_sasl_plugin_initial_response_handle`. -/
inductive HandlerResult
  | frameProcessError | failed | challenge | outcomeAccepted | outcomeRejected
  deriving DecidableEq, Repr

/-- A registered plugin. Its functions may be those of the base plugin, which are not implemented:
`encodes` for the initial response of a client, `handles` for that of a server. -/
structure SaslPlugin where
  mechanismName : List UInt8
  encodes : Bool
  handles : Option HandlerResult
  deriving DecidableEq, Repr

/-! ## The machines -/

inductive ConnectionState
  | initialized | connectingSocket | connectingTls | connectingSasl | connectingAmqp
  | amqpTunnelEstablished
  | waitingOnClientNegotiationRequest | acceptingTls | waitingOnTlsTunnelledRequest | acceptingSasl
  | waitingOnAmqpNegotiationRequest | acceptingAmqp | tunnelAccepted | sendingErrorMessage
  | stoppingOutput | drainingInput | stopping | stopped | failed | timeout
  deriving DecidableEq, Repr

/-- The states of a connection that comes to its end. -/
def ConnectionState.Down : ConnectionState → Prop
  | .stoppingOutput | .drainingInput | .stopping | .stopped | .failed | .timeout => True
  | _ => False

instance : DecidablePred ConnectionState.Down
  | .stoppingOutput | .drainingInput | .stopping | .stopped | .failed | .timeout => .isTrue trivial
  | .initialized | .connectingSocket | .connectingTls | .connectingSasl | .connectingAmqp
  | .amqpTunnelEstablished | .waitingOnClientNegotiationRequest | .acceptingTls
  | .waitingOnTlsTunnelledRequest | .acceptingSasl | .waitingOnAmqpNegotiationRequest | .acceptingAmqp
  | .tunnelAccepted | .sendingErrorMessage => .isFalse id

inductive SocketState
  | initialized | resolving | abortingLookup | connecting | connected | stopped | failed | accepted
  deriving DecidableEq, Repr

inductive WriterState
  | initialized | enabled | writing | stopping | stopped | failed
  deriving DecidableEq, Repr

inductive ReaderState
  | initialized | enabled | reading | eof | eofAlerted | stopped | failed
  deriving DecidableEq, Repr

inductive NegotiatorState
  | initialized | waitingForBrokerResponse | waitingOnClientRequest | waitingToSendServerResponse
  | negotiated | failed | rejected
  deriving DecidableEq, Repr

inductive SaslState
  | initialized | waitingOnSaslMechanisms | waitingOnSaslChallengeOrOutcome | sendingHeaderResponse
  | waitingOnSaslInitialResponseFrame | waitingOnSaslChallengeResponseFrame | negotiated | failed
  deriving DecidableEq, Repr

inductive AmqpTunnelState
  | initialized | sendingHeaderResponse | negotiated | failed
  deriving DecidableEq, Repr

inductive AmqpState
  | initialized | openSent | waitingForOpenFrame | opened | closeSent | closed
  deriving DecidableEq, Repr

inductive FrameReaderState
  | initialized | enabled | readingFrameHeader | readingFrameBody
  deriving DecidableEq, Repr

/-! ## Function pointers with more than one writer -/

/-- `state.connection.shutdown`. -/
inductive ShutdownAction
  | default | doNothing | applicationCloseWhileOpened | shutdownWhileInProgress
  deriving DecidableEq, Repr

/-- `state.connection.timeout`. -/
inductive TimeoutAction
  | default | whileStoppingOutput | whileDrainingInput | whileOpened | whileCloseSent | whileClosed
  deriving DecidableEq, Repr

/-- `state.connection.mode.server.reject`; it is null at first. -/
inductive RejectAction
  | whileAcceptingTls | whileAcceptingSasl | whileAcceptingAmqp
  deriving DecidableEq, Repr

/-- `io.read.read_callback`. -/
inductive ReadCallback
  | negotiator | frameReader | connection
  deriving DecidableEq, Repr

/-- `io.frame.frame_available_callback`. -/
inductive FrameCallback
  | sasl | amqp | discard
  deriving DecidableEq, Repr

/-- `data.handshake.callbacks.confirm`. -/
inductive ConfirmCallback
  | tlsVersionAccepted | saslVersionAccepted | amqpVersionAccepted
  | saslBrokerVersionSent | amqpDone | connectionDone
  deriving DecidableEq, Repr

/-- `data.handshake.callbacks.reject`. -/
inductive RejectCallback
  | tlsVersionRejected | saslVersionRejected | amqpVersionRejected
  deriving DecidableEq, Repr

/-! ## Protocols and shutdown modes -/

/-- The bits of `protocols`. -/
structure Protocols where
  tls : Bool
  sasl : Bool
  amqp : Bool
  deriving DecidableEq, Repr

/-- `amqp_cs_shutdown_mode_t`: 2 to 5. -/
inductive ShutdownMode
  | completeWriteDrainInputAndCloseSocket | completeWriteAndCloseSocket | closeSocket | abortSocket
  deriving DecidableEq, Repr

/-- `data.shutdown.mode` lies over `data.handshake.protocols`. -/
def ShutdownMode.toProtocols : ShutdownMode → Protocols
  | completeWriteDrainInputAndCloseSocket => ⟨false, true, false⟩
  | completeWriteAndCloseSocket => ⟨false, true, true⟩
  | closeSocket => ⟨true, false, false⟩
  | abortSocket => ⟨true, false, true⟩

def Protocols.mode : Protocols → Option ShutdownMode
  | ⟨false, true, false⟩ => some .completeWriteDrainInputAndCloseSocket
  | ⟨false, true, true⟩ => some .completeWriteAndCloseSocket
  | ⟨true, false, false⟩ => some .closeSocket
  | ⟨true, false, true⟩ => some .abortSocket
  | _ => none

@[simp] theorem ShutdownMode.mode_toProtocols (m : ShutdownMode) : m.toProtocols.mode = some m := by
  cases m <;> rfl

/-! ## System calls -/

/-- What became of a buffer that is written: `sendmsg` took all of it, would block, or failed. -/
inductive WriteResult
  | complete | again | error
  deriving DecidableEq, Repr

/-- What became of a read that was tried: it would block, the peer closed or reset the connection
(after some but not all of the bytes, or before the first), or `readv` failed. -/
inductive ReadResult
  | again | eof (isPartial : Bool) | error
  deriving DecidableEq, Repr

/-- What became of an address: no socket, a refused connection, a connection, or one in progress. -/
inductive ConnectResult
  | noSocket | refused | connected | inProgress
  deriving DecidableEq, Repr

/-! ## Connections -/

/-- `amqp_connection_t`. `plugins` are those of the context, `accepted` is whether there are accept
handler arguments, `buffer` and `readIndex` are `buffer.read`. The last four members are not in the
source: what the system calls of the current step return (when a list is used up, writes complete,
reads would block and connections are in progress), and what happened. -/
structure Connection where
  protocols : Protocols
  requiredTls : Nat
  requiredSasl : Nat
  requiredAmqp : Nat
  maxFrameSize : Nat
  idleTimeOut : Nat
  plugins : List SaslPlugin
  accepted : Bool
  name : ConnectionState
  shutdown : ShutdownAction
  timeout : TimeoutAction
  reject : Option RejectAction
  socket : SocketState
  writer : WriterState
  reader : ReaderState
  negotiator : NegotiatorState
  sasl : SaslState
  amqpTunnel : AmqpTunnelState
  amqp : AmqpState
  frameReader : FrameReaderState
  /-- `data.handshake.protocols`, or `data.shutdown.mode` -/
  handshake : Protocols
  preferredVersion : Nat
  confirm : Option ConfirmCallback
  rejectCallback : Option RejectCallback
  request : Bool
  hostname : Bool
  addresses : Nat
  connectWatcher : Bool
  stoppedCallback : Bool
  readCallback : Option ReadCallback
  /-- `io.read.buffer` is not null -/
  readQueued : Bool
  required : Nat
  buffer : List UInt8
  readIndex : Nat
  frameCallback : Option FrameCallback
  frameSize : Nat
  plugin : Option SaslPlugin
  isClient : Bool
  saslConnected : Bool
  timer : Bool
  destroyed : Bool
  writes : List WriteResult
  reads : List ReadResult
  connects : List ConnectResult
  trace : List Mark

/-- The end of the process: its cause, and what had happened by then. -/
structure Crash where
  fault : ConnectionFault
  trace : List Mark
  deriving DecidableEq, Repr

/-- What a function does to a connection. -/
abbrev Outcome := Except Crash Connection

def Connection.crash {α : Type} (c : Connection) (fault : ConnectionFault) : Except Crash α :=
  .error ⟨fault, c.trace⟩

/-- `create_connection`: everything but the machines. -/
def Connection.create (protocols : Protocols) (maxFrameSize idleTimeOut : Nat)
    (plugins : List SaslPlugin) (accepted : Bool) : Connection where
  protocols := protocols
  requiredTls := amqpTlsPreferredVersion
  requiredSasl := amqpSaslPreferredVersion
  requiredAmqp := amqpPreferredVersion
  maxFrameSize := max maxFrameSize 512
  idleTimeOut := idleTimeOut
  plugins := plugins
  accepted := accepted
  name := .initialized
  shutdown := .default
  timeout := .default
  reject := none
  socket := .initialized
  writer := .initialized
  reader := .initialized
  negotiator := .initialized
  sasl := .initialized
  amqpTunnel := .initialized
  amqp := .initialized
  frameReader := .initialized
  handshake := ⟨false, false, false⟩
  preferredVersion := 0
  confirm := none
  rejectCallback := none
  request := false
  hostname := false
  addresses := 0
  connectWatcher := false
  stoppedCallback := false
  readCallback := none
  readQueued := false
  required := 0
  buffer := []
  readIndex := 0
  frameCallback := none
  frameSize := 0
  plugin := none
  isClient := false
  saslConnected := false
  timer := false
  destroyed := false
  writes := []
  reads := []
  connects := []
  trace := []

/-! ## Calls -/

/-- The calls that are made through a function pointer. -/
inductive Action
  | connectionConnect (lookup : Option Nat)
  | connectionBegin (version : Nat)
  | connectionReject (version : Nat)
  | connectionDone
  | connectionFail
  | connectionShutdown
  | connectionTimeout (readIdle writeIdle : Bool)
  | shutdownDrain
  | shutdownClose
  | socketConnect (lookup : Option Nat)
  | socketTryConnect
  | socketDone
  | socketFail
  | socketShutdown
  | writerEnable
  | writerWrite (m : Message)
  | writerContinue
  | writerComplete
  | writerStop
  | writerAbort
  | writerFail
  | readerEnable
  | readerCommence (required : Nat) (callback : ReadCallback)
  | readerReset
  | readerDelayed
  | readerStop
  | readerFail
  /-- `read_callback(connection, buffer, amount)`; `buffer` is whether it is not null -/
  | readDone (callback : ReadCallback) (buffer : Bool) (amount : Nat)
  | negotiatorStart (version : Nat) (confirm : ConfirmCallback) (reject : RejectCallback)
  | negotiatorWait
  | negotiatorSend (version : Nat) (confirm : ConfirmCallback)
  | negotiatorReset
  | confirmCallback
  | rejectCallback (version : Nat)
  | requestCallback (version : Nat)
  | tlsConnect
  | tlsAccept (version : Nat)
  | saslConnect
  | saslAccept (version : Nat)
  | saslDone
  | tunnelConnect
  | tunnelAccept (version : Nat)
  | tunnelDone
  | amqpSendOpen
  | amqpWaitOnOpen
  | frameEnable
  | frameRead (callback : FrameCallback)
  | frameAvailable
  /-- `frame->dispatch(connection, frame)` -/
  | frameDispatch (f : PeerFrame)

abbrev Calls := Call Action Connection Crash

end Amqp
