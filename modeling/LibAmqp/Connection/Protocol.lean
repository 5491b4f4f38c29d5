import LibAmqp.Connection.State

/-!
# Negotiation, tunnels and frames (`Transport/Connection`, `Transport/Sasl`, `Transport/Amqp`)

The machines that a connection goes through one after the other: the negotiator of protocol headers,
the TLS, SASL and AMQP tunnels, the frame reader and the AMQP connection proper. Frames are encoded
without failing, except the SASL frames of a connection without a hostname or without plugins.
-/

namespace Amqp

open Lib

variable (call : Calls)

/-- `amqp_connection_failed`. -/
def amqpConnectionFailed (c : Connection) : Outcome := call .connectionFail c

/-- `amqp_frame_cleanup`. -/
def Connection.frameCleanup (c : Connection) : Connection := { c with trace := c.trace ++ [.released] }

/-- `amqp_buffer_reset` of `buffer.read`. -/
def Connection.resetBuffer (c : Connection) : Connection := { c with buffer := [], readIndex := 0 }

def amqpFrameHeaderSizeInBytes : Nat := 8

/-! ## Negotiator (`ConnectionNegotiation.c`) -/

namespace Negotiator

/-- `write_version`. -/
def writeVersion (version : Nat) (c : Connection) : Outcome := call (.writerWrite (.header version)) c

def startWhileInitialized (version : Nat) (confirm : ConfirmCallback) (reject : RejectCallback)
    (c : Connection) : Outcome := do
  let c ← writeVersion call version { c with
    preferredVersion := version, confirm := some confirm, rejectCallback := some reject,
    request := false }
  let c := { c with negotiator := .waitingForBrokerResponse }.resetBuffer
  call (.readerCommence amqpFrameHeaderSizeInBytes .negotiator) c

/-- `wait_while_initialized`: the buffer is not reset. -/
def waitWhileInitialized (c : Connection) : Outcome :=
  call (.readerCommence amqpFrameHeaderSizeInBytes .negotiator) { c with
    negotiator := .waitingOnClientRequest, preferredVersion := 0, confirm := none,
    rejectCallback := none, request := true }

/-- The version in the buffer, 0 if there is no header. -/
def announcedVersion (c : Connection) : Nat := decodeVersion (c.buffer.drop c.readIndex)

/-- The header is read; the read index behind one that is none is not used again. -/
def consumeHeader (c : Connection) : Connection := { c with
  readIndex := c.readIndex + 8
  trace := c.trace ++ [.receivedHeader ((c.buffer.drop c.readIndex).take 8)] }

def readDoneWhileWaitingForBrokerResponse (buffer : Bool) (amount : Nat) (c : Connection) : Outcome :=
  if !buffer then c.crash .assertFailed
  else if amount = 0 then call .connectionShutdown { c with negotiator := .failed }
  else if announcedVersion c = c.preferredVersion then
    call .confirmCallback { consumeHeader c with negotiator := .negotiated }
  else call (.rejectCallback (announcedVersion c)) { consumeHeader c with negotiator := .rejected }

def readDoneWhileWaitingOnClientRequest (buffer : Bool) (amount : Nat) (c : Connection) : Outcome :=
  if !buffer then c.crash .assertFailed
  else if amount = 0 then call .connectionShutdown { c with negotiator := .failed }
  else call (.requestCallback (announcedVersion c)) { consumeHeader c with
    negotiator := .waitingToSendServerResponse }

def sendWhileWaitingToSendServerResponse (version : Nat) (confirm : ConfirmCallback) (c : Connection) :
    Outcome := do
  let c ← writeVersion call version { c with
    preferredVersion := version, confirm := some confirm, rejectCallback := none, request := false }
  call .confirmCallback { c with negotiator := .negotiated }

def start (version : Nat) (confirm : ConfirmCallback) (reject : RejectCallback) (c : Connection) :
    Outcome :=
  match c.negotiator with
  | .initialized => startWhileInitialized call version confirm reject c
  | _ => c.crash .illegalState

def wait (c : Connection) : Outcome :=
  match c.negotiator with
  | .initialized => waitWhileInitialized call c
  | _ => c.crash .illegalState

def send (version : Nat) (confirm : ConfirmCallback) (c : Connection) : Outcome :=
  match c.negotiator with
  | .waitingToSendServerResponse => sendWhileWaitingToSendServerResponse call version confirm c
  | _ => c.crash .illegalState

def readDone (buffer : Bool) (amount : Nat) (c : Connection) : Outcome :=
  match c.negotiator with
  | .waitingForBrokerResponse => readDoneWhileWaitingForBrokerResponse call buffer amount c
  | .waitingOnClientRequest => readDoneWhileWaitingOnClientRequest call buffer amount c
  | _ => c.crash .illegalState

def reset (c : Connection) : Outcome :=
  match c.negotiator with
  | .initialized => .ok c
  | .negotiated => .ok { c with negotiator := .initialized }
  | _ => c.crash .illegalState

end Negotiator

/-! ## TLS (`ConnectionTls.c`) -/

namespace Tls

def connect (c : Connection) : Outcome :=
  call (.negotiatorStart c.requiredTls .tlsVersionAccepted .tlsVersionRejected) c

def accept (_ : Nat) (c : Connection) : Outcome := c.crash .notImplemented

end Tls

/-! ## Frame reader (`ConnectionFrameReader.c`) -/

namespace FrameReader

/-- The first four bytes of a protocol header, as a frame size. -/
def amqpProtocolHeader : Nat := ofBigEndian [0x41, 0x4d, 0x51, 0x50]

/-- `amqp_buffer_read_uint32(buffer, 0)`. -/
def announcedSize (c : Connection) : Nat := ofBigEndian (c.buffer.take 4)

def readWhileEnabled (callback : FrameCallback) (c : Connection) : Outcome :=
  call (.readerCommence amqpFrameHeaderSizeInBytes .frameReader) { c.resetBuffer with
    frameReader := .readingFrameHeader, frameCallback := some callback }

def readDoneWhileReadingFrameHeader (amount : Nat) (c : Connection) : Outcome :=
  if amount = 0 then call .connectionShutdown c
  else if amount ≠ amqpFrameHeaderSizeInBytes then amqpConnectionFailed call c
  else
    let frameSize := announcedSize c
    let c := { c with frameSize := frameSize }
    if c.maxFrameSize ≤ frameSize ∨ frameSize < amqpFrameHeaderSizeInBytes ∨
        frameSize = amqpProtocolHeader then amqpConnectionFailed call c
    else if frameSize = amqpFrameHeaderSizeInBytes then
      call .frameAvailable { c with frameReader := .enabled }
    else call (.readerCommence (frameSize - amqpFrameHeaderSizeInBytes) .frameReader) { c with
      frameReader := .readingFrameBody }

def readDoneWhileReadingFrameBody (amount : Nat) (c : Connection) : Outcome :=
  if amount ≠ c.frameSize - amqpFrameHeaderSizeInBytes then amqpConnectionFailed call c
  else call .frameAvailable { c with frameReader := .enabled }

/-- The default does nothing. -/
def enable (c : Connection) : Outcome :=
  match c.frameReader with
  | .initialized => .ok { c with frameReader := .enabled }
  | _ => .ok c

/-- While a frame is being read no other is started. -/
def read (callback : FrameCallback) (c : Connection) : Outcome :=
  match c.frameReader with
  | .initialized => c.crash .illegalState
  | .enabled => readWhileEnabled call callback c
  | .readingFrameHeader | .readingFrameBody => .ok c

def readDone (amount : Nat) (c : Connection) : Outcome :=
  match c.frameReader with
  | .readingFrameHeader => readDoneWhileReadingFrameHeader call amount c
  | .readingFrameBody => readDoneWhileReadingFrameBody call amount c
  | _ => c.crash .illegalState

end FrameReader

/-! ## SASL (`ConnectionSasl.c`, `ClientSasl.c`, `ServerSasl.c`, `SaslMechanisms.c`) -/

namespace Sasl

/-- `amqp_context_lookup_sasl_plugin`. -/
def lookupSaslPlugin (c : Connection) (mechanism : List UInt8) : Option SaslPlugin :=
  c.plugins.find? fun p => p.mechanismName == mechanism

/-- `amqp_sasl_select_mechanism`. -/
def selectMechanism (c : Connection) (names : List (List UInt8)) : Option SaslPlugin :=
  names.findSome? (lookupSaslPlugin c)

/-- `received_out_of_sequence_sasl_frame`. -/
def receivedOutOfSequenceSaslFrame (c : Connection) : Outcome :=
  call .connectionFail c.frameCleanup

/-- `frame_available_callback`. -/
def frameAvailable (d : FrameDecoders) (c : Connection) : Outcome :=
  match d.sasl c.buffer with
  | some (f, i) => call (.frameDispatch f) { c with
      readIndex := i, trace := c.trace ++ [.receivedFrame f] }
  | none => amqpConnectionFailed call c

/-- `sasl_version_accepted_callback`. -/
def versionAccepted (c : Connection) : Outcome := do
  let c ← call .frameEnable { c with sasl := .waitingOnSaslMechanisms }
  call (.frameRead .sasl) c

/-- `sasl_version_rejected_callback`. -/
def versionRejected (_ : Nat) (c : Connection) : Outcome :=
  call .connectionFail { c with sasl := .failed }

def connectWhileInitialized (c : Connection) : Outcome := do
  let c ← call .negotiatorReset c
  call (.negotiatorStart c.requiredSasl .saslVersionAccepted .saslVersionRejected) c

def acceptWhileInitialized (version : Nat) (c : Connection) : Outcome :=
  if amqpVersionProtocolId version ≠ amqpSaslProtocolId then c.crash .assertFailed
  else if version ≠ c.requiredSasl then
    call (.connectionReject c.requiredSasl) { c with sasl := .failed }
  else call (.negotiatorSend c.requiredSasl .saslBrokerVersionSent) { c with
    sasl := .sendingHeaderResponse }

/-- `amqp_sasl_process_mechanisms_frame`: the init frame needs a hostname. -/
def processMechanismsFrame (names : List (List UInt8)) (c : Connection) :
    Except Crash (Bool × Connection) :=
  match selectMechanism c names with
  | some plugin =>
    let c := { c with plugin := some plugin }
    if !c.hostname then do .ok (false, ← amqpConnectionFailed call c)
    else if !plugin.encodes then c.crash .notImplemented
    else do .ok (true, ← call (.writerWrite .saslInit) c)
  | none => do .ok (false, ← amqpConnectionFailed call c)

def receivedSaslMechanismsFrame (names : List (List UInt8)) (c : Connection) : Outcome := do
  let (rc, c) ← processMechanismsFrame call names c
  let c := c.frameCleanup
  if rc then call (.frameRead .sasl) { c with sasl := .waitingOnSaslChallengeOrOutcome } else .ok c

/-- `amqp_sasl_code_ok`. -/
def amqpSaslCodeOk : Nat := 0

/-- `amqp_sasl_process_outcome_frame`, by the outcome handler that all plugins have. -/
def receivedSaslOutcomeFrame (code : Nat) (additionalData : Bool) (c : Connection) : Outcome :=
  if c.plugin.isNone then c.crash .assertFailed
  else if !additionalData && code == amqpSaslCodeOk then
    call .connectionDone { c.frameCleanup with sasl := .negotiated }
  else .ok c.frameCleanup

/-- `done_while_sending_header_response`: without plugins there is no mechanisms frame. -/
def doneWhileSendingHeaderResponse (c : Connection) : Outcome :=
  if c.plugins.isEmpty then amqpConnectionFailed call c
  else do
    let c ← call (.writerWrite .saslMechanisms) c
    let c ← call .frameEnable { c with sasl := .waitingOnSaslInitialResponseFrame }
    call (.frameRead .sasl) c

/-- `amqp_sasl_process_init_frame`. -/
def processInitFrame (mechanism : List UInt8) (c : Connection) :
    Except Crash (HandlerResult × Connection) :=
  match lookupSaslPlugin c mechanism with
  | none => do .ok (.failed, ← amqpConnectionFailed call c)
  | some plugin =>
    match plugin.handles with
    | some .outcomeAccepted => do
      .ok (.outcomeAccepted, ← call (.writerWrite .saslOutcome) { c with plugin := some plugin })
    | some .frameProcessError => c.crash .abort
    | _ => c.crash .notImplemented

def receivedSaslInitialResponseFrame (mechanism : List UInt8) (c : Connection) : Outcome := do
  let (rc, c) ← processInitFrame call mechanism c
  let c := c.frameCleanup
  match rc with
  | .frameProcessError => .ok c
  | .outcomeAccepted => call .connectionDone { c with sasl := .negotiated }
  | .challenge | .outcomeRejected | .failed => c.crash .notImplemented

def connect (c : Connection) : Outcome :=
  match c.sasl with
  | .initialized => connectWhileInitialized call c
  | _ => c.crash .illegalState

def accept (version : Nat) (c : Connection) : Outcome :=
  match c.sasl with
  | .initialized => acceptWhileInitialized call version c
  | _ => c.crash .illegalState

def done (c : Connection) : Outcome :=
  match c.sasl with
  | .sendingHeaderResponse => doneWhileSendingHeaderResponse call c
  | _ => c.crash .illegalState

def mechanismsFrame (names : List (List UInt8)) (c : Connection) : Outcome :=
  match c.sasl with
  | .waitingOnSaslMechanisms => receivedSaslMechanismsFrame call names c
  | _ => receivedOutOfSequenceSaslFrame call c

def initFrame (mechanism : List UInt8) (c : Connection) : Outcome :=
  match c.sasl with
  | .waitingOnSaslInitialResponseFrame => receivedSaslInitialResponseFrame call mechanism c
  | .waitingOnSaslChallengeResponseFrame => c.crash .notImplemented
  | _ => receivedOutOfSequenceSaslFrame call c

def challengeFrame (c : Connection) : Outcome :=
  match c.sasl with
  | .waitingOnSaslChallengeOrOutcome => c.crash .notImplemented
  | _ => receivedOutOfSequenceSaslFrame call c

def outcomeFrame (code : Nat) (additionalData : Bool) (c : Connection) : Outcome :=
  match c.sasl with
  | .waitingOnSaslChallengeOrOutcome => receivedSaslOutcomeFrame call code additionalData c
  | _ => receivedOutOfSequenceSaslFrame call c

end Sasl

/-! ## AMQP tunnel (`ConnectionAmqpTunnel.c`) -/

namespace AmqpTunnel

def versionAccepted (c : Connection) : Outcome := call .connectionDone { c with amqpTunnel := .negotiated }

def versionRejected (_ : Nat) (c : Connection) : Outcome :=
  call .connectionFail { c with amqpTunnel := .failed }

def connectWhileInitialized (c : Connection) : Outcome := do
  let c ← call .negotiatorReset c
  call (.negotiatorStart c.requiredAmqp .amqpVersionAccepted .amqpVersionRejected) c

def acceptWhileInitialized (version : Nat) (c : Connection) : Outcome :=
  if amqpVersionProtocolId version ≠ amqpProtocolId then c.crash .assertFailed
  else if version ≠ c.requiredAmqp then
    call (.connectionReject c.requiredAmqp) { c with amqpTunnel := .failed }
  else call (.negotiatorSend c.requiredAmqp .amqpDone) { c with amqpTunnel := .sendingHeaderResponse }

def connect (c : Connection) : Outcome :=
  match c.amqpTunnel with
  | .initialized => connectWhileInitialized call c
  | _ => c.crash .illegalState

def accept (version : Nat) (c : Connection) : Outcome :=
  match c.amqpTunnel with
  | .initialized => acceptWhileInitialized call version c
  | _ => c.crash .illegalState

def done (c : Connection) : Outcome :=
  match c.amqpTunnel with
  | .sendingHeaderResponse => call .connectionDone { c with amqpTunnel := .negotiated }
  | _ => c.crash .illegalState

end AmqpTunnel

/-! ## AMQP (`ConnectionAmqp.c`, `AmqpFrames.c`) -/

namespace AmqpConnection

/-- `amqp_received_out_of_sequence_frame`. -/
def receivedOutOfSequenceFrame (c : Connection) : Outcome := call .connectionShutdown c.frameCleanup

/-- `frame_available_callback`. -/
def frameAvailable (d : FrameDecoders) (c : Connection) : Outcome :=
  match d.amqp c.buffer with
  | some (f, i) => call (.frameDispatch f) { c with
      readIndex := i, trace := c.trace ++ [.receivedFrame f] }
  | none => call .connectionShutdown c

def readFrame (c : Connection) : Outcome := call (.frameRead .amqp) c

/-! Transitions: these set pointers of the connection as well. -/

def transitionToOpened (c : Connection) : Connection :=
  { c with amqp := .opened, shutdown := .applicationCloseWhileOpened, timeout := .whileOpened }

def transitionToCloseSent (c : Connection) : Connection :=
  { c with amqp := .closeSent, shutdown := .shutdownWhileInProgress, timeout := .whileCloseSent }

def transitionToClosed (c : Connection) : Connection :=
  { c with amqp := .closed, shutdown := .shutdownWhileInProgress, timeout := .whileClosed }

def sendOpenWhileInitialized (c : Connection) : Outcome := do
  let c ← call (.writerWrite .amqpOpen) c
  let c ← call .frameEnable { c with amqp := .openSent }
  readFrame call c

def waitOnOpenWhileInitialized (c : Connection) : Outcome := do
  let c ← call .frameEnable { c with amqp := .waitingForOpenFrame }
  readFrame call c

/-- `connection_opened`: the timer runs if both idle time-outs are there. -/
def connectionOpened (remoteIdleTimeOut : Nat) (c : Connection) : Outcome :=
  readFrame call { transitionToOpened c with timer := c.idleTimeOut != 0 && remoteIdleTimeOut != 0 }

def openReceivedAfterOpenSent (idleTimeOut : Nat) (c : Connection) : Outcome :=
  if !c.isClient then c.crash .assertFailed else connectionOpened call idleTimeOut c.frameCleanup

/-- `open_received_while_waiting_for_open_frame`: the test of whether the open was sent has no
effect. -/
def openReceivedWhileWaitingForOpenFrame (hostname : Bool) (idleTimeOut : Nat) (c : Connection) :
    Outcome :=
  if c.isClient then c.crash .assertFailed
  else if !hostname then c.crash .notImplemented
  else do
    let c ← call (.writerWrite .amqpOpen) c.frameCleanup
    connectionOpened call idleTimeOut c

def beginConnectionClose (c : Connection) : Outcome := do
  let c ← call (.writerWrite .amqpClose) c
  readFrame call (transitionToCloseSent { c with timer := true })

/-- `timeout_expired_while_opened`: nothing was read, or written, for too long. -/
def timeoutExpiredWhileOpened (readIdle writeIdle : Bool) (c : Connection) : Outcome :=
  if readIdle then beginConnectionClose call c
  else if writeIdle then call (.writerWrite .emptyFrame) c
  else .ok c

/-- `amqp_process_close_frame`, by `process_frame`. -/
def processCloseFrame (error : Bool) (c : Connection) : Outcome :=
  if error then c.crash .notImplemented else .ok c.frameCleanup

def receivedCloseWhileOpened (error : Bool) (c : Connection) : Outcome := do
  let c ← processCloseFrame error (transitionToClosed { c with timer := true })
  let c ← call (.frameRead .discard) c
  let c ← call (.writerWrite .amqpClose) c
  call .shutdownDrain c

def receivedCloseAfterCloseSent (error : Bool) (c : Connection) : Outcome := do
  let c ← processCloseFrame error c
  call .shutdownDrain (transitionToClosed c)

def timeoutExpiryWhileCloseSent (c : Connection) : Outcome :=
  call .shutdownDrain (transitionToClosed c)

def timeoutExpiryWhileClosed (c : Connection) : Outcome := call .shutdownClose c

def sendOpen (c : Connection) : Outcome :=
  match c.amqp with
  | .initialized => sendOpenWhileInitialized call c
  | _ => c.crash .illegalState

def waitOnOpen (c : Connection) : Outcome :=
  match c.amqp with
  | .initialized => waitOnOpenWhileInitialized call c
  | _ => c.crash .illegalState

def openFrame (hostname : Bool) (idleTimeOut : Nat) (c : Connection) : Outcome :=
  match c.amqp with
  | .openSent => openReceivedAfterOpenSent call idleTimeOut c
  | .waitingForOpenFrame => openReceivedWhileWaitingForOpenFrame call hostname idleTimeOut c
  | _ => receivedOutOfSequenceFrame call c

def closeFrame (error : Bool) (c : Connection) : Outcome :=
  match c.amqp with
  | .opened => receivedCloseWhileOpened call error c
  | .closeSent => receivedCloseAfterCloseSent call error c
  | _ => receivedOutOfSequenceFrame call c

/-- `keep_alive_while_open_sent` and `keep_alive_while_opened`: the frame is not released. -/
def emptyFrame (c : Connection) : Outcome :=
  match c.amqp with
  | .openSent | .opened => readFrame call c
  | _ => receivedOutOfSequenceFrame call c

end AmqpConnection

/-! ## Dispatch of frames (`FrameDisplatch.c`) -/

/-- A frame goes to the machine of its performative, whichever machine read it. -/
def PeerFrame.dispatch (c : Connection) : PeerFrame → Outcome
  | saslMechanisms names => Sasl.mechanismsFrame call names c
  | saslInit mechanism => Sasl.initFrame call mechanism c
  | saslChallenge => Sasl.challengeFrame call c
  | saslResponse => Sasl.receivedOutOfSequenceSaslFrame call c
  | saslOutcome code additionalData => Sasl.outcomeFrame call code additionalData c
  | amqpOpen hostname idleTimeOut => AmqpConnection.openFrame call hostname idleTimeOut c
  | amqpClose error => AmqpConnection.closeFrame call error c
  | empty => AmqpConnection.emptyFrame call c
  | amqpBegin | amqpAttach | amqpFlow | amqpTransfer | amqpDisposition | amqpDetach | amqpEnd =>
    AmqpConnection.receivedOutOfSequenceFrame call c

/-- `discard_frame_after_close_received` and the callbacks of the tunnels. -/
def FrameCallback.available (d : FrameDecoders) (c : Connection) : FrameCallback → Outcome
  | sasl => Sasl.frameAvailable call d c
  | amqp => AmqpConnection.frameAvailable call d c
  | discard => call (.frameRead .discard) c

end Amqp
