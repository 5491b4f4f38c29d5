import LibAmqp.Connection.IO
import LibAmqp.Connection.Protocol

/-!
# The connection machine (`ConnectionState.c`, `ConnectionStateClient.c`, `ConnectionStateServer.c`)

The machine that drives the others. The pointers that one state alone fills in (`done`, `fail`,
`begin`, `connect`, `shutdown.drain`) are chosen by the name of the state.
-/

namespace Amqp

open Lib

variable (call : Calls)

namespace Machine

/-- `transition_to_state`: the defaults, then the pointers of the state. A pointer to reject with is
not reset, since no connection has the flag `AMQP_CONNECTION_SOCKET_ACCEPTED`. -/
def transitionTo (name : ConnectionState) (c : Connection) : Connection := { c with
  name := name
  shutdown := match name with
    | .stopped | .failed | .timeout => .doNothing
    | _ => .default
  timeout := match name with
    | .stoppingOutput => .whileStoppingOutput
    | .drainingInput => .whileDrainingInput
    | _ => .default
  reject := match name with
    | .acceptingTls => some .whileAcceptingTls
    | .acceptingSasl => some .whileAcceptingSasl
    | .acceptingAmqp => some .whileAcceptingAmqp
    | _ => c.reject }

/-- `amqp_connection_enable_io`. -/
def enableIo (c : Connection) : Outcome := do
  let c ← call .readerEnable c
  call .writerEnable c

/-! ## Shutdown -/

/-- `connection_halt`: an accepted connection is destroyed. -/
def connectionHalt (c : Connection) : Connection := { c with
  timer := false
  destroyed := c.destroyed || c.accepted
  trace := c.trace ++ [.halted] }

/-- `stop_activity`. -/
def stopActivity (c : Connection) : Outcome := do
  let c ← call .writerAbort c
  let c ← call .readerStop c
  call .socketShutdown c

/-- The last steps of a connection whose output is stopped. -/
def stopInput (c : Connection) : Outcome := do
  let c ← call .readerStop (transitionTo .stopping c)
  call .socketShutdown c

/-- `shutdown_connection`. -/
def shutdownConnection (mode : ShutdownMode) (c : Connection) : Outcome :=
  let c := { c with handshake := mode.toProtocols }
  match mode with
  | .completeWriteDrainInputAndCloseSocket | .completeWriteAndCloseSocket =>
    call .writerStop (transitionTo .stoppingOutput { c with timer := true })
  | .closeSocket | .abortSocket => stopActivity call (transitionTo .stopping c)

/-- The transition to `draining_input`, and the next read of what is to be drained. -/
def drainInput (c : Connection) : Connection := (transitionTo .drainingInput c).resetBuffer

def doneWhileStoppingOutput (c : Connection) : Outcome :=
  match c.handshake.mode with
  | some .completeWriteDrainInputAndCloseSocket => do
    let c ← call .readerReset (drainInput { c with timer := true })
    call (.readerCommence Reader.capacity .connection) c
  | some .completeWriteAndCloseSocket => stopInput call c
  | _ => c.crash .illegalProgramState

/-- `timeout_while_stopping_output` and `timeout_while_draining_input`. -/
def timeoutWhileShuttingDown (c : Connection) : Outcome := stopActivity call (transitionTo .timeout c)

/-- `read_done_while_draining_input`, behind `read_complete_callback`. -/
def readDoneWhileDrainingInput (buffer : Bool) (amount : Nat) (c : Connection) : Outcome :=
  if !buffer then c.crash .assertFailed
  else if 0 < amount then call (.readerCommence Reader.capacity .connection) (drainInput c)
  else stopInput call c

def doneWhileStopping (c : Connection) : Outcome :=
  match c.handshake.mode with
  | some .abortSocket => .ok (connectionHalt (transitionTo .failed c))
  | some _ => .ok (connectionHalt (transitionTo .stopped c))
  | none => c.crash .illegalProgramState

/-- `fail_while_stopping` and `done_or_fail_while_timeout`. -/
def haltFailed (c : Connection) : Outcome := .ok (connectionHalt (transitionTo .failed c))

/-! ## Client -/

def connectWhileInitialized (lookup : Option Nat) (c : Connection) : Outcome :=
  call (.socketConnect lookup) (transitionTo .connectingSocket c)

/-- `start_next_protocol_on_connection`. -/
def startNextProtocol (c : Connection) : Outcome :=
  if c.handshake.tls then
    call .tlsConnect { transitionTo .connectingTls c with handshake := { c.handshake with tls := false } }
  else if c.handshake.sasl then
    call .saslConnect { transitionTo .connectingSasl c with
      handshake := { c.handshake with sasl := false } }
  else if c.handshake.amqp then
    call .tunnelConnect { transitionTo .connectingAmqp c with
      handshake := { c.handshake with amqp := false } }
  else call .connectionFail c

def doneWhileConnectingSocket (c : Connection) : Outcome := do
  let c ← enableIo call c
  startNextProtocol call { c with handshake := c.protocols }

def doneWhileConnectingSasl (c : Connection) : Outcome :=
  startNextProtocol call { c with saslConnected := true }

def doneWhileConnectingAmqp (c : Connection) : Outcome :=
  call .amqpSendOpen (transitionTo .amqpTunnelEstablished { c with isClient := true })

/-- `fail_while_connecting_sasl`, `fail_while_connecting_amqp` and `fail_while_accepting_sasl`. -/
def failByDraining (c : Connection) : Outcome := call .shutdownDrain c

/-! ## Server -/

/-- `reject_protocol_version`. -/
def rejectProtocolVersion (version : Nat) (c : Connection) : Outcome :=
  call (.negotiatorSend version .connectionDone) (transitionTo .sendingErrorMessage c)

/-- `is_protocol_valid_now`. -/
def isProtocolValidNow (protocolId : Nat) (accepted : Protocols) : Bool :=
  accepted.sasl && protocolId == amqpSaslProtocolId ||
  accepted.amqp && protocolId == amqpProtocolId ||
  accepted.tls && protocolId == amqpTlsProtocolId

/-- `establish_tunnel_after_client_request`. -/
def establishTunnelAfterClientRequest (version : Nat) (accepted : Protocols) (c : Connection) :
    Outcome :=
  let protocolId := amqpVersionProtocolId version
  if version = 0 then rejectProtocolVersion call amqpPreferredVersion c
  else if !isProtocolValidNow protocolId accepted then
    rejectProtocolVersion call amqpPreferredVersion c
  else if protocolId = amqpTlsProtocolId then call (.tlsAccept version) (transitionTo .acceptingTls c)
  else if protocolId = amqpSaslProtocolId then
    call (.saslAccept version) (transitionTo .acceptingSasl c)
  else if protocolId = amqpProtocolId then
    call (.tunnelAccept version) (transitionTo .acceptingAmqp c)
  else c.crash .illegalProgramState

def doneWhileAcceptingTls (c : Connection) : Outcome := do
  let c ← call .negotiatorReset (transitionTo .waitingOnTlsTunnelledRequest c)
  let c ← call .negotiatorWait c
  c.crash .notImplemented

def doneWhileAcceptingSasl (c : Connection) : Outcome := do
  let c ← call .negotiatorReset { transitionTo .waitingOnAmqpNegotiationRequest c with
    saslConnected := true }
  call .negotiatorWait c

def doneWhileAcceptingAmqp (c : Connection) : Outcome :=
  call .amqpWaitOnOpen (transitionTo .tunnelAccepted c)

/-! ## The function pointers, by the state of the connection -/

def connect (lookup : Option Nat) (c : Connection) : Outcome :=
  match c.name with
  | .initialized => connectWhileInitialized call lookup c
  | _ => c.crash .illegalState

def begin (version : Nat) (c : Connection) : Outcome :=
  match c.name with
  | .waitingOnClientNegotiationRequest =>
    establishTunnelAfterClientRequest call version ⟨true, true, true⟩ c
  | .waitingOnTlsTunnelledRequest =>
    establishTunnelAfterClientRequest call version ⟨false, true, true⟩ c
  | .waitingOnAmqpNegotiationRequest =>
    establishTunnelAfterClientRequest call version ⟨false, false, true⟩ c
  | _ => c.crash .illegalState

/-- `reject_while_accepting_tls`, `reject_while_accepting_sasl` and `reject_while_accepting_amqp`. -/
def reject (version : Nat) (c : Connection) : Outcome :=
  match c.reject with
  | some _ => rejectProtocolVersion call version c
  | none => c.crash .wildPointer

def done (c : Connection) : Outcome :=
  match c.name with
  | .connectingSocket => doneWhileConnectingSocket call c
  | .connectingTls => startNextProtocol call c
  | .connectingSasl => doneWhileConnectingSasl call c
  | .connectingAmqp => doneWhileConnectingAmqp call c
  | .sendingErrorMessage => call .shutdownDrain c
  | .acceptingTls => doneWhileAcceptingTls call c
  | .acceptingSasl => doneWhileAcceptingSasl call c
  | .acceptingAmqp => doneWhileAcceptingAmqp call c
  | .stoppingOutput => doneWhileStoppingOutput call c
  | .stopping => doneWhileStopping c
  | .timeout => haltFailed c
  | _ => c.crash .illegalState

def fail (c : Connection) : Outcome :=
  match c.name with
  | .connectingSocket | .connectingTls | .acceptingTls | .acceptingAmqp => c.crash .notImplemented
  | .connectingSasl | .connectingAmqp | .acceptingSasl => failByDraining call c
  | .stopping | .timeout => haltFailed c
  | _ => shutdownConnection call .abortSocket c

def drain (c : Connection) : Outcome :=
  match c.name with
  | .stopped | .failed | .timeout => .ok c
  | _ => shutdownConnection call .completeWriteDrainInputAndCloseSocket c

def close (c : Connection) : Outcome := shutdownConnection call .completeWriteAndCloseSocket c

def shutdown (c : Connection) : Outcome :=
  match c.shutdown with
  | .default => call .shutdownClose c
  | .doNothing | .shutdownWhileInProgress => .ok c
  | .applicationCloseWhileOpened => AmqpConnection.beginConnectionClose call c

def timeout (readIdle writeIdle : Bool) (c : Connection) : Outcome :=
  match c.timeout with
  | .default => c.crash .illegalState
  | .whileStoppingOutput | .whileDrainingInput => timeoutWhileShuttingDown call c
  | .whileOpened => AmqpConnection.timeoutExpiredWhileOpened call readIdle writeIdle c
  | .whileCloseSent => AmqpConnection.timeoutExpiryWhileCloseSent call c
  | .whileClosed => AmqpConnection.timeoutExpiryWhileClosed call c

end Machine

/-! ## Callbacks -/

/-- `io.read.read_callback`. -/
def ReadCallback.done (buffer : Bool) (amount : Nat) (c : Connection) : ReadCallback → Outcome
  | negotiator => Negotiator.readDone call buffer amount c
  | frameReader => FrameReader.readDone call amount c
  | connection => Machine.readDoneWhileDrainingInput call buffer amount c

/-- `data.handshake.callbacks.confirm`. -/
def ConfirmCallback.confirm (c : Connection) : ConfirmCallback → Outcome
  | tlsVersionAccepted => c.crash .notImplemented
  | saslVersionAccepted => Sasl.versionAccepted call c
  | amqpVersionAccepted => AmqpTunnel.versionAccepted call c
  | saslBrokerVersionSent => call .saslDone c
  | amqpDone => call .tunnelDone c
  | connectionDone => call .connectionDone c

/-- `data.handshake.callbacks.reject`. -/
def RejectCallback.reject (version : Nat) (c : Connection) : RejectCallback → Outcome
  | tlsVersionRejected => c.crash .notImplemented
  | saslVersionRejected => Sasl.versionRejected call version c
  | amqpVersionRejected => AmqpTunnel.versionRejected call version c

end Amqp
