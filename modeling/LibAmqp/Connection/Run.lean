import LibAmqp.Connection.Machine

/-!
# Runs of a connection

A step is one call from outside: from the application, from the event loop when the socket is ready,
or from the timer. With it comes what the system calls return that are made before it is over.
-/

namespace Amqp

open Lib

variable (d : FrameDecoders)

/-- The function behind each pointer. -/
def dispatch (call : Calls) : Calls
  | .connectionConnect lookup, c => Machine.connect call lookup c
  | .connectionBegin version, c => Machine.begin call version c
  | .connectionReject version, c => Machine.reject call version c
  | .connectionDone, c => Machine.done call c
  | .connectionFail, c => Machine.fail call c
  | .connectionShutdown, c => Machine.shutdown call c
  | .connectionTimeout readIdle writeIdle, c => Machine.timeout call readIdle writeIdle c
  | .shutdownDrain, c => Machine.drain call c
  | .shutdownClose, c => Machine.close call c
  | .socketConnect lookup, c => Socket.connect call lookup c
  | .socketTryConnect, c => Socket.tryConnect call c
  | .socketDone, c => Socket.done call c
  | .socketFail, c => Socket.fail call c
  | .socketShutdown, c => Socket.shutdown call c
  | .writerEnable, c => Writer.enable c
  | .writerWrite m, c => Writer.write call m c
  | .writerContinue, c => Writer.continueWrite call c
  | .writerComplete, c => Writer.writeComplete call c
  | .writerStop, c => Writer.stop call c
  | .writerAbort, c => Writer.abort c
  | .writerFail, c => Writer.fail call c
  | .readerEnable, c => Reader.enable c
  | .readerCommence required callback, c => Reader.commenceRead call required callback c
  | .readerReset, c => Reader.reset c
  | .readerDelayed, c => Reader.delayedRead call c
  | .readerStop, c => Reader.stop c
  | .readerFail, c => Reader.fail call c
  | .readDone callback buffer amount, c => callback.done call buffer amount c
  | .negotiatorStart version confirm reject, c => Negotiator.start call version confirm reject c
  | .negotiatorWait, c => Negotiator.wait call c
  | .negotiatorSend version confirm, c => Negotiator.send call version confirm c
  | .negotiatorReset, c => Negotiator.reset c
  | .confirmCallback, c => match c.confirm with
    | some callback => callback.confirm call c
    | none => c.crash .wildPointer
  | .rejectCallback version, c => match c.rejectCallback with
    | some callback => callback.reject call version c
    | none => c.crash .wildPointer
  | .requestCallback version, c =>
    if c.request then call (.connectionBegin version) c else c.crash .wildPointer
  | .tlsConnect, c => Tls.connect call c
  | .tlsAccept version, c => Tls.accept version c
  | .saslConnect, c => Sasl.connect call c
  | .saslAccept version, c => Sasl.accept call version c
  | .saslDone, c => Sasl.done call c
  | .tunnelConnect, c => AmqpTunnel.connect call c
  | .tunnelAccept version, c => AmqpTunnel.accept call version c
  | .tunnelDone, c => AmqpTunnel.done call c
  | .amqpSendOpen, c => AmqpConnection.sendOpen call c
  | .amqpWaitOnOpen, c => AmqpConnection.waitOnOpen call c
  | .frameEnable, c => FrameReader.enable c
  | .frameRead callback, c => FrameReader.read call callback c
  | .frameAvailable, c => match c.frameCallback with
    | some callback => callback.available call d c
    | none => c.crash .wildPointer
  | .frameDispatch f, c => f.dispatch call c

/-! ## Steps -/

/-- What calls into a connection. -/
inductive Event
  /-- `amqp_connection_connect_to`, with what the name lookup finds -/
  | connect (lookup : Option Nat)
  /-- `amqp_connection_accept` -/
  | accept
  /-- `amqp_connection_shutdown` -/
  | shutdown
  /-- `connect_event_handler` -/
  | connectReady (isConnected : Bool)
  /-- the last bytes of a read have come, or were there already when the loop of
  `delayed_read_while_reading` began it -/
  | data (bytes : List UInt8) (inLoop : Bool)
  /-- a read fails, or the stream ends -/
  | readReady (result : ReadResult)
  | writeReady
  /-- `timer_expiry_handler`, and for how long nothing was read or written -/
  | timer (readIdle writeIdle : Bool)
  deriving DecidableEq, Repr

/-- An event, and what the system calls return. -/
structure Stimulus where
  event : Event
  writes : List WriteResult := []
  reads : List ReadResult := []
  connects : List ConnectResult := []
  deriving DecidableEq, Repr

/-- A read waits for the socket. -/
def Connection.isReading (c : Connection) : Bool := c.reader == .reading && c.readQueued

/-- A write waits for the socket, which is open. -/
def Connection.isWriting (c : Connection) : Bool :=
  (c.writer == .writing || c.writer == .stopping) && (c.socket == .connected || c.socket == .accepted)

/-- `amqp_connection_connect_to`. -/
def Connection.connectTo (call : Calls) (lookup : Option Nat) (c : Connection) : Outcome :=
  if c.protocols.amqp then call (.connectionConnect lookup) c else call .connectionFail c

/-- `amqp_connection_server_state_initialize`. -/
def Connection.acceptSocket (call : Calls) (c : Connection) : Outcome := do
  let c := Machine.transitionTo .waitingOnClientNegotiationRequest c
  let c ← Machine.enableIo call { c with socket := .accepted }
  call .negotiatorWait c

/-- What happens. An event that nothing waits for does nothing. -/
def Connection.handle (call : Calls) (event : Event) (c : Connection) : Outcome :=
  if c.destroyed then .ok c
  else match event with
    | .connect lookup => if c.accepted then .ok c else c.connectTo call lookup
    | .accept => if c.name = .initialized ∧ c.accepted then c.acceptSocket call else .ok c
    | .shutdown => call .connectionShutdown c
    | .connectReady isConnected =>
      if c.connectWatcher then Socket.connectEvent call isConnected c else .ok c
    | .data bytes inLoop =>
      if c.isReading ∧ bytes.length = c.required then Reader.readComplete call bytes inLoop c else .ok c
    | .readReady result =>
      if c.isReading then match result with
        | .again => .ok c
        | .eof isPartial => Reader.readEof call isPartial c
        | .error => call .readerFail c
      else .ok c
    | .writeReady => if c.isWriting then call .writerContinue c else .ok c
    | .timer readIdle writeIdle =>
      if c.timer then call (.connectionTimeout readIdle writeIdle) c else .ok c

def Connection.arm (c : Connection) (i : Stimulus) : Connection :=
  { c with writes := i.writes, reads := i.reads, connects := i.connects }

/-- Calls that are at most `depth` deep. -/
def calls (depth : Nat) : Calls := invoke (fun c => ⟨.outOfFuel, c.trace⟩) (dispatch d) depth

/-- A step, with calls at most `depth` deep. -/
def Connection.step (depth : Nat) (c : Connection) (i : Stimulus) : Outcome :=
  Connection.handle (calls d depth) i.event (c.arm i)

/-! ## The frames of a short exchange, with the mechanism `PLAIN` -/

def plainName : List UInt8 := [0x50, 0x4c, 0x41, 0x49, 0x4e]

def plainPlugin : SaslPlugin := ⟨plainName, true, some .outcomeAccepted⟩

def plainMechanisms : List UInt8 := [0, 0, 0, 0x15, 2, 1, 0, 0, 0, 0x53, 0x40, 0xc0, 8, 1, 0xa3, 5] ++ plainName

def plainInit : List UInt8 := [0, 0, 0, 0x15, 2, 1, 0, 0, 0, 0x53, 0x41, 0xc0, 8, 1, 0xa3, 5] ++ plainName

/-- An outcome without additional data. -/
def outcomeBytes (code : UInt8) : List UInt8 := [0, 0, 0, 0x10, 2, 1, 0, 0, 0, 0x53, 0x44, 0xc0, 3, 1, 0x50, code]

/-- An open frame with the container id `a`. -/
def openBytes : List UInt8 := [0, 0, 0, 0x11, 2, 0, 0, 0, 0, 0x53, 0x10, 0xc0, 4, 1, 0xa1, 1, 0x61]

def emptyFrameBytes : List UInt8 := [0, 0, 0, 8, 2, 0, 0, 0]

/-- What the decoders make of these. -/
def plainDecoders : FrameDecoders where
  sasl bytes := ([(plainMechanisms, .saslMechanisms [plainName]), (plainInit, .saslInit plainName),
    (outcomeBytes 0, .saslOutcome 0 false), (outcomeBytes 1, .saslOutcome 1 false)].lookup bytes).map
      fun f => (f, bytes.length)
  amqp bytes := ([(openBytes, .amqpOpen false 0), (emptyFrameBytes, .empty)].lookup bytes).map
    fun f => (f, bytes.length)

/-- The two reads of a frame, and what the writes of the second one return. -/
def readsOf (frame : List UInt8) (writes : List WriteResult) : List Stimulus :=
  [{ event := .data (frame.take 8) false }, { event := .data (frame.drop 8) false, writes := writes }]

end Amqp
