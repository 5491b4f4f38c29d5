import LibAmqp.Stream.FrameReader

/-!
# The negotiator over a stream (`Transport/Connection/ConnectionNegotiation.c`)

The read of `start` and that of `wait` as an application of a reader, over `connection->buffer.read` as
an earlier protocol has left it. The header that `start` sends goes through the writer and is left out.
-/

namespace Amqp.Stream

open Lib

/-- What the negotiator decides. -/
inductive NegotiatorEvent
  /-- `callbacks.confirm(connection)` -/
  | confirm
  /-- `callbacks.reject(connection, broker_version)` -/
  | reject (version : Nat)
  /-- `callbacks.request(connection, requested_protocol_version)` -/
  | request (version : Nat)
  /-- `connection->state.connection.shutdown(connection)` -/
  | connectionShutdown
  /-- the assertion on the buffer fails, or `illegal_state` -/
  | fatal
  deriving DecidableEq, Repr

structure Negotiator where
  name : NegotiatorState
  preferredVersion : Nat
  events : List NegotiatorEvent

/-- The two ways to begin a negotiation. -/
inductive Negotiation
  /-- `negotiator.start`, of a client, with its preferred version -/
  | start (version : Nat)
  /-- `negotiator.wait`, of a server -/
  | wait
  deriving DecidableEq, Repr

namespace Negotiator

def emit (n : Negotiator) (e : NegotiatorEvent) : Negotiator := { n with events := n.events ++ [e] }

def readDoneWhileWaitingForBrokerResponse (buffer : Option Buffer) (amount : Nat) (n : Negotiator) :
    Negotiator :=
  match buffer with
  | none => n.emit .fatal
  | some b =>
    if amount = 0 then { n with name := .failed }.emit .connectionShutdown
    else if decodeVersion b.unread = n.preferredVersion then { n with name := .negotiated }.emit .confirm
    else { n with name := .rejected }.emit (.reject (decodeVersion b.unread))

def readDoneWhileWaitingOnClientRequest (buffer : Option Buffer) (amount : Nat) (n : Negotiator) :
    Negotiator :=
  match buffer with
  | none => n.emit .fatal
  | some b =>
    if amount = 0 then { n with name := .failed }.emit .connectionShutdown
    else { n with name := .waitingToSendServerResponse }.emit (.request (decodeVersion b.unread))

/-- `read_complete`. -/
def readDone (buffer : Option Buffer) (amount : Nat) (n : Negotiator) : Negotiator :=
  match n.name with
  | .waitingForBrokerResponse => n.readDoneWhileWaitingForBrokerResponse buffer amount
  | .waitingOnClientRequest => n.readDoneWhileWaitingOnClientRequest buffer amount
  | _ => n.emit .fatal

/-- The negotiator as a program, up to its decision. -/
def program : Program Unit Negotiator where
  react n _ buffer amount := (n.readDone buffer amount, none)

/-- `start_while_initialized`. -/
def startWhileInitialized (version : Nat) (b : Buffer) : Negotiator × Request Unit :=
  (⟨.waitingForBrokerResponse, version, []⟩, ⟨FrameReader.resetBuffer b, amqpFrameHeaderSizeInBytes, ()⟩)

/-- `wait_while_initialized`: the buffer is not reset. -/
def waitWhileInitialized (b : Buffer) : Negotiator × Request Unit :=
  (⟨.waitingOnClientRequest, 0, []⟩, ⟨b, amqpFrameHeaderSizeInBytes, ()⟩)

end Negotiator

namespace Negotiation

/-- What it begins with, when the read buffer is `b`. -/
def begin (b : Buffer) : Negotiation → Negotiator × Request Unit
  | start version => Negotiator.startWhileInitialized version b
  | wait => Negotiator.waitWhileInitialized b

/-- What is decided about a version. -/
def decision : Negotiation → Nat → NegotiatorEvent
  | start preferred, version => if version = preferred then .confirm else .reject version
  | wait, version => .request version

/-- Whatever eight bytes come, and whatever after them, and however they are delivered: nothing ends the
process, and the one decision is about the version that is encoded in those eight bytes. -/
def DecidesOnHeader (n : Negotiation) (b : Buffer) : Prop :=
  ∀ header rest : List UInt8, header.length = amqpFrameHeaderSizeInBytes → ∀ is : List SessionInput, Ends
    (fun s => s.app.events <+: [n.decision (decodeVersion header)] ∧
      (s.AtRest → s.app.events = [n.decision (decodeVersion header)]) ∧
      ∀ sizes, ∃ k, Ends Session.AtRest (fun _ => False) (s.drive Negotiator.program sizes k))
    (fun _ => False)
    (Session.play Negotiator.program (n.begin b).1 (n.begin b).2 (header ++ rest) is)

end Negotiation

end Amqp.Stream
