import LibAmqp.Connection.State

/-!
# The attempts of a socket to connect (`Transport/Connection/IO/ConnectionSocket.c`)

The socket of a connection on its own, with its descriptor and the list of addresses from the lookup.
With each address comes what `socket`, `connect` and `getsockopt` will say of it.

`connect_event_handler` reads a watcher that it has freed. Where `keeps` is true, memory that is freed
keeps its contents until it is allocated again; C does not promise that.
-/

namespace Amqp.Stream

open Lib

variable {α : Type}

/-- What becomes of an address: no socket, or a descriptor and what `connect` returns for it. A
connection in progress is there in the end, or not. -/
inductive AddressResult
  | noSocket
  | connected (fd : Nat)
  | refused (fd : Nat)
  | inProgress (fd : Nat) (succeeds : Bool)
  deriving DecidableEq, Repr

/-- The connection is there, at once or in the end. -/
def AddressResult.succeeds : AddressResult → Bool
  | connected _ => true
  | inProgress _ succeeds => succeeds
  | noSocket | refused _ => false

/-- `connect` has returned `EINPROGRESS`. -/
def AddressResult.isInProgress : AddressResult → Bool
  | inProgress _ _ => true
  | noSocket | connected _ | refused _ => false

/-- An address of the list. -/
structure Target (α : Type) where
  address : α
  result : AddressResult

/-- What happened: a call of `socket` for an address, a descriptor that it returned or that was closed,
`freeaddrinfo`, and the calls of the connection. -/
inductive SocketMark (α : Type)
  | tried (address : α)
  | opened (fd : Nat)
  | closed (fd : Nat)
  | freed
  | done
  | failed
  deriving DecidableEq, Repr

/-- `socket` and `state.socket`: no descriptor is -1, no list of addresses null, and an iterator at the
end of the list is the empty list. The watcher is null, or started with the descriptor in its `io`.
`pending` is what `getsockopt` will say of the connection that is in progress. -/
structure Socket (α : Type) where
  name : SocketState
  fd : Option Nat
  addrinfo : Option (List (Target α))
  iterator : List (Target α)
  watcher : Option Nat
  pending : Bool
  marks : List (SocketMark α)

abbrev SocketOutcome (α : Type) := Except ConnectionFault (Socket α)

namespace Socket

/-- `amqp_connection_socket_initialize`. -/
def create : Socket α where
  name := .initialized
  fd := none
  addrinfo := none
  iterator := []
  watcher := none
  pending := false
  marks := []

def mark (m : SocketMark α) (s : Socket α) : Socket α := { s with marks := s.marks ++ [m] }

def cleanupConnectWatcher (s : Socket α) : Socket α := { s with watcher := none }

def closeConnectionSocket (s : Socket α) : Socket α :=
  match s.fd with
  | some fd => { s with fd := none }.mark (.closed fd)
  | none => s

def freeAddressInfo (s : Socket α) : Socket α :=
  match s.addrinfo with
  | some _ => { s with addrinfo := none, iterator := [] }.mark .freed
  | none => s

def cleanupEverything (s : Socket α) : Socket α :=
  s.cleanupConnectWatcher.closeConnectionSocket.freeAddressInfo

def stopAndNotifyConnectionFailed (s : Socket α) : Socket α :=
  { s with name := .failed }.cleanupEverything.mark .failed

/-! The function pointers, by the state of the socket. -/

def fail (s : Socket α) : SocketOutcome α :=
  match s.name with
  | .resolving | .connecting => .ok s.stopAndNotifyConnectionFailed
  | _ => .error .illegalState

def done (s : Socket α) : SocketOutcome α :=
  match s.name with
  | .connecting => .ok ({ s.freeAddressInfo with name := .connected }.mark .done)
  | .resolving => .error .notImplemented
  | _ => .error .illegalState

/-- `attempt` is `attempt_connection_to_next_address`. -/
def tryConnect (attempt : Socket α → SocketOutcome α) (s : Socket α) : SocketOutcome α :=
  match s.name with
  | .connecting => attempt s
  | _ => .error .illegalState

def connectionAttemptFailed (attempt : Socket α → SocketOutcome α) (s : Socket α) : SocketOutcome α :=
  let s := s.closeConnectionSocket
  if s.iterator.isEmpty then s.freeAddressInfo.fail else s.tryConnect attempt

/-- `attempt_connection_to_next_address`, from the iterator on. -/
def attemptConnectionToNextAddress : List (Target α) → Socket α → SocketOutcome α
  | [], _ => .error .assertFailed
  | target :: next, s =>
    let s := { s with iterator := next }.mark (.tried target.address)
    let opened (fd : Nat) := { s with fd := some fd }.mark (.opened fd)
    match target.result with
    | .noSocket => s.connectionAttemptFailed (attemptConnectionToNextAddress next)
    | .connected fd => (opened fd).done
    | .inProgress fd succeeds => .ok { opened fd with watcher := some fd, pending := succeeds }
    | .refused fd => (opened fd).connectionAttemptFailed (attemptConnectionToNextAddress next)

/-- `attempt_connection_to_next_address`. -/
def attempt (s : Socket α) : SocketOutcome α := attemptConnectionToNextAddress s.iterator s

/-- `connect_while_initialized`, of a lookup that finds these addresses, or fails. -/
def connectWhileInitialized (lookup : Option (List (Target α))) (s : Socket α) : SocketOutcome α :=
  match lookup with
  | none => { s with name := .resolving }.fail
  | some addresses =>
    { s with name := .connecting, addrinfo := some addresses, iterator := addresses }.tryConnect attempt

def connect (lookup : Option (List (Target α))) (s : Socket α) : SocketOutcome α :=
  match s.name with
  | .initialized => s.connectWhileInitialized lookup
  | _ => .error .illegalState

/-- `amqp_socket_get_error`, of the descriptor of the connection in progress or of none. -/
def getError (fd : Nat) (s : Socket α) : Bool := s.fd != some fd || !s.pending

/-- `io->fd`, of a watcher that was freed. -/
def freedDescriptor (keeps : Bool) (fd : Nat) : Except ConnectionFault Nat :=
  if keeps then .ok fd else .error .wildPointer

/-- `connect_event_handler`, for a watcher that is started: the watcher is freed, and read. -/
def connectEvent (keeps : Bool) (s : Socket α) : SocketOutcome α :=
  match s.watcher with
  | some io =>
    let s := s.cleanupConnectWatcher
    match freedDescriptor keeps io with
    | .ok fd => if s.getError fd then s.connectionAttemptFailed attempt else s.done
    | .error e => .error e
  | none => .ok s

end Socket

/-- What calls into a socket. -/
inductive SocketInput (α : Type)
  | connect (lookup : Option (List (Target α)))
  | event

def Socket.step (keeps : Bool) (s : Socket α) : SocketInput α → SocketOutcome α
  | .connect lookup => s.connect lookup
  | .event => s.connectEvent keeps

/-! ## What the attempts are for -/

namespace SocketMark

/-- The address of a call of `socket`. -/
def address? : SocketMark α → Option α
  | tried address => some address
  | opened _ | closed _ | freed | done | failed => none

/-- Whether the connection is told that it is connected. -/
def notice? : SocketMark α → Option Bool
  | done => some true
  | failed => some false
  | tried _ | opened _ | closed _ | freed => none

def isFreed : SocketMark α → Bool
  | freed => true
  | tried _ | opened _ | closed _ | done | failed => false

end SocketMark

/-- The descriptors that are open after a trace. -/
def openDescriptors (t : List (SocketMark α)) : List Nat :=
  t.foldl (fun fds m => match m with
    | .opened fd => fds ++ [fd]
    | .closed fd => fds.erase fd
    | .tried _ | .freed | .done | .failed => fds) []

def triedAddresses (t : List (SocketMark α)) : List α := t.filterMap SocketMark.address?

def notices (t : List (SocketMark α)) : List Bool := t.filterMap SocketMark.notice?

/-- What may happen after a trace: an address is tried, and a descriptor opened for it, while no other
is open and the list is there, open descriptors are closed, and the connection is told of its success
with one descriptor open, of its failure with none. -/
def SocketPermits (before : List (SocketMark α)) : SocketMark α → Prop
  | .tried _ | .opened _ => openDescriptors before = [] ∧ .freed ∉ before
  | .closed fd => openDescriptors before = [fd]
  | .freed => .freed ∉ before
  | .done => ∃ fd, openDescriptors before = [fd]
  | .failed => openDescriptors before = []

/-- The addresses up to the first that succeeds. -/
def attempted (addresses : List (Target α)) : List (Target α) :=
  addresses.take (addresses.findIdx (·.result.succeeds) + 1)

/-- A socket that waits for a connection in progress, or is done with the addresses. -/
structure Socket.Attempts (addresses : List (Target α)) (s : Socket α) : Prop where
  /-- each descriptor is closed before the next address is tried -/
  orderly : Justified SocketPermits s.marks
  /-- the addresses are tried in order, each once, and none behind one that succeeds -/
  inOrder : triedAddresses s.marks <+: (attempted addresses).map (·.address)
  /-- while it waits, the list is not freed and the connection is told nothing -/
  waiting : s.watcher.isSome → .freed ∉ s.marks ∧ notices s.marks = []
  /-- the list is freed once, and the connection is told once whether an address succeeded -/
  settled : s.watcher = none → triedAddresses s.marks = (attempted addresses).map (·.address) ∧
    (s.marks.countP (·.isFreed)) = 1 ∧ notices s.marks = [addresses.any (·.result.succeeds)]

/-- However many events come, nothing ends the process, the attempts are in order, and after as many
events as there are addresses they are over. -/
def Connects (keeps : Bool) (addresses : List (Target α)) : Prop :=
  ∀ events, Ends
    (fun s => s.Attempts addresses ∧ (addresses.length ≤ events → s.watcher = none))
    (fun _ => False)
    (run (Socket.step keeps) Socket.create (.connect (some addresses) :: List.replicate events .event))

end Amqp.Stream
