import LibAmqp.Connection.State

/-!
# Socket, reader and writer (`Transport/Connection/IO`)

A read that can be satisfied at once calls its callback before `commence_read` returns. Here the
bytes arrive with the next step instead: those who commence a read have nothing left to do by then,
except after a failed write, when all that is read is drained. What does depend on it is the state of
the reader afterwards: in the loop of `delayed_read_while_reading` the reader is enabled at the end
whatever the callback did to it (`readComplete`). A read that fails at once, or finds the end of the
stream, is reported from within `commence_read`, as in the source.
-/

namespace Amqp

open Lib

variable (call : Calls)

/-- `assert`. -/
def assertThat (p : Bool) (c : Connection) : Outcome := if p then .ok c else c.crash .assertFailed

/-! ## Writer (`ConnectionWrite.c`) -/

namespace Writer

/-- `writer_cleanup`. -/
def writerCleanup (c : Connection) : Connection := { c with writer := .stopped }

/-- `writer_stop`: the callback is that of `shutdown_connection`, `writer_stop_complete_callback`. -/
def writerStop (c : Connection) : Outcome :=
  call .connectionDone { writerCleanup c with stoppedCallback := false }

/-- `writer_fail`. -/
def writerFail (c : Connection) : Outcome := call .connectionFail { c with writer := .failed }

/-- `continue_write_operation`. The buffer queue has the one buffer that is being written. -/
def continueWriteOperation (c : Connection) : Outcome :=
  let rest := { c with writes := c.writes.tail }
  match c.writes.headD .complete with
  | .complete => call .writerComplete rest
  | .again => .ok rest
  | .error => call .writerFail rest

def commenceWriteWhileEnabled (m : Message) (c : Connection) : Outcome :=
  continueWriteOperation call { c with writer := .writing, trace := c.trace ++ [.sent m] }

/-! The function pointers, by the state of the writer. -/

def enable (c : Connection) : Outcome :=
  match c.writer with
  | .initialized => .ok { c with writer := .enabled }
  | _ => c.crash .illegalState

def write (m : Message) (c : Connection) : Outcome :=
  match c.writer with
  | .enabled => commenceWriteWhileEnabled call m c
  | .writing => c.crash .writeWhileWriting
  | _ => c.crash .illegalWrite

def continueWrite (c : Connection) : Outcome :=
  match c.writer with
  | .enabled => .ok c
  | .writing | .stopping => continueWriteOperation call c
  | _ => c.crash .illegalState

def writeComplete (c : Connection) : Outcome :=
  match c.writer with
  | .writing => .ok { c with writer := .enabled }
  | .stopping => if c.stoppedCallback then writerStop call c else c.crash .assertFailed
  | _ => c.crash .illegalState

/-- The default calls the callback at once. -/
def stop (c : Connection) : Outcome :=
  match c.writer with
  | .initialized | .enabled => writerStop call c
  | .writing => .ok { c with writer := .stopping, stoppedCallback := true }
  | _ => call .connectionDone c

def abort (c : Connection) : Outcome :=
  match c.writer with
  | .stopped | .failed => .ok c
  | _ => .ok (writerCleanup c)

def fail (c : Connection) : Outcome :=
  match c.writer with
  | .enabled | .writing | .stopping => writerFail call c
  | _ => c.crash .illegalState

end Writer

/-! ## Reader (`ConnectionRead.c`) -/

namespace Reader

/-- The capacity of `buffer.read`. -/
def capacity : Nat := 4096

/-- `call_read_callback`. -/
def callReadCallback (amount : Nat) (c : Connection) : Outcome :=
  match c.readCallback with
  | some callback =>
    call (.readDone callback c.readQueued amount) { c with readCallback := none, readQueued := false }
  | none => c.crash .wildPointer

/-- `read_eof`. -/
def readEof (isPartial : Bool) (c : Connection) : Outcome :=
  if isPartial then call .connectionFail { c with reader := .failed }
  else callReadCallback call 0 { c with reader := .eof }

/-- `read_what_is_buffered`, as far as it goes without the bytes. -/
def readWhatIsBuffered (c : Connection) : Outcome :=
  if c.required ≤ capacity - c.buffer.length then
    let rest := { c with reads := c.reads.tail }
    match c.reads.headD .again with
    | .again => .ok rest
    | .eof isPartial => readEof call isPartial rest
    | .error => call .readerFail rest
  else c.crash .assertFailed

/-- `queue_read_operation`. -/
def queueReadOperation (required : Nat) (callback : ReadCallback) (c : Connection) : Connection :=
  { c with readCallback := some callback, readQueued := true, required := required }

def commenceReadWhileEof (callback : ReadCallback) (c : Connection) : Outcome :=
  callReadCallback call 0 { c with reader := .eofAlerted, readCallback := some callback }

/-- `delayed_read_while_reading`. -/
def delayedReadWhileReading (c : Connection) : Outcome :=
  if c.readQueued then readWhatIsBuffered call { c with reader := .reading }
  else .ok { c with reader := .enabled }

/-! The function pointers, by the state of the reader. -/

def enable (c : Connection) : Outcome :=
  match c.reader with
  | .initialized => .ok { c with reader := .enabled }
  | _ => c.crash .illegalState

def commenceRead (required : Nat) (callback : ReadCallback) (c : Connection) : Outcome :=
  match c.reader with
  | .enabled =>
    readWhatIsBuffered call (queueReadOperation required callback { c with reader := .reading })
  | .reading =>
    if c.readCallback.isNone && !c.readQueued then .ok (queueReadOperation required callback c)
    else c.crash .assertFailed
  | .eof => commenceReadWhileEof call callback c
  | _ => c.crash .illegalState

/-- The default does nothing. -/
def reset (c : Connection) : Outcome :=
  match c.reader with
  | .initialized | .reading => .ok { c with reader := .enabled }
  | .eofAlerted => .ok { c with reader := .eof }
  | _ => .ok c

def delayedRead (c : Connection) : Outcome :=
  match c.reader with
  | .reading => delayedReadWhileReading call c
  | _ => .ok c

def stop (c : Connection) : Outcome :=
  match c.reader with
  | .initialized | .enabled | .reading => .ok { c with reader := .stopped }
  | _ => .ok c

def fail (c : Connection) : Outcome :=
  match c.reader with
  | .enabled | .reading => call .connectionFail { c with reader := .failed }
  | _ => c.crash .illegalState

/-- What follows when all the bytes are there: in `next_read_while_reading` and
`commence_read_while_enabled` the state of the reader decides how to go on, in the loop of
`delayed_read_while_reading` it does not. -/
def readComplete (bytes : List UInt8) (inLoop : Bool) (c : Connection) : Outcome := do
  let c ← callReadCallback call c.required { c with buffer := c.buffer ++ bytes }
  if inLoop then delayedReadWhileReading call c else call .readerDelayed c

end Reader

/-! ## Socket (`ConnectionSocket.c`) -/

namespace Socket

/-- `stop_and_notify_connection_shutdown`. -/
def stopAndNotifyConnectionShutdown (c : Connection) : Outcome :=
  call .connectionDone { c with socket := .stopped, connectWatcher := false, addresses := 0 }

/-- `stop_and_notify_connection_failed`. -/
def stopAndNotifyConnectionFailed (c : Connection) : Outcome :=
  call .connectionFail { c with socket := .failed, connectWatcher := false, addresses := 0 }

/-- `connection_attempt_failed`. -/
def connectionAttemptFailed (c : Connection) : Outcome :=
  if c.addresses ≠ 0 then call .socketTryConnect c else call .socketFail c

/-- `attempt_connection_to_next_address`. -/
def attemptConnectionToNextAddress (c : Connection) : Outcome :=
  if c.addresses = 0 then c.crash .assertFailed
  else
    let rest := { c with addresses := c.addresses - 1, connects := c.connects.tail }
    match c.connects.headD .inProgress with
    | .noSocket | .refused => connectionAttemptFailed call rest
    | .connected => call .socketDone rest
    | .inProgress => .ok { rest with connectWatcher := true }

/-- `connect_while_initialized`: `lookup` is the number of addresses, `none` when the lookup fails. -/
def connectWhileInitialized (lookup : Option Nat) (c : Connection) : Outcome :=
  let c := { c with socket := .resolving, hostname := true }
  match lookup with
  | none => call .socketFail c
  | some addresses => call .socketTryConnect { c with socket := .connecting, addresses := addresses }

/-! The function pointers, by the state of the socket. -/

def connect (lookup : Option Nat) (c : Connection) : Outcome :=
  match c.socket with
  | .initialized => connectWhileInitialized call lookup c
  | _ => c.crash .illegalState

def tryConnect (c : Connection) : Outcome :=
  match c.socket with
  | .connecting => attemptConnectionToNextAddress call c
  | _ => c.crash .illegalState

def done (c : Connection) : Outcome :=
  match c.socket with
  | .connecting => call .connectionDone { c with socket := .connected, addresses := 0 }
  | .resolving => c.crash .notImplemented
  | _ => c.crash .illegalState

def fail (c : Connection) : Outcome :=
  match c.socket with
  | .resolving | .connecting => stopAndNotifyConnectionFailed call c
  | _ => c.crash .illegalState

def shutdown (c : Connection) : Outcome :=
  match c.socket with
  | .resolving => .ok { c with socket := .abortingLookup }
  | _ => stopAndNotifyConnectionShutdown call c

/-- `connect_event_handler`. The watcher is freed before its descriptor is read (kept memory). -/
def connectEvent (isConnected : Bool) (c : Connection) : Outcome :=
  let c := { c with connectWatcher := false }
  if isConnected then call .socketDone c else connectionAttemptFailed call c

end Socket

end Amqp
