import LibAmqp.Buffer.IoVec
import LibAmqp.Connection.State

/-!
# The writer byte by byte (`Transport/Connection/IO/ConnectionWrite.c`)

The writer of a connection on its own, with the buffers it holds and what the socket takes of them. A
step is what the code does up to its next contact with the outside: a call of `sendmsg`, or the return
to the application or the event loop. The callbacks of the writer are the last thing it does, so what
they do to it comes as further steps.
-/

namespace Amqp.Stream

open Lib

/-- `AMQP_WRITE_QUEUE_SIZE`. -/
abbrev amqpWriteQueueSize : Nat := 3

/-- What happened. The second and the sixth are not in the source: the bytes that `sendmsg` took, and
that it failed. -/
inductive WriteMark
  | written (b : Buffer)
  | accepted (bytes : List UInt8)
  /-- `amqp_deallocate_buffer`, of the buffer at this address -/
  | released (address : Nat)
  /-- `stop`, and the state of the writer then -/
  | stopRequested (name : WriterState)
  | abortRequested
  | sendFailed
  /-- `stopped_callback(connection)` -/
  | stopped
  /-- `connection->state.connection.fail(connection)` -/
  | connectionFailed

/-- `io.write` and `state.writer`. The watcher is null or started or not; `available` is the variable
of `continue_write_operation` while it is in its loop. -/
structure Writer where
  name : WriterState
  watcher : Option Bool
  bufferQueue : Fin amqpWriteQueueSize → Option Buffer
  start : Fin amqpWriteQueueSize
  endIndex : Fin amqpWriteQueueSize
  stoppedCallback : Bool
  available : Option Nat
  marks : List WriteMark

abbrev WriterOutcome := Except ConnectionFault Writer

/-- A fault of a buffer, as one of the connection. -/
def ofBuffer {α : Type} : Except Fault α → Except ConnectionFault α
  | .ok a => .ok a
  | .error .assertFailed => .error .assertFailed
  | .error _ => .error .wildPointer

namespace Writer

/-- `amqp_connection_writer_initialize`. -/
def create : Writer where
  name := .initialized
  watcher := none
  bufferQueue _ := none
  start := 0
  endIndex := 0
  stoppedCallback := false
  available := none
  marks := []

def mark (m : WriteMark) (w : Writer) : Writer := { w with marks := w.marks ++ [m] }

/-- `amqp_io_event_watcher_stop` and `amqp_io_event_watcher_start`. -/
def setWatcher (started : Bool) (w : Writer) : WriterOutcome :=
  match w.watcher with
  | some _ => .ok { w with watcher := some started }
  | none => .error .assertFailed

def cleanupWriteWatcher (w : Writer) : Writer := { w with watcher := none }

def setElement (i : Fin amqpWriteQueueSize) (b : Option Buffer) (w : Writer) : Writer :=
  { w with bufferQueue := fun j => if j = i then b else w.bufferQueue j }

def deallocateBufferQueueElement (i : Fin amqpWriteQueueSize) (w : Writer) : Writer :=
  match w.bufferQueue i with
  | some b => (w.setElement i none).mark (.released b.address)
  | none => w.setElement i none

def clearBufferQueue (w : Writer) : Writer :=
  ((w.deallocateBufferQueueElement 0).deallocateBufferQueueElement 1).deallocateBufferQueueElement 2

def cleanupResources (w : Writer) : WriterOutcome := do
  let w ← w.setWatcher false
  .ok w.cleanupWriteWatcher.clearBufferQueue

def callDoneCallback (w : Writer) : WriterOutcome :=
  if w.stoppedCallback then .ok ({ w with stoppedCallback := false }.mark .stopped)
  else .error .assertFailed

def atQueueEnd (w : Writer) : Bool := w.start = w.endIndex

def incrementQueueIndex (i : Fin amqpWriteQueueSize) : Fin amqpWriteQueueSize := i + 1

def writerFail (w : Writer) : WriterOutcome := do
  let w ← { w with name := .failed }.cleanupResources
  .ok (w.mark .connectionFailed)

def writerCleanup (w : Writer) : WriterOutcome := { w with name := .stopped }.cleanupResources

def writerStop (callback : Bool) (w : Writer) : WriterOutcome := do
  let w ← { w with stoppedCallback := callback }.writerCleanup
  w.callDoneCallback

/-- `state.writer.write_complete`. -/
def writeComplete (w : Writer) : WriterOutcome :=
  match w.name with
  | .writing => if w.atQueueEnd then .ok { w with name := .enabled } else .ok w
  | .stopping => if w.atQueueEnd then w.writerStop w.stoppedCallback else .ok w
  | _ => .error .illegalState

/-- `state.writer.fail`. -/
def fail (w : Writer) : WriterOutcome :=
  match w.name with
  | .enabled | .writing | .stopping => w.writerFail
  | _ => .error .illegalState

/-- The loop of `continue_write_operation`: on to the next `sendmsg`, or the buffer is sent. -/
def continueLoop (available : Nat) (w : Writer) : WriterOutcome :=
  if 0 < available then .ok { w with available := some available }
  else
    let w := { w with available := none }.deallocateBufferQueueElement w.start
    { w with start := incrementQueueIndex w.start }.writeComplete

def continueWriteOperation (w : Writer) : WriterOutcome :=
  match w.bufferQueue w.start with
  | some b => w.continueLoop (b.size - b.index)
  | none => .error .wildPointer

/-- `commence_write_operation`. -/
def commenceWriteOperation (b : Buffer) (w : Writer) : WriterOutcome :=
  ({ w with endIndex := incrementQueueIndex w.endIndex }.setElement w.endIndex b).continueWriteOperation

/-! ## The function pointers, by the state of the writer -/

def enable (w : Writer) : WriterOutcome :=
  match w.name with
  | .initialized =>
    if w.watcher.isNone then .ok { w with watcher := some false, name := .enabled }
    else .error .assertFailed
  | _ => .error .illegalState

/-- A null buffer is not written. -/
def write (buffer : Option Buffer) (w : Writer) : WriterOutcome :=
  match w.name, buffer with
  | .enabled, some b => ({ w with name := .writing }.mark (.written b)).commenceWriteOperation b
  | .writing, some _ => .error .writeWhileWriting
  | .enabled, none | .writing, none => .ok w
  | _, _ => .error .illegalWrite

def continueWrite (w : Writer) : WriterOutcome :=
  match w.name with
  | .enabled => w.setWatcher false
  | .writing | .stopping => do
    let w ← w.setWatcher false
    w.continueWriteOperation
  | _ => .error .illegalState

/-- The default calls the callback at once. -/
def stop (w : Writer) : WriterOutcome :=
  match w.name with
  | .initialized => { w with stoppedCallback := true, name := .stopped }.callDoneCallback
  | .enabled => w.writerStop true
  | .writing => .ok { w with stoppedCallback := true, name := .stopping }
  | _ => .ok (w.mark .stopped)

def abort (w : Writer) : WriterOutcome :=
  match w.name with
  | .initialized => .ok { w with name := .stopped }
  | .stopped | .failed => .ok w
  | _ => w.writerCleanup

end Writer

/-! ## Steps -/

/-- What `sendmsg` returns: that it took `n + 1` bytes, or all if there are fewer, or an error. -/
inductive SendResult
  | sent (n : Nat) | again | error
  deriving DecidableEq, Repr

inductive WriterInput
  | enable
  | write (buffer : Option Buffer)
  | stop
  | abort
  /-- `write_event_handler`: the socket is ready, and the watcher waits for that -/
  | event
  /-- `write_event_handler` for an event that nothing waits for, as `next_write_while_enabled` expects it -/
  | spurious
  | send (r : SendResult)

namespace Writer

/-- What `sendmsg` is followed by. -/
def sendDone (available : Nat) (w : Writer) : SendResult → WriterOutcome
  | .sent n =>
    match w.bufferQueue w.start with
    | some b => do
      let bytes ← ofBuffer (b.send (n + 1))
      ((w.setElement w.start (b.advanceReadIndex bytes.length)).mark (.accepted bytes)).continueLoop
        (available - bytes.length)
    | none => .error .wildPointer
  | .again => { w with available := none }.setWatcher true
  | .error => ({ w with available := none }.mark .sendFailed).fail

/-- `sendmsg` returns when it was called, and everything else happens when it was not. An event comes to
a watcher that was started, and one for no reason as long as there is a watcher. -/
def step (w : Writer) : WriterInput → WriterOutcome
  | .send r => match w.available with
    | some available => w.sendDone available r
    | none => .ok w
  | i => if w.available.isSome then .ok w else match i with
    | .enable => w.enable
    | .write b => w.write b
    | .stop => (w.mark (.stopRequested w.name)).stop
    | .abort => (w.mark .abortRequested).abort
    | .event => if w.watcher = some true then w.continueWrite else .ok w
    | .spurious => if w.watcher.isSome then w.continueWrite else .ok w
    | .send _ => .ok w

end Writer

/-! ## What the writer is for -/

def WriteMark.buffer? : WriteMark → Option Buffer
  | .written b => some b
  | _ => none

def WriteMark.release? : WriteMark → Option Nat
  | .released address => some address
  | _ => none

def WriteMark.bytes : WriteMark → List UInt8
  | .accepted bytes => bytes
  | _ => []

/-- The buffers that were written. -/
def written (t : List WriteMark) : List Buffer := t.filterMap WriteMark.buffer?

/-- The addresses of the buffers that were released. -/
def released (t : List WriteMark) : List Nat := t.filterMap WriteMark.release?

/-- What the socket took. -/
def accepted (t : List WriteMark) : List UInt8 := t.flatMap WriteMark.bytes

/-- The unread contents of buffers, one behind the other. -/
def contents (bs : List Buffer) : List UInt8 := bs.flatMap Buffer.unread

/-- What may happen, given what happened before: a buffer is released when it and all the buffers
before it are sent, or when the writer failed or was aborted; the callback of a stop is called once,
and if the stop came during a write, when everything is sent. -/
def WritePermits (before : List WriteMark) : WriteMark → Prop
  | .released _ =>
    (contents ((written before).take ((released before).length + 1))).length ≤ (accepted before).length ∨
    .sendFailed ∈ before ∨ .abortRequested ∈ before
  | .stopped => .stopped ∉ before ∧ ∃ name, .stopRequested name ∈ before ∧
    (name = .writing → accepted before = contents (written before))
  | _ => True

/-- The bytes that were written and that the socket has not taken. -/
def unsent (t : List WriteMark) : Nat := (contents (written t)).length - (accepted t).length

/-- The stream is intact, and every buffer is accounted for. -/
structure Writer.Intact (w : Writer) : Prop where
  /-- nothing is lost, duplicated or reordered -/
  stream : accepted w.marks <+: contents (written w.marks)
  /-- buffers are released in the order in which they were written, each once -/
  released : released w.marks <+: (written w.marks).map Buffer.address
  justified : Justified WritePermits w.marks
  enabled : w.name = .enabled → w.atQueueEnd ∧ accepted w.marks = contents (written w.marks) ∧
    Stream.released w.marks = (written w.marks).map Buffer.address
  /-- a writer that is busy is in `sendmsg`, or has asked for the event that gets it there -/
  attended : w.name = .writing ∨ w.name = .stopping → w.available.isSome ∨ w.watcher = some true
  /-- a writer with nothing to write is not busy -/
  busy : w.name = .writing ∨ w.name = .stopping →
    ¬ w.atQueueEnd ∧ accepted w.marks ≠ contents (written w.marks)
  ended : w.name = .stopped ∨ w.name = .failed →
    Stream.released w.marks = (written w.marks).map Buffer.address
  failed : w.name = .failed → .sendFailed ∈ w.marks
  stopped : w.name = .stopped → (∃ name, .stopRequested name ∈ w.marks) ∨ .abortRequested ∈ w.marks
  /-- a stop is pending, or its callback was called, unless the writer failed or was aborted -/
  requested : ∀ name, .stopRequested name ∈ w.marks → w.name = .stopping ∨ .stopped ∈ w.marks ∨
    .sendFailed ∈ w.marks ∨ .abortRequested ∈ w.marks

def WriteMark.isStopRequest : WriteMark → Bool
  | .stopRequested _ => true
  | _ => false

/-- A buffer is written while the writer is enabled; a writer is enabled once, and stopped once. -/
def Writer.Permitted (w : Writer) : WriterInput → Prop
  | .enable => w.name = .initialized
  | .write buffer => w.name = .enabled ∧ ∀ b ∈ buffer, b.Sound
  | .stop => ∀ m ∈ w.marks, m.isStopRequest = false
  | _ => True

instance (w : Writer) : ∀ i, Decidable (w.Permitted i)
  | .enable => inferInstanceAs (Decidable (_ = _))
  | .write none => inferInstanceAs (Decidable (_ ∧ ∀ b ∈ none, _))
  | .write (some b) => decidable_of_iff (w.name = .enabled ∧ b.Sound) (by simp [Writer.Permitted])
  | .stop => inferInstanceAs (Decidable (∀ m ∈ w.marks, _))
  | .abort | .event | .spurious | .send _ => .isTrue trivial

/-- Nothing is being written. -/
def Writer.AtRest (w : Writer) : Prop := w.name ≠ .writing ∧ w.name ≠ .stopping

/-- The socket becomes ready, and `sendmsg` returns, again and again. -/
def serve (rs : List SendResult) : List WriterInput := rs.flatMap fun r => [.event, .send r]

def SendResult.isSent : SendResult → Bool
  | .sent _ => true
  | _ => false

end Amqp.Stream
