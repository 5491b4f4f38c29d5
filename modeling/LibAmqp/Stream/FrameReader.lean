import LibAmqp.Connection.Protocol
import LibAmqp.Stream.Session

/-!
# The frame reader over a stream (`Transport/Connection/ConnectionFrameReader.c`)

The frame reader as the application of a reader: its callback is `read_complete_callback`, its buffer
`connection->buffer.read`. The frame-available callback asks for the next frame each time.
-/

namespace Amqp.Stream

open Lib

/-- What the frame reader does to others. -/
inductive FrameEvent
  /-- `frame_available_callback(connection, buffer)` -/
  | available (buffer : Buffer)
  /-- `amqp_connection_failed` -/
  | connectionFailed
  /-- `connection->state.connection.shutdown(connection)` -/
  | connectionShutdown
  /-- `illegal_state`, or a null buffer is read -/
  | fatal

/-- `state.frame`, `io.frame` and the limit of the connection. -/
structure FrameReader where
  name : FrameReaderState
  frameSize : Nat
  maxFrameSize : Nat
  events : List FrameEvent

namespace FrameReader

/-- `amqp_buffer_reset`. -/
def resetBuffer (b : Buffer) : Buffer := { b with index := 0, size := 0 }

def headerRequest (b : Buffer) : Request Unit := ⟨resetBuffer b, amqpFrameHeaderSizeInBytes, ()⟩

def emit (f : FrameReader) (e : FrameEvent) : FrameReader := { f with events := f.events ++ [e] }

/-- `read_while_enabled`. -/
def readWhileEnabled (b : Buffer) (f : FrameReader) : FrameReader × Option (Request Unit) :=
  ({ f with name := .readingFrameHeader }, some (headerRequest b))

/-- A frame is there: the frame reader is enabled, and the callback asks for the next frame. -/
def frameAvailable (b : Buffer) (f : FrameReader) : FrameReader × Option (Request Unit) :=
  ({ f with name := .enabled }.emit (.available b)).readWhileEnabled b

def readDoneWhileReadingFrameHeader (buffer : Option Buffer) (amount : Nat) (f : FrameReader) :
    FrameReader × Option (Request Unit) :=
  if amount = 0 then (f.emit .connectionShutdown, none)
  else if amount ≠ amqpFrameHeaderSizeInBytes then (f.emit .connectionFailed, none)
  else match buffer with
    | none => (f.emit .fatal, none)
    | some b =>
      let frameSize := ofBigEndian (b.bytes 0 4)
      let f := { f with frameSize := frameSize }
      if f.maxFrameSize ≤ frameSize ∨ frameSize < amqpFrameHeaderSizeInBytes ∨
          frameSize = Amqp.FrameReader.amqpProtocolHeader then (f.emit .connectionFailed, none)
      else if frameSize = amqpFrameHeaderSizeInBytes then f.frameAvailable b
      else ({ f with name := .readingFrameBody }, some ⟨b, frameSize - amqpFrameHeaderSizeInBytes, ()⟩)

def readDoneWhileReadingFrameBody (buffer : Option Buffer) (amount : Nat) (f : FrameReader) :
    FrameReader × Option (Request Unit) :=
  if amount ≠ f.frameSize - amqpFrameHeaderSizeInBytes then (f.emit .connectionFailed, none)
  else match buffer with
    | none => (f.emit .fatal, none)
    | some b => f.frameAvailable b

/-- `read_complete_callback`. -/
def readDone (buffer : Option Buffer) (amount : Nat) (f : FrameReader) :
    FrameReader × Option (Request Unit) :=
  match f.name with
  | .readingFrameHeader => f.readDoneWhileReadingFrameHeader buffer amount
  | .readingFrameBody => f.readDoneWhileReadingFrameBody buffer amount
  | _ => (f.emit .fatal, none)

/-- The frame reader as a program. -/
def program : Program Unit FrameReader where
  react f _ buffer amount := f.readDone buffer amount

/-- A frame reader that waits for its first header. -/
def create (maxFrameSize : Nat) : FrameReader := ⟨.readingFrameHeader, 0, maxFrameSize, []⟩

end FrameReader

/-! ## What the frame reader is for -/

/-- What can be seen of an event: the read index and the size of the buffer, and its bytes. -/
inductive Seen
  | frame (index size : Nat) (bytes : List UInt8)
  | failed | shutdown | fatal
  deriving DecidableEq, Repr

def FrameEvent.seen : FrameEvent → Seen
  | .available b => .frame b.index b.size (b.bytes 0 b.size)
  | .connectionFailed => .failed
  | .connectionShutdown => .shutdown
  | .fatal => .fatal

/-- The size field of a header. -/
def sizeField (bytes : List UInt8) : Nat := ofBigEndian (bytes.take 4)

/-- A size that the frame reader accepts. -/
def AcceptableSize (maxFrameSize size : Nat) : Prop :=
  amqpFrameHeaderSizeInBytes ≤ size ∧ size < maxFrameSize ∧ size ≠ Amqp.FrameReader.amqpProtocolHeader

instance (maxFrameSize size : Nat) : Decidable (AcceptableSize maxFrameSize size) :=
  inferInstanceAs (Decidable (_ ∧ _))

/-- A frame that is as long as its header says, and fits the buffer. -/
structure IsFrame (maxFrameSize capacity : Nat) (f : List UInt8) : Prop where
  size : sizeField f = f.length
  acceptable : AcceptableSize maxFrameSize f.length
  fits : f.length ≤ capacity

/-- What comes after the frames: nothing, or something with a header that is not acceptable. -/
def Finish (maxFrameSize : Nat) (tail : List UInt8) : Prop :=
  tail = [] ∨ amqpFrameHeaderSizeInBytes ≤ tail.length ∧ ¬ AcceptableSize maxFrameSize (sizeField tail)

/-- What is seen of frames and what comes after them. -/
def cut (frames : List (List UInt8)) (tail : List UInt8) : List Seen :=
  frames.map (fun f => .frame 0 f.length f) ++ [if tail = [] then .shutdown else .failed]

/-- However frames and what comes after them are delivered: nothing ends the process, what is seen is
always the first part of them and all of them at rest, and however the rest is cut there is an end. -/
def FrameReader.Takes (b : Buffer) (maxFrameSize : Nat) (frames : List (List UInt8)) (tail : List UInt8) :
    Prop :=
  ∀ is : List SessionInput, Ends
    (fun s => s.app.events.map FrameEvent.seen <+: cut frames tail ∧
      (s.AtRest → s.app.events.map FrameEvent.seen = cut frames tail) ∧
      ∀ sizes, ∃ k, Ends Session.AtRest (fun _ => False) (s.drive program sizes k))
    (fun _ => False)
    (Session.play program (create maxFrameSize) (headerRequest b) (frames.flatten ++ tail) is)

end Amqp.Stream
