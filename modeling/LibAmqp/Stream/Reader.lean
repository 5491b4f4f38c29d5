import LibAmqp.Stream.Writer

/-!
# The reader byte by byte (`Transport/Connection/IO/ConnectionRead.c`)

The reader of a connection on its own, with the buffer it fills. A step is what the code does up to its
next contact with the outside: a call of `readv`, the call of a callback, or the return to the
application or the event loop. While a callback runs, what it does to the reader comes as further
steps, and `returns` has what is left to do when it returns.
-/

namespace Amqp.Stream

open Lib

variable {κ : Type}

/-- What is left to do when a callback returns. -/
inductive Return
  /-- `commence_read_while_enabled` and `next_read_while_reading` call `delayed_read` -/
  | completing
  /-- `delayed_read_while_reading` goes on with its loop -/
  | looping
  | leaving
  deriving DecidableEq, Repr

/-- What happened. -/
inductive ReadMark (κ : Type)
  /-- `read_callback(connection, buffer, amount)` -/
  | called (callback : κ) (buffer : Option Buffer) (amount : Nat)
  /-- `connection->state.connection.fail(connection)` -/
  | connectionFailed

/-- A read that is asked for. -/
structure Request (κ : Type) where
  buffer : Buffer
  required : Nat
  callback : κ

/-- `io.read` and `state.reader`. The watcher is null or started or not; `needed` is the variable of
`read_what_is_buffered` while it is in its loop, and what its caller does once the read is complete.
`readvs` is how often `readv` was called. -/
structure Reader (κ : Type) where
  name : ReaderState
  watcher : Option Bool
  callback : Option κ
  buffer : Option Buffer
  required : Nat
  satisfied : Nat
  needed : Option (Nat × Return)
  returns : List Return
  readvs : Nat
  marks : List (ReadMark κ)

/-- The end of the process: its cause, and what had happened by then. -/
structure ReaderCrash (κ : Type) where
  fault : ConnectionFault
  marks : List (ReadMark κ)

/-- What `readv` returns: some bytes, at least one, of which it takes no more than are needed. -/
inductive ReadvResult
  | bytes (first : UInt8) (more : List UInt8)
  | eof | again | reset | error
  deriving DecidableEq, Repr

namespace Reader

/-- `amqp_connection_reader_initialize`. -/
def create : Reader κ where
  name := .initialized
  watcher := none
  callback := none
  buffer := none
  required := 0
  satisfied := 0
  needed := none
  returns := []
  readvs := 0
  marks := []

def crash (s : Reader κ) (fault : ConnectionFault) {α : Type} : Except (ReaderCrash κ) α :=
  .error ⟨fault, s.marks⟩

/-- What a buffer operation returns, for the reader. -/
def ofBuffer (s : Reader κ) {α : Type} (r : Except Fault α) : Except (ReaderCrash κ) α :=
  match Stream.ofBuffer r with
  | .ok a => .ok a
  | .error fault => s.crash fault

/-- `amqp_io_event_watcher_stop` and `amqp_io_event_watcher_start`. -/
def setWatcher (started : Bool) (s : Reader κ) : Except (ReaderCrash κ) (Reader κ) :=
  match s.watcher with
  | some _ => .ok { s with watcher := some started }
  | none => s.crash .assertFailed

def cleanupReader (s : Reader κ) : Reader κ := { s with watcher := none }

/-- The code outside is called. -/
def enter (m : ReadMark κ) (after : Return) (s : Reader κ) : Reader κ :=
  { s with marks := s.marks ++ [m], returns := after :: s.returns }

def callReadCallback (after : Return) (s : Reader κ) : Except (ReaderCrash κ) (Reader κ) :=
  match s.callback with
  | some callback =>
    .ok ({ s with callback := none, buffer := none, satisfied := 0 }.enter
      (.called callback s.buffer s.satisfied) after)
  | none => s.crash .wildPointer

def isPartialRead (s : Reader κ) : Bool := 0 < s.satisfied && s.satisfied < s.required

def readEof (s : Reader κ) : Except (ReaderCrash κ) (Reader κ) :=
  if s.isPartialRead then do
    let s ← s.setWatcher false
    .ok ({ s.cleanupReader with name := .failed }.enter .connectionFailed .leaving)
  else { s with name := .eof }.callReadCallback .leaving

def readerStop (s : Reader κ) : Except (ReaderCrash κ) (Reader κ) := do
  let s ← s.setWatcher false
  .ok { s.cleanupReader with name := .stopped }

def readerFail (s : Reader κ) : Except (ReaderCrash κ) (Reader κ) := do
  let s ← s.setWatcher false
  .ok ({ s.cleanupReader with name := .failed }.enter .connectionFailed .leaving)

/-- `state.reader.fail`. -/
def fail (s : Reader κ) : Except (ReaderCrash κ) (Reader κ) :=
  match s.name with
  | .enabled | .reading => s.readerFail
  | _ => s.crash .illegalState

/-- The loop of `read_what_is_buffered`: on to the next `readv`, or the read is complete. -/
def readLoop (needed : Nat) (after : Return) (s : Reader κ) : Except (ReaderCrash κ) (Reader κ) :=
  if 0 < needed then .ok { s with needed := some (needed, after) }
  else { s with needed := none }.callReadCallback after

/-- `read_what_is_buffered`, behind `continue_read_operation`. -/
def readWhatIsBuffered (after : Return) (s : Reader κ) : Except (ReaderCrash κ) (Reader κ) :=
  if 0 < s.required - s.satisfied then s.readLoop (s.required - s.satisfied) after
  else s.crash .assertFailed

/-- What `readv` is followed by. -/
def readvDone (needed : Nat) (after : Return) (r : ReadvResult) (s : Reader κ) :
    Except (ReaderCrash κ) (Reader κ) :=
  match s.buffer with
  | none => s.crash .wildPointer
  | some b => do
    let _ ← s.ofBuffer (b.writeIoVec needed)
    let s := { s with readvs := s.readvs + 1 }
    match r with
    | .bytes first more =>
      let bytes := (first :: more).take needed
      let b ← s.ofBuffer (b.receive needed bytes)
      readLoop (needed - bytes.length) after { s with
        buffer := some b, satisfied := s.satisfied + bytes.length }
    | .again => setWatcher true { s with needed := none }
    | .eof | .reset => readEof { s with needed := none }
    | .error => fail { s with needed := none }

def queueReadOperation (r : Request κ) (s : Reader κ) : Reader κ := { s with
  callback := some r.callback, buffer := some r.buffer, required := r.required, satisfied := 0 }

def isReadQueued (s : Reader κ) : Bool := s.buffer.isSome

/-- The head of the loop of `delayed_read_while_reading`. -/
def delayedReadWhileReading (s : Reader κ) : Except (ReaderCrash κ) (Reader κ) :=
  if s.isReadQueued then { s with name := .reading }.readWhatIsBuffered .looping
  else .ok { s with name := .enabled }

/-! ## The function pointers, by the state of the reader -/

def enable (s : Reader κ) : Except (ReaderCrash κ) (Reader κ) :=
  match s.name with
  | .initialized =>
    if s.watcher.isNone then .ok { s with watcher := some false, name := .enabled }
    else s.crash .assertFailed
  | _ => s.crash .illegalState

def commenceRead (r : Request κ) (s : Reader κ) : Except (ReaderCrash κ) (Reader κ) :=
  match s.name with
  | .enabled =>
    (queueReadOperation r { s with name := .reading }).readWhatIsBuffered .completing
  | .reading =>
    if s.callback.isNone && s.buffer.isNone then .ok (s.queueReadOperation r)
    else s.crash .assertFailed
  | .eof =>
    { s with name := .eofAlerted, satisfied := 0, callback := some r.callback }.callReadCallback .leaving
  | _ => s.crash .illegalState

def continueRead (s : Reader κ) : Except (ReaderCrash κ) (Reader κ) :=
  match s.name with
  | .enabled => s.setWatcher false
  | .reading => do
    let s ← s.setWatcher false
    s.readWhatIsBuffered .completing
  | _ => s.crash .illegalState

/-- The default does nothing. -/
def reset (s : Reader κ) : Except (ReaderCrash κ) (Reader κ) :=
  match s.name with
  | .initialized => s.enable
  | .reading => do
    let s ← s.setWatcher false
    .ok { s with name := .enabled }
  | .eofAlerted => .ok { s with name := .eof }
  | _ => .ok s

/-- The default does nothing. -/
def stop (s : Reader κ) : Except (ReaderCrash κ) (Reader κ) :=
  match s.name with
  | .initialized => .ok { s with name := .stopped }
  | .enabled | .reading => s.readerStop
  | _ => .ok s

/-- The default does nothing. -/
def delayedRead (s : Reader κ) : Except (ReaderCrash κ) (Reader κ) :=
  match s.name with
  | .reading => s.delayedReadWhileReading
  | _ => .ok s

end Reader

/-! ## Steps -/

inductive ReaderInput (κ : Type)
  | enable
  | commenceRead (r : Request κ)
  | reset
  | stop
  | fail
  /-- `read_event_handler` -/
  | event
  | readv (r : ReadvResult)
  /-- the callback that runs returns -/
  | callbackReturns

namespace Reader

/-- What follows when a callback returns. -/
def resume (s : Reader κ) : Return → Except (ReaderCrash κ) (Reader κ)
  | .completing => s.delayedRead
  | .looping => s.delayedReadWhileReading
  | .leaving => .ok s

/-- `readv` returns when it was called, and everything else happens when it was not. Events come when
no callback runs, and for a watcher that is started. -/
def step (s : Reader κ) (i : ReaderInput κ) : Except (ReaderCrash κ) (Reader κ) :=
  match s.needed with
  | some (needed, after) => match i with
    | .readv r => s.readvDone needed after r
    | _ => .ok s
  | none => match i with
    | .enable => s.enable
    | .commenceRead r => s.commenceRead r
    | .reset => s.reset
    | .stop => s.stop
    | .fail => s.fail
    | .event => if s.returns = [] ∧ s.watcher = some true then s.continueRead else .ok s
    | .readv _ => .ok s
    | .callbackReturns => match s.returns with
      | after :: returns => { s with returns := returns }.resume after
      | [] => .ok s

end Reader

/-! ## Reads and their callbacks -/

/-- The first callback of a trace, with the buffer it is given. -/
def firstCall : List (ReadMark κ) → Option (κ × Option Buffer)
  | [] => none
  | .called callback buffer _ :: _ => some (callback, buffer)
  | .connectionFailed :: marks => firstCall marks

/-- If anything is called, it is the callback of the read, with the buffer of the read. -/
def Request.IsOwn (r : Request κ) : Option (κ × Option Buffer) → Prop
  | none => True
  | some (callback, buffer) => callback = r.callback ∧ buffer.map Buffer.address = some r.buffer.address

/-- From `s1` on, where the read has been asked for in `s`, whatever comes before the next read is asked
for, the first callback that is called is that of this read, with its own buffer. -/
def Reader.Serves (r : Request κ) (s s1 : Reader κ) : Prop :=
  ∀ after : List (ReaderInput κ), (∀ r', .commenceRead r' ∉ after) →
    Ends (fun s2 => r.IsOwn (firstCall (s2.marks.drop s.marks.length))) (fun _ => True)
      (run Reader.step s1 after)

/-! ## Terminal states -/

namespace Reader

def Terminal (s : Reader κ) : Prop := s.name = .stopped ∨ s.name = .failed

/-- The input takes the reader into a terminal state. -/
def Enters (s : Reader κ) : ReaderInput κ → Prop
  | .stop => s.needed = none ∧ (s.name = .initialized ∨ s.name = .enabled ∨ s.name = .reading)
  | .fail => s.needed = none ∧ (s.name = .enabled ∨ s.name = .reading)
  | .readv .error => s.needed ≠ none
  | .readv .eof | .readv .reset => s.needed ≠ none ∧ s.isPartialRead
  | _ => False

/-- It does so while a callback runs that was called from the loop of `delayed_read_while_reading`. -/
def EntersInLoop (s : Reader κ) (i : ReaderInput κ) : Prop := .looping ∈ s.returns ∧ s.Enters i

instance (s : Reader κ) : Decidable s.Terminal := inferInstanceAs (Decidable (_ ∨ _))

instance (s : Reader κ) : ∀ i, Decidable (s.Enters i)
  | .stop => inferInstanceAs (Decidable (s.needed = none ∧ _))
  | .fail => inferInstanceAs (Decidable (s.needed = none ∧ _))
  | .readv .error => inferInstanceAs (Decidable (s.needed ≠ none))
  | .readv .eof | .readv .reset => inferInstanceAs (Decidable (s.needed ≠ none ∧ _))
  | .enable | .commenceRead _ | .reset | .event | .callbackReturns
  | .readv (.bytes _ _) | .readv .again => .isFalse id

instance (s : Reader κ) (i : ReaderInput κ) : Decidable (s.EntersInLoop i) :=
  inferInstanceAs (Decidable (_ ∧ _))

end Reader

end Amqp.Stream
