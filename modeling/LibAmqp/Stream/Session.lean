import LibAmqp.Stream.Reader

/-!
# A program that reads a stream

An application whose callbacks each ask for at most one more read, over a stream that the kernel
delivers in pieces and that ends. `ideal` is what the application sees when the stream is delivered in
one piece.
-/

namespace Amqp.Stream

open Lib

variable {κ σ : Type}

/-- A read of at least one byte, that fits the buffer. -/
structure Request.Fits (r : Request κ) : Prop where
  required_pos : 0 < r.required
  room : r.required ≤ r.buffer.capacity - r.buffer.size

/-- What the callbacks of an application do: from its state, the callback and its arguments, the next
state and the read that it asks for. -/
structure Program (κ σ : Type) where
  react : σ → κ → Option Buffer → Nat → σ × Option (Request κ)

/-- All the reads that it asks for fit. -/
def Program.Fits (p : Program κ σ) : Prop := ∀ a k b n, ∀ r ∈ (p.react a k b n).2, r.Fits

/-! ## Delivery in one piece -/

/-- How it ends: nothing more is read, a read was cut by the end of the stream, or the application
reads on after it was told twice that the stream has ended. -/
inductive Ending
  | idle | failed | fatal
  deriving DecidableEq, Repr

namespace Program

variable (p : Program κ σ)

/-- A read at the end of the stream: a callback with nothing read, and one more, without a buffer, if
the application reads again. -/
def idealEof (a : σ) (r : Request κ) : List (ReadMark κ) × Ending :=
  match p.react a r.callback (some r.buffer) 0 with
  | (_, none) => ([.called r.callback (some r.buffer) 0], .idle)
  | (a, some r') =>
    ([.called r.callback (some r.buffer) 0, .called r'.callback none 0],
      if (p.react a r'.callback none 0).2.isSome then .fatal else .idle)

/-- What the application sees from a read on, when all of the stream is there. -/
def ideal (a : σ) (r : Request κ) (stream : List UInt8) : List (ReadMark κ) × Ending :=
  if _h : 0 < r.required ∧ r.required ≤ stream.length then
    let b := r.buffer.append (stream.take r.required)
    match p.react a r.callback (some b) r.required with
    | (_, none) => ([.called r.callback (some b) r.required], .idle)
    | (a, some r') =>
      let rest := ideal a r' (stream.drop r.required)
      (.called r.callback (some b) r.required :: rest.1, rest.2)
  else if stream = [] then p.idealEof a r
  else ([.connectionFailed], .failed)
termination_by stream.length
decreasing_by
  simp only [List.length_drop]
  omega

/-- All the reads fit that are asked for before the stream ends. -/
inductive FitsAlong : σ → Request κ → List UInt8 → Prop
  | intro {a : σ} {r : Request κ} {stream : List UInt8} (fits : r.Fits)
      (next : r.required ≤ stream.length →
        let b := r.buffer.append (stream.take r.required)
        ∀ r' ∈ (p.react a r.callback (some b) r.required).2,
          FitsAlong (p.react a r.callback (some b) r.required).1 r' (stream.drop r.required)) :
      FitsAlong a r stream

/-- The state of the application once it has seen all that is in a trace. -/
def after : σ → List (ReadMark κ) → σ
  | a, [] => a
  | a, .called callback buffer amount :: marks => after (p.react a callback buffer amount).1 marks
  | a, .connectionFailed :: marks => after a marks

end Program

/-! ## Sessions -/

/-- A reader with its application, and what the kernel has yet to deliver. For each callback that runs
there is the read that it has yet to ask for. -/
structure Session (κ σ : Type) where
  reader : Reader κ
  app : σ
  requests : List (Option (Request κ))
  stream : List UInt8

inductive SessionInput
  /-- a read event -/
  | event
  /-- `readv` delivers `n + 1` bytes if there are as many, or the end of the stream; `none` is
  `EAGAIN` -/
  | readv (n : Option Nat)
  /-- the callback that runs asks for its read, or returns -/
  | move
  deriving DecidableEq, Repr

namespace Session

variable (p : Program κ σ)

/-- What the application does when it is called. -/
def absorb (s : Session κ σ) : ReadMark κ → Session κ σ
  | .called callback buffer amount =>
    let (app, request) := p.react s.app callback buffer amount
    { s with app := app, requests := request :: s.requests }
  | .connectionFailed => { s with requests := none :: s.requests }

/-- The reader makes a step, and the application sees it. -/
def advance (s : Session κ σ) (i : ReaderInput κ) : Except (ReaderCrash κ) (Session κ σ) := do
  let reader ← s.reader.step i
  .ok ((reader.marks.drop s.reader.marks.length).foldl (absorb p) { s with reader := reader })

/-- What `readv` returns, and what is left of the stream. -/
def delivers (stream : List UInt8) (needed : Nat) : Option Nat → ReadvResult × List UInt8
  | none => (.again, stream)
  | some n => match stream with
    | [] => (.eof, [])
    | first :: more => (.bytes first (more.take (min n (needed - 1))), more.drop (min n (needed - 1)))

def step (s : Session κ σ) : SessionInput → Except (ReaderCrash κ) (Session κ σ)
  | .event => s.advance p .event
  | .readv n => match s.reader.needed with
    | some (needed, _) =>
      let (result, rest) := delivers s.stream needed n
      { s with stream := rest }.advance p (.readv result)
    | none => .ok s
  | .move => if s.reader.needed.isSome then .ok s else match s.requests with
    | some r :: requests => { s with requests := none :: requests }.advance p (.commenceRead r)
    | none :: requests => { s with requests := requests }.advance p .callbackReturns
    | [] => .ok s

/-- The application asks for its first read. -/
def start (a : σ) (r : Request κ) (stream : List UInt8) : Except (ReaderCrash κ) (Session κ σ) := do
  let reader ← Reader.create.step .enable
  advance p ⟨reader, a, [], stream⟩ (.commenceRead r)

/-- A run, from the first read on. -/
def play (a : σ) (r : Request κ) (stream : List UInt8) (is : List SessionInput) :
    Except (ReaderCrash κ) (Session κ σ) := do
  run (step p) (← start p a r stream) is

/-- No read is outstanding and no callback runs. -/
def AtRest (s : Session κ σ) : Prop :=
  s.reader.needed = none ∧ s.reader.returns = [] ∧ s.reader.name ≠ .reading

instance (s : Session κ σ) : Decidable s.AtRest := inferInstanceAs (Decidable (_ ∧ _))

/-- The process ends because the application reads on after the end of the stream. -/
def Fatal (total : List (ReadMark κ) × Ending) (e : ReaderCrash κ) : Prop :=
  e = ⟨.illegalState, total.1⟩ ∧ total.2 = .fatal

/-- What happens next when `readv` delivers `n + 1` bytes whenever it is called. -/
def next (n : Nat) (s : Session κ σ) : SessionInput :=
  if s.reader.needed.isSome then .readv (some n)
  else if s.requests ≠ [] then .move
  else .event

/-- `k` steps, with pieces of the stream of any sizes. -/
def drive : (sizes : Nat → Nat) → Nat → Session κ σ → Except (ReaderCrash κ) (Session κ σ)
  | _, 0, s => .ok s
  | sizes, k + 1, s => do
    let s ← s.step p (s.next (sizes 0))
    drive (fun j => sizes (j + 1)) k s

end Session

end Amqp.Stream
