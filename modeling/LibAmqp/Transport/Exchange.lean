import LibAmqp.Stream.FrameReader
import LibAmqp.Transport.Sent

/-!
# Frames from one party to another

One party encodes frames, one after the other; the other reads the bytes with its frame reader, however
they are delivered, and decodes each frame that is made available and gives it back.

* `encodeAll`: the party that sends.
* `Exchange`: what the other does with the buffers of its frame reader.
-/

namespace Amqp

/-- Frames that are encoded one after the other, each left in its buffer; the first that cannot be sent ends
it. -/
def encodeAll (connection : EncodingConnection) : EncodeContext → List FrameRequest →
    Except Fault (Except ConnectionFailure (List (Slot × Buffer)) × EncodeContext)
  | x, [] => .ok (.ok [], x)
  | x, r :: rs => do
    match ← r.encode connection x with
    | (.error failure, x) => .ok (.error failure, x)
    | (.ok sent, x) => do
      let (rest, x) ← encodeAll connection x rs
      .ok (rest.map (sent :: ·), x)

/-- Each buffer is decoded to the frame that was sent, and the frame given back. -/
inductive Exchange (hash : HashFunction) : FrameContext → List SentFrame → List Buffer → FrameContext → Prop
  | nil (y : FrameContext) : Exchange hash y [] [] y
  | cons {y y1 y2 y3 : FrameContext} {m : SentFrame} {ms : List SentFrame} {b b' : Buffer} {bs : List Buffer}
    {s : Slot} {frame : AmqpFrame} (decodes : m.decode hash y b = .ok (some s, y1, b'))
    (load : y1.frames.load s = some frame) (received : m.Received y1 b frame)
    (cleanup : amqpFrameCleanup y1 s = .ok y2) (rest : Exchange hash y2 ms bs y3) :
    Exchange hash y (m :: ms) (b :: bs) y3

end Amqp
