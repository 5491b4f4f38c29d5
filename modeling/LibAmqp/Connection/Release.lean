import LibAmqp.Connection.Run

/-!
# Frames and their release

A frame that the decoder returns is owned by whoever handles it, and is released by
`amqp_frame_cleanup`. The keep-alive handlers of the AMQP machine are the only ones that do not
release it.
-/

namespace Amqp

def Mark.isFrame : Mark → Bool
  | .receivedFrame _ => true
  | _ => false

/-- Frames that were received and have not been released. -/
def outstanding (t : List Mark) : Int := t.countP Mark.isFrame - t.count .released

/-- What `keep_alive_while_open_sent` and `keep_alive_while_opened` are called for. -/
def Connection.KeepsAlive (c : Connection) (f : PeerFrame) : Prop :=
  f = .empty ∧ (c.amqp = .openSent ∨ c.amqp = .opened)

instance (c : Connection) (f : PeerFrame) : Decidable (c.KeepsAlive f) :=
  inferInstanceAs (Decidable (_ ∧ _))

/-- The frame in the buffer, for the callback that waits for it. -/
def Connection.available (d : FrameDecoders) (c : Connection) : Option PeerFrame :=
  match c.frameCallback with
  | some .sasl => (d.sasl c.buffer).map Prod.fst
  | some .amqp => (d.amqp c.buffer).map Prod.fst
  | _ => none

/-- A read of `amount` bytes is the last of a frame. -/
def Connection.CompletesFrame (c : Connection) (amount : Nat) : Prop :=
  c.frameReader = .readingFrameHeader ∧ amount = amqpFrameHeaderSizeInBytes ∧
      FrameReader.announcedSize c = amqpFrameHeaderSizeInBytes ∧
      amqpFrameHeaderSizeInBytes < c.maxFrameSize ∨
    c.frameReader = .readingFrameBody ∧ amount = c.frameSize - amqpFrameHeaderSizeInBytes

instance (c : Connection) (amount : Nat) : Decidable (c.CompletesFrame amount) :=
  inferInstanceAs (Decidable (_ ∨ _))

/-- The bytes that come complete an empty frame, while the connection is open or about to be. -/
def Connection.ReceivesKeepAlive (d : FrameDecoders) (c : Connection) (i : Stimulus) : Prop :=
  match i.event with
  | .data bytes _ => ¬ c.destroyed ∧ c.isReading ∧ bytes.length = c.required ∧
    c.readCallback = some .frameReader ∧
    Connection.CompletesFrame { c with buffer := c.buffer ++ bytes } c.required ∧
    ∃ f, Connection.available d { c with buffer := c.buffer ++ bytes } = some f ∧ c.KeepsAlive f
  | _ => False

end Amqp
