import LibAmqp.Transport.Body
import LibAmqp.Transport.Same

/-!
# Frames described by a symbol or a number

The bytes of a frame whose body is described by a symbol, and of the same frame described by the
number of the symbol's entry in the table.
-/

namespace Amqp

open Lib

/-- The ways to write a symbol. -/
inductive SymbolCoding (symbol : List UInt8) : List UInt8 → Prop
  | sym8 : symbol.length < 256 → SymbolCoding symbol (0xa3 :: (toBigEndian 1 symbol.length ++ symbol))
  | sym32 : symbol.length < 256 ^ 4 →
    SymbolCoding symbol (0xb3 :: (toBigEndian 4 symbol.length ++ symbol))

/-- The ways to write a ulong that is not 0. -/
inductive UlongCoding (v : Nat) : List UInt8 → Prop
  | smallUlong : v < 256 → UlongCoding v (0x53 :: toBigEndian 1 v)
  | ulong : v < 256 ^ 8 → UlongCoding v (0x80 :: toBigEndian 8 v)

/-- A frame with nothing but a described type in its body: the descriptor and the rest. -/
structure Buffer.DescribedFrame (b : Buffer) (descriptor rest : List UInt8) : Prop where
  start : b.index = 0
  header : amqpFrameHeaderSize ≤ b.size
  size : b.size = b.dataOffset + (0x00 :: (descriptor ++ rest)).length
  body : b.bytes b.dataOffset (0x00 :: (descriptor ++ rest)).length = 0x00 :: (descriptor ++ rest)

/-- Two frames have the same header, but for the size of the frame. -/
def Buffer.SameHeader (b b' : Buffer) : Prop := ∀ i, 4 ≤ i → i < 8 → b.byteAt i = b'.byteAt i

/-- A frame described by a symbol is decoded like the frames described by the number of the symbol's
entry; if there is no entry it is refused. -/
def SymbolAgrees (hash : HashFunction) (x : FrameContext) (b : Buffer) (symbol rest : List UInt8) : Prop :=
  (∀ d, (symbol, d) ∈ descriptors → ∀ coding, UlongCoding d.id coding → ∀ b' : Buffer,
    b'.DescribedFrame coding rest → b.SameHeader b' →
    SameOutcome (amqpDecodeAmqpFrame hash x b) (amqpDecodeAmqpFrame hash x b') ∧
      SameOutcome (amqpDecodeSaslFrame hash x b) (amqpDecodeSaslFrame hash x b')) ∧
  ((∀ d, (symbol, d) ∉ descriptors) →
    ∀ r ∈ [amqpDecodeAmqpFrame hash x b, amqpDecodeSaslFrame hash x b], ∃ x' b', r = .ok (none, x', b'))

/-- A frame that is refused without harm: its body can be decoded and, if it is valid, printed. -/
def Buffer.RefusedHarmlessly (debugLevel : Nat) (b : Buffer) : Prop :=
  b.HeaderAccepted → (Forest.cons b.body.outline .nil).All Item.Supported ∧
    ∀ o, b.body.outline = some o → o.1.accepted = true → 2 < debugLevel →
      Reading.printable (.node (o.1.glimpse b.input) (read b.input o.2) .nil) = true

end Amqp
