import LibAmqp.Memory.Proof.PoolRun
import LibAmqp.Memory.Proof.Live
import LibAmqp.Memory.Configure
import LibAmqp.Memory.Proof.Configure
import LibAmqp.Buffer.Buffer
import LibAmqp.Codec.Decode
import LibAmqp.Buffer.Proof.Bytes
import LibAmqp.Codec.Outline
import LibAmqp.Codec.Proof.Leaf
import LibAmqp.Codec.Proof.Simulate
import LibAmqp.Codec.Proof.Container
import LibAmqp.Codec.Proof.Tiling
import LibAmqp.Codec.Proof.Safety
import LibAmqp.Codec.Proof.Tree
import LibAmqp.Codec.Proof.Release
import LibAmqp.Codec.Encode
import LibAmqp.Codec.Wire
import LibAmqp.Codec.Proof.Spell
import LibAmqp.Codec.Proof.Held
import LibAmqp.Lib.Lockstep
import LibAmqp.Lib.Budget
import LibAmqp.Codec.Proof.Memory
import LibAmqp.Codec.Draft
import LibAmqp.Codec.Calls
import LibAmqp.Codec.Proof.Draft
import LibAmqp.Buffer.Proof.Write
import LibAmqp.Codec.Proof.Calls
import LibAmqp.Codec.Proof.Place
import LibAmqp.Codec.Proof.Written
import LibAmqp.Codec.Proof.AllOrNothing
import LibAmqp.Codec.Proof.RoundTrip
import LibAmqp.Codec.InPlace
import LibAmqp.Codec.Proof.InPlace
import LibAmqp.Codec.Proof.Regain
import LibAmqp.Codec.Proof.Validity
import LibAmqp.Codec.Array
import LibAmqp.Codec.Proof.Array
import LibAmqp.Codec.Empty
import LibAmqp.Codec.Proof.Empty
import LibAmqp.Codec.Proof.Char
import LibAmqp.Codec.Proof.Elements
import LibAmqp.Transport.Field
import LibAmqp.Lib.HashTable
import LibAmqp.Transport.Descriptor
import LibAmqp.Codec.Print
import LibAmqp.Transport.Frame
import LibAmqp.Codec.Proof.Glance
import LibAmqp.Lib.Verdict
import LibAmqp.Codec.Reading
import LibAmqp.Codec.Proof.Print
import LibAmqp.Transport.Schema
import LibAmqp.Transport.Proof.Field
import LibAmqp.Transport.Body
import LibAmqp.Transport.Proof.Frame
import LibAmqp.Transport.Proof.Cleanup
import LibAmqp.Transport.Proof.FrameSafety
import LibAmqp.Transport.Proof.Domain
import LibAmqp.Transport.Conform
import LibAmqp.Transport.Proof.Conform
import LibAmqp.Codec.Proof.Moved
import LibAmqp.Transport.Same
import LibAmqp.Transport.Symbolic
import LibAmqp.Transport.Proof.Same
import LibAmqp.Transport.Proof.Symbolic
import LibAmqp.Lib.Dispatch
import LibAmqp.Connection.State
import LibAmqp.Connection.IO
import LibAmqp.Connection.Protocol
import LibAmqp.Connection.Machine
import LibAmqp.Connection.Run
import LibAmqp.Connection.Proof.Rules
import LibAmqp.Connection.Proof.ProtocolRules
import LibAmqp.Connection.Proof.MachineRules
import LibAmqp.Connection.Proof.Depth
import LibAmqp.Connection.Order
import LibAmqp.Connection.Proof.Order
import LibAmqp.Connection.Release
import LibAmqp.Connection.Proof.Release
import LibAmqp.Buffer.IoVec
import LibAmqp.Buffer.Proof.IoVec
import LibAmqp.Buffer.Copy
import LibAmqp.Buffer.Malloc
import LibAmqp.Buffer.Proof.Copy
import LibAmqp.Stream.Writer
import LibAmqp.Stream.Proof.Writer
import LibAmqp.Stream.Reader
import LibAmqp.Stream.Proof.Terminal
import LibAmqp.Stream.Session
import LibAmqp.Stream.Proof.Session
import LibAmqp.Stream.FrameReader
import LibAmqp.Stream.Proof.FrameReader
import LibAmqp.Connection.Negotiation
import LibAmqp.Connection.Proof.Negotiation
import LibAmqp.Connection.Progress
import LibAmqp.Connection.Proof.Progress
import LibAmqp.Connection.Proof.Timer
import LibAmqp.Connection.Halt
import LibAmqp.Connection.Proof.Halt
import LibAmqp.Stream.Socket
import LibAmqp.Stream.Proof.Socket
import LibAmqp.Stream.Proof.Callback
import LibAmqp.Stream.Proof.Whole
import LibAmqp.Stream.Proof.Limits
import LibAmqp.Stream.Negotiator
import LibAmqp.Stream.Proof.Negotiator
import LibAmqp.Types.Variable
import LibAmqp.Types.Proof.Variable
import LibAmqp.Types.Bytes
import LibAmqp.Types.Proof.Bytes
import LibAmqp.Types.Format
import LibAmqp.Buffer.Fragmented
import LibAmqp.Buffer.Proof.Fragmented
import LibAmqp.Buffer.Proof.Vectors
import LibAmqp.Types.Proof.Format
import LibAmqp.Connection.Idle
import LibAmqp.Connection.Proof.Idle
import LibAmqp.Types.HashTable
import LibAmqp.Types.Proof.HashTable
import LibAmqp.Transport.Mechanisms
import LibAmqp.Transport.Proof.Mechanisms
import LibAmqp.Codec.Proof.Made
import LibAmqp.Lib.Spans
import LibAmqp.Codec.Proof.Shape
import LibAmqp.Codec.Proof.Discard
import LibAmqp.Transport.Encode
import LibAmqp.Transport.Sent
import LibAmqp.Transport.Proof.Encode
import LibAmqp.Transport.Proof.Receive
import LibAmqp.Transport.Proof.RoundTrip
import LibAmqp.Transport.Exchange
import LibAmqp.Transport.Proof.Exchange
