import LibAmqp.Connection.Run

/-!
# The order of authentication

What a client may send, given what went over the wire before: an AMQP open once, after the peer has
answered the AMQP header with the same; the AMQP header and the open only after SASL has accepted, if
SASL was asked for.
-/

namespace Amqp

open Lib

/-- The peer offers a mechanism for which there is a plugin. -/
def Selects (plugins : List SaslPlugin) (names : List (List UInt8)) : Prop :=
  ∃ name ∈ names, ∃ p ∈ plugins, p.mechanismName = name

/-- The peer answered the header of a version, after it was sent, with exactly this header. -/
def Echoed (version : Nat) (t : List Mark) : Prop :=
  [.sent (.header version), .receivedHeader (encodeVersion version)].Sublist t

/-- The SASL exchange up to the init frame. -/
def SaslOffered (plugins : List SaslPlugin) (t : List Mark) : Prop :=
  ∃ names, Selects plugins names ∧
    [.sent (.header amqpSaslPreferredVersion), .receivedHeader (encodeVersion amqpSaslPreferredVersion),
      .receivedFrame (.saslMechanisms names), .sent .saslInit].Sublist t

/-- The whole SASL exchange: the header was sent and came back, mechanisms with one to select came, an
init frame was sent, and then came an outcome with the code ok and no additional data. -/
def Authenticated (plugins : List SaslPlugin) (t : List Mark) : Prop :=
  ∃ names, Selects plugins names ∧
    [.sent (.header amqpSaslPreferredVersion), .receivedHeader (encodeVersion amqpSaslPreferredVersion),
      .receivedFrame (.saslMechanisms names), .sent .saslInit,
      .receivedFrame (.saslOutcome Sasl.amqpSaslCodeOk false)].Sublist t

/-- What a client that asks for `protocols` may send. -/
def Permits (protocols : Protocols) (plugins : List SaslPlugin) (before : List Mark) : Mark → Prop
  | .sent .amqpOpen => .sent .amqpOpen ∉ before ∧ Echoed amqpPreferredVersion before ∧
    (protocols.sasl → Authenticated plugins before)
  | .sent (.header version) =>
    version = amqpPreferredVersion → protocols.sasl → Authenticated plugins before
  | _ => True

end Amqp
