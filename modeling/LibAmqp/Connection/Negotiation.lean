import LibAmqp.Connection.Run

/-!
# Negotiation with a client

What a server and its client say to each other before there is a tunnel: SASL first, if the client
asks for it, then AMQP. A header that is not acceptable is answered with the header of a version that
is supported.
-/

namespace Amqp

open Lib

/-- Headers, and what a server or client says in a SASL exchange. -/
def Mark.isNegotiation : Mark → Bool
  | .receivedHeader _ | .sent (.header _) | .sent .saslMechanisms | .sent .saslInit
  | .sent .saslOutcome => true
  | _ => false

/-- The part of a trace that is negotiation. -/
def negotiation (t : List Mark) : List Mark := t.filter Mark.isNegotiation

/-- A SASL exchange, from the header to the outcome. -/
def saslExchange : List Mark :=
  [.receivedHeader (encodeVersion amqpSaslPreferredVersion), .sent (.header amqpSaslPreferredVersion),
    .sent .saslMechanisms, .sent .saslOutcome]

/-- The AMQP header comes and is echoed. -/
def tunnelExchange : List Mark :=
  [.receivedHeader (encodeVersion amqpPreferredVersion), .sent (.header amqpPreferredVersion)]

/-- What may come before an AMQP header. -/
def BeforeTunnel (n : List Mark) : Prop := n = [] ∨ n = saslExchange

/-- The client asks for TLS, which is not implemented. -/
def AsksForTls (n : List Mark) (bytes : List UInt8) : Prop :=
  n = [] ∧ amqpVersionProtocolId (decodeVersion bytes) = amqpTlsProtocolId

/-- A header that is acceptable after `n`. -/
def Acceptable (n : List Mark) (bytes : List UInt8) : Prop :=
  bytes = encodeVersion amqpPreferredVersion ∨ n = [] ∧ bytes = encodeVersion amqpSaslPreferredVersion

/-- A header that is refused after `n`: it does not parse, its protocol is unknown or not due, or its
version is not the required one. -/
def Refuses (n : List Mark) (bytes : List UInt8) : Prop :=
  BeforeTunnel n ∧ ¬ Acceptable n bytes ∧ ¬ AsksForTls n bytes

instance (n : List Mark) (bytes : List UInt8) : Decidable (Refuses n bytes) :=
  inferInstanceAs (Decidable ((_ ∨ _) ∧ ¬ (_ ∨ _ ∧ _) ∧ ¬ (_ ∧ _)))

/-- The versions that are supported. -/
def Supported (version : Nat) : Prop :=
  version = amqpPreferredVersion ∨ version = amqpSaslPreferredVersion

/-- All that server and client can have said. -/
inductive Dialogue : List Mark → Prop
  | sasl {n : List Mark} (h : n <+: saslExchange) : Dialogue n
  | amqp {n u : List Mark} (hn : BeforeTunnel n) (h : u <+: tunnelExchange) : Dialogue (n ++ u)
  | tls {bytes : List UInt8} (h : AsksForTls [] bytes) : Dialogue [.receivedHeader bytes]
  | refused {n : List Mark} {bytes : List UInt8} (h : Refuses n bytes) :
    Dialogue (n ++ [.receivedHeader bytes])
  | answered {n : List Mark} {bytes : List UInt8} {version : Nat} (h : Refuses n bytes)
    (hversion : Supported version) :
    Dialogue (n ++ [.receivedHeader bytes, .sent (.header version)])

/-- SASL has been through: the header came and was echoed, mechanisms were offered, an init frame came
that a plugin accepts, and the outcome was sent. -/
def SaslAccepted (plugins : List SaslPlugin) (t : List Mark) : Prop :=
  ∃ p ∈ plugins, p.handles = some .outcomeAccepted ∧
    [.receivedHeader (encodeVersion amqpSaslPreferredVersion), .sent (.header amqpSaslPreferredVersion),
      .sent .saslMechanisms, .receivedFrame (.saslInit p.mechanismName), .sent .saslOutcome].Sublist t

/-- A header that has to be refused has not been answered. -/
def Unanswered (t : List Mark) : Prop :=
  ∃ n bytes, Refuses n bytes ∧ negotiation t = n ++ [.receivedHeader bytes]

/-- A header that has to be refused is there. -/
def Refused (t : List Mark) : Prop :=
  ∃ n bytes rest, Refuses n bytes ∧ negotiation t = n ++ .receivedHeader bytes :: rest

/-- What is true of a trace at any time: a SASL exchange is accepted once at most, as the first thing
that happens. -/
structure Talked (plugins : List SaslPlugin) (t : List Mark) : Prop where
  dialogue : Dialogue (negotiation t)
  once : ∀ before after, negotiation t = before ++ .sent .saslOutcome :: after →
    before ++ [.sent .saslOutcome] = saslExchange ∧ .sent .saslOutcome ∉ after
  accepted : .sent .saslOutcome ∈ t → SaslAccepted plugins t

/-- What is true of a server between two steps. -/
structure InOrder (plugins : List SaslPlugin) (c : Connection) : Prop where
  talked : Talked plugins c.trace
  /-- every header that is refused is answered -/
  answered : ¬ Unanswered c.trace
  /-- and is the end of the connection -/
  down : Refused c.trace → c.name.Down
  tunnel : c.name = .tunnelAccepted ∨ c.amqp ≠ .initialized →
    ∃ n, BeforeTunnel n ∧ negotiation c.trace = n ++ tunnelExchange
  sasl : c.saslConnected → SaslAccepted plugins c.trace

/-- The header that is complete with `bytes`. -/
def Connection.headerWith (c : Connection) (bytes : List UInt8) : List UInt8 :=
  ((c.buffer ++ bytes).drop c.readIndex).take 8

/-- No header that has to be refused comes while a write is outstanding, or when the connection is
already coming to its end. -/
def Connection.CanAnswer (c : Connection) (i : Stimulus) : Prop :=
  match i.event with
  | .data bytes _ =>
    ¬ c.destroyed → c.isReading → bytes.length = c.required → c.readCallback = some .negotiator →
      Refuses (negotiation c.trace) (c.headerWith bytes) → c.writer = .enabled ∧ ¬ c.name.Down
  | _ => True

instance (c : Connection) : (i : Stimulus) → Decidable (c.CanAnswer i)
  | ⟨.data _ _, _, _, _⟩ => inferInstanceAs (Decidable (¬ _ → _ → _ → _ → _ → _ ∧ ¬ _))
  | ⟨.connect _, _, _, _⟩ | ⟨.accept, _, _, _⟩ | ⟨.shutdown, _, _, _⟩ | ⟨.connectReady _, _, _, _⟩
  | ⟨.readReady _, _, _, _⟩ | ⟨.writeReady, _, _, _⟩ | ⟨.timer _ _, _, _, _⟩ => .isTrue trivial

end Amqp
