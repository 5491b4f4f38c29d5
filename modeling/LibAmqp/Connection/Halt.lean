import LibAmqp.Connection.Run

/-!
# Connections that are over

`connection_halt` is the last thing a connection does, on its way into `stopped` or `failed`. These two
states replace the functions of a shutdown only: what fails or closes a connection is still there, and
takes one that is over through its end once more.
-/

namespace Amqp

/-- The states of a connection that is over. -/
def ConnectionState.Over : ConnectionState → Prop
  | .stopped | .failed => True
  | _ => False

instance : DecidablePred ConnectionState.Over
  | .stopped | .failed => .isTrue trivial
  | .initialized | .connectingSocket | .connectingTls | .connectingSasl | .connectingAmqp
  | .amqpTunnelEstablished | .waitingOnClientNegotiationRequest | .acceptingTls
  | .waitingOnTlsTunnelledRequest | .acceptingSasl | .waitingOnAmqpNegotiationRequest | .acceptingAmqp
  | .tunnelAccepted | .sendingErrorMessage | .stoppingOutput | .drainingInput | .stopping | .timeout =>
    .isFalse id

/-- The times that a connection was halted. -/
def halts (t : List Mark) : Nat := t.count .halted

namespace Connection

/-- A call that does not look whether the connection is over: `amqp_connection_connect_to` fails one
without AMQP, and `timeout_expiry_while_closed` closes it. -/
def Resumes (c : Connection) (i : Stimulus) : Prop :=
  c.name.Over ∧ match i.event with
    | .connect _ => c.accepted = false ∧ c.protocols.amqp = false
    | .timer _ _ => c.timer = true ∧ c.timeout = .whileClosed
    | _ => False

/-- A server waits for a protocol header. -/
def AwaitsHeader (c : Connection) : Prop :=
  c.name = .waitingOnClientNegotiationRequest ∨ c.name = .waitingOnTlsTunnelledRequest ∨
    c.name = .waitingOnAmqpNegotiationRequest

/-- A system call that fails below callers who go on. The loop of `delayed_read_while_reading` sets the
reader to work again whatever became of it, and `done_while_sending_header_response` fails the connection
of a server without plugins even if it could not answer the header. -/
def FailsBelow (c : Connection) (i : Stimulus) : Prop :=
  match i.event with
  | .data bytes inLoop => c.isReading = true ∧ bytes.length = c.required ∧
    (inLoop = true ∧ (.error ∈ i.writes ∨ .error ∈ i.reads ∨ .eof true ∈ i.reads) ∨
      c.AwaitsHeader ∧ c.plugins = [] ∧ .error ∈ i.writes)
  | _ => False

/-- The step does not set a connection going again that is over. -/
def StaysOver (c : Connection) (i : Stimulus) : Prop := ¬ c.destroyed → ¬ c.Resumes i ∧ ¬ c.FailsBelow i

instance (c : Connection) : (i : Stimulus) → Decidable (c.Resumes i)
  | ⟨.connect _, _, _, _⟩ => inferInstanceAs (Decidable (_ ∧ _ ∧ _))
  | ⟨.timer _ _, _, _, _⟩ => inferInstanceAs (Decidable (_ ∧ _ ∧ _))
  | ⟨.accept, _, _, _⟩ | ⟨.shutdown, _, _, _⟩ | ⟨.connectReady _, _, _, _⟩ | ⟨.data _ _, _, _, _⟩
  | ⟨.readReady _, _, _, _⟩ | ⟨.writeReady, _, _, _⟩ => .isFalse fun h => h.2

instance (c : Connection) : Decidable c.AwaitsHeader := inferInstanceAs (Decidable (_ ∨ _ ∨ _))

instance (c : Connection) : (i : Stimulus) → Decidable (c.FailsBelow i)
  | ⟨.data _ _, _, _, _⟩ => inferInstanceAs (Decidable (_ ∧ _ ∧ (_ ∧ (_ ∨ _ ∨ _) ∨ _ ∧ _ ∧ _)))
  | ⟨.connect _, _, _, _⟩ | ⟨.timer _ _, _, _, _⟩ | ⟨.accept, _, _, _⟩ | ⟨.shutdown, _, _, _⟩
  | ⟨.connectReady _, _, _, _⟩ | ⟨.readReady _, _, _, _⟩ | ⟨.writeReady, _, _, _⟩ => .isFalse id

instance (c : Connection) (i : Stimulus) : Decidable (c.StaysOver i) :=
  inferInstanceAs (Decidable (¬ _ → ¬ _ ∧ ¬ _))

end Connection
end Amqp
