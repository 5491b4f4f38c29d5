import LibAmqp.Connection.Release

/-!
# Connections that nobody attends to

Once a connection is under way, something has to call it again: the end it is coming to, its timer, or
a read that is outstanding. The handler of a SASL outcome that does not accept arranges for none of
these.
-/

namespace Amqp

/-- The connection comes to its end (or has), its timer is armed, or a read is outstanding. -/
def Connection.Attended (c : Connection) : Prop :=
  c.name.Down ∨ c.timer = true ∨ c.isReading = true

instance : DecidablePred Connection.Attended := fun c =>
  inferInstanceAs (Decidable (c.name.Down ∨ c.timer = true ∨ c.isReading = true))

/-- Attended, or not connected yet. -/
def Connection.Waits (c : Connection) : Prop :=
  c.Attended ∨ c.name = .initialized ∨ c.name = .connectingSocket

/-- An outcome other than the one of a plugin that accepts: another code, or additional data. -/
def PeerFrame.Rejects : PeerFrame → Prop
  | .saslOutcome code additionalData => additionalData = true ∨ code ≠ Sasl.amqpSaslCodeOk
  | _ => False

/-- What `received_sasl_outcome_frame` releases and forgets. -/
def Connection.Ignores (c : Connection) (f : PeerFrame) : Prop :=
  c.sasl = .waitingOnSaslChallengeOrOutcome ∧ f.Rejects

instance : DecidablePred PeerFrame.Rejects
  | .saslOutcome _ _ => inferInstanceAs (Decidable (_ ∨ _))
  | .saslMechanisms _ | .saslInit _ | .saslChallenge | .saslResponse | .amqpOpen _ _ | .amqpBegin
  | .amqpAttach | .amqpFlow | .amqpTransfer | .amqpDisposition | .amqpDetach | .amqpEnd
  | .amqpClose _ | .empty => .isFalse id

instance (c : Connection) (f : PeerFrame) : Decidable (c.Ignores f) := inferInstanceAs (Decidable (_ ∧ _))

/-- Bytes or the end of the stream come for a read that is outstanding. -/
def Connection.Receives (c : Connection) (i : Stimulus) : Prop :=
  ¬ c.destroyed ∧ c.isReading ∧
    match i.event with
    | .data bytes _ => bytes.length = c.required
    | .readReady (.eof _) => True
    | _ => False

/-- The bytes that come complete an outcome that does not accept, while one is waited for. -/
def Connection.ReceivesRejection (d : FrameDecoders) (c : Connection) (i : Stimulus) : Prop :=
  match i.event with
  | .data bytes _ => ¬ c.destroyed ∧ c.isReading ∧ bytes.length = c.required ∧
    c.readCallback = some .frameReader ∧
    Connection.CompletesFrame { c with buffer := c.buffer ++ bytes } c.required ∧
    ∃ f, Connection.available d { c with buffer := c.buffer ++ bytes } = some f ∧ c.Ignores f
  | _ => False

instance (d : FrameDecoders) (c : Connection) : (i : Stimulus) → Decidable (c.ReceivesRejection d i)
  | ⟨.data bytes _, _, _, _⟩ =>
    match h : Connection.available d { c with buffer := c.buffer ++ bytes } with
    | some f =>
      decidable_of_iff (¬ c.destroyed ∧ c.isReading ∧ bytes.length = c.required ∧
        c.readCallback = some .frameReader ∧
        Connection.CompletesFrame { c with buffer := c.buffer ++ bytes } c.required ∧ c.Ignores f)
        (by simp [Connection.ReceivesRejection, h])
    | none => .isFalse (by simp [Connection.ReceivesRejection, h])
  | ⟨.connect _, _, _, _⟩ | ⟨.accept, _, _, _⟩ | ⟨.shutdown, _, _, _⟩ | ⟨.connectReady _, _, _, _⟩
  | ⟨.readReady _, _, _, _⟩ | ⟨.writeReady, _, _, _⟩ | ⟨.timer _ _, _, _, _⟩ => .isFalse id

end Amqp
