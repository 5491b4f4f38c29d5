import LibAmqp.Connection.Proof.ProtocolRules

/-!
# What the connection machine does

The rules of the connection machine, of the callbacks and of what comes from outside.
-/

namespace Amqp

open Lib

variable {call : Calls} {c : Connection} {p r s : Connection → Prop} {q : Crash → Prop}

theorem up_of_name {n : ConnectionState} (hname : c.name = n) (hn : ¬ n.Down) : ¬ c.name.Down := hname ▸ hn

namespace Machine

/-! ## Shutdown -/

theorem enableIo_rule (hreader : Ends r q (call .readerEnable c))
    (hwriter : ∀ c1, r c1 → Ends p q (call .writerEnable c1)) : Ends p q (enableIo call c) :=
  hreader.bind hwriter

theorem stopActivity_rule (habort : Ends r q (call .writerAbort c))
    (hstop : ∀ c1, r c1 → Ends s q (call .readerStop c1))
    (hsocket : ∀ c2, s c2 → Ends p q (call .socketShutdown c2)) : Ends p q (stopActivity call c) :=
  habort.bind fun c1 h1 => (hstop c1 h1).bind hsocket

theorem stopInput_rule (hstop : Ends r q (call .readerStop (transitionTo .stopping c)))
    (hsocket : ∀ c1, r c1 → Ends p q (call .socketShutdown c1)) : Ends p q (stopInput call c) :=
  hstop.bind hsocket

/-- The modes in which what is being written is completed. -/
def Completes (mode : ShutdownMode) : Prop :=
  mode = .completeWriteDrainInputAndCloseSocket ∨ mode = .completeWriteAndCloseSocket

theorem shutdownConnection_rule {mode : ShutdownMode}
    (hwriter : Completes mode → Ends p q (call .writerStop
      (transitionTo .stoppingOutput { c with handshake := mode.toProtocols, timer := true })))
    (hactivity : ¬ Completes mode → Ends p q
      (stopActivity call (transitionTo .stopping { c with handshake := mode.toProtocols }))) :
    Ends p q (shutdownConnection call mode c) := by
  cases mode with
  | completeWriteDrainInputAndCloseSocket => exact hwriter (.inl rfl)
  | completeWriteAndCloseSocket => exact hwriter (.inr rfl)
  | closeSocket => exact hactivity (by simp [Completes])
  | abortSocket => exact hactivity (by simp [Completes])

theorem doneWhileStoppingOutput_rule (hcrash : MayCrash q c)
    (hreset : c.handshake.mode = some .completeWriteDrainInputAndCloseSocket →
      Ends r q (call .readerReset (drainInput { c with timer := true })))
    (hread : ∀ c1, r c1 → Ends p q (call (.readerCommence Reader.capacity .connection) c1))
    (hinput : c.handshake.mode = some .completeWriteAndCloseSocket → Ends p q (stopInput call c)) :
    Ends p q (doneWhileStoppingOutput call c) := by
  unfold doneWhileStoppingOutput
  split
  · next hmode => exact (hreset hmode).bind hread
  · next hmode => exact hinput hmode
  · exact hcrash _ (by decide)

theorem readDoneWhileDrainingInput_rule {buffer : Bool} {amount : Nat} (hcrash : MayCrash q c)
    (hread : amount ≠ 0 → Ends p q (call (.readerCommence Reader.capacity .connection) (drainInput c)))
    (hinput : amount = 0 → Ends p q (stopInput call c)) :
    Ends p q (readDoneWhileDrainingInput call buffer amount c) := by
  unfold readDoneWhileDrainingInput
  split
  · exact hcrash _ (by decide)
  split
  · next h0 => exact hread (Nat.pos_iff_ne_zero.1 h0)
  · next h0 => exact hinput (Nat.eq_zero_of_not_pos h0)

/-! ## Client -/

theorem startNextProtocol_rule
    (htls : c.handshake.tls = true → Ends p q (call .tlsConnect
      { transitionTo .connectingTls c with handshake := { c.handshake with tls := false } }))
    (hsasl : c.handshake.tls = false → c.handshake.sasl = true → Ends p q (call .saslConnect
      { transitionTo .connectingSasl c with handshake := { c.handshake with sasl := false } }))
    (hamqp : c.handshake.tls = false → c.handshake.sasl = false → Ends p q (call .tunnelConnect
      { transitionTo .connectingAmqp c with handshake := { c.handshake with amqp := false } }))
    (hfail : Ends p q (call .connectionFail c)) : Ends p q (startNextProtocol call c) := by
  unfold startNextProtocol
  split
  · next ht => exact htls ht
  next ht =>
  split
  · next hs => exact hsasl (Bool.eq_false_iff.2 ht) hs
  next hs =>
  split
  · exact hamqp (Bool.eq_false_iff.2 ht) (Bool.eq_false_iff.2 hs)
  · exact hfail

theorem connect_rule {lookup : Option Nat} (hcrash : MayCrash q c)
    (h : c.name = .initialized →
      Ends p q (call (.socketConnect lookup) (transitionTo .connectingSocket c))) :
    Ends p q (connect call lookup c) := by
  unfold connect
  cases hs : c.name with
  | initialized => exact h hs
  | _ => exact hcrash _ (by decide)

/-! ## Server -/

theorem establish_rule {version : Nat} {accepted : Protocols}
    (hreject : version = 0 ∨ isProtocolValidNow (amqpVersionProtocolId version) accepted = false →
      Ends p q (rejectProtocolVersion call amqpPreferredVersion c))
    (htls : isProtocolValidNow (amqpVersionProtocolId version) accepted = true →
      amqpVersionProtocolId version = amqpTlsProtocolId →
      Ends p q (call (.tlsAccept version) (transitionTo .acceptingTls c)))
    (hsasl : isProtocolValidNow (amqpVersionProtocolId version) accepted = true →
      amqpVersionProtocolId version = amqpSaslProtocolId →
      Ends p q (call (.saslAccept version) (transitionTo .acceptingSasl c)))
    (hamqp : isProtocolValidNow (amqpVersionProtocolId version) accepted = true →
      amqpVersionProtocolId version = amqpProtocolId →
      Ends p q (call (.tunnelAccept version) (transitionTo .acceptingAmqp c))) :
    Ends p q (establishTunnelAfterClientRequest call version accepted c) := by
  unfold establishTunnelAfterClientRequest
  dsimp only
  split
  · next h0 => exact hreject (.inl h0)
  split
  · next hv => exact hreject (.inr (by simpa using hv))
  next hv =>
  have hvalid : isProtocolValidNow (amqpVersionProtocolId version) accepted = true := by simpa using hv
  split
  · next ht => exact htls hvalid ht
  next ht =>
  split
  · next hs => exact hsasl hvalid hs
  next hs =>
  split
  · next ha => exact hamqp hvalid ha
  · next ha => simp [isProtocolValidNow, ht, hs, ha] at hvalid

/-- The protocols that a client may ask for in a state. -/
def acceptedIn : ConnectionState → Option Protocols
  | .waitingOnClientNegotiationRequest => some ⟨true, true, true⟩
  | .waitingOnTlsTunnelledRequest => some ⟨false, true, true⟩
  | .waitingOnAmqpNegotiationRequest => some ⟨false, false, true⟩
  | _ => none

/-- These are on the way up. -/
theorem not_down_of_acceptedIn {n : ConnectionState} {accepted : Protocols}
    (h : acceptedIn n = some accepted) : ¬ n.Down := by
  cases n <;> simp [acceptedIn, ConnectionState.Down] at h ⊢

theorem begin_rule {version : Nat} (hcrash : acceptedIn c.name = none → MayCrash q c)
    (h : ∀ accepted, acceptedIn c.name = some accepted →
      Ends p q (establishTunnelAfterClientRequest call version accepted c)) :
    Ends p q (begin call version c) := by
  unfold begin
  cases hs : c.name with
  | waitingOnClientNegotiationRequest => exact h _ (by rw [hs]; rfl)
  | waitingOnTlsTunnelledRequest => exact h _ (by rw [hs]; rfl)
  | waitingOnAmqpNegotiationRequest => exact h _ (by rw [hs]; rfl)
  | _ => exact hcrash (by rw [hs]; rfl) _ (by decide)

theorem reject_rule {version : Nat} (hcrash : c.reject = none → MayCrash q c)
    (h : c.reject.isSome → Ends p q (rejectProtocolVersion call version c)) :
    Ends p q (reject call version c) := by
  unfold reject
  cases hs : c.reject with
  | some action => exact h (by rw [hs]; rfl)
  | none => exact hcrash hs _ (by decide)

/-! ## The function pointers -/

theorem done_rule (hcrash : MayCrash q c)
    (hsocket : c.name = .connectingSocket → Ends r q (enableIo call c))
    (hstart : ∀ c1, r c1 → Ends p q (startNextProtocol call { c1 with handshake := c1.protocols }))
    (htls : c.name = .connectingTls → Ends p q (startNextProtocol call c))
    (hsasl : c.name = .connectingSasl → Ends p q (startNextProtocol call { c with saslConnected := true }))
    (hamqp : c.name = .connectingAmqp → Ends p q (call .amqpSendOpen
      (transitionTo .amqpTunnelEstablished { c with isClient := true })))
    (herror : c.name = .sendingErrorMessage → Ends p q (call .shutdownDrain c))
    (htlsAccepted : c.name = .acceptingTls → Ends p q (doneWhileAcceptingTls call c))
    (hsaslAccepted : c.name = .acceptingSasl → Ends s q (call .negotiatorReset
      { transitionTo .waitingOnAmqpNegotiationRequest c with saslConnected := true }))
    (hwait : ∀ c1, s c1 → Ends p q (call .negotiatorWait c1))
    (hamqpAccepted : c.name = .acceptingAmqp → Ends p q (call .amqpWaitOnOpen (transitionTo .tunnelAccepted c)))
    (houtput : c.name = .stoppingOutput → Ends p q (doneWhileStoppingOutput call c))
    (hfailed : c.name = .stopping ∨ c.name = .timeout → p (connectionHalt (transitionTo .failed c)))
    (hstopped : c.name = .stopping → p (connectionHalt (transitionTo .stopped c))) :
    Ends p q (done call c) := by
  unfold done
  cases hs : c.name with
  | connectingSocket => exact (hsocket hs).bind hstart
  | connectingTls => exact htls hs
  | connectingSasl => exact hsasl hs
  | connectingAmqp => exact hamqp hs
  | sendingErrorMessage => exact herror hs
  | acceptingTls => exact htlsAccepted hs
  | acceptingSasl => exact (hsaslAccepted hs).bind hwait
  | acceptingAmqp => exact hamqpAccepted hs
  | stoppingOutput => exact houtput hs
  | stopping =>
    dsimp only [doneWhileStopping]
    split
    · exact hfailed (.inl hs)
    · exact hstopped hs
    · exact hcrash _ (by decide)
  | timeout => exact hfailed (.inr hs)
  | _ => exact hcrash _ (by decide)

theorem doneWhileAcceptingTls_rule
    (hreset : Ends r q (call .negotiatorReset (transitionTo .waitingOnTlsTunnelledRequest c)))
    (hwait : ∀ c1, r c1 → Ends (MayCrash q) q (call .negotiatorWait c1)) :
    Ends p q (doneWhileAcceptingTls call c) :=
  hreset.bind fun c1 h1 => (hwait c1 h1).bind fun _ h2 => h2 _ (by decide)

theorem fail_rule (hcrash : MayCrash q c)
    (hdrain : c.name = .connectingSasl ∨ c.name = .connectingAmqp ∨ c.name = .acceptingSasl →
      Ends p q (call .shutdownDrain c))
    (hhalt : c.name = .stopping ∨ c.name = .timeout → p (connectionHalt (transitionTo .failed c)))
    (hshutdown : c.name ≠ .stopping → c.name ≠ .timeout → Ends p q (shutdownConnection call .abortSocket c)) :
    Ends p q (fail call c) := by
  unfold fail
  cases hs : c.name with
  | connectingSocket => exact hcrash _ (by decide)
  | connectingTls => exact hcrash _ (by decide)
  | acceptingTls => exact hcrash _ (by decide)
  | acceptingAmqp => exact hcrash _ (by decide)
  | connectingSasl => exact hdrain (.inl hs)
  | connectingAmqp => exact hdrain (.inr (.inl hs))
  | acceptingSasl => exact hdrain (.inr (.inr hs))
  | stopping => exact hhalt (.inl hs)
  | timeout => exact hhalt (.inr hs)
  | _ => exact hshutdown (by simp [hs]) (by simp [hs])

theorem drain_rule (hdown : c.name.Down → p c)
    (h : c.name ≠ .stopped → c.name ≠ .failed → c.name ≠ .timeout →
      Ends p q (shutdownConnection call .completeWriteDrainInputAndCloseSocket c)) :
    Ends p q (drain call c) := by
  unfold drain
  cases hs : c.name with
  | stopped => exact hdown (hs ▸ trivial)
  | failed => exact hdown (hs ▸ trivial)
  | timeout => exact hdown (hs ▸ trivial)
  | _ => exact h (by simp [hs]) (by simp [hs]) (by simp [hs])

theorem shutdown_rule (hdefault : c.shutdown = .default → Ends p q (call .shutdownClose c))
    (hnothing : c.shutdown = .doNothing ∨ c.shutdown = .shutdownWhileInProgress → p c)
    (hclose : c.shutdown = .applicationCloseWhileOpened → Ends p q (AmqpConnection.beginConnectionClose call c)) :
    Ends p q (shutdown call c) := by
  unfold shutdown
  cases hs : c.shutdown with
  | default => exact hdefault hs
  | doNothing => exact hnothing (.inl hs)
  | shutdownWhileInProgress => exact hnothing (.inr hs)
  | applicationCloseWhileOpened => exact hclose hs

theorem timeout_rule {readIdle writeIdle : Bool} (hcrash : c.timeout = .default → MayCrash q c)
    (hstop : c.timeout = .whileStoppingOutput ∨ c.timeout = .whileDrainingInput →
      Ends p q (stopActivity call (transitionTo .timeout c)))
    (hclose : c.timeout = .whileOpened → readIdle = true → Ends p q (AmqpConnection.beginConnectionClose call c))
    (hempty : c.timeout = .whileOpened → Ends p q (call (.writerWrite .emptyFrame) c))
    (hbusy : c.timeout = .whileOpened → p c)
    (hsent : c.timeout = .whileCloseSent →
      Ends p q (call .shutdownDrain (AmqpConnection.transitionToClosed c)))
    (hclosed : c.timeout = .whileClosed → Ends p q (call .shutdownClose c)) :
    Ends p q (timeout call readIdle writeIdle c) := by
  unfold timeout
  cases hs : c.timeout with
  | default => exact hcrash hs _ (by decide)
  | whileStoppingOutput => exact hstop (.inl hs)
  | whileDrainingInput => exact hstop (.inr hs)
  | whileOpened =>
    dsimp only [AmqpConnection.timeoutExpiredWhileOpened]
    split
    · next hread => exact hclose hs hread
    split
    · exact hempty hs
    · exact hbusy hs
  | whileCloseSent => exact hsent hs
  | whileClosed => exact hclosed hs

end Machine

/-! ## Callbacks -/

variable {d : FrameDecoders}

theorem confirmCallback_rule (hcrash : MayCrash q c)
    (henable : c.confirm = some .saslVersionAccepted →
      Ends r q (call .frameEnable { c with sasl := .waitingOnSaslMechanisms }))
    (hread : ∀ c1, r c1 → Ends p q (call (.frameRead .sasl) c1))
    (htunnel : c.confirm = some .amqpVersionAccepted →
      Ends p q (call .connectionDone { c with amqpTunnel := .negotiated }))
    (hsasl : c.confirm = some .saslBrokerVersionSent → Ends p q (call .saslDone c))
    (hamqp : c.confirm = some .amqpDone → Ends p q (call .tunnelDone c))
    (hdone : c.confirm = some .connectionDone → Ends p q (call .connectionDone c)) :
    Ends p q (dispatch d call .confirmCallback c) := by
  dsimp only [dispatch]
  cases hs : c.confirm with
  | none => exact hcrash _ (by decide)
  | some callback =>
    cases callback with
    | tlsVersionAccepted => exact hcrash _ (by decide)
    | saslVersionAccepted => exact (henable hs).bind hread
    | amqpVersionAccepted => exact htunnel hs
    | saslBrokerVersionSent => exact hsasl hs
    | amqpDone => exact hamqp hs
    | connectionDone => exact hdone hs

theorem rejectCallback_rule {version : Nat} (hcrash : MayCrash q c)
    (hsasl : c.rejectCallback = some .saslVersionRejected →
      Ends p q (call .connectionFail { c with sasl := .failed }))
    (hamqp : c.rejectCallback = some .amqpVersionRejected →
      Ends p q (call .connectionFail { c with amqpTunnel := .failed })) :
    Ends p q (dispatch d call (.rejectCallback version) c) := by
  dsimp only [dispatch]
  cases hs : c.rejectCallback with
  | none => exact hcrash _ (by decide)
  | some callback =>
    cases callback with
    | tlsVersionRejected => exact hcrash _ (by decide)
    | saslVersionRejected => exact hsasl hs
    | amqpVersionRejected => exact hamqp hs

theorem requestCallback_rule {version : Nat} (hcrash : c.request = false → MayCrash q c)
    (h : c.request = true → Ends p q (call (.connectionBegin version) c)) :
    Ends p q (dispatch d call (.requestCallback version) c) := by
  dsimp only [dispatch]
  split
  · next hr => exact h hr
  · next hr => exact hcrash (Bool.eq_false_iff.2 hr) _ (by decide)

/-- The frame in the buffer, for the machine that asked for it. -/
def Decodes (d : FrameDecoders) (c : Connection) (f : PeerFrame) (i : Nat) : Prop :=
  c.frameCallback = some .sasl ∧ d.sasl c.buffer = some (f, i) ∨
    c.frameCallback = some .amqp ∧ d.amqp c.buffer = some (f, i)

theorem frameAvailable_rule (hcrash : MayCrash q c)
    (hframe : ∀ f i, Decodes d c f i → Ends p q (call (.frameDispatch f)
      { c with readIndex := i, trace := c.trace ++ [.receivedFrame f] }))
    (hsasl : c.frameCallback = some .sasl → d.sasl c.buffer = none → Ends p q (call .connectionFail c))
    (hamqp : c.frameCallback = some .amqp → d.amqp c.buffer = none → Ends p q (call .connectionShutdown c))
    (hdiscard : c.frameCallback = some .discard → Ends p q (call (.frameRead .discard) c)) :
    Ends p q (dispatch d call .frameAvailable c) := by
  dsimp only [dispatch]
  cases hs : c.frameCallback with
  | none => exact hcrash _ (by decide)
  | some callback =>
    cases callback with
    | sasl =>
      dsimp only [FrameCallback.available, Sasl.frameAvailable]
      cases hd : d.sasl c.buffer with
      | none => exact hsasl hs hd
      | some f => exact hframe f.1 f.2 (.inl ⟨hs, hd⟩)
    | amqp =>
      dsimp only [FrameCallback.available, AmqpConnection.frameAvailable]
      cases hd : d.amqp c.buffer with
      | none => exact hamqp hs hd
      | some f => exact hframe f.1 f.2 (.inr ⟨hs, hd⟩)
    | discard => exact hdiscard hs

/-! ## Steps -/

theorem connectTo_rule {lookup : Option Nat}
    (hconnect : c.protocols.amqp = true → Ends p q (call (.connectionConnect lookup) c))
    (hfail : c.protocols.amqp = false → Ends p q (call .connectionFail c)) :
    Ends p q (c.connectTo call lookup) := by
  unfold Connection.connectTo
  split
  · next h => exact hconnect h
  · next h => exact hfail (Bool.eq_false_iff.2 h)

theorem acceptSocket_rule
    (hio : Ends r q (Machine.enableIo call
      { Machine.transitionTo .waitingOnClientNegotiationRequest c with socket := .accepted }))
    (hwait : ∀ c1, r c1 → Ends p q (call .negotiatorWait c1)) : Ends p q (c.acceptSocket call) :=
  hio.bind hwait

theorem Connection.handle_destroyed {event : Event} (hd : c.destroyed = true) :
    c.handle call event = .ok c := by
  simp [Connection.handle, hd]

/-- The bytes that are waited for are read. -/
theorem Connection.handle_data {bytes : List UInt8} {inLoop : Bool} (hd : c.destroyed = false)
    (hr : c.isReading ∧ bytes.length = c.required) :
    c.handle call (.data bytes inLoop) = Reader.readComplete call bytes inLoop c := by
  simp [Connection.handle, hd, hr]

theorem Connection.handle_eof {isPartial : Bool} (hd : c.destroyed = false) (hr : c.isReading = true) :
    c.handle call (.readReady (.eof isPartial)) = Reader.readEof call isPartial c := by
  simp [Connection.handle, hd, hr]

theorem handle_rule {event : Event} (hidle : p c)
    (hconnect : ∀ lookup, event = .connect lookup → c.accepted = false → Ends p q (c.connectTo call lookup))
    (haccept : event = .accept → c.name = .initialized → c.accepted = true → Ends p q (c.acceptSocket call))
    (hshutdown : event = .shutdown → Ends p q (call .connectionShutdown c))
    (hready : ∀ isConnected, event = .connectReady isConnected → c.connectWatcher = true →
      Ends p q (Socket.connectEvent call isConnected c))
    (hdata : ∀ bytes inLoop, event = .data bytes inLoop → c.destroyed = false → c.isReading = true →
      bytes.length = c.required → Ends p q (Reader.readComplete call bytes inLoop c))
    (heof : ∀ isPartial, event = .readReady (.eof isPartial) → c.isReading = true →
      Ends p q (Reader.readEof call isPartial c))
    (herror : event = .readReady .error → c.isReading = true → Ends p q (call .readerFail c))
    (hwrite : event = .writeReady → c.isWriting = true → Ends p q (call .writerContinue c))
    (htimer : ∀ readIdle writeIdle, event = .timer readIdle writeIdle → c.timer = true →
      Ends p q (call (.connectionTimeout readIdle writeIdle) c)) :
    Ends p q (c.handle call event) := by
  unfold Connection.handle
  split
  · exact hidle
  next hdestroyed =>
  cases event with
  | connect lookup =>
    dsimp only
    split
    · exact hidle
    · next ha => exact hconnect lookup rfl (Bool.eq_false_iff.2 ha)
  | accept =>
    dsimp only
    split
    · next ha => exact haccept rfl ha.1 ha.2
    · exact hidle
  | shutdown => exact hshutdown rfl
  | connectReady isConnected =>
    dsimp only
    split
    · next hw => exact hready isConnected rfl hw
    · exact hidle
  | data bytes inLoop =>
    dsimp only
    split
    · next hr => exact hdata bytes inLoop rfl (Bool.eq_false_iff.2 hdestroyed) hr.1 hr.2
    · exact hidle
  | readReady result =>
    dsimp only
    split
    · next hr =>
      cases result with
      | again => exact hidle
      | eof isPartial => exact heof isPartial rfl hr
      | error => exact herror rfl hr
    · exact hidle
  | writeReady =>
    dsimp only
    split
    · next hw => exact hwrite rfl hw
    · exact hidle
  | timer readIdle writeIdle =>
    dsimp only
    split
    · next ht => exact htimer readIdle writeIdle rfl ht
    · exact hidle

end Amqp
