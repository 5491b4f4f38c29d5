import LibAmqp.Connection.Proof.MachineRules

/-!
# The timer of a connection always has a handler

One timer serves four purposes, and every transition of the connection machine overwrites what its
expiry calls. `Paired` says which states go with a running timer: it is started only once a tunnel
is established or the connection comes to its end, and the transitions that leave the default in
place are made while it is stopped, or by the last steps of a connection, which stop it.
-/

namespace Amqp

open Lib

namespace Timer

/-- The states from which the timer may be running. -/
def Late (name : ConnectionState) : Prop :=
  name = .amqpTunnelEstablished ∨ name = .tunnelAccepted ∨ name.Down

instance : DecidablePred Late := fun _ => inferInstanceAs (Decidable (_ ∨ _ ∨ _))

/-- The states that are left before the call returns that entered them. -/
def Passing (name : ConnectionState) : Prop := name = .stopping ∨ name = .timeout

instance : DecidablePred Passing := fun _ => inferInstanceAs (Decidable (_ ∨ _))

/-- What a running timer goes with. -/
structure Paired (name : ConnectionState) (shutdown : ShutdownAction) (timeout : TimeoutAction)
    (amqp : AmqpState) (timer : Bool) (socket : SocketState) : Prop where
  late : timer = true → Late name
  handled : timer = true → timeout ≠ .default ∨ Passing name
  closes : shutdown = .applicationCloseWhileOpened → Late name
  expires : timeout = .whileOpened ∨ timeout = .whileCloseSent ∨ timeout = .whileClosed → Late name
  amqp : amqp ≠ .initialized → Late name
  resolved : socket ≠ .resolving

def Inv (c : Connection) : Prop := Paired c.name c.shutdown c.timeout c.amqp c.timer c.socket

/-- If the timer expires now, there is a handler. -/
def Handled (c : Connection) : Prop := c.timer = true → c.timeout ≠ .default

def Good (c : Connection) : Prop := Inv c ∧ Handled c

/-- What every function keeps. -/
def Keeps (c c' : Connection) : Prop := Good c' ∧ (Late c.name → Late c'.name)

def pre : Action → Connection → Prop
  | .connectionDone, c | .connectionFail, c => Inv c
  | .writerAbort, c | .readerStop, c | .socketShutdown, c => Inv c ∧ Passing c.name
  | .socketFail, c => Inv { c with socket := .failed }
  | .connectionReject _, c | .saslAccept _, c | .tunnelAccept _, c => Good c ∧ ¬ Late c.name
  | .amqpSendOpen, c | .amqpWaitOnOpen, c => Good c ∧ Late c.name
  | _, c => Good c

def post : Action → Connection → Connection → Prop
  | .writerAbort, _, c' | .readerStop, _, c' => Inv c' ∧ Passing c'.name
  | .readerEnable, c, c' | .writerEnable, c, c' => Good c' ∧ c'.name = c.name
  | _, c, c' => Keeps c c'

/-- Calls that do what they should. -/
def Respects (call : Calls) : Prop :=
  ∀ a c, pre a c → Ends (post a c) (fun _ => True) (call a c)

/-! ## What keeps the invariant -/

theorem late_of_passing {n : ConnectionState} (h : Passing n) : Late n := by
  rcases h with rfl | rfl <;> exact .inr (.inr trivial)

theorem late_of_down {n : ConnectionState} (h : n.Down) : Late n := .inr (.inr h)

theorem Good.refl {c : Connection} (h : Good c) : Keeps c c := ⟨h, id⟩

/-- A call after one that kept what it should. -/
theorem Keeps.after {c x : Connection} {r : Outcome} (hlate : Late c.name → Late x.name)
    (h : Ends (Keeps x) (fun _ => True) r) : Ends (Keeps c) (fun _ => True) r :=
  h.mono (fun _ h' => ⟨h'.1, h'.2 ∘ hlate⟩) fun _ he => he

/-- The timer is stopped for good. -/
theorem Inv.halt {c : Connection} (h : Inv c) {n : ConnectionState} (hn : n.Down) :
    Keeps c (Machine.connectionHalt (Machine.transitionTo n c)) := by
  refine ⟨⟨⟨?_, ?_, fun _ => late_of_down hn, fun _ => late_of_down hn, fun _ => late_of_down hn,
    h.resolved⟩, ?_⟩, fun _ => late_of_down hn⟩
  · intro ht
    cases ht
  · intro ht
    cases ht
  · intro ht
    cases ht

/-- On the way to the end, or through a state that does not last. -/
theorem Inv.transitionTo {c : Connection} (h : Inv c) {n : ConnectionState} (hdown : n.Down)
    (hn : n = .stoppingOutput ∨ n = .drainingInput ∨ Passing n) : Inv (Machine.transitionTo n c) where
  late := fun _ => late_of_down hdown
  handled := fun _ => by
    rcases hn with rfl | rfl | hn
    · exact .inl (by simp [Machine.transitionTo])
    · exact .inl (by simp [Machine.transitionTo])
    · exact .inr hn
  closes := fun _ => late_of_down hdown
  expires := fun _ => late_of_down hdown
  amqp := fun _ => late_of_down hdown
  resolved := h.resolved

/-- The handler of what is left to do is in place. -/
theorem handled_of_transitionTo (c : Connection) {n : ConnectionState}
    (hn : n = .stoppingOutput ∨ n = .drainingInput) : Handled (Machine.transitionTo n c) := by
  intro _
  rcases hn with rfl | rfl <;> simp [Machine.transitionTo]

/-- A transition that does not end the connection is made while the timer is stopped. -/
theorem Inv.moveTo {c : Connection} (h : Inv c) {n : ConnectionState} (hearly : ¬ Late c.name)
    (hn : ¬ n.Down) : Good (Machine.transitionTo n c) := by
  have htimer : c.timer ≠ true := fun ht => hearly (h.late ht)
  have htimeout : (Machine.transitionTo n c).timeout = .default := by
    cases n <;> first | rfl | exact absurd trivial hn
  have hshutdown : (Machine.transitionTo n c).shutdown = .default := by
    cases n <;> first | rfl | exact absurd trivial hn
  refine ⟨⟨fun ht => absurd ht htimer, fun ht => absurd ht htimer, fun hs => ?_, fun ht => ?_, fun ha => ?_,
    h.resolved⟩, fun ht => absurd ht htimer⟩
  · rw [hshutdown] at hs
    cases hs
  · rw [htimeout] at ht
    rcases ht with ht | ht | ht <;> cases ht
  · exact absurd (h.amqp ha) hearly

/-- A pointer of the AMQP machine is in place. -/
theorem Inv.opens {c : Connection} (h : Inv c) (hlate : Late c.name) {amqp : AmqpState}
    {shutdown : ShutdownAction} {t : TimeoutAction} {timer : Bool} (ht : t ≠ .default) :
    Good { c with amqp := amqp, shutdown := shutdown, timeout := t, timer := timer } :=
  ⟨⟨fun _ => hlate, fun _ => .inl ht, fun _ => hlate, fun _ => hlate, fun _ => hlate, h.resolved⟩,
    fun _ => ht⟩

section Functions

variable {call : Calls} (hcall : Respects call) {c : Connection}

include hcall

/-! The writer. -/

theorem writerStop_ends (h : Good c) : Ends (Keeps c) (fun _ => True) (Writer.writerStop call c) :=
  hcall .connectionDone { Writer.writerCleanup c with stoppedCallback := false } h.1

theorem continueWriteOperation_ends (h : Good c) :
    Ends (Keeps c) (fun _ => True) (Writer.continueWriteOperation call c) :=
  Writer.continueWriteOperation_rule (hcall .writerComplete { c with writes := c.writes.tail } h) ⟨h, id⟩
    fun _ => hcall .writerFail { c with writes := c.writes.tail } h

theorem write_ends {m : Message} (h : Good c) : Ends (Keeps c) (fun _ => True) (Writer.write call m c) :=
  Writer.write_rule (fun _ => mayCrash_true c) fun _ =>
    continueWriteOperation_ends hcall (c := { c with writer := .writing, trace := _ }) h

theorem continueWrite_ends (h : Good c) : Ends (Keeps c) (fun _ => True) (Writer.continueWrite call c) :=
  Writer.continueWrite_rule (mayCrash_true c) (fun _ => h.refl) fun _ => continueWriteOperation_ends hcall h

theorem writeComplete_ends (h : Good c) : Ends (Keeps c) (fun _ => True) (Writer.writeComplete call c) :=
  Writer.writeComplete_rule (mayCrash_true c) (fun _ => ⟨h, id⟩) fun _ => writerStop_ends hcall h

theorem stop_ends (h : Good c) : Ends (Keeps c) (fun _ => True) (Writer.stop call c) :=
  Writer.stop_rule (fun _ => writerStop_ends hcall h) (fun _ => ⟨h, id⟩) fun _ => hcall .connectionDone c h.1

theorem writerFail_ends (h : Good c) : Ends (Keeps c) (fun _ => True) (Writer.fail call c) :=
  Writer.fail_rule (mayCrash_true c) fun _ => hcall .connectionFail { c with writer := .failed } h.1

/-! The reader. -/

theorem callReadCallback_ends {amount : Nat} (h : Good c) :
    Ends (Keeps c) (fun _ => True) (Reader.callReadCallback call amount c) :=
  Reader.callReadCallback_rule (mayCrash_true c) fun callback _ =>
    hcall (.readDone callback _ amount) { c with readCallback := none, readQueued := false } h

theorem readEof_ends {isPartial : Bool} (h : Good c) :
    Ends (Keeps c) (fun _ => True) (Reader.readEof call isPartial c) :=
  Reader.readEof_rule (fun _ => hcall .connectionFail { c with reader := .failed } h.1)
    (callReadCallback_ends hcall (c := { c with reader := .eof }) h)

theorem readWhatIsBuffered_ends (h : Good c) :
    Ends (Keeps c) (fun _ => True) (Reader.readWhatIsBuffered call c) :=
  Reader.readWhatIsBuffered_rule (mayCrash_true c) ⟨h, id⟩
    (fun _ _ => readEof_ends hcall (c := { c with reads := c.reads.tail }) h)
    fun _ => hcall .readerFail { c with reads := c.reads.tail } h

theorem commenceRead_ends {required : Nat} {callback : ReadCallback} (h : Good c) :
    Ends (Keeps c) (fun _ => True) (Reader.commenceRead call required callback c) :=
  Reader.commenceRead_rule (mayCrash_true c)
    (fun _ => readWhatIsBuffered_ends hcall
      (c := Reader.queueReadOperation required callback { c with reader := .reading }) h)
    (fun _ _ _ => ⟨h, id⟩)
    fun _ => callReadCallback_ends hcall (c := { c with reader := _, readCallback := _ }) h

theorem delayedReadWhileReading_ends (h : Good c) :
    Ends (Keeps c) (fun _ => True) (Reader.delayedReadWhileReading call c) :=
  Reader.delayedReadWhileReading_rule
    (fun _ => readWhatIsBuffered_ends hcall (c := { c with reader := .reading }) h) fun _ => ⟨h, id⟩

theorem readerFail_ends (h : Good c) : Ends (Keeps c) (fun _ => True) (Reader.fail call c) :=
  Reader.fail_rule (mayCrash_true c) fun _ => hcall .connectionFail { c with reader := .failed } h.1

/-- The bytes of a read have come. -/
theorem readComplete_ends {bytes : List UInt8} {inLoop : Bool} (h : Good c) :
    Ends (Keeps c) (fun _ => True) (Reader.readComplete call bytes inLoop c) :=
  Reader.readComplete_rule (r := Keeps c)
    (callReadCallback_ends hcall (c := { c with buffer := c.buffer ++ bytes }) h)
    (fun _ _ h1 => Keeps.after h1.2 (delayedReadWhileReading_ends hcall h1.1))
    fun _ c1 h1 => Keeps.after h1.2 (hcall .readerDelayed c1 h1.1)

/-! The socket. -/

omit hcall in
/-- The socket is in any state but the one of a lookup. -/
theorem Inv.socket {s : SocketState} (h : Inv c) (hs : s ≠ .resolving) :
    Paired c.name c.shutdown c.timeout c.amqp c.timer s := { h with resolved := hs }

theorem connectionAttemptFailed_ends (h : Good c) :
    Ends (Keeps c) (fun _ => True) (Socket.connectionAttemptFailed call c) :=
  Socket.connectionAttemptFailed_rule (fun _ => hcall .socketTryConnect c h)
    (hcall .socketFail c (h.1.socket (by simp)))

theorem tryConnect_ends (h : Good c) : Ends (Keeps c) (fun _ => True) (Socket.tryConnect call c) :=
  Socket.tryConnect_rule (mayCrash_true c)
    (fun _ _ => connectionAttemptFailed_ends hcall (c := { c with addresses := _, connects := _ }) h)
    (fun _ => hcall .socketDone { c with addresses := c.addresses - 1, connects := c.connects.tail } h)
    fun _ => ⟨h, id⟩

theorem socketConnect_ends {lookup : Option Nat} (h : Good c) :
    Ends (Keeps c) (fun _ => True) (Socket.connect call lookup c) :=
  Socket.connect_rule (mayCrash_true c)
    (fun _ _ => hcall .socketFail { c with socket := .resolving, hostname := true } (h.1.socket (by simp)))
    fun _ n _ => hcall .socketTryConnect { c with socket := .connecting, hostname := true, addresses := n }
      ⟨h.1.socket (by simp), h.2⟩

theorem socketDone_ends (h : Good c) : Ends (Keeps c) (fun _ => True) (Socket.done call c) :=
  Socket.done_rule (mayCrash_true c) fun _ =>
    hcall .connectionDone { c with socket := .connected, addresses := 0 } (h.1.socket (by simp))

theorem socketFail_ends (h : Inv { c with socket := .failed }) :
    Ends (Keeps c) (fun _ => True) (Socket.fail call c) :=
  Socket.fail_rule (mayCrash_true c) fun _ =>
    hcall .connectionFail { c with socket := .failed, connectWatcher := false, addresses := 0 } h

theorem socketShutdown_ends (h : Inv c) : Ends (Keeps c) (fun _ => True) (Socket.shutdown call c) :=
  Socket.shutdown_rule (fun hs => absurd hs h.resolved) fun _ => hcall .connectionDone
    { c with socket := .stopped, connectWatcher := false, addresses := 0 } (h.socket (by simp))

/-! The shutdown of a connection. -/

/-- What is left to do in a state that does not last. -/
theorem stopActivity_ends (h : Inv c) (hpassing : Passing c.name) :
    Ends (Keeps c) (fun _ => True) (Machine.stopActivity call c) :=
  Machine.stopActivity_rule (hcall .writerAbort c ⟨h, hpassing⟩) (fun c1 h1 => hcall .readerStop c1 h1)
    fun c2 h2 => Keeps.after (fun _ => late_of_passing h2.2) (hcall .socketShutdown c2 h2)

theorem stopInput_ends (h : Inv c) : Ends (Keeps c) (fun _ => True) (Machine.stopInput call c) :=
  Machine.stopInput_rule (hcall .readerStop (Machine.transitionTo .stopping c)
    ⟨h.transitionTo (n := .stopping) trivial (.inr (.inr (.inl rfl))), .inl rfl⟩)
    fun c1 h1 => Keeps.after (fun _ => late_of_passing h1.2) (hcall .socketShutdown c1 h1)

theorem shutdownConnection_ends {m : ShutdownMode} (h : Inv c) :
    Ends (Keeps c) (fun _ => True) (Machine.shutdownConnection call m c) := by
  refine Machine.shutdownConnection_rule (fun _ => ?_) fun _ => ?_
  · refine Keeps.after (x := Machine.transitionTo .stoppingOutput
      { c with handshake := m.toProtocols, timer := true }) (fun _ => late_of_down trivial)
      (hcall .writerStop _ ⟨⟨fun _ => late_of_down trivial, ?_, ?_, ?_, ?_, h.resolved⟩,
        handled_of_transitionTo _ (.inl rfl)⟩)
    · exact fun _ => .inl (by simp [Machine.transitionTo])
    all_goals exact fun _ => late_of_down trivial
  · exact Keeps.after (x := Machine.transitionTo .stopping { c with handshake := m.toProtocols })
      (fun _ => late_of_down trivial) (stopActivity_ends hcall
      (c := Machine.transitionTo .stopping { c with handshake := m.toProtocols })
      (Inv.transitionTo (c := { c with handshake := m.toProtocols }) h trivial (.inr (.inr (.inl rfl))))
      (.inl rfl))

theorem drain_ends (h : Good c) : Ends (Keeps c) (fun _ => True) (Machine.drain call c) :=
  Machine.drain_rule (fun _ => h.refl) fun _ _ _ => shutdownConnection_ends hcall h.1

omit hcall in
/-- A running timer has a handler, unless the state does not last. -/
theorem Inv.good (h : Inv c) (hp : ¬ Passing c.name) : Good c :=
  ⟨h, fun ht => (h.handled ht).resolve_right hp⟩

theorem fail_ends (h : Inv c) : Ends (Keeps c) (fun _ => True) (Machine.fail call c) := by
  refine Machine.fail_rule (mayCrash_true c) (fun hname => hcall .shutdownDrain c (h.good ?_))
    (fun _ => h.halt (n := .failed) trivial) fun _ _ => shutdownConnection_ends hcall h
  rcases hname with hname | hname | hname
  all_goals simp [hname, Passing]

theorem beginConnectionClose_ends (h : Good c) (hlate : Late c.name) :
    Ends (Keeps c) (fun _ => True) (AmqpConnection.beginConnectionClose call c) :=
  AmqpConnection.beginConnectionClose_rule (hcall (.writerWrite .amqpClose) c h) fun c1 h1 =>
    Keeps.after h1.2 (hcall (.frameRead .amqp) (AmqpConnection.transitionToCloseSent { c1 with timer := true })
      (h1.1.1.opens (h1.2 hlate) (t := .whileCloseSent) (by simp)))

theorem shutdown_ends (h : Good c) : Ends (Keeps c) (fun _ => True) (Machine.shutdown call c) :=
  Machine.shutdown_rule (fun _ => hcall .shutdownClose c h) (fun _ => h.refl)
    fun hs => beginConnectionClose_ends hcall h (h.1.closes hs)

theorem timeout_ends {readIdle writeIdle : Bool} (h : Good c) :
    Ends (Keeps c) (fun _ => True) (Machine.timeout call readIdle writeIdle c) := by
  refine Machine.timeout_rule (fun _ => mayCrash_true c) (fun _ => ?_)
    (fun ht _ => beginConnectionClose_ends hcall h (h.1.expires (.inl ht)))
    (fun _ => hcall (.writerWrite .emptyFrame) c h) (fun _ => h.refl) (fun ht => ?_)
    fun _ => hcall .shutdownClose c h
  · exact Keeps.after (x := Machine.transitionTo .timeout c) (fun _ => late_of_down trivial)
      (stopActivity_ends hcall (h.1.transitionTo (n := .timeout) trivial (.inr (.inr (.inr rfl)))) (.inr rfl))
  · exact hcall .shutdownDrain (AmqpConnection.transitionToClosed c)
      (h.1.opens (h.1.expires (.inr (.inl ht))) (t := .whileClosed) (by simp))

omit hcall in
/-- The input is drained. -/
theorem drainInput_good (timer : Bool) (h : Inv c) : Good (Machine.drainInput { c with timer := timer }) :=
  ⟨⟨fun _ => late_of_down trivial, fun _ => .inl (by simp [Machine.drainInput, Machine.transitionTo,
    Connection.resetBuffer]), fun _ => late_of_down trivial, fun _ => late_of_down trivial,
    fun _ => late_of_down trivial, h.resolved⟩, handled_of_transitionTo _ (.inr rfl)⟩

theorem readDoneWhileDraining_ends {buffer : Bool} {amount : Nat} (h : Good c) :
    Ends (Keeps c) (fun _ => True) (Machine.readDoneWhileDrainingInput call buffer amount c) :=
  Machine.readDoneWhileDrainingInput_rule (mayCrash_true c)
    (fun _ => Keeps.after (x := Machine.drainInput c) (fun _ => late_of_down trivial)
      (hcall (.readerCommence Reader.capacity .connection) _ (drainInput_good c.timer h.1)))
    fun _ => stopInput_ends hcall h.1

theorem doneWhileStoppingOutput_ends (h : Inv c) :
    Ends (Keeps c) (fun _ => True) (Machine.doneWhileStoppingOutput call c) :=
  Machine.doneWhileStoppingOutput_rule (mayCrash_true c)
    (fun _ => hcall .readerReset (Machine.drainInput { c with timer := true }) (drainInput_good true h))
    (fun c1 h1 => Keeps.after (fun _ => h1.2 (late_of_down trivial))
      (hcall (.readerCommence Reader.capacity .connection) c1 h1.1))
    fun _ => stopInput_ends hcall h

/-! The way up. -/

theorem startNextProtocol_ends (h : Inv c) (hearly : ¬ Late c.name) :
    Ends (Keeps c) (fun _ => True) (Machine.startNextProtocol call c) :=
  Machine.startNextProtocol_rule
    (fun _ => Keeps.after (absurd · hearly) (hcall .tlsConnect { Machine.transitionTo .connectingTls c with
      handshake := { c.handshake with tls := false } } (h.moveTo hearly id)))
    (fun _ _ => Keeps.after (absurd · hearly) (hcall .saslConnect { Machine.transitionTo .connectingSasl c with
      handshake := { c.handshake with sasl := false } } (h.moveTo hearly id)))
    (fun _ _ => Keeps.after (absurd · hearly) (hcall .tunnelConnect { Machine.transitionTo .connectingAmqp c with
      handshake := { c.handshake with amqp := false } } (h.moveTo hearly id)))
    (hcall .connectionFail c h)

theorem enableIo_ends (h : Good c) :
    Ends (fun c' => Good c' ∧ c'.name = c.name) (fun _ => True) (Machine.enableIo call c) :=
  Machine.enableIo_rule (hcall .readerEnable c h) fun c1 h1 =>
    (hcall .writerEnable c1 h1.1).mono (fun _ h2 => ⟨h2.1, h2.2.trans h1.2⟩) fun _ he => he

theorem doneWhileAcceptingTls_ends (h : Inv c) (hearly : ¬ Late c.name) :
    Ends (Keeps c) (fun _ => True) (Machine.doneWhileAcceptingTls call c) :=
  Machine.doneWhileAcceptingTls_rule
    (hcall .negotiatorReset (Machine.transitionTo .waitingOnTlsTunnelledRequest c) (h.moveTo hearly id))
    fun c1 h1 => (hcall .negotiatorWait c1 h1.1).mono (fun c2 _ => mayCrash_true c2) fun _ he => he

theorem done_ends (h : Inv c) : Ends (Keeps c) (fun _ => True) (Machine.done call c) := by
  have hearly : ∀ {n : ConnectionState}, c.name = n → ¬ Late n → ¬ Late c.name := fun hname hn => hname ▸ hn
  have hgood : ∀ {n : ConnectionState}, c.name = n → ¬ Passing n → Good c := fun hname hn => h.good (hname ▸ hn)
  refine Machine.done_rule (r := fun c1 => Good c1 ∧ c1.name = c.name ∧ ¬ Late c.name)
    (s := fun c1 => Good c1 ∧ ¬ Late c.name) (mayCrash_true c) (fun hname => ?_) (fun c1 h1 => ?_)
    (fun hname => startNextProtocol_ends hcall h (hearly hname (by decide)))
    (fun hname => startNextProtocol_ends hcall (c := { c with saslConnected := true }) h
      (hearly hname (by decide)))
    (fun hname => ?_) (fun hname => hcall .shutdownDrain c (hgood hname (by decide)))
    (fun hname => doneWhileAcceptingTls_ends hcall h (hearly hname (by decide))) (fun hname => ?_)
    (fun c1 h1 => Keeps.after (absurd · h1.2) (hcall .negotiatorWait c1 h1.1)) (fun hname => ?_)
    (fun _ => doneWhileStoppingOutput_ends hcall h) (fun _ => h.halt (n := .failed) trivial)
    fun _ => h.halt (n := .stopped) trivial
  · exact (enableIo_ends hcall (hgood hname (by decide))).mono
      (fun c1 h1 => ⟨h1.1, h1.2, hearly hname (by decide)⟩) fun _ he => he
  · obtain ⟨hgood1, hname1, hlate⟩ := h1
    exact Keeps.after (absurd · hlate)
      (startNextProtocol_ends hcall (c := { c1 with handshake := c1.protocols }) hgood1.1 (hname1 ▸ hlate))
  · have hlate := hearly hname (by decide)
    exact Keeps.after (absurd · hlate) (hcall .amqpSendOpen
      (Machine.transitionTo .amqpTunnelEstablished { c with isClient := true })
      ⟨Inv.moveTo (c := { c with isClient := true }) h hlate id, .inl rfl⟩)
  · have hlate := hearly hname (by decide)
    exact (hcall .negotiatorReset { Machine.transitionTo .waitingOnAmqpNegotiationRequest c with
      saslConnected := true } (h.moveTo hlate id)).mono (fun c1 h1 => ⟨h1.1, hlate⟩) fun _ he => he
  · have hlate := hearly hname (by decide)
    exact Keeps.after (absurd · hlate) (hcall .amqpWaitOnOpen
      (Machine.transitionTo .tunnelAccepted c) ⟨h.moveTo hlate id, .inr (.inl rfl)⟩)

theorem connect_ends {lookup : Option Nat} (h : Good c) :
    Ends (Keeps c) (fun _ => True) (Machine.connect call lookup c) := by
  refine Machine.connect_rule (mayCrash_true c) fun hname => ?_
  have hearly : ¬ Late c.name := hname ▸ by decide
  exact Keeps.after (absurd · hearly) (hcall (.socketConnect lookup)
    (Machine.transitionTo .connectingSocket c) (h.1.moveTo hearly id))

/-! The negotiator. -/

theorem negotiatorStart_ends {version : Nat} {confirm : ConfirmCallback} {reject : RejectCallback}
    (h : Good c) : Ends (Keeps c) (fun _ => True) (Negotiator.start call version confirm reject c) :=
  Negotiator.start_rule (r := Keeps c) (mayCrash_true c)
    (fun _ => hcall (.writerWrite (.header version)) { c with
      preferredVersion := version, confirm := some confirm, rejectCallback := some reject,
      request := false } h)
    fun c1 h1 => Keeps.after h1.2 (hcall (.readerCommence amqpFrameHeaderSizeInBytes .negotiator)
      (Connection.resetBuffer { c1 with negotiator := .waitingForBrokerResponse }) h1.1)

theorem negotiatorWait_ends (h : Good c) : Ends (Keeps c) (fun _ => True) (Negotiator.wait call c) :=
  Negotiator.wait_rule (mayCrash_true c) fun _ => hcall (.readerCommence _ .negotiator) { c with
    negotiator := .waitingOnClientRequest, preferredVersion := 0, confirm := none,
    rejectCallback := none, request := true } h

theorem negotiatorSend_ends {version : Nat} {confirm : ConfirmCallback} (h : Good c) :
    Ends (Keeps c) (fun _ => True) (Negotiator.send call version confirm c) :=
  Negotiator.send_rule (r := Keeps c) (fun _ => mayCrash_true c)
    (fun _ => hcall (.writerWrite (.header version)) { c with
      preferredVersion := version, confirm := some confirm, rejectCallback := none, request := false } h)
    fun c1 h1 => Keeps.after h1.2 (hcall .confirmCallback { c1 with negotiator := .negotiated } h1.1)

theorem negotiatorReadDone_ends {buffer : Bool} {amount : Nat} (h : Good c) :
    Ends (Keeps c) (fun _ => True) (Negotiator.readDone call buffer amount c) :=
  Negotiator.readDone_rule (mayCrash_true c)
    (fun _ _ => hcall .connectionShutdown { c with negotiator := .failed } h)
    (fun _ _ _ => hcall .confirmCallback { Negotiator.consumeHeader c with negotiator := .negotiated } h)
    (fun _ _ _ => hcall (.rejectCallback _) { Negotiator.consumeHeader c with negotiator := .rejected } h)
    fun _ _ => hcall (.requestCallback _)
      { Negotiator.consumeHeader c with negotiator := .waitingToSendServerResponse } h

theorem confirm_ends {d : FrameDecoders} (h : Good c) :
    Ends (Keeps c) (fun _ => True) (dispatch d call .confirmCallback c) :=
  confirmCallback_rule (r := Keeps c) (mayCrash_true c)
    (fun _ => hcall .frameEnable { c with sasl := .waitingOnSaslMechanisms } h)
    (fun c1 h1 => Keeps.after h1.2 (hcall (.frameRead .sasl) c1 h1.1))
    (fun _ => hcall .connectionDone { c with amqpTunnel := .negotiated } h.1)
    (fun _ => hcall .saslDone c h) (fun _ => hcall .tunnelDone c h) fun _ => hcall .connectionDone c h.1

theorem rejectCallback_ends {d : FrameDecoders} {version : Nat} (h : Good c) :
    Ends (Keeps c) (fun _ => True) (dispatch d call (.rejectCallback version) c) :=
  rejectCallback_rule (mayCrash_true c) (fun _ => hcall .connectionFail { c with sasl := .failed } h.1)
    fun _ => hcall .connectionFail { c with amqpTunnel := .failed } h.1

/-! The server. -/

theorem rejectProtocolVersion_ends {version : Nat} (h : Inv c) (hearly : ¬ Late c.name) :
    Ends (Keeps c) (fun _ => True) (Machine.rejectProtocolVersion call version c) :=
  Keeps.after (absurd · hearly) (hcall (.negotiatorSend version .connectionDone)
    (Machine.transitionTo .sendingErrorMessage c) (h.moveTo hearly id))

theorem establish_ends {version : Nat} {accepted : Protocols} (h : Inv c) (hearly : ¬ Late c.name) :
    Ends (Keeps c) (fun _ => True) (Machine.establishTunnelAfterClientRequest call version accepted c) :=
  Machine.establish_rule (fun _ => rejectProtocolVersion_ends hcall h hearly)
    (fun _ _ => Keeps.after (absurd · hearly)
      (hcall (.tlsAccept version) (Machine.transitionTo .acceptingTls c) (h.moveTo hearly id)))
    (fun _ _ => Keeps.after (absurd · hearly) (hcall (.saslAccept version)
      (Machine.transitionTo .acceptingSasl c) ⟨h.moveTo hearly id, (by decide : ¬ Late .acceptingSasl)⟩))
    fun _ _ => Keeps.after (absurd · hearly) (hcall (.tunnelAccept version)
      (Machine.transitionTo .acceptingAmqp c) ⟨h.moveTo hearly id, (by decide : ¬ Late .acceptingAmqp)⟩)

omit hcall in
/-- The states in which a client may ask for a protocol. -/
theorem not_late_of_acceptedIn {n : ConnectionState} {accepted : Protocols}
    (h : Machine.acceptedIn n = some accepted) : ¬ Late n := by
  cases n <;> first | decide | cases h

theorem begin_ends {version : Nat} (h : Good c) :
    Ends (Keeps c) (fun _ => True) (Machine.begin call version c) :=
  Machine.begin_rule (fun _ => mayCrash_true c) fun _ haccepted =>
    establish_ends hcall h.1 (not_late_of_acceptedIn haccepted)

theorem saslAccept_ends {version : Nat} (h : Good c) (hearly : ¬ Late c.name) :
    Ends (Keeps c) (fun _ => True) (Sasl.accept call version c) :=
  Sasl.accept_rule (fun _ => mayCrash_true c)
    (fun _ _ => hcall (.connectionReject _) { c with sasl := .failed } ⟨h, hearly⟩)
    fun _ _ => hcall (.negotiatorSend _ .saslBrokerVersionSent) { c with sasl := .sendingHeaderResponse } h

theorem tunnelAccept_ends {version : Nat} (h : Good c) (hearly : ¬ Late c.name) :
    Ends (Keeps c) (fun _ => True) (AmqpTunnel.accept call version c) :=
  AmqpTunnel.accept_rule (fun _ => mayCrash_true c)
    (fun _ _ => hcall (.connectionReject _) { c with amqpTunnel := .failed } ⟨h, hearly⟩)
    fun _ _ => hcall (.negotiatorSend _ .amqpDone) { c with amqpTunnel := .sendingHeaderResponse } h

/-! SASL and the AMQP tunnel. -/

theorem saslConnect_ends (h : Good c) : Ends (Keeps c) (fun _ => True) (Sasl.connect call c) :=
  Sasl.connect_rule (mayCrash_true c) (fun _ => hcall .negotiatorReset c h) fun c1 h1 =>
    Keeps.after h1.2 (hcall (.negotiatorStart _ .saslVersionAccepted .saslVersionRejected) c1 h1.1)

theorem tunnelConnect_ends (h : Good c) : Ends (Keeps c) (fun _ => True) (AmqpTunnel.connect call c) :=
  AmqpTunnel.connect_rule (mayCrash_true c) (fun _ => hcall .negotiatorReset c h) fun c1 h1 =>
    Keeps.after h1.2 (hcall (.negotiatorStart _ .amqpVersionAccepted .amqpVersionRejected) c1 h1.1)

theorem saslDone_ends (h : Good c) : Ends (Keeps c) (fun _ => True) (Sasl.done call c) :=
  Sasl.done_rule (s := Keeps c) (mayCrash_true c) (fun _ _ => hcall .connectionFail c h.1)
    (fun _ => hcall (.writerWrite .saslMechanisms) c h)
    (fun c1 h1 => Keeps.after h1.2
      (hcall .frameEnable { c1 with sasl := .waitingOnSaslInitialResponseFrame } h1.1))
    fun c2 h2 => Keeps.after h2.2 (hcall (.frameRead .sasl) c2 h2.1)

theorem tunnelDone_ends (h : Good c) : Ends (Keeps c) (fun _ => True) (AmqpTunnel.done call c) :=
  AmqpTunnel.done_rule (mayCrash_true c) fun _ => hcall .connectionDone { c with amqpTunnel := .negotiated } h.1

omit hcall in
/-- The AMQP machine starts when the connection is late. -/
theorem Good.start (h : Good c) (hlate : Late c.name) {amqp : AmqpState} :
    Good { c with amqp := amqp } := ⟨{ h.1 with amqp := fun _ => hlate }, h.2⟩

theorem sendOpen_ends (h : Good c) (hlate : Late c.name) :
    Ends (Keeps c) (fun _ => True) (AmqpConnection.sendOpen call c) :=
  AmqpConnection.sendOpen_rule (s := Keeps c) (mayCrash_true c) (fun _ => hcall (.writerWrite .amqpOpen) c h)
    (fun c1 h1 => Keeps.after h1.2
      (hcall .frameEnable { c1 with amqp := .openSent } (h1.1.start (h1.2 hlate))))
    fun c2 h2 => Keeps.after h2.2 (hcall (.frameRead .amqp) c2 h2.1)

theorem waitOnOpen_ends (h : Good c) (hlate : Late c.name) :
    Ends (Keeps c) (fun _ => True) (AmqpConnection.waitOnOpen call c) :=
  AmqpConnection.waitOnOpen_rule (r := Keeps c) (mayCrash_true c)
    (fun _ => hcall .frameEnable { c with amqp := .waitingForOpenFrame } (h.start hlate))
    fun c1 h1 => Keeps.after h1.2 (hcall (.frameRead .amqp) c1 h1.1)

/-! Frames. -/

theorem frameRead_ends {callback : FrameCallback} (h : Good c) :
    Ends (Keeps c) (fun _ => True) (FrameReader.read call callback c) :=
  FrameReader.read_rule (mayCrash_true c)
    (fun _ => hcall (.readerCommence _ .frameReader) { c.resetBuffer with
      frameReader := .readingFrameHeader, frameCallback := some callback } h) fun _ => h.refl

/-- A frame that the SASL machine does not wait for. -/
theorem outOfSequenceSaslFrame_ends (h : Good c) :
    Ends (Keeps c) (fun _ => True) (call .connectionFail c.frameCleanup) :=
  hcall .connectionFail c.frameCleanup h.1

/-- A frame that the AMQP machine does not wait for. -/
theorem outOfSequenceFrame_ends (h : Good c) :
    Ends (Keeps c) (fun _ => True) (call .connectionShutdown c.frameCleanup) :=
  hcall .connectionShutdown c.frameCleanup h

theorem mechanismsFrame_ends {names : List (List UInt8)} (h : Good c) :
    Ends (Keeps c) (fun _ => True) (Sasl.mechanismsFrame call names c) :=
  Sasl.mechanismsFrame_rule (r := Keeps c) (mayCrash_true c) (fun _ => outOfSequenceSaslFrame_ends hcall h)
    (fun _ plugin => hcall .connectionFail { c with plugin := plugin } h.1)
    (fun _ plugin _ => hcall (.writerWrite .saslInit) { c with plugin := some plugin } h)
    fun c1 h1 => Keeps.after h1.2 (hcall (.frameRead .sasl)
      { c1.frameCleanup with sasl := .waitingOnSaslChallengeOrOutcome } h1.1)

theorem initFrame_ends {mechanism : List UInt8} (h : Good c) :
    Ends (Keeps c) (fun _ => True) (Sasl.initFrame call mechanism c) :=
  Sasl.initFrame_rule (r := Keeps c) (mayCrash_true c) (fun _ => outOfSequenceSaslFrame_ends hcall h)
    (fun _ => (hcall .connectionFail c h.1).mono (fun c1 _ => mayCrash_true c1.frameCleanup) fun _ he => he)
    (fun _ plugin _ _ => hcall (.writerWrite .saslOutcome) { c with plugin := some plugin } h)
    fun c1 h1 => Keeps.after h1.2
      (hcall .connectionDone { c1.frameCleanup with sasl := .negotiated } h1.1.1)

theorem outcomeFrame_ends {code : Nat} {additionalData : Bool} (h : Good c) :
    Ends (Keeps c) (fun _ => True) (Sasl.outcomeFrame call code additionalData c) :=
  Sasl.outcomeFrame_rule (mayCrash_true c) (fun _ => outOfSequenceSaslFrame_ends hcall h)
    (fun _ _ _ => hcall .connectionDone { c.frameCleanup with sasl := .negotiated } h.1)
    fun _ _ => ⟨h, id⟩

theorem connectionOpened_ends {idleTimeOut : Nat} (h : Good c) (hlate : Late c.name) :
    Ends (Keeps c) (fun _ => True) (AmqpConnection.connectionOpened call idleTimeOut c) :=
  hcall (.frameRead .amqp) { AmqpConnection.transitionToOpened c with
    timer := c.idleTimeOut != 0 && idleTimeOut != 0 } (h.1.opens hlate (t := .whileOpened) (by simp))

theorem openFrame_ends {hostname : Bool} {idleTimeOut : Nat} (h : Good c) :
    Ends (Keeps c) (fun _ => True) (AmqpConnection.openFrame call hostname idleTimeOut c) := by
  have hlate : c.amqp ≠ .initialized → Late c.name := h.1.amqp
  refine AmqpConnection.openFrame_rule (r := fun c1 => Keeps c c1 ∧ Late c.name) (mayCrash_true c)
    (fun _ _ => outOfSequenceFrame_ends hcall h) (fun hs _ => ?_) (fun hs _ => ?_) fun c1 h1 => ?_
  · exact connectionOpened_ends hcall (c := c.frameCleanup) h (hlate (by simp [hs]))
  · exact (hcall (.writerWrite .amqpOpen) c.frameCleanup h).mono (fun _ h1 => ⟨h1, hlate (by simp [hs])⟩)
      fun _ he => he
  · exact Keeps.after h1.1.2 (connectionOpened_ends hcall h1.1.1 (h1.1.2 h1.2))

theorem closeFrame_ends {error : Bool} (h : Good c) :
    Ends (Keeps c) (fun _ => True) (AmqpConnection.closeFrame call error c) := by
  have hlate : c.amqp ≠ .initialized → Late c.name := h.1.amqp
  refine AmqpConnection.closeFrame_rule (r := Keeps c) (s := Keeps c) (mayCrash_true c)
    (fun _ _ => outOfSequenceFrame_ends hcall h) (fun hs => ?_)
    (fun c1 h1 => Keeps.after h1.2 (hcall (.writerWrite .amqpClose) c1 h1.1))
    (fun c2 h2 => Keeps.after h2.2 (hcall .shutdownDrain c2 h2.1)) fun hs => ?_
  · exact hcall (.frameRead .discard) (AmqpConnection.transitionToClosed { c with timer := true }).frameCleanup
      (h.1.opens (hlate (by simp [hs])) (t := .whileClosed) (by simp))
  · exact hcall .shutdownDrain (AmqpConnection.transitionToClosed c.frameCleanup)
      (h.1.opens (hlate (by simp [hs])) (t := .whileClosed) (by simp))

theorem frameDispatch_ends {f : PeerFrame} (h : Good c) :
    Ends (Keeps c) (fun _ => True) (f.dispatch call c) := by
  cases f with
  | saslMechanisms names => exact mechanismsFrame_ends hcall h
  | saslInit mechanism => exact initFrame_ends hcall h
  | saslChallenge =>
    exact Sasl.challengeFrame_rule (mayCrash_true c) fun _ => outOfSequenceSaslFrame_ends hcall h
  | saslResponse => exact outOfSequenceSaslFrame_ends hcall h
  | saslOutcome code additionalData => exact outcomeFrame_ends hcall h
  | amqpOpen hostname idleTimeOut => exact openFrame_ends hcall h
  | amqpClose error => exact closeFrame_ends hcall h
  | empty =>
    exact AmqpConnection.emptyFrame_rule (fun _ => hcall (.frameRead .amqp) c h)
      fun _ _ => outOfSequenceFrame_ends hcall h
  | _ => exact outOfSequenceFrame_ends hcall h

theorem frameAvailable_ends {d : FrameDecoders} (h : Good c) :
    Ends (Keeps c) (fun _ => True) (dispatch d call .frameAvailable c) :=
  frameAvailable_rule (mayCrash_true c)
    (fun f i _ => hcall (.frameDispatch f) { c with readIndex := i, trace := _ } h)
    (fun _ _ => hcall .connectionFail c h.1) (fun _ _ => hcall .connectionShutdown c h)
    fun _ => hcall (.frameRead .discard) c h

theorem frameReadDone_ends {amount : Nat} (h : Good c) :
    Ends (Keeps c) (fun _ => True) (FrameReader.readDone call amount c) :=
  FrameReader.readDone_rule (mayCrash_true c) (fun _ _ => hcall .connectionShutdown c h)
    (fun _ _ _ => hcall .connectionFail c h.1)
    (fun _ _ _ => hcall .connectionFail { c with frameSize := FrameReader.announcedSize c } h.1)
    (fun _ _ _ _ => hcall .frameAvailable { c with frameSize := _, frameReader := .enabled } h)
    (fun _ _ _ _ => hcall (.readerCommence _ .frameReader)
      { c with frameSize := _, frameReader := .readingFrameBody } h)
    (fun _ _ => hcall .connectionFail c h.1)
    fun _ _ => hcall .frameAvailable { c with frameReader := .enabled } h

theorem dispatch_respects {d : FrameDecoders} : Respects (dispatch d call) := by
  intro a c h
  cases a with
  | connectionConnect lookup => exact connect_ends hcall h
  | connectionBegin version => exact begin_ends hcall h
  | connectionReject version =>
    exact Machine.reject_rule (fun _ => mayCrash_true c) fun _ => rejectProtocolVersion_ends hcall h.1.1 h.2
  | connectionDone => exact done_ends hcall h
  | connectionFail => exact fail_ends hcall h
  | connectionShutdown => exact shutdown_ends hcall h
  | connectionTimeout readIdle writeIdle => exact timeout_ends hcall h
  | shutdownDrain => exact drain_ends hcall h
  | shutdownClose => exact shutdownConnection_ends hcall (m := .completeWriteAndCloseSocket) h.1
  | socketConnect lookup => exact socketConnect_ends hcall h
  | socketTryConnect => exact tryConnect_ends hcall h
  | socketDone => exact socketDone_ends hcall h
  | socketFail => exact socketFail_ends hcall h
  | socketShutdown => exact socketShutdown_ends hcall h.1
  | writerEnable => exact Writer.enable_rule (mayCrash_true c) fun _ => ⟨h, rfl⟩
  | writerWrite m => exact write_ends hcall h
  | writerContinue => exact continueWrite_ends hcall h
  | writerComplete => exact writeComplete_ends hcall h
  | writerStop => exact stop_ends hcall h
  | writerAbort => exact Writer.abort_rule (fun _ => h) h
  | writerFail => exact writerFail_ends hcall h
  | readerEnable => exact Reader.enable_rule (mayCrash_true c) fun _ => ⟨h, rfl⟩
  | readerCommence required callback => exact commenceRead_ends hcall h
  | readerReset => exact Reader.reset_rule (fun _ => ⟨h, id⟩) (fun _ => ⟨h, id⟩) fun _ _ _ => h.refl
  | readerDelayed =>
    exact Reader.delayedRead_rule (fun _ => delayedReadWhileReading_ends hcall h) fun _ => h.refl
  | readerStop => exact Reader.stop_rule h fun _ => h
  | readerFail => exact readerFail_ends hcall h
  | readDone callback buffer amount =>
    cases callback with
    | negotiator => exact negotiatorReadDone_ends hcall h
    | frameReader => exact frameReadDone_ends hcall h
    | connection => exact readDoneWhileDraining_ends hcall h
  | negotiatorStart version confirm reject => exact negotiatorStart_ends hcall h
  | negotiatorWait => exact negotiatorWait_ends hcall h
  | negotiatorSend version confirm => exact negotiatorSend_ends hcall h
  | negotiatorReset => exact Negotiator.reset_rule (mayCrash_true c) (fun _ => h.refl) fun _ => ⟨h, id⟩
  | confirmCallback => exact confirm_ends hcall h
  | rejectCallback version => exact rejectCallback_ends hcall h
  | requestCallback version =>
    exact requestCallback_rule (fun _ => mayCrash_true c) fun _ => hcall (.connectionBegin version) c h
  | tlsConnect => exact hcall (.negotiatorStart _ .tlsVersionAccepted .tlsVersionRejected) c h
  | tlsAccept version => trivial
  | saslConnect => exact saslConnect_ends hcall h
  | saslAccept version => exact saslAccept_ends hcall h.1 h.2
  | saslDone => exact saslDone_ends hcall h
  | tunnelConnect => exact tunnelConnect_ends hcall h
  | tunnelAccept version => exact tunnelAccept_ends hcall h.1 h.2
  | tunnelDone => exact tunnelDone_ends hcall h
  | amqpSendOpen => exact sendOpen_ends hcall h.1 h.2
  | amqpWaitOnOpen => exact waitOnOpen_ends hcall h.1 h.2
  | frameEnable => exact FrameReader.enable_rule (fun _ => ⟨h, id⟩) fun _ => h.refl
  | frameRead callback => exact frameRead_ends hcall h
  | frameAvailable => exact frameAvailable_ends hcall h
  | frameDispatch f => exact frameDispatch_ends hcall h

end Functions

/-! ## Every call, every step, every run -/

/-- Calls of any depth. -/
theorem calls_respects (d : FrameDecoders) (depth : Nat) : Respects (calls d depth) :=
  invoke_ends (fun _ _ _ => trivial) (fun _ hcall => dispatch_respects hcall) depth

/-- What a step keeps. -/
theorem handle_ends {call : Calls} (hcall : Respects call) {c : Connection} (h : Good c) (event : Event) :
    Ends (Keeps c) (fun _ => True) (c.handle call event) := by
  refine handle_rule h.refl (fun lookup _ _ => ?_) (fun _ hname _ => ?_) (fun _ => hcall .connectionShutdown c h)
    (fun _ _ _ => ?_) (fun _ _ _ _ _ _ => readComplete_ends hcall h) (fun _ _ _ => readEof_ends hcall h)
    (fun _ _ => hcall .readerFail c h) (fun _ _ => hcall .writerContinue c h)
    fun readIdle writeIdle _ _ => hcall (.connectionTimeout readIdle writeIdle) c h
  · exact connectTo_rule (fun _ => hcall (.connectionConnect lookup) c h) fun _ => hcall .connectionFail c h.1
  · have hearly : ¬ Late c.name := hname ▸ by decide
    have h0 := h.1.moveTo (n := .waitingOnClientNegotiationRequest) hearly id
    exact acceptSocket_rule
      (enableIo_ends hcall
        (c := { Machine.transitionTo .waitingOnClientNegotiationRequest c with socket := .accepted })
        ⟨h0.1.socket (by simp), h0.2⟩)
      fun c1 h1 => Keeps.after (absurd · hearly) (hcall .negotiatorWait c1 h1.1)
  · exact Socket.connectEvent_rule (hcall .socketDone { c with connectWatcher := false } h)
      (connectionAttemptFailed_ends hcall (c := { c with connectWatcher := false }) h)

theorem create_good (protocols : Protocols) (maxFrameSize idleTimeOut : Nat) (plugins : List SaslPlugin)
    (accepted : Bool) : Good (Connection.create protocols maxFrameSize idleTimeOut plugins accepted) := by
  refine ⟨⟨?_, ?_, ?_, ?_, ?_, ?_⟩, ?_⟩
  all_goals simp [Connection.create, Handled]

end Timer

/-- **Timer expiries are always handled**: in every run of a client or server, whatever the
application, the peer and the system calls do, a timer that is running at a state reached has a handler
other than `default_timeout`. (Kept memory.) -/
theorem timer_expiry_handled (d : FrameDecoders) (depth : Nat) (protocols : Protocols)
    (maxFrameSize idleTimeOut : Nat) (plugins : List SaslPlugin) (accepted : Bool) (is : List Stimulus) :
    Ends (fun c => c.timer = true → c.timeout ≠ .default) (fun _ => True)
      (run (Connection.step d depth)
        (Connection.create protocols maxFrameSize idleTimeOut plugins accepted) is) := by
  have hrun := run_ends (p := Timer.Good) (q := fun _ => True)
    (fun c i h _ => (Timer.handle_ends (Timer.calls_respects d depth) (c := c.arm i) h i.event).mono
      (fun _ h' => h'.1) fun _ he => he) is _
    (Timer.create_good protocols maxFrameSize idleTimeOut plugins accepted) (RunMeets.true is _)
  exact hrun.mono (fun _ h => h.2) fun _ he => he

end Amqp
