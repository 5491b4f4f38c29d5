import LibAmqp.Connection.Release
import LibAmqp.Connection.Proof.MachineRules

/-!
# Which frames are released

Every handler releases its frame exactly once, but for the two that keep a connection alive
(`dispatch_balanced`). So over a run there are as many frames outstanding as keep-alive frames were
received (`run_released`).
-/

namespace Amqp

open Lib

namespace Release

/-! ## What each call does to the frames -/

/-- A frame with a body is longer than its header. -/
def Body (c : Connection) : Prop :=
  c.frameReader = .readingFrameBody → amqpFrameHeaderSizeInBytes < c.frameSize

/-- The frames that a call leaves. -/
def Leaves (n : Int) (c c' : Connection) : Prop :=
  Body c' ∧ outstanding c'.trace = outstanding c.trace + n

/-- One, if the frame is kept. -/
def kept (c : Connection) (f : PeerFrame) : Int := if c.KeepsAlive f then 1 else 0

def keptAvailable (d : FrameDecoders) (c : Connection) : Int :=
  match c.available d with
  | some f => kept c f
  | none => 0

variable (d : FrameDecoders)

def post : Action → Connection → Connection → Prop
  | .frameDispatch f, c => Leaves (kept c f - 1) c
  | .frameAvailable, c => Leaves (keptAvailable d c) c
  | .readDone .frameReader _ amount, c =>
    Leaves (if c.CompletesFrame amount then keptAvailable d c else 0) c
  | _, c => Leaves 0 c

def Balanced (call : Calls) : Prop :=
  ∀ a c, Body c → Ends (post d a c) (fun _ => True) (call a c)

variable {d}

@[simp] theorem outstanding_append (t : List Mark) (m : Mark) :
    outstanding (t ++ [m]) = outstanding t +
      match m with
      | .receivedFrame _ => 1
      | .released => -1
      | _ => 0 := by
  unfold outstanding
  cases m <;> simp [Mark.isFrame, List.countP_append, List.count_append]
  all_goals omega

theorem Leaves.refl {c : Connection} (h : Body c) : Leaves 0 c c := ⟨h, by simp⟩

theorem Leaves.trans {m n : Int} {c c1 : Connection} {r : Outcome} (h : Leaves m c c1)
    (hr : Ends (Leaves n c1) (fun _ => True) r) : Ends (Leaves (m + n) c) (fun _ => True) r := by
  refine hr.mono ?_ fun _ he => he
  rintro c2 ⟨h2, ht⟩
  refine ⟨h2, ?_⟩
  rw [ht, h.2]
  omega

section Functions

variable {call : Calls} (hcall : Balanced d call) {c : Connection}

include hcall

/-! The writer, the reader and the socket. -/

theorem continueWriteOperation_balanced (h : Body c) :
    Ends (Leaves 0 c) (fun _ => True) (Writer.continueWriteOperation call c) :=
  Writer.continueWriteOperation_rule (hcall .writerComplete { c with writes := _ } h)
    (Leaves.refl (c := { c with writes := _ }) h) fun _ => hcall .writerFail { c with writes := _ } h

theorem write_balanced {m : Message} (h : Body c) :
    Ends (Leaves 0 c) (fun _ => True) (Writer.write call m c) := by
  refine Writer.write_rule (fun _ => mayCrash_true c) fun _ => ?_
  have hsent : Leaves 0 c { c with writer := .writing, trace := c.trace ++ [.sent m] } := ⟨h, by simp⟩
  exact hsent.trans (continueWriteOperation_balanced hcall hsent.1)

theorem callReadCallback_balanced (h : Body c) :
    Ends (Leaves 0 c) (fun _ => True) (Reader.callReadCallback call 0 c) := by
  refine Reader.callReadCallback_rule (mayCrash_true c) fun callback _ => ?_
  have hdone := hcall (.readDone callback c.readQueued 0) { c with readCallback := none, readQueued := false } h
  cases callback with
  | frameReader =>
    have hno : ¬ Connection.CompletesFrame { c with readCallback := none, readQueued := false } 0 := by
      rintro (⟨-, h0, -⟩ | ⟨hb, h0⟩)
      · simp [amqpFrameHeaderSizeInBytes] at h0
      · have := h hb
        simp only at h0
        omega
    simp only [post, if_neg hno] at hdone
    exact hdone
  | _ => exact hdone

theorem readEof_balanced {isPartial : Bool} (h : Body c) :
    Ends (Leaves 0 c) (fun _ => True) (Reader.readEof call isPartial c) :=
  Reader.readEof_rule (fun _ => hcall .connectionFail { c with reader := .failed } h)
    (callReadCallback_balanced hcall (c := { c with reader := .eof }) h)

theorem readWhatIsBuffered_balanced (h : Body c) :
    Ends (Leaves 0 c) (fun _ => True) (Reader.readWhatIsBuffered call c) :=
  Reader.readWhatIsBuffered_rule (mayCrash_true c) (Leaves.refl (c := { c with reads := _ }) h)
    (fun _ _ => readEof_balanced hcall (c := { c with reads := _ }) h)
    fun _ => hcall .readerFail { c with reads := _ } h

theorem commenceRead_balanced {required : Nat} {callback : ReadCallback} (h : Body c) :
    Ends (Leaves 0 c) (fun _ => True) (Reader.commenceRead call required callback c) :=
  Reader.commenceRead_rule (mayCrash_true c)
    (fun _ => readWhatIsBuffered_balanced hcall
      (c := Reader.queueReadOperation required callback { c with reader := .reading }) h)
    (fun _ _ _ => Leaves.refl (c := Reader.queueReadOperation required callback c) h)
    fun _ => callReadCallback_balanced hcall (c := { c with reader := _, readCallback := _ }) h

theorem delayedReadWhileReading_balanced (h : Body c) :
    Ends (Leaves 0 c) (fun _ => True) (Reader.delayedReadWhileReading call c) :=
  Reader.delayedReadWhileReading_rule
    (fun _ => readWhatIsBuffered_balanced hcall (c := { c with reader := .reading }) h)
    fun _ => Leaves.refl (c := { c with reader := .enabled }) h

theorem connectionAttemptFailed_balanced (h : Body c) :
    Ends (Leaves 0 c) (fun _ => True) (Socket.connectionAttemptFailed call c) :=
  Socket.connectionAttemptFailed_rule (fun _ => hcall .socketTryConnect c h) (hcall .socketFail c h)

theorem tryConnect_balanced (h : Body c) : Ends (Leaves 0 c) (fun _ => True) (Socket.tryConnect call c) :=
  Socket.tryConnect_rule (mayCrash_true c)
    (fun _ _ => connectionAttemptFailed_balanced hcall (c := { c with addresses := _, connects := _ }) h)
    (fun _ => hcall .socketDone { c with addresses := _, connects := _ } h)
    fun _ => Leaves.refl (c := { c with addresses := _, connects := _, connectWatcher := _ }) h

/-! The handlers of frames. -/

omit hcall in
theorem cleanup_leaves (h : Body c) : Leaves (-1) c c.frameCleanup := ⟨h, by simp [Connection.frameCleanup]⟩

omit hcall in
theorem Leaves.cleanup {c1 : Connection} (h : Leaves 0 c c1) : Leaves (-1) c c1.frameCleanup := by
  refine ⟨h.1, ?_⟩
  rw [(cleanup_leaves h.1).2, h.2, Int.add_zero]

/-- A call after which the balance is what it was before. -/
theorem Leaves.followed {n : Int} {a : Action} {c1 c2 : Connection} (h : Leaves n c c1) (hb : Body c2)
    (ht : c2.trace = c1.trace) (ha : post d a c2 = Leaves 0 c2) :
    Ends (Leaves n c) (fun _ => True) (call a c2) := by
  have h1 := hcall a c2 hb
  rw [ha] at h1
  refine h1.mono ?_ fun _ he => he
  rintro c3 ⟨h3, ht3⟩
  refine ⟨h3, ?_⟩
  rw [ht3, ht, h.2]
  omega

/-- A call once the frame is released. -/
theorem cleanup_balanced {a : Action} (h : Body c)
    (ha : post d a c.frameCleanup = Leaves 0 c.frameCleanup) :
    Ends (Leaves (-1) c) (fun _ => True) (call a c.frameCleanup) :=
  (cleanup_leaves h).followed hcall h rfl ha

theorem mechanismsFrame_balanced {names : List (List UInt8)} (h : Body c) :
    Ends (Leaves (-1) c) (fun _ => True) (Sasl.mechanismsFrame call names c) := by
  refine Sasl.mechanismsFrame_rule (r := Leaves 0 c) (mayCrash_true c) (fun _ => cleanup_balanced hcall h rfl)
    (fun _ plugin => ?_) (fun _ plugin _ => hcall (.writerWrite .saslInit) { c with plugin := some plugin } h)
    fun _ h1 => h1.cleanup.followed hcall h1.1 rfl rfl
  exact (hcall .connectionFail { c with plugin := plugin } h).mono
    (fun _ (h1 : Leaves 0 c _) => h1.cleanup) fun _ he => he

theorem initFrame_balanced {mechanism : List UInt8} (h : Body c) :
    Ends (Leaves (-1) c) (fun _ => True) (Sasl.initFrame call mechanism c) :=
  Sasl.initFrame_rule (r := Leaves 0 c) (mayCrash_true c) (fun _ => cleanup_balanced hcall h rfl)
    (fun _ => (hcall .connectionFail c h).mono (fun c1 _ => mayCrash_true c1.frameCleanup) fun _ he => he)
    (fun _ plugin _ _ => hcall (.writerWrite .saslOutcome) { c with plugin := some plugin } h)
    fun _ h1 => h1.cleanup.followed hcall h1.1 rfl rfl

theorem outcomeFrame_balanced {code : Nat} {additionalData : Bool} (h : Body c) :
    Ends (Leaves (-1) c) (fun _ => True) (Sasl.outcomeFrame call code additionalData c) :=
  Sasl.outcomeFrame_rule (mayCrash_true c) (fun _ => cleanup_balanced hcall h rfl)
    (fun _ _ _ => (cleanup_leaves h).followed hcall h rfl rfl) fun _ _ => cleanup_leaves h

theorem openFrame_balanced {hostname : Bool} {idleTimeOut : Nat} (h : Body c) :
    Ends (Leaves (-1) c) (fun _ => True) (AmqpConnection.openFrame call hostname idleTimeOut c) :=
  AmqpConnection.openFrame_rule (mayCrash_true c) (fun _ _ => cleanup_balanced hcall h rfl)
    (fun _ _ => (cleanup_leaves h).followed hcall (a := .frameRead .amqp) h rfl rfl)
    (fun _ _ => (cleanup_leaves h).followed hcall h rfl rfl)
    fun _ h1 => h1.followed hcall (a := .frameRead .amqp) h1.1 rfl rfl

theorem closeFrame_balanced {error : Bool} (h : Body c) :
    Ends (Leaves (-1) c) (fun _ => True) (AmqpConnection.closeFrame call error c) :=
  AmqpConnection.closeFrame_rule (mayCrash_true c) (fun _ _ => cleanup_balanced hcall h rfl)
    (fun _ => (cleanup_leaves h).followed hcall h rfl rfl)
    (fun _ h1 => h1.followed hcall h1.1 rfl rfl) (fun _ h2 => h2.followed hcall h2.1 rfl rfl)
    fun _ => (cleanup_leaves h).followed hcall (a := .shutdownDrain) h rfl rfl

theorem emptyFrame_balanced (h : Body c) :
    Ends (Leaves (kept c .empty - 1) c) (fun _ => True) (AmqpConnection.emptyFrame call c) := by
  refine AmqpConnection.emptyFrame_rule (fun hs => ?_) fun hsent hopened => ?_
  · rw [show kept c .empty = 1 from if_pos ⟨rfl, hs⟩]
    exact hcall (.frameRead .amqp) c h
  · rw [show kept c .empty = 0 from if_neg (by simp [Connection.KeepsAlive, hsent, hopened])]
    exact cleanup_balanced hcall h rfl

/-- Every frame is released but those that keep the connection alive. -/
theorem frameDispatch_balanced {f : PeerFrame} (h : Body c) :
    Ends (Leaves (kept c f - 1) c) (fun _ => True) (f.dispatch call c) := by
  cases f with
  | saslMechanisms names => exact mechanismsFrame_balanced hcall h
  | saslInit mechanism => exact initFrame_balanced hcall h
  | saslChallenge => exact Sasl.challengeFrame_rule (mayCrash_true c) fun _ => cleanup_balanced hcall h rfl
  | saslResponse => exact cleanup_balanced hcall h rfl
  | saslOutcome code additionalData => exact outcomeFrame_balanced hcall h
  | amqpOpen hostname idleTimeOut => exact openFrame_balanced hcall h
  | amqpClose error => exact closeFrame_balanced hcall h
  | empty => exact emptyFrame_balanced hcall h
  | _ => exact cleanup_balanced hcall h rfl

omit hcall in
theorem available_of_decodes {f : PeerFrame} {i : Nat} (hd : Decodes d c f i) : c.available d = some f := by
  unfold Connection.available
  rcases hd with ⟨hcb, hd⟩ | ⟨hcb, hd⟩
  · rw [hcb]
    simp [hd]
  · rw [hcb]
    simp [hd]

theorem frameAvailable_balanced (h : Body c) :
    Ends (Leaves (keptAvailable d c) c) (fun _ => True) (dispatch d call .frameAvailable c) := by
  have hnone : c.available d = none → keptAvailable d c = 0 := fun hn => by rw [keptAvailable, hn]
  refine frameAvailable_rule (mayCrash_true c) (fun f i hd => ?_) (fun hcb hd => ?_) (fun hcb hd => ?_)
    fun hcb => ?_
  · have hkept : keptAvailable d c = kept c f := by rw [keptAvailable, available_of_decodes hd]
    have h1 : Leaves 1 c { c with readIndex := i, trace := c.trace ++ [.receivedFrame f] } := ⟨h, by simp⟩
    have h2 := h1.trans (hcall (.frameDispatch f) _ h1.1)
    rwa [show 1 + (kept _ f - 1) = kept c f from by change 1 + (kept c f - 1) = _; omega, ← hkept] at h2
  · rw [hnone (by simp [Connection.available, hcb, hd])]
    exact hcall .connectionFail c h
  · rw [hnone (by simp [Connection.available, hcb, hd])]
    exact hcall .connectionShutdown c h
  · rw [hnone (by simp [Connection.available, hcb])]
    exact hcall (.frameRead .discard) c h

theorem frameReadDone_balanced {buffer : Bool} {amount : Nat} (h : Body c) :
    Ends (post d (.readDone .frameReader buffer amount) c) (fun _ => True)
      (FrameReader.readDone call amount c) := by
  dsimp only [post]
  have hno : ¬ c.CompletesFrame amount → (if c.CompletesFrame amount then keptAvailable d c else 0) = 0 :=
    fun hc => if_neg hc
  have hyes : c.CompletesFrame amount →
      (if c.CompletesFrame amount then keptAvailable d c else 0) = keptAvailable d c :=
    fun hc => if_pos hc
  generalize (if c.CompletesFrame amount then keptAvailable d c else 0) = k at hno hyes
  have hheader : c.frameReader = .readingFrameHeader → (c.CompletesFrame amount ↔
      amount = amqpFrameHeaderSizeInBytes ∧ FrameReader.announcedSize c = amqpFrameHeaderSizeInBytes ∧
        amqpFrameHeaderSizeInBytes < c.maxFrameSize) := fun hs => by simp [Connection.CompletesFrame, hs]
  have hbody : c.frameReader = .readingFrameBody →
      (c.CompletesFrame amount ↔ amount = c.frameSize - amqpFrameHeaderSizeInBytes) :=
    fun hs => by simp [Connection.CompletesFrame, hs]
  refine FrameReader.readDone_rule (mayCrash_true c) (fun hs h0 => ?_) (fun hs _ h8 => ?_) (fun hs _ hr => ?_)
    (fun hs h8 hr he => ?_) (fun hs h8 hr he => ?_) (fun hs hc => ?_) fun hs hc => ?_
  · rw [hno (by rw [hheader hs, h0]; simp [amqpFrameHeaderSizeInBytes])]
    exact hcall .connectionShutdown c h
  · rw [hno (by simp [hheader hs, h8])]
    exact hcall .connectionFail c h
  · rw [hno ?_]
    · exact hcall .connectionFail { c with frameSize := FrameReader.announcedSize c }
        (fun hb => by simp [hs] at hb)
    · rw [hheader hs]
      rintro ⟨-, h3, h4⟩
      unfold FrameReader.RefusesSize at hr
      rw [h3] at hr
      rcases hr with hr | hr | hr
      · omega
      · omega
      · exact absurd hr (by decide)
  · unfold FrameReader.RefusesSize at hr
    rw [hyes ((hheader hs).2 ⟨h8, he, by omega⟩)]
    exact hcall .frameAvailable { c with frameSize := _, frameReader := .enabled } (fun hb => by simp at hb)
  · unfold FrameReader.RefusesSize at hr
    rw [hno (by simp [hheader hs, he])]
    refine hcall (.readerCommence _ .frameReader)
      { c with frameSize := FrameReader.announcedSize c, frameReader := .readingFrameBody } fun _ => ?_
    change amqpFrameHeaderSizeInBytes < FrameReader.announcedSize c
    omega
  · rw [hno (by rwa [hbody hs])]
    exact hcall .connectionFail c h
  · rw [hyes ((hbody hs).2 hc)]
    exact hcall .frameAvailable { c with frameReader := .enabled } (fun hb => by simp at hb)

/-! The connection. -/

theorem enableIo_balanced (h : Body c) : Ends (Leaves 0 c) (fun _ => True) (Machine.enableIo call c) :=
  Machine.enableIo_rule (hcall .readerEnable c h) fun c1 h1 => h1.trans (hcall .writerEnable c1 h1.1)

theorem stopActivity_balanced (h : Body c) :
    Ends (Leaves 0 c) (fun _ => True) (Machine.stopActivity call c) :=
  Machine.stopActivity_rule (s := Leaves 0 c) (hcall .writerAbort c h)
    (fun c1 h1 => h1.trans (hcall .readerStop c1 h1.1)) fun c2 h2 => h2.trans (hcall .socketShutdown c2 h2.1)

theorem stopInput_balanced (h : Body c) : Ends (Leaves 0 c) (fun _ => True) (Machine.stopInput call c) :=
  Machine.stopInput_rule (r := Leaves 0 c) (hcall .readerStop (Machine.transitionTo .stopping c) h)
    fun c1 h1 => h1.trans (hcall .socketShutdown c1 h1.1)

theorem shutdownConnection_balanced {m : ShutdownMode} (h : Body c) :
    Ends (Leaves 0 c) (fun _ => True) (Machine.shutdownConnection call m c) :=
  Machine.shutdownConnection_rule (fun _ => hcall .writerStop (Machine.transitionTo _ _) h)
    fun _ => stopActivity_balanced hcall (c := Machine.transitionTo .stopping { c with handshake := _ }) h

omit hcall in
theorem halt_balanced {n : ConnectionState} (h : Body c) :
    Leaves 0 c (Machine.connectionHalt (Machine.transitionTo n c)) :=
  ⟨h, by simp [Machine.connectionHalt, Machine.transitionTo]⟩

theorem startNextProtocol_balanced (h : Body c) :
    Ends (Leaves 0 c) (fun _ => True) (Machine.startNextProtocol call c) :=
  Machine.startNextProtocol_rule (fun _ => hcall .tlsConnect { Machine.transitionTo _ c with handshake := _ } h)
    (fun _ _ => hcall .saslConnect { Machine.transitionTo _ c with handshake := _ } h)
    (fun _ _ => hcall .tunnelConnect { Machine.transitionTo _ c with handshake := _ } h)
    (hcall .connectionFail c h)

theorem rejectProtocolVersion_balanced {version : Nat} (h : Body c) :
    Ends (Leaves 0 c) (fun _ => True) (Machine.rejectProtocolVersion call version c) :=
  hcall (.negotiatorSend version .connectionDone) (Machine.transitionTo .sendingErrorMessage c) h

theorem establishTunnel_balanced {version : Nat} {accepted : Protocols} (h : Body c) :
    Ends (Leaves 0 c) (fun _ => True) (Machine.establishTunnelAfterClientRequest call version accepted c) :=
  Machine.establish_rule (fun _ => rejectProtocolVersion_balanced hcall h)
    (fun _ _ => hcall (.tlsAccept version) (Machine.transitionTo _ c) h)
    (fun _ _ => hcall (.saslAccept version) (Machine.transitionTo _ c) h)
    fun _ _ => hcall (.tunnelAccept version) (Machine.transitionTo _ c) h

theorem doneWhileAcceptingTls_balanced (h : Body c) :
    Ends (Leaves 0 c) (fun _ => True) (Machine.doneWhileAcceptingTls call c) :=
  Machine.doneWhileAcceptingTls_rule (r := Leaves 0 c)
    (hcall .negotiatorReset (Machine.transitionTo .waitingOnTlsTunnelledRequest c) h)
    fun c1 h1 => (hcall .negotiatorWait c1 h1.1).mono (fun c2 _ => mayCrash_true c2) fun _ he => he

theorem doneWhileStoppingOutput_balanced (h : Body c) :
    Ends (Leaves 0 c) (fun _ => True) (Machine.doneWhileStoppingOutput call c) :=
  Machine.doneWhileStoppingOutput_rule (r := Leaves 0 c) (mayCrash_true c)
    (fun _ => hcall .readerReset (Machine.drainInput { c with timer := true }) h)
    (fun c1 h1 => h1.trans (hcall (.readerCommence _ .connection) c1 h1.1)) fun _ => stopInput_balanced hcall h

theorem done_balanced (h : Body c) : Ends (Leaves 0 c) (fun _ => True) (Machine.done call c) :=
  Machine.done_rule (r := Leaves 0 c) (s := Leaves 0 c) (mayCrash_true c) (fun _ => enableIo_balanced hcall h)
    (fun c1 h1 => h1.trans (startNextProtocol_balanced hcall (c := { c1 with handshake := c1.protocols }) h1.1))
    (fun _ => startNextProtocol_balanced hcall h)
    (fun _ => startNextProtocol_balanced hcall (c := { c with saslConnected := true }) h)
    (fun _ => hcall .amqpSendOpen (Machine.transitionTo _ { c with isClient := true }) h)
    (fun _ => hcall .shutdownDrain c h) (fun _ => doneWhileAcceptingTls_balanced hcall h)
    (fun _ => hcall .negotiatorReset { Machine.transitionTo _ c with saslConnected := true } h)
    (fun c1 h1 => h1.trans (hcall .negotiatorWait c1 h1.1))
    (fun _ => hcall .amqpWaitOnOpen (Machine.transitionTo _ c) h)
    (fun _ => doneWhileStoppingOutput_balanced hcall h) (fun _ => halt_balanced h) fun _ => halt_balanced h

theorem beginConnectionClose_balanced (h : Body c) :
    Ends (Leaves 0 c) (fun _ => True) (AmqpConnection.beginConnectionClose call c) :=
  AmqpConnection.beginConnectionClose_rule (hcall (.writerWrite .amqpClose) c h) fun c1 h1 =>
    h1.trans (hcall (.frameRead .amqp) (AmqpConnection.transitionToCloseSent { c1 with timer := true }) h1.1)

theorem timeout_balanced {readIdle writeIdle : Bool} (h : Body c) :
    Ends (Leaves 0 c) (fun _ => True) (Machine.timeout call readIdle writeIdle c) :=
  Machine.timeout_rule (fun _ => mayCrash_true c)
    (fun _ => stopActivity_balanced hcall (c := Machine.transitionTo .timeout c) h)
    (fun _ _ => beginConnectionClose_balanced hcall h) (fun _ => hcall (.writerWrite .emptyFrame) c h)
    (fun _ => Leaves.refl h) (fun _ => hcall .shutdownDrain (AmqpConnection.transitionToClosed c) h)
    fun _ => hcall .shutdownClose c h

/-! The protocols. -/

theorem negotiatorReadDone_balanced {buffer : Bool} {amount : Nat} (h : Body c) :
    Ends (Leaves 0 c) (fun _ => True) (Negotiator.readDone call buffer amount c) := by
  have hconsume : Leaves 0 c (Negotiator.consumeHeader c) := ⟨h, by simp [Negotiator.consumeHeader]⟩
  exact Negotiator.readDone_rule (mayCrash_true c)
    (fun _ _ => hcall .connectionShutdown { c with negotiator := .failed } h)
    (fun _ _ _ => hconsume.followed hcall h rfl rfl) (fun _ _ _ => hconsume.followed hcall h rfl rfl)
    fun _ _ => hconsume.followed hcall h rfl rfl

theorem confirm_balanced (h : Body c) :
    Ends (Leaves 0 c) (fun _ => True) (dispatch d call .confirmCallback c) :=
  confirmCallback_rule (r := Leaves 0 c) (mayCrash_true c)
    (fun _ => hcall .frameEnable { c with sasl := .waitingOnSaslMechanisms } h)
    (fun c1 h1 => h1.trans (hcall (.frameRead .sasl) c1 h1.1))
    (fun _ => hcall .connectionDone { c with amqpTunnel := .negotiated } h)
    (fun _ => hcall .saslDone c h) (fun _ => hcall .tunnelDone c h) fun _ => hcall .connectionDone c h

theorem negotiatorStart_balanced {version : Nat} {confirm : ConfirmCallback} {reject : RejectCallback}
    (h : Body c) : Ends (Leaves 0 c) (fun _ => True) (Negotiator.start call version confirm reject c) :=
  Negotiator.start_rule (r := Leaves 0 c) (mayCrash_true c)
    (fun _ => hcall (.writerWrite (.header version)) { c with
      preferredVersion := version, confirm := some confirm, rejectCallback := some reject, request := false } h)
    fun _ h1 => h1.followed hcall h1.1 rfl rfl

theorem negotiatorSend_balanced {version : Nat} {confirm : ConfirmCallback} (h : Body c) :
    Ends (Leaves 0 c) (fun _ => True) (Negotiator.send call version confirm c) :=
  Negotiator.send_rule (r := Leaves 0 c) (fun _ => mayCrash_true c)
    (fun _ => hcall (.writerWrite (.header version)) { c with
      preferredVersion := version, confirm := some confirm, rejectCallback := none, request := false } h)
    fun _ h1 => h1.followed hcall h1.1 rfl rfl

theorem saslDone_balanced (h : Body c) : Ends (Leaves 0 c) (fun _ => True) (Sasl.done call c) :=
  Sasl.done_rule (s := Leaves 0 c) (mayCrash_true c) (fun _ _ => hcall .connectionFail c h)
    (fun _ => hcall (.writerWrite .saslMechanisms) c h) (fun _ h1 => h1.followed hcall h1.1 rfl rfl)
    fun c2 h2 => h2.trans (hcall (.frameRead .sasl) c2 h2.1)

theorem sendOpen_balanced (h : Body c) :
    Ends (Leaves 0 c) (fun _ => True) (AmqpConnection.sendOpen call c) :=
  AmqpConnection.sendOpen_rule (s := Leaves 0 c) (mayCrash_true c) (fun _ => hcall (.writerWrite .amqpOpen) c h)
    (fun _ h1 => h1.followed hcall h1.1 rfl rfl) fun c2 h2 => h2.trans (hcall (.frameRead .amqp) c2 h2.1)

theorem dispatch_balanced : Balanced d (dispatch d call) := by
  intro a c h
  cases a with
  | connectionConnect lookup =>
    exact Machine.connect_rule (mayCrash_true c) fun _ =>
      hcall (.socketConnect lookup) (Machine.transitionTo _ c) h
  | connectionBegin version =>
    exact Machine.begin_rule (fun _ => mayCrash_true c) fun _ _ => establishTunnel_balanced hcall h
  | connectionReject version =>
    exact Machine.reject_rule (fun _ => mayCrash_true c) fun _ => rejectProtocolVersion_balanced hcall h
  | connectionDone => exact done_balanced hcall h
  | connectionFail =>
    exact Machine.fail_rule (mayCrash_true c) (fun _ => hcall .shutdownDrain c h) (fun _ => halt_balanced h)
      fun _ _ => shutdownConnection_balanced hcall h
  | connectionShutdown =>
    exact Machine.shutdown_rule (fun _ => hcall .shutdownClose c h) (fun _ => Leaves.refl h)
      fun _ => beginConnectionClose_balanced hcall h
  | connectionTimeout readIdle writeIdle => exact timeout_balanced hcall h
  | shutdownDrain =>
    exact Machine.drain_rule (fun _ => Leaves.refl h) fun _ _ _ => shutdownConnection_balanced hcall h
  | shutdownClose => exact shutdownConnection_balanced hcall (m := .completeWriteAndCloseSocket) h
  | socketConnect lookup =>
    exact Socket.connect_rule (mayCrash_true c)
      (fun _ _ => hcall .socketFail { c with socket := _, hostname := _ } h)
      fun _ _ _ => hcall .socketTryConnect { c with socket := _, hostname := _, addresses := _ } h
  | socketTryConnect => exact tryConnect_balanced hcall h
  | socketDone =>
    exact Socket.done_rule (mayCrash_true c) fun _ =>
      hcall .connectionDone { c with socket := _, addresses := _ } h
  | socketFail =>
    exact Socket.fail_rule (mayCrash_true c) fun _ =>
      hcall .connectionFail { c with socket := _, connectWatcher := _, addresses := _ } h
  | socketShutdown =>
    exact Socket.shutdown_rule (fun _ => Leaves.refl (c := { c with socket := .abortingLookup }) h)
      fun _ => hcall .connectionDone { c with socket := _, connectWatcher := _, addresses := _ } h
  | writerEnable =>
    exact Writer.enable_rule (mayCrash_true c) fun _ => Leaves.refl (c := { c with writer := .enabled }) h
  | writerWrite m => exact write_balanced hcall h
  | writerContinue =>
    exact Writer.continueWrite_rule (mayCrash_true c) (fun _ => Leaves.refl h)
      fun _ => continueWriteOperation_balanced hcall h
  | writerComplete =>
    exact Writer.writeComplete_rule (mayCrash_true c) (fun _ => Leaves.refl (c := { c with writer := _ }) h)
      fun _ => hcall .connectionDone { Writer.writerCleanup c with stoppedCallback := false } h
  | writerStop =>
    exact Writer.stop_rule
      (fun _ => hcall .connectionDone { Writer.writerCleanup c with stoppedCallback := false } h)
      (fun _ => Leaves.refl (c := { c with writer := _, stoppedCallback := _ }) h)
      fun _ => hcall .connectionDone c h
  | writerAbort =>
    exact Writer.abort_rule (fun _ => Leaves.refl h) (Leaves.refl (c := Writer.writerCleanup c) h)
  | writerFail =>
    exact Writer.fail_rule (mayCrash_true c) fun _ => hcall .connectionFail { c with writer := .failed } h
  | readerEnable =>
    exact Reader.enable_rule (mayCrash_true c) fun _ => Leaves.refl (c := { c with reader := .enabled }) h
  | readerCommence required callback => exact commenceRead_balanced hcall h
  | readerReset =>
    exact Reader.reset_rule (fun _ => Leaves.refl (c := { c with reader := _ }) h)
      (fun _ => Leaves.refl (c := { c with reader := _ }) h) fun _ _ _ => Leaves.refl h
  | readerDelayed =>
    exact Reader.delayedRead_rule (fun _ => delayedReadWhileReading_balanced hcall h) fun _ => Leaves.refl h
  | readerStop =>
    exact Reader.stop_rule (Leaves.refl (c := { c with reader := .stopped }) h) fun _ => Leaves.refl h
  | readerFail =>
    exact Reader.fail_rule (mayCrash_true c) fun _ => hcall .connectionFail { c with reader := .failed } h
  | readDone callback buffer amount =>
    cases callback with
    | negotiator => exact negotiatorReadDone_balanced hcall h
    | frameReader => exact frameReadDone_balanced hcall h
    | connection =>
      exact Machine.readDoneWhileDrainingInput_rule (mayCrash_true c)
        (fun _ => hcall (.readerCommence _ .connection) (Machine.drainInput c) h)
        fun _ => stopInput_balanced hcall h
  | negotiatorStart version confirm reject => exact negotiatorStart_balanced hcall h
  | negotiatorWait =>
    exact Negotiator.wait_rule (mayCrash_true c) fun _ => hcall (.readerCommence _ .negotiator) { c with
      negotiator := _, preferredVersion := _, confirm := _, rejectCallback := _, request := _ } h
  | negotiatorSend version confirm => exact negotiatorSend_balanced hcall h
  | negotiatorReset =>
    exact Negotiator.reset_rule (mayCrash_true c) (fun _ => Leaves.refl h)
      fun _ => Leaves.refl (c := { c with negotiator := .initialized }) h
  | confirmCallback => exact confirm_balanced hcall h
  | rejectCallback version =>
    exact rejectCallback_rule (mayCrash_true c) (fun _ => hcall .connectionFail { c with sasl := .failed } h)
      fun _ => hcall .connectionFail { c with amqpTunnel := .failed } h
  | requestCallback version =>
    exact requestCallback_rule (fun _ => mayCrash_true c) fun _ => hcall (.connectionBegin version) c h
  | tlsConnect => exact hcall (.negotiatorStart _ .tlsVersionAccepted .tlsVersionRejected) c h
  | tlsAccept version => trivial
  | saslConnect =>
    exact Sasl.connect_rule (mayCrash_true c) (fun _ => hcall .negotiatorReset c h) fun c1 h1 =>
      h1.trans (hcall (.negotiatorStart _ .saslVersionAccepted .saslVersionRejected) c1 h1.1)
  | saslAccept version =>
    exact Sasl.accept_rule (fun _ => mayCrash_true c)
      (fun _ _ => hcall (.connectionReject _) { c with sasl := .failed } h)
      fun _ _ => hcall (.negotiatorSend _ .saslBrokerVersionSent) { c with sasl := .sendingHeaderResponse } h
  | saslDone => exact saslDone_balanced hcall h
  | tunnelConnect =>
    exact AmqpTunnel.connect_rule (mayCrash_true c) (fun _ => hcall .negotiatorReset c h) fun c1 h1 =>
      h1.trans (hcall (.negotiatorStart _ .amqpVersionAccepted .amqpVersionRejected) c1 h1.1)
  | tunnelAccept version =>
    exact AmqpTunnel.accept_rule (fun _ => mayCrash_true c)
      (fun _ _ => hcall (.connectionReject _) { c with amqpTunnel := .failed } h)
      fun _ _ => hcall (.negotiatorSend _ .amqpDone) { c with amqpTunnel := .sendingHeaderResponse } h
  | tunnelDone =>
    exact AmqpTunnel.done_rule (mayCrash_true c) fun _ =>
      hcall .connectionDone { c with amqpTunnel := .negotiated } h
  | amqpSendOpen => exact sendOpen_balanced hcall h
  | amqpWaitOnOpen =>
    exact AmqpConnection.waitOnOpen_rule (r := Leaves 0 c) (mayCrash_true c)
      (fun _ => hcall .frameEnable { c with amqp := .waitingForOpenFrame } h)
      fun c1 h1 => h1.trans (hcall (.frameRead .amqp) c1 h1.1)
  | frameEnable =>
    exact FrameReader.enable_rule
      (fun _ => Leaves.refl (c := { c with frameReader := .enabled }) (fun hb => by simp at hb))
      fun _ => Leaves.refl h
  | frameRead callback =>
    exact FrameReader.read_rule (mayCrash_true c)
      (fun _ => hcall (.readerCommence _ .frameReader) { c.resetBuffer with
        frameReader := .readingFrameHeader, frameCallback := some callback } (fun hb => by simp at hb))
      fun _ => Leaves.refl h
  | frameAvailable => exact frameAvailable_balanced hcall h
  | frameDispatch f => exact frameDispatch_balanced hcall h

end Functions

theorem calls_balanced (d : FrameDecoders) (depth : Nat) : Balanced d (calls d depth) :=
  invoke_ends (fun _ _ _ => trivial) (fun _ hcall => dispatch_balanced hcall) depth

open Classical in
/-- One, if the step receives a frame that is not released. -/
noncomputable def keptBy (d : FrameDecoders) (c : Connection) (i : Stimulus) : Int :=
  if c.ReceivesKeepAlive d i then 1 else 0

theorem receivesKeepAlive_iff {c : Connection} {bytes : List UInt8} {inLoop : Bool} {i : Stimulus}
    (hi : i.event = .data bytes inLoop) (hd : c.destroyed = false)
    (hr : c.isReading ∧ bytes.length = c.required) (hcb : c.readCallback = some .frameReader) :
    c.ReceivesKeepAlive d i ↔
      Connection.CompletesFrame { c with buffer := c.buffer ++ bytes } c.required ∧
      ∃ f, Connection.available d { c with buffer := c.buffer ++ bytes } = some f ∧ c.KeepsAlive f := by
  unfold Connection.ReceivesKeepAlive
  rw [hi]
  dsimp only
  constructor
  · exact fun h => h.2.2.2.2
  · exact fun h => ⟨by simp [hd], hr.1, hr.2, hcb, h⟩

/-- A frame that the bytes complete is kept or not. -/
theorem keptBy_frameReader {c : Connection} {i : Stimulus} {bytes : List UInt8} {inLoop : Bool}
    (hi : i.event = .data bytes inLoop) (hd : c.destroyed = false)
    (hr : c.isReading ∧ bytes.length = c.required) (hcb : c.readCallback = some .frameReader) :
    keptBy d c i = if Connection.CompletesFrame { c with buffer := c.buffer ++ bytes } c.required then
      keptAvailable d { c with buffer := c.buffer ++ bytes } else 0 := by
  rw [keptBy, receivesKeepAlive_iff hi hd hr hcb]
  unfold keptAvailable
  by_cases hc : Connection.CompletesFrame { c with buffer := c.buffer ++ bytes } c.required
  · rw [if_pos hc]
    cases Connection.available d { c with buffer := c.buffer ++ bytes } with
    | none => exact if_neg (by simp)
    | some f =>
      unfold kept
      congr 1
      simp [hc, Connection.KeepsAlive]
  · rw [if_neg hc, if_neg fun hk => hc hk.1]

/-- The bytes that come are handled. -/
theorem readComplete_balanced {call : Calls} (hcall : Balanced d call) {c : Connection} (h : Body c)
    {bytes : List UInt8} {inLoop : Bool} {i : Stimulus} (hi : i.event = .data bytes inLoop)
    (hd : c.destroyed = false) (hr : c.isReading ∧ bytes.length = c.required) :
    Ends (Leaves (keptBy d c i) c) (fun _ => True) (Reader.readComplete call bytes inLoop c) := by
  refine Reader.readComplete_rule (r := Leaves (keptBy d c i) c)
    (Reader.callReadCallback_rule (mayCrash_true _) fun callback hcb => ?_)
    (fun _ _ h1 => Int.add_zero (keptBy d c i) ▸ h1.trans (delayedReadWhileReading_balanced hcall h1.1))
    fun _ c1 h1 => Int.add_zero (keptBy d c i) ▸ h1.trans (hcall .readerDelayed c1 h1.1)
  have hdone := hcall (.readDone callback c.readQueued c.required)
    { c with buffer := c.buffer ++ bytes, readCallback := none, readQueued := false } h
  have hcb : c.readCallback = some callback := hcb
  cases callback with
  | frameReader =>
    rw [keptBy_frameReader hi hd hr hcb]
    exact hdone
  | _ =>
    have hkept : keptBy d c i = 0 := by
      simp [keptBy, Connection.ReceivesKeepAlive, hi, hcb]
    rw [hkept]
    exact hdone

/-- A frame that is kept comes with the bytes that are waited for. -/
theorem data_of_receivesKeepAlive {c : Connection} {i : Stimulus} (hk : c.ReceivesKeepAlive d i) :
    ∃ bytes inLoop, i.event = .data bytes inLoop ∧ c.destroyed = false ∧
      c.isReading ∧ bytes.length = c.required := by
  unfold Connection.ReceivesKeepAlive at hk
  split at hk
  · next bytes inLoop he => exact ⟨bytes, inLoop, he, by simpa using hk.1, hk.2.1, hk.2.2.1⟩
  · exact hk.elim

theorem handle_balanced {call : Calls} (hcall : Balanced d call) {c : Connection} (h : Body c)
    (i : Stimulus) : Ends (Leaves (keptBy d c i) c) (fun _ => True) (c.handle call i.event) := by
  by_cases hk : c.ReceivesKeepAlive d i
  · obtain ⟨bytes, inLoop, he, hd, hr⟩ := data_of_receivesKeepAlive hk
    rw [he, Connection.handle_data hd hr]
    exact readComplete_balanced hcall h he hd hr
  have hzero : keptBy d c i = 0 := if_neg hk
  rw [hzero]
  refine handle_rule (Leaves.refl h) (fun lookup _ _ => ?_) (fun _ _ _ => ?_)
    (fun _ => hcall .connectionShutdown c h) (fun _ _ _ => ?_) (fun bytes inLoop he hd hr hl => ?_)
    (fun _ _ _ => readEof_balanced hcall h) (fun _ _ => hcall .readerFail c h)
    (fun _ _ => hcall .writerContinue c h)
    fun readIdle writeIdle _ _ => hcall (.connectionTimeout readIdle writeIdle) c h
  · exact connectTo_rule (fun _ => hcall (.connectionConnect lookup) c h) fun _ => hcall .connectionFail c h
  · exact acceptSocket_rule (r := Leaves 0 c) (enableIo_balanced hcall
      (c := { Machine.transitionTo .waitingOnClientNegotiationRequest c with socket := .accepted }) h)
      fun c1 h1 => h1.trans (hcall .negotiatorWait c1 h1.1)
  · exact Socket.connectEvent_rule (hcall .socketDone { c with connectWatcher := false } h)
      (connectionAttemptFailed_balanced hcall (c := { c with connectWatcher := false }) h)
  · exact hzero ▸ readComplete_balanced hcall h he hd ⟨hr, hl⟩

theorem step_balanced (d : FrameDecoders) (depth : Nat) {c : Connection} (h : Body c) (i : Stimulus) :
    Ends (Leaves (keptBy d c i) c) (fun _ => True) (c.step d depth i) :=
  handle_balanced (calls_balanced d depth) (c := c.arm i) h i

/-- What a run from `c` leaves: what was there before, and a frame for each keep-alive. -/
theorem run_balanced (d : FrameDecoders) (depth : Nat) :
    ∀ (is : List Stimulus) (c c' : Connection), Body c →
      run (Connection.step d depth) c is = .ok c' →
      outstanding c.trace ≤ outstanding c'.trace ∧
      (outstanding c'.trace = outstanding c.trace ↔
        RunMeets (Connection.step d depth) (fun c i => ¬ c.ReceivesKeepAlive d i) c is) := by
  intro is
  induction is with
  | nil =>
    intro c c' _ hrun
    cases hrun
    exact ⟨Int.le_refl _, iff_of_true rfl trivial⟩
  | cons i is ih =>
    intro c c' h hrun
    have hstep := step_balanced d depth h i
    rw [run] at hrun
    cases h1 : c.step d depth i with
    | error e =>
      rw [h1] at hrun
      cases hrun
    | ok c1 =>
      rw [h1] at hstep hrun
      obtain ⟨hb, ht⟩ := hstep
      obtain ⟨hle, hiff⟩ := ih c1 c' hb hrun
      unfold keptBy at ht
      by_cases hk : c.ReceivesKeepAlive d i
      · -- the frame of this step is never released
        rw [if_pos hk] at ht
        refine ⟨by omega, iff_of_false (by omega) fun hmeets => hmeets.1 hk⟩
      · rw [if_neg hk] at ht
        refine ⟨by omega, ?_⟩
        rw [show outstanding c.trace = outstanding c1.trace by omega, hiff]
        constructor
        · intro hmeets
          refine ⟨hk, fun c2 h2 => ?_⟩
          rw [h1] at h2
          cases h2
          exact hmeets
        · exact fun hmeets => hmeets.2 c1 h1

end Release

/-- **Which frames are released**: at every state that a connection reaches, all the frames that were
received have been released exactly once if and only if none of them was an empty frame that came
while the connection was open or about to be. (Kept memory.) -/
theorem run_released (d : FrameDecoders) (depth : Nat) (protocols : Protocols)
    (maxFrameSize idleTimeOut : Nat) (plugins : List SaslPlugin) (accepted : Bool)
    (is : List Stimulus) (c : Connection)
    (hrun : run (Connection.step d depth)
      (Connection.create protocols maxFrameSize idleTimeOut plugins accepted) is = .ok c) :
    outstanding c.trace = 0 ↔
      RunMeets (Connection.step d depth) (fun c i => ¬ c.ReceivesKeepAlive d i)
        (Connection.create protocols maxFrameSize idleTimeOut plugins accepted) is :=
  (Release.run_balanced d depth is _ c (fun h => by simp [Connection.create] at h) hrun).2

/-- A client and its peer open the connection, and the peer sends an empty frame. -/
def keptAlive : List Stimulus :=
  [{ event := .connect (some 1) }, { event := .connectReady true },
    { event := .data (encodeVersion amqpPreferredVersion) false }] ++ readsOf openBytes [] ++
  [{ event := .data emptyFrameBytes false }]

/-- The open frame is released. -/
theorem run_released_opening :
    ∃ c, run (Connection.step plainDecoders 40)
        (Connection.create ⟨false, false, true⟩ 4096 0 [] false) (keptAlive.take 5) = .ok c ∧
      c.trace.drop 3 = [.receivedFrame (.amqpOpen false 0), .released] ∧
      (outstanding c.trace = 0 ↔
        RunMeets (Connection.step plainDecoders 40) (fun c i => ¬ c.ReceivesKeepAlive plainDecoders i)
          (Connection.create ⟨false, false, true⟩ 4096 0 [] false) (keptAlive.take 5)) :=
  ⟨_, rfl, rfl, run_released _ 40 _ 4096 0 [] false (keptAlive.take 5) _ rfl⟩

/-- The empty frame is not. -/
theorem keep_alive_frame_is_kept :
    (run (Connection.step plainDecoders 40)
        (Connection.create ⟨false, false, true⟩ 4096 0 [] false) keptAlive).toOption.map
      (fun c => (c.amqp, c.trace, outstanding c.trace)) =
    some (.opened, [.sent (.header amqpPreferredVersion),
      .receivedHeader (encodeVersion amqpPreferredVersion), .sent .amqpOpen,
      .receivedFrame (.amqpOpen false 0), .released, .receivedFrame .empty], 1) := by
  rfl

end Amqp
