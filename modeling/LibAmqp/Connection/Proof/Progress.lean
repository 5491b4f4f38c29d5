import LibAmqp.Connection.Progress
import LibAmqp.Connection.Proof.MachineRules

/-!
# No connection hangs, but for a rejected client

Every handler arranges for the next call (`Attended`), fails, or stops the process, except the handler
of a SASL outcome that does not accept. `Fed` is what that rests on: while a frame is being read, its
read is outstanding.
-/

namespace Amqp

open Lib

namespace Progress

/-! ## The invariant -/

/-- What the pointers and states of a connection have to do with each other. -/
structure Sane (name : ConnectionState) (shutdown : ShutdownAction) (timer : Bool) (writer : WriterState)
    (frameReader : FrameReaderState) (frameSize : Nat) : Prop where
  doNothing : shutdown = .doNothing → name.Down
  inProgress : shutdown = .shutdownWhileInProgress → name.Down ∨ timer = true
  stopping : writer = .stopping → name.Down
  body : frameReader = .readingFrameBody → amqpFrameHeaderSizeInBytes < frameSize

def Inv (c : Connection) : Prop :=
  Sane c.name c.shutdown c.timer c.writer c.frameReader c.frameSize

/-- While a frame is being read, its read is outstanding, or there is no need for it. -/
def Fed (c : Connection) : Prop :=
  c.frameReader = .readingFrameHeader ∨ c.frameReader = .readingFrameBody →
    c.name.Down ∨ c.timer = true ∨
      c.reader = .reading ∧ c.readQueued = true ∧ c.readCallback = some .frameReader

/-- No frame is being read, or there is no need for it. -/
def Settled (c : Connection) : Prop :=
  c.frameReader = .readingFrameHeader ∨ c.frameReader = .readingFrameBody → c.name.Down ∨ c.timer = true

/-- What a write leaves as it was. -/
def Same (c c' : Connection) : Prop :=
  c'.name = c.name ∧ c'.timer = c.timer ∧ c'.frameReader = c.frameReader ∧ c'.reader = c.reader ∧
    c'.readQueued = c.readQueued ∧ c'.readCallback = c.readCallback

variable (d : FrameDecoders) (rejected : Prop)

/-- The connection is attended to, unless it was rejected, and does not come back from its end. -/
def Goes (c c' : Connection) : Prop :=
  Inv c' ∧ Fed c' ∧ (c'.Attended ∨ rejected) ∧ (c.name.Down → c'.name.Down)

def pre : Action → Connection → Prop
  | .shutdownDrain, c => Sane c.name .default c.timer c.writer c.frameReader c.frameSize
  | .connectionFail, c | .connectionShutdown, c | .shutdownClose, c | .writerWrite _, c
  | .writerContinue, c | .writerComplete, c | .writerFail, c | .readerFail, c => Inv c
  | .writerStop, c | .writerAbort, c | .readerStop, c | .readerReset, c | .socketShutdown, c =>
    Inv c ∧ c.name.Down
  | .connectionTimeout _ _, c => Inv c ∧ Fed c ∧ c.timer = true
  | .socketTryConnect, c | .socketFail, c => Inv c ∧ Fed c ∧ c.Waits
  | .socketConnect _, c => Inv c ∧ Fed c ∧ c.name = .connectingSocket
  | .readerCommence _ callback, c => Inv c ∧ (callback = .frameReader ∨ Fed c)
  | .readerDelayed, c => Goes rejected c c
  | .readDone callback _ 0, c => Inv c ∧ (callback = .frameReader ∨ Settled c)
  | .readDone callback _ amount, c => Inv c ∧ (callback = .frameReader ∨ Settled c) ∧
    ∀ f, callback = .frameReader → c.CompletesFrame amount → c.available d = some f → c.Ignores f →
      rejected
  | .frameAvailable, c => Inv c ∧ c.frameReader = .enabled ∧
    ∀ f, c.available d = some f → c.Ignores f → rejected
  | .frameDispatch f, c => Inv c ∧ c.frameReader = .enabled ∧ (c.Ignores f → rejected)
  | .connectionReject _, c | .saslAccept _, c | .tunnelAccept _, c => Inv c ∧ Fed c ∧ ¬ c.name.Down
  | _, c => Inv c ∧ Fed c

def post : Action → Connection → Connection → Prop
  | .writerWrite _, c, c' | .writerContinue, c, c' | .writerComplete, c, c' =>
    Inv c' ∧ (c'.name.Down ∨ Same c c')
  | .connectionFail, _, c' | .shutdownDrain, _, c' | .shutdownClose, _, c' | .writerFail, _, c'
  | .readerFail, _, c' | .writerStop, _, c' | .writerAbort, _, c' | .readerStop, _, c'
  | .readerReset, _, c' | .socketShutdown, _, c' => Inv c' ∧ c'.name.Down
  | .connectionConnect _, _, c' | .socketConnect _, _, c' | .socketTryConnect, _, c'
  | .socketFail, _, c' => Inv c' ∧ Fed c' ∧ c'.Waits
  | .readerEnable, c, c' | .writerEnable, c, c' | .negotiatorReset, c, c' | .frameEnable, c, c' =>
    Inv c' ∧ Fed c' ∧ c'.name = c.name
  | .readDone _ _ 0, c, c' => Goes False c c'
  | .readerDelayed, c, c' | .readDone _ _ _, c, c' | .frameAvailable, c, c'
  | .frameDispatch _, c, c' => Goes rejected c c'
  | _, c, c' => Goes False c c'

/-- Calls that do what they should. -/
def Respects (call : Calls) : Prop :=
  ∀ a c, pre d rejected a c → Ends (post rejected a c) (fun _ => True) (call a c)

variable {d rejected}

/-! ## What keeps the invariant -/

theorem fed_of_down {c : Connection} (h : c.name.Down) : Fed c := fun _ => .inl h

theorem fed_of_timer {c : Connection} (h : c.timer = true) : Fed c := fun _ => .inr (.inl h)

theorem Settled.fed {c : Connection} (h : Settled c) : Fed c := fun hf => (h hf).imp id .inl

/-- What is read next is a frame, or none is being read. -/
theorem Fed.settled {c : Connection} (h : Fed c) : c.readCallback = some .frameReader ∨ Settled c := by
  by_cases hc : c.readCallback = some .frameReader
  · exact .inl hc
  · refine .inr fun hf => ?_
    rcases h hf with hd | ht | ⟨-, -, hcb⟩
    · exact .inl hd
    · exact .inr ht
    · exact absurd hcb hc

/-- No read is outstanding, so no frame is being read. -/
theorem Fed.settled_of {c : Connection} (h : Fed c)
    (hfree : ¬ (c.reader = .reading ∧ c.readQueued = true ∧ c.readCallback = some .frameReader)) :
    Settled c := by
  intro hf
  rcases h hf with hd | ht | hq
  · exact .inl hd
  · exact .inr ht
  · exact absurd hq hfree

theorem Fed.of_write {c c' : Connection} (h : Fed c) (hs : c'.name.Down ∨ Same c c') : Fed c' := by
  rcases hs with hdown | ⟨hn, ht, hf, hr, hq, hc⟩
  · exact fed_of_down hdown
  · unfold Fed
    rw [hn, ht, hf, hr, hq, hc]
    exact h

theorem attended_of_write {c c' : Connection} (h : c.Attended) (hs : c'.name.Down ∨ Same c c') :
    c'.Attended := by
  rcases hs with hdown | ⟨hn, ht, -, hr, hq, -⟩
  · exact .inl hdown
  · unfold Connection.Attended Connection.isReading
    rw [hn, ht, hr, hq]
    exact h

theorem Goes.of_down {c x : Connection} (h : Inv x ∧ x.name.Down) : Goes rejected c x :=
  ⟨h.1, fed_of_down h.2, .inl (.inl h.2), fun _ => h.2⟩

/-- A call that takes the connection down. -/
theorem goes_of_down {c : Connection} {r : Outcome}
    (h : Ends (fun c' => Inv c' ∧ c'.name.Down) (fun _ => True) r) :
    Ends (Goes rejected c) (fun _ => True) r :=
  h.mono (fun _ h' => Goes.of_down h') fun _ he => he

theorem Goes.refl {c : Connection} (h : Inv c) (hfed : Fed c) (hatt : c.Attended) : Goes rejected c c :=
  ⟨h, hfed, .inl hatt, id⟩

/-- A call after one that did not bring the connection back. -/
theorem Goes.after {c x : Connection} {r : Outcome} (hdown : c.name.Down → x.name.Down)
    (h : Ends (Goes False x) (fun _ => True) r) : Ends (Goes rejected c) (fun _ => True) r :=
  h.mono (fun _ h' => ⟨h'.1, h'.2.1, h'.2.2.1.imp id False.elim, h'.2.2.2 ∘ hdown⟩) fun _ he => he

/-- What a function leaves for the call that it makes next. -/
def Kept (c c' : Connection) : Prop := Inv c' ∧ Fed c' ∧ (c.name.Down → c'.name.Down)

theorem Kept.refl {c : Connection} (h : Inv c) (hfed : Fed c) : Kept c c := ⟨h, hfed, id⟩

/-- A call that leaves the name. -/
theorem Kept.named {c x : Connection} {r : Outcome} (hx : Kept c x)
    (h : Ends (fun c' => Inv c' ∧ Fed c' ∧ c'.name = x.name) (fun _ => True) r) :
    Ends (Kept c) (fun _ => True) r :=
  h.mono (fun _ h' => ⟨h'.1, h'.2.1, fun hd => h'.2.2 ▸ hx.2.2 hd⟩) fun _ he => he

theorem Kept.goes {c x : Connection} {r : Outcome} (hx : Kept c x)
    (h : Ends (Goes False x) (fun _ => True) r) : Ends (Goes rejected c) (fun _ => True) r :=
  Goes.after hx.2.2 h

theorem waits_of_goes {c : Connection} {r : Outcome} (h : Ends (Goes False c) (fun _ => True) r) :
    Ends (fun c' => Inv c' ∧ Fed c' ∧ c'.Waits) (fun _ => True) r :=
  h.mono (fun _ h' => ⟨h'.1, h'.2.1, .inl (h'.2.2.1.resolve_right id)⟩) fun _ he => he

theorem Inv.transitionTo {c : Connection} (h : Inv c) {n : ConnectionState} (hn : n.Down) :
    Inv (Machine.transitionTo n c) where
  doNothing := fun _ => hn
  inProgress := fun _ => .inl hn
  stopping := fun _ => hn
  body := h.body

/-- A transition that does not end the connection. -/
theorem Inv.moveTo {c : Connection} (h : Inv c) {n : ConnectionState} (hup : ¬ c.name.Down)
    (hn : ¬ n.Down) : Inv (Machine.transitionTo n c) where
  doNothing := fun hs => by
    cases n <;> simp [Machine.transitionTo] at hs <;> exact absurd trivial hn
  inProgress := fun hs => by cases n <;> simp [Machine.transitionTo] at hs
  stopping := fun hw => absurd (h.stopping hw) hup
  body := h.body

/-- What a shutdown needs. -/
theorem Inv.drainable {c : Connection} (h : Inv c) :
    Sane c.name .default c.timer c.writer c.frameReader c.frameSize :=
  ⟨by simp, by simp, h.stopping, h.body⟩

theorem Inv.writer {c : Connection} (h : Inv c) {w : WriterState} (hw : w = .stopping → c.name.Down) :
    Inv { c with writer := w } := { h with stopping := hw }

theorem Fed.moveTo {c : Connection} (h : Fed c) {n : ConnectionState} (hup : ¬ c.name.Down) :
    Fed (Machine.transitionTo n c) := fun hf => .inr ((h hf).resolve_left hup)

/-- What the machine that is called next begins with. -/
theorem moved {c : Connection} (h : Inv c) (hfed : Fed c) {n : ConnectionState} (hup : ¬ c.name.Down)
    (hn : ¬ n.Down) : Inv (Machine.transitionTo n c) ∧ Fed (Machine.transitionTo n c) :=
  ⟨h.moveTo hup hn, hfed.moveTo hup⟩

theorem halted {c : Connection} {n : ConnectionState} (h : Inv c) (hn : n.Down) :
    Inv (Machine.connectionHalt (Machine.transitionTo n c)) ∧
      (Machine.connectionHalt (Machine.transitionTo n c)).name.Down :=
  ⟨⟨fun _ => hn, fun _ => .inl hn, fun _ => hn, h.body⟩, hn⟩

theorem down_of_write {c c' : Connection} (hs : c'.name.Down ∨ Same c c') (hdown : c.name.Down) :
    c'.name.Down := by
  rcases hs with h | ⟨hn, -⟩
  · exact h
  · rwa [hn]

theorem fed_of_enabled {c : Connection} (hs : c.frameReader = .enabled) : Fed c := by
  intro hf
  simp [hs] at hf

section Functions

variable {call : Calls} (hcall : Respects d rejected call) {c : Connection}

include hcall

/-! Calls that another one follows. -/

theorem connectionDone_down (h : Inv c) (hdown : c.name.Down) :
    Ends (fun c' => Inv c' ∧ c'.name.Down) (fun _ => True) (call .connectionDone c) :=
  (hcall .connectionDone c ⟨h, fed_of_down hdown⟩).mono
    (fun _ h' => ⟨h'.1, h'.2.2.2 hdown⟩) fun _ he => he

theorem write_kept {m : Message} {x : Connection} (hx : Kept c x) :
    Ends (Kept c) (fun _ => True) (call (.writerWrite m) x) :=
  (hcall (.writerWrite m) x hx.1).mono
    (fun _ h' => ⟨h'.1, hx.2.1.of_write h'.2, down_of_write h'.2 ∘ hx.2.2⟩) fun _ he => he

theorem frameEnable_kept {x : Connection} (hx : Kept c x) :
    Ends (Kept c) (fun _ => True) (call .frameEnable x) := hx.named (hcall .frameEnable x ⟨hx.1, hx.2.1⟩)

theorem negotiatorReset_kept {x : Connection} (hx : Kept c x) :
    Ends (Kept c) (fun _ => True) (call .negotiatorReset x) :=
  hx.named (hcall .negotiatorReset x ⟨hx.1, hx.2.1⟩)

theorem frameRead_kept {callback : FrameCallback} {p : Prop} {x : Connection} (hx : Kept c x) :
    Ends (Goes p c) (fun _ => True) (call (.frameRead callback) x) :=
  hx.goes (hcall (.frameRead callback) x ⟨hx.1, hx.2.1⟩)

/-! The writer. -/

theorem writerStop_ends (h : Inv c) (hdown : c.name.Down) :
    Ends (fun c' => Inv c' ∧ c'.name.Down) (fun _ => True) (Writer.writerStop call c) :=
  connectionDone_down hcall (c := { Writer.writerCleanup c with stoppedCallback := false })
    (h.writer (w := .stopped) (by simp)) hdown

theorem continueWriteOperation_ends (h : Inv c) :
    Ends (fun c' => Inv c' ∧ (c'.name.Down ∨ Same c c')) (fun _ => True)
      (Writer.continueWriteOperation call c) :=
  Writer.continueWriteOperation_rule (hcall .writerComplete { c with writes := c.writes.tail } h)
    ⟨h, .inr ⟨rfl, rfl, rfl, rfl, rfl, rfl⟩⟩ fun _ =>
      (hcall .writerFail { c with writes := c.writes.tail } h).mono
        (fun _ h' => ⟨h'.1, .inl h'.2⟩) fun _ he => he

theorem write_ends {m : Message} (h : Inv c) :
    Ends (fun c' => Inv c' ∧ (c'.name.Down ∨ Same c c')) (fun _ => True) (Writer.write call m c) :=
  Writer.write_rule (fun _ => mayCrash_true c) fun _ =>
    continueWriteOperation_ends hcall (c := { c with writer := .writing, trace := c.trace ++ [.sent m] })
      (h.writer (w := .writing) (by simp))

theorem continueWrite_ends (h : Inv c) :
    Ends (fun c' => Inv c' ∧ (c'.name.Down ∨ Same c c')) (fun _ => True) (Writer.continueWrite call c) :=
  Writer.continueWrite_rule (mayCrash_true c) (fun _ => ⟨h, .inr ⟨rfl, rfl, rfl, rfl, rfl, rfl⟩⟩)
    fun _ => continueWriteOperation_ends hcall h

theorem writeComplete_ends (h : Inv c) :
    Ends (fun c' => Inv c' ∧ (c'.name.Down ∨ Same c c')) (fun _ => True) (Writer.writeComplete call c) :=
  Writer.writeComplete_rule (mayCrash_true c)
    (fun _ => ⟨h.writer (by simp), .inr ⟨rfl, rfl, rfl, rfl, rfl, rfl⟩⟩) fun hw =>
      (writerStop_ends hcall h (h.stopping hw)).mono (fun _ h' => ⟨h'.1, .inl h'.2⟩) fun _ he => he

theorem stop_ends (h : Inv c) (hdown : c.name.Down) :
    Ends (fun c' => Inv c' ∧ c'.name.Down) (fun _ => True) (Writer.stop call c) :=
  Writer.stop_rule (fun _ => writerStop_ends hcall h hdown) (fun _ => ⟨h.writer fun _ => hdown, hdown⟩)
    fun _ => connectionDone_down hcall h hdown

/-! The reader. -/

/-- The end of the stream is reported to a callback. -/
theorem callReadCallback_ends (h : Inv c) (hsettled : c.readCallback = some .frameReader ∨ Settled c) :
    Ends (Goes False c) (fun _ => True) (Reader.callReadCallback call 0 c) :=
  Reader.callReadCallback_rule (mayCrash_true c) fun callback hc =>
    hcall (.readDone callback c.readQueued 0) { c with readCallback := none, readQueued := false }
      ⟨h, hsettled.imp (fun he => Option.some.inj (hc.symm.trans he)) id⟩

theorem readEof_ends {isPartial : Bool} (h : Inv c) (hfed : Fed c) :
    Ends (Goes False c) (fun _ => True) (Reader.readEof call isPartial c) :=
  Reader.readEof_rule (fun _ => goes_of_down (hcall .connectionFail { c with reader := .failed } h))
    (callReadCallback_ends hcall (c := { c with reader := .eof }) h hfed.settled)

/-- A read is tried. -/
theorem readWhatIsBuffered_ends (h : Inv c) (hfed : Fed c) (hreading : c.isReading = true) :
    Ends (Goes False c) (fun _ => True) (Reader.readWhatIsBuffered call c) :=
  Reader.readWhatIsBuffered_rule (mayCrash_true c)
    (Goes.refl (c := { c with reads := c.reads.tail }) h hfed (.inr (.inr hreading)))
    (fun _ _ => readEof_ends hcall (c := { c with reads := c.reads.tail }) h hfed)
    fun _ => goes_of_down (hcall .readerFail { c with reads := c.reads.tail } h)

omit hcall in
/-- A read of a frame, or of something else while frames are not waited for, is queued. -/
theorem fed_queued {n : Nat} {callback : ReadCallback} (hreading : c.reader = .reading)
    (hsettled : callback = .frameReader ∨ Settled c) : Fed (Reader.queueReadOperation n callback c) := by
  rcases hsettled with rfl | hsettled
  · exact fun _ => .inr (.inr ⟨hreading, rfl, rfl⟩)
  · exact fun hf => (hsettled hf).imp id .inl

theorem commenceRead_ends {required : Nat} {callback : ReadCallback} (h : Inv c)
    (hfed : callback = .frameReader ∨ Fed c) :
    Ends (Goes False c) (fun _ => True) (Reader.commenceRead call required callback c) := by
  have hsettled : ∀ (_ : ¬ (c.reader = .reading ∧ c.readQueued = true ∧
      c.readCallback = some .frameReader)), callback = .frameReader ∨ Settled c :=
    fun hfree => hfed.imp id fun hfed => hfed.settled_of hfree
  refine Reader.commenceRead_rule (mayCrash_true c) (fun hr => ?_) (fun hr hnone _ => ?_) fun hr => ?_
  · exact readWhatIsBuffered_ends hcall
      (c := Reader.queueReadOperation required callback { c with reader := .reading }) h
      (fed_queued (c := { c with reader := .reading }) rfl (hsettled (by simp [hr]))) rfl
  · refine ⟨h, fed_queued hr (hsettled (by simp [hnone])), .inl (.inr (.inr ?_)), id⟩
    simp [Connection.isReading, Reader.queueReadOperation, hr]
  · refine callReadCallback_ends hcall (c := { c with reader := _, readCallback := _ }) h ?_
    exact (hsettled (by simp [hr])).imp (fun he => by rw [he]) id

/-- The rest of a read: the next one is tried, or there is none. -/
theorem delayedReadWhileReading_ends (h : Goes rejected c c) :
    Ends (Goes rejected c) (fun _ => True) (Reader.delayedReadWhileReading call c) := by
  obtain ⟨h, hfed, hatt, -⟩ := h
  refine Reader.delayedReadWhileReading_rule (fun hq => ?_) fun hq => ⟨h, fun hf => ?_, ?_, id⟩
  · have hfed1 : Fed { c with reader := .reading } := fun hf =>
      (hfed hf).imp_right fun h => h.imp_right fun hrest => ⟨rfl, hrest.2⟩
    exact Goes.after id (readWhatIsBuffered_ends hcall (c := { c with reader := .reading }) h hfed1
      (by simp [Connection.isReading, hq]))
  · -- nothing is queued, so it is not a read that the connection waits for
    exact (hfed hf).imp_right fun h => h.imp_right fun hrest => absurd hrest.2.1 (by simp [hq])
  · refine hatt.imp_left fun hatt => hatt.imp_right fun hatt => .inl (hatt.resolve_right ?_)
    simp [Connection.isReading, hq]

omit hcall in
theorem readerReset_ends (h : Inv c) (hdown : c.name.Down) :
    Ends (fun c' => Inv c' ∧ c'.name.Down) (fun _ => True) (Reader.reset c) :=
  Reader.reset_rule (fun _ => ⟨h, hdown⟩) (fun _ => ⟨h, hdown⟩) fun _ _ _ => ⟨h, hdown⟩

omit hcall in
theorem readerEnable_ends (h : Inv c) (hfed : Fed c) :
    Ends (fun c' => Inv c' ∧ Fed c' ∧ c'.name = c.name) (fun _ => True) (Reader.enable c) := by
  refine Reader.enable_rule (mayCrash_true c) fun hr => ⟨h, fun hf => ?_, rfl⟩
  exact (hfed hf).imp_right fun h => h.imp_right fun hq => absurd (hr.symm.trans hq.1) (by simp)

/-! The socket. -/

theorem connectionAttemptFailed_ends (h : Inv c) (hfed : Fed c) (hwaits : c.Waits) :
    Ends (fun c' => Inv c' ∧ Fed c' ∧ c'.Waits) (fun _ => True) (Socket.connectionAttemptFailed call c) :=
  Socket.connectionAttemptFailed_rule (fun _ => hcall .socketTryConnect c ⟨h, hfed, hwaits⟩)
    (hcall .socketFail c ⟨h, hfed, hwaits⟩)

theorem tryConnect_ends (h : Inv c) (hfed : Fed c) (hwaits : c.Waits) :
    Ends (fun c' => Inv c' ∧ Fed c' ∧ c'.Waits) (fun _ => True) (Socket.tryConnect call c) :=
  Socket.tryConnect_rule (mayCrash_true c)
    (fun _ _ => connectionAttemptFailed_ends hcall
      (c := { c with addresses := c.addresses - 1, connects := c.connects.tail }) h hfed hwaits)
    (fun _ => waits_of_goes
      (hcall .socketDone { c with addresses := c.addresses - 1, connects := c.connects.tail } ⟨h, hfed⟩))
    fun _ => ⟨h, hfed, hwaits⟩

theorem socketConnect_ends {lookup : Option Nat} (h : Inv c) (hfed : Fed c)
    (hname : c.name = .connectingSocket) :
    Ends (fun c' => Inv c' ∧ Fed c' ∧ c'.Waits) (fun _ => True) (Socket.connect call lookup c) :=
  Socket.connect_rule (mayCrash_true c)
    (fun _ _ => hcall .socketFail { c with socket := .resolving, hostname := true }
      ⟨h, hfed, .inr (.inr hname)⟩)
    fun _ n _ => hcall .socketTryConnect { c with socket := .connecting, hostname := true, addresses := n }
      ⟨h, hfed, .inr (.inr hname)⟩

theorem socketFail_ends (h : Inv c) :
    Ends (fun c' => Inv c' ∧ Fed c' ∧ c'.Waits) (fun _ => True) (Socket.fail call c) :=
  Socket.fail_rule (mayCrash_true c) fun _ => waits_of_goes (c := c) (goes_of_down (hcall .connectionFail
    { c with socket := .failed, connectWatcher := false, addresses := 0 } h))

/-! The shutdown of a connection. -/

theorem stopActivity_ends (h : Inv c) (hdown : c.name.Down) :
    Ends (fun c' => Inv c' ∧ c'.name.Down) (fun _ => True) (Machine.stopActivity call c) :=
  Machine.stopActivity_rule (hcall .writerAbort c ⟨h, hdown⟩) (fun c1 h1 => hcall .readerStop c1 h1)
    fun c2 h2 => hcall .socketShutdown c2 h2

theorem stopInput_ends (h : Inv c) :
    Ends (fun c' => Inv c' ∧ c'.name.Down) (fun _ => True) (Machine.stopInput call c) :=
  Machine.stopInput_rule (hcall .readerStop _ ⟨h.transitionTo (n := .stopping) trivial, trivial⟩)
    fun c1 h1 => hcall .socketShutdown c1 h1

theorem shutdownConnection_ends {m : ShutdownMode}
    (h : Sane c.name .default c.timer c.writer c.frameReader c.frameSize) :
    Ends (fun c' => Inv c' ∧ c'.name.Down) (fun _ => True) (Machine.shutdownConnection call m c) :=
  Machine.shutdownConnection_rule
    (fun _ => hcall .writerStop _
      ⟨⟨fun _ => trivial, fun _ => .inl trivial, fun _ => trivial, h.body⟩, trivial⟩)
    fun _ => stopActivity_ends hcall (c := Machine.transitionTo .stopping { c with handshake := _ })
      ⟨fun _ => trivial, fun _ => .inl trivial, fun _ => trivial, h.body⟩ trivial

theorem drain_ends (h : Sane c.name .default c.timer c.writer c.frameReader c.frameSize) :
    Ends (fun c' => Inv c' ∧ c'.name.Down) (fun _ => True) (Machine.drain call c) :=
  Machine.drain_rule
    (fun hdown => ⟨⟨fun _ => hdown, fun _ => .inl hdown, fun _ => hdown, h.body⟩, hdown⟩)
    fun _ _ _ => shutdownConnection_ends hcall h

theorem fail_ends (h : Inv c) :
    Ends (fun c' => Inv c' ∧ c'.name.Down) (fun _ => True) (Machine.fail call c) :=
  Machine.fail_rule (mayCrash_true c) (fun _ => hcall .shutdownDrain c h.drainable)
    (fun _ => halted (n := .failed) h trivial) fun _ _ => shutdownConnection_ends hcall h.drainable

theorem beginConnectionClose_ends (h : Inv c) :
    Ends (Goes False c) (fun _ => True) (AmqpConnection.beginConnectionClose call c) := by
  refine AmqpConnection.beginConnectionClose_rule (hcall (.writerWrite .amqpClose) c h) ?_
  rintro c1 ⟨h1, hs⟩
  have hdown := down_of_write hs
  have h2 : Inv (AmqpConnection.transitionToCloseSent { c1 with timer := true }) :=
    ⟨by simp [AmqpConnection.transitionToCloseSent], fun _ => .inr rfl, h1.stopping, h1.body⟩
  exact frameRead_kept hcall ⟨h2, fed_of_timer rfl, hdown⟩

theorem shutdown_ends (h : Inv c) : Ends (Goes False c) (fun _ => True) (Machine.shutdown call c) := by
  refine Machine.shutdown_rule (fun _ => goes_of_down (hcall .shutdownClose c h)) (fun hs => ?_)
    fun _ => beginConnectionClose_ends hcall h
  rcases hs with hs | hs
  · exact Goes.of_down ⟨h, h.doNothing hs⟩
  · rcases h.inProgress hs with hdown | htimer
    · exact Goes.of_down ⟨h, hdown⟩
    · exact Goes.refl h (fed_of_timer htimer) (.inr (.inl htimer))

theorem timeout_ends {readIdle writeIdle : Bool} (h : Inv c) (hfed : Fed c) (htimer : c.timer = true) :
    Ends (Goes False c) (fun _ => True) (Machine.timeout call readIdle writeIdle c) := by
  refine Machine.timeout_rule (fun _ => mayCrash_true c)
    (fun _ => goes_of_down (stopActivity_ends hcall (h.transitionTo (n := .timeout) trivial) trivial))
    (fun _ _ => beginConnectionClose_ends hcall h) (fun _ => ?_)
    (fun _ => Goes.refl h hfed (.inr (.inl htimer)))
    (fun _ => goes_of_down (hcall .shutdownDrain (AmqpConnection.transitionToClosed c) h.drainable))
    fun _ => goes_of_down (hcall .shutdownClose c h)
  refine (hcall (.writerWrite .emptyFrame) c h).mono ?_ fun _ he => he
  rintro c1 ⟨h1, hs⟩
  exact ⟨h1, hfed.of_write hs, .inl (attended_of_write (.inr (.inl htimer)) hs), down_of_write hs⟩

theorem readDoneWhileDraining_ends {buffer : Bool} {amount : Nat} (h : Inv c) :
    Ends (Goes False c) (fun _ => True) (Machine.readDoneWhileDrainingInput call buffer amount c) :=
  Machine.readDoneWhileDrainingInput_rule (mayCrash_true c)
    (fun _ => Goes.after (x := Machine.drainInput c) (fun _ => trivial)
      (hcall (.readerCommence Reader.capacity .connection) _
        ⟨h.transitionTo (n := .drainingInput) trivial, .inr (fed_of_down trivial)⟩))
    fun _ => goes_of_down (stopInput_ends hcall h)

theorem doneWhileStoppingOutput_ends (h : Inv c) :
    Ends (Goes False c) (fun _ => True) (Machine.doneWhileStoppingOutput call c) :=
  Machine.doneWhileStoppingOutput_rule (mayCrash_true c)
    (fun _ => hcall .readerReset (Machine.drainInput { c with timer := true })
      ⟨⟨fun _ => trivial, fun _ => .inl trivial, fun _ => trivial, h.body⟩, trivial⟩)
    (fun c1 h1 => Goes.after (fun _ => h1.2)
      (hcall (.readerCommence Reader.capacity .connection) c1 ⟨h1.1, .inr (fed_of_down h1.2)⟩))
    fun _ => goes_of_down (stopInput_ends hcall h)

/-! The way up. -/

theorem startNextProtocol_ends (h : Inv c) (hfed : Fed c) (hup : ¬ c.name.Down) :
    Ends (Goes False c) (fun _ => True) (Machine.startNextProtocol call c) :=
  Machine.startNextProtocol_rule
    (fun _ => Goes.after (absurd · hup) (hcall .tlsConnect { Machine.transitionTo .connectingTls c with
      handshake := { c.handshake with tls := false } } (moved h hfed hup id)))
    (fun _ _ => Goes.after (absurd · hup) (hcall .saslConnect { Machine.transitionTo .connectingSasl c with
      handshake := { c.handshake with sasl := false } } (moved h hfed hup id)))
    (fun _ _ => Goes.after (absurd · hup) (hcall .tunnelConnect { Machine.transitionTo .connectingAmqp c with
      handshake := { c.handshake with amqp := false } } (moved h hfed hup id)))
    (goes_of_down (hcall .connectionFail c h))

theorem enableIo_ends (h : Inv c) (hfed : Fed c) :
    Ends (fun c' => Inv c' ∧ Fed c' ∧ c'.name = c.name) (fun _ => True) (Machine.enableIo call c) :=
  Machine.enableIo_rule (hcall .readerEnable c ⟨h, hfed⟩) fun c1 h1 =>
    (hcall .writerEnable c1 ⟨h1.1, h1.2.1⟩).mono
      (fun _ h2 => ⟨h2.1, h2.2.1, h2.2.2.trans h1.2.2⟩) fun _ he => he

theorem done_ends (h : Inv c) (hfed : Fed c) :
    Ends (Goes False c) (fun _ => True) (Machine.done call c) := by
  refine Machine.done_rule (r := fun c1 => Inv c1 ∧ Fed c1 ∧ ¬ c1.name.Down ∧ ¬ c.name.Down) (s := Kept c)
    (mayCrash_true c) (fun hn => ?_) (fun c1 h1 => ?_) (fun hn => ?_) (fun hn => ?_) (fun hn => ?_)
    (fun _ => ?_) (fun hn => ?_) (fun hn => ?_) (fun c1 h1 => ?_) (fun hn => ?_) (fun _ => ?_) (fun _ => ?_)
    fun _ => ?_
  · have hup := up_of_name hn id
    exact (enableIo_ends hcall h hfed).mono (fun _ h1 => ⟨h1.1, h1.2.1, h1.2.2 ▸ hup, hup⟩) fun _ he => he
  · exact Goes.after (absurd · h1.2.2.2)
      (startNextProtocol_ends hcall (c := { c1 with handshake := c1.protocols }) h1.1 h1.2.1 h1.2.2.1)
  · exact startNextProtocol_ends hcall h hfed (up_of_name hn id)
  · exact startNextProtocol_ends hcall (c := { c with saslConnected := true }) h hfed (up_of_name hn id)
  · have hup := up_of_name hn id
    exact Goes.after (absurd · hup)
      (hcall .amqpSendOpen _ (moved (c := { c with isClient := true }) h hfed hup id))
  · exact goes_of_down (hcall .shutdownDrain c h.drainable)
  · have hmoved := moved h hfed (n := .waitingOnTlsTunnelledRequest) (up_of_name hn id) id
    exact Machine.doneWhileAcceptingTls_rule (hcall .negotiatorReset _ hmoved) fun c1 h1 =>
      (hcall .negotiatorWait c1 ⟨h1.1, h1.2.1⟩).mono (fun c2 _ => mayCrash_true c2) fun _ he => he
  · have hup := up_of_name hn id
    have hmoved := moved h hfed (n := .waitingOnAmqpNegotiationRequest) hup id
    exact negotiatorReset_kept hcall ⟨hmoved.1, hmoved.2, (absurd · hup)⟩
  · exact h1.goes (hcall .negotiatorWait c1 ⟨h1.1, h1.2.1⟩)
  · have hup := up_of_name hn id
    exact Goes.after (absurd · hup) (hcall .amqpWaitOnOpen _ (moved h hfed hup id))
  · exact doneWhileStoppingOutput_ends hcall h
  · exact Goes.of_down (halted (n := .failed) h trivial)
  · exact Goes.of_down (halted (n := .stopped) h trivial)

theorem connect_ends {lookup : Option Nat} (h : Inv c) (hfed : Fed c) :
    Ends (fun c' => Inv c' ∧ Fed c' ∧ c'.Waits) (fun _ => True) (Machine.connect call lookup c) := by
  refine Machine.connect_rule (mayCrash_true c) fun hn => ?_
  have hmoved := moved h hfed (n := .connectingSocket) (up_of_name hn id) id
  exact hcall (.socketConnect lookup) _ ⟨hmoved.1, hmoved.2, rfl⟩

/-! The negotiator. -/

/-- A header is sent, and one is waited for. -/
theorem negotiatorStart_ends {version : Nat} {confirm : ConfirmCallback} {reject : RejectCallback}
    (h : Inv c) (hfed : Fed c) :
    Ends (Goes False c) (fun _ => True) (Negotiator.start call version confirm reject c) :=
  Negotiator.start_rule (mayCrash_true c) (fun _ => write_kept hcall (Kept.refl h hfed)) fun c1 h1 =>
    Goes.after (x := Connection.resetBuffer { c1 with negotiator := .waitingForBrokerResponse }) h1.2.2
      (hcall (.readerCommence _ .negotiator) (Connection.resetBuffer { c1 with negotiator := _ })
        ⟨h1.1, .inr h1.2.1⟩)

theorem negotiatorWait_ends (h : Inv c) (hfed : Fed c) :
    Ends (Goes False c) (fun _ => True) (Negotiator.wait call c) :=
  Negotiator.wait_rule (mayCrash_true c) fun _ => hcall (.readerCommence _ .negotiator) _ ⟨h, .inr hfed⟩

theorem negotiatorSend_ends {version : Nat} {confirm : ConfirmCallback} (h : Inv c) (hfed : Fed c) :
    Ends (Goes False c) (fun _ => True) (Negotiator.send call version confirm c) :=
  Negotiator.send_rule (fun _ => mayCrash_true c) (fun _ => write_kept hcall (Kept.refl h hfed)) fun c1 h1 =>
    h1.goes (hcall .confirmCallback { c1 with negotiator := .negotiated } ⟨h1.1, h1.2.1⟩)

/-- A header, or the end of the stream. -/
theorem negotiatorReadDone_ends {buffer : Bool} {amount : Nat} (h : Inv c) (hfed : Fed c) :
    Ends (Goes False c) (fun _ => True) (Negotiator.readDone call buffer amount c) :=
  Negotiator.readDone_rule (mayCrash_true c)
    (fun _ _ => hcall .connectionShutdown { c with negotiator := .failed } h)
    (fun _ _ _ => hcall .confirmCallback { Negotiator.consumeHeader c with negotiator := .negotiated }
      ⟨h, hfed⟩)
    (fun _ _ _ => hcall (.rejectCallback _) { Negotiator.consumeHeader c with negotiator := .rejected }
      ⟨h, hfed⟩)
    fun _ _ => hcall (.requestCallback _)
      { Negotiator.consumeHeader c with negotiator := .waitingToSendServerResponse } ⟨h, hfed⟩

theorem confirm_ends (h : Inv c) (hfed : Fed c) :
    Ends (Goes False c) (fun _ => True) (dispatch d call .confirmCallback c) :=
  confirmCallback_rule (mayCrash_true c)
    (fun _ => frameEnable_kept hcall (x := { c with sasl := .waitingOnSaslMechanisms })
      (Kept.refl (c := c) h hfed))
    (fun _ h1 => frameRead_kept hcall h1)
    (fun _ => hcall .connectionDone { c with amqpTunnel := .negotiated } ⟨h, hfed⟩)
    (fun _ => hcall .saslDone c ⟨h, hfed⟩) (fun _ => hcall .tunnelDone c ⟨h, hfed⟩)
    fun _ => hcall .connectionDone c ⟨h, hfed⟩

theorem rejectCallback_ends {version : Nat} (h : Inv c) :
    Ends (Goes False c) (fun _ => True) (dispatch d call (.rejectCallback version) c) :=
  rejectCallback_rule (mayCrash_true c)
    (fun _ => goes_of_down (hcall .connectionFail { c with sasl := .failed } h))
    fun _ => goes_of_down (hcall .connectionFail { c with amqpTunnel := .failed } h)

/-! The server. -/

theorem rejectProtocolVersion_ends {version : Nat} (h : Inv c) (hfed : Fed c) (hup : ¬ c.name.Down) :
    Ends (Goes False c) (fun _ => True) (Machine.rejectProtocolVersion call version c) :=
  Goes.after (absurd · hup) (hcall (.negotiatorSend version .connectionDone)
    (Machine.transitionTo .sendingErrorMessage c) (moved h hfed hup id))

theorem establish_ends {version : Nat} {accepted : Protocols} (h : Inv c) (hfed : Fed c)
    (hup : ¬ c.name.Down) :
    Ends (Goes False c) (fun _ => True)
      (Machine.establishTunnelAfterClientRequest call version accepted c) :=
  Machine.establish_rule (fun _ => rejectProtocolVersion_ends hcall h hfed hup)
    (fun _ _ => Goes.after (absurd · hup) (hcall (.tlsAccept version) (Machine.transitionTo .acceptingTls c)
      (moved h hfed hup id)))
    (fun _ _ => Goes.after (absurd · hup) (hcall (.saslAccept version) (Machine.transitionTo .acceptingSasl c)
      ⟨h.moveTo hup id, hfed.moveTo hup, id⟩))
    fun _ _ => Goes.after (absurd · hup) (hcall (.tunnelAccept version) (Machine.transitionTo .acceptingAmqp c)
      ⟨h.moveTo hup id, hfed.moveTo hup, id⟩)

theorem begin_ends {version : Nat} (h : Inv c) (hfed : Fed c) :
    Ends (Goes False c) (fun _ => True) (Machine.begin call version c) :=
  Machine.begin_rule (fun _ => mayCrash_true c) fun _ ha =>
    establish_ends hcall h hfed (Machine.not_down_of_acceptedIn ha)

theorem saslAccept_ends {version : Nat} (h : Inv c) (hfed : Fed c) (hup : ¬ c.name.Down) :
    Ends (Goes False c) (fun _ => True) (Sasl.accept call version c) :=
  Sasl.accept_rule (fun _ => mayCrash_true c)
    (fun _ _ => hcall (.connectionReject _) { c with sasl := .failed } ⟨h, hfed, hup⟩)
    fun _ _ => hcall (.negotiatorSend _ .saslBrokerVersionSent) { c with sasl := .sendingHeaderResponse }
      ⟨h, hfed⟩

theorem tunnelAccept_ends {version : Nat} (h : Inv c) (hfed : Fed c) (hup : ¬ c.name.Down) :
    Ends (Goes False c) (fun _ => True) (AmqpTunnel.accept call version c) :=
  AmqpTunnel.accept_rule (fun _ => mayCrash_true c)
    (fun _ _ => hcall (.connectionReject _) { c with amqpTunnel := .failed } ⟨h, hfed, hup⟩)
    fun _ _ => hcall (.negotiatorSend _ .amqpDone) { c with amqpTunnel := .sendingHeaderResponse } ⟨h, hfed⟩

/-! SASL and the AMQP tunnel. -/

theorem saslConnect_ends (h : Inv c) (hfed : Fed c) :
    Ends (Goes False c) (fun _ => True) (Sasl.connect call c) :=
  Sasl.connect_rule (mayCrash_true c) (fun _ => negotiatorReset_kept hcall (Kept.refl h hfed)) fun c1 h1 =>
    h1.goes (hcall (.negotiatorStart _ .saslVersionAccepted .saslVersionRejected) c1 ⟨h1.1, h1.2.1⟩)

theorem tunnelConnect_ends (h : Inv c) (hfed : Fed c) :
    Ends (Goes False c) (fun _ => True) (AmqpTunnel.connect call c) :=
  AmqpTunnel.connect_rule (mayCrash_true c) (fun _ => negotiatorReset_kept hcall (Kept.refl h hfed)) fun c1 h1 =>
    h1.goes (hcall (.negotiatorStart _ .amqpVersionAccepted .amqpVersionRejected) c1 ⟨h1.1, h1.2.1⟩)

theorem saslDone_ends (h : Inv c) (hfed : Fed c) :
    Ends (Goes False c) (fun _ => True) (Sasl.done call c) :=
  Sasl.done_rule (mayCrash_true c) (fun _ _ => goes_of_down (hcall .connectionFail c h))
    (fun _ => write_kept hcall (Kept.refl h hfed))
    (fun c1 h1 => frameEnable_kept hcall (x := { c1 with sasl := .waitingOnSaslInitialResponseFrame }) h1)
    fun _ h2 => frameRead_kept hcall h2

theorem sendOpen_ends (h : Inv c) (hfed : Fed c) :
    Ends (Goes False c) (fun _ => True) (AmqpConnection.sendOpen call c) :=
  AmqpConnection.sendOpen_rule (mayCrash_true c) (fun _ => write_kept hcall (Kept.refl h hfed))
    (fun c1 h1 => frameEnable_kept hcall (x := { c1 with amqp := .openSent }) h1)
    fun _ h2 => frameRead_kept hcall h2

theorem waitOnOpen_ends (h : Inv c) (hfed : Fed c) :
    Ends (Goes False c) (fun _ => True) (AmqpConnection.waitOnOpen call c) :=
  AmqpConnection.waitOnOpen_rule (mayCrash_true c)
    (fun _ => frameEnable_kept hcall (x := { c with amqp := .waitingForOpenFrame }) (Kept.refl (c := c) h hfed))
    fun _ h1 => frameRead_kept hcall h1

/-! Frames. -/

theorem frameRead_ends {callback : FrameCallback} (h : Inv c) (hfed : Fed c) :
    Ends (Goes False c) (fun _ => True) (FrameReader.read call callback c) := by
  refine FrameReader.read_rule (mayCrash_true c) (fun _ => ?_) fun hf => Goes.refl h hfed ?_
  · exact hcall (.readerCommence _ .frameReader) { c.resetBuffer with
      frameReader := .readingFrameHeader, frameCallback := some callback }
      ⟨{ h with body := by simp }, .inl rfl⟩
  · -- while a frame is read, the connection waits for it
    exact (hfed hf).imp_right fun h => h.imp_right fun hr => by simp [Connection.isReading, hr.1, hr.2.1]

theorem outOfSequenceSaslFrame_ends (h : Inv c) :
    Ends (Goes rejected c) (fun _ => True) (call .connectionFail c.frameCleanup) :=
  goes_of_down (hcall .connectionFail c.frameCleanup h)

theorem outOfSequenceFrame_ends (h : Inv c) :
    Ends (Goes rejected c) (fun _ => True) (call .connectionShutdown c.frameCleanup) :=
  Goes.after (x := c.frameCleanup) id (hcall .connectionShutdown c.frameCleanup h)

theorem mechanismsFrame_ends {names : List (List UInt8)} (h : Inv c) (hs : c.frameReader = .enabled) :
    Ends (Goes rejected c) (fun _ => True) (Sasl.mechanismsFrame call names c) :=
  Sasl.mechanismsFrame_rule (mayCrash_true c) (fun _ => outOfSequenceSaslFrame_ends hcall h)
    (fun _ plugin => (hcall .connectionFail { c with plugin := plugin } h).mono
      (fun c1 h1 => Goes.of_down (x := c1.frameCleanup) h1) fun _ he => he)
    (fun _ plugin _ => write_kept hcall (x := { c with plugin := some plugin })
      (Kept.refl (c := c) h (fed_of_enabled hs)))
    fun c1 h1 => frameRead_kept hcall
      (x := { c1.frameCleanup with sasl := .waitingOnSaslChallengeOrOutcome }) h1

theorem initFrame_ends {mechanism : List UInt8} (h : Inv c) (hs : c.frameReader = .enabled) :
    Ends (Goes rejected c) (fun _ => True) (Sasl.initFrame call mechanism c) :=
  Sasl.initFrame_rule (mayCrash_true c) (fun _ => outOfSequenceSaslFrame_ends hcall h)
    (fun _ => (hcall .connectionFail c h).mono (fun c1 _ => mayCrash_true c1.frameCleanup) fun _ he => he)
    (fun _ plugin _ _ => write_kept hcall (x := { c with plugin := some plugin })
      (Kept.refl (c := c) h (fed_of_enabled hs)))
    fun c1 h1 => Goes.after (x := { c1.frameCleanup with sasl := .negotiated }) h1.2.2
      (hcall .connectionDone _ ⟨h1.1, h1.2.1⟩)

theorem outcomeFrame_ends {code : Nat} {additionalData : Bool} (h : Inv c) (hs : c.frameReader = .enabled)
    (hr : c.Ignores (.saslOutcome code additionalData) → rejected) :
    Ends (Goes rejected c) (fun _ => True) (Sasl.outcomeFrame call code additionalData c) := by
  refine Sasl.outcomeFrame_rule (mayCrash_true c) (fun _ => outOfSequenceSaslFrame_ends hcall h)
    (fun _ _ _ => Goes.after (x := c) id (hcall .connectionDone { c.frameCleanup with sasl := .negotiated }
      ⟨h, fed_of_enabled hs⟩))
    fun hsasl hno => ⟨h, fed_of_enabled hs, .inr (hr ⟨hsasl, ?_⟩), id⟩
  change additionalData = true ∨ code ≠ Sasl.amqpSaslCodeOk
  cases additionalData with
  | true => exact .inl rfl
  | false => exact .inr fun hcode => hno ⟨rfl, hcode⟩

theorem connectionOpened_ends {idleTimeOut : Nat} (h : Inv c)
    (hs : c.name.Down ∨ c.frameReader = .enabled) :
    Ends (Goes rejected c) (fun _ => True) (AmqpConnection.connectionOpened call idleTimeOut c) := by
  have hfed : Fed { AmqpConnection.transitionToOpened c with
      timer := c.idleTimeOut != 0 && idleTimeOut != 0 } := by
    rcases hs with hd | hs
    · exact fed_of_down hd
    · exact fed_of_enabled hs
  refine Goes.after (x := c) id (hcall (.frameRead .amqp) _ ⟨⟨?_, ?_, h.stopping, h.body⟩, hfed⟩)
  · simp [AmqpConnection.transitionToOpened]
  · simp [AmqpConnection.transitionToOpened]

theorem openFrame_ends {hostname : Bool} {idleTimeOut : Nat} (h : Inv c) (hs : c.frameReader = .enabled) :
    Ends (Goes rejected c) (fun _ => True) (AmqpConnection.openFrame call hostname idleTimeOut c) := by
  refine AmqpConnection.openFrame_rule (mayCrash_true c) (fun _ _ => outOfSequenceFrame_ends hcall h)
    (fun _ _ => connectionOpened_ends hcall (c := c.frameCleanup) h (.inr hs))
    (fun _ _ => hcall (.writerWrite .amqpOpen) c.frameCleanup h) ?_
  rintro c1 ⟨h1, hwrite⟩
  refine (connectionOpened_ends hcall h1 ?_).mono ?_ fun _ he => he
  · exact hwrite.imp id fun hsame => hsame.2.2.1.trans hs
  · exact fun c2 h2 => ⟨h2.1, h2.2.1, h2.2.2.1, h2.2.2.2 ∘ down_of_write (c := c.frameCleanup) hwrite⟩

theorem closeFrame_ends {error : Bool} (h : Inv c) :
    Ends (Goes rejected c) (fun _ => True) (AmqpConnection.closeFrame call error c) := by
  refine AmqpConnection.closeFrame_rule (r := Inv) (s := Inv) (mayCrash_true c)
    (fun _ _ => outOfSequenceFrame_ends hcall h)
    (fun _ => (hcall (.frameRead .discard) _ ⟨?_, fed_of_timer rfl⟩).mono (fun _ h1 => h1.1) fun _ he => he)
    (fun c1 h1 => (hcall (.writerWrite .amqpClose) c1 h1).mono (fun _ h2 => h2.1) fun _ he => he)
    (fun c2 h2 => goes_of_down (hcall .shutdownDrain c2 h2.drainable))
    fun _ => goes_of_down (hcall .shutdownDrain (AmqpConnection.transitionToClosed c.frameCleanup) h.drainable)
  exact ⟨by simp [AmqpConnection.transitionToClosed, Connection.frameCleanup], fun _ => .inr rfl,
    h.stopping, h.body⟩

theorem emptyFrame_ends (h : Inv c) (hs : c.frameReader = .enabled) :
    Ends (Goes rejected c) (fun _ => True) (AmqpConnection.emptyFrame call c) :=
  AmqpConnection.emptyFrame_rule (fun _ => frameRead_kept hcall (Kept.refl h (fed_of_enabled hs)))
    fun _ _ => outOfSequenceFrame_ends hcall h

theorem frameDispatch_ends {f : PeerFrame} (h : Inv c) (hs : c.frameReader = .enabled)
    (hr : c.Ignores f → rejected) :
    Ends (Goes rejected c) (fun _ => True) (f.dispatch call c) := by
  cases f with
  | saslMechanisms names => exact mechanismsFrame_ends hcall h hs
  | saslInit mechanism => exact initFrame_ends hcall h hs
  | saslChallenge =>
    exact Sasl.challengeFrame_rule (mayCrash_true c) fun _ => outOfSequenceSaslFrame_ends hcall h
  | saslResponse => exact outOfSequenceSaslFrame_ends hcall h
  | saslOutcome code additionalData => exact outcomeFrame_ends hcall h hs hr
  | amqpOpen hostname idleTimeOut => exact openFrame_ends hcall h hs
  | amqpClose error => exact closeFrame_ends hcall h
  | empty => exact emptyFrame_ends hcall h hs
  | _ => exact outOfSequenceFrame_ends hcall h

omit hcall in
theorem available_of_decodes {f : PeerFrame} {i : Nat} (h : Decodes d c f i) : c.available d = some f := by
  unfold Connection.available
  rcases h with ⟨hc, hf⟩ | ⟨hc, hf⟩
  · simp [hc, hf]
  · simp [hc, hf]

theorem frameAvailable_ends (h : Inv c) (hs : c.frameReader = .enabled)
    (hr : ∀ f, c.available d = some f → c.Ignores f → rejected) :
    Ends (Goes rejected c) (fun _ => True) (dispatch d call .frameAvailable c) :=
  frameAvailable_rule (mayCrash_true c)
    (fun f i hf => hcall (.frameDispatch f) { c with readIndex := i, trace := c.trace ++ [.receivedFrame f] }
      ⟨h, hs, hr f (available_of_decodes hf)⟩)
    (fun _ _ => goes_of_down (hcall .connectionFail c h))
    (fun _ _ => Goes.after id (hcall .connectionShutdown c h))
    fun _ => frameRead_kept hcall (Kept.refl h (fed_of_enabled hs))

theorem frameReadDone_ends {amount : Nat} (h : Inv c)
    (hr : ∀ f, c.CompletesFrame amount → c.available d = some f → c.Ignores f → rejected) :
    Ends (Goes rejected c) (fun _ => True) (FrameReader.readDone call amount c) := by
  refine FrameReader.readDone_rule (mayCrash_true c)
    (fun _ _ => Goes.after id (hcall .connectionShutdown c h))
    (fun _ _ _ => goes_of_down (hcall .connectionFail c h))
    (fun hs _ _ => goes_of_down (hcall .connectionFail _ { h with body := by simp [hs] }))
    (fun hs h8 hsize he => ?_) (fun _ _ hsize he => ?_)
    (fun _ _ => goes_of_down (hcall .connectionFail c h)) fun hs hamount => ?_
  · unfold FrameReader.RefusesSize at hsize
    have hcompletes : c.CompletesFrame amount := .inl ⟨hs, h8, he, by rw [← he]; omega⟩
    exact hcall .frameAvailable { c with frameSize := _, frameReader := .enabled }
      ⟨{ h with body := by simp }, rfl, fun f => hr f hcompletes⟩
  · unfold FrameReader.RefusesSize at hsize
    exact Goes.after (x := c) id (hcall (.readerCommence _ .frameReader)
      { c with frameSize := FrameReader.announcedSize c, frameReader := .readingFrameBody }
      ⟨{ h with body := fun _ => by simp only; omega }, .inl rfl⟩)
  · exact hcall .frameAvailable { c with frameReader := .enabled }
      ⟨{ h with body := by simp }, rfl, fun f => hr f (.inr ⟨hs, hamount⟩)⟩

/-- The end of the stream completes no frame. -/
theorem frameReadDoneEof_ends (h : Inv c) :
    Ends (Goes False c) (fun _ => True) (FrameReader.readDone call 0 c) := by
  have hfail : Ends (Goes False c) (fun _ => True) (call .connectionFail c) :=
    goes_of_down (hcall .connectionFail c h)
  refine FrameReader.readDone_rule (mayCrash_true c) (fun _ _ => hcall .connectionShutdown c h)
    (fun _ _ _ => hfail) (fun hs _ _ => goes_of_down (hcall .connectionFail _ { h with body := by simp [hs] }))
    (fun _ h8 => absurd h8 (by decide)) (fun _ h8 => absurd h8 (by decide)) (fun _ _ => hfail) fun hs hsize => ?_
  exact absurd (h.body hs) (by omega)

theorem readDone_ends {callback : ReadCallback} {buffer : Bool} {amount : Nat}
    (h : pre d rejected (.readDone callback buffer amount) c) :
    Ends (post rejected (.readDone callback buffer amount) c) (fun _ => True)
      (callback.done call buffer amount c) := by
  cases amount with
  | zero =>
    cases callback with
    | negotiator => exact negotiatorReadDone_ends hcall h.1 (h.2.resolve_left (by simp)).fed
    | frameReader => exact frameReadDoneEof_ends hcall h.1
    | connection => exact readDoneWhileDraining_ends hcall h.1
  | succ amount =>
    obtain ⟨h, hsettled, hr⟩ := h
    cases callback with
    | negotiator =>
      exact Goes.after id (negotiatorReadDone_ends hcall h (hsettled.resolve_left (by simp)).fed)
    | frameReader => exact frameReadDone_ends hcall h fun f => hr f rfl
    | connection => exact Goes.after id (readDoneWhileDraining_ends hcall h)

theorem dispatch_respects : Respects d rejected (dispatch d call) := by
  intro a c h
  cases a with
  | connectionConnect lookup => exact connect_ends hcall h.1 h.2
  | connectionBegin version => exact begin_ends hcall h.1 h.2
  | connectionReject version =>
    exact Machine.reject_rule (fun _ => mayCrash_true c) fun _ =>
      rejectProtocolVersion_ends hcall h.1 h.2.1 h.2.2
  | connectionDone => exact done_ends hcall h.1 h.2
  | connectionFail => exact fail_ends hcall h
  | connectionShutdown => exact shutdown_ends hcall h
  | connectionTimeout readIdle writeIdle => exact timeout_ends hcall h.1 h.2.1 h.2.2
  | shutdownDrain => exact drain_ends hcall h
  | shutdownClose =>
    exact shutdownConnection_ends hcall (m := .completeWriteAndCloseSocket) (Inv.drainable h)
  | socketConnect lookup => exact socketConnect_ends hcall h.1 h.2.1 h.2.2
  | socketTryConnect => exact tryConnect_ends hcall h.1 h.2.1 h.2.2
  | socketDone =>
    exact Socket.done_rule (mayCrash_true c) fun _ =>
      hcall .connectionDone { c with socket := .connected, addresses := 0 } h
  | socketFail => exact socketFail_ends hcall h.1
  | socketShutdown =>
    exact Socket.shutdown_rule (fun _ => h) fun _ => connectionDone_down hcall
      (c := { c with socket := .stopped, connectWatcher := false, addresses := 0 }) h.1 h.2
  | writerEnable => exact Writer.enable_rule (mayCrash_true c) fun _ => ⟨h.1.writer (by simp), h.2, rfl⟩
  | writerWrite m => exact write_ends hcall h
  | writerContinue => exact continueWrite_ends hcall h
  | writerComplete => exact writeComplete_ends hcall h
  | writerStop => exact stop_ends hcall h.1 h.2
  | writerAbort => exact Writer.abort_rule (fun _ => h) ⟨h.1.writer (by simp), h.2⟩
  | writerFail =>
    exact Writer.fail_rule (mayCrash_true c) fun _ =>
      hcall .connectionFail _ (Inv.writer h (w := .failed) (by simp))
  | readerEnable => exact readerEnable_ends h.1 h.2
  | readerCommence required callback => exact commenceRead_ends hcall h.1 h.2
  | readerReset => exact readerReset_ends h.1 h.2
  | readerDelayed =>
    exact Reader.delayedRead_rule (fun _ => delayedReadWhileReading_ends hcall h) fun _ => h
  | readerStop => exact Reader.stop_rule h fun _ => h
  | readerFail =>
    exact Reader.fail_rule (mayCrash_true c) fun _ => hcall .connectionFail { c with reader := .failed } h
  | readDone callback buffer amount => exact readDone_ends hcall h
  | negotiatorStart version confirm reject => exact negotiatorStart_ends hcall h.1 h.2
  | negotiatorWait => exact negotiatorWait_ends hcall h.1 h.2
  | negotiatorSend version confirm => exact negotiatorSend_ends hcall h.1 h.2
  | negotiatorReset =>
    exact Negotiator.reset_rule (mayCrash_true c) (fun _ => ⟨h.1, h.2, rfl⟩) fun _ => ⟨h.1, h.2, rfl⟩
  | confirmCallback => exact confirm_ends hcall h.1 h.2
  | rejectCallback version => exact rejectCallback_ends hcall h.1
  | requestCallback version =>
    exact requestCallback_rule (fun _ => mayCrash_true c) fun _ => hcall (.connectionBegin version) c h
  | tlsConnect => exact hcall (.negotiatorStart _ .tlsVersionAccepted .tlsVersionRejected) _ h
  | tlsAccept version => trivial
  | saslConnect => exact saslConnect_ends hcall h.1 h.2
  | saslAccept version => exact saslAccept_ends hcall h.1 h.2.1 h.2.2
  | saslDone => exact saslDone_ends hcall h.1 h.2
  | tunnelConnect => exact tunnelConnect_ends hcall h.1 h.2
  | tunnelAccept version => exact tunnelAccept_ends hcall h.1 h.2.1 h.2.2
  | tunnelDone =>
    exact AmqpTunnel.done_rule (mayCrash_true c) fun _ =>
      hcall .connectionDone { c with amqpTunnel := .negotiated } h
  | amqpSendOpen => exact sendOpen_ends hcall h.1 h.2
  | amqpWaitOnOpen => exact waitOnOpen_ends hcall h.1 h.2
  | frameEnable =>
    exact FrameReader.enable_rule (fun _ => ⟨{ h.1 with body := by simp }, by simp [Fed], rfl⟩)
      fun _ => ⟨h.1, h.2, rfl⟩
  | frameRead callback => exact frameRead_ends hcall h.1 h.2
  | frameAvailable => exact frameAvailable_ends hcall h.1 h.2.1 h.2.2
  | frameDispatch f => exact frameDispatch_ends hcall h.1 h.2.1 h.2.2

theorem called_readDone {callback : ReadCallback} {buffer : Bool} (amount : Nat) (h : Inv c)
    (hsettled : callback = .frameReader ∨ Settled c)
    (hr : ∀ f, callback = .frameReader → c.CompletesFrame amount → c.available d = some f → c.Ignores f →
      rejected) :
    Ends (Goes rejected c) (fun _ => True) (call (.readDone callback buffer amount) c) := by
  cases amount with
  | zero => exact Goes.after id (hcall (.readDone callback buffer 0) _ ⟨h, hsettled⟩)
  | succ amount => exact hcall (.readDone callback buffer (amount + 1)) _ ⟨h, hsettled, hr⟩

/-- The bytes of a read have come. -/
theorem readComplete_ends {bytes : List UInt8} {inLoop : Bool} (h : Inv c) (hfed : Fed c)
    (hr : c.readCallback = some .frameReader →
      Connection.CompletesFrame { c with buffer := c.buffer ++ bytes } c.required →
      ∀ f, Connection.available d { c with buffer := c.buffer ++ bytes } = some f → c.Ignores f → rejected) :
    Ends (Goes rejected c) (fun _ => True) (Reader.readComplete call bytes inLoop c) := by
  have hafter : ∀ {c1 : Connection} {r : Outcome}, Goes rejected c c1 →
      Ends (Goes rejected c1) (fun _ => True) r → Ends (Goes rejected c) (fun _ => True) r := fun h1 hg =>
    hg.mono (fun _ h2 => ⟨h2.1, h2.2.1, h2.2.2.1, h2.2.2.2 ∘ h1.2.2.2⟩) fun _ he => he
  refine Reader.readComplete_rule (Reader.callReadCallback_rule (mayCrash_true _) fun callback hcallback => ?_)
    (fun _ c1 h1 => hafter h1 (delayedReadWhileReading_ends hcall ⟨h1.1, h1.2.1, h1.2.2.1, id⟩))
    fun _ c1 h1 => hafter h1 (hcall .readerDelayed c1 ⟨h1.1, h1.2.1, h1.2.2.1, id⟩)
  refine called_readDone hcall c.required
    (c := { c with buffer := c.buffer ++ bytes, readCallback := none, readQueued := false }) h
    (hfed.settled.imp (fun he => Option.some.inj (hcallback.symm.trans he)) id) ?_
  intro f hc hcompletes hf hi
  exact hr (hcallback.trans (congrArg some hc)) hcompletes f hf hi

end Functions

/-! ## Every call, every step, every run -/

/-- Calls of any depth. -/
theorem calls_respects (d : FrameDecoders) (depth : Nat) : Respects d rejected (calls d depth) :=
  invoke_ends (fun _ _ _ => trivial) (fun _ hcall => dispatch_respects hcall) depth

theorem acceptSocket_ends {call : Calls} (hcall : Respects d rejected call) {c : Connection}
    (h : Inv c) (hfed : Fed c) (hup : ¬ c.name.Down) :
    Ends (fun c' => Inv c' ∧ Fed c' ∧ c'.Waits) (fun _ => True) (c.acceptSocket call) :=
  acceptSocket_rule
    (enableIo_ends hcall
      (c := { Machine.transitionTo .waitingOnClientNegotiationRequest c with socket := .accepted })
      (h.moveTo hup id) (hfed.moveTo hup))
    fun c1 h1 => waits_of_goes (hcall .negotiatorWait c1 ⟨h1.1, h1.2.1⟩)

/-- What a step receives leaves the connection attended. -/
theorem handle_received {call : Calls} (hcall : Respects d False call) {c : Connection} (h : Inv c)
    (hfed : Fed c) (i : Stimulus) (hreceives : c.Receives i) (hr : ¬ c.ReceivesRejection d i) :
    Ends (fun c' => Inv c' ∧ Fed c' ∧ c'.Attended) (fun _ => True) (c.handle call i.event) := by
  have hgoes : ∀ {r : Outcome}, Ends (Goes False c) (fun _ => True) r →
      Ends (fun c' => Inv c' ∧ Fed c' ∧ c'.Attended) (fun _ => True) r := fun hg =>
    hg.mono (fun _ h' => ⟨h'.1, h'.2.1, h'.2.2.1.resolve_right id⟩) fun _ he => he
  obtain ⟨hdestroyed, hreading, hevent⟩ := hreceives
  cases he : i.event with
  | data bytes inLoop =>
    rw [he] at hevent
    rw [Connection.handle_data (Bool.eq_false_iff.2 hdestroyed) ⟨hreading, hevent⟩]
    refine hgoes (readComplete_ends hcall h hfed fun hcallback hcompletes f hf hi => hr ?_)
    rw [Connection.ReceivesRejection, he]
    exact ⟨hdestroyed, hreading, hevent, hcallback, hcompletes, f, hf, hi⟩
  | readReady result =>
    rw [he] at hevent
    cases result with
    | eof isPartial =>
      rw [Connection.handle_eof (Bool.eq_false_iff.2 hdestroyed) hreading]
      exact hgoes (readEof_ends hcall h hfed)
    | _ => exact hevent.elim
  | _ =>
    rw [he] at hevent
    exact hevent.elim

theorem handle_ends {call : Calls} (hcall : Respects d False call) {c : Connection} (h : Inv c)
    (hfed : Fed c) (hwaits : c.Waits) (i : Stimulus) (hr : ¬ c.ReceivesRejection d i) :
    Ends (fun c' => Inv c' ∧ Fed c' ∧ c'.Waits) (fun _ => True) (c.handle call i.event) := by
  refine handle_rule ⟨h, hfed, hwaits⟩
    (fun lookup _ _ => connectTo_rule (fun _ => hcall (.connectionConnect lookup) c ⟨h, hfed⟩)
      fun _ => waits_of_goes (c := c) (goes_of_down (hcall .connectionFail c h)))
    (fun _ hname _ => acceptSocket_ends hcall h hfed (up_of_name hname id))
    (fun _ => waits_of_goes (hcall .connectionShutdown c h))
    (fun isConnected _ _ => Socket.connectEvent_rule
      (waits_of_goes (hcall .socketDone { c with connectWatcher := false } ⟨h, hfed⟩))
      (connectionAttemptFailed_ends hcall (c := { c with connectWatcher := false }) h hfed hwaits))
    (fun bytes inLoop he hdestroyed hreading hlength => ?_)
    (fun isPartial _ _ => waits_of_goes (readEof_ends hcall h hfed))
    (fun _ _ => waits_of_goes (c := c) (goes_of_down (hcall .readerFail c h)))
    (fun _ _ => ?_)
    fun readIdle writeIdle _ htimer =>
      waits_of_goes (hcall (.connectionTimeout readIdle writeIdle) c ⟨h, hfed, htimer⟩)
  · have hreceives : c.Receives i := ⟨by simp [hdestroyed], hreading, by rw [he]; exact hlength⟩
    rw [← Connection.handle_data hdestroyed ⟨hreading, hlength⟩, ← he]
    exact (handle_received hcall h hfed i hreceives hr).mono
      (fun _ h' => ⟨h'.1, h'.2.1, .inl h'.2.2⟩) fun _ he => he
  · refine (hcall .writerContinue c h).mono ?_ fun _ he => he
    rintro c1 ⟨h1, hs⟩
    refine ⟨h1, hfed.of_write hs, ?_⟩
    rcases hwaits with hatt | hname
    · exact .inl (attended_of_write hatt hs)
    · rcases hs with hdown | hs
      · exact .inl (.inl hdown)
      · exact .inr (by rw [hs.1]; exact hname)

theorem create_inv (protocols : Protocols) (maxFrameSize idleTimeOut : Nat) (plugins : List SaslPlugin)
    (accepted : Bool) :
    Inv (Connection.create protocols maxFrameSize idleTimeOut plugins accepted) ∧
      Fed (Connection.create protocols maxFrameSize idleTimeOut plugins accepted) ∧
      (Connection.create protocols maxFrameSize idleTimeOut plugins accepted).Waits := by
  refine ⟨⟨?_, ?_, ?_, ?_⟩, ?_, .inr (.inl rfl)⟩
  all_goals simp [Connection.create, Fed]

end Progress

/-- **No silent hang**: in every run of a client or server in which no SASL outcome comes that does not
accept while one is waited for, the connection is at every state attended to, or not connected yet;
and whatever header, frame or end of the stream it receives next, it is attended to when that has been
handled. (Kept memory.) -/
theorem no_silent_hang (d : FrameDecoders) (depth : Nat) (protocols : Protocols)
    (maxFrameSize idleTimeOut : Nat) (plugins : List SaslPlugin) (accepted : Bool) (is : List Stimulus)
    (hmeets : RunMeets (Connection.step d depth) (fun c i => ¬ c.ReceivesRejection d i)
      (Connection.create protocols maxFrameSize idleTimeOut plugins accepted) is) :
    Ends
      (fun c => c.Waits ∧ ∀ i, c.Receives i → ¬ c.ReceivesRejection d i →
        Ends Connection.Attended (fun _ => True) (c.step d depth i))
      (fun _ => True)
      (run (Connection.step d depth)
        (Connection.create protocols maxFrameSize idleTimeOut plugins accepted) is) := by
  have hrun := run_ends (p := fun c => Progress.Inv c ∧ Progress.Fed c ∧ c.Waits) (q := fun _ => True)
    (fun c i h hi => Progress.handle_ends (Progress.calls_respects d depth) (c := c.arm i) h.1 h.2.1
      h.2.2 i hi) is _ (Progress.create_inv protocols maxFrameSize idleTimeOut plugins accepted) hmeets
  refine hrun.mono (fun c h => ⟨h.2.2, fun i hreceives hr => ?_⟩) fun _ he => he
  exact (Progress.handle_received (Progress.calls_respects d depth) (c := c.arm i) h.1 h.2.1 i hreceives
    hr).mono (fun _ h' => h'.2.2) fun _ he => he

/-- A client without SASL, whose peer answers with the AMQP header and then closes. -/
theorem no_silent_hang_closed :
    RunMeets (Connection.step ⟨fun _ => none, fun _ => none⟩ 40)
      (fun c i => ¬ c.ReceivesRejection ⟨fun _ => none, fun _ => none⟩ i)
      (Connection.create ⟨false, false, true⟩ 4096 0 [] false)
      [{ event := .connect (some 1) }, { event := .connectReady true },
        { event := .data (encodeVersion amqpPreferredVersion) false },
        { event := .readReady (.eof false) }] ∧
    Ends
      (fun c => c.Waits ∧ ∀ i, c.Receives i → ¬ c.ReceivesRejection ⟨fun _ => none, fun _ => none⟩ i →
        Ends Connection.Attended (fun _ => True) (c.step ⟨fun _ => none, fun _ => none⟩ 40 i))
      (fun _ => True)
      (run (Connection.step ⟨fun _ => none, fun _ => none⟩ 40)
        (Connection.create ⟨false, false, true⟩ 4096 0 [] false)
        [{ event := .connect (some 1) }, { event := .connectReady true },
          { event := .data (encodeVersion amqpPreferredVersion) false },
          { event := .readReady (.eof false) }]) :=
  ⟨by decide +kernel, no_silent_hang _ 40 _ 4096 0 [] false _ (by decide +kernel)⟩

/-! ## A client that is rejected -/

/-- The server does not accept the credentials: no read is outstanding, no timer runs, and the
connection is still in `connecting_sasl`. -/
theorem rejected_client_hangs :
    Ends (fun c => ¬ c.Attended ∧ c.name = .connectingSasl) (fun _ => False)
      (run (Connection.step plainDecoders 40)
        (Connection.create ⟨false, true, true⟩ 4096 0 [plainPlugin] false)
        ([{ event := .connect (some 1) }, { event := .connectReady true },
          { event := .data (encodeVersion amqpSaslPreferredVersion) false }] ++
          readsOf plainMechanisms [] ++ readsOf (outcomeBytes 1) [])) := by
  decide +kernel

end Amqp
