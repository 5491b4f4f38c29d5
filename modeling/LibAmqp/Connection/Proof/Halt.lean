import LibAmqp.Connection.Halt
import LibAmqp.Connection.Proof.MachineRules

/-!
# A connection is halted once

`Kept` says what is true of a connection that is over: its reader, writer and socket are stopped, nothing
that is called in these states looks at a pointer that leads on, and it was halted once. A connection that
is not over was not halted. Every function keeps that but those of `StaysOver`, given that it is not told
to fail or to close a connection that is over.

* `halts_once`: a connection is halted once at most, and stays over.
-/

namespace Amqp

open Lib

namespace Halt

/-- The states that are left before the call returns that entered them. -/
def Passing (name : ConnectionState) : Prop := name = .stopping ∨ name = .timeout

/-- The reader does not wait for bytes. -/
def Quiet (r : ReaderState) : Prop := r ≠ .enabled ∧ r ≠ .reading

/-- The writer does not take a message. -/
def Shut (w : WriterState) : Prop := w ≠ .initialized ∧ w ≠ .enabled ∧ w ≠ .writing

/-- No system call fails that is made from the loop of `delayed_read_while_reading`. -/
def NoFailure (writes : List WriteResult) (reads : List ReadResult) : Prop :=
  .error ∉ writes ∧ .error ∉ reads ∧ .eof true ∉ reads

/-- What goes with the state of a connection; `loop` is whether the step is made from the loop of
`delayed_read_while_reading`, and `halted` is how often it was halted. -/
structure Kept (loop : Bool) (halted : Nat) (name : ConnectionState) (shutdown : ShutdownAction)
    (timeout : TimeoutAction) (socket : SocketState) (watcher : Bool) (reader : ReaderState)
    (writer : WriterState) (callback : Option ReadCallback) (queued : Bool) (writes : List WriteResult)
    (reads : List ReadResult) : Prop where
  count : halted = if name.Over then 1 else 0
  closes : name.Over → shutdown ≠ .default
  expires : name.Over → timeout ≠ .whileStoppingOutput ∧ timeout ≠ .whileDrainingInput
  closed : name.Over → socket = .stopped ∧ watcher = false
  quiet : name.Over → Quiet reader
  shut : name.Down → Shut writer
  drains : callback = some .connection → name.Down
  noFailure : loop = true → NoFailure writes reads
  unqueued : loop = true → name.Over → queued = false
  resolved : socket ≠ .resolving

variable {loop : Bool}

def Inv (loop : Bool) (c : Connection) : Prop :=
  Kept loop (halts c.trace) c.name c.shutdown c.timeout c.socket c.connectWatcher c.reader c.writer
    c.readCallback c.readQueued c.writes c.reads

def Good (loop : Bool) (c : Connection) : Prop := Inv loop c ∧ ¬ Passing c.name

/-- No read is queued, as far as it matters. -/
def Free (loop : Bool) (c : Connection) : Prop := loop = true → c.readQueued = false

/-- A read is queued only where the input is drained anyway. -/
def Freed (loop : Bool) (c : Connection) : Prop :=
  loop = true → c.readQueued = true → c.name = .stoppingOutput ∧
    c.handshake.mode = some .completeWriteDrainInputAndCloseSocket

/-- A connection that may be failed or closed. -/
def Live (loop : Bool) (c : Connection) : Prop := Good loop c ∧ Free loop c ∧ ¬ c.name.Over

/-- A callback that does nothing to a connection that is over, when it is told of the end of the stream. -/
def Harmless (c : Connection) (callback : ReadCallback) : Prop :=
  callback ≠ .connection ∧ (callback = .frameReader → c.frameReader = .readingFrameHeader)

/-- A write fails for a connection with plugins only. -/
def HasPlugin (c : Connection) : Prop := .error ∈ c.writes → c.plugins ≠ []

/-- What every function keeps. -/
def Keeps (loop : Bool) (c c' : Connection) : Prop := Good loop c' ∧ c'.plugins = c.plugins

/-- A function that changes nothing of what others look at. -/
def Same (c c' : Connection) : Prop := c'.name = c.name ∧ c'.readQueued = c.readQueued

/-- The process ends, but not with a connection that was halted twice. -/
def Once (e : Crash) : Prop := halts e.trace ≤ 1

def pre (loop : Bool) : Action → Connection → Prop
  | .connectionDone, c => Inv loop c ∧ Freed loop c ∧
      (Passing c.name → c.socket = .stopped ∧ c.connectWatcher = false ∧ Quiet c.reader)
  | .writerAbort, c => Inv loop { c with writer := .stopped } ∧ Passing c.name ∧ Free loop c
  | .writerStop, c => Inv loop { c with writer := .stopped } ∧ c.name = .stoppingOutput ∧ Freed loop c
  | .readerStop, c => Inv loop c ∧ Passing c.name ∧ Free loop c
  | .socketShutdown, c => Inv loop c ∧ Passing c.name ∧ Free loop c ∧ Quiet c.reader
  | .socketFail, c => Live loop { c with socket := .failed }
  | .connectionFail, c | .connectionTimeout _ _, c | .shutdownClose, c | .socketConnect _, c
  | .socketTryConnect, c | .socketDone, c | .writerContinue, c | .rejectCallback _, c
  | .frameAvailable, c | .frameDispatch _, c => Live loop c
  | .writerComplete, c => Good loop c ∧ (c.writer = .stopping → Free loop c)
  | .writerFail, c | .readerFail, c => Good loop c ∧ ¬ c.name.Over ∧ loop = false
  | .readerEnable, c | .readerReset, c => Good loop c ∧ ¬ c.name.Over
  | .readerCommence _ callback, c => Good loop c ∧ (callback = .connection → c.name.Down) ∧
      (c.name.Over → Harmless c callback)
  | .readDone callback _ amount, c => Good loop c ∧ Free loop c ∧
      (callback = .connection → c.name.Down) ∧ (c.name.Over → amount = 0 ∧ Harmless c callback) ∧
      (amount ≠ 0 → callback = .negotiator → c.AwaitsHeader → HasPlugin c)
  | .connectionBegin _, c | .requestCallback _, c =>
      Good loop c ∧ Free loop c ∧ (c.AwaitsHeader → HasPlugin c)
  | .connectionReject _, c | .saslAccept _, c | .tunnelAccept _, c =>
      Good loop c ∧ Free loop c ∧ HasPlugin c ∧ ¬ c.name.Down
  | .negotiatorSend _ _, c => Good loop c ∧ Free loop c ∧ HasPlugin c
  | .confirmCallback, c | .saslDone, c => Good loop c ∧ Free loop c ∧ (c.name.Over → c.plugins ≠ [])
  | .connectionConnect _, c | .connectionShutdown, c | .negotiatorStart _ _ _, c | .tlsConnect, c
  | .saslConnect, c | .tunnelConnect, c | .tunnelDone, c | .amqpSendOpen, c | .amqpWaitOnOpen, c =>
      Good loop c ∧ Free loop c
  | _, c => Good loop c

def post (loop : Bool) : Action → Connection → Connection → Prop
  | .writerAbort, c, c' => Inv loop c' ∧ Passing c'.name ∧ Free loop c' ∧ c'.plugins = c.plugins
  | .readerStop, c, c' =>
      Inv loop c' ∧ Passing c'.name ∧ Free loop c' ∧ Quiet c'.reader ∧ c'.plugins = c.plugins
  | .readerEnable, c, c' | .writerEnable, c, c' | .readerReset, c, c' | .negotiatorReset, c, c'
  | .frameEnable, c, c' => Keeps loop c c' ∧ Same c c'
  | .writerComplete, c, c' => Keeps loop c c' ∧ (c.writer = .writing → Same c c')
  | .writerWrite _, c, c' => Keeps loop c c' ∧ (Free loop c → Free loop c') ∧
      (c'.name.Over → .error ∈ c.writes)
  | _, c, c' => Keeps loop c c'

/-- Calls that do what they should. -/
def Respects (loop : Bool) (call : Calls) : Prop :=
  ∀ a c, pre loop a c → Ends (post loop a c) Once (call a c)

/-! ## What keeps the invariant -/

theorem halts_say {t : List Mark} {m : Mark} (hm : m ≠ .halted) : halts (t ++ [m]) = halts t := by
  rw [halts, List.count_append, List.count_singleton, if_neg (by simpa using hm)]
  rfl

theorem down_of_over {n : ConnectionState} (h : n.Over) : n.Down := by
  cases n <;> first | exact trivial | exact h.elim

theorem not_over_of_passing {n : ConnectionState} (h : Passing n) : ¬ n.Over := by
  rcases h with rfl | rfl <;> exact id

theorem down_of_passing {n : ConnectionState} (h : Passing n) : n.Down := by
  rcases h with rfl | rfl <;> exact trivial

theorem not_passing_of_up {n : ConnectionState} (h : ¬ n.Down) : ¬ Passing n := fun hp => h (down_of_passing hp)

theorem not_over_of_up {n : ConnectionState} (h : ¬ n.Down) : ¬ n.Over := fun ho => h (down_of_over ho)

theorem not_over {n : ConnectionState} (hstopped : n ≠ .stopped) (hfailed : n ≠ .failed) : ¬ n.Over := by
  cases n <;> simp_all [ConnectionState.Over]

/-- A result that is not the default one is in the list. -/
theorem mem_of_headD {α : Type} {l : List α} {x y : α} (hne : y ≠ x) (h : l.headD x = y) : y ∈ l := by
  cases l with
  | nil => exact absurd h.symm hne
  | cons z zs => exact List.mem_cons.2 (.inl h.symm)

section
variable {c : Connection}

theorem Inv.once (h : Inv loop c) : halts c.trace ≤ 1 := by
  rw [h.count]
  split <;> omega

theorem Inv.mayCrash (h : Inv loop c) : MayCrash Once c := fun _ _ => h.once

theorem Inv.halts_eq_zero (h : Inv loop c) (hover : ¬ c.name.Over) : halts c.trace = 0 := by
  rw [h.count, if_neg hover]

theorem Good.refl (h : Good loop c) : Keeps loop c c := ⟨h, rfl⟩

theorem free_of_loop (hloop : loop = false) : Free loop c := fun hl => by
  rw [hloop] at hl
  cases hl

theorem Free.freed (h : Free loop c) : Freed loop c := fun hl hq => by
  rw [h hl] at hq
  cases hq

/-- Something else happens. -/
theorem Inv.say {m : Mark} (h : Inv loop c) (hm : m ≠ .halted) :
    Inv loop { c with trace := c.trace ++ [m] } := by
  unfold Inv
  rw [halts_say hm]
  exact h

theorem Good.say {m : Mark} (h : Good loop c) (hm : m ≠ .halted) :
    Good loop { c with trace := c.trace ++ [m] } := ⟨h.1.say hm, h.2⟩

theorem Live.say {m : Mark} (h : Live loop c) (hm : m ≠ .halted) :
    Live loop { c with trace := c.trace ++ [m] } := ⟨h.1.say hm, h.2⟩

/-- A connection that is not over moves on. -/
theorem Inv.moveTo (h : Inv loop c) (hover : ¬ c.name.Over) {n : ConnectionState} (hn : ¬ n.Over)
    (hwriter : n.Down → Shut c.writer) (hcallback : c.readCallback = some .connection → n.Down) :
    Inv loop (Machine.transitionTo n c) where
  count := (h.halts_eq_zero hover).trans (if_neg hn).symm
  closes := fun ho => absurd ho hn
  expires := fun ho => absurd ho hn
  closed := fun ho => absurd ho hn
  quiet := fun ho => absurd ho hn
  shut := hwriter
  drains := hcallback
  noFailure := h.noFailure
  unqueued := fun _ ho => absurd ho hn
  resolved := h.resolved

/-- A connection on its way up does. -/
theorem Inv.moveUp (h : Inv loop c) (hup : ¬ c.name.Down) {n : ConnectionState} (hn : ¬ n.Down) :
    Good loop (Machine.transitionTo n c) :=
  ⟨h.moveTo (not_over_of_up hup) (not_over_of_up hn) (fun hd => absurd hd hn)
    fun hc => absurd (h.drains hc) hup, not_passing_of_up hn⟩

/-- A connection on its way down does. -/
theorem Inv.moveDown (h : Inv loop c) (hdown : c.name.Down) (hover : ¬ c.name.Over) {n : ConnectionState}
    (hn : n.Down) (hn' : ¬ n.Over) : Inv loop (Machine.transitionTo n c) :=
  h.moveTo hover hn' (fun _ => h.shut hdown) fun _ => hn

/-- One that starts to, whose writer is about to stop. -/
theorem Inv.turnDown (h : Inv loop c) (hover : ¬ c.name.Over) {n : ConnectionState} (hn : n.Down)
    (hn' : ¬ n.Over) : Inv loop { Machine.transitionTo n c with writer := .stopped } where
  count := (h.halts_eq_zero hover).trans (if_neg hn').symm
  closes := fun ho => absurd ho hn'
  expires := fun ho => absurd ho hn'
  closed := fun ho => absurd ho hn'
  quiet := fun ho => absurd ho hn'
  shut := fun _ => ⟨by simp, by simp, by simp⟩
  drains := fun _ => hn
  noFailure := h.noFailure
  unqueued := fun _ ho => absurd ho hn'
  resolved := h.resolved

/-- A writer that takes no message is as good as one that is stopped. -/
theorem Inv.ofStopped (h : Inv loop { c with writer := .stopped }) (hw : Shut c.writer) : Inv loop c :=
  { h with shut := fun _ => hw }

/-- A pointer of the AMQP machine is in place. -/
theorem Good.opens (h : Good loop c) {amqp : AmqpState} {shutdown : ShutdownAction} {t : TimeoutAction}
    {timer : Bool} (hs : shutdown ≠ .default)
    (ht : t ≠ .whileStoppingOutput ∧ t ≠ .whileDrainingInput) :
    Good loop { c with amqp := amqp, shutdown := shutdown, timeout := t, timer := timer } :=
  ⟨{ h.1 with closes := fun _ => hs, expires := fun _ => ht }, h.2⟩

/-- The reader and the socket of a connection that is not over are in any state but one. -/
theorem Inv.live (h : Inv loop c) (hover : ¬ c.name.Over) (r : ReaderState) {s : SocketState}
    (hs : s ≠ .resolving) (watcher : Bool) :
    Inv loop { c with reader := r, socket := s, connectWatcher := watcher } :=
  { h with
    closed := fun ho => absurd ho hover
    quiet := fun ho => absurd ho hover
    resolved := hs }

/-- The end. -/
theorem Inv.halt (h : Inv loop c) (hpassing : Passing c.name) (hsocket : c.socket = .stopped)
    (hwatcher : c.connectWatcher = false) (hreader : Quiet c.reader) (hfree : Free loop c)
    {n : ConnectionState} (hn : n = .stopped ∨ n = .failed) :
    Keeps loop c (Machine.connectionHalt (Machine.transitionTo n c)) := by
  have hzero := h.halts_eq_zero (not_over_of_passing hpassing)
  have hone : halts (c.trace ++ [.halted]) = 1 := by
    rw [halts, List.count_append]
    exact congrArg (· + 1) hzero
  have hwriter := h.shut (down_of_passing hpassing)
  rcases hn with rfl | rfl
  all_goals
    refine ⟨⟨?_, fun hp => by rcases hp with hp | hp <;> cases hp⟩, rfl⟩
    exact ⟨hone, fun _ => by simp [Machine.connectionHalt, Machine.transitionTo],
      fun _ => by simp [Machine.connectionHalt, Machine.transitionTo], fun _ => ⟨hsocket, hwatcher⟩,
      fun _ => hreader, fun _ => hwriter, fun _ => trivial, h.noFailure, fun hl _ => hfree hl, h.resolved⟩

end

section Functions

variable {call : Calls} (hcall : Respects loop call) {c : Connection}

include hcall

/-! Calls that another one follows. -/

omit hcall in
/-- A call that follows another. -/
theorem keeps_after {x : Connection} {r : Outcome} (hplugins : x.plugins = c.plugins)
    (h : Ends (Keeps loop x) Once r) : Ends (Keeps loop c) Once r :=
  h.mono (fun _ h' => ⟨h'.1, h'.2.trans hplugins⟩) fun _ he => he

omit hcall in
theorem Keeps.released {c1 : Connection} (h : Keeps loop c c1) : Keeps loop c c1.frameCleanup :=
  ⟨h.1.say (by simp), h.2⟩

theorem write_keeps {m : Message} {x : Connection} (h : Keeps loop c x) :
    Ends (Keeps loop c) Once (call (.writerWrite m) x) :=
  keeps_after h.2 ((hcall (.writerWrite m) x h.1).mono (fun _ h' => h'.1) fun _ he => he)

theorem frameEnable_keeps {x : Connection} (h : Keeps loop c x) :
    Ends (Keeps loop c) Once (call .frameEnable x) :=
  keeps_after h.2 ((hcall .frameEnable x h.1).mono (fun _ h' => h'.1) fun _ he => he)

theorem frameRead_keeps {callback : FrameCallback} {x : Connection} (h : Keeps loop c x) :
    Ends (Keeps loop c) Once (call (.frameRead callback) x) :=
  keeps_after h.2 (hcall (.frameRead callback) x h.1)

/-- The negotiator begins anew; no read is queued by that. -/
theorem negotiatorReset_keeps (h : Good loop c) (hfree : Free loop c) :
    Ends (fun c1 => Keeps loop c c1 ∧ Free loop c1) Once (call .negotiatorReset c) :=
  (hcall .negotiatorReset c h).mono (fun _ h1 => ⟨h1.1, fun hl => h1.2.2.trans (hfree hl)⟩) fun _ he => he

/-! The writer. -/

/-- A write that fails ends in a connection that is over, perhaps. -/
theorem continueWriteOperation_ends (h : Good loop c) (hover : ¬ c.name.Over)
    (hstopping : c.writer = .stopping → Free loop c) :
    Ends (fun c' => Keeps loop c c' ∧ (c.writer = .writing → (Free loop c → Free loop c') ∧
      (c'.name.Over → .error ∈ c.writes))) Once (Writer.continueWriteOperation call c) := by
  have hrest : NoFailure c.writes c.reads → NoFailure c.writes.tail c.reads := fun hno =>
    ⟨fun hm => hno.1 (List.mem_of_mem_tail hm), hno.2⟩
  have hgood : Good loop { c with writes := c.writes.tail } :=
    ⟨{ h.1 with noFailure := fun hl => hrest (h.1.noFailure hl) }, h.2⟩
  refine Writer.continueWriteOperation_rule ?_ ⟨⟨hgood, rfl⟩, fun _ => ⟨id, fun ho => absurd ho hover⟩⟩
    fun hhead => ?_
  · refine (hcall .writerComplete { c with writes := c.writes.tail } ⟨hgood, hstopping⟩).mono ?_ fun _ he => he
    intro c' h'
    refine ⟨h'.1, fun hw => ⟨fun hfree hl => (h'.2 hw).2.trans (hfree hl), fun ho => ?_⟩⟩
    rw [(h'.2 hw).1] at ho
    exact absurd ho hover
  · have hmem := mem_of_headD (by simp) hhead
    have hloop : loop = false := Bool.eq_false_iff.2 fun hl => (h.1.noFailure hl).1 hmem
    refine (hcall .writerFail { c with writes := c.writes.tail } ⟨hgood, hover, hloop⟩).mono ?_ fun _ he => he
    exact fun c' h' => ⟨h', fun _ => ⟨fun _ => free_of_loop hloop, fun _ => hmem⟩⟩

theorem write_ends {m : Message} (h : Good loop c) :
    Ends (post loop (.writerWrite m) c) Once (Writer.write call m c) := by
  refine Writer.write_rule (fun _ => h.1.mayCrash) fun hw => ?_
  have hup : ¬ c.name.Down := fun hd => (h.1.shut hd).2.1 hw
  have hgood : Good loop { c with writer := .writing, trace := c.trace ++ [.sent m] } :=
    ⟨{ (h.say (m := .sent m) (by simp)).1 with shut := fun hd => absurd hd hup }, h.2⟩
  refine (continueWriteOperation_ends hcall hgood (not_over_of_up hup) fun hs => ?_).mono ?_ fun _ he => he
  · cases hs
  · intro c' h'
    obtain ⟨hfree, herror⟩ := h'.2 rfl
    exact ⟨h'.1, hfree, herror⟩

theorem continueWrite_ends (h : Live loop c) : Ends (Keeps loop c) Once (Writer.continueWrite call c) := by
  obtain ⟨hgood, hfree, hover⟩ := h
  exact Writer.continueWrite_rule hgood.1.mayCrash (fun _ => hgood.refl) fun _ =>
    (continueWriteOperation_ends hcall hgood hover fun _ => hfree).mono (fun _ h' => h'.1) fun _ he => he

theorem writerStop_ends (h : Inv loop { c with writer := .stopped }) (hpassing : ¬ Passing c.name)
    (hfreed : Freed loop c) : Ends (Keeps loop c) Once (Writer.writerStop call c) :=
  hcall .connectionDone { Writer.writerCleanup c with stoppedCallback := false }
    ⟨h, hfreed, fun hp => absurd hp hpassing⟩

theorem writeComplete_ends (h : Good loop c) (hstopping : c.writer = .stopping → Free loop c) :
    Ends (post loop .writerComplete c) Once (Writer.writeComplete call c) := by
  refine Writer.writeComplete_rule h.1.mayCrash (fun hw => ?_) fun hw => ?_
  · have hup : ¬ c.name.Down := fun hd => (h.1.shut hd).2.2 hw
    exact ⟨⟨⟨{ h.1 with shut := fun hd => absurd hd hup }, h.2⟩, rfl⟩, fun _ => ⟨rfl, rfl⟩⟩
  · have hinv : Inv loop { c with writer := .stopped } :=
      { h.1 with shut := fun _ => ⟨by simp, by simp, by simp⟩ }
    refine (writerStop_ends hcall hinv h.2 (hstopping hw).freed).mono ?_ fun _ he => he
    intro c' h'
    refine ⟨h', fun hwriting => ?_⟩
    rw [hw] at hwriting
    cases hwriting

theorem stop_ends (h : Inv loop { c with writer := .stopped }) (hname : c.name = .stoppingOutput)
    (hfreed : Freed loop c) : Ends (Keeps loop c) Once (Writer.stop call c) := by
  have hpassing : ¬ Passing c.name := by simp [hname, Passing]
  refine Writer.stop_rule (fun _ => writerStop_ends hcall h hpassing hfreed)
    (fun _ => ⟨⟨{ h with shut := fun _ => ⟨by simp, by simp, by simp⟩ }, hpassing⟩, rfl⟩) fun hw => ?_
  have hshut : Shut c.writer := by rcases hw with hw | hw | hw <;> simp [hw, Shut]
  exact hcall .connectionDone c ⟨h.ofStopped hshut, hfreed, fun hp => absurd hp hpassing⟩

/-! The reader. -/

theorem callReadCallback_ends {amount : Nat} (h : Good loop c)
    (hover : c.name.Over → amount = 0 ∧ ∀ callback, c.readCallback = some callback → Harmless c callback)
    (hheader : amount ≠ 0 → c.AwaitsHeader → HasPlugin c) :
    Ends (Keeps loop c) Once (Reader.callReadCallback call amount c) := by
  refine Reader.callReadCallback_rule h.1.mayCrash fun callback hcallback => ?_
  have hgood : Good loop { c with readCallback := none, readQueued := false } :=
    ⟨{ h.1 with drains := (fun hd => by cases hd), unqueued := fun _ _ => rfl }, h.2⟩
  refine hcall (.readDone callback _ amount) { c with readCallback := none, readQueued := false }
    ⟨hgood, fun _ => rfl, fun hc => h.1.drains (hc ▸ hcallback), fun ho => ?_, fun hamount _ => hheader hamount⟩
  exact ⟨(hover ho).1, (hover ho).2 callback hcallback⟩

omit hcall in
/-- The reader of a connection that is not over is in any state. -/
theorem Good.reader (h : Good loop c) (hover : ¬ c.name.Over) (r : ReaderState) :
    Good loop { c with reader := r } := ⟨{ h.1 with quiet := fun ho => absurd ho hover }, h.2⟩

theorem readEof_ends {isPartial : Bool} (h : Good loop c) (hover : ¬ c.name.Over)
    (hfree : isPartial = true → Free loop c) : Ends (Keeps loop c) Once (Reader.readEof call isPartial c) :=
  Reader.readEof_rule
    (fun hcut => hcall .connectionFail { c with reader := .failed } ⟨h.reader hover _, hfree hcut, hover⟩)
    (callReadCallback_ends hcall (c := { c with reader := .eof }) (h.reader hover _)
      (fun ho => absurd ho hover) fun hamount => absurd rfl hamount)

theorem readWhatIsBuffered_ends (h : Good loop c) (hover : ¬ c.name.Over) :
    Ends (Keeps loop c) Once (Reader.readWhatIsBuffered call c) := by
  have hgood : Good loop { c with reads := c.reads.tail } := by
    refine ⟨{ h.1 with noFailure := fun hl => ?_ }, h.2⟩
    obtain ⟨hwrites, herror, heof⟩ := h.1.noFailure hl
    exact ⟨hwrites, fun hm => herror (List.mem_of_mem_tail hm), fun hm => heof (List.mem_of_mem_tail hm)⟩
  refine Reader.readWhatIsBuffered_rule h.1.mayCrash ⟨hgood, rfl⟩ (fun isPartial hhead => ?_) fun hhead => ?_
  · refine readEof_ends hcall (c := { c with reads := c.reads.tail }) hgood hover fun hcut hl => ?_
    subst hcut
    exact absurd (mem_of_headD (by simp) hhead) (h.1.noFailure hl).2.2
  · have hloop : loop = false := Bool.eq_false_iff.2 fun hl =>
      (h.1.noFailure hl).2.1 (mem_of_headD (by simp) hhead)
    exact hcall .readerFail { c with reads := c.reads.tail } ⟨hgood, hover, hloop⟩

theorem commenceRead_ends {required : Nat} {callback : ReadCallback} (h : Good loop c)
    (hdown : callback = .connection → c.name.Down) (hharmless : c.name.Over → Harmless c callback) :
    Ends (Keeps loop c) Once (Reader.commenceRead call required callback c) := by
  have hdrains : some callback = some .connection → c.name.Down := fun hc => hdown (Option.some.inj hc)
  have hqueue : ¬ c.name.Over → Good loop (Reader.queueReadOperation required callback
      { c with reader := .reading }) := fun hover =>
    ⟨{ h.1 with
      quiet := fun ho => absurd ho hover
      drains := hdrains
      unqueued := fun _ ho => absurd ho hover }, h.2⟩
  refine Reader.commenceRead_rule h.1.mayCrash (fun hreader => ?_) (fun hreader _ _ => ?_) fun _ => ?_
  · have hover : ¬ c.name.Over := fun ho => (h.1.quiet ho).1 hreader
    exact readWhatIsBuffered_ends hcall
      (c := Reader.queueReadOperation required callback { c with reader := .reading }) (hqueue hover) hover
  · have hover : ¬ c.name.Over := fun ho => (h.1.quiet ho).2 hreader
    exact ⟨⟨{ (hqueue hover).1 with quiet := fun ho => absurd ho hover }, h.2⟩, rfl⟩
  · refine callReadCallback_ends hcall (c := { c with reader := .eofAlerted, readCallback := some callback })
      ⟨{ h.1 with quiet := (fun _ => ⟨by simp, by simp⟩), drains := hdrains }, h.2⟩ (fun ho => ⟨rfl, ?_⟩)
      fun hamount => absurd rfl hamount
    intro callback' hc
    obtain rfl : callback = callback' := Option.some.inj hc
    exact hharmless ho

theorem delayedReadWhileReading_ends (h : Good loop c) (hover : ¬ c.name.Over) :
    Ends (Keeps loop c) Once (Reader.delayedReadWhileReading call c) :=
  Reader.delayedReadWhileReading_rule
    (fun _ => readWhatIsBuffered_ends hcall (c := { c with reader := .reading }) (h.reader hover _) hover)
    fun _ => ⟨h.reader hover _, rfl⟩

omit hcall in
theorem readerReset_ends (h : Good loop c) (hover : ¬ c.name.Over) :
    Ends (post loop .readerReset c) Once (Reader.reset c) :=
  Reader.reset_rule (fun _ => ⟨⟨h.reader hover _, rfl⟩, rfl, rfl⟩)
    (fun _ => ⟨⟨h.reader hover _, rfl⟩, rfl, rfl⟩) fun _ _ _ => ⟨h.refl, rfl, rfl⟩

omit hcall in
theorem readerStop_ends (h : Inv loop c) (hpassing : Passing c.name) (hfree : Free loop c) :
    Ends (post loop .readerStop c) Once (Reader.stop c) := by
  refine Reader.stop_rule
    ⟨{ h with quiet := fun _ => ⟨by simp, by simp⟩ }, hpassing, hfree, ⟨by simp, by simp⟩, rfl⟩ fun hr => ?_
  exact ⟨h, hpassing, hfree, by rcases hr with hr | hr | hr | hr <;> simp [hr, Quiet], rfl⟩

/-! The socket. -/

omit hcall in
/-- The socket of a connection that may be failed is in any state but one. -/
theorem Live.socket (h : Live loop c) {s : SocketState} (hs : s ≠ .resolving) (watcher : Bool) :
    Live loop { c with socket := s, connectWatcher := watcher } :=
  ⟨⟨h.1.1.live h.2.2 c.reader hs watcher, h.1.2⟩, h.2⟩

omit hcall in
/-- It may be done, too. -/
theorem Live.done (h : Live loop c) : pre loop .connectionDone c :=
  ⟨h.1.1, h.2.1.freed, fun hp => absurd hp h.1.2⟩

theorem connectionAttemptFailed_ends (h : Live loop c) :
    Ends (Keeps loop c) Once (Socket.connectionAttemptFailed call c) :=
  Socket.connectionAttemptFailed_rule (fun _ => hcall .socketTryConnect c h)
    (hcall .socketFail c (h.socket (by simp) _))

theorem tryConnect_ends (h : Live loop c) : Ends (Keeps loop c) Once (Socket.tryConnect call c) :=
  Socket.tryConnect_rule h.1.1.mayCrash
    (fun _ _ => connectionAttemptFailed_ends hcall
      (c := { c with addresses := c.addresses - 1, connects := c.connects.tail }) h)
    (fun _ => hcall .socketDone { c with addresses := c.addresses - 1, connects := c.connects.tail } h)
    fun _ => ⟨(h.socket (s := c.socket) h.1.1.resolved true).1, rfl⟩

theorem socketConnect_ends {lookup : Option Nat} (h : Live loop c) :
    Ends (Keeps loop c) Once (Socket.connect call lookup c) :=
  Socket.connect_rule h.1.1.mayCrash
    (fun _ _ => hcall .socketFail { c with socket := .resolving, hostname := true } (h.socket (by simp) _))
    fun _ n _ => hcall .socketTryConnect { c with socket := .connecting, hostname := true, addresses := n }
      (h.socket (by simp) _)

theorem socketShutdown_ends (h : Inv loop c) (hpassing : Passing c.name) (hfree : Free loop c)
    (hquiet : Quiet c.reader) : Ends (Keeps loop c) Once (Socket.shutdown call c) :=
  Socket.shutdown_rule (fun hs => absurd hs h.resolved) fun _ => hcall .connectionDone
    { c with socket := .stopped, connectWatcher := false, addresses := 0 }
    ⟨h.live (not_over_of_passing hpassing) c.reader (by simp) false, hfree.freed, fun _ => ⟨rfl, rfl, hquiet⟩⟩

/-! The shutdown of a connection. -/

/-- What is left to do in a state that does not last. -/
theorem stopActivity_ends (h : Inv loop { c with writer := .stopped }) (hpassing : Passing c.name)
    (hfree : Free loop c) : Ends (Keeps loop c) Once (Machine.stopActivity call c) := by
  refine Machine.stopActivity_rule (s := fun c2 => Inv loop c2 ∧ Passing c2.name ∧ Free loop c2 ∧
    Quiet c2.reader ∧ c2.plugins = c.plugins) (hcall .writerAbort c ⟨h, hpassing, hfree⟩) ?_ ?_
  · rintro c1 ⟨h1, hpassing1, hfree1, hplugins1⟩
    refine (hcall .readerStop c1 ⟨h1, hpassing1, hfree1⟩).mono ?_ fun _ he => he
    exact fun c2 h2 => ⟨h2.1, h2.2.1, h2.2.2.1, h2.2.2.2.1, h2.2.2.2.2.trans hplugins1⟩
  · rintro c2 ⟨h2, hpassing2, hfree2, hquiet2, hplugins2⟩
    exact keeps_after hplugins2 (hcall .socketShutdown c2 ⟨h2, hpassing2, hfree2, hquiet2⟩)

theorem stopInput_ends (h : Inv loop c) (hdown : c.name.Down) (hover : ¬ c.name.Over)
    (hfree : Free loop c) : Ends (Keeps loop c) Once (Machine.stopInput call c) := by
  refine Machine.stopInput_rule (hcall .readerStop (Machine.transitionTo .stopping c)
    ⟨h.moveDown hdown hover trivial id, .inl rfl, hfree⟩) ?_
  rintro c1 ⟨h1, hpassing1, hfree1, hquiet1, hplugins1⟩
  exact keeps_after (x := c1) hplugins1 (hcall .socketShutdown c1 ⟨h1, hpassing1, hfree1, hquiet1⟩)

/-- A shutdown that does not drain the input wants no read to be queued. -/
theorem shutdownConnection_ends {m : ShutdownMode} (h : Good loop c) (hover : ¬ c.name.Over)
    (hfree : m ≠ .completeWriteDrainInputAndCloseSocket → Free loop c) :
    Ends (Keeps loop c) Once (Machine.shutdownConnection call m c) := by
  have hinv : ∀ {n : ConnectionState} (timer : Bool), n.Down → ¬ n.Over → Inv loop
      { Machine.transitionTo n { c with handshake := m.toProtocols, timer := timer } with
        writer := .stopped } := fun timer hn hn' =>
    Inv.turnDown (c := { c with handshake := m.toProtocols, timer := timer }) h.1 hover hn hn'
  refine Machine.shutdownConnection_rule (fun _ => ?_) fun hm => ?_
  · refine hcall .writerStop (Machine.transitionTo .stoppingOutput
      { c with handshake := m.toProtocols, timer := true })
      ⟨hinv true trivial id, rfl, fun hl hq => ⟨rfl, ?_⟩⟩
    by_cases hm : m = .completeWriteDrainInputAndCloseSocket
    · subst hm
      rfl
    · have hqueued : c.readQueued = true := hq
      rw [hfree hm hl] at hqueued
      cases hqueued
  · exact stopActivity_ends hcall
      (c := Machine.transitionTo .stopping { c with handshake := m.toProtocols })
      (hinv c.timer trivial id) (.inl rfl) (hfree fun he => hm (.inl he))

theorem drain_ends (h : Good loop c) : Ends (Keeps loop c) Once (Machine.drain call c) :=
  Machine.drain_rule (fun _ => h.refl) fun hstopped hfailed _ =>
    shutdownConnection_ends hcall (m := .completeWriteDrainInputAndCloseSocket) h
      (not_over hstopped hfailed) fun hm => absurd rfl hm

/-- A state that does not last is not failed here. -/
theorem fail_ends (h : Live loop c) : Ends (Keeps loop c) Once (Machine.fail call c) := by
  obtain ⟨hgood, hfree, hover⟩ := h
  exact Machine.fail_rule hgood.1.mayCrash (fun _ => hcall .shutdownDrain c hgood)
    (fun hname => absurd hname hgood.2)
    fun _ _ => shutdownConnection_ends hcall (m := .abortSocket) hgood hover fun _ => hfree

theorem beginConnectionClose_ends (h : Good loop c) :
    Ends (Keeps loop c) Once (AmqpConnection.beginConnectionClose call c) :=
  AmqpConnection.beginConnectionClose_rule (write_keeps hcall h.refl) fun c1 h1 =>
    frameRead_keeps hcall (x := AmqpConnection.transitionToCloseSent { c1 with timer := true })
      ⟨h1.1.opens (by simp) (by simp), h1.2⟩

theorem shutdown_ends (h : Good loop c) (hfree : Free loop c) :
    Ends (Keeps loop c) Once (Machine.shutdown call c) :=
  Machine.shutdown_rule (fun hs => hcall .shutdownClose c ⟨h, hfree, fun ho => h.1.closes ho hs⟩)
    (fun _ => h.refl) fun _ => beginConnectionClose_ends hcall h

theorem timeout_ends {readIdle writeIdle : Bool} (h : Live loop c) :
    Ends (Keeps loop c) Once (Machine.timeout call readIdle writeIdle c) := by
  obtain ⟨hgood, hfree, hover⟩ := h
  exact Machine.timeout_rule (fun _ => hgood.1.mayCrash)
    (fun _ => stopActivity_ends hcall (c := Machine.transitionTo .timeout c)
      (hgood.1.turnDown hover (n := .timeout) trivial id) (.inr rfl) hfree)
    (fun _ _ => beginConnectionClose_ends hcall hgood) (fun _ => write_keeps hcall hgood.refl)
    (fun _ => hgood.refl)
    (fun _ => hcall .shutdownDrain (AmqpConnection.transitionToClosed c) (hgood.opens (by simp) (by simp)))
    fun _ => hcall .shutdownClose c ⟨hgood, hfree, hover⟩

omit hcall in
/-- The input is drained. -/
theorem drainInput_good (timer : Bool) (h : Good loop c) (hdown : c.name.Down) (hover : ¬ c.name.Over) :
    Good loop (Machine.drainInput { c with timer := timer }) :=
  ⟨Inv.moveDown (c := { c with timer := timer }) h.1 hdown hover (n := .drainingInput) trivial id, by
    simp [Machine.drainInput, Machine.transitionTo, Connection.resetBuffer, Passing]⟩

/-- What is drained, in a connection that is over, is nothing more. -/
theorem readDoneWhileDraining_ends {buffer : Bool} {amount : Nat} (h : Good loop c) (hdown : c.name.Down)
    (hover : ¬ c.name.Over) (hfree : Free loop c) :
    Ends (Keeps loop c) Once (Machine.readDoneWhileDrainingInput call buffer amount c) :=
  Machine.readDoneWhileDrainingInput_rule h.1.mayCrash
    (fun _ => hcall (.readerCommence Reader.capacity .connection) (Machine.drainInput c)
      ⟨drainInput_good c.timer h hdown hover, fun _ => trivial, fun ho => ho.elim⟩)
    fun _ => stopInput_ends hcall h.1 hdown hover hfree

/-- The output is stopped. -/
theorem doneWhileStoppingOutput_ends (h : Good loop c) (hname : c.name = .stoppingOutput)
    (hfreed : Freed loop c) : Ends (Keeps loop c) Once (Machine.doneWhileStoppingOutput call c) := by
  have hdown : c.name.Down := hname ▸ trivial
  have hover : ¬ c.name.Over := hname ▸ id
  refine Machine.doneWhileStoppingOutput_rule h.1.mayCrash
    (fun _ => hcall .readerReset (Machine.drainInput { c with timer := true })
      ⟨drainInput_good true h hdown hover, fun ho => ho.elim⟩) ?_ fun hmode => ?_
  · rintro c1 ⟨⟨h1, hplugins1⟩, hname1, -⟩
    have hname' : c1.name = .drainingInput := hname1
    exact keeps_after (x := c1) hplugins1 (hcall (.readerCommence Reader.capacity .connection) c1
      ⟨h1, fun _ => hname' ▸ trivial, fun ho => absurd ho (hname' ▸ id)⟩)
  · refine stopInput_ends hcall h.1 hdown hover fun hl => Bool.eq_false_iff.2 fun hq => ?_
    have hmode' := (hfreed hl hq).2
    rw [hmode] at hmode'
    cases hmode'

/-! The way up. -/

theorem startNextProtocol_ends (h : Inv loop c) (hup : ¬ c.name.Down) (hfree : Free loop c) :
    Ends (Keeps loop c) Once (Machine.startNextProtocol call c) :=
  Machine.startNextProtocol_rule
    (fun _ => hcall .tlsConnect { Machine.transitionTo .connectingTls c with
      handshake := { c.handshake with tls := false } } ⟨h.moveUp hup id, hfree⟩)
    (fun _ _ => hcall .saslConnect { Machine.transitionTo .connectingSasl c with
      handshake := { c.handshake with sasl := false } } ⟨h.moveUp hup id, hfree⟩)
    (fun _ _ => hcall .tunnelConnect { Machine.transitionTo .connectingAmqp c with
      handshake := { c.handshake with amqp := false } } ⟨h.moveUp hup id, hfree⟩)
    (hcall .connectionFail c ⟨⟨h, not_passing_of_up hup⟩, hfree, not_over_of_up hup⟩)

theorem enableIo_ends (h : Good loop c) (hover : ¬ c.name.Over) :
    Ends (fun c' => Keeps loop c c' ∧ Same c c') Once (Machine.enableIo call c) := by
  refine Machine.enableIo_rule (hcall .readerEnable c ⟨h, hover⟩) ?_
  rintro c1 ⟨⟨h1, hplugins1⟩, hname1, hqueued1⟩
  refine (hcall .writerEnable c1 h1).mono ?_ fun _ he => he
  rintro c2 ⟨⟨h2, hplugins2⟩, hname2, hqueued2⟩
  exact ⟨⟨h2, hplugins2.trans hplugins1⟩, hname2.trans hname1, hqueued2.trans hqueued1⟩

theorem done_ends (h : Inv loop c) (hfreed : Freed loop c)
    (hpassing : Passing c.name → c.socket = .stopped ∧ c.connectWatcher = false ∧ Quiet c.reader) :
    Ends (Keeps loop c) Once (Machine.done call c) := by
  have hfree : c.name ≠ .stoppingOutput → Free loop c := fun hn hl =>
    Bool.eq_false_iff.2 fun hq => hn (hfreed hl hq).1
  have hhalt : Passing c.name → ∀ {n : ConnectionState}, n = .stopped ∨ n = .failed →
      Keeps loop c (Machine.connectionHalt (Machine.transitionTo n c)) := by
    intro hp n hn
    obtain ⟨hsocket, hwatcher, hquiet⟩ := hpassing hp
    refine h.halt hp hsocket hwatcher hquiet (hfree ?_) hn
    rcases hp with hp | hp <;> simp [hp]
  refine Machine.done_rule (r := fun c1 => Keeps loop c c1 ∧ ¬ c1.name.Down ∧ Free loop c1) (s := Keeps loop c)
    h.mayCrash (fun hn => ?_) (fun c1 h1 => ?_) (fun hn => ?_) (fun hn => ?_) (fun hn => ?_) (fun hn => ?_)
    (fun hn => ?_) (fun hn => ?_) (fun c1 h1 => ?_) (fun hn => ?_) (fun hn => ?_) (fun hn => ?_) fun hn => ?_
  · have hup := up_of_name hn id
    refine (enableIo_ends hcall ⟨h, not_passing_of_up hup⟩ (not_over_of_up hup)).mono ?_ fun _ he => he
    exact fun c1 h1 => ⟨h1.1, h1.2.1 ▸ hup, fun hl => h1.2.2.trans (hfree (by simp [hn]) hl)⟩
  · exact keeps_after h1.1.2
      (startNextProtocol_ends hcall (c := { c1 with handshake := c1.protocols }) h1.1.1.1 h1.2.1 h1.2.2)
  · exact startNextProtocol_ends hcall h (up_of_name hn id) (hfree (by simp [hn]))
  · exact startNextProtocol_ends hcall (c := { c with saslConnected := true }) h (up_of_name hn id)
      (hfree (by simp [hn]))
  · exact hcall .amqpSendOpen (Machine.transitionTo .amqpTunnelEstablished { c with isClient := true })
      ⟨Inv.moveUp (c := { c with isClient := true }) h (up_of_name hn id) id, hfree (by simp [hn])⟩
  · exact hcall .shutdownDrain c ⟨h, by simp [hn, Passing]⟩
  · exact Machine.doneWhileAcceptingTls_rule (hcall .negotiatorReset _ (h.moveUp (up_of_name hn id) id))
      fun c1 h1 => (hcall .negotiatorWait c1 h1.1.1).mono (fun c2 h2 => h2.1.1.mayCrash) fun _ he => he
  · exact (hcall .negotiatorReset { Machine.transitionTo .waitingOnAmqpNegotiationRequest c with
      saslConnected := true } (h.moveUp (up_of_name hn id) id)).mono (fun _ h1 => h1.1) fun _ he => he
  · exact keeps_after h1.2 (hcall .negotiatorWait c1 h1.1)
  · exact hcall .amqpWaitOnOpen (Machine.transitionTo .tunnelAccepted c)
      ⟨h.moveUp (up_of_name hn id) id, hfree (by simp [hn])⟩
  · exact doneWhileStoppingOutput_ends hcall ⟨h, by simp [hn, Passing]⟩ hn hfreed
  · exact hhalt hn (.inr rfl)
  · exact hhalt (.inl hn) (.inl rfl)

theorem connect_ends {lookup : Option Nat} (h : Good loop c) (hfree : Free loop c) :
    Ends (Keeps loop c) Once (Machine.connect call lookup c) :=
  Machine.connect_rule h.1.mayCrash fun hn =>
    hcall (.socketConnect lookup) (Machine.transitionTo .connectingSocket c)
      ⟨h.1.moveUp (up_of_name hn id) id, hfree, id⟩

/-! The negotiator. -/

theorem negotiatorStart_ends {version : Nat} {confirm : ConfirmCallback} {reject : RejectCallback}
    (h : Good loop c) : Ends (Keeps loop c) Once (Negotiator.start call version confirm reject c) :=
  Negotiator.start_rule (r := Keeps loop c) h.1.mayCrash (fun _ => write_keeps hcall (c := c) ⟨h, rfl⟩)
    fun c1 h1 => keeps_after h1.2 (hcall (.readerCommence _ .negotiator)
      (Connection.resetBuffer { c1 with negotiator := .waitingForBrokerResponse })
      ⟨h1.1, by simp, fun _ => ⟨by simp, by simp⟩⟩)

/-- If the header cannot be sent, the connection is over and has plugins. -/
theorem negotiatorSend_ends {version : Nat} {confirm : ConfirmCallback} (h : Good loop c)
    (hfree : Free loop c) (hplugin : HasPlugin c) :
    Ends (Keeps loop c) Once (Negotiator.send call version confirm c) := by
  refine Negotiator.send_rule (fun _ => h.1.mayCrash) (fun _ => hcall (.writerWrite (.header version)) _ h) ?_
  rintro c1 ⟨⟨h1, hplugins1⟩, hfree1, herror1⟩
  refine keeps_after (x := c1) hplugins1 (hcall .confirmCallback { c1 with negotiator := .negotiated }
    ⟨h1, hfree1 hfree, fun ho => ?_⟩)
  have hne : c.plugins ≠ [] := hplugin (herror1 ho)
  rw [← hplugins1] at hne
  exact hne

theorem negotiatorReadDone_ends {buffer : Bool} {amount : Nat} (h : Good loop c) (hfree : Free loop c)
    (hover : c.name.Over → amount = 0) (hheader : amount ≠ 0 → c.AwaitsHeader → HasPlugin c) :
    Ends (Keeps loop c) Once (Negotiator.readDone call buffer amount c) :=
  Negotiator.readDone_rule h.1.mayCrash
    (fun _ _ => hcall .connectionShutdown { c with negotiator := .failed } ⟨h, hfree⟩)
    (fun hamount _ _ => hcall .confirmCallback { Negotiator.consumeHeader c with negotiator := .negotiated }
      ⟨h.say (by simp), hfree, fun ho => absurd (hover ho) hamount⟩)
    (fun hamount _ _ => hcall (.rejectCallback _) { Negotiator.consumeHeader c with negotiator := .rejected }
      ⟨h.say (by simp), hfree, fun ho => hamount (hover ho)⟩)
    fun hamount _ => hcall (.requestCallback _)
      { Negotiator.consumeHeader c with negotiator := .waitingToSendServerResponse }
      ⟨h.say (by simp), hfree, hheader hamount⟩

omit hcall in
/-- Behind a call that does not leave a read queued, a connection may be done. -/
theorem Good.done (h : Good loop c) (hfree : Free loop c) : pre loop .connectionDone c :=
  ⟨h.1, hfree.freed, fun hp => absurd hp h.2⟩

theorem confirm_ends {d : FrameDecoders} (h : Good loop c) (hfree : Free loop c)
    (hplugin : c.name.Over → c.plugins ≠ []) :
    Ends (Keeps loop c) Once (dispatch d call .confirmCallback c) :=
  confirmCallback_rule (r := Keeps loop c) h.1.mayCrash
    (fun _ => frameEnable_keeps hcall (x := { c with sasl := .waitingOnSaslMechanisms }) ⟨h, rfl⟩)
    (fun _ h1 => frameRead_keeps hcall h1)
    (fun _ => hcall .connectionDone { c with amqpTunnel := .negotiated }
      (Good.done (c := { c with amqpTunnel := .negotiated }) h hfree))
    (fun _ => hcall .saslDone c ⟨h, hfree, hplugin⟩) (fun _ => hcall .tunnelDone c ⟨h, hfree⟩)
    fun _ => hcall .connectionDone c (h.done hfree)

theorem rejectCallback_ends {d : FrameDecoders} {version : Nat} (h : Live loop c) :
    Ends (Keeps loop c) Once (dispatch d call (.rejectCallback version) c) :=
  rejectCallback_rule h.1.1.mayCrash (fun _ => hcall .connectionFail { c with sasl := .failed } h)
    fun _ => hcall .connectionFail { c with amqpTunnel := .failed } h

/-! The server. -/

theorem rejectProtocolVersion_ends {version : Nat} (h : Inv loop c) (hup : ¬ c.name.Down)
    (hfree : Free loop c) (hplugin : HasPlugin c) :
    Ends (Keeps loop c) Once (Machine.rejectProtocolVersion call version c) :=
  hcall (.negotiatorSend version .connectionDone) (Machine.transitionTo .sendingErrorMessage c)
    ⟨h.moveUp hup id, hfree, hplugin⟩

theorem establish_ends {version : Nat} {accepted : Protocols} (h : Inv loop c) (hup : ¬ c.name.Down)
    (hfree : Free loop c) (hplugin : HasPlugin c) :
    Ends (Keeps loop c) Once (Machine.establishTunnelAfterClientRequest call version accepted c) :=
  Machine.establish_rule (fun _ => rejectProtocolVersion_ends hcall h hup hfree hplugin)
    (fun _ _ => hcall (.tlsAccept version) (Machine.transitionTo .acceptingTls c) (h.moveUp hup id))
    (fun _ _ => hcall (.saslAccept version) (Machine.transitionTo .acceptingSasl c)
      ⟨h.moveUp hup id, hfree, hplugin, id⟩)
    fun _ _ => hcall (.tunnelAccept version) (Machine.transitionTo .acceptingAmqp c)
      ⟨h.moveUp hup id, hfree, hplugin, id⟩

omit hcall in
theorem awaits_of_accepted {accepted : Protocols} (ha : Machine.acceptedIn c.name = some accepted) :
    c.AwaitsHeader := by
  unfold Connection.AwaitsHeader
  cases hn : c.name <;> simp [Machine.acceptedIn, hn] at ha ⊢

theorem begin_ends {version : Nat} (h : Good loop c) (hfree : Free loop c)
    (hplugin : c.AwaitsHeader → HasPlugin c) :
    Ends (Keeps loop c) Once (Machine.begin call version c) :=
  Machine.begin_rule (fun _ => h.1.mayCrash) fun _ ha =>
    establish_ends hcall h.1 (Machine.not_down_of_acceptedIn ha) hfree (hplugin (awaits_of_accepted ha))

theorem saslAccept_ends {version : Nat} (h : Good loop c) (hup : ¬ c.name.Down) (hfree : Free loop c)
    (hplugin : HasPlugin c) : Ends (Keeps loop c) Once (Sasl.accept call version c) :=
  Sasl.accept_rule (fun _ => h.1.mayCrash)
    (fun _ _ => hcall (.connectionReject _) { c with sasl := .failed } ⟨h, hfree, hplugin, hup⟩)
    fun _ _ => hcall (.negotiatorSend _ .saslBrokerVersionSent) { c with sasl := .sendingHeaderResponse }
      ⟨h, hfree, hplugin⟩

theorem tunnelAccept_ends {version : Nat} (h : Good loop c) (hup : ¬ c.name.Down) (hfree : Free loop c)
    (hplugin : HasPlugin c) : Ends (Keeps loop c) Once (AmqpTunnel.accept call version c) :=
  AmqpTunnel.accept_rule (fun _ => h.1.mayCrash)
    (fun _ _ => hcall (.connectionReject _) { c with amqpTunnel := .failed } ⟨h, hfree, hplugin, hup⟩)
    fun _ _ => hcall (.negotiatorSend _ .amqpDone) { c with amqpTunnel := .sendingHeaderResponse }
      ⟨h, hfree, hplugin⟩

/-! SASL and the AMQP tunnel. -/

theorem saslConnect_ends (h : Good loop c) (hfree : Free loop c) :
    Ends (Keeps loop c) Once (Sasl.connect call c) :=
  Sasl.connect_rule h.1.mayCrash (fun _ => negotiatorReset_keeps hcall h hfree) fun c1 h1 =>
    keeps_after h1.1.2 (hcall (.negotiatorStart _ .saslVersionAccepted .saslVersionRejected) c1 ⟨h1.1.1, h1.2⟩)

theorem tunnelConnect_ends (h : Good loop c) (hfree : Free loop c) :
    Ends (Keeps loop c) Once (AmqpTunnel.connect call c) :=
  AmqpTunnel.connect_rule h.1.mayCrash (fun _ => negotiatorReset_keeps hcall h hfree) fun c1 h1 =>
    keeps_after h1.1.2 (hcall (.negotiatorStart _ .amqpVersionAccepted .amqpVersionRejected) c1 ⟨h1.1.1, h1.2⟩)

theorem saslDone_ends (h : Good loop c) (hfree : Free loop c) (hplugin : c.name.Over → c.plugins ≠ []) :
    Ends (Keeps loop c) Once (Sasl.done call c) :=
  Sasl.done_rule (s := Keeps loop c) h.1.mayCrash
    (fun _ hempty => hcall .connectionFail c ⟨h, hfree, fun ho => hplugin ho hempty⟩)
    (fun _ => write_keeps hcall h.refl)
    (fun c1 h1 => frameEnable_keeps hcall (x := { c1 with sasl := .waitingOnSaslInitialResponseFrame }) h1)
    fun _ h2 => frameRead_keeps hcall h2

theorem sendOpen_ends (h : Good loop c) : Ends (Keeps loop c) Once (AmqpConnection.sendOpen call c) :=
  AmqpConnection.sendOpen_rule (s := Keeps loop c) h.1.mayCrash (fun _ => write_keeps hcall h.refl)
    (fun c1 h1 => frameEnable_keeps hcall (x := { c1 with amqp := .openSent }) h1)
    fun _ h2 => frameRead_keeps hcall h2

theorem waitOnOpen_ends (h : Good loop c) :
    Ends (Keeps loop c) Once (AmqpConnection.waitOnOpen call c) :=
  AmqpConnection.waitOnOpen_rule (r := Keeps loop c) h.1.mayCrash
    (fun _ => frameEnable_keeps hcall (x := { c with amqp := .waitingForOpenFrame }) ⟨h, rfl⟩)
    fun _ h1 => frameRead_keeps hcall h1

/-! Frames. -/

theorem frameRead_ends {callback : FrameCallback} (h : Good loop c) :
    Ends (Keeps loop c) Once (FrameReader.read call callback c) :=
  FrameReader.read_rule h.1.mayCrash
    (fun _ => hcall (.readerCommence _ .frameReader) { c.resetBuffer with
      frameReader := .readingFrameHeader, frameCallback := some callback }
      ⟨h, by simp, fun _ => ⟨by simp, fun _ => rfl⟩⟩)
    fun _ => h.refl

theorem outOfSequenceSaslFrame_ends (h : Live loop c) :
    Ends (Keeps loop c) Once (call .connectionFail c.frameCleanup) :=
  hcall .connectionFail c.frameCleanup (h.say (by simp))

theorem outOfSequenceFrame_ends (h : Live loop c) :
    Ends (Keeps loop c) Once (call .connectionShutdown c.frameCleanup) :=
  hcall .connectionShutdown c.frameCleanup ⟨h.1.say (by simp), h.2.1⟩

theorem mechanismsFrame_ends {names : List (List UInt8)} (h : Live loop c) :
    Ends (Keeps loop c) Once (Sasl.mechanismsFrame call names c) :=
  Sasl.mechanismsFrame_rule (r := Keeps loop c) h.1.1.mayCrash (fun _ => outOfSequenceSaslFrame_ends hcall h)
    (fun _ plugin => (hcall .connectionFail { c with plugin := plugin } h).mono
      (fun _ h1 => Keeps.released (c := c) h1) fun _ he => he)
    (fun _ plugin _ => write_keeps hcall (x := { c with plugin := some plugin }) ⟨h.1, rfl⟩)
    fun c1 h1 => frameRead_keeps hcall
      (x := { c1.frameCleanup with sasl := .waitingOnSaslChallengeOrOutcome }) h1.released

theorem initFrame_ends {mechanism : List UInt8} (h : Live loop c) :
    Ends (Keeps loop c) Once (Sasl.initFrame call mechanism c) :=
  Sasl.initFrame_rule (r := fun c1 => Keeps loop c c1 ∧ Free loop c1) h.1.1.mayCrash
    (fun _ => outOfSequenceSaslFrame_ends hcall h)
    (fun _ => (hcall .connectionFail c h).mono (fun _ h1 => h1.released.1.1.mayCrash) fun _ he => he)
    (fun _ plugin _ _ => (hcall (.writerWrite .saslOutcome) { c with plugin := some plugin } h.1).mono
      (fun _ h1 => ⟨h1.1, h1.2.1 h.2.1⟩) fun _ he => he)
    fun c1 h1 => keeps_after h1.1.2 (hcall .connectionDone { c1.frameCleanup with sasl := .negotiated }
      (Good.done (c := { c1.frameCleanup with sasl := .negotiated }) h1.1.released.1 h1.2))

theorem outcomeFrame_ends {code : Nat} {additionalData : Bool} (h : Live loop c) :
    Ends (Keeps loop c) Once (Sasl.outcomeFrame call code additionalData c) :=
  Sasl.outcomeFrame_rule h.1.1.mayCrash (fun _ => outOfSequenceSaslFrame_ends hcall h)
    (fun _ _ _ => hcall .connectionDone { c.frameCleanup with sasl := .negotiated }
      (Good.done (c := { c.frameCleanup with sasl := .negotiated }) h.1.refl.released.1 h.2.1))
    fun _ _ => h.1.refl.released

theorem connectionOpened_ends {idleTimeOut : Nat} (h : Good loop c) :
    Ends (Keeps loop c) Once (AmqpConnection.connectionOpened call idleTimeOut c) :=
  hcall (.frameRead .amqp) { AmqpConnection.transitionToOpened c with
    timer := c.idleTimeOut != 0 && idleTimeOut != 0 }
    (h.opens (by simp [AmqpConnection.transitionToOpened]) (by simp [AmqpConnection.transitionToOpened]))

theorem openFrame_ends {hostname : Bool} {idleTimeOut : Nat} (h : Live loop c) :
    Ends (Keeps loop c) Once (AmqpConnection.openFrame call hostname idleTimeOut c) :=
  AmqpConnection.openFrame_rule h.1.1.mayCrash (fun _ _ => outOfSequenceFrame_ends hcall h)
    (fun _ _ => connectionOpened_ends hcall (c := c.frameCleanup) h.1.refl.released.1)
    (fun _ _ => write_keeps hcall h.1.refl.released)
    fun _ h1 => keeps_after h1.2 (connectionOpened_ends hcall h1.1)

theorem closeFrame_ends {error : Bool} (h : Live loop c) :
    Ends (Keeps loop c) Once (AmqpConnection.closeFrame call error c) :=
  AmqpConnection.closeFrame_rule (r := Keeps loop c) h.1.1.mayCrash (fun _ _ => outOfSequenceFrame_ends hcall h)
    (fun _ => hcall (.frameRead .discard)
      (AmqpConnection.transitionToClosed { c with timer := true }).frameCleanup
      (Good.say (c := AmqpConnection.transitionToClosed { c with timer := true })
        (h.1.opens (by simp) (by simp)) (by simp)))
    (fun _ h1 => write_keeps hcall h1)
    (fun c2 h2 => keeps_after h2.2 (hcall .shutdownDrain c2 h2.1))
    fun _ => hcall .shutdownDrain (AmqpConnection.transitionToClosed c.frameCleanup)
      (h.1.refl.released.1.opens (by simp) (by simp))

theorem emptyFrame_ends (h : Live loop c) :
    Ends (Keeps loop c) Once (AmqpConnection.emptyFrame call c) :=
  AmqpConnection.emptyFrame_rule (fun _ => hcall (.frameRead .amqp) c h.1)
    fun _ _ => outOfSequenceFrame_ends hcall h

theorem frameDispatch_ends {f : PeerFrame} (h : Live loop c) :
    Ends (Keeps loop c) Once (f.dispatch call c) := by
  cases f with
  | saslMechanisms names => exact mechanismsFrame_ends hcall h
  | saslInit mechanism => exact initFrame_ends hcall h
  | saslChallenge =>
    exact Sasl.challengeFrame_rule h.1.1.mayCrash fun _ => outOfSequenceSaslFrame_ends hcall h
  | saslResponse => exact outOfSequenceSaslFrame_ends hcall h
  | saslOutcome code additionalData => exact outcomeFrame_ends hcall h
  | amqpOpen hostname idleTimeOut => exact openFrame_ends hcall h
  | amqpClose error => exact closeFrame_ends hcall h
  | empty => exact emptyFrame_ends hcall h
  | _ => exact outOfSequenceFrame_ends hcall h

theorem frameAvailable_ends {d : FrameDecoders} (h : Live loop c) :
    Ends (Keeps loop c) Once (dispatch d call .frameAvailable c) :=
  frameAvailable_rule h.1.1.mayCrash
    (fun f i _ => hcall (.frameDispatch f) { c with readIndex := i, trace := c.trace ++ [.receivedFrame f] }
      (h.say (by simp)))
    (fun _ _ => hcall .connectionFail c h) (fun _ _ => hcall .connectionShutdown c ⟨h.1, h.2.1⟩)
    fun _ => hcall (.frameRead .discard) c h.1

/-- A connection that is over reads no body, and the end of the stream where a header was due. -/
theorem frameReadDone_ends {amount : Nat} (h : Good loop c) (hfree : Free loop c)
    (hover : c.name.Over → amount = 0 ∧ Harmless c .frameReader) :
    Ends (Keeps loop c) Once (FrameReader.readDone call amount c) := by
  have hlive : amount ≠ 0 → Live loop c := fun hamount => ⟨h, hfree, fun ho => hamount (hover ho).1⟩
  have hlive8 : amount = amqpFrameHeaderSizeInBytes → Live loop c := fun h8 => hlive (by rw [h8]; decide)
  have hbody : c.frameReader = .readingFrameBody → Live loop c := fun hreader =>
    ⟨h, hfree, fun ho => by simpa [hreader] using (hover ho).2.2 rfl⟩
  exact FrameReader.readDone_rule h.1.mayCrash (fun _ _ => hcall .connectionShutdown c ⟨h, hfree⟩)
    (fun _ h0 _ => hcall .connectionFail c (hlive h0))
    (fun _ h8 _ => hcall .connectionFail { c with frameSize := FrameReader.announcedSize c } (hlive8 h8))
    (fun _ h8 _ _ => hcall .frameAvailable { c with frameSize := _, frameReader := .enabled } (hlive8 h8))
    (fun _ h8 _ _ => hcall (.readerCommence _ .frameReader)
      { c with frameSize := _, frameReader := .readingFrameBody }
      ⟨h, by simp, fun ho => absurd ho (hlive8 h8).2.2⟩)
    (fun hreader _ => hcall .connectionFail c (hbody hreader))
    fun hreader _ => hcall .frameAvailable { c with frameReader := .enabled } (hbody hreader)

theorem dispatch_respects {d : FrameDecoders} : Respects loop (dispatch d call) := by
  intro a c h
  cases a with
  | connectionConnect lookup => exact connect_ends hcall h.1 h.2
  | connectionBegin version => exact begin_ends hcall h.1 h.2.1 h.2.2
  | connectionReject version =>
    exact Machine.reject_rule (fun _ => h.1.1.mayCrash) fun _ =>
      rejectProtocolVersion_ends hcall h.1.1 h.2.2.2 h.2.1 h.2.2.1
  | connectionDone => exact done_ends hcall h.1 h.2.1 h.2.2
  | connectionFail => exact fail_ends hcall h
  | connectionShutdown => exact shutdown_ends hcall h.1 h.2
  | connectionTimeout readIdle writeIdle => exact timeout_ends hcall h
  | shutdownDrain => exact drain_ends hcall h
  | shutdownClose =>
    exact shutdownConnection_ends hcall (m := .completeWriteAndCloseSocket) h.1 h.2.2 fun _ => h.2.1
  | socketConnect lookup => exact socketConnect_ends hcall h
  | socketTryConnect => exact tryConnect_ends hcall h
  | socketDone =>
    exact Socket.done_rule h.1.1.mayCrash fun _ => hcall .connectionDone
      { c with socket := .connected, addresses := 0 } (h.socket (by simp) c.connectWatcher).done
  | socketFail =>
    exact Socket.fail_rule h.1.1.mayCrash fun _ => hcall .connectionFail
      { c with socket := .failed, connectWatcher := false, addresses := 0 } (Live.socket h (by simp) false)
  | socketShutdown => exact socketShutdown_ends hcall h.1 h.2.1 h.2.2.1 h.2.2.2
  | writerEnable =>
    refine Writer.enable_rule h.1.mayCrash fun hw => ?_
    have hup : ¬ c.name.Down := fun hd => (h.1.shut hd).1 hw
    exact ⟨⟨⟨{ h.1 with shut := fun hd => absurd hd hup }, h.2⟩, rfl⟩, rfl, rfl⟩
  | writerWrite m => exact write_ends hcall h
  | writerContinue => exact continueWrite_ends hcall h
  | writerComplete => exact writeComplete_ends hcall h.1 h.2
  | writerStop => exact stop_ends hcall h.1 h.2.1 h.2.2
  | writerAbort =>
    obtain ⟨hinv, hpassing, hfree⟩ := h
    refine Writer.abort_rule (fun hw => ?_) ⟨hinv, hpassing, hfree, rfl⟩
    exact ⟨hinv.ofStopped (by rcases hw with hw | hw <;> simp [hw, Shut]), hpassing, hfree, rfl⟩
  | writerFail =>
    obtain ⟨hgood, hover, hloop⟩ := h
    exact Writer.fail_rule hgood.1.mayCrash fun _ => hcall .connectionFail { c with writer := .failed }
      ⟨⟨{ hgood.1 with shut := fun _ => ⟨by simp, by simp, by simp⟩ }, hgood.2⟩, free_of_loop hloop, hover⟩
  | readerEnable =>
    exact Reader.enable_rule h.1.1.mayCrash fun _ => ⟨⟨h.1.reader h.2 _, rfl⟩, rfl, rfl⟩
  | readerCommence required callback => exact commenceRead_ends hcall h.1 h.2.1 h.2.2
  | readerReset => exact readerReset_ends h.1 h.2
  | readerDelayed =>
    exact Reader.delayedRead_rule
      (fun hr => delayedReadWhileReading_ends hcall h fun ho => (h.1.quiet ho).2 hr) fun _ => h.refl
  | readerStop => exact readerStop_ends h.1 h.2.1 h.2.2
  | readerFail =>
    obtain ⟨hgood, hover, hloop⟩ := h
    exact Reader.fail_rule hgood.1.mayCrash fun _ => hcall .connectionFail { c with reader := .failed }
      ⟨hgood.reader hover _, free_of_loop hloop, hover⟩
  | readDone callback buffer amount =>
    obtain ⟨hgood, hfree, hdown, hover, hheader⟩ := h
    cases callback with
    | negotiator =>
      exact negotiatorReadDone_ends hcall hgood hfree (fun ho => (hover ho).1) fun ha => hheader ha rfl
    | frameReader => exact frameReadDone_ends hcall hgood hfree hover
    | connection =>
      exact readDoneWhileDraining_ends hcall hgood (hdown rfl) (fun ho => (hover ho).2.1 rfl) hfree
  | negotiatorStart version confirm reject => exact negotiatorStart_ends hcall h.1
  | negotiatorWait =>
    exact Negotiator.wait_rule h.1.mayCrash fun _ =>
      hcall (.readerCommence _ .negotiator) _ ⟨h, by simp, fun _ => ⟨by simp, by simp⟩⟩
  | negotiatorSend version confirm => exact negotiatorSend_ends hcall h.1 h.2.1 h.2.2
  | negotiatorReset =>
    exact Negotiator.reset_rule h.1.mayCrash (fun _ => ⟨h.refl, rfl, rfl⟩) fun _ => ⟨⟨h, rfl⟩, rfl, rfl⟩
  | confirmCallback => exact confirm_ends hcall h.1 h.2.1 h.2.2
  | rejectCallback version => exact rejectCallback_ends hcall h
  | requestCallback version =>
    exact requestCallback_rule (fun _ => h.1.1.mayCrash) fun _ => hcall (.connectionBegin version) c h
  | tlsConnect => exact hcall (.negotiatorStart _ .tlsVersionAccepted .tlsVersionRejected) c h
  | tlsAccept version => exact h.1.once
  | saslConnect => exact saslConnect_ends hcall h.1 h.2
  | saslAccept version => exact saslAccept_ends hcall h.1 h.2.2.2 h.2.1 h.2.2.1
  | saslDone => exact saslDone_ends hcall h.1 h.2.1 h.2.2
  | tunnelConnect => exact tunnelConnect_ends hcall h.1 h.2
  | tunnelAccept version => exact tunnelAccept_ends hcall h.1 h.2.2.2 h.2.1 h.2.2.1
  | tunnelDone =>
    exact AmqpTunnel.done_rule h.1.1.mayCrash fun _ => hcall .connectionDone
      { c with amqpTunnel := .negotiated } (Good.done (c := { c with amqpTunnel := .negotiated }) h.1 h.2)
  | amqpSendOpen => exact sendOpen_ends hcall h.1
  | amqpWaitOnOpen => exact waitOnOpen_ends hcall h.1
  | frameEnable => exact FrameReader.enable_rule (fun _ => ⟨⟨h, rfl⟩, rfl, rfl⟩) fun _ => ⟨h.refl, rfl, rfl⟩
  | frameRead callback => exact frameRead_ends hcall h
  | frameAvailable => exact frameAvailable_ends hcall h
  | frameDispatch f => exact frameDispatch_ends hcall h

end Functions

/-! ## Every call -/

/-- What a call keeps holds when it begins. -/
theorem once_of_pre {a : Action} {c : Connection} (h : pre loop a c) : halts c.trace ≤ 1 := by
  cases a <;> first
    | exact (Inv.once h.1 :)
    | exact (Inv.once h.1.1 :)

/-- Calls of any depth. -/
theorem calls_respects (d : FrameDecoders) (depth : Nat) : Respects loop (calls d depth) := by
  refine invoke_ends ?_ (fun _ hcall => dispatch_respects hcall) depth
  exact fun _ _ h => once_of_pre h

/-! ## A connection that is over -/

/-- Between two steps the reader of such a connection may be enabled, but nothing is read. -/
structure Ended (c : Connection) : Prop where
  isOver : c.name.Over
  count : halts c.trace = 1
  closes : c.shutdown ≠ .default
  expires : c.timeout ≠ .whileStoppingOutput ∧ c.timeout ≠ .whileDrainingInput
  closed : c.socket = .stopped ∧ c.connectWatcher = false
  waits : c.isReading = false
  shut : Shut c.writer

def endedPre : Action → Connection → Prop
  | .connectionConnect _, c | .connectionShutdown, c | .shutdownDrain, c | .writerWrite _, c => Ended c
  | .connectionTimeout _ _, c => Ended c ∧ c.timeout ≠ .whileClosed
  | _, _ => False

/-- Nothing is written any more. -/
def endedPost : Action → Connection → Connection → Prop
  | .writerWrite _, _, _ => False
  | _, c, c' => Ended c' ∧ c'.name = c.name

/-- What calls do to a connection that is over. -/
def Rests (call : Calls) : Prop := ∀ a c, endedPre a c → Ends (endedPost a c) Once (call a c)

section
variable {call : Calls} (hcall : Rests call) {c : Connection} (h : Ended c)

theorem Ended.once (h : Ended c) : halts c.trace ≤ 1 := Nat.le_of_eq h.count

theorem Ended.closed' (h : Ended c) {amqp : AmqpState} {timer : Bool} :
    Ended (AmqpConnection.transitionToClosed { c with amqp := amqp, timer := timer }) where
  isOver := h.isOver
  count := h.count
  closes := by simp [AmqpConnection.transitionToClosed]
  expires := by simp [AmqpConnection.transitionToClosed]
  closed := h.closed
  waits := h.waits
  shut := h.shut

theorem Ended.mayCrash (h : Ended c) : MayCrash Once c := fun _ _ => h.once

include hcall h

theorem beginConnectionClose_rests :
    Ends (fun c' => Ended c' ∧ c'.name = c.name) Once (AmqpConnection.beginConnectionClose call c) :=
  AmqpConnection.beginConnectionClose_rule (hcall (.writerWrite .amqpClose) c h) fun _ hfalse => hfalse.elim

theorem shutdown_rests : Ends (fun c' => Ended c' ∧ c'.name = c.name) Once (Machine.shutdown call c) :=
  Machine.shutdown_rule (fun hs => absurd hs h.closes) (fun _ => ⟨h, rfl⟩)
    fun _ => beginConnectionClose_rests hcall h

theorem timeout_rests {readIdle writeIdle : Bool} (hclosed : c.timeout ≠ .whileClosed) :
    Ends (fun c' => Ended c' ∧ c'.name = c.name) Once (Machine.timeout call readIdle writeIdle c) :=
  Machine.timeout_rule (fun _ => h.mayCrash) (fun ht => (ht.elim h.expires.1 h.expires.2).elim)
    (fun _ _ => beginConnectionClose_rests hcall h)
    (fun _ => (hcall (.writerWrite .emptyFrame) c h).mono (fun _ hfalse => hfalse.elim) fun _ he => he)
    (fun _ => ⟨h, rfl⟩) (fun _ => hcall .shutdownDrain (AmqpConnection.transitionToClosed c) h.closed')
    fun ht => absurd ht hclosed

theorem dispatch_rests {d : FrameDecoders} {a : Action} (ha : endedPre a c) :
    Ends (endedPost a c) Once (dispatch d call a c) := by
  cases a with
  | connectionConnect lookup =>
    exact Machine.connect_rule h.mayCrash fun hn => absurd (down_of_over h.isOver) (up_of_name hn id)
  | connectionShutdown => exact shutdown_rests hcall h
  | connectionTimeout readIdle writeIdle => exact timeout_rests hcall h ha.2
  | shutdownDrain =>
    exact Machine.drain_rule (fun _ => ⟨h, rfl⟩) fun hstopped hfailed _ =>
      absurd h.isOver (not_over hstopped hfailed)
  | writerWrite m => exact Writer.write_rule (fun _ => h.mayCrash) fun hw => absurd hw h.shut.2.1
  | _ => exact ha.elim

end

theorem ended_of_pre {a : Action} {c : Connection} (h : endedPre a c) : Ended c := by
  cases a <;> first
    | exact h
    | exact h.1
    | exact h.elim

theorem calls_rests (d : FrameDecoders) (depth : Nat) : Rests (calls d depth) := by
  refine invoke_ends ?_ (fun _ hcall _ _ ha => dispatch_rests hcall (ended_of_pre ha) ha) depth
  exact fun _ _ h => (ended_of_pre h).once

/-! ## Every step -/

theorem Ended.arm {c : Connection} (h : Ended c) (i : Stimulus) : Ended (c.arm i) :=
  ⟨h.isOver, h.count, h.closes, h.expires, h.closed, h.waits, h.shut⟩

/-- A step finds a connection over and leaves it so. -/
theorem Ended.step {c : Connection} (h : Ended c) {i : Stimulus} (hstays : c.StaysOver i)
    (d : FrameDecoders) (depth : Nat) :
    Ends (fun c' => Ended c' ∧ c'.name = c.name) Once (c.step d depth i) := by
  have harm := h.arm i
  have hrefl : Ends (fun c' => Ended c' ∧ c'.name = c.name) Once (.ok (c.arm i)) := ⟨harm, rfl⟩
  have hcall := calls_rests d depth
  by_cases hdestroyed : (c.arm i).destroyed = true
  · rw [Connection.step, Connection.handle_destroyed hdestroyed]
    exact hrefl
  have hresumes : ¬ c.Resumes i := (hstays hdestroyed).1
  have hname : (c.arm i).name ≠ .initialized := fun hn => absurd (down_of_over harm.isOver) (up_of_name hn id)
  refine handle_rule ⟨harm, rfl⟩ (fun lookup hi haccepted => ?_) (fun _ hn _ => absurd hn hname)
    (fun _ => hcall .connectionShutdown (c.arm i) harm)
    (fun _ _ hwatcher => ?_) (fun _ _ _ _ hreading _ => ?_) (fun _ _ hreading => ?_) (fun _ hreading => ?_)
    (fun _ hwriting => ?_) fun readIdle writeIdle hi htimer => ?_
  · refine connectTo_rule (fun _ => hcall (.connectionConnect lookup) (c.arm i) harm) fun hamqp => ?_
    refine absurd ⟨h.isOver, ?_⟩ hresumes
    rw [hi]
    exact ⟨haccepted, hamqp⟩
  · exact absurd hwatcher (by simp [harm.closed.2])
  · exact absurd hreading (by simp [harm.waits])
  · exact absurd hreading (by simp [harm.waits])
  · exact absurd hreading (by simp [harm.waits])
  · exact absurd hwriting (by simp [Connection.isWriting, harm.closed.1])
  · refine hcall (.connectionTimeout readIdle writeIdle) (c.arm i) ⟨harm, fun hclosed => ?_⟩
    refine hresumes ⟨h.isOver, ?_⟩
    rw [hi]
    exact ⟨htimer, hclosed⟩

/-! ## A connection that is not -/

/-- What is true between two steps. -/
def Rest (c : Connection) : Prop := Good false c ∧ ¬ c.name.Over ∨ Ended c

theorem Inv.ended {c : Connection} (h : Inv loop c) (hover : c.name.Over) {r : ReaderState}
    (hr : r ≠ .reading) : Ended { c with reader := r } where
  isOver := hover
  count := h.count.trans (if_pos hover)
  closes := h.closes hover
  expires := h.expires hover
  closed := h.closed hover
  waits := by simp [Connection.isReading, hr]
  shut := h.shut (down_of_over hover)

theorem Good.rest {c : Connection} (h : Good loop c) : Rest c := by
  by_cases hover : c.name.Over
  · exact .inr (h.1.ended hover (h.1.quiet hover).2)
  · exact .inl ⟨⟨{ h.1 with
      noFailure := fun hl => by cases hl
      unqueued := fun hl => by cases hl }, h.2⟩, hover⟩

theorem Keeps.rest {c : Connection} {r : Outcome} (h : Ends (Keeps loop c) Once r) : Ends Rest Once r :=
  h.mono (fun _ h' => h'.1.rest) fun _ he => he

/-- The bytes of a read have come. In the loop of `delayed_read_while_reading` the reader is set to work
again, but there is nothing for it to do if the connection is over. -/
theorem readComplete_ends {call : Calls} {inLoop : Bool} (hcall : Respects inLoop call) {c : Connection}
    {bytes : List UInt8} (h : Good inLoop c) (hover : ¬ c.name.Over) (hheader : c.AwaitsHeader → HasPlugin c) :
    Ends Rest Once (Reader.readComplete call bytes inLoop c) := by
  refine Reader.readComplete_rule (callReadCallback_ends hcall (c := { c with buffer := c.buffer ++ bytes }) h
    (fun ho => absurd ho hover) fun _ => hheader) (fun hloop c1 h1 => ?_)
    fun _ c1 h1 => Keeps.rest (hcall .readerDelayed c1 h1.1)
  by_cases hover1 : c1.name.Over
  · exact Reader.delayedReadWhileReading_rule
      (fun hqueued => absurd hqueued (by simp [h1.1.1.unqueued hloop hover1]))
      fun _ => .inr (h1.1.1.ended hover1 (r := .enabled) (by simp))
  · exact Keeps.rest (delayedReadWhileReading_ends hcall h1.1 hover1)

theorem acceptSocket_ends {call : Calls} (hcall : Respects loop call) {c : Connection} (h : Good loop c)
    (hname : c.name = .initialized) : Ends Rest Once (c.acceptSocket call) := by
  have hgood : Good loop (Machine.transitionTo .waitingOnClientNegotiationRequest c) :=
    h.1.moveUp (up_of_name hname id) id
  exact acceptSocket_rule
    (enableIo_ends hcall (c := { Machine.transitionTo .waitingOnClientNegotiationRequest c with
      socket := .accepted }) ⟨hgood.1.live id _ (by simp) _, hgood.2⟩ id)
    fun c1 h1 => Keeps.rest (hcall .negotiatorWait c1 h1.1.1)

/-- What a step does to a connection that is not over. -/
theorem Good.step {c : Connection} (h : Good false c) (hover : ¬ c.name.Over) {i : Stimulus}
    (hstays : c.StaysOver i) (d : FrameDecoders) (depth : Nat) : Ends Rest Once (c.step d depth i) := by
  have harm : Good false (c.arm i) :=
    ⟨{ h.1 with
      noFailure := fun hl => by cases hl
      unqueued := fun hl => by cases hl }, h.2⟩
  have hfree : Free false (c.arm i) := fun hl => by cases hl
  have hlive : Live false (c.arm i) := ⟨harm, hfree, hover⟩
  have hrefl : Ends Rest Once (.ok (c.arm i)) := harm.rest
  have hcall : Respects false (calls d depth) := calls_respects d depth
  by_cases hdestroyed : (c.arm i).destroyed = true
  · rw [Connection.step, Connection.handle_destroyed hdestroyed]
    exact hrefl
  have hbelow : ¬ c.FailsBelow i := (hstays hdestroyed).2
  have hlive' : Live false { c.arm i with connectWatcher := false } :=
    hlive.socket (s := (c.arm i).socket) h.1.resolved false
  refine handle_rule harm.rest
    (fun lookup _ _ => connectTo_rule
      (fun _ => Keeps.rest (hcall (.connectionConnect lookup) (c.arm i) ⟨harm, hfree⟩))
      fun _ => Keeps.rest (hcall .connectionFail (c.arm i) hlive))
    (fun _ hname _ => acceptSocket_ends hcall harm hname)
    (fun _ => Keeps.rest (hcall .connectionShutdown (c.arm i) ⟨harm, hfree⟩))
    (fun _ _ _ => Socket.connectEvent_rule
      (Keeps.rest (hcall .socketDone { c.arm i with connectWatcher := false } hlive'))
      (Keeps.rest (connectionAttemptFailed_ends hcall hlive')))
    (fun bytes inLoop hi _ hreading hlength => ?_)
    (fun _ _ _ => Keeps.rest (readEof_ends hcall harm hover fun _ => hfree))
    (fun _ _ => Keeps.rest (hcall .readerFail (c.arm i) ⟨harm, hover, rfl⟩))
    (fun _ _ => Keeps.rest (hcall .writerContinue (c.arm i) hlive))
    fun readIdle writeIdle _ _ => Keeps.rest (hcall (.connectionTimeout readIdle writeIdle) (c.arm i) hlive)
  have hfails : ¬ (inLoop = true ∧ (.error ∈ i.writes ∨ .error ∈ i.reads ∨ .eof true ∈ i.reads) ∨
      c.AwaitsHeader ∧ c.plugins = [] ∧ .error ∈ i.writes) := fun hf => hbelow (by
    unfold Connection.FailsBelow
    rw [hi]
    exact ⟨hreading, hlength, hf⟩)
  have hgood : Good inLoop (c.arm i) := by
    refine ⟨{ h.1 with
      noFailure := fun hl => ⟨fun hm => ?_, fun hm => ?_, fun hm => ?_⟩
      unqueued := fun _ ho => absurd ho hover }, h.2⟩
    · exact hfails (.inl ⟨hl, .inl hm⟩)
    · exact hfails (.inl ⟨hl, .inr (.inl hm)⟩)
    · exact hfails (.inl ⟨hl, .inr (.inr hm)⟩)
  exact readComplete_ends (calls_respects d depth) hgood hover fun hawaits herror hplugins =>
    hfails (.inr ⟨hawaits, hplugins, herror⟩)

theorem Rest.step {c : Connection} (h : Rest c) {i : Stimulus} (hstays : c.StaysOver i) (d : FrameDecoders)
    (depth : Nat) : Ends Rest Once (c.step d depth i) := by
  rcases h with h | h
  · exact h.1.step h.2 hstays d depth
  · exact (h.step hstays d depth).mono (fun _ h' => .inr h'.1) fun _ he => he

theorem Rest.once {c : Connection} (h : Rest c) : halts c.trace ≤ 1 := by
  rcases h with h | h
  · exact h.1.1.once
  · exact h.once

theorem create_good (protocols : Protocols) (maxFrameSize idleTimeOut : Nat) (plugins : List SaslPlugin)
    (accepted : Bool) :
    Good false (Connection.create protocols maxFrameSize idleTimeOut plugins accepted) := by
  refine ⟨⟨rfl, ?_, ?_, ?_, ?_, ?_, ?_, ?_, ?_, ?_⟩, ?_⟩
  all_goals simp [Connection.create, ConnectionState.Over, ConnectionState.Down, Passing]

end Halt

end Amqp
