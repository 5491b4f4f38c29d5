import LibAmqp.Connection.Proof.MachineRules

/-!
# How deep the calls of a connection are

The functions of a connection call each other in circles, but not for long: a connection that comes to
its end goes from `stopping_output` through `draining_input` to `stopping`, and what is read at the end
of the stream has no bytes to be answered. `rank` is how deep a call goes at most, itself included; only
the addresses of a name lookup are tried one within the other.

* `run_in_time`: no run needs deeper calls than `callDepth` and one for each address.
-/

namespace Amqp

open Lib

/-- The depth that is enough for any call, but for the addresses. -/
def callDepth : Nat := 26

/-- The addresses that a call is given. -/
def Action.lookup : Action → Nat
  | .connectionConnect lookup | .socketConnect lookup => lookup.getD 0
  | _ => 0

namespace Depth

/-- A failure takes the connection down; one that is drained already has no more to do. -/
def failRank (name : ConnectionState) : Nat := if name = .drainingInput then 3 else 9

/-- A read that finds the end of the stream. A frame whose body is being read should have one
(`framed`), and who is told of a shutdown may close the AMQP connection first (`closes`). -/
def endRank (closes framed : Bool) : ReadCallback → Nat
  | .negotiator => 14
  | .frameReader => if framed then if closes then 14 else 10 else 21
  | .connection => 3

/-- A read that has bytes. -/
def bytesRank : ReadCallback → Nat
  | .negotiator => 26
  | .frameReader => 21
  | .connection => 6

/-- The depth of a call in a state of the connection. -/
def rankIn (name : ConnectionState) (closes framed stopping : Bool) (addresses : Nat) : Action → Nat
  | .connectionConnect lookup => 22 + lookup.getD 0
  | .connectionBegin _ => 24
  | .connectionReject _ => 22
  | .connectionDone => match name with
    | .stopping | .timeout => 1
    | .stoppingOutput => 6
    | _ => 18
  | .connectionFail => failRank name
  | .connectionShutdown => if closes then 13 else 9
  | .connectionTimeout _ _ => 13
  | .shutdownDrain | .shutdownClose => 8
  | .socketConnect lookup => 21 + lookup.getD 0
  | .socketTryConnect => 20 + addresses
  | .socketDone => 19
  | .socketFail => 10
  | .socketShutdown => match name with
    | .stopping | .timeout => 2
    | _ => 19
  | .writerWrite _ => 11
  | .writerContinue => 20
  | .writerComplete => if stopping then 19 else 1
  | .writerStop => if name = .stoppingOutput then 7 else 19
  | .writerFail => 10
  | .readerCommence _ callback => max (endRank closes framed callback) (failRank name + 1) + 1
  | .readerDelayed => 22
  | .readerFail => failRank name + 1
  | .readDone callback _ amount => if amount = 0 then endRank closes framed callback else bytesRank callback
  | .negotiatorStart _ _ _ | .negotiatorWait => 16
  | .negotiatorSend _ _ => 21
  | .confirmCallback => 20
  | .rejectCallback _ => 10
  | .requestCallback _ => 25
  | .tlsConnect | .saslConnect | .tunnelConnect => 17
  | .saslAccept _ | .tunnelAccept _ => 23
  | .saslDone | .amqpSendOpen | .amqpWaitOnOpen => 17
  | .tunnelDone => 19
  | .frameRead _ => if closes then 16 else 12
  | .frameAvailable => 20
  | .frameDispatch _ => 19
  | .writerEnable | .writerAbort | .readerEnable | .readerReset | .readerStop | .negotiatorReset
  | .tlsAccept _ | .frameEnable => 1

def closes (c : Connection) : Bool := c.shutdown == .applicationCloseWhileOpened

def framed (c : Connection) : Bool :=
  c.frameReader != .readingFrameBody || decide (amqpFrameHeaderSizeInBytes < c.frameSize)

/-- How deep a call goes. -/
def rank (a : Action) (c : Connection) : Nat :=
  rankIn c.name (closes c) (framed c) (c.writer == .stopping) c.addresses a

/-- What is left to be tried. -/
def Within (k : Nat) (c : Connection) : Prop := c.addresses ≤ k

def pre (k : Nat) (a : Action) (c : Connection) : Prop := Within k c ∧ a.lookup ≤ k

/-- The last calls of a connection rely on the state it is in. -/
def post (k : Nat) : Action → Connection → Connection → Prop
  | .writerAbort, c, c' | .readerReset, c, c' | .readerStop, c, c' => Within k c' ∧ c'.name = c.name
  | _, _, c' => Within k c'

/-- The process does not end for want of depth. -/
def InTime (e : Crash) : Prop := e.fault ≠ .outOfFuel

/-- Calls whose rank is at most `n`. -/
def Respects (k n : Nat) (call : Calls) : Prop :=
  ∀ a c, pre k a c → rank a c ≤ n → Ends (post k a c) InTime (call a c)

/-! ## Bounds for any state -/

section Bounds

variable {name : ConnectionState} {closes framed stopping : Bool} {addresses : Nat}

theorem failRank_le : failRank name ≤ 9 := by
  unfold failRank
  split <;> decide

theorem le_failRank : 3 ≤ failRank name := by
  unfold failRank
  split <;> decide

theorem endRank_le {callback : ReadCallback} : endRank closes framed callback ≤ 21 := by
  unfold endRank
  repeat' split
  all_goals decide

theorem endRank_pos {callback : ReadCallback} : 0 < endRank closes framed callback := by
  unfold endRank
  repeat' split
  all_goals decide

/-- A header is read in any state. -/
theorem negotiatorRead_le {required n : Nat} (hn : 15 ≤ n) :
    rankIn name closes framed stopping addresses (.readerCommence required .negotiator) ≤ n := by
  have hfail : failRank name ≤ 9 := failRank_le
  dsimp only [rankIn, endRank]
  omega

/-- And a frame that has a body, if its body is being read. -/
theorem framedRead_le {required : Nat} :
    rankIn name closes true stopping addresses (.readerCommence required .frameReader) ≤ 15 := by
  have hfail : failRank name ≤ 9 := failRank_le
  dsimp only [rankIn, endRank]
  rw [if_pos rfl]
  split <;> omega

theorem bytesRank_pos {callback : ReadCallback} : 0 < bytesRank callback := by
  cases callback <;> decide

theorem rankIn_pos (a : Action) : 0 < rankIn name closes framed stopping addresses a := by
  unfold rankIn
  repeat' split
  all_goals first | omega | exact endRank_pos | exact bytesRank_pos | exact Nat.le_trans (by decide) le_failRank

theorem rankIn_done_le : rankIn name closes framed stopping addresses .connectionDone ≤ 18 := by
  dsimp only [rankIn]
  split <;> decide

theorem rankIn_shutdown_le : rankIn name closes framed stopping addresses .connectionShutdown ≤ 13 := by
  dsimp only [rankIn]
  split <;> decide

theorem le_rankIn_shutdown : 9 ≤ rankIn name closes framed stopping addresses .connectionShutdown := by
  dsimp only [rankIn]
  split <;> decide

theorem rankIn_readDone_le {callback : ReadCallback} {buffer : Bool} {amount : Nat} :
    rankIn name closes framed stopping addresses (.readDone callback buffer amount) ≤ 26 := by
  dsimp only [rankIn]
  split
  · exact Nat.le_trans endRank_le (by decide)
  · cases callback <;> decide

theorem rankIn_writerComplete_le : rankIn name closes framed stopping addresses .writerComplete ≤ 19 := by
  dsimp only [rankIn]
  split <;> decide

theorem rankIn_frameRead_le {callback : FrameCallback} :
    rankIn name closes framed stopping addresses (.frameRead callback) ≤ 16 := by
  dsimp only [rankIn]
  split <;> decide

end Bounds

/-! ## What each function needs -/

theorem post_within {k : Nat} {a : Action} {c c' : Connection} (h : post k a c c') : Within k c' := by
  cases a with
  | writerAbort => exact h.1
  | readerReset => exact h.1
  | readerStop => exact h.1
  | _ => exact h

/-- A call that is given no addresses. -/
theorem Respects.call {k n : Nat} {call : Calls} (hcall : Respects k n call) {a : Action} {c : Connection}
    (ha : a.lookup = 0) (h : Within k c) (hn : rank a c ≤ n) : Ends (Within k) InTime (call a c) :=
  (hcall a c ⟨h, ha ▸ Nat.zero_le k⟩ hn).mono (fun _ => post_within) fun _ he => he

/-- No function gives up for want of depth. -/
theorem inTime (c : Connection) : MayCrash InTime c := fun _ h => h

section Functions

variable {k n : Nat} {call : Calls} (hcall : Respects k n call) {c : Connection} (h : Within k c)

include hcall h

/-! The end of a connection. -/

/-- The socket is shut down in a state that does not last. -/
theorem socketShutdown_last (hn : 2 ≤ n) (hname : c.name = .stopping ∨ c.name = .timeout) :
    Ends (Within k) InTime (call .socketShutdown c) := by
  refine hcall.call rfl h ?_
  rw [rank]
  rcases hname with hname | hname
  · rw [hname]
    exact hn
  · rw [hname]
    exact hn

theorem stopActivity_ends (hn : 2 ≤ n) (hname : c.name = .stopping ∨ c.name = .timeout) :
    Ends (Within k) InTime (Machine.stopActivity call c) := by
  have h1 : 1 ≤ n := by omega
  refine Machine.stopActivity_rule (r := post k .writerAbort c) (s := post k .writerAbort c)
    (hcall .writerAbort c ⟨h, Nat.zero_le k⟩ h1) ?_ ?_
  · rintro c1 ⟨hc1, hname1⟩
    refine (hcall .readerStop c1 ⟨hc1, Nat.zero_le k⟩ h1).mono ?_ fun _ he => he
    exact fun c2 hc2 => ⟨hc2.1, hc2.2.trans hname1⟩
  · rintro c2 ⟨hc2, hname2⟩
    exact socketShutdown_last hcall hc2 hn (hname2 ▸ hname)

theorem stopInput_ends (hn : 2 ≤ n) : Ends (Within k) InTime (Machine.stopInput call c) := by
  have h1 : 1 ≤ n := by omega
  refine Machine.stopInput_rule (hcall .readerStop (Machine.transitionTo .stopping c) ⟨h, Nat.zero_le k⟩ h1) ?_
  rintro c1 ⟨hc1, hname⟩
  exact socketShutdown_last hcall hc1 hn (.inl hname)

theorem shutdownConnection_ends {m : ShutdownMode} (hn : 7 ≤ n) :
    Ends (Within k) InTime (Machine.shutdownConnection call m c) :=
  Machine.shutdownConnection_rule
    (fun _ => hcall.call (a := .writerStop) (c := Machine.transitionTo .stoppingOutput _) rfl h hn)
    fun _ => stopActivity_ends hcall (c := Machine.transitionTo .stopping _) h (by omega) (.inl rfl)

theorem doneWhileStoppingOutput_ends (hn : 5 ≤ n) :
    Ends (Within k) InTime (Machine.doneWhileStoppingOutput call c) := by
  refine Machine.doneWhileStoppingOutput_rule (inTime c) (fun _ => hcall .readerReset
    (Machine.drainInput { c with timer := true }) ⟨h, Nat.zero_le k⟩ (by show 1 ≤ n; omega)) ?_
    fun _ => stopInput_ends hcall h (by omega)
  rintro c1 ⟨hc1, hname⟩
  refine hcall.call rfl hc1 ?_
  rw [rank, hname]
  exact hn

theorem fail_ends (hn : rank .connectionFail c ≤ n + 1) : Ends (Within k) InTime (Machine.fail call c) := by
  refine Machine.fail_rule (inTime c) (fun hname => ?_) (fun _ => h) fun _ _ => ?_
  · refine hcall.call (a := .shutdownDrain) rfl h (Nat.le_of_succ_le_succ (Nat.le_trans ?_ hn))
    rcases hname with hname | hname | hname
    all_goals
      rw [rank, rank, hname]
      exact Nat.le_refl 9
  · refine Machine.shutdownConnection_rule (fun hm => ?_) fun _ => ?_
    · simp [Machine.Completes] at hm
    · refine stopActivity_ends hcall (c := Machine.transitionTo .stopping _) h ?_ (.inl rfl)
      exact Nat.le_of_succ_le_succ (Nat.le_trans le_failRank hn)

/-! The writer. -/

theorem continueWriteOperation_ends (hn : 10 ≤ n) (hcomplete : rank .writerComplete c ≤ n) :
    Ends (Within k) InTime (Writer.continueWriteOperation call c) :=
  Writer.continueWriteOperation_rule
    (hcall.call (a := .writerComplete) (c := { c with writes := c.writes.tail }) rfl h hcomplete) h
    fun _ => hcall.call (a := .writerFail) rfl h hn

theorem write_ends {m : Message} (hn : 10 ≤ n) : Ends (Within k) InTime (Writer.write call m c) :=
  Writer.write_rule (fun _ => inTime c) fun _ =>
    continueWriteOperation_ends hcall (c := { c with writer := .writing, trace := _ }) h hn
      (Nat.le_trans (by decide : 1 ≤ 10) hn)

theorem continueWrite_ends (hn : 19 ≤ n) : Ends (Within k) InTime (Writer.continueWrite call c) :=
  Writer.continueWrite_rule (inTime c) (fun _ => h) fun _ =>
    continueWriteOperation_ends hcall h (by omega) (Nat.le_trans rankIn_writerComplete_le hn)

theorem writerStop_ends (hn : rank .connectionDone c ≤ n) : Ends (Within k) InTime (Writer.writerStop call c) :=
  hcall.call (a := .connectionDone) (c := { Writer.writerCleanup c with stoppedCallback := false }) rfl h hn

theorem writeComplete_ends (hn : rank .writerComplete c ≤ n + 1) :
    Ends (Within k) InTime (Writer.writeComplete call c) := by
  refine Writer.writeComplete_rule (inTime c) (fun _ => h) fun hs => writerStop_ends hcall h ?_
  rw [rank, hs] at hn
  exact Nat.le_trans rankIn_done_le (Nat.le_of_succ_le_succ hn)

theorem stop_ends (hn : rank .writerStop c ≤ n + 1) : Ends (Within k) InTime (Writer.stop call c) := by
  have hdone : rank .connectionDone c < rank .writerStop c := by
    unfold rank
    dsimp only [rankIn]
    cases c.name <;> decide
  exact Writer.stop_rule (fun _ => writerStop_ends hcall h (by omega)) (fun _ => h)
    fun _ => hcall.call (a := .connectionDone) rfl h (by omega)

theorem writerFail_ends (hn : 9 ≤ n) : Ends (Within k) InTime (Writer.fail call c) :=
  Writer.fail_rule (inTime c) fun _ =>
    hcall.call (a := .connectionFail) (c := { c with writer := .failed }) rfl h (Nat.le_trans failRank_le hn)

/-! The reader. -/

theorem callReadCallback_ends {amount : Nat} (hn : ∀ callback, c.readCallback = some callback →
    rank (.readDone callback c.readQueued amount) c ≤ n) :
    Ends (Within k) InTime (Reader.callReadCallback call amount c) :=
  Reader.callReadCallback_rule (inTime c) fun callback hc =>
    hcall.call (a := .readDone callback c.readQueued amount)
      (c := { c with readCallback := none, readQueued := false }) rfl h (hn callback hc)

/-- A read that may find the end of the stream. -/
theorem readEof_ends {isPartial : Bool} (hfail : failRank c.name ≤ n)
    (hend : ∀ callback, c.readCallback = some callback → endRank (closes c) (framed c) callback ≤ n) :
    Ends (Within k) InTime (Reader.readEof call isPartial c) :=
  Reader.readEof_rule
    (fun _ => hcall.call (a := .connectionFail) (c := { c with reader := .failed }) rfl h hfail)
    (callReadCallback_ends hcall (c := { c with reader := .eof }) h hend)

theorem readWhatIsBuffered_ends (hfail : failRank c.name < n)
    (hend : ∀ callback, c.readCallback = some callback → endRank (closes c) (framed c) callback ≤ n) :
    Ends (Within k) InTime (Reader.readWhatIsBuffered call c) :=
  Reader.readWhatIsBuffered_rule (inTime c) h
    (fun _ _ => readEof_ends hcall (c := { c with reads := c.reads.tail }) h (Nat.le_of_lt hfail) hend)
    fun _ => hcall.call (a := .readerFail) (c := { c with reads := c.reads.tail }) rfl h hfail

theorem commenceRead_ends {required : Nat} {callback : ReadCallback}
    (hn : rank (.readerCommence required callback) c ≤ n + 1) :
    Ends (Within k) InTime (Reader.commenceRead call required callback c) := by
  obtain ⟨hend, hfail⟩ := Nat.max_le.1 (Nat.le_of_succ_le_succ hn)
  refine Reader.commenceRead_rule (inTime c) (fun _ => ?_) (fun _ _ _ => h) fun _ => ?_
  · refine readWhatIsBuffered_ends hcall
      (c := Reader.queueReadOperation required callback { c with reader := .reading }) h hfail ?_
    rintro callback' ⟨rfl⟩
    exact hend
  · refine callReadCallback_ends hcall
      (c := { c with reader := .eofAlerted, readCallback := some callback }) h ?_
    rintro callback' ⟨rfl⟩
    exact hend

theorem delayedReadWhileReading_ends (hn : 21 ≤ n) :
    Ends (Within k) InTime (Reader.delayedReadWhileReading call c) :=
  Reader.delayedReadWhileReading_rule
    (fun _ => readWhatIsBuffered_ends hcall (c := { c with reader := .reading }) h
      (Nat.lt_of_le_of_lt failRank_le (by omega)) fun _ _ => Nat.le_trans endRank_le hn)
    fun _ => h

theorem readerFail_ends (hn : failRank c.name ≤ n) : Ends (Within k) InTime (Reader.fail call c) :=
  Reader.fail_rule (inTime c) fun _ =>
    hcall.call (a := .connectionFail) (c := { c with reader := .failed }) rfl h hn

/-! The socket. -/

theorem connectionAttemptFailed_ends (hn : 20 + c.addresses ≤ n) :
    Ends (Within k) InTime (Socket.connectionAttemptFailed call c) :=
  Socket.connectionAttemptFailed_rule (fun _ => hcall.call (a := .socketTryConnect) rfl h hn)
    (hcall.call (a := .socketFail) rfl h (by show 10 ≤ n; omega))

/-- Each address is tried within the call for the one before. -/
theorem tryConnect_ends (hn : 19 + c.addresses ≤ n) : Ends (Within k) InTime (Socket.tryConnect call c) := by
  have hrest : c.addresses - 1 ≤ k := Nat.le_trans (Nat.sub_le _ _) h
  refine Socket.tryConnect_rule (inTime c) (fun _ hne => ?_) (fun _ => ?_) fun _ => hrest
  · refine connectionAttemptFailed_ends hcall (c := { c with addresses := c.addresses - 1, connects := _ }) hrest ?_
    show 20 + (c.addresses - 1) ≤ n
    omega
  · exact hcall.call (a := .socketDone) (c := { c with addresses := c.addresses - 1, connects := _ }) rfl hrest
      (by show 19 ≤ n; omega)

theorem socketConnect_ends {lookup : Option Nat} (hlookup : lookup.getD 0 ≤ k) (hn : 20 + lookup.getD 0 ≤ n) :
    Ends (Within k) InTime (Socket.connect call lookup c) := by
  refine Socket.connect_rule (inTime c) (fun _ _ => ?_) ?_
  · exact hcall.call (a := .socketFail) (c := { c with socket := .resolving, hostname := true }) rfl h
      (by show 10 ≤ n; omega)
  · rintro _ m rfl
    exact hcall.call (a := .socketTryConnect)
      (c := { c with socket := .connecting, hostname := true, addresses := m }) rfl hlookup hn

omit h in
theorem socketDone_ends (hn : 18 ≤ n) : Ends (Within k) InTime (Socket.done call c) :=
  Socket.done_rule (inTime c) fun _ => hcall.call (a := .connectionDone)
    (c := { c with socket := .connected, addresses := 0 }) rfl (Nat.zero_le k) (Nat.le_trans rankIn_done_le hn)

omit h in
theorem socketFail_ends (hn : 9 ≤ n) : Ends (Within k) InTime (Socket.fail call c) :=
  Socket.fail_rule (inTime c) fun _ => hcall.call (a := .connectionFail)
    (c := { c with socket := .failed, connectWatcher := false, addresses := 0 }) rfl (Nat.zero_le k)
    (Nat.le_trans failRank_le hn)

theorem socketShutdown_ends (hn : rank .socketShutdown c ≤ n + 1) :
    Ends (Within k) InTime (Socket.shutdown call c) := by
  have hdone : rank .connectionDone c < rank .socketShutdown c := by
    unfold rank
    dsimp only [rankIn]
    cases c.name <;> decide
  exact Socket.shutdown_rule (fun _ => h) fun _ => hcall.call (a := .connectionDone)
    (c := { c with socket := .stopped, connectWatcher := false, addresses := 0 }) rfl (Nat.zero_le k)
    (Nat.le_of_lt_succ (Nat.lt_of_lt_of_le hdone hn))

/-! The shutdown of a connection. -/

theorem beginConnectionClose_ends (hn : 12 ≤ n) :
    Ends (Within k) InTime (AmqpConnection.beginConnectionClose call c) :=
  AmqpConnection.beginConnectionClose_rule
    (hcall.call (a := .writerWrite .amqpClose) rfl h (by show 11 ≤ n; omega))
    fun c1 h1 => hcall.call (a := .frameRead .amqp)
      (c := AmqpConnection.transitionToCloseSent { c1 with timer := true }) rfl h1 hn

theorem shutdown_ends (hn : rank .connectionShutdown c ≤ n + 1) :
    Ends (Within k) InTime (Machine.shutdown call c) := by
  refine Machine.shutdown_rule (fun hs => ?_) (fun _ => h) fun hs => ?_
  · rw [rank, closes, hs] at hn
    exact hcall.call (a := .shutdownClose) rfl h (Nat.le_of_succ_le_succ hn)
  · rw [rank, closes, hs] at hn
    exact beginConnectionClose_ends hcall h (Nat.le_of_succ_le_succ hn)

theorem timeout_ends {readIdle writeIdle : Bool} (hn : 12 ≤ n) :
    Ends (Within k) InTime (Machine.timeout call readIdle writeIdle c) :=
  Machine.timeout_rule (fun _ => inTime c)
    (fun _ => stopActivity_ends hcall (c := Machine.transitionTo .timeout c) h (by omega) (.inr rfl))
    (fun _ _ => beginConnectionClose_ends hcall h hn)
    (fun _ => hcall.call (a := .writerWrite .emptyFrame) rfl h (by show 11 ≤ n; omega)) (fun _ => h)
    (fun _ => hcall.call (a := .shutdownDrain) (c := AmqpConnection.transitionToClosed c) rfl h
      (by show 8 ≤ n; omega))
    fun _ => hcall.call (a := .shutdownClose) rfl h (by show 8 ≤ n; omega)

theorem readDoneWhileDraining_ends {buffer : Bool} {amount : Nat}
    (hn : rank (.readDone .connection buffer amount) c ≤ n + 1) :
    Ends (Within k) InTime (Machine.readDoneWhileDrainingInput call buffer amount c) := by
  refine Machine.readDoneWhileDrainingInput_rule (inTime c) (fun h0 => ?_) fun h0 => ?_
  · rw [rank, rankIn, if_neg h0] at hn
    exact hcall.call (a := .readerCommence Reader.capacity .connection) (c := Machine.drainInput c) rfl h
      (Nat.le_of_succ_le_succ hn)
  · rw [rank, rankIn, if_pos h0] at hn
    exact stopInput_ends hcall h (Nat.le_of_succ_le_succ hn)

/-! The negotiator. -/

theorem negotiatorStart_ends {version : Nat} {confirm : ConfirmCallback} {reject : RejectCallback}
    (hn : 15 ≤ n) : Ends (Within k) InTime (Negotiator.start call version confirm reject c) :=
  Negotiator.start_rule (inTime c)
    (fun _ => hcall.call (a := .writerWrite (.header version)) (c := { c with
      preferredVersion := version, confirm := some confirm, rejectCallback := some reject,
      request := false }) rfl h (by show 11 ≤ n; omega))
    fun c1 h1 => hcall.call (a := .readerCommence _ .negotiator)
      (c := { c1 with negotiator := .waitingForBrokerResponse }.resetBuffer) rfl h1 (negotiatorRead_le hn)

theorem negotiatorWait_ends (hn : 15 ≤ n) : Ends (Within k) InTime (Negotiator.wait call c) :=
  Negotiator.wait_rule (inTime c) fun _ => hcall.call (a := .readerCommence _ .negotiator) (c := { c with
    negotiator := .waitingOnClientRequest, preferredVersion := 0, confirm := none, rejectCallback := none,
    request := true }) rfl h (negotiatorRead_le hn)

theorem negotiatorSend_ends {version : Nat} {confirm : ConfirmCallback} (hn : 20 ≤ n) :
    Ends (Within k) InTime (Negotiator.send call version confirm c) :=
  Negotiator.send_rule (fun _ => inTime c)
    (fun _ => hcall.call (a := .writerWrite (.header version)) (c := { c with
      preferredVersion := version, confirm := some confirm, rejectCallback := none, request := false })
      rfl h (by show 11 ≤ n; omega))
    fun c1 h1 => hcall.call (a := .confirmCallback) (c := { c1 with negotiator := .negotiated }) rfl h1 hn

theorem negotiatorReadDone_ends {buffer : Bool} {amount : Nat}
    (hn : rank (.readDone .negotiator buffer amount) c ≤ n + 1) :
    Ends (Within k) InTime (Negotiator.readDone call buffer amount c) := by
  have hbytes : amount ≠ 0 → 25 ≤ n := fun h0 => by
    rw [rank, rankIn, if_neg h0] at hn
    exact Nat.le_of_succ_le_succ hn
  refine Negotiator.readDone_rule (inTime c) (fun h0 _ => ?_) (fun h0 _ _ => ?_) (fun h0 _ _ => ?_) fun h0 _ => ?_
  · rw [rank, rankIn, if_pos h0] at hn
    exact hcall.call (a := .connectionShutdown) (c := { c with negotiator := .failed }) rfl h
      (Nat.le_trans rankIn_shutdown_le (Nat.le_of_succ_le_succ hn))
  · have := hbytes h0
    exact hcall.call (a := .confirmCallback)
      (c := { Negotiator.consumeHeader c with negotiator := .negotiated }) rfl h (by show 20 ≤ n; omega)
  · have := hbytes h0
    exact hcall.call (a := .rejectCallback _)
      (c := { Negotiator.consumeHeader c with negotiator := .rejected }) rfl h (by show 10 ≤ n; omega)
  · exact hcall.call (a := .requestCallback _)
      (c := { Negotiator.consumeHeader c with negotiator := .waitingToSendServerResponse }) rfl h (hbytes h0)

omit hcall in
theorem negotiatorReset_ends : Ends (Within k) InTime (Negotiator.reset c) :=
  Negotiator.reset_rule (inTime c) (fun _ => h) fun _ => h

/-! The way up. -/

theorem startNextProtocol_ends (hn : 17 ≤ n) : Ends (Within k) InTime (Machine.startNextProtocol call c) :=
  Machine.startNextProtocol_rule
    (fun _ => hcall.call (a := .tlsConnect)
      (c := { Machine.transitionTo .connectingTls c with handshake := _ }) rfl h hn)
    (fun _ _ => hcall.call (a := .saslConnect)
      (c := { Machine.transitionTo .connectingSasl c with handshake := _ }) rfl h hn)
    (fun _ _ => hcall.call (a := .tunnelConnect)
      (c := { Machine.transitionTo .connectingAmqp c with handshake := _ }) rfl h hn)
    (hcall.call (a := .connectionFail) rfl h (Nat.le_trans failRank_le (by omega)))

theorem enableIo_ends (hn : 1 ≤ n) : Ends (Within k) InTime (Machine.enableIo call c) :=
  Machine.enableIo_rule (hcall.call (a := .readerEnable) rfl h hn)
    fun _ h1 => hcall.call (a := .writerEnable) rfl h1 hn

theorem doneWhileAcceptingTls_ends (hn : 16 ≤ n) :
    Ends (Within k) InTime (Machine.doneWhileAcceptingTls call c) :=
  Machine.doneWhileAcceptingTls_rule
    (hcall.call (a := .negotiatorReset) (c := Machine.transitionTo .waitingOnTlsTunnelledRequest c) rfl h
      (by show 1 ≤ n; omega))
    fun _ h1 => (hcall.call (a := .negotiatorWait) rfl h1 hn).mono (fun c2 _ => inTime c2) fun _ he => he

theorem done_ends (hn : rank .connectionDone c ≤ n + 1) : Ends (Within k) InTime (Machine.done call c) := by
  have hup : ∀ name, c.name = name → rankIn name (closes c) (framed c) (c.writer == .stopping) c.addresses
      .connectionDone = 18 → 17 ≤ n := by
    rintro name hs h18
    rw [rank, hs, h18] at hn
    exact Nat.le_of_succ_le_succ hn
  refine Machine.done_rule (r := fun c1 => Within k c1 ∧ 17 ≤ n) (s := fun c1 => Within k c1 ∧ 17 ≤ n)
    (inTime c) (fun hs => ?_) (fun c1 h1 => ?_) (fun hs => ?_) (fun hs => ?_) (fun hs => ?_) (fun hs => ?_)
    (fun hs => ?_) (fun hs => ?_) (fun c1 h1 => ?_) (fun hs => ?_) (fun hs => ?_) (fun _ => h) fun _ => h
  · have h17 := hup _ hs rfl
    exact (enableIo_ends hcall h (by omega)).mono (fun _ h1 => ⟨h1, h17⟩) fun _ he => he
  · exact startNextProtocol_ends hcall (c := { c1 with handshake := c1.protocols }) h1.1 h1.2
  · exact startNextProtocol_ends hcall h (hup _ hs rfl)
  · exact startNextProtocol_ends hcall (c := { c with saslConnected := true }) h (hup _ hs rfl)
  · exact hcall.call (a := .amqpSendOpen)
      (c := Machine.transitionTo .amqpTunnelEstablished { c with isClient := true }) rfl h (hup _ hs rfl)
  · exact hcall.call (a := .shutdownDrain) rfl h (Nat.le_trans (by decide : 8 ≤ 17) (hup _ hs rfl))
  · have h17 := hup _ hs rfl
    exact doneWhileAcceptingTls_ends hcall h (by omega)
  · have h17 := hup _ hs rfl
    exact (hcall.call (a := .negotiatorReset)
      (c := { Machine.transitionTo .waitingOnAmqpNegotiationRequest c with saslConnected := true }) rfl h
      (by show 1 ≤ n; omega)).mono (fun _ h1 => ⟨h1, h17⟩) fun _ he => he
  · exact hcall.call (a := .negotiatorWait) rfl h1.1 (Nat.le_trans (by decide : 16 ≤ 17) h1.2)
  · exact hcall.call (a := .amqpWaitOnOpen) (c := Machine.transitionTo .tunnelAccepted c) rfl h (hup _ hs rfl)
  · rw [rank, hs] at hn
    exact doneWhileStoppingOutput_ends hcall h (Nat.le_of_succ_le_succ hn)

theorem connect_ends {lookup : Option Nat} (hlookup : lookup.getD 0 ≤ k) (hn : 21 + lookup.getD 0 ≤ n) :
    Ends (Within k) InTime (Machine.connect call lookup c) :=
  Machine.connect_rule (inTime c) fun _ => (hcall (.socketConnect lookup)
    (Machine.transitionTo .connectingSocket c) ⟨h, hlookup⟩ hn).mono (fun _ => id) fun _ he => he

/-! The server. -/

theorem rejectProtocolVersion_ends {version : Nat} (hn : 21 ≤ n) :
    Ends (Within k) InTime (Machine.rejectProtocolVersion call version c) :=
  hcall.call (a := .negotiatorSend version .connectionDone) (c := Machine.transitionTo .sendingErrorMessage c)
    rfl h hn

theorem begin_ends {version : Nat} (hn : 23 ≤ n) : Ends (Within k) InTime (Machine.begin call version c) :=
  Machine.begin_rule (fun _ => inTime c) fun accepted _ => Machine.establish_rule
    (fun _ => rejectProtocolVersion_ends hcall h (by omega))
    (fun _ _ => hcall.call (a := .tlsAccept version) (c := Machine.transitionTo .acceptingTls c) rfl h
      (by show 1 ≤ n; omega))
    (fun _ _ => hcall.call (a := .saslAccept version) (c := Machine.transitionTo .acceptingSasl c) rfl h hn)
    fun _ _ => hcall.call (a := .tunnelAccept version) (c := Machine.transitionTo .acceptingAmqp c) rfl h hn

theorem reject_ends {version : Nat} (hn : 21 ≤ n) : Ends (Within k) InTime (Machine.reject call version c) :=
  Machine.reject_rule (fun _ => inTime c) fun _ => rejectProtocolVersion_ends hcall h hn

/-! SASL and the tunnel. -/

theorem saslConnect_ends (hn : 16 ≤ n) : Ends (Within k) InTime (Sasl.connect call c) :=
  Sasl.connect_rule (inTime c) (fun _ => hcall.call (a := .negotiatorReset) rfl h (by show 1 ≤ n; omega))
    fun c1 h1 => hcall.call (a := .negotiatorStart _ .saslVersionAccepted .saslVersionRejected) rfl h1 hn

theorem saslAccept_ends {version : Nat} (hn : 22 ≤ n) : Ends (Within k) InTime (Sasl.accept call version c) :=
  Sasl.accept_rule (fun _ => inTime c)
    (fun _ _ => hcall.call (a := .connectionReject _) (c := { c with sasl := .failed }) rfl h hn)
    fun _ _ => hcall.call (a := .negotiatorSend _ .saslBrokerVersionSent)
      (c := { c with sasl := .sendingHeaderResponse }) rfl h (by show 21 ≤ n; omega)

theorem tunnelConnect_ends (hn : 16 ≤ n) : Ends (Within k) InTime (AmqpTunnel.connect call c) :=
  AmqpTunnel.connect_rule (inTime c) (fun _ => hcall.call (a := .negotiatorReset) rfl h (by show 1 ≤ n; omega))
    fun c1 h1 => hcall.call (a := .negotiatorStart _ .amqpVersionAccepted .amqpVersionRejected) rfl h1 hn

theorem tunnelAccept_ends {version : Nat} (hn : 22 ≤ n) :
    Ends (Within k) InTime (AmqpTunnel.accept call version c) :=
  AmqpTunnel.accept_rule (fun _ => inTime c)
    (fun _ _ => hcall.call (a := .connectionReject _) (c := { c with amqpTunnel := .failed }) rfl h hn)
    fun _ _ => hcall.call (a := .negotiatorSend _ .amqpDone)
      (c := { c with amqpTunnel := .sendingHeaderResponse }) rfl h (by show 21 ≤ n; omega)

theorem tunnelDone_ends (hn : 18 ≤ n) : Ends (Within k) InTime (AmqpTunnel.done call c) :=
  AmqpTunnel.done_rule (inTime c) fun _ => hcall.call (a := .connectionDone)
    (c := { c with amqpTunnel := .negotiated }) rfl h (Nat.le_trans rankIn_done_le hn)

/-- A frame is asked for. -/
theorem frameRead_call {callback : FrameCallback} (hn : 16 ≤ n) :
    Ends (Within k) InTime (call (.frameRead callback) c) :=
  hcall.call rfl h (Nat.le_trans rankIn_frameRead_le hn)

theorem saslDone_ends (hn : 16 ≤ n) : Ends (Within k) InTime (Sasl.done call c) :=
  Sasl.done_rule (inTime c)
    (fun _ _ => hcall.call (a := .connectionFail) rfl h (Nat.le_trans failRank_le (by omega)))
    (fun _ => hcall.call (a := .writerWrite .saslMechanisms) rfl h (by show 11 ≤ n; omega))
    (fun c1 h1 => hcall.call (a := .frameEnable) (c := { c1 with sasl := .waitingOnSaslInitialResponseFrame })
      rfl h1 (by show 1 ≤ n; omega))
    fun c2 h2 => frameRead_call hcall h2 hn

theorem confirm_ends {d : FrameDecoders} (hn : 19 ≤ n) :
    Ends (Within k) InTime (dispatch d call .confirmCallback c) :=
  have hdone : ∀ c1 : Connection, Within k c1 → Ends (Within k) InTime (call .connectionDone c1) :=
    fun _ h1 => hcall.call rfl h1 (Nat.le_trans rankIn_done_le (by omega))
  confirmCallback_rule (inTime c)
    (fun _ => hcall.call (a := .frameEnable) (c := { c with sasl := .waitingOnSaslMechanisms }) rfl h
      (by show 1 ≤ n; omega))
    (fun c1 h1 => frameRead_call hcall h1 (by omega)) (fun _ => hdone _ h)
    (fun _ => hcall.call (a := .saslDone) rfl h (by show 17 ≤ n; omega))
    (fun _ => hcall.call (a := .tunnelDone) rfl h hn) fun _ => hdone c h

theorem rejectCallback_ends {d : FrameDecoders} {version : Nat} (hn : 9 ≤ n) :
    Ends (Within k) InTime (dispatch d call (.rejectCallback version) c) :=
  rejectCallback_rule (inTime c)
    (fun _ => hcall.call (a := .connectionFail) (c := { c with sasl := .failed }) rfl h
      (Nat.le_trans failRank_le hn))
    fun _ => hcall.call (a := .connectionFail) (c := { c with amqpTunnel := .failed }) rfl h
      (Nat.le_trans failRank_le hn)

/-! Frames. -/

theorem frameRead_ends {callback : FrameCallback} (hn : rank (.frameRead callback) c ≤ n + 1) :
    Ends (Within k) InTime (FrameReader.read call callback c) := by
  refine FrameReader.read_rule (inTime c) (fun _ => ?_) fun _ => h
  refine hcall.call (a := .readerCommence _ .frameReader) (c := { c.resetBuffer with
    frameReader := .readingFrameHeader, frameCallback := some callback }) rfl h ?_
  have hfail : failRank c.name ≤ 9 := failRank_le
  change (if closes c then 16 else 12) ≤ n + 1 at hn
  change max (if closes c then 14 else 10) (failRank c.name + 1) + 1 ≤ n
  split at hn
  · next hc =>
    rw [if_pos hc]
    omega
  · next hc =>
    rw [if_neg hc]
    omega

omit hcall in
theorem frameEnable_ends : Ends (Within k) InTime (FrameReader.enable c) :=
  FrameReader.enable_rule (fun _ => h) fun _ => h

/-- When nothing was read, no frame is there. -/
theorem frameReadDone_ends {buffer : Bool} {amount : Nat}
    (hn : rank (.readDone .frameReader buffer amount) c ≤ n + 1) :
    Ends (Within k) InTime (FrameReader.readDone call amount c) := by
  change (if amount = 0 then if framed c then if closes c then 14 else 10 else 21 else 21) ≤ n + 1 at hn
  have hbytes : amount ≠ 0 ∨ framed c = false → 20 ≤ n := by
    rintro (h0 | hf)
    · rw [if_neg h0] at hn
      omega
    · rw [hf] at hn
      split at hn <;> exact Nat.le_of_succ_le_succ hn
  have hend : rank .connectionShutdown c ≤ n := by
    change (if closes c then 13 else 9) ≤ n
    split
    · next hc =>
      rw [if_pos hc] at hn
      repeat' split at hn
      all_goals omega
    · repeat' split at hn
      all_goals omega
  have h9 : 9 ≤ n := Nat.le_trans le_rankIn_shutdown hend
  have hfail : ∀ c1 : Connection, Within k c1 → Ends (Within k) InTime (call .connectionFail c1) :=
    fun _ h1 => hcall.call rfl h1 (Nat.le_trans failRank_le h9)
  have h8 : amqpFrameHeaderSizeInBytes ≠ 0 := by decide
  refine FrameReader.readDone_rule (inTime c) (fun _ _ => hcall.call (a := .connectionShutdown) rfl h hend)
    (fun _ _ _ => hfail c h) (fun _ _ _ => hfail { c with frameSize := _ } h) (fun _ hamount _ _ => ?_)
    (fun _ hamount hr hs => ?_) (fun _ _ => hfail c h) fun hs hamount => ?_
  · exact hcall.call (a := .frameAvailable) (c := { c with frameSize := _, frameReader := .enabled }) rfl h
      (hbytes (.inl (hamount ▸ h8)))
  · -- the body is not empty
    have hframed : framed { c with frameSize := FrameReader.announcedSize c, frameReader := .readingFrameBody } =
        true := by
      have hlt : amqpFrameHeaderSizeInBytes < FrameReader.announcedSize c := by
        unfold FrameReader.RefusesSize at hr
        omega
      simpa [framed] using hlt
    refine hcall.call (a := .readerCommence _ .frameReader)
      (c := { c with frameSize := _, frameReader := .readingFrameBody }) rfl h
      (Nat.le_trans (?_ : _ ≤ 15) (Nat.le_trans (by decide) (hbytes (.inl (hamount ▸ h8)))))
    rw [rank, hframed]
    exact framedRead_le
  · refine hcall.call (a := .frameAvailable) (c := { c with frameReader := .enabled }) rfl h (hbytes ?_)
    by_cases h0 : amount = 0
    · refine .inr ?_
      have hle : c.frameSize ≤ amqpFrameHeaderSizeInBytes := by omega
      simpa [framed, hs] using hle
    · exact .inl h0

theorem mechanismsFrame_ends {names : List (List UInt8)} (hn : 16 ≤ n) :
    Ends (Within k) InTime (Sasl.mechanismsFrame call names c) := by
  have hfail : ∀ c1 : Connection, Within k c1 → Ends (Within k) InTime (call .connectionFail c1) :=
    fun _ h1 => hcall.call rfl h1 (Nat.le_trans failRank_le (by omega))
  exact Sasl.mechanismsFrame_rule (inTime c) (fun _ => hfail c.frameCleanup h)
    (fun _ plugin => hfail { c with plugin := plugin } h)
    (fun _ plugin _ => hcall.call (a := .writerWrite .saslInit) (c := { c with plugin := some plugin }) rfl h
      (by show 11 ≤ n; omega))
    fun c1 h1 => frameRead_call hcall
      (c := { c1.frameCleanup with sasl := .waitingOnSaslChallengeOrOutcome }) h1 hn

theorem initFrame_ends {mechanism : List UInt8} (hn : 18 ≤ n) :
    Ends (Within k) InTime (Sasl.initFrame call mechanism c) := by
  have hfail : ∀ c1 : Connection, Within k c1 → Ends (Within k) InTime (call .connectionFail c1) :=
    fun _ h1 => hcall.call rfl h1 (Nat.le_trans failRank_le (by omega))
  exact Sasl.initFrame_rule (inTime c) (fun _ => hfail c.frameCleanup h)
    (fun _ => (hfail c h).mono (fun c1 _ => inTime c1.frameCleanup) fun _ he => he)
    (fun _ plugin _ _ => hcall.call (a := .writerWrite .saslOutcome) (c := { c with plugin := some plugin }) rfl h
      (by show 11 ≤ n; omega))
    fun c1 h1 => hcall.call (a := .connectionDone) (c := { c1.frameCleanup with sasl := .negotiated }) rfl h1
      (Nat.le_trans rankIn_done_le hn)

theorem outcomeFrame_ends {code : Nat} {additionalData : Bool} (hn : 18 ≤ n) :
    Ends (Within k) InTime (Sasl.outcomeFrame call code additionalData c) :=
  Sasl.outcomeFrame_rule (inTime c)
    (fun _ => hcall.call (a := .connectionFail) (c := c.frameCleanup) rfl h (Nat.le_trans failRank_le (by omega)))
    (fun _ _ _ => hcall.call (a := .connectionDone) (c := { c.frameCleanup with sasl := .negotiated }) rfl h
      (Nat.le_trans rankIn_done_le hn))
    fun _ _ => h

theorem sendOpen_ends (hn : 16 ≤ n) : Ends (Within k) InTime (AmqpConnection.sendOpen call c) :=
  AmqpConnection.sendOpen_rule (inTime c)
    (fun _ => hcall.call (a := .writerWrite .amqpOpen) rfl h (by show 11 ≤ n; omega))
    (fun c1 h1 => hcall.call (a := .frameEnable) (c := { c1 with amqp := .openSent }) rfl h1
      (by show 1 ≤ n; omega))
    fun c2 h2 => frameRead_call hcall h2 hn

theorem waitOnOpen_ends (hn : 16 ≤ n) : Ends (Within k) InTime (AmqpConnection.waitOnOpen call c) :=
  AmqpConnection.waitOnOpen_rule (inTime c)
    (fun _ => hcall.call (a := .frameEnable) (c := { c with amqp := .waitingForOpenFrame }) rfl h
      (by show 1 ≤ n; omega))
    fun c1 h1 => frameRead_call hcall h1 hn

theorem connectionOpened_ends {idleTimeOut : Nat} (hn : 16 ≤ n) :
    Ends (Within k) InTime (AmqpConnection.connectionOpened call idleTimeOut c) :=
  frameRead_call hcall (c := { AmqpConnection.transitionToOpened c with timer := _ }) h hn

/-- A frame that no one waits for. -/
theorem outOfSequence_ends (hn : 13 ≤ n) : Ends (Within k) InTime (call .connectionShutdown c.frameCleanup) :=
  hcall.call (a := .connectionShutdown) rfl h (Nat.le_trans rankIn_shutdown_le hn)

theorem openFrame_ends {hostname : Bool} {idleTimeOut : Nat} (hn : 16 ≤ n) :
    Ends (Within k) InTime (AmqpConnection.openFrame call hostname idleTimeOut c) :=
  AmqpConnection.openFrame_rule (inTime c) (fun _ _ => outOfSequence_ends hcall h (by omega))
    (fun _ _ => connectionOpened_ends hcall (c := c.frameCleanup) h hn)
    (fun _ _ => hcall.call (a := .writerWrite .amqpOpen) (c := c.frameCleanup) rfl h (by show 11 ≤ n; omega))
    fun c1 h1 => connectionOpened_ends hcall h1 hn

theorem closeFrame_ends {error : Bool} (hn : 16 ≤ n) :
    Ends (Within k) InTime (AmqpConnection.closeFrame call error c) :=
  AmqpConnection.closeFrame_rule (inTime c) (fun _ _ => outOfSequence_ends hcall h (by omega))
    (fun _ => frameRead_call hcall
      (c := (AmqpConnection.transitionToClosed { c with timer := true }).frameCleanup) h hn)
    (fun c1 h1 => hcall.call (a := .writerWrite .amqpClose) rfl h1 (by show 11 ≤ n; omega))
    (fun c2 h2 => hcall.call (a := .shutdownDrain) rfl h2 (by show 8 ≤ n; omega))
    fun _ => hcall.call (a := .shutdownDrain) (c := AmqpConnection.transitionToClosed c.frameCleanup) rfl h
      (by show 8 ≤ n; omega)

theorem emptyFrame_ends (hn : 16 ≤ n) : Ends (Within k) InTime (AmqpConnection.emptyFrame call c) :=
  AmqpConnection.emptyFrame_rule (fun _ => frameRead_call hcall h hn)
    fun _ _ => outOfSequence_ends hcall h (by omega)

theorem frameDispatch_ends {f : PeerFrame} (hn : 18 ≤ n) : Ends (Within k) InTime (f.dispatch call c) := by
  have hsasl : Ends (Within k) InTime (call .connectionFail c.frameCleanup) :=
    hcall.call (a := .connectionFail) rfl h (Nat.le_trans failRank_le (by omega))
  have hamqp := outOfSequence_ends hcall h (by omega)
  cases f with
  | saslMechanisms names => exact mechanismsFrame_ends hcall h (by omega)
  | saslInit mechanism => exact initFrame_ends hcall h hn
  | saslChallenge => exact Sasl.challengeFrame_rule (inTime c) fun _ => hsasl
  | saslResponse => exact hsasl
  | saslOutcome code additionalData => exact outcomeFrame_ends hcall h hn
  | amqpOpen hostname idleTimeOut => exact openFrame_ends hcall h (by omega)
  | amqpClose error => exact closeFrame_ends hcall h (by omega)
  | empty => exact emptyFrame_ends hcall h (by omega)
  | _ => exact hamqp

theorem frameAvailable_ends {d : FrameDecoders} (hn : 19 ≤ n) :
    Ends (Within k) InTime (dispatch d call .frameAvailable c) :=
  frameAvailable_rule (inTime c)
    (fun f i _ => hcall.call (a := .frameDispatch f) (c := { c with readIndex := i, trace := _ }) rfl h hn)
    (fun _ _ => hcall.call (a := .connectionFail) rfl h (Nat.le_trans failRank_le (by omega)))
    (fun _ _ => hcall.call (a := .connectionShutdown) rfl h (Nat.le_trans rankIn_shutdown_le (by omega)))
    fun _ => frameRead_call hcall h (by omega)

omit h in
/-- The calls of a function are less deep than the function. -/
theorem dispatch_respects {d : FrameDecoders} : Respects k (n + 1) (dispatch d call) := by
  intro a c h hn
  obtain ⟨h, hlookup⟩ := h
  cases a with
  | connectionConnect lookup =>
    change 22 + lookup.getD 0 ≤ n + 1 at hn
    exact connect_ends hcall h hlookup (by omega)
  | connectionBegin version => exact begin_ends hcall h (Nat.le_of_succ_le_succ hn)
  | connectionReject version => exact reject_ends hcall h (Nat.le_of_succ_le_succ hn)
  | connectionDone => exact done_ends hcall h hn
  | connectionFail => exact fail_ends hcall h hn
  | connectionShutdown => exact shutdown_ends hcall h hn
  | connectionTimeout readIdle writeIdle => exact timeout_ends hcall h (Nat.le_of_succ_le_succ hn)
  | shutdownDrain =>
    exact Machine.drain_rule (fun _ => h)
      fun _ _ _ => shutdownConnection_ends hcall h (Nat.le_of_succ_le_succ hn)
  | shutdownClose =>
    exact shutdownConnection_ends (m := .completeWriteAndCloseSocket) hcall h (Nat.le_of_succ_le_succ hn)
  | socketConnect lookup =>
    change 21 + lookup.getD 0 ≤ n + 1 at hn
    exact socketConnect_ends hcall h hlookup (by omega)
  | socketTryConnect =>
    change 20 + c.addresses ≤ n + 1 at hn
    exact tryConnect_ends hcall h (by omega)
  | socketDone => exact socketDone_ends hcall (Nat.le_of_succ_le_succ hn)
  | socketFail => exact socketFail_ends hcall (Nat.le_of_succ_le_succ hn)
  | socketShutdown => exact socketShutdown_ends hcall h hn
  | writerEnable => exact Writer.enable_rule (inTime c) fun _ => h
  | writerWrite m => exact write_ends hcall h (Nat.le_of_succ_le_succ hn)
  | writerContinue => exact continueWrite_ends hcall h (Nat.le_of_succ_le_succ hn)
  | writerComplete => exact writeComplete_ends hcall h hn
  | writerStop => exact stop_ends hcall h hn
  | writerAbort => exact Writer.abort_rule (fun _ => ⟨h, rfl⟩) ⟨h, rfl⟩
  | writerFail => exact writerFail_ends hcall h (Nat.le_of_succ_le_succ hn)
  | readerEnable => exact Reader.enable_rule (inTime c) fun _ => h
  | readerCommence required callback => exact commenceRead_ends hcall h hn
  | readerReset => exact Reader.reset_rule (fun _ => ⟨h, rfl⟩) (fun _ => ⟨h, rfl⟩) fun _ _ _ => ⟨h, rfl⟩
  | readerDelayed =>
    exact Reader.delayedRead_rule
      (fun _ => delayedReadWhileReading_ends hcall h (Nat.le_of_succ_le_succ hn)) fun _ => h
  | readerStop => exact Reader.stop_rule ⟨h, rfl⟩ fun _ => ⟨h, rfl⟩
  | readerFail => exact readerFail_ends hcall h (Nat.le_of_succ_le_succ hn)
  | readDone callback buffer amount =>
    cases callback with
    | negotiator => exact negotiatorReadDone_ends hcall h hn
    | frameReader => exact frameReadDone_ends hcall h hn
    | connection => exact readDoneWhileDraining_ends hcall h hn
  | negotiatorStart version confirm reject => exact negotiatorStart_ends hcall h (Nat.le_of_succ_le_succ hn)
  | negotiatorWait => exact negotiatorWait_ends hcall h (Nat.le_of_succ_le_succ hn)
  | negotiatorSend version confirm => exact negotiatorSend_ends hcall h (Nat.le_of_succ_le_succ hn)
  | negotiatorReset => exact negotiatorReset_ends h
  | confirmCallback => exact confirm_ends hcall h (Nat.le_of_succ_le_succ hn)
  | rejectCallback version => exact rejectCallback_ends hcall h (Nat.le_of_succ_le_succ hn)
  | requestCallback version =>
    exact requestCallback_rule (fun _ => inTime c) fun _ =>
      hcall.call (a := .connectionBegin version) rfl h (Nat.le_of_succ_le_succ hn)
  | tlsConnect =>
    exact hcall.call (a := .negotiatorStart _ .tlsVersionAccepted .tlsVersionRejected) rfl h
      (Nat.le_of_succ_le_succ hn)
  | tlsAccept version => exact inTime c _ (by decide)
  | saslConnect => exact saslConnect_ends hcall h (Nat.le_of_succ_le_succ hn)
  | saslAccept version => exact saslAccept_ends hcall h (Nat.le_of_succ_le_succ hn)
  | saslDone => exact saslDone_ends hcall h (Nat.le_of_succ_le_succ hn)
  | tunnelConnect => exact tunnelConnect_ends hcall h (Nat.le_of_succ_le_succ hn)
  | tunnelAccept version => exact tunnelAccept_ends hcall h (Nat.le_of_succ_le_succ hn)
  | tunnelDone => exact tunnelDone_ends hcall h (Nat.le_of_succ_le_succ hn)
  | amqpSendOpen => exact sendOpen_ends hcall h (Nat.le_of_succ_le_succ hn)
  | amqpWaitOnOpen => exact waitOnOpen_ends hcall h (Nat.le_of_succ_le_succ hn)
  | frameEnable => exact frameEnable_ends h
  | frameRead callback => exact frameRead_ends hcall h hn
  | frameAvailable => exact frameAvailable_ends hcall h (Nat.le_of_succ_le_succ hn)
  | frameDispatch f => exact frameDispatch_ends hcall h (Nat.le_of_succ_le_succ hn)

end Functions

/-! ## Every call, every step, every run -/

theorem calls_respects (d : FrameDecoders) (depth k : Nat) : Respects k depth (calls d depth) :=
  fun a c h hn => invoke_ends_of_rank rank (fun _ _ => rankIn_pos _)
    (fun _ _ hcall a c h hn => dispatch_respects hcall a c h hn) depth a c h hn

/-- A step of a connection that has no more than `k` addresses to try. -/
theorem handle_ends {k n : Nat} {call : Calls} (hcall : Respects k n call) {c : Connection} (h : Within k c)
    (event : Event) (hlookup : ∀ lookup, event = .connect lookup → c.accepted = false → lookup.getD 0 ≤ k)
    (hn : callDepth ≤ n) (hclient : c.accepted = false ∨ c.connectWatcher = true → callDepth + k ≤ n) :
    Ends (Within k) InTime (c.handle call event) := by
  have h26 : 26 ≤ n := hn
  have hfail : ∀ c1 : Connection, Within k c1 → Ends (Within k) InTime (call .connectionFail c1) :=
    fun _ h1 => hcall.call rfl h1 (Nat.le_trans failRank_le (by omega))
  refine handle_rule h (fun lookup he ha => ?_) (fun _ _ _ => ?_) (fun _ => ?_) (fun isConnected _ hw => ?_)
    (fun bytes inLoop _ _ _ _ => ?_) (fun isPartial _ _ => ?_) (fun _ _ => ?_) (fun _ _ => ?_) fun _ _ _ _ => ?_
  · have hk : 26 + k ≤ n := hclient (.inl ha)
    have hle := hlookup lookup he ha
    exact connectTo_rule (fun _ => (hcall (.connectionConnect lookup) c ⟨h, hle⟩
      (by show 22 + lookup.getD 0 ≤ n; omega)).mono (fun _ => id) fun _ he => he) fun _ => hfail c h
  · exact acceptSocket_rule (enableIo_ends hcall (c := { Machine.transitionTo _ c with socket := .accepted }) h
      (by omega)) fun c1 h1 => hcall.call (a := .negotiatorWait) rfl h1 (by show 16 ≤ n; omega)
  · exact hcall.call (a := .connectionShutdown) rfl h (Nat.le_trans rankIn_shutdown_le (by omega))
  · have hk : 26 + k ≤ n := hclient (.inr hw)
    have hle : c.addresses ≤ k := h
    exact Socket.connectEvent_rule
      (hcall.call (a := .socketDone) (c := { c with connectWatcher := false }) rfl h (by show 19 ≤ n; omega))
      (connectionAttemptFailed_ends hcall (c := { c with connectWatcher := false }) h
        (by show 20 + c.addresses ≤ n; omega))
  · refine Reader.readComplete_rule (r := Within k)
      (callReadCallback_ends hcall (c := { c with buffer := c.buffer ++ bytes }) h fun callback _ => ?_)
      (fun _ c1 h1 => delayedReadWhileReading_ends hcall h1 (by omega))
      fun _ c1 h1 => hcall.call (a := .readerDelayed) rfl h1 (by show 22 ≤ n; omega)
    exact Nat.le_trans rankIn_readDone_le hn
  · exact readEof_ends hcall h (Nat.le_trans failRank_le (by omega)) fun _ _ => Nat.le_trans endRank_le (by omega)
  · exact hcall.call (a := .readerFail) rfl h
      (Nat.le_trans (Nat.succ_le_succ failRank_le) (by omega))
  · exact hcall.call (a := .writerContinue) rfl h (by show 20 ≤ n; omega)
  · exact hcall.call (a := .connectionTimeout _ _) rfl h (by show 13 ≤ n; omega)

/-- An accepted connection does not look for addresses. -/
theorem accepted_in_time {d : FrameDecoders} {depth : Nat} (hdepth : callDepth ≤ depth) {c : Connection}
    (ha : c.accepted = true) (hw : c.connectWatcher = false) (i : Stimulus) :
    Ends (fun _ => True) InTime (c.step d depth i) := by
  have hstep := handle_ends (calls_respects d depth c.addresses) (c := c.arm i)
    (Nat.le_refl c.addresses) i.event (fun _ _ hno => absurd (ha.symm.trans hno) (by decide)) hdepth fun hor => ?_
  · exact hstep.mono (fun _ _ => trivial) fun _ he => he
  · rcases hor with hno | hno
    · exact absurd (ha.symm.trans hno) (by decide)
    · exact absurd (hw.symm.trans hno) (by decide)

end Depth

/-- The addresses that the name lookups of a run find. -/
def Stimulus.lookup (i : Stimulus) : Nat :=
  match i.event with
  | .connect lookup => lookup.getD 0
  | _ => 0

/-- **No run is cut short**: calls of depth `callDepth`, and one more for each address that a name lookup
finds, are deep enough for every run of a client or server. -/
theorem run_in_time (d : FrameDecoders) {depth k : Nat} (hdepth : callDepth + k ≤ depth)
    (protocols : Protocols) (maxFrameSize idleTimeOut : Nat) (plugins : List SaslPlugin) (accepted : Bool)
    {is : List Stimulus} (hlookup : ∀ i ∈ is, i.lookup ≤ k) :
    Ends (fun _ => True) (fun e => e.fault ≠ .outOfFuel)
      (run (Connection.step d depth)
        (Connection.create protocols maxFrameSize idleTimeOut plugins accepted) is) := by
  have hstep : ∀ c i, Depth.Within k c → i.lookup ≤ k →
      Ends (Depth.Within k) Depth.InTime (Connection.step d depth c i) := by
    intro c i h hi
    refine Depth.handle_ends (Depth.calls_respects d depth k) (c := c.arm i) h i.event ?_ (by omega) fun _ => hdepth
    rintro lookup he -
    rw [Stimulus.lookup, he] at hi
    exact hi
  have hcreate : Depth.Within k (Connection.create protocols maxFrameSize idleTimeOut plugins accepted) :=
    Nat.zero_le k
  exact (run_ends hstep is _ hcreate (RunMeets.of_mem _ hlookup)).mono (fun _ _ => trivial) fun _ he => he

end Amqp
