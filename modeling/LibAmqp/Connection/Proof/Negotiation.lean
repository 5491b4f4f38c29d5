import LibAmqp.Connection.Negotiation
import LibAmqp.Connection.Proof.Depth
import LibAmqp.Connection.Proof.Order
import Mathlib.Data.List.Basic

/-!
# A server negotiates in order

Most calls are quiet: they may take the connection down, but say nothing that is part of the
negotiation (`Quiet`). The others follow the dialogue: a header that comes in, the answer to it, the
SASL exchange. `Rests` is what is true of a server between two steps; quiet calls keep it.

* `server_negotiation_order`: what an accepted connection says and does, in every run.
-/

namespace Amqp

open Lib

/-! ## Traces -/

@[simp] theorem negotiation_append (t u : List Mark) :
    negotiation (t ++ u) = negotiation t ++ negotiation u := List.filter_append ..

theorem outcome_mem_negotiation {t : List Mark} :
    .sent .saslOutcome ∈ negotiation t ↔ .sent .saslOutcome ∈ t := by
  simp [negotiation, Mark.isNegotiation]

theorem SaslAccepted.mono {plugins : List SaslPlugin} {t t' : List Mark}
    (h : SaslAccepted plugins t) (ht : t <+: t') : SaslAccepted plugins t' := by
  obtain ⟨p, hp, haccepts, hsub⟩ := h
  exact ⟨p, hp, haccepts, hsub.trans ht.sublist⟩

/-- An outcome is part of a SASL exchange, which is the first thing there is. -/
theorem Dialogue.cut {n : List Mark} (h : Dialogue n) :
    ∃ m u, BeforeTunnel m ∧ .sent .saslOutcome ∉ u ∧ n = m ++ u := by
  cases h with
  | sasl h =>
    rcases Nat.lt_or_ge n.length 4 with hlt | hge
    · refine ⟨[], n, .inl rfl, fun hmem => ?_, rfl⟩
      have hpre : n <+: saslExchange.take 3 :=
        List.prefix_take_iff.mpr ⟨h, Nat.le_of_lt_succ hlt⟩
      have := hpre.subset hmem
      simp [saslExchange] at this
    · exact ⟨saslExchange, [], .inr rfl, by simp, by simpa using h.eq_of_length_le hge⟩
  | @amqp m u hm hu =>
    refine ⟨m, u, hm, fun hmem => ?_, rfl⟩
    have := hu.subset hmem
    simp [tunnelExchange] at this
  | tls h => exact ⟨[], _, .inl rfl, by simp, rfl⟩
  | refused h => exact ⟨_, _, h.1, by simp, rfl⟩
  | answered h hv => exact ⟨_, _, h.1, by simp, rfl⟩

theorem Dialogue.once {n : List Mark} (h : Dialogue n) {before after : List Mark}
    (heq : n = before ++ .sent .saslOutcome :: after) :
    before ++ [.sent .saslOutcome] = saslExchange ∧ .sent .saslOutcome ∉ after := by
  obtain ⟨m, u, hm, hu, rfl⟩ := h.cut
  rcases hm with rfl | rfl
  · refine absurd (?_ : .sent .saslOutcome ∈ u) hu
    simp only [List.nil_append] at heq
    simp [heq]
  · have hsplit : saslExchange.take 3 ++ .sent .saslOutcome :: u = before ++ .sent .saslOutcome :: after :=
      heq
    rw [List.append_cons_inj_of_notMem (by simp [saslExchange]) hu] at hsplit
    obtain ⟨hb, -, rfl⟩ := hsplit
    exact ⟨by rw [← hb]; rfl, hu⟩

namespace Talked

variable {plugins : List SaslPlugin} {t t' : List Mark}

theorem of_dialogue (hd : Dialogue (negotiation t))
    (ha : .sent .saslOutcome ∈ t → SaslAccepted plugins t) : Talked plugins t :=
  ⟨hd, fun _ _ => hd.once, ha⟩

theorem quiet (h : Talked plugins t) (hn : negotiation t' = negotiation t) (ht : t <+: t') :
    Talked plugins t' := by
  refine .of_dialogue (hn ▸ h.dialogue) fun hmem => ?_
  rw [← outcome_mem_negotiation, hn, outcome_mem_negotiation] at hmem
  exact (h.accepted hmem).mono ht

/-- One more mark. -/
theorem mark (h : Talked plugins t) {m : Mark} (hd : Dialogue (negotiation t ++ negotiation [m]))
    (hm : m = .sent .saslOutcome → SaslAccepted plugins (t ++ [m])) : Talked plugins (t ++ [m]) := by
  refine .of_dialogue (by rw [negotiation_append]; exact hd) fun hmem => ?_
  rcases List.mem_append.mp hmem with hmem | hmem
  · exact (h.accepted hmem).mono (List.prefix_append _ _)
  · exact hm (List.mem_singleton.mp hmem).symm

end Talked

theorem Unanswered.quiet {t t' : List Mark} (h : Unanswered t') (hn : negotiation t' = negotiation t) :
    Unanswered t := by
  obtain ⟨n, bytes, hr, heq⟩ := h
  exact ⟨n, bytes, hr, hn ▸ heq⟩

theorem Refused.quiet {t t' : List Mark} (h : Refused t') (hn : negotiation t' = negotiation t) :
    Refused t := by
  obtain ⟨n, bytes, rest, hr, heq⟩ := h
  exact ⟨n, bytes, rest, hr, hn ▸ heq⟩

/-- Any header may come before there is a tunnel. -/
theorem Dialogue.header {n : List Mark} (h : BeforeTunnel n) (bytes : List UInt8) :
    Dialogue (n ++ [.receivedHeader bytes]) := by
  by_cases hr : Refuses n bytes
  · exact .refused hr
  · rw [Refuses] at hr
    simp only [h, true_and, not_and, not_not] at hr
    by_cases ha : Acceptable n bytes
    · rcases ha with rfl | ⟨rfl, rfl⟩
      · exact .amqp h ⟨_, rfl⟩
      · exact .sasl ⟨_, rfl⟩
    · have htls := hr ha
      have hnil := htls.1
      subst hnil
      exact .tls htls

namespace Server

variable (plugins : List SaslPlugin)

/-! ## The invariant -/

/-- There is a tunnel, or a pointer to a function that needs one. -/
def Tunnels (c : Connection) : Prop :=
  c.name = .tunnelAccepted ∨ c.amqp ≠ .initialized ∨ c.shutdown = .applicationCloseWhileOpened ∨
    c.shutdown = .shutdownWhileInProgress ∨ c.timeout = .whileOpened ∨ c.timeout = .whileCloseSent ∨
    c.timeout = .whileClosed

/-- What does not change. -/
structure Fixed (accepted : Bool) (ps : List SaslPlugin) (sasl amqp : Nat) (watcher : Bool) : Prop where
  accepted : accepted = true
  plugins : ps = plugins
  sasl : sasl = amqpSaslPreferredVersion
  amqp : amqp = amqpPreferredVersion
  watcher : watcher = false

/-- What every function needs. -/
def Base (c : Connection) : Prop :=
  Fixed plugins c.accepted c.plugins c.requiredSasl c.requiredAmqp c.connectWatcher ∧
    (c.writer = .stopping → c.name.Down) ∧
    (c.frameReader = .readingFrameBody → amqpFrameHeaderSizeInBytes < c.frameSize)

/-- What a quiet call does to the parts of a connection. -/
structure Still (n n' : ConnectionState) (s s' : SaslState) (a a' : AmqpTunnelState) (k k' : Bool)
    (f f' : Option ConfirmCallback) (r r' : Bool) (g g' : NegotiatorState) (p p' : Prop)
    (t t' : List Mark) : Prop where
  name : n' = n ∨ n'.Down
  sasl : s' = s
  tunnel : a' = a
  connected : k' = k
  confirm : f' = f
  request : r' = r
  negotiator : g' = g ∨ g' = .failed
  tunnels : p' → p
  said : negotiation t' = negotiation t
  trace : t <+: t'

/-- Nothing is said, and the connection is where it was or comes to its end. -/
def Quiet (c c' : Connection) : Prop :=
  Still c.name c'.name c.sasl c'.sasl c.amqpTunnel c'.amqpTunnel c.saslConnected c'.saslConnected
    c.confirm c'.confirm c.request c'.request c.negotiator c'.negotiator (Tunnels c) (Tunnels c')
    c.trace c'.trace

/-- Where the machines are, and what has been said by then. -/
structure Placed (name : ConnectionState) (sasl : SaslState) (tunnel : AmqpTunnelState)
    (request : Bool) (negotiator : NegotiatorState) (tunnels : Prop) (connected : Bool)
    (t : List Mark) : Prop where
  talked : Talked plugins t
  answered : ¬ Unanswered t
  refused : Refused t → name = .sendingErrorMessage ∨ name.Down
  idle : name = .initialized ∨ name = .waitingOnClientNegotiationRequest →
    negotiation t = [] ∧ sasl = .initialized ∧ tunnel = .initialized
  offered : sasl = .waitingOnSaslInitialResponseFrame →
    negotiation t = saslExchange.take 3 ∧ (name = .acceptingSasl ∨ name.Down)
  accepting : name = .acceptingSasl → tunnel = .initialized
  waiting : name = .waitingOnAmqpNegotiationRequest →
    negotiation t = saslExchange ∧ tunnel = .initialized
  tunnels : tunnels → ∃ n, BeforeTunnel n ∧ negotiation t = n ++ tunnelExchange
  request : negotiator = .waitingOnClientRequest → request = true ∧ BeforeTunnel (negotiation t) ∧
    (name = .waitingOnClientNegotiationRequest ∨ name = .waitingOnAmqpNegotiationRequest ∨ name.Down)
  broker : negotiator ≠ .waitingForBrokerResponse
  mechanisms : sasl ≠ .waitingOnSaslMechanisms ∧ sasl ≠ .waitingOnSaslChallengeOrOutcome
  connected : connected → SaslAccepted plugins t

/-- The machines of a connection, in the middle of a step. -/
def Stands (c : Connection) : Prop :=
  Base plugins c ∧
    Placed plugins c.name c.sasl c.amqpTunnel c.request c.negotiator (Tunnels c) c.saslConnected c.trace

def Rests (c : Connection) : Prop := Stands plugins c ∧ c.name ≠ .sendingErrorMessage

/-! ## What each call needs and gives -/

variable (busy : Prop)

/-- What had been said when the process ended: a header is left unanswered only if the writer was
busy. -/
def Crashed (e : Crash) : Prop :=
  Talked plugins e.trace ∧ (Unanswered e.trace → e.fault = .outOfFuel ∨ busy)

/-- What is said is in order, but for the answer that a busy writer keeps from being sent. -/
def Told (t : List Mark) : Prop := Talked plugins t ∧ (Unanswered t → busy)

def Calm (c : Connection) : Prop := Base plugins c ∧ Told plugins busy c.trace

/-- A header has come, and nothing has been said since. -/
structure Asked (c : Connection) (t : List Mark) (bytes : List UInt8) : Prop where
  base : Base plugins c
  trace : c.trace = t ++ [.receivedHeader bytes]
  length : bytes.length ≤ 8
  talked : Talked plugins t
  before : BeforeTunnel (negotiation t)
  negotiator : c.negotiator = .waitingToSendServerResponse
  tunnels : ¬ Tunnels c
  sasl : c.sasl ≠ .waitingOnSaslInitialResponseFrame
  mechanisms : c.sasl ≠ .waitingOnSaslMechanisms ∧ c.sasl ≠ .waitingOnSaslChallengeOrOutcome
  connected : c.saslConnected → SaslAccepted plugins t
  writer : Refuses (negotiation t) bytes → busy ∨ c.writer = .enabled

/-- What a header may be answered with, and what is done then. -/
inductive Reply (c : Connection) (n : List Mark) (bytes : List UInt8) : Nat → ConfirmCallback → Prop
  | refuse {version : Nat} (hname : c.name = .sendingErrorMessage) (h : Refuses n bytes)
    (hversion : Supported version) : Reply c n bytes version .connectionDone
  | sasl (hname : c.name = .acceptingSasl) (htunnel : c.amqpTunnel = .initialized) (hn : n = [])
    (hbytes : bytes = encodeVersion amqpSaslPreferredVersion) :
    Reply c n bytes amqpSaslPreferredVersion .saslBrokerVersionSent
  | amqp (hname : c.name = .acceptingAmqp) (hbytes : bytes = encodeVersion amqpPreferredVersion) :
    Reply c n bytes amqpPreferredVersion .amqpDone

/-- The header is answered. -/
inductive Answered (c : Connection) : ConfirmCallback → Prop
  | refuse (hname : c.name = .sendingErrorMessage ∨ c.name.Down) : Answered c .connectionDone
  | sasl (hname : c.name = .acceptingSasl ∨ c.name.Down)
    (htrace : negotiation c.trace = saslExchange.take 2) : Answered c .saslBrokerVersionSent
  | amqp (hname : c.name = .acceptingAmqp ∨ c.name.Down)
    (htrace : ∃ n, BeforeTunnel n ∧ negotiation c.trace = n ++ tunnelExchange) : Answered c .amqpDone

/-- What it takes to go on from a state. -/
inductive Finishing (c : Connection) : Prop
  | down (hname : c.name.Down)
  | refuse (hname : c.name = .sendingErrorMessage)
  | sasl (hname : c.name = .acceptingSasl) (htrace : negotiation c.trace = saslExchange)
    (hsasl : c.sasl = .negotiated)
  | amqp (hname : c.name = .acceptingAmqp)
    (htrace : ∃ n, BeforeTunnel n ∧ negotiation c.trace = n ++ tunnelExchange)

/-- `pre`: the calls that only a client makes are not made. -/
def pre : Action → Connection → Prop
  | .connectionConnect _, _ | .socketConnect _, _ | .socketTryConnect, _ | .socketDone, _
  | .socketFail, _ | .negotiatorStart _ _ _, _ | .rejectCallback _, _ | .tlsConnect, _
  | .saslConnect, _ | .tunnelConnect, _ | .amqpSendOpen, _ => False
  | .connectionDone, c => Calm plugins busy c ∧ (c.name.Down ∨ Stands plugins c ∧ Finishing c)
  | .writerStop, c | .socketShutdown, c => Calm plugins busy c ∧ c.name.Down
  | .writerWrite m, c => Base plugins c ∧ Talked plugins c.trace ∧
    (Told plugins busy c.trace ∨ c.writer = .enabled) ∧ Told plugins busy (c.trace ++ [.sent m])
  | .readDone _ _ 0, c => Calm plugins busy c
  | .readDone callback _ _, c => Rests plugins c ∧ (callback = .negotiator →
    Refuses (negotiation c.trace) (c.headerWith []) → busy ∨ c.writer = .enabled ∧ ¬ c.name.Down)
  | .requestCallback version, c | .connectionBegin version, c => ∃ t bytes, Asked plugins busy c t bytes ∧
    version = decodeVersion bytes ∧ (Refuses (negotiation t) bytes → busy ∨ ¬ c.name.Down) ∧
    Placed plugins c.name c.sasl c.amqpTunnel c.request .waitingOnClientRequest (Tunnels c)
      c.saslConnected t
  | .connectionReject version, c => c.reject.isSome ∧ ∃ t bytes, Asked plugins busy c t bytes ∧
    ¬ c.name.Down ∧ Refuses (negotiation t) bytes ∧ Supported version
  | .negotiatorSend version confirm, c => ∃ t bytes, Asked plugins busy c t bytes ∧
    Reply c (negotiation t) bytes version confirm
  | .negotiatorWait, c => Stands plugins c ∧ BeforeTunnel (negotiation c.trace) ∧
    (c.name = .waitingOnClientNegotiationRequest ∨ c.name = .waitingOnAmqpNegotiationRequest ∨
      c.name.Down)
  | .confirmCallback, c => Stands plugins c ∧ ∃ callback, c.confirm = some callback ∧ Answered c callback
  | .tlsAccept _, c => Told plugins busy c.trace
  | .saslAccept version, c => c.name = .acceptingSasl ∧ c.reject.isSome ∧ ∃ t bytes,
    Asked plugins busy c t bytes ∧ version = decodeVersion bytes ∧ negotiation t = [] ∧
    amqpVersionProtocolId version = amqpSaslProtocolId ∧ c.sasl = .initialized ∧
    c.amqpTunnel = .initialized
  | .saslDone, c => Stands plugins c ∧ Answered c .saslBrokerVersionSent
  | .tunnelAccept version, c => c.name = .acceptingAmqp ∧ c.reject.isSome ∧ ∃ t bytes,
    Asked plugins busy c t bytes ∧ version = decodeVersion bytes ∧
    amqpVersionProtocolId version = amqpProtocolId ∧ c.amqpTunnel = .initialized
  | .tunnelDone, c => Stands plugins c ∧ Answered c .amqpDone
  | .amqpWaitOnOpen, c => Stands plugins c ∧ c.name = .tunnelAccepted
  | .frameAvailable, c => Rests plugins c
  | .frameDispatch f, c => Rests plugins c ∧ ∃ t, c.trace = t ++ [.receivedFrame f]
  | _, c => Calm plugins busy c

def post : Action → Connection → Connection → Prop
  | .connectionDone, c, c' => (c.name.Down → Base plugins c' ∧ Quiet c c') ∧
    (Stands plugins c → Rests plugins c')
  | .writerWrite m, c, c' => Base plugins c' ∧ Quiet { c with trace := c.trace ++ [.sent m] } c'
  | .connectionFail, c, c' | .writerFail, c, c' | .shutdownDrain, c, c' | .shutdownClose, c, c' =>
    Base plugins c' ∧ Quiet c c' ∧ c'.name.Down
  | .negotiatorReset, c, c' => c' = { c with negotiator := .initialized }
  | .readDone _ _ 0, c, c' => Base plugins c' ∧ Quiet c c'
  | .readDone _ _ _, _, c' | .requestCallback _, _, c' | .connectionBegin _, _, c'
  | .connectionReject _, _, c' | .negotiatorSend _ _, _, c' | .negotiatorWait, _, c'
  | .confirmCallback, _, c' | .tlsAccept _, _, c' | .saslAccept _, _, c' | .saslDone, _, c'
  | .tunnelAccept _, _, c' | .tunnelDone, _, c' | .amqpWaitOnOpen, _, c' | .frameAvailable, _, c'
  | .frameDispatch _, _, c' => Rests plugins c'
  | _, c, c' => Base plugins c' ∧ Quiet c c'

/-- Calls that do what they should. -/
def Respects (call : Calls) : Prop :=
  ∀ a c, pre plugins busy a c → Ends (post plugins a c) (Crashed plugins busy) (call a c)

variable {plugins busy}

/-! ## What has been said -/

/-- Nothing that was said so far is refused. -/
theorem not_refused {n t : List Mark} (ht : negotiation t = n)
    (h : n <+: saslExchange ∨ ∃ m u, BeforeTunnel m ∧ u <+: tunnelExchange ∧ n = m ++ u) :
    ¬ Refused t := by
  rintro ⟨n', bytes, rest, ⟨hn', hacceptable, -⟩, heq⟩
  rw [ht] at heq
  subst heq
  apply hacceptable
  rcases hn' with rfl | rfl
  · -- the first header
    rcases h with h | ⟨m, u, rfl | rfl, hu, heq⟩
    · obtain ⟨v, hv⟩ := h
      simp only [saslExchange, List.nil_append, List.cons_append, List.cons.injEq] at hv
      exact .inr ⟨rfl, by simpa using hv.1⟩
    · simp only [List.nil_append] at heq
      subst heq
      obtain ⟨v, hv⟩ := hu
      simp only [tunnelExchange, List.cons_append, List.cons.injEq] at hv
      exact .inl (by simpa using hv.1)
    · simp only [saslExchange, List.nil_append, List.cons_append, List.cons.injEq] at heq
      exact .inr ⟨rfl, by simpa using heq.1⟩
  · -- the header behind a SASL exchange
    rcases h with h | ⟨m, u, rfl | rfl, hu, heq⟩
    · have hle := h.length_le
      simp only [saslExchange, List.length_append, List.length_cons, List.length_nil] at hle
      omega
    · simp only [List.nil_append] at heq
      subst heq
      have hle := hu.length_le
      simp only [saslExchange, tunnelExchange, List.length_append, List.length_cons, List.length_nil] at hle
      omega
    · rw [List.append_cancel_left_eq] at heq
      subst heq
      obtain ⟨v, hv⟩ := hu
      simp only [tunnelExchange, List.cons_append, List.cons.injEq] at hv
      exact .inl (by simpa using hv.1)

theorem Unanswered.refused {t : List Mark} (h : Unanswered t) : Refused t := by
  obtain ⟨n, bytes, hr, heq⟩ := h
  exact ⟨n, bytes, [], hr, heq⟩

/-- What comes last is no header of the client. -/
theorem not_unanswered {t n : List Mark} {m : Message} (ht : negotiation t = n ++ [.sent m]) :
    ¬ Unanswered t := by
  rintro ⟨n', bytes, -, heq⟩
  rw [ht] at heq
  have := (List.append_inj' heq rfl).2
  simp at this

/-! ## Quiet calls -/

theorem Quiet.refl (c : Connection) : Quiet c c :=
  ⟨.inl rfl, rfl, rfl, rfl, rfl, rfl, .inl rfl, id, rfl, List.prefix_rfl⟩

theorem Quiet.trans {c c1 c2 : Connection} (h : Quiet c c1) (h' : Quiet c1 c2) : Quiet c c2 where
  name := by
    rcases h'.name with hn | hn
    · rw [hn]
      exact h.name
    · exact .inr hn
  sasl := h'.sasl.trans h.sasl
  tunnel := h'.tunnel.trans h.tunnel
  connected := h'.connected.trans h.connected
  confirm := h'.confirm.trans h.confirm
  request := h'.request.trans h.request
  negotiator := by
    rcases h'.negotiator with hn | hn
    · rw [hn]
      exact h.negotiator
    · exact .inr hn
  tunnels := h.tunnels ∘ h'.tunnels
  said := h'.said.trans h.said
  trace := h.trace.trans h'.trace

theorem Quiet.down {c c' : Connection} (h : Quiet c c') (hdown : c.name.Down) : c'.name.Down := by
  rcases h.name with hn | hn
  · rwa [hn]
  · exact hn

/-- One more mark that says nothing. -/
theorem quiet_mark (c : Connection) {m : Mark} (hm : negotiation [m] = []) :
    Quiet c { c with trace := c.trace ++ [m] } :=
  ⟨.inl rfl, rfl, rfl, rfl, rfl, rfl, .inl rfl, id, by simp [hm], List.prefix_append _ _⟩

theorem quiet_transitionTo (c : Connection) {n : ConnectionState} (hn : n.Down) :
    Quiet c (Machine.transitionTo n c) where
  name := .inr hn
  sasl := rfl
  tunnel := rfl
  connected := rfl
  confirm := rfl
  request := rfl
  negotiator := .inl rfl
  tunnels := fun h => by
    have ha : c.amqp ≠ .initialized := by
      cases n <;> simp [Tunnels, Machine.transitionTo] at h <;> first | exact h | exact hn.elim
    exact .inr (.inl ha)
  said := rfl
  trace := List.prefix_rfl

theorem Told.quiet {c c' : Connection} (h : Told plugins busy c.trace) (hq : Quiet c c') :
    Told plugins busy c'.trace :=
  ⟨h.1.quiet hq.said hq.trace, fun hu => h.2 (hu.quiet hq.said)⟩

theorem Base.writer {c : Connection} (h : Base plugins c) {w : WriterState}
    (hw : w = .stopping → c.name.Down) : Base plugins { c with writer := w } := ⟨h.1, hw, h.2.2⟩

theorem Base.transitionTo {c : Connection} (h : Base plugins c) {n : ConnectionState} (hn : n.Down) :
    Base plugins (Machine.transitionTo n c) := ⟨h.1, fun _ => hn, h.2.2⟩

theorem Base.frame {c : Connection} (h : Base plugins c) {s : FrameReaderState} {n : Nat}
    (hs : s = .readingFrameBody → amqpFrameHeaderSizeInBytes < n) :
    Base plugins { c with frameReader := s, frameSize := n } := ⟨h.1, h.2.1, hs⟩

theorem Calm.quiet {c c' : Connection} (h : Calm plugins busy c) (hb : Base plugins c')
    (hq : Quiet c c') : Calm plugins busy c' := ⟨hb, h.2.quiet hq⟩

theorem Calm.writer {c : Connection} (h : Calm plugins busy c) {w : WriterState}
    (hw : w = .stopping → c.name.Down) : Calm plugins busy { c with writer := w } := ⟨h.1.writer hw, h.2⟩

theorem Calm.transitionTo {c : Connection} (h : Calm plugins busy c) {n : ConnectionState}
    (hn : n.Down) : Calm plugins busy (Machine.transitionTo n c) := ⟨h.1.transitionTo hn, h.2⟩

theorem Calm.mayCrash {c : Connection} (h : Calm plugins busy c) : MayCrash (Crashed plugins busy) c :=
  fun _ _ => ⟨h.2.1, fun hu => .inr (h.2.2 hu)⟩

theorem Calm.silent {c : Connection} (h : Calm plugins busy c) : Base plugins c ∧ Quiet c c :=
  ⟨h.1, .refl c⟩

/-- A quiet call after another. -/
theorem Quiet.followed {c c1 : Connection} {r : Outcome} (h : Quiet c c1)
    (hr : Ends (fun c' => Base plugins c' ∧ Quiet c1 c') (Crashed plugins busy) r) :
    Ends (fun c' => Base plugins c' ∧ Quiet c c') (Crashed plugins busy) r :=
  hr.mono (fun _ h' => ⟨h'.1, h.trans h'.2⟩) fun _ he => he

/-- A call that takes the connection down is quiet. -/
theorem quiet_of_down {c : Connection} {r : Outcome}
    (hr : Ends (fun c' => Base plugins c' ∧ Quiet c c' ∧ c'.name.Down) (Crashed plugins busy) r) :
    Ends (fun c' => Base plugins c' ∧ Quiet c c') (Crashed plugins busy) r :=
  hr.mono (fun _ h' => ⟨h'.1, h'.2.1⟩) fun _ he => he

section Functions

variable {d : FrameDecoders} {call : Calls} (hcall : Respects plugins busy call) {c : Connection}

include hcall

/-! The writer. -/

theorem connectionDone_quiet (h : Calm plugins busy c) (hdown : c.name.Down) :
    Ends (fun c' => Base plugins c' ∧ Quiet c c') (Crashed plugins busy) (call .connectionDone c) :=
  (hcall .connectionDone c ⟨h, .inl hdown⟩).mono (fun _ h' => h'.1 hdown) fun _ he => he

theorem writerStop_quiet (h : Calm plugins busy c) (hdown : c.name.Down) :
    Ends (fun c' => Base plugins c' ∧ Quiet c c') (Crashed plugins busy) (Writer.writerStop call c) :=
  connectionDone_quiet hcall (c := { Writer.writerCleanup c with stoppedCallback := false })
    (h.writer (w := .stopped) (by simp)) hdown

theorem continueWriteOperation_quiet (h : Calm plugins busy c) :
    Ends (fun c' => Base plugins c' ∧ Quiet c c') (Crashed plugins busy)
      (Writer.continueWriteOperation call c) :=
  Writer.continueWriteOperation_rule (hcall .writerComplete { c with writes := c.writes.tail } h) h.silent
    fun _ => quiet_of_down (c := { c with writes := c.writes.tail }) (hcall .writerFail _ h)

theorem write_ends {m : Message} (h : pre plugins busy (.writerWrite m) c) :
    Ends (post plugins (.writerWrite m) c) (Crashed plugins busy) (Writer.write call m c) := by
  obtain ⟨hb, ht, hc, hm⟩ := h
  exact Writer.write_rule (fun hw => Calm.mayCrash (c := c) ⟨hb, hc.resolve_right hw⟩)
    fun _ => continueWriteOperation_quiet hcall ⟨hb.writer (w := .writing) (by simp), hm⟩

theorem continueWrite_quiet (h : Calm plugins busy c) :
    Ends (fun c' => Base plugins c' ∧ Quiet c c') (Crashed plugins busy) (Writer.continueWrite call c) :=
  Writer.continueWrite_rule h.mayCrash (fun _ => h.silent) fun _ => continueWriteOperation_quiet hcall h

theorem writeComplete_quiet (h : Calm plugins busy c) :
    Ends (fun c' => Base plugins c' ∧ Quiet c c') (Crashed plugins busy) (Writer.writeComplete call c) :=
  Writer.writeComplete_rule h.mayCrash (fun _ => ⟨h.1.writer (by simp), .refl c⟩)
    fun hw => writerStop_quiet hcall h (h.1.2.1 hw)

theorem stop_quiet (h : Calm plugins busy c) (hdown : c.name.Down) :
    Ends (fun c' => Base plugins c' ∧ Quiet c c') (Crashed plugins busy) (Writer.stop call c) :=
  Writer.stop_rule (fun _ => writerStop_quiet hcall h hdown) (fun _ => ⟨h.1.writer fun _ => hdown, .refl c⟩)
    fun _ => connectionDone_quiet hcall h hdown

/-! The reader. -/

theorem callReadCallback_quiet (h : Calm plugins busy c) :
    Ends (fun c' => Base plugins c' ∧ Quiet c c') (Crashed plugins busy)
      (Reader.callReadCallback call 0 c) :=
  Reader.callReadCallback_rule h.mayCrash fun callback _ => hcall (.readDone callback _ 0) _ h

theorem readEof_quiet {isPartial : Bool} (h : Calm plugins busy c) :
    Ends (fun c' => Base plugins c' ∧ Quiet c c') (Crashed plugins busy) (Reader.readEof call isPartial c) :=
  Reader.readEof_rule (fun _ => quiet_of_down (hcall .connectionFail { c with reader := .failed } h))
    (callReadCallback_quiet hcall (c := { c with reader := .eof }) h)

theorem readWhatIsBuffered_quiet (h : Calm plugins busy c) :
    Ends (fun c' => Base plugins c' ∧ Quiet c c') (Crashed plugins busy) (Reader.readWhatIsBuffered call c) :=
  Reader.readWhatIsBuffered_rule h.mayCrash h.silent
    (fun _ _ => readEof_quiet hcall (c := { c with reads := c.reads.tail }) h)
    fun _ => hcall .readerFail { c with reads := c.reads.tail } h

theorem commenceRead_quiet {required : Nat} {callback : ReadCallback} (h : Calm plugins busy c) :
    Ends (fun c' => Base plugins c' ∧ Quiet c c') (Crashed plugins busy)
      (Reader.commenceRead call required callback c) :=
  Reader.commenceRead_rule h.mayCrash
    (fun _ => readWhatIsBuffered_quiet hcall
      (c := Reader.queueReadOperation required callback { c with reader := .reading }) h)
    (fun _ _ _ => h.silent)
    fun _ => callReadCallback_quiet hcall (c := { c with reader := _, readCallback := _ }) h

theorem delayedReadWhileReading_quiet (h : Calm plugins busy c) :
    Ends (fun c' => Base plugins c' ∧ Quiet c c') (Crashed plugins busy)
      (Reader.delayedReadWhileReading call c) :=
  Reader.delayedReadWhileReading_rule
    (fun _ => readWhatIsBuffered_quiet hcall (c := { c with reader := .reading }) h) fun _ => h.silent

/-! The socket. -/

theorem socketShutdown_quiet (h : Calm plugins busy c) (hdown : c.name.Down) :
    Ends (fun c' => Base plugins c' ∧ Quiet c c') (Crashed plugins busy) (Socket.shutdown call c) := by
  refine Socket.shutdown_rule (fun _ => h.silent) fun _ => ?_
  have hb : Base plugins { c with socket := .stopped, connectWatcher := false, addresses := 0 } :=
    ⟨{ h.1.1 with watcher := rfl }, h.1.2⟩
  exact connectionDone_quiet hcall ⟨hb, h.2⟩ hdown

/-! The shutdown of a connection. -/

theorem stopActivity_quiet (h : Calm plugins busy c) (hdown : c.name.Down) :
    Ends (fun c' => Base plugins c' ∧ Quiet c c') (Crashed plugins busy) (Machine.stopActivity call c) :=
  Machine.stopActivity_rule (s := fun c2 => Base plugins c2 ∧ Quiet c c2) (hcall .writerAbort c h)
    (fun c1 h1 => h1.2.followed (hcall .readerStop c1 (h.quiet h1.1 h1.2)))
    fun c2 h2 => h2.2.followed (hcall .socketShutdown c2 ⟨h.quiet h2.1 h2.2, h2.2.down hdown⟩)

omit hcall in
/-- What the next state comes to is quiet. -/
theorem down_after {c1 : Connection} {r : Outcome} (hq : Quiet c c1) (hdown : c1.name.Down)
    (h : Ends (fun c' => Base plugins c' ∧ Quiet c1 c') (Crashed plugins busy) r) :
    Ends (fun c' => Base plugins c' ∧ Quiet c c' ∧ c'.name.Down) (Crashed plugins busy) r :=
  h.mono (fun _ h' => ⟨h'.1, hq.trans h'.2, h'.2.down hdown⟩) fun _ he => he

theorem stopInput_quiet (h : Calm plugins busy c) :
    Ends (fun c' => Base plugins c' ∧ Quiet c c' ∧ c'.name.Down) (Crashed plugins busy)
      (Machine.stopInput call c) := by
  have hq0 := quiet_transitionTo c (n := .stopping) trivial
  have h0 := h.transitionTo (n := .stopping) trivial
  refine Machine.stopInput_rule (hcall .readerStop _ h0) ?_
  rintro c1 ⟨hb1, hq1⟩
  have hdown : c1.name.Down := hq1.down trivial
  exact down_after (hq0.trans hq1) hdown (hcall .socketShutdown c1 ⟨h0.quiet hb1 hq1, hdown⟩)

theorem shutdownConnection_ends {m : ShutdownMode} (h : Calm plugins busy c) :
    Ends (fun c' => Base plugins c' ∧ Quiet c c' ∧ c'.name.Down) (Crashed plugins busy)
      (Machine.shutdownConnection call m c) := by
  -- the writer is stopped first, or everything at once
  refine Machine.shutdownConnection_rule (fun _ => ?_) fun _ => ?_
  · have h0 : Calm plugins busy { c with handshake := m.toProtocols, timer := true } := h
    exact down_after (quiet_transitionTo { c with handshake := m.toProtocols, timer := true }
      (n := .stoppingOutput) trivial) trivial (hcall .writerStop _ ⟨h0.transitionTo trivial, trivial⟩)
  · have h0 : Calm plugins busy { c with handshake := m.toProtocols } := h
    exact down_after (quiet_transitionTo { c with handshake := m.toProtocols } (n := .stopping) trivial)
      trivial (stopActivity_quiet hcall (h0.transitionTo trivial) trivial)

omit hcall in
theorem halted {n : ConnectionState} (h : Calm plugins busy c) (hn : n.Down) :
    Base plugins (Machine.connectionHalt (Machine.transitionTo n c)) ∧
      Quiet c (Machine.connectionHalt (Machine.transitionTo n c)) :=
  ⟨h.1.transitionTo hn,
    (quiet_transitionTo c hn).trans (quiet_mark (Machine.transitionTo n c) (m := .halted) rfl)⟩

omit hcall in
/-- What is not part of the negotiation is said quietly. -/
theorem Calm.say (h : Calm plugins busy c) {m : Message} (hm : negotiation [.sent m] = []) :
    pre plugins busy (.writerWrite m) c :=
  ⟨h.1, h.2.1, .inl h.2, h.2.quiet (c := c) (quiet_mark c hm)⟩

theorem say_quiet (h : Calm plugins busy c) {m : Message} (hm : negotiation [.sent m] = []) :
    Ends (fun c' => Base plugins c' ∧ Quiet c c') (Crashed plugins busy) (call (.writerWrite m) c) :=
  (quiet_mark c hm).followed (hcall (.writerWrite m) _ (h.say hm))

theorem drain_ends (h : Calm plugins busy c) :
    Ends (fun c' => Base plugins c' ∧ Quiet c c' ∧ c'.name.Down) (Crashed plugins busy)
      (Machine.drain call c) :=
  Machine.drain_rule (fun hdown => ⟨h.1, .refl c, hdown⟩) fun _ _ _ => shutdownConnection_ends hcall h

theorem fail_ends (h : Calm plugins busy c) :
    Ends (fun c' => Base plugins c' ∧ Quiet c c' ∧ c'.name.Down) (Crashed plugins busy)
      (Machine.fail call c) :=
  Machine.fail_rule h.mayCrash (fun _ => hcall .shutdownDrain c h)
    (fun _ => ⟨(halted (n := .failed) h trivial).1, (halted (n := .failed) h trivial).2, trivial⟩)
    fun _ _ => shutdownConnection_ends hcall h

theorem beginConnectionClose_quiet (h : Calm plugins busy c) (ht : Tunnels c) :
    Ends (fun c' => Base plugins c' ∧ Quiet c c') (Crashed plugins busy)
      (AmqpConnection.beginConnectionClose call c) := by
  refine AmqpConnection.beginConnectionClose_rule (say_quiet hcall h rfl) ?_
  rintro c1 ⟨hb1, hq1⟩
  have hq2 : Quiet c (AmqpConnection.transitionToCloseSent { c1 with timer := true }) :=
    { hq1 with tunnels := fun _ => ht }
  exact hq2.followed (hcall (.frameRead .amqp) _ (h.quiet hb1 hq2))

theorem shutdown_quiet (h : Calm plugins busy c) :
    Ends (fun c' => Base plugins c' ∧ Quiet c c') (Crashed plugins busy) (Machine.shutdown call c) :=
  Machine.shutdown_rule (fun _ => quiet_of_down (hcall .shutdownClose c h)) (fun _ => h.silent)
    fun hs => beginConnectionClose_quiet hcall h (.inr (.inr (.inl hs)))

theorem timeout_quiet {readIdle writeIdle : Bool} (h : Calm plugins busy c) :
    Ends (fun c' => Base plugins c' ∧ Quiet c c') (Crashed plugins busy)
      (Machine.timeout call readIdle writeIdle c) := by
  refine Machine.timeout_rule (fun _ => h.mayCrash)
    (fun _ => (quiet_transitionTo c (n := .timeout) trivial).followed
      (stopActivity_quiet hcall (h.transitionTo (n := .timeout) trivial) trivial))
    (fun ht _ => beginConnectionClose_quiet hcall h (.inr (.inr (.inr (.inr (.inl ht))))))
    (fun _ => say_quiet hcall h rfl) (fun _ => h.silent) (fun ht => ?_)
    fun _ => quiet_of_down (hcall .shutdownClose c h)
  have hq : Quiet c (AmqpConnection.transitionToClosed c) :=
    { Quiet.refl c with tunnels := fun _ => .inr (.inr (.inr (.inr (.inr (.inl ht))))) }
  exact hq.followed (quiet_of_down (hcall .shutdownDrain _ (h.quiet h.1 hq)))

theorem readDoneWhileDraining_quiet {buffer : Bool} {amount : Nat} (h : Calm plugins busy c) :
    Ends (fun c' => Base plugins c' ∧ Quiet c c') (Crashed plugins busy)
      (Machine.readDoneWhileDrainingInput call buffer amount c) :=
  Machine.readDoneWhileDrainingInput_rule h.mayCrash
    (fun _ => Quiet.followed (quiet_transitionTo c (n := .drainingInput) trivial)
      (hcall (.readerCommence Reader.capacity .connection) (Machine.drainInput c)
        (h.transitionTo (n := .drainingInput) trivial)))
    fun _ => quiet_of_down (stopInput_quiet hcall h)

theorem doneWhileStoppingOutput_quiet (h : Calm plugins busy c) :
    Ends (fun c' => Base plugins c' ∧ Quiet c c') (Crashed plugins busy)
      (Machine.doneWhileStoppingOutput call c) := by
  have h0 : Calm plugins busy { c with timer := true } := h
  have hq0 : Quiet c (Machine.drainInput { c with timer := true }) :=
    quiet_transitionTo { c with timer := true } (n := .drainingInput) trivial
  have h1 : Calm plugins busy (Machine.drainInput { c with timer := true }) :=
    h0.transitionTo (n := .drainingInput) trivial
  refine Machine.doneWhileStoppingOutput_rule h.mayCrash (fun _ => hcall .readerReset _ h1) ?_
    fun _ => quiet_of_down (stopInput_quiet hcall h)
  rintro c1 ⟨hb1, hq1⟩
  exact (hq0.trans hq1).followed (hcall (.readerCommence Reader.capacity .connection) c1 (h1.quiet hb1 hq1))

theorem doneDown_quiet (h : Calm plugins busy c) (hdown : c.name.Down) :
    Ends (fun c' => Base plugins c' ∧ Quiet c c') (Crashed plugins busy) (Machine.done call c) := by
  -- the states that lead on are not on the way down
  have hnot : ∀ {n : ConnectionState} {r : Prop}, c.name = n → ¬ n.Down → r := fun hn hup =>
    absurd hdown (up_of_name hn hup)
  exact Machine.done_rule (r := fun _ => False) (s := fun _ => False) h.mayCrash (fun hn => hnot hn id)
    (fun _ => False.elim) (fun hn => hnot hn id) (fun hn => hnot hn id) (fun hn => hnot hn id)
    (fun hn => hnot hn id) (fun hn => hnot hn id) (fun hn => hnot hn id) (fun _ => False.elim)
    (fun hn => hnot hn id) (fun _ => doneWhileStoppingOutput_quiet hcall h) (fun _ => halted h trivial)
    fun _ => halted h trivial

/-! Reads of frames. -/

theorem frameRead_quiet {callback : FrameCallback} (h : Calm plugins busy c) :
    Ends (fun c' => Base plugins c' ∧ Quiet c c') (Crashed plugins busy) (FrameReader.read call callback c) :=
  FrameReader.read_rule h.mayCrash
    (fun _ => hcall (.readerCommence _ .frameReader) _
      ⟨h.1.frame (s := .readingFrameHeader) (n := c.frameSize) (by simp), h.2⟩)
    fun _ => h.silent

/-- The end of the stream. -/
theorem readDoneEof_quiet {callback : ReadCallback} {buffer : Bool} (h : Calm plugins busy c) :
    Ends (fun c' => Base plugins c' ∧ Quiet c c') (Crashed plugins busy)
      (callback.done call buffer 0 c) := by
  have hfailed : Quiet c { c with negotiator := .failed } :=
    { Quiet.refl c with negotiator := .inr rfl }
  have hfail := quiet_of_down (hcall .connectionFail c h)
  cases callback with
  | negotiator =>
    exact Negotiator.readDone_rule h.mayCrash
      (fun _ _ => hfailed.followed (hcall .connectionShutdown _ (h.quiet h.1 hfailed)))
      (fun h0 => absurd rfl h0) (fun h0 => absurd rfl h0) fun h0 => absurd rfl h0
  | frameReader =>
    refine FrameReader.readDone_rule h.mayCrash (fun _ _ => hcall .connectionShutdown c h)
      (fun _ h0 => absurd rfl h0) (fun _ h8 => absurd h8 (by decide)) (fun _ h8 => absurd h8 (by decide))
      (fun _ h8 => absurd h8 (by decide)) (fun _ _ => hfail) fun hs hsize => ?_
    exact absurd (h.1.2.2 hs) (by omega)
  | connection => exact readDoneWhileDraining_quiet hcall h

/-! ## The dialogue -/

omit hcall in
theorem Stands.quiet {c' : Connection} (h : Stands plugins c) (hb : Base plugins c')
    (hq : Quiet c c') : Stands plugins c' := by
  obtain ⟨-, hp⟩ := h
  have hup : ∀ {n : ConnectionState}, ¬ n.Down → c'.name = n → c.name = n := by
    intro n hn he
    rcases hq.name with hname | hname
    · rw [← hname, he]
    · exact absurd (he ▸ hname) hn
  refine ⟨hb, hp.talked.quiet hq.said hq.trace, fun hu => hp.answered (hu.quiet hq.said), ?_, ?_, ?_, ?_,
    ?_, ?_, ?_, ?_, ?_, ?_⟩
  · intro hr
    rcases hq.name with hname | hname
    · rw [hname]
      exact hp.refused (hr.quiet hq.said)
    · exact .inr hname
  · intro hname
    rw [hq.said, hq.sasl, hq.tunnel]
    refine hp.idle ?_
    rcases hname with hname | hname
    · exact .inl (hup id hname)
    · exact .inr (hup id hname)
  · intro hsasl
    rw [hq.sasl] at hsasl
    obtain ⟨hsaid, hname⟩ := hp.offered hsasl
    refine ⟨hq.said.trans hsaid, ?_⟩
    rcases hq.name with he | he
    · rwa [he]
    · exact .inr he
  · intro hname
    exact hq.tunnel.trans (hp.accepting (hup id hname))
  · intro hname
    obtain ⟨hsaid, htunnel⟩ := hp.waiting (hup id hname)
    exact ⟨hq.said.trans hsaid, hq.tunnel.trans htunnel⟩
  · intro ht
    rw [hq.said]
    exact hp.tunnels (hq.tunnels ht)
  · intro hn
    have hn' : c.negotiator = .waitingOnClientRequest := by
      rcases hq.negotiator with he | he
      · rw [← he, hn]
      · rw [hn] at he
        simp at he
    obtain ⟨hr, hsaid, hname⟩ := hp.request hn'
    refine ⟨hq.request.trans hr, hq.said ▸ hsaid, ?_⟩
    rcases hq.name with he | he
    · rwa [he]
    · exact .inr (.inr he)
  · intro hn
    rcases hq.negotiator with he | he
    · exact hp.broker (he ▸ hn)
    · rw [hn] at he
      simp at he
  · rw [hq.sasl]
    exact hp.mechanisms
  · intro hc
    rw [hq.connected] at hc
    exact (hp.connected hc).mono hq.trace

omit hcall in
theorem Stands.calm (h : Stands plugins c) : Calm plugins busy c :=
  ⟨h.1, h.2.talked, fun hu => absurd hu h.2.answered⟩

omit hcall in
/-- A quiet call at the end of a step. -/
theorem Stands.rests {r : Outcome} (h : Stands plugins c) (hname : c.name ≠ .sendingErrorMessage)
    (hr : Ends (fun c' => Base plugins c' ∧ Quiet c c') (Crashed plugins busy) r) :
    Ends (Rests plugins) (Crashed plugins busy) r := by
  refine hr.mono ?_ fun _ he => he
  rintro c' ⟨hb, hq⟩
  refine ⟨h.quiet hb hq, fun he => ?_⟩
  rcases hq.name with hn | hn
  · exact hname (hn ▸ he)
  · rw [he] at hn
    exact hn

omit hcall in
theorem Stands.down {r : Outcome} (h : Stands plugins c)
    (hr : Ends (fun c' => Base plugins c' ∧ Quiet c c' ∧ c'.name.Down) (Crashed plugins busy) r) :
    Ends (Rests plugins) (Crashed plugins busy) r := by
  refine hr.mono ?_ fun _ he => he
  rintro c' ⟨hb, hq, hdown⟩
  exact ⟨h.quiet hb hq, fun he => by rw [he] at hdown; exact hdown⟩

/-! The negotiator. -/

theorem wait_ends (h : pre plugins busy .negotiatorWait c) :
    Ends (Rests plugins) (Crashed plugins busy) (Negotiator.wait call c) := by
  obtain ⟨h, hbefore, hname⟩ := h
  refine Negotiator.wait_rule h.calm.mayCrash fun _ => ?_
  have h1 : Stands plugins { c with
      negotiator := .waitingOnClientRequest, preferredVersion := 0, confirm := none,
      rejectCallback := none, request := true } :=
    ⟨h.1, { h.2 with
      request := fun _ => ⟨rfl, hbefore, hname⟩
      broker := by simp }⟩
  refine h1.rests ?_ (hcall (.readerCommence _ .negotiator) _ h1.calm)
  change c.name ≠ _
  rcases hname with hname | hname | hname
  · simp [hname]
  · simp [hname]
  · intro he
    rw [he] at hname
    exact hname

omit hcall in
theorem reset_ends (h : Calm plugins busy c) :
    Ends (post plugins .negotiatorReset c) (Crashed plugins busy) (Negotiator.reset c) := by
  refine Negotiator.reset_rule h.mayCrash (fun hn => ?_) fun _ => rfl
  change c = { c with negotiator := .initialized }
  rw [← hn]

omit hcall in
/-- The trace with the header that has come. -/
theorem Asked.talked' {t : List Mark} {bytes : List UInt8} (h : Asked plugins busy c t bytes) :
    Talked plugins c.trace := by
  rw [h.trace]
  exact h.talked.mark (.header h.before bytes) (by simp)

omit hcall in
theorem Asked.said {t : List Mark} {bytes : List UInt8} (h : Asked plugins busy c t bytes) :
    negotiation c.trace = negotiation t ++ [.receivedHeader bytes] := by
  rw [h.trace, negotiation_append]
  rfl

omit hcall in
/-- If the header is not to be refused, it does not wait for an answer. -/
theorem Asked.told {t : List Mark} {bytes : List UInt8} (h : Asked plugins busy c t bytes)
    (hr : Refuses (negotiation t) bytes → busy) : Told plugins busy c.trace := by
  refine ⟨h.talked', fun hu => ?_⟩
  obtain ⟨n, bytes', hn, heq⟩ := hu
  rw [h.said] at heq
  obtain ⟨rfl, hb⟩ := List.append_inj' heq rfl
  simp only [List.cons.injEq, Mark.receivedHeader.injEq, and_true] at hb
  subst hb
  exact hr hn

omit hcall in
theorem tunnels_of_transitionTo {n : ConnectionState} (hn : n ≠ .tunnelAccepted)
    (h : Tunnels (Machine.transitionTo n c)) : Tunnels c := by
  have ha : c.amqp ≠ .initialized := by
    cases n <;> simp [Tunnels, Machine.transitionTo] at h hn <;> exact h
  exact .inr (.inl ha)

omit hcall in
/-- The connection moves on to answer. -/
theorem Asked.transitionTo {t : List Mark} {bytes : List UInt8} (h : Asked plugins busy c t bytes)
    (hup : ¬ c.name.Down) {n : ConnectionState} (hn : n ≠ .tunnelAccepted) :
    Asked plugins busy (Machine.transitionTo n c) t bytes where
  base := ⟨h.base.1, fun hw => absurd (h.base.2.1 hw) hup, h.base.2.2⟩
  trace := h.trace
  length := h.length
  talked := h.talked
  before := h.before
  negotiator := h.negotiator
  tunnels := fun ht => h.tunnels (tunnels_of_transitionTo hn ht)
  sasl := h.sasl
  mechanisms := h.mechanisms
  connected := h.connected
  writer := h.writer

omit hcall in
theorem Asked.setSasl {t : List Mark} {bytes : List UInt8} (h : Asked plugins busy c t bytes)
    {s : SaslState} (hs : s = .failed ∨ s = .sendingHeaderResponse) :
    Asked plugins busy { c with sasl := s } t bytes where
  base := h.base
  trace := h.trace
  length := h.length
  talked := h.talked
  before := h.before
  negotiator := h.negotiator
  tunnels := h.tunnels
  sasl := by rcases hs with rfl | rfl <;> simp
  mechanisms := by rcases hs with rfl | rfl <;> simp
  connected := h.connected
  writer := h.writer

omit hcall in
theorem Asked.setTunnel {t : List Mark} {bytes : List UInt8} (h : Asked plugins busy c t bytes)
    {s : AmqpTunnelState} : Asked plugins busy { c with amqpTunnel := s } t bytes where
  base := h.base
  trace := h.trace
  length := h.length
  talked := h.talked
  before := h.before
  negotiator := h.negotiator
  tunnels := h.tunnels
  sasl := h.sasl
  mechanisms := h.mechanisms
  connected := h.connected
  writer := h.writer

theorem rejectProtocolVersion_ends {t : List Mark} {bytes : List UInt8} {version : Nat}
    (h : Asked plugins busy c t bytes) (hup : ¬ c.name.Down) (hr : Refuses (negotiation t) bytes)
    (hv : Supported version) :
    Ends (Rests plugins) (Crashed plugins busy) (Machine.rejectProtocolVersion call version c) :=
  hcall (.negotiatorSend version .connectionDone) _
    ⟨t, bytes, h.transitionTo hup (n := .sendingErrorMessage) (by simp), .refuse rfl hr hv⟩

omit hcall in
/-- Headers that are acceptable decode to the versions that are supported. -/
theorem decodeVersion_acceptable {n : List Mark} {bytes : List UInt8} (h : Acceptable n bytes) :
    decodeVersion bytes = amqpPreferredVersion ∨ n = [] ∧ decodeVersion bytes = amqpSaslPreferredVersion := by
  rcases h with rfl | ⟨hn, rfl⟩
  · exact .inl (by decide)
  · exact .inr ⟨hn, by decide⟩

theorem establish_ends {t : List Mark} {bytes : List UInt8} {accepted : Protocols}
    (h : Asked plugins busy c t bytes) (hup : ¬ c.name.Down) (htunnel : c.amqpTunnel = .initialized)
    (hplace : negotiation t = [] ∧ c.sasl = .initialized ∧ accepted = ⟨true, true, true⟩ ∨
      negotiation t = saslExchange ∧ accepted = ⟨false, false, true⟩) :
    Ends (Rests plugins) (Crashed plugins busy)
      (Machine.establishTunnelAfterClientRequest call (decodeVersion bytes) accepted c) := by
  have hnil : negotiation t = [] → accepted = ⟨true, true, true⟩ := by
    rintro hn
    rcases hplace with ⟨-, -, ha⟩ | ⟨hn', -⟩
    · exact ha
    · rw [hn] at hn'
      simp [saslExchange] at hn'
  refine Machine.establish_rule (fun hv => ?_) (fun hvalid hid => ?_) (fun hvalid hid => ?_) fun _ hid => ?_
  · -- the version is none, or not one that may be asked for now
    refine rejectProtocolVersion_ends hcall h hup ⟨h.before, fun ha => ?_, fun ht => ?_⟩ (.inl rfl)
    · rcases decodeVersion_acceptable ha with he | ⟨hn, he⟩
      · rw [he] at hv
        rcases hplace with ⟨-, -, rfl⟩ | ⟨-, rfl⟩ <;> exact absurd hv (by decide)
      · rw [he, hnil hn] at hv
        exact absurd hv (by decide)
    · rcases hv with hv | hv
      · rw [AsksForTls, hv] at ht
        exact absurd ht.2 (by decide)
      · rw [hnil ht.1, ht.2] at hv
        exact absurd hv (by decide)
  · -- TLS is asked for, so this is the first header
    have hn : negotiation t = [] := by
      rcases hplace with ⟨hn, -⟩ | ⟨-, rfl⟩
      · exact hn
      · rw [hid] at hvalid
        exact absurd hvalid (by decide)
    exact hcall (.tlsAccept _) _ (h.told fun hr => absurd ⟨hn, hid⟩ hr.2.2)
  · have hn : negotiation t = [] ∧ c.sasl = .initialized := by
      rcases hplace with ⟨hn, hs, -⟩ | ⟨-, rfl⟩
      · exact ⟨hn, hs⟩
      · rw [hid] at hvalid
        exact absurd hvalid (by decide)
    exact hcall (.saslAccept _) _ ⟨rfl, rfl, t, bytes, h.transitionTo hup (by simp), rfl, hn.1, hid, hn.2,
      htunnel⟩
  · exact hcall (.tunnelAccept _) _ ⟨rfl, rfl, t, bytes, h.transitionTo hup (by simp), rfl, hid, htunnel⟩

theorem begin_ends {version : Nat} (h : pre plugins busy (.connectionBegin version) c) :
    Ends (Rests plugins) (Crashed plugins busy) (Machine.begin call version c) := by
  obtain ⟨t, bytes, h, rfl, hr, hp⟩ := h
  obtain ⟨-, -, hname⟩ := hp.request rfl
  refine Machine.begin_rule (fun hnone => ?_) fun accepted ha => ?_
  · -- the connection is on its way down already
    have hdown : c.name.Down := by
      rcases hname with hname | hname | hname
      · simp [hname, Machine.acceptedIn] at hnone
      · simp [hname, Machine.acceptedIn] at hnone
      · exact hname
    refine fun _ _ => ⟨h.talked', fun hu => .inr ?_⟩
    exact (h.told fun hrefuse => (hr hrefuse).resolve_right fun hup => hup hdown).2 hu
  · rcases hname with hname | hname | hname
    · obtain ⟨hsaid, hsasl, htunnel⟩ := hp.idle (.inr hname)
      rw [hname] at ha
      exact establish_ends hcall h (up_of_name hname id) htunnel (.inl ⟨hsaid, hsasl, (Option.some.inj ha).symm⟩)
    · obtain ⟨hsaid, htunnel⟩ := hp.waiting hname
      rw [hname] at ha
      exact establish_ends hcall h (up_of_name hname id) htunnel (.inr ⟨hsaid, (Option.some.inj ha).symm⟩)
    · exact absurd hname (Machine.not_down_of_acceptedIn ha)

theorem request_ends {version : Nat} (h : pre plugins busy (.requestCallback version) c) :
    Ends (Rests plugins) (Crashed plugins busy) (dispatch d call (.requestCallback version) c) := by
  have hrequest : c.request = true := by
    obtain ⟨t, bytes, -, -, -, hp⟩ := h
    exact (hp.request rfl).1
  exact requestCallback_rule (fun hno => absurd hrequest (by simp [hno]))
    fun _ => hcall (.connectionBegin version) c h

theorem reject_ends {version : Nat} (h : pre plugins busy (.connectionReject version) c) :
    Ends (Rests plugins) (Crashed plugins busy) (Machine.reject call version c) := by
  obtain ⟨hreject, t, bytes, h, hup, hr, hv⟩ := h
  exact Machine.reject_rule (fun hnone => by simp [hnone] at hreject)
    fun _ => rejectProtocolVersion_ends hcall h hup hr hv

theorem saslAccept_ends {version : Nat} (h : pre plugins busy (.saslAccept version) c) :
    Ends (Rests plugins) (Crashed plugins busy) (Sasl.accept call version c) := by
  obtain ⟨hname, hreject, t, bytes, h, rfl, hn, hid, hsasl, htunnel⟩ := h
  have hrequired := h.base.1.sasl
  refine Sasl.accept_rule (fun hno => absurd (hno.resolve_left (not_not_intro hsasl)) (not_not_intro hid))
    (fun _ hv => ?_) fun _ hv => ?_
  · refine hcall (.connectionReject _) _
      ⟨hreject, t, bytes, h.setSasl (.inl rfl), up_of_name hname id, ?_, .inr hrequired⟩
    refine ⟨h.before, fun ha => ?_, fun ht => ?_⟩
    · rcases decodeVersion_acceptable ha with he | ⟨-, he⟩
      · rw [he] at hid
        exact absurd hid (by decide)
      · exact hv (he.trans hrequired.symm)
    · rw [AsksForTls, hid] at ht
      exact absurd ht.2 (by decide)
  · have hbytes : bytes = encodeVersion amqpSaslPreferredVersion := by
      rw [← Order.take_eq_encodeVersion (hv.trans hrequired) (by decide), List.take_of_length_le h.length]
    refine hcall (.negotiatorSend _ .saslBrokerVersionSent) _ ⟨t, bytes, h.setSasl (.inr rfl), ?_⟩
    rw [hrequired]
    exact .sasl hname htunnel hn hbytes

theorem tunnelAccept_ends {version : Nat} (h : pre plugins busy (.tunnelAccept version) c) :
    Ends (Rests plugins) (Crashed plugins busy) (AmqpTunnel.accept call version c) := by
  obtain ⟨hname, hreject, t, bytes, h, rfl, hid, htunnel⟩ := h
  have hrequired := h.base.1.amqp
  refine AmqpTunnel.accept_rule
    (fun hno => absurd (hno.resolve_left (not_not_intro htunnel)) (not_not_intro hid)) (fun _ hv => ?_)
    fun _ hv => ?_
  · refine hcall (.connectionReject _) _
      ⟨hreject, t, bytes, h.setTunnel, up_of_name hname id, ?_, .inl hrequired⟩
    refine ⟨h.before, fun ha => ?_, fun ht => ?_⟩
    · rcases decodeVersion_acceptable ha with he | ⟨-, he⟩
      · exact hv (he.trans hrequired.symm)
      · rw [he] at hid
        exact absurd hid (by decide)
    · rw [AsksForTls, hid] at ht
      exact absurd ht.2 (by decide)
  · have hbytes : bytes = encodeVersion amqpPreferredVersion := by
      rw [← Order.take_eq_encodeVersion (hv.trans hrequired) (by decide), List.take_of_length_le h.length]
    refine hcall (.negotiatorSend _ .amqpDone) _ ⟨t, bytes, h.setTunnel, ?_⟩
    rw [hrequired]
    exact .amqp hname hbytes

/-! The answer. -/

omit hcall in
theorem Reply.dialogue {n : List Mark} {bytes : List UInt8} {version : Nat} {confirm : ConfirmCallback}
    (h : Reply c n bytes version confirm) (hn : BeforeTunnel n) :
    Dialogue (n ++ [.receivedHeader bytes, .sent (.header version)]) := by
  cases h with
  | refuse _ hr hv => exact .answered hr hv
  | sasl _ _ hn hbytes =>
    subst hn hbytes
    exact .sasl ⟨_, rfl⟩
  | amqp _ hbytes =>
    subst hbytes
    exact .amqp hn List.prefix_rfl

omit hcall in
theorem Reply.name_eq {n : List Mark} {bytes : List UInt8} {version : Nat} {confirm : ConfirmCallback}
    (h : Reply c n bytes version confirm) :
    c.name = .sendingErrorMessage ∨ c.name = .acceptingSasl ∨ c.name = .acceptingAmqp := by
  cases h with
  | refuse hname _ _ => exact .inl hname
  | sasl hname _ _ _ => exact .inr (.inl hname)
  | amqp hname _ => exact .inr (.inr hname)

omit hcall in
/-- A header may be sent in reply. -/
theorem Asked.say {t : List Mark} {bytes : List UInt8} {version : Nat} {confirm : ConfirmCallback}
    (h : Asked plugins busy c t bytes) (hreply : Reply c (negotiation t) bytes version confirm) :
    (Told plugins busy c.trace ∨ c.writer = .enabled) ∧
      Told plugins busy (c.trace ++ [.sent (.header version)]) := by
  refine ⟨?_, ?_, fun hu =>
    absurd hu (not_unanswered (m := .header version) (n := negotiation c.trace) ?_)⟩
  · cases hreply with
    | refuse _ hr _ =>
      rcases h.writer hr with hbusy | hw
      · exact .inl ⟨h.talked', fun _ => hbusy⟩
      · exact .inr hw
    | sasl _ _ hn hbytes => exact .inl (h.told fun hr => absurd (.inr ⟨hn, hbytes⟩) hr.2.1)
    | amqp _ hbytes => exact .inl (h.told fun hr => absurd (.inl hbytes) hr.2.1)
  · refine h.talked'.mark ?_ (by simp)
    rw [h.said, List.append_assoc]
    exact hreply.dialogue h.before
  · exact negotiation_append _ _

omit hcall in
/-- The connection once its answer is sent. -/
theorem Asked.stands {t : List Mark} {bytes : List UInt8} {version : Nat} {confirm : ConfirmCallback}
    (h : Asked plugins busy c t bytes) (hreply : Reply c (negotiation t) bytes version confirm) :
    Placed plugins c.name c.sasl c.amqpTunnel false .negotiated (Tunnels c) c.saslConnected
      (c.trace ++ [.sent (.header version)]) := by
  have hsaid : negotiation (c.trace ++ [.sent (.header version)]) =
      negotiation t ++ [.receivedHeader bytes, .sent (.header version)] := by
    rw [negotiation_append, h.said, List.append_assoc]
    rfl
  have hpre : t <+: c.trace ++ [.sent (.header version)] := by
    rw [h.trace, List.append_assoc]
    exact List.prefix_append _ _
  constructor
  · exact (h.say hreply).2.1
  · exact not_unanswered (m := .header version) (n := negotiation c.trace) (negotiation_append _ _)
  · intro hr
    cases hreply with
    | refuse hname _ _ => exact .inl hname
    | sasl _ _ hn hbytes =>
      subst hbytes
      rw [hn] at hsaid
      exact absurd hr (not_refused hsaid (.inl ⟨_, rfl⟩))
    | amqp _ hbytes =>
      subst hbytes
      exact absurd hr (not_refused hsaid (.inr ⟨_, _, h.before, List.prefix_rfl, rfl⟩))
  · intro hname
    rcases hreply.name_eq with hn | hn | hn <;> simp [hn] at hname
  · exact fun hs => absurd hs h.sasl
  · intro hname
    cases hreply with
    | refuse hn _ _ => simp [hn] at hname
    | sasl _ htunnel _ _ => exact htunnel
    | amqp hn _ => simp [hn] at hname
  · intro hname
    rcases hreply.name_eq with hn | hn | hn <;> simp [hn] at hname
  · exact fun ht => absurd ht h.tunnels
  · simp
  · simp
  · exact h.mechanisms
  · exact fun hc => (h.connected hc).mono hpre

omit hcall in
theorem Reply.answered {t : List Mark} {bytes : List UInt8} {version : Nat} {confirm : ConfirmCallback}
    (h : Asked plugins busy c t bytes) (hreply : Reply c (negotiation t) bytes version confirm)
    {c1 : Connection} (hname : c1.name = c.name ∨ c1.name.Down)
    (hsaid : negotiation c1.trace = negotiation (c.trace ++ [.sent (.header version)])) :
    Answered c1 confirm := by
  have hn1 : ∀ {n : ConnectionState}, c.name = n → c1.name = n ∨ c1.name.Down := by
    intro n hn
    rwa [hn] at hname
  rw [negotiation_append, h.said, List.append_assoc] at hsaid
  cases hreply with
  | refuse hn _ _ => exact .refuse (hn1 hn)
  | sasl hn _ hnil hbytes =>
    subst hbytes
    rw [hnil] at hsaid
    exact .sasl (hn1 hn) hsaid
  | amqp hn hbytes =>
    subst hbytes
    exact .amqp (hn1 hn) ⟨_, h.before, hsaid⟩

theorem send_ends {version : Nat} {confirm : ConfirmCallback}
    (h : pre plugins busy (.negotiatorSend version confirm) c) :
    Ends (Rests plugins) (Crashed plugins busy) (Negotiator.send call version confirm c) := by
  obtain ⟨t, bytes, h, hreply⟩ := h
  refine Negotiator.send_rule (fun hne => absurd h.negotiator hne)
    (fun _ => hcall (.writerWrite (.header version)) _ ⟨h.base, h.talked', h.say hreply⟩) ?_
  rintro c1 ⟨hb1, hq1⟩
  have h1 : Stands plugins { c with
      preferredVersion := version, confirm := some confirm, rejectCallback := none, request := false,
      negotiator := .negotiated, trace := c.trace ++ [.sent (.header version)] } :=
    ⟨h.base, h.stands hreply⟩
  have h2 : Stands plugins { c1 with negotiator := .negotiated } :=
    h1.quiet hb1 { hq1 with negotiator := .inl rfl }
  exact hcall .confirmCallback _ ⟨h2, confirm, hq1.confirm, hreply.answered h hq1.name hq1.said⟩

theorem confirm_ends (h : pre plugins busy .confirmCallback c) :
    Ends (Rests plugins) (Crashed plugins busy) (dispatch d call .confirmCallback c) := by
  obtain ⟨h, callback, hcallback, hanswered⟩ := h
  have hanswer : ∀ {other : ConfirmCallback}, c.confirm = some other → Answered c other := fun he =>
    Option.some.inj (hcallback.symm.trans he) ▸ hanswered
  refine confirmCallback_rule (r := fun _ => False) h.calm.mayCrash (fun he => by cases hanswer he)
    (fun _ => False.elim) (fun he => by cases hanswer he) (fun he => hcall .saslDone c ⟨h, hanswer he⟩)
    (fun he => hcall .tunnelDone c ⟨h, hanswer he⟩) fun he => ?_
  cases hanswer he with
  | refuse hname =>
    refine (hcall .connectionDone c ⟨h.calm, ?_⟩).mono (fun _ h' => h'.2 h) fun _ he => he
    exact hname.symm.imp id fun hname => ⟨h, .refuse hname⟩

omit hcall in
/-- Mechanisms are offered. -/
theorem Placed.offer {name : ConnectionState} {sasl : SaslState} {a : AmqpTunnelState} {r : Bool}
    {g : NegotiatorState} {p : Prop} {k : Bool} {t : List Mark} (h : Placed plugins name sasl a r g p k t)
    (hname : name = .acceptingSasl ∨ name.Down) (ht : negotiation t = saslExchange.take 2) :
    Placed plugins name .waitingOnSaslInitialResponseFrame a r g p k (t ++ [.sent .saslMechanisms]) := by
  have hsaid : negotiation (t ++ [.sent .saslMechanisms]) = saslExchange.take 3 := by
    rw [negotiation_append, ht]
    rfl
  -- before the offer, the exchange was at its second mark
  have hneither : ¬ BeforeTunnel (negotiation t) := by
    rw [ht]
    rintro (he | he) <;> simp [saslExchange] at he
  constructor
  · refine h.talked.mark ?_ (by simp)
    rw [ht]
    exact .sasl ⟨_, rfl⟩
  · exact not_unanswered (m := .saslMechanisms) (n := negotiation t) (negotiation_append _ _)
  · exact fun hr => absurd hr (not_refused hsaid (.inl ⟨_, rfl⟩))
  · exact fun hn => absurd (.inl (h.idle hn).1) hneither
  · exact fun _ => ⟨hsaid, hname⟩
  · exact h.accepting
  · exact fun hn => absurd (.inr (h.waiting hn).1) hneither
  · intro hp
    obtain ⟨n, hn, heq⟩ := h.tunnels hp
    rw [ht] at heq
    rcases hn with rfl | rfl
    · exact absurd heq (by decide)
    · exact absurd heq (by decide)
  · exact fun hg => absurd (h.request hg).2.1 hneither
  · exact h.broker
  · simp
  · exact fun hc => (h.connected hc).mono (List.prefix_append _ _)

omit hcall in
theorem ne_sendingErrorMessage {n m : ConnectionState} (h : m = n ∨ m.Down)
    (hn : n ≠ .sendingErrorMessage) : m ≠ .sendingErrorMessage := by
  rintro rfl
  exact h.elim (fun he => hn he.symm) id

theorem saslDone_ends (h : pre plugins busy .saslDone c) :
    Ends (Rests plugins) (Crashed plugins busy) (Sasl.done call c) := by
  obtain ⟨h, hanswered⟩ := h
  cases hanswered with
  | sasl hname htrace =>
  have hoffer := h.2.offer hname htrace
  have h1 : Stands plugins { c with
      sasl := .waitingOnSaslInitialResponseFrame, trace := c.trace ++ [.sent .saslMechanisms] } :=
    ⟨h.1, hoffer⟩
  refine Sasl.done_rule (s := Rests plugins) h.calm.mayCrash
    (fun _ _ => h.down (hcall .connectionFail c h.calm))
    (fun _ => hcall (.writerWrite .saslMechanisms) c
      ⟨h.1, h.2.talked, .inl h.calm.2, hoffer.talked, fun hu => absurd hu hoffer.answered⟩) ?_
    fun c2 h2 => h2.1.rests h2.2 (hcall (.frameRead .sasl) c2 h2.1.calm)
  rintro c1 ⟨hb1, hq1⟩
  have h2 : Stands plugins { c1 with sasl := .waitingOnSaslInitialResponseFrame } :=
    h1.quiet hb1 { hq1 with sasl := rfl }
  exact h2.rests (ne_sendingErrorMessage hq1.name (ne_sendingErrorMessage hname (by simp)))
    (hcall .frameEnable _ h2.calm)

omit hcall in
theorem Placed.setTunnel {name : ConnectionState} {sasl : SaslState} {a a' : AmqpTunnelState} {r : Bool}
    {g : NegotiatorState} {p : Prop} {k : Bool} {t : List Mark} (h : Placed plugins name sasl a r g p k t)
    (hname : name = .acceptingAmqp ∨ name.Down) : Placed plugins name sasl a' r g p k t := by
  refine { h with idle := ?_, accepting := ?_, waiting := ?_ }
  · rintro (rfl | rfl) <;> simp [ConnectionState.Down] at hname
  · rintro rfl
    simp [ConnectionState.Down] at hname
  · rintro rfl
    simp [ConnectionState.Down] at hname

theorem tunnelDone_ends (h : pre plugins busy .tunnelDone c) :
    Ends (Rests plugins) (Crashed plugins busy) (AmqpTunnel.done call c) := by
  obtain ⟨h, hanswered⟩ := h
  cases hanswered with
  | amqp hname htrace =>
  refine AmqpTunnel.done_rule h.calm.mayCrash fun _ => ?_
  have h1 : Stands plugins { c with amqpTunnel := .negotiated } := ⟨h.1, h.2.setTunnel hname⟩
  refine (hcall .connectionDone _ ⟨h1.calm, ?_⟩).mono (fun _ h' => h'.2 h1) fun _ he => he
  exact hname.symm.imp id fun hname => ⟨h1, .amqp hname htrace⟩

omit hcall in
/-- SASL has been through. -/
theorem Placed.toWaiting {sasl : SaslState} {a : AmqpTunnelState} {r : Bool} {g : NegotiatorState}
    {p p' : Prop} {k : Bool} {t : List Mark} (h : Placed plugins .acceptingSasl sasl a r g p k t)
    (hsasl : sasl = .negotiated) (ht : negotiation t = saslExchange) (hp : p' → p) :
    Placed plugins .waitingOnAmqpNegotiationRequest sasl a r .initialized p' true t := by
  have hsent : .sent .saslOutcome ∈ t := by
    rw [← outcome_mem_negotiation, ht]
    simp [saslExchange]
  exact { h with
    refused := fun hr => absurd hr (not_refused ht (.inl List.prefix_rfl))
    idle := by simp
    offered := by simp [hsasl]
    accepting := by simp
    waiting := fun _ => ⟨ht, h.accepting rfl⟩
    tunnels := fun hp' => h.tunnels (hp hp')
    request := by simp
    broker := by simp
    connected := fun _ => h.talked.accepted hsent }

omit hcall in
/-- There is a tunnel. -/
theorem Placed.toTunnel {sasl : SaslState} {a : AmqpTunnelState} {r : Bool} {g : NegotiatorState}
    {p p' : Prop} {k : Bool} {t : List Mark} (h : Placed plugins .acceptingAmqp sasl a r g p k t)
    (ht : ∃ n, BeforeTunnel n ∧ negotiation t = n ++ tunnelExchange) :
    Placed plugins .tunnelAccepted sasl a r g p' k t := by
  refine { h with
    refused := fun hr => ?_
    idle := by simp
    offered := fun hs => ?_
    accepting := by simp
    waiting := by simp
    tunnels := fun _ => ht
    request := fun hg => ?_ }
  · exact absurd (h.refused hr) (by simp [ConnectionState.Down])
  · exact absurd (h.offered hs).2 (by simp [ConnectionState.Down])
  · exact absurd (h.request hg).2.2 (by simp [ConnectionState.Down])

theorem done_ends (h : pre plugins busy .connectionDone c) :
    Ends (post plugins .connectionDone c) (Crashed plugins busy) (Machine.done call c) := by
  obtain ⟨hcalm, hdone⟩ := h
  by_cases hdown : c.name.Down
  · refine (doneDown_quiet hcall hcalm hdown).mono ?_ fun _ he => he
    rintro c1 ⟨hb, hq⟩
    refine ⟨fun _ => ⟨hb, hq⟩, fun h => ⟨h.quiet hb hq, fun hn => ?_⟩⟩
    have := hq.down hdown
    rw [hn] at this
    exact this
  · obtain ⟨h, hfinish⟩ := hdone.resolve_left hdown
    suffices hrests : Ends (Rests plugins) (Crashed plugins busy) (Machine.done call c) from
      hrests.mono (fun _ h' => ⟨fun hd => absurd hd hdown, fun _ => h'⟩) fun _ he => he
    have hwriter : c.writer ≠ .stopping := fun hw => hdown (h.1.2.1 hw)
    -- there is no other state to go on from
    have hnot : ∀ {n : ConnectionState} {r : Prop}, c.name = n →
        n ≠ .sendingErrorMessage ∧ n ≠ .acceptingSasl ∧ n ≠ .acceptingAmqp → r := by
      rintro n r rfl ⟨hrefuse, hsasl, hamqp⟩
      cases hfinish with
      | down hname => exact absurd hname hdown
      | refuse hname => exact absurd hname hrefuse
      | sasl hname => exact absurd hname hsasl
      | amqp hname => exact absurd hname hamqp
    refine Machine.done_rule (r := fun _ => False) (s := fun c1 => pre plugins busy .negotiatorWait c1)
      hcalm.mayCrash (fun hn => hnot hn (by simp)) (fun _ => False.elim) (fun hn => hnot hn (by simp))
      (fun hn => hnot hn (by simp)) (fun hn => hnot hn (by simp))
      (fun _ => h.down (hcall .shutdownDrain c hcalm)) (fun hn => hnot hn (by simp)) (fun hn => ?_)
      (fun c1 h1 => hcall .negotiatorWait c1 h1) (fun hn => ?_) (fun hn => hnot hn (by simp))
      (fun hn => absurd (hn.elim (fun he => he ▸ trivial) fun he => he ▸ trivial) hdown)
      fun hn => hnot hn (by simp)
    · obtain ⟨htrace, hsasl⟩ : negotiation c.trace = saslExchange ∧ c.sasl = .negotiated := by
        cases hfinish with
        | sasl _ htrace hsasl => exact ⟨htrace, hsasl⟩
        | down hname => exact absurd hname hdown
        | refuse hname => simp [hn] at hname
        | amqp hname => simp [hn] at hname
      have hplaced := h.2
      rw [hn] at hplaced
      have hbase : Base plugins { Machine.transitionTo .waitingOnAmqpNegotiationRequest c with
          saslConnected := true } := ⟨h.1.1, fun hw => absurd hw hwriter, h.1.2.2⟩
      refine (hcall .negotiatorReset _ ⟨hbase, hcalm.2⟩).mono ?_ fun _ he => he
      rintro c1 rfl
      exact ⟨⟨hbase, hplaced.toWaiting hsasl htrace fun ht =>
        tunnels_of_transitionTo (n := .waitingOnAmqpNegotiationRequest) (by simp) ht⟩, .inr htrace,
        .inr (.inl rfl)⟩
    · have htrace : ∃ n, BeforeTunnel n ∧ negotiation c.trace = n ++ tunnelExchange := by
        cases hfinish with
        | amqp _ htrace => exact htrace
        | down hname => exact absurd hname hdown
        | refuse hname => simp [hn] at hname
        | sasl hname => simp [hn] at hname
      have hplaced := h.2
      rw [hn] at hplaced
      exact hcall .amqpWaitOnOpen (Machine.transitionTo .tunnelAccepted c)
        ⟨⟨⟨h.1.1, fun hw => absurd hw hwriter, h.1.2.2⟩, hplaced.toTunnel htrace⟩, rfl⟩

theorem waitOnOpen_ends (h : pre plugins busy .amqpWaitOnOpen c) :
    Ends (Rests plugins) (Crashed plugins busy) (AmqpConnection.waitOnOpen call c) := by
  obtain ⟨h, hname⟩ := h
  have hq : Quiet c { c with amqp := .waitingForOpenFrame } :=
    { Quiet.refl c with tunnels := fun _ => .inl hname }
  have hb : Base plugins { c with amqp := .waitingForOpenFrame } := h.1
  have h1 := h.quiet hb hq
  exact AmqpConnection.waitOnOpen_rule (r := Rests plugins) h.calm.mayCrash
    (fun _ => h1.rests (by simp [hname]) (hcall .frameEnable _ h1.calm))
    fun c2 h2 => h2.1.rests h2.2 (hcall (.frameRead .amqp) c2 h2.1.calm)

/-! Frames. -/

omit hcall in
theorem Rests.quiet {c' : Connection} (h : Rests plugins c) (hb : Base plugins c') (hq : Quiet c c') :
    Rests plugins c' := ⟨h.1.quiet hb hq, ne_sendingErrorMessage hq.name h.2⟩

omit hcall in
theorem quiet_cleanup (c : Connection) : Quiet c c.frameCleanup := quiet_mark c (m := .released) rfl

omit hcall in
theorem Calm.cleanup (h : Calm plugins busy c) : Calm plugins busy c.frameCleanup :=
  h.quiet h.1 (quiet_cleanup c)

theorem outOfSequenceSaslFrame_quiet (h : Calm plugins busy c) :
    Ends (fun c' => Base plugins c' ∧ Quiet c c') (Crashed plugins busy)
      (call .connectionFail c.frameCleanup) :=
  (quiet_cleanup c).followed (quiet_of_down (hcall .connectionFail _ h.cleanup))

theorem outOfSequenceFrame_quiet (h : Calm plugins busy c) :
    Ends (fun c' => Base plugins c' ∧ Quiet c c') (Crashed plugins busy)
      (call .connectionShutdown c.frameCleanup) :=
  (quiet_cleanup c).followed (hcall .connectionShutdown _ h.cleanup)

omit hcall in
/-- The outcome is due: the mechanisms were offered, and the init frame of a plugin has come. -/
theorem Placed.accept {name : ConnectionState} {a : AmqpTunnelState} {r : Bool}
    {g : NegotiatorState} {p : Prop} {k : Bool} {t : List Mark} {plugin : SaslPlugin}
    (h : Placed plugins name .waitingOnSaslInitialResponseFrame a r g p k
      (t ++ [.receivedFrame (.saslInit plugin.mechanismName)]))
    (hplugin : plugin ∈ plugins) (hhandles : plugin.handles = some .outcomeAccepted) :
    Placed plugins name .negotiated a r g p k
      (t ++ [.receivedFrame (.saslInit plugin.mechanismName)] ++ [.sent .saslOutcome]) := by
  obtain ⟨hsaid, hname⟩ := h.offered rfl
  have hsaid' : negotiation (t ++ [.receivedFrame (.saslInit plugin.mechanismName)] ++
      [.sent .saslOutcome]) = saslExchange := by
    rw [negotiation_append, hsaid]
    rfl
  have hneither : ¬ BeforeTunnel
      (negotiation (t ++ [.receivedFrame (.saslInit plugin.mechanismName)])) := by
    rw [hsaid]
    rintro (he | he) <;> simp [saslExchange] at he
  have hoffered : (saslExchange.take 3).Sublist t := by
    rw [← hsaid, negotiation_append]
    exact (List.append_nil _).symm ▸ List.filter_sublist
  have haccepted : SaslAccepted plugins (t ++ [.receivedFrame (.saslInit plugin.mechanismName)] ++
      [.sent .saslOutcome]) := by
    refine ⟨plugin, hplugin, hhandles, ?_⟩
    rw [List.append_assoc]
    exact hoffered.append (List.Sublist.refl _)
  constructor
  · refine h.talked.mark ?_ fun _ => haccepted
    rw [hsaid]
    exact .sasl List.prefix_rfl
  · exact not_unanswered (m := .saslOutcome) (negotiation_append _ _)
  · exact fun hr => absurd hr (not_refused hsaid' (.inl List.prefix_rfl))
  · exact fun hn => absurd (.inl (h.idle hn).1) hneither
  · simp
  · exact h.accepting
  · exact fun hn => absurd (.inr (h.waiting hn).1) hneither
  · intro hp
    obtain ⟨n, hn, heq⟩ := h.tunnels hp
    rw [hsaid] at heq
    rcases hn with rfl | rfl
    · exact absurd heq (by decide)
    · exact absurd heq (by decide)
  · exact fun hg => absurd (h.request hg).2.1 hneither
  · exact h.broker
  · simp
  · exact fun _ => haccepted

theorem initFrame_ends {mechanism : List UInt8}
    (h : pre plugins busy (.frameDispatch (.saslInit mechanism)) c) :
    Ends (Rests plugins) (Crashed plugins busy) (Sasl.initFrame call mechanism c) := by
  obtain ⟨h, t, ht⟩ := h
  refine Sasl.initFrame_rule (r := fun c1 => Stands plugins { c1.frameCleanup with sasl := .negotiated } ∧
      (c1.name = .acceptingSasl ∨ c1.name.Down) ∧ negotiation c1.frameCleanup.trace = saslExchange)
    h.1.calm.mayCrash (fun _ => h.1.rests h.2 (outOfSequenceSaslFrame_quiet hcall h.1.calm)) (fun _ => ?_)
    (fun hs plugin hp hh => ?_) ?_
  · exact (hcall .connectionFail c h.1.calm).mono
      (fun _ h1 => (h.1.calm.quiet h1.1 h1.2.1).cleanup.mayCrash) fun _ he => he
  · have hmem : plugin ∈ plugins := by
      rw [← h.1.1.1.plugins]
      exact List.mem_of_find?_eq_some hp
    have hmechanism : plugin.mechanismName = mechanism :=
      beq_iff_eq.mp (List.find?_some (p := fun p : SaslPlugin => p.mechanismName == mechanism) hp)
    subst hmechanism
    have hplaced := h.1.2
    obtain ⟨-, hname⟩ := hplaced.offered hs
    rw [hs, ht] at hplaced
    have haccept := hplaced.accept hmem hh
    rw [← ht] at haccept
    refine (hcall (.writerWrite .saslOutcome) { c with plugin := some plugin }
      ⟨h.1.1, h.1.2.talked, .inl h.1.calm.2, haccept.talked, fun hu => absurd hu haccept.answered⟩).mono ?_
      fun _ he => he
    rintro c1 ⟨hb1, hq1⟩
    have h1 : Stands plugins { c with
        sasl := .negotiated, trace := c.trace ++ [.sent .saslOutcome] } := ⟨h.1.1, haccept⟩
    have hq2 : Quiet { c with trace := c.trace ++ [.sent .saslOutcome] } c1.frameCleanup :=
      Quiet.trans (c := { c with trace := c.trace ++ [.sent .saslOutcome] }) hq1 (quiet_cleanup c1)
    refine ⟨h1.quiet hb1 { hq2 with sasl := rfl }, ?_, ?_⟩
    · rcases hq1.name with hn | hn
      · rcases hname with hname | hname
        · exact .inl (hn.trans hname)
        · exact .inr (by rw [hn]; exact hname)
      · exact .inr hn
    · rw [hq2.said, negotiation_append, (h.1.2.offered hs).1]
      rfl
  · rintro c1 ⟨h2, hname, hsaid⟩
    refine (hcall .connectionDone _ ⟨h2.calm, ?_⟩).mono (fun _ h' => h'.2 h2) fun _ he => he
    exact hname.symm.imp id fun hname => ⟨h2, .sasl hname hsaid rfl⟩

/-- There is a tunnel in `c`, so the connection may be opened later. -/
theorem connectionOpened_quiet {idleTimeOut : Nat} {c1 : Connection} (h : Calm plugins busy c)
    (ht : Tunnels c) (hb : Base plugins c1) (hq : Quiet c c1) :
    Ends (fun c' => Base plugins c' ∧ Quiet c c') (Crashed plugins busy)
      (AmqpConnection.connectionOpened call idleTimeOut c1) := by
  have hq1 : Quiet c { AmqpConnection.transitionToOpened c1 with
      timer := c1.idleTimeOut != 0 && idleTimeOut != 0 } := { hq with tunnels := fun _ => ht }
  exact hq1.followed (hcall (.frameRead .amqp) _ (h.quiet hb hq1))

theorem openFrame_quiet {hostname : Bool} {idleTimeOut : Nat} (h : Calm plugins busy c) :
    Ends (fun c' => Base plugins c' ∧ Quiet c c') (Crashed plugins busy)
      (AmqpConnection.openFrame call hostname idleTimeOut c) := by
  refine AmqpConnection.openFrame_rule (r := fun c1 => Base plugins c1 ∧ Quiet c c1 ∧ Tunnels c) h.mayCrash
    (fun _ _ => outOfSequenceFrame_quiet hcall h)
    (fun hs _ => connectionOpened_quiet hcall h (.inr (.inl (by simp [hs]))) h.1 (quiet_cleanup c))
    (fun hs _ => ?_) fun c1 h1 => connectionOpened_quiet hcall h h1.2.2 h1.1 h1.2.1
  exact (say_quiet hcall h.cleanup rfl).mono
    (fun _ h1 => ⟨h1.1, (quiet_cleanup c).trans h1.2, .inr (.inl (by simp [hs]))⟩) fun _ he => he

theorem closeFrame_quiet {error : Bool} (h : Calm plugins busy c) :
    Ends (fun c' => Base plugins c' ∧ Quiet c c') (Crashed plugins busy)
      (AmqpConnection.closeFrame call error c) := by
  refine AmqpConnection.closeFrame_rule (r := fun c1 => Base plugins c1 ∧ Quiet c c1)
    (s := fun c1 => Base plugins c1 ∧ Quiet c c1) h.mayCrash (fun _ _ => outOfSequenceFrame_quiet hcall h)
    (fun hs => ?_) (fun c1 h1 => h1.2.followed (say_quiet hcall (h.quiet h1.1 h1.2) rfl))
    (fun c2 h2 => h2.2.followed (quiet_of_down (hcall .shutdownDrain c2 (h.quiet h2.1 h2.2)))) fun hs => ?_
  · have hq1 : Quiet c (AmqpConnection.transitionToClosed { c with timer := true }).frameCleanup :=
      { quiet_cleanup c with tunnels := fun _ => .inr (.inl (by simp [hs])) }
    exact hq1.followed (hcall (.frameRead .discard) _ (h.quiet h.1 hq1))
  · have hq1 : Quiet c (AmqpConnection.transitionToClosed c.frameCleanup) :=
      { quiet_cleanup c with tunnels := fun _ => .inr (.inl (by simp [hs])) }
    exact hq1.followed (quiet_of_down (hcall .shutdownDrain _ (h.quiet h.1 hq1)))

theorem emptyFrame_quiet (h : Calm plugins busy c) :
    Ends (fun c' => Base plugins c' ∧ Quiet c c') (Crashed plugins busy)
      (AmqpConnection.emptyFrame call c) :=
  AmqpConnection.emptyFrame_rule (fun _ => hcall (.frameRead .amqp) c h)
    fun _ _ => outOfSequenceFrame_quiet hcall h

theorem frameDispatch_ends {f : PeerFrame} (h : pre plugins busy (.frameDispatch f) c) :
    Ends (Rests plugins) (Crashed plugins busy) (f.dispatch call c) := by
  have hrests : ∀ {r : Outcome},
      Ends (fun c' => Base plugins c' ∧ Quiet c c') (Crashed plugins busy) r →
      Ends (Rests plugins) (Crashed plugins busy) r := fun hr => h.1.1.rests h.1.2 hr
  have hcalm : Calm plugins busy c := h.1.1.calm
  cases f with
  | saslMechanisms names =>
    have hnot := h.1.1.2.mechanisms.1
    exact Sasl.mechanismsFrame_rule (r := fun _ => False) hcalm.mayCrash
      (fun _ => hrests (outOfSequenceSaslFrame_quiet hcall hcalm)) (fun hs => absurd hs hnot)
      (fun hs => absurd hs hnot) fun _ => False.elim
  | saslInit mechanism => exact initFrame_ends hcall h
  | saslChallenge =>
    exact Sasl.challengeFrame_rule hcalm.mayCrash fun _ => hrests (outOfSequenceSaslFrame_quiet hcall hcalm)
  | saslResponse => exact hrests (outOfSequenceSaslFrame_quiet hcall hcalm)
  | saslOutcome code additionalData =>
    have hnot := h.1.1.2.mechanisms.2
    exact Sasl.outcomeFrame_rule hcalm.mayCrash
      (fun _ => hrests (outOfSequenceSaslFrame_quiet hcall hcalm)) (fun hs => absurd hs hnot)
      fun hs => absurd hs hnot
  | amqpOpen hostname idleTimeOut => exact hrests (openFrame_quiet hcall hcalm)
  | amqpClose error => exact hrests (closeFrame_quiet hcall hcalm)
  | empty => exact hrests (emptyFrame_quiet hcall hcalm)
  | _ => exact hrests (outOfSequenceFrame_quiet hcall hcalm)

theorem frameAvailable_ends (h : Rests plugins c) :
    Ends (Rests plugins) (Crashed plugins busy) (dispatch d call .frameAvailable c) := by
  refine frameAvailable_rule h.1.calm.mayCrash (fun f i _ => ?_)
    (fun _ _ => h.1.down (hcall .connectionFail c h.1.calm))
    (fun _ _ => h.1.rests h.2 (hcall .connectionShutdown c h.1.calm))
    fun _ => h.1.rests h.2 (hcall (.frameRead .discard) c h.1.calm)
  have hq := quiet_mark c (m := .receivedFrame f) rfl
  exact hcall (.frameDispatch f) { c with readIndex := i, trace := c.trace ++ [.receivedFrame f] }
    ⟨h.quiet h.1.1 hq, c.trace, rfl⟩

omit hcall in
theorem Rests.frame (h : Rests plugins c) {s : FrameReaderState} {n : Nat}
    (hs : s = .readingFrameBody → amqpFrameHeaderSizeInBytes < n) :
    Rests plugins { c with frameReader := s, frameSize := n } :=
  h.quiet (h.1.1.frame hs) (Quiet.refl c)

theorem frameReadDone_ends {amount : Nat} (h : Rests plugins c) :
    Ends (Rests plugins) (Crashed plugins busy) (FrameReader.readDone call amount c) := by
  have hfail := h.1.down (hcall .connectionFail c h.1.calm)
  refine FrameReader.readDone_rule h.1.calm.mayCrash
    (fun _ _ => h.1.rests h.2 (hcall .connectionShutdown c h.1.calm)) (fun _ _ _ => hfail) (fun hs _ _ => ?_)
    (fun _ _ _ _ => hcall .frameAvailable _ (h.frame (s := .enabled) (by simp))) (fun _ _ hsize hne => ?_)
    (fun _ _ => hfail) fun _ _ => hcall .frameAvailable _ (h.frame (s := .enabled) (n := c.frameSize) (by simp))
  · have h1 : Stands plugins { c with frameSize := FrameReader.announcedSize c } :=
      ⟨⟨h.1.1.1, h.1.1.2.1, fun hb => by simp [hs] at hb⟩, h.1.2⟩
    exact h1.down (hcall .connectionFail _ h1.calm)
  · unfold FrameReader.RefusesSize at hsize
    have h1 := h.frame (s := .readingFrameBody) (n := FrameReader.announcedSize c) fun _ => by omega
    exact h1.1.rests h1.2 (hcall (.readerCommence _ .frameReader) _ h1.1.calm)

theorem negotiatorReadDone_ends {buffer : Bool} {amount : Nat}
    (h : pre plugins busy (.readDone .negotiator buffer (amount + 1)) c) :
    Ends (Rests plugins) (Crashed plugins busy) (Negotiator.readDone call buffer (amount + 1) c) := by
  obtain ⟨h, hr⟩ := h
  refine Negotiator.readDone_rule h.1.calm.mayCrash (fun h0 => absurd h0 (Nat.succ_ne_zero amount))
    (fun _ hn => absurd hn h.1.2.broker) (fun _ hn => absurd hn h.1.2.broker) fun _ hn => ?_
  obtain ⟨hrequest, hbefore, hname⟩ := h.1.2.request hn
  have hheader : c.headerWith [] = (c.buffer.drop c.readIndex).take 8 := by
    simp [Connection.headerWith]
  have hr' := hr rfl
  rw [hheader] at hr'
  have hplaced := h.1.2
  rw [hn] at hplaced
  have htunnels : ¬ Tunnels c := by
    intro ht
    obtain ⟨n, hn, heq⟩ := h.1.2.tunnels ht
    rw [heq] at hbefore
    rcases hn with rfl | rfl <;> rcases hbefore with he | he <;> exact absurd he (by decide)
  have hsasl : c.sasl ≠ .waitingOnSaslInitialResponseFrame := by
    intro hs
    rw [(h.1.2.offered hs).1] at hbefore
    rcases hbefore with he | he <;> exact absurd he (by decide)
  refine hcall (.requestCallback _) _ ⟨c.trace, (c.buffer.drop c.readIndex).take 8, ?_, ?_, ?_, hplaced⟩
  · exact {
      base := h.1.1, trace := rfl, length := List.length_take_le _ _, talked := h.1.2.talked, before := hbefore
      negotiator := rfl, tunnels := htunnels, sasl := hsasl, mechanisms := h.1.2.mechanisms
      connected := h.1.2.connected
      writer := fun hrefuse => (hr' hrefuse).imp id And.left }
  · exact (decodeVersion_take _).symm
  · exact fun hrefuse => (hr' hrefuse).imp id And.right

theorem readDone_ends {callback : ReadCallback} {buffer : Bool} {amount : Nat}
    (h : pre plugins busy (.readDone callback buffer amount) c) :
    Ends (post plugins (.readDone callback buffer amount) c) (Crashed plugins busy)
      (callback.done call buffer amount c) := by
  cases amount with
  | zero => exact readDoneEof_quiet hcall h
  | succ amount =>
    cases callback with
    | negotiator => exact negotiatorReadDone_ends hcall h
    | frameReader => exact frameReadDone_ends hcall h.1
    | connection => exact h.1.1.rests h.1.2 (readDoneWhileDraining_quiet hcall h.1.1.calm)

theorem dispatch_respects (d : FrameDecoders) : Respects plugins busy (dispatch d call) := by
  intro a c h
  cases a with
  | connectionConnect lookup => exact h.elim
  | connectionBegin version => exact begin_ends hcall h
  | connectionReject version => exact reject_ends hcall h
  | connectionDone => exact done_ends hcall h
  | connectionFail => exact fail_ends hcall h
  | connectionShutdown => exact shutdown_quiet hcall h
  | connectionTimeout readIdle writeIdle => exact timeout_quiet hcall h
  | shutdownDrain => exact drain_ends hcall h
  | shutdownClose => exact shutdownConnection_ends hcall (m := .completeWriteAndCloseSocket) h
  | socketConnect lookup => exact h.elim
  | socketTryConnect => exact h.elim
  | socketDone => exact h.elim
  | socketFail => exact h.elim
  | socketShutdown => exact socketShutdown_quiet hcall h.1 h.2
  | writerEnable => exact Writer.enable_rule h.mayCrash fun _ => ⟨h.1.writer (by simp), .refl c⟩
  | writerWrite m => exact write_ends hcall h
  | writerContinue => exact continueWrite_quiet hcall h
  | writerComplete => exact writeComplete_quiet hcall h
  | writerStop => exact stop_quiet hcall h.1 h.2
  | writerAbort => exact Writer.abort_rule (fun _ => h.silent) ⟨h.1.writer (by simp), .refl c⟩
  | writerFail =>
    exact Writer.fail_rule h.mayCrash fun _ => hcall .connectionFail _ (h.writer (w := .failed) (by simp))
  | readerEnable => exact Reader.enable_rule h.mayCrash fun _ => h.silent
  | readerCommence required callback => exact commenceRead_quiet hcall h
  | readerReset => exact Reader.reset_rule (fun _ => h.silent) (fun _ => h.silent) fun _ _ _ => h.silent
  | readerDelayed =>
    exact Reader.delayedRead_rule (fun _ => delayedReadWhileReading_quiet hcall h) fun _ => h.silent
  | readerStop => exact Reader.stop_rule h.silent fun _ => h.silent
  | readerFail =>
    exact Reader.fail_rule h.mayCrash fun _ =>
      quiet_of_down (hcall .connectionFail { c with reader := .failed } h)
  | readDone callback buffer amount => exact readDone_ends hcall h
  | negotiatorStart version confirm reject => exact h.elim
  | negotiatorWait => exact wait_ends hcall h
  | negotiatorSend version confirm => exact send_ends hcall h
  | negotiatorReset => exact reset_ends h
  | confirmCallback => exact confirm_ends hcall h
  | rejectCallback version => exact h.elim
  | requestCallback version => exact request_ends hcall h
  | tlsConnect => exact h.elim
  | tlsAccept version => exact ⟨h.1, fun hu => .inr (h.2 hu)⟩
  | saslConnect => exact h.elim
  | saslAccept version => exact saslAccept_ends hcall h
  | saslDone => exact saslDone_ends hcall h
  | tunnelConnect => exact h.elim
  | tunnelAccept version => exact tunnelAccept_ends hcall h
  | tunnelDone => exact tunnelDone_ends hcall h
  | amqpSendOpen => exact h.elim
  | amqpWaitOnOpen => exact waitOnOpen_ends hcall h
  | frameEnable =>
    exact FrameReader.enable_rule
      (fun _ => ⟨h.1.frame (s := .enabled) (n := c.frameSize) (by simp), .refl c⟩) fun _ => h.silent
  | frameRead callback => exact frameRead_quiet hcall h
  | frameAvailable => exact frameAvailable_ends hcall h
  | frameDispatch f => exact frameDispatch_ends hcall h

theorem readComplete_ends {bytes : List UInt8} {inLoop : Bool} (h : Rests plugins c)
    (hr : c.readCallback = some .negotiator → Refuses (negotiation c.trace) (c.headerWith bytes) →
      busy ∨ c.writer = .enabled ∧ ¬ c.name.Down) :
    Ends (Rests plugins) (Crashed plugins busy) (Reader.readComplete call bytes inLoop c) := by
  refine Reader.readComplete_rule (r := Rests plugins)
    (Reader.callReadCallback_rule h.1.calm.mayCrash fun callback hcallback => ?_)
    (fun _ _ h1 => h1.1.rests h1.2 (delayedReadWhileReading_quiet hcall h1.1.calm))
    fun _ c1 h1 => h1.1.rests h1.2 (hcall .readerDelayed c1 h1.1.calm)
  dsimp only
  cases hrequired : c.required with
  | zero => exact h.1.rests h.2 (hcall (.readDone callback _ 0) _ h.1.calm)
  | succ amount =>
    refine hcall (.readDone callback _ (amount + 1)) _ ⟨h, fun he hrefuse => ?_⟩
    subst he
    refine hr hcallback ?_
    simpa [Connection.headerWith] using hrefuse

end Functions

/-! ## Every call, every step, every run -/

/-- Calls of any depth respect the dialogue. -/
theorem calls_respects (d : FrameDecoders) (depth : Nat) : Respects plugins busy (calls d depth) := by
  refine invoke_ends ?_ (fun call hcall => dispatch_respects hcall d) depth
  intro a c h
  refine ⟨?_, fun _ => .inl rfl⟩
  cases a with
  | readDone callback buffer amount =>
    cases amount with
    | zero => exact h.2.1
    | succ amount => exact h.1.1.2.talked
  | connectionDone => exact h.1.2.1
  | writerStop => exact h.1.2.1
  | socketShutdown => exact h.1.2.1
  | writerWrite m => exact h.2.1
  | connectionReject version =>
    obtain ⟨-, t, bytes, h, -⟩ := h
    exact h.talked'
  | saslAccept version =>
    obtain ⟨-, -, t, bytes, h, -⟩ := h
    exact h.talked'
  | tunnelAccept version =>
    obtain ⟨-, -, t, bytes, h, -⟩ := h
    exact h.talked'
  | requestCallback version =>
    obtain ⟨t, bytes, h, -⟩ := h
    exact h.talked'
  | connectionBegin version =>
    obtain ⟨t, bytes, h, -⟩ := h
    exact h.talked'
  | negotiatorSend version confirm =>
    obtain ⟨t, bytes, h, -⟩ := h
    exact h.talked'
  | frameDispatch f => exact h.1.1.2.talked
  | frameAvailable => exact h.1.2.talked
  | tlsAccept version => exact h.1
  | _ => first | exact h.elim | exact h.1.2.talked | exact h.2.1

theorem acceptSocket_ends {call : Calls} (hcall : Respects plugins busy call) {c : Connection}
    (h : Rests plugins c) (hname : c.name = .initialized) :
    Ends (Rests plugins) (Crashed plugins busy) (c.acceptSocket call) := by
  have hplaced := h.1.2
  obtain ⟨hsaid, -⟩ := hplaced.idle (.inl hname)
  have hwriter : c.writer ≠ .stopping := fun hw =>
    absurd (h.1.1.2.1 hw) (by simp [hname, ConnectionState.Down])
  have hnegotiator : c.negotiator ≠ .waitingOnClientRequest := fun hn =>
    absurd (hplaced.request hn).2.2 (by simp [hname, ConnectionState.Down])
  have h1 : Stands plugins { Machine.transitionTo .waitingOnClientNegotiationRequest c with
      socket := .accepted } := by
    refine ⟨⟨h.1.1.1, fun hw => absurd hw hwriter, h.1.1.2.2⟩, { hplaced with
      refused := fun hr => ?_, idle := fun _ => hplaced.idle (.inl hname), offered := fun hs => ?_
      accepting := by simp [Machine.transitionTo], waiting := by simp [Machine.transitionTo]
      tunnels := fun ht => hplaced.tunnels (tunnels_of_transitionTo
        (n := .waitingOnClientNegotiationRequest) (by simp) ht)
      request := fun hn => absurd hn hnegotiator }⟩
    · exact absurd hr (not_refused hsaid (.inl (List.nil_prefix)))
    · exact absurd (hplaced.offered hs).2 (by simp [hname, ConnectionState.Down])
  refine acceptSocket_rule (r := fun c' => Stands plugins c' ∧ negotiation c'.trace = [] ∧
      (c'.name = .waitingOnClientNegotiationRequest ∨ c'.name.Down)) ?_ ?_
  · refine Machine.enableIo_rule (hcall .readerEnable _ h1.calm) ?_
    rintro c1 ⟨hb1, hq1⟩
    refine (hcall .writerEnable c1 (h1.quiet hb1 hq1).calm).mono ?_ fun _ he => he
    rintro c2 ⟨hb2, hq2⟩
    have hq := hq1.trans hq2
    exact ⟨h1.quiet hb2 hq, hq.said.trans hsaid, hq.name⟩
  · rintro c1 ⟨h2, hsaid2, hname2⟩
    exact hcall .negotiatorWait _ ⟨h2, .inl hsaid2, hname2.imp id .inr⟩

theorem handle_ends {call : Calls} (hcall : Respects plugins busy call) {c : Connection}
    (h : Rests plugins c) (event : Event)
    (hr : ∀ bytes inLoop, event = .data bytes inLoop → ¬ c.destroyed → c.isReading →
      bytes.length = c.required → c.readCallback = some .negotiator →
      Refuses (negotiation c.trace) (c.headerWith bytes) → busy ∨ c.writer = .enabled ∧ ¬ c.name.Down) :
    Ends (Rests plugins) (Crashed plugins busy) (c.handle call event) := by
  have hrests : ∀ {r : Outcome},
      Ends (fun c' => Base plugins c' ∧ Quiet c c') (Crashed plugins busy) r →
      Ends (Rests plugins) (Crashed plugins busy) r := fun hr => h.1.rests h.2 hr
  have hcalm : Calm plugins busy c := h.1.calm
  exact handle_rule h (fun _ _ ha => absurd h.1.1.1.accepted (by simp [ha]))
    (fun _ hname _ => acceptSocket_ends hcall h hname)
    (fun _ => hrests (hcall .connectionShutdown c hcalm))
    (fun _ _ hw => absurd hw (by simp [h.1.1.1.watcher]))
    (fun bytes inLoop he hdestroyed hreading hlength =>
      readComplete_ends hcall h (hr bytes inLoop he (by simp [hdestroyed]) hreading hlength))
    (fun _ _ _ => hrests (readEof_quiet hcall hcalm)) (fun _ _ => hrests (hcall .readerFail c hcalm))
    (fun _ _ => hrests (hcall .writerContinue c hcalm))
    fun readIdle writeIdle _ _ => hrests (hcall (.connectionTimeout readIdle writeIdle) c hcalm)

theorem step_ends (d : FrameDecoders) (depth : Nat) {c : Connection} (h : Rests plugins c) (i : Stimulus)
    (hr : busy ∨ c.CanAnswer i) : Ends (Rests plugins) (Crashed plugins busy) (c.step d depth i) := by
  refine handle_ends (calls_respects d depth) (c := c.arm i) h i.event ?_
  intro bytes inLoop he hdestroyed hreading hlength hcallback hrefuse
  rcases hr with hbusy | hr
  · exact .inl hbusy
  · rw [Connection.CanAnswer, he] at hr
    exact .inr (hr hdestroyed hreading hlength hcallback hrefuse)

theorem rests_create (protocols : Protocols) (maxFrameSize idleTimeOut : Nat) :
    Rests plugins (Connection.create protocols maxFrameSize idleTimeOut plugins true) := by
  have hnil : negotiation ([] : List Mark) = [] := rfl
  refine ⟨⟨⟨⟨rfl, rfl, rfl, rfl, rfl⟩, by simp [Connection.create], by simp [Connection.create]⟩, ?_⟩,
    by simp [Connection.create]⟩
  have hrefused : ¬ Refused [] := not_refused hnil (.inl List.nil_prefix)
  constructor
  · exact .of_dialogue (.sasl List.nil_prefix) (by simp [Connection.create])
  · exact fun hu => hrefused (Unanswered.refused hu)
  · exact fun hr => absurd hr hrefused
  · exact fun _ => ⟨rfl, rfl, rfl⟩
  · simp [Connection.create]
  · simp [Connection.create]
  · simp [Connection.create]
  · simp [Connection.create, Tunnels]
  · simp [Connection.create]
  · simp [Connection.create]
  · simp [Connection.create]
  · simp [Connection.create]

theorem Rests.inOrder {c : Connection} (h : Rests plugins c) : InOrder plugins c where
  talked := h.1.2.talked
  answered := h.1.2.answered
  down := fun hr => (h.1.2.refused hr).resolve_left h.2
  tunnel := fun ht => h.1.2.tunnels (ht.imp id .inl)
  sasl := h.1.2.connected

end Server

/-- **A server negotiates in order**: whatever the client sends and whatever the system calls do, at
every state of every run, what was said is one of the dialogues there are, every header that had to be
refused was answered and was the end of the connection, there is a tunnel only after the AMQP header
came and was echoed, and `AMQP_CONNECTION_SASL_CONNECTED` is set only if SASL has been through. When
the process ends, what was said is one of the dialogues. No header is left unanswered even then, if none
that has to be refused came while the writer was busy or the connection coming to its end; the calls are
as deep as they need to be. (Kept memory.) -/
theorem server_negotiation_order (d : FrameDecoders) (depth : Nat) (protocols : Protocols)
    (maxFrameSize idleTimeOut : Nat) (plugins : List SaslPlugin) (is : List Stimulus) :
    Ends (InOrder plugins) (fun e => Talked plugins e.trace)
      (run (Connection.step d depth)
        (Connection.create protocols maxFrameSize idleTimeOut plugins true) is) ∧
    (callDepth ≤ depth → RunMeets (Connection.step d depth) Connection.CanAnswer
        (Connection.create protocols maxFrameSize idleTimeOut plugins true) is →
      Ends (InOrder plugins) (fun e => Talked plugins e.trace ∧ ¬ Unanswered e.trace)
        (run (Connection.step d depth)
          (Connection.create protocols maxFrameSize idleTimeOut plugins true) is)) := by
  constructor
  · have hrun := run_ends (c := fun _ _ => True)
      (fun c i (h : Server.Rests plugins c) _ => Server.step_ends d depth h i (.inl (trivial : True)))
      is _ (Server.rests_create protocols maxFrameSize idleTimeOut) (RunMeets.true is _)
    exact hrun.mono (fun _ h => h.inOrder) fun _ he => he.1
  · intro hdepth hmeets
    have hstep : ∀ c i, Server.Rests plugins c → c.CanAnswer i →
        Ends (Server.Rests plugins) (fun e => Talked plugins e.trace ∧ ¬ Unanswered e.trace)
          (Connection.step d depth c i) := by
      intro c i h hi
      have hfixed := h.1.1.1
      have hends : Ends (Server.Rests plugins) (Server.Crashed plugins False) (Connection.step d depth c i) :=
        Server.step_ends d depth h i (.inr hi)
      refine (hends.both (Depth.accepted_in_time hdepth hfixed.accepted hfixed.watcher i)).mono ?_ ?_
      · exact fun _ h => h.1
      · rintro e ⟨⟨htalked, hun⟩, hintime⟩
        exact ⟨htalked, fun hu => hintime ((hun hu).resolve_right id)⟩
    have hrun := run_ends hstep is _ (Server.rests_create protocols maxFrameSize idleTimeOut) hmeets
    exact hrun.mono (fun _ h => h.inOrder) fun _ he => he

/-! ## A server with one mechanism -/

/-- A client goes through SASL and asks for AMQP. -/
theorem server_negotiation_order_plain :
    (run (Connection.step plainDecoders 40)
        (Connection.create ⟨false, true, true⟩ 4096 0 [plainPlugin] true)
        [{ event := .accept }, { event := .data (encodeVersion amqpSaslPreferredVersion) false },
          { event := .data (plainInit.take 8) false }, { event := .data (plainInit.drop 8) false },
          { event := .data (encodeVersion amqpPreferredVersion) false }]).toOption.map
        (fun c => (c.name, negotiation c.trace)) =
      some (.tunnelAccepted, saslExchange ++ tunnelExchange) ∧
    Ends (InOrder [plainPlugin]) (fun e => Talked [plainPlugin] e.trace ∧ ¬ Unanswered e.trace)
      (run (Connection.step plainDecoders 40)
        (Connection.create ⟨false, true, true⟩ 4096 0 [plainPlugin] true)
        [{ event := .accept }, { event := .data (encodeVersion amqpSaslPreferredVersion) false },
          { event := .data (plainInit.take 8) false }, { event := .data (plainInit.drop 8) false },
          { event := .data (encodeVersion amqpPreferredVersion) false }]) :=
  ⟨by decide +kernel,
    (server_negotiation_order plainDecoders 40 ⟨false, true, true⟩ 4096 0 [plainPlugin] _).2
      (by decide) (by decide +kernel)⟩

/-- The outcome is still being written when a header comes that does not parse. -/
theorem refused_header_is_not_answered :
    ∃ e, run (Connection.step plainDecoders 40)
        (Connection.create ⟨false, true, true⟩ 4096 0 [plainPlugin] true)
        [{ event := .accept }, { event := .data (encodeVersion amqpSaslPreferredVersion) false },
          { event := .data (plainInit.take 8) false },
          { event := .data (plainInit.drop 8) false, writes := [.again] },
          { event := .data [0x47, 0x45, 0x54, 0x20, 0x2f, 0x20, 0x48, 0x54] false }] = .error e ∧
      e.fault = .writeWhileWriting ∧ Unanswered e.trace := by
  refine ⟨⟨.writeWhileWriting, _⟩, rfl, rfl, saslExchange,
    [0x47, 0x45, 0x54, 0x20, 0x2f, 0x20, 0x48, 0x54], ?_, ?_⟩
  · decide +kernel
  · decide +kernel

end Amqp
