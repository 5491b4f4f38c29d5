import LibAmqp.Connection.Order
import LibAmqp.Connection.Proof.MachineRules

/-!
# A client authenticates in order

`Client` is what is true of a client connection at every call of every run: where its machines are,
and what the wire has seen by then. Every function keeps it (`dispatch_respects`), given that the
calls it makes do, and so does every step.
-/

namespace Amqp

open Lib

/-! ## The invariant -/

/-- The states of a client that does not use TLS. -/
def ConnectionState.OfClient : ConnectionState → Prop
  | .initialized | .connectingSocket | .connectingSasl | .connectingAmqp | .amqpTunnelEstablished =>
    True
  | name => name.Down

theorem ConnectionState.Down.ofClient {name : ConnectionState} (h : name.Down) : name.OfClient := by
  cases name <;> trivial

namespace Order

variable (protocols : Protocols) (plugins : List SaslPlugin)

/-- What does not change. -/
structure Fixed (p : Protocols) (ps : List SaslPlugin) (accepted : Bool) (sasl amqp : Nat) : Prop where
  protocols : p = protocols
  tls : p.tls = false
  plugins : ps = plugins
  accepted : accepted = false
  sasl : sasl = amqpSaslPreferredVersion
  amqp : amqp = amqpPreferredVersion

/-- No machine is in a state of a server. -/
structure Side (request : Bool) (negotiator : NegotiatorState) (sasl : SaslState)
    (tunnel : AmqpTunnelState) (amqp : AmqpState) : Prop where
  request : request = false
  request' : negotiator ≠ .waitingOnClientRequest
  respond : negotiator ≠ .waitingToSendServerResponse
  header : sasl ≠ .sendingHeaderResponse
  init : sasl ≠ .waitingOnSaslInitialResponseFrame
  tunnel : tunnel ≠ .sendingHeaderResponse
  open_ : amqp ≠ .waitingForOpenFrame

/-- What the state of the connection says about the other machines. -/
structure Place (name : ConnectionState) (writer : WriterState) (socket : SocketState)
    (negotiator : NegotiatorState) (sasl : SaslState) (confirm : Option ConfirmCallback)
    (preferred : Nat) (handshake : Protocols) (t : List Mark) : Prop where
  client : name.OfClient
  stopping : writer = .stopping → name.Down
  connecting : socket = .resolving ∨ socket = .connecting → name = .connectingSocket ∨ name.Down
  callback : confirm = none ∨ confirm = some .saslVersionAccepted ∨ confirm = some .amqpVersionAccepted
  saslVersion : confirm = some .saslVersionAccepted → preferred = amqpSaslPreferredVersion
  amqpVersion : confirm = some .amqpVersionAccepted → preferred = amqpPreferredVersion ∧
    (name = .connectingAmqp ∨ name = .amqpTunnelEstablished ∨ name.Down)
  handshake : name = .connectingSasl → handshake.tls = false ∧ handshake.sasl = false
  early : name = .initialized ∨ name = .connectingSocket → negotiator = .initialized ∧ sasl = .initialized
  exchange : name = .connectingSasl → negotiator = .waitingForBrokerResponse →
    sasl ≠ .waitingOnSaslMechanisms ∧ sasl ≠ .waitingOnSaslChallengeOrOutcome
  tunnel : name = .connectingAmqp →
    sasl ≠ .waitingOnSaslMechanisms ∧ sasl ≠ .waitingOnSaslChallengeOrOutcome ∧
      (negotiator = .waitingForBrokerResponse → confirm = some .amqpVersionAccepted)
  opened : .sent .amqpOpen ∈ t → name = .amqpTunnelEstablished ∨ name.Down
  asked : negotiator = .waitingForBrokerResponse → name.Down ∨ .sent (.header preferred) ∈ t

/-- How far the SASL exchange has come. -/
def Progress (t : List Mark) : SaslState → Prop
  | .waitingOnSaslMechanisms => Echoed amqpSaslPreferredVersion t
  | .waitingOnSaslChallengeOrOutcome => SaslOffered plugins t
  | .negotiated => Authenticated plugins t
  | _ => True

def Client (c : Connection) : Prop :=
  Fixed protocols plugins c.protocols c.plugins c.accepted c.requiredSasl c.requiredAmqp ∧
  Side c.request c.negotiator c.sasl c.amqpTunnel c.amqp ∧
  Place c.name c.writer c.socket c.negotiator c.sasl c.confirm c.preferredVersion c.handshake c.trace ∧
  (c.name.Down ∨ Progress plugins c.trace c.sasl) ∧
  (c.saslConnected → Authenticated plugins c.trace) ∧
  Justified (Permits protocols plugins) c.trace

/-! ## What each call needs and gives -/

/-- Nothing is forgotten, and a connection that comes to its end does not come back. -/
def Grows (c c' : Connection) : Prop :=
  Client protocols plugins c' ∧ c.trace <+: c'.trace ∧ (c.name.Down → c'.name.Down)

/-- The connection fails, or it is where it was. -/
def Steady (c c' : Connection) : Prop :=
  c'.name.Down ∨
    c'.name = c.name ∧ c'.confirm = c.confirm ∧ c'.sasl = c.sasl ∧ c'.negotiator = c.negotiator ∧
      c'.preferredVersion = c.preferredVersion

/-- The calls that come back with the connection where it was. -/
def Stays (c c' : Connection) : Prop :=
  Client protocols plugins c' ∧ c'.name = c.name ∧ c'.trace = c.trace ∧ c'.sasl = c.sasl ∧
    c'.socket = c.socket

/-- What it takes to go on from a state. -/
def DoneOk (c : Connection) : Prop :=
  (c.name = .connectingSocket → c.socket ≠ .resolving ∧ c.socket ≠ .connecting) ∧
  (c.name = .connectingSasl → c.sasl = .negotiated ∧ c.negotiator ≠ .waitingForBrokerResponse) ∧
  (c.name = .connectingAmqp → Echoed amqpPreferredVersion c.trace)

/-- `pre`: the calls that only a server makes are not made. -/
def pre : Action → Connection → Prop
  | .connectionDone, c => Client protocols plugins c ∧ DoneOk c
  | .writerWrite m, c => Client protocols plugins c ∧ Permits protocols plugins c.trace (.sent m) ∧
    (m = .amqpOpen → c.name = .amqpTunnelEstablished ∨ c.name.Down)
  | .writerStop, c | .socketShutdown, c => Client protocols plugins c ∧ c.name.Down
  | .socketConnect _, c => Client protocols plugins c ∧ c.name = .connectingSocket
  | .negotiatorStart version confirm _, c => Client protocols plugins c ∧
    (version = amqpSaslPreferredVersion ∧ confirm = .saslVersionAccepted ∧ c.name = .connectingSasl ∧
        c.sasl = .initialized ∨
      version = amqpPreferredVersion ∧ confirm = .amqpVersionAccepted ∧ c.name = .connectingAmqp ∧
        (protocols.sasl → Authenticated plugins c.trace))
  | .confirmCallback, c => Client protocols plugins c ∧ c.negotiator = .negotiated ∧
    (c.name = .connectingAmqp → c.confirm = some .amqpVersionAccepted) ∧
    (c.preferredVersion ≠ 0 → c.name.Down ∨ Echoed c.preferredVersion c.trace)
  | .rejectCallback _, c => Client protocols plugins c ∧ c.negotiator = .rejected
  | .saslConnect, c => Client protocols plugins c ∧ c.name = .connectingSasl
  | .tunnelConnect, c => Client protocols plugins c ∧ c.name = .connectingAmqp ∧
    (protocols.sasl → Authenticated plugins c.trace)
  | .amqpSendOpen, c => Client protocols plugins c ∧ c.name = .amqpTunnelEstablished ∧
    Echoed amqpPreferredVersion c.trace ∧ (protocols.sasl → Authenticated plugins c.trace) ∧
    .sent .amqpOpen ∉ c.trace
  | .frameDispatch f, c => Client protocols plugins c ∧
    ∃ t, c.trace = t ++ [.receivedFrame f] ∧ (c.name.Down ∨ Progress plugins t c.sasl)
  | .connectionBegin _, _ | .connectionReject _, _ | .negotiatorWait, _ | .negotiatorSend _ _, _
  | .requestCallback _, _ | .tlsConnect, _ | .tlsAccept _, _ | .saslAccept _, _ | .saslDone, _
  | .tunnelAccept _, _ | .tunnelDone, _ | .amqpWaitOnOpen, _ => False
  | _, c => Client protocols plugins c

def post : Action → Connection → Connection → Prop
  | .writerWrite m, c, c' =>
    Client protocols plugins c' ∧ c.trace ++ [.sent m] <+: c'.trace ∧ Steady c c'
  | .writerComplete, c, c' => Client protocols plugins c' ∧ c.trace <+: c'.trace ∧ Steady c c'
  | .connectionFail, c, c' | .writerFail, c, c' | .shutdownDrain, c, c' | .shutdownClose, c, c' =>
    Client protocols plugins c' ∧ c.trace <+: c'.trace ∧ c'.name.Down
  | .readerEnable, c, c' | .writerEnable, c, c' | .negotiatorReset, c, c' | .readerStop, c, c'
  | .writerAbort, c, c' => Stays protocols plugins c c'
  | _, c, c' => Grows protocols plugins c c'

/-- The order was kept up to the end of the process. -/
def Crashed (e : Crash) : Prop := Justified (Permits protocols plugins) e.trace

/-- Calls that do what they should. -/
def Respects (call : Calls) : Prop :=
  ∀ a c, pre protocols plugins a c → Ends (post protocols plugins a c) (Crashed protocols plugins) (call a c)

variable {protocols plugins}

/-! ## What keeps the invariant -/

theorem Authenticated.mono {t t' : List Mark} (h : Authenticated plugins t) (ht : t <+: t') :
    Authenticated plugins t' := by
  obtain ⟨names, hs, hsub⟩ := h
  exact ⟨names, hs, hsub.trans ht.sublist⟩

theorem Progress.mono {t t' : List Mark} {s : SaslState} (h : Progress plugins t s) (ht : t <+: t') :
    Progress plugins t' s := by
  cases s with
  | waitingOnSaslMechanisms => exact List.Sublist.trans h ht.sublist
  | waitingOnSaslChallengeOrOutcome =>
    obtain ⟨names, hs, hsub⟩ := h
    exact ⟨names, hs, hsub.trans ht.sublist⟩
  | negotiated => exact Authenticated.mono h ht
  | _ => trivial

namespace Place

variable {name name' : ConnectionState} {writer : WriterState} {socket : SocketState}
  {negotiator negotiator' : NegotiatorState} {sasl sasl' : SaslState} {confirm : Option ConfirmCallback}
  {preferred : Nat} {handshake : Protocols} {t : List Mark}
  (h : Place name writer socket negotiator sasl confirm preferred handshake t)

include h

/-- A connection on its way down forgets where it was. -/
theorem down (hname : name'.Down) (handshake' : Protocols) :
    Place name' writer socket negotiator sasl confirm preferred handshake' t where
  client := hname.ofClient
  stopping := fun _ => hname
  connecting := fun _ => .inr hname
  callback := h.callback
  saslVersion := h.saslVersion
  amqpVersion := fun hc => ⟨(h.amqpVersion hc).1, .inr (.inr hname)⟩
  handshake := fun he => absurd hname (by simp [he, ConnectionState.Down])
  early := by
    rintro (rfl | rfl)
    · exact hname.elim
    · exact hname.elim
  exchange := fun he => absurd hname (by simp [he, ConnectionState.Down])
  tunnel := fun he => absurd hname (by simp [he, ConnectionState.Down])
  opened := fun _ => .inr hname
  asked := fun _ => .inl hname

/-- SASL begins. -/
theorem toSasl (hname : name = .connectingSocket) (hsocket : socket ≠ .resolving ∧ socket ≠ .connecting)
    {k : Protocols} (hh : k.tls = false ∧ k.sasl = false) :
    Place .connectingSasl writer socket negotiator sasl confirm preferred k t where
  client := trivial
  stopping := fun hw => by simpa [hname, ConnectionState.Down] using h.stopping hw
  connecting := by
    rintro (hs | hs)
    · exact absurd hs hsocket.1
    · exact absurd hs hsocket.2
  callback := h.callback
  saslVersion := h.saslVersion
  amqpVersion := fun hc => by simpa [hname, ConnectionState.Down] using (h.amqpVersion hc).2
  handshake := fun _ => hh
  early := by simp
  exchange := fun _ hn => absurd hn (by simp [(h.early (.inr hname)).1])
  tunnel := by simp
  opened := fun ho => by simpa [hname, ConnectionState.Down] using h.opened ho
  asked := fun hn => absurd hn (by simp [(h.early (.inr hname)).1])

/-- AMQP begins. -/
theorem toAmqp (hname : name = .connectingSocket ∧ socket ≠ .resolving ∧ socket ≠ .connecting ∨
      name = .connectingSasl ∧ sasl = .negotiated ∧ negotiator ≠ .waitingForBrokerResponse)
    {k : Protocols} :
    Place .connectingAmqp writer socket negotiator sasl confirm preferred k t where
  client := trivial
  stopping := fun hw => by
    rcases hname with ⟨hn, -⟩ | ⟨hn, -⟩
    all_goals simpa [hn, ConnectionState.Down] using h.stopping hw
  connecting := by
    intro hs
    rcases hname with ⟨-, h1, h2⟩ | ⟨hn, -⟩
    · rcases hs with hs | hs
      · exact absurd hs h1
      · exact absurd hs h2
    · simpa [hn, ConnectionState.Down] using h.connecting hs
  callback := h.callback
  saslVersion := h.saslVersion
  amqpVersion := fun hc => ⟨(h.amqpVersion hc).1, .inl rfl⟩
  handshake := by simp
  early := by simp
  exchange := by simp
  tunnel := fun _ => by
    rcases hname with ⟨hn, -⟩ | ⟨-, hs, hn⟩
    · simp [(h.early (.inr hn)).1, (h.early (.inr hn)).2]
    · exact ⟨by simp [hs], by simp [hs], fun he => absurd he hn⟩
  opened := fun ho => by
    rcases hname with ⟨hn, -⟩ | ⟨hn, -⟩
    all_goals simpa [hn, ConnectionState.Down] using h.opened ho
  asked := fun he => by
    rcases hname with ⟨hn, -⟩ | ⟨-, -, hn⟩
    · exact absurd he (by simp [(h.early (.inr hn)).1])
    · exact absurd he hn

/-- The negotiator has its answer. -/
theorem answered (hc : negotiator = .waitingForBrokerResponse)
    (hn : negotiator' ≠ .waitingForBrokerResponse) :
    Place name writer socket negotiator' sasl confirm preferred handshake t where
  client := h.client
  stopping := h.stopping
  connecting := h.connecting
  callback := h.callback
  saslVersion := h.saslVersion
  amqpVersion := h.amqpVersion
  handshake := h.handshake
  early := fun he => absurd (h.early he).1 (by simp [hc])
  exchange := fun _ he => absurd he hn
  tunnel := fun he => ⟨(h.tunnel he).1, (h.tunnel he).2.1, fun he => absurd he hn⟩
  opened := h.opened
  asked := fun he => absurd he hn

/-- The negotiator waits for its answer. -/
theorem waiting (hname : name.Down ∨ name = .connectingSasl ∧ sasl = .initialized ∨
      name = .connectingAmqp ∧ confirm = some .amqpVersionAccepted)
    (hasked : name.Down ∨ .sent (.header preferred) ∈ t) :
    Place name writer socket .waitingForBrokerResponse sasl confirm preferred handshake t where
  client := h.client
  stopping := h.stopping
  connecting := h.connecting
  callback := h.callback
  saslVersion := h.saslVersion
  amqpVersion := h.amqpVersion
  handshake := h.handshake
  early := by
    rintro (rfl | rfl)
    all_goals simp [ConnectionState.Down] at hname
  exchange := by
    rintro rfl -
    simp only [ConnectionState.Down, reduceCtorEq, false_and, or_false, false_or, true_and] at hname
    simp [hname]
  tunnel := by
    rintro rfl
    simp only [ConnectionState.Down, reduceCtorEq, false_and, false_or, true_and] at hname
    exact ⟨(h.tunnel rfl).1, (h.tunnel rfl).2.1, fun _ => hname⟩
  opened := h.opened
  asked := fun _ => hasked

/-- SASL moves on while the connection is neither before it nor behind it. -/
theorem moved (hname : name.Down ∨ name = .amqpTunnelEstablished ∨
      name = .connectingSasl ∧ negotiator ≠ .waitingForBrokerResponse) :
    Place name writer socket negotiator sasl' confirm preferred handshake t where
  client := h.client
  stopping := h.stopping
  connecting := h.connecting
  callback := h.callback
  saslVersion := h.saslVersion
  amqpVersion := h.amqpVersion
  handshake := h.handshake
  early := by
    rintro (rfl | rfl)
    all_goals simp [ConnectionState.Down] at hname
  exchange := by
    rintro rfl hn
    simp [ConnectionState.Down, hn] at hname
  tunnel := by
    rintro rfl
    simp [ConnectionState.Down] at hname
  opened := h.opened
  asked := h.asked

/-- A frame of the SASL exchange comes while the connection is in it, or on its way down. -/
theorem in_exchange (hs : sasl = .waitingOnSaslMechanisms ∨ sasl = .waitingOnSaslChallengeOrOutcome) :
    name.Down ∨ name = .amqpTunnelEstablished ∨
      name = .connectingSasl ∧ negotiator ≠ .waitingForBrokerResponse := by
  cases name with
  | connectingSasl =>
    refine .inr (.inr ⟨rfl, fun hn => ?_⟩)
    obtain ⟨h1, h2⟩ := h.exchange rfl hn
    rcases hs with hs | hs
    · exact h1 hs
    · exact h2 hs
  | connectingAmqp =>
    obtain ⟨h1, h2, -⟩ := h.tunnel rfl
    rcases hs with hs | hs
    · exact absurd hs h1
    · exact absurd hs h2
  | initialized => rcases hs with rfl | rfl <;> simpa using (h.early (.inl rfl)).2
  | connectingSocket => rcases hs with rfl | rfl <;> simpa using (h.early (.inr rfl)).2
  | amqpTunnelEstablished => exact .inr (.inl rfl)
  | _ => first | exact .inl trivial | exact h.client.elim

end Place

namespace Client

variable {c : Connection} (h : Client protocols plugins c)

include h

theorem fixed : Fixed protocols plugins c.protocols c.plugins c.accepted c.requiredSasl
    c.requiredAmqp := h.1

theorem side : Side c.request c.negotiator c.sasl c.amqpTunnel c.amqp := h.2.1

theorem place : Place c.name c.writer c.socket c.negotiator c.sasl c.confirm c.preferredVersion
    c.handshake c.trace := h.2.2.1

theorem progress : c.name.Down ∨ Progress plugins c.trace c.sasl := h.2.2.2.1

theorem up (hname : ¬ c.name.Down) : Progress plugins c.trace c.sasl := h.progress.resolve_left hname

theorem connected : c.saslConnected → Authenticated plugins c.trace := h.2.2.2.2.1

theorem justified : Justified (Permits protocols plugins) c.trace := h.2.2.2.2.2

theorem mayCrash : MayCrash (Crashed protocols plugins) c := fun _ _ => h.justified

theorem grows : Grows protocols plugins c c := ⟨h, List.prefix_rfl, id⟩

theorem transitionTo {n : ConnectionState} (hname : n.Down) :
    Client protocols plugins (Machine.transitionTo n c) :=
  ⟨h.fixed, h.side, h.place.down hname c.handshake, .inl hname, h.connected, h.justified⟩

theorem shutdownMode {n : ConnectionState} (hname : n.Down) (handshake : Protocols) :
    Client protocols plugins (Machine.transitionTo n { c with handshake := handshake }) :=
  ⟨h.fixed, h.side, h.place.down hname handshake, .inl hname, h.connected, h.justified⟩

theorem writer {w : WriterState} (hw : w = .stopping → c.name.Down) :
    Client protocols plugins { c with writer := w } :=
  ⟨h.fixed, h.side, { h.place with stopping := hw }, h.progress, h.connected, h.justified⟩

theorem socket {s : SocketState}
    (hs : s = .resolving ∨ s = .connecting → c.name = .connectingSocket ∨ c.name.Down) :
    Client protocols plugins { c with socket := s } :=
  ⟨h.fixed, h.side, { h.place with connecting := hs }, h.progress, h.connected, h.justified⟩

/-- The negotiator has its answer. -/
theorem answered {n : NegotiatorState} (hc : c.negotiator = .waitingForBrokerResponse)
    (hn : n = .failed ∨ n = .negotiated ∨ n = .rejected) :
    Client protocols plugins { c with negotiator := n } := by
  refine ⟨h.fixed, { h.side with request' := ?_, respond := ?_ }, h.place.answered hc ?_, h.progress,
    h.connected, h.justified⟩
  all_goals rcases hn with rfl | rfl | rfl <;> simp

theorem sasl {s : SaslState} (hp : c.name.Down ∨ Progress plugins c.trace s) (h1 : s ≠ .sendingHeaderResponse)
    (h2 : s ≠ .waitingOnSaslInitialResponseFrame)
    (hname : c.name.Down ∨ c.name = .amqpTunnelEstablished ∨
      c.name = .connectingSasl ∧ c.negotiator ≠ .waitingForBrokerResponse) :
    Client protocols plugins { c with sasl := s } :=
  ⟨h.fixed, { h.side with header := h1, init := h2 }, h.place.moved hname, hp, h.connected,
    h.justified⟩

theorem tunnel {s : AmqpTunnelState} (hs : s ≠ .sendingHeaderResponse) :
    Client protocols plugins { c with amqpTunnel := s } :=
  ⟨h.fixed, { h.side with tunnel := hs }, h.place, h.progress, h.connected, h.justified⟩

theorem amqp {s : AmqpState} (hs : s ≠ .waitingForOpenFrame) :
    Client protocols plugins { c with amqp := s } :=
  ⟨h.fixed, { h.side with open_ := hs }, h.place, h.progress, h.connected, h.justified⟩

/-- One more mark. -/
theorem mark {m : Mark} (hm : Permits protocols plugins c.trace m)
    (ho : m = .sent .amqpOpen → c.name = .amqpTunnelEstablished ∨ c.name.Down) :
    Client protocols plugins { c with trace := c.trace ++ [m] } := by
  have hpre : c.trace <+: c.trace ++ [m] := List.prefix_append _ _
  refine ⟨h.fixed, h.side, { h.place with opened := ?_, asked := ?_ },
    h.progress.imp_right fun hp => hp.mono hpre, ?_, h.justified.append hm⟩
  · intro hmem
    rcases List.mem_append.mp hmem with hmem | hmem
    · exact h.place.opened hmem
    · exact ho (List.mem_singleton.mp hmem).symm
  · exact fun hn => (h.place.asked hn).imp_right fun hm => hpre.subset hm
  · intro hc
    exact Authenticated.mono (h.connected hc) hpre

theorem cleanup : Client protocols plugins c.frameCleanup := h.mark (m := .released) trivial (by simp)

end Client

/-! ## Every function respects it -/

/-- A call that follows another. -/
theorem Grows.trans {c c1 : Connection} (h : Grows protocols plugins c c1) {r : Outcome}
    (hr : Ends (Grows protocols plugins c1) (Crashed protocols plugins) r) :
    Ends (Grows protocols plugins c) (Crashed protocols plugins) r :=
  hr.mono (fun _ h' => ⟨h'.1, h.2.1.trans h'.2.1, h'.2.2 ∘ h.2.2⟩) fun _ he => he

/-- A call that takes the connection down. -/
theorem grows_of_down {c c1 : Connection} (ht : c.trace <+: c1.trace) {r : Outcome}
    (hr : Ends (fun c' => Client protocols plugins c' ∧ c1.trace <+: c'.trace ∧ c'.name.Down)
      (Crashed protocols plugins) r) :
    Ends (Grows protocols plugins c) (Crashed protocols plugins) r :=
  hr.mono (fun _ h' => ⟨h'.1, ht.trans h'.2.1, fun _ => h'.2.2⟩) fun _ he => he

theorem DoneOk.of_down {c : Connection} (hdown : c.name.Down) : DoneOk c := by
  refine ⟨?_, ?_, ?_⟩
  all_goals
    intro hname
    rw [hname] at hdown
    exact hdown.elim

theorem Client.released {c : Connection} (h : Client protocols plugins c) :
    Grows protocols plugins c c.frameCleanup :=
  ⟨h.cleanup, List.prefix_append _ _, id⟩

section Functions

variable {d : FrameDecoders} {call : Calls} (hcall : Respects protocols plugins call) {c : Connection}

include hcall

/-! The writer. -/

theorem writerStop_ends (h : Client protocols plugins c) (hdown : c.name.Down) :
    Ends (Grows protocols plugins c) (Crashed protocols plugins) (Writer.writerStop call c) :=
  hcall .connectionDone _ ⟨h.writer (w := .stopped) (by simp), DoneOk.of_down hdown⟩

theorem continueWriteOperation_ends (h : Client protocols plugins c) :
    Ends (fun c' => Client protocols plugins c' ∧ c.trace <+: c'.trace ∧ Steady c c')
      (Crashed protocols plugins) (Writer.continueWriteOperation call c) :=
  Writer.continueWriteOperation_rule (hcall .writerComplete { c with writes := c.writes.tail } h)
    ⟨h, List.prefix_rfl, .inr ⟨rfl, rfl, rfl, rfl, rfl⟩⟩
    fun _ => (hcall .writerFail { c with writes := c.writes.tail } h).mono
      (fun _ h' => ⟨h'.1, h'.2.1, .inl h'.2.2⟩) fun _ he => he

theorem write_ends {m : Message} (h : pre protocols plugins (.writerWrite m) c) :
    Ends (post protocols plugins (.writerWrite m) c) (Crashed protocols plugins)
      (Writer.write call m c) := by
  obtain ⟨h, hm, ho⟩ := h
  refine Writer.write_rule (fun _ => h.mayCrash) fun _ => ?_
  exact continueWriteOperation_ends hcall
    ((h.writer (w := .writing) (by simp)).mark hm fun he => ho (by injection he))

omit hcall in
/-- A connection that is steady grows, if it has seen more. -/
theorem Steady.down {c1 : Connection} (h : Steady c c1) (hdown : c.name.Down) : c1.name.Down := by
  rcases h with h | ⟨hn, -⟩
  · exact h
  · rwa [hn]

theorem continueWrite_ends (h : Client protocols plugins c) :
    Ends (Grows protocols plugins c) (Crashed protocols plugins) (Writer.continueWrite call c) :=
  Writer.continueWrite_rule h.mayCrash (fun _ => h.grows) fun _ =>
    (continueWriteOperation_ends hcall h).mono (fun _ h1 => ⟨h1.1, h1.2.1, h1.2.2.down⟩) fun _ he => he

theorem writeComplete_ends (h : Client protocols plugins c) :
    Ends (post protocols plugins .writerComplete c) (Crashed protocols plugins)
      (Writer.writeComplete call c) := by
  refine Writer.writeComplete_rule h.mayCrash
    (fun _ => ⟨h.writer (by simp), List.prefix_rfl, .inr ⟨rfl, rfl, rfl, rfl, rfl⟩⟩) fun hw => ?_
  have hdown := h.place.stopping hw
  exact (writerStop_ends hcall h hdown).mono (fun _ h' => ⟨h'.1, h'.2.1, .inl (h'.2.2 hdown)⟩)
    fun _ he => he

theorem stop_ends (h : Client protocols plugins c) (hdown : c.name.Down) :
    Ends (Grows protocols plugins c) (Crashed protocols plugins) (Writer.stop call c) :=
  Writer.stop_rule (fun _ => writerStop_ends hcall h hdown) (fun _ => Client.grows (h.writer fun _ => hdown))
    fun _ => hcall .connectionDone c ⟨h, DoneOk.of_down hdown⟩

theorem writerFail_ends (h : Client protocols plugins c) :
    Ends (post protocols plugins .writerFail c) (Crashed protocols plugins) (Writer.fail call c) :=
  Writer.fail_rule h.mayCrash fun _ => hcall .connectionFail _ (h.writer (w := .failed) (by simp))

/-! The reader. -/

theorem callReadCallback_ends {amount : Nat} (h : Client protocols plugins c) :
    Ends (Grows protocols plugins c) (Crashed protocols plugins)
      (Reader.callReadCallback call amount c) :=
  Reader.callReadCallback_rule h.mayCrash fun callback _ =>
    hcall (.readDone callback _ amount) { c with readCallback := none, readQueued := false } h

theorem readEof_ends {isPartial : Bool} (h : Client protocols plugins c) :
    Ends (Grows protocols plugins c) (Crashed protocols plugins) (Reader.readEof call isPartial c) :=
  Reader.readEof_rule
    (fun _ => grows_of_down List.prefix_rfl (hcall .connectionFail { c with reader := .failed } h))
    (callReadCallback_ends hcall (c := { c with reader := .eof }) h)

theorem readWhatIsBuffered_ends (h : Client protocols plugins c) :
    Ends (Grows protocols plugins c) (Crashed protocols plugins) (Reader.readWhatIsBuffered call c) :=
  Reader.readWhatIsBuffered_rule h.mayCrash (Client.grows (c := { c with reads := _ }) h)
    (fun _ _ => readEof_ends hcall (c := { c with reads := _ }) h)
    fun _ => hcall .readerFail { c with reads := _ } h

theorem commenceRead_ends {required : Nat} {callback : ReadCallback} (h : Client protocols plugins c) :
    Ends (Grows protocols plugins c) (Crashed protocols plugins)
      (Reader.commenceRead call required callback c) :=
  Reader.commenceRead_rule h.mayCrash
    (fun _ => readWhatIsBuffered_ends hcall
      (c := Reader.queueReadOperation required callback { c with reader := .reading }) h)
    (fun _ _ _ => Client.grows (c := Reader.queueReadOperation required callback c) h)
    fun _ => callReadCallback_ends hcall (c := { c with reader := _, readCallback := _ }) h

theorem delayedReadWhileReading_ends (h : Client protocols plugins c) :
    Ends (Grows protocols plugins c) (Crashed protocols plugins)
      (Reader.delayedReadWhileReading call c) :=
  Reader.delayedReadWhileReading_rule
    (fun _ => readWhatIsBuffered_ends hcall (c := { c with reader := .reading }) h)
    fun _ => Client.grows (c := { c with reader := .enabled }) h

theorem readComplete_ends {bytes : List UInt8} {inLoop : Bool} (h : Client protocols plugins c) :
    Ends (Grows protocols plugins c) (Crashed protocols plugins)
      (Reader.readComplete call bytes inLoop c) :=
  Reader.readComplete_rule (r := Grows protocols plugins c)
    (callReadCallback_ends hcall (c := { c with buffer := c.buffer ++ bytes }) h)
    (fun _ _ h1 => h1.trans (delayedReadWhileReading_ends hcall h1.1))
    fun _ c1 h1 => h1.trans (hcall .readerDelayed c1 h1.1)

theorem readerFail_ends (h : Client protocols plugins c) :
    Ends (Grows protocols plugins c) (Crashed protocols plugins) (Reader.fail call c) :=
  Reader.fail_rule h.mayCrash fun _ =>
    grows_of_down List.prefix_rfl (hcall .connectionFail { c with reader := .failed } h)

/-! The socket. -/

theorem connectionAttemptFailed_ends (h : Client protocols plugins c) :
    Ends (Grows protocols plugins c) (Crashed protocols plugins)
      (Socket.connectionAttemptFailed call c) :=
  Socket.connectionAttemptFailed_rule (fun _ => hcall .socketTryConnect c h) (hcall .socketFail c h)

theorem tryConnect_ends (h : Client protocols plugins c) :
    Ends (Grows protocols plugins c) (Crashed protocols plugins) (Socket.tryConnect call c) :=
  Socket.tryConnect_rule h.mayCrash
    (fun _ _ => connectionAttemptFailed_ends hcall (c := { c with addresses := _, connects := _ }) h)
    (fun _ => hcall .socketDone { c with addresses := _, connects := _ } h)
    fun _ => Client.grows (c := { c with addresses := _, connects := _, connectWatcher := _ }) h

theorem socketConnect_ends {lookup : Option Nat} (h : Client protocols plugins c)
    (hname : c.name = .connectingSocket) :
    Ends (Grows protocols plugins c) (Crashed protocols plugins) (Socket.connect call lookup c) :=
  Socket.connect_rule h.mayCrash
    (fun _ _ => hcall .socketFail _ (h.socket (s := .resolving) fun _ => .inl hname))
    fun _ _ _ => hcall .socketTryConnect _ (h.socket (s := .connecting) fun _ => .inl hname)

theorem socketDone_ends (h : Client protocols plugins c) :
    Ends (Grows protocols plugins c) (Crashed protocols plugins) (Socket.done call c) := by
  refine Socket.done_rule h.mayCrash fun hs =>
    hcall .connectionDone _ ⟨h.socket (s := .connected) (by simp), ?_⟩
  rcases h.place.connecting (.inr hs) with hname | hname
  · refine ⟨fun _ => by simp, ?_, ?_⟩
    all_goals
      intro hn
      exact absurd (hname.symm.trans hn) (by simp)
  · exact DoneOk.of_down hname

theorem socketFail_ends (h : Client protocols plugins c) :
    Ends (Grows protocols plugins c) (Crashed protocols plugins) (Socket.fail call c) :=
  Socket.fail_rule h.mayCrash fun _ => grows_of_down List.prefix_rfl (hcall .connectionFail
    { c with socket := .failed, connectWatcher := false, addresses := 0 } (h.socket (s := .failed) (by simp)))

theorem socketShutdown_ends (h : Client protocols plugins c) (hdown : c.name.Down) :
    Ends (Grows protocols plugins c) (Crashed protocols plugins) (Socket.shutdown call c) :=
  Socket.shutdown_rule (fun _ => Client.grows (h.socket (s := .abortingLookup) (by simp)))
    fun _ => hcall .connectionDone _ ⟨h.socket (s := .stopped) (by simp), DoneOk.of_down hdown⟩

/-! The negotiator. -/

omit hcall in
/-- A negotiator that is started for a protocol. -/
theorem Client.started {version : Nat} {confirm : ConfirmCallback} {reject : RejectCallback}
    (h : pre protocols plugins (.negotiatorStart version confirm reject) c) (hneg : c.negotiator = .initialized) :
    Client protocols plugins { c with
      preferredVersion := version, confirm := some confirm, rejectCallback := some reject,
      request := false } := by
  obtain ⟨h, hv⟩ := h
  refine ⟨h.fixed, { h.side with request := rfl }, ?_, h.progress, h.connected, h.justified⟩
  have hasked : c.negotiator = .waitingForBrokerResponse → c.name.Down ∨ .sent (.header version) ∈ c.trace :=
    fun he => absurd he (by simp [hneg])
  rcases hv with ⟨rfl, rfl, hname, -⟩ | ⟨rfl, rfl, hname, -⟩
  · exact { h.place with
      callback := .inr (.inl rfl), saslVersion := fun _ => rfl, amqpVersion := fun he => by simp at he
      asked := hasked
      tunnel := fun he => by simp [hname] at he }
  · exact { h.place with
      callback := .inr (.inr rfl), saslVersion := fun he => by simp at he
      amqpVersion := fun _ => ⟨rfl, .inl hname⟩
      asked := hasked
      tunnel := fun he => ⟨(h.place.tunnel he).1, (h.place.tunnel he).2.1, fun _ => rfl⟩ }

theorem negotiatorStart_ends {version : Nat} {confirm : ConfirmCallback} {reject : RejectCallback}
    (h : pre protocols plugins (.negotiatorStart version confirm reject) c) :
    Ends (Grows protocols plugins c) (Crashed protocols plugins)
      (Negotiator.start call version confirm reject c) := by
  have hstarted := Client.started h
  obtain ⟨h, hv⟩ := h
  have hm : Permits protocols plugins c.trace (.sent (.header version)) := by
    rintro rfl
    rcases hv with ⟨hv, -⟩ | ⟨-, -, -, hsasl⟩
    · exact absurd hv (by decide)
    · exact hsasl
  refine Negotiator.start_rule h.mayCrash
    (fun hneg => hcall (.writerWrite (.header version)) _ ⟨hstarted hneg, hm, by simp⟩) ?_
  rintro c1 ⟨h2, ht, hsteady⟩
  have hname : c1.name.Down ∨ c1.name = .connectingSasl ∧ c1.sasl = .initialized ∨
      c1.name = .connectingAmqp ∧ c1.confirm = some .amqpVersionAccepted := by
    rcases hsteady with hdown | ⟨hn, hc, hs, -⟩
    · exact .inl hdown
    · rcases hv with ⟨-, -, hn', hs'⟩ | ⟨-, rfl, hn', -⟩
      · exact .inr (.inl ⟨hn.trans hn', hs.trans hs'⟩)
      · exact .inr (.inr ⟨hn.trans hn', hc⟩)
  have hasked : c1.name.Down ∨ .sent (.header c1.preferredVersion) ∈ c1.trace := by
    refine hsteady.imp_right fun hs => ?_
    rw [hs.2.2.2.2]
    exact ht.subset (List.mem_append_right _ (List.mem_singleton_self _))
  have h3 : Client protocols plugins { c1 with negotiator := .waitingForBrokerResponse } :=
    ⟨h2.fixed, { h2.side with request' := by simp, respond := by simp }, h2.place.waiting hname hasked,
      h2.progress, h2.connected, h2.justified⟩
  refine Grows.trans ⟨h2, (List.prefix_append _ _).trans ht, fun hdown => ?_⟩
    (hcall (.readerCommence _ .negotiator) _ h3)
  rcases hv with ⟨-, -, hn, -⟩ | ⟨-, -, hn, -⟩
  · exact absurd hdown (by simp [hn, ConnectionState.Down])
  · exact absurd hdown (by simp [hn, ConnectionState.Down])

omit hcall in
/-- A header that decodes to a version is the header of that version. -/
theorem take_eq_encodeVersion {bytes : List UInt8} {version : Nat} (h : decodeVersion bytes = version)
    (hv : version ≠ 0) : bytes.take 8 = encodeVersion version := by
  unfold decodeVersion at h
  split at h
  · subst h
    simp [encodeVersion, toBigEndian_ofBigEndian]
  · exact absurd h.symm hv

theorem negotiatorReadDone_ends {buffer : Bool} {amount : Nat} (h : Client protocols plugins c) :
    Ends (Grows protocols plugins c) (Crashed protocols plugins)
      (Negotiator.readDone call buffer amount c) := by
  have h1 := h.mark (m := .receivedHeader ((c.buffer.drop c.readIndex).take 8)) trivial (by simp)
  have hgrows : Grows protocols plugins c { c with
      trace := c.trace ++ [.receivedHeader ((c.buffer.drop c.readIndex).take 8)] } :=
    ⟨h1, List.prefix_append _ _, id⟩
  refine Negotiator.readDone_rule h.mayCrash (fun _ hn => ?_) (fun _ hn hv => ?_)
    (fun _ hn _ => ?_) fun _ hn => absurd hn h.side.request'
  · exact hcall .connectionShutdown _
      (h.answered (n := .failed) (hn.resolve_right h.side.request') (.inl rfl))
  · have htunnel : c.name = .connectingAmqp → c.confirm = some .amqpVersionAccepted :=
      fun hname => (h.place.tunnel hname).2.2 hn
    refine hgrows.trans (hcall .confirmCallback _
      ⟨h1.answered (n := .negotiated) hn (.inr (.inl rfl)), rfl, htunnel, fun h0 => ?_⟩)
    refine (h.place.asked hn).imp_right fun hm => ?_
    change [.sent (.header c.preferredVersion), .receivedHeader (encodeVersion c.preferredVersion)].Sublist
      (c.trace ++ [_])
    rw [← take_eq_encodeVersion hv h0]
    exact (List.singleton_sublist.mpr hm).append (List.Sublist.refl _)
  · exact hgrows.trans (hcall (.rejectCallback _) _
      ⟨h1.answered (n := .rejected) hn (.inr (.inr rfl)), rfl⟩)

omit hcall in
theorem negotiatorReset_ends (h : Client protocols plugins c) :
    Ends (post protocols plugins .negotiatorReset c) (Crashed protocols plugins)
      (Negotiator.reset c) := by
  refine Negotiator.reset_rule h.mayCrash (fun _ => ⟨h, rfl, rfl, rfl, rfl⟩) fun hn => ?_
  have hplace : Place c.name c.writer c.socket .initialized c.sasl c.confirm c.preferredVersion
      c.handshake c.trace := { h.place with
    early := fun he => absurd (h.place.early he).1 (by simp [hn])
    exchange := fun _ he => by simp at he
    asked := fun he => by simp at he
    tunnel := fun he => ⟨(h.place.tunnel he).1, (h.place.tunnel he).2.1, fun he => by simp at he⟩ }
  exact ⟨⟨h.fixed, { h.side with request' := by simp, respond := by simp }, hplace, h.progress,
    h.connected, h.justified⟩, rfl, rfl, rfl, rfl⟩

theorem confirm_ends (h : pre protocols plugins .confirmCallback c) :
    Ends (Grows protocols plugins c) (Crashed protocols plugins) (dispatch d call .confirmCallback c) := by
  obtain ⟨h, hn, htunnel, hmem⟩ := h
  have hserver : ∀ callback, c.confirm = some callback →
      callback = .saslVersionAccepted ∨ callback = .amqpVersionAccepted := by
    intro callback hc
    rcases h.place.callback with hc' | hc' | hc'
    · exact absurd (hc.symm.trans hc') (by simp)
    · exact .inl (Option.some.inj (hc.symm.trans hc'))
    · exact .inr (Option.some.inj (hc.symm.trans hc'))
  refine confirmCallback_rule (r := Grows protocols plugins c) h.mayCrash (fun hc => ?_)
    (fun c1 h1 => h1.trans (hcall (.frameRead .sasl) c1 h1.1)) (fun hc => ?_)
    (fun hc => absurd (hserver _ hc) (by decide)) (fun hc => absurd (hserver _ hc) (by decide))
    fun hc => absurd (hserver _ hc) (by decide)
  · have hv := h.place.saslVersion hc
    rw [hv] at hmem
    have hname : c.name.Down ∨ c.name = .amqpTunnelEstablished ∨
        c.name = .connectingSasl ∧ c.negotiator ≠ .waitingForBrokerResponse := by
      have hclient := h.place.client
      have hearly := h.place.early
      cases hname : c.name with
      | connectingSasl => exact .inr (.inr ⟨rfl, by simp [hn]⟩)
      | connectingAmqp => exact absurd ((htunnel hname).symm.trans hc) (by simp)
      | initialized => exact absurd (hearly (.inl hname)).1 (by simp [hn])
      | connectingSocket => exact absurd (hearly (.inr hname)).1 (by simp [hn])
      | amqpTunnelEstablished => exact .inr (.inl rfl)
      | _ =>
        rw [hname] at hclient
        first | exact .inl trivial | exact hclient.elim
    exact hcall .frameEnable _ (h.sasl (s := .waitingOnSaslMechanisms) (hmem (by decide)) (by simp)
      (by simp) hname)
  · obtain ⟨hv, hname⟩ := h.place.amqpVersion hc
    rw [hv] at hmem
    refine hcall .connectionDone _ ⟨h.tunnel (s := .negotiated) (by simp), ?_, ?_, fun hn =>
      (hmem (by decide)).resolve_left (by rw [show c.name = _ from hn]; exact id)⟩
    all_goals
      intro hn
      change c.name = _ at hn
      rw [hn] at hname
      simp [ConnectionState.Down] at hname

theorem rejectCallback_ends {version : Nat} (h : pre protocols plugins (.rejectCallback version) c) :
    Ends (Grows protocols plugins c) (Crashed protocols plugins)
      (dispatch d call (.rejectCallback version) c) := by
  obtain ⟨h, hn⟩ := h
  refine rejectCallback_rule h.mayCrash (fun _ => ?_) fun _ =>
    grows_of_down List.prefix_rfl (hcall .connectionFail { c with amqpTunnel := .failed }
      (h.tunnel (s := .failed) (by simp)))
  have hplace : Place c.name c.writer c.socket c.negotiator .failed c.confirm c.preferredVersion
      c.handshake c.trace := { h.place with
    early := fun he => absurd (h.place.early he).1 (by simp [hn])
    exchange := fun _ _ => by simp
    tunnel := fun he => ⟨by simp, by simp, (h.place.tunnel he).2.2⟩ }
  exact grows_of_down List.prefix_rfl (hcall .connectionFail { c with sasl := .failed }
    ⟨h.fixed, { h.side with header := by simp, init := by simp }, hplace, .inr trivial, h.connected,
      h.justified⟩)

/-! The frame reader. -/

theorem frameRead_ends {callback : FrameCallback} (h : Client protocols plugins c) :
    Ends (Grows protocols plugins c) (Crashed protocols plugins) (FrameReader.read call callback c) :=
  FrameReader.read_rule h.mayCrash
    (fun _ => hcall (.readerCommence _ .frameReader) { c.resetBuffer with
      frameReader := .readingFrameHeader, frameCallback := some callback } h) fun _ => h.grows

theorem frameReadDone_ends {amount : Nat} (h : Client protocols plugins c) :
    Ends (Grows protocols plugins c) (Crashed protocols plugins) (FrameReader.readDone call amount c) := by
  have hfail : ∀ size, Ends (Grows protocols plugins c) (Crashed protocols plugins)
      (call .connectionFail { c with frameSize := size }) :=
    fun size => grows_of_down List.prefix_rfl (hcall .connectionFail { c with frameSize := size } h)
  exact FrameReader.readDone_rule h.mayCrash (fun _ _ => hcall .connectionShutdown c h)
    (fun _ _ _ => hfail c.frameSize) (fun _ _ _ => hfail _)
    (fun _ _ _ _ => hcall .frameAvailable { c with frameSize := _, frameReader := _ } h)
    (fun _ _ _ _ => hcall (.readerCommence _ .frameReader) { c with frameSize := _, frameReader := _ } h)
    (fun _ _ => hfail c.frameSize) fun _ _ => hcall .frameAvailable { c with frameReader := _ } h

theorem frameAvailable_ends (h : Client protocols plugins c) :
    Ends (Grows protocols plugins c) (Crashed protocols plugins) (dispatch d call .frameAvailable c) := by
  refine frameAvailable_rule h.mayCrash (fun f i _ => ?_)
    (fun _ _ => grows_of_down List.prefix_rfl (hcall .connectionFail c h))
    (fun _ _ => hcall .connectionShutdown c h) fun _ => hcall (.frameRead .discard) c h
  have h1 := h.mark (m := .receivedFrame f) trivial (by simp)
  exact Grows.trans ⟨h1, List.prefix_append _ _, id⟩
    (hcall (.frameDispatch f) _ ⟨h1, c.trace, rfl, h.progress⟩)

/-! SASL. -/

theorem saslConnect_ends (h : pre protocols plugins .saslConnect c) :
    Ends (Grows protocols plugins c) (Crashed protocols plugins) (Sasl.connect call c) := by
  obtain ⟨h, hname⟩ := h
  refine Sasl.connect_rule (r := fun c1 => Stays protocols plugins c c1 ∧ c.sasl = .initialized) h.mayCrash
    (fun hs => (hcall .negotiatorReset c h).mono (fun _ h1 => ⟨h1, hs⟩) fun _ he => he) ?_
  rintro c1 ⟨⟨h1, hn, ht, hs1, -⟩, hs⟩
  have h2 := hcall (.negotiatorStart c1.requiredSasl .saslVersionAccepted .saslVersionRejected) c1
    ⟨h1, .inl ⟨h1.fixed.sasl, rfl, hn.trans hname, hs1.trans hs⟩⟩
  exact Grows.trans ⟨h1, ht ▸ List.prefix_rfl, fun hd => hn ▸ hd⟩ h2

/-- A frame that the SASL machine does not wait for. -/
theorem outOfSequenceSaslFrame_ends (h : Client protocols plugins c) :
    Ends (Grows protocols plugins c) (Crashed protocols plugins) (call .connectionFail c.frameCleanup) :=
  grows_of_down h.released.2.1 (hcall .connectionFail c.frameCleanup h.cleanup)

omit hcall in
theorem selects_of_selectMechanism {names : List (List UInt8)} {p : SaslPlugin}
    (h : Client protocols plugins c) (hp : Sasl.selectMechanism c names = some p) :
    Selects plugins names := by
  obtain ⟨name, hname, hlookup⟩ := List.exists_of_findSome?_eq_some hp
  refine ⟨name, hname, p, ?_, ?_⟩
  · rw [← h.fixed.plugins]
    exact List.mem_of_find?_eq_some hlookup
  · exact beq_iff_eq.mp (List.find?_some (p := fun p : SaslPlugin => p.mechanismName == name) hlookup)

theorem mechanismsFrame_ends {names : List (List UInt8)}
    (h : pre protocols plugins (.frameDispatch (.saslMechanisms names)) c) :
    Ends (Grows protocols plugins c) (Crashed protocols plugins) (Sasl.mechanismsFrame call names c) := by
  obtain ⟨h, t, ht, hprogress⟩ := h
  refine Sasl.mechanismsFrame_rule
    (r := fun c1 => (Client protocols plugins c1 ∧ c.trace ++ [.sent .saslInit] <+: c1.trace ∧ Steady c c1) ∧
      Selects plugins names ∧ c.sasl = .waitingOnSaslMechanisms)
    h.mayCrash (fun _ => outOfSequenceSaslFrame_ends hcall h) (fun _ plugin => ?_) (fun hs plugin hp => ?_) ?_
  · refine (hcall .connectionFail { c with plugin := plugin } h).mono ?_ fun _ he => he
    exact fun c1 h1 => ⟨h1.1.cleanup, h1.2.1.trans (List.prefix_append _ _), fun _ => h1.2.2⟩
  · exact (hcall (.writerWrite .saslInit) { c with plugin := some plugin } ⟨h, trivial, by simp⟩).mono
      (fun _ h1 => ⟨h1, selects_of_selectMechanism h hp, hs⟩) fun _ he => he
  · rintro c1 ⟨⟨h1, hinit, hsteady⟩, hsel, hs⟩
    rw [hs] at hprogress
    have hgrows : Grows protocols plugins c c1.frameCleanup :=
      ⟨h1.cleanup, ((List.prefix_append _ _).trans hinit).trans (List.prefix_append _ _), hsteady.down⟩
    have hoffered : c1.name.Down ∨ SaslOffered plugins c1.frameCleanup.trace := by
      refine hprogress.imp hgrows.2.2 fun hecho =>
        ⟨names, hsel, List.Sublist.trans ?_ (hinit.trans (List.prefix_append _ _)).sublist⟩
      rw [ht, List.append_assoc]
      exact List.Sublist.append hecho (List.Sublist.refl _)
    have hname1 : c1.name.Down ∨ c1.name = .amqpTunnelEstablished ∨
        c1.name = .connectingSasl ∧ c1.negotiator ≠ .waitingForBrokerResponse := by
      rcases hsteady with hd | ⟨hn, -, -, hg, -⟩
      · exact .inl hd
      · rw [hn, hg]
        exact h.place.in_exchange (.inl hs)
    have h2 := h1.cleanup.sasl (s := .waitingOnSaslChallengeOrOutcome) hoffered (by simp) (by simp) hname1
    exact hgrows.trans (hcall (.frameRead .sasl) _ h2)

theorem outcomeFrame_ends {code : Nat} {additionalData : Bool}
    (h : pre protocols plugins (.frameDispatch (.saslOutcome code additionalData)) c) :
    Ends (Grows protocols plugins c) (Crashed protocols plugins)
      (Sasl.outcomeFrame call code additionalData c) := by
  obtain ⟨h, t, ht, hprogress⟩ := h
  refine Sasl.outcomeFrame_rule h.mayCrash (fun _ => outOfSequenceSaslFrame_ends hcall h)
    (fun hs hdata hcode => ?_) fun _ _ => h.released
  rw [hs] at hprogress
  have hname := h.place.in_exchange (.inr hs)
  have hauth : c.name.Down ∨ Authenticated plugins c.frameCleanup.trace := by
    refine hprogress.imp_right ?_
    rintro ⟨names, hsel, hsub⟩
    refine ⟨names, hsel, ?_⟩
    refine List.Sublist.trans ?_ (List.prefix_append c.trace [.released]).sublist
    rw [ht, hdata, hcode]
    exact hsub.append (List.Sublist.refl _)
  have h1 := h.cleanup.sasl (s := .negotiated) hauth (by simp) (by simp) hname
  refine h.released.trans (hcall .connectionDone _ ⟨h1, fun hn => ?_, fun hn => ⟨rfl, ?_⟩, fun hn => ?_⟩)
  · change c.name = _ at hn
    simp [hn, ConnectionState.Down] at hname
  · change c.name = _ at hn
    simp only [hn, ConnectionState.Down, reduceCtorEq, false_or, true_and] at hname
    exact hname
  · change c.name = _ at hn
    simp [hn, ConnectionState.Down] at hname

/-! The AMQP tunnel and the AMQP connection. -/

theorem tunnelConnect_ends (h : pre protocols plugins .tunnelConnect c) :
    Ends (Grows protocols plugins c) (Crashed protocols plugins) (AmqpTunnel.connect call c) := by
  obtain ⟨h, hname, hsasl⟩ := h
  refine AmqpTunnel.connect_rule h.mayCrash (fun _ => hcall .negotiatorReset c h) ?_
  rintro c1 ⟨h1, hn, ht, -⟩
  rw [← ht] at hsasl
  have h2 := hcall (.negotiatorStart c1.requiredAmqp .amqpVersionAccepted .amqpVersionRejected) c1
    ⟨h1, .inr ⟨h1.fixed.amqp, rfl, hn.trans hname, hsasl⟩⟩
  exact Grows.trans ⟨h1, ht ▸ List.prefix_rfl, fun hd => hn ▸ hd⟩ h2

theorem sendOpen_ends (h : pre protocols plugins .amqpSendOpen c) :
    Ends (Grows protocols plugins c) (Crashed protocols plugins) (AmqpConnection.sendOpen call c) := by
  obtain ⟨h, hname, hecho, hauth, hopen⟩ := h
  have hup : ¬ c.name.Down := by simp [hname, ConnectionState.Down]
  refine AmqpConnection.sendOpen_rule (s := Grows protocols plugins c) h.mayCrash
    (fun _ => hcall (.writerWrite .amqpOpen) c ⟨h, ⟨hopen, hecho, hauth⟩, fun _ => .inl hname⟩) ?_
    fun c2 h2 => h2.trans (hcall (.frameRead .amqp) c2 h2.1)
  rintro c1 ⟨h1, ht, -⟩
  exact Grows.trans ⟨h1, (List.prefix_append _ _).trans ht, (absurd · hup)⟩
    (hcall .frameEnable { c1 with amqp := .openSent } (h1.amqp (s := .openSent) (by simp)))

/-- A frame that the AMQP machine does not wait for. -/
theorem outOfSequenceFrame_ends (h : Client protocols plugins c) :
    Ends (Grows protocols plugins c) (Crashed protocols plugins) (call .connectionShutdown c.frameCleanup) :=
  h.released.trans (hcall .connectionShutdown c.frameCleanup h.cleanup)

theorem openFrame_ends {hostname : Bool} {idleTimeOut : Nat} (h : Client protocols plugins c) :
    Ends (Grows protocols plugins c) (Crashed protocols plugins)
      (AmqpConnection.openFrame call hostname idleTimeOut c) :=
  AmqpConnection.openFrame_rule (r := fun _ => False) h.mayCrash (fun _ _ => outOfSequenceFrame_ends hcall h)
    (fun _ _ => h.released.trans (hcall (.frameRead .amqp) _ (h.cleanup.amqp (s := .opened) (by simp))))
    (fun hs => absurd hs h.side.open_) fun _ h1 => h1.elim

theorem beginConnectionClose_ends (h : Client protocols plugins c) :
    Ends (Grows protocols plugins c) (Crashed protocols plugins)
      (AmqpConnection.beginConnectionClose call c) := by
  refine AmqpConnection.beginConnectionClose_rule (hcall (.writerWrite .amqpClose) c ⟨h, trivial, by simp⟩) ?_
  rintro c1 ⟨h1, ht, hsteady⟩
  exact Grows.trans ⟨h1, (List.prefix_append _ _).trans ht, hsteady.down⟩
    (hcall (.frameRead .amqp) _ (h1.amqp (s := .closeSent) (by simp)))

theorem closeFrame_ends {error : Bool} (h : Client protocols plugins c) :
    Ends (Grows protocols plugins c) (Crashed protocols plugins)
      (AmqpConnection.closeFrame call error c) := by
  have h1 := h.cleanup.amqp (s := .closed) (by simp)
  refine AmqpConnection.closeFrame_rule (r := Grows protocols plugins c)
    (s := fun c2 => Client protocols plugins c2 ∧ c.trace <+: c2.trace) h.mayCrash
    (fun _ _ => outOfSequenceFrame_ends hcall h)
    (fun _ => h.released.trans (hcall (.frameRead .discard) _ h1)) ?_
    (fun c2 h2 => grows_of_down h2.2 (hcall .shutdownDrain c2 h2.1))
    fun _ => grows_of_down h.released.2.1 (hcall .shutdownDrain _ h1)
  rintro c1 ⟨h2, ht, -⟩
  exact (hcall (.writerWrite .amqpClose) c1 ⟨h2, trivial, by simp⟩).mono
    (fun _ h3 => ⟨h3.1, ht.trans ((List.prefix_append _ _).trans h3.2.1)⟩) fun _ he => he

theorem frameDispatch_ends {f : PeerFrame} (h : pre protocols plugins (.frameDispatch f) c) :
    Ends (Grows protocols plugins c) (Crashed protocols plugins) (f.dispatch call c) := by
  cases f with
  | saslMechanisms names => exact mechanismsFrame_ends hcall h
  | saslInit mechanism =>
    exact Sasl.initFrame_rule (r := fun _ => False) h.1.mayCrash (fun _ => outOfSequenceSaslFrame_ends hcall h.1)
      (fun hs => absurd hs h.1.side.init) (fun hs => absurd hs h.1.side.init) fun _ h1 => h1.elim
  | saslChallenge =>
    exact Sasl.challengeFrame_rule h.1.mayCrash fun _ => outOfSequenceSaslFrame_ends hcall h.1
  | saslResponse => exact outOfSequenceSaslFrame_ends hcall h.1
  | saslOutcome code additionalData => exact outcomeFrame_ends hcall h
  | amqpOpen hostname idleTimeOut => exact openFrame_ends hcall h.1
  | amqpClose error => exact closeFrame_ends hcall h.1
  | empty =>
    exact AmqpConnection.emptyFrame_rule (fun _ => hcall (.frameRead .amqp) c h.1)
      fun _ _ => outOfSequenceFrame_ends hcall h.1
  | _ => exact outOfSequenceFrame_ends hcall h.1

/-! The connection. -/

omit hcall in
/-- A call that leaves the connection where it was. -/
theorem Stays.trans {c1 c2 : Connection} (h : Stays protocols plugins c c1) (h' : Stays protocols plugins c1 c2) :
    Stays protocols plugins c c2 :=
  ⟨h'.1, h'.2.1.trans h.2.1, h'.2.2.1.trans h.2.2.1, h'.2.2.2.1.trans h.2.2.2.1, h'.2.2.2.2.trans h.2.2.2.2⟩

omit hcall in
theorem Stays.grows {c1 : Connection} (h : Stays protocols plugins c c1) : Grows protocols plugins c c1 :=
  ⟨h.1, h.2.2.1 ▸ List.prefix_rfl, fun hd => h.2.1 ▸ hd⟩

theorem enableIo_ends (h : Client protocols plugins c) :
    Ends (Stays protocols plugins c) (Crashed protocols plugins) (Machine.enableIo call c) :=
  Machine.enableIo_rule (hcall .readerEnable c h) fun c1 h1 =>
    (hcall .writerEnable c1 h1.1).mono (fun _ h2 => Stays.trans h1 h2) fun _ he => he

theorem stopActivity_ends (h : Client protocols plugins c) (hdown : c.name.Down) :
    Ends (Grows protocols plugins c) (Crashed protocols plugins) (Machine.stopActivity call c) :=
  Machine.stopActivity_rule (s := Stays protocols plugins c) (hcall .writerAbort c h)
    (fun c1 h1 => (hcall .readerStop c1 h1.1).mono (fun _ h2 => Stays.trans h1 h2) fun _ he => he)
    fun c2 h2 => h2.grows.trans (hcall .socketShutdown c2 ⟨h2.1, h2.grows.2.2 hdown⟩)

omit hcall in
/-- What takes a connection that is down already further. -/
theorem Grows.down {c1 : Connection} {r : Outcome}
    (hr : Ends (Grows protocols plugins c1) (Crashed protocols plugins) r) (hdown : c1.name.Down)
    (ht : c1.trace = c.trace) :
    Ends (fun c' => Client protocols plugins c' ∧ c.trace <+: c'.trace ∧ c'.name.Down)
      (Crashed protocols plugins) r :=
  hr.mono (fun _ h' => ⟨h'.1, ht ▸ h'.2.1, h'.2.2 hdown⟩) fun _ he => he

theorem stopInput_ends (h : Client protocols plugins c) :
    Ends (fun c' => Client protocols plugins c' ∧ c.trace <+: c'.trace ∧ c'.name.Down)
      (Crashed protocols plugins) (Machine.stopInput call c) := by
  refine Machine.stopInput_rule (hcall .readerStop _ (h.transitionTo (n := .stopping) trivial)) ?_
  rintro c1 ⟨h1, hn1, ht1, -⟩
  have hdown : c1.name.Down := hn1 ▸ trivial
  exact Grows.down (hcall .socketShutdown c1 ⟨h1, hdown⟩) hdown ht1

theorem shutdownConnection_ends {m : ShutdownMode} (h : Client protocols plugins c) :
    Ends (fun c' => Client protocols plugins c' ∧ c.trace <+: c'.trace ∧ c'.name.Down)
      (Crashed protocols plugins) (Machine.shutdownConnection call m c) :=
  Machine.shutdownConnection_rule
    (fun _ => Grows.down (hcall .writerStop (Machine.transitionTo .stoppingOutput
      { c with handshake := m.toProtocols, timer := true })
      ⟨h.shutdownMode (n := .stoppingOutput) trivial m.toProtocols, trivial⟩) trivial rfl)
    fun _ => Grows.down
      (stopActivity_ends hcall (h.shutdownMode (n := .stopping) trivial m.toProtocols) trivial) trivial rfl

omit hcall in
theorem halt (h : Client protocols plugins c) {n : ConnectionState} (hname : n.Down) :
    Client protocols plugins (Machine.connectionHalt (Machine.transitionTo n c)) ∧
      c.trace <+: (Machine.connectionHalt (Machine.transitionTo n c)).trace ∧ n.Down :=
  ⟨(h.transitionTo hname).mark (m := .halted) trivial (by simp), List.prefix_append _ _, hname⟩

omit hcall in
theorem halt_grows (h : Client protocols plugins c) {n : ConnectionState} (hname : n.Down) :
    Grows protocols plugins c (Machine.connectionHalt (Machine.transitionTo n c)) :=
  ⟨(halt h hname).1, (halt h hname).2.1, fun _ => hname⟩

theorem fail_ends (h : Client protocols plugins c) :
    Ends (post protocols plugins .connectionFail c) (Crashed protocols plugins) (Machine.fail call c) :=
  Machine.fail_rule h.mayCrash (fun _ => hcall .shutdownDrain c h) (fun _ => halt (n := .failed) h trivial)
    fun _ _ => shutdownConnection_ends hcall h

theorem drain_ends (h : Client protocols plugins c) :
    Ends (post protocols plugins .shutdownDrain c) (Crashed protocols plugins) (Machine.drain call c) := by
  exact Machine.drain_rule (fun hdown => ⟨h, List.prefix_rfl, hdown⟩)
    fun _ _ _ => shutdownConnection_ends hcall h

theorem shutdown_ends (h : Client protocols plugins c) :
    Ends (Grows protocols plugins c) (Crashed protocols plugins) (Machine.shutdown call c) :=
  Machine.shutdown_rule (fun _ => grows_of_down List.prefix_rfl (hcall .shutdownClose c h)) (fun _ => h.grows)
    fun _ => beginConnectionClose_ends hcall h

theorem timeout_ends {readIdle writeIdle : Bool} (h : Client protocols plugins c) :
    Ends (Grows protocols plugins c) (Crashed protocols plugins)
      (Machine.timeout call readIdle writeIdle c) := by
  refine Machine.timeout_rule (fun _ => h.mayCrash) (fun _ => ?_)
    (fun _ _ => beginConnectionClose_ends hcall h) (fun _ => ?_) (fun _ => h.grows)
    (fun _ => grows_of_down List.prefix_rfl (hcall .shutdownDrain (AmqpConnection.transitionToClosed c)
      (h.amqp (s := .closed) (by simp))))
    fun _ => grows_of_down List.prefix_rfl (hcall .shutdownClose c h)
  · exact grows_of_down List.prefix_rfl (Grows.down
      (stopActivity_ends hcall (h.transitionTo (n := .timeout) trivial) trivial) trivial rfl)
  · exact (hcall (.writerWrite .emptyFrame) c ⟨h, trivial, by simp⟩).mono
      (fun _ h1 => ⟨h1.1, (List.prefix_append _ _).trans h1.2.1, h1.2.2.down⟩) fun _ he => he

theorem readDoneWhileDraining_ends {buffer : Bool} {amount : Nat} (h : Client protocols plugins c) :
    Ends (Grows protocols plugins c) (Crashed protocols plugins)
      (Machine.readDoneWhileDrainingInput call buffer amount c) :=
  Machine.readDoneWhileDrainingInput_rule h.mayCrash
    (fun _ => grows_of_down List.prefix_rfl (Grows.down
      (hcall (.readerCommence Reader.capacity .connection) (Machine.drainInput c)
        (h.transitionTo (n := .drainingInput) trivial)) trivial rfl))
    fun _ => grows_of_down List.prefix_rfl (stopInput_ends hcall h)

theorem doneWhileStoppingOutput_ends (h : Client protocols plugins c) :
    Ends (Grows protocols plugins c) (Crashed protocols plugins) (Machine.doneWhileStoppingOutput call c) := by
  refine Machine.doneWhileStoppingOutput_rule (r := Grows protocols plugins c) h.mayCrash (fun _ => ?_)
    (fun c1 h1 => h1.trans (hcall (.readerCommence Reader.capacity .connection) c1 h1.1))
    fun _ => grows_of_down List.prefix_rfl (stopInput_ends hcall h)
  exact grows_of_down List.prefix_rfl (Grows.down (hcall .readerReset
    (Machine.drainInput { c with timer := true }) (h.transitionTo (n := .drainingInput) trivial)) trivial rfl)

theorem startNextProtocol_ends (h : Client protocols plugins c)
    (hname : c.name = .connectingSocket ∧ c.socket ≠ .resolving ∧ c.socket ≠ .connecting ∧
        c.handshake = protocols ∨
      c.name = .connectingSasl ∧ c.sasl = .negotiated ∧ c.negotiator ≠ .waitingForBrokerResponse) :
    Ends (Grows protocols plugins c) (Crashed protocols plugins) (Machine.startNextProtocol call c) := by
  have hup : ¬ c.name.Down := by
    rcases hname with ⟨hn, -⟩ | ⟨hn, -⟩
    all_goals simp [hn, ConnectionState.Down]
  have htls : c.handshake.tls = false := by
    rcases hname with ⟨-, -, -, hp⟩ | ⟨hn, -⟩
    · rw [hp, ← h.fixed.protocols]
      exact h.fixed.tls
    · exact (h.place.handshake hn).1
  refine Machine.startNextProtocol_rule (fun ht => absurd ht (by simp [htls])) (fun _ hsasl => ?_)
    (fun _ hsasl => ?_) (grows_of_down List.prefix_rfl (hcall .connectionFail c h))
  · rcases hname with ⟨hn, h1, h2, -⟩ | ⟨hn, -⟩
    · have hplace := h.place.toSasl hn ⟨h1, h2⟩ (k := { c.handshake with sasl := false }) ⟨htls, rfl⟩
      refine (hcall .saslConnect { Machine.transitionTo .connectingSasl c with
        handshake := { c.handshake with sasl := false } }
        ⟨⟨h.fixed, h.side, hplace, .inr (h.up hup), h.connected, h.justified⟩, rfl⟩).mono ?_ fun _ he => he
      exact fun c1 h1 => ⟨h1.1, h1.2.1, fun hd => absurd hd hup⟩
    · rw [(h.place.handshake hn).2] at hsasl
      simp at hsasl
  · have hplace := h.place.toAmqp (k := { c.handshake with amqp := false })
      (hname.imp (fun hn => ⟨hn.1, hn.2.1, hn.2.2.1⟩) id)
    have hauth : protocols.sasl → Authenticated plugins c.trace := by
      intro hs
      rcases hname with ⟨-, -, -, hp⟩ | ⟨-, hn, -⟩
      · rw [← hp, hsasl] at hs
        simp at hs
      · have := h.up hup
        rw [hn] at this
        exact this
    refine (hcall .tunnelConnect { Machine.transitionTo .connectingAmqp c with
      handshake := { c.handshake with amqp := false } }
      ⟨⟨h.fixed, h.side, hplace, .inr (h.up hup), h.connected, h.justified⟩, rfl, hauth⟩).mono ?_
      fun _ he => he
    exact fun c1 h1 => ⟨h1.1, h1.2.1, fun hd => absurd hd hup⟩

/-- The tunnel stands: the header that came back was sent, and so permitted. -/
theorem tunnelEstablished_ends (h : Client protocols plugins c) (hname : c.name = .connectingAmqp)
    (hecho : Echoed amqpPreferredVersion c.trace) :
    Ends (Grows protocols plugins c) (Crashed protocols plugins)
      (call .amqpSendOpen (Machine.transitionTo .amqpTunnelEstablished { c with isClient := true })) := by
  have hup : ¬ c.name.Down := by simp [hname, ConnectionState.Down]
  have hauth : protocols.sasl → Authenticated plugins c.trace := by
    intro hs
    obtain ⟨before, hpre, hp⟩ := h.justified.of_mem (hecho.subset (List.mem_cons_self ..))
    exact Authenticated.mono (hp rfl hs) hpre
  have hopen : .sent .amqpOpen ∉ c.trace := by
    intro ho
    simpa [hname, ConnectionState.Down] using h.place.opened ho
  have hplace : Place .amqpTunnelEstablished c.writer c.socket c.negotiator c.sasl c.confirm
      c.preferredVersion c.handshake c.trace := { h.place with
    client := trivial
    stopping := fun hw => by simpa [hname, ConnectionState.Down] using h.place.stopping hw
    connecting := fun hs => by simpa [hname, ConnectionState.Down] using h.place.connecting hs
    amqpVersion := fun hc => ⟨(h.place.amqpVersion hc).1, .inr (.inl rfl)⟩
    handshake := by simp
    early := by simp
    exchange := by simp
    tunnel := by simp
    opened := fun _ => .inl rfl
    asked := fun hn => .inr ((h.place.asked hn).resolve_left hup) }
  exact (hcall .amqpSendOpen (Machine.transitionTo .amqpTunnelEstablished { c with isClient := true })
    ⟨⟨h.fixed, h.side, hplace, .inr (h.up hup), h.connected, h.justified⟩, rfl, hecho, hauth, hopen⟩).mono
    (fun _ h1 => ⟨h1.1, h1.2.1, (absurd · hup)⟩) fun _ he => he

theorem done_ends (h : pre protocols plugins .connectionDone c) :
    Ends (Grows protocols plugins c) (Crashed protocols plugins) (Machine.done call c) := by
  obtain ⟨h, hsocket, hsasl, hamqp⟩ := h
  have hclient := h.place.client
  refine Machine.done_rule (r := fun c1 => Stays protocols plugins c c1 ∧ c.name = .connectingSocket)
    (s := fun _ => False) h.mayCrash (fun hname => ?_) (fun c1 h1 => ?_) (fun hname => ?_) (fun hname => ?_)
    (fun hname => tunnelEstablished_ends hcall h hname (hamqp hname)) (fun hname => ?_) (fun hname => ?_)
    (fun hname => ?_) (fun _ h1 => h1.elim) (fun hname => ?_) (fun _ => doneWhileStoppingOutput_ends hcall h)
    (fun _ => halt_grows h (n := .failed) trivial) fun _ => halt_grows h (n := .stopped) trivial
  · exact (enableIo_ends hcall h).mono (fun _ h1 => ⟨h1, hname⟩) fun _ he => he
  · obtain ⟨hstays, hname⟩ := h1
    have hgrows := hstays.grows
    obtain ⟨h1, hn1, -, -, hk1⟩ := hstays
    obtain ⟨hs1, hs2⟩ := hsocket hname
    have hplace : Place c1.name c1.writer c1.socket c1.negotiator c1.sasl c1.confirm
        c1.preferredVersion c1.protocols c1.trace := { h1.place with
      handshake := fun he => absurd (hn1.symm.trans he) (by simp [hname]) }
    exact hgrows.trans (startNextProtocol_ends hcall (c := { c1 with handshake := c1.protocols })
      ⟨h1.fixed, h1.side, hplace, h1.progress, h1.connected, h1.justified⟩
      (.inl ⟨hn1.trans hname, hk1 ▸ hs1, hk1 ▸ hs2, h1.fixed.protocols⟩))
  · rw [hname] at hclient
    exact hclient.elim
  · obtain ⟨hs, hn⟩ := hsasl hname
    have hauth : Authenticated plugins c.trace := by
      have := h.up (by simp [hname, ConnectionState.Down])
      rw [hs] at this
      exact this
    exact startNextProtocol_ends hcall (c := { c with saslConnected := true })
      ⟨h.fixed, h.side, h.place, h.progress, fun _ => hauth, h.justified⟩ (.inr ⟨hname, hs, hn⟩)
  all_goals
    rw [hname] at hclient
    exact hclient.elim

theorem connect_ends {lookup : Option Nat} (h : Client protocols plugins c) :
    Ends (Grows protocols plugins c) (Crashed protocols plugins) (Machine.connect call lookup c) := by
  refine Machine.connect_rule h.mayCrash fun hname => ?_
  have hplace : Place .connectingSocket c.writer c.socket c.negotiator c.sasl c.confirm
      c.preferredVersion c.handshake c.trace := { h.place with
    client := trivial
    stopping := fun hw => by simpa [hname, ConnectionState.Down] using h.place.stopping hw
    connecting := fun _ => .inl rfl
    amqpVersion := fun hc => by simpa [hname, ConnectionState.Down] using (h.place.amqpVersion hc).2
    handshake := by simp
    early := fun _ => h.place.early (.inl hname)
    exchange := by simp
    tunnel := by simp
    opened := fun ho => by simpa [hname, ConnectionState.Down] using h.place.opened ho
    asked := fun hn => by simp [(h.place.early (.inl hname)).1] at hn }
  refine (hcall (.socketConnect lookup) (Machine.transitionTo .connectingSocket c)
    ⟨⟨h.fixed, h.side, hplace, .inr (h.up (by simp [hname, ConnectionState.Down])), h.connected,
      h.justified⟩, rfl⟩).mono ?_ fun _ he => he
  exact fun c1 h1 => ⟨h1.1, h1.2.1, fun hd => absurd hd (by simp [hname, ConnectionState.Down])⟩

/-! ## Every call, every step, every run -/

theorem dispatch_respects (d : FrameDecoders) : Respects protocols plugins (dispatch d call) := by
  intro a c h
  cases a with
  | connectionConnect lookup => exact connect_ends hcall h
  | connectionBegin version => exact h.elim
  | connectionReject version => exact h.elim
  | connectionDone => exact done_ends hcall h
  | connectionFail => exact fail_ends hcall h
  | connectionShutdown => exact shutdown_ends hcall h
  | connectionTimeout readIdle writeIdle => exact timeout_ends hcall h
  | shutdownDrain => exact drain_ends hcall h
  | shutdownClose => exact shutdownConnection_ends hcall (m := .completeWriteAndCloseSocket) h
  | socketConnect lookup => exact socketConnect_ends hcall h.1 h.2
  | socketTryConnect => exact tryConnect_ends hcall h
  | socketDone => exact socketDone_ends hcall h
  | socketFail => exact socketFail_ends hcall h
  | socketShutdown => exact socketShutdown_ends hcall h.1 h.2
  | writerEnable =>
    exact Writer.enable_rule h.mayCrash fun _ => ⟨h.writer (w := .enabled) (by simp), rfl, rfl, rfl, rfl⟩
  | writerWrite m => exact write_ends hcall h
  | writerContinue => exact continueWrite_ends hcall h
  | writerComplete => exact writeComplete_ends hcall h
  | writerStop => exact stop_ends hcall h.1 h.2
  | writerAbort =>
    exact Writer.abort_rule (fun _ => ⟨h, rfl, rfl, rfl, rfl⟩)
      ⟨h.writer (w := .stopped) (by simp), rfl, rfl, rfl, rfl⟩
  | writerFail => exact writerFail_ends hcall h
  | readerEnable => exact Reader.enable_rule h.mayCrash fun _ => ⟨h, rfl, rfl, rfl, rfl⟩
  | readerCommence required callback => exact commenceRead_ends hcall h
  | readerReset =>
    exact Reader.reset_rule (fun _ => Client.grows (c := { c with reader := _ }) h)
      (fun _ => Client.grows (c := { c with reader := _ }) h) fun _ _ _ => h.grows
  | readerDelayed =>
    exact Reader.delayedRead_rule (fun _ => delayedReadWhileReading_ends hcall h) fun _ => h.grows
  | readerStop => exact Reader.stop_rule ⟨h, rfl, rfl, rfl, rfl⟩ fun _ => ⟨h, rfl, rfl, rfl, rfl⟩
  | readerFail => exact readerFail_ends hcall h
  | readDone callback buffer amount =>
    cases callback with
    | negotiator => exact negotiatorReadDone_ends hcall h
    | frameReader => exact frameReadDone_ends hcall h
    | connection => exact readDoneWhileDraining_ends hcall h
  | negotiatorStart version confirm reject => exact negotiatorStart_ends hcall h
  | negotiatorWait => exact h.elim
  | negotiatorSend version confirm => exact h.elim
  | negotiatorReset => exact negotiatorReset_ends h
  | confirmCallback => exact confirm_ends hcall h
  | rejectCallback version => exact rejectCallback_ends hcall h
  | requestCallback version => exact h.elim
  | tlsConnect => exact h.elim
  | tlsAccept version => exact h.elim
  | saslConnect => exact saslConnect_ends hcall h
  | saslAccept version => exact h.elim
  | saslDone => exact h.elim
  | tunnelConnect => exact tunnelConnect_ends hcall h
  | tunnelAccept version => exact h.elim
  | tunnelDone => exact h.elim
  | amqpSendOpen => exact sendOpen_ends hcall h
  | amqpWaitOnOpen => exact h.elim
  | frameEnable =>
    exact FrameReader.enable_rule (fun _ => Client.grows (c := { c with frameReader := .enabled }) h)
      fun _ => h.grows
  | frameRead callback => exact frameRead_ends hcall h
  | frameAvailable => exact frameAvailable_ends hcall h
  | frameDispatch f => exact frameDispatch_ends hcall h

end Functions

/-- Calls of any depth respect the order. -/
theorem calls_respects (d : FrameDecoders) (depth : Nat) : Respects protocols plugins (calls d depth) := by
  refine invoke_ends ?_ (fun call hcall => dispatch_respects hcall d) depth
  intro a c h
  have hclient : Client protocols plugins c := by
    cases a <;> first | exact h.1 | exact h | exact h.elim
  exact hclient.justified

theorem handle_ends {call : Calls} (hcall : Respects protocols plugins call) {c : Connection}
    (h : Client protocols plugins c) (event : Event) :
    Ends (Client protocols plugins) (Crashed protocols plugins) (c.handle call event) := by
  have hweak : ∀ {r : Outcome},
      Ends (Grows protocols plugins c) (Crashed protocols plugins) r →
      Ends (Client protocols plugins) (Crashed protocols plugins) r :=
    fun hr => hr.mono (fun _ h' => h'.1) fun _ he => he
  refine handle_rule h (fun lookup _ _ => hweak ?_) (fun _ _ ha => absurd ha (by simp [h.fixed.accepted]))
    (fun _ => hweak (hcall .connectionShutdown c h)) (fun _ _ _ => hweak ?_)
    (fun _ _ _ _ _ _ => hweak (readComplete_ends hcall h)) (fun _ _ _ => hweak (readEof_ends hcall h))
    (fun _ _ => hweak (hcall .readerFail c h)) (fun _ _ => hweak (hcall .writerContinue c h))
    fun readIdle writeIdle _ _ => hweak (hcall (.connectionTimeout readIdle writeIdle) c h)
  · exact connectTo_rule (fun _ => hcall (.connectionConnect lookup) c h)
      fun _ => grows_of_down List.prefix_rfl (hcall .connectionFail c h)
  · exact Socket.connectEvent_rule (hcall .socketDone { c with connectWatcher := false } h)
      (connectionAttemptFailed_ends hcall (c := { c with connectWatcher := false }) h)

theorem step_ends (d : FrameDecoders) (depth : Nat) {c : Connection} (h : Client protocols plugins c)
    (i : Stimulus) :
    Ends (Client protocols plugins) (Crashed protocols plugins) (c.step d depth i) :=
  handle_ends (calls_respects d depth) (c := c.arm i) h i.event

theorem client_create (htls : protocols.tls = false) (maxFrameSize idleTimeOut : Nat) :
    Client protocols plugins (Connection.create protocols maxFrameSize idleTimeOut plugins false) := by
  refine ⟨⟨rfl, htls, rfl, rfl, rfl, rfl⟩, ?_, ?_, .inr trivial, by simp [Connection.create], Justified.nil⟩
  · constructor <;> simp [Connection.create]
  · constructor <;> simp [Connection.create, ConnectionState.OfClient]

end Order

/-- **A client authenticates in order**: whatever the peer sends and whatever the system calls do, at
every state of every run, and when the process ends, everything the client has sent was permitted by
what went over the wire before; and `AMQP_CONNECTION_SASL_CONNECTED` is set only if SASL has been
through. (Kept memory.) -/
theorem client_authentication_order (d : FrameDecoders) (depth : Nat) (protocols : Protocols)
    (htls : protocols.tls = false) (maxFrameSize idleTimeOut : Nat) (plugins : List SaslPlugin)
    (is : List Stimulus) :
    Ends
      (fun c => Justified (Permits protocols plugins) c.trace ∧
        (c.saslConnected → Authenticated plugins c.trace))
      (fun e => Justified (Permits protocols plugins) e.trace)
      (run (Connection.step d depth)
        (Connection.create protocols maxFrameSize idleTimeOut plugins false) is) := by
  have hrun := run_ends (c := fun _ _ => True)
    (fun c i (h : Order.Client protocols plugins c) _ => Order.step_ends d depth h i) is _
    (Order.client_create htls maxFrameSize idleTimeOut) (RunMeets.true is _)
  exact hrun.mono (fun c h => ⟨h.justified, h.connected⟩) fun e he => he

/-- A client that asks for SASL goes through it and sends its open. -/
def authenticates : List Stimulus :=
  [{ event := .connect (some 1) }, { event := .connectReady true },
    { event := .data (encodeVersion amqpSaslPreferredVersion) false }] ++
  readsOf plainMechanisms [] ++ readsOf (outcomeBytes 0) [] ++
  [{ event := .data (encodeVersion amqpPreferredVersion) false }]

theorem client_authentication_order_plain :
    (run (Connection.step plainDecoders 40)
        (Connection.create ⟨false, true, true⟩ 4096 0 [plainPlugin] false) authenticates).toOption.map
        (fun c => (c.saslConnected, c.trace)) =
      some (true, [.sent (.header amqpSaslPreferredVersion),
        .receivedHeader (encodeVersion amqpSaslPreferredVersion), .receivedFrame (.saslMechanisms [plainName]),
        .sent .saslInit, .released, .receivedFrame (.saslOutcome 0 false), .released,
        .sent (.header amqpPreferredVersion), .receivedHeader (encodeVersion amqpPreferredVersion),
        .sent .amqpOpen]) ∧
    Ends
      (fun c => Justified (Permits ⟨false, true, true⟩ [plainPlugin]) c.trace ∧
        (c.saslConnected → Authenticated [plainPlugin] c.trace))
      (fun e => Justified (Permits ⟨false, true, true⟩ [plainPlugin]) e.trace)
      (run (Connection.step plainDecoders 40)
        (Connection.create ⟨false, true, true⟩ 4096 0 [plainPlugin] false) authenticates) :=
  ⟨by decide +kernel, client_authentication_order _ 40 _ rfl 4096 0 _ _⟩

end Amqp
