import LibAmqp.Connection.Proof.Rules

/-!
# What the functions of the protocols do

The rules of the negotiator, of the frame reader and of the SASL, tunnel and AMQP machines.
-/

namespace Amqp

open Lib

variable {call : Calls} {c : Connection} {p r s : Connection → Prop} {q : Crash → Prop}

/-! ## Negotiator -/

namespace Negotiator

theorem start_rule {version : Nat} {confirm : ConfirmCallback} {reject : RejectCallback}
    (hcrash : MayCrash q c)
    (hwrite : c.negotiator = .initialized → Ends r q (call (.writerWrite (.header version)) { c with
      preferredVersion := version, confirm := some confirm, rejectCallback := some reject,
      request := false }))
    (hread : ∀ c1, r c1 → Ends p q (call (.readerCommence amqpFrameHeaderSizeInBytes .negotiator)
      { c1 with negotiator := .waitingForBrokerResponse }.resetBuffer)) :
    Ends p q (start call version confirm reject c) := by
  unfold start
  cases hs : c.negotiator with
  | initialized => exact (hwrite hs).bind hread
  | _ => exact hcrash _ (by decide)

theorem wait_rule (hcrash : MayCrash q c)
    (hread : c.negotiator = .initialized →
      Ends p q (call (.readerCommence amqpFrameHeaderSizeInBytes .negotiator) { c with
        negotiator := .waitingOnClientRequest, preferredVersion := 0, confirm := none,
        rejectCallback := none, request := true })) :
    Ends p q (wait call c) := by
  unfold wait
  cases hs : c.negotiator with
  | initialized => exact hread hs
  | _ => exact hcrash _ (by decide)

theorem send_rule {version : Nat} {confirm : ConfirmCallback}
    (hcrash : c.negotiator ≠ .waitingToSendServerResponse → MayCrash q c)
    (hwrite : c.negotiator = .waitingToSendServerResponse →
      Ends r q (call (.writerWrite (.header version)) { c with
        preferredVersion := version, confirm := some confirm, rejectCallback := none, request := false }))
    (hconfirm : ∀ c1, r c1 → Ends p q (call .confirmCallback { c1 with negotiator := .negotiated })) :
    Ends p q (send call version confirm c) := by
  unfold send
  cases hs : c.negotiator with
  | waitingToSendServerResponse => exact (hwrite hs).bind hconfirm
  | _ => exact hcrash (by simp [hs]) _ (by decide)

theorem reset_rule (hcrash : MayCrash q c) (hkeep : c.negotiator = .initialized → p c)
    (h : c.negotiator = .negotiated → p { c with negotiator := .initialized }) : Ends p q (reset c) := by
  unfold reset
  cases hs : c.negotiator with
  | initialized => exact hkeep hs
  | negotiated => exact h hs
  | _ => exact hcrash _ (by decide)

theorem readDone_rule {buffer : Bool} {amount : Nat} (hcrash : MayCrash q c)
    (hend : amount = 0 → c.negotiator = .waitingForBrokerResponse ∨ c.negotiator = .waitingOnClientRequest →
      Ends p q (call .connectionShutdown { c with negotiator := .failed }))
    (hconfirm : amount ≠ 0 → c.negotiator = .waitingForBrokerResponse →
      announcedVersion c = c.preferredVersion →
      Ends p q (call .confirmCallback { consumeHeader c with negotiator := .negotiated }))
    (hreject : amount ≠ 0 → c.negotiator = .waitingForBrokerResponse →
      announcedVersion c ≠ c.preferredVersion →
      Ends p q (call (.rejectCallback (announcedVersion c)) { consumeHeader c with negotiator := .rejected }))
    (hrequest : amount ≠ 0 → c.negotiator = .waitingOnClientRequest →
      Ends p q (call (.requestCallback (announcedVersion c))
        { consumeHeader c with negotiator := .waitingToSendServerResponse })) :
    Ends p q (readDone call buffer amount c) := by
  unfold readDone
  cases hs : c.negotiator with
  | waitingForBrokerResponse =>
    dsimp only [readDoneWhileWaitingForBrokerResponse]
    split
    · exact hcrash _ (by decide)
    split
    · next h0 => exact hend h0 (.inl hs)
    · next h0 =>
      split
      · next hv => exact hconfirm h0 hs hv
      · next hv => exact hreject h0 hs hv
  | waitingOnClientRequest =>
    dsimp only [readDoneWhileWaitingOnClientRequest]
    split
    · exact hcrash _ (by decide)
    split
    · next h0 => exact hend h0 (.inr hs)
    · next h0 => exact hrequest h0 hs
  | _ => exact hcrash _ (by decide)

end Negotiator

/-! ## Frame reader -/

namespace FrameReader

theorem enable_rule (h : c.frameReader = .initialized → p { c with frameReader := .enabled })
    (hkeep : c.frameReader ≠ .initialized → p c) : Ends p q (enable c) := by
  unfold enable
  cases hs : c.frameReader with
  | initialized => exact h hs
  | _ => exact hkeep (by simp [hs])

theorem read_rule {callback : FrameCallback} (hcrash : MayCrash q c)
    (hread : c.frameReader = .enabled →
      Ends p q (call (.readerCommence amqpFrameHeaderSizeInBytes .frameReader) { c.resetBuffer with
        frameReader := .readingFrameHeader, frameCallback := some callback }))
    (hkeep : c.frameReader = .readingFrameHeader ∨ c.frameReader = .readingFrameBody → p c) :
    Ends p q (read call callback c) := by
  unfold read
  cases hs : c.frameReader with
  | initialized => exact hcrash _ (by decide)
  | enabled => exact hread hs
  | readingFrameHeader => exact hkeep (.inl hs)
  | readingFrameBody => exact hkeep (.inr hs)

/-- A size that is refused. -/
def RefusesSize (c : Connection) : Prop :=
  c.maxFrameSize ≤ announcedSize c ∨ announcedSize c < amqpFrameHeaderSizeInBytes ∨
    announcedSize c = amqpProtocolHeader

theorem readDone_rule {amount : Nat} (hcrash : MayCrash q c)
    (hend : c.frameReader = .readingFrameHeader → amount = 0 → Ends p q (call .connectionShutdown c))
    (hshort : c.frameReader = .readingFrameHeader → amount ≠ 0 → amount ≠ amqpFrameHeaderSizeInBytes →
      Ends p q (call .connectionFail c))
    (hsize : c.frameReader = .readingFrameHeader → amount = amqpFrameHeaderSizeInBytes → RefusesSize c →
      Ends p q (call .connectionFail { c with frameSize := announcedSize c }))
    (hempty : c.frameReader = .readingFrameHeader → amount = amqpFrameHeaderSizeInBytes → ¬ RefusesSize c →
      announcedSize c = amqpFrameHeaderSizeInBytes →
      Ends p q (call .frameAvailable { c with frameSize := announcedSize c, frameReader := .enabled }))
    (hbody : c.frameReader = .readingFrameHeader → amount = amqpFrameHeaderSizeInBytes → ¬ RefusesSize c →
      announcedSize c ≠ amqpFrameHeaderSizeInBytes →
      Ends p q (call (.readerCommence (announcedSize c - amqpFrameHeaderSizeInBytes) .frameReader)
        { c with frameSize := announcedSize c, frameReader := .readingFrameBody }))
    (hcut : c.frameReader = .readingFrameBody → amount ≠ c.frameSize - amqpFrameHeaderSizeInBytes →
      Ends p q (call .connectionFail c))
    (hframe : c.frameReader = .readingFrameBody → amount = c.frameSize - amqpFrameHeaderSizeInBytes →
      Ends p q (call .frameAvailable { c with frameReader := .enabled })) :
    Ends p q (readDone call amount c) := by
  unfold readDone
  cases hs : c.frameReader with
  | readingFrameHeader =>
    dsimp only [readDoneWhileReadingFrameHeader, amqpConnectionFailed]
    split
    · next h0 => exact hend hs h0
    next h0 =>
    split
    · next h8 => exact hshort hs h0 h8
    next h8 =>
    split
    · next hr => exact hsize hs (not_not.mp h8) hr
    next hr =>
    split
    · next he => exact hempty hs (not_not.mp h8) hr he
    · next he => exact hbody hs (not_not.mp h8) hr he
  | readingFrameBody =>
    dsimp only [readDoneWhileReadingFrameBody, amqpConnectionFailed]
    split
    · next hc => exact hcut hs hc
    · next hc => exact hframe hs (not_not.mp hc)
  | _ => exact hcrash _ (by decide)

end FrameReader

/-! ## SASL -/

namespace Sasl

theorem connect_rule (hcrash : MayCrash q c)
    (hreset : c.sasl = .initialized → Ends r q (call .negotiatorReset c))
    (hstart : ∀ c1, r c1 →
      Ends p q (call (.negotiatorStart c1.requiredSasl .saslVersionAccepted .saslVersionRejected) c1)) :
    Ends p q (connect call c) := by
  unfold connect
  cases hs : c.sasl with
  | initialized => exact (hreset hs).bind hstart
  | _ => exact hcrash _ (by decide)

theorem accept_rule {version : Nat}
    (hcrash : c.sasl ≠ .initialized ∨ amqpVersionProtocolId version ≠ amqpSaslProtocolId → MayCrash q c)
    (hreject : c.sasl = .initialized → version ≠ c.requiredSasl →
      Ends p q (call (.connectionReject c.requiredSasl) { c with sasl := .failed }))
    (hsend : c.sasl = .initialized → version = c.requiredSasl →
      Ends p q (call (.negotiatorSend c.requiredSasl .saslBrokerVersionSent)
        { c with sasl := .sendingHeaderResponse })) :
    Ends p q (accept call version c) := by
  unfold accept
  cases hs : c.sasl with
  | initialized =>
    dsimp only [acceptWhileInitialized]
    split
    · next hid => exact hcrash (.inr hid) _ (by decide)
    split
    · next hv => exact hreject hs hv
    · next hv => exact hsend hs (not_not.mp hv)
  | _ => exact hcrash (.inl (by simp [hs])) _ (by decide)

theorem done_rule (hcrash : MayCrash q c)
    (hnone : c.sasl = .sendingHeaderResponse → c.plugins = [] → Ends p q (call .connectionFail c))
    (hwrite : c.sasl = .sendingHeaderResponse → Ends r q (call (.writerWrite .saslMechanisms) c))
    (henable : ∀ c1, r c1 →
      Ends s q (call .frameEnable { c1 with sasl := .waitingOnSaslInitialResponseFrame }))
    (hread : ∀ c2, s c2 → Ends p q (call (.frameRead .sasl) c2)) : Ends p q (done call c) := by
  unfold done
  cases hs : c.sasl with
  | sendingHeaderResponse =>
    dsimp only [doneWhileSendingHeaderResponse, amqpConnectionFailed]
    split
    · next hempty => exact hnone hs (List.isEmpty_iff.1 hempty)
    · exact (hwrite hs).bind fun c1 h1 => (henable c1 h1).bind hread
  | _ => exact hcrash _ (by decide)

theorem mechanismsFrame_rule {names : List (List UInt8)} (hcrash : MayCrash q c)
    (hother : c.sasl ≠ .waitingOnSaslMechanisms → Ends p q (call .connectionFail c.frameCleanup))
    (hfail : c.sasl = .waitingOnSaslMechanisms → ∀ plugin,
      Ends (fun c1 => p c1.frameCleanup) q (call .connectionFail { c with plugin := plugin }))
    (hwrite : c.sasl = .waitingOnSaslMechanisms → ∀ plugin, selectMechanism c names = some plugin →
      Ends r q (call (.writerWrite .saslInit) { c with plugin := some plugin }))
    (hread : ∀ c1, r c1 →
      Ends p q (call (.frameRead .sasl) { c1.frameCleanup with sasl := .waitingOnSaslChallengeOrOutcome })) :
    Ends p q (mechanismsFrame call names c) := by
  unfold mechanismsFrame
  cases hs : c.sasl with
  | waitingOnSaslMechanisms =>
    dsimp only [receivedSaslMechanismsFrame]
    refine Ends.bind (p := fun x => if x.1 then r x.2 else p x.2.frameCleanup) ?_ fun x hx => ?_
    · unfold processMechanismsFrame
      split
      · next plugin hplugin =>
        dsimp only
        split
        · exact (hfail hs (some plugin)).bind fun _ h1 => h1
        split
        · exact hcrash _ (by decide)
        · exact (hwrite hs plugin hplugin).bind fun _ h1 => h1
      · exact (hfail hs c.plugin).bind fun _ h1 => h1
    · obtain ⟨rc, c1⟩ := x
      cases rc with
      | true => exact hread c1 hx
      | false => exact hx
  | _ => exact hother (by simp [hs])

theorem initFrame_rule {mechanism : List UInt8} (hcrash : MayCrash q c)
    (hother : c.sasl ≠ .waitingOnSaslInitialResponseFrame → Ends p q (call .connectionFail c.frameCleanup))
    (hfail : c.sasl = .waitingOnSaslInitialResponseFrame →
      Ends (fun c1 => MayCrash q c1.frameCleanup) q (call .connectionFail c))
    (hwrite : c.sasl = .waitingOnSaslInitialResponseFrame → ∀ plugin,
      lookupSaslPlugin c mechanism = some plugin → plugin.handles = some .outcomeAccepted →
      Ends r q (call (.writerWrite .saslOutcome) { c with plugin := some plugin }))
    (hdone : ∀ c1, r c1 → Ends p q (call .connectionDone { c1.frameCleanup with sasl := .negotiated })) :
    Ends p q (initFrame call mechanism c) := by
  unfold initFrame
  cases hs : c.sasl with
  | waitingOnSaslInitialResponseFrame =>
    dsimp only [receivedSaslInitialResponseFrame]
    refine Ends.bind (p := fun x => x.1 = .failed ∧ MayCrash q x.2.frameCleanup ∨
      x.1 = .outcomeAccepted ∧ r x.2) ?_ fun x hx => ?_
    · unfold processInitFrame
      split
      · exact (hfail hs).bind fun _ h1 => .inl ⟨rfl, h1⟩
      · next plugin hplugin =>
        split
        · next hhandles => exact (hwrite hs plugin hplugin hhandles).bind fun _ h1 => .inr ⟨rfl, h1⟩
        · exact hcrash _ (by decide)
        · exact hcrash _ (by decide)
    · obtain ⟨rc, c1⟩ := x
      rcases hx with ⟨rfl, hx⟩ | ⟨rfl, hx⟩
      · exact hx _ (by decide)
      · exact hdone c1 hx
  | waitingOnSaslChallengeResponseFrame => exact hcrash _ (by decide)
  | _ => exact hother (by simp [hs])

theorem challengeFrame_rule (hcrash : MayCrash q c)
    (hother : c.sasl ≠ .waitingOnSaslChallengeOrOutcome → Ends p q (call .connectionFail c.frameCleanup)) :
    Ends p q (challengeFrame call c) := by
  unfold challengeFrame
  cases hs : c.sasl with
  | waitingOnSaslChallengeOrOutcome => exact hcrash _ (by decide)
  | _ => exact hother (by simp [hs])

theorem outcomeFrame_rule {code : Nat} {additionalData : Bool} (hcrash : MayCrash q c)
    (hother : c.sasl ≠ .waitingOnSaslChallengeOrOutcome → Ends p q (call .connectionFail c.frameCleanup))
    (hdone : c.sasl = .waitingOnSaslChallengeOrOutcome → additionalData = false → code = amqpSaslCodeOk →
      Ends p q (call .connectionDone { c.frameCleanup with sasl := .negotiated }))
    (hrejected : c.sasl = .waitingOnSaslChallengeOrOutcome → ¬ (additionalData = false ∧ code = amqpSaslCodeOk) →
      p c.frameCleanup) :
    Ends p q (outcomeFrame call code additionalData c) := by
  unfold outcomeFrame
  cases hs : c.sasl with
  | waitingOnSaslChallengeOrOutcome =>
    dsimp only [receivedSaslOutcomeFrame]
    split
    · exact hcrash _ (by decide)
    split
    · next hok =>
      simp only [Bool.and_eq_true, Bool.not_eq_true', beq_iff_eq] at hok
      exact hdone hs hok.1 hok.2
    · next hno =>
      simp only [Bool.and_eq_true, Bool.not_eq_true', beq_iff_eq] at hno
      exact hrejected hs hno
  | _ => exact hother (by simp [hs])

end Sasl

/-! ## AMQP tunnel -/

namespace AmqpTunnel

theorem connect_rule (hcrash : MayCrash q c)
    (hreset : c.amqpTunnel = .initialized → Ends r q (call .negotiatorReset c))
    (hstart : ∀ c1, r c1 →
      Ends p q (call (.negotiatorStart c1.requiredAmqp .amqpVersionAccepted .amqpVersionRejected) c1)) :
    Ends p q (connect call c) := by
  unfold connect
  cases hs : c.amqpTunnel with
  | initialized => exact (hreset hs).bind hstart
  | _ => exact hcrash _ (by decide)

theorem accept_rule {version : Nat}
    (hcrash : c.amqpTunnel ≠ .initialized ∨ amqpVersionProtocolId version ≠ amqpProtocolId → MayCrash q c)
    (hreject : c.amqpTunnel = .initialized → version ≠ c.requiredAmqp →
      Ends p q (call (.connectionReject c.requiredAmqp) { c with amqpTunnel := .failed }))
    (hsend : c.amqpTunnel = .initialized → version = c.requiredAmqp →
      Ends p q (call (.negotiatorSend c.requiredAmqp .amqpDone)
        { c with amqpTunnel := .sendingHeaderResponse })) :
    Ends p q (accept call version c) := by
  unfold accept
  cases hs : c.amqpTunnel with
  | initialized =>
    dsimp only [acceptWhileInitialized]
    split
    · next hid => exact hcrash (.inr hid) _ (by decide)
    split
    · next hv => exact hreject hs hv
    · next hv => exact hsend hs (not_not.mp hv)
  | _ => exact hcrash (.inl (by simp [hs])) _ (by decide)

theorem done_rule (hcrash : MayCrash q c)
    (h : c.amqpTunnel = .sendingHeaderResponse →
      Ends p q (call .connectionDone { c with amqpTunnel := .negotiated })) : Ends p q (done call c) := by
  unfold done
  cases hs : c.amqpTunnel with
  | sendingHeaderResponse => exact h hs
  | _ => exact hcrash _ (by decide)

end AmqpTunnel

/-! ## AMQP -/

namespace AmqpConnection

theorem sendOpen_rule (hcrash : MayCrash q c)
    (hwrite : c.amqp = .initialized → Ends r q (call (.writerWrite .amqpOpen) c))
    (henable : ∀ c1, r c1 → Ends s q (call .frameEnable { c1 with amqp := .openSent }))
    (hread : ∀ c2, s c2 → Ends p q (call (.frameRead .amqp) c2)) : Ends p q (sendOpen call c) := by
  unfold sendOpen
  cases hs : c.amqp with
  | initialized => exact (hwrite hs).bind fun c1 h1 => (henable c1 h1).bind hread
  | _ => exact hcrash _ (by decide)

theorem waitOnOpen_rule (hcrash : MayCrash q c)
    (henable : c.amqp = .initialized → Ends r q (call .frameEnable { c with amqp := .waitingForOpenFrame }))
    (hread : ∀ c1, r c1 → Ends p q (call (.frameRead .amqp) c1)) : Ends p q (waitOnOpen call c) := by
  unfold waitOnOpen
  cases hs : c.amqp with
  | initialized => exact (henable hs).bind hread
  | _ => exact hcrash _ (by decide)

theorem openFrame_rule {hostname : Bool} {idleTimeOut : Nat} (hcrash : MayCrash q c)
    (hother : c.amqp ≠ .openSent → c.amqp ≠ .waitingForOpenFrame →
      Ends p q (call .connectionShutdown c.frameCleanup))
    (hsent : c.amqp = .openSent → c.isClient = true → Ends p q (connectionOpened call idleTimeOut c.frameCleanup))
    (hwrite : c.amqp = .waitingForOpenFrame → c.isClient = false →
      Ends r q (call (.writerWrite .amqpOpen) c.frameCleanup))
    (hopened : ∀ c1, r c1 → Ends p q (connectionOpened call idleTimeOut c1)) :
    Ends p q (openFrame call hostname idleTimeOut c) := by
  unfold openFrame
  cases hs : c.amqp with
  | openSent =>
    dsimp only [openReceivedAfterOpenSent]
    split
    · exact hcrash _ (by decide)
    · next hc => exact hsent hs (by simpa using hc)
  | waitingForOpenFrame =>
    dsimp only [openReceivedWhileWaitingForOpenFrame]
    split
    · exact hcrash _ (by decide)
    split
    · exact hcrash _ (by decide)
    · next hc _ => exact (hwrite hs (Bool.eq_false_iff.2 hc)).bind hopened
  | _ => exact hother (by simp [hs]) (by simp [hs])

theorem beginConnectionClose_rule (hwrite : Ends r q (call (.writerWrite .amqpClose) c))
    (hread : ∀ c1, r c1 →
      Ends p q (call (.frameRead .amqp) (transitionToCloseSent { c1 with timer := true }))) :
    Ends p q (beginConnectionClose call c) := hwrite.bind hread

theorem closeFrame_rule {error : Bool} (hcrash : MayCrash q c)
    (hother : c.amqp ≠ .opened → c.amqp ≠ .closeSent → Ends p q (call .connectionShutdown c.frameCleanup))
    (hread : c.amqp = .opened →
      Ends r q (call (.frameRead .discard) (transitionToClosed { c with timer := true }).frameCleanup))
    (hwrite : ∀ c1, r c1 → Ends s q (call (.writerWrite .amqpClose) c1))
    (hdrain : ∀ c2, s c2 → Ends p q (call .shutdownDrain c2))
    (hclosed : c.amqp = .closeSent → Ends p q (call .shutdownDrain (transitionToClosed c.frameCleanup))) :
    Ends p q (closeFrame call error c) := by
  unfold closeFrame
  cases hs : c.amqp with
  | opened =>
    cases error with
    | true => exact hcrash _ (by decide)
    | false => exact (hread hs).bind fun c1 h1 => (hwrite c1 h1).bind hdrain
  | closeSent =>
    cases error with
    | true => exact hcrash _ (by decide)
    | false => exact hclosed hs
  | _ => exact hother (by simp [hs]) (by simp [hs])

theorem emptyFrame_rule (hread : c.amqp = .openSent ∨ c.amqp = .opened → Ends p q (call (.frameRead .amqp) c))
    (hother : c.amqp ≠ .openSent → c.amqp ≠ .opened → Ends p q (call .connectionShutdown c.frameCleanup)) :
    Ends p q (emptyFrame call c) := by
  unfold emptyFrame
  cases hs : c.amqp with
  | openSent => exact hread (.inl hs)
  | opened => exact hread (.inr hs)
  | _ => exact hother (by simp [hs]) (by simp [hs])

end AmqpConnection

end Amqp
