import LibAmqp.Connection.Run

/-!
# What each function does

One rule for each function of a connection: what has to be true of the calls that it makes, one after
the other, and of the states that it leaves, for `p` to hold of the result and `q` of the end of the
process. What is kept by all of them is proved from these rules; no other proof about a whole
connection unfolds a function.
-/

namespace Amqp

open Lib

/-- The process may end here, for any reason but the bound on the depth of calls. -/
def MayCrash (q : Crash → Prop) (c : Connection) : Prop :=
  ∀ fault, fault ≠ .outOfFuel → q ⟨fault, c.trace⟩

/-- Nothing is asked of the end of the process. -/
theorem mayCrash_true (c : Connection) : MayCrash (fun _ => True) c := fun _ _ => trivial

variable {call : Calls} {c : Connection} {p r s : Connection → Prop} {q : Crash → Prop}

/-! ## Writer -/

namespace Writer

theorem enable_rule (hcrash : MayCrash q c) (h : c.writer = .initialized → p { c with writer := .enabled }) :
    Ends p q (enable c) := by
  unfold enable
  cases hs : c.writer with
  | initialized => exact h hs
  | _ => exact hcrash _ (by decide)

theorem continueWriteOperation_rule
    (hcomplete : Ends p q (call .writerComplete { c with writes := c.writes.tail }))
    (hagain : p { c with writes := c.writes.tail })
    (herror : c.writes.headD .complete = .error → Ends p q (call .writerFail { c with writes := c.writes.tail })) :
    Ends p q (continueWriteOperation call c) := by
  unfold continueWriteOperation
  cases hw : c.writes.headD .complete with
  | complete => exact hcomplete
  | again => exact hagain
  | error => exact herror hw

theorem write_rule {m : Message} (hcrash : c.writer ≠ .enabled → MayCrash q c)
    (h : c.writer = .enabled →
      Ends p q (continueWriteOperation call { c with writer := .writing, trace := c.trace ++ [.sent m] })) :
    Ends p q (write call m c) := by
  unfold write
  cases hs : c.writer with
  | enabled => exact h hs
  | _ => exact hcrash (by simp [hs]) _ (by decide)

theorem continueWrite_rule (hcrash : MayCrash q c) (henabled : c.writer = .enabled → p c)
    (hbusy : c.writer = .writing ∨ c.writer = .stopping → Ends p q (continueWriteOperation call c)) :
    Ends p q (continueWrite call c) := by
  unfold continueWrite
  cases hs : c.writer with
  | enabled => exact henabled hs
  | writing => exact hbusy (.inl hs)
  | stopping => exact hbusy (.inr hs)
  | _ => exact hcrash _ (by decide)

theorem writeComplete_rule (hcrash : MayCrash q c)
    (hwriting : c.writer = .writing → p { c with writer := .enabled })
    (hstopping : c.writer = .stopping → Ends p q (writerStop call c)) :
    Ends p q (writeComplete call c) := by
  unfold writeComplete
  cases hs : c.writer with
  | writing => exact hwriting hs
  | stopping =>
    dsimp only
    split
    · exact hstopping hs
    · exact hcrash _ (by decide)
  | _ => exact hcrash _ (by decide)

theorem stop_rule (hfree : c.writer = .initialized ∨ c.writer = .enabled → Ends p q (writerStop call c))
    (hwriting : c.writer = .writing → p { c with writer := .stopping, stoppedCallback := true })
    (hstopped : c.writer = .stopping ∨ c.writer = .stopped ∨ c.writer = .failed →
      Ends p q (call .connectionDone c)) :
    Ends p q (stop call c) := by
  unfold stop
  cases hs : c.writer with
  | initialized => exact hfree (.inl hs)
  | enabled => exact hfree (.inr hs)
  | writing => exact hwriting hs
  | stopping => exact hstopped (.inl hs)
  | stopped => exact hstopped (.inr (.inl hs))
  | failed => exact hstopped (.inr (.inr hs))

theorem abort_rule (hdone : c.writer = .stopped ∨ c.writer = .failed → p c) (h : p (writerCleanup c)) :
    Ends p q (abort c) := by
  unfold abort
  cases hs : c.writer with
  | stopped => exact hdone (.inl hs)
  | failed => exact hdone (.inr hs)
  | _ => exact h

theorem fail_rule (hcrash : MayCrash q c)
    (h : c.writer = .enabled ∨ c.writer = .writing ∨ c.writer = .stopping →
      Ends p q (call .connectionFail { c with writer := .failed })) :
    Ends p q (fail call c) := by
  unfold fail
  cases hs : c.writer with
  | enabled => exact h (.inl hs)
  | writing => exact h (.inr (.inl hs))
  | stopping => exact h (.inr (.inr hs))
  | _ => exact hcrash _ (by decide)

end Writer

/-! ## Reader -/

namespace Reader

theorem enable_rule (hcrash : MayCrash q c) (h : c.reader = .initialized → p { c with reader := .enabled }) :
    Ends p q (enable c) := by
  unfold enable
  cases hs : c.reader with
  | initialized => exact h hs
  | _ => exact hcrash _ (by decide)

theorem callReadCallback_rule {amount : Nat} (hcrash : MayCrash q c)
    (h : ∀ callback, c.readCallback = some callback →
      Ends p q (call (.readDone callback c.readQueued amount) { c with readCallback := none, readQueued := false })) :
    Ends p q (callReadCallback call amount c) := by
  unfold callReadCallback
  cases hs : c.readCallback with
  | none => exact hcrash _ (by decide)
  | some callback => exact h callback hs

theorem readEof_rule {isPartial : Bool}
    (hsome : isPartial = true → Ends p q (call .connectionFail { c with reader := .failed }))
    (heof : Ends p q (callReadCallback call 0 { c with reader := .eof })) :
    Ends p q (readEof call isPartial c) := by
  cases isPartial with
  | true => exact hsome rfl
  | false => exact heof

theorem readWhatIsBuffered_rule (hcrash : MayCrash q c) (hagain : p { c with reads := c.reads.tail })
    (heof : ∀ isPartial, c.reads.headD .again = .eof isPartial →
      Ends p q (readEof call isPartial { c with reads := c.reads.tail }))
    (herror : c.reads.headD .again = .error → Ends p q (call .readerFail { c with reads := c.reads.tail })) :
    Ends p q (readWhatIsBuffered call c) := by
  unfold readWhatIsBuffered
  split
  · dsimp only
    cases hr : c.reads.headD .again with
    | again => exact hagain
    | eof isPartial => exact heof isPartial hr
    | error => exact herror hr
  · exact hcrash _ (by decide)

theorem commenceRead_rule {required : Nat} {callback : ReadCallback} (hcrash : MayCrash q c)
    (henabled : c.reader = .enabled →
      Ends p q (readWhatIsBuffered call (queueReadOperation required callback { c with reader := .reading })))
    (hreading : c.reader = .reading → c.readCallback = none → c.readQueued = false →
      p (queueReadOperation required callback c))
    (heof : c.reader = .eof →
      Ends p q (callReadCallback call 0 { c with reader := .eofAlerted, readCallback := some callback })) :
    Ends p q (commenceRead call required callback c) := by
  unfold commenceRead
  cases hs : c.reader with
  | enabled => exact henabled hs
  | reading =>
    dsimp only
    split
    · next hfree =>
      simp only [Bool.and_eq_true, Option.isNone_iff_eq_none, Bool.not_eq_true'] at hfree
      exact hreading hs hfree.1 hfree.2
    · exact hcrash _ (by decide)
  | eof => exact heof hs
  | _ => exact hcrash _ (by decide)

theorem delayedReadWhileReading_rule
    (hqueued : c.readQueued = true → Ends p q (readWhatIsBuffered call { c with reader := .reading }))
    (hidle : c.readQueued = false → p { c with reader := .enabled }) :
    Ends p q (delayedReadWhileReading call c) := by
  unfold delayedReadWhileReading
  split
  · next hq => exact hqueued hq
  · next hq => exact hidle (Bool.eq_false_iff.2 hq)

theorem delayedRead_rule (hreading : c.reader = .reading → Ends p q (delayedReadWhileReading call c))
    (helse : c.reader ≠ .reading → p c) : Ends p q (delayedRead call c) := by
  unfold delayedRead
  cases hs : c.reader with
  | reading => exact hreading hs
  | _ => exact helse (by simp [hs])

theorem reset_rule (hfree : c.reader = .initialized ∨ c.reader = .reading → p { c with reader := .enabled })
    (halerted : c.reader = .eofAlerted → p { c with reader := .eof })
    (helse : c.reader ≠ .initialized → c.reader ≠ .reading → c.reader ≠ .eofAlerted → p c) :
    Ends p q (reset c) := by
  unfold reset
  cases hs : c.reader with
  | initialized => exact hfree (.inl hs)
  | reading => exact hfree (.inr hs)
  | eofAlerted => exact halerted hs
  | _ => exact helse (by simp [hs]) (by simp [hs]) (by simp [hs])

theorem stop_rule (hstop : p { c with reader := .stopped })
    (hkeep : c.reader = .eof ∨ c.reader = .eofAlerted ∨ c.reader = .stopped ∨ c.reader = .failed → p c) :
    Ends p q (stop c) := by
  unfold stop
  cases hs : c.reader with
  | eof => exact hkeep (.inl hs)
  | eofAlerted => exact hkeep (.inr (.inl hs))
  | stopped => exact hkeep (.inr (.inr (.inl hs)))
  | failed => exact hkeep (.inr (.inr (.inr hs)))
  | _ => exact hstop

theorem fail_rule (hcrash : MayCrash q c)
    (h : c.reader = .enabled ∨ c.reader = .reading → Ends p q (call .connectionFail { c with reader := .failed })) :
    Ends p q (fail call c) := by
  unfold fail
  cases hs : c.reader with
  | enabled => exact h (.inl hs)
  | reading => exact h (.inr hs)
  | _ => exact hcrash _ (by decide)

theorem readComplete_rule {bytes : List UInt8} {inLoop : Bool}
    (hcallback : Ends r q (callReadCallback call c.required { c with buffer := c.buffer ++ bytes }))
    (hloop : inLoop = true → ∀ c1, r c1 → Ends p q (delayedReadWhileReading call c1))
    (hnext : inLoop = false → ∀ c1, r c1 → Ends p q (call .readerDelayed c1)) :
    Ends p q (readComplete call bytes inLoop c) := by
  refine hcallback.bind fun c1 h1 => ?_
  cases inLoop with
  | true => exact hloop rfl c1 h1
  | false => exact hnext rfl c1 h1

end Reader

/-! ## Socket -/

namespace Socket

theorem connectionAttemptFailed_rule (htry : c.addresses ≠ 0 → Ends p q (call .socketTryConnect c))
    (hfail : Ends p q (call .socketFail c)) : Ends p q (connectionAttemptFailed call c) := by
  unfold connectionAttemptFailed
  split
  · next h => exact htry h
  · exact hfail

theorem connect_rule {lookup : Option Nat} (hcrash : MayCrash q c)
    (hnone : c.socket = .initialized → lookup = none →
      Ends p q (call .socketFail { c with socket := .resolving, hostname := true }))
    (hsome : c.socket = .initialized → ∀ n, lookup = some n →
      Ends p q (call .socketTryConnect { c with socket := .connecting, hostname := true, addresses := n })) :
    Ends p q (connect call lookup c) := by
  unfold connect
  cases hs : c.socket with
  | initialized =>
    cases lookup with
    | none => exact hnone hs rfl
    | some n => exact hsome hs n rfl
  | _ => exact hcrash _ (by decide)

theorem tryConnect_rule (hcrash : MayCrash q c)
    (hrefused : c.socket = .connecting → c.addresses ≠ 0 → Ends p q (connectionAttemptFailed call
      { c with addresses := c.addresses - 1, connects := c.connects.tail }))
    (hconnected : c.socket = .connecting → Ends p q (call .socketDone
      { c with addresses := c.addresses - 1, connects := c.connects.tail }))
    (hprogress : c.socket = .connecting → p { c with
      addresses := c.addresses - 1, connects := c.connects.tail, connectWatcher := true }) :
    Ends p q (tryConnect call c) := by
  unfold tryConnect
  cases hs : c.socket with
  | connecting =>
    dsimp only [attemptConnectionToNextAddress]
    split
    · exact hcrash _ (by decide)
    · next ha =>
      cases c.connects.headD .inProgress with
      | connected => exact hconnected hs
      | inProgress => exact hprogress hs
      | noSocket => exact hrefused hs ha
      | refused => exact hrefused hs ha
  | _ => exact hcrash _ (by decide)

theorem done_rule (hcrash : MayCrash q c)
    (h : c.socket = .connecting →
      Ends p q (call .connectionDone { c with socket := .connected, addresses := 0 })) :
    Ends p q (done call c) := by
  unfold done
  cases hs : c.socket with
  | connecting => exact h hs
  | _ => exact hcrash _ (by decide)

theorem fail_rule (hcrash : MayCrash q c)
    (h : c.socket = .resolving ∨ c.socket = .connecting → Ends p q (call .connectionFail
      { c with socket := .failed, connectWatcher := false, addresses := 0 })) :
    Ends p q (fail call c) := by
  unfold fail
  cases hs : c.socket with
  | resolving => exact h (.inl hs)
  | connecting => exact h (.inr hs)
  | _ => exact hcrash _ (by decide)

theorem shutdown_rule (hresolving : c.socket = .resolving → p { c with socket := .abortingLookup })
    (h : c.socket ≠ .resolving → Ends p q (call .connectionDone
      { c with socket := .stopped, connectWatcher := false, addresses := 0 })) :
    Ends p q (shutdown call c) := by
  unfold shutdown
  cases hs : c.socket with
  | resolving => exact hresolving hs
  | _ => exact h (by simp [hs])

theorem connectEvent_rule {isConnected : Bool}
    (hdone : Ends p q (call .socketDone { c with connectWatcher := false }))
    (hfail : Ends p q (connectionAttemptFailed call { c with connectWatcher := false })) :
    Ends p q (connectEvent call isConnected c) := by
  cases isConnected with
  | true => exact hdone
  | false => exact hfail

end Socket

end Amqp
