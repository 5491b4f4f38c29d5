import LibAmqp.Stream.Reader

/-!
# The terminal states of the reader

A reader that is stopped or has failed does nothing more, unless the loop of
`delayed_read_while_reading` is still to go on: it sets the next state whatever the callback did.
`Settled` is kept by every step that does not enter a terminal state from within that loop.
-/

namespace Amqp.Stream.Reader

open Lib

variable {κ : Type}

/-- In a terminal state nothing is left to do but to return. -/
def Settled (s : Reader κ) : Prop := s.Terminal → s.needed = none ∧ .looping ∉ s.returns

/-- The reader is in another state, or has settled. -/
def Settles (r : Except (ReaderCrash κ) (Reader κ)) : Prop := Ends Settled (fun _ => True) r

/-- The name of the state is `n`. -/
def Named (n : ReaderState) (r : Except (ReaderCrash κ) (Reader κ)) : Prop :=
  Ends (fun s => s.name = n) (fun _ => True) r

theorem Named.settles {n : ReaderState} {r : Except (ReaderCrash κ) (Reader κ)} (h : Named n r)
    (h1 : n ≠ .stopped) (h2 : n ≠ .failed) : Settles r := by
  refine h.mono ?_ fun _ he => he
  rintro s rfl ht
  exact ht.elim (fun h => absurd h h1) fun h => absurd h h2

/-! ## What each function does to the state -/

section
variable (s : Reader κ)

theorem callReadCallback_named (after : Return) : Named s.name (s.callReadCallback after) := by
  unfold callReadCallback
  split
  · rfl
  · trivial

theorem setWatcher_named (started : Bool) : Named s.name (s.setWatcher started) := by
  unfold setWatcher
  split
  · rfl
  · trivial

theorem readLoop_named (needed : Nat) (after : Return) : Named s.name (s.readLoop needed after) := by
  unfold readLoop
  split
  · rfl
  · exact callReadCallback_named { s with needed := none } after

theorem readWhatIsBuffered_named (after : Return) : Named s.name (s.readWhatIsBuffered after) := by
  unfold readWhatIsBuffered
  split
  · exact readLoop_named s _ after
  · trivial

theorem delayedReadWhileReading_settles : Settles s.delayedReadWhileReading := by
  unfold delayedReadWhileReading
  split
  · exact (readWhatIsBuffered_named { s with name := .reading } .looping).settles (by simp) (by simp)
  · exact Named.settles (n := .enabled) rfl (by simp) (by simp)

theorem enable_settles : Settles s.enable := by
  unfold enable
  split
  · split
    · exact Named.settles (n := .enabled) rfl (by simp) (by simp)
    · trivial
  · trivial

theorem commenceRead_settles (r : Request κ) : Settles (s.commenceRead r) := by
  unfold commenceRead
  split
  · exact (readWhatIsBuffered_named (queueReadOperation r { s with name := .reading }) _).settles
      (by simp [queueReadOperation]) (by simp [queueReadOperation])
  · next hname =>
    split
    · exact Named.settles (n := .reading) hname (by simp) (by simp)
    · trivial
  · exact (callReadCallback_named
      { s with name := .eofAlerted, satisfied := 0, callback := some r.callback } _).settles
      (by simp) (by simp)
  · trivial

theorem continueRead_settles : Settles s.continueRead := by
  unfold continueRead
  split
  · next hname =>
    have h := setWatcher_named s false
    rw [hname] at h
    exact h.settles (by simp) (by simp)
  · next hname =>
    refine Ends.bind (setWatcher_named s false) ?_
    intro s1 hs1
    have h := readWhatIsBuffered_named s1 .completing
    rw [hs1, hname] at h
    exact h.settles (by simp) (by simp)
  · trivial

variable {s}

theorem readerStop_settles (hneeded : s.needed = none) (hloop : .looping ∉ s.returns) :
    Settles s.readerStop := by
  unfold readerStop setWatcher
  split
  · exact fun _ => ⟨hneeded, hloop⟩
  · trivial

theorem readerFail_settles (hneeded : s.needed = none) (hloop : .looping ∉ s.returns) :
    Settles s.readerFail := by
  unfold readerFail setWatcher
  split
  · exact fun _ => ⟨hneeded, by simpa [enter, cleanupReader] using hloop⟩
  · trivial

theorem readEof_settles (hneeded : s.needed = none)
    (hloop : s.isPartialRead → .looping ∉ s.returns) : Settles s.readEof := by
  unfold readEof
  split
  · next hpartial =>
    unfold setWatcher
    split
    · exact fun _ => ⟨hneeded, by simpa [enter, cleanupReader] using hloop hpartial⟩
    · trivial
  · exact (callReadCallback_named { s with name := .eof } _).settles (by simp) (by simp)

theorem readvDone_settles {needed : Nat} {after : Return} {r : ReadvResult}
    (hname : ¬ s.Terminal) (hneeded : s.needed = some (needed, after))
    (hcond : ¬ s.EntersInLoop (.readv r)) : Settles (s.readvDone needed after r) := by
  have hkeep : ∀ {x : Except (ReaderCrash κ) (Reader κ)}, Named s.name x → Settles x :=
    fun h => h.settles (fun h => hname (.inl h)) fun h => hname (.inr h)
  have hne : s.needed ≠ none := by simp [hneeded]
  unfold readvDone
  split
  · trivial
  · next b _ =>
    refine Ends.bind (p := fun _ => True) (by unfold Ends; split <;> trivial) ?_
    intro _ _
    dsimp only
    split
    · refine Ends.bind (p := fun _ => True) (by unfold Ends; split <;> trivial) ?_
      intro b' _
      exact hkeep (readLoop_named _ _ _)
    · exact hkeep (setWatcher_named _ _)
    · exact readEof_settles rfl fun hp hl => hcond ⟨hl, hne, hp⟩
    · exact readEof_settles rfl fun hp hl => hcond ⟨hl, hne, hp⟩
    · unfold fail
      split
      · exact readerFail_settles rfl fun hl => hcond ⟨hl, hne⟩
      · exact readerFail_settles rfl fun hl => hcond ⟨hl, hne⟩
      · trivial

end

/-! ## Every step, every run -/

theorem reset_settles {s : Reader κ} (h : s.Settled) : Settles s.reset := by
  unfold reset
  split
  · exact enable_settles s
  · refine Ends.bind (p := fun _ => True) (by unfold Ends; split <;> trivial) ?_
    intro s1 _
    exact Named.settles (n := .enabled) rfl (by simp) (by simp)
  · exact Named.settles (n := .eof) rfl (by simp) (by simp)
  · exact h

theorem stop_settles {s : Reader κ} (h : s.Settled) (hneeded : s.needed = none)
    (hcond : ¬ s.EntersInLoop .stop) : Settles s.stop := by
  unfold stop
  split
  · next hname => exact fun _ => ⟨hneeded, fun hl => hcond ⟨hl, hneeded, .inl hname⟩⟩
  · next hname => exact readerStop_settles hneeded fun hl => hcond ⟨hl, hneeded, .inr (.inl hname)⟩
  · next hname => exact readerStop_settles hneeded fun hl => hcond ⟨hl, hneeded, .inr (.inr hname)⟩
  · exact h

theorem resume_settles {s : Reader κ} (h : s.Settled) (after : Return) : Settles (s.resume after) := by
  cases after with
  | completing =>
    change Settles s.delayedRead
    unfold delayedRead
    split
    · exact delayedReadWhileReading_settles s
    · exact h
  | looping => exact delayedReadWhileReading_settles s
  | leaving => exact h

theorem step_settles {s : Reader κ} (h : s.Settled) {i : ReaderInput κ} (hcond : ¬ s.EntersInLoop i) :
    Settles (s.step i) := by
  unfold step
  split
  · next needed after hneeded =>
    have hname : ¬ s.Terminal := fun ht => by simp [(h ht).1] at hneeded
    split
    · exact readvDone_settles hname hneeded hcond
    · exact h
  · next hneeded =>
    cases i with
    | enable => exact enable_settles s
    | commenceRead r => exact commenceRead_settles s r
    | reset => exact reset_settles h
    | stop => exact stop_settles h hneeded hcond
    | fail =>
      dsimp only [fail]
      split
      · next hname => exact readerFail_settles hneeded fun hl => hcond ⟨hl, hneeded, .inl hname⟩
      · next hname => exact readerFail_settles hneeded fun hl => hcond ⟨hl, hneeded, .inr hname⟩
      · trivial
    | event =>
      dsimp only
      split
      · exact continueRead_settles s
      · exact h
    | readv r => exact h
    | callbackReturns =>
      dsimp only
      split
      · next after returns hreturns =>
        have hrest : ({ s with returns := returns } : Reader κ).Settled := by
          intro ht
          refine ⟨(h ht).1, fun hl => (h ht).2 ?_⟩
          rw [hreturns]
          exact List.mem_cons_of_mem _ hl
        exact resume_settles hrest after
      · exact h

/-- In a terminal state nothing happens. -/
theorem step_terminal {s : Reader κ} (h : s.Settled) (ht : s.Terminal) (i : ReaderInput κ) :
    Ends (fun s' => s'.name = s.name ∧ s'.readvs = s.readvs) (fun _ => True) (s.step i) := by
  obtain ⟨hneeded, hloop⟩ := h ht
  unfold step
  rw [hneeded]
  cases i with
  | callbackReturns =>
    dsimp only
    split
    · next after returns hreturns =>
      cases after with
      | completing =>
        unfold resume delayedRead
        rcases ht with hn | hn
        all_goals
          dsimp only
          rw [hn]
          exact ⟨rfl, rfl⟩
      | looping => simp [hreturns] at hloop
      | leaving => exact ⟨rfl, rfl⟩
    · exact ⟨rfl, rfl⟩
  | event =>
    dsimp only [continueRead]
    split
    · rcases ht with hn | hn
      all_goals
        rw [hn]
        trivial
    · exact ⟨rfl, rfl⟩
  | readv r => exact ⟨rfl, rfl⟩
  | _ =>
    dsimp only [enable, commenceRead, reset, stop, fail]
    rcases ht with hn | hn
    all_goals
      rw [hn]
      trivial

theorem run_terminal {js : List (ReaderInput κ)} :
    ∀ {s : Reader κ}, s.Settled → s.Terminal →
      RunMeets step (fun s i => ¬ s.EntersInLoop i) s js →
      Ends (fun s' => s'.name = s.name ∧ s'.readvs = s.readvs) (fun _ => True) (run step s js) := by
  induction js with
  | nil => exact fun _ _ _ => ⟨rfl, rfl⟩
  | cons i js ih =>
    intro s h ht hmeets
    have hsettles := step_settles h hmeets.1
    have hsame := step_terminal h ht i
    rw [run]
    cases h1 : s.step i with
    | error e => trivial
    | ok s1 =>
      rw [h1] at hsettles hsame
      obtain ⟨hname, hreadvs⟩ := hsame
      have ht1 : s1.Terminal := by
        unfold Terminal
        rwa [hname]
      have hrest := ih hsettles ht1 (hmeets.2 s1 h1)
      rw [hname, hreadvs] at hrest
      exact hrest

end Amqp.Stream.Reader

namespace Amqp.Stream

open Lib

/-- **Terminal states of the reader are final**, in every run in which the reader is not stopped and
does not fail while a callback runs that was called from the loop of `delayed_read_while_reading`:
once it is stopped or has failed it stays so, and `readv` is not called again. -/
theorem reader_terminal_states_final {κ : Type} (is js : List (ReaderInput κ))
    (h : RunMeets Reader.step (fun s i => ¬ s.EntersInLoop i) Reader.create (is ++ js)) :
    Ends
      (fun s => s.Terminal → Ends (fun s' => s'.name = s.name ∧ s'.readvs = s.readvs) (fun _ => True)
        (run Reader.step s js))
      (fun _ => True) (run Reader.step Reader.create is) := by
  have hcreate : (Reader.create : Reader κ).Settled := fun _ => ⟨rfl, by simp [Reader.create]⟩
  have hsettled := run_ends (q := fun _ => True)
    (fun s i (hs : Reader.Settled s) hi => Reader.step_settles hs hi) is _ hcreate h.left
  have hrest := h.append
  cases hrun : run Reader.step (Reader.create : Reader κ) is with
  | error e => trivial
  | ok s =>
    rw [hrun] at hsettled hrest
    exact fun ht => Reader.run_terminal hsettled ht hrest

/-- A read of one byte. -/
def oneByte : Request Unit := ⟨Buffer.received [], 1, ()⟩

/-- The callback of the first read stops the reader. -/
theorem reader_terminal_states_final_first :
    (run Reader.step Reader.create
      [.enable, .commenceRead oneByte, .readv (.bytes 7 []), .stop]).toOption.map Reader.name =
        some .stopped ∧
    Ends
      (fun s => s.Terminal → Ends (fun s' => s'.name = s.name ∧ s'.readvs = s.readvs) (fun _ => True)
        (run Reader.step s [.callbackReturns, .event, .reset]))
      (fun _ => True)
      (run Reader.step Reader.create [.enable, .commenceRead oneByte, .readv (.bytes 7 []), .stop]) :=
  ⟨by decide +kernel, reader_terminal_states_final _ _ (by decide +kernel)⟩

/-- The callback of the second read, which was queued by that of the first, queues a third one and
stops the reader; the loop goes on with the third. -/
theorem stopped_reader_reads_again :
    let is : List (ReaderInput Unit) := [.enable, .commenceRead oneByte, .readv (.bytes 7 []),
      .commenceRead oneByte, .callbackReturns, .readv (.bytes 8 []), .commenceRead oneByte, .stop]
    (run Reader.step Reader.create is).toOption.map (fun s => (s.name, s.readvs)) =
      some (.stopped, 2) ∧
    (run Reader.step Reader.create (is ++ [.callbackReturns, .readv (.bytes 9 [])])).toOption.map
      (fun s => (s.name, s.readvs)) = some (.reading, 3) := by
  decide +kernel

end Amqp.Stream
