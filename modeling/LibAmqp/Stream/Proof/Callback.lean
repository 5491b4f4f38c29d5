import LibAmqp.Connection.Run
import LibAmqp.Stream.Proof.FrameReader
import LibAmqp.Stream.Proof.Terminal

/-!
# Reads and their callbacks

`Waiting`: the reader holds the callback and the buffer of a read, and has called nothing since the read
was asked for. Every step keeps this or calls that callback with that buffer (`step_waiting`). At the
end of the stream no buffer is kept (`Kept`), and a read that is asked for there has none.
-/

namespace Amqp.Stream

open Lib

variable {κ : Type}

theorem firstCall_append (marks news : List (ReadMark κ)) :
    firstCall (marks ++ news) = (firstCall marks).or (firstCall news) := by
  induction marks with
  | nil => rfl
  | cons m marks ih =>
    cases m with
    | called callback buffer amount => rfl
    | connectionFailed => exact ih

namespace Reader

/-! ## A read that waits -/

section
variable (r : Request κ) (m : List (ReadMark κ))

/-- The callback and the buffer of the read are kept. -/
def Holds (s : Reader κ) : Prop :=
  s.callback = some r.callback ∧ s.buffer.map Buffer.address = some r.buffer.address

/-- Nothing was called since the trace was `m`, and the read is still to be answered. -/
def Waiting (s : Reader κ) : Prop :=
  ∃ news, s.marks = m ++ news ∧ firstCall news = none ∧ s.Holds r

/-- The first call since the trace was `m` was the answer to the read. -/
def Answered (s : Reader κ) : Prop :=
  ∃ news call, s.marks = m ++ news ∧ firstCall news = some call ∧ r.IsOwn (some call)

/-- The read waits, or has been answered. -/
def Fair (x : Except (ReaderCrash κ) (Reader κ)) : Prop :=
  Ends (fun s => s.Waiting r m ∨ s.Answered r m) (fun _ => True) x

variable {r m} {s : Reader κ}

theorem Answered.grows {s' : Reader κ} (h : s.Answered r m) (hgrows : s.marks <+: s'.marks) :
    s'.Answered r m := by
  obtain ⟨news, call, hmarks, hcall, hown⟩ := h
  obtain ⟨more, hmore⟩ := hgrows
  refine ⟨news ++ more, call, ?_, ?_, hown⟩
  · rw [← hmore, hmarks, List.append_assoc]
  · rw [firstCall_append, hcall]
    rfl

theorem Waiting.isOwn (h : s.Waiting r m ∨ s.Answered r m) :
    r.IsOwn (firstCall (s.marks.drop m.length)) := by
  rcases h with ⟨news, hmarks, hnone, -⟩ | ⟨news, call, hmarks, hcall, hown⟩
  · rw [hmarks, List.drop_left, hnone]
    trivial
  · rw [hmarks, List.drop_left, hcall]
    exact hown

/-- Nothing of what counts has changed. -/
theorem Waiting.of_eq {s1 : Reader κ} (h : s.Waiting r m) (hmarks : s1.marks = s.marks)
    (hcallback : s1.callback = s.callback) (hbuffer : s1.buffer = s.buffer) : s1.Waiting r m := by
  obtain ⟨news, h1, h2, h3, h4⟩ := h
  exact ⟨news, hmarks.trans h1, h2, hcallback.trans h3, by rw [hbuffer]; exact h4⟩

theorem Waiting.fair (h : s.Waiting r m) : Fair r m (.ok s) := .inl h

/-- The connection is told to fail; that is no answer. -/
theorem Waiting.connectionFailed (h : s.Waiting r m) (after : Return) :
    Fair r m (.ok (s.enter .connectionFailed after)) := by
  obtain ⟨news, hmarks, hnone, hholds⟩ := h
  refine .inl ⟨news ++ [.connectionFailed], ?_, ?_, hholds⟩
  · simp [enter, hmarks]
  · rw [firstCall_append, hnone]
    rfl

/-! ### What each function does for it -/

/-- The bytes that come in go into the same buffer. -/
theorem ofBuffer_receive_address (s : Reader κ) (needed : Nat) (b : Buffer) (bytes : List UInt8) :
    Ends (fun b' => b'.address = b.address) (fun _ => True) (s.ofBuffer (b.receive needed bytes)) := by
  unfold Buffer.receive
  cases b.writeIoVec needed with
  | error e => cases e <;> trivial
  | ok vectors => rfl

theorem callReadCallback_fair (h : s.Waiting r m) (after : Return) :
    Fair r m (s.callReadCallback after) := by
  obtain ⟨news, hmarks, hnone, hcallback, hbuffer⟩ := h
  unfold callReadCallback
  rw [hcallback]
  refine .inr ⟨news ++ [.called r.callback s.buffer s.satisfied], (r.callback, s.buffer), ?_, ?_,
    rfl, hbuffer⟩
  · simp [enter, hmarks]
  · rw [firstCall_append, hnone]
    rfl

theorem setWatcher_waiting (h : s.Waiting r m) (started : Bool) :
    Ends (fun s => s.Waiting r m) (fun _ => True) (s.setWatcher started) := by
  unfold setWatcher
  split
  · exact h.of_eq rfl rfl rfl
  · trivial

theorem readLoop_fair (h : s.Waiting r m) (needed : Nat) (after : Return) :
    Fair r m (s.readLoop needed after) := by
  unfold readLoop
  split
  · exact (h.of_eq rfl rfl rfl).fair
  · exact callReadCallback_fair (s := { s with needed := none }) (h.of_eq rfl rfl rfl) after

theorem readWhatIsBuffered_fair (h : s.Waiting r m) (after : Return) :
    Fair r m (s.readWhatIsBuffered after) := by
  unfold readWhatIsBuffered
  split
  · exact readLoop_fair h _ after
  · trivial

theorem delayedReadWhileReading_fair (h : s.Waiting r m) : Fair r m s.delayedReadWhileReading := by
  unfold delayedReadWhileReading
  split
  · exact readWhatIsBuffered_fair (s := { s with name := .reading }) (h.of_eq rfl rfl rfl) .looping
  · exact (h.of_eq rfl rfl rfl).fair

theorem readerFail_fair (h : s.Waiting r m) : Fair r m s.readerFail := by
  unfold readerFail
  refine Ends.bind (setWatcher_waiting h false) ?_
  intro s1 h1
  exact (h1.of_eq rfl rfl rfl).connectionFailed .leaving

theorem readEof_fair (h : s.Waiting r m) : Fair r m s.readEof := by
  unfold readEof
  split
  · refine Ends.bind (setWatcher_waiting h false) ?_
    intro s1 h1
    exact (h1.of_eq rfl rfl rfl).connectionFailed .leaving
  · exact callReadCallback_fair (s := { s with name := .eof }) (h.of_eq rfl rfl rfl) .leaving

theorem fail_fair (h : s.Waiting r m) : Fair r m s.fail := by
  unfold fail
  split
  · exact readerFail_fair h
  · exact readerFail_fair h
  · trivial

theorem readvDone_fair (h : s.Waiting r m) (needed : Nat) (after : Return) (res : ReadvResult) :
    Fair r m (s.readvDone needed after res) := by
  obtain ⟨news, hmarks, hnone, hcallback, hbuffer⟩ := h
  unfold readvDone
  split
  · trivial
  · next b hb =>
    refine Ends.bind (p := fun _ => True) (by unfold Ends; split <;> trivial) ?_
    intro _ _
    have hwaits : Waiting r m { s with readvs := s.readvs + 1, needed := none } :=
      ⟨news, hmarks, hnone, hcallback, hbuffer⟩
    dsimp only
    split
    · next first more =>
      refine Ends.bind (ofBuffer_receive_address s needed b _) ?_
      intro b' hb'
      refine readLoop_fair (s := { s with readvs := _, buffer := some b', satisfied := _ })
        ⟨news, hmarks, hnone, hcallback, ?_⟩ _ after
      rw [hb] at hbuffer
      rw [← hbuffer]
      exact congrArg some hb'
    · exact (setWatcher_waiting hwaits true).mono (fun _ => Waiting.fair) fun _ _ => trivial
    · exact readEof_fair hwaits
    · exact readEof_fair hwaits
    · exact fail_fair hwaits

theorem enable_fair (h : s.Waiting r m) : Fair r m s.enable := by
  unfold enable
  split
  · split
    · exact (h.of_eq rfl rfl rfl).fair
    · trivial
  · trivial

theorem continueRead_fair (h : s.Waiting r m) : Fair r m s.continueRead := by
  unfold continueRead
  split
  · exact (setWatcher_waiting h false).mono (fun _ => Waiting.fair) fun _ _ => trivial
  · exact (setWatcher_waiting h false).bind fun s1 h1 => readWhatIsBuffered_fair h1 .completing
  · trivial

theorem reset_fair (h : s.Waiting r m) : Fair r m s.reset := by
  unfold reset
  split
  · exact enable_fair h
  · exact (setWatcher_waiting h false).bind fun s1 h1 => (h1.of_eq rfl rfl rfl).fair
  · exact (h.of_eq rfl rfl rfl).fair
  · exact h.fair

theorem stop_fair (h : s.Waiting r m) : Fair r m s.stop := by
  have hstop : Fair r m s.readerStop :=
    (setWatcher_waiting h false).bind fun s1 h1 => (h1.of_eq rfl rfl rfl).fair
  unfold stop
  split
  · exact (h.of_eq rfl rfl rfl).fair
  · exact hstop
  · exact hstop
  · exact h.fair

theorem resume_fair (h : s.Waiting r m) (after : Return) : Fair r m (s.resume after) := by
  cases after with
  | completing =>
    change Fair r m s.delayedRead
    unfold delayedRead
    split
    · exact delayedReadWhileReading_fair h
    · exact h.fair
  | looping => exact delayedReadWhileReading_fair h
  | leaving => exact h.fair

/-- A step while the read waits, other than the next read. -/
theorem step_fair (h : s.Waiting r m) {i : ReaderInput κ} (hi : ∀ r', i ≠ .commenceRead r') :
    Fair r m (s.step i) := by
  unfold step
  split
  · split
    · exact readvDone_fair h _ _ _
    · exact h.fair
  · cases i with
    | enable => exact enable_fair h
    | commenceRead r' => exact absurd rfl (hi r')
    | reset => exact reset_fair h
    | stop => exact stop_fair h
    | fail => exact fail_fair h
    | event =>
      dsimp only
      split
      · exact continueRead_fair h
      · exact h.fair
    | readv _ => exact h.fair
    | callbackReturns =>
      dsimp only
      split
      · next after returns _ =>
        exact resume_fair (s := { s with returns := returns }) (h.of_eq rfl rfl rfl) after
      · exact h.fair

/-- A run while the read waits, up to the next read. -/
theorem run_fair : ∀ (after : List (ReaderInput κ)) {s : Reader κ}, (∀ r', .commenceRead r' ∉ after) →
    s.Waiting r m ∨ s.Answered r m → Fair r m (run step s after) := by
  intro after
  induction after with
  | nil => exact fun _ h => h
  | cons i after ih =>
    intro s hafter h
    have hi : ∀ r', i ≠ .commenceRead r' := fun r' hr => hafter r' (hr ▸ List.mem_cons_self)
    refine Ends.bind (p := fun s => s.Waiting r m ∨ s.Answered r m) ?_ fun s1 h1 =>
      ih (fun r' hr => hafter r' (List.mem_cons_of_mem _ hr)) h1
    rcases h with hwaits | hdone
    · exact step_fair hwaits hi
    · exact (step_grows i).mono (fun s1 hgrows => .inr (hdone.grows hgrows)) fun _ _ => trivial

/-! ### Where a read is asked for -/

/-- A read that is accepted before the end of the stream waits for its answer. -/
theorem commenceRead_waiting (s : Reader κ) (r : Request κ) (hname : s.name ≠ .eof) :
    Ends (fun s1 => s1.Waiting r s.marks) (fun _ => True) (s.commenceRead r) := by
  have hqueued : ∀ s1 : Reader κ, s1.marks = s.marks → (queueReadOperation r s1).Waiting r s.marks :=
    fun s1 hmarks => ⟨[], by simp [queueReadOperation, hmarks], rfl, rfl, rfl⟩
  unfold commenceRead
  split
  · unfold readWhatIsBuffered
    split
    · next hpos =>
      unfold readLoop
      rw [if_pos hpos]
      exact (hqueued { s with name := .reading } rfl).of_eq rfl rfl rfl
    · trivial
  · split
    · exact hqueued s rfl
    · trivial
  · next h => exact absurd h hname
  · trivial

end

/-! ## The end of the stream -/

/-- At the end of the stream no buffer is kept, and `readv` is only called before it. -/
def Kept (s : Reader κ) : Prop :=
  (s.name = .eof ∨ s.name = .eofAlerted → s.buffer = none) ∧ (s.needed ≠ none → s.name = .reading)

def Keeps (x : Except (ReaderCrash κ) (Reader κ)) : Prop := Ends Kept (fun _ => True) x

section
variable {s : Reader κ}

/-- Outside of the end of the stream, with no `readv` to come. -/
theorem kept_of_name (hneeded : s.needed = none) (h1 : s.name ≠ .eof) (h2 : s.name ≠ .eofAlerted) :
    s.Kept :=
  ⟨fun h => h.elim (fun h => absurd h h1) fun h => absurd h h2, fun h => absurd hneeded h⟩

theorem callReadCallback_keeps (hneeded : s.needed = none) (after : Return) :
    Keeps (s.callReadCallback after) := by
  unfold callReadCallback
  split
  · exact ⟨fun _ => rfl, fun h => absurd hneeded h⟩
  · trivial

theorem readLoop_keeps (hname : s.name = .reading) (needed : Nat) (after : Return) :
    Keeps (s.readLoop needed after) := by
  unfold readLoop
  split
  · refine ⟨fun h => ?_, fun _ => hname⟩
    rw [show ({ s with needed := some (needed, after) } : Reader κ).name = s.name from rfl, hname] at h
    simp at h
  · exact callReadCallback_keeps (s := { s with needed := none }) rfl after

theorem readWhatIsBuffered_keeps (hname : s.name = .reading) (after : Return) :
    Keeps (s.readWhatIsBuffered after) := by
  unfold readWhatIsBuffered
  split
  · exact readLoop_keeps hname _ after
  · trivial

theorem delayedReadWhileReading_keeps (hneeded : s.needed = none) : Keeps s.delayedReadWhileReading := by
  unfold delayedReadWhileReading
  split
  · exact readWhatIsBuffered_keeps (s := { s with name := .reading }) rfl .looping
  · exact kept_of_name hneeded (by simp) (by simp)

theorem setWatcher_same (s : Reader κ) (started : Bool) :
    Ends (fun s1 => s1.name = s.name ∧ s1.buffer = s.buffer ∧ s1.needed = s.needed) (fun _ => True)
      (s.setWatcher started) := by
  unfold setWatcher
  split
  · exact ⟨rfl, rfl, rfl⟩
  · trivial

theorem readerFail_keeps (hneeded : s.needed = none) : Keeps s.readerFail := by
  unfold readerFail
  refine (setWatcher_same s false).bind ?_
  rintro s1 ⟨-, -, h1⟩
  exact kept_of_name (h1.trans hneeded) (by simp [enter, cleanupReader]) (by simp [enter, cleanupReader])

theorem readEof_keeps (hneeded : s.needed = none) : Keeps s.readEof := by
  unfold readEof
  split
  · refine (setWatcher_same s false).bind ?_
    rintro s1 ⟨-, -, h1⟩
    exact kept_of_name (h1.trans hneeded) (by simp [enter]) (by simp [enter])
  · exact callReadCallback_keeps (s := { s with name := .eof }) hneeded .leaving

theorem fail_keeps (hneeded : s.needed = none) : Keeps s.fail := by
  unfold fail
  split
  · exact readerFail_keeps hneeded
  · exact readerFail_keeps hneeded
  · trivial

theorem readvDone_keeps (hname : s.name = .reading) (needed : Nat) (after : Return) (res : ReadvResult) :
    Keeps (s.readvDone needed after res) := by
  unfold readvDone
  split
  · trivial
  · refine Ends.bind (p := fun _ => True) (by unfold Ends; split <;> trivial) ?_
    intro _ _
    dsimp only
    split
    · refine Ends.bind (p := fun _ => True) (by unfold Ends; split <;> trivial) ?_
      intro b' _
      exact readLoop_keeps (s := { s with readvs := _, buffer := some b', satisfied := _ }) hname _ after
    · refine (setWatcher_same { s with readvs := s.readvs + 1, needed := none } true).mono ?_
        fun _ _ => trivial
      rintro s1 ⟨h1, -, h3⟩
      rw [show ({ s with readvs := s.readvs + 1, needed := none } : Reader κ).name = s.name from rfl,
        hname] at h1
      exact kept_of_name h3 (by simp [h1]) (by simp [h1])
    · exact readEof_keeps (s := { s with readvs := _, needed := none }) rfl
    · exact readEof_keeps (s := { s with readvs := _, needed := none }) rfl
    · exact fail_keeps (s := { s with readvs := _, needed := none }) rfl

theorem enable_keeps (hneeded : s.needed = none) : Keeps s.enable := by
  unfold enable
  split
  · split
    · exact kept_of_name hneeded (by simp) (by simp)
    · trivial
  · trivial

theorem commenceRead_keeps (hneeded : s.needed = none) (r : Request κ) : Keeps (s.commenceRead r) := by
  unfold commenceRead
  split
  · exact readWhatIsBuffered_keeps (s := queueReadOperation r { s with name := .reading }) rfl _
  · next hname =>
    split
    · exact kept_of_name (s := queueReadOperation r s) hneeded (by simp [queueReadOperation, hname])
        (by simp [queueReadOperation, hname])
    · trivial
  · exact callReadCallback_keeps
      (s := { s with name := .eofAlerted, satisfied := 0, callback := some r.callback }) hneeded .leaving
  · trivial

theorem continueRead_keeps (hneeded : s.needed = none) : Keeps s.continueRead := by
  unfold continueRead
  split
  · next hname =>
    refine (setWatcher_same s false).mono ?_ fun _ _ => trivial
    rintro s1 ⟨h1, -, h3⟩
    exact kept_of_name (h3.trans hneeded) (by simp [h1, hname]) (by simp [h1, hname])
  · next hname =>
    refine (setWatcher_same s false).bind ?_
    rintro s1 ⟨h1, -, -⟩
    exact readWhatIsBuffered_keeps (h1.trans hname) .completing
  · trivial

theorem reset_keeps (h : s.Kept) (hneeded : s.needed = none) : Keeps s.reset := by
  unfold reset
  split
  · exact enable_keeps hneeded
  · refine (setWatcher_same s false).bind ?_
    rintro s1 ⟨-, -, h3⟩
    exact kept_of_name (s := { s1 with name := .enabled }) (h3.trans hneeded) (by simp) (by simp)
  · next hname => exact ⟨fun _ => h.1 (.inr hname), fun hn => absurd hneeded hn⟩
  · exact h

theorem stop_keeps (h : s.Kept) (hneeded : s.needed = none) : Keeps s.stop := by
  have hstop : Keeps s.readerStop := by
    refine (setWatcher_same s false).bind ?_
    rintro s1 ⟨-, -, h3⟩
    exact kept_of_name (h3.trans hneeded) (by simp) (by simp)
  unfold stop
  split
  · exact kept_of_name hneeded (by simp) (by simp)
  · exact hstop
  · exact hstop
  · exact h

theorem resume_keeps (h : s.Kept) (hneeded : s.needed = none) (after : Return) :
    Keeps (s.resume after) := by
  cases after with
  | completing =>
    change Keeps s.delayedRead
    unfold delayedRead
    split
    · exact delayedReadWhileReading_keeps hneeded
    · exact h
  | looping => exact delayedReadWhileReading_keeps hneeded
  | leaving => exact h

theorem step_keeps (h : s.Kept) (i : ReaderInput κ) : Keeps (s.step i) := by
  unfold step
  split
  · next hneeded =>
    split
    · exact readvDone_keeps (h.2 (by simp [hneeded])) _ _ _
    · exact h
  · next hneeded =>
    cases i with
    | enable => exact enable_keeps hneeded
    | commenceRead r => exact commenceRead_keeps hneeded r
    | reset => exact reset_keeps h hneeded
    | stop => exact stop_keeps h hneeded
    | fail => exact fail_keeps hneeded
    | event =>
      dsimp only
      split
      · exact continueRead_keeps hneeded
      · exact h
    | readv _ => exact h
    | callbackReturns =>
      dsimp only
      split
      · next after returns _ => exact resume_keeps (s := { s with returns := returns }) h hneeded after
      · exact h

/-- A read that is asked for at the end of the stream is answered at once, without a buffer. -/
theorem commenceRead_eof (h : s.Kept) (hname : s.name = .eof) (r : Request κ) :
    ∃ s1, s.commenceRead r = .ok s1 ∧ s1.marks = s.marks ++ [.called r.callback none 0] := by
  unfold commenceRead callReadCallback
  rw [hname]
  refine ⟨_, rfl, ?_⟩
  rw [← h.1 (.inl hname)]
  rfl

end

end Reader

/-- **A read is answered with its own buffer** exactly when the reader was not at the end of the stream
when the read was asked for. -/
theorem read_callback_iff (is : List (ReaderInput κ)) :
    Ends
      (fun s => s.needed = none → ∀ r, Ends (fun s1 => Reader.Serves r s s1 ↔ s.name ≠ .eof)
        (fun _ => True) (s.step (.commenceRead r)))
      (fun _ => True) (run Reader.step Reader.create is) := by
  have hcreate : (Reader.create : Reader κ).Kept :=
    Reader.kept_of_name rfl (by simp [Reader.create]) (by simp [Reader.create])
  refine (run_ends (c := fun _ _ => True) (fun s i hs _ => Reader.step_keeps hs i) is _ hcreate
    (RunMeets.true is _)).mono ?_ fun _ _ => trivial
  intro s hkept hneeded r
  rw [show s.step (.commenceRead r) = s.commenceRead r by simp [Reader.step, hneeded]]
  by_cases hname : s.name = .eof
  · obtain ⟨s1, hs1, hmarks⟩ := Reader.commenceRead_eof hkept hname r
    rw [hs1]
    refine ⟨fun hserves => ?_, fun hne => absurd hname hne⟩
    have hown := hserves [] (by simp)
    simp [Ends, run, hmarks, firstCall, Request.IsOwn] at hown
  · refine (Reader.commenceRead_waiting s r hname).mono ?_ fun _ _ => trivial
    intro s1 hwaits
    refine ⟨fun _ => hname, fun _ after hafter => ?_⟩
    exact (Reader.run_fair after hafter (.inl hwaits)).mono (fun _ => Reader.Waiting.isOwn)
      fun _ _ => trivial

/-- At the end of the stream a read is answered without a buffer. In a connection that is how a client
ends that has sent its close frame, when the peer closes without an answer and the timer expires: the
read that drains the input fails the assertion. -/
theorem draining_read_without_buffer :
    Ends
      (fun s => s.name = .eof ∧
        Ends (fun s1 => ¬ Reader.Serves oneByte s s1) (fun _ => False) (s.step (.commenceRead oneByte)))
      (fun _ => False)
      (run Reader.step Reader.create [.enable, .commenceRead oneByte, .readv .eof]) ∧
    Ends (fun _ => False) (fun e => e.fault = .assertFailed)
      (run (Connection.step plainDecoders 40) (Connection.create ⟨false, false, true⟩ 4096 0 [] false)
        ([{ event := .connect (some 1) }, { event := .connectReady true },
          { event := .data (encodeVersion amqpPreferredVersion) false }] ++ readsOf openBytes [] ++
          [{ event := .shutdown }, { event := .readReady (.eof false) }, { event := .timer true true }])) := by
  refine ⟨⟨rfl, fun hserves => ?_⟩, by decide +kernel⟩
  have hown : oneByte.IsOwn (some ((), none)) := hserves [] (by simp)
  cases hown.2

end Amqp.Stream
