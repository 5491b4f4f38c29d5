import LibAmqp.Buffer.Proof.IoVec
import LibAmqp.Stream.Writer

/-!
# The writer keeps the stream intact

The writer holds at most one buffer. While it is busy, what the socket has taken and what is unread of
that buffer make up what was written (`Busy`); this is kept by the loop of `continue_write_operation`
(`continueLoop_ends`), and so by every step (`step_ends`). A busy writer is in `sendmsg` or waits for an
event, so it is done once the socket has taken bytes often enough (`serve_ends`).
-/

namespace Amqp.Stream

open Lib

/-! ## Marks -/

section
variable (t : List WriteMark) (m : WriteMark)

@[simp] theorem written_append : written (t ++ [m]) = written t ++ m.buffer?.toList := by
  cases m <;> simp [written, WriteMark.buffer?]

@[simp] theorem released_append : released (t ++ [m]) = released t ++ m.release?.toList := by
  cases m <;> simp [released, WriteMark.release?]

@[simp] theorem accepted_append : accepted (t ++ [m]) = accepted t ++ m.bytes := by
  simp [accepted]

@[simp] theorem contents_append (bs cs : List Buffer) : contents (bs ++ cs) = contents bs ++ contents cs := by
  simp [contents]

@[simp] theorem contents_nil : contents [] = [] := rfl

@[simp] theorem contents_singleton (b : Buffer) : contents [b] = b.unread := by simp [contents]

end

theorem length_unread (b : Buffer) : b.unread.length = b.size - b.index := Buffer.length_bytes _ _ _

/-- What was written, less what was sent, is `rest`; what was not released is at `held`. -/
def Sent (t : List WriteMark) (rest : List UInt8) (held : List Nat) : Prop :=
  accepted t ++ rest = contents (written t) ∧ released t ++ held = (written t).map Buffer.address

theorem Sent.length {t : List WriteMark} {rest : List UInt8} {held : List Nat} (h : Sent t rest held) :
    (accepted t).length + rest.length = (contents (written t)).length := by
  rw [← h.1, List.length_append]

/-- The last buffer can be released once nothing is left of it. -/
theorem Sent.permits {t : List WriteMark} {a : Nat} (h : Sent t [] [a]) :
    WritePermits t (.released a) := by
  refine .inl ?_
  have hall : (written t).take ((released t).length + 1) = written t := by
    apply List.take_of_length_le
    have hlen := congrArg List.length h.2
    simp only [List.length_append, List.length_singleton, List.length_map] at hlen
    omega
  exact Nat.le_of_eq (by rw [hall, ← h.1, List.append_nil])

/-- A mark that is neither a buffer nor bytes. -/
theorem Sent.mark {t : List WriteMark} {rest : List UInt8} {held : List Nat} {m : WriteMark}
    (h : Sent t rest held) (hb : m.buffer? = none) (hr : m.release? = none) (ha : m.bytes = []) :
    Sent (t ++ [m]) rest held := by
  unfold Sent
  rw [accepted_append, written_append, released_append, hb, hr, ha]
  simpa using And.intro h.1 h.2

theorem Sent.release {t : List WriteMark} {rest : List UInt8} {a : Nat} (h : Sent t rest [a]) :
    Sent (t ++ [.released a]) rest [] := by
  unfold Sent
  rw [accepted_append, written_append, released_append]
  simpa [WriteMark.buffer?, WriteMark.release?, WriteMark.bytes] using And.intro h.1 h.2

theorem Sent.left {t : List WriteMark} {rest : List UInt8} {held : List Nat} (h : Sent t rest held) :
    unsent t = rest.length := by
  have := h.length
  unfold unsent
  omega

/-! ## The invariant -/

namespace Writer

/-- A stop was asked for. -/
def Requested (t : List WriteMark) : Prop := ∃ name, .stopRequested name ∈ t

/-- There is nothing to write. -/
structure Idle (w : Writer) : Prop where
  queue : ∀ i, w.bufferQueue i = none
  atEnd : w.start = w.endIndex
  available : w.available = none
  sent : Sent w.marks [] []
  requested : ¬ Requested w.marks

/-- `b` is being written. -/
structure Busy (w : Writer) (b : Buffer) : Prop where
  sound : b.Sound
  queue : ∀ i, w.bufferQueue i = if i = w.start then some b else none
  endIndex : w.endIndex = incrementQueueIndex w.start
  sent : Sent w.marks b.unread [b.address]
  watcher : w.watcher.isSome
  phase : w.name = .writing ∧ ¬ Requested w.marks ∨ w.name = .stopping ∧ w.stoppedCallback ∧
    .stopRequested .writing ∈ w.marks ∧ .stopped ∉ w.marks

/-- The writer has ended. -/
structure Over (w : Writer) : Prop where
  name : w.name = .stopped ∨ w.name = .failed
  watcher : w.watcher = none
  available : w.available = none
  sent : ∃ rest, Sent w.marks rest []
  failed : w.name = .failed → .sendFailed ∈ w.marks
  stopped : w.name = .stopped → Requested w.marks ∨ .abortRequested ∈ w.marks
  requested : Requested w.marks →
    .stopped ∈ w.marks ∨ .sendFailed ∈ w.marks ∨ .abortRequested ∈ w.marks

inductive Phase (w : Writer) : Prop
  | initialized (name : w.name = .initialized) (watcher : w.watcher = none) (idle : Idle w)
  | enabled (name : w.name = .enabled) (watcher : w.watcher.isSome) (idle : Idle w)
  | busy (b : Buffer) (busy : Busy w b) (left : 0 < b.size - b.index)
      (attended : w.available = some (b.size - b.index) ∨ w.available = none ∧ w.watcher = some true)
  | finished (h : Over w)

structure Inv (w : Writer) : Prop where
  justified : Justified WritePermits w.marks
  /-- no callback without a stop -/
  stopped : .stopped ∈ w.marks → Requested w.marks
  phase : Phase w

theorem requested_append {t : List WriteMark} {m : WriteMark} (h : Requested t) :
    Requested (t ++ [m]) := by
  obtain ⟨name, hname⟩ := h
  exact ⟨name, List.mem_append_left _ hname⟩

theorem not_requested_append {t : List WriteMark} {m : WriteMark} (h : ¬ Requested t)
    (hm : ∀ name, m ≠ .stopRequested name) : ¬ Requested (t ++ [m]) := by
  rintro ⟨name, hname⟩
  rcases List.mem_append.1 hname with h1 | h1
  · exact h ⟨name, h1⟩
  · exact hm name (List.mem_singleton.1 h1).symm

/-! ## What happens to the queue -/

theorem clearBufferQueue_empty {w : Writer} (h : ∀ i, w.bufferQueue i = none) :
    w.clearBufferQueue = { w with bufferQueue := fun _ => none } := by
  have hd : ∀ (i : Fin amqpWriteQueueSize),
      ({ w with bufferQueue := fun _ => none } : Writer).deallocateBufferQueueElement i =
        { w with bufferQueue := fun _ => none } := by
    intro i
    simp [deallocateBufferQueueElement, setElement]
  have hw : w = { w with bufferQueue := fun _ => none } := by
    rw [← show w.bufferQueue = fun _ => none from funext h]
  unfold clearBufferQueue
  rw [hw, hd, hd, hd]

theorem deallocate_other {w : Writer} {i : Fin amqpWriteQueueSize} (h : w.bufferQueue i = none) :
    w.deallocateBufferQueueElement i = w := by
  have hqueue : (fun j => if j = i then none else w.bufferQueue j) = w.bufferQueue := by
    funext j
    split
    · next hj => rw [hj, h]
    · rfl
  simp only [deallocateBufferQueueElement, h, setElement, hqueue]

theorem deallocate_held {w : Writer} {b : Buffer}
    (h : ∀ i, w.bufferQueue i = if i = w.start then some b else none) :
    w.deallocateBufferQueueElement w.start = { w with
      bufferQueue := fun _ => none, marks := w.marks ++ [.released b.address] } := by
  have hqueue : (fun j => if j = w.start then none else w.bufferQueue j) = fun _ => none := by
    funext j
    split
    · rfl
    · next hj => rw [h, if_neg hj]
  have hstart : w.bufferQueue w.start = some b := (h w.start).trans (if_pos rfl)
  simp only [deallocateBufferQueueElement, hstart, setElement, mark, hqueue]

theorem clearBufferQueue_held {w : Writer} {b : Buffer}
    (h : ∀ i, w.bufferQueue i = if i = w.start then some b else none) :
    w.clearBufferQueue = { w with
      bufferQueue := fun _ => none, marks := w.marks ++ [.released b.address] } := by
  have hheld := deallocate_held h
  have hother : ∀ i, i ≠ w.start → w.deallocateBufferQueueElement i = w :=
    fun i hi => deallocate_other ((h i).trans (if_neg hi))
  unfold clearBufferQueue
  -- the elements before the one that is held, that one, and those behind it
  have hstart : ∀ s : Fin amqpWriteQueueSize, s = 0 ∨ s = 1 ∨ s = 2 := by decide
  rcases hstart w.start with hs | hs | hs
  · rw [← hs, hheld, deallocate_other rfl, deallocate_other rfl]
  · rw [hother 0 (by rw [hs]; decide), ← hs, hheld, deallocate_other rfl]
  · rw [hother 0 (by rw [hs]; decide), hother 1 (by rw [hs]; decide), ← hs, hheld]

theorem cleanupResources_held {w : Writer} {b : Buffer} (hw : w.watcher.isSome)
    (h : ∀ i, w.bufferQueue i = if i = w.start then some b else none) :
    w.cleanupResources = .ok { w with
      watcher := none, bufferQueue := fun _ => none, marks := w.marks ++ [.released b.address] } := by
  obtain ⟨started, hs⟩ := Option.isSome_iff_exists.1 hw
  unfold cleanupResources setWatcher
  rw [hs]
  exact congrArg Except.ok (clearBufferQueue_held (w := { w with watcher := none }) h)

theorem cleanupResources_empty {w : Writer} (hw : w.watcher.isSome)
    (h : ∀ i, w.bufferQueue i = none) :
    w.cleanupResources = .ok { w with watcher := none, bufferQueue := fun _ => none } := by
  obtain ⟨started, hs⟩ := Option.isSome_iff_exists.1 hw
  unfold cleanupResources setWatcher
  rw [hs]
  exact congrArg Except.ok (clearBufferQueue_empty (w := { w with watcher := none }) h)

/-! ## What each function keeps -/

variable {w : Writer}

theorem incrementQueueIndex_ne : ∀ i : Fin amqpWriteQueueSize, i ≠ incrementQueueIndex i := by
  decide

theorem Busy.not_atEnd {b : Buffer} (h : Busy w b) : w.start ≠ w.endIndex := by
  rw [h.endIndex]
  exact incrementQueueIndex_ne w.start

theorem Busy.requested_stopping {b : Buffer} (h : Busy w b) (hr : Requested w.marks) :
    w.name = .stopping := by
  rcases h.phase with ⟨-, hno⟩ | ⟨hname, -⟩
  · exact absurd hr hno
  · exact hname

/-- The writer fails, or is cleaned up, while a buffer is being written. -/
theorem over_of_busy {b : Buffer} (h : Busy w b) (hj : Justified WritePermits w.marks)
    (hstopped : .stopped ∈ w.marks → Requested w.marks) {m : WriteMark}
    (hm : m = .sendFailed ∨ m = .abortRequested) {n : WriterState}
    (hn : n = .failed ∧ m = .sendFailed ∨ n = .stopped ∧ m = .abortRequested) :
    Inv { w with
      name := n, watcher := none, bufferQueue := fun _ => none, available := none,
      marks := w.marks ++ [m] ++ [.released b.address] } := by
  have hmem : m ∈ w.marks ++ [m] ++ [WriteMark.released b.address] := by simp
  have hpermits : WritePermits w.marks m := by
    rcases hm with rfl | rfl <;> trivial
  have hsent : Sent (w.marks ++ [m]) b.unread [b.address] := by
    rcases hm with rfl | rfl <;> exact h.sent.mark rfl rfl rfl
  refine ⟨(hj.append hpermits).append (.inr ?_), ?_, .finished ⟨?_, rfl, rfl, ⟨_, hsent.release⟩, ?_, ?_, ?_⟩⟩
  · rcases hm with rfl | rfl
    · exact .inl (by simp)
    · exact .inr (by simp)
  · intro hs
    refine requested_append (requested_append (hstopped ?_))
    rcases hm with rfl | rfl <;> simpa using hs
  · rcases hn with ⟨rfl, -⟩ | ⟨rfl, -⟩
    · exact .inr rfl
    · exact .inl rfl
  · rintro rfl
    rcases hn with ⟨-, rfl⟩ | ⟨hn, -⟩
    · exact hmem
    · cases hn
  · rintro rfl
    rcases hn with ⟨hn, -⟩ | ⟨-, rfl⟩
    · cases hn
    · exact .inr hmem
  · intro _
    rcases hm with rfl | rfl
    · exact .inr (.inl hmem)
    · exact .inr (.inr hmem)

theorem writeComplete_writing (hname : w.name = .writing) (hend : w.atQueueEnd) :
    w.writeComplete = .ok { w with name := .enabled } := by
  unfold writeComplete
  rw [hname]
  exact if_pos hend

theorem writeComplete_stopping (hname : w.name = .stopping) (hend : w.atQueueEnd) :
    w.writeComplete = w.writerStop w.stoppedCallback := by
  unfold writeComplete
  rw [hname]
  exact if_pos hend

theorem writerStop_empty (hw : w.watcher.isSome) (h : ∀ i, w.bufferQueue i = none) :
    w.writerStop true = .ok { w with
      name := .stopped, watcher := none, bufferQueue := fun _ => none, stoppedCallback := false,
      marks := w.marks ++ [.stopped] } := by
  unfold writerStop writerCleanup
  rw [cleanupResources_empty (w := { w with stoppedCallback := true, name := .stopped }) hw h]
  rfl

theorem continueLoop_zero {b : Buffer} (h : Busy w b) :
    w.continueLoop 0 = writeComplete { w with
      bufferQueue := fun _ => none, start := incrementQueueIndex w.start, available := none,
      marks := w.marks ++ [.released b.address] } := by
  have hdealloc := deallocate_held (w := { w with available := none }) h.queue
  rw [continueLoop, if_neg (Nat.lt_irrefl 0)]
  exact congrArg (fun v : Writer => writeComplete { v with start := incrementQueueIndex v.start }) hdealloc

/-- Once the buffer is sent the writer goes on: it is enabled, or it stops. -/
theorem sent_ends {b : Buffer} (h : Busy w b) (hj : Justified WritePermits w.marks)
    (hstopped : .stopped ∈ w.marks → Requested w.marks) (hb : b.unread = []) :
    Ends (fun v => Inv v ∧ AtRest v) (fun _ => False) (w.continueLoop 0) := by
  have hsent : Sent w.marks [] [b.address] := hb ▸ h.sent
  have hj1 : Justified WritePermits (w.marks ++ [.released b.address]) := hj.append hsent.permits
  have hatEnd : incrementQueueIndex w.start = w.endIndex := h.endIndex.symm
  rw [continueLoop_zero h]
  rcases h.phase with ⟨hname, hno⟩ | ⟨hname, hcallback, hwriting, hnot⟩
  · rw [writeComplete_writing]
    · refine ⟨⟨hj1, ?_, .enabled rfl h.watcher ⟨fun _ => rfl, hatEnd, rfl, hsent.release, ?_⟩⟩,
        by simp [AtRest]⟩
      · intro hs
        exact requested_append (hstopped (by simpa using hs))
      · exact not_requested_append hno (by simp)
    · exact hname
    · exact decide_eq_true hatEnd
  · have hreq : WriteMark.stopRequested .writing ∈ w.marks ++ [.released b.address] := by simp [hwriting]
    have hsent1 := hsent.release
    rw [writeComplete_stopping]
    · dsimp only
      rw [hcallback, writerStop_empty]
      · refine ⟨⟨hj1.append ⟨by simpa using hnot, .writing, hreq, fun _ => ?_⟩, fun _ => ?_,
          .finished ⟨.inl rfl, rfl, rfl, ⟨_, hsent1.mark rfl rfl rfl⟩, (by simp), fun _ => ?_, fun _ => ?_⟩⟩,
          by simp [AtRest]⟩
        · simpa using hsent1.1
        · exact requested_append ⟨_, hreq⟩
        · exact .inl (requested_append ⟨_, hreq⟩)
        · exact .inl (List.mem_append_right _ (List.mem_singleton.2 rfl))
      · exact h.watcher
      · exact fun _ => rfl
    · exact hname
    · exact decide_eq_true hatEnd

/-- The writer is at rest, or about to call `sendmsg`. -/
def Sending (w v : Writer) : Prop := Inv v ∧ (AtRest v ∨ v.available.isSome ∧ v.marks = w.marks)

/-- `sendmsg` has returned: the writer is at rest, or less is left to send if the socket took bytes. -/
def Served (r : SendResult) (w v : Writer) : Prop :=
  Inv v ∧ (AtRest v ∨ unsent v.marks + r.isSent.toNat ≤ unsent w.marks)

theorem inv_of_sending {x : WriterOutcome} (h : Ends (Sending w) (fun _ => False) x) :
    Ends Inv (fun _ => False) x :=
  h.mono (fun _ hv => hv.1) fun _ he => he

theorem served_of_sending {u : Writer} {r : SendResult} {x : WriterOutcome}
    (h : Ends (Sending u) (fun _ => False) x) (hless : unsent u.marks + r.isSent.toNat ≤ unsent w.marks) :
    Ends (Served r w) (fun _ => False) x :=
  h.mono (fun _ hv => ⟨hv.1, hv.2.imp_right fun ⟨_, hmarks⟩ => hmarks ▸ hless⟩) fun _ he => he

/-- The loop goes on, or the buffer is sent. -/
theorem continueLoop_ends {b : Buffer} (h : Busy w b) (hj : Justified WritePermits w.marks)
    (hstopped : .stopped ∈ w.marks → Requested w.marks) :
    Ends (Sending w) (fun _ => False) (w.continueLoop (b.size - b.index)) := by
  by_cases hleft : 0 < b.size - b.index
  · rw [continueLoop, if_pos hleft]
    exact ⟨⟨hj, hstopped, .busy b ⟨h.sound, h.queue, h.endIndex, h.sent, h.watcher, h.phase⟩ hleft
      (.inl rfl)⟩, .inr ⟨rfl, rfl⟩⟩
  · have h0 : b.size - b.index = 0 := by omega
    rw [h0]
    have hsent := sent_ends h hj hstopped (List.eq_nil_of_length_eq_zero (by rw [length_unread, h0]))
    exact hsent.mono (fun v hv => ⟨hv.1, .inl hv.2⟩) fun _ he => he

theorem continueWriteOperation_ends {b : Buffer} (h : Busy w b) (hj : Justified WritePermits w.marks)
    (hstopped : .stopped ∈ w.marks → Requested w.marks) :
    Ends (Sending w) (fun _ => False) w.continueWriteOperation := by
  unfold continueWriteOperation
  rw [h.queue, if_pos rfl]
  exact continueLoop_ends h hj hstopped

/-! ## Every step -/

theorem enable_ends (h : Inv w) (hname : w.name = .initialized) :
    Ends Inv (fun _ => False) w.enable := by
  unfold enable
  rw [hname]
  cases h.phase with
  | initialized _ hwatcher hidle =>
    dsimp only
    rw [if_pos (by simp [hwatcher])]
    exact ⟨h.justified, h.stopped, .enabled rfl rfl
      ⟨hidle.queue, hidle.atEnd, hidle.available, hidle.sent, hidle.requested⟩⟩
  | enabled hn => cases hname.symm.trans hn
  | busy b hbusy =>
    rcases hbusy.phase with ⟨hn, -⟩ | ⟨hn, -⟩
    all_goals cases hname.symm.trans hn
  | finished hover =>
    rcases hover.name with hn | hn
    all_goals cases hname.symm.trans hn

theorem Inv.idle_of_enabled (h : Inv w) (hname : w.name = .enabled) : w.watcher.isSome ∧ Idle w := by
  cases h.phase with
  | initialized hn => cases hname.symm.trans hn
  | enabled _ hwatcher hidle => exact ⟨hwatcher, hidle⟩
  | busy b hbusy =>
    rcases hbusy.phase with ⟨hn, -⟩ | ⟨hn, -⟩
    all_goals cases hname.symm.trans hn
  | finished hover =>
    rcases hover.name with hn | hn
    all_goals cases hname.symm.trans hn

theorem write_ends {buffer : Option Buffer} (h : Inv w) (hname : w.name = .enabled)
    (hsound : ∀ b ∈ buffer, b.Sound) : Ends Inv (fun _ => False) (w.write buffer) := by
  obtain ⟨hwatcher, hidle⟩ := h.idle_of_enabled hname
  unfold write
  rw [hname]
  cases buffer with
  | none => exact h
  | some b =>
    have hmark : ∀ m, m ∈ w.marks ++ [WriteMark.written b] → m = .written b ∨ m ∈ w.marks := by
      intro m hm
      simpa [or_comm] using hm
    refine inv_of_sending
      (continueWriteOperation_ends (b := b) ⟨hsound b rfl, ?_, ?_, ?_, hwatcher, .inl ⟨rfl, ?_⟩⟩ ?_ ?_)
    · intro i
      change (if i = w.endIndex then some b else w.bufferQueue i) = if i = w.start then some b else none
      rw [hidle.queue, hidle.atEnd]
    · change incrementQueueIndex w.endIndex = incrementQueueIndex w.start
      rw [hidle.atEnd]
    · change Sent (w.marks ++ [.written b]) b.unread [b.address]
      have hsent := hidle.sent
      unfold Sent at hsent ⊢
      rw [accepted_append, written_append, released_append]
      simp [WriteMark.bytes, WriteMark.buffer?, WriteMark.release?, ← hsent.1, ← hsent.2]
    · exact not_requested_append hidle.requested (by simp)
    · exact h.justified.append trivial
    · intro hs
      rcases hmark _ hs with hm | hm
      · cases hm
      · exact requested_append (h.stopped hm)

theorem stop_ends (h : Inv w) (hno : ¬ Requested w.marks) :
    Ends Inv (fun _ => False) (w.mark (.stopRequested w.name)).stop := by
  have hreq : WriteMark.stopRequested w.name ∈ w.marks ++ [.stopRequested w.name] := by simp
  have hj : Justified WritePermits (w.marks ++ [.stopRequested w.name]) := h.justified.append trivial
  have hnot : WriteMark.stopped ∉ w.marks ++ [.stopRequested w.name] := by
    simpa using fun hs => hno (h.stopped hs)
  have hpermits (hn : w.name = .writing → accepted (w.marks ++ [.stopRequested w.name]) =
      contents (written (w.marks ++ [.stopRequested w.name]))) :
      WritePermits (w.marks ++ [.stopRequested w.name]) .stopped := ⟨hnot, w.name, hreq, hn⟩
  have hlast : ∀ t : List WriteMark, WriteMark.stopped ∈ t ++ [.stopped] := fun t => by simp
  have hdone : Requested (w.marks ++ [.stopRequested w.name] ++ [.stopped]) :=
    requested_append ⟨_, hreq⟩
  unfold stop mark
  cases h.phase with
  | initialized hname hwatcher hidle =>
    simp only [hname] at *
    exact ⟨hj.append (hpermits (by simp)), fun _ => hdone, .finished ⟨.inl rfl, hwatcher, hidle.available,
      ⟨_, (hidle.sent.mark rfl rfl rfl).mark rfl rfl rfl⟩, (by simp [mark]), fun _ => .inl hdone,
      fun _ => .inl (hlast _)⟩⟩
  | enabled hname hwatcher hidle =>
    simp only [hname] at *
    rw [writerStop_empty]
    · exact ⟨hj.append (hpermits (by simp)), fun _ => hdone, .finished ⟨.inl rfl, rfl, hidle.available,
        ⟨_, (hidle.sent.mark rfl rfl rfl).mark rfl rfl rfl⟩, (by simp), fun _ => .inl hdone,
        fun _ => .inl (hlast _)⟩⟩
    · exact hwatcher
    · exact hidle.queue
  | busy b hbusy hleft hattended =>
    rcases hbusy.phase with ⟨hname, -⟩ | ⟨-, -, hwriting, -⟩
    · simp only [hname] at *
      exact ⟨hj, fun hs => absurd hs hnot, .busy b ⟨hbusy.sound, hbusy.queue, hbusy.endIndex,
        hbusy.sent.mark rfl rfl rfl, hbusy.watcher, .inr ⟨rfl, rfl, hreq, hnot⟩⟩ hleft hattended⟩
    · exact absurd ⟨_, hwriting⟩ hno
  | finished hover =>
    obtain ⟨rest, hrest⟩ := hover.sent
    have hover' : Over { w with marks := w.marks ++ [.stopRequested w.name] ++ [.stopped] } :=
      ⟨hover.name, hover.watcher, hover.available, ⟨rest, (hrest.mark rfl rfl rfl).mark rfl rfl rfl⟩,
        fun hf => by simp [hover.failed hf], fun _ => .inl hdone, fun _ => .inl (hlast _)⟩
    rcases hover.name with hname | hname
    all_goals
      simp only [hname] at *
      exact ⟨hj.append (hpermits (by simp)), fun _ => hdone, .finished hover'⟩

theorem abort_ends (h : Inv w) (havailable : w.available = none) :
    Ends Inv (fun _ => False) (w.mark .abortRequested).abort := by
  have hmem : WriteMark.abortRequested ∈ w.marks ++ [.abortRequested] := by simp
  have hj : Justified WritePermits (w.marks ++ [.abortRequested]) := h.justified.append trivial
  have hstopped : WriteMark.stopped ∈ w.marks ++ [.abortRequested] →
      Requested (w.marks ++ [.abortRequested]) :=
    fun hs => requested_append (h.stopped (by simpa using hs))
  unfold abort mark
  cases h.phase with
  | initialized hname hwatcher hidle =>
    simp only [hname]
    exact ⟨hj, hstopped, .finished ⟨.inl rfl, hwatcher, havailable, ⟨_, hidle.sent.mark rfl rfl rfl⟩,
      (by simp), fun _ => .inr hmem, fun _ => .inr (.inr hmem)⟩⟩
  | enabled hname hwatcher hidle =>
    simp only [hname]
    unfold writerCleanup
    rw [cleanupResources_empty]
    · exact ⟨hj, hstopped, .finished ⟨.inl rfl, rfl, havailable, ⟨_, hidle.sent.mark rfl rfl rfl⟩,
        (by simp), fun _ => .inr hmem, fun _ => .inr (.inr hmem)⟩⟩
    · exact hwatcher
    · exact hidle.queue
  | busy b hbusy hleft =>
    have hover := over_of_busy hbusy h.justified h.stopped (m := .abortRequested) (n := .stopped)
      (.inr rfl) (.inr ⟨rfl, rfl⟩)
    rcases hbusy.phase with ⟨hname, -⟩ | ⟨hname, -⟩
    all_goals
      simp only [hname]
      unfold writerCleanup
      rw [cleanupResources_held]
      · rw [← havailable] at hover
        exact hover
      · exact hbusy.watcher
      · exact hbusy.queue
  | finished hover =>
    obtain ⟨rest, hrest⟩ := hover.sent
    have hover' : Over { w with marks := w.marks ++ [.abortRequested] } :=
      ⟨hover.name, hover.watcher, havailable, ⟨rest, hrest.mark rfl rfl rfl⟩,
        fun hf => by simp [hover.failed hf], fun _ => .inr hmem, fun _ => .inr (.inr hmem)⟩
    rcases hover.name with hname | hname
    all_goals
      simp only [hname] at *
      exact ⟨hj, hstopped, .finished hover'⟩

theorem event_ends (h : Inv w) (hwatcher : w.watcher.isSome) :
    Ends (Sending w) (fun _ => False) w.continueWrite := by
  obtain ⟨started, hs⟩ := Option.isSome_iff_exists.1 hwatcher
  unfold continueWrite setWatcher
  rw [hs]
  cases h.phase with
  | initialized _ hnone => simp [hnone] at hwatcher
  | enabled hname _ hidle =>
    rw [hname]
    exact ⟨⟨h.justified, h.stopped, .enabled rfl rfl
      ⟨hidle.queue, hidle.atEnd, hidle.available, hidle.sent, hidle.requested⟩⟩, .inl (by simp [AtRest])⟩
  | busy b hbusy hleft =>
    have hphase := hbusy.phase
    rcases hbusy.phase with ⟨hname, -⟩ | ⟨hname, -⟩
    all_goals
      rw [hname] at hphase ⊢
      exact continueWriteOperation_ends (b := b)
        ⟨hbusy.sound, hbusy.queue, hbusy.endIndex, hbusy.sent, rfl, hphase⟩ h.justified h.stopped
  | finished hover => simp [hover.watcher] at hwatcher

theorem unread_advance {b : Buffer} {n : Nat} (h : n ≤ b.size - b.index) :
    b.unread = b.unread.take n ++ (b.advanceReadIndex n).unread := by
  unfold Buffer.unread Buffer.advanceReadIndex
  rw [Buffer.bytes_index, show b.size - b.index = n + (b.size - (b.index + n)) by omega, Buffer.bytes_add,
    List.take_left' (Buffer.length_bytes _ _ _)]
  rfl

/-- `sendmsg` takes some of the bytes. -/
theorem sendDone_sent_ends {b : Buffer} {n : Nat} (h : Inv w) (hbusy : Busy w b)
    (hleft : 0 < b.size - b.index) :
    Ends (Served (.sent n) w) (fun _ => False) (w.sendDone (b.size - b.index) (.sent n)) := by
  have hlen : (b.unread.take (n + 1)).length = min (n + 1) (b.size - b.index) := by
    rw [List.length_take, length_unread]
  have hle : min (n + 1) (b.size - b.index) ≤ b.size - b.index := Nat.min_le_right _ _
  have htake : b.unread.take (n + 1) = b.unread.take (min (n + 1) (b.size - b.index)) := by
    rw [← length_unread, List.take_eq_take_min]
  have hqueue : w.bufferQueue w.start = some b := (hbusy.queue _).trans (if_pos rfl)
  simp only [sendDone, hqueue, Buffer.send_eq hbusy.sound]
  change Ends _ _ (continueLoop (b.size - b.index - (b.unread.take (n + 1)).length) (mark _ (setElement _ _ _)))
  rw [hlen]
  generalize hk : min (n + 1) (b.size - b.index) = k at *
  rw [show b.size - b.index - k = (b.advanceReadIndex k).size - (b.advanceReadIndex k).index from by
    simp only [Buffer.advanceReadIndex]
    omega]
  have hsent' : Sent (w.marks ++ [.accepted (b.unread.take (n + 1))]) (b.advanceReadIndex k).unread
      [b.address] := by
    have hsent := hbusy.sent
    have hadvance := unread_advance (b := b) hle
    unfold Sent at hsent ⊢
    rw [accepted_append, written_append, released_append]
    simp only [WriteMark.bytes, WriteMark.buffer?, WriteMark.release?, Option.toList_none, List.append_nil]
    rw [List.append_assoc, htake, ← hadvance]
    exact hsent
  have hless : unsent (w.marks ++ [.accepted (b.unread.take (n + 1))]) + 1 ≤ unsent w.marks := by
    rw [hsent'.left, hbusy.sent.left, length_unread, length_unread]
    simp only [Buffer.advanceReadIndex]
    omega
  refine served_of_sending
    (continueLoop_ends ⟨?_, ?_, hbusy.endIndex, hsent', hbusy.watcher, ?_⟩ ?_ ?_) hless
  · have := hbusy.sound.index_le
    exact ⟨by simp only [Buffer.advanceReadIndex]; omega, hbusy.sound.size_le⟩
  · intro i
    change (if i = w.start then some _ else w.bufferQueue i) = if i = w.start then some _ else none
    split
    · rfl
    · next hi => rw [hbusy.queue, if_neg hi]
  · rcases hbusy.phase with ⟨hname, hno⟩ | ⟨hname, hcallback, hwriting, hnot⟩
    · exact .inl ⟨hname, not_requested_append hno (by simp)⟩
    · exact .inr ⟨hname, hcallback, List.mem_append_left _ hwriting, by simpa [mark, setElement] using hnot⟩
  · exact h.justified.append trivial
  · intro hs
    exact requested_append (h.stopped (by simpa [mark, setElement] using hs))

theorem sendDone_ends {b : Buffer} {r : SendResult} (h : Inv w) (hbusy : Busy w b)
    (hleft : 0 < b.size - b.index) :
    Ends (Served r w) (fun _ => False) (w.sendDone (b.size - b.index) r) := by
  cases r with
  | sent n => exact sendDone_sent_ends h hbusy hleft
  | again =>
    obtain ⟨started, hs⟩ := Option.isSome_iff_exists.1 hbusy.watcher
    unfold sendDone setWatcher
    dsimp only
    rw [hs]
    exact ⟨⟨h.justified, h.stopped, .busy b ⟨hbusy.sound, hbusy.queue, hbusy.endIndex, hbusy.sent, rfl,
      hbusy.phase⟩ hleft (.inr ⟨rfl, rfl⟩)⟩, .inr (Nat.le_refl _)⟩
  | error =>
    have hover := over_of_busy hbusy h.justified h.stopped (m := .sendFailed) (n := .failed)
      (.inl rfl) (.inl ⟨rfl, rfl⟩)
    obtain ⟨hj, hstopped, hphase⟩ := hover
    have hfailed : Ends (Served .error w) (fun _ => False)
        (writerFail { w with available := none, marks := w.marks ++ [.sendFailed] }) := by
      unfold writerFail
      rw [cleanupResources_held]
      · cases hphase with
        | finished hover =>
          obtain ⟨rest, hrest⟩ := hover.sent
          have hmem : WriteMark.sendFailed ∈
              w.marks ++ [.sendFailed] ++ [.released b.address] ++ [.connectionFailed] := by simp
          exact ⟨⟨hj.append trivial, fun hs => requested_append (hstopped (by simpa [mark] using hs)),
            .finished ⟨.inr rfl, rfl, rfl, ⟨rest, hrest.mark rfl rfl rfl⟩, fun _ => hmem, (by simp [mark]),
              fun _ => .inr (.inl hmem)⟩⟩, .inl (by simp [AtRest, mark])⟩
        | busy b' hbusy' => exact absurd hbusy'.watcher (by simp)
        | initialized hname => cases hname
        | enabled hname => cases hname
      · exact hbusy.watcher
      · exact hbusy.queue
    unfold sendDone fail mark
    rcases hbusy.phase with ⟨hname, -⟩ | ⟨hname, -⟩
    all_goals
      dsimp only
      rw [hname] at hfailed ⊢
      exact hfailed

theorem step_ends (h : Inv w) (i : WriterInput) (hi : w.Permitted i) :
    Ends Inv (fun _ => False) (w.step i) := by
  cases havailable : w.available with
  | some available =>
    cases i with
    | send r =>
      simp only [step, havailable]
      cases h.phase with
      | initialized _ _ hidle => cases havailable.symm.trans hidle.available
      | enabled _ _ hidle => cases havailable.symm.trans hidle.available
      | busy b hbusy hleft ha =>
        rcases ha with ha | ⟨ha, -⟩
        · cases havailable.symm.trans ha
          exact (sendDone_ends h hbusy hleft).mono (fun _ hv => hv.1) fun _ he => he
        · cases havailable.symm.trans ha
      | finished hover => cases havailable.symm.trans hover.available
    | _ =>
      simp only [step, havailable, Option.isSome_some, if_true]
      exact h
  | none =>
    cases i with
    | send r =>
      simp only [step, havailable]
      exact h
    | enable =>
      simp only [step, havailable, Option.isSome_none]
      exact enable_ends h hi
    | write buffer =>
      simp only [step, havailable, Option.isSome_none]
      exact write_ends h hi.1 hi.2
    | stop =>
      simp only [step, havailable, Option.isSome_none]
      exact stop_ends h (fun ⟨_, hr⟩ => absurd (hi _ hr) (by simp [WriteMark.isStopRequest]))
    | abort =>
      simp only [step, havailable, Option.isSome_none]
      exact abort_ends h havailable
    | event =>
      simp only [step, havailable, Option.isSome_none, Bool.false_eq_true, if_false]
      split
      · next hwatcher =>
        exact inv_of_sending (event_ends h (by simp [hwatcher]))
      · exact h
    | spurious =>
      simp only [step, havailable, Option.isSome_none, Bool.false_eq_true, if_false]
      split
      · next hwatcher => exact inv_of_sending (event_ends h hwatcher)
      · exact h

/-! ## Progress -/

/-- A writer is at rest, or in `sendmsg`, or waits for an event. -/
theorem Inv.rest_or_attended (h : Inv w) : AtRest w ∨ ∃ b, Busy w b ∧ 0 < b.size - b.index ∧
    (w.available = some (b.size - b.index) ∨ w.available = none ∧ w.watcher = some true) := by
  cases h.phase with
  | initialized hname => exact .inl (by simp [AtRest, hname])
  | enabled hname => exact .inl (by simp [AtRest, hname])
  | busy b hbusy hleft ha => exact .inr ⟨b, hbusy, hleft, ha⟩
  | finished hover =>
    left
    rcases hover.name with hname | hname
    all_goals simp [AtRest, hname]

theorem Inv.available_of_rest (h : Inv w) (hr : AtRest w) : w.available = none := by
  cases h.phase with
  | initialized _ _ hidle => exact hidle.available
  | enabled _ _ hidle => exact hidle.available
  | busy b hbusy =>
    rcases hbusy.phase with ⟨hname, -⟩ | ⟨hname, -⟩
    · exact absurd hname hr.1
    · exact absurd hname hr.2
  | finished hover => exact hover.available

/-- What is left to send, unless the writer is at rest. -/
def Left (n : Nat) (w : Writer) : Prop := Inv w ∧ (AtRest w ∨ unsent w.marks ≤ n)

theorem Left.rest (h : Left 0 w) : AtRest w := by
  obtain ⟨hinv, hrest | hleft⟩ := h
  · exact hrest
  · rcases hinv.rest_or_attended with hrest | ⟨b, hbusy, hsize, -⟩
    · exact hrest
    · rw [hbusy.sent.left, length_unread] at hleft
      omega

theorem send_rest (h : Inv w) (hr : AtRest w) (r : SendResult) : w.step (.send r) = .ok w := by
  simp only [step, h.available_of_rest hr]

/-- An event that comes to a writer at rest leaves it there. -/
theorem event_rest (h : Inv w) (hr : AtRest w) :
    Ends (fun v => Inv v ∧ AtRest v) (fun _ => False) (w.step .event) := by
  simp only [step, h.available_of_rest hr, Option.isSome_none, Bool.false_eq_true, if_false]
  split
  · next hwatcher =>
    cases h.phase with
    | initialized _ hnone => simp [hnone] at hwatcher
    | enabled hname _ hidle =>
      unfold continueWrite setWatcher
      rw [hname, hwatcher]
      exact ⟨⟨h.justified, h.stopped, .enabled rfl rfl
        ⟨hidle.queue, hidle.atEnd, hidle.available, hidle.sent, hidle.requested⟩⟩, by simp [AtRest]⟩
    | busy b hbusy =>
      rcases hbusy.phase with ⟨hname, -⟩ | ⟨hname, -⟩
      · exact absurd hname hr.1
      · exact absurd hname hr.2
    | finished hover => simp [hover.watcher] at hwatcher
  · exact ⟨h, hr⟩

/-- The socket becomes ready, and a busy writer calls `sendmsg`. -/
theorem event_busy {b : Buffer} (h : Inv w)
    (ha : w.available = some (b.size - b.index) ∨ w.available = none ∧ w.watcher = some true) :
    Ends (Sending w) (fun _ => False) (w.step .event) := by
  rcases ha with ha | ⟨ha, hwatcher⟩
  · simp only [step, ha, Option.isSome_some, if_true]
    exact ⟨h, .inr ⟨by simp [ha], rfl⟩⟩
  · simp only [step, ha, hwatcher, Option.isSome_none, Bool.false_eq_true, if_false, if_true]
    exact event_ends h (by simp [hwatcher])

theorem Sending.send_ends {v : Writer} (h : Sending w v) (r : SendResult) :
    Ends (Served r w) (fun _ => False) (v.step (.send r)) := by
  obtain ⟨hinv, hrest | ⟨havailable, hmarks⟩⟩ := h
  · rw [send_rest hinv hrest]
    exact ⟨hinv, .inl hrest⟩
  · rcases hinv.rest_or_attended with hrest | ⟨b, hbusy, hleft, ha | ⟨ha, -⟩⟩
    · simp [hinv.available_of_rest hrest] at havailable
    · have hdone := sendDone_ends (r := r) hinv hbusy hleft
      simp only [step, ha]
      exact hdone.mono (fun _ hs => ⟨hs.1, hmarks ▸ hs.2⟩) fun _ he => he
    · simp [ha] at havailable

/-- The socket becomes ready, and `sendmsg` returns. -/
theorem turn_left {n : Nat} (h : Left n w) (r : SendResult) :
    Ends (Left (n - r.isSent.toNat)) (fun _ => False) (w.step .event >>= fun v => v.step (.send r)) := by
  obtain ⟨hinv, hn⟩ := h
  rcases hinv.rest_or_attended with hrest | ⟨b, hbusy, -, ha⟩
  · refine (event_rest hinv hrest).bind fun v hv => ?_
    rw [send_rest hv.1 hv.2]
    exact ⟨hv.1, .inl hv.2⟩
  · refine (event_busy hinv ha).bind fun v hv => ?_
    refine (hv.send_ends r).mono (fun u hu => ⟨hu.1, hu.2.imp_right fun hu => ?_⟩) fun _ he => he
    have hname : ¬ AtRest w := fun hr => hbusy.phase.elim (fun hp => hr.1 hp.1) fun hp => hr.2 hp.1
    have := hn.resolve_left hname
    omega

/-- A writer that is served often enough comes to rest. -/
theorem serve_left {n : Nat} (h : Left n w) (rs : List SendResult) :
    Ends (Left (n - rs.countP SendResult.isSent)) (fun _ => False) (run step w (serve rs)) := by
  induction rs generalizing w n with
  | nil => exact h
  | cons r rs ih =>
    have hcount : n - (r :: rs).countP SendResult.isSent =
        n - r.isSent.toNat - rs.countP SendResult.isSent := by
      rw [List.countP_cons]
      cases r.isSent
      all_goals simp
      omega
    have hrun : run step w (serve (r :: rs)) =
        ((w.step .event >>= fun v => v.step (.send r)) >>= fun v => run step v (serve rs)) := by
      change run step w ([.event] ++ ([.send r] ++ serve rs)) = _
      simp only [run_append, run_singleton, bind_assoc]
    rw [hcount, hrun]
    exact (turn_left h r).bind fun v hv => ih hv

end Writer

theorem Writer.inv_create : Writer.create.Inv :=
  ⟨Justified.nil, by simp [Writer.create], .initialized rfl rfl
    ⟨fun _ => rfl, rfl, rfl, ⟨rfl, rfl⟩, by simp [Writer.Requested, Writer.create]⟩⟩

theorem Writer.Inv.intact {w : Writer} (h : w.Inv) : w.Intact := by
  obtain ⟨hj, -, hphase⟩ := h
  cases hphase with
  | initialized hname _ hidle =>
    have hsent := hidle.sent
    simp only [Sent, List.append_nil] at hsent
    exact ⟨hsent.1 ▸ List.prefix_rfl, hsent.2 ▸ List.prefix_rfl, hj, by simp [hname], by simp [hname],
      by simp [hname], by simp [hname], by simp [hname], by simp [hname],
      fun n hn => absurd ⟨n, hn⟩ hidle.requested⟩
  | enabled hname _ hidle =>
    have hsent := hidle.sent
    simp only [Sent, List.append_nil] at hsent
    exact ⟨hsent.1 ▸ List.prefix_rfl, hsent.2 ▸ List.prefix_rfl, hj,
      fun _ => ⟨decide_eq_true hidle.atEnd, hsent⟩, by simp [hname], by simp [hname],
      by simp [hname], by simp [hname], by simp [hname], fun n hn => absurd ⟨n, hn⟩ hidle.requested⟩
  | busy b hbusy hleft hattended =>
    have hname : w.name = .writing ∨ w.name = .stopping :=
      hbusy.phase.imp (fun hp => hp.1) fun hp => hp.1
    have hne : ∀ n, n ≠ .writing → n ≠ .stopping → w.name ≠ n := by
      rintro n h1 h2 rfl
      exact hname.elim h1 h2
    refine ⟨⟨_, hbusy.sent.1⟩, ⟨_, hbusy.sent.2⟩, hj, fun hn => absurd hn (hne _ (by simp) (by simp)),
      fun _ => hattended.imp (fun ha => by simp [ha]) fun ha => ha.2,
      fun _ => ⟨fun hend => hbusy.not_atEnd (of_decide_eq_true hend), fun heq => ?_⟩,
      fun hn => ?_, fun hn => absurd hn (hne _ (by simp) (by simp)),
      fun hn => absurd hn (hne _ (by simp) (by simp)),
      fun n hn => .inl (hbusy.requested_stopping ⟨n, hn⟩)⟩
    · have hlen := hbusy.sent.length
      rw [length_unread, heq] at hlen
      omega
    · rcases hn with hn | hn
      · exact absurd hn (hne _ (by simp) (by simp))
      · exact absurd hn (hne _ (by simp) (by simp))
  | finished hover =>
    obtain ⟨rest, hsent⟩ := hover.sent
    have hreleased : released w.marks = (written w.marks).map Buffer.address := by
      simpa using hsent.2
    have hbusy : ¬ (w.name = .writing ∨ w.name = .stopping) := by
      rcases hover.name with hn | hn
      all_goals simp [hn]
    have henabled : w.name ≠ .enabled := by
      rcases hover.name with hn | hn
      all_goals simp [hn]
    exact ⟨⟨rest, hsent.1⟩, hreleased ▸ List.prefix_rfl, hj, fun hn => absurd hn henabled,
      fun hn => absurd hn hbusy, fun hn => absurd hn hbusy, fun _ => hreleased, hover.failed,
      hover.stopped, fun n hn => .inr (hover.requested ⟨n, hn⟩)⟩

/-- The writer gets there: once the socket has become ready often enough and has taken bytes each time,
nothing is being written. -/
theorem Writer.Inv.served {w : Writer} (h : w.Inv) {rs : List SendResult}
    (hrs : unsent w.marks ≤ rs.countP SendResult.isSent) :
    Ends (fun v => v.Intact ∧ v.AtRest) (fun _ => False) (run Writer.step w (serve rs)) := by
  have hserve := Writer.serve_left ⟨h, .inr (Nat.le_refl _)⟩ rs
  rw [Nat.sub_eq_zero_of_le hrs] at hserve
  exact hserve.mono (fun v hv => ⟨hv.1.intact, Writer.Left.rest hv⟩) fun _ he => he

/-- **The writer keeps the stream intact**: whatever the socket takes of each buffer and whenever,
whatever events come, with a stop and aborts at any time, no operation stops the process; at every state
what the socket took is the beginning of what was written, and a socket that goes on taking bytes brings
the writer to rest. -/
theorem writer_stream_integrity (is : List WriterInput)
    (h : RunMeets Writer.step Writer.Permitted Writer.create is) :
    Ends (fun w => w.Intact ∧ ∀ rs, unsent w.marks ≤ rs.countP SendResult.isSent →
        Ends (fun v => v.Intact ∧ v.AtRest) (fun _ => False) (run Writer.step w (serve rs)))
      (fun _ => False) (run Writer.step Writer.create is) := by
  have hrun := run_ends (fun w i (hw : w.Inv) hi => Writer.step_ends hw i hi) is _ Writer.inv_create h
  exact hrun.mono (fun w hw => ⟨hw.intact, fun _ hrs => hw.served hrs⟩) fun _ he => he

/-- Three bytes: the socket takes one and would block, the writer is stopped, and an event brings the
rest. -/
def slowWrite : List WriterInput :=
  [.enable, .write (some (Buffer.received [1, 2, 3])), .send (.sent 0), .send .again, .stop, .event,
    .send (.sent 5)]

theorem writer_stream_integrity_slow :
    (run Writer.step Writer.create slowWrite).toOption.map
        (fun w => (w.name, accepted w.marks, released w.marks)) = some (.stopped, [1, 2, 3], [1]) ∧
    Ends (fun w => w.Intact ∧ ∀ rs, unsent w.marks ≤ rs.countP SendResult.isSent →
        Ends (fun v => v.Intact ∧ v.AtRest) (fun _ => False) (run Writer.step w (serve rs)))
      (fun _ => False) (run Writer.step Writer.create slowWrite) :=
  ⟨by decide +kernel, writer_stream_integrity slowWrite (by decide +kernel)⟩

end Amqp.Stream
