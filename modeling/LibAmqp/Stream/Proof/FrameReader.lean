import LibAmqp.Stream.FrameReader
import LibAmqp.Stream.Proof.Session

/-!
# The frame reader cuts the stream into frames

`ideal_frames`: what the frame reader does when the stream is delivered in one piece, by induction over
the frames. With the simulation of `Stream.Proof.Session` it does the same however the stream is cut.
-/

namespace Amqp.Stream

open Lib

/-! ## The application of a session -/

section
variable {κ σ : Type} {p : Program κ σ}

/-- The trace of a reader grows. -/
def Grows (s : Reader κ) (r : Except (ReaderCrash κ) (Reader κ)) : Prop :=
  Ends (fun s' => s.marks <+: s'.marks) (fun _ => True) r

namespace Reader

variable {s s1 : Reader κ}

theorem Grows.of_eq {r : Except (ReaderCrash κ) (Reader κ)} (h : s1.marks = s.marks)
    (hr : Grows s1 r) : Grows s r := by
  unfold Grows at *
  rwa [h] at hr

theorem grows_ok (h : s1.marks = s.marks) : Grows s (.ok s1) := ⟨[], by simp [h]⟩

theorem grows_enter {m : ReadMark κ} {after : Return} (h : s1.marks = s.marks) :
    Grows s (.ok (s1.enter m after)) := ⟨[m], by simp [enter, h]⟩

theorem callReadCallback_grows (after : Return) : Grows s (s.callReadCallback after) := by
  unfold callReadCallback
  split
  · exact grows_enter rfl
  · trivial

theorem setWatcher_grows (started : Bool) : Grows s (s.setWatcher started) := by
  unfold setWatcher
  split
  · exact grows_ok rfl
  · trivial

theorem readLoop_grows (needed : Nat) (after : Return) : Grows s (s.readLoop needed after) := by
  unfold readLoop
  split
  · exact grows_ok rfl
  · exact callReadCallback_grows (s := { s with needed := none }) after

theorem readWhatIsBuffered_grows (after : Return) : Grows s (s.readWhatIsBuffered after) := by
  unfold readWhatIsBuffered
  split
  · exact readLoop_grows _ after
  · trivial

theorem delayedReadWhileReading_grows : Grows s s.delayedReadWhileReading := by
  unfold delayedReadWhileReading
  split
  · exact readWhatIsBuffered_grows (s := { s with name := .reading }) _
  · exact grows_ok rfl

theorem readerFail_grows : Grows s s.readerFail := by
  unfold readerFail setWatcher
  split
  · exact grows_enter rfl
  · trivial

theorem readEof_grows : Grows s s.readEof := by
  unfold readEof
  split
  · unfold setWatcher
    split
    · exact grows_enter rfl
    · trivial
  · exact callReadCallback_grows (s := { s with name := .eof }) _

theorem fail_grows : Grows s s.fail := by
  unfold fail
  split
  · exact readerFail_grows
  · exact readerFail_grows
  · trivial

theorem readvDone_grows (needed : Nat) (after : Return) (r : ReadvResult) :
    Grows s (s.readvDone needed after r) := by
  unfold readvDone
  split
  · trivial
  · refine Ends.bind (p := fun _ => True) (by unfold Ends; split <;> trivial) ?_
    intro _ _
    dsimp only
    split
    · refine Ends.bind (p := fun _ => True) (by unfold Ends; split <;> trivial) ?_
      intro b _
      exact readLoop_grows (s := { s with readvs := _, buffer := some b, satisfied := _ }) _ _
    · exact setWatcher_grows (s := { s with readvs := _, needed := none }) _
    · exact readEof_grows (s := { s with readvs := _, needed := none })
    · exact readEof_grows (s := { s with readvs := _, needed := none })
    · exact fail_grows (s := { s with readvs := _, needed := none })

theorem enable_grows : Grows s s.enable := by
  unfold enable
  split
  · split
    · exact grows_ok rfl
    · trivial
  · trivial

theorem commenceRead_grows (r : Request κ) : Grows s (s.commenceRead r) := by
  unfold commenceRead
  split
  · exact readWhatIsBuffered_grows (s := queueReadOperation r { s with name := .reading }) _
  · split
    · exact grows_ok rfl
    · trivial
  · exact callReadCallback_grows
      (s := { s with name := .eofAlerted, satisfied := 0, callback := some r.callback }) _
  · trivial

theorem continueRead_grows : Grows s s.continueRead := by
  unfold continueRead
  split
  · exact setWatcher_grows _
  · unfold setWatcher
    split
    · exact readWhatIsBuffered_grows (s := { s with watcher := some false }) _
    · trivial
  · trivial

theorem step_grows (i : ReaderInput κ) : Grows s (s.step i) := by
  unfold step
  split
  · split
    · exact readvDone_grows _ _ _
    · exact grows_ok rfl
  · cases i with
    | enable => exact enable_grows
    | commenceRead r => exact commenceRead_grows r
    | reset =>
      dsimp only [reset, setWatcher]
      split
      · exact enable_grows
      · split
        · exact grows_ok rfl
        · trivial
      · exact grows_ok rfl
      · exact grows_ok rfl
    | stop =>
      dsimp only [stop, readerStop, setWatcher]
      split
      · exact grows_ok rfl
      · split
        · exact grows_ok rfl
        · trivial
      · split
        · exact grows_ok rfl
        · trivial
      · exact grows_ok rfl
    | fail => exact fail_grows
    | event =>
      dsimp only
      split
      · exact continueRead_grows
      · exact grows_ok rfl
    | readv r => exact grows_ok rfl
    | callbackReturns =>
      dsimp only
      split
      · next after returns _ =>
        cases after with
        | completing =>
          dsimp only [resume, delayedRead]
          split
          · exact delayedReadWhileReading_grows (s := { s with returns := returns })
          · exact grows_ok rfl
        | looping => exact delayedReadWhileReading_grows (s := { s with returns := returns })
        | leaving => exact grows_ok rfl
      · exact grows_ok rfl

end Reader

theorem Program.after_append : ∀ (marks news : List (ReadMark κ)) (a : σ),
    p.after a (marks ++ news) = p.after (p.after a marks) news
  | [], _, _ => rfl
  | .called _ _ _ :: marks, news, _ => Program.after_append marks news _
  | .connectionFailed :: marks, news, _ => Program.after_append marks news _

theorem Session.absorb_app : ∀ (news : List (ReadMark κ)) (s : Session κ σ),
    (news.foldl (Session.absorb p) s).app = p.after s.app news ∧
      (news.foldl (Session.absorb p) s).reader = s.reader
  | [], _ => ⟨rfl, rfl⟩
  | .called _ _ _ :: news, _ => Session.absorb_app news _
  | .connectionFailed :: news, _ => Session.absorb_app news _

/-- The application has seen what is in the trace. -/
def Session.Follows (p : Program κ σ) (a : σ) (s : Session κ σ) : Prop :=
  s.app = p.after a s.reader.marks

theorem Session.advance_follows {a : σ} {s : Session κ σ} (h : s.Follows p a) (i : ReaderInput κ) :
    Ends (Session.Follows p a) (fun _ => True) (s.advance p i) := by
  refine Ends.bind (Reader.step_grows i) ?_
  rintro reader ⟨news, hnews⟩
  have happ := Session.absorb_app (p := p) news { s with reader := reader }
  rw [← hnews, List.drop_left]
  change _ = _
  rw [happ.1, happ.2]
  change p.after s.app news = p.after a reader.marks
  rw [h, ← Program.after_append, hnews]

theorem Session.step_follows {a : σ} {s : Session κ σ} (h : s.Follows p a) (i : SessionInput) :
    Ends (Session.Follows p a) (fun _ => True) (s.step p i) := by
  cases i with
  | event => exact Session.advance_follows h _
  | readv n =>
    dsimp only [Session.step]
    split
    · refine Session.advance_follows ?_ _
      exact h
    · exact h
  | move =>
    dsimp only [Session.step]
    split
    · exact h
    split
    · refine Session.advance_follows ?_ _
      exact h
    · refine Session.advance_follows ?_ _
      exact h
    · exact h

theorem Session.play_follows (a : σ) (r : Request κ) (stream : List UInt8) (is : List SessionInput) :
    Ends (Session.Follows p a) (fun _ => True) (Session.play p a r stream is) := by
  have hstart : Ends (Session.Follows p a) (fun _ => True) (Session.start p a r stream) := by
    exact Session.advance_follows (s := ⟨{ Reader.create with watcher := some false, name := .enabled }, a, [],
      stream⟩) rfl _
  refine Ends.bind hstart ?_
  intro s hs
  exact run_ends (c := fun _ _ => True) (fun s i h _ => Session.step_follows h i) is s hs
    (RunMeets.true is s)

/-- A run of an application that does not read on after the second notice of the end: at every state
what was called is the first part of what is called when the stream is delivered in one piece, at rest
it is all of it, and however the rest of the stream is cut the reader comes to rest. -/
theorem Session.play_ideal {a : σ} {r : Request κ} {stream : List UInt8} (hfits : p.FitsAlong a r stream)
    (hending : (p.ideal a r stream).2 ≠ .fatal) (is : List SessionInput) :
    Ends
      (fun s => s.app = p.after a s.reader.marks ∧ s.reader.marks <+: (p.ideal a r stream).1 ∧
        (s.AtRest → s.reader.marks = (p.ideal a r stream).1) ∧
        ∀ sizes, ∃ k, Ends Session.AtRest (fun _ => False) (s.drive p sizes k))
      (fun _ => False) (Session.play p a r stream is) := by
  have hsim := Session.play_sim hfits is
  have hfollows := Session.play_follows (p := p) a r stream is
  cases hplay : Session.play p a r stream is with
  | error e =>
    rw [hplay] at hsim
    exact hending hsim.2
  | ok s =>
    rw [hplay] at hsim hfollows
    obtain ⟨μ, hμ⟩ := hsim
    refine ⟨hfollows, hμ.isPrefix, fun hrest => (hμ.atRest hrest).1, fun sizes => ?_⟩
    obtain ⟨k, hk⟩ := hμ.drive μ sizes
    exact ⟨k, hk.mono (fun _ h => h) fun e he => hending he.2⟩

end

/-! ## Delivery in one piece -/

theorem bytes_append_reset {b : Buffer} {bytes : List UInt8} {n : Nat} (h : n ≤ bytes.length) :
    ((FrameReader.resetBuffer b).append bytes).bytes 0 n = bytes.take n := by
  have happend := (Buffer.append_writes (FrameReader.resetBuffer b) bytes).appends.bytes
  have hsplit := Buffer.bytes_add ((FrameReader.resetBuffer b).append bytes) 0 n (bytes.length - n)
  rw [Nat.add_sub_cancel' h] at hsplit
  change Buffer.bytes _ 0 bytes.length = bytes at happend
  rw [happend] at hsplit
  conv_rhs => rw [hsplit]
  rw [List.take_left' (Buffer.length_bytes _ _ _)]

theorem Program.FitsAlong.of_next {κ σ : Type} {p : Program κ σ} {a : σ} {r : Request κ}
    {got rest : List UInt8} (fits : r.Fits) (hgot : got.length = r.required)
    (next : ∀ a' r', p.react a r.callback (some (r.buffer.append got)) r.required = (a', some r') →
      p.FitsAlong a' r' rest) : p.FitsAlong a r (got ++ rest) := by
  refine .intro fits fun _ => ?_
  rw [← hgot, List.take_left, List.drop_left]
  intro b r' hr'
  rw [hgot] at hr' ⊢
  exact next _ r' (Prod.ext rfl hr')

namespace FrameReader

variable {maxFrameSize capacity : Nat}

/-- What is left to show of a stream, from a header on. -/
def Cuts (f : FrameReader) (r : Request Unit) (stream : List UInt8) (seen : List Seen) : Prop :=
  program.FitsAlong f r stream ∧ (program.ideal f r stream).2 ≠ .fatal ∧
    ((program.after f (program.ideal f r stream).1).events.map FrameEvent.seen =
      f.events.map FrameEvent.seen ++ seen)

/-- One read, and what follows. -/
theorem Cuts.of_next {f f' : FrameReader} {r r' : Request Unit} {got rest : List UInt8} {seen : List Seen}
    (fits : r.Fits) (hgot : got.length = r.required)
    (hreact : f.readDone (some (r.buffer.append got)) r.required = (f', some r'))
    (h : Cuts f' r' rest seen) {u : List Seen}
    (hevents : f'.events.map FrameEvent.seen = f.events.map FrameEvent.seen ++ u) :
    Cuts f r (got ++ rest) (u ++ seen) := by
  obtain ⟨hfits, hending, hseen⟩ := h
  have hreact' : program.react f r.callback (some (r.buffer.append got)) r.required = (f', some r') := hreact
  refine ⟨.of_next fits hgot fun a' r'' ha => ?_, ?_, ?_⟩
  · rw [hreact'] at ha
    cases ha
    exact hfits
  · rw [Program.ideal_complete fits.required_pos hgot, hreact']
    exact hending
  · rw [Program.ideal_complete fits.required_pos hgot, hreact']
    change ((program.after (program.react f r.callback (some (r.buffer.append got)) r.required).1 _).events.map
      _) = _
    rw [hreact', ← List.append_assoc, ← hevents]
    exact hseen

/-- The last read. -/
theorem Cuts.of_last {f f' : FrameReader} {r : Request Unit} {got rest : List UInt8} {seen : List Seen}
    (fits : r.Fits) (hgot : got.length = r.required)
    (hreact : f.readDone (some (r.buffer.append got)) r.required = (f', none))
    (hevents : f'.events.map FrameEvent.seen = f.events.map FrameEvent.seen ++ seen) :
    Cuts f r (got ++ rest) seen := by
  have hreact' : program.react f r.callback (some (r.buffer.append got)) r.required = (f', none) := hreact
  refine ⟨.of_next fits hgot fun a' r'' ha => ?_, ?_, ?_⟩
  · rw [hreact'] at ha
    cases ha
  · rw [Program.ideal_complete fits.required_pos hgot, hreact']
    simp
  · rw [Program.ideal_complete fits.required_pos hgot, hreact']
    change ((program.react f r.callback (some (r.buffer.append got)) r.required).1.events.map _) = _
    rw [hreact']
    exact hevents

theorem headerRequest_fits {b : Buffer} (h : amqpFrameHeaderSizeInBytes ≤ b.capacity) :
    (headerRequest b).Fits := ⟨Nat.succ_pos 7, h⟩

/-- What a frame reader does with a header. -/
theorem readDone_header {f : FrameReader} {b : Buffer} {header : List UInt8}
    (hname : f.name = .readingFrameHeader) (hlen : header.length = amqpFrameHeaderSizeInBytes) :
    f.readDone (some ((headerRequest b).buffer.append header)) (headerRequest b).required =
      if ¬ AcceptableSize f.maxFrameSize (sizeField header) then
        ({ f with frameSize := sizeField header }.emit .connectionFailed, none)
      else if sizeField header = amqpFrameHeaderSizeInBytes then
        { f with frameSize := sizeField header }.frameAvailable ((resetBuffer b).append header)
      else ({ f with frameSize := sizeField header, name := .readingFrameBody },
        some ⟨(resetBuffer b).append header, sizeField header - amqpFrameHeaderSizeInBytes, ()⟩) := by
  have hsize : ofBigEndian (((resetBuffer b).append header).bytes 0 4) = sizeField header := by
    rw [bytes_append_reset (by rw [hlen]; decide)]
    rfl
  have hiff : (f.maxFrameSize ≤ sizeField header ∨ sizeField header < amqpFrameHeaderSizeInBytes ∨
      sizeField header = Amqp.FrameReader.amqpProtocolHeader) ↔
      ¬ AcceptableSize f.maxFrameSize (sizeField header) := by
    unfold AcceptableSize
    omega
  have hdone : f.readDone (some ((resetBuffer b).append header)) amqpFrameHeaderSizeInBytes =
      f.readDoneWhileReadingFrameHeader (some ((resetBuffer b).append header)) amqpFrameHeaderSizeInBytes := by
    unfold readDone
    rw [hname]
  refine hdone.trans ?_
  unfold readDoneWhileReadingFrameHeader
  rw [if_neg (by decide), if_neg (by simp)]
  dsimp only
  rw [hsize]
  by_cases hacc : AcceptableSize f.maxFrameSize (sizeField header)
  · rw [if_neg fun h => hiff.1 h hacc, if_neg (not_not_intro hacc)]
  · rw [if_pos (hiff.2 hacc), if_pos hacc]

/-- A frame is available. -/
theorem readDone_body {f : FrameReader} {b : Buffer} (hname : f.name = .readingFrameBody) :
    f.readDone (some b) (f.frameSize - amqpFrameHeaderSizeInBytes) = f.frameAvailable b := by
  have hdone : f.readDone (some b) (f.frameSize - amqpFrameHeaderSizeInBytes) =
      f.readDoneWhileReadingFrameBody (some b) (f.frameSize - amqpFrameHeaderSizeInBytes) := by
    unfold readDone
    rw [hname]
  refine hdone.trans ?_
  unfold readDoneWhileReadingFrameBody
  rw [if_neg (by simp)]

theorem seen_available (b : Buffer) (frame : List UInt8) :
    (FrameEvent.available ((resetBuffer b).append frame)).seen = .frame 0 frame.length frame := by
  have hbytes := bytes_append_reset (b := b) (Nat.le_refl frame.length)
  rw [List.take_length] at hbytes
  change Seen.frame 0 (0 + frame.length) (Buffer.bytes _ 0 (0 + frame.length)) = _
  rw [Nat.zero_add, hbytes]

theorem sizeField_append {header rest : List UInt8} (h : header.length = amqpFrameHeaderSizeInBytes) :
    sizeField (header ++ rest) = sizeField header := by
  unfold sizeField
  rw [List.take_append_of_le_length (by rw [h]; decide)]

/-- One frame, and what follows. -/
theorem frame_cuts {f : FrameReader} {b : Buffer} {frame rest : List UInt8} {seen : List Seen}
    (hname : f.name = .readingFrameHeader) (hframe : IsFrame f.maxFrameSize b.capacity frame)
    (h : ∀ (f' : FrameReader) (b' : Buffer), f'.name = .readingFrameHeader →
      f'.maxFrameSize = f.maxFrameSize → b'.capacity = b.capacity →
      Cuts f' (headerRequest b') rest seen) :
    Cuts f (headerRequest b) (frame ++ rest) (.frame 0 frame.length frame :: seen) := by
  have hlen : (frame.take amqpFrameHeaderSizeInBytes).length = amqpFrameHeaderSizeInBytes := by
    rw [List.length_take]
    exact Nat.min_eq_left hframe.acceptable.1
  have hsplit : frame = frame.take amqpFrameHeaderSizeInBytes ++ frame.drop amqpFrameHeaderSizeInBytes :=
    (List.take_append_drop _ _).symm
  have hsize : sizeField (frame.take amqpFrameHeaderSizeInBytes) = frame.length := by
    rw [← hframe.size]
    conv_rhs => rw [hsplit, sizeField_append hlen]
  have hfits : (headerRequest b).Fits :=
    headerRequest_fits (Nat.le_trans hframe.acceptable.1 hframe.fits)
  have hheader := readDone_header (b := b) hname hlen
  rw [hsize, if_neg (not_not_intro hframe.acceptable)] at hheader
  by_cases h8 : frame.length = amqpFrameHeaderSizeInBytes
  · -- the header is all there is
    have hwhole : frame.take amqpFrameHeaderSizeInBytes = frame := List.take_of_length_le (by omega)
    rw [if_pos h8, hwhole] at hheader
    refine Cuts.of_next (u := [_]) hfits h8 hheader (h _ _ rfl rfl rfl) ?_
    simp [emit, seen_available]
  · rw [if_neg h8] at hheader
    have hbody : (frame.drop amqpFrameHeaderSizeInBytes).length =
        frame.length - amqpFrameHeaderSizeInBytes := List.length_drop
    have hacc := hframe.acceptable.1
    have hcap := hframe.fits
    rw [hsplit, List.append_assoc]
    rw [← hsplit]
    have hdone := readDone_body
      (f := { f with frameSize := frame.length, name := .readingFrameBody })
      (b := ((resetBuffer b).append (frame.take amqpFrameHeaderSizeInBytes)).append
        (frame.drop amqpFrameHeaderSizeInBytes)) rfl
    refine Cuts.of_next (u := []) hfits hlen hheader ?_ (by simp)
    refine Cuts.of_next (u := [_]) (r := ⟨(resetBuffer b).append _, _, ()⟩) ⟨?_, ?_⟩ hbody hdone
      (h _ _ rfl rfl rfl) ?_
    · simp only
      omega
    · simp only [Buffer.append, resetBuffer, hlen]
      omega
    · rw [Buffer.append_append, ← hsplit]
      simp [emit, seen_available]

/-- **Delivery in one piece**: frame after frame, up to the end of the stream or a header that is not
acceptable. -/
theorem ideal_frames {tail : List UInt8} (htail : Finish maxFrameSize tail) :
    ∀ {frames : List (List UInt8)}, (∀ f ∈ frames, IsFrame maxFrameSize capacity f) →
    ∀ (f : FrameReader) (b : Buffer), f.name = .readingFrameHeader → f.maxFrameSize = maxFrameSize →
      b.capacity = capacity → amqpFrameHeaderSizeInBytes ≤ capacity →
      Cuts f (headerRequest b) (frames.flatten ++ tail) (cut frames tail) := by
  intro frames
  induction frames with
  | nil =>
    intro _ f b hname hmax hcapacity hcap
    have hfits : (headerRequest b).Fits := headerRequest_fits (by omega)
    have hpos := hfits.required_pos
    rcases htail with rfl | ⟨hlen, hbad⟩
    · -- the stream ends
      have hreact : program.react f () (some (headerRequest b).buffer) 0 =
          (f.emit .connectionShutdown, none) := by
        change readDone _ _ _ = _
        unfold readDone
        rw [hname]
        rfl
      have hideal : program.ideal f (headerRequest b) [] =
          ([.called () (some (headerRequest b).buffer) 0], .idle) := by
        rw [Program.ideal_eof hpos, Program.idealEof]
        simp only [show (headerRequest b).callback = () from rfl, hreact]
      rw [List.flatten_nil, List.nil_append]
      refine ⟨.intro hfits fun hle => absurd hle (by simp [headerRequest, amqpFrameHeaderSizeInBytes]), ?_, ?_⟩
      · rw [hideal]
        simp
      · rw [hideal]
        change ((program.react f () (some (headerRequest b).buffer) 0).1.events.map _) = _
        rw [hreact]
        simp [emit, cut, FrameEvent.seen]
    · have hne : tail ≠ [] := by
        rintro rfl
        simp [amqpFrameHeaderSizeInBytes] at hlen
      have hheaderLen : (tail.take amqpFrameHeaderSizeInBytes).length = amqpFrameHeaderSizeInBytes := by
        rw [List.length_take]
        exact Nat.min_eq_left hlen
      have hsplit : tail = tail.take amqpFrameHeaderSizeInBytes ++ tail.drop amqpFrameHeaderSizeInBytes :=
        (List.take_append_drop _ _).symm
      have hsize : sizeField (tail.take amqpFrameHeaderSizeInBytes) = sizeField tail := by
        conv_rhs => rw [hsplit, sizeField_append hheaderLen]
      have hheader := readDone_header (b := b) hname hheaderLen
      rw [hsize, hmax, if_pos hbad] at hheader
      rw [List.flatten_nil, List.nil_append, hsplit]
      refine Cuts.of_last hfits hheaderLen hheader ?_
      rw [← hsplit]
      simp [emit, cut, FrameEvent.seen, hne]
  | cons frame frames ih =>
    intro hframes f b hname hmax hcapacity hcap
    subst hmax hcapacity
    rw [List.flatten_cons, List.append_assoc]
    refine frame_cuts hname (hframes frame (by simp)) ?_
    intro f' b' hname' hmax' hcapacity'
    exact ih (fun x hx => hframes x (by simp [hx])) f' b' hname' hmax' hcapacity' hcap

/-! ## Every run -/

theorem readDone_events (f : FrameReader) (buffer : Option Buffer) (amount : Nat) :
    f.events <+: (f.readDone buffer amount).1.events := by
  have hemit : ∀ (f' : FrameReader) (e : FrameEvent), f'.events = f.events → f.events <+: (f'.emit e).events :=
    fun f' e h => ⟨[e], by simp [emit, h]⟩
  unfold readDone
  split
  · unfold readDoneWhileReadingFrameHeader
    split
    · exact hemit _ _ rfl
    split
    · exact hemit _ _ rfl
    split
    · exact hemit _ _ rfl
    dsimp only
    split
    · exact hemit { f with frameSize := _ } _ rfl
    split
    · exact hemit { f with frameSize := _, name := .enabled } _ rfl
    · exact List.prefix_rfl
  · unfold readDoneWhileReadingFrameBody
    split
    · exact hemit _ _ rfl
    split
    · exact hemit _ _ rfl
    · exact hemit { f with name := .enabled } _ rfl
  · exact hemit _ _ rfl

theorem after_events : ∀ (marks : List (ReadMark Unit)) (f : FrameReader),
    f.events <+: (program.after f marks).events
  | [], _ => List.prefix_rfl
  | .called _ buffer amount :: marks, f =>
    (readDone_events f buffer amount).trans (after_events marks (f.readDone buffer amount).1)
  | .connectionFailed :: marks, f => after_events marks f

/-- Frames that are acceptable and fit the buffer are all made available. -/
theorem takes {b : Buffer} (hb : amqpFrameHeaderSizeInBytes ≤ b.capacity) {frames : List (List UInt8)}
    (hframes : ∀ f ∈ frames, IsFrame maxFrameSize b.capacity f) {tail : List UInt8}
    (htail : Finish maxFrameSize tail) : Takes b maxFrameSize frames tail := by
  intro is
  obtain ⟨hfits, hending, hseen⟩ := ideal_frames htail hframes (create maxFrameSize) b rfl rfl rfl hb
  refine (Session.play_ideal hfits hending is).mono ?_ fun _ he => he
  rintro s ⟨hfollows, ⟨rest, hprefix⟩, hall, hdrive⟩
  refine ⟨?_, fun hrest => ?_, hdrive⟩
  · have hafter := after_events rest s.app
    rw [hfollows, ← Program.after_append, hprefix] at hafter
    rw [hfollows]
    exact (hafter.map _).trans (hseen ▸ List.prefix_rfl)
  · rw [hfollows, hall hrest]
    exact hseen

end FrameReader

/-- **The frame reader cuts the stream into frames**: however the stream is delivered, at every state of
every run what was made available are the first of its frames, each in the buffer from its start on,
and then the connection is shut down at the end of the stream, or fails at a header that is not
acceptable. All of it has happened when the reader is at rest, and however the rest of the stream is
cut it comes to rest. -/
theorem frame_reader_cuts_stream (b : Buffer) (hb : amqpFrameHeaderSizeInBytes ≤ b.capacity)
    (maxFrameSize : Nat) (frames : List (List UInt8))
    (hframes : ∀ f ∈ frames, IsFrame maxFrameSize b.capacity f) (tail : List UInt8)
    (htail : Finish maxFrameSize tail) (is : List SessionInput) :
    Ends
      (fun s => s.app.events.map FrameEvent.seen <+: cut frames tail ∧
        (s.AtRest → s.app.events.map FrameEvent.seen = cut frames tail) ∧
        ∀ sizes, ∃ k, Ends Session.AtRest (fun _ => False) (s.drive FrameReader.program sizes k))
      (fun _ => False)
      (Session.play FrameReader.program (FrameReader.create maxFrameSize) (FrameReader.headerRequest b)
        (frames.flatten ++ tail) is) :=
  FrameReader.takes hb hframes htail is

/-- An empty frame, a frame with a body of one byte, and a header with the size 1, in pieces. -/
theorem frame_reader_cuts_stream_three :
    let frames : List (List UInt8) := [[0, 0, 0, 8, 2, 0, 0, 0], [0, 0, 0, 9, 2, 0, 0, 0, 7]]
    let tail : List UInt8 := [0, 0, 0, 1, 2, 0, 0, 0]
    let is : List SessionInput := [.readv (some 4), .readv none, .event, .readv (some 9), .move, .move,
      .readv (some 9), .move, .move, .readv (some 0), .move, .move, .readv (some 7), .move]
    (Session.play FrameReader.program (FrameReader.create 512) (FrameReader.headerRequest (Buffer.received []))
      (frames.flatten ++ tail) is).toOption.map (fun s => s.app.events.map FrameEvent.seen) =
        some [.frame 0 8 [0, 0, 0, 8, 2, 0, 0, 0], .frame 0 9 [0, 0, 0, 9, 2, 0, 0, 0, 7], .failed] ∧
    Ends
      (fun s => s.app.events.map FrameEvent.seen <+: cut frames tail ∧
        (s.AtRest → s.app.events.map FrameEvent.seen = cut frames tail) ∧
        ∀ sizes, ∃ k, Ends Session.AtRest (fun _ => False) (s.drive FrameReader.program sizes k))
      (fun _ => False)
      (Session.play FrameReader.program (FrameReader.create 512)
        (FrameReader.headerRequest (Buffer.received [])) (frames.flatten ++ tail) is) := by
  intro frames tail is
  refine ⟨by decide +kernel, frame_reader_cuts_stream (Buffer.received []) (by decide) 512 frames ?_ tail
    (.inr (by decide)) is⟩
  intro f hf
  simp only [frames, List.mem_cons, List.not_mem_nil, or_false] at hf
  rcases hf with rfl | rfl
  · exact ⟨by decide, by decide, by decide⟩
  · exact ⟨by decide, by decide, by decide⟩

end Amqp.Stream
