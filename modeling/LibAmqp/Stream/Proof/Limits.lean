import LibAmqp.Connection.IO
import LibAmqp.Stream.Proof.FrameReader
import LibAmqp.Stream.Proof.Whole

/-!
# The limits of the frame reader

Three limits: the size test on a header, the `max_frame_size` of the open frame, and the capacity of the
read buffer, which never grows. A frame as large as the advertised limit fails the test, and one larger
than the buffer fails the assertion of `amqp_buffer_write_io_vec`. To show it the frames before it are
delivered one after the other (`frames_ready`).
-/

namespace Amqp.Stream

open Lib

namespace FrameReader

variable {maxFrameSize capacity : Nat}

/-- The frame reader waits for a header, in a buffer of this capacity, and has seen so much. -/
structure Expects (f : FrameReader) (b : Buffer) (maxFrameSize capacity : Nat) (seen : List Seen) :
    Prop where
  name : f.name = .readingFrameHeader
  limit : f.maxFrameSize = maxFrameSize
  capacity : b.capacity = capacity
  events : f.events.map FrameEvent.seen = seen

/-- A run to where the header of what comes next is read. -/
def Arrives (s : Session Unit FrameReader) (maxFrameSize capacity : Nat) (seen : List Seen)
    (rest : List UInt8) : Prop :=
  ∃ is s' f b, run (Session.step program) s is = .ok s' ∧ Expects f b maxFrameSize capacity seen ∧
    s'.Ready f (headerRequest b) rest

theorem Arrives.after {s s1 : Session Unit FrameReader} {is : List SessionInput} {seen : List Seen}
    {rest : List UInt8} (hrun : run (Session.step program) s is = .ok s1)
    (h : Arrives s1 maxFrameSize capacity seen rest) : Arrives s maxFrameSize capacity seen rest := by
  obtain ⟨js, s2, f, b, hrun2, hexpects, hready⟩ := h
  refine ⟨is ++ js, s2, f, b, ?_, hexpects, hready⟩
  rw [run_append, hrun]
  exact hrun2

/-- A header that is acceptable and announces a body. -/
theorem header_ready {s : Session Unit FrameReader} {f : FrameReader} {b : Buffer} {seen : List Seen}
    {frame rest : List UInt8} (h : Expects f b maxFrameSize capacity seen)
    (hready : s.Ready f (headerRequest b) (frame ++ rest)) (hcap : amqpFrameHeaderSizeInBytes ≤ capacity)
    (hsize : sizeField frame = frame.length) (hacc : AcceptableSize maxFrameSize frame.length)
    (hbody : frame.length ≠ amqpFrameHeaderSizeInBytes) :
    ∃ is s', run (Session.step program) s is = .ok s' ∧
      s'.Ready { f with frameSize := frame.length, name := .readingFrameBody }
        ⟨(resetBuffer b).append (frame.take amqpFrameHeaderSizeInBytes),
          frame.length - amqpFrameHeaderSizeInBytes, ()⟩
        (frame.drop amqpFrameHeaderSizeInBytes ++ rest) := by
  have hlen : (frame.take amqpFrameHeaderSizeInBytes).length = amqpFrameHeaderSizeInBytes := by
    rw [List.length_take]
    exact Nat.min_eq_left hacc.1
  have hsplit : frame = frame.take amqpFrameHeaderSizeInBytes ++ frame.drop amqpFrameHeaderSizeInBytes :=
    (List.take_append_drop _ _).symm
  have hfield : sizeField (frame.take amqpFrameHeaderSizeInBytes) = frame.length := by
    rw [← hsize]
    conv_rhs => rw [hsplit, sizeField_append hlen]
  have hheader := readDone_header (b := b) h.name hlen
  rw [hfield, if_neg (not_not_intro (h.limit ▸ hacc)), if_neg hbody] at hheader
  have hstream : frame ++ rest =
      frame.take amqpFrameHeaderSizeInBytes ++ (frame.drop amqpFrameHeaderSizeInBytes ++ rest) := by
    rw [← List.append_assoc, ← hsplit]
  rw [hstream] at hready
  have hmin := hacc.1
  exact hready.next (p := program) (headerRequest_fits (by rw [h.capacity]; exact hcap)).room hlen hheader
    (by simp only; omega)

/-- From one frame to the next. -/
theorem frame_ready {s : Session Unit FrameReader} {f : FrameReader} {b : Buffer} {seen : List Seen}
    {frame rest : List UInt8} (h : Expects f b maxFrameSize capacity seen)
    (hready : s.Ready f (headerRequest b) (frame ++ rest)) (hframe : IsFrame maxFrameSize capacity frame) :
    Arrives s maxFrameSize capacity (seen ++ [.frame 0 frame.length frame]) rest := by
  have hcap : amqpFrameHeaderSizeInBytes ≤ capacity := Nat.le_trans hframe.acceptable.1 hframe.fits
  by_cases h8 : frame.length = amqpFrameHeaderSizeInBytes
  · -- the header is all there is
    have hheader := readDone_header (b := b) h.name h8
    rw [hframe.size, if_neg (not_not_intro (h.limit ▸ hframe.acceptable)), if_pos h8] at hheader
    obtain ⟨is, s1, hrun, hready1⟩ := hready.next (p := program)
      (headerRequest_fits (by rw [h.capacity]; exact hcap)).room h8 hheader (Nat.succ_pos 7)
    have hevents : (f.events ++ [FrameEvent.available ((resetBuffer b).append frame)]).map
        FrameEvent.seen = seen ++ [.frame 0 frame.length frame] := by simp [h.events, seen_available]
    refine ⟨is, s1, _, _, hrun, ?_, hready1⟩
    exact ⟨rfl, h.limit, h.capacity, hevents⟩
  · obtain ⟨is, s1, hrun, hready1⟩ := header_ready h hready hcap hframe.size hframe.acceptable h8
    refine Arrives.after hrun ?_
    have hsplit : frame = frame.take amqpFrameHeaderSizeInBytes ++ frame.drop amqpFrameHeaderSizeInBytes :=
      (List.take_append_drop _ _).symm
    have hbody : (frame.drop amqpFrameHeaderSizeInBytes).length =
        frame.length - amqpFrameHeaderSizeInBytes := List.length_drop
    have hdone := readDone_body
      (f := { f with frameSize := frame.length, name := .readingFrameBody })
      (b := ((resetBuffer b).append (frame.take amqpFrameHeaderSizeInBytes)).append
        (frame.drop amqpFrameHeaderSizeInBytes)) rfl
    have hroom : frame.length - amqpFrameHeaderSizeInBytes ≤
        ((resetBuffer b).append (frame.take amqpFrameHeaderSizeInBytes)).capacity -
          ((resetBuffer b).append (frame.take amqpFrameHeaderSizeInBytes)).size := by
      have hfits := hframe.fits
      have hlow := hframe.acceptable.1
      have hcapacity := h.capacity
      simp only [Buffer.append, resetBuffer, List.length_take]
      omega
    obtain ⟨js, s2, hrun2, hready2⟩ := hready1.next (p := program) hroom hbody hdone (Nat.succ_pos 7)
    rw [Buffer.append_append, ← hsplit] at hready2
    have hevents : (f.events ++ [FrameEvent.available ((resetBuffer b).append frame)]).map
        FrameEvent.seen = seen ++ [.frame 0 frame.length frame] := by simp [h.events, seen_available]
    refine ⟨js, s2, _, _, hrun2, ?_, hready2⟩
    exact ⟨rfl, h.limit, h.capacity, hevents⟩

/-- Frame after frame. -/
theorem frames_ready : ∀ {frames : List (List UInt8)} {s : Session Unit FrameReader} {f : FrameReader}
    {b : Buffer} {seen : List Seen} {rest : List UInt8}, Expects f b maxFrameSize capacity seen →
    s.Ready f (headerRequest b) (frames.flatten ++ rest) →
    (∀ f ∈ frames, IsFrame maxFrameSize capacity f) →
    Arrives s maxFrameSize capacity (seen ++ frames.map fun f => .frame 0 f.length f) rest := by
  intro frames
  induction frames with
  | nil =>
    intro s f b seen rest h hready _
    refine ⟨[], s, f, b, rfl, ?_, hready⟩
    rw [List.map_nil, List.append_nil]
    exact h
  | cons frame frames ih =>
    intro s f b seen rest h hready hframes
    rw [List.flatten_cons, List.append_assoc] at hready
    obtain ⟨is, s1, f1, b1, hrun, h1, hready1⟩ := frame_ready h hready (hframes frame (by simp))
    have hrest := ih h1 hready1 fun x hx => hframes x (by simp [hx])
    rw [List.append_assoc] at hrest
    exact Arrives.after hrun hrest

/-- The test on the header refuses a frame: the connection fails. -/
theorem refuses_header {s : Session Unit FrameReader} {f : FrameReader} {b : Buffer}
    {seen : List Seen} {frame rest : List UInt8} (h : Expects f b maxFrameSize capacity seen)
    (hready : s.Ready f (headerRequest b) (frame ++ rest)) (hcap : amqpFrameHeaderSizeInBytes ≤ capacity)
    (hsize : sizeField frame = frame.length) (hlen : amqpFrameHeaderSizeInBytes ≤ frame.length)
    (hbad : ¬ AcceptableSize maxFrameSize frame.length) :
    ∃ s', run (Session.step program) s [.readv (some 7)] = .ok s' ∧
      s'.app.events.map FrameEvent.seen = seen ++ [.failed] := by
  have hheaderLen : (frame.take amqpFrameHeaderSizeInBytes).length = amqpFrameHeaderSizeInBytes := by
    rw [List.length_take]
    exact Nat.min_eq_left hlen
  have hsplit : frame = frame.take amqpFrameHeaderSizeInBytes ++ frame.drop amqpFrameHeaderSizeInBytes :=
    (List.take_append_drop _ _).symm
  have hfield : sizeField (frame.take amqpFrameHeaderSizeInBytes) = frame.length := by
    rw [← hsize]
    conv_rhs => rw [hsplit, sizeField_append hheaderLen]
  have hheader := readDone_header (b := b) h.name hheaderLen
  rw [hfield, if_pos (h.limit ▸ hbad)] at hheader
  have hstream : frame ++ rest =
      frame.take amqpFrameHeaderSizeInBytes ++ (frame.drop amqpFrameHeaderSizeInBytes ++ rest) := by
    rw [← List.append_assoc, ← hsplit]
  rw [hstream] at hready
  obtain ⟨s1, hs1, hanswering⟩ := hready.comes (p := program)
    (headerRequest_fits (by rw [h.capacity]; exact hcap)).room hheaderLen hheader
  refine ⟨s1, ?_, ?_⟩
  · change (Session.step program s (.readv (some 7)) >>= fun s' => .ok s') = _
    rw [show (some 7 : Option Nat) = some ((headerRequest b).required - 1) from rfl, hs1]
    rfl
  · rw [hanswering.app]
    simp [emit, h.events, FrameEvent.seen]

/-- A frame larger than the buffer: the assertion of `amqp_buffer_write_io_vec` fails. -/
theorem overruns_buffer {s : Session Unit FrameReader} {f : FrameReader} {b : Buffer}
    {seen : List Seen} {frame rest : List UInt8} (h : Expects f b maxFrameSize capacity seen)
    (hready : s.Ready f (headerRequest b) (frame ++ rest)) (hcap : amqpFrameHeaderSizeInBytes ≤ capacity)
    (hsize : sizeField frame = frame.length) (hacc : AcceptableSize maxFrameSize frame.length)
    (hlarge : capacity < frame.length) :
    ∃ is e, run (Session.step program) s is = .error e ∧ e.fault = .assertFailed := by
  obtain ⟨is, s1, hrun, hready1⟩ := header_ready h hready hcap hsize hacc (by omega)
  have hroom : ((resetBuffer b).append (frame.take amqpFrameHeaderSizeInBytes)).capacity -
      ((resetBuffer b).append (frame.take amqpFrameHeaderSizeInBytes)).size <
        frame.length - amqpFrameHeaderSizeInBytes := by
    have hcapacity := h.capacity
    simp only [Buffer.append, resetBuffer, List.length_take]
    omega
  obtain ⟨e, hstep, he⟩ := hready1.overruns (p := program) hroom
  refine ⟨is ++ [.readv none], e, ?_, he⟩
  rw [run_append, hrun]
  change (Session.step program s1 (.readv none) >>= fun s' => .ok s') = _
  rw [hstep]
  rfl

end FrameReader

/-- **The frame reader takes a frame** exactly when it is smaller than the limit that the connection
advertises, and no larger than the read buffer; whatever frames come before, whatever comes after, and
however all of it is delivered. -/
theorem frame_reader_takes_iff (b : Buffer) (hb : amqpFrameHeaderSizeInBytes ≤ b.capacity)
    (maxFrameSize : Nat) (frames : List (List UInt8))
    (hframes : ∀ f ∈ frames, IsFrame (max maxFrameSize 512) b.capacity f) (frame : List UInt8)
    (hsize : sizeField frame = frame.length) (hlen : amqpFrameHeaderSizeInBytes ≤ frame.length)
    (tail : List UInt8) (htail : Finish (max maxFrameSize 512) tail) :
    FrameReader.Takes b (max maxFrameSize 512) (frames ++ [frame]) tail ↔
      frame.length < max maxFrameSize 512 ∧ frame.length ≤ b.capacity := by
  have hprotocol : amqpBufferMaxSize < Amqp.FrameReader.amqpProtocolHeader := by decide
  have hmax := b.capacity_le
  constructor
  · intro htakes
    have hflat : (frames ++ [frame]).flatten ++ tail = frames.flatten ++ (frame ++ tail) := by simp
    unfold FrameReader.Takes at htakes
    rw [hflat] at htakes
    obtain ⟨s, hstart, hready⟩ := Session.start_ready (p := FrameReader.program)
      (a := FrameReader.create (max maxFrameSize 512)) (r := FrameReader.headerRequest b)
      (frames.flatten ++ (frame ++ tail)) (Nat.succ_pos 7)
    obtain ⟨is, s1, f1, b1, hrun, h1, hready1⟩ := FrameReader.frames_ready
      (⟨rfl, rfl, rfl, rfl⟩ : FrameReader.Expects _ b (max maxFrameSize 512) b.capacity []) hready hframes
    have hplay : ∀ js, Session.play FrameReader.program (FrameReader.create (max maxFrameSize 512))
        (FrameReader.headerRequest b) (frames.flatten ++ (frame ++ tail)) (is ++ js) =
          run (Session.step FrameReader.program) s1 js := by
      intro js
      unfold Session.play
      rw [hstart]
      change run (Session.step FrameReader.program) s (is ++ js) = _
      rw [run_append, hrun]
      rfl
    by_contra hnot
    by_cases hacc : AcceptableSize (max maxFrameSize 512) frame.length
    · have hlarge : b.capacity < frame.length := by
        have hlimit := hacc.2.1
        omega
      obtain ⟨js, e, hrun2, -⟩ := FrameReader.overruns_buffer h1 hready1 hb hsize hacc hlarge
      have hend := htakes (is ++ js)
      rw [hplay, hrun2] at hend
      exact hend
    · obtain ⟨s2, hrun2, hevents⟩ := FrameReader.refuses_header h1 hready1 hb hsize hlen hacc
      have hend := htakes (is ++ [.readv (some 7)])
      rw [hplay, hrun2] at hend
      have hpre := hend.1
      rw [hevents] at hpre
      simp [cut] at hpre
  · rintro ⟨hlimit, hfits⟩
    refine FrameReader.takes hb ?_ htail
    intro f hf
    rcases List.mem_append.mp hf with hf | hf
    · exact hframes f hf
    · rw [List.mem_singleton.mp hf]
      exact ⟨hsize, ⟨hlen, hlimit, by omega⟩, hfits⟩

/-- `buffer.read` of a new connection. -/
def readBuffer : Buffer := { Buffer.received [] with
  capacity := Amqp.Reader.capacity
  capacity_le := readCapacity_le }

/-- An empty frame, and one with a body of one byte; the configured limit is below the smallest. -/
theorem frame_reader_takes_iff_two :
    FrameReader.Takes readBuffer (max 8 512) ([[0, 0, 0, 8, 2, 0, 0, 0]] ++ [[0, 0, 0, 9, 2, 0, 0, 0, 7]]) [] ↔
      9 < max 8 512 ∧ 9 ≤ readBuffer.capacity := by
  refine frame_reader_takes_iff readBuffer (by decide) 8 [[0, 0, 0, 8, 2, 0, 0, 0]] ?_
    [0, 0, 0, 9, 2, 0, 0, 0, 7] (by decide) (by decide) [] (.inl rfl)
  intro f hf
  rw [List.mem_singleton.mp hf]
  exact ⟨by decide, by decide, by decide⟩

/-- A frame of 512 bytes, and one of 4097. -/
def smallestLimitFrame : List UInt8 := [0, 0, 2, 0, 2, 0, 0, 0] ++ List.replicate 504 0
def twoFragmentFrame : List UInt8 := [0, 0, 16, 1, 2, 0, 0, 0] ++ List.replicate 4089 0

/-- With the limit 512 a frame of 512 bytes makes the connection fail; with the limit 8192 the body of a
frame of 4097 bytes fails the assertion. -/
theorem frames_within_limit_are_not_taken :
    (sizeField smallestLimitFrame = smallestLimitFrame.length ∧ smallestLimitFrame.length ≤ max 512 512 ∧
      Ends (fun s => s.app.events.map FrameEvent.seen = [.failed]) (fun _ => False)
        (Session.play FrameReader.program (FrameReader.create (max 512 512))
          (FrameReader.headerRequest readBuffer) smallestLimitFrame [.readv (some 7)])) ∧
    sizeField twoFragmentFrame = twoFragmentFrame.length ∧ twoFragmentFrame.length ≤ max 8192 512 ∧
      Ends (fun _ => False) (fun e => e.fault = .assertFailed)
        (Session.play FrameReader.program (FrameReader.create (max 8192 512))
          (FrameReader.headerRequest readBuffer) twoFragmentFrame
          [.readv (some 7), .move, .move, .readv (some 0)]) := by
  decide +kernel

end Amqp.Stream
