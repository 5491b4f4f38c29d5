import LibAmqp.Connection.Run
import LibAmqp.Stream.Negotiator
import LibAmqp.Stream.Proof.FrameReader
import LibAmqp.Stream.Proof.Whole
import LibAmqp.Transport.Frame

/-!
# The negotiator decides on the header it has read

`start` resets the read buffer before it reads, `wait` does not. What an earlier protocol has left unread
is then taken for the first part of the header (`decodeVersion_stale`), and what it has written takes
away from the room there is.
-/

namespace Amqp.Stream

open Lib

theorem unread_append {b : Buffer} (h : b.index ≤ b.size) (bytes : List UInt8) :
    (b.append bytes).unread = b.unread ++ bytes := by
  have happends := (Buffer.append_writes b bytes).appends
  have hsize : (b.append bytes).size - (b.append bytes).index = b.size - b.index + bytes.length := by
    simp only [Buffer.append]
    omega
  have hold : (b.append bytes).bytes b.index (b.size - b.index) = b.unread := by
    refine List.map_congr_left fun k hk => happends.old _ ?_
    rw [List.mem_range] at hk
    omega
  have hnew : (b.append bytes).bytes (b.index + (b.size - b.index)) bytes.length = bytes := by
    rw [Nat.add_sub_cancel' h]
    exact happends.bytes
  rw [Buffer.unread, hsize, happends.index, Buffer.bytes_add, hold, hnew]

theorem unread_reset (b : Buffer) : (FrameReader.resetBuffer b).unread = [] := rfl

/-- What was left unread in front of a header hides the version of the header. -/
theorem decodeVersion_stale {unread : List UInt8} (h : unread ≠ []) :
    ∃ version, ∀ v, decodeVersion (unread ++ encodeVersion v) = version := by
  match unread, h with
  | [a], _ =>
    -- the second byte would have to be an M, and is the A of the header
    exact ⟨0, fun v => by unfold encodeVersion decodeVersion; split <;> simp_all⟩
  | [a, b], _ =>
    exact ⟨0, fun v => by unfold encodeVersion decodeVersion; split <;> simp_all⟩
  | [a, b, c], _ =>
    exact ⟨0, fun v => by unfold encodeVersion decodeVersion; split <;> simp_all⟩
  | a :: b :: c :: d :: unread, _ =>
    -- the version is complete with the first four bytes of the header
    refine ⟨decodeVersion ((a :: b :: c :: d :: unread) ++ [0x41, 0x4d, 0x51, 0x50]), fun v => ?_⟩
    rw [← decodeVersion_take, ← decodeVersion_take (_ ++ [0x41, 0x4d, 0x51, 0x50]), encodeVersion,
      ← List.append_assoc, List.take_append_of_le_length]
    simp

/-- There is a header whose version is not the one that is decoded. -/
theorem exists_misread {unread : List UInt8} (h : unread ≠ []) :
    ∃ header : List UInt8, header.length = 8 ∧
      decodeVersion (unread ++ header) ≠ decodeVersion header := by
  obtain ⟨version, hversion⟩ := decodeVersion_stale h
  by_cases h0 : version = 0
  · refine ⟨encodeVersion 1, rfl, ?_⟩
    rw [hversion, h0]
    decide
  · refine ⟨encodeVersion 0, rfl, ?_⟩
    rw [hversion]
    exact fun heq => h0 (heq.trans (by decide))

namespace Negotiation

/-- The decision is about what is unread in the buffer that is read into. -/
theorem readDone_begin (n : Negotiation) (b buffer : Buffer) :
    ((n.begin b).1.readDone (some buffer) amqpFrameHeaderSizeInBytes).events =
      [n.decision (decodeVersion buffer.unread)] := by
  cases n with
  | start version =>
    unfold begin decision Negotiator.startWhileInitialized Negotiator.readDone
      Negotiator.readDoneWhileWaitingForBrokerResponse
    dsimp only
    rw [if_neg (by decide)]
    split
    · rfl
    · rfl
  | wait => rfl

theorem required_begin (n : Negotiation) (b : Buffer) :
    (n.begin b).2.required = amqpFrameHeaderSizeInBytes := by
  cases n with
  | start version => rfl
  | wait => rfl

/-- One read, and the decision. -/
theorem decidesOnHeader {n : Negotiation} {b : Buffer} (hunread : (n.begin b).2.buffer.unread = [])
    (hindex : (n.begin b).2.buffer.index ≤ (n.begin b).2.buffer.size) (hfits : (n.begin b).2.Fits) :
    n.DecidesOnHeader b := by
  intro header rest hlen is
  have hgot : header.length = (n.begin b).2.required := by rw [hlen, required_begin]
  have hreact : Negotiator.program.react (n.begin b).1 (n.begin b).2.callback
      (some ((n.begin b).2.buffer.append header)) (n.begin b).2.required =
        ((n.begin b).1.readDone (some ((n.begin b).2.buffer.append header)) (n.begin b).2.required,
          none) := rfl
  have hideal : Negotiator.program.ideal (n.begin b).1 (n.begin b).2 (header ++ rest) =
      ([.called (n.begin b).2.callback (some ((n.begin b).2.buffer.append header)) (n.begin b).2.required],
        .idle) := by
    rw [Program.ideal_complete hfits.required_pos hgot, hreact]
  have halong : Negotiator.program.FitsAlong (n.begin b).1 (n.begin b).2 (header ++ rest) := by
    refine .of_next hfits hgot fun a' r' hr' => ?_
    rw [hreact] at hr'
    cases hr'
  have hevents : (Negotiator.program.after (n.begin b).1
      [.called (n.begin b).2.callback (some ((n.begin b).2.buffer.append header))
        (n.begin b).2.required]).events = [n.decision (decodeVersion header)] := by
    change ((n.begin b).1.readDone (some ((n.begin b).2.buffer.append header))
      (n.begin b).2.required).events = _
    rw [required_begin, readDone_begin, unread_append hindex, hunread, List.nil_append]
  have hnone : (n.begin b).1.events = [] := by
    cases n with
    | start version => rfl
    | wait => rfl
  refine (Session.play_ideal halong (by rw [hideal]; simp) is).mono ?_ fun _ he => he
  rw [hideal]
  rintro s ⟨hfollows, hprefix, hall, hdrive⟩
  refine ⟨?_, fun hrest => ?_, hdrive⟩
  · rw [hfollows]
    rcases List.prefix_cons_iff.mp hprefix with hnil | ⟨more, hmore, hnil⟩
    · rw [hnil]
      change (n.begin b).1.events <+: _
      rw [hnone]
      exact List.nil_prefix
    · rw [List.prefix_nil.mp hnil] at hmore
      rw [hmore]
      exact hevents ▸ List.prefix_rfl
  · rw [hfollows, hall hrest, hevents]

/-- What `wait` makes of a header, when it is read at once. -/
theorem play_wait {b : Buffer} (hindex : b.index ≤ b.size) {header : List UInt8}
    (hlen : header.length = amqpFrameHeaderSizeInBytes)
    (hroom : amqpFrameHeaderSizeInBytes ≤ b.capacity - b.size) :
    ∃ s, Session.play Negotiator.program (begin b wait).1 (begin b wait).2 (header ++ [])
        [.readv (some 7)] = .ok s ∧
      s.app.events = [.request (decodeVersion (b.unread ++ header))] := by
  obtain ⟨s, hstart, hready⟩ := Session.start_ready (p := Negotiator.program) (a := (begin b wait).1)
    (r := (begin b wait).2) (header ++ []) (Nat.succ_pos 7)
  obtain ⟨s1, hs1, hanswering⟩ := hready.comes (p := Negotiator.program) hroom hlen rfl
  refine ⟨s1, ?_, ?_⟩
  · unfold Session.play
    rw [hstart]
    change (Session.step Negotiator.program s (.readv (some 7)) >>= fun s' => .ok s') = _
    rw [show (some 7 : Option Nat) = some ((begin b wait).2.required - 1) from rfl, hs1]
    rfl
  · rw [hanswering.app]
    change ((begin b wait).1.readDone (some (b.append header)) amqpFrameHeaderSizeInBytes).events = _
    rw [readDone_begin, unread_append hindex]
    rfl

end Negotiation

/-- **The negotiator decides on the header just received** exactly when it has begun with `start`, or
finds the read buffer with nothing unread and with room for a header. -/
theorem negotiator_decides_iff (n : Negotiation) (b : Buffer) (hindex : b.index ≤ b.size)
    (hcapacity : amqpFrameHeaderSizeInBytes ≤ b.capacity) :
    n.DecidesOnHeader b ↔
      (n = .wait → b.index = b.size ∧ b.size + amqpFrameHeaderSizeInBytes ≤ b.capacity) := by
  constructor
  · rintro hdecides rfl
    have hroom : b.size + amqpFrameHeaderSizeInBytes ≤ b.capacity := by
      by_contra hfull
      obtain ⟨s, hstart, hready⟩ := Session.start_ready (p := Negotiator.program)
        (a := (Negotiation.begin b .wait).1) (r := (Negotiation.begin b .wait).2)
        (encodeVersion 0 ++ []) (Nat.succ_pos 7)
      have hpos : 0 < amqpFrameHeaderSizeInBytes := Nat.succ_pos 7
      have hsmall : b.capacity - b.size < amqpFrameHeaderSizeInBytes := by omega
      obtain ⟨e, hstep, -⟩ := hready.overruns (p := Negotiator.program) hsmall
      have hend := hdecides (encodeVersion 0) [] rfl [.readv none]
      unfold Session.play at hend
      rw [hstart] at hend
      change Ends _ _ (Session.step Negotiator.program s (.readv none) >>= fun s' => .ok s') at hend
      rw [hstep] at hend
      exact hend
    refine ⟨?_, hroom⟩
    by_contra hne
    have hunread : b.unread ≠ [] := by
      intro hnil
      have hlen : b.unread.length = b.size - b.index := Buffer.length_bytes _ _ _
      rw [hnil, List.length_nil] at hlen
      omega
    obtain ⟨header, hlen, hmisread⟩ := exists_misread hunread
    obtain ⟨s, hplay, hevents⟩ := Negotiation.play_wait hindex hlen (by omega)
    have hend := hdecides header [] hlen [.readv (some 7)]
    rw [hplay] at hend
    have hprefix := hend.1
    rw [hevents] at hprefix
    simp only [Negotiation.decision, List.cons_prefix_cons, NegotiatorEvent.request.injEq] at hprefix
    exact hmisread hprefix.1
  · intro h
    cases n with
    | start version =>
      exact Negotiation.decidesOnHeader (unread_reset b) (Nat.zero_le _) ⟨Nat.succ_pos 7, hcapacity⟩
    | wait =>
      obtain ⟨hread, hroom⟩ := h rfl
      refine Negotiation.decidesOnHeader ?_ hindex ⟨Nat.succ_pos 7, ?_⟩
      · change b.bytes b.index (b.size - b.index) = []
        rw [hread, Nat.sub_self]
        rfl
      · change amqpFrameHeaderSizeInBytes ≤ b.capacity - b.size
        omega

/-! ## A server that has read an init frame -/

/-- `connection->buffer.read` of a new connection. -/
def newReadBuffer : Buffer := { Buffer.received [] with
  capacity := Amqp.Reader.capacity
  capacity_le := readCapacity_le }

/-- The buffer that the frame reader makes available when it has read a frame. -/
def frameRead (frame : List UInt8) : Option Buffer :=
  match Session.start FrameReader.program (FrameReader.create Amqp.Reader.capacity)
      (FrameReader.headerRequest newReadBuffer) frame
    >>= fun s => s.drive FrameReader.program (fun _ => frame.length) 4 with
  | .ok s => match s.app.events with
    | .available b :: _ => some b
    | _ => none
  | .error _ => none

/-- `connection->buffer.read` when a SASL frame has been read and decoded. -/
def bufferAfterFrame (frame : List UInt8) : Buffer :=
  match frameRead frame with
  | some b =>
    match amqpDecodeSaslFrame (fun _ => 0) (FrameContext.create (fun _ => 0) Malloc.bump 21 4) b with
    | .ok (some _, _, b) => b
    | _ => newReadBuffer
  | none => newReadBuffer

/-- An init frame for `PLAIN` with one byte behind its list. -/
def trailedInit : List UInt8 :=
  [0, 0, 0, 0x17, 2, 1, 0, 0, 0, 0x53, 0x41, 0xc0, 9, 2, 0xa3, 5] ++ plainName ++ [0x40, 0]

/-- The same as `plainDecoders`, for this frame. -/
def trailedDecoders : FrameDecoders where
  sasl bytes := if bytes = trailedInit then
      some (.saslInit plainName, (bufferAfterFrame trailedInit).index)
    else none
  amqp _ := none

/-- The header is decided on behind an init frame without trailing bytes, and not behind one with a
trailing byte. -/
theorem negotiator_decides_iff_init :
    ((bufferAfterFrame plainInit).index, (bufferAfterFrame plainInit).size) = (21, 21) ∧
      Negotiation.wait.DecidesOnHeader (bufferAfterFrame plainInit) ∧
      ¬ Negotiation.wait.DecidesOnHeader (bufferAfterFrame trailedInit) := by
  refine ⟨by decide +kernel, ?_, fun h => ?_⟩
  · refine (negotiator_decides_iff .wait _ ?_ ?_).2 fun _ => ?_
    · decide +kernel
    · decide +kernel
    · decide +kernel
  · have hread := (negotiator_decides_iff .wait _ (by decide +kernel) (by decide +kernel)).1 h rfl
    exact absurd hread.1 (by decide +kernel)

/-- The server waits for the header of AMQP with the trailing byte unread, and takes the header for none
at all. -/
theorem header_behind_trailing_byte :
    (run (Connection.step trailedDecoders 40)
        (Connection.create ⟨false, true, true⟩ 4096 0 [plainPlugin] true)
        ([{ event := .accept }, { event := .data (encodeVersion amqpSaslPreferredVersion) false }] ++
          readsOf trailedInit [])).toOption.map
        (fun c => (c.name, c.negotiator, c.buffer, c.readIndex)) =
      some (.waitingOnAmqpNegotiationRequest, .waitingOnClientRequest, trailedInit, 22) ∧
    ((bufferAfterFrame trailedInit).index, (bufferAfterFrame trailedInit).size,
        (bufferAfterFrame trailedInit).capacity, (bufferAfterFrame trailedInit).bytes 0 23) =
      (22, 23, Amqp.Reader.capacity, trailedInit) ∧
    decodeVersion (encodeVersion amqpPreferredVersion) = amqpPreferredVersion ∧
    Ends (fun s => s.app.events = [.request 0]) (fun _ => False)
      (Session.play Negotiator.program (Negotiation.begin (bufferAfterFrame trailedInit) .wait).1
        (Negotiation.begin (bufferAfterFrame trailedInit) .wait).2 (encodeVersion amqpPreferredVersion)
        [.readv (some 7)]) := by
  refine ⟨?_, ?_, ?_, ?_⟩
  · decide +kernel
  · decide +kernel
  · decide +kernel
  · decide +kernel

end Amqp.Stream
