import LibAmqp.Stream.Proof.FrameReader
import LibAmqp.Transport.Exchange
import LibAmqp.Transport.Proof.RoundTrip

/-!
# No frame is lost between two parties

* `encodeAll_sends`: the buffers have the frames that were asked for, in their order.
* `SentFrame.WellFormed.receives_again`: a party that has nothing in use can receive the next frame.
* `FrameRequest.arrive`: whatever the delivery, the frames that are decoded are those that were sent.
-/

namespace Amqp

open Lib Memory Buffer

section
variable {hash : HashFunction} {connection : EncodingConnection} {K : Finset Slot}

/-! ## The party that sends -/

/-- The frames of a connection, each in a buffer of its own. -/
theorem encodeAll_sends {rs : List FrameRequest} {ms : List SentFrame} :
    ∀ {x : EncodeContext} {K : Finset Slot}, EncodeReady AmqpType.Blank x ∅ K →
      rs.map (·.frame connection) = ms.map some → (∀ m ∈ ms, m.size + 16 ≤ amqpBufferFragmentSize) →
      ∃ sent x', encodeAll connection x rs = .ok (.ok sent, x') ∧
        EncodeReady AmqpType.Blank x' ∅ (K ∪ (sent.map Prod.fst).toFinset) ∧
        sent.map (fun e => e.2.bytes 0 e.2.size) = ms.map SentFrame.bytes := by
  induction rs generalizing ms with
  | nil =>
    intro x K hx hrs _
    obtain rfl : ms = [] := by simpa using hrs.symm
    exact ⟨[], x, rfl, by simpa using hx, rfl⟩
  | cons r rs ih =>
    intro x K hx hrs hroom
    cases ms with
    | nil => cases hrs
    | cons m ms =>
      rw [List.map_cons, List.map_cons, List.cons.injEq] at hrs
      obtain ⟨hm, hrs⟩ := hrs
      obtain ⟨s, b, x1, hrun, hsends⟩ := FrameRequest.encode_sends hx hm (hroom m (.head _))
      obtain ⟨sent, x2, hrest, hready, hbytes⟩ := ih (hsends.blank rfl) hrs fun m' hm' => hroom m' (.tail _ hm')
      refine ⟨(s, b) :: sent, x2, ?_, ?_, ?_⟩
      · simp only [encodeAll, hrun, Fault.ok_bind, hrest]
        rfl
      · have hset : K ∪ (((s, b) :: sent).map Prod.fst).toFinset = insert s K ∪ (sent.map Prod.fst).toFinset := by
          ext t
          simp only [List.map_cons, List.toFinset_cons, Finset.mem_union, Finset.mem_insert]
          tauto
        rw [hset]
        exact hready
      · rw [List.map_cons, List.map_cons, hbytes, hsends.bytes]

/-! ## The party that receives -/

/-- The cleanup of a frame leaves the settings of the pools alone. -/
theorem amqpFrameCleanup_settings {y y' : FrameContext} {s : Slot} (h : amqpFrameCleanup y s = .ok y') :
    y'.types.zero = y.types.zero ∧ y'.types.initializerCallback = y.types.initializerCallback ∧
      y'.limit = y.limit ∧ y'.frames.zero = y.frames.zero ∧ y'.frames.initializerCallback = y.frames.initializerCallback := by
  unfold amqpFrameCleanup at h
  cases hload : y.frames.load s with
  | none =>
    rw [hload] at h
    cases h
  | some frame =>
    rw [hload] at h
    obtain ⟨c, hc, h⟩ := Fault.bind_eq_ok.1 h
    obtain ⟨x1, hx1, h⟩ := Fault.bind_eq_ok.1 h
    obtain ⟨pool, hpool, h⟩ := Fault.bind_eq_ok.1 h
    have hset : Yields (Settings y.toContext) (amqpDeallocateType y.toContext frame.type) :=
      deallocateType_settings _ _ _
    rw [hc] at hset
    have hset : Settings y.toContext c := hset
    have hkeeps : x1.toContext = c ∧ x1.frames = y.frames := by
      unfold callCleanup at hx1
      split at hx1
      · split at hx1
        · obtain ⟨z, -, hx1⟩ := Fault.bind_eq_ok.1 hx1
          cases hx1
          exact ⟨rfl, rfl⟩
        · cases hx1
          exact ⟨rfl, rfl⟩
      · cases hx1
        exact ⟨rfl, rfl⟩
    obtain ⟨hzero, hinit⟩ := amqpDeallocate_keeps hpool
    cases h
    rw [hkeeps.2] at hzero hinit
    refine ⟨?_, ?_, ?_, hzero, hinit⟩
    · rw [hkeeps.1]
      exact hset.zero
    · rw [hkeeps.1]
      exact hset.initializer
    · rw [hkeeps.1]
      exact hset.limit

/-- A party with nothing in use is ready for the next frame when it has given this one back. -/
theorem SentFrame.WellFormed.receives_again {m : SentFrame} {b : Buffer} {y : FrameContext} (h : m.WellFormed)
    (ha : m.Arrives b) (hy : FrameReady y ∅ ∅) (hash : HashFunction) : ∃ s y1 frame y2,
      m.decode hash y b = .ok (some s, y1, { b with index := b.size }) ∧ y1.frames.load s = some frame ∧
      m.Received y1 b frame ∧ amqpFrameCleanup y1 s = .ok y2 ∧ FrameReady y2 ∅ ∅ := by
  obtain ⟨s, y1, hrun, frame, F, A, hacc⟩ := h.decodes ha hy hash
  obtain ⟨y2, hclean, hrej⟩ := hacc.takes.cleanup y1.frames hacc.fresh hacc.others hacc.frames hacc.load
  have hclean : amqpFrameCleanup y1 s = .ok y2 := hclean
  have hrestored := hrej.restored
  obtain ⟨htypesZero, htypesInit, hlimit, hframesZero, hframesInit⟩ := amqpFrameCleanup_settings hclean
  have hgrows := hacc.lays.grows
  have hzero : y1.types.zero = AmqpType.zero := hgrows.held.zero
  have hframe : y1.frames.zero = AmqpFrame.zero := hacc.frames.zero
  have hinit : y1.types.initializerCallback = AmqpType.initializeAmqpType :=
    hgrows.initializer.trans hy.types.initializer
  exact ⟨s, y1, frame, y2, hrun, hacc.load, hacc.received h ha, hclean,
    ⟨⟨⟨hrestored.types.of_empty (htypesZero.trans hzero), htypesInit.trans hinit⟩,
      hlimit.trans (hgrows.limit.trans hy.types.limit)⟩,
      hrestored.frames.of_empty (hframesZero.trans hframe), hframesInit.trans hacc.initializer⟩⟩

/-- The buffers of frames that arrive are all decoded. -/
theorem exchange_of_arrives {ms : List SentFrame} {bs : List Buffer} (hms : ∀ m ∈ ms, m.WellFormed)
    (h : List.Forall₂ SentFrame.Arrives ms bs) : ∀ {y : FrameContext}, FrameReady y ∅ ∅ →
      ∃ y', Exchange hash y ms bs y' ∧ FrameReady y' ∅ ∅ := by
  induction h with
  | nil => exact fun {y} hy => ⟨y, .nil y, hy⟩
  | cons ha _ ih =>
    intro y hy
    obtain ⟨s, y1, frame, y2, hrun, hload, hreceived, hclean, hready⟩ :=
      (hms _ (.head _)).receives_again ha hy hash
    obtain ⟨y3, hrest, hready'⟩ := ih (fun m hm => hms m (.tail _ hm)) hready
    exact ⟨y3, .cons hrun hload hreceived hclean hrest, hready'⟩

end
end Amqp

namespace Amqp.Stream

open Lib Memory Buffer

/-! ## What the frame reader makes available -/

/-- Events that are seen as frames and perhaps the end of the stream. -/
theorem events_of_cut {frames : List (List UInt8)} : ∀ {events : List FrameEvent},
    events.map FrameEvent.seen <+: cut frames [] → ∃ bs more, events = bs.map .available ++ more ∧
      List.Forall₂ (fun f b => b.index = 0 ∧ b.size = f.length ∧ b.bytes 0 b.size = f)
        (frames.take bs.length) bs ∧
      more <+: [.connectionShutdown] ∧
      (events.map FrameEvent.seen = cut frames [] → bs.length = frames.length ∧ more = [.connectionShutdown]) := by
  induction frames with
  | nil =>
    intro events h
    have hcut : cut [] [] = [Seen.shutdown] := rfl
    rw [hcut] at h ⊢
    cases events with
    | nil => exact ⟨[], [], rfl, .nil, List.nil_prefix, fun h => by cases h⟩
    | cons e events =>
      rw [List.map_cons, List.cons_prefix_cons, List.prefix_nil, List.map_eq_nil_iff] at h
      obtain ⟨he, rfl⟩ := h
      cases e with
      | connectionShutdown => exact ⟨[], [.connectionShutdown], rfl, .nil, List.prefix_rfl, fun _ => ⟨rfl, rfl⟩⟩
      | available | connectionFailed | fatal => cases he
  | cons f frames ih =>
    intro events h
    have hcut : cut (f :: frames) [] = .frame 0 f.length f :: cut frames [] := rfl
    rw [hcut] at h ⊢
    cases events with
    | nil => exact ⟨[], [], rfl, .nil, List.nil_prefix, fun h => by cases h⟩
    | cons e events =>
      rw [List.map_cons, List.cons_prefix_cons] at h
      obtain ⟨he, h⟩ := h
      cases e with
      | connectionShutdown | connectionFailed | fatal => cases he
      | available b =>
        rw [FrameEvent.seen, Seen.frame.injEq] at he
        obtain ⟨bs, more, rfl, hall, hmore, hend⟩ := ih h
        refine ⟨b :: bs, more, rfl, .cons he hall, hmore, fun heq => ?_⟩
        rw [List.map_cons, List.cons.injEq] at heq
        obtain ⟨hlen, hm⟩ := hend heq.2
        exact ⟨congrArg (· + 1) hlen, hm⟩

/-- A frame that is sent is one for the frame reader. -/
theorem isFrame_bytes {m : SentFrame} (hroom : m.size + 16 ≤ amqpBufferFragmentSize) {maxFrameSize capacity : Nat}
    (hmax : m.size < maxFrameSize) (hcapacity : amqpBufferFragmentSize ≤ capacity) :
    IsFrame maxFrameSize capacity m.bytes := by
  have hlen := m.length_bytes
  have hsmall : amqpBufferFragmentSize < 256 ^ 4 := by decide
  have hprotocol : amqpBufferFragmentSize < Amqp.FrameReader.amqpProtocolHeader := by decide
  have hpos : amqpFrameHeaderSizeInBytes ≤ m.size := Nat.le_add_right _ _
  refine ⟨?_, ?_, ?_⟩
  · have htake : m.bytes.take 4 = toBigEndian 4 m.size := by
      simp only [SentFrame.bytes, SentFrame.header, List.append_assoc]
      exact List.take_left' (length_toBigEndian ..)
    rw [sizeField, htake, hlen]
    exact ofBigEndian_toBigEndian 4 _ (by omega)
  · rw [hlen]
    exact ⟨hpos, hmax, by omega⟩
  · rw [hlen]
    omega

end Amqp.Stream

namespace Amqp

open Lib Memory Buffer Amqp.Stream

/-- Frames that are asked for one after the other arrive, whatever the delivery: at every state of every run,
what was made available are the first of them, each decoded as it was meant and given back, and all of them
when the reader is at rest. -/
theorem FrameRequest.arrive {x : EncodeContext} {y : FrameContext} {K : Finset Slot}
    {connection : EncodingConnection} {rs : List FrameRequest} {ms : List SentFrame} {b : Buffer}
    {maxFrameSize : Nat} (hx : EncodeReady AmqpType.Blank x ∅ K) (hy : FrameReady y ∅ ∅) (hash : HashFunction)
    (hrs : rs.map (·.frame connection) = ms.map some) (hsound : ∀ r ∈ rs, r.Sound connection)
    (hroom : ∀ m ∈ ms, m.size + 16 ≤ amqpBufferFragmentSize ∧ m.size < maxFrameSize)
    (hb : amqpBufferFragmentSize ≤ b.capacity) :
    ∃ sent x', encodeAll connection x rs = .ok (.ok sent, x') ∧
      EncodeReady AmqpType.Blank x' ∅ (K ∪ (sent.map Prod.fst).toFinset) ∧
      ∀ is : List SessionInput, Ends
        (fun s => ∃ bs more y', s.app.events = bs.map .available ++ more ∧ bs.length ≤ ms.length ∧
          Exchange hash y (ms.take bs.length) bs y' ∧ FrameReady y' ∅ ∅ ∧ more <+: [.connectionShutdown] ∧
          (s.AtRest → bs.length = ms.length ∧ more = [.connectionShutdown]) ∧
          ∀ sizes, ∃ k, Ends Session.AtRest (fun _ => False) (s.drive Stream.FrameReader.program sizes k))
        (fun _ => False)
        (Session.play Stream.FrameReader.program (Stream.FrameReader.create maxFrameSize)
          (Stream.FrameReader.headerRequest b) (sent.flatMap fun e => e.2.bytes 0 e.2.size) is) := by
  obtain ⟨sent, x', hrun, hready, hbytes⟩ := encodeAll_sends hx hrs fun m hm => (hroom m hm).1
  refine ⟨sent, x', hrun, hready, fun is => ?_⟩
  have hwell : ∀ m ∈ ms, m.WellFormed := by
    intro m hm
    have hmem : some m ∈ rs.map (·.frame connection) := hrs ▸ List.mem_map_of_mem hm
    obtain ⟨r, hr, hframe⟩ := List.mem_map.1 hmem
    exact (hsound r hr).wellFormed hframe (hroom m hm).1
  have hframes : ∀ f ∈ ms.map SentFrame.bytes, IsFrame maxFrameSize b.capacity f := by
    intro f hf
    obtain ⟨m, hm, rfl⟩ := List.mem_map.1 hf
    exact isFrame_bytes (hroom m hm).1 (hroom m hm).2 hb
  have hcap : amqpFrameHeaderSizeInBytes ≤ b.capacity := Nat.le_trans (by decide) hb
  have htakes := Stream.FrameReader.takes hcap hframes (.inl rfl) is
  have hstream : (ms.map SentFrame.bytes).flatten ++ [] = sent.flatMap fun e => e.2.bytes 0 e.2.size := by
    rw [List.append_nil, ← hbytes]
    rfl
  rw [hstream] at htakes
  refine htakes.mono ?_ fun _ he => he
  rintro s ⟨hfirst, hrest, hdrive⟩
  obtain ⟨bs, more, hevents, hall, hmore, hend⟩ := events_of_cut hfirst
  have hlen : bs.length ≤ ms.length := by
    have := hall.length_eq
    rw [List.length_take, List.length_map] at this
    omega
  have harrives : List.Forall₂ SentFrame.Arrives (ms.take bs.length) bs := by
    rw [← List.map_take] at hall
    refine (List.forall₂_map_left_iff.1 hall).imp fun m b h => ?_
    exact ⟨h.1, h.2.1.trans m.length_bytes, h.2.2⟩
  obtain ⟨y', hexchange, hy'⟩ := exchange_of_arrives (fun m hm => hwell m (List.mem_of_mem_take hm)) harrives hy
  refine ⟨bs, more, y', hevents, hlen, hexchange, hy', hmore, fun hr => ?_, hdrive⟩
  obtain ⟨hl, hm⟩ := hend (hrest hr)
  exact ⟨by rw [hl, List.length_map], hm⟩

theorem arrive_plain : ∃ (ms : List SentFrame) (sent : List (Slot × Buffer)) (x' : EncodeContext),
    encodeAll plainClient (EncodeContext.create Malloc.bump 21 4)
        [.saslInit plainInstance, .amqpOpen, .amqpClose] = .ok (.ok sent, x') ∧
      EncodeReady AmqpType.Blank x' ∅ (∅ ∪ (sent.map Prod.fst).toFinset) ∧
      ∀ is : List SessionInput, Ends
        (fun s => ∃ bs more y', s.app.events = bs.map .available ++ more ∧ bs.length ≤ ms.length ∧
          Exchange (fun _ => 0) (FrameContext.create (fun _ => 0) Malloc.bump 21 4) (ms.take bs.length) bs y' ∧
          FrameReady y' ∅ ∅ ∧ more <+: [.connectionShutdown] ∧
          (s.AtRest → bs.length = ms.length ∧ more = [.connectionShutdown]) ∧
          ∀ sizes, ∃ k, Ends Session.AtRest (fun _ => False) (s.drive Stream.FrameReader.program sizes k))
        (fun _ => False)
        (Session.play Stream.FrameReader.program (Stream.FrameReader.create 65536)
          (Stream.FrameReader.headerRequest (Buffer.received []))
          (sent.flatMap fun e => e.2.bytes 0 e.2.size) is) := by
  have hx := EncodeContext.create_ready Malloc.bump (n := 21) (k := 4) (by decide) (by decide) (by decide)
    (by decide)
  have hy := FrameContext.create_ready (fun _ => 0) Malloc.bump (n := 21) (k := 4) (by decide) (by decide)
    (by decide) (by decide)
  have hsound : ∀ r ∈ [FrameRequest.saslInit plainInstance, .amqpOpen, .amqpClose], r.Sound plainClient := by
    simp only [List.forall_mem_cons, List.not_mem_nil, false_implies, implies_true, and_true]
    refine ⟨⟨by decide, fun hostname hh => ?_⟩, ⟨by decide +kernel, by decide +kernel⟩, trivial⟩
    obtain rfl := Option.some.inj hh
    exact ⟨by decide, by decide +kernel⟩
  refine ⟨[_, _, _], FrameRequest.arrive hx hy (fun _ => 0) rfl hsound ?_ (by decide)⟩
  simp only [List.forall_mem_cons, List.not_mem_nil, false_implies, implies_true, and_true]
  exact ⟨by decide +kernel, by decide +kernel, by decide +kernel⟩

end Amqp
