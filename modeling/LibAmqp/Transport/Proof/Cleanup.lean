import LibAmqp.Transport.Proof.Frame

/-!
# Frames in the frame pool

* `amqpFrameCleanup_spec`: the cleanup of a frame gives back its types, its symbols and its slot.
* `amqpDecodeFrame_meets`: with objects that start as zero bytes, `amqp_decode_frame` ends as the
  verdict on the bytes says; a frame that is refused leaves nothing behind.
-/

namespace Amqp

open Lib Memory

section
variable {hash : HashFunction} {x x' : FrameContext} {b : Buffer} {frame : AmqpFrame} {L K : Finset Slot}
  {s : Slot} {F : Layout} {A : List Nat} {inp : Input} {address : Nat}

/-! ## Cleanup -/

/-- What the frame in slot `s` of `x` owns: the types of `F` and the symbols `A`. -/
structure Holding (x : FrameContext) (inp : Input) (address : Nat) (L K : Finset Slot) (s : Slot)
    (frame : AmqpFrame) (F : Layout) (A : List Nat) : Prop where
  load : x.frames.load s = some frame
  live : s ∈ K
  root : F.pointers = [frame.type]
  laid : Laid x.toContext inp address (· = AmqpType.zero) F
  slots : ∀ t ∈ F.slots, t ∈ L
  slotsNodup : F.slots.Nodup
  arraysNodup : F.arrays.Nodup
  owns : frame.Owns A
  symbols : ∀ a ∈ A, a ∈ x.symbols.dom
  symbolsNodup : A.Nodup

/-- The frame in slot `s` was given back, with the types of `F` and the symbols `A`. -/
structure Cleaned (x : FrameContext) (L K : Finset Slot) (s : Slot) (F : Layout) (A : List Nat)
    (x' : FrameContext) : Prop where
  types : Releases x.toContext L x'.toContext F.slots F.arrays
  symbols : ∀ a, x'.symbols.get a = if a ∈ A then none else x.symbols.get a
  freedSymbols : x'.freedSymbols = x.freedSymbols ++ A
  frames : Live (fun _ => True) x'.frames (K.erase s)
  others : ∀ k ∈ K.erase s, x'.frames.load k = x.frames.load k
  releasedFrames : x'.releasedFrames = x.releasedFrames ++ [s]
  descriptors : x'.descriptors = x.descriptors
  debugLevel : x'.debugLevel = x.debugLevel

/-- The cleanup function of a frame gives back the frame's symbols. -/
theorem callCleanup_spec (h : frame.Owns A) (hdom : ∀ a ∈ A, a ∈ x.symbols.dom) (hnodup : A.Nodup) :
    ∃ heap, callCleanup x frame =
        .ok { x with symbols := heap, freedSymbols := x.freedSymbols ++ A } ∧
      ∀ a, heap.get a = if a ∈ A then none else x.symbols.get a := by
  unfold callCleanup
  rcases h with ⟨hnone, rfl⟩ | ⟨p, hid, hp, howns⟩
  · refine ⟨x.symbols, ?_, fun a => by simp⟩
    rw [List.append_nil]
    by_cases hid : frame.descriptor.id = 0
    · rw [if_neg (not_not.2 hid)]
    · rw [if_pos hid, hnone.resolve_left hid]
  · obtain ⟨heap, hrun, hget⟩ := cleanupFields_spec p.fields 0 A x.symbols howns hnodup hdom
    refine ⟨heap, ?_, hget⟩
    rw [if_pos hid, hp]
    simp only [hrun, Fault.ok_bind]

/-- The cleanup of a frame gives back what the frame owns, and its slot. -/
theorem amqpFrameCleanup_spec (h : Holding x inp address L K s frame F A)
    (htypes : Live (fun _ => True) x.types L) (hframes : Live (fun _ => True) x.frames K) :
    ∃ x', amqpFrameCleanup x s = .ok x' ∧ Cleaned x L K s F A x' := by
  obtain ⟨c, hrun, hrel⟩ := amqpDeallocateType_spec h.root h.laid htypes h.slots h.slotsNodup
    h.arraysNodup
  obtain ⟨heap, hclean, hget⟩ := callCleanup_spec (x := { x with toContext := c }) h.owns h.symbols
    h.symbolsNodup
  obtain ⟨pool, hde, hlive, hothers, -⟩ := hframes.deallocate h.live fun _ _ => trivial
  refine ⟨{ x with
      toContext := c
      symbols := heap
      freedSymbols := x.freedSymbols ++ A
      frames := pool
      releasedFrames := x.releasedFrames ++ [s] }, ?_, hrel, hget, rfl, hlive, hothers, rfl, rfl, rfl⟩
  simp only [amqpFrameCleanup, h.load, hrun, Fault.ok_bind, hclean, hde]

/-! ## Decoding -/

/-- A context whose free objects are zero bytes, as those of new blocks are; the types `L` and the
frames `K` are in use. -/
structure FrameReady (x : FrameContext) (L K : Finset Slot) : Prop where
  types : Ready (· = AmqpType.zero) x.toContext L
  frames : Live (· = AmqpFrame.zero) x.frames K
  initializer : x.frames.initializerCallback = id

theorem FrameContext.create_ready (hash : HashFunction) (M : Malloc) {n k : Nat} (hn : 1 ≤ n)
    (hn' : n ≤ 63) (hk : 1 ≤ k) (hk' : k ≤ 63) : FrameReady (FrameContext.create hash M n k) ∅ ∅ := by
  refine ⟨Amqp.create_ready M hn hn', ⟨⟨[], [], rfl, initializePool_consistent hk hk' _ _⟩,
    fun s v _ hv => ?_, rfl⟩, rfl⟩
  simp [FrameContext.create, initializePool, MemoryPool.load, Heap.get, Heap.empty] at hv

/-- The object a frame is decoded into. -/
theorem allocateFrame_spec (h : FrameReady x L K) : ∃ s pool,
    x.allocateFrame = .ok (s, AmqpFrame.zero, { x with frames := pool }) ∧ s ∉ K ∧
    Live (· = AmqpFrame.zero) pool (insert s K) ∧ pool.load s = some AmqpFrame.zero ∧
    (∀ k ∈ K, pool.load k = x.frames.load k) ∧ pool.initializerCallback = id := by
  obtain ⟨s, pool, hcall, htaken⟩ := h.frames.allocate x.malloc
  obtain ⟨v, rfl, hload⟩ := htaken.self
  rw [h.initializer] at hload
  refine ⟨s, pool, ?_, htaken.fresh, htaken.held, hload, htaken.other, htaken.initializer.trans h.initializer⟩
  simp only [FrameContext.allocateFrame, hcall, Fault.ok_bind, hload]
  rfl

/-- A frame that `amqp_decode_frame` returned: it is in slot `s`, with the types of `F` and the
symbols `A`. -/
structure Accepted (hash : HashFunction) (x : FrameContext) (L K : Finset Slot) (b : Buffer) (s : Slot)
    (x' : FrameContext) (frame : AmqpFrame) (F : Layout) (A : List Nat) : Prop where
  load : x'.frames.load s = some frame
  fresh : s ∉ K
  frames : Live (· = AmqpFrame.zero) x'.frames (insert s K)
  initializer : x'.frames.initializerCallback = id
  others : ∀ k ∈ K, x'.frames.load k = x.frames.load k
  lays : Lays (· = AmqpType.zero) 0 b.input b.address x.toContext L (.cons b.body.outline .nil)
    x'.toContext F
  root : F.pointers = [frame.type]
  symbols : x.symbols.Gains x'.symbols A
  owns : frame.Owns A
  offset : b.body.index ≤ b.size
  dataOffset : frame.dataOffset = b.dataOffset
  frameType : frame.frameType = b.byteAt 5
  word : frame.word = ofBigEndian (b.bytes 6 2)
  content : (b.body.outline = none ∧ frame.descriptor = ⟨0, 0, .emptyFrame⟩ ∧
      frame.dispatch = some .emptyFrame) ∨
    ∃ n kids p fields, F = .node n kids .nil ∧
      Describes (Layout.symbolLookup hash x.descriptors b kids) 0 b.input kids p fields
        frame.descriptor ∧
      AmqpFrame.zero.Carries p b.input x'.symbols fields frame
  records : x'.freedSymbols = x.freedSymbols ∧ x'.releasedFrames = x.releasedFrames ∧
    x'.descriptors = x.descriptors ∧ x'.debugLevel = x.debugLevel

/-- A context that has back what it had in use before. -/
structure Restored (x : FrameContext) (L K : Finset Slot) (x' : FrameContext) : Prop where
  types : Live (fun _ => True) x'.types L
  load : ∀ s ∈ L, x'.types.load s = x.types.load s
  arraysDom : ∀ a, a ∈ x'.arrays.dom ↔ a ∈ x.arrays.dom
  arrays : ∀ a ∈ x.arrays.dom, x'.arrays.get a = x.arrays.get a
  symbols : ∀ a, x'.symbols.get a = x.symbols.get a
  frames : Live (fun _ => True) x'.frames K
  others : ∀ k ∈ K, x'.frames.load k = x.frames.load k
  descriptors : x'.descriptors = x.descriptors
  debugLevel : x'.debugLevel = x.debugLevel

/-- How a decoder of frames ends: it stops, refuses the frame or returns it. -/
def FrameMeets (v : Verdict) (r : FrameDecoding) (refused : FrameContext → Buffer → Prop)
    (accepted : Slot → FrameContext → Buffer → Prop) : Prop :=
  match v with
  | .stops => ∃ e, r = .error e ∧ e.Real
  | .refused => ∃ x b, r = .ok (none, x, b) ∧ refused x b
  | .accepted => ∃ s x b, r = .ok (some s, x, b) ∧ accepted s x b

theorem AmqpFrame.zero_clean (b : Buffer) (type : Option Slot) :
    AmqpFrame.Clean { AmqpFrame.zero.withHeader b with type := type } :=
  ⟨rfl, fun _ => Field.zero_clean⟩

/-- What a decode took from the context: the types of `F` and the symbols `A`, for `frame`. -/
structure Takes (x : FrameContext) (inp : Input) (address : Nat) (L : Finset Slot) (frame : AmqpFrame)
    (F : Layout) (A : List Nat) (x' : FrameContext) : Prop where
  root : F.pointers = [frame.type]
  grows : Grows (· = AmqpType.zero) 0 x.toContext L x'.toContext F.slots F.arrays
  laid : Laid x'.toContext inp address (· = AmqpType.zero) F
  symbols : x.symbols.Gains x'.symbols A
  owns : frame.Owns A
  records : x'.freedSymbols = x.freedSymbols ∧ x'.releasedFrames = x.releasedFrames ∧
    x'.descriptors = x.descriptors ∧ x'.debugLevel = x.debugLevel

/-- The frame decoder leaves the pool of frames to its caller. -/
theorem FrameResult.frames {ok : Bool} {y : AmqpFrame × FrameContext × Buffer}
    (h : FrameResult hash x L b frame ok y) : y.2.1.frames = x.frames := by
  cases h with
  | header _ => rfl
  | empty _ _ => rfl
  | @body c n kids ok y _ _ _ hy =>
    show y.2.frames = _
    rw [hy.context]

/-- The frame decoder, from an object of zero bytes. -/
theorem FrameResult.takes {pool : MemoryPool AmqpFrame} {ok : Bool}
    {y : AmqpFrame × FrameContext × Buffer} (hr : Ready (· = AmqpType.zero) x.toContext L)
    (h : FrameResult hash { x with frames := pool } L b AmqpFrame.zero ok y) :
    ∃ F A, Takes x b.input b.address L y.1 F A y.2.1 := by
  cases h with
  | header _ =>
    exact ⟨.hole .nil, [], rfl, .refl hr.held, trivial, Heap.Gains.refl _, .inl ⟨.inr rfl, rfl⟩,
      rfl, rfl, rfl, rfl⟩
  | empty _ _ =>
    exact ⟨.hole .nil, [], rfl, .refl hr.held, trivial, Heap.Gains.refl _, .inl ⟨.inr rfl, rfl⟩,
      rfl, rfl, rfl, rfl⟩
  | @body c n kids ok y _ _ hlays hy =>
    obtain ⟨A, hg, hA⟩ := hy.owns
    have hcontext := hy.context
    have htype := hy.header.2.2.2
    refine ⟨.node n kids .nil, A, ?_, ?_, ?_, hg, hA (AmqpFrame.zero_clean b _), ?_⟩
    · rw [htype]
      rfl
    · rw [hcontext]
      exact hlays.grows
    · rw [hcontext]
      exact hlays.laid
    · rw [hcontext]
      exact ⟨rfl, rfl, rfl, rfl⟩

/-- Giving back what a decode took restores the context. -/
theorem Takes.restored {x1 : FrameContext} (h : Takes x inp address L frame F A x1) {pool : MemoryPool AmqpFrame}
    (hs : s ∉ K) (hpool : ∀ k ∈ K, pool.load k = x.frames.load k)
    (hc : Cleaned { x1 with frames := pool } (L ∪ F.slots.toFinset) (insert s K) s F A x') :
    Restored x L K x' := by
  have hg := h.grows
  have hdis : Disjoint L F.slots.toFinset :=
    Finset.disjoint_right.2 fun t ht => hg.fresh t (List.mem_toFinset.1 ht)
  refine ⟨?_, fun t ht => ?_, fun a => ?_, fun a ha => ?_, fun a => ?_, ?_, fun k hk => ?_, ?_, ?_⟩
  · have := hc.types.held
    rwa [Finset.union_sdiff_right, Finset.sdiff_eq_self_of_disjoint hdis] at this
  · rw [hc.types.load t (by simp [ht]) fun hmem => hg.fresh t hmem ht]
    exact hg.load t ht
  · rw [hc.types.dom, hg.dom]
    exact ⟨fun ha => ha.1.resolve_right ha.2, fun ha => ⟨.inl ha, fun hm => hg.arraysFresh a hm ha⟩⟩
  · rw [hc.types.get a fun hm => hg.arraysFresh a hm ha]
    refine hg.get a ha ?_
    rintro rfl
    obtain ⟨v, hv⟩ := Heap.mem_dom_iff.1 ha
    simp at hv
  · rw [hc.symbols]
    by_cases ha : a ∈ A
    · rw [if_pos ha, Heap.get_eq_none.2 (h.symbols.fresh a ha)]
    · rw [if_neg ha]
      by_cases hd : a ∈ x.symbols.dom
      · exact h.symbols.get a hd
      · have hd' : a ∉ x1.symbols.dom := fun hm => ((h.symbols.dom a).1 hm).elim hd ha
        rw [Heap.get_eq_none.2 hd]
        exact Heap.get_eq_none.2 hd'
  · have := hc.frames
    rwa [Finset.erase_insert hs] at this
  · have hne : k ≠ s := by
      rintro rfl
      exact hs hk
    rw [hc.others k (Finset.mem_erase.2 ⟨hne, Finset.mem_insert_of_mem hk⟩)]
    exact hpool k hk
  · rw [hc.descriptors]
    exact h.records.2.2.1
  · rw [hc.debugLevel]
    exact h.records.2.2.2

/-- What a decode took belongs to its frame, once the frame is stored. -/
theorem Takes.holding {x1 : FrameContext} (h : Takes x inp address L frame F A x1)
    {pool : MemoryPool AmqpFrame} (hpool : pool.load s = some frame) :
    Holding { x1 with frames := pool } inp address (L ∪ F.slots.toFinset) (insert s K) s frame F A where
  load := hpool
  live := Finset.mem_insert_self s K
  root := h.root
  laid := h.laid
  slots t ht := by simp [ht]
  slotsNodup := h.grows.nodup
  arraysNodup := h.grows.arraysNodup
  owns := h.owns
  symbols a ha := (h.symbols.dom a).2 (.inr ha)
  symbolsNodup := h.symbols.nodup

/-- What a frame that was refused took was given back again. -/
def Rejected (x : FrameContext) (inp : Input) (address : Nat) (L K : Finset Slot) (x' : FrameContext) :
    Prop :=
  ∃ x1 frame F A s pool, Takes x inp address L frame F A x1 ∧ s ∉ K ∧
    (∀ k ∈ K, pool.load k = x.frames.load k) ∧
    Cleaned { x1 with frames := pool } (L ∪ F.slots.toFinset) (insert s K) s F A x'

theorem Rejected.restored (h : Rejected x inp address L K x') : Restored x L K x' := by
  obtain ⟨x1, frame, F, A, s, pool, htakes, hs, hpool, hclean⟩ := h
  exact htakes.restored hs hpool hclean

/-- A frame that holds what a decode took is given back. -/
theorem Takes.cleanup {x1 : FrameContext} (h : Takes x inp address L frame F A x1)
    (pool : MemoryPool AmqpFrame) (hs : s ∉ K) (hpool : ∀ k ∈ K, pool.load k = x.frames.load k)
    (hlive : Live (· = AmqpFrame.zero) pool (insert s K)) (hload : pool.load s = some frame) :
    ∃ x', amqpFrameCleanup { x1 with frames := pool } s = .ok x' ∧ Rejected x inp address L K x' := by
  obtain ⟨x', hrun, hclean⟩ := amqpFrameCleanup_spec (h.holding (K := K) hload)
    (h.grows.held.mono fun _ _ => trivial) (hlive.mono fun _ _ => trivial)
  exact ⟨x', hrun, x1, frame, F, A, s, pool, h, hs, hpool, hclean⟩

theorem Buffer.afterBody_end (h : b.body.outline = none) : b.afterBody = b.body := by
  rw [Buffer.afterBody, h]
  rfl

/-- What an accepted frame is like, from an object of zero bytes. -/
theorem FrameResult.accepted {pool pool' : MemoryPool AmqpFrame} {x1 : FrameContext} {b1 : Buffer}
    (hr : Ready (· = AmqpType.zero) x.toContext L) (hs : s ∉ K)
    (hpool : ∀ k ∈ K, pool.load k = x.frames.load k)
    (hlive : Live (· = AmqpFrame.zero) pool (insert s K)) (hinit : pool.initializerCallback = id)
    (hload : pool.load s = some frame)
    (h : FrameResult hash { x with frames := pool' } L b AmqpFrame.zero true (frame, x1, b1)) :
    b1 = b.afterBody ∧ ∃ F A, Accepted hash x L K b s { x1 with frames := pool } frame F A := by
  cases h with
  | empty hh hend =>
    have hnone : b.body.outline = none := outline_end (Nat.le_of_eq hend.symm)
    refine ⟨(Buffer.afterBody_end hnone).symm, .hole .nil, [], ?_⟩
    exact {
      load := hload
      fresh := hs
      frames := hlive
      initializer := hinit
      others := hpool
      lays := by
        rw [hnone]
        exact ⟨rfl, .refl hr.held, by simp [Layout.events, Forest.labels], trivial⟩
      root := rfl
      symbols := Heap.Gains.refl _
      owns := .inl ⟨.inr rfl, rfl⟩
      offset := Nat.le_of_eq hend
      dataOffset := rfl
      frameType := rfl
      word := rfl
      content := .inl ⟨hnone, rfl, rfl⟩
      records := ⟨rfl, rfl, rfl, rfl⟩ }
  | @body c n kids ok y hh hi hlays hy =>
    obtain ⟨A, hg, hA⟩ := hy.owns
    have hcontext := hy.context
    obtain ⟨hoffset, htype, hword, hroot⟩ := hy.header
    obtain ⟨p, fields, hdescribes, hcarries⟩ := hy.accepted rfl
    refine ⟨rfl, .node n kids .nil, A, ?_⟩
    exact {
      load := hload
      fresh := hs
      frames := hlive
      initializer := hinit
      others := hpool
      lays := by
        show Lays _ _ _ _ _ _ _ y.2.toContext _
        rw [hcontext]
        exact hlays
      root := by
        rw [hroot]
        rfl
      symbols := hg
      owns := hA (AmqpFrame.zero_clean b _)
      offset := hi
      dataOffset := hoffset
      frameType := htype
      word := hword
      content := .inr ⟨n, kids, p, fields, rfl, hdescribes, hcarries.id, hcarries.dispatch,
        hcarries.cleanup, hcarries.keeps⟩
      records := by
        show y.2.freedSymbols = _ ∧ y.2.releasedFrames = _ ∧ y.2.descriptors = _ ∧ y.2.debugLevel = _
        rw [hcontext]
        exact ⟨rfl, rfl, rfl, rfl⟩ }

/-- `amqp_decode_frame` ends as the verdict on the bytes says. -/
theorem amqpDecodeFrame_meets (hash : HashFunction) (h : FrameReady x L K) (h8 : amqpFrameHeaderSize ≤ b.size) :
    FrameMeets (frameVerdict hash x.descriptors 0 x.debugLevel b) (amqpDecodeFrame hash x b)
      (fun x' _ => Rejected x b.input b.address L K x')
      (fun s x' b' => b' = b.afterBody ∧ ∃ frame F A, Accepted hash x L K b s x' frame F A) := by
  obtain ⟨s, pool, hall, hs, hlive, hload, hothers, hinit⟩ := allocateFrame_spec h
  have hmeets := decodeFrame_meets hash (x := { x with frames := pool }) h.types h8 AmqpFrame.zero
  have hpool : ∀ frame, ∀ k ∈ K, (pool.store s frame).load k = x.frames.load k := by
    intro frame k hk
    rw [load_store_ne _ (by rintro rfl; exact hs hk), hothers k hk]
  unfold amqpDecodeFrame
  rw [hall, Fault.ok_bind]
  simp only
  change (frameVerdict hash x.descriptors 0 x.debugLevel b).Meets _ _ _ at hmeets
  cases hv : frameVerdict hash x.descriptors 0 x.debugLevel b with
  | stops =>
    rw [hv] at hmeets
    obtain ⟨e, hrun, hreal⟩ := hmeets
    exact ⟨e, by rw [hrun, Fault.error_bind], hreal⟩
  | refused =>
    rw [hv] at hmeets
    obtain ⟨⟨frame, x1, b1⟩, hrun, hres⟩ := hmeets
    obtain ⟨F, A, htakes⟩ := hres.takes h.types
    have hframes : x1.frames = pool := hres.frames
    obtain ⟨x', hclean, hrej⟩ := htakes.cleanup _ hs (hpool frame)
      (hlive.store (Finset.mem_insert_self s K) frame) (load_store_self hload)
    refine ⟨x', b1, ?_, hrej⟩
    simp only [hrun, Fault.ok_bind, Bool.false_eq_true, if_false, hframes]
    rw [hclean, Fault.ok_bind]
  | accepted =>
    rw [hv] at hmeets
    obtain ⟨⟨frame, x1, b1⟩, hrun, hres⟩ := hmeets
    have hframes : x1.frames = pool := hres.frames
    obtain ⟨hb1, F, A, hacc⟩ := FrameResult.accepted h.types hs (hpool frame)
      (hlive.store (Finset.mem_insert_self s K) frame) hinit (load_store_self hload) hres
    refine ⟨s, { x1 with frames := pool.store s frame }, b1, ?_, hb1, frame, F, A, hacc⟩
    simp only [hrun, Fault.ok_bind, if_true, hframes]

/-! ## Entry points -/

theorem Accepted.takes (h : Accepted hash x L K b s x' frame F A) :
    Takes x b.input b.address L frame F A x' :=
  ⟨h.root, h.lays.grows, h.lays.laid, h.symbols, h.owns, h.records⟩

/-- A frame has a descriptor id unless it has no body. -/
theorem Accepted.id_eq_zero (h : Accepted hash x L K b s x' frame F A) :
    frame.descriptor.id = 0 ↔ b.body.outline = none := by
  rcases h.content with ⟨hnone, hdesc, -⟩ | ⟨n, kids, p, fields, rfl, -, hcarries⟩
  · rw [hdesc]
    exact ⟨fun _ => hnone, fun _ => rfl⟩
  · have hid := hcarries.id
    refine ⟨fun h0 => absurd (hid.trans h0) p.descriptorId_ne, fun hnone => ?_⟩
    have hout := h.lays.outline
    rw [hnone] at hout
    cases hout

/-- A frame that is returned, and how it may end up with the caller. -/
def ReturnsFrame (hash : HashFunction) (x : FrameContext) (L K : Finset Slot) (b : Buffer) (s : Slot)
    (x' : FrameContext) (b' : Buffer) : Prop :=
  b' = b.afterBody ∧ ∃ frame F A, Accepted hash x L K b s x' frame F A

/-- A frame that is decoded and then refused is given back as well. -/
theorem refuseFrame_meets {v : Verdict} {r : FrameDecoding} {refused : AmqpFrame → Bool} {p : Bool}
    (h : FrameMeets v r (fun x' _ => Rejected x b.input b.address L K x') (ReturnsFrame hash x L K b))
    (hp : ∀ {s x' frame F A}, Accepted hash x L K b s x' frame F A → refused frame = p) :
    FrameMeets (v.andThen (.ofBool (!p))) (refuseFrame refused r)
      (fun x' _ => Rejected x b.input b.address L K x') (ReturnsFrame hash x L K b) := by
  unfold refuseFrame
  cases v with
  | stops =>
    obtain ⟨e, rfl, he⟩ := h
    exact ⟨e, rfl, he⟩
  | refused =>
    obtain ⟨x', b', rfl, hrej⟩ := h
    exact ⟨x', b', rfl, hrej⟩
  | accepted =>
    obtain ⟨s, x', b', rfl, hb', frame, F, A, hacc⟩ := h
    simp only [Fault.ok_bind, hacc.load, hp hacc]
    cases p with
    | false => exact ⟨s, x', b', rfl, hb', frame, F, A, hacc⟩
    | true =>
      obtain ⟨x'', hclean, hrej⟩ := hacc.takes.cleanup x'.frames hacc.fresh hacc.others
        hacc.frames hacc.load
      refine ⟨x'', b', ?_, hrej⟩
      rw [if_pos rfl, show amqpFrameCleanup x' s = .ok x'' from hclean, Fault.ok_bind]

/-- `amqp_decode_sasl_frame` returns frames with a body and the SASL type. -/
theorem amqpDecodeSaslFrame_meets (hash : HashFunction) (h : FrameReady x L K) (h8 : amqpFrameHeaderSize ≤ b.size) :
    FrameMeets (saslFrameVerdict hash x.descriptors x.debugLevel b) (amqpDecodeSaslFrame hash x b)
      (fun x' _ => Rejected x b.input b.address L K x') (ReturnsFrame hash x L K b) := by
  refine refuseFrame_meets (refuseFrame_meets (amqpDecodeFrame_meets hash h h8) fun hacc => ?_)
    fun hacc => ?_
  · rw [Bool.eq_iff_iff, beq_iff_eq, hacc.id_eq_zero, Option.isNone_iff_eq_none]
  · rw [hacc.frameType]

/-- `amqp_decode_amqp_frame` returns frames without a body or with the AMQP type. -/
theorem amqpDecodeAmqpFrame_meets (hash : HashFunction) (h : FrameReady x L K) (h8 : amqpFrameHeaderSize ≤ b.size) :
    FrameMeets (amqpFrameVerdict hash x.descriptors x.debugLevel b) (amqpDecodeAmqpFrame hash x b)
      (fun x' _ => Rejected x b.input b.address L K x') (ReturnsFrame hash x L K b) := by
  refine refuseFrame_meets (amqpDecodeFrame_meets hash h h8) fun hacc => ?_
  rw [hacc.frameType]
  congr 1
  rw [Bool.eq_iff_iff, bne_iff_ne, ne_eq, hacc.id_eq_zero, Option.isSome_iff_ne_none]

end
end Amqp
