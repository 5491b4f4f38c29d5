import LibAmqp.Transport.Proof.FrameSafety

/-!
# The domain of a descriptor

The domain is tested before it is read: `decode_descriptor` looks at the one the frame object has
from the frame before.

* `decodeFrame_described`: whatever the pools hold, a frame with a performative was described by a
  symbol of the table, or by a ulong when the object's domain was that of AMQP.
* `descriptorDomain_iff`: when the frame decoders refuse the ulongs of other domains.
-/

namespace Amqp

open Lib Memory

/-! ## The bytes of a descriptor -/

/-- The type a body is described by. -/
def Buffer.descriptorItem (b : Buffer) : Option Item :=
  (b.outline.bind fun o => o.2.nth 0).map Prod.fst

/-- The body is described by a symbol of the table. -/
def Buffer.DescribedBySymbol (b : Buffer) : Prop :=
  ∃ item d, b.descriptorItem = some item ∧ item.is isSymbol = true ∧
    (b.bytes item.index item.size, d) ∈ descriptors

/-- The body is described by a ulong whose upper 32 bits are `domain`. -/
def Buffer.DescribedByUlong (b : Buffer) (domain : Nat) : Prop :=
  ∃ item, b.descriptorItem = some item ∧ PrimitiveType.ulong.fits (item.glimpse b.input) = true ∧
    ofBigEndian (b.bytes item.index item.size) >>> 32 = domain

/-- Where the bytes of an accepted text start. -/
theorem walkInto_text {inp : Input} {fuel : Nat} {m : EncodingMetaData} {start i : Nat}
    (hk : m.kind = .variableWidth) (hacc : (walkInto inp fuel m start i).1.accepted = true) :
    (walkInto inp fuel m start i).1.index = i + m.width := by
  cases fuel with
  | zero => cases hacc
  | succ fuel =>
    simp only [walkInto, hk] at hacc ⊢
    rcases hf : inp.field m.width i with ⟨_ | size, j⟩
    · rw [hf] at hacc
      cases hacc
    · obtain ⟨-, rfl⟩ := field_some hf
      rw [hf] at hacc
      by_cases ha : inp.Available (i + m.width) size
      · simp only [if_pos ha]
      · simp only [if_neg ha] at hacc
        cases hacc

/-- The descriptor of a body starts right behind the constructor of the described type. -/
theorem described_first {inp : Input} {i : Nat} {o : Outline} (ho : outline inp i = some o)
    (hk : o.1.kind = some .described) : ∃ fuel, o.2.nth 0 = walkDecode (walkInto inp fuel) inp (i + 1) := by
  rw [outline, walkDecode] at ho
  by_cases hi : i < inp.size
  · rw [if_pos hi] at ho
    cases hl : amqpTypeMetaDataLookup (inp.byte i) with
    | none =>
      rw [hl] at ho
      cases ho
      rw [Item.kind, Item.metaData, hl] at hk
      cases hk
    | some m =>
      rw [hl, Option.some.injEq] at ho
      subst ho
      rw [(Item.kind_of_code (lookup_mem hl).1 (walkInto_code inp _ m i (i + 1)).1).2,
        Option.some.injEq] at hk
      refine ⟨inp.size - i, ?_⟩
      rw [walkInto, hk]
      simp only [walkDescribed]
      cases walkDecode (walkInto inp (inp.size - i)) inp (i + 1) <;> rfl
  · rw [if_neg hi] at ho
    cases ho

/-- Where an accepted descriptor has its text. -/
theorem descriptor_text {inp : Input} {i : Nat} {o : Outline} {d : Item} {dk : Forest Item}
    (ho : outline inp i = some o) (hk : o.1.kind = some .described) (hd : o.2.nth 0 = some (d, dk))
    (htext : d.kind = some .variableWidth) (hacc : d.accepted = true) : d.index ≤ i + 6 := by
  obtain ⟨fuel, hfirst⟩ := described_first ho hk
  rw [hd, walkDecode] at hfirst
  by_cases hi : i + 1 < inp.size
  · rw [if_pos hi] at hfirst
    cases hl : amqpTypeMetaDataLookup (inp.byte (i + 1)) with
    | none =>
      rw [hl] at hfirst
      cases hfirst
      cases hacc
    | some m =>
      rw [hl, Option.some.injEq] at hfirst
      have hitem : d = (walkInto inp fuel m (i + 1) (i + 1 + 1)).1 := by rw [← hfirst]
      have hmem := (lookup_mem hl).1
      rw [hitem, (Item.kind_of_code hmem (walkInto_code inp _ m _ _).1).2, Option.some.injEq] at htext
      rw [hitem] at hacc ⊢
      rw [walkInto_text htext hacc]
      have := field_width hmem (.inl htext)
      omega
  · rw [if_neg hi] at hfirst
    cases hfirst

theorem descriptors_length : ∀ e ∈ descriptors, e.1.length ≤ 40 := by
  decide +kernel

/-- A symbol that starts in the first fragment, and is found, has the bytes of the entry. -/
theorem amqpDescriptorLookup_some {hash : HashFunction} {b : Buffer} {index size : Nat} {d : Descriptor}
    (hi : index ≤ 4000)
    (h : amqpDescriptorLookup hash (amqpLoadDescriptors hash) b index size = some d) :
    (b.bytes index size, d) ∈ descriptors := by
  have hentry : (b.comparedBytes index size, d) ∈ descriptors :=
    HashTable.mem_of_get_fill sameSymbol_iff descriptors_nodup h
  have hsize := descriptors_length _ hentry
  simp only [Buffer.comparedBytes, List.length_map, List.length_range] at hsize
  refine (amqpDescriptorLookup_first hash b ?_ d).1 h
  have : amqpFragmentIndexMask + 1 = 4096 := rfl
  omega

/-! ## Whatever the pools hold -/

section
variable {hash : HashFunction} {x x' : FrameContext} {b b' : Buffer} {frame frame' : AmqpFrame}
  {P : AmqpType → Prop} {L : Finset Slot} {n : Node} {kids : Layout}

theorem Known.is {c : Context} {m : EncodingMetaData} {t : AmqpType} (h : Known c n kids m t)
    (mask : TypedefFlags) (hmask : mask &&& roleMask = 0#32) :
    t.typedefFlagsTest mask = n.item.is mask := by
  rw [h.flags mask hmask, Item.is, codeFlags, h.lookup]
  rfl

/-- A descriptor that is taken: a symbol that is found, or a ulong after the test of the domain. -/
theorem decodeDescriptor_taken (hfits : Fits x.toContext b.input b.address P n kids)
    (hacc : n.item.accepted = true)
    (h : decodeDescriptor hash x b frame (some n.slot) = .ok (true, frame')) :
    (n.item.is isSymbol = true ∧ ∃ d,
      amqpDescriptorLookup hash x.descriptors b n.item.index n.item.size = some d) ∨
    (PrimitiveType.ulong.fits (n.item.glimpse b.input) = true ∧
      frame.descriptor.domain = amqpDescriptorDomain) := by
  obtain ⟨m, t, hk⟩ := hfits.known hacc
  have hload : loadType x.toContext (some n.slot) = .ok t := by
    simp only [loadType, Context.load, hk.load]
  have htest : PrimitiveType.ulong.test t = PrimitiveType.ulong.fits (n.item.glimpse b.input) := by
    simp only [PrimitiveType.test, PrimitiveType.fits, PrimitiveType.flags, hk.is isLong (by decide),
      hk.is isUnsigned (by decide)]
    rfl
  simp only [decodeDescriptor, hload, Fault.ok_bind, hk.is isSymbol (by decide)] at h
  cases hsym : n.item.is isSymbol with
  | true =>
    refine .inl ⟨rfl, ?_⟩
    simp only [hsym, if_true, decodeSymbolicDescriptor, hk.position] at h
    by_cases haddress : t.value.word ≠ b.address
    · rw [if_pos haddress] at h
      cases h
    · rw [if_neg haddress] at h
      cases hfound : amqpDescriptorLookup hash x.descriptors b n.item.index n.item.size with
      | none =>
        rw [hfound] at h
        cases h
      | some d => exact ⟨d, rfl⟩
  | false =>
    refine .inr ?_
    simp only [hsym, Bool.false_eq_true, if_false, htest] at h
    cases hu : PrimitiveType.ulong.fits (n.item.glimpse b.input) with
    | false =>
      rw [hu] at h
      cases h
    | true =>
      rw [hu] at h
      by_cases hd : frame.descriptor.domain = amqpDescriptorDomain
      · exact ⟨rfl, hd⟩
      · rw [if_pos hd] at h
        cases h

/-- A body that is accepted is a valid described type with a descriptor that is taken. -/
theorem decodePerformative_taken {s : Slot}
    (h : decodePerformative hash x b frame s = .ok (true, frame', x')) :
    ∃ t d frame1, x.load s = .ok t ∧ t.typeIsValid = true ∧ t.typeIsComposite = true ∧
      x.getElement t.value.elements 0 = .ok d ∧
      decodeDescriptor hash x b frame d = .ok (true, frame1) := by
  unfold decodePerformative at h
  obtain ⟨t, ht, h⟩ := Fault.bind_eq_ok.1 h
  cases hv : t.typeIsValid with
  | false =>
    rw [hv] at h
    cases h
  | true =>
    cases hc : t.typeIsComposite with
    | false =>
      rw [hv, hc] at h
      cases h
    | true =>
      simp only [hv, hc, Bool.not_true, Bool.false_eq_true, if_false] at h
      obtain ⟨d, hd, h⟩ := Fault.bind_eq_ok.1 h
      obtain ⟨⟨rc, frame1⟩, hrun, h⟩ := Fault.bind_eq_ok.1 h
      cases rc with
      | true => exact ⟨t, d, frame1, ht, hv, hc, hd, hrun⟩
      | false =>
        simp only [Bool.false_eq_true, if_false, Fault.ok_bind] at h
        obtain ⟨-, -, h⟩ := Fault.bind_eq_ok.1 h
        cases h

/-- A valid described type that is decoded from the bytes, by the descriptor of the bytes. -/
theorem decodePerformative_described {c : Context} {o : Outline} (hb : b.index ≤ 3994)
    (htable : x.descriptors = amqpLoadDescriptors hash)
    (hlays : Lays P 0 b.input b.address c L (.cons b.outline .nil) x.toContext (.node n kids .nil))
    (ho : b.outline = some o) {i : Nat}
    (h : decodePerformative hash x { b with index := i } frame n.slot = .ok (true, frame', x')) :
    b.DescribedBySymbol ∨ frame.descriptor.domain = amqpDescriptorDomain ∧
      ∃ domain, b.DescribedByUlong domain := by
  obtain ⟨t, d, frame1, hload, hvalid, hcomp, hd, hrun⟩ := decodePerformative_taken h
  obtain ⟨hn, hkids, -⟩ := hlays.laid
  obtain ⟨t', hload', hvalid', -⟩ := hn.seen
  obtain rfl : t = t' := by
    simp only [Context.load, hload', Except.ok.injEq] at hload
    exact hload.symm
  have hacc : n.item.accepted = true := by rw [← hvalid', hvalid]
  obtain ⟨m, t', hk⟩ := hn.known hacc
  obtain rfl : t = t' := Option.some.inj (hload'.symm.trans hk.load)
  have hroot := hlays.root ho
  have hout : Amqp.outline b.input b.index = some (n.item, kids.outline) := by rw [← hroot, ← ho]; rfl
  have hmk : m.kind = .described := by
    have his := hcomp
    rw [AmqpType.typeIsComposite, hk.is isComposite (by decide)] at his
    obtain ⟨m', hm', hkind⟩ := Item.composite_of_is his
    rw [Item.metaData, hk.lookup, Option.some.injEq] at hm'
    rw [hm', hkind]
  have hkind : n.item.kind = some .described := by rw [Item.kind, Item.metaData, hk.lookup, Option.map_some, hmk]
  obtain ⟨di, dki, vi, fields, h0, -, hdacc, -⟩ := described_parts hout hacc (by
    rw [← hk.is isComposite (by decide)]
    exact hcomp)
  -- the first element of the layout is the descriptor of the outline
  obtain ⟨dn, dk, hdn, rfl⟩ : ∃ dn dk, kids.nth 0 = some (dn, dk) ∧ dn.item = di := by
    rw [Layout.outline, Forest.nth_map] at h0
    cases hnth : kids.nth 0 with
    | none =>
      rw [hnth] at h0
      cases h0
    | some e =>
      rw [hnth, Option.map_some, Option.some.injEq, Prod.mk.injEq] at h0
      exact ⟨e.1, e.2, rfl, h0.1⟩
  have hlen := hk.described hmk
  have hpointer : kids.pointers[0]? = some (some dn.slot) := by
    rw [Layout.pointers_nth (by rw [hlen]; decide), hdn]
    rfl
  obtain ⟨-, l, hl, hslot⟩ := (hk.element (.inr (.inr hmk)) 0 _).2 hpointer
  obtain rfl : d = some dn.slot := by
    simp only [Context.getElement, hl, hslot, Except.ok.injEq] at hd
    exact hd.symm
  have hdfits := (hkids.nth hdn).1
  have hitem : b.descriptorItem = some dn.item := by
    rw [Buffer.descriptorItem, Buffer.outline, hout, Option.bind_some, h0]
    rfl
  rcases decodeDescriptor_taken (b := { b with index := i }) hdfits hdacc hrun with
    ⟨hsym, desc, hfound⟩ | ⟨hulong, hdomain⟩
  · left
    have hindex := descriptor_text hout hkind h0 (Item.symbol_kind hsym) hdacc
    rw [htable] at hfound
    exact ⟨dn.item, desc, hitem, hsym, amqpDescriptorLookup_some (by omega) hfound⟩
  · right
    exact ⟨hdomain, _, dn.item, hitem, hulong, rfl⟩

theorem Buffer.body_index_le (h0 : b.index = 0) : b.body.index ≤ 1020 := by
  have hbyte := (b.byteAt 4).toNat_lt
  show b.index + (b.byteAt 4).toNat * 4 ≤ 1020
  omega

/-- A frame with a performative is described by a symbol of the table, or by a ulong when the frame
object had the domain of AMQP before. -/
theorem decodeFrame_described (hr : Ready P x.toContext L) (h8 : amqpFrameHeaderSize ≤ b.size)
    (h0 : b.index = 0) (htable : x.descriptors = amqpLoadDescriptors hash) {p : Performative}
    (h : decodeFrame hash x b frame = .ok (true, frame', x', b'))
    (hp : frame'.dispatch = some (.performative p)) :
    b.body.DescribedBySymbol ∨ frame.descriptor.domain = amqpDescriptorDomain ∧
      ∃ domain, b.body.DescribedByUlong domain := by
  unfold decodeFrame at h
  rw [decodeHeader_eq h8, Fault.ok_bind] at h
  by_cases hh : b.HeaderAccepted
  · simp only [decide_eq_true hh, if_true] at h
    obtain ⟨⟨type, c, b1⟩, hdecode, h⟩ := Fault.bind_eq_ok.1 h
    by_cases hbeyond : b.size < b.body.index
    · rw [amqpDecode_beyond hr hbeyond] at hdecode
      cases hdecode
    · obtain ⟨hb1, F, hlays, hptr⟩ := amqpDecode_ok hr (Nat.le_of_not_lt hbeyond) hdecode
      rcases Layout.single hptr with ⟨rfl, rfl⟩ | ⟨n, kids, rfl, rfl⟩
      · simp only [Except.ok.injEq, Prod.mk.injEq, true_and] at h
        obtain ⟨rfl, -⟩ := h
        cases hp
      · obtain ⟨⟨rc, frame1, x1⟩, hperf, h⟩ := Fault.bind_eq_ok.1 h
        simp only [Except.ok.injEq, Prod.mk.injEq] at h
        obtain ⟨rfl, rfl, rfl, -⟩ := h
        cases ho : b.body.outline with
        | none =>
          have hout := hlays.outline
          rw [ho] at hout
          cases hout
        | some o =>
          rw [hb1] at hperf
          have hindex : b.body.index ≤ 3994 := Nat.le_trans (Buffer.body_index_le h0) (by decide)
          have hdescribed := decodePerformative_described (x := { x with toContext := c }) hindex htable
            hlays ho hperf
          exact hdescribed
  · simp only [decide_eq_false hh, Bool.false_eq_true, if_false, Except.ok.injEq, Prod.mk.injEq,
      false_and] at h

/-! ## The frame decoders -/

/-- The frame decoders check domains: a frame they return with a performative is described by a
symbol of the table or by a ulong of the domain of AMQP. -/
def DomainsChecked (hash : HashFunction) (x : FrameContext) (b : Buffer) : Prop :=
  ∀ r ∈ [amqpDecodeAmqpFrame hash x b, amqpDecodeSaslFrame hash x b], ∀ s x' b' frame p,
    r = .ok (some s, x', b') → x'.frames.load s = some frame →
    frame.dispatch = some (.performative p) →
    b.body.DescribedBySymbol ∨ b.body.DescribedByUlong amqpDescriptorDomain

/-- The body is described by a ulong of another domain. -/
def Buffer.DescribedFromAfar (b : Buffer) : Prop :=
  ∃ domain, b.DescribedByUlong domain ∧ domain ≠ amqpDescriptorDomain

theorem Buffer.DescribedByUlong.unique {d d' : Nat} (h : b.DescribedByUlong d)
    (h' : b.DescribedByUlong d') : d = d' := by
  obtain ⟨item, hitem, -, rfl⟩ := h
  obtain ⟨item', hitem', -, rfl⟩ := h'
  rw [hitem, Option.some.injEq] at hitem'
  rw [hitem']

theorem symbol_not_ulong {item : Item} {inp : Input} (hsym : item.is isSymbol = true) :
    ¬ PrimitiveType.ulong.fits (item.glimpse inp) = true := by
  intro hulong
  rw [PrimitiveType.fits, Bool.and_eq_true] at hulong
  have hlong : item.is isLong = true := hulong.1
  obtain ⟨m, hm⟩ := Option.ne_none_iff_exists'.1 (Item.known_of_is hsym)
  rw [Item.is_of_decoder hm] at hsym hlong
  revert hsym hlong
  cases m.typeDecoder <;> decide

/-- A frame that is returned is not refused afterwards. -/
theorem refuseFrame_some {refused : AmqpFrame → Bool} {r : FrameDecoding} {s : Slot}
    (h : refuseFrame refused r = .ok (some s, x', b')) :
    r = .ok (some s, x', b') ∧ ∃ frame, x'.frames.load s = some frame ∧ refused frame = false := by
  unfold refuseFrame at h
  obtain ⟨⟨o, x1, b1⟩, rfl, h⟩ := Fault.bind_eq_ok.1 h
  cases o with
  | none => cases h
  | some s1 =>
    rw [Fault.ok_bind] at h
    dsimp only at h
    cases hload : x1.frames.load s1 with
    | none =>
      rw [hload] at h
      cases h
    | some frame =>
      simp only [hload] at h
      cases href : refused frame with
      | true =>
        rw [href, if_pos rfl] at h
        obtain ⟨x2, -, h⟩ := Fault.bind_eq_ok.1 h
        cases h
      | false =>
        rw [href, if_neg (by decide)] at h
        cases h
        exact ⟨rfl, frame, hload, href⟩

theorem refuseFrame_kept {refused : AmqpFrame → Bool} {s : Slot} (hload : x'.frames.load s = some frame)
    (href : refused frame = false) :
    refuseFrame refused (.ok (some s, x', b')) = .ok (some s, x', b') := by
  simp only [refuseFrame, Fault.ok_bind, hload, href, Bool.false_eq_true, if_false]

/-- An allocated frame is in the pool. -/
theorem allocateFrame_loads {s0 : Slot} {f0 : AmqpFrame} {x0 : FrameContext}
    (h : x.allocateFrame = .ok (s0, f0, x0)) : x0.frames.load s0 = some f0 := by
  unfold FrameContext.allocateFrame at h
  obtain ⟨⟨s, pool⟩, -, h⟩ := Fault.bind_eq_ok.1 h
  dsimp only at h
  cases hload : pool.load s with
  | none =>
    rw [hload] at h
    cases h
  | some frame =>
    rw [hload] at h
    cases h
    exact hload

theorem decodeRemainder_frames {ok : Bool} {type : Option Slot}
    (h : decodeRemainder x b frame type = .ok (ok, frame', x')) : x'.frames = x.frames := by
  unfold decodeRemainder at h
  cases type with
  | none => cases h
  | some s =>
    obtain ⟨t, -, h⟩ := Fault.bind_eq_ok.1 h
    cases hl : t.typeIsList with
    | true =>
      rw [hl, if_pos rfl] at h
      cases hp : Performative.ofDescriptorId frame.descriptor.id with
      | none =>
        rw [hp] at h
        cases h
        rfl
      | some p =>
        rw [hp] at h
        simp only [p.decode_eq, decodeListFrame] at h
        obtain ⟨y, -, h⟩ := Fault.bind_eq_ok.1 h
        cases h
        rfl
    | false =>
      rw [hl, if_neg (by decide)] at h
      obtain ⟨u, -, h⟩ := Fault.bind_eq_ok.1 h
      cases h
      rfl

theorem decodePerformative_frames {ok : Bool} {s : Slot}
    (h : decodePerformative hash x b frame s = .ok (ok, frame', x')) : x'.frames = x.frames := by
  unfold decodePerformative at h
  obtain ⟨t, -, h⟩ := Fault.bind_eq_ok.1 h
  cases hv : t.typeIsValid with
  | false =>
    rw [hv] at h
    cases h
    rfl
  | true =>
    cases hc : t.typeIsComposite with
    | false =>
      rw [hv, hc] at h
      cases h
    | true =>
      simp only [hv, hc, Bool.not_true, Bool.false_eq_true, if_false] at h
      obtain ⟨d, -, h⟩ := Fault.bind_eq_ok.1 h
      obtain ⟨⟨rc, frame1⟩, -, h⟩ := Fault.bind_eq_ok.1 h
      have hdump : ∀ (rc' : Bool) (frame2 : AmqpFrame) (x2 : FrameContext), x2.frames = x.frames →
          (if rc' = true then .ok (true, frame2, x2) else do
            amqpTypeDump x2 b (some s)
            .ok (false, frame2, x2)) = Except.ok (ok, frame', x') → x'.frames = x.frames := by
        intro rc' frame2 x2 hframes h
        cases rc' with
        | true =>
          cases h
          exact hframes
        | false =>
          obtain ⟨u, -, h⟩ := Fault.bind_eq_ok.1 h
          cases h
          exact hframes
      cases rc with
      | false => exact hdump false frame1 x rfl h
      | true =>
        obtain ⟨v, -, h⟩ := Fault.bind_eq_ok.1 h
        obtain ⟨y, hrest, h⟩ := Fault.bind_eq_ok.1 h
        exact hdump y.1 y.2.1 y.2.2 (decodeRemainder_frames hrest) h

/-- The decoder of a frame does not touch the pool of frames. -/
theorem decodeFrame_frames {ok : Bool} (h : decodeFrame hash x b frame = .ok (ok, frame', x', b')) :
    x'.frames = x.frames := by
  unfold decodeFrame at h
  obtain ⟨⟨rc, b1, frame1⟩, -, h⟩ := Fault.bind_eq_ok.1 h
  cases rc with
  | false =>
    cases h
    rfl
  | true =>
    obtain ⟨⟨type, c, b2⟩, -, h⟩ := Fault.bind_eq_ok.1 h
    cases type with
    | none =>
      cases h
      rfl
    | some s =>
      obtain ⟨⟨rc', frame2, x2⟩, hperf, h⟩ := Fault.bind_eq_ok.1 h
      cases h
      exact (decodePerformative_frames hperf :)

/-- What `amqp_decode_frame` returns is what `decode_frame` made of the object. -/
theorem amqpDecodeFrame_some {s s0 : Slot} {f0 : AmqpFrame} {x0 : FrameContext}
    (hall : x.allocateFrame = .ok (s0, f0, x0))
    (h : amqpDecodeFrame hash x b = .ok (some s, x', b')) :
    ∃ frame x1, decodeFrame hash x0 b f0 = .ok (true, frame, x1, b') ∧ x'.frames.load s = some frame := by
  unfold amqpDecodeFrame at h
  rw [hall, Fault.ok_bind] at h
  obtain ⟨⟨rc, frame, x1, b1⟩, hrun, h⟩ := Fault.bind_eq_ok.1 h
  cases rc with
  | false =>
    simp only [Bool.false_eq_true, if_false] at h
    obtain ⟨x2, -, h⟩ := Fault.bind_eq_ok.1 h
    cases h
  | true =>
    simp only [if_true, Except.ok.injEq, Prod.mk.injEq, Option.some.injEq] at h
    obtain ⟨rfl, rfl, rfl⟩ := h
    refine ⟨frame, x1, hrun, ?_⟩
    show (x1.frames.store s0 frame).load s0 = some frame
    rw [decodeFrame_frames hrun]
    exact load_store_self (allocateFrame_loads hall)

theorem allocateFrame_context {s0 : Slot} {f0 : AmqpFrame} {x0 : FrameContext}
    (h : x.allocateFrame = .ok (s0, f0, x0)) : x0 = { x with frames := x0.frames } := by
  unfold FrameContext.allocateFrame at h
  obtain ⟨⟨s, pool⟩, -, h⟩ := Fault.bind_eq_ok.1 h
  dsimp only at h
  cases hload : pool.load s with
  | none =>
    rw [hload] at h
    cases h
  | some frame =>
    rw [hload] at h
    cases h
    rfl

section
variable {s0 : Slot} {f0 : AmqpFrame} {x0 : FrameContext}

/-- Domains are checked if no frame gets past the test with a ulong of another domain. -/
theorem domainsChecked_of (hr : Ready P x.toContext L) (hall : x.allocateFrame = .ok (s0, f0, x0))
    (htable : x.descriptors = amqpLoadDescriptors hash) (h8 : amqpFrameHeaderSize ≤ b.size)
    (h0 : b.index = 0)
    (h : ∀ frame x1 b1, decodeFrame hash x0 b f0 = .ok (true, frame, x1, b1) →
      ¬ (f0.descriptor.domain = amqpDescriptorDomain ∧ b.body.DescribedFromAfar)) :
    DomainsChecked hash x b := by
  intro r hmem s x' b' frame p hrun hload hp
  have hdecode : amqpDecodeFrame hash x b = .ok (some s, x', b') := by
    rcases List.mem_cons.1 hmem with rfl | hmem
    · exact (refuseFrame_some hrun).1
    · obtain rfl := List.mem_singleton.1 hmem
      exact (refuseFrame_some (refuseFrame_some hrun).1).1
  obtain ⟨frame1, x1, hframe, hload1⟩ := amqpDecodeFrame_some hall hdecode
  obtain rfl : frame = frame1 := Option.some.inj (hload.symm.trans hload1)
  have hcontext := allocateFrame_context hall
  have hr0 : Ready P x0.toContext L := by
    rw [hcontext]
    exact hr
  have htable0 : x0.descriptors = amqpLoadDescriptors hash := by
    rw [hcontext]
    exact htable
  rcases decodeFrame_described hr0 h8 h0 htable0 hframe hp with hsym | ⟨hdomain, domain, hulong⟩
  · exact .inl hsym
  · refine .inr ?_
    by_cases hd : domain = amqpDescriptorDomain
    · exact hd ▸ hulong
    · exact absurd ⟨hdomain, domain, hulong, hd⟩ (h frame x1 b' hframe)

/-- A decoded frame with a descriptor id is returned by the decoder of its type. -/
theorem decodeFrame_returned (hall : x.allocateFrame = .ok (s0, f0, x0)) {x1 : FrameContext} {b1 : Buffer}
    (hrun : decodeFrame hash x0 b f0 = .ok (true, frame, x1, b1))
    (htype : frame.frameType = amqpFrameType ∨ frame.frameType = amqpSaslFrameType)
    (hid : frame.descriptor.id ≠ 0) :
    ∃ x', ∃ r ∈ [amqpDecodeAmqpFrame hash x b, amqpDecodeSaslFrame hash x b],
      r = .ok (some s0, x', b1) ∧ x'.frames.load s0 = some frame := by
  have hload : (x1.frames.store s0 frame).load s0 = some frame := by
    rw [decodeFrame_frames hrun]
    exact load_store_self (allocateFrame_loads hall)
  have hdecode : amqpDecodeFrame hash x b =
      .ok (some s0, { x1 with frames := x1.frames.store s0 frame }, b1) := by
    simp only [amqpDecodeFrame, hall, Fault.ok_bind, hrun, if_true]
  refine ⟨{ x1 with frames := x1.frames.store s0 frame }, ?_⟩
  rcases htype with ht | ht
  · refine ⟨_, .head _, ?_, hload⟩
    rw [amqpDecodeAmqpFrame, hdecode]
    exact refuseFrame_kept hload (by simp [ht])
  · refine ⟨_, .tail _ (.head _), ?_, hload⟩
    rw [amqpDecodeSaslFrame, hdecode, refuseFrame_kept hload (by simpa using hid)]
    exact refuseFrame_kept hload (by simp [ht])

/-- A ulong of another domain gets past the test if the frame object has the domain of AMQP. -/
theorem not_domainsChecked (hr : Ready (· = AmqpType.zero) x.toContext L)
    (hall : x.allocateFrame = .ok (s0, f0, x0)) (h8 : amqpFrameHeaderSize ≤ b.size)
    (hdomain : f0.descriptor.domain = amqpDescriptorDomain) (hafar : b.body.DescribedFromAfar)
    (hv : frameVerdict hash x.descriptors amqpDescriptorDomain x.debugLevel b = .accepted) :
    ¬ DomainsChecked hash x b := by
  intro hchecked
  obtain ⟨domain, hulong, hother⟩ := hafar
  have hcontext := allocateFrame_context hall
  have hr0 : Ready (· = AmqpType.zero) x0.toContext L := by
    rw [hcontext]
    exact hr
  have hmeets := decodeFrame_meets hash hr0 h8 f0
  rw [hcontext, hdomain, hv] at hmeets
  obtain ⟨⟨frame, x1, b1⟩, hrun, hresult⟩ := hmeets
  rw [← hcontext] at hrun
  have hframe : frame.frameType = b.byteAt 5 ∧ b.HeaderAccepted ∧ frame.descriptor.id ≠ 0 ∧
      ∃ p, frame.dispatch = some (.performative p) := by
    cases hresult with
    | empty hh hend =>
      obtain ⟨item, hitem, -⟩ := hulong
      rw [Buffer.descriptorItem, outline_end (Nat.le_of_eq hend.symm)] at hitem
      cases hitem
    | body hh hi hlays hy =>
      obtain ⟨p, fields, -, hcarries⟩ := hy.accepted rfl
      refine ⟨hy.header.2.1, hh, ?_, p, hcarries.dispatch⟩
      rw [← hcarries.id]
      exact p.descriptorId_ne
  obtain ⟨htype, hh, hid, p, hp⟩ := hframe
  obtain ⟨x', r, hmem, hr, hload⟩ := decodeFrame_returned hall hrun (by rw [htype]; exact hh.2) hid
  rcases hchecked r hmem s0 x' b1 frame p hr hload hp with ⟨item, d, hitem, hsym, -⟩ | hamqp
  · obtain ⟨item', hitem', hfits, -⟩ := hulong
    rw [hitem, Option.some.injEq] at hitem'
    subst hitem'
    exact symbol_not_ulong hsym hfits
  · exact hother (hulong.unique hamqp)

/-- Which frames get past the test of the domain: those that find the domain of AMQP in the frame
object. With types that start as zero bytes the condition is exact: such a frame is returned unless
it is refused for another reason. -/
theorem descriptorDomain_iff (hr : Ready P x.toContext L) (hall : x.allocateFrame = .ok (s0, f0, x0))
    (htable : x.descriptors = amqpLoadDescriptors hash) (h8 : amqpFrameHeaderSize ≤ b.size)
    (h0 : b.index = 0) :
    (¬ (f0.descriptor.domain = amqpDescriptorDomain ∧ b.body.DescribedFromAfar) →
      DomainsChecked hash x b) ∧
    ((∀ t, P t → t = AmqpType.zero) →
      (DomainsChecked hash x b ↔
        ¬ (f0.descriptor.domain = amqpDescriptorDomain ∧ b.body.DescribedFromAfar ∧
          frameVerdict hash x.descriptors amqpDescriptorDomain x.debugLevel b = .accepted))) := by
  refine ⟨fun h => domainsChecked_of hr hall htable h8 h0 fun _ _ _ _ => h, fun hP => ⟨?_, ?_⟩⟩
  · intro hchecked hafar
    exact not_domainsChecked (hr.mono hP) hall h8 hafar.1 hafar.2.1 hafar.2.2 hchecked
  · intro hno
    refine domainsChecked_of hr hall htable h8 h0 fun frame x1 b1 hrun hafar => ?_
    refine hno ⟨hafar.1, hafar.2, ?_⟩
    have hcontext := allocateFrame_context hall
    have hr0 : Ready (· = AmqpType.zero) x0.toContext L := by
      rw [hcontext]
      exact hr.mono hP
    have hv := (decodeFrame_meets hash hr0 h8 f0).eq_accepted hrun
    rw [hcontext, hafar.1] at hv
    exact hv

end
end

/-- A close described by the ulong 0x18 in an object of zero bytes. -/
theorem descriptorDomain_close : DomainsChecked (fun _ => 0) newContext closeFrame := by
  obtain ⟨s, pool, hall, -⟩ := allocateFrame_spec newContext_ready
  have htable : newContext.descriptors = amqpLoadDescriptors fun _ => 0 := by
    rw [newContext, FrameContext.create]
  refine (descriptorDomain_iff newContext_ready.types hall htable (by decide) rfl).1 ?_
  rintro ⟨-, domain, ⟨item, hitem, -, rfl⟩, hother⟩
  have hclose : closeFrame.body.descriptorItem = some ⟨0x53, 9, 11, true, 10, 1⟩ := by decide +kernel
  rw [hclose, Option.some.injEq] at hitem
  subst hitem
  exact hother (by decide +kernel)

/-- A close described by a ulong whose upper half is 1. -/
def afarCloseFrame : Buffer := .received
  [0, 0, 0, 19, 2, 0, 0, 0, 0x00, 0x80, 0, 0, 0, 1, 0, 0, 0, 0x18, 0x45]

theorem descriptorDomain_afarClose : ¬ DomainsChecked (fun _ => 0) newContext afarCloseFrame := by
  obtain ⟨s, pool, hall, -⟩ := allocateFrame_spec newContext_ready
  have hitem : afarCloseFrame.body.descriptorItem = some ⟨0x80, 9, 18, true, 10, 8⟩ := by decide +kernel
  have hafar : afarCloseFrame.body.DescribedFromAfar :=
    ⟨1, ⟨_, hitem, by decide +kernel, by decide +kernel⟩, by decide⟩
  exact not_domainsChecked newContext_ready.types hall (by decide) rfl hafar (by decide +kernel)

end Amqp
