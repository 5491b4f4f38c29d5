import LibAmqp.Transport.Body
import LibAmqp.Transport.Proof.Field

/-!
# What the frame decoder does

* `decodePerformative_meets`: the decoder of a body ends as the verdict on the body says.
* `amqpDecodeFrame_meets`: so does the decoder of a frame, whose objects start as zero bytes.
-/

namespace Amqp

open Lib Memory

section
variable {hash : HashFunction} {x : FrameContext} {b : Buffer} {frame : AmqpFrame} {n : Node}
  {kids : Layout} {t : AmqpType}

/-! ## Headers -/

/-- The frame with what its header says. -/
def AmqpFrame.withHeader (frame : AmqpFrame) (b : Buffer) : AmqpFrame :=
  { frame with
    dataOffset := b.dataOffset
    frameType := b.byteAt 5
    word := ofBigEndian (b.bytes 6 2) }

theorem decodeHeader_eq (h : amqpFrameHeaderSize ≤ b.size) (frame : AmqpFrame) :
    decodeHeader b frame = .ok (decide b.HeaderAccepted, b.body, frame.withHeader b) := by
  have h8 : 8 ≤ b.size := h
  unfold decodeHeader
  rw [if_neg (Nat.not_lt.2 h), Buffer.uncheckedGetcAt_ok (by omega),
    Buffer.uncheckedGetcAt_ok (by omega), Buffer.ntoh_ok (by omega)]
  simp only [Fault.ok_bind]
  by_cases ho : (b.byteAt 4).toNat * amqpFrameHeaderDataOffsetMultiplier < amqpFrameHeaderSize
  · have hno : ¬ b.HeaderAccepted := fun ha => absurd ho (Nat.not_lt.2 ha.1)
    rw [if_pos ho, decide_eq_false hno]
    rfl
  · rw [if_neg ho]
    by_cases ht : b.byteAt 5 ≠ amqpFrameType ∧ b.byteAt 5 ≠ amqpSaslFrameType
    · have hno : ¬ b.HeaderAccepted := fun ha => ha.2.elim ht.1 ht.2
      rw [if_pos ht, decide_eq_false hno]
      rfl
    · have hyes : b.HeaderAccepted := by
        refine ⟨Nat.le_of_not_lt ho, ?_⟩
        by_cases h0 : b.byteAt 5 = amqpFrameType
        · exact .inl h0
        · exact .inr (not_not.1 fun h1 => ht ⟨h0, h1⟩)
      rw [if_neg ht, decide_eq_true hyes]
      rfl

/-! ## Descriptors -/

theorem amqpDescriptorLookup_empty (hash : HashFunction) (table : DescriptorTable) (b : Buffer)
    (i j : Nat) : amqpDescriptorLookup hash table b i 0 = amqpDescriptorLookup hash table b j 0 := rfl

theorem decodeDescriptor_eq (hs : Seen x.toContext b n kids) (hacc : n.item.accepted = true)
    (frame : AmqpFrame) :
    decodeDescriptor hash x b frame (some n.slot) =
      match descriptorOf (amqpDescriptorLookup hash x.descriptors b n.item.index n.item.size)
        frame.descriptor.domain (n.item.glimpse b.input) with
      | some d => .ok (true, { frame with descriptor := d })
      | none => .ok (false, frame) := by
  obtain ⟨t, ht⟩ := hs.glance
  have hg : (n.item.glimpse b.input).is isSymbol = n.item.is isSymbol := rfl
  simp only [decodeDescriptor, loadType, ht.loaded, Fault.ok_bind,
    ht.flags isSymbol (by decide) (by decide), descriptorOf, hg, PrimitiveType.test_eq ht]
  cases hsym : n.item.is isSymbol with
  | true =>
    have hkind := Item.symbol_kind hsym
    have hlookup : amqpDescriptorLookup hash x.descriptors b t.position.index t.position.size =
        amqpDescriptorLookup hash x.descriptors b n.item.index n.item.size := by
      rw [ht.size (Item.known_of_is hsym)]
      by_cases h0 : n.item.size = 0
      · rw [h0]
        exact amqpDescriptorLookup_empty ..
      · rw [ht.index (Item.known_of_is hsym) h0]
    cases hfound : amqpDescriptorLookup hash x.descriptors b n.item.index n.item.size <;>
      simp only [if_true, decodeSymbolicDescriptor, ht.text hkind (.inr hacc), ne_eq,
        not_true_eq_false, if_false, hlookup, hfound]
  | false =>
    simp only [Bool.false_eq_true, if_false]
    cases hu : PrimitiveType.ulong.fits (n.item.glimpse b.input) with
    | false => rfl
    | true =>
      have hnum : t.value = (n.item.glimpse b.input).number := by
        rw [PrimitiveType.fits, Bool.and_eq_true] at hu
        exact ht.number (Item.isNumber_of_fits .ulong hu.1)
      simp only [Bool.not_true, Bool.false_eq_true, if_false, Bool.true_and, hnum]
      by_cases hd : frame.descriptor.domain = amqpDescriptorDomain
      · rw [if_neg (not_not.2 hd), hd]
        rfl
      · rw [if_pos hd, beq_false_of_ne hd]
        rfl

/-! ## Bodies -/

/-- The symbols a frame owns: those its cleanup function gives back. -/
def AmqpFrame.Owns (frame : AmqpFrame) (A : List Nat) : Prop :=
  ((frame.descriptor.id = 0 ∨ frame.cleanup = none) ∧ A = []) ∨
    ∃ p, frame.descriptor.id ≠ 0 ∧ frame.cleanup = some p ∧ FieldsOwn frame.fields p.fields 0 A

/-- A frame object without leftovers that a cleanup would follow. -/
structure AmqpFrame.Clean (frame : AmqpFrame) : Prop where
  cleanup : frame.cleanup = none
  fields : ∀ k, (frame.fields k).Clean

/-- A frame that was decoded to a performative, by the fields in `kids`. -/
structure AmqpFrame.Carries (frame : AmqpFrame) (p : Performative) (inp : Input) (heap : SymbolHeap)
    (kids : Layout) (frame' : AmqpFrame) : Prop where
  id : p.descriptorId = frame'.descriptor.id
  dispatch : frame'.dispatch = some (.performative p)
  cleanup : frame'.cleanup = some p
  keeps : (∀ k, (frame.fields k).isNull = false) → ∀ (i : Nat) (d : FieldDecoder),
    p.fields[i]? = some d → d.Keeps inp heap (kids.nth i) (frame'.fields i)

/-- What the decoder of a body leaves of the frame and the context. -/
structure BodyResult (x : FrameContext) (inp : Input) (frame : AmqpFrame) (ok : Bool)
    (y : AmqpFrame × FrameContext) (carries : Performative → Layout → Descriptor → Prop) : Prop where
  context : y.2 = { x with symbols := y.2.symbols }
  header : y.1.dataOffset = frame.dataOffset ∧ y.1.frameType = frame.frameType ∧
    y.1.word = frame.word ∧ y.1.type = frame.type
  accepted : ok = true → ∃ p kids, carries p kids y.1.descriptor ∧
    frame.Carries p inp y.2.symbols kids y.1
  owns : ∃ A, x.symbols.Gains y.2.symbols A ∧ (frame.Clean → y.1.Owns A)

theorem Performative.ofDescriptorId_some {id : Nat} {p : Performative}
    (h : Performative.ofDescriptorId id = some p) : p.descriptorId = id := by
  have := List.find?_some h
  exact eq_of_beq this

theorem Performative.descriptorId_ne (p : Performative) : p.descriptorId ≠ 0 := by
  cases p <;> decide

/-- The performative decoders are one function. -/
theorem Performative.decode_eq (p : Performative) : p.decode = decodeListFrame p := by
  cases p <;> rfl

/-- The decoder of a performative's fields. -/
theorem decodeListFrame_meets (hs : Seen x.toContext b n kids) (hks : kids.All (Seen x.toContext b))
    (hl : n.item.is isList = true) {p : Performative}
    (hid : Performative.ofDescriptorId frame.descriptor.id = some p) :
    (fieldsVerdict (kids.reading b.input) p.fields 0).Meets Fault.Real
      (decodeListFrame p x frame n.slot) fun ok y =>
        BodyResult x b.input frame ok y fun q fields d =>
          q = p ∧ fields = kids ∧ d = frame.descriptor := by
  obtain ⟨t, ht⟩ := hs.glance
  have h := decodeFields_meets ht hl hks p.fields 0 x.symbols frame.fields
  have hid' := Performative.ofDescriptorId_some hid
  unfold decodeListFrame
  refine h.map fun ok y hy => ⟨_, rfl, rfl, ⟨rfl, rfl, rfl, rfl⟩, fun hok => ?_, ?_⟩
  · refine ⟨p, kids, ⟨rfl, rfl, rfl⟩, hid', rfl, rfl, fun hn i d hd => ?_⟩
    have hkeeps := hy.keeps hok i d hd
    rw [Nat.zero_add] at hkeeps
    exact hkeeps (hn i)
  · obtain ⟨A, hg, hA⟩ := hy.owns
    refine ⟨A, hg, fun hc => .inr ⟨p, ?_, rfl, hA fun k _ => hc.fields k⟩⟩
    rw [← hid']
    exact p.descriptorId_ne

/-- Nothing but the frame's descriptor was touched. -/
theorem BodyResult.untouched {inp : Input} {frame' : AmqpFrame}
    {carries : Performative → Layout → Descriptor → Prop} (h : frame' = { frame with descriptor := frame'.descriptor }) :
    BodyResult x inp frame false (frame', x) carries := by
  refine ⟨rfl, ?_, fun h => (nomatch h), [], Heap.Gains.refl _, fun hc => .inl ⟨.inr ?_, rfl⟩⟩
  · rw [h]
    exact ⟨rfl, rfl, rfl, rfl⟩
  · rw [h]
    exact hc.cleanup

/-- What a body describes. -/
theorem decodeRemainder_meets (hs : Seen x.toContext b n kids) (hks : kids.All (Seen x.toContext b))
    (hsupp : (Layout.outline (.node n kids .nil)).All Item.Supported)
    (hfuel : kids.slots.length < x.types.outstandingAllocations) (frame : AmqpFrame) :
    (remainderVerdict frame.descriptor.id (n.item.glimpse b.input) (kids.reading b.input)).Meets
      Fault.Real (decodeRemainder x b frame (some n.slot)) fun ok y =>
        BodyResult x b.input frame ok y fun p fields d => Performative.ofDescriptorId d.id = some p ∧
          fields = kids ∧ d = frame.descriptor ∧ n.item.is isList = true := by
  obtain ⟨t, ht⟩ := hs.glance
  have hgl : (n.item.glimpse b.input).is isList = n.item.is isList := rfl
  have hload : x.toContext.load n.slot = .ok t := ht.loaded
  simp only [decodeRemainder, remainderVerdict, hload, Fault.ok_bind, AmqpType.typeIsList,
    ht.flags isList (by decide) (by decide), hgl]
  cases hl : n.item.is isList with
  | true =>
    simp only [if_true]
    cases hid : Performative.ofDescriptorId frame.descriptor.id with
    | none => exact ⟨_, rfl, BodyResult.untouched rfl⟩
    | some p =>
      simp only [p.decode_eq]
      refine (decodeListFrame_meets hs hks hl hid).imp fun ok y hy =>
        ⟨hy.context, hy.header, fun hok => ?_, hy.owns⟩
      obtain ⟨q, fields, ⟨rfl, rfl, hd⟩, hcarries⟩ := hy.accepted hok
      exact ⟨q, fields, ⟨by rw [hd, hid], rfl, hd, trivial⟩, hcarries⟩
  | false =>
    have hprint := amqpTypePrint_spec hs hks hsupp hfuel
    have hreading : Layout.reading b.input (.node n kids .nil) =
        .node (n.item.glimpse b.input) (kids.reading b.input) .nil := rfl
    rw [hreading] at hprint
    simp only [Bool.false_eq_true, if_false]
    cases hp : Reading.printable (.node (n.item.glimpse b.input) (kids.reading b.input) .nil) with
    | true =>
      rw [hp] at hprint
      have hrun : amqpTypePrint b x.toContext (some n.slot) = .ok () := hprint
      rw [if_pos rfl, hrun]
      exact ⟨_, rfl, BodyResult.untouched rfl⟩
    | false =>
      rw [hp] at hprint
      obtain ⟨e, hrun, hreal⟩ := hprint
      rw [if_neg (by decide), hrun]
      exact ⟨e, rfl, hreal⟩

theorem Layout.slots_nth {v : Node} {vk : Layout} :
    ∀ {i : Nat}, kids.nth i = some (v, vk) → vk.slots.length < kids.slots.length := by
  induction kids with
  | nil =>
    intro i h
    cases h
  | hole rest ih =>
    intro i h
    cases i with
    | zero => cases h
    | succ i => exact ih h
  | node a ks rest _ ih =>
    intro i h
    simp only [Layout.slots, List.length_cons, List.length_append]
    cases i with
    | zero =>
      cases h
      omega
    | succ i =>
      have := ih h
      omega

/-- A type that can be seen and printed, with its elements. -/
structure Printable (x : FrameContext) (b : Buffer) (n : Node) (kids : Layout) : Prop where
  seen : Seen x.toContext b n kids
  elements : kids.All (Seen x.toContext b)
  supported : (Layout.outline (.node n kids .nil)).All Item.Supported
  fuel : kids.slots.length < x.types.outstandingAllocations

/-- An element of such a type is another. -/
theorem Printable.nth (h : Printable x b n kids) {i : Nat} {v : Node} {vk : Layout}
    (hv : kids.nth i = some (v, vk)) : Printable x b v vk := by
  obtain ⟨hseen, hkids⟩ := h.elements.nth hv
  have hout : (Layout.outline kids).nth i = some (v.item, Layout.outline vk) := by
    rw [Layout.outline, Forest.nth_map, hv]
    rfl
  obtain ⟨h1, h2⟩ := h.supported.2.1.nth hout
  exact ⟨hseen, hkids, ⟨h1, h2, trivial⟩, Nat.lt_trans (Layout.slots_nth hv) h.fuel⟩

/-- What is refused is printed. -/
theorem amqpTypeDump_meets (hp : Printable x b n kids) {v : Verdict} {q : Bool → AmqpFrame × FrameContext → Prop}
    {r : Except Fault (Bool × AmqpFrame × FrameContext)} (h : v.Meets Fault.Real r q)
    (hx : ∀ ok y, q ok y → y.2 = { x with symbols := y.2.symbols }) :
    (printedVerdict x.debugLevel (Layout.reading b.input (.node n kids .nil)).printable v).Meets
      Fault.Real
      (do
        let (rc, frame, x) ← r
        if rc then .ok (true, frame, x)
        else do
          amqpTypeDump x b (some n.slot)
          .ok (false, frame, x)) q := by
  have hprint := amqpTypePrint_spec hp.seen hp.elements hp.supported hp.fuel
  cases v with
  | stops =>
    obtain ⟨e, rfl, he⟩ := h
    exact ⟨e, rfl, he⟩
  | accepted =>
    obtain ⟨y, rfl, hy⟩ := h
    exact ⟨y, rfl, hy⟩
  | refused =>
    obtain ⟨y, rfl, hy⟩ := h
    have hy2 := hx false y hy
    have hcontext : y.2.toContext = x.toContext := by rw [hy2]
    have hlevel : y.2.debugLevel = x.debugLevel := by rw [hy2]
    simp only [Fault.ok_bind, Bool.false_eq_true, if_false, amqpTypeDump, hcontext, hlevel,
      printedVerdict, true_and]
    by_cases hd : 2 < x.debugLevel
    · rw [if_pos hd]
      cases hpr : (Layout.reading b.input (.node n kids .nil)).printable with
      | true =>
        rw [hpr] at hprint
        have hrun : amqpTypePrint b x.toContext (some n.slot) = .ok () := hprint
        rw [if_neg (by simp), hrun]
        exact ⟨y, rfl, hy⟩
      | false =>
        rw [hpr] at hprint
        obtain ⟨e, hrun, hreal⟩ := hprint
        rw [if_pos ⟨hd, rfl⟩, hrun]
        exact ⟨e, rfl, hreal⟩
    · rw [if_neg hd, if_neg (fun h => hd h.1)]
      exact ⟨y, rfl, hy⟩

/-- What the table has for the first element of a body. -/
def Layout.symbolLookup (hash : HashFunction) (table : DescriptorTable) (b : Buffer) (kids : Layout) :
    Option Descriptor :=
  (kids.nth 0).bind fun d => amqpDescriptorLookup hash table b d.1.item.index d.1.item.size

/-- How an accepted body was described: by `d`, with the performative's fields in `fields`. -/
def Describes (lookup : Option Descriptor) (domain : Nat) (inp : Input) (kids : Layout)
    (p : Performative) (fields : Layout) (d : Descriptor) : Prop :=
  Performative.ofDescriptorId d.id = some p ∧ ∃ descriptor ks described,
    kids.nth 0 = some (descriptor, ks) ∧ kids.nth 1 = some (described, fields) ∧
    described.item.is isList = true ∧
    descriptorOf lookup domain (descriptor.item.glimpse inp) = some d

/-- A descriptor and what it describes. -/
theorem decodeDescribed_meets (hash : HashFunction) {d v : Node} {dk vk : Layout} (h0 : kids.nth 0 = some (d, dk))
    (h1 : kids.nth 1 = some (v, vk)) (hd : Printable x b d dk) (hv : Printable x b v vk)
    (hacc : d.item.accepted = true) (frame : AmqpFrame) :
    (describedVerdict (Layout.symbolLookup hash x.descriptors b kids) frame.descriptor.domain
      (kids.reading b.input)).Meets Fault.Real
      (do
        let (rc, frame) ← decodeDescriptor hash x b frame (some d.slot)
        if rc then decodeRemainder x b frame (some v.slot) else .ok (false, frame, x)) fun ok y =>
        BodyResult x b.input frame ok y
          (Describes (Layout.symbolLookup hash x.descriptors b kids) frame.descriptor.domain b.input
            kids) := by
  have hlook : Layout.symbolLookup hash x.descriptors b kids =
      amqpDescriptorLookup hash x.descriptors b d.item.index d.item.size := by
    rw [Layout.symbolLookup, h0, Option.bind_some]
  rw [describedVerdict, Layout.reading_nth, Layout.reading_nth, h0, h1, decodeDescriptor_eq hd.seen hacc,
    hlook]
  simp only [FieldNode.reading, Option.map_some]
  cases hdesc : descriptorOf (amqpDescriptorLookup hash x.descriptors b d.item.index d.item.size)
      frame.descriptor.domain (d.item.glimpse b.input) with
  | none => exact ⟨_, rfl, BodyResult.untouched rfl⟩
  | some desc =>
    simp only [Fault.ok_bind, if_true]
    have h := decodeRemainder_meets hv.seen hv.elements hv.supported hv.fuel
      { frame with descriptor := desc }
    refine h.imp fun ok y hy => ⟨hy.context, hy.header, fun hok => ?_, ?_⟩
    · obtain ⟨p, fields, ⟨hp, rfl, hyd, hlist⟩, hcarries⟩ := hy.accepted hok
      refine ⟨p, fields, ⟨hp, d, dk, v, h0, h1, hlist, ?_⟩, ?_⟩
      · rw [hdesc, hyd]
      · exact ⟨hcarries.id, hcarries.dispatch, hcarries.cleanup, hcarries.keeps⟩
    · obtain ⟨A, hg, hA⟩ := hy.owns
      exact ⟨A, hg, fun hc => hA ⟨hc.cleanup, hc.fields⟩⟩

/-- The decoder of a body ends as the verdict on the body says. -/
theorem decodePerformative_meets (hash : HashFunction) (hp : Printable x b n kids) (frame : AmqpFrame) :
    (bodyVerdict (Layout.symbolLookup hash x.descriptors b kids) frame.descriptor.domain x.debugLevel
      (n.item.glimpse b.input) (kids.reading b.input)).Meets Fault.Real
      (decodePerformative hash x b frame n.slot) fun ok y =>
        BodyResult x b.input frame ok y
          (Describes (Layout.symbolLookup hash x.descriptors b kids) frame.descriptor.domain b.input
            kids) := by
  obtain ⟨t, ht⟩ := hp.seen.glance
  have hload : x.toContext.load n.slot = .ok t := ht.loaded
  have hga : (n.item.glimpse b.input).accepted = n.item.accepted := rfl
  have hgc : (n.item.glimpse b.input).is isComposite = n.item.is isComposite := rfl
  simp only [decodePerformative, bodyVerdict, hload, Fault.ok_bind, AmqpType.typeIsValid, ht.invalid,
    AmqpType.typeIsComposite, ht.flags isComposite (by decide) (by decide), hga, hgc]
  cases hacc : n.item.accepted with
  | false => exact ⟨_, rfl, BodyResult.untouched rfl⟩
  | true =>
    cases hcomp : n.item.is isComposite with
    | false => exact ⟨_, rfl, by decide⟩
    | true =>
      obtain ⟨m, hm, hk⟩ := Item.composite_of_is hcomp
      have hboth := hp.seen.regular.described (by rw [Item.kind, hm, Option.map_some, hk])
      rw [hacc] at hboth
      have hboth := Bool.and_eq_true_iff.1 hboth.symm
      have hlen := ht.described hcomp
      have hget : ∀ i < 2, x.toContext.getElement t.value.elements i =
          .ok (FieldNode.pointer (kids.nth i)) := fun i hi =>
        ht.elements (Item.is_container hcomp (by decide)) i _ (Layout.pointers_nth (by rw [hlen]; exact hi))
      simp only [Layout.outline, Forest.nth_map] at hboth
      cases h0 : kids.nth 0 with
      | none =>
        rw [h0] at hboth
        cases hboth.1
      | some d =>
        cases h1 : kids.nth 1 with
        | none =>
          rw [h1] at hboth
          cases hboth.2
        | some v =>
          obtain ⟨d, dk⟩ := d
          obtain ⟨v, vk⟩ := v
          rw [h0] at hboth
          have hg0 := hget 0 (by decide)
          have hg1 := hget 1 (by decide)
          rw [h0] at hg0
          rw [h1] at hg1
          have hdesc := decodeDescribed_meets hash h0 h1 (hp.nth h0) (hp.nth h1) hboth.1 frame
          have hdump := amqpTypeDump_meets hp hdesc fun ok y hy => hy.context
          simp only [FieldNode.pointer, Option.map_some] at hg0 hg1
          simp only [hg0, hg1, Fault.ok_bind, Bool.not_true, Bool.not_false, Bool.false_eq_true,
            Bool.true_eq_false, if_false]
          rw [bind_assoc] at hdump
          refine (congrArg (fun r => Verdict.Meets _ Fault.Real r _) ?_).mpr hdump
          cases decodeDescriptor hash x b frame (some d.slot) with
          | error e => rfl
          | ok y =>
            obtain ⟨rc, f⟩ := y
            cases rc <;> rfl

/-! ## Frames -/

/-- Past the end of the buffer the decoder takes `0xff` for a format code, which nothing decodes. -/
theorem amqpDecode_beyond {P : AmqpType → Prop} {c : Context} {live : Finset Slot}
    (hr : Ready P c live) (h : b.size < b.index) : amqpDecode c b = .error .notImplemented := by
  obtain ⟨s, c', stale, hall, -, -, -, hload, -⟩ := allocateType_spec hr
  have hend : b.atEnd = false := by
    rw [Buffer.atEnd, beq_eq_false_iff_ne]
    omega
  have hgetc : b.getc = .ok (none, b) := Buffer.getc_end (by omega)
  have hff : amqpTypeMetaDataLookup 0xff = some .extensionArray4 := by decide +kernel
  have hctor : decodeTypeConstructorIntoResult b stale.initializeAmqpType = .ok (true, b,
      { stale.initializeAmqpType with constructor := { stale.initializeAmqpType.constructor with
          formatCode := 0xff, metaData := some .extensionArray4,
          typedefFlags := EncodingMetaData.extensionArray4.typedefFlags, extensionTypeCode := 0 } }) := by
    simp only [decodeTypeConstructorIntoResult, decodeTypeConstructor, hgetc,
      Fault.ok_bind, Option.getD_none, hff, if_true]
  simp only [amqpDecode, amqpDecodeWith, hend, Bool.false_eq_true, if_false, hall, Fault.ok_bind, hload,
    hctor, if_true, decodeTypeIntoResult]
  rfl

/-- The buffer behind what was decoded. -/
def Buffer.afterBody (b : Buffer) : Buffer :=
  { b.body with index := stopOf b.body.outline b.body.index }

/-- What the decoder of a frame leaves: it stopped at the header, found no body, or decoded one. -/
inductive FrameResult (hash : HashFunction) (x : FrameContext) (live : Finset Slot) (b : Buffer)
    (frame : AmqpFrame) : Bool → AmqpFrame × FrameContext × Buffer → Prop
  | header : ¬ b.HeaderAccepted →
    FrameResult hash x live b frame false (frame.withHeader b, x, b.body)
  | empty : b.HeaderAccepted → b.body.index = b.size →
    FrameResult hash x live b frame true ({ frame.withHeader b with
      descriptor.kind := .emptyFrame, dispatch := some .emptyFrame }, x, b.body)
  | body {c : Context} {n : Node} {kids : Layout} {ok : Bool} {y : AmqpFrame × FrameContext} :
    b.HeaderAccepted → b.body.index ≤ b.size →
    Lays (· = AmqpType.zero) 0 b.input b.address x.toContext live (.cons b.body.outline .nil) c
      (.node n kids .nil) →
    BodyResult { x with toContext := c } b.input { frame.withHeader b with type := some n.slot } ok y
      (Describes (Layout.symbolLookup hash x.descriptors b kids) frame.descriptor.domain b.input
        kids) →
    FrameResult hash x live b frame ok (y.1, y.2, b.afterBody)

theorem Lays.printable {c : Context} {live : Finset Slot} {c' : Context}
    (h : Lays (· = AmqpType.zero) 0 b.input b.address c live (.cons b.outline .nil) c'
      (.node n kids .nil)) (hsupp : (Forest.cons b.outline .nil).All Item.Supported)
    (hx : x.toContext = c') : Printable x b n kids := by
  have hseen := h.seen
  have hcard := h.grows.held.card
  have hle : (Layout.slots (.node n kids .nil)).length ≤ c'.types.outstandingAllocations := by
    rw [hcard, ← List.toFinset_card_of_nodup h.grows.nodup]
    exact Finset.card_le_card Finset.subset_union_right
  simp only [Layout.slots, List.length_cons, List.length_append] at hle
  refine ⟨?_, ?_, ?_, ?_⟩
  · rw [hx]
    exact hseen.1
  · rw [hx]
    exact hseen.2.1
  · rw [h.outline]
    exact hsupp
  · rw [show x.types = c'.types by rw [hx]]
    omega

theorem outline_end_iff : b.outline = none ↔ b.size ≤ b.index := by
  have hin : b.input.size = b.size := rfl
  rw [Buffer.outline, Amqp.outline, walkDecode, hin]
  by_cases h : b.index < b.size
  · rw [if_pos h]
    constructor
    · intro hnone
      cases hl : amqpTypeMetaDataLookup (b.input.byte b.index) with
      | none =>
        rw [hl] at hnone
        cases hnone
      | some m =>
        rw [hl] at hnone
        cases hnone
    · intro hle
      omega
  · rw [if_neg h]
    simp only [true_iff]
    omega

theorem outline_end (h : b.size ≤ b.index) : b.outline = none := outline_end_iff.2 h

/-- The read index does not matter to what is seen. -/
theorem Seen.moved {c : Context} (h : Seen c b n kids) (i : Nat) :
    Seen c { b with index := i } n kids := ⟨h.glance, h.covers, h.regular, h.wide⟩

theorem Lays.root {P : AmqpType → Prop} {c : Context} {live : Finset Slot} {c' : Context}
    {inp : Input} {address : Nat} {tree : Option Outline} {o : Outline}
    (h : Lays P 0 inp address c live (.cons tree .nil) c' (.node n kids .nil)) (ho : tree = some o) :
    o = (n.item, kids.outline) := by
  have hout := h.outline
  obtain ⟨item, ks⟩ := o
  rw [ho] at hout
  injection hout with h1 h2
  rw [← h1, ← h2]
  rfl

/-- The lookup of a body's symbol, by its outline and by its layout. -/
theorem Lays.symbolLookup_eq {c : Context} {live : Finset Slot} {c' : Context} {o : Outline}
    (h : Lays (· = AmqpType.zero) 0 b.input b.address c live (.cons b.outline .nil) c'
      (.node n kids .nil)) (ho : b.outline = some o) (hash : HashFunction) (table : DescriptorTable) :
    b.symbolLookup hash table = Layout.symbolLookup hash table b kids := by
  rw [Buffer.symbolLookup, ho, Layout.symbolLookup, Option.bind_some, h.root ho, Layout.outline,
    Forest.nth_map]
  cases kids.nth 0 <;> rfl

/-- A frame with a body. -/
theorem decodeBody_meets {live : Finset Slot} {c : Context} {o : Outline} (hh : b.HeaderAccepted)
    (hi : b.body.index ≤ b.body.size)
    (hlays : Lays (· = AmqpType.zero) 0 b.body.input b.body.address x.toContext live
      (.cons b.body.outline .nil) c (.node n kids .nil))
    (hsupp : (Forest.cons b.body.outline .nil).All Item.Supported) (ho : b.body.outline = some o)
    (frame : AmqpFrame) :
    (match b.body.outline with
      | none => Verdict.accepted
      | some o => bodyVerdict (b.body.symbolLookup hash x.descriptors) frame.descriptor.domain
          x.debugLevel (o.1.glimpse b.input) (read b.input o.2)).Meets Fault.Real
      (do
        let (rc, frame, x) ← decodePerformative hash { x with toContext := c } b.afterBody
          { frame.withHeader b with type := some n.slot } n.slot
        .ok (rc, frame, x, b.afterBody)) (FrameResult hash x live b frame) := by
  have hp := hlays.printable (x := { x with toContext := c }) hsupp rfl
  have hp' : Printable { x with toContext := c } b.afterBody n kids :=
    ⟨hp.seen.moved _, hp.elements.imp fun _ _ hs => hs.moved _, hp.supported, hp.fuel⟩
  have h := decodePerformative_meets hash hp'
    { frame.withHeader b with type := some n.slot }
  rw [hlays.symbolLookup_eq ho hash x.descriptors, ho, hlays.root ho]
  exact h.map fun ok y hy => ⟨_, rfl, .body hh hi hlays hy⟩

/-- The decoder of a frame ends as the verdict on its bytes says. -/
theorem decodeFrame_meets (hash : HashFunction) {live : Finset Slot} (hr : Ready (· = AmqpType.zero) x.toContext live)
    (h8 : amqpFrameHeaderSize ≤ b.size) (frame : AmqpFrame) :
    (frameVerdict hash x.descriptors frame.descriptor.domain x.debugLevel b).Meets Fault.Real
      (decodeFrame hash x b frame) (FrameResult hash x live b frame) := by
  unfold decodeFrame
  rw [decodeHeader_eq h8, frameVerdict]
  by_cases hh : b.HeaderAccepted
  · simp only [Fault.ok_bind, decide_eq_true hh, if_true, if_pos hh]
    by_cases hbeyond : b.size < b.body.index
    · rw [if_pos hbeyond, amqpDecode_beyond hr hbeyond]
      exact ⟨_, rfl, by decide⟩
    · have hi : b.body.index ≤ b.body.size := Nat.le_of_not_lt hbeyond
      rw [if_neg hbeyond]
      by_cases hend : b.body.index = b.size
      · have hnone : b.body.outline = none := outline_end (Nat.le_of_eq hend.symm)
        have hsupp : (Forest.cons b.body.outline .nil).All Item.Supported := by
          rw [hnone]
          trivial
        have hcall : amqpDecode x.toContext b.body = .ok (none, x.toContext, b.body) := by
          rw [amqpDecode, amqpDecodeWith, if_pos (by rw [Buffer.atEnd]; exact beq_iff_eq.2 hend)]
        rw [if_pos hsupp, hnone, hcall]
        exact ⟨_, rfl, .empty hh hend⟩
      · obtain ⟨hok, herr⟩ := amqpDecode_simulates hr hi
        by_cases hsupp : (Forest.cons b.body.outline .nil).All Item.Supported
        · obtain ⟨ptr, c, F, hcall, hlays, hptr⟩ := hok hsupp
          rw [if_pos hsupp, hcall]
          rcases hlays.single hptr with ⟨hnone, rfl, rfl⟩ | ⟨o, n, kids, hsome, rfl, rfl, -⟩
          · exact absurd (Nat.le_antisymm hi (outline_end_iff.1 hnone)) hend
          · exact decodeBody_meets hh hi hlays hsupp hsome frame
        · rw [if_neg hsupp, herr hsupp]
          exact ⟨_, rfl, by decide⟩
  · simp only [Fault.ok_bind, decide_eq_false hh, Bool.false_eq_true, if_false, if_neg hh]
    exact ⟨_, rfl, .header hh⟩

end
end Amqp
