import LibAmqp.Codec.Proof.Written

/-!
# Encoding and decoding

What the encoder writes is decoded to the values that were encoded, whatever bytes come behind them
(`encode_decode`), and is not accepted when it is cut off (`encode_cut`). Both are for containers with
fewer than 2³² - 1 elements: the count field of four bytes has no room for more, and the decoder takes
2³² - 1 for the error value of `amqp_buffer_read_size_field`. Only an array of elements without bytes
can have as many.
-/

namespace Amqp

open Lib Memory Buffer

section
variable {c : Context} {live : Finset Slot} {b : Buffer} {vs : Values} {P : AmqpType → Prop}

/-- Nothing in the outline of values stops the decoder. -/
theorem Spells.supported {inp : Input} {vs : Values} : ∀ {inArray : Bool} {O : Forest Item},
    Spells inp inArray vs O → O.All Item.Supported := by
  have hknown : ∀ {item : Item} {kids : Forest Item} {m : EncodingMetaData},
      m ∈ typeLookupTable.toList → item.code = m.formatCode → m.kind ≠ .unsupported →
        item.Supported kids := by
    intro item kids m hm hcode hk
    rw [Item.Supported, Item.kind, Item.metaData, hcode, lookup_self m hm, Option.map_some]
    exact fun h => hk (Option.some.inj h)
  induction vs with
  | nil =>
    intro _ O h
    cases O with
    | nil => trivial
    | hole | node => exact h.elim
  | scalar v rest ih =>
    intro inArray O h
    cases O with
    | nil | hole => exact h.elim
    | node item kids rest =>
      obtain ⟨rfl, -, hcode, -, hrest⟩ := h
      refine ⟨hknown (v.encoding_mem inArray) hcode ?_, trivial, ih hrest⟩
      rcases v.encoding_leaf inArray with hk | hk | hk <;> rw [hk] <;> decide
  | container k elements rest ihe ihr =>
    intro inArray O h
    cases O with
    | nil | hole => exact h.elim
    | node item kids rest =>
      obtain ⟨-, hcode, hkids, hrest⟩ := h
      refine ⟨?_, ihe hkids, ihr hrest⟩
      rcases k.part_code inArray (elements.parts k.isArray) with hk | ⟨-, -, hk⟩
      · refine hknown k.metaData_mem (hcode.trans hk) ?_
        cases k <;> decide
      · exact hknown (m := .list0) (by decide) (hcode.trans hk) (by decide)

/-- The outline of one value. -/
theorem outline_of_wire (hlegal : vs.Legal) (hcounts : vs.CountsFit) (hone : vs.length = 1)
    (hsize : b.size < Buffer.sizeError) (hat : b.input.At b.index vs.wire) :
    Spells b.input false vs (.cons b.outline .nil) ∧
      stopOf b.outline b.index = b.index + vs.wire.length := by
  have h := (walks hlegal hcounts hsize).plain (b.size - b.index + 1) b.index hat (Nat.le_succ _)
  rw [hone] at h
  exact h

/-- Bytes of one value are decoded to it. -/
theorem decode_wire (hr : Ready P c live) (hP : ∀ t, P t → t.value = AmqpType.zero.value)
    (hlegal : vs.Legal) (hcounts : vs.CountsFit) (hone : vs.length = 1)
    (hsize : b.size < Buffer.sizeError) (hat : b.input.At b.index vs.wire) :
    ∃ s c', amqpDecode c b = .ok (some s, c', { b with index := b.index + vs.wire.length }) ∧
      Holds c' b vs [some s] := by
  obtain ⟨hspells, hstop⟩ := outline_of_wire hlegal hcounts hone hsize hat
  have hi : b.index ≤ b.size := Nat.le_trans (Nat.le_add_right _ _) hat.1
  obtain ⟨ptr, c', F, hcall, hlays, hptr⟩ := (amqpDecode_simulates hr hi).1 hspells.supported
  rw [hstop] at hcall
  rw [← hlays.outline] at hspells
  have hholds := hlays.laid.holds hP hspells
  rw [hptr] at hholds
  cases ptr with
  | some s => exact ⟨s, c', hcall, hholds⟩
  | none => exact absurd hholds Holds.not_none

/-! ## Round trips -/

/-- A buffer that has the bytes of another, and whatever else behind them. -/
structure Buffer.Continues (b b' : Buffer) : Prop where
  size : b.size ≤ b'.size
  capacity : b'.size ≤ b'.capacity
  byteAt : ∀ i < b.size, b'.byteAt i = b.byteAt i

/-- The calls that encode values return, and one call of `amqp_decode`, from where they started to
write, returns the values and leaves the read index behind them. -/
def RoundTrips (c : Context) (b : Buffer) (vs : Values) : Prop :=
  ∃ c1 b1, vs.encode c b = .ok (c1, b1) ∧ b1.size = b.size + vs.wire.length ∧
    ∀ b2, b1.Continues b2 → b2.index = b.size → ∃ s c2,
      amqpDecode c1 b2 = .ok (some s, c2, { b2 with index := b1.size }) ∧ Holds c2 b2 vs [some s]

/-- What was appended is still there. -/
theorem Buffer.Continues.at {b1 b2 : Buffer} {bytes : List UInt8} (h : b1.Continues b2)
    (hw : Appends b b1 bytes) : b2.input.At b.size bytes := by
  have hsize := hw.size
  refine ⟨by rw [← hsize]; exact h.size, ?_⟩
  refine List.ext_getElem (by simp [Input.bytes]) fun i hi hi' => ?_
  simp only [Input.bytes, List.getElem_map, List.getElem_range]
  rw [← List.getD_eq_getElem _ 0 hi', ← hw.new i hi']
  exact h.byteAt _ (by omega)

theorem Buffer.Continues.size_lt {b1 b2 : Buffer} (h : b1.Continues b2) : b2.size < Buffer.sizeError := by
  have h1 := h.capacity
  have h2 := b2.capacity_le
  simp only [amqpBufferMaxSize, Buffer.sizeError] at h2 ⊢
  omega

theorem Ready.blank (hr : Ready (· = AmqpType.zero) c live) : Ready AmqpType.Blank c live :=
  hr.mono fun _ h => h ▸ ⟨rfl, rfl⟩

theorem encode_decode (hr : Ready (· = AmqpType.zero) c live) (hc : c.container = none)
    (hlegal : vs.Legal) (hcounts : vs.CountsFit) (hone : vs.length = 1)
    (hroom : Room b vs.wire.length) : RoundTrips c b vs := by
  obtain ⟨c1, b1, live1, hcall, hw, hr1, -⟩ := Values.encode_writes hr.blank hc hlegal hroom
  refine ⟨c1, b1, hcall, hw.size, fun b2 h2 hindex => ?_⟩
  rw [hw.size, ← hindex]
  exact decode_wire hr1 (fun _ h => h.1) hlegal hcounts hone h2.size_lt (hindex ▸ h2.at hw)

end

instance (b : Buffer) (n : Nat) : Decidable (Room b n) := inferInstanceAs (Decidable (_ ≤ _))

/-- A described map, whose value is an array of lists, one of them empty. -/
def nestedValue : Values :=
  .container .described (.scalar (.ulong 300) (.container .map8
    (.scalar (.symbol [0x61]) (.container .array32
      (.container .list8 .nil (.container .list8 (.scalar (.boolean true) (.scalar (.int (-3)) .nil))
        .nil)) .nil)) .nil)) .nil

theorem encode_decode_nested :
    nestedValue.Legal ∧ RoundTrips (Context.create Malloc.bump 21) (.received []) nestedValue :=
  ⟨by decide +kernel, encode_decode (create_ready Malloc.bump (by decide) (by decide)) rfl
    (by decide +kernel) (by decide +kernel) (by decide +kernel) (by decide +kernel)⟩

/-! ## Counts that do not fit -/

/-- As many values without bytes. -/
def Values.nulls : Nat → Values
  | 0 => .nil
  | n + 1 => .scalar .null (nulls n)

namespace Values

theorem length_nulls (n : Nat) : (nulls n).length = n := by
  induction n with
  | zero => rfl
  | succ n ih => rw [nulls, length, ih]

theorem parts_nulls (inArray : Bool) (n : Nat) :
    (nulls n).parts inArray = List.replicate n ⟨EncodingMetaData.null.formatCode, []⟩ := by
  induction n with
  | zero => rfl
  | succ n ih => rw [nulls, parts, ih, List.replicate_succ]; rfl

theorem legal_nulls (n : Nat) : (nulls n).Legal := by
  induction n with
  | zero => trivial
  | succ n ih => exact ⟨rfl, ih⟩

end Values

/-- An array of `n + 1` of them has the constructor of the first and nothing else. -/
theorem content_nulls (n : Nat) : Former.array32.content ((Values.nulls (n + 1)).parts true) =
    [EncodingMetaData.null.formatCode] := by
  have hbodies : (List.replicate n (⟨EncodingMetaData.null.formatCode, []⟩ : Part)).flatMap
      Part.body = [] := by
    rw [List.flatMap_eq_nil_iff]
    intro p hp
    rw [List.eq_of_mem_replicate hp]
  rw [Values.parts_nulls, List.replicate_succ]
  simp [Former.content, Former.isArray, spelledArray, hbodies]

theorem part_nulls (inArray : Bool) (n : Nat) :
    Former.array32.part inArray ((Values.nulls (n + 1)).parts true) =
      ⟨0xf0, toBigEndian 4 5 ++ toBigEndian 4 (n + 1) ++ [0x40]⟩ := by
  rw [Former.part_eq (by rintro ⟨-, h, -⟩; cases h), content_nulls, Values.length_parts,
    Values.length_nulls]
  rfl

theorem admits_nulls (n : Nat) : Former.array32.Admits ((Values.nulls (n + 1)).parts true) := by
  refine ⟨fun h => (nomatch h), fun _ => ⟨?_, ?_⟩, fun h => absurd h (by decide)⟩
  · rw [Values.parts_nulls, List.replicate_succ]
    exact List.cons_ne_nil _ _
  · rw [Values.parts_nulls]
    intro p hp
    rw [List.eq_of_mem_replicate hp, List.replicate_succ]
    rfl

/-- An array of `n + 1` values without bytes. -/
def nullArray (n : Nat) : Values := .container .array32 (.nulls (n + 1)) .nil

theorem nullArray_legal (n : Nat) : (nullArray n).Legal :=
  ⟨admits_nulls n, Values.legal_nulls _, trivial⟩

theorem nullArray_wire (n : Nat) :
    (nullArray n).wire = 0xf0 :: (toBigEndian 4 5 ++ toBigEndian 4 (n + 1) ++ [0x40]) := by
  have h := part_nulls false n
  simp only [nullArray, Values.wire, Values.parts, spelled, Former.isArray, h, List.flatMap_cons,
    List.flatMap_nil, List.append_nil]

theorem nullArray_room (n : Nat) : Room (.received []) (nullArray n).wire.length := by
  rw [nullArray_wire]
  simp [Room, Buffer.received, amqpBufferMaxSize]

/-- The type has as many elements as the array. -/
theorem Holds.nullArray_count {c : Context} {b : Buffer} {n : Nat} {s : Slot}
    (h : Holds c b (nullArray n) [some s]) :
    ∃ t, c.types.load s = some t ∧ t.value.count = n + 1 := by
  obtain ⟨s', t, kids, ptrs, hs, hload, -, -, hcount, -, hkids, -⟩ := h
  obtain ⟨rfl, -⟩ : s = s' ∧ [] = ptrs := by simpa using hs
  exact ⟨t, hload, by rw [hcount, hkids.length, Values.length_nulls]⟩

/-- An array of 2³² + 1 nulls has the bytes of an array of one. -/
theorem encode_decode_count_truncated :
    Ready (· = AmqpType.zero) (Context.create Malloc.bump 21) ∅ ∧ (nullArray (2 ^ 32)).Legal ∧
      (nullArray (2 ^ 32)).length = 1 ∧ Room (.received []) (nullArray (2 ^ 32)).wire.length ∧
      ¬ RoundTrips (Context.create Malloc.bump 21) (.received []) (nullArray (2 ^ 32)) := by
  have hr := create_ready Malloc.bump (n := 21) (by decide) (by decide)
  refine ⟨hr, nullArray_legal _, rfl, nullArray_room _, ?_⟩
  have hcount : (2 ^ 32 + 1) % 256 ^ 4 = 0 + 1 := by decide
  have hwire : (nullArray (2 ^ 32)).wire = (nullArray 0).wire := by
    rw [nullArray_wire, nullArray_wire, ← toBigEndian_mod 4 (2 ^ 32 + 1), hcount]
  rintro ⟨c1, b1, hcall, -, htrip⟩
  obtain ⟨c1', b1', live1, hcall', hw, hr1, -⟩ :=
    Values.encode_writes hr.blank rfl (nullArray_legal (2 ^ 32)) (nullArray_room (2 ^ 32))
  rw [hcall] at hcall'
  cases hcall'
  have hsize := hw.size
  have hcont : b1.Continues { b1 with index := 0 } := by
    refine ⟨Nat.le_refl _, ?_, fun _ _ => rfl⟩
    show b1.size ≤ b1.capacity
    have hroom := nullArray_room (2 ^ 32)
    unfold Room at hroom
    rw [hw.capacity, hsize]
    omega
  obtain ⟨s, c2, hdec, hholds⟩ := htrip _ hcont rfl
  have hat := hcont.at hw
  rw [hwire] at hat
  obtain ⟨s', c2', hdec', hholds'⟩ := decode_wire (b := { b1 with index := 0 }) hr1 (fun _ h => h.1)
    (nullArray_legal 0) (by decide) rfl hcont.size_lt hat
  rw [hdec] at hdec'
  obtain ⟨rfl, rfl, -⟩ := by simpa only [Except.ok.injEq, Prod.mk.injEq, Option.some.injEq] using hdec'
  obtain ⟨t, ht, hcount1⟩ := hholds.nullArray_count
  obtain ⟨t', ht', hcount2⟩ := hholds'.nullArray_count
  obtain rfl : t = t' := Option.some.inj (ht.symm.trans ht')
  omega

/-! ## Bytes that are cut off -/

section
variable {c : Context} {live : Finset Slot} {b : Buffer} {vs : Values}

/-- A buffer with these bytes and no others. -/
structure Buffer.Alone (b : Buffer) (bytes : List UInt8) : Prop where
  index : b.index = 0
  size : b.size = bytes.length
  bytes : b.bytes 0 bytes.length = bytes

/-- When `amqp_decode` returns, it is null, as there are no bytes, or an invalid type. -/
def Rejects (c : Context) (b : Buffer) : Prop :=
  ∀ ptr c' b', amqpDecode c b = .ok (ptr, c', b') → b.size = 0 ∧ ptr = none ∨
    ∃ s t, ptr = some s ∧ c'.types.load s = some t ∧ t.typeIsInvalid = true

/-- The calls that encode values return, and no part of what they wrote but the whole is accepted. -/
def CutsDetected (c : Context) (b : Buffer) (vs : Values) : Prop :=
  ∃ c1 b1, vs.encode c b = .ok (c1, b1) ∧ b1.size = b.size + vs.wire.length ∧
    ∀ n, b.size + n < b1.size → ∀ b2 : Buffer, b2.Alone (b1.bytes b.size n) →
      ∀ c2 live2, Ready (fun _ => True) c2 live2 → Rejects c2 b2

theorem Buffer.Alone.cut {n : Nat} {bytes : List UInt8} (h : b.Alone (bytes.take n))
    (hn : n < bytes.length) : b.input.Cut b.index bytes := by
  have hsize : b.size = n := by
    rw [h.size, List.length_take]
    omega
  have hbytes := h.bytes
  rw [← h.size, hsize] at hbytes
  rw [h.index]
  refine ⟨Nat.zero_le _, ?_, ?_⟩
  · show b.size < _
    omega
  · show b.input.bytes 0 (b.size - 0) = bytes.take (b.size - 0)
    rw [hsize, Nat.sub_zero]
    exact hbytes

theorem Rejects.of_outline (hr : Ready (fun _ => True) c live) (hi : b.index = 0)
    (hacc : acceptedOf b.outline = false) : Rejects c b := by
  intro ptr c' b' hcall
  obtain ⟨-, F, hlays, hptr⟩ := amqpDecode_ok hr (hi ▸ Nat.zero_le _) hcall
  rcases hlays.single hptr with ⟨hnone, rfl, -⟩ | ⟨o, n, kids, hsome, rfl, rfl, hitem⟩
  · refine .inl ⟨?_, rfl⟩
    by_contra hsize
    have hlt : b.index < b.input.size := by
      rw [hi]
      exact Nat.pos_of_ne_zero hsize
    rw [Buffer.outline, outline, walkDecode, if_pos hlt] at hnone
    split at hnone <;> cases hnone
  · obtain ⟨t, hload, hvalid, -⟩ := hlays.laid.1.seen
    refine .inr ⟨n.slot, t, rfl, hload, ?_⟩
    rw [hsome] at hacc
    rw [hitem, show o.1.accepted = false from hacc, AmqpType.typeIsValid, Bool.not_eq_false'] at hvalid
    exact hvalid

theorem encode_cut (hr : Ready (· = AmqpType.zero) c live) (hc : c.container = none)
    (hlegal : vs.Legal) (hcounts : vs.CountsFit) (hone : vs.length = 1)
    (hroom : Room b vs.wire.length) : CutsDetected c b vs := by
  obtain ⟨c1, b1, live1, hcall, hw, -, -⟩ := Values.encode_writes hr.blank hc hlegal hroom
  have hsize := hw.size
  refine ⟨c1, b1, hcall, hsize, fun n hn b2 h2 c2 live2 hr2 => ?_⟩
  have hlen : vs.wire.length < Buffer.sizeError := by
    have hcap := b.capacity_le
    unfold Room at hroom
    simp only [amqpBufferMaxSize, Buffer.sizeError] at hcap ⊢
    omega
  have hfront : b1.bytes b.size n = vs.wire.take n := by
    rw [← hw.bytes, Buffer.bytes, Buffer.bytes, ← List.map_take, List.take_range,
      Nat.min_eq_left (by omega)]
  rw [hfront] at h2
  have hcut := h2.cut (by omega)
  have hsize2 : b2.size < Buffer.sizeError := by
    have := h2.size
    rw [List.length_take] at this
    omega
  refine .of_outline hr2 h2.index ?_
  have hall := cuts hlegal hcounts hsize2 hlen (b2.size - b2.index + 1) b2.index hcut (Nat.le_succ _)
  rw [hone, walkMany, allAccepted_cons] at hall
  exact Bool.eq_false_iff.2 fun hacc => hall ⟨hacc, trivial⟩

end

theorem encode_cut_nested :
    nestedValue.Legal ∧ CutsDetected (Context.create Malloc.bump 21) (.received []) nestedValue :=
  ⟨by decide +kernel, encode_cut (create_ready Malloc.bump (by decide) (by decide)) rfl
    (by decide +kernel) (by decide +kernel) (by decide +kernel) (by decide +kernel)⟩

/-- A described value whose descriptor is a list of an array of `n + 1` nulls and of a number. -/
def describedNull (n : Nat) : Values :=
  .container .described (.container .list32 (.container .array32 (.nulls (n + 1))
    (.scalar (.uint 5) .nil)) (.scalar .null .nil)) .nil

theorem describedNull_wire (n : Nat) : (describedNull n).wire =
    [0x00, 0xd0, 0x00, 0x00, 0x00, 0x10, 0x00, 0x00, 0x00, 0x02, 0xf0, 0x00, 0x00, 0x00, 0x05] ++
      toBigEndian 4 (n + 1) ++ [0x40, 0x52, 0x05, 0x40] := by
  have h := part_nulls false n
  have hfive : Scalar.part false (.uint 5) = ⟨0x52, [0x05]⟩ := by decide
  have hnull : Scalar.part false .null = ⟨0x40, []⟩ := by decide
  have hsize : toBigEndian 4 16 = [0x00, 0x00, 0x00, 0x10] := by decide
  have hcount : toBigEndian 4 2 = [0x00, 0x00, 0x00, 0x02] := by decide
  have hinner : toBigEndian 4 5 = [0x00, 0x00, 0x00, 0x05] := by decide
  simp only [describedNull, Values.wire, Values.parts, Former.isArray, h, hfive, hnull]
  simp [Former.part, Former.content, Former.isArray, Former.isList, Former.metaData, spelled,
    EncodingMetaData.described, EncodingMetaData.list32, hsize, hcount, hinner]

theorem describedNull_legal (n : Nat) : (describedNull n).Legal := by
  refine ⟨⟨fun _ => rfl, fun h => (nomatch h), fun h => absurd h (by decide)⟩, ⟨?_, ?_⟩, trivial⟩
  · exact ⟨fun h => (nomatch h), fun h => (nomatch h), fun h => absurd h (by decide)⟩
  · exact ⟨⟨admits_nulls n, Values.legal_nulls _, rfl, trivial⟩, rfl, trivial⟩

/-- The decoder takes the count 2³² - 1 of the array for an error, and its only byte for the second
element of the list. The number is left to be the described value, and what that really is can be
cut off. -/
theorem encode_cut_count_misread :
    Ready (· = AmqpType.zero) (Context.create Malloc.bump 21) ∅ ∧
      (describedNull (2 ^ 32 - 2)).Legal ∧ (describedNull (2 ^ 32 - 2)).length = 1 ∧
      Room (.received []) (describedNull (2 ^ 32 - 2)).wire.length ∧
      ¬ CutsDetected (Context.create Malloc.bump 21) (.received []) (describedNull (2 ^ 32 - 2)) := by
  have hr := create_ready Malloc.bump (n := 21) (by decide) (by decide)
  have hwire : (describedNull (2 ^ 32 - 2)).wire = [0x00, 0xd0, 0x00, 0x00, 0x00, 0x10, 0x00, 0x00,
      0x00, 0x02, 0xf0, 0x00, 0x00, 0x00, 0x05, 0xff, 0xff, 0xff, 0xff, 0x40, 0x52, 0x05, 0x40] := by
    rw [describedNull_wire]
    decide +kernel
  have hroom : Room (.received []) (describedNull (2 ^ 32 - 2)).wire.length := by
    rw [hwire]
    decide
  refine ⟨hr, describedNull_legal _, rfl, hroom, ?_⟩
  rintro ⟨c1, b1, hcall, hsize, hcuts⟩
  obtain ⟨c1', b1', -, hcall', hw, -, -⟩ :=
    Values.encode_writes hr.blank rfl (describedNull_legal (2 ^ 32 - 2)) hroom
  rw [hcall] at hcall'
  cases hcall'
  rw [hwire] at hw hsize
  have hfront : b1.bytes 0 22 = [0x00, 0xd0, 0x00, 0x00, 0x00, 0x10, 0x00, 0x00,
      0x00, 0x02, 0xf0, 0x00, 0x00, 0x00, 0x05, 0xff, 0xff, 0xff, 0xff, 0x40, 0x52, 0x05] := by
    have := congrArg (List.take 22) hw.bytes
    rwa [Buffer.bytes, ← List.map_take, List.take_range] at this
  have hreject := hcuts 22 (by rw [hsize]; decide) (.received (b1.bytes 0 22)) (by
    rw [show b1.bytes (Buffer.received []).size 22 = b1.bytes 0 22 from rfl, hfront]
    exact ⟨rfl, rfl, by decide +kernel⟩) _ _ create_ready_any
  rw [hfront] at hreject
  obtain ⟨ptr, c2, F, hdec, hlays, hptr⟩ := (amqpDecode_simulates create_ready_any
    (b := .received [0x00, 0xd0, 0x00, 0x00, 0x00, 0x10, 0x00, 0x00,
      0x00, 0x02, 0xf0, 0x00, 0x00, 0x00, 0x05, 0xff, 0xff, 0xff, 0xff, 0x40, 0x52, 0x05])
    (by decide)).1 (by decide +kernel)
  rcases hreject _ _ _ hdec with ⟨hempty, -⟩ | ⟨s, t, rfl, ht, hinvalid⟩
  · cases hempty
  rcases hlays.single hptr with ⟨-, hnone, -⟩ | ⟨o, n, kids, hsome, hs, rfl, hitem⟩
  · cases hnone
  · cases hs
    obtain ⟨t', hload, hvalid, -⟩ := hlays.laid.1.seen
    obtain rfl : t = t' := Option.some.inj (ht.symm.trans hload)
    have hacc : acceptedOf (some o) = true := by
      rw [← hsome]
      decide +kernel
    rw [AmqpType.typeIsValid, hinvalid, hitem, show o.1.accepted = true from hacc] at hvalid
    cases hvalid

end Amqp
