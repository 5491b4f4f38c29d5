import LibAmqp.Codec.Proof.Layout
import LibAmqp.Codec.Proof.Table

/-!
# Decoders of types without elements

`call_leaf`: such a decoder follows the outline. It stops where the outline does, accepts what the
outline accepts and fills in the value the format code stands for.
-/

namespace Amqp

open Lib

section
variable {b : Buffer} {m : EncodingMetaData} {t : AmqpType}

theorem checkAvailable_input {n : Nat} :
    b.checkAvailable n = true ↔ b.input.Available b.index n := Buffer.checkAvailable_iff

/-- A type whose decoder failed with an error code. -/
theorem Filled.error {inp : Input} {address : Nat} {n : Node} {t' : AmqpType} (code : ErrorCode)
    (hn : n.item.accepted = false) (harr : n.array = none) (hhold : n.holder = none)
    (hkind : m.kind = .fixed ∨ m.kind = .variableWidth ∨ m.kind = .compound ∨ m.kind = .array)
    (hcon : t'.constructor = t.constructor)
    (hsav : t'.savedContainer = t.savedContainer) (hleft : LeftOver address m n.item t t')
    (hcode : m.kind = .array → n.item.elementCode inp m = none) :
    Filled inp address m n .nil t (t'.markInvalid code) := by
  have hfalse : ∀ {p : Prop}, n.item.accepted = true → p := fun h => by rw [hn] at h; cases h
  constructor
  · exact fun h => hfalse h
  · refine fun _ => ⟨?_, rfl⟩
    simp only [AmqpType.markInvalid, AmqpType.typedefFlagsSet, hcon]
  · exact hsav
  · exact fun _ => ⟨harr, hhold, rfl, fun h => hfalse h⟩
  · intro hk
    have hval : t'.value = t.value := by
      rcases hleft with h | h
      · exact h.2.2
      · exact h.2.2.2 hk
    rw [harr, hhold]
    show t'.value.elements = _ ∧ t'.value.constructor = _ ∧ _
    rw [hval]
    exact ⟨rfl, rfl, fun _ => rfl, fun h => absurd rfl h⟩
  · exact fun h => hfalse h
  · exact fun h => hfalse h
  · intro h
    rcases hkind with h' | h' | h' | h' <;> rw [h] at h' <;> cases h'
  · exact fun _ => hhold
  · rcases hkind with h' | h' | h' | h'
    · exact .inl (.inr (.inl h'))
    · exact .inl (.inr (.inr h'))
    · exact .inr (.inl h')
    · exact .inr (.inr (.inl h'))
  · intro h
    rcases hkind with h' | h' | h' | h' <;> rw [h] at h' <;> cases h'
  · exact fun _ _ _ => hleft
  · rintro (h | h)
    · exact absurd harr h
    · exact absurd hhold h
  · intro hk
    rw [hhold, hcode hk]
    rfl
  · rw [harr, Item.hasArray, hn]
    rcases hkind with h | h | h | h <;> rw [h] <;> rfl

/-- A type without elements that was decoded. -/
theorem Filled.leaf_ok {inp : Input} {address : Nat} {n : Node} {t' : AmqpType}
    (hn : n.item.accepted = true) (harr : n.array = none) (hhold : n.holder = none)
    (hkind : m.kind.IsLeaf) (ht : t' = { t with
      position := ⟨n.item.index, n.item.size⟩
      value := m.typeDecoder.fill address (inp.bytes n.item.index n.item.size) t.value }) :
    Filled inp address m n .nil t t' := by
  have hno : ∀ {p : Prop}, m.kind.IsContainer → p := by
    rintro p (h | h | h) <;> rcases hkind with h' | h' | h' <;> rw [h] at h' <;> cases h'
  subst ht
  constructor
  · exact fun _ => ⟨rfl, rfl, rfl⟩
  · intro h; rw [hn] at h; cases h
  · rfl
  · exact fun _ => ⟨harr, hhold, rfl, fun _ => rfl⟩
  · exact fun h => hno h
  · exact fun _ h => hno (.inl h)
  · exact fun _ h => hno (.inr (.inl h))
  · exact fun h => hno (.inr (.inr h))
  · exact fun _ => hhold
  · exact .inl hkind
  · exact fun _ => hn
  · intro h; rw [hn] at h; cases h
  · exact fun _ => rfl
  · exact fun h => hno (.inr (.inl h))
  · rw [harr, Item.hasArray]
    rcases hkind with h | h | h <;> rw [h] <;> rfl

/-- The value of a fixed width type, as its width has it. -/
def fixedValue (bytes : List UInt8) (width : Nat) (v : Value) : Value :=
  if width = 16 then { v with word := uuidWord (bytes.take 8), elements := uuidWord (bytes.drop 8) }
  else v.setLow width (ofBigEndian bytes)

theorem readFixedValue_ok {width i : Nat} (v : Value) (hw : width ∈ [1, 2, 4, 8, 16])
    (h : i + width ≤ b.size) :
    readFixedValue b width i v = .ok (fixedValue (b.input.bytes i width) width v) := by
  simp only [List.mem_cons, List.not_mem_nil, or_false] at hw
  rcases hw with rfl | rfl | rfl | rfl | rfl
  · rw [readFixedValue, Buffer.ntoh_ok h]; rfl
  · rw [readFixedValue, Buffer.ntoh_ok h]; rfl
  · rw [readFixedValue, Buffer.ntoh_ok h]; rfl
  · rw [readFixedValue, Buffer.ntoh_ok h]; rfl
  · rw [readFixedValue, Buffer.uncheckedRead_ok h]; rfl

theorem fixedWidth_eq (hw : m.width ∈ [1, 2, 4, 8, 16]) :
    amqpDecodeFixedWidth b m t =
      if b.input.Available b.index m.width then
        .ok (true, { b with index := b.index + m.width }, { t with
          position := ⟨b.index, m.width⟩
          value := fixedValue (b.input.bytes b.index m.width) m.width t.value })
      else .ok (decodeError b t .bufferWouldOverrun) := by
  unfold amqpDecodeFixedWidth
  by_cases h : b.input.Available b.index m.width
  · rw [if_pos (checkAvailable_input.2 h), if_pos h]
    have h2 : b.index + m.width ≤ b.size := h.2
    have hr := readFixedValue_ok (b := b.advanceReadIndex m.width) t.value hw h2
    simp only [hr, Fault.ok_bind]
    rfl
  · rw [if_neg fun hc => h (checkAvailable_input.1 hc), if_neg h]

/-- What the decoders of small numbers do to the byte they read. -/
def TypeDecoder.widen (v : Value) : TypeDecoder → Value
  | .smallUint => v.setLow 4 (v.low 1)
  | .smallUlong => v.setLow 8 (v.low 1)
  | .smallInt => v.setLow 4 (signExtend 4 (v.low 1))
  | .smallLong => v.setLow 8 (signExtend 8 (v.low 1))
  | _ => v

theorem fill_fixed (address : Nat) {bytes : List UInt8} (hm : m ∈ typeLookupTable.toList)
    (hk : m.kind = .fixed) (hlen : bytes.length = m.width) (v : Value) :
    m.width ∈ [1, 2, 4, 8, 16] ∧
    m.typeDecoder.fill address bytes v = m.typeDecoder.widen (fixedValue bytes m.width v) := by
  have hw := table_widths m hm
  simp only [EncodingMetaData.kind] at hk
  generalize m.typeDecoder = d at hk hw
  generalize m.width = width at hw hlen
  cases d <;> simp only [TypeDecoder.kind, reduceCtorEq] at hk <;>
    simp only [TypeDecoder.widths, List.mem_singleton] at hw <;> subst hw <;>
    simp [TypeDecoder.fill, TypeDecoder.widen, fixedValue, hlen]

/-- A decoder of a fixed width reads its bytes and then widens or checks them. -/
theorem call_fixed_eq (recurse : Recurse) {c : Context} (hk : m.kind = .fixed) :
    m.typeDecoder.call recurse c b m t = liftDecoding c (do
      let (rc, b, type) ← amqpDecodeFixedWidth b m t
      if rc then
        let type := { type with value := m.typeDecoder.widen type.value }
        if m.typeDecoder = .char && !amqpValidateChar (type.value.low 4) then
          .ok (decodeError b type .invalidUtf32Character)
        else .ok (true, b, type)
      else .ok (false, b, type)) := by
  simp only [EncodingMetaData.kind] at hk
  generalize m.typeDecoder = d at hk
  cases hr : amqpDecodeFixedWidth b m t with
  | error e =>
    cases d <;> simp only [TypeDecoder.kind, reduceCtorEq] at hk <;>
      simp only [TypeDecoder.call, amqpDecodeSmallUint, amqpDecodeSmallInt, amqpDecodeSmallUlong,
        amqpDecodeSmallLong, amqpDecodeChar, thenSetValue, hr, liftDecoding, Fault.error_bind]
  | ok r =>
    obtain ⟨rc, b', t'⟩ := r
    cases d <;> simp only [TypeDecoder.kind, reduceCtorEq] at hk <;> cases rc <;>
      simp [TypeDecoder.call, amqpDecodeSmallUint, amqpDecodeSmallInt, amqpDecodeSmallUlong,
        amqpDecodeSmallLong, amqpDecodeChar, thenSetValue, hr, liftDecoding, TypeDecoder.widen]

theorem Value.low_setLow {v : Value} {n x : Nat} (h : x < 256 ^ n) : (v.setLow n x).low n = x := by
  simp only [setLow, low]
  rw [Nat.mul_comm, Nat.mul_add_mod, Nat.mod_eq_of_lt h]

theorem Input.length_bytes (inp : Input) (i n : Nat) : (inp.bytes i n).length = n := by
  simp [Input.bytes]

/-- The check of a char reads what the outline does; other types have none. -/
theorem fixed_check {bytes : List UInt8} (hm : m ∈ typeLookupTable.toList) (hk : m.kind = .fixed)
    (hlen : bytes.length = m.width) {v : Value}
    (hv : v = m.typeDecoder.widen (fixedValue bytes m.width t.value)) :
    (m.typeDecoder = .char && !amqpValidateChar (v.low 4)) = !m.typeDecoder.wellSpelled bytes := by
  have hw := table_widths m hm
  simp only [EncodingMetaData.kind] at hk
  by_cases hc : m.typeDecoder = .char
  · rw [hc] at hw hv ⊢
    simp only [TypeDecoder.widths, List.mem_singleton] at hw
    have hlt := ofBigEndian_lt bytes
    rw [hlen, hw] at hlt
    have hlow : (TypeDecoder.widen (fixedValue bytes 4 t.value) .char).low 4 = ofBigEndian bytes :=
      Value.low_setLow hlt
    rw [hv, hw, hlow]
    rfl
  · have hws : m.typeDecoder.wellSpelled bytes = true := by
      generalize m.typeDecoder = d at hk hc
      cases d <;> simp only [TypeDecoder.kind, reduceCtorEq] at hk <;>
        first | rfl | exact absurd rfl hc
    rw [hws, decide_eq_false hc]
    rfl

theorem call_fixed {recurse : Recurse} {c : Context} {s : Slot} (hm : m ∈ typeLookupTable.toList)
    (hk : m.kind = .fixed) (fuel start : Nat) :
    ∃ t', m.typeDecoder.call recurse c b m t =
        .ok ((walkInto b.input (fuel + 1) m start b.index).1.accepted, c,
          { b with index := (walkInto b.input (fuel + 1) m start b.index).1.stop }, t') ∧
      Filled b.input b.address m ⟨s, (walkInto b.input (fuel + 1) m start b.index).1, none, none⟩
        .nil t t' ∧ (walkInto b.input (fuel + 1) m start b.index).2 = .nil := by
  have hlen := b.input.length_bytes b.index m.width
  obtain ⟨hw, hfill⟩ := fill_fixed b.address hm hk hlen t.value
  have hleaf : m.kind.IsLeaf := .inr (.inl hk)
  have hnc : ∀ {p : Prop}, m.kind.IsContainer → p := by
    rintro p (h | h | h) <;> rw [hk] at h <;> cases h
  have hnv : ∀ {p : Prop}, m.kind = .variableWidth → p := by
    intro p h
    rw [hk] at h
    cases h
  have hcall := call_fixed_eq recurse (c := c) (b := b) (t := t) hk
  have hcheck := fixed_check (t := t) hm hk hlen rfl
  simp only [walkInto, hk]
  rw [hcall, fixedWidth_eq hw]
  by_cases ha : b.input.Available b.index m.width
  · simp only [if_pos ha, Fault.ok_bind, if_true, hcheck]
    cases hs : m.typeDecoder.wellSpelled (b.input.bytes b.index m.width) with
    | true =>
      refine ⟨_, rfl, Filled.leaf_ok rfl rfl rfl hleaf ?_, trivial⟩
      rw [hfill]
    | false =>
      refine ⟨_, rfl, Filled.error _ rfl rfl rfl (.inl hk) rfl rfl (.inr ⟨rfl, fun _ => ?_,
        fun h => hnv h, fun h => hnc h⟩) fun h => hnc (.inr (.inl h)), trivial⟩
      rw [hs, Bool.not_false, Bool.and_eq_true, decide_eq_true_eq] at hcheck
      exact hcheck.1
  · simp only [if_neg ha]
    exact ⟨_, rfl, Filled.error _ rfl rfl rfl (.inl hk) rfl rfl (.inl ⟨rfl, rfl, rfl⟩)
      fun h => hnc (.inr (.inl h)), trivial⟩

theorem call_zero {recurse : Recurse} {c : Context} {s : Slot} (hk : m.kind = .zero)
    (fuel start : Nat) :
    ∃ t', m.typeDecoder.call recurse c b m t =
        .ok ((walkInto b.input (fuel + 1) m start b.index).1.accepted, c,
          { b with index := (walkInto b.input (fuel + 1) m start b.index).1.stop }, t') ∧
      Filled b.input b.address m ⟨s, (walkInto b.input (fuel + 1) m start b.index).1, none, none⟩
        .nil t t' ∧ (walkInto b.input (fuel + 1) m start b.index).2 = .nil := by
  simp only [walkInto, hk]
  refine ⟨_, ?_, Filled.leaf_ok rfl rfl rfl (.inl hk) rfl, trivial⟩
  simp only [EncodingMetaData.kind] at hk
  generalize m.typeDecoder = d at hk
  cases d <;> simp only [TypeDecoder.kind, reduceCtorEq] at hk <;> rfl

/-! ## Variable width -/

theorem field_ne_sizeError {inp : Input} {w i size j : Nat} (h : inp.field w i = (some size, j)) :
    size ≠ Buffer.sizeError := by
  rintro rfl
  rw [Input.field, Buffer.readField] at h
  split at h
  · simp only [Prod.mk.injEq] at h
    split at h
    · cases h.1
    · rename_i hn
      exact hn (Option.some.inj h.1)
  · cases h

/-- `get_variable_type_size`, by the outline's size field. -/
theorem getVariableTypeSize_eq (hw : m.width = 1 ∨ m.width = 4) :
    getVariableTypeSize b m t = match b.input.field m.width b.index with
      | (none, j) => .ok (Buffer.sizeError, { b with index := j }, t.markInvalid .bufferWouldOverrun)
      | (some size, j) =>
        if b.input.Available j size then .ok (size, { b with index := j }, t)
        else .ok (Buffer.sizeError, { b with index := j }, t.markInvalid .bufferWouldOverrun) := by
  have hf : b.input.field m.width b.index = Buffer.readField b.byteAt b.size m.width b.index := rfl
  rw [getVariableTypeSize, Buffer.readSizeField_eq b hw, Fault.ok_bind, ← hf]
  rcases hr : b.input.field m.width b.index with ⟨_ | size, j⟩
  · rfl
  · have hne := field_ne_sizeError hr
    simp only [Option.getD_some, if_neg hne]
    by_cases ha : b.input.Available j size
    · rw [if_pos ha, if_neg]
      simpa using (Buffer.checkAvailable_iff (b := { b with index := j })).2 ha
    · rw [if_neg ha, if_pos]
      simpa using fun hc => ha ((Buffer.checkAvailable_iff (b := { b with index := j })).1 hc)

theorem checkCharacters_ok (bad : UInt8 → Bool) {n : Nat} : ∀ {i : Nat}, i + n ≤ b.size →
    checkCharacters b bad i n = .ok ((b.bytes i n).all fun c => !bad c) := by
  induction n with
  | zero => exact fun _ => rfl
  | succ n ih =>
    intro i h
    rw [checkCharacters, Buffer.uncheckedGetcAt_ok (by omega), Fault.ok_bind, Buffer.bytes_succ,
      List.all_cons, ih (by omega)]
    cases bad (b.byteAt i) <;> rfl

/-- `amqp_construct_variable_type`, by the outline's size field. -/
theorem constructVariable_eq (hw : m.width = 1 ∨ m.width = 4) :
    amqpConstructVariableType b m t = match b.input.field m.width b.index with
      | (none, j) => .ok (false, { b with index := j }, t.markInvalid .bufferWouldOverrun)
      | (some size, j) =>
        if b.input.Available j size then .ok (true, { b with index := j + size }, { t with
          position := ⟨j, size⟩, value := { t.value with word := b.address } })
        else .ok (false, { b with index := j }, t.markInvalid .bufferWouldOverrun) := by
  rw [amqpConstructVariableType, getVariableTypeSize_eq hw]
  rcases hr : b.input.field m.width b.index with ⟨_ | size, j⟩
  · rfl
  · simp only
    split
    · simp only [Fault.ok_bind, if_neg (field_ne_sizeError hr)]
      rfl
    · rfl

/-- A variable type is read as it is, or its characters are checked as in the outline. -/
theorem call_variable_eq (recurse : Recurse) (c : Context) (b : Buffer) (t : AmqpType)
    (hk : m.kind = .variableWidth) :
    (m.typeDecoder.call recurse c b m t = liftDecoding c (amqpConstructVariableType b m t) ∧
      ∀ bytes, m.typeDecoder.wellSpelled bytes = true) ∨
    ∃ bad code, m.typeDecoder.call recurse c b m t = liftDecoding c (decodeCharacters b m t bad code) ∧
      ∀ bytes, m.typeDecoder.wellSpelled bytes = bytes.all fun x => !bad x := by
  have hsym : ∀ bytes : List UInt8, (bytes.all fun c => c &&& 0x80 == 0) =
      bytes.all fun c => !(c &&& 0x80 != 0) := by simp only [bne, Bool.not_not, implies_true]
  have hstr : ∀ bytes : List UInt8, (bytes.all fun c => c != 0) = bytes.all fun c => !(c == 0) :=
    fun _ => rfl
  simp only [EncodingMetaData.kind] at hk
  generalize m.typeDecoder = d at hk
  cases d <;> simp only [TypeDecoder.kind, reduceCtorEq] at hk
  case binaryVbin8 | binaryVbin32 => exact .inl ⟨rfl, fun _ => rfl⟩
  case stringStr8Utf8 | stringStr32Utf8 => exact .inr ⟨_, _, rfl, hstr⟩
  case symbolSym8 | symbolSym32 => exact .inr ⟨_, _, rfl, hsym⟩

theorem fill_variable {address : Nat} {bytes : List UInt8} (hk : m.kind = .variableWidth) (v : Value) :
    m.typeDecoder.fill address bytes v = { v with word := address } := by
  simp only [EncodingMetaData.kind] at hk
  generalize m.typeDecoder = d at hk
  cases d <;> simp only [TypeDecoder.kind, reduceCtorEq] at hk <;> rfl

theorem call_variable {recurse : Recurse} {c : Context} {s : Slot}
    (hm : m ∈ typeLookupTable.toList) (hk : m.kind = .variableWidth) (fuel start : Nat) :
    ∃ t', m.typeDecoder.call recurse c b m t =
        .ok ((walkInto b.input (fuel + 1) m start b.index).1.accepted, c,
          { b with index := (walkInto b.input (fuel + 1) m start b.index).1.stop }, t') ∧
      Filled b.input b.address m ⟨s, (walkInto b.input (fuel + 1) m start b.index).1, none, none⟩
        .nil t t' ∧ (walkInto b.input (fuel + 1) m start b.index).2 = .nil := by
  have hleaf : m.kind.IsLeaf := .inr (.inr hk)
  have hnc : ∀ {p : Prop}, m.kind.IsContainer → p := by
    rintro p (h | h | h) <;> rw [hk] at h <;> cases h
  have hnf : ∀ {p : Prop}, m.kind = .fixed → p := by
    intro p h
    rw [hk] at h
    cases h
  have hcon := constructVariable_eq (b := b) (t := t) (field_width hm (.inl hk))
  simp only [walkInto, hk]
  rcases hr : b.input.field m.width b.index with ⟨_ | size, j⟩
  · simp only [hr] at hcon ⊢
    refine ⟨_, ?_, Filled.error .bufferWouldOverrun rfl rfl rfl (.inr (.inl hk)) rfl rfl
      (.inl ⟨rfl, rfl, rfl⟩) fun h => hnc (.inr (.inl h)), trivial⟩
    rcases call_variable_eq recurse c b t hk with ⟨hcall, -⟩ | ⟨bad, code, hcall, -⟩
    · rw [hcall, hcon]; rfl
    · rw [hcall, decodeCharacters, hcon]; rfl
  · by_cases ha : b.input.Available j size
    · simp only [hr, if_pos ha] at hcon ⊢
      rcases call_variable_eq recurse c b t hk with ⟨hcall, hws⟩ | ⟨bad, code, hcall, hws⟩
      · rw [hws, hcall, hcon]
        exact ⟨_, rfl, Filled.leaf_ok rfl rfl rfl hleaf (by rw [fill_variable hk]), trivial⟩
      · have hchk := checkCharacters_ok (b := { b with index := j + size }) bad ha.2
        have hall : (({ b with index := j + size } : Buffer).bytes j size).all (fun c => !bad c) =
          m.typeDecoder.wellSpelled (b.input.bytes j size) := (hws _).symm
        rw [hcall, decodeCharacters, hcon]
        simp only [Fault.ok_bind, if_true, hchk, hall]
        cases hs : m.typeDecoder.wellSpelled (b.input.bytes j size) with
        | true => exact ⟨_, rfl, Filled.leaf_ok rfl rfl rfl hleaf (by rw [fill_variable hk]), trivial⟩
        | false =>
          exact ⟨_, rfl, Filled.error _ rfl rfl rfl (.inr (.inl hk)) rfl rfl (.inr ⟨rfl, fun h => hnf h,
            fun _ => rfl, fun h => hnc h⟩) fun h => hnc (.inr (.inl h)), trivial⟩
    · simp only [hr, if_neg ha] at hcon ⊢
      refine ⟨_, ?_, Filled.error .bufferWouldOverrun rfl rfl rfl (.inr (.inl hk)) rfl rfl
      (.inl ⟨rfl, rfl, rfl⟩) fun h => hnc (.inr (.inl h)), trivial⟩
      rcases call_variable_eq recurse c b t hk with ⟨hcall, -⟩ | ⟨bad, code, hcall, -⟩
      · rw [hcall, hcon]; rfl
      · rw [hcall, decodeCharacters, hcon]; rfl

/-- A decoder of a type without elements follows the outline. -/
theorem call_leaf (recurse : Recurse) {c : Context} {s : Slot} (hm : m ∈ typeLookupTable.toList)
    (hk : m.kind.IsLeaf) (fuel start : Nat) :
    ∃ t', m.typeDecoder.call recurse c b m t =
        .ok ((walkInto b.input (fuel + 1) m start b.index).1.accepted, c,
          { b with index := (walkInto b.input (fuel + 1) m start b.index).1.stop }, t') ∧
      Filled b.input b.address m ⟨s, (walkInto b.input (fuel + 1) m start b.index).1, none, none⟩
        .nil t t' ∧ (walkInto b.input (fuel + 1) m start b.index).2 = .nil := by
  rcases hk with hk | hk | hk
  · exact call_zero hk fuel start
  · exact call_fixed hm hk fuel start
  · exact call_variable hm hk fuel start

end
end Amqp
