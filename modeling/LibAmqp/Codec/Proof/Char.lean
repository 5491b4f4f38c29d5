import LibAmqp.Codec.Char
import LibAmqp.Codec.Proof.Safety

/-!
# Which chars are validated

* `decodeTypeIntoResult_char`: what the decoder does to a char.
* `charValidated_iff`: the numbers that are judged as they should be. Those with the top bit set are negative
  for `amqp_validate_char`, thus below `0xd800`.
-/

namespace Amqp

open Lib Memory Buffer

/-! ## Numbers -/

theorem payload_lt (b : Buffer) (i : Nat) : b.payload i < 2 ^ 32 := by
  have h := ofBigEndian_lt (b.bytes i 4)
  rwa [Buffer.length_bytes] at h

theorem amqpValidateChar_small {n : Nat} (h : n < 2 ^ 31) : amqpValidateChar n = true ↔ n.isValidChar := by
  simp only [amqpValidateChar, Nat.isValidChar, Bool.or_eq_true, Bool.and_eq_true, decide_eq_true_eq]
  omega

theorem amqpValidateChar_large {n : Nat} (h : 2 ^ 31 ≤ n) : amqpValidateChar n = true ∧ ¬ n.isValidChar := by
  simp only [amqpValidateChar, Nat.isValidChar, Bool.or_eq_true, Bool.and_eq_true, decide_eq_true_eq]
  omega

/-! ## One char -/

/-- The type of a char with its number. -/
def AmqpType.withChar (t : AmqpType) (i n : Nat) : AmqpType :=
  { t with position := ⟨i, 4⟩, value := t.value.setLow 4 n }

/-- The same as the decoder leaves it. -/
def AmqpType.decodedChar (t : AmqpType) (i n : Nat) : AmqpType :=
  if amqpValidateChar n then t.withChar i n else (t.withChar i n).markInvalid .invalidUtf32Character

theorem decodedChar_valid {t : AmqpType} {i n : Nat} (hflags : t.constructor.typedefFlags = isChar) :
    (t.decodedChar i n).typeIsValid = amqpValidateChar n ∧ (amqpValidateChar n = false →
      (t.decodedChar i n).invalidCause = some .invalidUtf32Character) := by
  rw [AmqpType.decodedChar]
  cases amqpValidateChar n with
  | true =>
    refine ⟨?_, fun h => nomatch h⟩
    rw [if_pos rfl]
    simp only [AmqpType.typeIsValid, AmqpType.typeIsInvalid, AmqpType.typedefFlagsTest, AmqpType.withChar, hflags]
    decide
  | false =>
    rw [if_neg Bool.false_ne_true]
    refine ⟨?_, fun _ => rfl⟩
    simp only [AmqpType.typeIsValid, AmqpType.typeIsInvalid, AmqpType.typedefFlagsTest, AmqpType.markInvalid,
      AmqpType.typedefFlagsSet, AmqpType.withChar, hflags]
    decide

/-- A decoded char is judged by its number unless the top bit is set. -/
theorem decodedChar_judged_iff {t : AmqpType} {i n : Nat} (hflags : t.constructor.typedefFlags = isChar) :
    (t.decodedChar i n).Judged n ↔ n < 2 ^ 31 := by
  obtain ⟨hvalid, hcause⟩ := decodedChar_valid (i := i) (n := n) hflags
  constructor
  · intro h
    by_contra hlarge
    obtain ⟨haccepted, hno⟩ := amqpValidateChar_large (Nat.not_lt.1 hlarge)
    exact hno (h.1.1 (hvalid.trans haccepted))
  · intro hsmall
    have hiff := amqpValidateChar_small hsmall
    refine ⟨by rw [hvalid, hiff], fun hno => ?_⟩
    have hfalse : amqpValidateChar n = false := Bool.eq_false_iff.2 fun h => hno (hiff.1 h)
    rw [hfalse, AmqpType.typeIsValid, Bool.not_eq_false'] at hvalid
    exact ⟨hvalid, hcause hfalse⟩

section
variable {c : Context} {b : Buffer} {t : AmqpType}

theorem decodeTypeIntoResult_char (fuel : Nat) (hmeta : t.constructor.metaData = some .charUtf32)
    (hroom : b.index + 4 ≤ b.size) :
    decodeTypeIntoResult (fuel + 1) c b t =
      .ok (amqpValidateChar (b.payload b.index), c, { b with index := b.index + 4 },
        t.decodedChar b.index (b.payload b.index)) := by
  have hfixed : amqpDecodeFixedWidth b .charUtf32 t =
      .ok (true, { b with index := b.index + 4 }, t.withChar b.index (b.payload b.index)) := by
    have hwidth : EncodingMetaData.charUtf32.width ∈ [1, 2, 4, 8, 16] := by decide
    have havail : b.input.Available b.index 4 := ⟨by show b.index < b.size; omega, hroom⟩
    rw [fixedWidth_eq hwidth]
    exact if_pos havail
  have hlow : (t.withChar b.index (b.payload b.index)).value.low 4 = b.payload b.index :=
    Value.low_setLow (payload_lt b b.index)
  have hcall : TypeDecoder.call (decodeTypeIntoResult fuel) c b .charUtf32 t .char =
      .ok (amqpValidateChar (b.payload b.index), c, { b with index := b.index + 4 },
        t.decodedChar b.index (b.payload b.index)) := by
    rw [TypeDecoder.call, amqpDecodeChar, hfixed, Fault.ok_bind]
    dsimp only
    rw [hlow, AmqpType.decodedChar]
    cases amqpValidateChar (b.payload b.index) <;> rfl
  rw [decodeTypeIntoResult, hmeta]
  show (TypeDecoder.call (decodeTypeIntoResult fuel) c b .charUtf32 t .char >>= _) = _
  rw [hcall, Fault.ok_bind]
  dsimp only
  cases hjudged : amqpValidateChar (b.payload b.index) with
  | true => rfl
  | false =>
    have hasserts : ((t.decodedChar b.index (b.payload b.index)).invalidCause.isSome &&
        (t.decodedChar b.index (b.payload b.index)).typeIsInvalid) = true := by
      rw [AmqpType.decodedChar, hjudged, if_neg Bool.false_ne_true, Bool.and_eq_true]
      exact ⟨rfl, markInvalid_typeIsInvalid _ _⟩
    rw [if_neg Bool.false_ne_true, if_pos hasserts]

/-- What was decoded is written to the type that was allocated. -/
theorem charValidated_store {s : Slot} {t0 : AmqpType} {d : Decoded} {i n : Nat}
    (hload : c.load s = .ok t0) (hflags : t.constructor.typedefFlags = isChar) :
    CharValidated (.ok (some s, (c.store s (t.decodedChar i n)).log d, b)) n ↔ n < 2 ^ 31 := by
  have hold : c.types.load s = some t0 := by
    rw [Context.load] at hload
    split at hload <;> cases hload
    assumption
  have hself : ((c.store s (t.decodedChar i n)).log d).types.load s = some (t.decodedChar i n) :=
    load_store_self hold
  rw [← decodedChar_judged_iff (i := i) hflags]
  constructor
  · rintro ⟨s', c', b', t', hresult, hload', hjudged⟩
    cases hresult
    rw [hself] at hload'
    exact Option.some.inj hload' ▸ hjudged
  · exact fun h => ⟨s, _, b, _, rfl, hself, h⟩

section
variable {P : AmqpType → Prop} {live : Finset Slot} (hr : Ready P c live)

include hr

/-- A char that is decoded on its own. -/
theorem amqpDecode_char (hcode : b.byteAt b.index = 0x73) (hroom : b.index + 5 ≤ b.size) :
    ∃ (s : Slot) (c' : Context) (t0 t : AmqpType), c'.load s = .ok t0 ∧ t.constructor = charConstructor ∧
      amqpDecode c b = .ok (some s,
        (c'.store s (t.decodedChar (b.index + 1) (b.payload (b.index + 1)))).log ⟨s, b.index, b.index + 5⟩,
        { b with index := b.index + 5 }) := by
  obtain ⟨s, c', stale, hall, -, -, -, hload, -⟩ := allocateType_spec hr
  have hend : b.atEnd = false := by
    rw [Buffer.atEnd, beq_eq_false_iff_ne]
    omega
  have hgetc : b.getc = .ok (some 0x73, { b with index := b.index + 1 }) := by
    rw [getc_ok (by omega), hcode]
  have hlookup : amqpTypeMetaDataLookup 0x73 = some .charUtf32 := by decide +kernel
  let t := { stale.initializeAmqpType with constructor := charConstructor }
  have hctor : decodeTypeConstructorIntoResult b stale.initializeAmqpType =
      .ok (true, { b with index := b.index + 1 }, t) := by
    simp only [decodeTypeConstructorIntoResult, decodeTypeConstructor, hgetc, Fault.ok_bind,
      Option.getD_some, hlookup, if_true]
    rfl
  have hinto := decodeTypeIntoResult_char (c := c') (b := { b with index := b.index + 1 }) (t := t)
    (b.size - b.index) rfl (by show b.index + 1 + 4 ≤ b.size; omega)
  refine ⟨s, c', _, t, hload, rfl, ?_⟩
  rw [amqpDecode, amqpDecodeWith, hend, if_neg Bool.false_ne_true, hall, Fault.ok_bind]
  dsimp only
  rw [hload, Fault.ok_bind, hctor, Fault.ok_bind]
  dsimp only
  rw [if_pos rfl, hinto]
  rfl

/-- The chars that are judged by their number are those without the top bit. -/
theorem charValidated_iff (hcode : b.byteAt b.index = 0x73) (hroom : b.index + 5 ≤ b.size) :
    CharValidated (amqpDecode c b) (b.payload (b.index + 1)) ↔ b.payload (b.index + 1) < 2 ^ 31 := by
  obtain ⟨s, c', t0, t, hload, hctor, hdecode⟩ := amqpDecode_char hr hcode hroom
  rw [hdecode]
  exact charValidated_store hload (congrArg TypeConstructor.typedefFlags hctor)

/-- A char in an array of chars. -/
theorem elementValidated_iff (fuel : Nat) (hroom : b.index + 4 ≤ b.size) :
    CharValidated (amqpDecodeArrayElement (decodeTypeIntoResult (fuel + 1)) charConstructor c b)
      (b.payload b.index) ↔ b.payload b.index < 2 ^ 31 := by
  obtain ⟨s, c', stale, hall, -, -, -, hload, -⟩ := allocateType_spec hr
  let t := createArrayElement charConstructor stale.initializeAmqpType
  have hinto := decodeTypeIntoResult_char (c := c') (b := b) (t := t) fuel rfl hroom
  have hdecode : amqpDecodeArrayElement (decodeTypeIntoResult (fuel + 1)) charConstructor c b = .ok (some s,
      (c'.store s (t.decodedChar b.index (b.payload b.index))).log ⟨s, b.index, b.index + 4⟩,
      { b with index := b.index + 4 }) := by
    rw [amqpDecodeArrayElement, hall, Fault.ok_bind]
    dsimp only
    rw [hload, Fault.ok_bind, hinto]
    rfl
  rw [hdecode]
  exact charValidated_store hload rfl

end

end

/-- The euro sign. -/
theorem charValidated_iff_euro :
    CharValidated (amqpDecode (Context.create Malloc.bump 21) (.received [0x73, 0, 0, 0x20, 0xac]))
      ((Buffer.received [0x73, 0, 0, 0x20, 0xac]).payload 1) ↔
        (Buffer.received [0x73, 0, 0, 0x20, 0xac]).payload 1 < 2 ^ 31 :=
  charValidated_iff (b := .received [0x73, 0, 0, 0x20, 0xac])
    (create_ready Malloc.bump (by decide) (by decide)) (by decide) (by decide)

theorem not_charValidated_top :
    ¬ CharValidated (amqpDecode (Context.create Malloc.bump 21) (.received [0x73, 0x80, 0, 0, 0]))
      ((Buffer.received [0x73, 0x80, 0, 0, 0]).payload 1) := by
  obtain ⟨s, c', t0, t, hload, hctor, hdecode⟩ := amqpDecode_char (b := .received [0x73, 0x80, 0, 0, 0])
    (create_ready Malloc.bump (n := 21) (by decide) (by decide)) (by decide) (by decide)
  rw [hdecode]
  intro h
  have hsmall := (charValidated_store hload (congrArg TypeConstructor.typedefFlags hctor)).1 h
  exact absurd hsmall (by decide)

end Amqp
