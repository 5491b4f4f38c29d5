import LibAmqp.Codec.Outline

/-!
# The table of format codes

* `lookup_mem`, `lookup_self`: the binary search finds the entries of the table and no others.
* `table_widths`, `table_flags`: what every entry of a kind has in common.
-/

namespace Amqp

theorem lookup_go_mem {code : UInt8} {m : EncodingMetaData} : ∀ {fuel s e : Nat},
    amqpTypeMetaDataLookup.go code fuel s e = some m →
    m ∈ typeLookupTable.toList ∧ m.formatCode = code
  | 0, _, _, h => nomatch h
  | fuel + 1, s, e, h => by
    unfold amqpTypeMetaDataLookup.go at h
    split at h
    · dsimp only at h
      split at h
      · cases h
      · rename_i candidate hc
        split at h
        · rename_i hcode
          cases h
          exact ⟨Array.mem_toList_iff.2 (Array.mem_of_getElem? hc), hcode⟩
        · split at h
          · exact lookup_go_mem h
          · exact lookup_go_mem h
    · cases h

theorem lookup_mem {code : UInt8} {m : EncodingMetaData} (h : amqpTypeMetaDataLookup code = some m) :
    m ∈ typeLookupTable.toList ∧ m.formatCode = code := lookup_go_mem h

theorem lookup_self : ∀ m ∈ typeLookupTable.toList,
    amqpTypeMetaDataLookup m.formatCode = some m := by
  decide +kernel

/-- The widths a decoder is used with. -/
def TypeDecoder.widths : TypeDecoder → List Nat
  | .ubyte | .byte | .smallUint | .smallUlong | .smallInt | .smallLong | .boolean => [1]
  | .ushort | .short => [2]
  | .uint | .int | .float | .char | .decimal32 => [4]
  | .ulong | .long | .double | .timestamp | .decimal64 => [8]
  | .uuid => [16]
  | .binaryVbin8 | .stringStr8Utf8 | .symbolSym8 | .list8 | .map8 | .array8 => [1]
  | .binaryVbin32 | .stringStr32Utf8 | .symbolSym32 | .list32 | .map32 | .array32 => [4]
  | .describedType | .null | .booleanTrue | .booleanFalse | .uint0 | .ulong0 | .list0 => [0]
  | .extensionType | .decimal128 => [0, 1, 2, 4, 8, 16]

theorem table_widths : ∀ m ∈ typeLookupTable.toList, m.width ∈ m.typeDecoder.widths := by
  decide +kernel

/-- The flags of an entry: one of the classes of types, and no state. -/
theorem table_flags : ∀ m ∈ typeLookupTable.toList,
    m.typedefFlags &&& (isInvalid ||| isIncomplete ||| isEncoded) = 0#32 ∧
    (m.typedefFlags &&& isContainerMask ≠ 0#32 ↔
      m.kind = .compound ∨ m.kind = .array ∨ m.kind = .described ∨ m.typeDecoder = .list0) ∧
    (m.typedefFlags &&& isArray ≠ 0#32 ↔ m.kind = .array) ∧
    (m.typedefFlags &&& isMap ≠ 0#32 ↔ m.typeDecoder = .map8 ∨ m.typeDecoder = .map32) ∧
    (m.typedefFlags &&& isComposite ≠ 0#32 ↔ m.kind = .described) ∧
    (m.typedefFlags &&& (isFixedMask ||| isVariableMask) ≠ 0#32 →
      m.kind = .zero ∨ m.kind = .fixed ∨ m.kind = .variableWidth ∨ m.kind = .unsupported) := by
  decide +kernel

/-- Size and count fields have one byte or four. -/
theorem field_width {m : EncodingMetaData} (hm : m ∈ typeLookupTable.toList)
    (hk : m.kind = .variableWidth ∨ m.kind = .compound ∨ m.kind = .array) : m.width = 1 ∨ m.width = 4 := by
  have hw := table_widths m hm
  simp only [EncodingMetaData.kind] at hk
  revert hw hk
  cases m.typeDecoder <;> simp [TypeDecoder.kind, TypeDecoder.widths] <;> omega

end Amqp
