import LibAmqp.Codec.Proof.Spell
import LibAmqp.Codec.Proof.Tree

/-!
# The values a decoded tree holds

`Holds c b vs ptrs`: the types at `ptrs` are valid and have the kinds, the contents and the elements
of the values `vs`. The bytes of variable width types stay in the buffer `b`.

* `Laid.holds`: types laid out from an outline of values, in slots that were blank, hold them.
-/

namespace Amqp

open Lib Memory

/-- The flags that say what kind of value a type is. -/
def valueMask : TypedefFlags := isFixedMask ||| isVariableMask ||| isContainerMask

namespace AmqpType

def valueFlags (t : AmqpType) : TypedefFlags := t.constructor.typedefFlags &&& valueMask

/-- A slot whose leftovers do not show: an empty value and no error. -/
def Blank (t : AmqpType) : Prop := t.value = AmqpType.zero.value ∧ t.invalidCause = none

end AmqpType

namespace Value

/-- The sixteen bytes of a uuid, from little endian words. -/
def uuid (v : Value) : List UInt8 :=
  (toBigEndian 8 v.word).reverse ++ (toBigEndian 8 v.elements).reverse

end Value

namespace Scalar

def flags : Scalar → TypedefFlags
  | null => isNull
  | boolean _ => isBoolean
  | ubyte _ => isByte ||| isUnsigned
  | byte _ => isByte
  | ushort _ => isShort ||| isUnsigned
  | short _ => isShort
  | uint _ => isInt ||| isUnsigned
  | int _ => isInt
  | ulong _ => isLong ||| isUnsigned
  | long _ => isLong
  | timestamp _ => isTimestamp
  | float _ => isFloat
  | double _ => isDouble
  | uuid _ => isUuid
  | binary _ => isBinary
  | string _ => isString
  | symbol _ => isSymbol

/-- The bytes of a variable width type in the buffer. -/
def InBuffer (b : Buffer) (t : AmqpType) (bytes : List UInt8) : Prop :=
  t.value.word = b.address ∧ b.bytes t.position.index t.position.size = bytes

/-- The contents of a type: the member of the value union that its kind uses, or the bytes of the
buffer. -/
def Stored (b : Buffer) (t : AmqpType) : Scalar → Prop
  | null => True
  | boolean v => t.value.low 1 = if v then 1 else 0
  | ubyte v | byte v => t.value.low 1 = v.toNat
  | ushort v | short v => t.value.low 2 = v.toNat
  | uint v | int v | float v => t.value.low 4 = v.toNat
  | ulong v | long v | timestamp v | double v => t.value.low 8 = v.toNat
  | uuid v => t.value.uuid = v.toList
  | binary v | string v | symbol v => InBuffer b t v

end Scalar

def Holds (c : Context) (b : Buffer) : Values → List (Option Slot) → Prop
  | .nil, ptrs => ptrs = []
  | .scalar v rest, ptrs => ∃ s t ptrs', ptrs = some s :: ptrs' ∧ c.types.load s = some t ∧
      t.typeIsValid = true ∧ t.valueFlags = v.flags ∧ v.Stored b t ∧ Holds c b rest ptrs'
  | .container k elements rest, ptrs => ∃ s t kids ptrs', ptrs = some s :: ptrs' ∧
      c.types.load s = some t ∧ t.typeIsValid = true ∧ t.valueFlags = k.metaData.typedefFlags ∧
      t.value.count = kids.length ∧ (∀ i x, Element c t i x ↔ kids[i]? = some x) ∧
      Holds c b elements kids ∧ Holds c b rest ptrs'

theorem Holds.length {c : Context} {b : Buffer} {vs : Values} : ∀ {ptrs : List (Option Slot)},
    Holds c b vs ptrs → ptrs.length = vs.length := by
  induction vs with
  | nil => rintro _ rfl; rfl
  | scalar v rest ih =>
    rintro _ ⟨s, t, ptrs', rfl, -, -, -, -, h⟩
    simp [Values.length, ih h]
  | container k elements rest _ ih =>
    rintro _ ⟨s, t, kids, ptrs', rfl, -, -, -, -, -, -, h⟩
    simp [Values.length, ih h]

/-- A missing type holds nothing. -/
theorem Holds.not_none {c : Context} {b : Buffer} {vs : Values} : ¬ Holds c b vs [none] := by
  intro h
  cases vs with
  | nil => cases h
  | scalar v rest =>
    obtain ⟨s, t, ptrs, hnone, -⟩ := h
    cases hnone
  | container k elements rest =>
    obtain ⟨s, t, kids, ptrs, hnone, -⟩ := h
    cases hnone

/-! ## Scalars -/

/-- The last byte of a number, widened. -/
theorem signExtend_byte {w : Nat} (v : BitVec w) (n : Nat) (hw : w = 8 * n) (hn : 0 < n) :
    ((v.setWidth 8).signExtend w).toNat = signExtend n (v.toNat % 256) := by
  subst hw
  have hpow : 256 ^ n = 2 ^ (8 * n) := by rw [Nat.pow_mul]
  have hlarge : 2 ^ 8 ≤ 2 ^ (8 * n) := Nat.pow_le_pow_right (by decide) (by omega)
  have hmod : v.toNat % 256 % 2 ^ (8 * n) = v.toNat % 256 := by
    refine Nat.mod_eq_of_lt ?_
    omega
  simp only [BitVec.toNat_signExtend, BitVec.toNat_setWidth, BitVec.msb_eq_decide,
    decide_eq_true_eq, Nat.reduceSub, Nat.reducePow, hmod]
  rw [signExtend, hpow]
  by_cases hneg : 128 ≤ v.toNat % 256
  · rw [if_pos hneg, if_neg (by omega)]
  · rw [if_neg hneg, if_pos (by omega), Nat.add_zero]

/-- A number fits a signed byte if it is what its last byte widens to. -/
theorem signExtend_fits {w : Nat} {v : BitVec w} (n : Nat) (hw : w = 8 * n) (hn : 0 < n) :
    signExtend n (v.toNat % 256) = v.toNat ↔ fitsSignedChar v = true := by
  rw [← signExtend_byte v n hw hn, fitsSignedChar, beq_iff_eq, BitVec.toNat_inj]

theorem low_toBigEndian {n x : Nat} (h : x < 256 ^ n) :
    (AmqpType.zero.value.setLow (toBigEndian n x).length (ofBigEndian (toBigEndian n x))).low n = x := by
  rw [ofBigEndian_toBigEndian n x h, length_toBigEndian]
  exact Value.low_setLow h

/-- A number of one byte, widened by `f` to `n` bytes. -/
theorem low_widened {n x : Nat} (f : Nat → Nat) (h : f (x % 256) < 256 ^ n) :
    ((fun w : Value => w.setLow n (f (w.low 1)))
      (AmqpType.zero.value.setLow 1 (ofBigEndian (toBigEndian 1 x)))).low n = f (x % 256) := by
  have hbyte : ofBigEndian (toBigEndian 1 x) = x % 256 := by simp [toBigEndian, ofBigEndian]
  have hlow : (AmqpType.zero.value.setLow 1 (x % 256)).low 1 = x % 256 :=
    Value.low_setLow (by omega)
  simp only [hbyte, hlow]
  exact Value.low_setLow h

/-- The value a type gets from the payload of a scalar. -/
theorem Scalar.stored_fill (inArray : Bool) {v : Scalar} {b : Buffer} {t : AmqpType}
    (hvalue : t.value = (v.encoding inArray).1.typeDecoder.fill b.address (v.encoding inArray).2
      AmqpType.zero.value)
    (hbytes : b.bytes t.position.index t.position.size = (v.encoding inArray).2) :
    v.Stored b t := by
  cases v with
  | null => trivial
  | boolean v => 
    rw [Stored, hvalue]
    cases v <;> cases inArray <;> rfl
  | ubyte v | byte v => 
    rw [Stored, hvalue]
    exact low_toBigEndian (n := 1) v.isLt
  | ushort v | short v =>
    rw [Stored, hvalue]
    exact low_toBigEndian (n := 2) v.isLt
  | float v =>
    rw [Stored, hvalue]
    exact low_toBigEndian (n := 4) v.isLt
  | timestamp v | double v =>
    rw [Stored, hvalue]
    exact low_toBigEndian (n := 8) v.isLt
  | uint v =>
    rw [Stored, hvalue]
    simp only [encoding]
    split
    · rename_i h
      rw [h]
      rfl
    split
    · rename_i h
      have hx : v.toNat % 256 = v.toNat := Nat.mod_eq_of_lt (by omega)
      exact (low_widened (n := 4) id (show v.toNat % 256 < _ by rw [hx]; exact v.isLt)).trans hx
    · exact low_toBigEndian (n := 4) v.isLt
  | ulong v =>
    rw [Stored, hvalue]
    simp only [encoding]
    split
    · rename_i h
      rw [h]
      rfl
    split
    · rename_i h
      have hx : v.toNat % 256 = v.toNat := Nat.mod_eq_of_lt (by omega)
      exact (low_widened (n := 8) id (show v.toNat % 256 < _ by rw [hx]; exact v.isLt)).trans hx
    · exact low_toBigEndian (n := 8) v.isLt
  | int v =>
    rw [Stored, hvalue]
    simp only [encoding]
    split
    · rename_i h
      have hx := (signExtend_fits 4 rfl (by decide)).2 h
      exact (low_widened (n := 4) (signExtend 4) (by rw [hx]; exact v.isLt)).trans hx
    · exact low_toBigEndian (n := 4) v.isLt
  | long v =>
    rw [Stored, hvalue]
    simp only [encoding]
    split
    · rename_i h
      have hx := (signExtend_fits 8 rfl (by decide)).2 h
      exact (low_widened (n := 8) (signExtend 8) (by rw [hx]; exact v.isLt)).trans hx
    · exact low_toBigEndian (n := 8) v.isLt
  | uuid v =>
    rw [Stored, hvalue]
    show Value.uuid ⟨uuidWord (v.toList.take 8), uuidWord (v.toList.drop 8), none⟩ = v.toList
    simp only [Value.uuid, uuidWord]
    rw [toBigEndian_ofBigEndian (by simp), toBigEndian_ofBigEndian (by simp), List.reverse_reverse,
      List.reverse_reverse, List.take_append_drop]
  | binary v | string v | symbol v =>
    refine ⟨?_, hbytes⟩
    rw [hvalue]
    simp only [encoding]
    split <;> rfl

theorem Scalar.encoding_flags (inArray : Bool) (v : Scalar) :
    (v.encoding inArray).1.typedefFlags &&& valueMask = v.flags := by
  cases v <;> simp only [encoding, flags] <;> (repeat' split) <;> try dsimp only
  all_goals decide

theorem Scalar.encoding_leaf (inArray : Bool) (v : Scalar) : (v.encoding inArray).1.kind.IsLeaf := by
  cases v <;> simp only [encoding] <;> (repeat' split) <;> try dsimp only
  all_goals
    first
    | exact .inl rfl
    | exact .inr (.inl rfl)
    | exact .inr (.inr rfl)

/-! ## Trees -/

section
variable {P : AmqpType → Prop} {c : Context} {b : Buffer} {inp : Input} {address : Nat} {n : Node}
  {kids : Layout}

/-- The kind and the value of an accepted type that has no elements. -/
theorem Fits.leaf_value (hP : ∀ t, P t → t.value = AmqpType.zero.value)
    (h : Fits c inp address P n kids) (hacc : n.item.accepted = true) {m : EncodingMetaData}
    (hl : amqpTypeMetaDataLookup n.item.code = some m) :
    ∃ t, c.types.load n.slot = some t ∧ t.typeIsValid = true ∧
      t.position = ⟨n.item.index, n.item.size⟩ ∧ t.valueFlags = m.typedefFlags &&& valueMask ∧
      (m.kind.IsLeaf → t.value = m.typeDecoder.fill address
        (inp.bytes n.item.index n.item.size) AmqpType.zero.value) := by
  obtain ⟨t0, hload0, hvalid, -, hposition, -⟩ := h.seen
  obtain ⟨t, role, hrole, ⟨stale, k, hstale, ⟨-, hk⟩, hf⟩, hload⟩ := h.record
  rw [hload0, Option.some.injEq] at hload
  subst hload
  simp only [hl] at hf hk
  refine ⟨_, hload0, by rw [hvalid, hacc], hposition hacc, ?_, fun hleaf => ?_⟩
  · rw [AmqpType.valueFlags]
    show (t.constructor.typedefFlags ||| role) &&& valueMask = _
    rw [or_and_of_disjoint (hrole.disjoint (by decide)), (hf.accepted hacc).1, hk.2]
  · show t.value = _
    rw [(hf.leaf hleaf).2.2.2 hacc, hP stale hstale]

/-- The code of a completed container: its own, or that of the empty list. -/
theorem Former.part_code (k : Former) (inArray : Bool) (parts : List Part) :
    (k.part inArray parts).code = k.metaData.formatCode ∨
      (k.isList = true ∧ parts = [] ∧
        (k.part inArray parts).code = EncodingMetaData.list0.formatCode) := by
  unfold Former.part
  split
  · rename_i h
    simp only [Bool.and_eq_true, List.isEmpty_iff] at h
    exact .inr ⟨h.1.2, h.2, rfl⟩
  · exact .inl rfl

/-- A container that keeps its fields. -/
theorem Former.part_eq {k : Former} {inArray : Bool} {parts : List Part}
    (h : ¬(inArray = false ∧ k.isList = true ∧ parts = [])) :
    k.part inArray parts = ⟨k.metaData.formatCode,
      if k.metaData.width = 0 then k.content parts
      else toBigEndian k.metaData.width ((k.content parts).length + k.metaData.width) ++
        toBigEndian k.metaData.width parts.length ++ k.content parts⟩ := by
  rw [Former.part, if_neg]
  cases inArray <;> cases hl : k.isList <;> simp_all

theorem Former.isContainer (k : Former) : k.metaData.kind.IsContainer := by
  cases k
  all_goals
    first
    | exact .inl rfl
    | exact .inr (.inl rfl)
    | exact .inr (.inr rfl)

/-- An accepted container: its kind and its elements. -/
theorem Fits.container {k : Former} {inArray : Bool} {parts : List Part}
    (hP : ∀ t, P t → t.value = AmqpType.zero.value) (h : Fits c inp address P n kids)
    (hacc : n.item.accepted = true) (hcode : n.item.code = (k.part inArray parts).code) :
    ∃ t, c.types.load n.slot = some t ∧ t.typeIsValid = true ∧
      t.valueFlags = k.metaData.typedefFlags ∧ t.value.count = (Layout.pointers kids).length ∧
      ∀ i x, Element c t i x ↔ (Layout.pointers kids)[i]? = some x := by
  obtain ⟨m, t, hknown⟩ := h.known hacc
  obtain ⟨t', hload, hvalid, -, hflags, -⟩ := h.leaf_value hP hacc hknown.lookup
  obtain rfl : t = t' := Option.some.inj (hknown.load.symm.trans hload)
  have hm : ∀ m' ∈ typeLookupTable.toList, n.item.code = m'.formatCode → m = m' := by
    intro m' hm' hc
    have := hknown.lookup
    rw [hc, lookup_self m' hm'] at this
    exact (Option.some.inj this).symm
  refine ⟨t, hload, hvalid, ?_⟩
  rcases k.part_code inArray parts with hk | ⟨hlist, -, hk⟩
  · obtain rfl := hm _ k.metaData_mem (hcode.trans hk)
    refine ⟨?_, ?_, hknown.element k.isContainer⟩
    · rw [hflags]
      cases k <;> rfl
    · rw [hknown.count k.isContainer, Layout.length_pointers]
  · obtain rfl := hm .list0 (by decide) (hcode.trans hk)
    obtain rfl := hknown.leaf (by rintro (h | h | h) <;> cases h)
    have hzero : t.value.count = 0 := hknown.list0 rfl
    refine ⟨?_, hzero, fun i x => ⟨fun hx => ?_, fun hx => nomatch hx⟩⟩
    · rw [hflags]
      cases k <;> first | rfl | cases hlist
    · rw [Element, hzero] at hx
      exact absurd hx.1 (Nat.not_lt_zero i)

theorem Laid.holds (hP : ∀ t, P t → t.value = AmqpType.zero.value) {vs : Values} :
    ∀ {inArray : Bool} {F : Layout}, Laid c b.input b.address P F →
      Spells b.input inArray vs F.outline → Holds c b vs F.pointers := by
  induction vs with
  | nil =>
    intro _ F _ h
    cases F with
    | nil => rfl
    | hole => exact h.elim
    | node => exact h.elim
  | scalar v rest ih =>
    intro inArray F hlaid h
    cases F with
    | nil => exact h.elim
    | hole => exact h.elim
    | node n kids F =>
      obtain ⟨hkids, hacc, hcode, hbytes, hrest⟩ := h
      have hlookup : amqpTypeMetaDataLookup n.item.code = some (v.encoding inArray).1 := by
        rw [show n.item.code = _ from hcode]
        exact lookup_self _ (v.encoding_mem inArray)
      obtain ⟨t, hload, hvalid, hpos, hflags, hval⟩ := hlaid.1.leaf_value hP hacc hlookup
      refine ⟨n.slot, t, Layout.pointers F, rfl, hload, hvalid, ?_, ?_, ih hlaid.2.2 hrest⟩
      · rw [hflags, v.encoding_flags]
      · refine Scalar.stored_fill inArray ?_ ?_
        · rw [hval (v.encoding_leaf inArray), ← hbytes]
        · rw [hpos]
          exact hbytes
  | container k elements rest ihk ihr =>
    intro inArray F hlaid h
    cases F with
    | nil => exact h.elim
    | hole => exact h.elim
    | node n kids F =>
      obtain ⟨hacc, hcode, hkids, hrest⟩ := h
      obtain ⟨t, hload, hvalid, hflags, hcount, helem⟩ := hlaid.1.container hP hacc hcode
      exact ⟨n.slot, t, Layout.pointers kids, Layout.pointers F, rfl, hload, hvalid, hflags, hcount,
        helem, ihk hlaid.2.1 hkids, ihr hlaid.2.2 hrest⟩

end
end Amqp
