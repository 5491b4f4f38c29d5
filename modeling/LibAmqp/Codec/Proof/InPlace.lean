import LibAmqp.Codec.InPlace
import LibAmqp.Codec.Proof.Place
import LibAmqp.Codec.Proof.Spell

/-!
# The outline of what encoder calls leave behind

`Found inp inArray i cs O`: the outline `O` has the values of the calls `cs`, each from its own bytes.

* `Leaf.walk_fixed`, `Leaf.walk_variable`: a call for a single value.
* `Former.walk_compound`, `Former.walk_array`: a container.
* `CallTree.walks`: values that are in place are found where they are.
-/

namespace Amqp

open Lib

/-- An outline of values that are where the calls left them. -/
def Found (inp : Input) : Bool → Nat → CallTree → Forest Item → Prop
  | _, _, .nil, .nil => True
  | inArray, i, .leaf l rest, .node item kids O => kids = .nil ∧ l.exact = true ∧ item.accepted = true ∧
      item.code = (l.part inArray).code ∧ inp.bytes item.index item.size = (l.encoding inArray).2 ∧
      (item.start, item.stop) = (i, i + ((l.part inArray).bytes inArray).length) ∧
      Found inp inArray item.stop rest O
  | inArray, i, .container k elements rest, .node item kids O => item.accepted = true ∧
      item.code = (k.part inArray (elements.parts k.isArray)).code ∧
      (item.start, item.stop) =
        (i, i + ((k.part inArray (elements.parts k.isArray)).bytes inArray).length) ∧
      Found inp k.isArray (item.stop - (elements.bytes k.isArray).length) elements kids ∧
      Found inp inArray item.stop rest O
  | _, _, _, _ => False

section
variable {inp : Input} {inArray behind : Bool} {i start fuel : Nat}

/-! ## Calls without elements -/

/-- The kinds of types without elements that calls make. -/
def EncodingMetaData.OfLeaf (m : EncodingMetaData) : Prop :=
  (m.kind = .zero ∨ m.kind = .fixed ∨ m.kind = .variableWidth) ∧ m.typeDecoder ≠ .char

instance (m : EncodingMetaData) : Decidable m.OfLeaf := inferInstanceAs (Decidable ((_ ∨ _ ∨ _) ∧ _))

theorem Leaf.encoding_leaf (inArray : Bool) (l : Leaf) : (l.encoding inArray).1.OfLeaf := by
  cases l with
  | scalar v =>
    cases v <;> simp only [Leaf.encoding, Scalar.encoding] <;> (repeat' split) <;> try dsimp only
    all_goals decide
  | uint0 | ulong0 | smallUint | smallInt | smallUlong | smallLong | binaryVbin8 | binaryVbin32
  | symbolSym8 | symbolSym32 =>
    simp only [Leaf.encoding]
    decide

/-- Only a boolean has another encoding in an array. -/
theorem Leaf.encoding_eq (inArray : Bool) (l : Leaf) : l.encoding inArray = l.encoding false ∨
    (l.encoding inArray).1.kind ≠ .variableWidth ∧ (l.encoding false).1.kind ≠ .variableWidth := by
  cases l with
  | scalar v =>
    cases v with
    | boolean v =>
      refine .inr ⟨?_, ?_⟩ <;> simp only [Leaf.encoding, Scalar.encoding] <;> (repeat' split) <;> decide
    | null | ubyte | byte | ushort | short | uint | int | ulong | long | timestamp | float | double
    | uuid | binary | string | symbol => exact .inl rfl
  | uint0 | ulong0 | smallUint | smallInt | smallUlong | smallLong | binaryVbin8 | binaryVbin32
  | symbolSym8 | symbolSym32 => exact .inl rfl

theorem fixed_shape : ∀ m ∈ typeLookupTable.toList, m.typeDecoder ≠ .char →
    (m.kind = .zero → m.width = 0) ∧ (m.kind = .fixed → m.width ≠ 0) := by
  decide

theorem TypeDecoder.wellSpelled_fixed {d : TypeDecoder} (hk : d.kind = .fixed) (hc : d ≠ .char)
    (bytes : List UInt8) : d.wellSpelled bytes = true := by
  revert hk hc
  cases d <;> simp [TypeDecoder.kind, TypeDecoder.wellSpelled]

/-- A value of fixed width is always found. -/
theorem Leaf.walk_fixed {l : Leaf} (hk : (l.encoding inArray).1.kind ≠ .variableWidth)
    (hat : inp.At i (l.part inArray).body) (start fuel : Nat) :
    ∃ item, walkInto inp (fuel + 1) (l.encoding inArray).1 start i = (item, .nil) ∧
      item.accepted = true ∧ item.code = (l.part inArray).code ∧ item.start = start ∧
      item.stop = i + (l.part inArray).body.length ∧
      inp.bytes item.index item.size = (l.encoding inArray).2 := by
  obtain ⟨hkind, hc⟩ := l.encoding_leaf inArray
  obtain ⟨hzero, hfixed⟩ := fixed_shape _ (l.encoding_mem inArray) hc
  have hlen := l.sized inArray hk
  rw [Leaf.part, leafBody, if_neg hk] at hat ⊢
  rcases hkind with h | h | h
  · have hnil : (l.encoding inArray).2 = [] := by
      rw [hzero h] at hlen
      exact List.length_eq_zero_iff.1 hlen
    refine ⟨⟨_, start, i, true, i, 0⟩, by simp only [walkInto, h], rfl, rfl, rfl, ?_, hnil.symm⟩
    rw [hnil]
    rfl
  · have hne : (l.encoding inArray).2 ≠ [] := by
      intro hnil
      rw [hnil] at hlen
      exact hfixed h hlen.symm
    have ha := hat.available hne
    have hb := hat.2
    dsimp only at ha hb
    rw [hlen] at ha hb
    refine ⟨_, by simp only [walkInto, h, if_pos ha]; rfl, ?_, rfl, rfl, ?_, hb⟩
    · exact TypeDecoder.wellSpelled_fixed h hc _
    · show i + _ = _
      rw [hlen]
  · exact absurd h hk

theorem Leaf.exact_variable {l : Leaf} (hk : (l.encoding false).1.kind = .variableWidth) :
    l.exact = true := by
  cases l with
  | smallUint | smallInt | smallUlong | smallLong => cases hk
  | scalar | uint0 | ulong0 | binaryVbin8 | binaryVbin32 | symbolSym8 | symbolSym32 => rfl

/-- A field is read without what does not fit it. -/
theorem Input.At.field_mod {w n : Nat} (hat : inp.At i (toBigEndian w n))
    (hne : n % 256 ^ w ≠ Buffer.sizeError) : inp.field w i = (some (n % 256 ^ w), i + w) := by
  rw [← toBigEndian_mod] at hat
  exact hat.field (Nat.mod_lt _ (Nat.pow_pos (by decide))) hne

theorem mod_width_lt {w n : Nat} (hw : w = 1 ∨ w = 4) (hn : n < Buffer.sizeError) :
    n % 256 ^ w ≠ Buffer.sizeError := by
  rcases hw with rfl | rfl <;> simp only [Buffer.sizeError] at hn ⊢ <;> omega

/-- A value of variable width: what its size field says is taken for its bytes. -/
theorem Leaf.walk_variable {l : Leaf} (hk : (l.encoding inArray).1.kind = .variableWidth)
    (hat : inp.At i (l.part inArray).body) (hsize : inp.size < Buffer.sizeError)
    (hbehind : behind = true ↔ i + (l.part inArray).body.length < inp.size) (start fuel : Nat) :
    ∃ item, walkInto inp (fuel + 1) (l.encoding inArray).1 start i = (item, .nil) ∧
      item.code = (l.part inArray).code ∧ item.start = start ∧
      (l.inPlace behind = true ↔
        item.accepted = true ∧ inp.bytes item.index item.size = (l.encoding inArray).2) ∧
      (l.inPlace behind = true → item.stop = i + (l.part inArray).body.length) := by
  have henc : l.encoding inArray = l.encoding false :=
    (l.encoding_eq inArray).resolve_right fun h => h.1 hk
  have hwidth := field_width (l.encoding_mem inArray) (.inl hk)
  unfold Leaf.part at hat hbehind ⊢
  rw [leafBody, if_pos hk] at hat hbehind ⊢
  rw [henc] at hk hwidth hat hbehind ⊢
  rw [List.length_append, length_toBigEndian] at hbehind ⊢
  obtain ⟨hfield, hbytes⟩ := hat.append
  rw [length_toBigEndian] at hbytes
  have hle := hbytes.1
  have hr := hfield.field_mod (mod_width_lt hwidth (by omega))
  have hin : l.inPlace behind = true ↔ (l.encoding false).2.length < 256 ^ (l.encoding false).1.width ∧
      (l.encoding false).1.typeDecoder.wellSpelled (l.encoding false).2 = true ∧
      (behind = true ∨ (l.encoding false).2 ≠ []) := by
    simp [Leaf.inPlace, Leaf.sizeFits, Leaf.exact_variable hk, hk, and_assoc]
  simp only [walkInto, hk, hr]
  by_cases ha : inp.Available (i + (l.encoding false).1.width)
      ((l.encoding false).2.length % 256 ^ (l.encoding false).1.width)
  · rw [if_pos ha]
    refine ⟨_, rfl, rfl, rfl, ?_, fun h => ?_⟩
    · rw [hin]
      constructor
      · rintro ⟨hlt, hspelled, -⟩
        rw [Nat.mod_eq_of_lt hlt, hbytes.2]
        exact ⟨hspelled, rfl⟩
      · rintro ⟨hspelled, hread⟩
        dsimp only at hspelled hread
        rw [hread] at hspelled
        have hlen : (l.encoding false).2.length % 256 ^ (l.encoding false).1.width =
            (l.encoding false).2.length := by
          rw [← congrArg List.length hread]
          simp [Input.bytes]
        refine ⟨?_, hspelled, ?_⟩
        · rw [← hlen]
          exact Nat.mod_lt _ (Nat.pow_pos (by decide))
        · by_cases hnil : (l.encoding false).2 = []
          · have := ha.1
            refine .inl (hbehind.2 ?_)
            rw [hnil, List.length_nil]
            omega
          · exact .inr hnil
    · dsimp only
      rw [Nat.mod_eq_of_lt (hin.1 h).1, Nat.add_assoc]
  · rw [if_neg ha]
    have hno : ¬ l.inPlace behind = true := by
      rw [hin]
      rintro ⟨hlt, -, hsome⟩
      rw [Nat.mod_eq_of_lt hlt] at ha
      refine ha ⟨?_, hle⟩
      rcases hsome with hb | hne
      · have := hbehind.1 hb
        by_cases hnil : (l.encoding false).2 = []
        · rw [hnil, List.length_nil] at this
          omega
        · have := List.length_pos_iff.2 hnil
          omega
      · have := List.length_pos_iff.2 hne
        omega
    refine ⟨_, rfl, rfl, rfl, ?_, fun h => absurd h hno⟩
    exact ⟨fun h => absurd h hno, fun h => by cases h.1⟩

/-- A value without elements from behind its constructor. -/
theorem Leaf.walk {l : Leaf} {m : EncodingMetaData} (hm : m ∈ typeLookupTable.toList)
    (hmc : m.formatCode = (l.part inArray).code) (hat : inp.At i (l.part inArray).body)
    (hsize : inp.size < Buffer.sizeError)
    (hbehind : behind = true ↔ i + (l.part inArray).body.length < inp.size) (start fuel : Nat) :
    ∃ item, walkInto inp (fuel + 1) m start i = (item, .nil) ∧ item.code = (l.part inArray).code ∧
      item.start = start ∧
      (l.inPlace behind = true ↔ l.exact = true ∧ item.accepted = true ∧
        inp.bytes item.index item.size = (l.encoding inArray).2) ∧
      (l.inPlace behind = true → item.stop = i + (l.part inArray).body.length) ∧
      ((l.encoding inArray).1.kind ≠ .variableWidth →
        inp.bytes item.index item.size = (l.encoding inArray).2) := by
  obtain rfl := table_code_inj hm (l.encoding_mem inArray) hmc
  by_cases hk : (l.encoding inArray).1.kind = .variableWidth
  · obtain ⟨item, hwalk, hcode, hstart, hiff, hstop⟩ := l.walk_variable hk hat hsize hbehind start fuel
    have henc := (l.encoding_eq inArray).resolve_right fun h => h.1 hk
    have hexact : l.exact = true := Leaf.exact_variable (henc ▸ hk)
    exact ⟨item, hwalk, hcode, hstart, hiff.trans (and_iff_right hexact).symm, hstop,
      fun h => absurd hk h⟩
  · obtain ⟨item, hwalk, hacc, hcode, hstart, hstop, hbytes⟩ := l.walk_fixed hk hat start fuel
    have hk' : (l.encoding false).1.kind ≠ .variableWidth := by
      rcases l.encoding_eq inArray with h | h
      · rwa [← h]
      · exact h.2
    have hin : l.inPlace behind = l.exact := by
      simp [Leaf.inPlace, hk']
    rw [hin]
    exact ⟨item, hwalk, hcode, hstart, ⟨fun h => ⟨h, hacc, hbytes⟩, fun h => h.1⟩, fun _ => hstop,
      fun _ => hbytes⟩

/-! ## Containers -/

/-- The next type: with its constructor, or an element of an array. -/
def walkNext (inp : Input) (fuel : Nat) : Option EncodingMetaData → Nat → Option Outline
  | none => walkDecode (walkInto inp fuel) inp
  | some m => fun i => some (walkInto inp fuel m i i)

/-- What the decoder takes for the constructor of each value: their own, or that of the first. -/
def Constructs (inArray : Bool) (cs : CallTree) : Option EncodingMetaData → Prop
  | none => inArray = false
  | some m => inArray = true ∧ m ∈ typeLookupTable.toList ∧ ∀ p ∈ cs.parts true, p.code = m.formatCode

/-- As many elements as were written are walked from where they are. -/
def Former.Walked (inp : Input) (fuel i : Nat) (k : Former) (elements : CallTree) (item : Item)
    (kids : Forest Item) : Prop :=
  ∃ e j, Constructs k.isArray elements e ∧ inp.At j (elements.bytes k.isArray) ∧
    inp.size - j < fuel + (if k.isArray then 0 else 1) ∧
    (j + (elements.bytes k.isArray).length = i) ∧
    kids = (walkMany (walkNext inp fuel e) elements.length j).1 ∧
    item.stop = (walkMany (walkNext inp fuel e) elements.length j).2

theorem CallTree.bytes_false (cs : CallTree) : cs.bytes false = spelled (cs.parts false) := rfl

theorem CallTree.bytes_true (cs : CallTree) : cs.bytes true = (cs.parts true).flatMap Part.body := rfl

theorem CallTree.parts_code (inArray : Bool) (cs : CallTree) : ∀ p ∈ cs.parts inArray,
    ∃ m ∈ typeLookupTable.toList, m.formatCode = p.code := by
  induction cs with
  | nil => exact fun p hp => nomatch hp
  | leaf l rest ih =>
    intro p hp
    rcases List.mem_cons.1 hp with rfl | hp
    · exact ⟨_, l.encoding_mem inArray, rfl⟩
    · exact ih p hp
  | container k elements rest _ ih =>
    intro p hp
    rcases List.mem_cons.1 hp with rfl | hp
    · rcases k.part_code inArray (elements.parts k.isArray) with h | ⟨-, -, h⟩
      · exact ⟨_, k.metaData_mem, h.symm⟩
      · exact ⟨.list0, by decide, h.symm⟩
    · exact ih p hp

/-- The fields of a container: its size only has to be there. -/
theorem walkContainer_any {m : EncodingMetaData} {size count : Nat} {content : List UInt8}
    (hw : m.width = 1 ∨ m.width = 4)
    (hat : inp.At i (toBigEndian m.width size ++ toBigEndian m.width count ++ content))
    (hs : size = content.length + m.width) (hsize : inp.size < Buffer.sizeError) :
    inp.At (i + m.width + m.width) content ∧
    (count % 256 ^ m.width ≠ Buffer.sizeError → ∀ elements, walkContainer inp m start i elements =
      elements (i + m.width) (size % 256 ^ m.width) (count % 256 ^ m.width) (i + m.width + m.width)) ∧
    (count % 256 ^ m.width = Buffer.sizeError → ∀ elements,
      (walkContainer inp m start i elements).1.accepted = false ∧
      (walkContainer inp m start i elements).1.code = m.formatCode ∧
      (walkContainer inp m start i elements).1.start = start) := by
  rw [List.append_assoc] at hat
  obtain ⟨hf1, hrest⟩ := hat.append
  rw [length_toBigEndian] at hrest
  obtain ⟨hf2, hcontent⟩ := hrest.append
  rw [length_toBigEndian] at hcontent
  have hle := hcontent.1
  have hmod : size % 256 ^ m.width ≤ size := Nat.mod_le _ _
  have ha : inp.Available (i + m.width) (size % 256 ^ m.width) := ⟨by omega, by omega⟩
  have hr1 := hf1.field_mod (mod_width_lt hw (by omega))
  refine ⟨hcontent, fun hne elements => ?_, fun heq elements => ?_⟩
  · rw [walkContainer, hr1]
    simp only [if_pos ha, hf2.field_mod hne]
  · have hr2 : inp.field m.width (i + m.width) = (none, i + m.width + m.width) := by
      have hb := hf2.2
      rw [length_toBigEndian] at hb
      rw [Input.field, Buffer.readField, if_pos (by omega)]
      have hval : ofBigEndian ((List.range m.width).map fun j => inp.byte (i + m.width + j)) =
          Buffer.sizeError := by
        show ofBigEndian (inp.bytes (i + m.width) m.width) = _
        rw [hb, ← toBigEndian_mod, ofBigEndian_toBigEndian _ _ (Nat.mod_lt _ (Nat.pow_pos (by decide)))]
        exact heq
      simp only [hval, if_true]
    rw [walkContainer, hr1]
    simp only [if_pos ha, hr2, and_self]

theorem Former.counts_of_mod {k : Former} {n : Nat} (hk : k ≠ .described)
    (hmod : n % 256 ^ k.metaData.width ≠ Buffer.sizeError) (hlen : n % 256 ^ k.metaData.width = n)
    (harr : k.isArray = true → n = 0 → behind = false) : k.Counts behind n := by
  rw [Former.Counts, if_neg hk]
  refine ⟨harr, ?_, by rwa [hlen] at hmod⟩
  rw [← hlen]
  exact Nat.mod_lt _ (Nat.pow_pos (by decide))

/-- A container that ends before the index `i` is taken for what it is if as many elements are taken as
were written and, for an empty array, no byte behind it. -/
structure Former.Takes (inp : Input) (fuel start i : Nat) (behind : Bool) (code : UInt8) (k : Former)
    (elements : CallTree) (o : Outline) : Prop where
  code : o.1.code = code
  start : o.1.start = start
  counts : k.Counts behind elements.length ∨ (o.1.accepted = true ∧ o.2.length = elements.length ∧
      (k.isArray = true → elements.length = 0 → o.1.stop = i)) →
    k.Counts behind elements.length ∧ (o.1.accepted = true ↔ (k = .described → AllAccepted o.2)) ∧
      k.Walked inp fuel i elements o.1 o.2

/-- An empty list outside an array. -/
theorem Former.walk_empty {k : Former} (hlist : k.isList = true) (hat : inp.At i [])
    (hfuel : inp.size - i < fuel + 1) (start : Nat) :
    k.Takes inp fuel start i behind EncodingMetaData.list0.formatCode .nil
      (walkInto inp (fuel + 1) .list0 start i) := by
  have hk : k.isArray = false ∧ k ≠ .described ∧ k.Counts behind 0 := by
    revert hlist
    cases k <;> cases behind <;> decide
  refine ⟨rfl, rfl, fun _ => ⟨hk.2.2, ?_, none, i, hk.1, hat, ?_, rfl, rfl, rfl⟩⟩
  · exact ⟨fun _ h => absurd h hk.2.1, fun _ => rfl⟩
  · rw [hk.1]
    exact hfuel

theorem Former.walk_described {elements : CallTree} (hat : inp.At i (elements.bytes false))
    (hfuel : inp.size - i < fuel + 1) (start : Nat) :
    Former.described.Takes inp fuel start (i + (elements.bytes false).length) behind
      EncodingMetaData.described.formatCode elements (walkInto inp (fuel + 1) .described start i) := by
  have hinto : walkInto inp (fuel + 1) .described start i =
    walkDescribed (walkDecode (walkInto inp fuel) inp) .described start i := rfl
  obtain ⟨hkids, hstop, hcode, hacc⟩ := walkDescribed_eq (walkDecode (walkInto inp fuel) inp)
    EncodingMetaData.described start i
  rw [hinto]
  refine ⟨hcode, rfl, fun h => ?_⟩
  have hlen : elements.length = 2 := by
    rcases h with h | ⟨-, h, -⟩
    · exact h
    · rw [← h, hkids, walkMany_length]
  refine ⟨hlen, ?_, none, i, rfl, hat, hfuel, rfl, ?_, ?_⟩
  · rw [hacc, hkids]
    exact ⟨fun h _ => h, fun h => h rfl⟩
  · rw [hlen]
    exact hkids
  · rw [hlen]
    exact hstop

theorem Former.field_width {k : Former} (h : k.metaData.kind = .compound ∨ k.metaData.kind = .array) :
    k.metaData.width = 1 ∨ k.metaData.width = 4 := by
  revert h
  cases k <;> decide

theorem Former.walk_compound {k : Former} {elements : CallTree} (hk : k.metaData.kind = .compound)
    (hat : inp.At i (toBigEndian k.metaData.width ((elements.bytes false).length + k.metaData.width) ++
      toBigEndian k.metaData.width elements.length ++ elements.bytes false))
    (hsize : inp.size < Buffer.sizeError) (hfuel : inp.size - i < fuel + 1) (start : Nat) :
    k.Takes inp fuel start (i + k.metaData.width + k.metaData.width + (elements.bytes false).length)
      behind k.metaData.formatCode elements (walkInto inp (fuel + 1) k.metaData start i) := by
  have hna : k.isArray = false ∧ k ≠ .described := by
    revert hk
    cases k <;> decide
  have hwidth := k.field_width (.inl hk)
  obtain ⟨hcontent, hok, herr⟩ := @walkContainer_any _ _ start _ _ _ _ hwidth hat rfl hsize
  rw [walkInto_compound hk]
  by_cases hmod : elements.length % 256 ^ k.metaData.width = Buffer.sizeError
  · obtain ⟨hacc, hcode, hstart⟩ := herr hmod _
    refine ⟨hcode, hstart, fun h => ?_⟩
    rcases h with h | ⟨h, -⟩
    · rw [Former.Counts, if_neg hna.2] at h
      rw [Nat.mod_eq_of_lt h.2.1] at hmod
      exact absurd hmod h.2.2
    · rw [hacc] at h
      cases h
  · rw [hok hmod]
    refine ⟨rfl, rfl, fun h => ?_⟩
    have hlen : elements.length % 256 ^ k.metaData.width = elements.length := by
      rcases h with h | ⟨-, h, -⟩
      · rw [Former.Counts, if_neg hna.2] at h
        exact Nat.mod_eq_of_lt h.2.1
      · exact (walkMany_length _ _ _).symm.trans h
    have hna' : k.isArray = true → elements.length = 0 → behind = false := by
      rw [hna.1]
      exact fun h => nomatch h
    refine ⟨Former.counts_of_mod hna.2 hmod hlen hna', ⟨fun _ h => absurd h hna.2, fun _ => rfl⟩, none,
      i + k.metaData.width + k.metaData.width, hna.1, ?_, ?_, ?_, ?_, ?_⟩
    · rw [hna.1]
      exact hcontent
    · rw [hna.1, if_neg (by decide)]
      omega
    · rw [hna.1]
    · dsimp only
      rw [hlen]
      rfl
    · dsimp only
      rw [hlen]
      rfl

theorem Former.walk_array {k : Former} {elements : CallTree} (ha : k.isArray = true)
    (hone : ∃ code, ∀ p ∈ elements.parts true, p.code = code)
    (hat : inp.At i (toBigEndian k.metaData.width
        ((spelledArray (elements.parts true)).length + k.metaData.width) ++
      toBigEndian k.metaData.width elements.length ++ spelledArray (elements.parts true)))
    (hsize : inp.size < Buffer.sizeError) (hfuel : inp.size - i < fuel + 1)
    (hbehind : behind = true ↔ i + k.metaData.width + k.metaData.width +
      (spelledArray (elements.parts true)).length < inp.size) (start : Nat) :
    k.Takes inp fuel start
      (i + k.metaData.width + k.metaData.width + (spelledArray (elements.parts true)).length) behind
      k.metaData.formatCode elements (walkInto inp (fuel + 1) k.metaData start i) := by
  have hk : k.metaData.kind = .array ∧ k ≠ .described := by
    revert ha
    cases k <;> decide
  have hwidth := k.field_width (.inr hk.1)
  obtain ⟨hcontent, hok, herr⟩ := @walkContainer_any _ _ start _ _ _ _ hwidth hat rfl hsize
  rw [walkInto, hk.1]
  dsimp only
  by_cases hmod : elements.length % 256 ^ k.metaData.width = Buffer.sizeError
  · obtain ⟨hacc, hcode, hstart⟩ := herr hmod _
    refine ⟨hcode, hstart, fun h => ?_⟩
    rcases h with h | ⟨h, -⟩
    · rw [Former.Counts, if_neg hk.2] at h
      rw [Nat.mod_eq_of_lt h.2.1] at hmod
      exact absurd hmod h.2.2
    · rw [hacc] at h
      cases h
  rw [hok hmod]
  cases hparts : elements.parts true with
  | nil =>
    -- the byte behind the array is taken for the constructor
    have hzero : elements.length = 0 := by
      rw [← elements.length_parts true, hparts]
      rfl
    have hlast : arrayConstructor inp (i + k.metaData.width + k.metaData.width) =
        if behind then (inp.byte (i + k.metaData.width + k.metaData.width),
          i + k.metaData.width + k.metaData.width + 1)
        else (0xff, i + k.metaData.width + k.metaData.width) := by
      rw [hparts] at hbehind
      have hiff : behind = true ↔ i + k.metaData.width + k.metaData.width < inp.size := hbehind
      simp only [arrayConstructor, hiff]
    rw [hlast]
    cases behind with
    | true =>
      have hno : ∀ {o : Outline}, (o.1.accepted = true → o.1.stop ≠ i + k.metaData.width +
          k.metaData.width + (spelledArray []).length) → ¬ (k.Counts true elements.length ∨
            (o.1.accepted = true ∧ o.2.length = elements.length ∧ (k.isArray = true →
              elements.length = 0 → o.1.stop = i + k.metaData.width + k.metaData.width +
                (spelledArray []).length))) := by
        rintro o hstop (h | ⟨hacc, -, h⟩)
        · rw [Former.Counts, if_neg hk.2] at h
          cases h.1 ha hzero
        · exact hstop hacc (h ha hzero)
      split
      · exact ⟨rfl, rfl, fun h => absurd h (hno fun h => by cases h)⟩
      · refine ⟨rfl, rfl, fun h => absurd h (hno fun _ => ?_)⟩
        dsimp only
        rw [hzero, Nat.zero_mod]
        exact Nat.succ_ne_self _
    | false =>
      -- `0xff` is the format code of an extension type
      rw [if_neg (by decide), show amqpTypeMetaDataLookup 0xff = some .extensionArray4 by decide]
      refine ⟨rfl, rfl, fun _ => ⟨Former.counts_of_mod hk.2 hmod ?_ fun _ _ => rfl,
        ⟨fun _ h => absurd h hk.2, fun _ => rfl⟩, some .extensionArray4,
        i + k.metaData.width + k.metaData.width, ⟨ha, by decide, ?_⟩, ?_, ?_, ?_, ?_, ?_⟩⟩
      · rw [hzero, Nat.zero_mod]
      · rw [hparts]
        exact fun q hq => (List.not_mem_nil hq).elim
      · rw [ha, CallTree.bytes_true, hparts]
        rw [hparts] at hcontent
        exact hcontent
      · have hle := hcontent.1
        rw [ha, if_pos rfl]
        omega
      · rw [ha, CallTree.bytes_true, hparts]
        rfl
      · dsimp only
        rw [hzero, Nat.zero_mod]
        rfl
      · dsimp only
        rw [hzero, Nat.zero_mod]
        rfl
  | cons p ps =>
    obtain ⟨element, helement, hec⟩ := elements.parts_code true p (by rw [hparts]; exact .head _)
    obtain ⟨code, hcode⟩ := hone
    have hall : ∀ q ∈ elements.parts true, q.code = element.formatCode := by
      intro q hq
      rw [hec, hcode q hq, hcode p (by rw [hparts]; exact .head _)]
    rw [hparts] at hcontent
    obtain ⟨hlt, hbyte, hbodies⟩ := @Input.At.cons _ _ ((p :: ps).flatMap Part.body) p.code hcontent
    have hcon : arrayConstructor inp (i + k.metaData.width + k.metaData.width) =
        (element.formatCode, i + k.metaData.width + k.metaData.width + 1) := by
      rw [arrayConstructor, if_pos hlt, hbyte, hec]
    have hne : elements.length ≠ 0 := by
      rw [← elements.length_parts true, hparts]
      exact Nat.succ_ne_zero _
    simp only [hcon, lookup_self element helement]
    refine ⟨rfl, rfl, fun h => ?_⟩
    have hlen : elements.length % 256 ^ k.metaData.width = elements.length := by
      rcases h with h | ⟨-, h, -⟩
      · rw [Former.Counts, if_neg hk.2] at h
        exact Nat.mod_eq_of_lt h.2.1
      · exact (walkMany_length _ _ _).symm.trans h
    refine ⟨Former.counts_of_mod hk.2 hmod hlen fun _ h => absurd h hne,
      ⟨fun _ h => absurd h hk.2, fun _ => rfl⟩, some element,
      i + k.metaData.width + k.metaData.width + 1, ⟨ha, helement, hall⟩, ?_, ?_, ?_, ?_, ?_⟩
    · rw [ha, CallTree.bytes_true, hparts]
      exact hbodies
    · rw [ha, if_pos rfl]
      omega
    · rw [ha, CallTree.bytes_true, hparts, spelledArray]
      simp
      omega
    · dsimp only
      rw [hlen]
      rfl
    · dsimp only
      rw [hlen]
      rfl

/-- A container from behind its constructor. -/
theorem Former.walk {k : Former} {elements : CallTree} {m : EncodingMetaData}
    (hm : m ∈ typeLookupTable.toList)
    (hmc : m.formatCode = (k.part inArray (elements.parts k.isArray)).code)
    (hone : k.isArray = true → ∃ code, ∀ p ∈ elements.parts true, p.code = code)
    (hat : inp.At i (k.part inArray (elements.parts k.isArray)).body)
    (hsize : inp.size < Buffer.sizeError) (hfuel : inp.size - i < fuel + 1)
    (hbehind : behind = true ↔
      i + (k.part inArray (elements.parts k.isArray)).body.length < inp.size) (start : Nat) :
    k.Takes inp fuel start (i + (k.part inArray (elements.parts k.isArray)).body.length) behind
      m.formatCode elements (walkInto inp (fuel + 1) m start i) := by
  by_cases hempty : inArray = false ∧ k.isList = true ∧ elements.parts k.isArray = []
  · obtain ⟨rfl, hlist, hnil⟩ := hempty
    have helems : elements = .nil := by
      cases elements <;> first | rfl | cases hnil
    subst helems
    have hpart : k.part false (CallTree.nil.parts k.isArray) = ⟨EncodingMetaData.list0.formatCode, []⟩ := by
      rw [Former.part, if_pos (by simp [hlist, CallTree.parts])]
    rw [hpart] at hmc hat ⊢
    obtain rfl := table_code_inj hm (by decide) hmc
    exact Former.walk_empty hlist hat hfuel start
  rw [Former.part_eq hempty] at hmc hat hbehind ⊢
  obtain rfl := table_code_inj hm k.metaData_mem hmc
  dsimp only at hat hbehind ⊢
  by_cases hdesc : k = .described
  · subst hdesc
    exact Former.walk_described hat hfuel start
  have hw : k.metaData.width ≠ 0 := by
    revert hdesc
    cases k <;> decide
  rw [if_neg hw] at hat hbehind ⊢
  have hlen := elements.length_parts k.isArray
  rw [hlen] at hat
  simp only [List.length_append, length_toBigEndian, ← Nat.add_assoc] at hbehind ⊢
  by_cases ha : k.isArray = true
  · have hcontent : k.content (elements.parts k.isArray) = spelledArray (elements.parts true) := by
      rw [Former.content, if_pos ha, ha]
    rw [hcontent] at hat hbehind ⊢
    exact Former.walk_array ha (hone ha) hat hsize hfuel hbehind start
  · have hcontent : k.content (elements.parts k.isArray) = elements.bytes false := by
      rw [Former.content, if_neg ha, CallTree.bytes_false, Bool.eq_false_iff.2 ha]
    rw [hcontent] at hat ⊢
    refine Former.walk_compound ?_ hat hsize hfuel start
    revert ha hdesc
    cases k <;> decide

/-! ## Values one after the other -/

theorem Found.allAccepted {cs : CallTree} : ∀ {inArray : Bool} {i : Nat} {O : Forest Item},
    Found inp inArray i cs O → AllAccepted O := by
  induction cs with
  | nil =>
    intro _ _ O h
    cases O with
    | nil => trivial
    | hole | node => exact h.elim
  | leaf l rest ih =>
    intro _ _ O h
    cases O with
    | nil | hole => exact h.elim
    | node item kids O => exact ⟨h.2.2.1, ih h.2.2.2.2.2.2⟩
  | container k elements rest _ ih =>
    intro _ _ O h
    cases O with
    | nil | hole => exact h.elim
    | node item kids O => exact ⟨h.1, ih h.2.2.2.2⟩

/-- Where a value stands, behind its constructor if it has one. -/
def lead (inArray : Bool) : Nat := if inArray then 0 else 1

theorem Part.length_bytes (p : Part) : (p.bytes inArray).length = lead inArray + p.body.length := by
  cases inArray <;> simp [Part.bytes, lead, Nat.add_comm]

/-- The first of some values is walked from behind its constructor. -/
theorem walkNext_first {cs rest : CallTree} {e : Option EncodingMetaData} {p : Part}
    (he : Constructs inArray cs e) (hcs : cs.parts inArray = p :: rest.parts inArray)
    (hat : inp.At i (cs.bytes inArray)) (hfuel : inp.size - i < fuel + lead inArray) :
    Constructs inArray rest e ∧ inp.At (i + lead inArray) p.body ∧
      inp.At (i + (p.bytes inArray).length) (rest.bytes inArray) ∧
      ∃ m f, m ∈ typeLookupTable.toList ∧ m.formatCode = p.code ∧ fuel = f + 1 ∧
        inp.size - (i + lead inArray) < f + 1 ∧
        walkNext inp fuel e i = some (walkInto inp (f + 1) m i (i + lead inArray)) := by
  rw [CallTree.bytes, hcs] at hat
  obtain ⟨hfirst, hrest⟩ := hat.append
  obtain ⟨m', hm', hmc'⟩ := cs.parts_code inArray p (by rw [hcs]; exact .head _)
  cases e with
  | none =>
    obtain rfl : inArray = false := he
    obtain ⟨hlt, hbyte, hbody⟩ := @Input.At.cons _ _ p.body p.code hfirst
    obtain ⟨f, rfl⟩ := Nat.exists_eq_succ_of_ne_zero (show fuel ≠ 0 by
      simp only [lead, Bool.false_eq_true, if_false] at hfuel
      omega)
    refine ⟨rfl, hbody, hrest, m', f, hm', hmc', rfl, ?_, ?_⟩
    · simp only [lead, Bool.false_eq_true, if_false] at hfuel ⊢
      omega
    · rw [walkNext, walkDecode, if_pos hlt, hbyte, ← hmc', lookup_self m' hm']
      rfl
  | some m =>
    obtain ⟨rfl, hm, hcodes⟩ := he
    obtain ⟨f, rfl⟩ := Nat.exists_eq_succ_of_ne_zero (show fuel ≠ 0 by
      simp only [lead, if_true] at hfuel
      omega)
    refine ⟨⟨rfl, hm, fun q hq => hcodes q (by rw [hcs]; exact .tail _ hq)⟩, hfirst, hrest, m, f, hm,
      (hcodes p (by rw [hcs]; exact .head _)).symm, rfl, hfuel, rfl⟩

theorem CallTree.bytes_cons {cs rest : CallTree} {p : Part}
    (hcs : cs.parts inArray = p :: rest.parts inArray) :
    cs.bytes inArray = p.bytes inArray ++ rest.bytes inArray := by
  rw [CallTree.bytes, hcs]
  rfl

/-- Whether there are bytes behind the first of some values. -/
theorem behind_first {p : Part} {xs : List UInt8}
    (hbehind : behind = true ↔ i + (p.bytes inArray ++ xs).length < inp.size) (hat : inp.At i (p.bytes inArray ++ xs)) :
    (behind || !xs.isEmpty) = true ↔ i + lead inArray + p.body.length < inp.size := by
  have hle := hat.1
  rw [List.length_append, p.length_bytes] at hbehind hle
  cases xs with
  | nil =>
    simp only [List.length_nil] at hbehind
    simp only [List.isEmpty_nil, Bool.not_true, Bool.or_false, hbehind]
    omega
  | cons x xs =>
    simp only [List.length_cons] at hle
    simp only [List.isEmpty_cons, Bool.not_false, Bool.or_true, true_iff]
    omega

/-- Values that are in place are found where they are. -/
theorem CallTree.walks (cs : CallTree) : ∀ {inArray behind : Bool} {fuel i : Nat}
    {e : Option EncodingMetaData}, Constructs inArray cs e → inp.At i (cs.bytes inArray) →
    (behind = true ↔ i + (cs.bytes inArray).length < inp.size) → inp.size < Buffer.sizeError →
    inp.size - i < fuel + lead inArray → cs.OneCode → cs.InPlace inArray behind →
    Found inp inArray i cs (walkMany (walkNext inp fuel e) cs.length i).1 ∧
      (walkMany (walkNext inp fuel e) cs.length i).2 = i + (cs.bytes inArray).length := by
  induction cs with
  | nil => exact fun _ _ _ _ _ _ _ => ⟨trivial, rfl⟩
  | leaf l rest ih =>
    intro inArray behind fuel i e he hat hbehind hsize hfuel hone hin
    have hcs : (CallTree.leaf l rest).parts inArray = l.part inArray :: rest.parts inArray := rfl
    obtain ⟨he', hbody, hrest, m, f, hm, hmc, rfl, hf, hnext⟩ := walkNext_first he hcs hat hfuel
    rw [CallTree.bytes_cons hcs] at hat hbehind ⊢
    obtain ⟨hfirst, hafter⟩ := hin
    obtain ⟨item, hwalk, hcode, hstart, hiff, hstop, -⟩ := l.walk hm hmc hbody hsize
      (behind_first hbehind hat) i f
    have hend := hstop hfirst
    obtain ⟨hexact, hacc, hbytes⟩ := hiff.1 hfirst
    rw [Nat.add_assoc, ← Part.length_bytes] at hend
    have hfuel' : inp.size - item.stop < f + 1 + lead inArray := by omega
    obtain ⟨hfound, hlast⟩ := ih he' (hend ▸ hrest) (by
      rw [hend, hbehind, List.length_append, Nat.add_assoc]) hsize hfuel' hone hafter
    simp only [CallTree.length, walkMany, hnext, hwalk, stopOf, Option.elim_some]
    refine ⟨⟨rfl, hexact, hacc, hcode, hbytes, by rw [hstart, hend], hfound⟩, ?_⟩
    rw [hlast, hend, List.length_append, Nat.add_assoc]
  | container k elements rest ihe ihr =>
    intro inArray behind fuel i e he hat hbehind hsize hfuel hone hin
    have hcs : (CallTree.container k elements rest).parts inArray =
        k.part inArray (elements.parts k.isArray) :: rest.parts inArray := rfl
    obtain ⟨he', hbody, hrest, m, f, hm, hmc, rfl, hf, hnext⟩ := walkNext_first he hcs hat hfuel
    rw [CallTree.bytes_cons hcs] at hat hbehind ⊢
    obtain ⟨hcounts, helems, hafter⟩ := hin
    obtain ⟨hcode, hone', hone''⟩ := hone
    have htakes := Former.walk hm hmc hcode hbody hsize hf (behind_first hbehind hat) i
    generalize walkInto inp (f + 1) m i (i + lead inArray) = o at hnext htakes
    obtain ⟨item, kids⟩ := o
    obtain ⟨-, hacc, e', j, hce, hatj, hfj, hj, hkids, hstop⟩ := htakes.counts (.inl hcounts)
    dsimp only at hkids hstop hacc
    obtain ⟨hfoundk, hlastk⟩ := ihe hce hatj (by
      rw [hj]
      exact behind_first hbehind hat) hsize (by cases hk : k.isArray <;> simpa [lead, hk] using hfj)
      hone' helems
    rw [← hkids] at hfoundk
    rw [← hstop, hj, Nat.add_assoc, ← Part.length_bytes] at hlastk
    have hfuel' : inp.size - item.stop < f + 1 + lead inArray := by omega
    obtain ⟨hfound, hlast⟩ := ihr he' (hlastk ▸ hrest) (by
      rw [hlastk, hbehind, List.length_append, Nat.add_assoc]) hsize hfuel' hone'' hafter
    simp only [CallTree.length, walkMany, hnext, stopOf, Option.elim_some]
    refine ⟨⟨hacc.2 fun _ => hfoundk.allAccepted, htakes.code.trans hmc, ?_, ?_, hfound⟩, ?_⟩
    · rw [show item.start = i from htakes.start, hlastk]
    · rwa [hlastk, Part.length_bytes, ← Nat.add_assoc, ← hj, Nat.add_sub_cancel]
    · rw [hlast, hlastk, List.length_append, Nat.add_assoc]

end
end Amqp
