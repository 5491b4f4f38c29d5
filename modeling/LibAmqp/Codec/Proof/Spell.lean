import LibAmqp.Codec.Proof.Leaf
import LibAmqp.Codec.Proof.Tiling
import LibAmqp.Codec.Wire

/-!
# The outline of encoded values

`Spells inp inArray vs O`: the outline `O` has the values `vs`, each type accepted, with the payload
of each scalar in its position.

* `parts_walk`: bytes that spell values are walked as those values, whatever comes behind them.
* `parts_cut`: bytes that are cut off anywhere are not accepted.
-/

namespace Amqp

open Lib

namespace Input

/-- Some bytes are there at an index. -/
def At (inp : Input) (i : Nat) (bytes : List UInt8) : Prop :=
  i + bytes.length ≤ inp.size ∧ inp.bytes i bytes.length = bytes

variable {inp : Input} {i : Nat} {xs ys : List UInt8}

theorem bytes_succ (inp : Input) (i n : Nat) :
    inp.bytes i (n + 1) = inp.byte i :: inp.bytes (i + 1) n := by
  simp only [bytes, List.range_succ_eq_map, List.map_cons, List.map_map, Nat.add_zero]
  refine congrArg _ (List.map_congr_left fun k _ => ?_)
  rw [Function.comp_apply, Nat.succ_eq_add_one, Nat.add_assoc, Nat.add_comm 1]

theorem bytes_add (inp : Input) (i m n : Nat) :
    inp.bytes i (m + n) = inp.bytes i m ++ inp.bytes (i + m) n := by
  simp only [bytes, List.range_add, List.map_append, List.map_map]
  refine congrArg _ (List.map_congr_left fun k _ => ?_)
  rw [Function.comp_apply, Nat.add_assoc]

theorem At.append (h : inp.At i (xs ++ ys)) : inp.At i xs ∧ inp.At (i + xs.length) ys := by
  obtain ⟨hle, hb⟩ := h
  rw [List.length_append] at hle hb
  rw [bytes_add] at hb
  obtain ⟨h1, h2⟩ := List.append_inj hb (by simp [bytes])
  exact ⟨⟨by omega, h1⟩, by omega, h2⟩

theorem At.cons {c : UInt8} (h : inp.At i (c :: xs)) :
    i < inp.size ∧ inp.byte i = c ∧ inp.At (i + 1) xs := by
  obtain ⟨hle, hb⟩ := h
  rw [List.length_cons, bytes_succ, List.cons.injEq] at hb
  rw [List.length_cons] at hle
  exact ⟨by omega, hb.1, by omega, hb.2⟩

theorem At.field {w v : Nat} (h : inp.At i (toBigEndian w v)) (hv : v < 256 ^ w)
    (hne : v ≠ Buffer.sizeError) : inp.field w i = (some v, i + w) := by
  obtain ⟨hle, hb⟩ := h
  rw [length_toBigEndian] at hle hb
  have : ofBigEndian ((List.range w).map fun k => inp.byte (i + k)) = v := by
    show ofBigEndian (inp.bytes i w) = v
    rw [hb, ofBigEndian_toBigEndian w v hv]
  rw [Input.field, Buffer.readField, if_pos hle]
  simp only [this, if_neg hne]

theorem At.available (h : inp.At i xs) (hne : xs ≠ []) : inp.Available i xs.length := by
  have := List.length_pos_iff.2 hne
  exact ⟨by have := h.1; omega, h.1⟩

end Input

/-- An outline of values: accepted types, and every scalar's payload in its position. -/
def Spells (inp : Input) : Bool → Values → Forest Item → Prop
  | _, .nil, .nil => True
  | inArray, .scalar v rest, .node item kids O => kids = .nil ∧ item.accepted = true ∧
      item.code = (v.part inArray).code ∧ inp.bytes item.index item.size = (v.encoding inArray).2 ∧
      Spells inp inArray rest O
  | inArray, .container k elements rest, .node item kids O => item.accepted = true ∧
      item.code = (k.part inArray (elements.parts k.isArray)).code ∧
      Spells inp k.isArray elements kids ∧ Spells inp inArray rest O
  | _, _, _ => False

/-! ## Scalars -/

theorem Scalar.encoding_mem (inArray : Bool) (v : Scalar) :
    (v.encoding inArray).1 ∈ typeLookupTable.toList := by
  cases v <;> simp only [Scalar.encoding] <;> (repeat' split) <;> try dsimp only
  all_goals decide

/-- The payload of a type without elements is one its decoder accepts. -/
structure Payload (m : EncodingMetaData) (payload : List UInt8) : Prop where
  shape : (m.kind = .zero ∧ payload = []) ∨
    (m.kind = .fixed ∧ payload.length = m.width ∧ payload ≠ []) ∨
    (m.kind = .variableWidth ∧ payload ≠ [] ∧ payload.length < 256 ^ m.width)
  spelled : m.typeDecoder.wellSpelled payload = true

theorem Payload.number {m : EncodingMetaData} (n v : Nat) (hk : m.kind = .fixed) (hw : n = m.width)
    (hn : n ≠ 0) (hc : m.typeDecoder ≠ .char) : Payload m (toBigEndian n v) := by
  refine ⟨.inr (.inl ⟨hk, by rw [length_toBigEndian, hw], fun h => hn ?_⟩), ?_⟩
  · rw [← length_toBigEndian n v, h]
    rfl
  · simp only [EncodingMetaData.kind] at hk
    revert hk hc
    cases m.typeDecoder <;> simp [TypeDecoder.kind, TypeDecoder.wellSpelled]

theorem Payload.bytes {m8 m32 : EncodingMetaData} {v : List UInt8} (h : v ≠ [])
    (hsize : v.length < 256 ^ 4) (hk : m8.kind = .variableWidth ∧ m8.width = 1)
    (hk' : m32.kind = .variableWidth ∧ m32.width = 4)
    (hs : m8.typeDecoder.wellSpelled v = true ∧ m32.typeDecoder.wellSpelled v = true) :
    Payload (if v.length < 256 then m8 else m32) v := by
  split
  · rename_i hlt
    exact ⟨.inr (.inr ⟨hk.1, h, by rw [hk.2]; exact hlt⟩), hs.1⟩
  · exact ⟨.inr (.inr ⟨hk'.1, h, by rw [hk'.2]; exact hsize⟩), hs.2⟩

theorem Scalar.payload (inArray : Bool) {v : Scalar} (h : v.legal = true)
    (hsize : (v.encoding inArray).2.length < 256 ^ 4) :
    Payload (v.encoding inArray).1 (v.encoding inArray).2 := by
  cases v with
  | null =>
    simp only [Scalar.encoding]
    exact ⟨.inl ⟨rfl, rfl⟩, rfl⟩
  | boolean v =>
    simp only [Scalar.encoding]
    split
    · exact ⟨.inr (.inl ⟨rfl, rfl, List.cons_ne_nil _ _⟩), rfl⟩
    · split <;> exact ⟨.inl ⟨rfl, rfl⟩, rfl⟩
  | ubyte v | byte v | ushort v | short v | timestamp v | float v | double v =>
    simp only [Scalar.encoding]
    exact .number _ _ rfl rfl (by decide) (by decide)
  | uint v | ulong v =>
    simp only [Scalar.encoding]
    split
    · exact ⟨.inl ⟨rfl, rfl⟩, rfl⟩
    · split <;> dsimp only <;> exact .number _ _ rfl rfl (by decide) (by decide)
  | int v | long v =>
    simp only [Scalar.encoding]
    split <;> dsimp only <;> exact .number _ _ rfl rfl (by decide) (by decide)
  | uuid v =>
    simp only [Scalar.encoding]
    refine ⟨.inr (.inl ⟨rfl, by rw [Vector.length_toList]; rfl, fun h => ?_⟩), rfl⟩
    have := congrArg List.length h
    simp at this
  | binary v =>
    have hne : v ≠ [] := by simpa [Scalar.legal] using h
    exact .bytes hne hsize ⟨rfl, rfl⟩ ⟨rfl, rfl⟩ ⟨rfl, rfl⟩
  | string v =>
    simp only [Scalar.legal, Bool.and_eq_true] at h
    have hne : v ≠ [] := by simpa using h.1
    exact .bytes hne hsize ⟨rfl, rfl⟩ ⟨rfl, rfl⟩ ⟨h.2, h.2⟩
  | symbol v =>
    simp only [Scalar.legal, Bool.and_eq_true] at h
    have hne : v ≠ [] := by simpa using h.1
    exact .bytes hne hsize ⟨rfl, rfl⟩ ⟨rfl, rfl⟩ ⟨h.2, h.2⟩

variable {inp : Input} {start i : Nat} {m : EncodingMetaData} {payload : List UInt8}

theorem Payload.walk (h : Payload m payload) (start : Nat) (hsize : inp.size < Buffer.sizeError)
    (hat : inp.At i (leafBody m payload)) (fuel : Nat) :
    ∃ index, walkInto inp (fuel + 1) m start i =
        (⟨m.formatCode, start, i + (leafBody m payload).length, true, index, payload.length⟩, .nil) ∧
      inp.bytes index payload.length = payload := by
  rcases h.shape with ⟨hk, rfl⟩ | ⟨hk, hlen, hne⟩ | ⟨hk, hne, hlt⟩
  · exact ⟨i, by simp [walkInto, leafBody, hk], rfl⟩
  · rw [leafBody, hk, if_neg (by decide)] at hat ⊢
    have ha := hat.available hne
    have hb := hat.2
    rw [hlen] at ha hb ⊢
    exact ⟨i, by simp only [walkInto, hk, if_pos ha, hb, h.spelled], hb⟩
  · rw [leafBody, hk, if_pos rfl] at hat ⊢
    obtain ⟨hfield, hbytes⟩ := hat.append
    rw [length_toBigEndian] at hbytes
    have hsz := hbytes.1
    have hr := hfield.field hlt (by omega)
    refine ⟨i + m.width, ?_, hbytes.2⟩
    simp only [walkInto, hk, hr, if_pos (hbytes.available hne), hbytes.2, h.spelled,
      List.length_append, length_toBigEndian, Nat.add_assoc]

/-! ## Containers -/

/-- A value is walked from behind its constructor to its end, accepted, and `Q` holds of what was
found. -/
def WalksPart (inp : Input) (p : Part) (Q : Item → Forest Item → Prop) : Prop :=
  ∀ fuel start i, ∀ m ∈ typeLookupTable.toList, m.formatCode = p.code → inp.At i p.body →
    inp.size - i < fuel →
    (walkInto inp fuel m start i).1.accepted = true ∧
      (walkInto inp fuel m start i).1.stop = i + p.body.length ∧
      Q (walkInto inp fuel m start i).1 (walkInto inp fuel m start i).2

/-- Values are walked, outside an array and as the elements of one. -/
structure Walks (inp : Input) (vs : Values) : Prop where
  plain : ∀ fuel i, inp.At i (spelled (vs.parts false)) → inp.size - i ≤ fuel →
    Spells inp false vs (walkMany (walkDecode (walkInto inp fuel) inp) vs.length i).1 ∧
      (walkMany (walkDecode (walkInto inp fuel) inp) vs.length i).2 =
        i + (spelled (vs.parts false)).length
  inArray : ∀ fuel i, ∀ m ∈ typeLookupTable.toList, (∀ p ∈ vs.parts true, p.code = m.formatCode) →
    inp.At i ((vs.parts true).flatMap Part.body) → inp.size - i < fuel →
    Spells inp true vs (walkMany (fun i => some (walkInto inp fuel m i i)) vs.length i).1 ∧
      (walkMany (fun i => some (walkInto inp fuel m i i)) vs.length i).2 =
        i + ((vs.parts true).flatMap Part.body).length

theorem table_code_inj {m m' : EncodingMetaData} (h : m ∈ typeLookupTable.toList)
    (h' : m' ∈ typeLookupTable.toList) (hcode : m.formatCode = m'.formatCode) : m = m' := by
  have h1 := lookup_self m h
  rw [hcode, lookup_self m' h', Option.some.injEq] at h1
  exact h1.symm

theorem Scalar.walks {inArray : Bool} {v : Scalar} (h : v.legal = true)
    (hsize : inp.size < Buffer.sizeError) : WalksPart inp (v.part inArray) fun item kids =>
      kids = .nil ∧ item.code = (v.part inArray).code ∧
        inp.bytes item.index item.size = (v.encoding inArray).2 := by
  intro fuel start i m hm hcode hat hlt
  obtain ⟨fuel, rfl⟩ := Nat.exists_eq_succ_of_ne_zero (Nat.ne_zero_of_lt hlt)
  have hbody : (v.encoding inArray).2.length ≤ (v.part inArray).body.length := by
    simp only [Scalar.part, leafBody]
    split <;> simp
  have hle := hat.1
  have hpay := v.payload inArray h (by
    simp only [Buffer.sizeError] at hsize
    omega)
  obtain rfl := table_code_inj hm (v.encoding_mem inArray) hcode
  obtain ⟨index, hwalk, hbytes⟩ := hpay.walk start hsize hat fuel
  rw [hwalk]
  exact ⟨rfl, rfl, rfl, rfl, hbytes⟩

/-- A container whose size and count are there. -/
theorem walkContainer_at (start : Nat) {w size count : Nat} {content : List UInt8} (hw : m.width = w)
    (hat : inp.At i (toBigEndian w size ++ toBigEndian w count ++ content))
    (hs : size = content.length + w) (hw0 : w ≠ 0) (hsize : size < 256 ^ w ∧ size ≠ Buffer.sizeError)
    (hcount : count < 256 ^ w ∧ count ≠ Buffer.sizeError)
    (elements : Nat → Nat → Nat → Nat → Outline) :
    walkContainer inp m start i elements = elements (i + w) size count (i + w + w) ∧
      inp.At (i + w + w) content := by
  rw [List.append_assoc] at hat
  obtain ⟨hf1, hrest⟩ := hat.append
  rw [length_toBigEndian] at hrest
  obtain ⟨hf2, hcontent⟩ := hrest.append
  rw [length_toBigEndian] at hcontent
  have hle := hcontent.1
  have ha : inp.Available (i + w) size := ⟨by omega, by omega⟩
  refine ⟨?_, hcontent⟩
  rw [walkContainer, hw, hf1.field hsize.1 hsize.2]
  simp only [if_pos ha, hf2.field hcount.1 hcount.2]

theorem Former.metaData_mem (k : Former) : k.metaData ∈ typeLookupTable.toList := by
  cases k <;> decide

/-- Every part has a format code of the table. -/
theorem Values.parts_code (inArray : Bool) (vs : Values) : ∀ p ∈ vs.parts inArray,
    ∃ m ∈ typeLookupTable.toList, m.formatCode = p.code := by
  induction vs with
  | nil =>
    intro p hp
    cases hp
  | scalar v rest ih =>
    intro p hp
    rcases List.mem_cons.1 hp with rfl | hp
    · exact ⟨_, v.encoding_mem inArray, rfl⟩
    · exact ih p hp
  | container k elements rest _ ih =>
    intro p hp
    rcases List.mem_cons.1 hp with rfl | hp
    · simp only [Former.part]
      split
      · exact ⟨.list0, by decide, rfl⟩
      · exact ⟨_, k.metaData_mem, rfl⟩
    · exact ih p hp

/-- The types of a list are all there and accepted. -/
def AllAccepted : Forest Item → Prop
  | .nil => True
  | .hole _ => False
  | .node a _ rest => a.accepted = true ∧ AllAccepted rest

theorem allAccepted_cons (o : Option Outline) (F : Forest Item) :
    AllAccepted (.cons o F) ↔ acceptedOf o = true ∧ AllAccepted F := by
  cases o with
  | none => exact ⟨fun h => h.elim, fun h => nomatch h.1⟩
  | some o => exact Iff.rfl

/-- A container of a described value, walked like a list of two. -/
theorem walkDescribed_eq (next : Nat → Option Outline) (m : EncodingMetaData) (start i : Nat) :
    (walkDescribed next m start i).2 = (walkMany next 2 i).1 ∧
      (walkDescribed next m start i).1.stop = (walkMany next 2 i).2 ∧
      (walkDescribed next m start i).1.code = m.formatCode ∧
      ((walkDescribed next m start i).1.accepted = true ↔
        AllAccepted (walkMany next 2 i).1) := by
  refine ⟨rfl, rfl, rfl, ?_⟩
  show (acceptedOf _ && acceptedOf _) = true ↔ _
  rw [Bool.and_eq_true, walkMany, allAccepted_cons, walkMany, allAccepted_cons, walkMany]
  exact and_congr_right fun _ => (and_iff_left trivial).symm

theorem Spells.allAccepted {vs : Values} : ∀ {inArray : Bool} {O : Forest Item},
    Spells inp inArray vs O → AllAccepted O := by
  induction vs with
  | nil =>
    intro _ O h
    cases O with
    | nil => trivial
    | hole rest => exact h
    | node item kids rest => exact h.elim
  | scalar v rest ih =>
    intro _ O h
    cases O with
    | nil => exact h.elim
    | hole rest => exact h
    | node item kids rest => exact ⟨h.2.1, ih h.2.2.2.2⟩
  | container k elements rest _ ih =>
    intro _ O h
    cases O with
    | nil => exact h.elim
    | hole rest => exact h
    | node item kids rest => exact ⟨h.1, ih h.2.2.2⟩

theorem Former.width_cases {k : Former} (hw : k.metaData.width ≠ 0) :
    k.metaData.width = 1 ∨ k.metaData.width = 4 := by
  revert hw
  cases k <;> decide

/-- The size of a container fits. -/
theorem Former.Admits.size_fits {k : Former} {parts : List Part} (h : k.Admits parts)
    (hw : k.metaData.width ≠ 0)
    (hlen : (k.content parts).length + k.metaData.width < Buffer.sizeError) :
    (k.content parts).length + k.metaData.width < 256 ^ k.metaData.width ∧
      (k.content parts).length + k.metaData.width ≠ Buffer.sizeError := by
  rcases Former.width_cases hw with h1 | h4
  · have := h.2.2 h1
    rw [h1]
    simp only [Buffer.sizeError, Nat.pow_one]
    omega
  · rw [h4] at hlen ⊢
    simp only [Buffer.sizeError] at hlen ⊢
    omega

/-- The count of a container fits. -/
theorem Former.Admits.count_fits {k : Former} {parts : List Part} (h : k.Admits parts)
    (hw : k.metaData.width ≠ 0) (hcount : k.metaData.width = 4 → parts.length < Buffer.sizeError) :
    parts.length < 256 ^ k.metaData.width ∧ parts.length ≠ Buffer.sizeError := by
  rcases Former.width_cases hw with h1 | h4
  · have := h.2.2 h1
    rw [h1]
    simp only [Buffer.sizeError, Nat.pow_one]
    omega
  · have := hcount h4
    rw [h4]
    simp only [Buffer.sizeError] at this ⊢
    omega

theorem walkInto_compound (hk : m.kind = .compound) (fuel start i : Nat) :
    walkInto inp (fuel + 1) m start i = walkContainer inp m start i fun j size count k =>
      (⟨m.formatCode, start, (walkMany (walkDecode (walkInto inp fuel) inp) count k).2, true, j, size⟩,
        (walkMany (walkDecode (walkInto inp fuel) inp) count k).1) := by
  rw [walkInto, hk]

/-- An array whose constructor is there. -/
theorem walkInto_array (hk : m.kind = .array) {element : EncodingMetaData}
    (hm : element ∈ typeLookupTable.toList) {fuel start i j size count k : Nat}
    (hw : ∀ elements, walkContainer inp m start i elements = elements j size count k)
    (hlt : k < inp.size) (hbyte : inp.byte k = element.formatCode) :
    walkInto inp (fuel + 1) m start i =
      (⟨m.formatCode, start,
        (walkMany (fun i => some (walkInto inp fuel element i i)) count (k + 1)).2, true, j, size⟩,
        (walkMany (fun i => some (walkInto inp fuel element i i)) count (k + 1)).1) := by
  have hcon : arrayConstructor inp k = (element.formatCode, k + 1) := by
    rw [arrayConstructor, if_pos hlt, hbyte]
  rw [walkInto, hk]
  simp only [hw, hcon, lookup_self element hm]

theorem Former.walks {k : Former} {elements : Values} {inArray : Bool} (hwalk : Walks inp elements)
    (hadm : k.Admits (elements.parts k.isArray))
    (hcount : k.metaData.width = 4 → elements.length < Buffer.sizeError)
    (hsize : inp.size < Buffer.sizeError) :
    WalksPart inp (k.part inArray (elements.parts k.isArray)) fun item kids =>
      item.code = (k.part inArray (elements.parts k.isArray)).code ∧
        Spells inp k.isArray elements kids := by
  intro fuel start i m hm hcode hat hlt
  obtain ⟨fuel, rfl⟩ := Nat.exists_eq_succ_of_ne_zero (Nat.ne_zero_of_lt hlt)
  unfold Former.part at hcode hat ⊢
  split at hcode
  · -- an empty list outside an array
    rename_i hempty
    rw [if_pos hempty]
    obtain rfl := table_code_inj hm (by decide) hcode
    simp only [Bool.and_eq_true, List.isEmpty_iff] at hempty
    have hnil : elements = .nil := by
      cases elements with
      | nil => rfl
      | scalar v rest => cases hempty.2
      | container k' es rest => cases hempty.2
    subst hnil
    exact ⟨rfl, rfl, rfl, trivial⟩
  · rename_i hne
    rw [if_neg hne] at hat ⊢
    obtain rfl := table_code_inj hm k.metaData_mem hcode
    simp only at hat ⊢
    by_cases hw : k.metaData.width = 0
    · obtain rfl : k = .described := by
        revert hw
        cases k <;> decide
      rw [if_pos hw] at hat ⊢
      obtain ⟨hspell, hstop⟩ := hwalk.plain fuel i hat (by omega)
      have hlen : elements.length = 2 := by rw [← elements.length_parts false]; exact hadm.1 rfl
      rw [hlen] at hspell hstop
      obtain ⟨hkids, hs, hc, hacc⟩ := walkDescribed_eq (walkDecode (walkInto inp fuel) inp)
        EncodingMetaData.described start i
      have hinto : walkInto inp (fuel + 1) Former.described.metaData start i =
        walkDescribed (walkDecode (walkInto inp fuel) inp) EncodingMetaData.described start i := rfl
      rw [hinto]
      exact ⟨hacc.2 hspell.allAccepted, hs.trans hstop, hc, by rw [hkids]; exact hspell⟩
    · rw [if_neg hw] at hat ⊢
      have hlen := hat.1
      simp only [List.length_append, length_toBigEndian] at hlen
      have hfs := hadm.size_fits hw (by omega)
      have hfc := hadm.count_fits hw (by rwa [Values.length_parts])
      have hlenParts := elements.length_parts k.isArray
      by_cases harr : k.isArray = true
      · have hkind : k.metaData.kind = .array := by
          revert harr
          cases k <;> decide
        have hwalkc := fun elements => (walkContainer_at (m := k.metaData) start rfl hat rfl
          hw hfs hfc elements).1
        have hcontent := (walkContainer_at (m := k.metaData) start rfl hat rfl hw hfs hfc
          fun _ _ _ _ => (⟨0, 0, 0, true, 0, 0⟩, .nil)).2
        -- the constructor of the first element
        obtain ⟨hne, hcodes⟩ := hadm.2.1 harr
        rw [Former.content, if_pos harr] at hcontent
        rw [harr] at hcontent hlenParts hcodes hne
        obtain ⟨p, ps, hps⟩ := List.exists_cons_of_ne_nil hne
        obtain ⟨element, helement, hec⟩ := elements.parts_code true p (by rw [hps]; exact .head _)
        have hat' : inp.At (i + k.metaData.width + k.metaData.width)
            (p.code :: (elements.parts true).flatMap Part.body) := by
          rw [spelledArray, hps] at hcontent
          rw [hps]
          exact hcontent
        obtain ⟨hlt', hbyte, hbodies⟩ := hat'.cons
        have hall : ∀ q ∈ elements.parts true, q.code = element.formatCode := by
          intro q hq
          have := hcodes q hq
          rw [hps] at this
          rw [hec]
          exact Option.some.inj this
        obtain ⟨hspell, hstop⟩ := hwalk.inArray fuel _ element helement hall hbodies (by omega)
        rw [walkInto_array hkind helement hwalkc hlt' (hbyte.trans hec.symm), harr, hlenParts]
        refine ⟨rfl, ?_, rfl, hspell⟩
        simp only [hstop, Former.content, harr, if_true, spelledArray, hps, List.head?_cons,
          Option.map_some, Option.toList_some, List.length_append, List.length_singleton,
          length_toBigEndian]
        omega
      · have hkind : k.metaData.kind = .compound := by
          revert harr hw
          cases k <;> decide
        obtain ⟨hwalkc, hcontent⟩ := walkContainer_at (m := k.metaData) start rfl hat rfl
          hw hfs hfc _
        rw [walkInto_compound hkind, hwalkc]
        rw [Bool.not_eq_true] at harr
        rw [Former.content, harr] at hcontent
        rw [harr] at hlenParts
        obtain ⟨hspell, hstop⟩ := hwalk.plain fuel _ hcontent (by omega)
        rw [harr, hlenParts]
        refine ⟨rfl, ?_, rfl, hspell⟩
        simp only [hstop, Former.content, harr, List.length_append, length_toBigEndian,
          Bool.false_eq_true, if_false]
        omega

/-! ## Lists of values -/

/-- One more value in front. -/
theorem Walks.cons {vs rest : Values} {p : Bool → Part} {Q : Bool → Item → Forest Item → Prop}
    (hparts : ∀ a, vs.parts a = p a :: rest.parts a) (hlen : vs.length = rest.length + 1)
    (hspell : ∀ a item kids O, item.accepted = true → Q a item kids → Spells inp a rest O →
      Spells inp a vs (.node item kids O))
    (hp : ∀ a, WalksPart inp (p a) (Q a)) (hcode : ∃ m ∈ typeLookupTable.toList,
      m.formatCode = (p false).code) (hrest : Walks inp rest) : Walks inp vs := by
  constructor
  · intro fuel i hat hfuel
    rw [hparts] at hat ⊢
    rw [hlen]
    obtain ⟨hfirst, hat'⟩ := hat.append
    obtain ⟨hlt, hbyte, hbody⟩ := hfirst.cons
    obtain ⟨m, hm, hmc⟩ := hcode
    have hnext : walkDecode (walkInto inp fuel) inp i = some (walkInto inp fuel m i (i + 1)) := by
      rw [walkDecode, if_pos hlt, hbyte, ← hmc, lookup_self m hm]
    obtain ⟨hacc, hstop, hq⟩ := hp false fuel i (i + 1) m hm hmc hbody (by omega)
    rw [List.length_cons] at hat'
    obtain ⟨hs, he⟩ := hrest.plain fuel _ hat' (by omega)
    simp only [walkMany, hnext, stopOf, Option.elim, hstop]
    rw [Nat.add_assoc, Nat.add_comm 1] 
    refine ⟨hspell _ _ _ _ hacc hq hs, ?_⟩
    rw [he]
    simp [spelled]
    omega
  · intro fuel i m hm hcodes hat hfuel
    rw [hparts] at hat hcodes ⊢
    rw [hlen]
    obtain ⟨hbody, hat'⟩ := hat.append
    obtain ⟨hacc, hstop, hq⟩ := hp true fuel i i m hm (hcodes _ (.head _)).symm hbody hfuel
    obtain ⟨hs, he⟩ := hrest.inArray fuel _ m hm (fun q hq => hcodes q (.tail _ hq)) hat' (by omega)
    simp only [walkMany, stopOf, Option.elim, hstop]
    refine ⟨hspell _ _ _ _ hacc hq hs, ?_⟩
    rw [he, List.flatMap_cons, List.length_append, Nat.add_assoc]

theorem walks {vs : Values} (hlegal : vs.Legal) (hcounts : vs.CountsFit)
    (hsize : inp.size < Buffer.sizeError) : Walks inp vs := by
  induction vs with
  | nil => exact ⟨fun _ _ _ _ => ⟨trivial, rfl⟩, fun _ _ _ _ _ _ _ => ⟨trivial, rfl⟩⟩
  | scalar v rest ih =>
    refine .cons (p := fun a => v.part a) (fun _ => rfl) rfl (fun a item kids O hacc hq hs => ?_)
      (fun a => v.walks hlegal.1 hsize) ⟨_, v.encoding_mem false, rfl⟩ (ih hlegal.2 hcounts)
    exact ⟨hq.1, hacc, hq.2.1, hq.2.2, hs⟩
  | container k elements rest ihe ihr =>
    refine .cons (p := fun a => k.part a (elements.parts k.isArray)) (fun _ => rfl) rfl
      (fun a item kids O hacc hq hs => ?_)
      (fun a => Former.walks (ihe hlegal.2.1 hcounts.2.1) hlegal.1 hcounts.1 hsize)
      (Values.parts_code false (.container k elements rest) _ (.head _)) (ihr hlegal.2.2 hcounts.2.2)
    exact ⟨hacc, hq.1, hq.2, hs⟩

/-! ## Bytes that are cut off -/

namespace Input

/-- Some bytes start at an index, but the input ends before they do. -/
def Cut (inp : Input) (i : Nat) (bytes : List UInt8) : Prop :=
  i ≤ inp.size ∧ inp.size < i + bytes.length ∧
    inp.bytes i (inp.size - i) = bytes.take (inp.size - i)

variable {xs ys : List UInt8}

theorem Cut.append (h : inp.Cut i (xs ++ ys)) :
    inp.Cut i xs ∨ inp.At i xs ∧ inp.Cut (i + xs.length) ys := by
  obtain ⟨hle, hlt, hb⟩ := h
  rw [List.length_append] at hlt
  by_cases hx : inp.size < i + xs.length
  · refine .inl ⟨hle, hx, ?_⟩
    rw [hb, List.take_append_of_le_length (by omega)]
  · have hsplit : inp.size - i = xs.length + (inp.size - (i + xs.length)) := by omega
    rw [hsplit, bytes_add, List.take_length_add_append] at hb
    obtain ⟨h1, h2⟩ := List.append_inj hb (by simp [bytes])
    exact .inr ⟨⟨by omega, h1⟩, by omega, by omega, h2⟩

theorem Cut.cons {c : UInt8} (h : inp.Cut i (c :: xs)) :
    inp.size = i ∨ i < inp.size ∧ inp.byte i = c ∧ inp.Cut (i + 1) xs := by
  have h' : inp.Cut i ([c] ++ xs) := h
  rcases h'.append with hc | ⟨ha, hc⟩
  · have := hc.1
    have := hc.2.1
    simp only [List.length_singleton] at this
    exact .inl (by omega)
  · obtain ⟨hlt, hb, -⟩ := ha.cons
    exact .inr ⟨hlt, hb, hc⟩

theorem Cut.field {w v : Nat} (h : inp.Cut i (toBigEndian w v)) : inp.field w i = (none, i) := by
  have := h.2.1
  rw [length_toBigEndian] at this
  rw [Input.field, Buffer.readField, if_neg (by omega)]

end Input

/-- A value that is cut off is not accepted. -/
def CutsPart (inp : Input) (p : Part) : Prop :=
  ∀ fuel start i, ∀ m ∈ typeLookupTable.toList, m.formatCode = p.code → inp.Cut i p.body →
    inp.size - i < fuel → (walkInto inp fuel m start i).1.accepted = false

theorem Scalar.cuts {inArray : Bool} {v : Scalar} (h : v.legal = true)
    (hlen : (v.part inArray).body.length < Buffer.sizeError) : CutsPart inp (v.part inArray) := by
  intro fuel start i m hm hcode hcut hlt
  obtain ⟨fuel, rfl⟩ := Nat.exists_eq_succ_of_ne_zero (Nat.ne_zero_of_lt hlt)
  have hbody : (v.encoding inArray).2.length ≤ (v.part inArray).body.length := by
    simp only [Scalar.part, leafBody]
    split <;> simp
  have hpay := v.payload inArray h (by simp only [Buffer.sizeError] at hlen; omega)
  obtain rfl := table_code_inj hm (v.encoding_mem inArray) hcode
  have hend := hcut.2.1
  unfold Scalar.part at hcut hend
  simp only [leafBody] at hcut hend
  rcases hpay.shape with ⟨hk, hnil⟩ | ⟨hk, hw, -⟩ | ⟨hk, -, hfit⟩
  · rw [hk, hnil] at hend
    have := hcut.1
    simp at hend
    omega
  · rw [hk, hw, if_neg (by decide)] at hend
    have hna : ¬ inp.Available i (v.encoding inArray).1.width := fun ha => by
      have := ha.2
      omega
    simp only [walkInto, hk, if_neg hna]
  · rw [hk, if_pos rfl] at hcut hend
    rcases hcut.append with hc | ⟨ha, hc⟩
    · simp only [walkInto, hk, hc.field]
    · rw [length_toBigEndian] at hc
      have hr := ha.field hfit (by omega)
      have hna : ¬ inp.Available (i + (v.encoding inArray).1.width) (v.encoding inArray).2.length :=
        fun ha => by
          have := ha.2
          have := hc.2.1
          omega
      simp only [walkInto, hk, hr, if_neg hna]

/-- A container that is cut off behind its constructor. -/
theorem walkContainer_cut {w size count : Nat} {content : List UInt8} (hw : m.width = w)
    (hcut : inp.Cut i (toBigEndian w size ++ toBigEndian w count ++ content))
    (hs : size = content.length + w) (hsize : size < 256 ^ w ∧ size ≠ Buffer.sizeError)
    (elements : Nat → Nat → Nat → Nat → Outline) :
    (walkContainer inp m start i elements).1.accepted = false := by
  rw [List.append_assoc] at hcut
  rw [walkContainer, hw]
  rcases hcut.append with hc | ⟨ha, hc⟩
  · rw [hc.field]
  · rw [length_toBigEndian] at hc
    have hend := hc.2.1
    simp only [List.length_append, length_toBigEndian] at hend
    have hna : ¬ inp.Available (i + w) size := fun ha => by
      have := ha.2
      omega
    rw [ha.field hsize.1 hsize.2]
    simp only [if_neg hna]

/-- Of values that are cut off, outside an array, one is missing or not accepted. -/
def Cuts (inp : Input) (vs : Values) : Prop :=
  ∀ fuel i, inp.Cut i (spelled (vs.parts false)) → inp.size - i ≤ fuel →
    ¬ AllAccepted (walkMany (walkDecode (walkInto inp fuel) inp) vs.length i).1

theorem Former.cuts {k : Former} {elements : Values} {inArray : Bool}
    (hcuts : k = .described → Cuts inp elements) (hadm : k.Admits (elements.parts k.isArray))
    (hlen : (k.part inArray (elements.parts k.isArray)).body.length < Buffer.sizeError) :
    CutsPart inp (k.part inArray (elements.parts k.isArray)) := by
  intro fuel start i m hm hcode hcut hlt
  obtain ⟨fuel, rfl⟩ := Nat.exists_eq_succ_of_ne_zero (Nat.ne_zero_of_lt hlt)
  unfold Former.part at hcode hcut hlen
  split at hcode
  · rename_i hempty
    rw [if_pos hempty] at hcut
    have := hcut.1
    have := hcut.2.1
    simp at this
    omega
  · rename_i hne
    rw [if_neg hne] at hcut hlen
    obtain rfl := table_code_inj hm k.metaData_mem hcode
    simp only at hcut hlen
    by_cases hw : k.metaData.width = 0
    · obtain rfl : k = .described := by
        revert hw
        cases k <;> decide
      rw [if_pos hw] at hcut
      have hnot := hcuts rfl fuel i hcut (by omega)
      have hlen2 : elements.length = 2 := by rw [← elements.length_parts false]; exact hadm.1 rfl
      rw [hlen2] at hnot
      obtain ⟨-, -, -, hacc⟩ := walkDescribed_eq (walkDecode (walkInto inp fuel) inp)
        EncodingMetaData.described start i
      exact Bool.eq_false_iff.2 fun h => hnot (hacc.1 h)
    · rw [if_neg hw] at hcut hlen
      simp only [List.length_append, length_toBigEndian] at hlen
      have hfs := hadm.size_fits hw (by omega)
      by_cases harr : k.metaData.kind = .array
      · rw [walkInto, harr]
        exact walkContainer_cut rfl hcut rfl hfs _
      · have hkind : k.metaData.kind = .compound := by
          revert harr hw
          cases k <;> decide
        rw [walkInto, hkind]
        exact walkContainer_cut rfl hcut rfl hfs _

/-- One more value in front, which is whole or cut off itself. -/
theorem Cuts.cons {vs rest : Values} {p : Part} {Q : Item → Forest Item → Prop}
    (hparts : vs.parts false = p :: rest.parts false) (hlen : vs.length = rest.length + 1)
    (hwalk : WalksPart inp p Q) (hcut : CutsPart inp p)
    (hcode : ∃ m ∈ typeLookupTable.toList, m.formatCode = p.code) (hrest : Cuts inp rest) :
    Cuts inp vs := by
  intro fuel i hc hfuel
  rw [hparts] at hc
  rw [hlen, walkMany, allAccepted_cons]
  rintro ⟨hacc, hall⟩
  obtain ⟨m, hm, hmc⟩ := hcode
  have hnext : i < inp.size → inp.byte i = p.code →
      walkDecode (walkInto inp fuel) inp i = some (walkInto inp fuel m i (i + 1)) := by
    intro hlt hbyte
    rw [walkDecode, if_pos hlt, hbyte, ← hmc, lookup_self m hm]
  rcases hc.append with hfirst | ⟨hfirst, hlast⟩
  · rcases hfirst.cons with heq | ⟨hlt, hbyte, hbody⟩
    · rw [walkDecode, if_neg (by omega)] at hacc
      cases hacc
    · rw [hnext hlt hbyte] at hacc
      have := hcut fuel i (i + 1) m hm hmc hbody (by omega)
      exact Bool.noConfusion (hacc.symm.trans this)
  · obtain ⟨hlt, hbyte, hbody⟩ := hfirst.cons
    obtain ⟨-, hstop, -⟩ := hwalk fuel i (i + 1) m hm hmc hbody (by omega)
    rw [hnext hlt hbyte] at hall
    simp only [stopOf, Option.elim, hstop] at hall
    rw [List.length_cons, ← Nat.add_assoc, Nat.add_right_comm] at hlast
    exact hrest fuel _ hlast (by omega) hall

theorem cuts {vs : Values} (hlegal : vs.Legal) (hcounts : vs.CountsFit)
    (hsize : inp.size < Buffer.sizeError) (hlen : vs.wire.length < Buffer.sizeError) :
    Cuts inp vs := by
  induction vs with
  | nil =>
    intro fuel i hc _ _
    have := hc.1
    have := hc.2.1
    simp [Values.parts, spelled] at this
    omega
  | scalar v rest ih =>
    simp only [Values.wire, Values.parts, spelled, List.flatMap_cons, List.length_append,
      List.length_cons] at hlen
    exact .cons rfl rfl (v.walks hlegal.1 hsize) (v.cuts hlegal.1 (by omega))
      ⟨_, v.encoding_mem false, rfl⟩ (ih hlegal.2 hcounts (by simp only [Values.wire, spelled]; omega))
  | container k elements rest ihe ihr =>
    simp only [Values.wire, Values.parts, spelled, List.flatMap_cons, List.length_append,
      List.length_cons] at hlen
    refine .cons rfl rfl
      (Former.walks (walks hlegal.2.1 hcounts.2.1 hsize) hlegal.1 hcounts.1 hsize)
      (Former.cuts ?_ hlegal.1 (by omega))
      (Values.parts_code false (.container k elements rest) _ (.head _))
      (ihr hlegal.2.2 hcounts.2.2 (by simp only [Values.wire, spelled]; omega))
    rintro rfl
    refine ihe hlegal.2.1 hcounts.2.1 ?_
    have : (Former.described.part false (elements.parts false)).body = elements.wire := rfl
    rw [← this]
    simp only [Former.isArray] at hlen
    omega

end Amqp
