import LibAmqp.Codec.Array
import LibAmqp.Codec.Proof.Release
import LibAmqp.Codec.Proof.Validity

/-!
# Which arrays of single values are decoded to what was encoded

* `CallTree.leaves_inPlace`: single values, none of them an empty text, are in place.
* `arrayRoundTrips_iff`: when the values of one type go into an array.
-/

namespace Amqp

open Lib Memory Buffer

/-! ## Calls for single values -/

@[simp] theorem Values.length_scalars : ∀ vs : List Scalar, (Values.scalars vs).length = vs.length
  | [] => rfl
  | _ :: vs => congrArg (· + 1) (length_scalars vs)

namespace CallTree

variable {inArray behind : Bool} {l : Leaf} {ls : List Leaf}

@[simp] theorem length_leaves : ∀ ls : List Leaf, (leaves ls).length = ls.length
  | [] => rfl
  | _ :: ls => congrArg (· + 1) (length_leaves ls)

@[simp] theorem parts_leaves : ∀ ls : List Leaf, (leaves ls).parts inArray = ls.map (Leaf.part inArray)
  | [] => rfl
  | _ :: ls => congrArg (_ :: ·) (parts_leaves ls)

@[simp] theorem values_leaves : ∀ ls : List Leaf, (leaves ls).values = .scalars (ls.map Leaf.value)
  | [] => rfl
  | l :: ls => congrArg (Values.scalar l.value) (values_leaves ls)

theorem leaves_noThird : ∀ ls : List Leaf, (leaves ls).NoThird
  | [] => trivial
  | _ :: ls => leaves_noThird ls

theorem leaves_oneCode : ∀ ls : List Leaf, (leaves ls).OneCode
  | [] => trivial
  | _ :: ls => leaves_oneCode ls

theorem leaves_noEmptyArray : ∀ ls : List Leaf, (leaves ls).NoEmptyArray
  | [] => trivial
  | _ :: ls => leaves_noEmptyArray ls

theorem leaves_filled : ∀ ls : List Leaf, (leaves ls).Filled
  | [] => trivial
  | _ :: ls => leaves_filled ls

/-- Single values that need nothing behind them. -/
theorem leaves_inPlace (h : ∀ l ∈ ls, l.inPlace false = true) : (leaves ls).InPlace inArray behind := by
  induction ls with
  | nil => trivial
  | cons l ls ih =>
    refine ⟨?_, ih fun l hl => h l (.tail _ hl)⟩
    have hl := h l (.head _)
    simp only [Leaf.inPlace, Bool.and_eq_true, Bool.or_eq_true] at hl ⊢
    exact ⟨hl.1, hl.2.imp id fun h => ⟨h.1, .inr (h.2.resolve_left Bool.false_ne_true)⟩⟩

/-- The elements are among the bytes of their array. -/
theorem flatMap_body_le_wire {k : Former} (ha : k.isArray = true) :
    ((ls.map (Leaf.part true)).flatMap Part.body).length ≤ (container k (leaves ls) nil).wire.length := by
  have hcontent : ((ls.map (Leaf.part true)).flatMap Part.body).length ≤
      (k.content (ls.map (Leaf.part true))).length := by
    rw [Former.content, if_pos ha]
    cases ls with
    | nil => exact Nat.zero_le _
    | cons l ls => simp [spelledArray]
  have hlist : k.isList = false := by
    cases k <;> first | rfl | cases ha
  have hpart : (k.content (ls.map (Leaf.part true))).length ≤
      (k.part false (ls.map (Leaf.part true))).body.length := by
    rw [Former.part_eq fun h => Bool.false_ne_true (hlist.symm.trans h.2.1)]
    dsimp only
    split
    · exact Nat.le_refl _
    · rw [List.length_append]
      exact Nat.le_add_left _ _
  have hwire : (container k (leaves ls) nil).wire =
      (k.part false (ls.map (Leaf.part true))).code :: (k.part false (ls.map (Leaf.part true))).body := by
    rw [wire, parts, parts_leaves, ha]
    simp [spelled, parts]
  rw [hwire, List.length_cons]
  exact Nat.le_succ_of_le (hcontent.trans hpart)

/-- The payload of a value in an array is not longer than the bytes of the array. -/
theorem length_le_wire {k : Former} (ha : k.isArray = true) (hl : l ∈ ls) :
    (l.encoding true).2.length ≤ (container k (leaves ls) nil).wire.length := by
  have hmem : l.part true ∈ ls.map (Leaf.part true) := List.mem_map_of_mem hl
  have hbody : (l.part true).body.length ≤ ((ls.map (Leaf.part true)).flatMap Part.body).length :=
    (List.sublist_flatten_of_mem (List.mem_map_of_mem hmem)).length_le
  have hpayload := length_le_leafBody (l.encoding true).1 (l.encoding true).2
  exact hpayload.trans (hbody.trans (flatMap_body_le_wire ha))

/-- An array has not more values than bytes, unless they have none. -/
theorem count_le_wire {k : Former} (ha : k.isArray = true) (hne : ∀ l ∈ ls, (l.part true).body ≠ []) :
    ls.length ≤ (container k (leaves ls) nil).wire.length := by
  refine Nat.le_trans ?_ (flatMap_body_le_wire ha)
  clear ha
  induction ls with
  | nil => exact Nat.le_refl _
  | cons l ls ih =>
    have hl := List.length_pos_iff.2 (hne l (.head _))
    have hls := ih fun l hl => hne l (.tail _ hl)
    rw [List.map_cons, List.flatMap_cons, List.length_append, List.length_cons]
    omega

end CallTree

/-! ## The constructor of an array -/

theorem AmqpType.test_valueFlags {t : AmqpType} {mask : TypedefFlags} (h : valueMask &&& mask = mask) :
    t.typedefFlagsTest mask = (t.valueFlags &&& mask != 0#32) := by
  rw [valueFlags, BitVec.and_assoc, h]
  rfl

theorem table_array : ∀ m ∈ typeLookupTable.toList,
    m.typedefFlags &&& valueMask = isArray → m.kind = .array := by
  decide

section
variable {P : AmqpType → Prop} {c : Context} {inp : Input} {address : Nat} {b : Buffer}

/-- The type of an accepted array's constructor has the flags of its elements. -/
theorem Fits.holder_flags {n : Node} {kids : Layout} (h : Fits c inp address P n kids)
    (hacc : n.item.accepted = true) {m : EncodingMetaData}
    (hl : amqpTypeMetaDataLookup n.item.code = some m) (harr : m.kind = .array) :
    ∃ t hd th, c.types.load n.slot = some t ∧ t.value.constructor = some hd ∧
      c.types.load hd = some th ∧ ∀ kid m', some kid ∈ kids.roots →
        amqpTypeMetaDataLookup kid.item.code = some m' →
          th.valueFlags = m'.typedefFlags &&& valueMask := by
  obtain ⟨t, role, -, ⟨stale, k, -, -, hf⟩, hload⟩ := h.record
  simp only [hl] at hf
  have hcon := hf.container (.inr (.inl harr))
  obtain ⟨hd, hhd⟩ := Option.ne_none_iff_exists'.1 (hf.array hacc harr).1
  obtain ⟨⟨th, hrole', hr', ⟨stale', kh, -, ⟨-, hflags⟩, rfl⟩, hlh⟩, hkids⟩ := h.holder hd hhd
  refine ⟨_, hd.slot, _, hload, ?_, hlh, fun kid m' hkid hm' => ?_⟩
  · show t.value.constructor = _
    rw [hcon.2.1, hhd]
    rfl
  · rw [← hkids kid hkid, hm'] at hflags
    show (kh.typedefFlags ||| hrole') &&& valueMask = _
    rw [or_and_of_disjoint (hr'.disjoint (by decide)), hflags.2]

/-- The constructor of an array that is held has the flags of the first element. -/
theorem Laid.array_constructor (hP : ∀ t, P t → t.value = AmqpType.zero.value) {F : Layout} {k : Former}
    {v : Scalar} {rest : Values} {s : Slot} (hlaid : Laid c inp address P F) (ha : k.isArray = true)
    (hptr : F.pointers = [some s])
    (hholds : Holds c b (.container k (.scalar v rest) .nil) [some s]) :
    ∃ t hd th, c.types.load s = some t ∧ t.value.constructor = some hd ∧ c.types.load hd = some th ∧
      th.valueFlags = v.flags := by
  obtain ⟨s', t, kids', ptrs, hs, hload, hvalid, hflags, -, helem, hkids, -⟩ := hholds
  obtain ⟨rfl, -⟩ : s' = s ∧ ptrs = [] := by simpa [eq_comm] using hs
  rcases Layout.single hptr with ⟨hnone, -⟩ | ⟨n, kids, hslot, rfl⟩
  · cases hnone
  obtain rfl : s' = n.slot := Option.some.inj hslot
  have hfits := hlaid.1
  obtain ⟨t0, hload0, hvalid0, -⟩ := hfits.seen
  obtain rfl : t = t0 := Option.some.inj (hload.symm.trans hload0)
  have hacc : n.item.accepted = true := hvalid0.symm.trans hvalid
  obtain ⟨m, t1, hknown⟩ := hfits.known hacc
  obtain ⟨t2, hload2, -, -, hflags2, -⟩ := hfits.leaf_value hP hacc hknown.lookup
  obtain rfl : t = t1 := Option.some.inj (hload.symm.trans hknown.load)
  obtain rfl : t = t2 := Option.some.inj (hload.symm.trans hload2)
  have harr : m.kind = .array := by
    refine table_array m (lookup_mem hknown.lookup).1 ?_
    rw [← hflags2, hflags]
    cases k <;> first | rfl | cases ha
  obtain ⟨t3, hd, th, hload3, hcon, hth, hthflags⟩ := hfits.holder_flags hacc hknown.lookup harr
  obtain rfl : t = t3 := Option.some.inj (hload.symm.trans hload3)
  refine ⟨t, hd, th, hload, hcon, hth, ?_⟩
  -- the first element
  obtain ⟨s1, t4, ptrs1, rfl, hload4, hvalid4, hflags4, -⟩ := hkids
  have hfirst := (hknown.element (.inr (.inl harr)) 0 (some s1)).1 ((helem 0 (some s1)).2 rfl)
  obtain ⟨kid, kids1, kids2, rfl, rfl⟩ : ∃ kid kids1 kids2, kids = .node kid kids1 kids2 ∧ kid.slot = s1 := by
    cases kids with
    | nil | hole => cases hfirst
    | node kid kids1 kids2 => exact ⟨kid, kids1, kids2, rfl, Option.some.inj (Option.some.inj hfirst)⟩
  have hfits1 : Fits c inp address P kid kids1 := hlaid.2.1.1
  obtain ⟨t5, hload5, hvalid5, -⟩ := hfits1.seen
  obtain rfl : t4 = t5 := Option.some.inj (hload4.symm.trans hload5)
  have hacc1 : kid.item.accepted = true := hvalid5.symm.trans hvalid4
  obtain ⟨m1, t6, hknown1⟩ := hfits1.known hacc1
  obtain ⟨t7, hload7, -, -, hflags7, -⟩ := hfits1.leaf_value hP hacc1 hknown1.lookup
  obtain rfl : t4 = t7 := Option.some.inj (hload4.symm.trans hload7)
  rw [hthflags kid m1 (.head _) hknown1.lookup, ← hflags7, hflags4]

end

/-! ## Values of one type -/

namespace ElementType

variable {ty : ElementType} {v w : Scalar} {vs : List Scalar}

theorem encoding_mem (h : ty.admits v = true) : (v.encoding true).1 ∈ ty.encodings := by
  cases ty <;> cases v <;> try cases h
  case boolean.boolean => exact .head _
  all_goals
    simp only [Scalar.encoding]
    (repeat' split) <;> simp [encodings]

theorem width_encoding (h : ty.admits v = true) : (v.encoding true).1.width = v.codeWidth := by
  cases ty <;> cases v <;> try cases h
  case boolean.boolean => rfl
  all_goals
    simp only [Scalar.encoding, Scalar.codeWidth]
    (repeat' split) <;> rfl

theorem encodings_code : ∀ ty : ElementType, ∀ m ∈ ty.encodings, ∀ m' ∈ ty.encodings,
    m.formatCode = m'.formatCode ↔ m.width = m'.width := by
  intro ty
  cases ty <;> decide

theorem encodings_text : ∀ ty : ElementType, ty.isText = true →
    ∀ m ∈ ty.encodings, m.kind = .variableWidth ∧ m.width ≠ 0 := by
  intro ty
  cases ty <;> decide

/-- Two values of one type have one format code if they need one width. -/
theorem code_iff (hv : ty.admits v = true) (hw : ty.admits w = true) :
    (v.part true).code = (w.part true).code ↔ v.codeWidth = w.codeWidth := by
  rw [← width_encoding hv, ← width_encoding hw]
  exact encodings_code ty _ (encoding_mem hv) _ (encoding_mem hw)

/-- The codes of an array of them. -/
theorem codes_iff (hty : ∀ v ∈ vs, ty.admits v = true) :
    (∃ code, ∀ p ∈ vs.map (Scalar.part true), p.code = code) ↔
      ∀ v ∈ vs, ∀ w ∈ vs, v.codeWidth = w.codeWidth := by
  constructor
  · rintro ⟨code, hcode⟩ v hv w hw
    refine (code_iff (hty v hv) (hty w hw)).1 ?_
    rw [hcode _ (List.mem_map_of_mem hv), hcode _ (List.mem_map_of_mem hw)]
  · intro h
    cases vs with
    | nil => exact ⟨0, fun p hp => (List.not_mem_nil hp).elim⟩
    | cons v vs =>
      refine ⟨(v.part true).code, fun p hp => ?_⟩
      obtain ⟨w, hw, rfl⟩ := List.mem_map.1 hp
      exact (code_iff (hty w hw) (hty v (.head _))).2 (h w hw v (.head _))

/-- Behind a text in an array there is a size at least, if there is an element. -/
theorem body_ne_nil (hv : ty.admits v = true) (hw : ty.admits w = true) (hempty : v.isEmptyText = true) :
    (w.part true).body ≠ [] := by
  have htext : ty.isText = true := by
    cases ty <;> cases v <;> first | rfl | (cases hv <;> cases hempty)
  obtain ⟨hk, hwidth⟩ := encodings_text ty htext _ (encoding_mem hw)
  rw [Scalar.part, leafBody, if_pos hk, ← List.length_pos_iff, List.length_append, length_toBigEndian]
  exact Nat.add_pos_left (Nat.pos_of_ne_zero hwidth) _

end ElementType

/-- A text that is well spelled and fits needs a byte of its own or one behind it. -/
theorem Leaf.inPlace_text {behind : Bool} {l : Leaf} (hk : (l.encoding false).1.kind = .variableWidth)
    (hsize : (l.encoding false).2.length < 256 ^ (l.encoding false).1.width)
    (hs : (l.encoding false).1.typeDecoder.wellSpelled (l.encoding false).2 = true) :
    l.inPlace behind = (behind || !(l.encoding false).2.isEmpty) := by
  rw [Leaf.inPlace, l.exact_variable hk, Leaf.sizeFits, hs, hk, decide_eq_true hsize]
  simp

/-- A text and its two encodings. -/
theorem Scalar.inPlace_text {behind : Bool} {v : Scalar} {x : List UInt8} {m m' : EncodingMetaData}
    (he : v.encoding false = (if x.length < 256 then m else m', x))
    (hm : m.kind = .variableWidth ∧ m.width = 1 ∧ m.typeDecoder.wellSpelled x = true)
    (hm' : m'.kind = .variableWidth ∧ m'.width = 4 ∧ m'.typeDecoder.wellSpelled x = true)
    (hsize : x.length < Buffer.sizeError) :
    (Leaf.scalar v).inPlace behind = (behind || !x.isEmpty) := by
  have hl : (Leaf.scalar v).encoding false = (if x.length < 256 then m else m', x) := he
  simp only [Buffer.sizeError] at hsize
  by_cases h : x.length < 256
  · rw [if_pos h] at hl
    rw [Leaf.inPlace_text (by rw [hl]; exact hm.1) (by rw [hl, hm.2.1]; exact h) (by rw [hl]; exact hm.2.2),
      hl]
  · rw [if_neg h] at hl
    rw [Leaf.inPlace_text (by rw [hl]; exact hm'.1) (by rw [hl, hm'.2.1]; dsimp only; omega)
      (by rw [hl]; exact hm'.2.2), hl]

/-- A value that is well spelled is in place, if it is not an empty text with nothing behind it. -/
theorem Scalar.inPlace_iff {behind : Bool} {v : Scalar} (hspelled : v.spelled = true)
    (hsize : (v.encoding false).2.length < Buffer.sizeError) :
    (Leaf.scalar v).inPlace behind = true ↔ (behind = false → v.isEmptyText = false) := by
  have hbool : ∀ x y : Bool, (x || !y) = true ↔ (x = false → y = false) := by decide
  have hnumber : (v.encoding false).1.kind ≠ .variableWidth → (Leaf.scalar v).inPlace behind = true := by
    intro hk
    have hk' : ((Leaf.scalar v).encoding false).1.kind ≠ .variableWidth := hk
    rw [Leaf.inPlace, bne_iff_ne.2 hk', Bool.true_or]
    rfl
  cases v with
  | binary v =>
    rw [Scalar.inPlace_text rfl ⟨rfl, rfl, rfl⟩ ⟨rfl, rfl, rfl⟩ hsize]
    exact hbool _ _
  | string v =>
    rw [Scalar.inPlace_text rfl (by exact ⟨rfl, rfl, hspelled⟩) (by exact ⟨rfl, rfl, hspelled⟩) hsize]
    exact hbool _ _
  | symbol v =>
    rw [Scalar.inPlace_text rfl (by exact ⟨rfl, rfl, hspelled⟩) (by exact ⟨rfl, rfl, hspelled⟩) hsize]
    exact hbool _ _
  | null | ubyte | byte | ushort | short | timestamp | float | double | uuid =>
    exact iff_of_true rfl fun _ => rfl
  | boolean v | uint v | int v | ulong v | long v =>
    refine iff_of_true (hnumber ?_) fun _ => rfl
    simp only [Scalar.encoding]
    (repeat' split) <;> exact fun hk => by cases hk

/-- Outside an array no payload is longer. -/
theorem Scalar.length_encoding (v : Scalar) :
    (v.encoding false).2.length ≤ (v.encoding true).2.length := by
  cases v with
  | boolean v => exact Nat.zero_le _
  | _ => exact Nat.le_refl _

/-- Values of one type are in place in an array if the last is not an empty text. -/
theorem ElementType.inPlace_iff {ty : ElementType} {vs : List Scalar} (hty : ∀ v ∈ vs, ty.admits v = true)
    (hspelled : ∀ v ∈ vs, v.spelled = true)
    (hsize : ∀ v ∈ vs, (v.encoding false).2.length < Buffer.sizeError) :
    (CallTree.leaves (vs.map .scalar)).InPlace true false ↔ ∀ v ∈ vs.getLast?, v.isEmptyText = false := by
  induction vs with
  | nil => exact iff_of_true trivial nofun
  | cons v vs ih =>
    have ih := ih (fun w hw => hty w (.tail _ hw)) (fun w hw => hspelled w (.tail _ hw))
      fun w hw => hsize w (.tail _ hw)
    rw [List.map_cons, CallTree.leaves, CallTree.InPlace, ih,
      Scalar.inPlace_iff (hspelled v (.head _)) (hsize v (.head _))]
    cases vs with
    | nil => simp [CallTree.leaves, CallTree.bytes, CallTree.parts]
    | cons w vs =>
      rw [List.getLast?_cons_cons]
      refine and_iff_right fun hbytes => Bool.eq_false_iff.2 fun hempty => ?_
      have hnil : (CallTree.leaves ((w :: vs).map .scalar)).bytes true = [] := by simpa using hbytes
      have happend : (w.part true).body ++ (CallTree.leaves (vs.map .scalar)).bytes true = [] := hnil
      exact ElementType.body_ne_nil (hty v (.head _)) (hty w (.tail _ (.head _))) hempty
        (List.append_eq_nil_iff.1 happend).1

section
variable {c : Context} {live : Finset Slot} {b : Buffer} {ty : ElementType} {vs : List Scalar}

theorem arrayCalls_parts (vs : List Scalar) :
    (CallTree.leaves (vs.map .scalar)).parts Former.array32.isArray = vs.map (Scalar.part true) := by
  rw [CallTree.parts_leaves, List.map_map]
  rfl

theorem arrayCalls_values (vs : List Scalar) :
    (arrayCalls vs).values = .container .array32 (.scalars vs) .nil := by
  simp [arrayCalls, CallTree.values, Function.comp_def, Leaf.value]

variable (hne : vs ≠ []) (hty : ∀ v ∈ vs, ty.admits v = true)

include hne

theorem arrayCalls_length : (CallTree.leaves (vs.map .scalar)).length ≠ 0 := by
  rw [CallTree.length_leaves, List.length_map]
  exact fun h => hne (List.eq_nil_of_length_eq_zero h)

include hty

/-- The calls for values of one type. -/
theorem arrayCalls_encode (hr : Ready AmqpType.Blank c live) (hc : c.container = none)
    (hroom : b.size + (arrayCalls vs).wire.length < b.capacity) :
    ∃ s types c' b' live', (arrayCalls vs).encode c b = .ok (some s :: types, c', b') ∧
      Appends b b' (arrayCalls vs).wire ∧ Ready AmqpType.Blank c' live' ∧
      (c'.isValid (some s) = true ↔ ∀ v ∈ vs, ∀ w ∈ vs, v.codeWidth = w.codeWidth) := by
  have hthird : (CallTree.container .array32 (.leaves (vs.map .scalar)) .nil).NoThird :=
    ⟨nofun, CallTree.leaves_noThird _, trivial⟩
  obtain ⟨s, types, c1, b1, live1, hcall, hw, hr1, -, hvalid⟩ := CallTree.encode_container hr hc hthird
    (.inr ⟨⟨arrayCalls_length hne, CallTree.leaves_filled _, trivial⟩, hroom⟩)
  rw [arrayCalls_parts, ElementType.codes_iff hty, forall_prop_of_true (by rfl)] at hvalid
  exact ⟨s, types, c1, b1, live1, hcall, hw, hr1, hvalid⟩

omit hne in
theorem arrayCalls_oneCode (h : ∀ v ∈ vs, ∀ w ∈ vs, v.codeWidth = w.codeWidth) :
    (arrayCalls vs).OneCode := by
  refine ⟨fun _ => ?_, CallTree.leaves_oneCode _, trivial⟩
  rwa [show true = Former.array32.isArray from rfl, arrayCalls_parts, ElementType.codes_iff hty]

theorem arrayCalls_inPlace_iff (hspelled : ∀ v ∈ vs, v.spelled = true)
    (hroom : b.size + (arrayCalls vs).wire.length < b.capacity) :
    (arrayCalls vs).InPlace false false ↔
      (∀ v ∈ vs.getLast?, v.isEmptyText = false) ∧ vs.length < Buffer.sizeError := by
  have hsize : ∀ v ∈ vs, (v.encoding false).2.length < Buffer.sizeError := by
    intro v hv
    have h1 := CallTree.length_le_wire (k := .array32) rfl (List.mem_map_of_mem (f := Leaf.scalar) hv)
    have h2 := v.length_encoding
    have h3 := b.capacity_le
    have h4 : (arrayCalls vs).wire.length < amqpBufferMaxSize := by omega
    simp only [amqpBufferMaxSize, Buffer.sizeError] at h4 ⊢
    exact Nat.lt_of_le_of_lt (h2.trans h1) (Nat.lt_trans h4 (by decide))
  have hcount : Former.array32.Counts false vs.length ↔ vs.length < Buffer.sizeError := by
    have hne0 : vs.length ≠ 0 := fun h => hne (List.eq_nil_of_length_eq_zero h)
    simp only [Former.Counts, Former.metaData, EncodingMetaData.array32, Buffer.sizeError]
    simp only [reduceCtorEq, if_false, hne0, implies_true, true_and]
    omega
  rw [← ElementType.inPlace_iff hty hspelled hsize, arrayCalls, CallTree.InPlace, CallTree.length_leaves,
    List.length_map]
  exact ⟨fun h => ⟨h.2.1, hcount.1 h.1⟩, fun h => ⟨hcount.2 h.2, h.1, trivial⟩⟩

variable (hr : Ready AmqpType.Blank c live) (hc : c.container = none)
  (hspelled : ∀ v ∈ vs, v.spelled = true)
  (hroom : b.size + (arrayCalls vs).wire.length < b.capacity)

include hr hc hspelled hroom

theorem ArrayRoundTrips.uniform (h : ArrayRoundTrips c b vs) : Uniform vs := by
  obtain ⟨array, types, c1, b1, hcall, hval, hregains⟩ := h
  obtain ⟨s, types', c1', b1', live1, hcall', hw, hr1, hvalid⟩ := arrayCalls_encode hne hty hr hc hroom
  obtain ⟨⟨rfl, rfl⟩, rfl, rfl⟩ : (array = some s ∧ types = types') ∧ c1 = c1' ∧ b1 = b1' := by
    simpa using hcall.symm.trans hcall'
  have hwidths := hvalid.1 hval
  rw [← arrayCalls_values] at hregains
  have hplace := CallTree.inPlace_of_regains hr1 hw hroom.le rfl (arrayCalls_oneCode hty hwidths)
    ⟨fun _ => arrayCalls_length hne, CallTree.leaves_noEmptyArray _, trivial⟩ hregains
  exact ⟨hwidths, (arrayCalls_inPlace_iff hne hty hspelled hroom).1 hplace⟩

theorem Uniform.roundTrips (h : Uniform vs) : ArrayRoundTrips c b vs := by
  obtain ⟨hwidths, hlast⟩ := h
  obtain ⟨s, types, c1, b1, live1, hcall, hw, hr1, hvalid⟩ := arrayCalls_encode hne hty hr hc hroom
  refine ⟨some s, types, c1, b1, hcall, hvalid.2 hwidths, ?_⟩
  rw [← arrayCalls_values]
  have hplace := (arrayCalls_inPlace_iff hne hty hspelled hroom).2 hlast
  exact (CallTree.regains_written hr1 hw hroom.le rfl (arrayCalls_oneCode hty hwidths) hplace).regains

/-- The values of one type go through an `array_32` exactly if they are uniform. -/
theorem arrayRoundTrips_iff : ArrayRoundTrips c b vs ↔ Uniform vs :=
  ⟨ArrayRoundTrips.uniform hne hty hr hc hspelled hroom, Uniform.roundTrips hne hty hr hc hspelled hroom⟩

end

theorem arrayRoundTrips_iff_small : ArrayRoundTrips (Context.create Malloc.bump 21) (.received [])
      [.int 1, .int (-3)] ↔ Uniform [.int 1, .int (-3)] :=
  arrayRoundTrips_iff (by decide) (show ∀ v ∈ _, ElementType.int.admits v = true by decide)
    (create_ready Malloc.bump (by decide) (by decide)).blank rfl (by decide) (by decide +kernel)

/-- 1 has an encoding of one byte, 1000 has not. -/
theorem not_arrayRoundTrips_mixed : ¬ ArrayRoundTrips (Context.create Malloc.bump 21) (.received [])
    [.int 1, .int 1000] := by
  intro h
  have huniform := h.uniform (by decide) (show ∀ v ∈ _, ElementType.int.admits v = true by decide)
    (create_ready Malloc.bump (by decide) (by decide)).blank rfl (by decide) (by decide +kernel)
  exact absurd huniform.1 (by decide)

end Amqp
