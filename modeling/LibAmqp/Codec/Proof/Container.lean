import LibAmqp.Codec.Proof.Simulate

/-!
# Decoders of containers

One step of the recursion: if the decoder of the elements follows the outline, so do the decoders
of lists, maps, arrays and described types. `decodeTypeIntoResult_simulates` is the induction, and
`amqpDecode_lays` and `amqpDecode_unsupported` say what that means for `amqp_decode`.
-/

namespace Amqp

open Lib Memory

section
variable {b : Buffer} {m : EncodingMetaData} {t : AmqpType}

/-- `amqp_construct_container_type`, by the outline's size field. -/
theorem constructContainer_eq (hw : m.width = 1 ∨ m.width = 4) :
    amqpConstructContainerType b m t = match b.input.field m.width b.index with
      | (none, j) => .ok (false, { b with index := j }, t.markInvalid .bufferWouldOverrun)
      | (some size, j) =>
        if b.input.Available j size then
          .ok (true, { b with index := j }, { t with position := ⟨j, size⟩ })
        else .ok (false, { b with index := j }, t.markInvalid .bufferWouldOverrun) := by
  rw [amqpConstructContainerType, getVariableTypeSize_eq hw]
  rcases hr : b.input.field m.width b.index with ⟨_ | size, j⟩
  · rfl
  · simp only
    split
    · simp only [Fault.ok_bind, if_neg (field_ne_sizeError hr)]
    · rfl

/-- `get_variable_type_count`, by the outline's count field. -/
theorem getVariableTypeCount_eq (hw : m.width = 1 ∨ m.width = 4) :
    getVariableTypeCount b m t = match b.input.field m.width b.index with
      | (none, k) => .ok (Buffer.sizeError, { b with index := k }, t.markInvalid .variableTypeMalformed)
      | (some count, k) => .ok (count, { b with index := k }, t) := by
  have hf : b.input.field m.width b.index = Buffer.readField b.byteAt b.size m.width b.index := rfl
  rw [getVariableTypeCount, Buffer.readSizeField_eq b hw, Fault.ok_bind, ← hf]
  rcases hr : b.input.field m.width b.index with ⟨_ | count, k⟩
  · rfl
  · simp only [Option.getD_some, if_neg (field_ne_sizeError hr)]

end

section
variable {P : AmqpType → Prop} {inp : Input} {recurse : Recurse} {fuel : Nat} {c : Context}
  {live : Finset Slot} {b : Buffer} {m : EncodingMetaData} {t : AmqpType} {start : Nat} {s : Slot}

/-- One step of the simulation, for the decoder of one format code. -/
def CallSimulates (P : AmqpType → Prop) (inp : Input) (recurse : Recurse) (fuel : Nat)
    (c : Context) (live : Finset Slot) (b : Buffer) (m : EncodingMetaData) (t : AmqpType)
    (start : Nat) (s : Slot) : Prop :=
  ((walkInto inp (fuel + 1) m start b.index).Supported → ∃ c' t' n kids, n.slot = s ∧
    m.typeDecoder.call recurse c b m t =
      .ok ((walkInto inp (fuel + 1) m start b.index).1.accepted, c',
        { b with index := (walkInto inp (fuel + 1) m start b.index).1.stop }, t') ∧
    Fills P inp b.address c live m (walkInto inp (fuel + 1) m start b.index) t c' t' n kids) ∧
  (¬ (walkInto inp (fuel + 1) m start b.index).Supported →
    m.typeDecoder.call recurse c b m t = .error .notImplemented)

/-- A type that took nothing from the pool. -/
theorem Fills.plain {o : Outline} {address : Nat} {t' : AmqpType} {n : Node} (hr : Ready P c live)
    (hitem : n.item = o.1) (hout : o.2 = .nil) (harr : n.array = none) (hhold : n.holder = none)
    (hf : Filled inp address m n .nil t t') : Fills P inp address c live m o t c t' n .nil where
  item := hitem
  outline := hout.symm
  grows := by
    rw [harr, hhold]
    exact .refl hr.held
  trace := by simp [Layout.events, Forest.labels]
  laid := trivial
  filled := hf
  elements a ha := by rw [harr] at ha; cases ha
  holder h hh := by rw [hhold] at hh; cases hh

/-- A decoder that failed before it took anything from the pool. -/
theorem CallSimulates.failed {item : Item} (t' : AmqpType) (code : ErrorCode) (hr : Ready P c live)
    (hwalk : walkInto inp (fuel + 1) m start b.index = (item, .nil)) (hacc : item.accepted = false)
    (hkind : m.kind = .compound ∨ m.kind = .array) (hm : m ∈ typeLookupTable.toList)
    (hcall : m.typeDecoder.call recurse c b m t =
      .ok (false, c, { b with index := item.stop }, t'.markInvalid code))
    (hcon : t'.constructor = t.constructor) (hsav : t'.savedContainer = t.savedContainer)
    (hleft : LeftOver b.address m item t t') (hstop : item.stop ≠ item.index + m.width + 1) :
    CallSimulates P inp recurse fuel c live b m t start s := by
  have hcode := (walkInto_code inp (fuel + 1) m start b.index).1
  unfold CallSimulates
  rw [hwalk] at hcode ⊢
  have hsupp : Outline.Supported (item, .nil) := by
    refine ⟨?_, trivial⟩
    simp only at hcode
    rw [Item.Supported, Item.kind, Item.metaData, hcode, lookup_self m hm, Option.map_some]
    rcases hkind with h | h <;> rw [h] <;> decide
  refine ⟨fun _ => ⟨c, _, ⟨s, item, none, none⟩, .nil, rfl, by rw [hcall, hacc], ?_⟩,
    fun h => absurd hsupp h⟩
  refine Fills.plain hr rfl rfl rfl rfl (Filled.error code hacc rfl rfl (.inr (.inr hkind)) hcon
    hsav hleft fun _ => ?_)
  rw [Item.elementCode, hacc, Bool.false_or, if_neg]
  simpa using hstop

theorem arrayLength_split (count : Nat) :
    count + (Context.arrayLength count - count) = Context.arrayLength count := by
  unfold Context.arrayLength
  omega

theorem replicate_split (count : Nat) :
    List.replicate (Context.arrayLength count) (none : Option Slot) =
      [] ++ (List.replicate count none ++
        List.replicate (Context.arrayLength count - count) none) := by
  rw [List.nil_append, List.replicate_append_replicate, arrayLength_split]

theorem Layout.length_pointers (F : Layout) : F.pointers.length = F.length := by
  simp [Layout.pointers]

/-- The pointers to the types of a list, with null pointers behind them. -/
theorem arrayHolds_pointers (F : Layout) {k : Nat} (hk : F.length + k = Context.arrayLength F.length) :
    ([] ++ (F.pointers ++ List.replicate k none)).length = Context.arrayLength F.length ∧
    ([] ++ (F.pointers ++ List.replicate k none)).take F.length = F.pointers ∧
    ∀ x ∈ ([] ++ (F.pointers ++ List.replicate k none)).drop F.length, x = none := by
  rw [← hk, List.nil_append, ← F.length_pointers]
  refine ⟨by simp, List.take_left, ?_⟩
  rw [List.drop_left]
  exact fun x hx => List.eq_of_mem_replicate hx

/-- The size and count fields of a list, map or array, before its elements. -/
def withFields (c : Context) (b : Buffer) (m : EncodingMetaData) (t : AmqpType)
    (body : Nat → Buffer → AmqpType → ContainerDecoding) : ContainerDecoding := do
  let (rc, b, type) ← amqpConstructContainerType b m t
  if rc then do
    let (count, b, type) ← getVariableTypeCount b m type
    if count = Buffer.sizeError then .ok (false, c, b, type)
    else body count b type
  else .ok (false, c, b, type)

/-- A container whose fields are there goes on with its elements, and fails otherwise. -/
theorem withFields_simulates {body : Nat → Buffer → AmqpType → ContainerDecoding}
    {elements : Nat → Nat → Nat → Nat → Outline} (hb : b.input = inp) (hr : Ready P c live)
    (hm : m ∈ typeLookupTable.toList) (hk : m.kind = .compound ∨ m.kind = .array)
    (hcall : m.typeDecoder.call recurse c b m t = withFields c b m t body)
    (hwalk : walkInto inp (fuel + 1) m start b.index = walkContainer inp m start b.index elements)
    (hbody : ∀ size count, inp.field m.width b.index = (some size, b.index + m.width) →
      b.index + m.width + m.width ≤ inp.size →
      inp.field m.width (b.index + m.width) = (some count, b.index + m.width + m.width) →
      let o := elements (b.index + m.width) size count (b.index + m.width + m.width)
      let body := body count { b with index := b.index + m.width + m.width }
        { t with position := ⟨b.index + m.width, size⟩ }
      (o.Supported → ∃ c' t' n kids, n.slot = s ∧
        body = .ok (o.1.accepted, c', { b with index := o.1.stop }, t') ∧
        Fills P inp b.address c live m o t c' t' n kids) ∧
      (¬ o.Supported → body = .error .notImplemented)) :
    CallSimulates P inp recurse fuel c live b m t start s := by
  have hw := field_width hm (.inr hk)
  have hcon := constructContainer_eq (b := b) (t := t) hw
  rw [hb] at hcon
  rcases walkContainer_cases inp m start b.index elements with ⟨j, hf, h⟩ | ⟨size, j, hf, ha, h⟩ |
    ⟨size, j, k, hf, ha, hf2, h⟩ | ⟨size, j, count, k, hf, ha, hf2, h⟩
  · simp only [hf] at hcon
    refine .failed t .bufferWouldOverrun hr (hwalk.trans h) rfl hk hm ?_ rfl rfl
      (.inl ⟨rfl, rfl, rfl⟩) (by simp only; omega)
    rw [hcall, withFields, hcon]
    rfl
  · simp only [hf, if_neg ha] at hcon
    refine .failed t .bufferWouldOverrun hr (hwalk.trans h) rfl hk hm ?_ rfl rfl
      (.inl ⟨rfl, rfl, rfl⟩) (by simp only; omega)
    rw [hcall, withFields, hcon]
    rfl
  · have hcnt := getVariableTypeCount_eq (b := { b with index := j })
      (t := { t with position := ⟨j, size⟩ }) hw
    rw [show ({ b with index := j } : Buffer).input = inp from hb] at hcnt
    simp only [hf, if_pos ha] at hcon
    simp only [hf2] at hcnt
    refine .failed { t with position := ⟨j, size⟩ } .variableTypeMalformed hr (hwalk.trans h) rfl hk
      hm ?_ rfl rfl (.inr ⟨rfl, fun h => ?_, fun h => ?_, fun _ => rfl⟩) ?_
    rotate_left
    · rcases hk with h' | h' <;> rw [h] at h' <;> cases h'
    · rcases hk with h' | h' <;> rw [h] at h' <;> cases h'
    · have := field_none hf2
      simp only
      omega
    rw [hcall, withFields, hcon]
    simp only [Fault.ok_bind, if_true, hcnt]
  · have hcnt := getVariableTypeCount_eq (b := { b with index := j })
      (t := { t with position := ⟨j, size⟩ }) hw
    rw [show ({ b with index := j } : Buffer).input = inp from hb] at hcnt
    simp only [hf, if_pos ha] at hcon
    simp only [hf2] at hcnt
    have hne := field_ne_sizeError hf2
    obtain ⟨hj, rfl⟩ := field_some hf
    obtain ⟨hk2, rfl⟩ := field_some hf2
    have hgo : m.typeDecoder.call recurse c b m t = body count
        { b with index := b.index + m.width + m.width }
        { t with position := ⟨b.index + m.width, size⟩ } := by
      rw [hcall, withFields, hcon]
      simp only [Fault.ok_bind, if_true, hcnt, if_neg hne]
    unfold CallSimulates
    rw [hwalk, h, hgo]
    exact hbody size count hf hk2 hf2

/-- A container of elements that were all decoded, in an array of its own. -/
theorem Filled.elements_ok (inp : Input) (address : Nat) (kids : Layout) {n : Node} {a : Nat}
    (hacc : n.item.accepted = true)
    (harr : n.array = some a) (hk : m.kind = .compound ∨ m.kind = .array)
    (hhold : n.holder = none ↔ m.kind = .compound)
    (hcode : m.kind = .array → n.holder.map Holder.code = n.item.elementCode inp m)
    (hpos : m.kind = .array → 0 < kids.length) :
    Filled inp address m n kids t { t with
      position := ⟨n.item.index, n.item.size⟩
      value := ⟨kids.length, a, (n.holder.map Holder.slot).or t.value.constructor⟩ } := by
  have hnl : ∀ {p : Prop}, m.kind.IsLeaf → p := by
    rintro p (h | h | h) <;> rcases hk with h' | h' <;> rw [h] at h' <;> cases h'
  constructor
  · exact fun _ => ⟨rfl, rfl, rfl⟩
  · intro h; rw [hacc] at h; cases h
  · rfl
  · exact fun h => hnl h
  · intro _
    rw [harr]
    exact ⟨rfl, rfl, fun h => (nomatch h), fun _ => rfl⟩
  · intro _ h
    rw [harr]
    exact ⟨by simp, hhold.2 h⟩
  · intro _ h
    refine ⟨fun hn => ?_, rfl⟩
    rw [hhold.1 hn] at h
    cases h
  · intro h
    rcases hk with h' | h' <;> rw [h] at h' <;> cases h'
  · intro h
    rcases hk with h' | h'
    · exact hhold.2 h'
    · exact absurd h' h
  · exact .inr (hk.imp_right .inl)
  · exact fun _ => hacc
  · intro h; rw [hacc] at h; cases h
  · exact fun _ => rfl
  · exact hcode
  · rw [harr, Item.hasArray]
    rcases hk with h | h
    · rw [h, hacc]
      rfl
    · simp [h, hacc, hpos h]

theorem call_compound_eq (recurse : Recurse) (c : Context) (b : Buffer) (t : AmqpType)
    (hk : m.kind = .compound) :
    m.typeDecoder.call recurse c b m t = withFields c b m t (fun count b type => do
      let (elements, c) ← c.allocateArray count
      let type := { type with value := { type.value with word := count, elements := elements } }
      let (c, b) ← decodeElements (amqpDecodeWith recurse) elements count 0 c b
      .ok (true, c, b, type)) := by
  simp only [EncodingMetaData.kind] at hk
  generalize m.typeDecoder = d at hk
  cases d <;> simp only [TypeDecoder.kind, reduceCtorEq] at hk <;> rfl

theorem call_compound_walk (inp : Input) (fuel start i : Nat) (hk : m.kind = .compound) :
    walkInto inp (fuel + 1) m start i = walkContainer inp m start i
      fun j size count k =>
        let (kids, l) := walkMany (walkDecode (walkInto inp fuel) inp) count k
        (⟨m.formatCode, start, l, true, j, size⟩, kids) := by
  rw [walkInto, hk]

/-- Lists and maps. -/
theorem call_compound (hsim : StepSimulates P inp (amqpDecodeWith recurse)
      (walkDecode (walkInto inp fuel) inp) fuel) (hb : b.input = inp) (hr : Ready P c live)
    (hbound : b.size - b.index ≤ fuel) (hm : m ∈ typeLookupTable.toList)
    (hk : m.kind = .compound) : CallSimulates P inp recurse fuel c live b m t start s := by
  refine withFields_simulates hb hr hm (.inl hk) (call_compound_eq recurse c b t hk)
    (call_compound_walk inp fuel start b.index hk) fun size count hf hle hf2 => ?_
  have hsz : inp.size = b.size := by rw [← hb]; rfl
  have hlen : (walkMany (walkDecode (walkInto inp fuel) inp) count
    (b.index + m.width + m.width)).1.length = count := walkMany_length _ count _
  obtain ⟨a, c1, halloc, hg1, htr1, -, hget1⟩ := allocateArray_spec hr count
  rw [replicate_split] at hget1
  obtain ⟨hok, herr⟩ := decodeElements_spec hsim
    (fun i hi => walkDecode_bounds (walkInto_bounds inp fuel) hi) a count
    (b := { b with index := b.index + m.width + m.width }) [] _ hb (hr.grow hg1)
    (by rw [← hsz]; exact hle) (by simp only; omega) hget1
  have hsupp : Item.Supported ⟨m.formatCode, start, (walkMany (walkDecode (walkInto inp fuel) inp)
      count (b.index + m.width + m.width)).2, true, b.index + m.width, size⟩ (walkMany
      (walkDecode (walkInto inp fuel) inp) count (b.index + m.width + m.width)).1 := by
    rw [Item.Supported, Item.kind, Item.metaData, lookup_self m hm, Option.map_some, hk]
    decide
  simp only [halloc, Fault.ok_bind]
  refine ⟨fun hs => ?_, fun hs => ?_⟩
  · obtain ⟨c2, F, hrun, hlays, hget2⟩ := hok hs.2
    have hFlen : F.length = count := by
      rw [← hlen, ← hlays.outline, Layout.outline, Forest.length_map]
    have hnil : ([] : List (Option Slot)).length = 0 := rfl
    rw [hnil] at hrun
    refine ⟨c2, _, ⟨s, ⟨m.formatCode, start, _, true, b.index + m.width, size⟩, some a, none⟩, F, rfl,
      by rw [hrun]; rfl, ⟨rfl, hlays.outline, ?_, ?_, hlays.laid, ?_, ?_, ?_⟩⟩
    · have := hg1.trans_new hlays.grows
      simpa using this
    · rw [hlays.trace, htr1]
    · have := Filled.elements_ok inp b.address F (t := t)
        (n := ⟨s, ⟨m.formatCode, start, (walkMany (walkDecode (walkInto inp fuel) inp)
          count (b.index + m.width + m.width)).2, true, b.index + m.width, size⟩, some a, none⟩)
        rfl rfl (.inl hk) (by simp [hk]) (by rw [hk]; exact fun h => by cases h)
        (by rw [hk]; exact fun h => by cases h)
      simpa [hFlen] using this
    · intro x hx
      cases hx
      exact ⟨_, hget2, arrayHolds_pointers F (by rw [hFlen]; exact arrayLength_split count)⟩
    · intro h hh
      cases hh
  · have : ¬ (walkMany (walkDecode (walkInto inp fuel) inp) count
        (b.index + m.width + m.width)).1.All Item.Supported := fun hkids => hs ⟨hsupp, hkids⟩
    have hnil : ([] : List (Option Slot)).length = 0 := rfl
    rw [hnil] at herr
    rw [herr this, Fault.error_bind]

/-- An array that got as far as the constructor of its elements, but has no element array. -/
theorem Filled.array_empty {n : Node} {address count : Nat} {h : Holder} {t' : AmqpType}
    (harr : n.array = none) (hhold : n.holder = some h) (hk : m.kind = .array)
    (hacc : n.item.accepted = true → count = 0 ∧ t' = { t with
      position := ⟨n.item.index, n.item.size⟩
      value := { t.value with word := count, constructor := some h.slot } })
    (hrej : n.item.accepted = false → ∃ code, t' = ({ t with
      position := ⟨n.item.index, n.item.size⟩
      value := { t.value with word := count, constructor := some h.slot } } : AmqpType).markInvalid
        code) (hcode : some h.code = n.item.elementCode inp m) :
    Filled inp address m n .nil t t' := by
  have hnl : ∀ {p : Prop}, m.kind.IsLeaf → p := by
    rintro p (h | h | h) <;> rw [hk] at h <;> cases h
  have hval : t'.value = { t.value with word := count, constructor := some h.slot } ∧
      t'.savedContainer = t.savedContainer := by
    cases hb : n.item.accepted with
    | true => rw [(hacc hb).2]; exact ⟨rfl, rfl⟩
    | false => obtain ⟨code, rfl⟩ := hrej hb; exact ⟨rfl, rfl⟩
  constructor
  · intro h'
    rw [(hacc h').2]
    exact ⟨rfl, rfl, rfl⟩
  · intro h'
    obtain ⟨code, rfl⟩ := hrej h'
    exact ⟨rfl, rfl⟩
  · exact hval.2
  · exact fun h' => hnl h'
  · intro _
    rw [harr, hhold, hval.1]
    exact ⟨rfl, rfl, fun _ => rfl, fun h' => absurd rfl h'⟩
  · intro _ h'; rw [hk] at h'; cases h'
  · intro h' _
    rw [hhold, hval.1]
    exact ⟨by simp, (hacc h').1⟩
  · intro h'; rw [hk] at h'; cases h'
  · exact fun h' => absurd hk h'
  · exact .inr (.inr (.inl hk))
  · intro h'; rw [hk] at h'; cases h'
  · intro _ _ h'
    rw [hhold] at h'
    cases h'
  · intro _
    cases hb : n.item.accepted with
    | true => rw [(hacc hb).2]
    | false => obtain ⟨code, rfl⟩ := hrej hb; rfl
  · rw [hhold]
    exact fun _ => hcode
  · rw [harr, Item.hasArray, hk]
    exact (Bool.and_false _).symm

theorem call_array_eq (recurse : Recurse) (c : Context) (b : Buffer) (t : AmqpType) (hk : m.kind = .array) :
    m.typeDecoder.call recurse c b m t = withFields c b m t (fun count b type => do
      let (s, c) ← c.allocateType
      let type := { type with value := { type.value with word := count, constructor := some s } }
      let holder ← c.load s
      let (rc, b, constructor) ← decodeTypeConstructor b holder.constructor
      let c := c.store s { holder with constructor := constructor }
      if !rc then .ok (false, c, b, type.markInvalid .unknownArrayElementFormatCode)
      else if 0 < count then do
        let (elements, c) ← c.allocateArray count
        let type := { type with value := { type.value with elements := elements } }
        let (c, b) ←
          decodeElements (amqpDecodeArrayElement recurse constructor) elements count 0 c b
        .ok (true, c, b, type)
      else .ok (true, c, b, type)) := by
  simp only [EncodingMetaData.kind] at hk
  generalize m.typeDecoder = d at hk
  cases d <;> simp only [TypeDecoder.kind, reduceCtorEq] at hk <;> rfl

theorem call_array_walk (inp : Input) (fuel start i : Nat) (hk : m.kind = .array) :
    walkInto inp (fuel + 1) m start i = walkContainer inp m start i
      fun j size count k => match amqpTypeMetaDataLookup (arrayConstructor inp k).1 with
        | none => (⟨m.formatCode, start, (arrayConstructor inp k).2, false, j, size⟩, .nil)
        | some element =>
          let (kids, l) := walkMany (fun i => some (walkInto inp fuel element i i)) count
            (arrayConstructor inp k).2
          (⟨m.formatCode, start, l, true, j, size⟩, kids) := by
  rewrite [walkInto, hk]
  rfl

/-- Arrays. -/
theorem call_array (hsim : Simulates P inp recurse (walkInto inp fuel) fuel) (hb : b.input = inp)
    (hr : Ready P c live) (hbound : b.size - b.index ≤ fuel) (hm : m ∈ typeLookupTable.toList)
    (hk : m.kind = .array) : CallSimulates P inp recurse fuel c live b m t start s := by
  refine withFields_simulates hb hr hm (.inr hk) (call_array_eq recurse c b t hk)
    (call_array_walk inp fuel start b.index hk) fun size count hf hle hf2 => ?_
  have hsz : inp.size = b.size := by rw [← hb]; rfl
  have hw := field_width hm (.inr (.inr hk))
  have hsupp : ∀ stop acc kids, Item.Supported ⟨m.formatCode, start, stop, acc, b.index + m.width,
      size⟩ kids := by
    intro stop acc kids
    rw [Item.Supported, Item.kind, Item.metaData, lookup_self m hm, Option.map_some, hk]
    decide
  -- the type of the constructor
  obtain ⟨d, c1, stale, hall, hg1, htr1, hP, hload1, hsame1⟩ := allocateType_spec hr
  have hctor := arrayConstructor_bounds hle
  have hrest : b.size - (arrayConstructor inp (b.index + m.width + m.width)).2 < fuel := by omega
  have hdec := decodeTypeConstructor_eq { b with index := b.index + m.width + m.width }
    stale.initializeAmqpType.constructor
  rw [show ({ b with index := b.index + m.width + m.width } : Buffer).input = inp from hb] at hdec
  simp only [hall, hload1, hdec, Fault.ok_bind]
  have hpast : amqpTypeMetaDataLookup (arrayConstructor inp (b.index + m.width + m.width)).1 = none →
      (arrayConstructor inp (b.index + m.width + m.width)).2 = b.index + m.width + m.width + 1 := by
    unfold arrayConstructor
    split
    · exact fun _ => rfl
    · exact fun h => by cases h
  have hcode : ∃ ctor, arrayConstructor inp (b.index + m.width + m.width) = ctor := ⟨_, rfl⟩
  obtain ⟨ctor, hcode⟩ := hcode
  rw [hcode] at hctor hrest hpast ⊢
  obtain ⟨t0, ht0⟩ := hg1.load_new (List.mem_singleton_self d)
  have hholds : ∀ k : TypeConstructor, ConstructorFits stale ctor.1 k →
      HoldsType (c1.store d { stale.initializeAmqpType with constructor := k }) d
        (HolderFits P ctor.1) := by
    intro k hkf
    refine ⟨{ stale with constructor := k }, 0#32, by decide, ⟨stale, k, hP, hkf, rfl⟩, ?_⟩
    rw [AmqpType.typedefFlagsSet_zero]
    exact load_store_self ht0
  cases hlook : amqpTypeMetaDataLookup ctor.1 with
  | none =>
    simp only [Option.isSome_none, Bool.not_false, if_true]
    refine ⟨fun _ => ⟨_, _, ⟨s, ⟨m.formatCode, start, ctor.2, false, b.index + m.width, size⟩, none,
      some ⟨d, ctor.1⟩⟩, .nil, rfl, rfl, ⟨rfl, rfl, ?_, ?_, trivial, ?_, ?_, ?_⟩⟩,
      fun hs => absurd ⟨hsupp _ _ _, trivial⟩ hs⟩
    · exact hg1.store (List.mem_singleton_self d) _
    · simp only [Context.store, htr1, Layout.events, Forest.labels, List.map_nil, List.append_nil]
    · refine Filled.array_empty rfl rfl hk (fun h => (by cases h)) (fun _ => ⟨_, rfl⟩) ?_
      rw [Item.elementCode, if_pos, hcode]
      simp only [Bool.false_or, beq_iff_eq]
      exact hpast hlook
    · exact fun a ha => by cases ha
    · intro h hh
      cases hh
      refine ⟨hholds { stale.initializeAmqpType.constructor with formatCode := ctor.1 } ⟨rfl, ?_⟩,
        fun kid hkid => by cases hkid⟩
      rw [hlook]
      exact ⟨rfl, rfl⟩
  | some element =>
    have hel := lookup_mem hlook
    set k : TypeConstructor := ⟨some element, element.typedefFlags, ctor.1, 0⟩ with hkdef
    set c2 := c1.store d { stale.initializeAmqpType with constructor := k } with hc2
    have hg2 : Grows P 0 c live c2 [d] [] := hg1.store (List.mem_singleton_self d) _
    have htr2 : c2.trace = c.trace := htr1
    have hkf := hholds k ⟨rfl, by rw [hlook]; exact ⟨rfl, rfl⟩⟩
    rw [← hc2] at hkf
    have hkids : ∀ (F : Layout) i, F.outline =
        (walkMany (fun i => some (walkInto inp fuel element i i)) count i).1 →
        ∀ kid, some kid ∈ F.roots → kid.item.code = ctor.1 := by
      intro F i hout kid hkid
      have hcode := walkMany_roots (fun i => some (walkInto inp fuel element i i))
        (q := fun item => item.code = ctor.1) (fun i o ho => by
          cases ho
          exact (walkInto_code inp fuel element i i).1.trans hel.2) count i kid.item
      refine hcode ?_
      rw [← hout, Layout.outline, Forest.roots_map]
      exact List.mem_map.2 ⟨some kid, hkid, rfl⟩
    simp only [Option.isSome_some, Bool.not_true, Bool.false_eq_true, if_false]
    by_cases hcount : 0 < count
    · obtain ⟨a, c3, halloc, hg3, htr3, htypes3, hget3⟩ := allocateArray_spec (hr.grow hg2) count
      rw [replicate_split] at hget3
      obtain ⟨hok, herr⟩ := decodeElements_spec
        (amqpDecodeArrayElement_simulates hsim (walkInto_code inp fuel) hel.1
          (k := k) ⟨rfl, rfl, hel.2.symm⟩ hrest)
        (fun i hi => walkInto_bounds inp fuel element i i hi) a count
        (b := { b with index := ctor.2 }) [] _ hb ((hr.grow hg2).grow hg3)
        (by rw [← hsz]; exact hctor.2) (Nat.le_refl _) hget3
      rw [List.length_nil] at hok herr
      rw [if_pos hcount]
      simp only [halloc, Fault.ok_bind]
      refine ⟨fun hs => ?_, fun hs => ?_⟩
      · obtain ⟨c4, F, hrun, hlays, hget4⟩ := hok hs.2
        have hFlen : F.length = count := by
          rw [← walkMany_length (fun i => some (walkInto inp fuel element i i)) count ctor.2,
            ← hlays.outline, Layout.outline, Forest.length_map]
        refine ⟨c4, _, ⟨s, ⟨m.formatCode, start, _, true, b.index + m.width, size⟩, some a,
          some ⟨d, ctor.1⟩⟩, F, rfl, by rw [hrun]; rfl, ⟨rfl, hlays.outline, ?_, ?_, hlays.laid, ?_,
          ?_, ?_⟩⟩
        · simpa using hg2.trans (hg3.trans_new hlays.grows)
        · rw [hlays.trace, htr3, htr2]
        · have := Filled.elements_ok inp b.address F (t := t)
            (n := ⟨s, ⟨m.formatCode, start, (walkMany (fun i => some (walkInto inp fuel element i i))
              count ctor.2).2, true, b.index + m.width, size⟩, some a, some ⟨d, ctor.1⟩⟩)
            rfl rfl (.inr hk) (by simp [hk]) (fun _ => by rw [Item.elementCode, hcode]; rfl)
            fun _ => by rw [hFlen]; exact hcount
          simpa [hFlen] using this
        · intro x hx
          cases hx
          exact ⟨_, hget4, arrayHolds_pointers F (by rw [hFlen]; exact arrayLength_split count)⟩
        · intro h hh
          cases hh
          refine ⟨hkf.congr ?_, hkids F _ hlays.outline⟩
          rw [hlays.grows.load d (by simp), htypes3]
      · rw [herr fun hkids => hs ⟨hsupp _ _ _, hkids⟩, Fault.error_bind]
    · have hzero : count = 0 := by omega
      subst hzero
      rw [if_neg hcount]
      refine ⟨fun _ => ⟨c2, _, ⟨s, ⟨m.formatCode, start, ctor.2, true, b.index + m.width, size⟩, none,
        some ⟨d, ctor.1⟩⟩, .nil, rfl, rfl, ⟨rfl, rfl, hg2, ?_, trivial, ?_, ?_, ?_⟩⟩,
        fun hs => absurd ⟨hsupp _ _ _, trivial⟩ hs⟩
      · rw [htr2]; simp [Layout.events, Forest.labels]
      · exact Filled.array_empty rfl rfl hk (fun _ => ⟨rfl, rfl⟩) (fun h => by cases h)
          (by rw [Item.elementCode, hcode]; rfl)
      · exact fun a ha => by cases ha
      · intro h hh
        cases hh
        exact ⟨hkf, fun kid hkid => by cases hkid⟩

/-- A described type, whatever became of its two members. -/
theorem Filled.described_any {n : Node} {kids : Layout} {address a : Nat} {t' : AmqpType}
    (harr : n.array = some a) (hhold : n.holder = none) (hk : m.kind = .described)
    (hlen : kids.length = 2)
    (hacc : n.item.accepted = true → t' = { t with
      position := ⟨n.item.index, n.item.size⟩
      value := { t.value with word := 2, elements := a } })
    (hrej : n.item.accepted = false → ∃ code, t' = ({ t with
      position := ⟨n.item.index, n.item.size⟩, value := { t.value with word := 2, elements := a } } : AmqpType).markInvalid
        code) : Filled inp address m n kids t t' := by
  have hval : t'.value = { t.value with word := 2, elements := a } ∧
      t'.savedContainer = t.savedContainer := by
    cases hb : n.item.accepted with
    | true => rw [hacc hb]; exact ⟨rfl, rfl⟩
    | false => obtain ⟨code, rfl⟩ := hrej hb; exact ⟨rfl, rfl⟩
  constructor
  · intro h'
    rw [hacc h']
    exact ⟨rfl, rfl, rfl⟩
  · intro h'
    obtain ⟨code, rfl⟩ := hrej h'
    exact ⟨rfl, rfl⟩
  · exact hval.2
  · rintro (h | h | h) <;> rw [hk] at h <;> cases h
  · intro _
    rw [harr, hhold, hval.1, hlen]
    exact ⟨rfl, rfl, fun h => (nomatch h), fun _ => rfl⟩
  · intro _ h'; rw [hk] at h'; cases h'
  · intro _ h'; rw [hk] at h'; cases h'
  · intro _
    rw [harr]
    exact ⟨by simp, hhold, hlen⟩
  · exact fun _ => hhold
  · exact .inr (.inr (.inr hk))
  · intro h'; rw [hk] at h'; cases h'
  · intro _ h'
    rw [harr] at h'
    cases h'
  · intro _
    cases hb : n.item.accepted with
    | true => rw [hacc hb]
    | false => obtain ⟨code, rfl⟩ := hrej hb; rfl
  · intro h'; rw [hk] at h'; cases h'
  · rw [harr, Item.hasArray, hk]
    rfl

/-- The flags of a state do not depend on a type's role. -/
theorem typedefFlagsTest_setRole {role mask : TypedefFlags} (hrole : IsRole role)
    (hmask : mask &&& roleMask = 0#32) (t : AmqpType) :
    (t.typedefFlagsSet role).typedefFlagsTest mask = t.typedefFlagsTest mask := by
  simp only [AmqpType.typedefFlagsTest, AmqpType.typedefFlagsSet]
  rw [or_and_of_disjoint (hrole.disjoint hmask)]

theorem markInvalid_typeIsInvalid (t : AmqpType) (code : ErrorCode) :
    (t.markInvalid code).typeIsInvalid = true := by
  simp only [AmqpType.typeIsInvalid, AmqpType.typedefFlagsTest, AmqpType.markInvalid,
    AmqpType.typedefFlagsSet, bne_iff_ne]
  intro h
  have := congrArg (BitVec.getLsbD · 25) h
  simp only [BitVec.getLsbD_and, BitVec.getLsbD_or] at this
  have e : isInvalid.getLsbD 25 = true := by decide
  simp only [e, Bool.or_true, Bool.true_or, Bool.and_self] at this
  exact absurd this (by decide)

/-- The validity flag of a type, as the outline has it. -/
theorem RecordFits.valid {n : Node} {kids : Layout} {address : Nat} {r : AmqpType}
    (h : RecordFits inp address P n kids r) : r.typeIsInvalid = !n.item.accepted := by
  obtain ⟨stale, k, -, ⟨-, hk⟩, hf⟩ := h
  cases hl : amqpTypeMetaDataLookup n.item.code with
  | none =>
    simp only [hl] at hf
    obtain ⟨hacc, -, -, -, rfl⟩ := hf
    rw [hacc, markInvalid_typeIsInvalid]
    rfl
  | some m' =>
    simp only [hl] at hf hk
    cases hacc : n.item.accepted with
    | true =>
      obtain ⟨hcon, -, -⟩ := hf.accepted hacc
      have hflags := (table_flags m' (lookup_mem hl).1).1
      have hz : m'.typedefFlags &&& (isInvalid ||| isIncomplete) = 0#32 := by
        refine BitVec.eq_of_getLsbD_eq fun i hi => ?_
        have e := congrArg (BitVec.getLsbD · i) hflags
        simp only [BitVec.getLsbD_and, BitVec.getLsbD_or, BitVec.getLsbD_zero] at e ⊢
        revert e
        cases m'.typedefFlags.getLsbD i <;> cases isInvalid.getLsbD i <;>
          cases isIncomplete.getLsbD i <;> simp
      simp only [AmqpType.typeIsInvalid, AmqpType.typedefFlagsTest, hcon, hk.2, hz]
      rfl
    | false =>
      obtain ⟨hcon, -⟩ := hf.rejected hacc
      have := markInvalid_typeIsInvalid { stale with constructor := k } .bufferWouldOverrun
      simp only [AmqpType.typeIsInvalid, AmqpType.typedefFlagsTest, AmqpType.markInvalid] at this ⊢
      rw [hcon, this]
      rfl

theorem Fits.load_valid {n : Node} {kids : Layout} {address : Nat} (h : Fits c inp address P n kids) :
    ∃ r, c.load n.slot = .ok r ∧ r.typeIsValid = n.item.accepted := by
  obtain ⟨r, role, hrole, hrec, hload⟩ := h.record
  refine ⟨r.typedefFlagsSet role, by simp only [Context.load, hload], ?_⟩
  rw [AmqpType.typeIsValid, AmqpType.typeIsInvalid, typedefFlagsTest_setRole hrole (by decide),
    ← AmqpType.typeIsInvalid, hrec.valid, Bool.not_not]

theorem Laid.root {F : Layout} {address : Nat} {n : Node} (h : Laid c inp address P F)
    (hn : some n ∈ F.roots) : ∃ kids, Fits c inp address P n kids := by
  induction F with
  | nil => cases hn
  | hole rest ih =>
    simp only [Forest.roots, List.mem_cons, reduceCtorEq, false_or] at hn
    exact ih h hn
  | node a kids rest _ ih =>
    simp only [Forest.roots, List.mem_cons, Option.some.injEq] at hn
    rcases hn with rfl | hn
    · exact ⟨kids, h.1⟩
    · exact ih h.2.2 hn

/-- A single tree of a layout, and the outline and pointer it stands for. -/
theorem Lays.single {w address : Nat} {c' : Context} {F : Layout} {tree : Option Outline}
    {ptr : Option Slot} (h : Lays P w inp address c live (.cons tree .nil) c' F)
    (hptr : F.pointers = [ptr]) :
    (tree = none ∧ ptr = none ∧ F = .hole .nil) ∨
    ∃ o n kids, tree = some o ∧ ptr = some n.slot ∧ F = .node n kids .nil ∧ n.item = o.1 := by
  have hout := h.outline
  match F, hptr with
  | .hole .nil, hptr =>
    cases tree with
    | none => exact .inl ⟨rfl, by simpa [Layout.pointers, Forest.roots] using hptr.symm, rfl⟩
    | some o => cases hout
  | .node n kids .nil, hptr =>
    cases tree with
    | none => cases hout
    | some o =>
      refine .inr ⟨o, n, kids, rfl, ?_, rfl, ?_⟩
      · simpa [Layout.pointers, Forest.roots] using hptr.symm
      · simp only [Layout.outline, Forest.map, Forest.cons, Forest.node.injEq] at hout
        exact hout.1

/-- Described types. -/
theorem call_described (hsim : StepSimulates P inp (amqpDecodeWith recurse)
      (walkDecode (walkInto inp fuel) inp) fuel) (hb : b.input = inp) (hr : Ready P c live)
    (hi : b.index ≤ b.size) (hbound : b.size - b.index ≤ fuel) (hm : m ∈ typeLookupTable.toList)
    (hk : m.kind = .described) : CallSimulates P inp recurse fuel c live b m t start s := by
  have hcall : m.typeDecoder.call recurse c b m t = amqpDecodeDescribedType recurse c b m t := by
    simp only [EncodingMetaData.kind] at hk
    generalize m.typeDecoder = d at hk
    cases d <;> simp only [TypeDecoder.kind, reduceCtorEq] at hk
    rfl
  have hsz : inp.size = b.size := by rw [← hb]; rfl
  have hstop := walkDecode_bounds (walkInto_bounds inp fuel) (i := b.index) (by omega)
  have hwalk : walkInto inp (fuel + 1) m start b.index =
      walkDescribed (walkDecode (walkInto inp fuel) inp) m start b.index := by
    rw [walkInto, hk]
  unfold CallSimulates
  rw [hwalk, hcall, amqpDecodeDescribedType]
  clear hwalk hcall
  generalize walkDecode (walkInto inp fuel) inp = next at hsim hstop
  set j := stopOf (next b.index) b.index with hj
  have hsplit : (walkDescribed next m start b.index).Supported ↔
      (Forest.cons (next b.index) .nil).All Item.Supported ∧
      (Forest.cons (next j) .nil).All Item.Supported := by
    rw [← Forest.all_append, Forest.append_cons]
    refine and_iff_right ?_
    rw [Item.Supported, Item.kind, Item.metaData, walkDescribed, lookup_self m hm, Option.map_some,
      hk]
    decide
  obtain ⟨a, c1, halloc, hg1, htr1, htypes1, hget1⟩ := allocateArray_spec hr 2
  have hw : a ∈ c1.arrays.dom := Heap.mem_dom_iff.2 ⟨_, hget1⟩
  have hw0 : a ≠ 0 := by rintro rfl; simp at hget1
  have hr1 := hr.grow hg1
  obtain ⟨hok1, herr1⟩ := hsim c1 _ b hb hr1 hi hbound
  rw [hsplit]
  simp only [halloc, Fault.ok_bind]
  -- all endings build the same layout
  have hend : ∀ {c' : Context} {F : Layout} (t' : AmqpType),
      Lays P a inp b.address c1 (live ∪ ([] : List Slot).toFinset)
        (.cons (next b.index) (.cons (next j) .nil)) c' F →
      F.length = 2 → c'.arrays.get a = some (F.pointers ++ List.replicate 14 none) →
      Filled inp b.address m ⟨s, (walkDescribed next m start b.index).1, some a, none⟩ F t t' →
      Fills P inp b.address c live m (walkDescribed next m start b.index) t c' t'
        ⟨s, (walkDescribed next m start b.index).1, some a, none⟩ F := by
    intro c' F t' hlays hlen hget hfilled
    refine ⟨rfl, hlays.outline, ?_, by rw [hlays.trace, htr1], hlays.laid, hfilled, ?_,
      fun h hh => by cases hh⟩
    · simpa using hg1.trans_new hlays.grows
    · intro x hx
      cases hx
      exact ⟨_, hget, arrayHolds_pointers F (by rw [hlen]; rfl)⟩
  have hget1 : c1.arrays.get a = some (none :: none :: List.replicate 14 none) := hget1
  by_cases hs1 : (Forest.cons (next b.index) .nil).All Item.Supported
  case neg => rw [herr1 hs1, Fault.error_bind]; exact ⟨fun hs => absurd hs.1 hs1, fun _ => rfl⟩
  obtain ⟨ptr1, c2, F1, hcall1, hlays1, hptr1⟩ := hok1 hs1
  rw [hcall1, Fault.ok_bind]
  rcases hlays1.single hptr1 with ⟨htree1, rfl, rfl⟩ | ⟨o1, n1, k1, htree1, rfl, rfl, hn1⟩
  · -- no descriptor, and so no value either
    have hj0 : j = b.index := by rw [hj, htree1]; rfl
    rw [hj0] at hsplit hend ⊢
    simp only [walkDescribed, htree1, stopOf, acceptedOf, Option.elim, Bool.false_and] at hend ⊢
    refine ⟨fun _ => ⟨c2, _, _, .hole (.hole .nil), rfl, rfl, hend _ ?_ rfl ?_ ?_⟩,
      fun hs => absurd ⟨trivial, trivial⟩ hs⟩
    · exact ⟨rfl, hlays1.grows.weaken, hlays1.trace, trivial⟩
    · rw [hlays1.grows.get a hw hw0, hget1]
      rfl
    · exact Filled.described_any rfl rfl hk rfl (fun h => (by cases h)) fun _ => ⟨_, rfl⟩
  · obtain ⟨c3, hput1, hlays3, hget3⟩ := hlays1.put (i := 0) (isContained ||| isDescriptor)
      hptr1 hget1 (by simp) (by decide)
    obtain ⟨c2', hset1, hmod1⟩ := Fault.bind_eq_ok.1 hput1
    simp only [hset1, hmod1, Fault.ok_bind]
    obtain ⟨hok2, herr2⟩ := hsim c3 _ { b with index := j } hb (hr1.grow hlays3.grows)
      (by rw [← hsz]; exact hstop.2) (by simp only; omega)
    dsimp only at hok2 herr2
    by_cases hs2 : (Forest.cons (next j) .nil).All Item.Supported
    case neg => rw [herr2 hs2, Fault.error_bind]; exact ⟨fun hs => absurd hs.2 hs2, fun _ => rfl⟩
    obtain ⟨ptr2, c4, F2, hcall2, hlays4, hptr2⟩ := hok2 hs2
    rw [hcall2, Fault.ok_bind]
    have hget4 : c4.arrays.get a = some (some n1.slot :: none :: List.replicate 14 none) := by
      rw [hlays4.grows.get a ((hlays3.grows.dom a).2 (.inl hw)) hw0, hget3]
      rfl
    rcases hlays4.single hptr2 with ⟨htree2, rfl, rfl⟩ | ⟨o2, n2, k2, htree2, rfl, rfl, hn2⟩
    · -- a descriptor without a value
      have hacc : (walkDescribed next m start b.index).1.accepted = false := by
        show (acceptedOf (next b.index) && acceptedOf (next j)) = false
        rw [htree2]
        exact Bool.and_false _
      have hstop2 : (walkDescribed next m start b.index).1.stop = j := by
        show stopOf (next j) j = j
        rw [htree2]
        rfl
      refine ⟨fun _ => ⟨c4, _, _, .node n1 k1 (.hole .nil), rfl, by rw [hacc, hstop2, htree2]; rfl,
        hend _ ?_ rfl (by rw [hget4]; rfl) ?_⟩, fun hs => absurd ⟨hs1, hs2⟩ hs⟩
      · have := hlays3.append ⟨hlays4.outline, hlays4.grows.weaken, hlays4.trace, hlays4.laid⟩
          (.inr hw)
        rwa [Forest.append_cons] at this
      · exact Filled.described_any rfl rfl hk rfl (fun h => by rw [hacc] at h; cases h)
          fun _ => ⟨_, rfl⟩
    · -- both members
      obtain ⟨c5, hput2, hlays5, hget5⟩ := hlays4.put (i := 1) (isContained ||| isDescribed)
        (w := a) hptr2 hget3 (by simp) (by decide)
      obtain ⟨c4', hset2, hmod2⟩ := Fault.bind_eq_ok.1 hput2
      have hboth := hlays3.append hlays5 (.inr hw)
      rw [Forest.append_cons] at hboth
      obtain ⟨_, hfit1⟩ := hboth.laid.root (n := n1) (by simp [Forest.append, Forest.roots])
      obtain ⟨_, hfit2⟩ := hboth.laid.root (n := n2) (by simp [Forest.append, Forest.roots])
      obtain ⟨r1, hload1, hval1⟩ := hfit1.load_valid
      obtain ⟨r2, hload2, hval2⟩ := hfit2.load_valid
      have hacc : (walkDescribed next m start b.index).1.accepted =
          (n1.item.accepted && n2.item.accepted) := by
        show (acceptedOf (next b.index) && acceptedOf (next j)) = _
        rw [htree1, htree2, hn1, hn2]
        rfl
      have hstop2 : (walkDescribed next m start b.index).1.stop = stopOf (next j) j := rfl
      have hgetF : c5.arrays.get a =
          some (Layout.pointers (.node n1 k1 (.node n2 k2 .nil)) ++ List.replicate 14 none) := by
        rw [hget5]
        rfl
      simp only [hset2, hmod2, Fault.ok_bind, hload1, hload2, hval1, hval2]
      refine ⟨fun _ => ?_, fun hs => absurd ⟨hs1, hs2⟩ hs⟩
      rw [hacc, hstop2]
      cases h1 : n1.item.accepted with
      | false =>
        refine ⟨c5, _, _, .node n1 k1 (.node n2 k2 .nil), rfl, rfl, hend _ hboth rfl hgetF ?_⟩
        exact Filled.described_any rfl rfl hk rfl (fun h => by rw [hacc, h1] at h; cases h)
          fun _ => ⟨_, rfl⟩
      | true =>
        cases h2 : n2.item.accepted with
        | false =>
          refine ⟨c5, _, _, .node n1 k1 (.node n2 k2 .nil), rfl, rfl, hend _ hboth rfl hgetF ?_⟩
          exact Filled.described_any rfl rfl hk rfl (fun h => by rw [hacc, h1, h2] at h; cases h)
            fun _ => ⟨_, rfl⟩
        | true =>
          refine ⟨c5, _, _, .node n1 k1 (.node n2 k2 .nil), rfl, rfl, hend _ hboth rfl hgetF ?_⟩
          exact Filled.described_any rfl rfl hk rfl (fun _ => rfl)
            fun h => by rw [hacc, h1, h2] at h; cases h

/-- Types without elements. -/
theorem call_leaf_simulates (hb : b.input = inp) (hr : Ready P c live)
    (hm : m ∈ typeLookupTable.toList) (hk : m.kind.IsLeaf) :
    CallSimulates P inp recurse fuel c live b m t start s := by
  subst hb
  obtain ⟨t', hcall, hfilled, hnil⟩ := call_leaf recurse (c := c) (s := s) (t := t) hm hk
    fuel start
  have hsupp : (walkInto b.input (fuel + 1) m start b.index).Supported := by
    refine ⟨?_, by rw [hnil]; trivial⟩
    rw [Item.Supported, Item.kind, Item.metaData, (walkInto_code ..).1, lookup_self m hm,
      Option.map_some]
    rcases hk with h | h | h <;> rw [h] <;> decide
  exact ⟨fun _ => ⟨c, t', _, .nil, rfl, hcall, Fills.plain hr rfl hnil rfl rfl hfilled⟩,
    fun h => absurd hsupp h⟩

end

section
variable {P : AmqpType → Prop} {inp : Input}

/-- The asserts of `decode_type_into_result` hold of a type that was rejected. -/
theorem Filled.asserts {address : Nat} {m : EncodingMetaData} {n : Node} {kids : Layout}
    {t t' : AmqpType} (h : Filled inp address m n kids t t') (hacc : n.item.accepted = false) :
    (t'.invalidCause.isSome && t'.typeIsInvalid) = true := by
  obtain ⟨hcon, hcause⟩ := h.rejected hacc
  have := markInvalid_typeIsInvalid t .bufferWouldOverrun
  simp only [AmqpType.typeIsInvalid, AmqpType.typedefFlagsTest, AmqpType.markInvalid] at this ⊢
  rw [hcause, hcon, this]
  rfl

/-- The decoder, recursion and all, follows the outline. -/
theorem decodeTypeIntoResult_simulates (P : AmqpType → Prop) (inp : Input) (fuel : Nat) :
    Simulates P inp (decodeTypeIntoResult fuel) (walkInto inp fuel) fuel := by
  induction fuel with
  | zero =>
    intro c live b t m start s _ _ _ hlt
    exact absurd hlt (Nat.not_lt_zero _)
  | succ fuel ih =>
    intro c live b t m start s hb hr hi hlt hm hmeta
    have hstep := amqpDecodeWith_simulates ih (walkInto_code inp fuel)
    have hbound : b.size - b.index ≤ fuel := by omega
    have hcall : CallSimulates P inp (decodeTypeIntoResult fuel) fuel c live b m t start s := by
      cases hk : m.kind with
      | zero => exact call_leaf_simulates hb hr hm (.inl hk)
      | fixed => exact call_leaf_simulates hb hr hm (.inr (.inl hk))
      | variableWidth => exact call_leaf_simulates hb hr hm (.inr (.inr hk))
      | compound => exact call_compound hstep hb hr hbound hm hk
      | array => exact call_array ih hb hr hbound hm hk
      | described => exact call_described hstep hb hr hi hbound hm hk
      | unsupported =>
        refine ⟨fun hs => absurd ?_ hs.1, fun _ => ?_⟩
        · rw [Item.kind, Item.metaData, (walkInto_code ..).1, lookup_self m hm, Option.map_some, hk]
        · simp only [EncodingMetaData.kind] at hk
          generalize m.typeDecoder = d at hk
          cases d <;> simp only [TypeDecoder.kind, reduceCtorEq] at hk <;> rfl
    rw [decodeTypeIntoResult, hmeta]
    simp only
    refine ⟨fun hs => ?_, fun hs => by rw [hcall.2 hs, Fault.error_bind]⟩
    obtain ⟨c', t', n, kids, hns, hrun, hfills⟩ := hcall.1 hs
    refine ⟨c', t', n, kids, hns, ?_, hfills⟩
    rw [hrun, Fault.ok_bind]
    cases hacc : (walkInto inp (fuel + 1) m start b.index).1.accepted with
    | true => rfl
    | false =>
      rw [← hfills.item] at hacc
      simp only [Bool.false_eq_true, if_false, hfills.filled.asserts hacc, if_true]

variable {c : Context} {live : Finset Slot} {b : Buffer}

/-- The outline of a buffer from its read index on. -/
def Buffer.outline (b : Buffer) : Option Outline := Amqp.outline b.input b.index

theorem amqpDecode_simulates (hr : Ready P c live) (hi : b.index ≤ b.size) :
    ((Forest.cons b.outline .nil).All Item.Supported → ∃ ptr c' F,
      amqpDecode c b = .ok (ptr, c', { b with index := stopOf b.outline b.index }) ∧
      Lays P 0 b.input b.address c live (.cons b.outline .nil) c' F ∧ F.pointers = [ptr]) ∧
    (¬ (Forest.cons b.outline .nil).All Item.Supported → amqpDecode c b = .error .notImplemented) :=
  amqpDecodeWith_simulates (decodeTypeIntoResult_simulates P b.input _) (walkInto_code b.input _) c
    live b rfl hr hi (Nat.le_succ _)

/-- What a run of `amqp_decode` that returned has done. -/
theorem amqpDecode_ok {ptr : Option Slot} {c' : Context} {b' : Buffer} (hr : Ready P c live)
    (hi : b.index ≤ b.size) (h : amqpDecode c b = .ok (ptr, c', b')) :
    b' = { b with index := stopOf b.outline b.index } ∧
      ∃ F, Lays P 0 b.input b.address c live (.cons b.outline .nil) c' F ∧ F.pointers = [ptr] := by
  obtain ⟨hok, herr⟩ := amqpDecode_simulates hr hi
  by_cases hs : (Forest.cons b.outline .nil).All Item.Supported
  · obtain ⟨ptr', c'', F, hcall, hlays, hptr⟩ := hok hs
    rw [hcall] at h
    cases h
    exact ⟨rfl, F, hlays, hptr⟩
  · rw [herr hs] at h
    cases h

end
end Amqp
