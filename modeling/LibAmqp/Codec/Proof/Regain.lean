import LibAmqp.Codec.Proof.InPlace
import LibAmqp.Codec.Proof.RoundTrip

/-!
# Decoding what encoder calls left behind

`Regains c b stop vs`: `amqp_decode` returns the values `vs` and leaves the read index at `stop`;
`RegainsInPlace` says that of each value in them too.

* `CallTree.regains`: values that are in place are regained.
* `CallTree.inPlace_of_decode`: the only ones that are, unless an empty array takes what is behind it.
-/

namespace Amqp

open Lib Memory Buffer

def Regains (c : Context) (b : Buffer) (stop : Nat) (vs : Values) : Prop :=
  ∃ s c', amqpDecode c b = .ok (some s, c', { b with index := stop }) ∧ Holds c' b vs [some s]

/-- The values are regained, and every one of them was decoded from its own bytes. -/
def RegainsInPlace (c : Context) (b : Buffer) (stop : Nat) (cs : CallTree) : Prop :=
  ∃ s c' events, amqpDecode c b = .ok (some s, c', { b with index := stop }) ∧
    Holds c' b cs.values [some s] ∧ c'.trace = c.trace ++ events ∧
    events.map (fun e => (e.start, e.stop)) = cs.bounds false b.index

section
variable {P : AmqpType → Prop} {c : Context} {live : Finset Slot} {b : Buffer}

/-! ## Calls without elements -/

/-- The number of a call is in its type exactly if it fits. -/
theorem Leaf.stored_iff (inArray : Bool) {l : Leaf} {t : AmqpType}
    (hvalue : t.value = (l.encoding inArray).1.typeDecoder.fill b.address (l.encoding inArray).2
      AmqpType.zero.value)
    (hbytes : b.bytes t.position.index t.position.size = (l.encoding inArray).2) :
    l.value.Stored b t ↔ l.exact = true := by
  have hbyte : ∀ x : Nat, x % 256 < 256 ^ 4 ∧ x % 256 < 256 ^ 8 := by
    intro x
    have := Nat.mod_lt x (show 0 < 256 by decide)
    omega
  cases l with
  | scalar v => exact iff_of_true (Scalar.stored_fill inArray hvalue hbytes) rfl
  | uint0 | ulong0 =>
    rw [Leaf.value, Scalar.Stored, hvalue]
    exact iff_of_true rfl rfl
  | smallUint v =>
    have hlow : t.value.low 4 = v.toNat % 256 := by
      rw [hvalue]
      exact low_widened (n := 4) id (hbyte _).1
    rw [Leaf.value, Scalar.Stored, hlow, Leaf.exact, decide_eq_true_iff]
    omega
  | smallUlong v =>
    have hlow : t.value.low 8 = v.toNat % 256 := by
      rw [hvalue]
      exact low_widened (n := 8) id (hbyte _).2
    rw [Leaf.value, Scalar.Stored, hlow, Leaf.exact, decide_eq_true_iff]
    omega
  | smallInt v =>
    have hlow : t.value.low 4 = signExtend 4 (v.toNat % 256) := by
      rw [hvalue]
      refine low_widened (n := 4) (signExtend 4) ?_
      rw [← signExtend_byte v 4 rfl (by decide)]
      exact BitVec.isLt _
    rw [Leaf.value, Scalar.Stored, hlow]
    exact signExtend_fits 4 rfl (by decide)
  | smallLong v =>
    have hlow : t.value.low 8 = signExtend 8 (v.toNat % 256) := by
      rw [hvalue]
      refine low_widened (n := 8) (signExtend 8) ?_
      rw [← signExtend_byte v 8 rfl (by decide)]
      exact BitVec.isLt _
    rw [Leaf.value, Scalar.Stored, hlow]
    exact signExtend_fits 8 rfl (by decide)
  | binaryVbin8 v | binaryVbin32 v | symbolSym8 v | symbolSym32 v =>
    refine iff_of_true ⟨?_, hbytes⟩ rfl
    rw [hvalue]
    rfl

theorem Leaf.encoding_flags (inArray : Bool) (l : Leaf) :
    (l.encoding inArray).1.typedefFlags &&& valueMask = l.value.flags := by
  cases l with
  | scalar v => exact v.encoding_flags inArray
  | uint0 | ulong0 | smallUint | smallInt | smallUlong | smallLong | binaryVbin8 | binaryVbin32
  | symbolSym8 | symbolSym32 =>
    simp only [Leaf.encoding, Leaf.value, Scalar.flags]
    decide

theorem EncodingMetaData.OfLeaf.isLeaf {m : EncodingMetaData} (h : m.OfLeaf) : m.kind.IsLeaf := h.1

/-! ## What was found is held -/

theorem Laid.holds_found (hP : ∀ t, P t → t.value = AmqpType.zero.value) {cs : CallTree} :
    ∀ {inArray : Bool} {i : Nat} {F : Layout}, Laid c b.input b.address P F →
      Found b.input inArray i cs F.outline → Holds c b cs.values F.pointers := by
  induction cs with
  | nil =>
    intro _ _ F _ h
    cases F with
    | nil => rfl
    | hole | node => exact h.elim
  | leaf l rest ih =>
    intro inArray i F hlaid h
    cases F with
    | nil | hole => exact h.elim
    | node n kids F =>
      obtain ⟨-, hexact, hacc, hcode, hbytes, -, hrest⟩ := h
      have hlookup : amqpTypeMetaDataLookup n.item.code = some (l.encoding inArray).1 := by
        rw [show n.item.code = _ from hcode]
        exact lookup_self _ (l.encoding_mem inArray)
      obtain ⟨t, hload, hvalid, hpos, hflags, hval⟩ := hlaid.1.leaf_value hP hacc hlookup
      refine ⟨n.slot, t, Layout.pointers F, rfl, hload, hvalid, ?_, ?_, ih hlaid.2.2 hrest⟩
      · rw [hflags, l.encoding_flags]
      · refine (l.stored_iff inArray ?_ ?_).2 hexact
        · rw [hval (l.encoding_leaf inArray).isLeaf, ← hbytes]
        · rw [hpos]
          exact hbytes
  | container k elements rest ihk ihr =>
    intro inArray i F hlaid h
    cases F with
    | nil | hole => exact h.elim
    | node n kids F =>
      obtain ⟨hacc, hcode, -, hkids, hrest⟩ := h
      obtain ⟨t, hload, hvalid, hflags, hcount, helem⟩ := hlaid.1.container hP hacc hcode
      exact ⟨n.slot, t, Layout.pointers kids, Layout.pointers F, rfl, hload, hvalid, hflags, hcount,
        helem, ihk hlaid.2.1 hkids, ihr hlaid.2.2 hrest⟩

/-! ## What is held was in place -/

/-- The index before and after each type of a layout. -/
def Layout.spans (F : Layout) : List (Nat × Nat) := F.labels.map fun n => (n.item.start, n.item.stop)

theorem Found.labels {inp : Input} {cs : CallTree} : ∀ {inArray : Bool} {i : Nat} {O : Forest Item},
    Found inp inArray i cs O → O.labels.map (fun item => (item.start, item.stop)) = cs.bounds inArray i := by
  induction cs with
  | nil =>
    intro _ _ O h
    cases O with
    | nil => rfl
    | hole | node => exact h.elim
  | leaf l rest ih =>
    intro _ _ O h
    cases O with
    | nil | hole => exact h.elim
    | node item kids O =>
      obtain ⟨rfl, -, -, -, -, hspan, hrest⟩ := h
      have hstop := congrArg Prod.snd hspan
      dsimp only at hstop
      rw [Forest.labels, Forest.labels, List.nil_append, List.map_cons, ih hrest, hspan, hstop]
      rfl
  | container k elements rest ihe ihr =>
    intro _ _ O h
    cases O with
    | nil | hole => exact h.elim
    | node item kids O =>
      obtain ⟨-, -, hspan, hkids, hrest⟩ := h
      have hstop := congrArg Prod.snd hspan
      dsimp only at hstop
      rw [Forest.labels, List.map_append, List.map_cons, ihe hkids, ihr hrest, hspan, hstop]
      rfl

theorem Found.spans {inp : Input} {cs : CallTree} {inArray : Bool} {i : Nat} {F : Layout}
    (h : Found inp inArray i cs F.outline) : F.spans = cs.bounds inArray i := by
  rw [← h.labels, Layout.outline, Forest.labels_map, List.map_map]
  rfl

/-- The bytes of a value of variable width are in the buffer. -/
theorem Leaf.stored_bytes {inArray : Bool} {l : Leaf} {t : AmqpType}
    (hk : (l.encoding inArray).1.kind = .variableWidth) (h : l.value.Stored b t) :
    b.bytes t.position.index t.position.size = (l.encoding inArray).2 := by
  cases l with
  | scalar v =>
    cases v with
    | binary | string | symbol => exact h.2
    | null | ubyte | byte | ushort | short | timestamp | float | double | uuid => cases hk
    | boolean v | uint v | int v | ulong v | long v =>
      revert hk
      simp only [Leaf.encoding, Scalar.encoding]
      (repeat' split) <;> exact fun hk => by cases hk
  | uint0 | ulong0 | smallUint | smallInt | smallUlong | smallLong => cases hk
  | binaryVbin8 | binaryVbin32 | symbolSym8 | symbolSym32 => exact h.2

/-- The contents of a type without elements say that its call was in place. -/
theorem Fits.inPlace {n : Node} {kids : Layout} {l : Leaf} {inArray behind : Bool} {s : Slot}
    {t : AmqpType} (hP : ∀ t, P t → t.value = AmqpType.zero.value)
    (h : Fits c b.input b.address P n kids) (hcode : n.item.code = (l.part inArray).code)
    (hin : l.inPlace behind = true ↔ l.exact = true ∧ n.item.accepted = true ∧
      b.input.bytes n.item.index n.item.size = (l.encoding inArray).2)
    (hbytes : (l.encoding inArray).1.kind ≠ .variableWidth →
      b.input.bytes n.item.index n.item.size = (l.encoding inArray).2)
    (hs : n.slot = s) (hload : c.types.load s = some t) (hvalid : t.typeIsValid = true)
    (hstored : l.value.Stored b t) : l.inPlace behind = true := by
  subst hs
  obtain ⟨t0, hload0, hvalid0, -⟩ := h.seen
  obtain rfl : t = t0 := Option.some.inj (hload.symm.trans hload0)
  have hacc : n.item.accepted = true := hvalid0.symm.trans hvalid
  have hlookup : amqpTypeMetaDataLookup n.item.code = some (l.encoding inArray).1 := by
    rw [hcode]
    exact lookup_self _ (l.encoding_mem inArray)
  obtain ⟨t', hload', -, hpos, -, hval⟩ := h.leaf_value hP hacc hlookup
  obtain rfl : t = t' := Option.some.inj (hload.symm.trans hload')
  have hread : b.input.bytes n.item.index n.item.size = (l.encoding inArray).2 := by
    by_cases hk : (l.encoding inArray).1.kind = .variableWidth
    · have hread := Leaf.stored_bytes hk hstored
      rwa [hpos] at hread
    · exact hbytes hk
  refine hin.2 ⟨(l.stored_iff inArray ?_ ?_).1 hstored, hacc, hread⟩
  · rw [hval (l.encoding_leaf inArray).isLeaf, hread]
  · rw [hpos]
    exact hread

/-- Values that the decoder holds were in place. -/
theorem CallTree.inPlace_of_holds (hP : ∀ t, P t → t.value = AmqpType.zero.value)
    (hsize : b.size < Buffer.sizeError) (cs : CallTree) : ∀ {inArray behind : Bool} {fuel i : Nat}
    {e : Option EncodingMetaData} {F : Layout}, Constructs inArray cs e →
    b.input.At i (cs.bytes inArray) → (behind = true ↔ i + (cs.bytes inArray).length < b.size) →
    b.size - i < fuel + lead inArray → cs.OneCode →
    F.outline = (walkMany (walkNext b.input fuel e) cs.length i).1 →
    Laid c b.input b.address P F → Holds c b cs.values F.pointers →
    (cs.NoEmptyArray ∨ ∃ xs ys, F.spans ++ xs = cs.bounds inArray i ++ ys) →
    cs.InPlace inArray behind := by
  induction cs with
  | nil => exact fun _ _ _ _ _ _ _ _ _ => trivial
  | leaf l rest ih =>
    intro inArray behind fuel i e F he hat hbehind hfuel hone hout hlaid hholds hend
    have hcs : (CallTree.leaf l rest).parts inArray = l.part inArray :: rest.parts inArray := rfl
    obtain ⟨he', hbody, hrest, m, f, hm, hmc, rfl, hf, hnext⟩ := walkNext_first he hcs hat hfuel
    rw [CallTree.bytes_cons hcs] at hat hbehind
    have hfirst := @behind_first b.input _ _ _ _ _ hbehind hat
    obtain ⟨item, hwalk, hcode, hstart, hiff, hstop, hbytes⟩ := l.walk hm hmc hbody hsize hfirst i f
    obtain ⟨s, t, ptrs, hptrs, hload, hvalid, -, hstored, hholds⟩ := hholds
    cases F with
    | nil | hole => cases hptrs
    | node n kids F =>
      obtain ⟨hs, rfl⟩ : n.slot = s ∧ Layout.pointers F = ptrs := by
        simpa [Layout.pointers, Forest.roots] using hptrs
      simp only [CallTree.length, walkMany, hnext, hwalk, stopOf, Option.elim_some] at hout
      obtain ⟨rfl, hkids, hafter⟩ : n.item = item ∧ Layout.outline kids = .nil ∧ Layout.outline F = _ := by
        simpa [Layout.outline, Forest.map, Forest.cons] using hout
      obtain rfl : kids = .nil := by
        cases kids <;> first | rfl | cases hkids
      have hin := hlaid.1.inPlace hP hcode hiff hbytes hs hload hvalid hstored
      have hj := hstop hin
      rw [Nat.add_assoc, ← Part.length_bytes] at hj
      have hfuel' : b.size - n.item.stop < f + 1 + lead inArray := by omega
      refine ⟨hin, ih he' (hj ▸ hrest) ?_ hfuel' hone hafter hlaid.2.2 hholds ?_⟩
      · rw [hj, hbehind, List.length_append, Nat.add_assoc]
      · refine hend.imp id fun hspans => ?_
        obtain ⟨xs, ys, h⟩ := hspans
        refine ⟨xs, ys, ?_⟩
        rw [Layout.spans, Forest.labels, Forest.labels, List.nil_append] at h
        rw [hj]
        exact (List.cons.inj h).2
  | container k elements rest ihe ihr =>
    intro inArray behind fuel i e F he hat hbehind hfuel hone hout hlaid hholds hend
    have hcs : (CallTree.container k elements rest).parts inArray =
        k.part inArray (elements.parts k.isArray) :: rest.parts inArray := rfl
    obtain ⟨he', hbody, hrest, m, f, hm, hmc, rfl, hf, hnext⟩ := walkNext_first he hcs hat hfuel
    rw [CallTree.bytes_cons hcs] at hat hbehind
    have hfirst := @behind_first b.input _ _ _ _ _ hbehind hat
    obtain ⟨hcode, hone', hone''⟩ := hone
    have htakes := Former.walk hm hmc hcode hbody hsize hf hfirst i
    generalize walkInto b.input (f + 1) m i (i + lead inArray) = o at hnext htakes
    obtain ⟨item, kidsO⟩ := o
    obtain ⟨s, t, kids', ptrs, hptrs, hload, hvalid, -, hcount, helem, hholdsk, hholds⟩ := hholds
    cases F with
    | nil | hole => cases hptrs
    | node n kids F =>
      obtain ⟨rfl, rfl⟩ : n.slot = s ∧ Layout.pointers F = ptrs := by
        simpa [Layout.pointers, Forest.roots] using hptrs
      simp only [CallTree.length, walkMany, hnext, stopOf, Option.elim_some] at hout
      obtain ⟨rfl, hkids, hout⟩ : n.item = item ∧ Layout.outline kids = kidsO ∧ Layout.outline F = _ := by
        simpa [Layout.outline, Forest.map, Forest.cons] using hout
      obtain ⟨t0, hload0, hvalid0, -⟩ := hlaid.1.seen
      obtain rfl : t = t0 := Option.some.inj (hload.symm.trans hload0)
      have hacc : n.item.accepted = true := hvalid0.symm.trans hvalid
      obtain ⟨t', hload', -, -, hcount', helem'⟩ :=
        hlaid.1.container hP hacc (htakes.code.trans hmc)
      obtain rfl : t = t' := Option.some.inj (hload.symm.trans hload')
      obtain rfl : kids' = Layout.pointers kids := by
        refine List.ext_getElem? fun i => Option.ext fun x => ?_
        rw [← helem, ← helem']
      have hlen : kidsO.length = elements.length := by
        have hk := hholdsk.length
        rw [Layout.length_pointers, ← CallTree.length_values] at hk
        rw [← hkids, Layout.outline, Forest.length_map, hk]
      have hlast : k.isArray = true → elements.length = 0 →
          n.item.stop = i + lead inArray + (k.part inArray (elements.parts k.isArray)).body.length := by
        intro ha h0
        rcases hend with h | ⟨xs, ys, h⟩
        · exact absurd h0 (h.1 ha)
        · have hnil : kids = .nil := by
            rw [h0, ← hkids, Layout.outline, Forest.length_map] at hlen
            cases kids <;> first | rfl | cases hlen
          have helems : elements = .nil := by
            cases elements <;> first | rfl | cases h0
          subst hnil helems
          have hhead := congrArg Prod.snd (List.cons.inj h).1
          dsimp only at hhead
          rw [hhead, Part.length_bytes, Nat.add_assoc]
      obtain ⟨hcounts, -, e', j, hce, hatj, hfj, hj, hkids', hstop⟩ :=
        htakes.counts (.inr ⟨hacc, hlen, hlast⟩)
      dsimp only at hkids' hstop
      have hfk : b.input.size - j < f + lead k.isArray := by
        cases hk : k.isArray <;> simpa [lead, hk] using hfj
      have hin : elements.InPlace k.isArray (behind || !(rest.bytes inArray).isEmpty) := by
        refine ihe hce hatj ?_ hfk hone' (hkids.trans hkids') hlaid.2.1 hholdsk ?_
        · rw [hj]
          exact hfirst
        · refine hend.imp (·.2.1) fun hspans => ?_
          obtain ⟨xs, ys, h⟩ := hspans
          rw [Layout.spans, Forest.labels, List.map_append, CallTree.bounds] at h
          simp only [Part.length_bytes, ← Nat.add_assoc, ← hj, Nat.add_sub_cancel, List.append_assoc] at h
          exact ⟨_, _, h⟩
      obtain ⟨hfound, hlast⟩ :=
        elements.walks hce hatj (by rw [hj]; exact hfirst) hsize hfk hone' hin
      rw [← hstop, hj, Nat.add_assoc, ← Part.length_bytes] at hlast
      have hfuel' : b.size - n.item.stop < f + 1 + lead inArray := by omega
      refine ⟨hcounts, hin, ihr he' (hlast ▸ hrest) ?_ hfuel' hone'' hout hlaid.2.2 hholds ?_⟩
      · rw [hlast, hbehind, List.length_append, Nat.add_assoc]
      · refine hend.imp (·.2.2) fun hspans => ?_
        obtain ⟨xs, ys, h⟩ := hspans
        refine ⟨xs, ys, ?_⟩
        rw [← hkids'] at hfound
        have hspans := Found.spans (hkids ▸ hfound)
        rw [Layout.spans, Forest.labels, List.map_append, CallTree.bounds] at h
        simp only [Part.length_bytes, ← Nat.add_assoc, ← hj, Nat.add_sub_cancel, List.append_assoc,
          ← hspans] at h
        have htail := List.append_cancel_left (show Layout.spans kids ++ _ = _ from h)
        rw [hlast, Part.length_bytes, ← Nat.add_assoc, ← hj]
        exact (List.cons.inj htail).2

/-! ## Calls of the decoder -/

theorem Found.supported {inp : Input} {cs : CallTree} : ∀ {inArray : Bool} {i : Nat} {O : Forest Item},
    Found inp inArray i cs O → O.All Item.Supported := by
  have hknown : ∀ {item : Item} {kids : Forest Item} {m : EncodingMetaData},
      m ∈ typeLookupTable.toList → item.code = m.formatCode → m.kind ≠ .unsupported →
        item.Supported kids := by
    intro item kids m hm hcode hk
    rw [Item.Supported, Item.kind, Item.metaData, hcode, lookup_self m hm, Option.map_some]
    exact fun h => hk (Option.some.inj h)
  induction cs with
  | nil =>
    intro _ _ O h
    cases O with
    | nil => trivial
    | hole | node => exact h.elim
  | leaf l rest ih =>
    intro inArray _ O h
    cases O with
    | nil | hole => exact h.elim
    | node item kids rest =>
      obtain ⟨rfl, -, -, hcode, -, -, hrest⟩ := h
      refine ⟨hknown (l.encoding_mem inArray) hcode ?_, trivial, ih hrest⟩
      rcases (l.encoding_leaf inArray).1 with hk | hk | hk <;> rw [hk] <;> decide
  | container k elements rest ihe ihr =>
    intro inArray _ O h
    cases O with
    | nil | hole => exact h.elim
    | node item kids rest =>
      obtain ⟨-, hcode, -, hkids, hrest⟩ := h
      refine ⟨?_, ihe hkids, ihr hrest⟩
      rcases k.part_code inArray (elements.parts k.isArray) with hk | ⟨-, -, hk⟩
      · refine hknown k.metaData_mem (hcode.trans hk) ?_
        cases k <;> decide
      · exact hknown (m := .list0) (by decide) (hcode.trans hk) (by decide)

variable {cs : CallTree} {behind : Bool}

/-- One value that is in place is regained, each value in it from its own bytes. -/
theorem CallTree.regains (hr : Ready P c live) (hP : ∀ t, P t → t.value = AmqpType.zero.value)
    (hlen : cs.length = 1) (hone : cs.OneCode) (hat : b.input.At b.index cs.wire)
    (hbehind : behind = true ↔ b.index + cs.wire.length < b.size) (hsize : b.size < Buffer.sizeError)
    (hin : cs.InPlace false behind) : RegainsInPlace c b (b.index + cs.wire.length) cs := by
  obtain ⟨hfound, hstop⟩ := @CallTree.walks b.input cs _ _ (b.size - b.index + 1) _ none rfl hat
    hbehind hsize (Nat.lt_add_right _ (Nat.lt_succ_self _)) hone hin
  rw [hlen] at hfound hstop
  have hfound' : Found b.input false b.index cs (.cons b.outline .nil) := hfound
  have hi : b.index ≤ b.size := Nat.le_trans (Nat.le_add_right _ _) hat.1
  obtain ⟨ptr, c', F, hcall, hlays, hptr⟩ := (amqpDecode_simulates hr hi).1 hfound'.supported
  rw [show stopOf b.outline b.index = b.index + cs.wire.length from hstop] at hcall
  rw [← hlays.outline] at hfound'
  have hholds := hlays.laid.holds_found hP hfound'
  rw [hptr] at hholds
  have hevents : (Layout.events F).map (fun e => (e.start, e.stop)) = F.spans := by
    rw [Layout.events, List.map_map]
    rfl
  cases ptr with
  | some s => exact ⟨s, c', _, hcall, hholds, hlays.trace, hevents.trans hfound'.spans⟩
  | none => exact absurd hholds Holds.not_none

/-- One value that the decoder returns was in place, if no array is empty or each value was decoded from
its own bytes. -/
theorem CallTree.inPlace_of_decode (hr : Ready P c live)
    (hP : ∀ t, P t → t.value = AmqpType.zero.value)
    (hlen : cs.length = 1) (hone : cs.OneCode) (hat : b.input.At b.index cs.wire)
    (hbehind : behind = true ↔ b.index + cs.wire.length < b.size) (hsize : b.size < Buffer.sizeError)
    {s : Slot} {c' : Context} {b' : Buffer} (hcall : amqpDecode c b = .ok (some s, c', b'))
    (hholds : Holds c' b cs.values [some s])
    (hend : cs.NoEmptyArray ∨ ∃ events, c'.trace = c.trace ++ events ∧
      events.map (fun e => (e.start, e.stop)) = cs.bounds false b.index) : cs.InPlace false behind := by
  have hi : b.index ≤ b.size := Nat.le_trans (Nat.le_add_right _ _) hat.1
  obtain ⟨-, F, hlays, hptr⟩ := amqpDecode_ok hr hi hcall
  have hout : F.outline =
      (walkMany (walkNext b.input (b.size - b.index + 1) none) cs.length b.index).1 := by
    rw [hlen]
    exact hlays.outline
  refine cs.inPlace_of_holds hP hsize (e := none) rfl hat hbehind
    (Nat.lt_add_right _ (Nat.lt_succ_self _)) hone hout hlays.laid (hptr ▸ hholds) ?_
  refine hend.imp id fun ⟨events, htrace, hbounds⟩ => ⟨[], [], ?_⟩
  obtain rfl : Layout.events F = events := List.append_cancel_left (hlays.trace.symm.trans htrace)
  rw [List.append_nil, List.append_nil, ← hbounds, Layout.events, List.map_map]
  rfl

end
end Amqp
